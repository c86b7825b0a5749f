import Tapyrus.Block
/-!
# Merkle roots

Two properties of `ComputeMerkleRoot`, for any pair hash `SHA256D64`.

It computes the root the older `BlockBuildMerkleTree` of `merkle_tests.cpp`
computes (`ComputeMerkleRoot_eq_BlockBuildMerkleTree`). That version appends
every level to one array `vMerkleTree`, pairs position `i` with
`min(i + 1, nSize - 1)` where the new one doubles the last hash, and takes
the array's last element as the root.

Its `mutated` flag is complete on nonempty lists: two different nonempty
lists of the same depth with one root flag a mutation, or two different
pairs collide under the pair hash (`ComputeMerkleRoot_mutated_of_root_eq`).
Each level is undone by the pairing (`merklePairs_inj`): equal next levels
come from equal levels, or from a level that already ends in a duplicated
pair. No hashes and the single hash `uint256()` are the pair the flag does
not separate: same root, no rounds, no mutation.
-/

namespace Tapyrus

open Lib

section Merkle

variable (SHA256D64 : uint256 → uint256 → uint256)

/-! ## One level -/

@[simp] theorem merklePairs_length : ∀ l : List uint256, (merklePairs SHA256D64 l).length = (l.length + 1) / 2
  | _ :: _ :: rest => by
    simp only [merklePairs, List.length_cons, merklePairs_length rest]
    omega
  | [_] => by simp [merklePairs]
  | [] => rfl

theorem merklePairs_ne_nil {l : List uint256} (h : l ≠ []) : merklePairs SHA256D64 l ≠ [] := by
  intro he
  have := congrArg List.length he
  rw [merklePairs_length] at this
  have : 0 < l.length := List.length_pos_of_ne_nil h
  simp only [List.length_nil] at *
  omega

/-- The pair hash of positions `2k` and `2k + 1` of a level, the second
clamped to the level's last position. -/
def pairAt (l : List uint256) (k : Nat) : uint256 :=
  SHA256D64 (l.getD (2 * k) (Blob.zero 32)) (l.getD (min (2 * k + 1) (l.length - 1)) (Blob.zero 32))

theorem pairAt_cons_cons (a b : uint256) (rest : List uint256) {k : Nat} (hk : 2 * k < rest.length) :
    pairAt SHA256D64 (a :: b :: rest) (k + 1) = pairAt SHA256D64 rest k := by
  have h1 : 2 * (k + 1) = 2 * k + 1 + 1 := by omega
  have h2 : min (2 * (k + 1) + 1) ((a :: b :: rest).length - 1) = min (2 * k + 1) (rest.length - 1) + 1 + 1 := by
    simp only [List.length_cons]
    omega
  simp only [pairAt]
  rw [h2, h1]
  simp only [List.getD_cons_succ]

/-- Doubling the last hash of an odd level is pairing it with the clamped
position. -/
theorem merklePairs_eq_map : ∀ l : List uint256,
    merklePairs SHA256D64 l = (List.range ((l.length + 1) / 2)).map (pairAt SHA256D64 l)
  | a :: b :: rest => by
    have hlen : ((a :: b :: rest).length + 1) / 2 = (rest.length + 1) / 2 + 1 := by
      simp only [List.length_cons]
      omega
    have hhead : pairAt SHA256D64 (a :: b :: rest) 0 = SHA256D64 a b := by
      have h : min (2 * 0 + 1) ((a :: b :: rest).length - 1) = 0 + 1 := by
        simp only [List.length_cons]
        omega
      simp only [pairAt, h, List.getD_cons_succ, List.getD_cons_zero, Nat.mul_zero]
    rw [merklePairs, merklePairs_eq_map rest, hlen, List.range_succ_eq_map, List.map_cons, List.map_map, hhead]
    congr 1
    apply List.map_congr_left
    intro k hk
    have hk : k < (rest.length + 1) / 2 := List.mem_range.1 hk
    exact (pairAt_cons_cons SHA256D64 a b rest (by omega)).symm
  | [a] => by
    simp [merklePairs, pairAt]
  | [] => rfl

/-! ## The reference tree -/

/-- One round of the inner loop of `BlockBuildMerkleTree`, for `i = 2k` of
the level of `nSize` hashes at offset `j`: the pair `vMerkleTree[j+i]`,
`vMerkleTree[j+i2]` with `i2 = min(i + 1, nSize - 1)` is hashed and appended,
and two equal hashes ending the level set `mutated`. -/
def buildMerklePair (j nSize : Nat) (acc : List uint256 × Bool) (k : Nat) : List uint256 × Bool :=
  let (vMerkleTree, mutated) := acc
  let i := 2 * k
  let i2 := min (i + 1) (nSize - 1)
  let a := vMerkleTree.getD (j + i) (Blob.zero 32)
  let b := vMerkleTree.getD (j + i2) (Blob.zero 32)
  (vMerkleTree ++ [SHA256D64 a b], mutated || (i2 == i + 1 && i2 + 1 == nSize && a == b))

/-- The inner loop, `for (int i = 0; i < nSize; i += 2)`. -/
def buildMerkleLevel (j nSize : Nat) (acc : List uint256 × Bool) : List uint256 × Bool :=
  (List.range ((nSize + 1) / 2)).foldl (buildMerklePair SHA256D64 j nSize) acc

/-- The outer loop, `for (nSize = vtx.size(); nSize > 1; nSize = (nSize + 1) / 2)`,
with `j` the offset of the level; `fuel` bounds the levels. -/
def buildMerkleLevels : Nat → Nat → Nat → List uint256 × Bool → List uint256 × Bool
  | 0, _, _, acc => acc
  | fuel + 1, j, nSize, acc =>
    if nSize > 1 then buildMerkleLevels fuel (j + nSize) ((nSize + 1) / 2) (buildMerkleLevel SHA256D64 j nSize acc)
    else acc

/-- `BlockBuildMerkleTree(block, &fMutated, vMerkleTree)` on the block's
transaction hashes: the array's last element (`uint256()` when it is empty)
and `fMutated`. -/
def BlockBuildMerkleTree (hashes : List uint256) : uint256 × Bool :=
  let (vMerkleTree, mutated) := buildMerkleLevels SHA256D64 hashes.length 0 hashes.length (hashes, false)
  (vMerkleTree.getLastD (Blob.zero 32), mutated)

/-- The inner loop appends the next level: it reads only the current level,
which the appended hashes leave where it was. -/
theorem buildMerkleLevel_fst (pre lvl : List uint256) (m : Bool) :
    (buildMerkleLevel SHA256D64 pre.length lvl.length (pre ++ lvl, m)).1 = pre ++ lvl ++ merklePairs SHA256D64 lvl := by
  -- the loop over the pairs, with what it appended so far as `w`
  have hloop : ∀ (ks : List Nat) (w : List uint256) (m : Bool), (∀ k ∈ ks, 2 * k < lvl.length) →
      (ks.foldl (buildMerklePair SHA256D64 pre.length lvl.length) (pre ++ lvl ++ w, m)).1 =
        pre ++ lvl ++ w ++ ks.map (pairAt SHA256D64 lvl) := by
    intro ks
    induction ks with
    | nil => intro w m _; simp
    | cons k ks ih =>
      intro w m hks
      have hk := hks k List.mem_cons_self
      have hread : ∀ i, i < lvl.length → (pre ++ lvl ++ w).getD (pre.length + i) (Blob.zero 32) =
          lvl.getD i (Blob.zero 32) := by
        intro i hi
        rw [List.getD_append _ _ _ _ (by simp; omega), List.getD_append_right _ _ _ _ (by omega)]
        simp
      have hpair : (buildMerklePair SHA256D64 pre.length lvl.length (pre ++ lvl ++ w, m) k).1 =
          pre ++ lvl ++ (w ++ [pairAt SHA256D64 lvl k]) := by
        simp only [buildMerklePair]
        rw [hread (2 * k) hk, hread (min (2 * k + 1) (lvl.length - 1)) (by omega)]
        simp [pairAt]
      rw [List.foldl_cons, show buildMerklePair SHA256D64 pre.length lvl.length (pre ++ lvl ++ w, m) k =
        ((buildMerklePair SHA256D64 pre.length lvl.length (pre ++ lvl ++ w, m) k).1,
          (buildMerklePair SHA256D64 pre.length lvl.length (pre ++ lvl ++ w, m) k).2) from rfl, hpair,
        ih _ _ (fun k' hk' => hks k' (List.mem_cons_of_mem _ hk'))]
      simp
  have := hloop (List.range ((lvl.length + 1) / 2)) [] m (fun k hk => by
    have := List.mem_range.1 hk
    omega)
  rw [List.append_nil] at this
  rw [buildMerkleLevel, this, merklePairs_eq_map]

/-- Level by level, the reference's last element is the root the loop of
`ComputeMerkleRoot` reaches: both stop when one hash is left, and `fuel`
levels suffice for a level of at most `fuel + 1` hashes. -/
theorem buildMerkleLevels_getLastD : ∀ (fuel : Nat) (pre lvl : List uint256) (m m' : Bool),
    lvl ≠ [] → lvl.length ≤ fuel + 1 →
    (buildMerkleLevels SHA256D64 fuel pre.length lvl.length (pre ++ lvl, m)).1.getLastD (Blob.zero 32) =
      (computeMerkleRootAux SHA256D64 fuel lvl m').1 := by
  intro fuel
  induction fuel with
  | zero =>
    intro pre lvl m m' hne hlen
    obtain ⟨x, rfl⟩ : ∃ x, lvl = [x] := by
      match lvl, hne, hlen with
      | [x], _, _ => exact ⟨x, rfl⟩
    simp [buildMerkleLevels, computeMerkleRootAux]
  | succ fuel ih =>
    intro pre lvl m m' hne hlen
    by_cases hgt : lvl.length > 1
    · -- one more level on both sides
      obtain ⟨m2, hlev⟩ : ∃ m2, buildMerkleLevel SHA256D64 pre.length lvl.length (pre ++ lvl, m) =
          ((pre ++ lvl) ++ merklePairs SHA256D64 lvl, m2) :=
        ⟨_, Prod.ext (buildMerkleLevel_fst SHA256D64 pre lvl m) rfl⟩
      have hnext := ih (pre ++ lvl) (merklePairs SHA256D64 lvl) m2 (m' || hasEqualPair lvl)
        (merklePairs_ne_nil SHA256D64 hne) (by rw [merklePairs_length]; omega)
      rw [List.length_append, merklePairs_length] at hnext
      simp only [buildMerkleLevels, computeMerkleRootAux, hgt, if_true, hlev]
      exact hnext
    · obtain ⟨x, rfl⟩ : ∃ x, lvl = [x] := by
        match lvl, hne, hgt with
        | [x], _, _ => exact ⟨x, rfl⟩
        | _ :: _ :: _, _, h => exact absurd (by simp) h
      simp [buildMerkleLevels, computeMerkleRootAux]

theorem ComputeMerkleRoot_eq_BlockBuildMerkleTree (hashes : List uint256) :
    (ComputeMerkleRoot SHA256D64 hashes).1 = (BlockBuildMerkleTree SHA256D64 hashes).1 := by
  cases hashes with
  | nil => rfl
  | cons h t =>
    have := buildMerkleLevels_getLastD SHA256D64 (h :: t).length [] (h :: t) false false (by simp) (by omega)
    simpa [ComputeMerkleRoot, BlockBuildMerkleTree] using this.symm

/-! ## Mutation detection -/

/-- The rounds the loop of `ComputeMerkleRoot` makes on `n` hashes: the
tree's depth. -/
def merkleRounds (n : Nat) : Nat := if n ≤ 1 then 0 else merkleRounds ((n + 1) / 2) + 1
decreasing_by omega

theorem merkleRounds_eq_zero {n : Nat} (h : merkleRounds n = 0) : n ≤ 1 := by
  rw [merkleRounds] at h
  split at h
  · assumption
  · cases h

theorem merkleRounds_eq_succ {n r : Nat} (h : merkleRounds n = r + 1) : 1 < n ∧ merkleRounds ((n + 1) / 2) = r := by
  rw [merkleRounds] at h
  split at h
  · cases h
  · exact ⟨by omega, by omega⟩

/-- Two different pairs the pair hash maps to one hash. -/
def MerkleCollision : Prop := ∃ a b c d : uint256, (a, b) ≠ (c, d) ∧ SHA256D64 a b = SHA256D64 c d

/-- The pairing can be undone: equal next levels come from equal levels, or
from a level ending in a duplicated pair that the other level's doubling
reproduces, or from a collision. -/
theorem merklePairs_inj : ∀ x y : List uint256, merklePairs SHA256D64 x = merklePairs SHA256D64 y →
    x = y ∨ hasEqualPair x = true ∨ hasEqualPair y = true ∨ MerkleCollision SHA256D64
  | [], [], _ => .inl rfl
  | [], _ :: _, h => absurd h.symm (merklePairs_ne_nil SHA256D64 (by simp))
  | _ :: _, [], h => absurd h (merklePairs_ne_nil SHA256D64 (by simp))
  | [a], [c], h => by
    simp only [merklePairs, List.cons.injEq, and_true] at h
    by_cases hac : a = c
    · exact .inl (by rw [hac])
    · exact .inr (.inr (.inr ⟨a, a, c, c, by simp [hac], h⟩))
  | [a], c :: d :: ys, h => by
    simp only [merklePairs, List.cons.injEq] at h
    obtain ⟨hh, hys⟩ := h
    by_cases hp : (a, a) = (c, d)
    · -- `[a]` doubled is the level `[a, a]`, whose pair is a mutation
      simp only [Prod.mk.injEq] at hp
      obtain ⟨rfl, rfl⟩ := hp
      right; right; left
      simp [hasEqualPair]
    · exact .inr (.inr (.inr ⟨a, a, c, d, hp, hh⟩))
  | a :: b :: xs, [c], h => by
    simp only [merklePairs, List.cons.injEq] at h
    obtain ⟨hh, hxs⟩ := h
    by_cases hp : (a, b) = (c, c)
    · simp only [Prod.mk.injEq] at hp
      obtain ⟨rfl, rfl⟩ := hp
      right; left
      simp [hasEqualPair]
    · exact .inr (.inr (.inr ⟨a, b, c, c, hp, hh⟩))
  | a :: b :: xs, c :: d :: ys, h => by
    simp only [merklePairs, List.cons.injEq] at h
    obtain ⟨hh, hxs⟩ := h
    by_cases hp : (a, b) = (c, d)
    · simp only [Prod.mk.injEq] at hp
      obtain ⟨rfl, rfl⟩ := hp
      rcases merklePairs_inj xs ys hxs with rfl | hx | hy | hc
      · exact .inl rfl
      · exact .inr (.inl (by simp [hasEqualPair, hx]))
      · exact .inr (.inr (.inl (by simp [hasEqualPair, hy])))
      · exact .inr (.inr (.inr hc))
    · exact .inr (.inr (.inr ⟨a, b, c, d, hp, hh⟩))

/-- A level of one hash is the root, whatever the fuel. -/
theorem computeMerkleRootAux_single (x : uint256) (m : Bool) : ∀ fuel,
    computeMerkleRootAux SHA256D64 fuel [x] m = (x, m)
  | 0 => rfl
  | _ + 1 => by simp [computeMerkleRootAux]

/-- A mutation once flagged stays flagged. -/
theorem computeMerkleRootAux_mutated : ∀ (fuel : Nat) (l : List uint256),
    (computeMerkleRootAux SHA256D64 fuel l true).2 = true
  | 0, _ => rfl
  | fuel + 1, l => by
    unfold computeMerkleRootAux
    split
    · simpa using computeMerkleRootAux_mutated fuel (merklePairs SHA256D64 l)
    · rfl

/-- Completeness of the loop, by induction on the common number of rounds:
at the first level where the two sides agree on the next level but not on
this one, a duplicated pair is flagged. -/
theorem computeMerkleRootAux_mutation_complete : ∀ (r fx fy : Nat) (x y : List uint256) (mx my : Bool),
    merkleRounds x.length = r → merkleRounds y.length = r → x ≠ [] → y ≠ [] →
    x.length ≤ fx + 1 → y.length ≤ fy + 1 → x ≠ y →
    (computeMerkleRootAux SHA256D64 fx x mx).1 = (computeMerkleRootAux SHA256D64 fy y my).1 →
    (computeMerkleRootAux SHA256D64 fx x mx).2 = true ∨ (computeMerkleRootAux SHA256D64 fy y my).2 = true ∨
      MerkleCollision SHA256D64 := by
  intro r
  induction r with
  | zero =>
    intro fx fy x y mx my hrx hry hx hy _ _ hne hroot
    -- one hash on each side: equal roots are equal lists
    obtain ⟨a, rfl⟩ : ∃ a, x = [a] := by
      match x, hx, merkleRounds_eq_zero hrx with
      | [a], _, _ => exact ⟨a, rfl⟩
    obtain ⟨b, rfl⟩ : ∃ b, y = [b] := by
      match y, hy, merkleRounds_eq_zero hry with
      | [b], _, _ => exact ⟨b, rfl⟩
    rw [computeMerkleRootAux_single, computeMerkleRootAux_single] at hroot
    exact absurd (by rw [show a = b from hroot]) hne
  | succ r ih =>
    intro fx fy x y mx my hrx hry hx hy hfx hfy hne hroot
    obtain ⟨hx1, hrx'⟩ := merkleRounds_eq_succ hrx
    obtain ⟨hy1, hry'⟩ := merkleRounds_eq_succ hry
    obtain ⟨fx, rfl⟩ : ∃ f, fx = f + 1 := ⟨fx - 1, by omega⟩
    obtain ⟨fy, rfl⟩ : ∃ f, fy = f + 1 := ⟨fy - 1, by omega⟩
    have hsx : computeMerkleRootAux SHA256D64 (fx + 1) x mx =
        computeMerkleRootAux SHA256D64 fx (merklePairs SHA256D64 x) (mx || hasEqualPair x) := by
      simp [computeMerkleRootAux, hx1]
    have hsy : computeMerkleRootAux SHA256D64 (fy + 1) y my =
        computeMerkleRootAux SHA256D64 fy (merklePairs SHA256D64 y) (my || hasEqualPair y) := by
      simp [computeMerkleRootAux, hy1]
    rw [hsx, hsy] at hroot ⊢
    by_cases hnext : merklePairs SHA256D64 x = merklePairs SHA256D64 y
    · -- the levels differ but pair to the same level
      rcases merklePairs_inj SHA256D64 x y hnext with heq | hmx | hmy | hc
      · exact absurd heq hne
      · left
        rw [hmx, Bool.or_true]
        exact computeMerkleRootAux_mutated SHA256D64 fx _
      · right; left
        rw [hmy, Bool.or_true]
        exact computeMerkleRootAux_mutated SHA256D64 fy _
      · exact .inr (.inr hc)
    · exact ih fx fy _ _ _ _ (by rw [merklePairs_length]; exact hrx') (by rw [merklePairs_length]; exact hry')
        (merklePairs_ne_nil SHA256D64 hx) (merklePairs_ne_nil SHA256D64 hy)
        (by rw [merklePairs_length]; omega) (by rw [merklePairs_length]; omega) hnext hroot

/-- Two different nonempty lists of one depth and one root: one of them is
flagged, or the pair hash has a collision. -/
theorem ComputeMerkleRoot_mutated_of_root_eq (L1 L2 : List uint256) (h1 : L1 ≠ []) (h2 : L2 ≠ []) (hne : L1 ≠ L2)
    (hdepth : merkleRounds L1.length = merkleRounds L2.length)
    (hroot : (ComputeMerkleRoot SHA256D64 L1).1 = (ComputeMerkleRoot SHA256D64 L2).1) :
    (ComputeMerkleRoot SHA256D64 L1).2 = true ∨ (ComputeMerkleRoot SHA256D64 L2).2 = true ∨
      MerkleCollision SHA256D64 :=
  computeMerkleRootAux_mutation_complete SHA256D64 _ _ _ L1 L2 false false rfl hdepth.symm h1 h2 (by omega) (by omega)
    hne hroot

/-- No hashes and the single hash `uint256()`: two lists with no rounds and
one root, and neither is flagged, whatever the pair hash. -/
theorem ComputeMerkleRoot_empty_single_any :
    ([] : List uint256) ≠ [Blob.zero 32] ∧ merkleRounds ([] : List uint256).length = merkleRounds [Blob.zero 32].length ∧
      ComputeMerkleRoot SHA256D64 [] = (Blob.zero 32, false) ∧
      ComputeMerkleRoot SHA256D64 [Blob.zero 32] = (Blob.zero 32, false) := by
  refine ⟨by simp, ?_, rfl, computeMerkleRootAux_single SHA256D64 _ _ 1⟩
  simp [merkleRounds]

/-- The two lists under the pair hash that keeps its left argument. -/
theorem ComputeMerkleRoot_empty_single :
    ([] : List uint256) ≠ [Blob.zero 32] ∧ merkleRounds ([] : List uint256).length = merkleRounds [Blob.zero 32].length ∧
      ComputeMerkleRoot (fun a _ => a) [] = (Blob.zero 32, false) ∧
      ComputeMerkleRoot (fun a _ => a) [Blob.zero 32] = (Blob.zero 32, false) :=
  ComputeMerkleRoot_empty_single_any _

/-! ## Trees that are not flagged

The flag is raised only by a level with two equal hashes at `2k`, `2k + 1`,
so a duplicate-free level raises nothing. Whether the next level is again
duplicate-free depends on the pair hash; it is when the pair hash keeps its
left argument, each level then being a sublist of the one below. -/

/-- A duplicate-free level has no equal pair. -/
theorem hasEqualPair_eq_false : ∀ {l : List uint256}, l.Nodup → hasEqualPair l = false
  | a :: b :: rest, h => by
    obtain ⟨ha, hb⟩ := List.nodup_cons.1 h
    have hab : a ≠ b := fun hab => ha (hab ▸ List.mem_cons_self)
    simp [hasEqualPair, hab, hasEqualPair_eq_false (List.nodup_cons.1 hb).2]
  | [_], _ => rfl
  | [], _ => rfl

section KeepLeft

variable {SHA256D64} (hleft : ∀ a b, SHA256D64 a b = a)
include hleft

theorem merklePairs_sublist : ∀ l : List uint256, (merklePairs SHA256D64 l).Sublist l
  | a :: b :: rest => by
    rw [merklePairs, hleft]
    exact ((merklePairs_sublist rest).cons b).cons_cons a
  | [a] => by rw [merklePairs, hleft]
  | [] => .slnil

/-- By induction on the fuel: every level stays duplicate-free, so none adds
to the flag. -/
theorem computeMerkleRootAux_not_mutated : ∀ (fuel : Nat) (l : List uint256) (m : Bool), l.Nodup →
    (computeMerkleRootAux SHA256D64 fuel l m).2 = m
  | 0, _, _, _ => rfl
  | fuel + 1, l, m, hl => by
    have hnext := (merklePairs_sublist hleft l).nodup hl
    unfold computeMerkleRootAux
    split
    · rw [computeMerkleRootAux_not_mutated fuel _ _ hnext, hasEqualPair_eq_false hl, Bool.or_false]
    · rfl

theorem ComputeMerkleRoot_not_mutated {l : List uint256} (hl : l.Nodup) :
    (ComputeMerkleRoot SHA256D64 l).2 = false :=
  computeMerkleRootAux_not_mutated hleft _ l false hl

end KeepLeft

end Merkle

end Tapyrus
