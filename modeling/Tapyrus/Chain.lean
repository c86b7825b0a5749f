import Mathlib.Data.List.GetD
import Mathlib.Tactic.SplitIfs
/-!
# Skip pointers

`chain.cpp`: `GetSkipHeight`, `CBlockIndex::GetAncestor` and
`CBlockIndex::BuildSkip`. Each block index points back at its parent
(`pprev`) and at one earlier ancestor (`pskip`, at the height `GetSkipHeight`
gives). `GetAncestor` walks back to a height along the two: it takes the
skip whenever the skip does not pass the target and the parent's skip would
not do better.

The block index table is a list, and a pointer is an index into it
(`deref`). Blocks are added as `AddToBlockIndex` adds them: `pprev` set,
`nHeight` one more than the parent's (0 without one), then `BuildSkip`, each
block after its parent (`AddBlock`, `BuildTree`). `WellLinked` states what
that keeps: parents earlier in the table, heights one more than the
parent's, and each skip pointer at the ancestor of the skip height.

The walk never passes its target, whatever the heuristic picks: `pskip` is
followed only to a height at or above the target, and `pprev` one step at a
time. So on a `WellLinked` table the walk ends at the ancestor by `pprev`
(`GetAncestorLoop_spec`). `BuildSkip` computes each skip pointer with that
same walk, one block lower, which keeps the table `WellLinked`
(`AddBlock_wellLinked`).

Heights are `int` in the source and never negative here. They are modelled
by `Nat`, so a height past `2^31 - 1`, where `nHeight + 1` would overflow, is
out of the model. The height argument of `GetAncestor` is an `Int`, since a
negative one returns `nullptr`.
-/

namespace Tapyrus.Chain

/-- `InvertLowestOne`: the lowest one bit turned into a zero. -/
def InvertLowestOne (n : Nat) : Nat := n &&& (n - 1)

/-- `GetSkipHeight`: the height `pskip` jumps back to. -/
def GetSkipHeight (height : Nat) : Nat :=
  if height < 2 then 0
  else if height &&& 1 ≠ 0 then InvertLowestOne (InvertLowestOne (height - 1)) + 1
  else InvertLowestOne height

theorem InvertLowestOne_le (n : Nat) : InvertLowestOne n ≤ n := Nat.and_le_left

theorem InvertLowestOne_le_pred (n : Nat) : InvertLowestOne n ≤ n - 1 := Nat.and_le_right

/-- The skip height is below the height: `pskip` always jumps back. -/
theorem GetSkipHeight_lt {height : Nat} (h : 1 ≤ height) : GetSkipHeight height < height := by
  unfold GetSkipHeight
  split_ifs with hsmall hodd
  · omega
  · -- odd: two bits cleared from the even `height - 1`, then one added
    have h₁ := InvertLowestOne_le_pred (height - 1)
    have h₂ := InvertLowestOne_le (InvertLowestOne (height - 1))
    omega
  · have := InvertLowestOne_le_pred height
    omega

/-- An even height clears its lowest bit; an odd one clears two from the
height below and adds one. -/
example : GetSkipHeight 6 = 4 ∧ GetSkipHeight 7 = 1 ∧ GetSkipHeight 1024 = 0 ∧ GetSkipHeight 1025 = 1 := by
  decide

/-- The fields of `CBlockIndex` the skip list reads: the pointers to the
parent and to the skip target (`none` for `nullptr`), and the height. -/
structure CBlockIndex where
  pprev : Option Nat
  pskip : Option Nat
  nHeight : Nat
  deriving Inhabited, DecidableEq, Repr

/-- `*p`: the entry of the table a pointer designates. -/
def deref (blocks : List CBlockIndex) (p : Nat) : CBlockIndex := blocks.getD p default

/-- The loop of `GetAncestor(height)`, at `pindexWalk` of height
`heightWalk`. It follows `pskip` when the skip lands on the target, or lands
above it while `pprev->pskip` would not be the better jump. Otherwise it
follows `pprev`. The error is the failed `assert(pindexWalk->pprev)`. -/
def GetAncestorLoop (blocks : List CBlockIndex) (height pindexWalk heightWalk : Nat) : Except String Nat :=
  if _hwalk : heightWalk > height then
    let heightSkip := GetSkipHeight heightWalk
    let heightSkipPrev := GetSkipHeight (heightWalk - 1)
    let walk := deref blocks pindexWalk
    -- `heightSkip - 2` is an `int` there; below 2 the comparison fails in both
    if hskip : walk.pskip.isSome ∧ (heightSkip = height ∨
        (heightSkip > height ∧ ¬(heightSkipPrev < heightSkip - 2 ∧ heightSkipPrev ≥ height))) then
      GetAncestorLoop blocks height (walk.pskip.get hskip.1) heightSkip
    else
      match walk.pprev with
      | none => .error "assert(pindexWalk->pprev)"
      | some pprev => GetAncestorLoop blocks height pprev (heightWalk - 1)
  else .ok pindexWalk
termination_by heightWalk
decreasing_by
  · exact GetSkipHeight_lt (Nat.one_le_of_lt _hwalk)
  · exact Nat.sub_lt (Nat.one_le_of_lt _hwalk) Nat.one_pos

/-- `p->GetAncestor(height)`: `nullptr` for a height outside `[0, nHeight]`. -/
def GetAncestor (blocks : List CBlockIndex) (p : Nat) (height : Int) : Except String (Option Nat) :=
  let nHeight := (deref blocks p).nHeight
  if height > nHeight ∨ height < 0 then .ok none
  else (GetAncestorLoop blocks height.toNat p nHeight).map some

/-- `BuildSkip`: the skip pointer of a block with a parent is the parent's
ancestor at the skip height. -/
def BuildSkip (blocks : List CBlockIndex) (pindex : CBlockIndex) : Except String CBlockIndex :=
  match pindex.pprev with
  | none => .ok pindex
  | some pprev => do
    let pskip ← GetAncestor blocks pprev (GetSkipHeight pindex.nHeight)
    pure { pindex with pskip := pskip }

/-- What `AddToBlockIndex` does to the links: a new entry with `pprev` set
and `nHeight` one more than the parent's (0 without one), then `BuildSkip`. -/
def AddBlock (blocks : List CBlockIndex) (pprev : Option Nat) : Except String (List CBlockIndex) := do
  let nHeight := match pprev with
    | none => 0
    | some q => (deref blocks q).nHeight + 1
  let pindexNew ← BuildSkip blocks ⟨pprev, none, nHeight⟩
  pure (blocks ++ [pindexNew])

/-- The table built one block at a time, from the parent of each. -/
def BuildTree (parents : List (Option Nat)) : Except String (List CBlockIndex) :=
  parents.foldlM AddBlock []

/-- Each block's parent comes before it. -/
def ParentsFirst (parents : List (Option Nat)) : Prop :=
  ∀ i (hi : i < parents.length), ∀ q ∈ parents[i], q < i

instance (parents : List (Option Nat)) : Decidable (ParentsFirst parents) :=
  inferInstanceAs (Decidable (∀ i (hi : i < parents.length), ∀ q ∈ parents[i], q < i))

/-- The block reached from `p` by following `pprev` `k` times; `none` when a
`pprev` on the way is `nullptr`. -/
def followPrev (blocks : List CBlockIndex) (p : Nat) : Nat → Option Nat
  | 0 => some p
  | k + 1 =>
    match (deref blocks p).pprev with
    | none => none
    | some q => followPrev blocks q k

/-! ## The table adding blocks keeps -/

/-- One entry: the parent earlier and one lower, and the skip pointer at the
parent's ancestor of the skip height. A block without a parent is at height
0 and skips nowhere. -/
def LinkOk (blocks : List CBlockIndex) (i : Nat) (b : CBlockIndex) : Prop :=
  match b.pprev with
  | none => b.nHeight = 0 ∧ b.pskip = none
  | some q => q < i ∧ b.nHeight = (deref blocks q).nHeight + 1 ∧
      ∃ s, b.pskip = some s ∧ followPrev blocks q (b.nHeight - 1 - GetSkipHeight b.nHeight) = some s

def WellLinked (blocks : List CBlockIndex) : Prop := ∀ i (hi : i < blocks.length), LinkOk blocks i blocks[i]

section Walk

variable {blocks : List CBlockIndex}

theorem deref_eq {p : Nat} (h : p < blocks.length) : deref blocks p = blocks[p] := List.getD_eq_getElem _ _ h

theorem deref_append {p : Nat} (extra : List CBlockIndex) (h : p < blocks.length) :
    deref (blocks ++ extra) p = deref blocks p := List.getD_append _ _ _ _ h

theorem followPrev_succ {p q : Nat} (hq : (deref blocks p).pprev = some q) (k : Nat) :
    followPrev blocks p (k + 1) = followPrev blocks q k := by
  rw [followPrev, hq]

/-- Following `a` then `b` steps is following `a + b`. -/
theorem followPrev_add (a : Nat) : ∀ (p b : Nat),
    followPrev blocks p (a + b) = (followPrev blocks p a).bind fun q => followPrev blocks q b := by
  induction a with
  | zero => intro p b; rw [Nat.zero_add]; rfl
  | succ a ih =>
    intro p b
    rw [Nat.add_right_comm, followPrev, followPrev]
    cases (deref blocks p).pprev with
    | none => rfl
    | some q => exact ih q b

/-- A block of height at least one has a parent, earlier and one lower. -/
theorem pprev_of_pos (hw : WellLinked blocks) {p : Nat} (hp : p < blocks.length)
    (hh : 1 ≤ (deref blocks p).nHeight) :
    ∃ q, (deref blocks p).pprev = some q ∧ q < p ∧ (deref blocks q).nHeight + 1 = (deref blocks p).nHeight := by
  have hlink := hw p hp
  rw [← deref_eq hp] at hlink
  unfold LinkOk at hlink
  cases hq : (deref blocks p).pprev with
  | none => rw [hq] at hlink; omega
  | some q =>
    rw [hq] at hlink
    exact ⟨q, rfl, hlink.1, hlink.2.1.symm⟩

/-- Following `pprev` from a block at most its height times: a block of the
table, that many lower. -/
theorem followPrev_spec (hw : WellLinked blocks) (k : Nat) :
    ∀ p, p < blocks.length → k ≤ (deref blocks p).nHeight →
      ∃ y, followPrev blocks p k = some y ∧ y < blocks.length ∧
        (deref blocks y).nHeight = (deref blocks p).nHeight - k := by
  induction k with
  | zero => intro p hp _; exact ⟨p, rfl, hp, rfl⟩
  | succ k ih =>
    intro p hp hk
    obtain ⟨q, hq, hqp, hqh⟩ := pprev_of_pos hw hp (by omega)
    obtain ⟨y, hy, hyl, hyh⟩ := ih q (by omega) (by omega)
    exact ⟨y, by rw [followPrev_succ hq, hy], hyl, by omega⟩

/-- Following `pprev` from a block as many times as its height ends at a
block without a parent: the height is the block's depth. -/
theorem followPrev_root (hw : WellLinked blocks) {p : Nat} (hp : p < blocks.length) :
    ∃ r, followPrev blocks p (deref blocks p).nHeight = some r ∧ (deref blocks r).pprev = none := by
  obtain ⟨r, hr, hrl, hrh⟩ := followPrev_spec hw _ p hp (Nat.le_refl _)
  refine ⟨r, hr, ?_⟩
  -- a block with a parent is one above it, so the block at height 0 has none
  have hlink := hw r hrl
  rw [← deref_eq hrl] at hlink
  unfold LinkOk at hlink
  cases hq : (deref blocks r).pprev with
  | none => rfl
  | some q =>
    rw [hq] at hlink
    omega

/-- A block of height at least one skips to its ancestor at the skip height. -/
theorem pskip_of_pos (hw : WellLinked blocks) {p : Nat} (hp : p < blocks.length)
    (hh : 1 ≤ (deref blocks p).nHeight) :
    ∃ s, (deref blocks p).pskip = some s ∧
      followPrev blocks p ((deref blocks p).nHeight - GetSkipHeight (deref blocks p).nHeight) = some s := by
  have hlink := hw p hp
  rw [← deref_eq hp] at hlink
  obtain ⟨q, hq, -, -⟩ := pprev_of_pos hw hp hh
  unfold LinkOk at hlink
  rw [hq] at hlink
  obtain ⟨-, -, s, hs, hfs⟩ := hlink
  have hskip := GetSkipHeight_lt hh
  refine ⟨s, hs, ?_⟩
  rw [show (deref blocks p).nHeight - GetSkipHeight (deref blocks p).nHeight =
    (deref blocks p).nHeight - 1 - GetSkipHeight (deref blocks p).nHeight + 1 by omega, followPrev_succ hq, hfs]

/-- The walk of `GetAncestor` from a block down to a height at or below it:
it returns, and what it returns is the ancestor by `pprev`. By strong
induction on the height of the walk; the invariant is that `pindexWalk` is
the ancestor of the start at `heightWalk`, never below the target. -/
theorem GetAncestorLoop_spec (hw : WellLinked blocks) (height : Nat) (heightWalk : Nat) :
    ∀ x, x < blocks.length → (deref blocks x).nHeight = heightWalk → height ≤ heightWalk →
      ∃ y, GetAncestorLoop blocks height x heightWalk = .ok y ∧ followPrev blocks x (heightWalk - height) = some y := by
  induction heightWalk using Nat.strongRecOn with
  | ind heightWalk ih =>
    intro x hx hheight hle
    rw [GetAncestorLoop]
    by_cases hwalk : heightWalk > height
    · rw [dif_pos hwalk]
      dsimp only
      split_ifs with hskip
      · -- along `pskip`: to the ancestor at the skip height, not below the target
        obtain ⟨s, hs, hfs⟩ := pskip_of_pos hw hx (by omega)
        have hget : (deref blocks x).pskip.get hskip.1 = s := by simp [hs]
        rw [hget]
        have hlt := GetSkipHeight_lt (show 1 ≤ heightWalk by omega)
        rw [hheight] at hfs
        obtain ⟨s', hs', hsl, hsh⟩ := followPrev_spec hw (heightWalk - GetSkipHeight heightWalk) x hx (by omega)
        rw [hfs, Option.some.injEq] at hs'
        subst hs'
        obtain ⟨y, hy, hfy⟩ := ih _ hlt s hsl (by omega) (by omega)
        refine ⟨y, hy, ?_⟩
        rw [show heightWalk - height = (heightWalk - GetSkipHeight heightWalk) + (GetSkipHeight heightWalk - height)
          by omega, followPrev_add, hfs, Option.bind_some, hfy]
      · -- along `pprev`: one step
        obtain ⟨q, hq, hqx, hqh⟩ := pprev_of_pos hw hx (by omega)
        rw [hq]
        obtain ⟨y, hy, hfy⟩ := ih (heightWalk - 1) (by omega) q (by omega) (by omega) (by omega)
        refine ⟨y, hy, ?_⟩
        rw [show heightWalk - height = heightWalk - 1 - height + 1 by omega, followPrev_succ hq, hfy]
    · rw [dif_neg hwalk]
      exact ⟨x, rfl, by rw [show heightWalk - height = 0 by omega]; rfl⟩

/-- `GetAncestor` on a `WellLinked` table: `nullptr` outside `[0, nHeight]`,
and within it the ancestor by `pprev`, which exists. -/
theorem GetAncestor_spec (hw : WellLinked blocks) {p : Nat} (hp : p < blocks.length) (height : Int) :
    (¬ (0 ≤ height ∧ height ≤ (deref blocks p).nHeight) → GetAncestor blocks p height = .ok none) ∧
    (0 ≤ height → height ≤ (deref blocks p).nHeight →
      ∃ y, followPrev blocks p ((deref blocks p).nHeight - height.toNat) = some y ∧
        GetAncestor blocks p height = .ok (some y)) := by
  constructor
  · intro hout
    rw [GetAncestor, if_pos (by omega)]
  · intro h0 hle
    obtain ⟨y, hy, hfy⟩ := GetAncestorLoop_spec hw height.toNat _ p hp rfl (by omega)
    refine ⟨y, hfy, ?_⟩
    rw [GetAncestor, if_neg (by omega), hy]
    rfl

end Walk

/-! ## Adding blocks keeps the table well linked -/

section Build

variable {blocks : List CBlockIndex}

theorem pprev_lt (hw : WellLinked blocks) {p q : Nat} (hp : p < blocks.length)
    (hq : (deref blocks p).pprev = some q) : q < p := by
  have hlink := hw p hp
  rw [← deref_eq hp] at hlink
  unfold LinkOk at hlink
  rw [hq] at hlink
  exact hlink.1

/-- Entries added at the end are never reached by `pprev` from the entries
before them. -/
theorem followPrev_append (hw : WellLinked blocks) (extra : List CBlockIndex) (k : Nat) :
    ∀ p, p < blocks.length → followPrev (blocks ++ extra) p k = followPrev blocks p k := by
  induction k with
  | zero => intro p _; rfl
  | succ k ih =>
    intro p hp
    rw [followPrev, followPrev, deref_append extra hp]
    cases hq : (deref blocks p).pprev with
    | none => rfl
    | some q => exact ih q (Nat.lt_trans (pprev_lt hw hp hq) hp)

/-- An entry of the table is as well linked after entries are added at the
end. -/
theorem linkOk_append (hw : WellLinked blocks) (extra : List CBlockIndex) {i : Nat} (hi : i < blocks.length) :
    LinkOk (blocks ++ extra) i blocks[i] := by
  have hlink := hw i hi
  unfold LinkOk at hlink ⊢
  cases hq : blocks[i].pprev with
  | none => rw [hq] at hlink; exact hlink
  | some q =>
    rw [hq] at hlink
    obtain ⟨hqi, hh, s, hs, hfs⟩ := hlink
    have hql : q < blocks.length := Nat.lt_trans hqi hi
    exact ⟨hqi, by rw [deref_append extra hql]; exact hh, s, hs, by rw [followPrev_append hw extra _ q hql]; exact hfs⟩

theorem wellLinked_append (hw : WellLinked blocks) {b : CBlockIndex}
    (hb : LinkOk (blocks ++ [b]) blocks.length b) : WellLinked (blocks ++ [b]) := by
  intro i hi
  rw [List.length_append, List.length_singleton] at hi
  rcases Nat.lt_or_ge i blocks.length with hlt | hge
  · rw [List.getElem_append_left hlt]
    exact linkOk_append hw [b] hlt
  · have heq : i = blocks.length := by omega
    subst heq
    rw [List.getElem_concat_length rfl]
    exact hb

/-- `AddBlock` with a parent already in the table: `BuildSkip`'s walk
returns, and the new entry is well linked. -/
theorem AddBlock_wellLinked (hw : WellLinked blocks) {pprev : Option Nat} (hq : ∀ q ∈ pprev, q < blocks.length) :
    ∃ b, b.pprev = pprev ∧ AddBlock blocks pprev = .ok (blocks ++ [b]) ∧ WellLinked (blocks ++ [b]) := by
  cases pprev with
  | none =>
    -- a genesis block: height 0, no skip
    refine ⟨⟨none, none, 0⟩, rfl, rfl, wellLinked_append hw ?_⟩
    exact ⟨rfl, rfl⟩
  | some q =>
    have hql : q < blocks.length := hq q rfl
    have hskip := GetSkipHeight_lt (Nat.le_add_left 1 (deref blocks q).nHeight)
    -- the skip target: the parent's ancestor at the skip height
    obtain ⟨y, hfy, hy⟩ := (GetAncestor_spec hw hql (GetSkipHeight ((deref blocks q).nHeight + 1))).2
      (Int.natCast_nonneg _) (by omega)
    refine ⟨⟨some q, some y, (deref blocks q).nHeight + 1⟩, rfl, ?_, wellLinked_append hw ?_⟩
    · simp only [AddBlock, BuildSkip, hy]
      rfl
    · refine ⟨hql, by rw [deref_append [_] hql], y, rfl, ?_⟩
      rw [followPrev_append hw [_] _ q hql, ← hfy, Int.toNat_natCast]
      congr 1

/-- A run of `AddBlock`s, each parent already in the table: every walk
returns, the table stays well linked, and the entries added have the
parents given. By induction on the parents, one `AddBlock_wellLinked` per
block. -/
theorem foldlM_AddBlock (parents : List (Option Nat)) :
    ∀ blocks : List CBlockIndex, WellLinked blocks →
      (∀ i (hi : i < parents.length), ∀ q ∈ parents[i], q < blocks.length + i) →
      ∃ blocks', parents.foldlM AddBlock blocks = .ok blocks' ∧ WellLinked blocks' ∧
        blocks'.map (·.pprev) = blocks.map (·.pprev) ++ parents := by
  induction parents with
  | nil => intro blocks hw _; exact ⟨blocks, rfl, hw, (List.append_nil _).symm⟩
  | cons pprev parents ih =>
    intro blocks hw hparents
    have hfirst : ∀ q ∈ pprev, q < blocks.length := fun q hq => by
      simpa using hparents 0 (Nat.zero_lt_succ _) q hq
    obtain ⟨b, hbprev, hb, hwb⟩ := AddBlock_wellLinked hw hfirst
    obtain ⟨blocks', hrun, hw', hprevs⟩ := ih (blocks ++ [b]) hwb fun i hi q hq => by
      have := hparents (i + 1) (by simp only [List.length_cons]; omega) q hq
      rw [List.length_append, List.length_singleton]
      omega
    refine ⟨blocks', ?_, hw', ?_⟩
    · rw [List.foldlM_cons, hb]
      exact hrun
    · rw [hprevs, List.map_append, List.map_singleton, hbprev, List.append_assoc, List.singleton_append]

end Build

/-- Skip pointers find ancestors. For every block index table built as
`AddToBlockIndex` builds it, each block after its parent, `BuildSkip` never
fails. Entry `i` of the table built has the parent given for it, and its
height is its depth: following `pprev` that many times ends at a block
without a parent. `GetAncestor(h)` from every block returns without failing
its assertion: `nullptr` for a height outside `[0, nHeight]`, and within it
the block reached by following `pprev` exactly `nHeight - h` times. -/
theorem GetAncestor_follows_pprev (parents : List (Option Nat)) (hparents : ParentsFirst parents) :
    ∃ blocks, BuildTree parents = .ok blocks ∧ blocks.length = parents.length ∧
      blocks.map (·.pprev) = parents ∧
      (∀ p < blocks.length, ∃ r, followPrev blocks p (deref blocks p).nHeight = some r ∧ (deref blocks r).pprev = none) ∧
      ∀ p < blocks.length, ∀ h : Int,
        (¬ (0 ≤ h ∧ h ≤ (deref blocks p).nHeight) → GetAncestor blocks p h = .ok none) ∧
        (0 ≤ h → h ≤ (deref blocks p).nHeight →
          ∃ y, followPrev blocks p ((deref blocks p).nHeight - h.toNat) = some y ∧
            GetAncestor blocks p h = .ok (some y)) := by
  have hempty : WellLinked [] := fun i hi => absurd hi (Nat.not_lt_zero i)
  obtain ⟨blocks, hrun, hw, hprevs⟩ := foldlM_AddBlock parents [] hempty fun i hi q hq => by
    rw [List.length_nil, Nat.zero_add]
    exact hparents i hi q hq
  rw [List.map_nil, List.nil_append] at hprevs
  have hlen : blocks.length = parents.length := by rw [← hprevs, List.length_map]
  exact ⟨blocks, hrun, hlen, hprevs, fun p hp => followPrev_root hw hp, fun p hp h => GetAncestor_spec hw hp h⟩

/-- A chain of four with a fork off the second block. -/
theorem GetAncestor_follows_pprev_fork :
    ParentsFirst [none, some 0, some 1, some 2, some 1] ∧
      ∃ blocks, BuildTree [none, some 0, some 1, some 2, some 1] = .ok blocks ∧ blocks.length = 5 ∧
        blocks.map (·.pprev) = [none, some 0, some 1, some 2, some 1] ∧
        (∀ p < blocks.length, ∃ r, followPrev blocks p (deref blocks p).nHeight = some r ∧
          (deref blocks r).pprev = none) ∧
        ∀ p < blocks.length, ∀ h : Int,
          (¬ (0 ≤ h ∧ h ≤ (deref blocks p).nHeight) → GetAncestor blocks p h = .ok none) ∧
          (0 ≤ h → h ≤ (deref blocks p).nHeight →
            ∃ y, followPrev blocks p ((deref blocks p).nHeight - h.toNat) = some y ∧
              GetAncestor blocks p h = .ok (some y)) :=
  ⟨by decide, GetAncestor_follows_pprev _ (by decide)⟩

end Tapyrus.Chain
