import Tapyrus.TxMemPoolCheck
import Tapyrus.Lib.Worklist
/-!
# Descendants and ancestors

`CalculateDescendants` and `CalculateMemPoolAncestors` (`txmempool.cpp`) walk
the pool's links with a staging set, and both are instances of the worklist
of `Tapyrus.Lib.Worklist`. `descendantsLoop` is `closureLoop` over the child
links. `ancestorsLoop`, when none of its checks fails, is `closureLoop` over
the parent links. The fuel, the number of entries, is always enough: every
staged id is an entry, and each round takes one entry that the result does
not hold.

On a consistent pool the links are the spending relation (`IsChild`).
`CalculateDescendants` adds exactly the entries that descend from its entry
through children. `CalculateMemPoolAncestors` returns exactly the entries
reached through parents from the pool transactions the entry spends.

Its checks are what the limits mean. Whenever it succeeds for a new
transaction, the package of the transaction and its ancestors is within the
ancestor count and size limits. Each ancestor, with the transaction added to
its descendants, is within the descendant limits.
-/

namespace Tapyrus

open Lib

namespace CTxMemPool

variable (n : Nat)

/-- `c` is an in-pool child of `p`: an entry spending an output of the
entry `p`. -/
def IsChild (pool : CTxMemPool) (p c : uint256) : Prop := pool.exists p = true ∧ pool.SpendsFrom c p

/-! ## The links are the spending relation -/

theorem exists_iff_mem_keys (pool : CTxMemPool) (h : uint256) : pool.exists h = true ↔ h ∈ pool.mapTx.keys := by
  rw [CTxMemPool.exists, AList.lookup_isSome, AList.mem_keys]

/-- No more ids are new to a set than the pool has entries. -/
theorem unseenCount_keys_le (pool : CTxMemPool) (seen : List uint256) : unseenCount pool.mapTx.keys seen ≤ pool.size := by
  have hlen : pool.mapTx.keys.length = pool.size := by simp [AList.keys, List.keys, size]
  rw [← hlen]
  exact List.length_filter_le _ _

theorem Consistent.mem_children_iff_isChild {pool : CTxMemPool} (hp : Consistent n pool) (p c : uint256) :
    c ∈ pool.GetMemPoolChildren p ↔ pool.IsChild p c := by
  by_cases hx : pool.exists p = true
  · rw [hp.children p hx]
    exact ⟨fun h => ⟨hx, h⟩, fun h => h.2⟩
  · -- an id with no entry has no links
    have hl := hp.links p
    rw [Bool.not_eq_true] at hx
    rw [hx, Option.isSome_eq_false_iff, Option.isNone_iff_eq_none] at hl
    simp [GetMemPoolChildren, hl, IsChild, hx]

theorem Consistent.mem_parents_iff_isChild {pool : CTxMemPool} (hp : Consistent n pool) (c p : uint256) :
    p ∈ pool.GetMemPoolParents c ↔ pool.IsChild p c := by
  rw [hp.mem_parents_iff, hp.mem_children_iff_isChild]

/-- The child links stay among the entries. -/
theorem Consistent.children_mem_keys {pool : CTxMemPool} (hp : Consistent n pool) :
    ∀ x ∈ pool.mapTx.keys, ∀ c ∈ pool.GetMemPoolChildren x, c ∈ pool.mapTx.keys := by
  intro x _ c hc
  exact (exists_iff_mem_keys pool c).1 ((hp.mem_children_iff_isChild n x c).1 hc).2.exists

/-- The parent links stay among the entries. -/
theorem Consistent.parents_mem_keys {pool : CTxMemPool} (hp : Consistent n pool) :
    ∀ x ∈ pool.mapTx.keys, ∀ p ∈ pool.GetMemPoolParents x, p ∈ pool.mapTx.keys := by
  intro x _ p hpx
  exact (exists_iff_mem_keys pool p).1 ((hp.mem_parents_iff_isChild n x p).1 hpx).1

/-! ## A parent and its child

Witness data: a transaction spending a confirmed coin, and one spending its
output, added to the empty pool one after the other. -/

/-- The id with first byte `k`, then zeros. -/
def sampleId (k : UInt8) : uint256 := ⟨k :: List.replicate 31 0, by simp⟩

/-- A transaction spending output 0 of `prev`. -/
def spendingTx (prev : uint256) : CTransaction := ⟨[⟨⟨prev, 0⟩, [], 0xffffffff, []⟩], [⟨1000, [OP_1]⟩], 1, 0⟩

/-- The pool entry of `spendingTx prev`. -/
def spendingEntry (prev : uint256) : CTxMemPoolEntry := CTxMemPoolEntry.create 20 (spendingTx prev) 1000 0 1 false 0 ⟨0, 0⟩

/-- The parent, spending a confirmed coin of id 0, under id 1. -/
def parentPool : CTxMemPool := (empty 0).addUnchecked 20 (sampleId 1) (spendingEntry (sampleId 0)) []

/-- The child, spending the parent's output, under id 2. -/
def familyPool : CTxMemPool := parentPool.addUnchecked 20 (sampleId 2) (spendingEntry (sampleId 1)) [sampleId 1]

theorem consistent_familyPool : Consistent 20 familyPool := by
  have h₁ : Consistent 20 parentPool := consistent_addUnchecked 20 (consistent_empty 20 0) [] rfl (fun _ _ => rfl)
    (fun _ _ => rfl)
  -- the only outpoint the parent spends carries id 0
  have houts : ∀ o : COutPoint, o.hashMalFix = sampleId 2 → parentPool.mapNextTx.lookup o = none := by
    intro o ho
    cases hl : parentPool.mapNextTx.lookup o with
    | none => rfl
    | some h =>
      obtain ⟨tx, htx, hmem⟩ := (h₁.nextTx o h).1 hl
      rw [parentPool, get_addUnchecked] at htx
      split at htx
      · cases htx
        simp only [spendingEntry, CTxMemPoolEntry.create, spendingTx, List.map_cons, List.map_nil,
          List.mem_singleton] at hmem
        rw [hmem] at ho
        exact absurd ho (by decide)
      · cases htx
  exact consistent_addUnchecked 20 h₁ [sampleId 1] (by decide) (by decide) houts

/-! ## Descendants -/

theorem descendantsLoop_eq_closureLoop (pool : CTxMemPool) : ∀ (fuel : Nat) (stage setDescendants : List uint256),
    pool.descendantsLoop fuel stage setDescendants = closureLoop pool.GetMemPoolChildren fuel stage setDescendants := by
  intro fuel
  induction fuel with
  | zero => exact fun _ _ => rfl
  | succ fuel ih =>
    intro stage setDescendants
    cases stage with
    | nil => rfl
    | cons it stage => exact ih _ _

/-- `CalculateDescendants` on a consistent pool, for an entry and a set that
holds the descendants of its members: the set, with every entry that
descends from the entry through children, the entry itself included. -/
theorem CalculateDescendants_mem_iff {pool : CTxMemPool} (hp : Consistent n pool) {entryit : uint256}
    (hin : pool.exists entryit = true) {setDescendants : List uint256}
    (hset : ∀ x ∈ setDescendants, ∀ c, pool.IsChild x c → c ∈ setDescendants) (z : uint256) :
    z ∈ pool.CalculateDescendants entryit setDescendants ↔
      z ∈ setDescendants ∨ Relation.ReflTransGen pool.IsChild entryit z := by
  have hrel : (fun a b => b ∈ pool.GetMemPoolChildren a) = pool.IsChild := by
    funext a b
    exact propext (hp.mem_children_iff_isChild n a b)
  unfold CalculateDescendants
  rw [descendantsLoop_eq_closureLoop]
  split
  · -- the entry is in the set already, and so are its descendants
    rename_i hmem
    rw [closureLoop_nil]
    refine ⟨.inl, ?_⟩
    rintro (hz | hz)
    · exact hz
    · induction hz with
      | refl => exact hmem
      | tail _ hbc ih => exact hset _ ih _ hbc
  · rename_i hmem
    have hfront : Frontier pool.GetMemPoolChildren [entryit] setDescendants := by
      refine ⟨fun x hx => ?_, List.nodup_singleton _, fun y hy c hc => .inl ?_⟩
      · rw [List.mem_singleton.1 hx]
        exact hmem
      · exact hset y hy c ((hp.mem_children_iff_isChild n y c).1 hc)
    rw [closureLoop_mem_iff pool.mapTx.keys (hp.children_mem_keys n) hfront
      (fun x hx => by rw [List.mem_singleton.1 hx]; exact (exists_iff_mem_keys pool entryit).1 hin)
      (unseenCount_keys_le pool setDescendants), hrel]
    simp

/-- The parent's descendants in the sample pool. -/
theorem CalculateDescendants_mem_iff_family :
    Consistent 20 familyPool ∧ familyPool.exists (sampleId 1) = true ∧
      ∀ z, z ∈ familyPool.CalculateDescendants (sampleId 1) [] ↔
        z ∈ [] ∨ Relation.ReflTransGen familyPool.IsChild (sampleId 1) z :=
  ⟨consistent_familyPool, by decide,
    CalculateDescendants_mem_iff 20 consistent_familyPool (by decide) fun _ h => absurd h List.not_mem_nil⟩

/-! ## Ancestors -/

theorem stageParents_eq_ok (limit : Nat) (setAncestors : List uint256) :
    ∀ (l parentHashes r : List uint256), stageParents limit setAncestors parentHashes l = .ok r →
      r = pushNew setAncestors parentHashes l := by
  intro l
  induction l with
  | nil =>
    intro parentHashes r h
    cases h
    rfl
  | cons phash rest ih =>
    intro parentHashes r h
    unfold stageParents at h
    dsimp only at h
    exact ih _ r (ite_error_eq_ok h).2

/-- When none of its checks fails, the outer loop is the worklist over the
parent links. -/
theorem ancestorsLoop_eq_ok (pool : CTxMemPool) (entrySize : Int) (limits : AncestorLimits) :
    ∀ (fuel : Nat) (stage setAncestors : List uint256) (total : Int) (r : List uint256),
      ancestorsLoop n pool entrySize limits fuel stage setAncestors total = .ok r →
      r = closureLoop pool.GetMemPoolParents fuel stage setAncestors := by
  intro fuel
  induction fuel with
  | zero =>
    intro stage setAncestors total r h
    cases h
    rfl
  | succ fuel ih =>
    intro stage setAncestors total r h
    cases stage with
    | nil =>
      cases h
      rfl
    | cons stageit stage =>
      unfold ancestorsLoop at h
      dsimp only at h
      split at h
      · cases h
      split at h
      · cases h
      split at h
      · cases h
      obtain ⟨parentHashes, hstage, hrest⟩ := bind_eq_ok h
      rw [ih _ _ _ r hrest, stageParents_eq_ok _ _ _ _ _ hstage]
      rfl

/-- The parents of a new transaction: the pool entries its inputs spend,
without repeats, and within the count limit once there is one. -/
theorem searchParents_eq_ok (pool : CTxMemPool) (limit : Nat) :
    ∀ (vin : List CTxIn) (acc r : List uint256), searchParents pool limit acc vin = .ok r →
      (∀ z, z ∈ r ↔ z ∈ acc ∨ (z ∈ vin.map (·.prevout.hashMalFix) ∧ pool.exists z = true)) ∧
      (acc.Nodup → r.Nodup) ∧ ((acc ≠ [] → acc.length + 1 ≤ limit) → r ≠ [] → r.length + 1 ≤ limit) := by
  intro vin
  induction vin with
  | nil =>
    intro acc r h
    cases h
    exact ⟨fun z => by simp, id, id⟩
  | cons txin rest ih =>
    intro acc r h
    unfold searchParents at h
    split at h
    · -- an input spending a pool entry stages it, and the count is checked
      rename_i hex
      dsimp only at h
      obtain ⟨hcount, h⟩ := ite_error_eq_ok h
      obtain ⟨hmem, hnd, hlen⟩ := ih _ r h
      refine ⟨fun z => ?_, fun hacc => hnd hacc.insert, fun _ => hlen fun _ => by omega⟩
      rw [hmem, List.mem_insert_iff, List.map_cons, List.mem_cons]
      constructor
      · rintro ((rfl | hz) | ⟨hz, hzex⟩)
        · exact .inr ⟨.inl rfl, hex⟩
        · exact .inl hz
        · exact .inr ⟨.inr hz, hzex⟩
      · rintro (hz | ⟨rfl | hz, hzex⟩)
        · exact .inl (.inr hz)
        · exact .inl (.inl rfl)
        · exact .inr ⟨hz, hzex⟩
    · rename_i hex
      obtain ⟨hmem, hnd, hlen⟩ := ih _ r h
      refine ⟨fun z => ?_, hnd, hlen⟩
      rw [hmem, List.map_cons, List.mem_cons]
      constructor
      · rintro (hz | ⟨hz, hzex⟩)
        · exact .inl hz
        · exact .inr ⟨.inr hz, hzex⟩
      · rintro (hz | ⟨rfl | hz, hzex⟩)
        · exact .inl hz
        · exact absurd hzex hex
        · exact .inr ⟨hz, hzex⟩

/-- `CalculateMemPoolAncestors` as its two steps: the first parents, then
the outer loop. -/
theorem CalculateMemPoolAncestors_eq (pool : CTxMemPool) (entry : CTxMemPoolEntry) (hash : uint256)
    (limits : AncestorLimits) (fSearchForParents : Bool) :
    pool.CalculateMemPoolAncestors n entry hash limits fSearchForParents =
      (if fSearchForParents then searchParents pool limits.limitAncestorCount [] entry.tx.vin
        else pure (pool.GetMemPoolParents hash)) >>= fun parentHashes =>
      ancestorsLoop n pool (entry.GetTxSize n) limits pool.size parentHashes [] (entry.GetTxSize n) := by
  cases fSearchForParents <;> rfl

/-- The ancestors of a transaction, on a consistent pool: the pool entries
its inputs spend, and every entry reached from those through parents. For a
transaction already in the pool (no search for parents), the entry is the
pool's own. -/
theorem CalculateMemPoolAncestors_mem_iff {pool : CTxMemPool} (hp : Consistent n pool) {entry : CTxMemPoolEntry}
    {hash : uint256} {limits : AncestorLimits} {fSearchForParents : Bool} {setAncestors : List uint256}
    (hentry : fSearchForParents = false → pool.get hash = some entry.tx)
    (h : pool.CalculateMemPoolAncestors n entry hash limits fSearchForParents = .ok setAncestors) (z : uint256) :
    z ∈ setAncestors ↔ ∃ p ∈ entry.tx.vin.map (·.prevout.hashMalFix), pool.exists p = true ∧
      Relation.ReflTransGen (fun a b => pool.IsChild b a) p z := by
  rw [CalculateMemPoolAncestors_eq] at h
  obtain ⟨parentHashes, hparents, hloop⟩ := bind_eq_ok h
  rw [ancestorsLoop_eq_ok n pool _ limits _ _ _ _ _ hloop]
  -- the first parents, either way: the entries the inputs spend
  have hfirst : (∀ p, p ∈ parentHashes ↔ p ∈ entry.tx.vin.map (·.prevout.hashMalFix) ∧ pool.exists p = true) ∧
      parentHashes.Nodup := by
    cases fSearchForParents with
    | true =>
      obtain ⟨hmem, hnd, -⟩ := searchParents_eq_ok pool _ _ [] _ hparents
      exact ⟨fun p => by simpa using hmem p, hnd List.nodup_nil⟩
    | false =>
      cases hparents
      refine ⟨fun p => ?_, hp.parents_nodup hash⟩
      rw [hp.mem_parents_iff_isChild, IsChild, SpendsFrom, hentry rfl]
      simp only [Option.some.injEq, exists_eq_left']
      exact And.comm
  obtain ⟨hmem, hnd⟩ := hfirst
  have hfront : Frontier pool.GetMemPoolParents parentHashes [] :=
    ⟨fun _ _ => List.not_mem_nil, hnd, fun _ hy => absurd hy List.not_mem_nil⟩
  have hrel : (fun a b => b ∈ pool.GetMemPoolParents a) = fun a b => pool.IsChild b a := by
    funext a b
    exact propext (hp.mem_parents_iff_isChild n a b)
  rw [closureLoop_mem_iff pool.mapTx.keys (hp.parents_mem_keys n) hfront
    (fun x hx => (exists_iff_mem_keys pool x).1 ((hmem x).1 hx).2) (unseenCount_keys_le pool []), hrel]
  simp only [List.not_mem_nil, false_or, hmem]
  constructor
  · rintro ⟨p, ⟨hpv, hpex⟩, hpz⟩
    exact ⟨p, hpv, hpex, hpz⟩
  · rintro ⟨p, hpv, hpex, hpz⟩
    exact ⟨p, ⟨hpv, hpex⟩, hpz⟩

/-- A grandchild offered to the sample pool: its ancestors are the child
and the parent. -/
theorem CalculateMemPoolAncestors_mem_iff_grandchild :
    Consistent 20 familyPool ∧
      familyPool.CalculateMemPoolAncestors 20 (spendingEntry (sampleId 2)) (sampleId 3) AncestorLimits.noLimit true =
        .ok [sampleId 1, sampleId 2] ∧
      ∀ z, z ∈ [sampleId 1, sampleId 2] ↔ ∃ p ∈ (spendingTx (sampleId 2)).vin.map (·.prevout.hashMalFix),
        familyPool.exists p = true ∧ Relation.ReflTransGen (fun a b => familyPool.IsChild b a) p z := by
  have hcalc : familyPool.CalculateMemPoolAncestors 20 (spendingEntry (sampleId 2)) (sampleId 3)
      AncestorLimits.noLimit true = .ok [sampleId 1, sampleId 2] := by decide
  exact ⟨consistent_familyPool, hcalc,
    CalculateMemPoolAncestors_mem_iff 20 consistent_familyPool (fun h => Bool.noConfusion h) hcalc⟩

/-! ## The limits -/

theorem txSizeOf_nonneg (pool : CTxMemPool) (h : uint256) : 0 ≤ pool.txSizeOf n h := by
  unfold txSizeOf
  cases pool.mapTx.lookup h <;> simp

theorem sum_map_insert {f : uint256 → Int} (hf : ∀ x, 0 ≤ f x) (x : uint256) (l : List uint256) :
    ((l.insert x).map f).sum ≤ f x + (l.map f).sum := by
  by_cases hx : x ∈ l
  · rw [List.insert_of_mem hx]
    have := hf x
    omega
  · rw [List.insert_of_not_mem hx, List.map_cons, List.sum_cons]

/-- The inner loop keeps the count of staged and taken ids within the
limit, checked after each parent. -/
theorem stageParents_length (limit : Nat) (setAncestors : List uint256) :
    ∀ (l parentHashes r : List uint256), stageParents limit setAncestors parentHashes l = .ok r →
      parentHashes.length + setAncestors.length + 1 ≤ limit → r.length + setAncestors.length + 1 ≤ limit := by
  intro l
  induction l with
  | nil =>
    intro parentHashes r h hle
    cases h
    exact hle
  | cons phash rest ih =>
    intro parentHashes r h _
    unfold stageParents at h
    dsimp only at h
    obtain ⟨hcount, h⟩ := ite_error_eq_ok h
    exact ih _ r h (by omega)

/-- What the checks of the outer loop keep, with the entry's size `entrySize`:
the staged and taken ids within the count limit, the running size at least
the taken ancestors' and within the size limit once one is taken, and each
taken ancestor within the descendant limits. -/
structure WithinLimits (pool : CTxMemPool) (entrySize : Int) (limits : AncestorLimits)
    (stage setAncestors : List uint256) (total : Int) : Prop where
  count : stage ≠ [] ∨ setAncestors ≠ [] → stage.length + setAncestors.length + 1 ≤ limits.limitAncestorCount
  total_ge : entrySize + (setAncestors.map (pool.txSizeOf n)).sum ≤ total
  total_le : setAncestors ≠ [] → total ≤ limits.limitAncestorSize
  descendants : ∀ a ∈ setAncestors,
    ((pool.mapTx.lookup a).map (·.nSizeWithDescendants)).getD 0 + entrySize ≤ limits.limitDescendantSize ∧
      ((pool.mapTx.lookup a).map (·.nCountWithDescendants)).getD 0 + 1 ≤ limits.limitDescendantCount

/-- Each round of the outer loop that passes its checks keeps the limits. -/
theorem WithinLimits.step {pool : CTxMemPool} {entrySize : Int} {limits : AncestorLimits} {stageit : uint256}
    {stage setAncestors parentHashes : List uint256} {total : Int}
    (hw : WithinLimits n pool entrySize limits (stageit :: stage) setAncestors total)
    (hsize : ¬ ((pool.mapTx.lookup stageit).map (·.nSizeWithDescendants)).getD 0 + entrySize >
      (limits.limitDescendantSize : Int))
    (hcount : ¬ ((pool.mapTx.lookup stageit).map (·.nCountWithDescendants)).getD 0 + 1 >
      (limits.limitDescendantCount : Int))
    (htotal : ¬ total + pool.txSizeOf n stageit > (limits.limitAncestorSize : Int))
    (hstage : stageParents limits.limitAncestorCount (setAncestors.insert stageit) stage
      (pool.GetMemPoolParents stageit) = .ok parentHashes) :
    WithinLimits n pool entrySize limits parentHashes (setAncestors.insert stageit) (total + pool.txSizeOf n stageit) := by
  have hins : (setAncestors.insert stageit).length ≤ setAncestors.length + 1 := by
    by_cases hx : stageit ∈ setAncestors
    · rw [List.length_insert_of_mem hx]
      omega
    · rw [List.length_insert_of_not_mem hx]
  have hbefore := hw.count (.inl (List.cons_ne_nil _ _))
  simp only [List.length_cons] at hbefore
  have hnonempty : setAncestors.insert stageit ≠ [] := List.ne_nil_of_mem List.mem_insert_self
  refine ⟨fun _ => stageParents_length _ _ _ _ _ hstage (by omega), ?_, fun _ => by omega, ?_⟩
  · have := sum_map_insert (txSizeOf_nonneg n pool) stageit setAncestors
    have := hw.total_ge
    omega
  · intro a ha
    rcases List.mem_insert_iff.1 ha with rfl | ha
    · exact ⟨by omega, by omega⟩
    · exact hw.descendants a ha

theorem ancestorsLoop_withinLimits (pool : CTxMemPool) (entrySize : Int) (limits : AncestorLimits) :
    ∀ (fuel : Nat) (stage setAncestors : List uint256) (total : Int) (r : List uint256),
      WithinLimits n pool entrySize limits stage setAncestors total →
      ancestorsLoop n pool entrySize limits fuel stage setAncestors total = .ok r →
      ∃ stage' total', WithinLimits n pool entrySize limits stage' r total' := by
  intro fuel
  induction fuel with
  | zero =>
    intro stage setAncestors total r hw h
    cases h
    exact ⟨stage, total, hw⟩
  | succ fuel ih =>
    intro stage setAncestors total r hw h
    cases stage with
    | nil =>
      cases h
      exact ⟨[], total, hw⟩
    | cons stageit stage =>
      unfold ancestorsLoop at h
      dsimp only at h
      split at h
      · cases h
      rename_i hsize
      split at h
      · cases h
      rename_i hcount
      split at h
      · cases h
      rename_i htotal
      obtain ⟨parentHashes, hstage, hrest⟩ := bind_eq_ok h
      exact ih _ _ _ r (hw.step n hsize hcount htotal hstage) hrest

/-- `CalculateMemPoolAncestors` for a new transaction succeeds only within
the limits. The transaction with its ancestors is within the ancestor count,
and their sizes within the ancestor size. Every ancestor, with the
transaction's size and count added to its descendants', is within the
descendant limits. -/
theorem CalculateMemPoolAncestors_within_limits {pool : CTxMemPool} {entry : CTxMemPoolEntry} {hash : uint256}
    {limits : AncestorLimits} {setAncestors : List uint256}
    (h : pool.CalculateMemPoolAncestors n entry hash limits true = .ok setAncestors) :
    (setAncestors ≠ [] → setAncestors.length + 1 ≤ limits.limitAncestorCount ∧
      (entry.GetTxSize n : Int) + (setAncestors.map (pool.txSizeOf n)).sum ≤ limits.limitAncestorSize) ∧
    ∀ a ∈ setAncestors,
      ((pool.mapTx.lookup a).map (·.nSizeWithDescendants)).getD 0 + entry.GetTxSize n ≤ limits.limitDescendantSize ∧
        ((pool.mapTx.lookup a).map (·.nCountWithDescendants)).getD 0 + 1 ≤ limits.limitDescendantCount := by
  rw [CalculateMemPoolAncestors_eq] at h
  obtain ⟨parentHashes, hparents, hloop⟩ := bind_eq_ok h
  obtain ⟨-, -, hlen⟩ := searchParents_eq_ok pool _ _ [] _ hparents
  -- the search for parents leaves the count within the limit, and nothing is taken yet
  have hstart : WithinLimits n pool (entry.GetTxSize n) limits parentHashes [] (entry.GetTxSize n) := by
    refine ⟨fun hne => ?_, by simp, fun hne => absurd rfl hne, fun _ ha => absurd ha List.not_mem_nil⟩
    have hne' : parentHashes ≠ [] := hne.resolve_right (fun h => h rfl)
    have := hlen (fun h => absurd rfl h) hne'
    simpa using this
  obtain ⟨stage', total', hw⟩ := ancestorsLoop_withinLimits n pool _ limits _ _ _ _ _ hstart hloop
  refine ⟨fun hne => ⟨?_, ?_⟩, hw.descendants⟩
  · have := hw.count (.inr hne)
    omega
  · exact hw.total_ge.trans (hw.total_le hne)

/-- The grandchild within the default limits: 25 ancestors of at most
101 kB, and 25 descendants of at most 101 kB. -/
theorem CalculateMemPoolAncestors_within_limits_grandchild :
    familyPool.CalculateMemPoolAncestors 20 (spendingEntry (sampleId 2)) (sampleId 3) ⟨25, 101000, 25, 101000⟩ true =
        .ok [sampleId 1, sampleId 2] ∧
      ([sampleId 1, sampleId 2] ≠ [] → [sampleId 1, sampleId 2].length + 1 ≤ 25 ∧
        ((spendingEntry (sampleId 2)).GetTxSize 20 : Int) +
          ([sampleId 1, sampleId 2].map (familyPool.txSizeOf 20)).sum ≤ (101000 : Nat)) ∧
      ∀ a ∈ [sampleId 1, sampleId 2],
        ((familyPool.mapTx.lookup a).map (·.nSizeWithDescendants)).getD 0 + (spendingEntry (sampleId 2)).GetTxSize 20 ≤
            (101000 : Nat) ∧
          ((familyPool.mapTx.lookup a).map (·.nCountWithDescendants)).getD 0 + 1 ≤ (25 : Nat) := by
  have hcalc : familyPool.CalculateMemPoolAncestors 20 (spendingEntry (sampleId 2)) (sampleId 3)
      ⟨25, 101000, 25, 101000⟩ true = .ok [sampleId 1, sampleId 2] := by decide
  exact ⟨hcalc, CalculateMemPoolAncestors_within_limits 20 hcalc⟩

end CTxMemPool

end Tapyrus
