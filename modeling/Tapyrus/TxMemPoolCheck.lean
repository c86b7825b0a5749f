import Tapyrus.TxMemPool
import Tapyrus.Lib.AListSum
/-!
# What `CTxMemPool::check` asserts, over every run

`CTxMemPool::check` walks the pool and asserts that its indexes agree with
the transactions in it: every entry has links; `mapNextTx` maps each input
of a pool transaction to that transaction, and maps nothing else; an entry's
parents are the pool entries its inputs spend, and its children the pool
entries that spend its outputs; `totalTxSize` is the sum of the entries'
sizes. `Consistent` states these assertions (not the ancestor sums, and not
the coins checks, which read the chain view).

They hold in every pool reachable from the empty one through the
operations modelled in `Tapyrus.TxMemPool`, in any order: `addUnchecked` of
a transaction the pool does not hold, whose inputs no pool transaction
spends and whose outputs none spends (what `AcceptToMemoryPoolWorker` makes
sure of first), with any ancestor set; and `RemoveStaged` of any stage, and
the removals, trims, expiries and priority changes built on it.

An entry's key stands for its transaction's id: the parents are read from
the inputs' `hashMalFix`, as `check` reads them, and the children are the
entries with an input of the key's id.
-/

namespace Tapyrus

open Lib

namespace CTxMemPool

variable (n : Nat)

/-- `checkTotal`: the entries' sizes, summed. -/
def sumSize (pool : CTxMemPool) : Int :=
  sumEntries (fun _ e => ((CTxMemPoolEntry.GetTxSize n e : Nat) : Int)) pool.mapTx

/-- The pool transaction of `c` has an input spending an output of `p`. -/
def SpendsFrom (pool : CTxMemPool) (c p : uint256) : Prop :=
  ∃ tx, pool.get c = some tx ∧ p ∈ tx.vin.map (·.prevout.hashMalFix)

/-- The assertions of `CTxMemPool::check` that each removal of an entry
keeps by itself: links, spenders and the total size. -/
structure Indexed (pool : CTxMemPool) : Prop where
  /-- Every entry has links (`linksiter != mapLinks.end()`), and only entries do. -/
  links : ∀ h, (pool.mapLinks.lookup h).isSome = pool.exists h
  /-- `mapNextTx` maps an outpoint to the pool transaction spending it, and
  maps no other outpoint. -/
  nextTx : ∀ o h, pool.mapNextTx.lookup o = some h ↔ ∃ tx, pool.get h = some tx ∧ o ∈ tx.vin.map (·.prevout)
  /-- `totalTxSize == checkTotal`. -/
  totalTxSize : pool.totalTxSize = pool.sumSize n

/-- The assertions of `CTxMemPool::check` on the indexes and the total size:
with those of `Indexed`, the parent and child sets. -/
structure Consistent (pool : CTxMemPool) : Prop extends Indexed n pool where
  /-- `setParentCheck == GetMemPoolParents(it)`. -/
  parents : ∀ h, pool.exists h = true → ∀ p, p ∈ pool.GetMemPoolParents h ↔ pool.exists p = true ∧ pool.SpendsFrom h p
  /-- `setChildrenCheck == GetMemPoolChildren(it)`. -/
  children : ∀ h, pool.exists h = true → ∀ c, c ∈ pool.GetMemPoolChildren h ↔ pool.SpendsFrom c h
  parents_nodup : ∀ h, (pool.GetMemPoolParents h).Nodup
  children_nodup : ∀ h, (pool.GetMemPoolChildren h).Nodup

/-! ## Reading the pool -/

theorem exists_eq_isSome_get (pool : CTxMemPool) (h : uint256) : pool.exists h = (pool.get h).isSome := by
  simp [CTxMemPool.exists, get]

/-- An entry spends from a parent only while it is in the pool. -/
theorem SpendsFrom.exists {pool : CTxMemPool} {c p : uint256} (hs : pool.SpendsFrom c p) : pool.exists c = true := by
  obtain ⟨tx, htx, -⟩ := hs
  simp [exists_eq_isSome_get, htx]

/-- Two pools with the same transactions, spenders and sizes. -/
structure SameEntries (p q : CTxMemPool) : Prop where
  get : ∀ h, q.get h = p.get h
  mapNextTx : q.mapNextTx = p.mapNextTx
  totalTxSize : q.totalTxSize = p.totalTxSize
  sumSize : q.sumSize n = p.sumSize n

/-- Two pools with the same transactions, links, spenders and sizes: what
`Consistent` reads of a pool. -/
structure SameBook (p q : CTxMemPool) : Prop extends SameEntries n p q where
  mapLinks : q.mapLinks = p.mapLinks

theorem SameEntries.refl (p : CTxMemPool) : SameEntries n p p := ⟨fun _ => rfl, rfl, rfl, rfl⟩

theorem SameEntries.trans {p q r : CTxMemPool} (hpq : SameEntries n p q) (hqr : SameEntries n q r) :
    SameEntries n p r :=
  ⟨fun h => (hqr.get h).trans (hpq.get h), hqr.mapNextTx.trans hpq.mapNextTx, hqr.totalTxSize.trans hpq.totalTxSize,
    hqr.sumSize.trans hpq.sumSize⟩

theorem SameEntries.exists {p q : CTxMemPool} (hpq : SameEntries n p q) (h : uint256) : q.exists h = p.exists h := by
  rw [exists_eq_isSome_get, exists_eq_isSome_get, hpq.get]

theorem SameEntries.spendsFrom {p q : CTxMemPool} (hpq : SameEntries n p q) (c h : uint256) :
    q.SpendsFrom c h ↔ p.SpendsFrom c h := by
  simp only [SpendsFrom, hpq.get]

theorem SameBook.refl (p : CTxMemPool) : SameBook n p p := ⟨SameEntries.refl n p, rfl⟩

theorem SameBook.trans {p q r : CTxMemPool} (hpq : SameBook n p q) (hqr : SameBook n q r) : SameBook n p r :=
  ⟨hpq.toSameEntries.trans n hqr.toSameEntries, hqr.mapLinks.trans hpq.mapLinks⟩

/-- The indexes read only the entries, the spenders, the total and which
keys have links. -/
theorem Indexed.of_sameEntries {p q : CTxMemPool} (hp : Indexed n p) (hpq : SameEntries n p q)
    (hlinks : ∀ h, (q.mapLinks.lookup h).isSome = (p.mapLinks.lookup h).isSome) : Indexed n q where
  links h := by rw [hlinks, hpq.exists, hp.links]
  nextTx o h := by rw [hpq.mapNextTx, hpq.get, hp.nextTx]
  totalTxSize := by rw [hpq.totalTxSize, hpq.sumSize, hp.totalTxSize]

/-- `Consistent` reads nothing else. -/
theorem Consistent.of_sameBook {p q : CTxMemPool} (hp : Consistent n p) (hpq : SameBook n p q) : Consistent n q where
  toIndexed := hp.toIndexed.of_sameEntries n hpq.toSameEntries fun h => by rw [hpq.mapLinks]
  parents h hh p' := by
    rw [hpq.exists] at hh
    simp only [GetMemPoolParents, hpq.mapLinks, hpq.exists, hpq.spendsFrom]
    exact hp.parents h hh p'
  children h hh c := by
    rw [hpq.exists] at hh
    simp only [GetMemPoolChildren, hpq.mapLinks, hpq.spendsFrom]
    exact hp.children h hh c
  parents_nodup h := by
    simp only [GetMemPoolParents, hpq.mapLinks]
    exact hp.parents_nodup h
  children_nodup h := by
    simp only [GetMemPoolChildren, hpq.mapLinks]
    exact hp.children_nodup h

theorem consistent_empty (nTime : Int) : Consistent n (empty nTime) where
  links h := rfl
  nextTx o h := by simp [empty, get]
  totalTxSize := rfl
  parents h hh := by simp [empty, CTxMemPool.exists] at hh
  children h hh := by simp [empty, CTxMemPool.exists] at hh
  parents_nodup h := by simp [empty, GetMemPoolParents]
  children_nodup h := by simp [empty, GetMemPoolChildren]

/-! ## Updates of the entries

The fee delta and the ancestor and descendant sums change; the transaction
and its size do not. -/

/-- An update of an entry that keeps its transaction and its size. -/
def KeepsBook (f : CTxMemPoolEntry → CTxMemPoolEntry) : Prop :=
  ∀ e, (f e).tx = e.tx ∧ (f e).GetTxSize n = e.GetTxSize n

theorem keepsBook_UpdateFeeDelta (d : Int) : KeepsBook n (CTxMemPoolEntry.UpdateFeeDelta d) :=
  fun _ => ⟨rfl, rfl⟩

theorem keepsBook_UpdateDescendantState (s f c : Int) : KeepsBook n (CTxMemPoolEntry.UpdateDescendantState s f c) :=
  fun _ => ⟨rfl, rfl⟩

theorem keepsBook_UpdateAncestorState (s f c o : Int) :
    KeepsBook n (CTxMemPoolEntry.UpdateAncestorState s f c o) :=
  fun _ => ⟨rfl, rfl⟩

theorem modifyEntry_of_lookup {pool : CTxMemPool} {h : uint256} {e : CTxMemPoolEntry}
    (he : pool.mapTx.lookup h = some e) (f : CTxMemPoolEntry → CTxMemPoolEntry) :
    pool.modifyEntry h f = { pool with mapTx := pool.mapTx.insert h (f e) } := by
  simp [modifyEntry, he]

theorem sameBook_modifyEntry {f : CTxMemPoolEntry → CTxMemPoolEntry} (hf : KeepsBook n f) (pool : CTxMemPool)
    (h : uint256) : SameBook n pool (pool.modifyEntry h f) := by
  have hget : ∀ k, (pool.modifyEntry h f).get k = pool.get k := fun k =>
    get_modifyEntry pool h f k fun e => (hf e).1
  cases he : pool.mapTx.lookup h with
  | none => simpa [modifyEntry, he] using SameBook.refl n pool
  | some e =>
    rw [modifyEntry_of_lookup he] at hget ⊢
    refine ⟨⟨hget, rfl, rfl, ?_⟩, rfl⟩
    -- the entry's term is taken out and put back unchanged
    simp only [sumSize]
    rw [sumEntries_insert, (hf e).2, add_comm, sumEntries_erase_add _ he]

theorem sameBook_modifyEntries {f : CTxMemPoolEntry → CTxMemPoolEntry} (hf : KeepsBook n f) (hs : List uint256) :
    ∀ pool : CTxMemPool, SameBook n pool (pool.modifyEntries hs f) := by
  induction hs with
  | nil => exact SameBook.refl n
  | cons h hs ih =>
    intro pool
    exact (sameBook_modifyEntry n hf pool h).trans n (ih _)

/-! ## Updates of the links

`UpdateChild` and `UpdateParent` insert into or erase from one entry's
child or parent list; lists without repetitions stay so, and membership
changes at that entry only. -/

/-- A loop whose every round keeps a projection keeps it. -/
theorem foldl_proj {α β γ : Type} (proj : α → γ) (step : α → β → α) (hstep : ∀ a b, proj (step a b) = proj a)
    (l : List β) : ∀ a, proj (l.foldl step a) = proj a := by
  induction l with
  | nil => exact fun _ => rfl
  | cons b l ih => exact fun a => (ih _).trans (hstep a b)

theorem GetMemPoolParents_eq (pool : CTxMemPool) (h : uint256) :
    pool.GetMemPoolParents h = ((pool.mapLinks.lookup h).getD ⟨[], []⟩).parents := by
  simp only [GetMemPoolParents]
  cases pool.mapLinks.lookup h <;> rfl

theorem GetMemPoolChildren_eq (pool : CTxMemPool) (h : uint256) :
    pool.GetMemPoolChildren h = ((pool.mapLinks.lookup h).getD ⟨[], []⟩).children := by
  simp only [GetMemPoolChildren]
  cases pool.mapLinks.lookup h <;> rfl

theorem GetMemPoolParents_modifyLinks (pool : CTxMemPool) (e : uint256) (f : TxLinks → TxLinks) (k : uint256) :
    (pool.modifyLinks e f).GetMemPoolParents k =
      if k = e then (f ((pool.mapLinks.lookup e).getD ⟨[], []⟩)).parents else pool.GetMemPoolParents k := by
  by_cases hk : k = e
  · subst hk
    simp [modifyLinks, GetMemPoolParents]
  · simp [modifyLinks, GetMemPoolParents, hk, AList.lookup_insert_ne hk]

theorem GetMemPoolChildren_modifyLinks (pool : CTxMemPool) (e : uint256) (f : TxLinks → TxLinks) (k : uint256) :
    (pool.modifyLinks e f).GetMemPoolChildren k =
      if k = e then (f ((pool.mapLinks.lookup e).getD ⟨[], []⟩)).children else pool.GetMemPoolChildren k := by
  by_cases hk : k = e
  · subst hk
    simp [modifyLinks, GetMemPoolChildren]
  · simp [modifyLinks, GetMemPoolChildren, hk, AList.lookup_insert_ne hk]

theorem links_modifyLinks (pool : CTxMemPool) (e : uint256) (f : TxLinks → TxLinks) (k : uint256) :
    ((pool.modifyLinks e f).mapLinks.lookup k).isSome = (decide (k = e) || (pool.mapLinks.lookup k).isSome) := by
  by_cases hk : k = e
  · subst hk
    simp [modifyLinks]
  · simp [modifyLinks, hk, AList.lookup_insert_ne hk]

/-- A list update that adds or removes one element, as a set. -/
theorem mem_insert_or_erase {l : List uint256} (hl : l.Nodup) (c x : uint256) (add : Bool) :
    x ∈ (if add then l.insert c else l.erase c) ↔ if add then x ∈ l ∨ x = c else x ∈ l ∧ x ≠ c := by
  cases add
  · simp only [Bool.false_eq_true, if_false]
    rw [hl.mem_erase_iff, and_comm]
  · simp [List.mem_insert_iff, or_comm]

theorem nodup_insert_or_erase {l : List uint256} (hl : l.Nodup) (c : uint256) (add : Bool) :
    (if add then l.insert c else l.erase c).Nodup := by
  cases add
  · exact hl.erase c
  · exact hl.insert

@[simp] theorem GetMemPoolParents_UpdateChild (pool : CTxMemPool) (e c : uint256) (add : Bool) (k : uint256) :
    (pool.UpdateChild e c add).GetMemPoolParents k = pool.GetMemPoolParents k := by
  rw [UpdateChild, GetMemPoolParents_modifyLinks]
  split
  · subst k
    rw [GetMemPoolParents_eq]
  · rfl

theorem GetMemPoolChildren_UpdateChild (pool : CTxMemPool) (e c : uint256) (add : Bool) (k : uint256) :
    (pool.UpdateChild e c add).GetMemPoolChildren k =
      if k = e then (if add then (pool.GetMemPoolChildren e).insert c else (pool.GetMemPoolChildren e).erase c)
      else pool.GetMemPoolChildren k := by
  rw [UpdateChild, GetMemPoolChildren_modifyLinks]
  split
  · rw [GetMemPoolChildren_eq]
  · rfl

@[simp] theorem GetMemPoolChildren_UpdateParent (pool : CTxMemPool) (e p : uint256) (add : Bool) (k : uint256) :
    (pool.UpdateParent e p add).GetMemPoolChildren k = pool.GetMemPoolChildren k := by
  rw [UpdateParent, GetMemPoolChildren_modifyLinks]
  split
  · subst k
    rw [GetMemPoolChildren_eq]
  · rfl

theorem GetMemPoolParents_UpdateParent (pool : CTxMemPool) (e p : uint256) (add : Bool) (k : uint256) :
    (pool.UpdateParent e p add).GetMemPoolParents k =
      if k = e then (if add then (pool.GetMemPoolParents e).insert p else (pool.GetMemPoolParents e).erase p)
      else pool.GetMemPoolParents k := by
  rw [UpdateParent, GetMemPoolParents_modifyLinks]
  split
  · rw [GetMemPoolParents_eq]
  · rfl

/-- What a link update leaves alone: the entries, the spenders, the total. -/
def entriesOf (pool : CTxMemPool) : AList (fun _ : uint256 => CTxMemPoolEntry) × AList (fun _ : COutPoint => uint256) × Int :=
  (pool.mapTx, pool.mapNextTx, pool.totalTxSize)

theorem entriesOf_foldl_UpdateChild (c : uint256) (add : Bool) (l : List uint256) (pool : CTxMemPool) :
    entriesOf (l.foldl (fun pool e => pool.UpdateChild e c add) pool) = entriesOf pool :=
  foldl_proj entriesOf (fun pool e => pool.UpdateChild e c add) (fun _ _ => rfl) l pool

theorem entriesOf_foldl_UpdateParent (p : uint256) (add : Bool) (l : List uint256) (pool : CTxMemPool) :
    entriesOf (l.foldl (fun pool e => pool.UpdateParent e p add) pool) = entriesOf pool :=
  foldl_proj entriesOf (fun pool e => pool.UpdateParent e p add) (fun _ _ => rfl) l pool

/-- `c` added to (or taken from) the children of each entry of `l`: the
parents stay, and each child list changes at the entries of `l` only. -/
theorem foldl_UpdateChild (c : uint256) (add : Bool) (l : List uint256) :
    ∀ pool : CTxMemPool, (∀ k, (pool.GetMemPoolChildren k).Nodup) →
      (∀ k, ((l.foldl (fun pool e => pool.UpdateChild e c add) pool).GetMemPoolChildren k).Nodup) ∧
      (∀ k, (l.foldl (fun pool e => pool.UpdateChild e c add) pool).GetMemPoolParents k = pool.GetMemPoolParents k) ∧
      (∀ k, (((l.foldl (fun pool e => pool.UpdateChild e c add) pool).mapLinks.lookup k).isSome =
        (decide (k ∈ l) || (pool.mapLinks.lookup k).isSome))) ∧
      ∀ k x, x ∈ (l.foldl (fun pool e => pool.UpdateChild e c add) pool).GetMemPoolChildren k ↔
        if k ∈ l then (if add then x ∈ pool.GetMemPoolChildren k ∨ x = c else x ∈ pool.GetMemPoolChildren k ∧ x ≠ c)
        else x ∈ pool.GetMemPoolChildren k := by
  induction l with
  | nil => exact fun pool hnd => ⟨hnd, fun _ => rfl, fun _ => by simp, fun _ _ => by simp⟩
  | cons e l ih =>
    intro pool hnd
    -- one round at `e`, then the rest from there
    have hnd' : ∀ k, ((pool.UpdateChild e c add).GetMemPoolChildren k).Nodup := by
      intro k
      rw [GetMemPoolChildren_UpdateChild]
      split
      · exact nodup_insert_or_erase (hnd e) c add
      · exact hnd k
    obtain ⟨hnd₁, hpar₁, hlinks₁, hmem₁⟩ := ih _ hnd'
    refine ⟨hnd₁, fun k => (hpar₁ k).trans (GetMemPoolParents_UpdateChild _ _ _ _ _), fun k => ?_, fun k x => ?_⟩
    · rw [List.foldl_cons, hlinks₁, UpdateChild, links_modifyLinks]
      by_cases hk : k = e <;> simp [hk]
    · rw [List.foldl_cons, hmem₁, GetMemPoolChildren_UpdateChild]
      by_cases hk : k = e
      · subst hk
        have h := mem_insert_or_erase (hnd k) c x add
        cases add <;> simp_all
      · simp only [hk, if_false, List.mem_cons, false_or]

/-- `p` added to (or taken from) the parents of each entry of `l`. -/
theorem foldl_UpdateParent (p : uint256) (add : Bool) (l : List uint256) :
    ∀ pool : CTxMemPool, (∀ k, (pool.GetMemPoolParents k).Nodup) →
      (∀ k, ((l.foldl (fun pool e => pool.UpdateParent e p add) pool).GetMemPoolParents k).Nodup) ∧
      (∀ k, (l.foldl (fun pool e => pool.UpdateParent e p add) pool).GetMemPoolChildren k = pool.GetMemPoolChildren k) ∧
      (∀ k, (((l.foldl (fun pool e => pool.UpdateParent e p add) pool).mapLinks.lookup k).isSome =
        (decide (k ∈ l) || (pool.mapLinks.lookup k).isSome))) ∧
      ∀ k x, x ∈ (l.foldl (fun pool e => pool.UpdateParent e p add) pool).GetMemPoolParents k ↔
        if k ∈ l then (if add then x ∈ pool.GetMemPoolParents k ∨ x = p else x ∈ pool.GetMemPoolParents k ∧ x ≠ p)
        else x ∈ pool.GetMemPoolParents k := by
  induction l with
  | nil => exact fun pool hnd => ⟨hnd, fun _ => rfl, fun _ => by simp, fun _ _ => by simp⟩
  | cons e l ih =>
    intro pool hnd
    have hnd' : ∀ k, ((pool.UpdateParent e p add).GetMemPoolParents k).Nodup := by
      intro k
      rw [GetMemPoolParents_UpdateParent]
      split
      · exact nodup_insert_or_erase (hnd e) p add
      · exact hnd k
    obtain ⟨hnd₁, hch₁, hlinks₁, hmem₁⟩ := ih _ hnd'
    refine ⟨hnd₁, fun k => (hch₁ k).trans (GetMemPoolChildren_UpdateParent _ _ _ _ _), fun k => ?_, fun k x => ?_⟩
    · rw [List.foldl_cons, hlinks₁, UpdateParent, links_modifyLinks]
      by_cases hk : k = e <;> simp [hk]
    · rw [List.foldl_cons, hmem₁, GetMemPoolParents_UpdateParent]
      by_cases hk : k = e
      · subst hk
        have h := mem_insert_or_erase (hnd k) p x add
        cases add <;> simp_all
      · simp only [hk, if_false, List.mem_cons, false_or]

theorem SameEntries.of_entriesOf {p q : CTxMemPool} (h : entriesOf q = entriesOf p) : SameEntries n p q := by
  simp only [entriesOf, Prod.mk.injEq] at h
  obtain ⟨hTx, hNext, hTotal⟩ := h
  exact ⟨fun k => by unfold CTxMemPool.get; rw [hTx], hNext, hTotal, by unfold CTxMemPool.sumSize; rw [hTx]⟩

theorem SameBook.parents {p q : CTxMemPool} (hpq : SameBook n p q) (k : uint256) :
    q.GetMemPoolParents k = p.GetMemPoolParents k := by
  simp [GetMemPoolParents, hpq.mapLinks]

theorem SameBook.children {p q : CTxMemPool} (hpq : SameBook n p q) (k : uint256) :
    q.GetMemPoolChildren k = p.GetMemPoolChildren k := by
  simp [GetMemPoolChildren, hpq.mapLinks]

/-- A loop each of whose rounds keeps the book. -/
theorem sameBook_foldl {β : Type} (step : CTxMemPool → β → CTxMemPool) (hstep : ∀ p b, SameBook n p (step p b))
    (l : List β) : ∀ p, SameBook n p (l.foldl step p) := by
  induction l with
  | nil => exact SameBook.refl n
  | cons b l ih => exact fun p => (hstep p b).trans n (ih _)

/-- `UpdateAncestorsOf(add, it, setAncestors)`: `it` added to (or taken
from) the children of its parents; the entries change in their sums only. -/
theorem UpdateAncestorsOf_spec (pool : CTxMemPool) (add : Bool) (it : uint256) (setAncestors : List uint256)
    (hnd : ∀ k, (pool.GetMemPoolChildren k).Nodup) (q : CTxMemPool)
    (hq : UpdateAncestorsOf n pool add it setAncestors = q) :
    SameEntries n pool q ∧ (∀ k, (q.GetMemPoolChildren k).Nodup) ∧
      (∀ k, q.GetMemPoolParents k = pool.GetMemPoolParents k) ∧
      (∀ k, (q.mapLinks.lookup k).isSome = (decide (k ∈ pool.GetMemPoolParents it) || (pool.mapLinks.lookup k).isSome)) ∧
      ∀ k x, x ∈ q.GetMemPoolChildren k ↔
        if k ∈ pool.GetMemPoolParents it then
          (if add then x ∈ pool.GetMemPoolChildren k ∨ x = it else x ∈ pool.GetMemPoolChildren k ∧ x ≠ it)
        else x ∈ pool.GetMemPoolChildren k := by
  subst hq
  unfold UpdateAncestorsOf
  dsimp only
  obtain ⟨hnd₁, hpar₁, hlinks₁, hmem₁⟩ := foldl_UpdateChild it add (pool.GetMemPoolParents it) pool hnd
  have hentries := entriesOf_foldl_UpdateChild it add (pool.GetMemPoolParents it) pool
  -- the sums of the ancestors change last, and the book with them stays
  generalize List.foldl (fun pool piter => pool.UpdateChild piter it add) pool (pool.GetMemPoolParents it) = r
    at hnd₁ hpar₁ hlinks₁ hmem₁ hentries ⊢
  have hm := sameBook_modifyEntries n (keepsBook_UpdateDescendantState n
    ((if add = true then 1 else -1) * pool.txSizeOf n it) ((if add = true then 1 else -1) * pool.modFeeOf it)
    (if add = true then 1 else -1)) setAncestors r
  refine ⟨(SameEntries.of_entriesOf n hentries).trans n hm.toSameEntries, fun k => ?_, fun k => ?_, fun k => ?_,
    fun k x => ?_⟩
  · rw [hm.children]
    exact hnd₁ k
  · rw [hm.parents, hpar₁]
  · rw [hm.mapLinks, hlinks₁]
  · rw [hm.children, hmem₁]

/-! ## Removal

`UpdateForRemoveFromMempool` first takes each entry of the stage out of its
parents' child lists, then out of its children's parent lists; the entries
outside the stage then name no entry of it. `removeUnchecked` then drops
each entry with its links and its spenders. -/

/-- The parent and child lists of a consistent pool are two views of one
relation. -/
theorem Consistent.mem_parents_iff {pool : CTxMemPool} (hp : Consistent n pool) (k x : uint256) :
    x ∈ pool.GetMemPoolParents k ↔ k ∈ pool.GetMemPoolChildren x := by
  by_cases hk : pool.exists k = true
  · by_cases hx : pool.exists x = true
    · rw [hp.parents k hk, hp.children x hx]
      exact ⟨fun h => h.2, fun h => ⟨hx, h⟩⟩
    · have hnil : pool.GetMemPoolChildren x = [] := by
        have hl := hp.links x
        rw [Bool.not_eq_true] at hx
        rw [hx, Option.isSome_eq_false_iff, Option.isNone_iff_eq_none] at hl
        simp [GetMemPoolChildren, hl]
      rw [hp.parents k hk, hnil]
      simp [hx]
  · have hnil : pool.GetMemPoolParents k = [] := by
      have hl := hp.links k
      rw [Bool.not_eq_true] at hk
      rw [hk, Option.isSome_eq_false_iff, Option.isNone_iff_eq_none] at hl
      simp [GetMemPoolParents, hl]
    rw [hnil]
    simp only [List.not_mem_nil, false_iff]
    intro hkx
    have hx : pool.exists x = true := by
      by_contra hx
      have hl := hp.links x
      rw [Bool.not_eq_true] at hx
      rw [hx, Option.isSome_eq_false_iff, Option.isNone_iff_eq_none] at hl
      simp [GetMemPoolChildren, hl] at hkx
    exact hk ((hp.children x hx k).1 hkx).exists

/-- The second loop of `UpdateForRemoveFromMempool`: each entry of the stage
leaves the child lists of its parents. -/
theorem removeFromParents_spec (stage : List uint256) :
    ∀ pool : CTxMemPool, (∀ k, (pool.GetMemPoolChildren k).Nodup) →
      (∀ x k, k ∈ pool.GetMemPoolParents x → (pool.mapLinks.lookup k).isSome) →
      ∀ q, stage.foldl (fun pool removeIt => UpdateAncestorsOf n pool false removeIt (ancestorsOf n pool removeIt))
        pool = q →
      SameEntries n pool q ∧ (∀ k, (q.GetMemPoolChildren k).Nodup) ∧
        (∀ k, q.GetMemPoolParents k = pool.GetMemPoolParents k) ∧
        (∀ k, (q.mapLinks.lookup k).isSome = (pool.mapLinks.lookup k).isSome) ∧
        ∀ k x, x ∈ q.GetMemPoolChildren k ↔
          x ∈ pool.GetMemPoolChildren k ∧ ¬(x ∈ stage ∧ k ∈ pool.GetMemPoolParents x) := by
  induction stage with
  | nil =>
    intro pool hnd _ q hq
    subst hq
    exact ⟨SameEntries.refl n _, hnd, fun _ => rfl, fun _ => rfl, fun k x => by simp⟩
  | cons removeIt rest ih =>
    intro pool hnd hl q hq
    rw [List.foldl_cons] at hq
    generalize hq₁ : UpdateAncestorsOf n pool false removeIt (ancestorsOf n pool removeIt) = q₁ at hq
    obtain ⟨hs₁, hnd₁, hpar₁, hlinks₁, hmem₁⟩ := UpdateAncestorsOf_spec n pool false removeIt _ hnd q₁ hq₁
    -- the parents of `removeIt` had links already
    have hlinks₁' : ∀ k, (q₁.mapLinks.lookup k).isSome = (pool.mapLinks.lookup k).isSome := by
      intro k
      rw [hlinks₁]
      by_cases hk : k ∈ pool.GetMemPoolParents removeIt
      · simp [hk, hl removeIt k hk]
      · simp [hk]
    have hl₁ : ∀ x k, k ∈ q₁.GetMemPoolParents x → (q₁.mapLinks.lookup k).isSome := by
      intro x k hk
      rw [hpar₁] at hk
      rw [hlinks₁']
      exact hl x k hk
    obtain ⟨hs₂, hnd₂, hpar₂, hlinks₂, hmem₂⟩ := ih q₁ hnd₁ hl₁ q hq
    refine ⟨hs₁.trans n hs₂, hnd₂, fun k => (hpar₂ k).trans (hpar₁ k), fun k => (hlinks₂ k).trans (hlinks₁' k),
      fun k x => ?_⟩
    rw [hmem₂, hmem₁, hpar₁]
    by_cases hx : x = removeIt
    · subst hx
      by_cases hk : k ∈ pool.GetMemPoolParents x <;> simp [hk]
    · by_cases hk : k ∈ pool.GetMemPoolParents removeIt <;> simp [hk, hx]

/-- `UpdateChildrenForRemoval(it)`: `it` leaves the parent lists of its
children. -/
theorem UpdateChildrenForRemoval_spec (pool : CTxMemPool) (it : uint256)
    (hnd : ∀ k, (pool.GetMemPoolParents k).Nodup) (q : CTxMemPool) (hq : pool.UpdateChildrenForRemoval it = q) :
    entriesOf q = entriesOf pool ∧ (∀ k, (q.GetMemPoolParents k).Nodup) ∧
      (∀ k, q.GetMemPoolChildren k = pool.GetMemPoolChildren k) ∧
      (∀ k, (q.mapLinks.lookup k).isSome = (decide (k ∈ pool.GetMemPoolChildren it) || (pool.mapLinks.lookup k).isSome)) ∧
      ∀ k x, x ∈ q.GetMemPoolParents k ↔
        if k ∈ pool.GetMemPoolChildren it then x ∈ pool.GetMemPoolParents k ∧ x ≠ it else x ∈ pool.GetMemPoolParents k := by
  subst hq
  unfold UpdateChildrenForRemoval
  obtain ⟨hnd₁, hch₁, hlinks₁, hmem₁⟩ := foldl_UpdateParent it false (pool.GetMemPoolChildren it) pool hnd
  exact ⟨entriesOf_foldl_UpdateParent it false _ pool, hnd₁, hch₁, hlinks₁, fun k x => by
    rw [hmem₁]
    simp⟩

/-- The third loop of `UpdateForRemoveFromMempool`: each entry of the stage
leaves the parent lists of its children. -/
theorem removeFromChildren_spec (stage : List uint256) :
    ∀ pool : CTxMemPool, (∀ k, (pool.GetMemPoolParents k).Nodup) →
      (∀ x k, k ∈ pool.GetMemPoolChildren x → (pool.mapLinks.lookup k).isSome) →
      ∀ q, stage.foldl UpdateChildrenForRemoval pool = q →
      SameEntries n pool q ∧ (∀ k, (q.GetMemPoolParents k).Nodup) ∧
        (∀ k, q.GetMemPoolChildren k = pool.GetMemPoolChildren k) ∧
        (∀ k, (q.mapLinks.lookup k).isSome = (pool.mapLinks.lookup k).isSome) ∧
        ∀ k x, x ∈ q.GetMemPoolParents k ↔
          x ∈ pool.GetMemPoolParents k ∧ ¬(x ∈ stage ∧ k ∈ pool.GetMemPoolChildren x) := by
  induction stage with
  | nil =>
    intro pool hnd _ q hq
    subst hq
    exact ⟨SameEntries.refl n _, hnd, fun _ => rfl, fun _ => rfl, fun k x => by simp⟩
  | cons removeIt rest ih =>
    intro pool hnd hl q hq
    rw [List.foldl_cons] at hq
    generalize hq₁ : pool.UpdateChildrenForRemoval removeIt = q₁ at hq
    obtain ⟨hs₁, hnd₁, hch₁, hlinks₁, hmem₁⟩ := UpdateChildrenForRemoval_spec pool removeIt hnd q₁ hq₁
    have hlinks₁' : ∀ k, (q₁.mapLinks.lookup k).isSome = (pool.mapLinks.lookup k).isSome := by
      intro k
      rw [hlinks₁]
      by_cases hk : k ∈ pool.GetMemPoolChildren removeIt
      · simp [hk, hl removeIt k hk]
      · simp [hk]
    have hl₁ : ∀ x k, k ∈ q₁.GetMemPoolChildren x → (q₁.mapLinks.lookup k).isSome := by
      intro x k hk
      rw [hch₁] at hk
      rw [hlinks₁']
      exact hl x k hk
    obtain ⟨hs₂, hnd₂, hch₂, hlinks₂, hmem₂⟩ := ih q₁ hnd₁ hl₁ q hq
    refine ⟨(SameEntries.of_entriesOf n hs₁).trans n hs₂, hnd₂, fun k => (hch₂ k).trans (hch₁ k),
      fun k => (hlinks₂ k).trans (hlinks₁' k), fun k x => ?_⟩
    rw [hmem₂, hmem₁, hch₁]
    by_cases hx : x = removeIt
    · subst hx
      by_cases hk : k ∈ pool.GetMemPoolChildren x <;> simp [hk]
    · by_cases hk : k ∈ pool.GetMemPoolChildren removeIt <;> simp [hk, hx]

theorem links_of_mem_parents {pool : CTxMemPool} {k x : uint256} (h : x ∈ pool.GetMemPoolParents k) :
    (pool.mapLinks.lookup k).isSome := by
  cases hk : pool.mapLinks.lookup k with
  | none => simp [GetMemPoolParents, hk] at h
  | some l => rfl

theorem links_of_mem_children {pool : CTxMemPool} {k x : uint256} (h : x ∈ pool.GetMemPoolChildren k) :
    (pool.mapLinks.lookup k).isSome := by
  cases hk : pool.mapLinks.lookup k with
  | none => simp [GetMemPoolChildren, hk] at h
  | some l => rfl

/-- The two last loops of `UpdateForRemoveFromMempool`, run on a pool with
the book of a consistent one: afterwards no list outside the stage names an
entry of it. -/
theorem removeLinks_spec {pool r₁ : CTxMemPool} (hp : Consistent n pool) (hr₁ : SameBook n pool r₁)
    (stage : List uint256) (q : CTxMemPool)
    (hq : stage.foldl UpdateChildrenForRemoval
      (stage.foldl (fun pool removeIt => UpdateAncestorsOf n pool false removeIt (ancestorsOf n pool removeIt)) r₁) = q) :
    SameEntries n pool q ∧ (∀ k, (q.mapLinks.lookup k).isSome = (pool.mapLinks.lookup k).isSome) ∧
      (∀ k, (q.GetMemPoolParents k).Nodup) ∧ (∀ k, (q.GetMemPoolChildren k).Nodup) ∧
      (∀ k x, x ∈ q.GetMemPoolChildren k ↔ x ∈ pool.GetMemPoolChildren k ∧ x ∉ stage) ∧
      ∀ k, k ∉ stage → ∀ x, x ∈ q.GetMemPoolParents k ↔ x ∈ pool.GetMemPoolParents k ∧ x ∉ stage := by
  have hr := hp.of_sameBook n hr₁
  generalize hq₂ : stage.foldl (fun pool removeIt => UpdateAncestorsOf n pool false removeIt
    (ancestorsOf n pool removeIt)) r₁ = q₂ at hq
  obtain ⟨hs₂, hnd₂, hpar₂, hlinks₂, hmem₂⟩ := removeFromParents_spec n stage r₁ hr.children_nodup
    (fun x k hk => links_of_mem_children ((hr.mem_parents_iff n x k).1 hk)) q₂ hq₂
  have hl₂ : ∀ x k, k ∈ q₂.GetMemPoolChildren x → (q₂.mapLinks.lookup k).isSome := by
    intro x k hk
    rw [hmem₂] at hk
    rw [hlinks₂]
    exact links_of_mem_parents ((hr.mem_parents_iff n k x).2 hk.1)
  obtain ⟨hs₃, hnd₃, hch₃, hlinks₃, hmem₃⟩ := removeFromChildren_spec n stage q₂
    (fun k => by rw [hpar₂]; exact hr.parents_nodup k) hl₂ q hq
  refine ⟨hr₁.toSameEntries.trans n (hs₂.trans n hs₃), fun k => by rw [hlinks₃, hlinks₂, hr₁.mapLinks], hnd₃,
    fun k => by rw [hch₃]; exact hnd₂ k, fun k x => ?_, fun k hk x => ?_⟩
  · -- a child in the stage went with its parent's list
    rw [hch₃, hmem₂, hr.mem_parents_iff n, hr₁.children]
    tauto
  · -- a parent in the stage left the list of each child outside it
    rw [hmem₃, hpar₂, hmem₂, ← hr.mem_parents_iff n k x, hr₁.parents]
    tauto

/-- `UpdateForRemoveFromMempool(stage, updateDescendants)` on a consistent
pool: the entries stay, and the lists outside the stage lose its entries. -/
theorem UpdateForRemoveFromMempool_spec {pool : CTxMemPool} (hp : Consistent n pool) (stage : List uint256)
    (upd : Bool) :
    SameEntries n pool (UpdateForRemoveFromMempool n pool stage upd) ∧
      (∀ k, ((UpdateForRemoveFromMempool n pool stage upd).mapLinks.lookup k).isSome =
        (pool.mapLinks.lookup k).isSome) ∧
      (∀ k, ((UpdateForRemoveFromMempool n pool stage upd).GetMemPoolParents k).Nodup) ∧
      (∀ k, ((UpdateForRemoveFromMempool n pool stage upd).GetMemPoolChildren k).Nodup) ∧
      (∀ k x, x ∈ (UpdateForRemoveFromMempool n pool stage upd).GetMemPoolChildren k ↔
        x ∈ pool.GetMemPoolChildren k ∧ x ∉ stage) ∧
      ∀ k, k ∉ stage → ∀ x, x ∈ (UpdateForRemoveFromMempool n pool stage upd).GetMemPoolParents k ↔
        x ∈ pool.GetMemPoolParents k ∧ x ∉ stage := by
  unfold UpdateForRemoveFromMempool
  dsimp only
  -- the first loop, when there is one, changes the ancestor sums only
  split
  · refine removeLinks_spec n hp (sameBook_foldl n _ (fun p b => ?_) stage pool) stage _ rfl
    exact sameBook_modifyEntries n (keepsBook_UpdateAncestorState n _ _ _ _) _ p
  · exact removeLinks_spec n hp (SameBook.refl n pool) stage _ rfl

/-- The inputs' outpoints erased from `mapNextTx`. -/
theorem lookup_foldl_erase (l : List CTxIn) :
    ∀ (m : AList (fun _ : COutPoint => uint256)) o,
      (l.foldl (fun m txin => m.erase txin.prevout) m).lookup o = if o ∈ l.map (·.prevout) then none else m.lookup o := by
  induction l with
  | nil => exact fun m o => by simp
  | cons txin l ih =>
    intro m o
    rw [List.foldl_cons, ih]
    by_cases ho : o = txin.prevout
    · subst ho
      simp
    · simp [ho, AList.lookup_erase_ne ho]

theorem removeUnchecked_of_lookup {pool : CTxMemPool} {it : uint256} {e : CTxMemPoolEntry}
    (he : pool.mapTx.lookup it = some e) :
    pool.removeUnchecked n it =
      { pool with
        mapNextTx := e.tx.vin.foldl (fun m txin => m.erase txin.prevout) pool.mapNextTx,
        totalTxSize := pool.totalTxSize - e.GetTxSize n,
        mapLinks := pool.mapLinks.erase it,
        mapTx := pool.mapTx.erase it } := by
  simp [removeUnchecked, he]

theorem removeUnchecked_of_lookup_none {pool : CTxMemPool} {it : uint256} (he : pool.mapTx.lookup it = none) :
    pool.removeUnchecked n it = pool := by
  simp [removeUnchecked, he]

theorem get_removeUnchecked (pool : CTxMemPool) (it k : uint256) :
    (pool.removeUnchecked n it).get k = if k = it then none else pool.get k := by
  cases he : pool.mapTx.lookup it with
  | none =>
    rw [removeUnchecked_of_lookup_none n he]
    split
    · subst k
      simp [get, he]
    · rfl
  | some e =>
    rw [removeUnchecked_of_lookup n he]
    split
    · subst k
      simp [get]
    · rename_i hk
      simp [get, AList.lookup_erase_ne hk]

/-- Dropping an entry with its links and spenders keeps the indexes. -/
theorem Indexed.removeUnchecked {pool : CTxMemPool} (hp : Indexed n pool) (it : uint256) :
    Indexed n (pool.removeUnchecked n it) := by
  cases he : pool.mapTx.lookup it with
  | none =>
    rw [removeUnchecked_of_lookup_none n he]
    exact hp
  | some e =>
    have hget := get_removeUnchecked n pool it
    rw [removeUnchecked_of_lookup n he] at hget ⊢
    have hit : pool.get it = some e.tx := by simp [get, he]
    refine ⟨fun k => ?_, fun o h => ?_, ?_⟩
    · -- the entry and its links leave together
      rw [exists_eq_isSome_get, hget]
      by_cases hk : k = it
      · subst hk
        simp
      · simp only [AList.lookup_erase_ne hk, hk, if_false, hp.links k, exists_eq_isSome_get]
    · -- the outpoints the entry spent are spent by no other entry
      rw [lookup_foldl_erase, hget]
      by_cases ho : o ∈ e.tx.vin.map (·.prevout)
      · simp only [ho, if_true, reduceCtorEq, false_iff, not_exists, not_and]
        intro tx htx hotx
        split at htx
        · cases htx
        · rename_i hh
          have h₁ := (hp.nextTx o h).2 ⟨tx, htx, hotx⟩
          have h₂ := (hp.nextTx o it).2 ⟨e.tx, hit, ho⟩
          exact hh (Option.some.inj (h₁.symm.trans h₂))
      · simp only [ho, if_false]
        rw [hp.nextTx]
        by_cases hh : h = it
        · subst hh
          simp only [if_true, reduceCtorEq, false_and, exists_false, iff_false, not_exists, not_and]
          intro tx htx
          rw [hit] at htx
          cases htx
          exact ho
        · simp only [hh, if_false]
    · -- the entry's term leaves the sum with it
      show pool.totalTxSize - _ = sumEntries _ (pool.mapTx.erase it)
      rw [hp.totalTxSize, sumSize, ← sumEntries_erase_add _ he]
      ring

theorem removeUnchecked_links {pool : CTxMemPool} (it k : uint256) (hk : k ≠ it) :
    (pool.removeUnchecked n it).mapLinks.lookup k = pool.mapLinks.lookup k := by
  cases he : pool.mapTx.lookup it with
  | none => rw [removeUnchecked_of_lookup_none n he]
  | some e =>
    rw [removeUnchecked_of_lookup n he]
    exact AList.lookup_erase_ne hk

/-- An entry's links after a removal: its own, or none. -/
theorem removeUnchecked_links_cases (pool : CTxMemPool) (it k : uint256) :
    (pool.removeUnchecked n it).mapLinks.lookup k = pool.mapLinks.lookup k ∨
      (pool.removeUnchecked n it).mapLinks.lookup k = none := by
  by_cases hk : k = it
  · subst hk
    cases he : pool.mapTx.lookup k with
    | none =>
      rw [removeUnchecked_of_lookup_none n he]
      exact .inl rfl
    | some e =>
      rw [removeUnchecked_of_lookup n he]
      exact .inr (AList.lookup_erase _ _)
  · exact .inl (removeUnchecked_links n it k hk)

/-- The removal loop of `RemoveStaged`: the stage's entries leave; the links
of the others stay as they were. -/
theorem foldl_removeUnchecked (stage : List uint256) :
    ∀ pool : CTxMemPool, Indexed n pool → ∀ q, stage.foldl (removeUnchecked n) pool = q →
      Indexed n q ∧ (∀ k, q.get k = if k ∈ stage then none else pool.get k) ∧
        ∀ k, q.mapLinks.lookup k = pool.mapLinks.lookup k ∨ (k ∈ stage ∧ q.mapLinks.lookup k = none) := by
  induction stage with
  | nil =>
    intro pool hp q hq
    subst hq
    exact ⟨hp, fun k => by simp, fun k => .inl rfl⟩
  | cons it rest ih =>
    intro pool hp q hq
    rw [List.foldl_cons] at hq
    obtain ⟨hq₁, hget, hlinks⟩ := ih _ (hp.removeUnchecked n it) q hq
    refine ⟨hq₁, fun k => ?_, fun k => ?_⟩
    · rw [hget, get_removeUnchecked]
      by_cases hk : k = it <;> simp [hk]
    · rcases hlinks k with h | ⟨hk, h⟩
      · rcases removeUnchecked_links_cases n pool it k with h' | h'
        · exact .inl (h.trans h')
        · -- only the entry itself loses its links
          by_cases hk : k = it
          · exact .inr ⟨hk ▸ List.mem_cons_self, h.trans h'⟩
          · exact .inl (h.trans (removeUnchecked_links n it k hk))
      · exact .inr ⟨List.mem_cons_of_mem it hk, h⟩

/-- `RemoveStaged(stage, updateDescendants)` keeps every assertion, whatever
the stage: entries of the stage whose children stay behind leave those
children with no link to them. -/
theorem consistent_RemoveStaged {pool : CTxMemPool} (hp : Consistent n pool) (stage : List uint256) (upd : Bool) :
    Consistent n (pool.RemoveStaged n stage upd) := by
  obtain ⟨hs, hlinks, hndp, hndc, hch, hpar⟩ := UpdateForRemoveFromMempool_spec n hp stage upd
  unfold RemoveStaged
  generalize UpdateForRemoveFromMempool n pool stage upd = r at *
  obtain ⟨hq, hget, hlq⟩ := foldl_removeUnchecked n stage r (hp.toIndexed.of_sameEntries n hs hlinks) _ rfl
  generalize stage.foldl (removeUnchecked n) r = q at *
  -- what is left: the entries outside the stage, with the links they had in `r`
  have hget' : ∀ k, q.get k = if k ∈ stage then none else pool.get k := fun k => by rw [hget, hs.get]
  have hex : ∀ k, q.exists k = true ↔ k ∉ stage ∧ pool.exists k = true := by
    intro k
    rw [exists_eq_isSome_get, hget', exists_eq_isSome_get]
    by_cases hk : k ∈ stage <;> simp [hk]
  have hsp : ∀ c h, q.SpendsFrom c h ↔ c ∉ stage ∧ pool.SpendsFrom c h := by
    intro c h
    simp only [SpendsFrom, hget']
    by_cases hc : c ∈ stage <;> simp [hc]
  have hlist : ∀ k, k ∉ stage → q.mapLinks.lookup k = r.mapLinks.lookup k := by
    intro k hk
    rcases hlq k with h | ⟨hk', -⟩
    · exact h
    · exact absurd hk' hk
  refine ⟨hq, fun k hk x => ?_, fun k hk x => ?_, fun k => ?_, fun k => ?_⟩
  · obtain ⟨hks, hkp⟩ := (hex k).1 hk
    have hl : q.GetMemPoolParents k = r.GetMemPoolParents k := by simp [GetMemPoolParents, hlist k hks]
    rw [hl, hpar k hks x, hp.parents k hkp x, hex, hsp]
    tauto
  · obtain ⟨hks, hkp⟩ := (hex k).1 hk
    have hl : q.GetMemPoolChildren k = r.GetMemPoolChildren k := by simp [GetMemPoolChildren, hlist k hks]
    rw [hl, hch k x, hp.children k hkp x, hsp]
    tauto
  · rcases hlq k with h | ⟨-, h⟩
    · have hl : q.GetMemPoolParents k = r.GetMemPoolParents k := by simp [GetMemPoolParents, h]
      rw [hl]
      exact hndp k
    · simp [GetMemPoolParents, h]
  · rcases hlq k with h | ⟨-, h⟩
    · have hl : q.GetMemPoolChildren k = r.GetMemPoolChildren k := by simp [GetMemPoolChildren, h]
      rw [hl]
      exact hndc k
    · simp [GetMemPoolChildren, h]

/-- `RemoveStaged` takes out the transactions of the stage and keeps the
others. -/
theorem get_RemoveStaged {pool : CTxMemPool} (hp : Consistent n pool) (stage : List uint256) (upd : Bool)
    (k : uint256) : (pool.RemoveStaged n stage upd).get k = if k ∈ stage then none else pool.get k := by
  obtain ⟨hs, hlinks, -⟩ := UpdateForRemoveFromMempool_spec n hp stage upd
  obtain ⟨-, hget, -⟩ := foldl_removeUnchecked n stage _ (hp.toIndexed.of_sameEntries n hs hlinks) _ rfl
  rw [RemoveStaged, hget, hs.get]

/-- After `RemoveStaged`, an outpoint is spent only by a transaction that
spent it before and is outside the stage. -/
theorem lookup_RemoveStaged {pool : CTxMemPool} (hp : Consistent n pool) (stage : List uint256) (upd : Bool)
    {o : COutPoint} {h : uint256} (ho : (pool.RemoveStaged n stage upd).mapNextTx.lookup o = some h) :
    pool.mapNextTx.lookup o = some h ∧ h ∉ stage := by
  obtain ⟨tx, htx, hin⟩ := ((consistent_RemoveStaged n hp stage upd).nextTx o h).1 ho
  rw [get_RemoveStaged n hp] at htx
  split at htx
  · cases htx
  · rename_i hh
    exact ⟨(hp.nextTx o h).2 ⟨tx, htx, hin⟩, hh⟩

/-! ## Adding an entry -/

/-- The loop of `addUnchecked` over the inputs: each outpoint no pool
transaction spends gets the new entry as its spender. -/
theorem addNextTx_spec (hash : uint256) (vin : List CTxIn) :
    ∀ p : CTxMemPool, (∀ txin ∈ vin, p.mapNextTx.lookup txin.prevout = none ∨
        p.mapNextTx.lookup txin.prevout = some hash) →
      ∀ q, vin.foldl (fun pool txin => if (pool.mapNextTx.lookup txin.prevout).isSome then pool
        else { pool with mapNextTx := pool.mapNextTx.insert txin.prevout hash }) p = q →
      q.mapTx = p.mapTx ∧ q.mapLinks = p.mapLinks ∧ q.totalTxSize = p.totalTxSize ∧
        ∀ o, q.mapNextTx.lookup o = if o ∈ vin.map (·.prevout) then some hash else p.mapNextTx.lookup o := by
  induction vin with
  | nil =>
    intro p _ q hq
    subst hq
    exact ⟨rfl, rfl, rfl, fun o => by simp⟩
  | cons txin rest ih =>
    intro p hfree q hq
    rw [List.foldl_cons] at hq
    -- one round: the outpoint maps to the new entry afterwards, whether it did before or not
    generalize hp₁ : (if (p.mapNextTx.lookup txin.prevout).isSome then p
      else { p with mapNextTx := p.mapNextTx.insert txin.prevout hash }) = p₁ at hq
    have hstep : p₁.mapTx = p.mapTx ∧ p₁.mapLinks = p.mapLinks ∧ p₁.totalTxSize = p.totalTxSize ∧
        ∀ o, p₁.mapNextTx.lookup o = if o = txin.prevout then some hash else p.mapNextTx.lookup o := by
      subst hp₁
      split
      · rename_i hsome
        refine ⟨rfl, rfl, rfl, fun o => ?_⟩
        split
        · subst o
          rcases hfree txin List.mem_cons_self with h | h
          · simp [h] at hsome
          · exact h
        · rfl
      · refine ⟨rfl, rfl, rfl, fun o => ?_⟩
        split
        · subst o
          exact AList.lookup_insert _
        · exact AList.lookup_insert_ne (by assumption)
    obtain ⟨hTx₁, hLinks₁, hTotal₁, hNext₁⟩ := hstep
    have hfree₁ : ∀ t ∈ rest, p₁.mapNextTx.lookup t.prevout = none ∨ p₁.mapNextTx.lookup t.prevout = some hash := by
      intro t ht
      rw [hNext₁]
      split
      · exact .inr rfl
      · exact hfree t (List.mem_cons_of_mem _ ht)
    obtain ⟨hTx, hLinks, hTotal, hNext⟩ := ih p₁ hfree₁ q hq
    refine ⟨hTx.trans hTx₁, hLinks.trans hLinks₁, hTotal.trans hTotal₁, fun o => ?_⟩
    rw [hNext, hNext₁]
    by_cases ho : o = txin.prevout
    · subst ho
      simp
    · simp [ho]

/-- The loop of `addUnchecked` over the parent ids: those in the pool become
parents of the new entry. -/
theorem addParents_spec (hash : uint256) (l : List uint256) :
    ∀ p : CTxMemPool, (∀ k, (p.GetMemPoolParents k).Nodup) → (p.mapLinks.lookup hash).isSome →
      ∀ q, l.foldl (fun pool phash => if pool.exists phash = true then pool.UpdateParent hash phash true else pool)
        p = q →
      entriesOf q = entriesOf p ∧ (∀ k, (q.GetMemPoolParents k).Nodup) ∧
        (∀ k, q.GetMemPoolChildren k = p.GetMemPoolChildren k) ∧
        (∀ k, (q.mapLinks.lookup k).isSome = (p.mapLinks.lookup k).isSome) ∧
        ∀ k x, x ∈ q.GetMemPoolParents k ↔ x ∈ p.GetMemPoolParents k ∨ (k = hash ∧ x ∈ l ∧ p.exists x = true) := by
  induction l with
  | nil =>
    intro p hnd _ q hq
    subst hq
    exact ⟨rfl, hnd, fun _ => rfl, fun _ => rfl, fun k x => by simp⟩
  | cons phash rest ih =>
    intro p hnd hlinks q hq
    rw [List.foldl_cons] at hq
    generalize hp₁ : (if p.exists phash = true then p.UpdateParent hash phash true else p) = p₁ at hq
    -- one round: `phash` joins the parents of the new entry when it is in the pool
    have hstep : entriesOf p₁ = entriesOf p ∧ (∀ k, (p₁.GetMemPoolParents k).Nodup) ∧
        (∀ k, p₁.GetMemPoolChildren k = p.GetMemPoolChildren k) ∧
        (∀ k, (p₁.mapLinks.lookup k).isSome = (p.mapLinks.lookup k).isSome) ∧
        ∀ k x, x ∈ p₁.GetMemPoolParents k ↔ x ∈ p.GetMemPoolParents k ∨ (k = hash ∧ x = phash ∧ p.exists x = true) := by
      subst hp₁
      split
      · rename_i hex
        refine ⟨rfl, fun k => ?_, fun k => GetMemPoolChildren_UpdateParent _ _ _ _ _, fun k => ?_, fun k x => ?_⟩
        · rw [GetMemPoolParents_UpdateParent]
          split
          · exact (hnd hash).insert
          · exact hnd k
        · rw [UpdateParent, links_modifyLinks]
          by_cases hk : k = hash
          · subst hk
            simp [hlinks]
          · simp [hk]
        · rw [GetMemPoolParents_UpdateParent]
          by_cases hk : k = hash
          · subst hk
            by_cases hx : x = phash
            · subst hx
              simp [hex]
            · simp [hx]
          · simp [hk]
      · rename_i hex
        refine ⟨rfl, hnd, fun _ => rfl, fun _ => rfl, fun k x => ?_⟩
        constructor
        · exact .inl
        · rintro (h | ⟨-, rfl, h⟩)
          · exact h
          · exact absurd h hex
    obtain ⟨hE₁, hnd₁, hch₁, hlinks₁, hmem₁⟩ := hstep
    have hlinks₁' : (p₁.mapLinks.lookup hash).isSome := by rw [hlinks₁]; exact hlinks
    obtain ⟨hE, hnd₂, hch, hlinks₂, hmem⟩ := ih p₁ hnd₁ hlinks₁' q hq
    have hex₁ : ∀ x, p₁.exists x = p.exists x := fun x =>
      (SameEntries.of_entriesOf 0 hE₁).exists 0 x
    refine ⟨hE.trans hE₁, hnd₂, fun k => (hch k).trans (hch₁ k), fun k => (hlinks₂ k).trans (hlinks₁ k),
      fun k x => ?_⟩
    rw [hmem, hmem₁, hex₁]
    simp only [List.mem_cons]
    tauto

theorem sameBook_UpdateEntryForAncestors (p : CTxMemPool) (it : uint256) (setAncestors : List uint256) :
    SameBook n p (UpdateEntryForAncestors n p it setAncestors) :=
  sameBook_modifyEntry n (keepsBook_UpdateAncestorState n _ _ _ _) p it

theorem mem_foldl_insert {α : Type} (f : α → uint256) (l : List α) :
    ∀ (s : List uint256) x, x ∈ l.foldl (fun s a => s.insert (f a)) s ↔ x ∈ s ∨ x ∈ l.map f := by
  induction l with
  | nil => exact fun s x => by simp
  | cons a l ih =>
    intro s x
    rw [List.foldl_cons, ih, List.mem_insert_iff]
    simp only [List.map_cons, List.mem_cons]
    tauto

/-- No pool transaction spends an output of an id whose outpoints have no
spender. -/
theorem Consistent.not_spendsFrom {pool : CTxMemPool} (hp : Consistent n pool) {hash : uint256}
    (houts : ∀ o : COutPoint, o.hashMalFix = hash → pool.mapNextTx.lookup o = none) (c : uint256) :
    ¬ pool.SpendsFrom c hash := by
  rintro ⟨tx, htx, hmem⟩
  obtain ⟨txin, hin, hh⟩ := List.mem_map.1 hmem
  have h := (hp.nextTx txin.prevout c).2 ⟨tx, htx, List.mem_map_of_mem hin⟩
  rw [houts txin.prevout hh] at h
  cases h

/-- `addUnchecked` after the fee delta: the entry joins the spenders, the
child lists of its parents and its own parent list, and its size the total. -/
theorem consistent_addUnchecked_tail {pool : CTxMemPool} (hp : Consistent n pool) {hash : uint256}
    {entry : CTxMemPoolEntry} (setAncestors : List uint256) (hnew : pool.exists hash = false)
    (hins : ∀ txin ∈ entry.tx.vin, pool.mapNextTx.lookup txin.prevout = none)
    (houts : ∀ o : COutPoint, o.hashMalFix = hash → pool.mapNextTx.lookup o = none) {s₂ s₃ s₄ s₅ : CTxMemPool}
    (hs₂ : SameBook n
      { pool with mapTx := pool.mapTx.insert hash entry, mapLinks := pool.mapLinks.insert hash ⟨[], []⟩ } s₂)
    (hs₃ : entry.tx.vin.foldl (fun pool txin => if (pool.mapNextTx.lookup txin.prevout).isSome then pool
      else { pool with mapNextTx := pool.mapNextTx.insert txin.prevout hash }) s₂ = s₃)
    (hs₄ : (entry.tx.vin.foldl (fun s txin => s.insert txin.prevout.hashMalFix) []).foldl
      (fun pool phash => if pool.exists phash = true then pool.UpdateParent hash phash true else pool) s₃ = s₄)
    (hs₅ : UpdateEntryForAncestors n (UpdateAncestorsOf n s₄ true hash setAncestors) hash setAncestors = s₅) :
    Consistent n { s₅ with totalTxSize := s₅.totalTxSize + entry.GetTxSize n } := by
  -- the entry in, with empty links
  have hget₂ : ∀ k, s₂.get k = if k = hash then some entry.tx else pool.get k := by
    intro k
    rw [hs₂.get]
    by_cases hk : k = hash
    · subst hk
      simp [get]
    · simp [get, hk, AList.lookup_insert_ne hk]
  have hlinks₂ : ∀ k, s₂.mapLinks.lookup k = if k = hash then some ⟨[], []⟩ else pool.mapLinks.lookup k := by
    intro k
    rw [hs₂.mapLinks]
    by_cases hk : k = hash
    · subst hk
      simp
    · simp [hk, AList.lookup_insert_ne hk]
  have hpar₂ : ∀ k, s₂.GetMemPoolParents k = if k = hash then [] else pool.GetMemPoolParents k := by
    intro k
    simp only [GetMemPoolParents, hlinks₂]
    split <;> rfl
  have hch₂ : ∀ k, s₂.GetMemPoolChildren k = if k = hash then [] else pool.GetMemPoolChildren k := by
    intro k
    simp only [GetMemPoolChildren, hlinks₂]
    split <;> rfl
  have hsum₂ : s₂.sumSize n = entry.GetTxSize n + pool.sumSize n := by
    have hnot : hash ∉ pool.mapTx := by
      rw [← AList.lookup_isSome]
      simpa [CTxMemPool.exists] using hnew
    rw [hs₂.sumSize]
    simp only [sumSize]
    rw [sumEntries_insert, sumEntries_erase_of_notMem _ hnot]
  -- the spenders
  obtain ⟨hTx₃, hLinks₃, hTotal₃, hNext₃⟩ := addNextTx_spec hash entry.tx.vin s₂
    (fun txin hin => .inl (by rw [hs₂.mapNextTx]; exact hins txin hin)) s₃ hs₃
  have hget₃ : ∀ k, s₃.get k = s₂.get k := fun k => by simp [get, hTx₃]
  have hex₃ : ∀ x, s₃.exists x = true ↔ x = hash ∨ pool.exists x = true := by
    intro x
    rw [exists_eq_isSome_get, hget₃, hget₂, exists_eq_isSome_get]
    by_cases hx : x = hash <;> simp [hx]
  have hpar₃ : ∀ k, s₃.GetMemPoolParents k = s₂.GetMemPoolParents k := fun k => by
    simp [GetMemPoolParents, hLinks₃]
  have hch₃ : ∀ k, s₃.GetMemPoolChildren k = s₂.GetMemPoolChildren k := fun k => by
    simp [GetMemPoolChildren, hLinks₃]
  -- the parent list of the new entry
  obtain ⟨hE₄, hnd₄, hch₄, hlinks₄, hmem₄⟩ := addParents_spec hash _ s₃
    (fun k => by rw [hpar₃, hpar₂]; split; exacts [List.nodup_nil, hp.parents_nodup k])
    (by rw [hLinks₃, hlinks₂]; simp) s₄ hs₄
  have hs₃₄ := SameEntries.of_entriesOf n hE₄
  -- the child lists of its parents, and its ancestor sums
  obtain ⟨hs₄₅, hnd₅, hpar₅, hlinks₅, hmem₅⟩ := UpdateAncestorsOf_spec n s₄ true hash setAncestors
    (fun k => by rw [hch₄, hch₃, hch₂]; split; exacts [List.nodup_nil, hp.children_nodup k]) _ rfl
  have hb₅ := sameBook_UpdateEntryForAncestors n (UpdateAncestorsOf n s₄ true hash setAncestors) hash setAncestors
  rw [hs₅] at hb₅
  -- what the result holds, against the pool it started from
  have hgetq : ∀ k, s₅.get k = if k = hash then some entry.tx else pool.get k := fun k => by
    rw [hb₅.get, hs₄₅.get, hs₃₄.get, hget₃, hget₂]
  have hexq : ∀ x, s₅.exists x = true ↔ x = hash ∨ pool.exists x = true := fun x => by
    rw [hb₅.exists, hs₄₅.exists, hs₃₄.exists, hex₃]
  have hspq : ∀ c h, s₅.SpendsFrom c h ↔
      (c = hash ∧ h ∈ entry.tx.vin.map (·.prevout.hashMalFix)) ∨ (c ≠ hash ∧ pool.SpendsFrom c h) := by
    intro c h
    simp only [SpendsFrom, hgetq]
    by_cases hc : c = hash <;> simp [hc]
  have hnextq : ∀ o, s₅.mapNextTx.lookup o =
      if o ∈ entry.tx.vin.map (·.prevout) then some hash else pool.mapNextTx.lookup o := fun o => by
    rw [hb₅.mapNextTx, hs₄₅.mapNextTx, hs₃₄.mapNextTx, hNext₃, hs₂.mapNextTx]
  have hparq : ∀ k x, x ∈ s₅.GetMemPoolParents k ↔ (k ≠ hash ∧ x ∈ pool.GetMemPoolParents k) ∨
      (k = hash ∧ x ∈ entry.tx.vin.map (·.prevout.hashMalFix) ∧ (x = hash ∨ pool.exists x = true)) := by
    intro k x
    rw [hb₅.parents, hpar₅, hmem₄, hpar₃, hpar₂, mem_foldl_insert, hex₃]
    by_cases hk : k = hash <;> simp [hk]
  have hchq : ∀ k x, x ∈ s₅.GetMemPoolChildren k ↔ (k ≠ hash ∧ x ∈ pool.GetMemPoolChildren k) ∨
      (x = hash ∧ k ∈ s₅.GetMemPoolParents hash) := by
    intro k x
    rw [hb₅.children, hmem₅, hch₄, hch₃, hch₂, hb₅.parents, hpar₅]
    by_cases hk : k = hash
    · subst hk
      split <;> simp_all
    · split <;> simp_all
  have hsumq : s₅.sumSize n = entry.GetTxSize n + pool.sumSize n := by
    rw [hb₅.sumSize, hs₄₅.sumSize, hs₃₄.sumSize]
    simp only [sumSize, hTx₃] at hsum₂ ⊢
    exact hsum₂
  have htotq : s₅.totalTxSize = pool.totalTxSize := by
    rw [hb₅.totalTxSize, hs₄₅.totalTxSize, hs₃₄.totalTxSize, hTotal₃, hs₂.totalTxSize]
  have hlinksq : ∀ k, (s₅.mapLinks.lookup k).isSome =
      (decide (k ∈ s₅.GetMemPoolParents hash) || decide (k = hash) || (pool.mapLinks.lookup k).isSome) := by
    intro k
    rw [hb₅.mapLinks, hlinks₅, hlinks₄, hLinks₃, hlinks₂, ← hpar₅, ← hb₅.parents]
    by_cases hk : k = hash <;> simp [hk]
  -- the facts the preconditions give: nothing spends the new entry's outputs or its inputs
  -- the facts the preconditions give: nothing spends the new entry's outputs or its inputs
  have hnot := hp.not_spendsFrom n houts
  have hkh : ∀ k, pool.exists k = true → k ≠ hash := fun k hk h => by
    rw [h, hnew] at hk
    cases hk
  have hnone : pool.get hash = none := by simpa [exists_eq_isSome_get] using hnew
  have hnospend : ∀ p, ¬ pool.SpendsFrom hash p := by
    rintro p ⟨tx, htx, -⟩
    rw [hnone] at htx
    cases htx
  -- links: an entry, or a parent of the new one, which is in the pool
  have hlinks : ∀ k, (s₅.mapLinks.lookup k).isSome = s₅.exists k := by
    intro k
    rw [hlinksq, hp.links]
    by_cases hq : s₅.exists k = true
    · rw [hq]
      rcases (hexq k).1 hq with rfl | hk
      · simp
      · simp [hk]
    · have hk := (not_congr (hexq k)).1 hq
      rw [not_or] at hk
      have hpk : k ∉ s₅.GetMemPoolParents hash := by
        rw [hparq]
        simp [hk.1, hk.2]
      simp [hpk, hk.1, Bool.eq_false_iff.2 hk.2, Bool.eq_false_iff.2 hq]
  -- spenders: the new entry's inputs, which no one spent before, and the old ones
  have hnext : ∀ o h, s₅.mapNextTx.lookup o = some h ↔ ∃ tx, s₅.get h = some tx ∧ o ∈ tx.vin.map (·.prevout) := by
    intro o h
    rw [hnextq]
    simp only [hgetq]
    by_cases ho : o ∈ entry.tx.vin.map (·.prevout)
    · rw [if_pos ho]
      constructor
      · rintro ⟨⟩
        exact ⟨entry.tx, by simp, ho⟩
      · rintro ⟨tx, htx, hotx⟩
        by_contra hh
        rw [if_neg (fun h' => hh (congrArg some h'.symm))] at htx
        obtain ⟨txin, hin, rfl⟩ := List.mem_map.1 ho
        have := (hp.nextTx txin.prevout h).2 ⟨tx, htx, hotx⟩
        rw [hins txin hin] at this
        cases this
    · rw [if_neg ho, hp.nextTx]
      by_cases hh : h = hash
      · subst hh
        simpa [hnone] using ho
      · simp [hh]
  have hparents : ∀ k, s₅.exists k = true → ∀ x,
      x ∈ s₅.GetMemPoolParents k ↔ s₅.exists x = true ∧ s₅.SpendsFrom k x := by
    intro k hk x
    rw [hparq, hexq, hspq]
    rcases (hexq k).1 hk with rfl | hk'
    · simp [and_comm]
    · rw [hp.parents k hk' x]
      by_cases hx : x = hash
      · subst hx
        simp [hkh k hk', hnot k, hnew]
      · simp [hkh k hk', hx]
  have hchildren : ∀ k, s₅.exists k = true → ∀ c, c ∈ s₅.GetMemPoolChildren k ↔ s₅.SpendsFrom c k := by
    intro k hk c
    rw [hchq, hspq]
    rcases (hexq k).1 hk with rfl | hk'
    · -- the new entry: its children are none, as nothing in the pool spends it
      rw [hparq]
      by_cases hc : c = k
      · subst hc
        simp
      · simp [hc, hnot c]
    · rw [hp.children k hk' c, hparq]
      by_cases hc : c = hash
      · subst hc
        simp [hk', hnospend k]
      · simp [hkh k hk', hc]
  have hnd₆ : ∀ k, (s₅.GetMemPoolParents k).Nodup := fun k => by
    rw [hb₅.parents, hpar₅]
    exact hnd₄ k
  have htotal : s₅.totalTxSize + entry.GetTxSize n = s₅.sumSize n := by
    rw [htotq, hsumq, hp.totalTxSize]
    ring
  have hnd₇ : ∀ k, (s₅.GetMemPoolChildren k).Nodup := fun k => by
    rw [hb₅.children]
    exact hnd₅ k
  -- the added size only moves the total, which the links and the lists do not read
  exact ⟨⟨hlinks, hnext, htotal⟩, hparents, hchildren, hnd₆, hnd₇⟩

/-- `addUnchecked` keeps the pool consistent when the entry is new, no input
of it is spent in the pool yet, and nothing in the pool spends an output of
it. With any ancestor set: the sums it updates are not part of the check. -/
theorem consistent_addUnchecked {pool : CTxMemPool} (hp : Consistent n pool) {hash : uint256}
    {entry : CTxMemPoolEntry} (setAncestors : List uint256) (hnew : pool.exists hash = false)
    (hins : ∀ txin ∈ entry.tx.vin, pool.mapNextTx.lookup txin.prevout = none)
    (houts : ∀ o : COutPoint, o.hashMalFix = hash → pool.mapNextTx.lookup o = none) :
    Consistent n (pool.addUnchecked n hash entry setAncestors) := by
  unfold addUnchecked
  dsimp only
  -- a fee delta set on the hash before it came in moves only the entry's fee
  split
  · split
    · exact consistent_addUnchecked_tail n hp setAncestors hnew hins houts
        (sameBook_modifyEntry n (keepsBook_UpdateFeeDelta n _) _ _) rfl rfl rfl
    · exact consistent_addUnchecked_tail n hp setAncestors hnew hins houts (SameBook.refl n _) rfl rfl rfl
  · exact consistent_addUnchecked_tail n hp setAncestors hnew hins houts (SameBook.refl n _) rfl rfl rfl

/-- A replacement: the pool without the stage, plus an entry none of whose
inputs a pool transaction outside the stage spends. -/
theorem consistent_addUnchecked_RemoveStaged {pool : CTxMemPool} (hp : Consistent n pool) (stage : List uint256)
    {hash : uint256} {entry : CTxMemPoolEntry} (setAncestors : List uint256) (hnew : pool.exists hash = false)
    (hins : ∀ txin ∈ entry.tx.vin, ∀ h, pool.mapNextTx.lookup txin.prevout = some h → h ∈ stage)
    (houts : ∀ o : COutPoint, o.hashMalFix = hash → pool.mapNextTx.lookup o = none) :
    Consistent n ((pool.RemoveStaged n stage false).addUnchecked n hash entry setAncestors) := by
  refine consistent_addUnchecked n (consistent_RemoveStaged n hp stage false) setAncestors ?_ (fun txin hin => ?_)
    (fun o ho => ?_)
  · rw [exists_eq_isSome_get] at hnew ⊢
    rw [get_RemoveStaged n hp]
    split
    · rfl
    · exact hnew
  · -- what spent an input before is in the stage, and gone
    cases hlook : (pool.RemoveStaged n stage false).mapNextTx.lookup txin.prevout with
    | none => rfl
    | some h =>
      obtain ⟨hold, hh⟩ := lookup_RemoveStaged n hp stage false hlook
      exact absurd (hins txin hin h hold) hh
  · cases hlook : (pool.RemoveStaged n stage false).mapNextTx.lookup o with
    | none => rfl
    | some h =>
      have hold := (lookup_RemoveStaged n hp stage false hlook).1
      rw [houts o ho] at hold
      cases hold

/-! ## The other operations

Everything else the node does to its pool is built from `RemoveStaged`, or
changes only what the check does not read: the fee deltas, the fee sums of
the entries, the rolling minimum fee. -/

/-- A pool that agrees on the entries, links, spenders and total has the
same book. -/
theorem sameBook_of_fields {p q : CTxMemPool} (hTx : q.mapTx = p.mapTx) (hLinks : q.mapLinks = p.mapLinks)
    (hNext : q.mapNextTx = p.mapNextTx) (hTotal : q.totalTxSize = p.totalTxSize) : SameBook n p q :=
  ⟨⟨fun k => by simp [get, hTx], hNext, hTotal, by simp [sumSize, hTx]⟩, hLinks⟩

/-- A loop each of whose rounds keeps the pool consistent. -/
theorem consistent_foldl {β : Type} (step : CTxMemPool → β → CTxMemPool)
    (hstep : ∀ p b, Consistent n p → Consistent n (step p b)) (l : List β) :
    ∀ pool, Consistent n pool → Consistent n (l.foldl step pool) := by
  induction l with
  | nil => exact fun _ hp => hp
  | cons b l ih => exact fun pool hp => ih _ (hstep pool b hp)

theorem sameBook_ClearPrioritisation (pool : CTxMemPool) (hash : uint256) :
    SameBook n pool (pool.ClearPrioritisation hash) :=
  sameBook_of_fields n rfl rfl rfl rfl

/-- `PrioritiseTransaction` moves fees only. -/
theorem sameBook_PrioritiseTransaction (pool : CTxMemPool) (hash : uint256) (nFeeDelta : Int) :
    SameBook n pool (pool.PrioritiseTransaction n hash nFeeDelta) := by
  unfold PrioritiseTransaction
  dsimp only
  have hdeltas : SameBook n pool
      { pool with mapDeltas := pool.mapDeltas.insert hash ((pool.mapDeltas.lookup hash).getD 0 + nFeeDelta) } :=
    sameBook_of_fields n rfl rfl rfl rfl
  split
  · -- the entry, its ancestors' descendant fees and its descendants' ancestor fees
    refine SameBook.trans n ?_ (sameBook_modifyEntries n (keepsBook_UpdateAncestorState n _ _ _ _) _ _)
    refine SameBook.trans n ?_ (sameBook_modifyEntries n (keepsBook_UpdateDescendantState n _ _ _) _ _)
    exact hdeltas.trans n (sameBook_modifyEntry n (keepsBook_UpdateFeeDelta n _) _ _)
  · exact hdeltas

theorem sameBook_trackPackageRemoved (pool : CTxMemPool) (rate : Int) :
    SameBook n pool (pool.trackPackageRemoved rate) := by
  unfold trackPackageRemoved
  split
  · exact sameBook_of_fields n rfl rfl rfl rfl
  · exact SameBook.refl n pool

section Removals

variable (C : Crypto) {pool : CTxMemPool} (hp : Consistent n pool)
include hp

theorem consistent_removeRecursive (origTx : CTransaction) : Consistent n (pool.removeRecursive n C origTx) :=
  consistent_RemoveStaged n hp _ false

theorem consistent_removeConflicts (tx : CTransaction) : Consistent n (pool.removeConflicts n C tx) := by
  unfold removeConflicts
  refine consistent_foldl n _ (fun p txin hp' => ?_) tx.vin pool hp
  -- a conflicting transaction leaves with its descendants and its fee delta
  split
  · split
    · exact consistent_removeRecursive n C (hp'.of_sameBook n (sameBook_ClearPrioritisation n p _)) _
    · exact hp'
  · exact hp'

theorem consistent_removeForBlock (vtx : List CTransaction) (nTime : Int) :
    Consistent n (pool.removeForBlock n C vtx nTime) := by
  unfold removeForBlock
  dsimp only
  refine Consistent.of_sameBook n (consistent_foldl n _ (fun p tx hp' => ?_) vtx pool hp)
    (sameBook_of_fields n rfl rfl rfl rfl)
  refine Consistent.of_sameBook n (consistent_removeConflicts n C ?_ tx) (sameBook_ClearPrioritisation n _ _)
  split
  · exact consistent_RemoveStaged n hp' _ true
  · exact hp'

theorem consistent_Expire (time : Int) : Consistent n (pool.Expire n time) :=
  consistent_RemoveStaged n hp _ false

end Removals

/-- Each round of the trim loop evicts a package with `RemoveStaged`, after
moving the rolling fee only. -/
theorem consistent_trimLoop (incrementalRelayFee : Int) (DynamicMemoryUsage : CTxMemPool → Nat) (sizelimit : Nat) :
    ∀ fuel pool, Consistent n pool →
      Consistent n (trimLoop n incrementalRelayFee DynamicMemoryUsage sizelimit fuel pool) := by
  intro fuel
  induction fuel with
  | zero => exact fun _ hp => hp
  | succ fuel ih =>
    intro pool hp
    rw [trimLoop]
    split
    · exact hp
    · split
      · exact hp
      · exact ih _ (consistent_RemoveStaged n (hp.of_sameBook n (sameBook_trackPackageRemoved n _ _)) _ false)

theorem consistent_TrimToSize {pool : CTxMemPool} (hp : Consistent n pool) (incrementalRelayFee : Int)
    (DynamicMemoryUsage : CTxMemPool → Nat) (sizelimit : Nat) :
    Consistent n (pool.TrimToSize n incrementalRelayFee DynamicMemoryUsage sizelimit) :=
  consistent_trimLoop n _ _ _ _ pool hp

end CTxMemPool

end Tapyrus
