import Mathlib.Data.List.AList
import Mathlib.Algebra.BigOperators.Group.List.Basic
/-!
# Sums over association lists

A finite map whose values carry an amount (a ledger, a UTXO set) is summed
entry by entry: `sumEntries f s` adds `f a b` over the entries `⟨a, b⟩` of
`s`. Keys are distinct in an `AList`, so erasing a present key takes out
exactly its entry's term, and inserting replaces the key's old term by the
new one. The accounting of any step that erases and inserts keys follows
from these two rules.
-/

namespace Tapyrus.Lib

section SumEntries

variable {α : Type} {β : α → Type} {M : Type} [AddCommMonoid M]

/-- The sum of `f` over the entries of `s`. -/
def sumEntries (f : (a : α) → β a → M) (s : AList β) : M :=
  (s.entries.map fun e => f e.1 e.2).sum

variable (f : (a : α) → β a → M)

@[simp] theorem sumEntries_empty [DecidableEq α] : sumEntries f (∅ : AList β) = 0 := rfl

variable [DecidableEq α]

/-- Erasing a key that holds `b` takes out exactly the term `f a b`. -/
theorem sumEntries_erase_add {s : AList β} {a : α} {b : β a} (h : s.lookup a = some b) :
    sumEntries f (s.erase a) + f a b = sumEntries f s := by
  have hmem : a ∈ s.entries.keys := AList.mem_keys.1 (AList.lookup_isSome.1 (by simp [h]))
  obtain ⟨b', l₁, l₂, hl₁, hs, hk⟩ := List.exists_of_kerase hmem
  -- the entry the split exposes is the one `lookup` found
  have hb : b' = b := by
    have hlook : s.entries.dlookup a = some b := h
    rw [hs, List.dlookup_append, List.dlookup_eq_none.2 hl₁, Option.none_or,
      List.dlookup_cons_eq] at hlook
    exact Option.some.inj hlook
  subst hb
  have herase : (s.erase a).entries = l₁ ++ l₂ := hk
  simp only [sumEntries, herase, hs, List.map_append, List.map_cons, List.sum_append, List.sum_cons]
  rw [add_assoc, add_comm (List.sum _) (f a b'), ← add_assoc]

/-- Erasing an absent key changes nothing. -/
theorem sumEntries_erase_of_notMem {s : AList β} {a : α} (h : a ∉ s) :
    sumEntries f (s.erase a) = sumEntries f s := by
  have hk : (s.erase a).entries = s.entries := List.kerase_of_notMem_keys h
  simp only [sumEntries, hk]

/-- Inserting puts the new term in place of whatever the key held. -/
theorem sumEntries_insert (s : AList β) (a : α) (b : β a) :
    sumEntries f (s.insert a b) = f a b + sumEntries f (s.erase a) := by
  have hk : (s.insert a b).entries = ⟨a, b⟩ :: (s.erase a).entries := AList.entries_insert
  simp only [sumEntries, hk, List.map_cons, List.sum_cons]

end SumEntries

end Tapyrus.Lib
