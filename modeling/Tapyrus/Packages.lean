import Tapyrus.TxMemPool
import Tapyrus.CompactBlock
/-!
# Package checks

`CheckPackage` (`policy/packages.cpp`): the context-free checks run on a
package of transactions before any of them is tried against the pool. They
check the count, the total size, that parents come before children, that no
two transactions spend one outpoint, and that no id appears twice.

Two of its counters are narrower than the package:
- `package_count` is an `unsigned int`.
- `std::accumulate` starts from the `int` 0, so its running total is an
  `int`, and each partial sum is cut to 32 bits (`toInt32`, as the
  compiler's conversion does).

A package reaches `CheckPackage` only from the package RPCs, as hex
strings in a request body of at most `MAX_SIZE` bytes
(`evhttp_set_max_body_size`), so its total size is below `MAX_SIZE`, far
below 2^31, and both counters are exact (`CheckPackage_iff_wellFormed`).

The unordered sets of ids and of outpoints are lists, read only through
membership. Their `erase` removes every copy, since a set holds only one.
-/

namespace Tapyrus

open Lib

/-- `MAX_PACKAGE_COUNT`. -/
def MAX_PACKAGE_COUNT : Nat := 25

/-- A wider value stored in an `int`: its residue modulo 2^32, in
`[-2^31, 2^31)`. -/
def toInt32 (x : Int) : Int := x.bmod (2 ^ 32)

section Package

variable (C : Crypto) (nBytesPerSigOp : Nat)

/-- `std::accumulate(txns, 0, sum + GetTransactionSize(*tx))`, with the
accumulator of the initial value's type, `int`. -/
def packageTotalSize (txns : List CTransaction) : Int :=
  txns.foldl (fun sum tx => toInt32 (sum + GetTransactionSize nBytesPerSigOp tx.GetSerializeSize 0)) 0

/-- The sort loop. `later_txids` holds the ids of the transactions not yet
passed; no input may spend one of them. -/
def checkSorted (later_txids : List uint256) : List CTransaction → Bool
  | [] => true
  | tx :: rest =>
    if tx.vin.any (·.prevout.hashMalFix ∈ later_txids) then false
    else checkSorted (later_txids.filter (· != tx.GetHashMalFix C)) rest

/-- The conflict loop. No input may be in `inputs_seen`, the inputs of the
earlier transactions; a transaction's own inputs enter it together. -/
def checkConflicts (inputs_seen : List COutPoint) : List CTransaction → Bool
  | [] => true
  | tx :: rest =>
    if tx.vin.any (·.prevout ∈ inputs_seen) then false
    else checkConflicts (tx.vin.map (·.prevout) ++ inputs_seen) rest

/-- `CheckPackage(txns, state)`. -/
def CheckPackage (txns : List CTransaction) : Valid Unit :=
  let package_count := txns.length % 2 ^ 32
  if package_count > MAX_PACKAGE_COUNT then reject "package-too-many-transactions" else
  let total_size := packageTotalSize nBytesPerSigOp txns
  if package_count > 1 && total_size > MAX_PACKAGE_COUNT * 1000 then reject "package-too-large" else
  if !checkSorted C (txns.map (·.GetHashMalFix C)) txns then reject "package-not-sorted" else
  if !checkConflicts [] txns then reject "conflict-in-package" else
  if (txns.map (·.GetHashMalFix C)).dedup.length ≠ txns.length then reject "package-contains-duplicates" else
  .ok ()

end Package

section Spec

variable (C : Crypto)

/-- `a` has an input spending an output of `b`. -/
def Spends (a b : CTransaction) : Prop := ∃ txin ∈ a.vin, txin.prevout.hashMalFix = b.GetHashMalFix C

/-- `a` and `b` have inputs spending one outpoint. -/
def Conflicts (a b : CTransaction) : Prop := ∃ x ∈ a.vin, ∃ y ∈ b.vin, x.prevout = y.prevout

theorem any_spends_eq_false (tx : CTransaction) (L : List CTransaction) :
    tx.vin.any (·.prevout.hashMalFix ∈ L.map (·.GetHashMalFix C)) = false ↔ ∀ b ∈ L, ¬ Spends C tx b := by
  simp only [List.any_eq_false, decide_eq_true_eq, List.mem_map, Spends, not_exists, not_and]
  constructor
  · intro h b hb txin htxin heq
    exact h txin htxin b hb heq.symm
  · intro h txin htxin b hb heq
    exact h b hb txin htxin heq.symm

/-- With distinct ids, the sort loop passes exactly when no transaction
spends itself or one after it. -/
theorem checkSorted_iff : ∀ P : List CTransaction, (P.map (·.GetHashMalFix C)).Nodup →
    (checkSorted C (P.map (·.GetHashMalFix C)) P = true ↔
      (∀ tx ∈ P, ¬ Spends C tx tx) ∧ P.Pairwise (fun a b => ¬ Spends C a b))
  | [], _ => by simp [checkSorted]
  | tx :: rest, hnd => by
    rw [List.map_cons, List.nodup_cons] at hnd
    -- passing `tx` takes its id out of the set, and no other transaction has it
    have hfilter : (tx.GetHashMalFix C :: rest.map (·.GetHashMalFix C)).filter (· != tx.GetHashMalFix C) =
        rest.map (·.GetHashMalFix C) := by
      rw [List.filter_cons_of_neg (by simp), List.filter_eq_self]
      intro h hh
      simpa using fun heq : h = tx.GetHashMalFix C => hnd.1 (heq ▸ hh)
    have hhead := any_spends_eq_false C tx (tx :: rest)
    rw [List.map_cons] at hhead
    rw [checkSorted, List.map_cons, hfilter, List.pairwise_cons, List.forall_mem_cons]
    cases hany : tx.vin.any (·.prevout.hashMalFix ∈ tx.GetHashMalFix C :: rest.map (·.GetHashMalFix C)) with
    | true =>
      have hspends : ¬ ∀ b ∈ tx :: rest, ¬ Spends C tx b := fun h => by
        rw [hhead.2 h] at hany
        exact Bool.false_ne_true hany
      simp only [if_true, Bool.false_eq_true, false_iff]
      rintro ⟨⟨hself, -⟩, hlater, -⟩
      exact hspends (List.forall_mem_cons.2 ⟨hself, hlater⟩)
    | false =>
      obtain ⟨hself, hlater⟩ := List.forall_mem_cons.1 (hhead.1 hany)
      rw [if_neg Bool.false_ne_true, checkSorted_iff rest hnd.2]
      exact ⟨fun ⟨h1, h2⟩ => ⟨⟨hself, h1⟩, hlater, h2⟩, fun ⟨⟨_, h1⟩, _, h2⟩ => ⟨h1, h2⟩⟩

/-- The conflict loop passes exactly when no input is in `inputs_seen` and
no two transactions spend one outpoint. -/
theorem checkConflicts_iff : ∀ (P : List CTransaction) (inputs_seen : List COutPoint),
    checkConflicts inputs_seen P = true ↔
      (∀ tx ∈ P, ∀ txin ∈ tx.vin, txin.prevout ∉ inputs_seen) ∧ P.Pairwise (fun a b => ¬ Conflicts a b)
  | [], _ => by simp [checkConflicts]
  | tx :: rest, inputs_seen => by
    rw [checkConflicts, List.pairwise_cons, List.forall_mem_cons]
    cases hany : tx.vin.any (·.prevout ∈ inputs_seen) with
    | true =>
      simp only [if_true, Bool.false_eq_true, false_iff]
      rintro ⟨⟨hfresh, -⟩, -⟩
      obtain ⟨txin, htxin, hmem⟩ := List.any_eq_true.1 hany
      exact hfresh txin htxin (of_decide_eq_true hmem)
    | false =>
      have hfresh : ∀ txin ∈ tx.vin, txin.prevout ∉ inputs_seen := by
        simpa using hany
      rw [if_neg Bool.false_ne_true, checkConflicts_iff rest]
      -- an input of a later transaction is new and not one of `tx`'s
      simp only [List.mem_append, List.mem_map, not_or, Conflicts, not_exists, not_and]
      constructor
      · rintro ⟨hlater, hpair⟩
        exact ⟨⟨hfresh, fun b hb y hy => (hlater b hb y hy).2⟩,
          fun b hb x hx y hy heq => (hlater b hb y hy).1 x hx heq, hpair⟩
      · rintro ⟨⟨-, hrest⟩, hnot, hpair⟩
        exact ⟨fun b hb y hy => ⟨fun x hx heq => hnot b hb x hx y hy heq, hrest b hb y hy⟩, hpair⟩

end Spec

/-! ## The sums -/

theorem GetTransactionSize_zero (nBytesPerSigOp nSize : Nat) : GetTransactionSize nBytesPerSigOp nSize 0 = nSize := by
  simp [GetTransactionSize]

/-- Every transaction is at least its four version bytes. -/
theorem GetSerializeSize_pos (tx : CTransaction) : 0 < tx.GetSerializeSize := by
  simp [CTransaction.GetSerializeSize, CTransaction.serialize, ser_writeint, toLE_length]

/-- One input, spending output 0 of the transaction whose id is 32 bytes
`b`, with a signature script of `L` zero bytes; one output. -/
def paddedTx (b : UInt8) (L : Nat) : CTransaction :=
  ⟨[⟨⟨⟨List.replicate 32 b, by simp⟩, 0⟩, List.replicate L 0, 0xffffffff, []⟩], [⟨0, [OP_1]⟩], 1, 0⟩

/-- The package's total size, `GetTransactionSize` summed over its
transactions: what `packages.h` bounds by `MAX_PACKAGE_COUNT * 1000`. -/
abbrev packageSize (nBytesPerSigOp : Nat) (txns : List CTransaction) : Nat :=
  (txns.map fun tx => GetTransactionSize nBytesPerSigOp tx.GetSerializeSize 0).sum

/-- While the partial sums stay below 2^31 the `int` accumulator holds
them exactly. -/
theorem foldl_toInt32_eq (nBytesPerSigOp : Nat) : ∀ (txns : List CTransaction) (acc : Int), 0 ≤ acc →
    acc + packageSize nBytesPerSigOp txns < 2 ^ 31 →
    txns.foldl (fun sum tx => toInt32 (sum + GetTransactionSize nBytesPerSigOp tx.GetSerializeSize 0)) acc =
      acc + packageSize nBytesPerSigOp txns
  | [], acc, _, _ => by simp
  | tx :: rest, acc, hacc, hsum => by
    simp only [packageSize, List.map_cons, List.sum_cons, Nat.cast_add] at hsum ⊢
    have hstep : toInt32 (acc + GetTransactionSize nBytesPerSigOp tx.GetSerializeSize 0) =
        acc + GetTransactionSize nBytesPerSigOp tx.GetSerializeSize 0 :=
      Int.bmod_eq_of_le (by norm_num; omega) (by norm_num; omega)
    rw [List.foldl_cons, hstep, foldl_toInt32_eq nBytesPerSigOp rest _ (by omega) (by simp only [packageSize]; omega)]
    simp only [packageSize]
    ring

theorem packageTotalSize_eq (nBytesPerSigOp : Nat) (txns : List CTransaction)
    (h : packageSize nBytesPerSigOp txns < 2 ^ 31) :
    packageTotalSize nBytesPerSigOp txns = packageSize nBytesPerSigOp txns := by
  rw [packageTotalSize, foldl_toInt32_eq nBytesPerSigOp txns 0 le_rfl (by omega), zero_add]

/-- A package is no longer than its size in bytes. -/
theorem length_le_packageSize (nBytesPerSigOp : Nat) (txns : List CTransaction) :
    txns.length ≤ packageSize nBytesPerSigOp txns := by
  have h := List.length_le_sum_of_one_le (txns.map fun tx => GetTransactionSize nBytesPerSigOp tx.GetSerializeSize 0)
    (by
      intro i hi
      obtain ⟨tx, -, rfl⟩ := List.mem_map.1 hi
      rw [GetTransactionSize_zero]
      exact GetSerializeSize_pos tx)
  simpa using h

theorem dedup_length_eq_iff {α : Type} [DecidableEq α] (l : List α) : l.dedup.length = l.length ↔ l.Nodup :=
  ⟨fun h => List.dedup_eq_self.1 ((List.dedup_sublist l).eq_of_length h), fun h => by rw [List.dedup_eq_self.2 h]⟩

section Check

variable (C : Crypto) (nBytesPerSigOp : Nat)

/-- What `CheckPackage` passes, read off its branches. -/
theorem CheckPackage_eq_ok_iff (txns : List CTransaction) :
    CheckPackage C nBytesPerSigOp txns = .ok () ↔
      txns.length % 2 ^ 32 ≤ MAX_PACKAGE_COUNT ∧
      (txns.length % 2 ^ 32 ≤ 1 ∨ packageTotalSize nBytesPerSigOp txns ≤ MAX_PACKAGE_COUNT * 1000) ∧
      checkSorted C (txns.map (·.GetHashMalFix C)) txns = true ∧ checkConflicts [] txns = true ∧
      (txns.map (·.GetHashMalFix C)).Nodup := by
  have hdedup := dedup_length_eq_iff (txns.map (·.GetHashMalFix C))
  rw [List.length_map] at hdedup
  unfold CheckPackage
  dsimp only
  split_ifs with hcount hsize hsorted hconflicts hdup
  · simp only [reject, reduceCtorEq, false_iff, not_and]
    intro hle
    exact absurd hle (Nat.not_le.2 hcount)
  · simp only [Bool.and_eq_true, decide_eq_true_eq] at hsize
    simp only [reject, reduceCtorEq, false_iff, not_and]
    intro _ hor
    omega
  · simp only [Bool.not_eq_true'] at hsorted
    simp [reject, hsorted]
  · simp only [Bool.not_eq_true'] at hconflicts
    simp [reject, hconflicts]
  · simp [reject, ← hdedup, hdup]
  · simp only [Bool.and_eq_true, decide_eq_true_eq, not_and] at hsize
    simp only [Bool.not_eq_true, Bool.not_eq_false'] at hsorted hconflicts
    refine iff_of_true rfl ⟨Nat.not_lt.1 hcount, ?_, hsorted, hconflicts, hdedup.1 (not_not.1 hdup)⟩
    by_cases h1 : txns.length % 2 ^ 32 > 1
    · exact Or.inr (Int.not_lt.1 (hsize h1))
    · exact Or.inl (Nat.not_lt.1 h1)

/-- Over packages of fewer than 2^31 bytes, `CheckPackage` accepts exactly
the packages of at most `MAX_PACKAGE_COUNT` transactions, of at most
`MAX_PACKAGE_COUNT * 1000` bytes unless only one, in which no transaction
spends itself or one after it, no two spend one outpoint, and no id appears
twice. -/
theorem CheckPackage_iff_wellFormed_of_lt (P : List CTransaction) (hsize : packageSize nBytesPerSigOp P < 2 ^ 31) :
    CheckPackage C nBytesPerSigOp P = .ok () ↔
      P.length ≤ MAX_PACKAGE_COUNT ∧ (P.length ≤ 1 ∨ packageSize nBytesPerSigOp P ≤ MAX_PACKAGE_COUNT * 1000) ∧
      (∀ tx ∈ P, ¬ Spends C tx tx) ∧ P.Pairwise (fun a b => ¬ Spends C a b) ∧
      P.Pairwise (fun a b => ¬ Conflicts a b) ∧ (P.map (·.GetHashMalFix C)).Nodup := by
  have hcount : P.length % 2 ^ 32 = P.length :=
    Nat.mod_eq_of_lt (by have := length_le_packageSize nBytesPerSigOp P; omega)
  have htotal : packageTotalSize nBytesPerSigOp P ≤ MAX_PACKAGE_COUNT * 1000 ↔
      packageSize nBytesPerSigOp P ≤ MAX_PACKAGE_COUNT * 1000 := by
    rw [packageTotalSize_eq nBytesPerSigOp P hsize]
    norm_cast
  have hconflicts := checkConflicts_iff P []
  simp only [List.not_mem_nil, not_false_eq_true, implies_true, true_and] at hconflicts
  rw [CheckPackage_eq_ok_iff, hcount, htotal, hconflicts]
  by_cases hnd : (P.map (·.GetHashMalFix C)).Nodup
  · rw [checkSorted_iff C P hnd]
    tauto
  · simp [hnd]

theorem CheckPackage_iff_wellFormed (P : List CTransaction) (hsize : packageSize nBytesPerSigOp P ≤ MAX_SIZE) :
    CheckPackage C nBytesPerSigOp P = .ok () ↔
      P.length ≤ MAX_PACKAGE_COUNT ∧ (P.length ≤ 1 ∨ packageSize nBytesPerSigOp P ≤ MAX_PACKAGE_COUNT * 1000) ∧
      (∀ tx ∈ P, ¬ Spends C tx tx) ∧ P.Pairwise (fun a b => ¬ Spends C a b) ∧
      P.Pairwise (fun a b => ¬ Conflicts a b) ∧ (P.map (·.GetHashMalFix C)).Nodup :=
  CheckPackage_iff_wellFormed_of_lt C nBytesPerSigOp P (lt_of_le_of_lt hsize (by decide))

end Check

/-- A parent and the child spending its output. -/
def packageParent : CTransaction := paddedTx 0xaa 0

def packageChild : CTransaction :=
  ⟨[⟨⟨packageParent.GetHashMalFix truncCrypto, 0⟩, [], 0xffffffff, []⟩], [⟨0, [OP_1]⟩], 1, 0⟩

theorem CheckPackage_iff_wellFormed_parentChild :
    packageSize 20 [packageParent, packageChild] ≤ MAX_SIZE ∧
      (CheckPackage truncCrypto 20 [packageParent, packageChild] = .ok () ↔
        [packageParent, packageChild].length ≤ MAX_PACKAGE_COUNT ∧
        ([packageParent, packageChild].length ≤ 1 ∨
          packageSize 20 [packageParent, packageChild] ≤ MAX_PACKAGE_COUNT * 1000) ∧
        (∀ tx ∈ [packageParent, packageChild], ¬ Spends truncCrypto tx tx) ∧
        [packageParent, packageChild].Pairwise (fun a b => ¬ Spends truncCrypto a b) ∧
        [packageParent, packageChild].Pairwise (fun a b => ¬ Conflicts a b) ∧
        ([packageParent, packageChild].map (·.GetHashMalFix truncCrypto)).Nodup) :=
  have hsize : packageSize 20 [packageParent, packageChild] ≤ MAX_SIZE := by decide +kernel
  ⟨hsize, CheckPackage_iff_wellFormed truncCrypto 20 _ hsize⟩

example : CheckPackage truncCrypto 20 [packageParent, packageChild] = .ok () := by decide +kernel

example : CheckPackage truncCrypto 20 [packageChild, packageParent] = reject "package-not-sorted" := by
  decide +kernel

end Tapyrus
