import Tapyrus.Coins
import Tapyrus.XFieldHistory
import Tapyrus.Script.Verify
import Tapyrus.Lib.Avoids
/-!
# Transaction checks

`consensus/tx_verify.cpp`: the context-free `CheckTransaction`, the checks
against the coins view (`CheckTxInputs`), lock times (`IsFinalTx`,
`SequenceLocks`) and the signature operation counts.

`CheckTxInputs` adds up only the inputs whose coin carries the TPC color
(`cid.type == TokenTypes::NONE`) and compares them with the TPC outputs
(`GetValueOut(ColorIdentifier())`); the fee it returns is their difference.
`CheckTxInputs_eq_ok` states that reading of a successful call, over the
coins `AccessCoin` returns.
-/

namespace Tapyrus

open Lib CCoinsViewCache

/-- An output carries the TPC color. -/
def IsTPC (out : CTxOut) : Prop := (GetColorIdFromScript out.scriptPubKey).type = .NONE

instance : DecidablePred IsTPC := fun _ => inferInstanceAs (Decidable (_ = _))

/-! ## `CheckTransaction` -/

/-- The output loop of `CheckTransaction`: each value non-negative and at
most `MAX_MONEY`, the running total in range. -/
def checkOutputValues : Int → List CTxOut → Valid Unit
  | _, [] => .ok ()
  | nValueOut, txout :: rest =>
    if txout.nValue < 0 then reject "bad-txns-vout-negative"
    else if txout.nValue > MAX_MONEY then reject "bad-txns-vout-toolarge"
    else if !MoneyRange (nValueOut + txout.nValue) then reject "bad-txns-txouttotal-toolarge"
    else checkOutputValues (nValueOut + txout.nValue) rest

/-- The duplicate loop: `vInOutPoints.insert(txin.prevout).second` for each
input in turn. -/
def checkDuplicateInputs : List COutPoint → List CTxIn → Valid Unit
  | _, [] => .ok ()
  | seen, txin :: rest =>
    if txin.prevout ∈ seen then reject "bad-txns-inputs-duplicate"
    else checkDuplicateInputs (txin.prevout :: seen) rest

/-- `CheckTransaction(tx, state, fCheckDuplicateInputs)`; the size limit is
`GetCurrentMaxBlockSize()`, the latest size in the history. -/
def CheckTransaction (history : CXFieldHistoryMap) (tx : CTransaction) (fCheckDuplicateInputs : Bool) :
    Valid Unit :=
  if tx.vin.isEmpty then reject "bad-txns-vin-empty" else
  if tx.vout.isEmpty then reject "bad-txns-vout-empty" else
  match GetCurrentMaxBlockSize history with
  | none => .error .abort
  | some nMaxBlockSize =>
  if tx.GetSerializeSize > nMaxBlockSize.toNat then reject "bad-txns-oversize" else do
  checkOutputValues 0 tx.vout
  if fCheckDuplicateInputs then checkDuplicateInputs [] tx.vin
  if tx.IsCoinBase then
    match tx.vin with
    | txin :: _ => if txin.prevout.n = 0xffffffff || txin.scriptSig.length > 100 then reject "bad-cb-length" else pure ()
    | [] => pure ()
  else if tx.vin.any (·.prevout.IsNull) then reject "bad-txns-prevout-null" else pure ()

/-! ## `CheckTxInputs` -/

/-- The input loop of `CheckTxInputs`: coinbase maturity, and the running
sum of TPC input values in range. -/
def checkInputValues (inputs : CCoinsViewCache) (nSpendHeight : Int) : Int → List CTxIn → Valid Int
  | nValueIn, [] => .ok nValueIn
  | nValueIn, txin :: rest =>
    let coin := inputs.AccessCoin txin.prevout
    -- assert(!coin.IsSpent())
    if coin.IsSpent then .error .abort
    else if coin.fCoinBase && nSpendHeight ≤ coin.nHeight then reject "bad-txns-premature-spend-of-coinbase"
    else
      let nValueIn := if IsTPC coin.out then nValueIn + coin.out.nValue else nValueIn
      if !MoneyRange coin.out.nValue || !MoneyRange nValueIn then reject "bad-txns-inputvalues-outofrange"
      else checkInputValues inputs nSpendHeight nValueIn rest

/-- `Consensus::CheckTxInputs`: the transaction fee. -/
def CheckTxInputs (tx : CTransaction) (inputs : CCoinsViewCache) (nSpendHeight : Int) : Valid Int :=
  if !inputs.HaveInputs tx then reject "bad-txns-inputs-missingorspent" else do
  let nValueIn ← checkInputValues inputs nSpendHeight 0 tx.vin
  let value_out ← tx.GetValueOut ColorIdentifier.none
  if nValueIn < value_out then reject "bad-txns-in-belowout" else
  let txfee_aux := nValueIn - value_out
  if !MoneyRange txfee_aux then reject "bad-txns-fee-outofrange" else
  pure txfee_aux

/-! ## Lock times -/

def LOCKTIME_THRESHOLD : Nat := 500000000
def LOCKTIME_VERIFY_SEQUENCE : Nat := 1
def SEQUENCE_LOCKTIME_GRANULARITY : Nat := 9

/-- `IsFinalTx(tx, nBlockHeight, nBlockTime)`. -/
def IsFinalTx (tx : CTransaction) (nBlockHeight : Int) (nBlockTime : Int) : Bool :=
  tx.nLockTime = 0 ||
    decide ((tx.nLockTime.toNat : Int) < (if tx.nLockTime.toNat < LOCKTIME_THRESHOLD then nBlockHeight else nBlockTime)) ||
    tx.vin.all (·.nSequence = SEQUENCE_FINAL)

/-- `CalculateSequenceLocks(tx, flags, prevHeights, block)`: the last invalid
height and time. `ancestorMTP h` is `block.GetAncestor(h)->GetMedianTimePast()`. -/
def CalculateSequenceLocks (tx : CTransaction) (flags : Nat) (prevHeights : List Int) (ancestorMTP : Nat → Int) :
    Int × Int :=
  if flags % 2 = 0 then (-1, -1) else
  (tx.vin.zip prevHeights).foldl (fun (nMinHeight, nMinTime) (txin, nCoinHeight) =>
    if txin.nSequence &&& SEQUENCE_LOCKTIME_DISABLE_FLAG ≠ 0 then (nMinHeight, nMinTime)
    else if txin.nSequence &&& SEQUENCE_LOCKTIME_TYPE_FLAG ≠ 0 then
      let nCoinTime := ancestorMTP (max (nCoinHeight - 1) 0).toNat
      (nMinHeight, max nMinTime
        (nCoinTime + ((txin.nSequence &&& SEQUENCE_LOCKTIME_MASK).toNat * 2 ^ SEQUENCE_LOCKTIME_GRANULARITY : Nat) - 1))
    else (max nMinHeight (nCoinHeight + (txin.nSequence &&& SEQUENCE_LOCKTIME_MASK).toNat - 1), nMinTime))
    (-1, -1)

/-- `EvaluateSequenceLocks(block, lockPair)`: against the block's height and
its predecessor's median time past. -/
def EvaluateSequenceLocks (nHeight : Nat) (prevMTP : Int) (lockPair : Int × Int) : Bool :=
  !(lockPair.1 ≥ nHeight || lockPair.2 ≥ prevMTP)

/-- `SequenceLocks(tx, flags, prevHeights, block)` for a block at `nHeight`. -/
def SequenceLocks (tx : CTransaction) (flags : Nat) (prevHeights : List Int) (nHeight : Nat)
    (ancestorMTP : Nat → Int) : Bool :=
  EvaluateSequenceLocks nHeight (ancestorMTP (nHeight - 1)) (CalculateSequenceLocks tx flags prevHeights ancestorMTP)

/-! ## Signature operations -/

/-- The loop of `GetSigOpCount(fAccurate)` after the opcode `lastOpcode`. -/
def sigOpsLoop (fAccurate : Bool) : opcodetype → List ScriptOp → Nat
  | _, [] => 0
  | lastOpcode, op :: rest =>
    let n :=
      if op.opcode = OP_CHECKSIG || op.opcode = OP_CHECKSIGVERIFY || op.opcode = OP_CHECKDATASIG ||
          op.opcode = OP_CHECKDATASIGVERIFY then 1
      else if op.opcode = OP_CHECKMULTISIG || op.opcode = OP_CHECKMULTISIGVERIFY then
        if fAccurate && OP_1 ≤ lastOpcode && lastOpcode ≤ OP_16 then DecodeOP_N lastOpcode
        else MAX_PUBKEYS_PER_MULTISIG
      else 0
    n + sigOpsLoop fAccurate op.opcode rest

/-- `CScript::GetSigOpCount(fAccurate)`: over the instructions up to the first
undecodable one. -/
def CScript.GetSigOpCount (s : CScript) (fAccurate : Bool) : Nat := sigOpsLoop fAccurate OP_INVALIDOPCODE (ScriptOps s).1

/-- `CScript::GetSigOpCount(scriptSig)`: for P2SH, the count of the last item a
push-only `scriptSig` pushes. -/
def CScript.GetSigOpCountP2SH (scriptPubKey scriptSig : CScript) : Nat :=
  if !scriptPubKey.IsPayToScriptHash then scriptPubKey.GetSigOpCount true
  else if (ScriptOps scriptSig).2 || (ScriptOps scriptSig).1.any (·.opcode > OP_16) then 0
  else CScript.GetSigOpCount (((ScriptOps scriptSig).1.getLast?.map (·.data)).getD []) true

/-- `GetLegacySigOpCount`. -/
def GetLegacySigOpCount (tx : CTransaction) : Nat :=
  (tx.vin.map fun txin => txin.scriptSig.GetSigOpCount false).sum +
    (tx.vout.map fun txout => txout.scriptPubKey.GetSigOpCount false).sum

/-- `GetP2SHSigOpCount`. -/
def GetP2SHSigOpCount (tx : CTransaction) (inputs : CCoinsViewCache) : Valid Nat :=
  if tx.IsCoinBase then .ok 0 else
  tx.vin.foldlM (fun nSigOps txin =>
    let coin := inputs.AccessCoin txin.prevout
    if coin.IsSpent then .error .abort
    else if coin.out.scriptPubKey.IsPayToScriptHash then
      .ok (nSigOps + coin.out.scriptPubKey.GetSigOpCountP2SH txin.scriptSig)
    else .ok nSigOps) 0

/-- `WitnessSigOps`. -/
def WitnessSigOps (witversion : Nat) (witprogram : List UInt8) (witness : List (List UInt8)) : Nat :=
  if witversion ≠ 0 then 0
  else if witprogram.length = WITNESS_V0_KEYHASH_SIZE then 1
  else if witprogram.length = WITNESS_V0_SCRIPTHASH_SIZE then
    match witness.getLast? with
    | some subscript => CScript.GetSigOpCount subscript true
    | none => 0
  else 0

/-- `CountWitnessSigOps`: nothing unless `SCRIPT_VERIFY_WITNESS` is set. -/
def CountWitnessSigOps (scriptSig scriptPubKey : CScript) (witness : List (List UInt8)) (flags : UInt32) : Nat :=
  if !hasFlag flags SCRIPT_VERIFY_WITNESS then 0
  else match scriptPubKey.IsWitnessProgram with
    | some (witversion, witprogram) => WitnessSigOps witversion witprogram witness
    | none =>
      if scriptPubKey.IsPayToScriptHash && scriptSig.IsPushOnly then
        match CScript.IsWitnessProgram (((ScriptOps scriptSig).1.getLast?.map (·.data)).getD []) with
        | some (witversion, witprogram) => WitnessSigOps witversion witprogram witness
        | none => 0
      else 0

/-- `GetTransactionSigOps`: legacy, P2SH (always verified in Tapyrus) and
witness counts. -/
def GetTransactionSigOps (tx : CTransaction) (inputs : CCoinsViewCache) (flags : UInt32) : Valid Nat := do
  let nSigOps := GetLegacySigOpCount tx
  if tx.IsCoinBase then return nSigOps
  let nP2SH ← GetP2SHSigOpCount tx inputs
  let nWitness ← tx.vin.foldlM (fun n txin =>
    let coin := inputs.AccessCoin txin.prevout
    if coin.IsSpent then .error .abort
    else .ok (n + CountWitnessSigOps txin.scriptSig coin.out.scriptPubKey txin.scriptWitness flags)) 0
  pure (nSigOps + nP2SH + nWitness)

/-! ## What a successful check establishes -/

theorem checkOutputValues_eq_ok :
    ∀ {outs : List CTxOut} {acc : Int}, checkOutputValues acc outs = .ok () → ∀ out ∈ outs, 0 ≤ out.nValue := by
  intro outs
  induction outs with
  | nil =>
    intro _ _ out hout
    cases hout
  | cons txout rest ih =>
    intro acc h out hout
    unfold checkOutputValues at h
    split at h
    · cases h
    split at h
    · cases h
    split at h
    · cases h
    rename_i hneg _ _
    rcases List.mem_cons.1 hout with rfl | hrest
    · omega
    · exact ih h out hrest

/-- The duplicate loop passes when no outpoint repeats, nor is among those
already seen. -/
theorem checkDuplicateInputs_eq_ok :
    ∀ {vin : List CTxIn} {seen : List COutPoint}, checkDuplicateInputs seen vin = .ok () →
      (vin.map (·.prevout)).Nodup ∧ ∀ txin ∈ vin, txin.prevout ∉ seen := by
  intro vin
  induction vin with
  | nil =>
    intro _ _
    exact ⟨List.nodup_nil, fun _ h => by cases h⟩
  | cons txin rest ih =>
    intro seen h
    unfold checkDuplicateInputs at h
    split at h
    · cases h
    rename_i hnew
    obtain ⟨hnd, hfresh⟩ := ih h
    refine ⟨List.nodup_cons.2 ⟨?_, hnd⟩, ?_⟩
    · intro hmem
      obtain ⟨t, ht, hteq⟩ := List.mem_map.1 hmem
      exact hfresh t ht (hteq ▸ List.mem_cons_self)
    · intro t ht
      rcases List.mem_cons.1 ht with rfl | hrest
      · exact hnew
      · exact fun hmem => hfresh t hrest (List.mem_cons_of_mem _ hmem)

/-- A transaction `CheckTransaction` accepts has no negative output, and,
when duplicates are checked, no outpoint spent twice. -/
theorem CheckTransaction_eq_ok {history : CXFieldHistoryMap} {tx : CTransaction} {fCheckDuplicateInputs : Bool}
    (h : CheckTransaction history tx fCheckDuplicateInputs = .ok ()) :
    (∀ out ∈ tx.vout, 0 ≤ out.nValue) ∧ (fCheckDuplicateInputs = true → (tx.vin.map (·.prevout)).Nodup) := by
  unfold CheckTransaction at h
  split at h
  · cases h
  split at h
  · cases h
  split at h
  · cases h
  split at h
  · cases h
  obtain ⟨_, hout, h⟩ := bind_eq_ok h
  refine ⟨checkOutputValues_eq_ok hout, fun hdup => ?_⟩
  rw [hdup, if_pos rfl] at h
  obtain ⟨_, hdupok, -⟩ := bind_eq_ok h
  exact (checkDuplicateInputs_eq_ok hdupok).1

/-- The guarded fold of `GetValueOut` adds up the outputs of the color. -/
theorem GetValueOut_fold_eq {colorId : ColorIdentifier} :
    ∀ {vout : List CTxOut} {acc v : Int},
      vout.foldlM (fun nValueOut txout =>
        let nValueOut := if GetColorIdFromScript txout.scriptPubKey = colorId then nValueOut + txout.nValue
          else nValueOut
        if !MoneyRange txout.nValue || !MoneyRange nValueOut then (.error .abort : Valid Int)
        else .ok nValueOut) acc = .ok v →
      v = acc + valueOfColor vout colorId := by
  intro vout
  induction vout with
  | nil =>
    intro acc v h
    cases h
    simp [valueOfColor]
  | cons out rest ih =>
    intro acc v h
    rw [List.foldlM_cons] at h
    obtain ⟨acc', hstep, hrest⟩ := bind_eq_ok h
    -- the step adds the output when it has the color, and stays in range
    have hacc : acc' = acc + (if GetColorIdFromScript out.scriptPubKey = colorId then out.nValue else 0) := by
      dsimp only at hstep
      by_cases hc : GetColorIdFromScript out.scriptPubKey = colorId
      · simp only [hc, if_true] at hstep ⊢
        split at hstep
        · cases hstep
        · cases hstep
          rfl
      · simp only [hc, if_false] at hstep ⊢
        split at hstep
        · cases hstep
        · cases hstep
          simp
    rw [ih hrest, hacc]
    simp only [valueOfColor, List.map_cons, List.sum_cons]
    omega

theorem GetValueOut_eq_ok {tx : CTransaction} {colorId : ColorIdentifier} {v : Int}
    (h : tx.GetValueOut colorId = .ok v) : v = valueOfColor tx.vout colorId := by
  have := GetValueOut_fold_eq h
  omega

/-- The TPC outputs, counted by the type test. -/
theorem valueOfColor_none (vout : List CTxOut) :
    valueOfColor vout ColorIdentifier.none = (vout.map (outTerm IsTPC)).sum := by
  unfold valueOfColor
  congr 1
  apply List.map_congr_left
  intro out _
  simp only [outTerm, IsTPC, GetColorIdFromScript_type_eq_NONE]

/-- The TPC value of the coins a transaction's inputs spend. -/
def tpcValueIn (tx : CTransaction) (inputs : CCoinsViewCache) : Int :=
  (tx.vin.map fun txin => outTerm IsTPC (inputs.AccessCoin txin.prevout).out).sum

theorem checkInputValues_eq_ok {inputs : CCoinsViewCache} {nSpendHeight : Int} :
    ∀ {vin : List CTxIn} {acc v : Int}, checkInputValues inputs nSpendHeight acc vin = .ok v →
      v = acc + (vin.map fun txin => outTerm IsTPC (inputs.AccessCoin txin.prevout).out).sum := by
  intro vin
  induction vin with
  | nil =>
    intro acc v h
    cases h
    simp
  | cons txin rest ih =>
    intro acc v h
    unfold checkInputValues at h
    dsimp only at h
    split at h
    · cases h
    split at h
    · cases h
    -- the TPC test decides what the running sum adds
    by_cases hc : IsTPC (inputs.AccessCoin txin.prevout).out
    · simp only [hc, if_true] at h
      split at h
      · cases h
      rw [ih h]
      simp only [outTerm, hc, if_true, List.map_cons, List.sum_cons]
      omega
    · simp only [hc, if_false] at h
      split at h
      · cases h
      rw [ih h]
      simp only [outTerm, hc, if_false, List.map_cons, List.sum_cons]
      omega

/-- A successful `CheckTxInputs`: every input's coin is there, and the fee is
the TPC value in minus the TPC value out, not negative. -/
theorem CheckTxInputs_eq_ok {tx : CTransaction} {inputs : CCoinsViewCache} {nSpendHeight fee : Int}
    (h : CheckTxInputs tx inputs nSpendHeight = .ok fee) :
    inputs.HaveInputs tx = true ∧ fee = tpcValueIn tx inputs - (tx.vout.map (outTerm IsTPC)).sum ∧ 0 ≤ fee := by
  unfold CheckTxInputs at h
  split at h
  · cases h
  rename_i hhave
  obtain ⟨nValueIn, hin, h⟩ := bind_eq_ok h
  obtain ⟨value_out, hout, h⟩ := bind_eq_ok h
  have hin' := checkInputValues_eq_ok hin
  have hout' := GetValueOut_eq_ok hout
  rw [valueOfColor_none] at hout'
  split at h
  · cases h
  dsimp only at h
  split at h
  · cases h
  rename_i hlt hrange
  cases h
  refine ⟨by simpa using hhave, by simp only [tpcValueIn]; omega, ?_⟩
  simp only [MoneyRange, Bool.not_eq_true', Bool.and_eq_false_iff, decide_eq_false_iff_not] at hrange
  omega

/-! ## When the checks pass -/

/-- The converse of `checkDuplicateInputs_eq_ok`. -/
theorem checkDuplicateInputs_eq_ok_of_nodup :
    ∀ {vin : List CTxIn} {seen : List COutPoint}, (vin.map (·.prevout)).Nodup → (∀ txin ∈ vin, txin.prevout ∉ seen) →
      checkDuplicateInputs seen vin = .ok ()
  | [], _, _, _ => rfl
  | txin :: rest, seen, hnd, hfresh => by
    rw [List.map_cons, List.nodup_cons] at hnd
    rw [checkDuplicateInputs, if_neg (hfresh txin List.mem_cons_self)]
    apply checkDuplicateInputs_eq_ok_of_nodup hnd.2
    intro t ht hmem
    rcases List.mem_cons.1 hmem with heq | hseen
    · exact hnd.1 (heq ▸ List.mem_map_of_mem ht)
    · exact hfresh t (List.mem_cons_of_mem txin ht) hseen

/-- The input loop passes on unspent, mature coins in the money range whose
TPC values, added to `acc`, stay in range, and returns that sum. By
induction on the inputs: every term is nonnegative, so each running sum is
below the last. -/
theorem checkInputValues_eq_ok_of_forall {inputs : CCoinsViewCache} {nSpendHeight : Int} :
    ∀ {vin : List CTxIn} {acc : Int}, 0 ≤ acc →
      (∀ txin ∈ vin, (inputs.AccessCoin txin.prevout).IsSpent = false ∧
        ((inputs.AccessCoin txin.prevout).fCoinBase = false ∨ (inputs.AccessCoin txin.prevout).nHeight < nSpendHeight) ∧
        MoneyRange (inputs.AccessCoin txin.prevout).out.nValue = true) →
      acc + (vin.map fun txin => outTerm IsTPC (inputs.AccessCoin txin.prevout).out).sum ≤ MAX_MONEY →
      checkInputValues inputs nSpendHeight acc vin =
        .ok (acc + (vin.map fun txin => outTerm IsTPC (inputs.AccessCoin txin.prevout).out).sum)
  | [], acc, _, _, _ => by simp [checkInputValues]
  | txin :: rest, acc, hacc, hcoins, hsum => by
    have hrest : 0 ≤ (rest.map fun t => outTerm IsTPC (inputs.AccessCoin t.prevout).out).sum :=
      List.sum_nonneg fun x hx => by
        obtain ⟨t, ht, rfl⟩ := List.mem_map.1 hx
        have hr := (hcoins t (List.mem_cons_of_mem txin ht)).2.2
        simp only [MoneyRange, Bool.and_eq_true, decide_eq_true_eq] at hr
        exact outTerm_nonneg IsTPC hr.1
    obtain ⟨hunspent, hmature, hrange⟩ := hcoins txin List.mem_cons_self
    simp only [List.map_cons, List.sum_cons] at hsum ⊢
    rw [checkInputValues]
    dsimp only
    generalize inputs.AccessCoin txin.prevout = coin at hunspent hmature hrange hsum ⊢
    have hvalue : 0 ≤ coin.out.nValue := by
      simp only [MoneyRange, Bool.and_eq_true, decide_eq_true_eq] at hrange
      exact hrange.1
    have hterm : 0 ≤ outTerm IsTPC coin.out := outTerm_nonneg IsTPC hvalue
    -- the running sum after this input is `acc` plus its term
    have hnext : (if IsTPC coin.out then acc + coin.out.nValue else acc) = acc + outTerm IsTPC coin.out := by
      unfold outTerm
      split <;> simp
    have hprem : (coin.fCoinBase && decide (nSpendHeight ≤ coin.nHeight)) = false := by
      rcases hmature with h | h
      · simp [h]
      · simp only [Bool.and_eq_false_iff, decide_eq_false_iff_not, not_le]
        exact .inr h
    have hin : MoneyRange (acc + outTerm IsTPC coin.out) = true := by
      simp only [MoneyRange, Bool.and_eq_true, decide_eq_true_eq]
      omega
    simp only [hunspent, hprem, hnext, hrange, hin, Bool.false_eq_true, if_false, Bool.not_true, Bool.or_false]
    rw [checkInputValues_eq_ok_of_forall (by omega) (fun t ht => hcoins t (List.mem_cons_of_mem txin ht)) (by omega),
      Int.add_assoc]

/-- With every input's relative lock time disabled, no lock applies: the
fold keeps its start on each pair. -/
theorem CalculateSequenceLocks_of_disabled {tx : CTransaction} {flags : Nat} {prevHeights : List Int}
    {ancestorMTP : Nat → Int} (h : ∀ txin ∈ tx.vin, txin.nSequence &&& SEQUENCE_LOCKTIME_DISABLE_FLAG ≠ 0) :
    CalculateSequenceLocks tx flags prevHeights ancestorMTP = (-1, -1) := by
  unfold CalculateSequenceLocks
  split
  · rfl
  generalize hl : tx.vin.zip prevHeights = l
  have hdis : ∀ p ∈ l, p.1.nSequence &&& SEQUENCE_LOCKTIME_DISABLE_FLAG ≠ 0 := by
    rintro ⟨txin, height⟩ hp
    rw [← hl] at hp
    exact h txin (List.of_mem_zip hp).1
  clear hl
  induction l with
  | nil => rfl
  | cons p l ih =>
    rw [List.foldl_cons]
    simp only [hdis p List.mem_cons_self, ne_eq, not_false_eq_true, if_true]
    exact ih fun q hq => hdis q (List.mem_cons_of_mem p hq)

theorem SequenceLocks_of_disabled {tx : CTransaction} {flags : Nat} {prevHeights : List Int} {nHeight : Nat}
    {ancestorMTP : Nat → Int} (h : ∀ txin ∈ tx.vin, txin.nSequence &&& SEQUENCE_LOCKTIME_DISABLE_FLAG ≠ 0)
    (hmtp : 0 ≤ ancestorMTP (nHeight - 1)) :
    SequenceLocks tx flags prevHeights nHeight ancestorMTP = true := by
  rw [SequenceLocks, CalculateSequenceLocks_of_disabled h, EvaluateSequenceLocks]
  simp only [Bool.not_eq_true', Bool.or_eq_false_iff, decide_eq_false_iff_not, not_le]
  omega

/-- Without pay-to-script-hash coins and without the witness flag, a
transaction that is not a coinbase counts its legacy operations only. -/
theorem GetTransactionSigOps_of_legacy {tx : CTransaction} {inputs : CCoinsViewCache} {flags : UInt32}
    (hcb : tx.IsCoinBase = false) (hwit : hasFlag flags SCRIPT_VERIFY_WITNESS = false)
    (hcoins : ∀ txin ∈ tx.vin, (inputs.AccessCoin txin.prevout).IsSpent = false ∧
      (inputs.AccessCoin txin.prevout).out.scriptPubKey.IsPayToScriptHash = false) :
    GetTransactionSigOps tx inputs flags = .ok (GetLegacySigOpCount tx) := by
  have hp2sh : GetP2SHSigOpCount tx inputs = .ok 0 := by
    rw [GetP2SHSigOpCount, if_neg (by simp [hcb])]
    apply foldlM_eq_ok_of_forall
    intro txin htxin
    simp [(hcoins txin htxin).1, (hcoins txin htxin).2]
  rw [GetTransactionSigOps, if_neg (by simp [hcb])]
  simp only [hp2sh, ok_bind]
  rw [foldlM_eq_ok_of_forall]
  · rfl
  · intro txin htxin
    simp [(hcoins txin htxin).1, CountWitnessSigOps, hwit]

end Tapyrus
