import Tapyrus.Validation.CheckBlock
/-!
# Connecting and disconnecting a block

`CheckInputs`, `GetBlockSubsidy`, `CChainState::ConnectBlock` and
`CChainState::DisconnectBlock` (`validation.cpp`).

`ConnectBlock` checks the block again, skips the genesis block's
transactions, and then runs each transaction in order against the view: for
all but the coinbase `CheckTxInputs` (whose fee it adds up) and the BIP68
locks; the signature operation budget; the scripts (`CheckInputs`); and
`UpdateCoins`. Last, the coinbase's TPC outputs may not exceed the fees plus
the subsidy. The view it is handed is a cache the caller throws away on
failure, so the result is the new view and the undo record, or the failure.

`CheckInputs` runs `VerifyScript` for each input and adds the color each run
hands back to `inColoredCoinBalances`; `ConnectBlock` never reads that map.
The script execution cache is not modelled: a hit returns before any input
is looked at, with the verdict the scripts had when they were cached, so
the model runs the scripts instead.

Scripts run in the calling thread here (`pvChecks` null); with script check
threads the same checks run in the queue and a failure is reported after the
coinbase amount check instead of before.
-/

namespace Tapyrus

open Lib CCoinsViewCache

/-! ## Script checks -/

def MANDATORY_SCRIPT_VERIFY_FLAGS : UInt32 := 0

def STANDARD_SCRIPT_VERIFY_FLAGS : UInt32 :=
  SCRIPT_VERIFY_DISCOURAGE_UPGRADABLE_NOPS ||| SCRIPT_VERIFY_CLEANSTACK |||
    SCRIPT_VERIFY_DISCOURAGE_UPGRADABLE_WITNESS_PROGRAM ||| SCRIPT_VERIFY_MINIMALIF ||| SCRIPT_VERIFY_NULLFAIL |||
    SCRIPT_VERIFY_WITNESS_PUBKEYTYPE ||| SCRIPT_VERIFY_CONST_SCRIPTCODE

def STANDARD_NOT_MANDATORY_VERIFY_FLAGS : UInt32 :=
  (STANDARD_SCRIPT_VERIFY_FLAGS ||| SCRIPT_VERIFY_SIGPUSHONLY) &&& ~~~MANDATORY_SCRIPT_VERIFY_FLAGS

/-- `iter->second += value` for the entry of `colorId`, or
`emplace(colorId, value)` when `find` has none: the balance maps' update, with
their comparator's notion of the same color. -/
def addColoredCoinBalance (m : TxColoredCoinBalancesMap) (colorId : ColorIdentifier) (nValue : Int) :
    TxColoredCoinBalancesMap :=
  match CmpMap.find ColorIdentifierCompare m colorId with
  | none => CmpMap.emplace ColorIdentifierCompare m colorId nValue
  | some _ => CmpMap.modify ColorIdentifierCompare m colorId (· + nValue)

section Connect

variable (E : ValidationEnv)

/-- `CScriptCheck(coin.out, tx, nIn, flags)()`: `VerifyScript` of the input
against the coin it spends, from `ColorIdentifier()`. -/
def CScriptCheck (tx : CTransaction) (nIn : Nat) (txin : CTxIn) (out : CTxOut) (flags : UInt32) :
    Exec ColorIdentifier :=
  VerifyScript E.C flags (E.txChecker tx nIn out.nValue) txin.scriptSig out.scriptPubKey txin.scriptWitness
    ColorIdentifier.none

/-- The input loop of `CheckInputs` from input `nIn` on. A failing script is
retried without the standard-only flags to tell a policy failure from a
consensus one. -/
def checkInputScripts (tx : CTransaction) (inputs : CCoinsViewCache) (flags : UInt32) :
    Nat → TxColoredCoinBalancesMap → List CTxIn → Valid TxColoredCoinBalancesMap
  | _, balances, [] => .ok balances
  | nIn, balances, txin :: rest =>
    let coin := inputs.AccessCoin txin.prevout
    -- assert(!coin.IsSpent())
    if coin.IsSpent then .error .abort else
    match CScriptCheck E tx nIn txin coin.out flags with
    | .ok colorId =>
      checkInputScripts tx inputs flags (nIn + 1) (addColoredCoinBalance balances colorId coin.out.nValue) rest
    | .error (.fail _) =>
      if hasFlag flags STANDARD_NOT_MANDATORY_VERIFY_FLAGS then
        match CScriptCheck E tx nIn txin coin.out (flags &&& ~~~STANDARD_NOT_MANDATORY_VERIFY_FLAGS) with
        | .ok _ => reject "non-mandatory-script-verify-flag"
        | .error (.fail _) => reject "mandatory-script-verify-flag-failed"
        | .error _ => .error .abort
      else reject "mandatory-script-verify-flag-failed"
    | .error _ => .error .abort

/-- `CheckInputs(tx, state, inputs, fScriptChecks, flags, ...,
inColoredCoinBalances)`: the balances of the colors the inputs' scripts
hand back. -/
def CheckInputs (tx : CTransaction) (inputs : CCoinsViewCache) (fScriptChecks : Bool) (flags : UInt32)
    (inColoredCoinBalances : TxColoredCoinBalancesMap) : Valid TxColoredCoinBalancesMap :=
  if tx.IsCoinBase || !fScriptChecks then .ok inColoredCoinBalances
  else checkInputScripts E tx inputs flags 0 inColoredCoinBalances tx.vin

/-- The script loop passes when every input's coin is there and its script
check passes at any index, by induction on the inputs. -/
theorem checkInputScripts_eq_ok {tx : CTransaction} {inputs : CCoinsViewCache} {flags : UInt32} :
    ∀ {vin : List CTxIn} {nIn : Nat} {balances : TxColoredCoinBalancesMap},
      (∀ txin ∈ vin, (inputs.AccessCoin txin.prevout).IsSpent = false ∧
        ∀ n, ∃ cid, CScriptCheck E tx n txin (inputs.AccessCoin txin.prevout).out flags = .ok cid) →
      ∃ b, checkInputScripts E tx inputs flags nIn balances vin = .ok b
  | [], _, balances, _ => ⟨balances, rfl⟩
  | txin :: rest, nIn, balances, h => by
    obtain ⟨hunspent, hcheck⟩ := h txin List.mem_cons_self
    obtain ⟨cid, hcid⟩ := hcheck nIn
    rw [checkInputScripts]
    simp only [hunspent, Bool.false_eq_true, if_false, hcid]
    exact checkInputScripts_eq_ok fun t ht => h t (List.mem_cons_of_mem txin ht)

end Connect

/-- `GetBlockSubsidy`: 50 coins, halved every `nSubsidyHalvingInterval`
blocks, zero once the shift would be undefined. -/
def GetBlockSubsidy (nHeight : Nat) (nSubsidyHalvingInterval : Nat) : Int :=
  let halvings := nHeight / nSubsidyHalvingInterval
  if halvings ≥ 64 then 0 else (50 * COIN) >>> halvings

/-- `GetBlockScriptFlags`: no flags in Tapyrus. -/
def GetBlockScriptFlags (_pindex : CBlockIndex) : UInt32 := SCRIPT_VERIFY_NONE

/-! ## `ConnectBlock` -/

/-- `CTxUndo`: the coins a transaction spent, in input order. -/
abbrev CTxUndo := List Coin

/-- What the transaction loop of `ConnectBlock` carries: the view, the fees
so far, the signature operations so far, and the undo records of the
transactions after the coinbase. -/
structure ConnectState where
  view : CCoinsViewCache
  nFees : Int
  nSigOpsCost : Nat
  vtxundo : List CTxUndo

section Connect

variable (E : ValidationEnv) (history : CXFieldHistoryMap) (fScriptChecks : Bool) (pindex : CBlockIndex)

/-- The fee checks of a transaction that is not a coinbase: `CheckTxInputs`
at the block's height, the running total in range, and the BIP68 locks
against the heights of the spent coins. -/
def checkFees (tx : CTransaction) (view : CCoinsViewCache) (nFees : Int) : Valid Int := do
  let txfee ← CheckTxInputs tx view pindex.nHeight
  let nFees := nFees + txfee
  if !MoneyRange nFees then reject "bad-txns-accumulated-fee-outofrange" else
  let prevheights := tx.vin.map fun txin => ((view.AccessCoin txin.prevout).nHeight : Int)
  if !SequenceLocks tx LOCKTIME_VERIFY_SEQUENCE prevheights pindex.nHeight pindex.ancestorMTP then
    reject "bad-txns-nonfinal"
  else pure nFees

/-- One round of the transaction loop of `ConnectBlock`, for transaction
`i`. -/
def connectTx (i : Nat) (st : ConnectState) (tx : CTransaction) : Valid ConnectState := do
  let nFees ← (if !tx.IsCoinBase then checkFees pindex tx st.view st.nFees else pure st.nFees)
  let flags := GetBlockScriptFlags pindex
  let nSigOps ← GetTransactionSigOps tx st.view flags
  let nSigOpsCost := st.nSigOpsCost + nSigOps
  let some nMaxSigOps := GetMaxBlockSigops history | .error .abort
  if nSigOpsCost > nMaxSigOps.toNat then reject "bad-blk-sigops" else do
  let _ ← (if !tx.IsCoinBase then CheckInputs E tx st.view fScriptChecks flags [] else pure [])
  let (view, txundo) ← UpdateCoins E.C tx st.view pindex.nHeight
  pure ⟨view, nFees, nSigOpsCost, if i > 0 then st.vtxundo ++ [txundo] else st.vtxundo⟩

/-- The transaction loop of `ConnectBlock`, from transaction `i` on. -/
def connectTransactions : Nat → ConnectState → List CTransaction → Valid ConnectState
  | _, st, [] => .ok st
  | i, st, tx :: rest => do
    let st ← connectTx E history fScriptChecks pindex i st tx
    connectTransactions (i + 1) st rest

/-- `CChainState::ConnectBlock(block, state, pindex, view, fJustCheck)`: the
view after the block and the block's undo record (`blockundo.vtxundo`). The
tip and the history are what `CheckBlock` reads. -/
def ConnectBlock (tip : Option CBlockIndex) (block : CBlock) (view : CCoinsViewCache) (fJustCheck : Bool) :
    Valid (CCoinsViewCache × List CTxUndo) := do
  -- assert(*pindex->phashBlock == block_hash)
  if pindex.hashBlock ≠ block.GetHash E.C then .error .abort else
  let _ ← CheckBlock E tip history none block (!fJustCheck) (!fJustCheck)
  -- assert(hashPrevBlock == view.GetBestBlock())
  if pindex.hashPrevBlock ≠ view.GetBestBlock then .error .abort else
  -- the genesis block's coinbase is not spendable: nothing is connected
  if block.GetHash E.C = E.genesisHash then
    pure (if fJustCheck then view else view.SetBestBlock pindex.hashBlock, [])
  else
  let st ← connectTransactions E history fScriptChecks pindex 0 ⟨view, 0, 0, []⟩ block.vtx
  let blockReward := st.nFees + GetBlockSubsidy pindex.nHeight E.nSubsidyHalvingInterval
  match block.vtx with
  | [] => .error .abort
  | coinbase :: _ =>
    let coinbaseOut ← coinbase.GetValueOut ColorIdentifier.none
    if coinbaseOut > blockReward then reject "bad-cb-amount"
    else if fJustCheck then pure (st.view, st.vtxundo)
    else pure (st.view.SetBestBlock pindex.hashBlock, st.vtxundo)

/-- What a connected block went through: the index entry is the block's and
follows the view's best block, `CheckBlock` passed, and either the block is
the genesis block (no coin moves) or the transaction loop ran and the
coinbase pays at most the fees and the subsidy. Unless `fJustCheck`, the view
then moves to the block. -/
theorem ConnectBlock_eq_ok {tip : Option CBlockIndex} {block : CBlock} {view view' : CCoinsViewCache}
    {fJustCheck : Bool} {vtxundo : List CTxUndo}
    (h : ConnectBlock E history fScriptChecks pindex tip block view fJustCheck = .ok (view', vtxundo)) :
    pindex.hashBlock = block.GetHash E.C ∧ pindex.hashPrevBlock = view.GetBestBlock ∧
      (∃ f, CheckBlock E tip history none block (!fJustCheck) (!fJustCheck) = .ok f) ∧
      ((block.GetHash E.C = E.genesisHash ∧ view'.coins = view.coins ∧ vtxundo = []) ∨
        (block.GetHash E.C ≠ E.genesisHash ∧
          ∃ st cb rest cbOut, connectTransactions E history fScriptChecks pindex 0 ⟨view, 0, 0, []⟩ block.vtx = .ok st ∧
            block.vtx = cb :: rest ∧ cb.GetValueOut ColorIdentifier.none = .ok cbOut ∧
            cbOut ≤ st.nFees + GetBlockSubsidy pindex.nHeight E.nSubsidyHalvingInterval ∧
            view'.coins = st.view.coins ∧ vtxundo = st.vtxundo)) ∧
      (fJustCheck = false → view'.hashBlock = pindex.hashBlock) := by
  unfold ConnectBlock at h
  split at h
  · cases h
  rename_i hhash
  obtain ⟨f, hcheck, h⟩ := bind_eq_ok h
  split at h
  · cases h
  rename_i hprev
  refine ⟨not_not.1 hhash, not_not.1 hprev, ⟨f, hcheck⟩, ?_⟩
  split at h
  · -- the genesis block: only the best block moves
    rename_i hgen
    simp only [pure, Except.pure, Except.ok.injEq, Prod.mk.injEq] at h
    obtain ⟨rfl, rfl⟩ := h
    refine ⟨Or.inl ⟨hgen, ?_, rfl⟩, fun hj => by simp [hj, SetBestBlock]⟩
    split <;> rfl
  rename_i hgen
  obtain ⟨st, hloop, h⟩ := bind_eq_ok h
  split at h
  · cases h
  rename_i cb rest hvtx
  obtain ⟨cbOut, hout, h⟩ := bind_eq_ok h
  split at h
  · cases h
  rename_i hreward
  have hle : cbOut ≤ st.nFees + GetBlockSubsidy pindex.nHeight E.nSubsidyHalvingInterval := not_lt.1 hreward
  cases fJustCheck
  · simp only [Bool.false_eq_true, if_false, pure, Except.pure, Except.ok.injEq, Prod.mk.injEq] at h
    obtain ⟨rfl, rfl⟩ := h
    exact ⟨Or.inr ⟨hgen, st, cb, rest, cbOut, hloop, hvtx, hout, hle, rfl, rfl⟩, fun _ => rfl⟩
  · simp only [if_true, pure, Except.pure, Except.ok.injEq, Prod.mk.injEq] at h
    obtain ⟨rfl, rfl⟩ := h
    exact ⟨Or.inr ⟨hgen, st, cb, rest, cbOut, hloop, hvtx, hout, hle, rfl, rfl⟩, fun h => by cases h⟩

end Connect

/-! ## `DisconnectBlock` -/

/-- `DisconnectResult`. -/
inductive DisconnectResult where
  | DISCONNECT_OK
  | DISCONNECT_UNCLEAN
  | DISCONNECT_FAILED
  deriving DecidableEq, Repr

/-- `MAX_OUTPUTS_PER_BLOCK`: `MAX_BLOCK_SIZE` over the size of a null
output (nine bytes). -/
def MAX_OUTPUTS_PER_BLOCK : Nat := 1000000 / 9

/-- `AccessByTxid`: the first unspent output of the transaction. -/
def AccessByTxid (view : CCoinsViewCache) (txid : uint256) : Coin :=
  match (List.range MAX_OUTPUTS_PER_BLOCK).find? (fun n => view.HaveCoin ⟨txid, UInt32.ofNat n⟩) with
  | some n => view.AccessCoin ⟨txid, UInt32.ofNat n⟩
  | none => Coin.empty

/-- `ApplyTxInUndo(undo, view, out)`: put the spent coin back. -/
def ApplyTxInUndo (undo : Coin) (view : CCoinsViewCache) (out : COutPoint) :
    Valid (DisconnectResult × CCoinsViewCache) :=
  let fClean := !view.HaveCoin out
  let undo :=
    if undo.nHeight = 0 then
      let alternate := AccessByTxid view out.hashMalFix
      if !alternate.IsSpent then some { undo with nHeight := alternate.nHeight, fCoinBase := alternate.fCoinBase }
      else none
    else some undo
  match undo with
  | none => .ok (.DISCONNECT_FAILED, view)
  | some undo => do
    let view ← view.AddCoin out undo (!fClean)
    pure (if fClean then .DISCONNECT_OK else .DISCONNECT_UNCLEAN, view)

section Disconnect

variable (C : Crypto) (nHeight : Nat)

/-- The output loop of `DisconnectBlock`: spend each spendable output of
the transaction, noting whether it matched the coin the view held. -/
def disconnectOutputs (hash : uint256) (is_coinbase : Bool) :
    CCoinsViewCache → Bool → Nat → List CTxOut → CCoinsViewCache × Bool
  | view, fClean, _, [] => (view, fClean)
  | view, fClean, o, txout :: rest =>
    if txout.scriptPubKey.IsUnspendable then disconnectOutputs hash is_coinbase view fClean (o + 1) rest else
    let out : COutPoint := ⟨hash, UInt32.ofNat o⟩
    let cid := GetColorIdFromScript txout.scriptPubKey
    let (is_spent, coin, view) :=
      match view.SpendCoin out with
      | some (coin, view) => (true, coin, view)
      | none => (false, Coin.empty, view)
    let coincid := GetColorIdFromScript coin.out.scriptPubKey
    let fClean := fClean && !(!is_spent || txout ≠ coin.out || nHeight ≠ coin.nHeight ||
      is_coinbase ≠ coin.fCoinBase || cid ≠ coincid)
    disconnectOutputs hash is_coinbase view fClean (o + 1) rest

/-- The input loop of `DisconnectBlock`, last input first: restore each spent
coin from the undo record. -/
def restoreInputs : CCoinsViewCache → Bool → List (CTxIn × Coin) → Valid (DisconnectResult × CCoinsViewCache)
  | view, fClean, [] => .ok (if fClean then .DISCONNECT_OK else .DISCONNECT_UNCLEAN, view)
  | view, fClean, (txin, undo) :: rest => do
    let (res, view) ← ApplyTxInUndo undo view txin.prevout
    if res = .DISCONNECT_FAILED then pure (.DISCONNECT_FAILED, view) else
    restoreInputs view (fClean && res ≠ .DISCONNECT_UNCLEAN) rest

/-- The loop of `DisconnectBlock` over the transactions, last first; each
carries its index and, after the coinbase, its undo record. -/
def disconnectTransactions :
    CCoinsViewCache → Bool → List (Nat × CTransaction) → List CTxUndo → Valid (DisconnectResult × CCoinsViewCache)
  | view, fClean, [], _ => .ok (if fClean then .DISCONNECT_OK else .DISCONNECT_UNCLEAN, view)
  | view, fClean, (i, tx) :: rest, vtxundo => do
    let (view, fClean) := disconnectOutputs nHeight (tx.GetHashMalFix C) tx.IsCoinBase view fClean 0 tx.vout
    if i > 0 then
      let txundo := vtxundo.getD (i - 1) []
      if txundo.length ≠ tx.vin.length then pure (.DISCONNECT_FAILED, view) else
      let (res, view) ← restoreInputs view true (tx.vin.zip txundo).reverse
      if res = .DISCONNECT_FAILED then pure (.DISCONNECT_FAILED, view) else
      disconnectTransactions view (fClean && res ≠ .DISCONNECT_UNCLEAN) rest vtxundo
    else disconnectTransactions view fClean rest vtxundo

end Disconnect

/-- `CChainState::DisconnectBlock(block, pindex, view)` with the undo record
`UndoReadFromDisk` reads for the block at `pindex`. -/
def DisconnectBlock (C : Crypto) (block : CBlock) (pindex : CBlockIndex) (vtxundo : List CTxUndo)
    (view : CCoinsViewCache) : Valid (DisconnectResult × CCoinsViewCache) :=
  if vtxundo.length + 1 ≠ block.vtx.length then .ok (.DISCONNECT_FAILED, view) else do
  let (res, view) ← disconnectTransactions C pindex.nHeight view true (List.zipIdx block.vtx |>.map (fun p => (p.2, p.1))).reverse vtxundo
  if res = .DISCONNECT_FAILED then pure (.DISCONNECT_FAILED, view)
  else pure (res, view.SetBestBlock pindex.hashPrevBlock)

/-- A block disconnected without failure leaves the view at its parent. -/
theorem DisconnectBlock_bestBlock {C : Crypto} {block : CBlock} {pindex : CBlockIndex} {vtxundo : List CTxUndo}
    {view view' : CCoinsViewCache} {res : DisconnectResult}
    (h : DisconnectBlock C block pindex vtxundo view = .ok (res, view')) (hres : res ≠ .DISCONNECT_FAILED) :
    view'.hashBlock = pindex.hashPrevBlock := by
  unfold DisconnectBlock at h
  split at h
  · cases h
    exact absurd rfl hres
  obtain ⟨⟨res', mid⟩, -, h⟩ := bind_eq_ok h
  dsimp only at h
  split at h
  · cases h
    exact absurd rfl hres
  · cases h
    rfl

end Tapyrus
