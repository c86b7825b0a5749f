import Tapyrus.Validation.ConnectBlock
import Tapyrus.CheckQueue
/-!
# Connecting a block with script check threads

With `nScriptCheckThreads` set, `CheckInputs` does not run the scripts that
`ConnectBlock` asks it to check: it builds one `CScriptCheck` for each input
and hands it back through `pvChecks`. `ConnectBlock` adds them to the queue
(`control.Add`) and, after the coinbase amount check, asks `control.Wait()`
whether all of them passed ("block-validation-failed" if not).

`Wait` stands for what `control.Wait()` answers for the checks added. The
model of the queue says what that is (`CheckQueue.QueueAnswers`): with any
set of worker threads, the value the master's `Wait` returned in a run of the
queue in which those checks were added. Over every interleaving this is their
conjunction, and the queue always gets to answer (`CheckQueue.Wait_returns`).
`ConnectBlockDeferred_eq_ok_iff` compares the two `ConnectBlock`s with that
conjunction for `Wait`; `ConnectBlockDeferred_queue_eq_ok_iff` carries it to
any answer of the queue. This `ConnectBlock` connects exactly the blocks that
the one running the scripts in the calling thread connects, to the same view
and undo record. Only the reason of a rejection can differ: a failed script
is reported after the later transactions and the coinbase amount check, not
at its own input.
-/

namespace Tapyrus

open Lib

/-- The `CScriptCheck` that `CheckInputs` builds for input `nIn` and hands to
`pvChecks`: the output of the coin the input spends, the transaction, the
input's index and the input itself, and the flags. -/
structure CScriptCheckData where
  out : CTxOut
  tx : CTransaction
  nIn : Nat
  txin : CTxIn
  flags : UInt32

/-- The input loop of `CheckInputs` from input `nIn` on, when `pvChecks` is
set: each input's check is pushed unrun. The color added up is the moved-from
check's, which has not run: `ColorIdentifier()`. -/
def checkInputScriptsDeferred (tx : CTransaction) (inputs : CCoinsViewCache) (flags : UInt32) :
    Nat → TxColoredCoinBalancesMap → List CTxIn → Valid (TxColoredCoinBalancesMap × List CScriptCheckData)
  | _, balances, [] => .ok (balances, [])
  | nIn, balances, txin :: rest => do
    let coin := inputs.AccessCoin txin.prevout
    -- assert(!coin.IsSpent())
    if coin.IsSpent then .error .abort else
    let (balances, vChecks) ← checkInputScriptsDeferred tx inputs flags (nIn + 1)
      (addColoredCoinBalance balances ColorIdentifier.none coin.out.nValue) rest
    pure (balances, ⟨coin.out, tx, nIn, txin, flags⟩ :: vChecks)

/-- `CheckInputs(tx, state, inputs, fScriptChecks, flags, ...,
inColoredCoinBalances, &vChecks)`: the balances, and the checks for the
queue. -/
def CheckInputsDeferred (tx : CTransaction) (inputs : CCoinsViewCache) (fScriptChecks : Bool) (flags : UInt32)
    (inColoredCoinBalances : TxColoredCoinBalancesMap) : Valid (TxColoredCoinBalancesMap × List CScriptCheckData) :=
  if tx.IsCoinBase || !fScriptChecks then .ok (inColoredCoinBalances, [])
  else checkInputScriptsDeferred tx inputs flags 0 inColoredCoinBalances tx.vin

section Connect

variable (E : ValidationEnv) (history : CXFieldHistoryMap) (fScriptChecks : Bool) (pindex : CBlockIndex)

/-- `CScriptCheck::operator()`: whether `VerifyScript` passes. An `assert`
that fails in a script thread stops the node; such a check counts as
failing. -/
def CScriptCheckData.run (c : CScriptCheckData) : Bool :=
  (CScriptCheck E c.tx c.nIn c.txin c.out c.flags).isOk

/-- One round of the transaction loop of `ConnectBlock` with script check
threads: the transaction's checks come back for `control.Add`. -/
def connectTxDeferred (i : Nat) (st : ConnectState) (tx : CTransaction) :
    Valid (ConnectState × List CScriptCheckData) := do
  let nFees ← (if !tx.IsCoinBase then checkFees pindex tx st.view st.nFees else pure st.nFees)
  let flags := GetBlockScriptFlags pindex
  let nSigOps ← GetTransactionSigOps tx st.view flags
  let nSigOpsCost := st.nSigOpsCost + nSigOps
  let some nMaxSigOps := GetMaxBlockSigops history | .error .abort
  if nSigOpsCost > nMaxSigOps.toNat then reject "bad-blk-sigops" else do
  let (_, vChecks) ← (if !tx.IsCoinBase then CheckInputsDeferred tx st.view fScriptChecks flags [] else pure ([], []))
  let (view, txundo) ← UpdateCoins E.C tx st.view pindex.nHeight
  pure (⟨view, nFees, nSigOpsCost, if i > 0 then st.vtxundo ++ [txundo] else st.vtxundo⟩, vChecks)

/-- The transaction loop with script check threads, from transaction `i`
on: the state after the transactions, and the checks added to the queue. -/
def connectTransactionsDeferred :
    Nat → ConnectState → List CTransaction → Valid (ConnectState × List CScriptCheckData)
  | _, st, [] => .ok (st, [])
  | i, st, tx :: rest => do
    let (st, vChecks) ← connectTxDeferred E history fScriptChecks pindex i st tx
    -- control.Add(std::move(vChecks))
    let (st, added) ← connectTransactionsDeferred (i + 1) st rest
    pure (st, vChecks ++ added)

/-- `CChainState::ConnectBlock` with `nScriptCheckThreads` set: `Wait` is
what `control.Wait()` answers for the checks added. -/
def ConnectBlockDeferred (Wait : List CScriptCheckData → Bool) (tip : Option CBlockIndex) (block : CBlock)
    (view : CCoinsViewCache) (fJustCheck : Bool) : Valid (CCoinsViewCache × List CTxUndo) := do
  -- assert(*pindex->phashBlock == block_hash)
  if pindex.hashBlock ≠ block.GetHash E.C then .error .abort else
  let _ ← CheckBlock E tip history none block (!fJustCheck) (!fJustCheck)
  -- assert(hashPrevBlock == view.GetBestBlock())
  if pindex.hashPrevBlock ≠ view.GetBestBlock then .error .abort else
  if block.GetHash E.C = E.genesisHash then
    pure (if fJustCheck then view else view.SetBestBlock pindex.hashBlock, [])
  else
  let (st, vChecks) ← connectTransactionsDeferred E history fScriptChecks pindex 0 ⟨view, 0, 0, []⟩ block.vtx
  let blockReward := st.nFees + GetBlockSubsidy pindex.nHeight E.nSubsidyHalvingInterval
  match block.vtx with
  | [] => .error .abort
  | coinbase :: _ =>
    let coinbaseOut ← coinbase.GetValueOut ColorIdentifier.none
    if coinbaseOut > blockReward then reject "bad-cb-amount"
    else if !Wait vChecks then reject "block-validation-failed"
    else if fJustCheck then pure (st.view, st.vtxundo)
    else pure (st.view.SetBestBlock pindex.hashBlock, st.vtxundo)

end Connect

/-! ## The verdict does not depend on the threads -/

section Connect

variable {E : ValidationEnv} {tx : CTransaction} {inputs : CCoinsViewCache} {flags : UInt32}

/-- The deferred loop at an input whose coin is there: the input's check,
then those of the rest. -/
theorem checkInputScriptsDeferred_cons {nIn : Nat} {balances : TxColoredCoinBalancesMap} {txin : CTxIn}
    {rest : List CTxIn} (hspent : (inputs.AccessCoin txin.prevout).IsSpent = false) {b vChecks} :
    checkInputScriptsDeferred tx inputs flags nIn balances (txin :: rest) = .ok (b, vChecks) ↔
      ∃ vs, checkInputScriptsDeferred tx inputs flags (nIn + 1)
          (addColoredCoinBalance balances ColorIdentifier.none (inputs.AccessCoin txin.prevout).out.nValue) rest =
          .ok (b, vs) ∧ vChecks = ⟨(inputs.AccessCoin txin.prevout).out, tx, nIn, txin, flags⟩ :: vs := by
  rw [checkInputScriptsDeferred]
  simp only [hspent, Bool.false_eq_true, if_false]
  cases checkInputScriptsDeferred tx inputs flags (nIn + 1)
      (addColoredCoinBalance balances ColorIdentifier.none (inputs.AccessCoin txin.prevout).out.nValue) rest with
  | error e => simp
  | ok p =>
    obtain ⟨b', vs⟩ := p
    simp [ok_bind, pure, Except.pure, eq_comm]

/-- A script that fails in the calling thread stops the loop. -/
theorem checkInputScripts_of_error {nIn : Nat} {balances : TxColoredCoinBalancesMap} {txin : CTxIn}
    {rest : List CTxIn} {e : Halt}
    (hrun : CScriptCheck E tx nIn txin (inputs.AccessCoin txin.prevout).out flags = .error e) (b) :
    checkInputScripts E tx inputs flags nIn balances (txin :: rest) ≠ .ok b := by
  rw [checkInputScripts]
  by_cases hspent : (inputs.AccessCoin txin.prevout).IsSpent = true
  · simp [hspent]
  simp only [hspent, Bool.false_eq_true, if_false, hrun]
  -- every way a failed script is reported is an error
  cases e with
  | fail _ =>
    dsimp only
    split_ifs
    · split <;> simp [reject]
    · simp [reject]
  | raise _ => simp
  | abort => simp

/-- The scripts of the inputs pass in the calling thread exactly when the
checks handed to the queue all pass, whatever balances the two loops carry. -/
theorem checkInputScripts_ok_iff (vin : List CTxIn) (nIn : Nat) (balances balances' : TxColoredCoinBalancesMap) :
    (∃ b, checkInputScripts E tx inputs flags nIn balances vin = .ok b) ↔
      ∃ b vChecks, checkInputScriptsDeferred tx inputs flags nIn balances' vin = .ok (b, vChecks) ∧
        vChecks.all (·.run E) = true := by
  induction vin generalizing nIn balances balances' with
  | nil => exact ⟨fun _ => ⟨balances', [], rfl, rfl⟩, fun _ => ⟨balances, rfl⟩⟩
  | cons txin rest ih =>
    by_cases hspent : (inputs.AccessCoin txin.prevout).IsSpent = true
    · -- both stop at the failed assert
      simp [checkInputScripts, checkInputScriptsDeferred, hspent]
    have hspent' : (inputs.AccessCoin txin.prevout).IsSpent = false := by simpa using hspent
    simp only [checkInputScriptsDeferred_cons hspent']
    cases hrun : CScriptCheck E tx nIn txin (inputs.AccessCoin txin.prevout).out flags with
    | error e =>
      -- the script fails: the loop stops, and so does the queue's check
      constructor
      · rintro ⟨b, hb⟩
        exact absurd hb (checkInputScripts_of_error hrun b)
      · rintro ⟨b, _, ⟨vs, -, rfl⟩, hall⟩
        simp [CScriptCheckData.run, hrun, Except.isOk, Except.toBool] at hall
    | ok cid =>
      have hcons : checkInputScripts E tx inputs flags nIn balances (txin :: rest) =
          checkInputScripts E tx inputs flags (nIn + 1)
            (addColoredCoinBalance balances cid (inputs.AccessCoin txin.prevout).out.nValue) rest := by
        rw [checkInputScripts]
        simp [hspent, hrun]
      rw [hcons, ih (nIn + 1) _
        (addColoredCoinBalance balances' ColorIdentifier.none (inputs.AccessCoin txin.prevout).out.nValue)]
      constructor
      · rintro ⟨b, vs, hb, hall⟩
        refine ⟨b, _, ⟨vs, hb, rfl⟩, ?_⟩
        simp only [List.all_cons, Bool.and_eq_true]
        exact ⟨by simp [CScriptCheckData.run, hrun, Except.isOk, Except.toBool], hall⟩
      · rintro ⟨b, _, ⟨vs, hb, rfl⟩, hall⟩
        simp only [List.all_cons, Bool.and_eq_true] at hall
        exact ⟨b, vs, hb, hall.2⟩

theorem CheckInputs_ok_iff {fScriptChecks : Bool} {balances balances' : TxColoredCoinBalancesMap} :
    (∃ b, CheckInputs E tx inputs fScriptChecks flags balances = .ok b) ↔
      ∃ b vChecks, CheckInputsDeferred tx inputs fScriptChecks flags balances' = .ok (b, vChecks) ∧
        vChecks.all (·.run E) = true := by
  unfold CheckInputs CheckInputsDeferred
  split_ifs
  · exact ⟨fun _ => ⟨balances', [], rfl, rfl⟩, fun _ => ⟨balances, rfl⟩⟩
  · exact checkInputScripts_ok_iff tx.vin 0 balances balances'

end Connect

section Connect

variable {E : ValidationEnv} {history : CXFieldHistoryMap} {fScriptChecks : Bool} {pindex : CBlockIndex}

/-- A round of the transaction loop succeeds in the calling thread exactly
when it succeeds with the checks handed back, to the same state, and the
checks pass. -/
theorem connectTx_ok_iff {i : Nat} {st st' : ConnectState} {tx : CTransaction} :
    connectTx E history fScriptChecks pindex i st tx = .ok st' ↔
      ∃ vChecks, connectTxDeferred E history fScriptChecks pindex i st tx = .ok (st', vChecks) ∧
        vChecks.all (·.run E) = true := by
  unfold connectTx connectTxDeferred
  -- the steps before the scripts are the same
  rcases (if !tx.IsCoinBase then checkFees pindex tx st.view st.nFees else pure st.nFees) with _ | nFees
  · simp
  simp only [ok_bind]
  rcases GetTransactionSigOps tx st.view (GetBlockScriptFlags pindex) with _ | nSigOps
  · simp
  simp only [ok_bind]
  rcases GetMaxBlockSigops history with _ | nMaxSigOps
  · simp
  dsimp only
  by_cases hmax : st.nSigOpsCost + nSigOps > nMaxSigOps.toNat
  · simp [hmax, reject]
  simp only [hmax, if_false]
  -- the scripts: run here, handed back there
  apply bind_drop_ok_iff
  split_ifs
  · exact CheckInputs_ok_iff
  · exact ⟨fun _ => ⟨[], [], rfl, rfl⟩, fun _ => ⟨[], rfl⟩⟩

/-- The transaction loop succeeds in the calling thread exactly when it
succeeds with the checks handed back, to the same state, and they all pass. -/
theorem connectTransactions_ok_iff (txs : List CTransaction) (i : Nat) (st st' : ConnectState) :
    connectTransactions E history fScriptChecks pindex i st txs = .ok st' ↔
      ∃ vChecks, connectTransactionsDeferred E history fScriptChecks pindex i st txs = .ok (st', vChecks) ∧
        vChecks.all (·.run E) = true := by
  induction txs generalizing i st with
  | nil => simp [connectTransactions, connectTransactionsDeferred]
  | cons tx rest ih =>
    rw [connectTransactions, connectTransactionsDeferred]
    constructor
    · intro h
      obtain ⟨st₁, h₁, h₂⟩ := bind_eq_ok h
      obtain ⟨vs₁, h₁', hall₁⟩ := connectTx_ok_iff.1 h₁
      obtain ⟨vs₂, h₂', hall₂⟩ := (ih (i + 1) st₁).1 h₂
      refine ⟨vs₁ ++ vs₂, ?_, by rw [List.all_append, hall₁, hall₂]; rfl⟩
      rw [h₁', ok_bind]
      dsimp only
      rw [h₂']
      rfl
    · rintro ⟨vs, h, hall⟩
      obtain ⟨⟨st₁, vs₁⟩, h₁, h₂⟩ := bind_eq_ok h
      obtain ⟨⟨st₂, vs₂⟩, h₃, h₄⟩ := bind_eq_ok h₂
      cases h₄
      rw [List.all_append, Bool.and_eq_true] at hall
      rw [connectTx_ok_iff.2 ⟨vs₁, h₁, hall.1⟩, ok_bind]
      exact (ih (i + 1) st₁).2 ⟨vs₂, h₃, hall.2⟩

/-- With `control.Wait()` answering whether every check added passes, a
block is connected with script check threads exactly when it is connected
with the scripts run in the calling thread, to the same view and undo
record. -/
theorem ConnectBlockDeferred_eq_ok_iff {tip : Option CBlockIndex} {block : CBlock} {view : CCoinsViewCache}
    {fJustCheck : Bool} {r : CCoinsViewCache × List CTxUndo} :
    ConnectBlockDeferred E history fScriptChecks pindex (fun vChecks => vChecks.all (·.run E)) tip block view
        fJustCheck = .ok r ↔
      ConnectBlock E history fScriptChecks pindex tip block view fJustCheck = .ok r := by
  unfold ConnectBlockDeferred ConnectBlock
  -- the checks before the transactions are the same
  by_cases hhash : pindex.hashBlock ≠ block.GetHash E.C
  · simp [hhash]
  simp only [hhash, if_false]
  rcases CheckBlock E tip history none block (!fJustCheck) (!fJustCheck) with _ | f
  · simp
  simp only [ok_bind]
  by_cases hprev : pindex.hashPrevBlock ≠ view.GetBestBlock
  · simp [hprev]
  simp only [hprev, if_false]
  by_cases hgen : block.GetHash E.C = E.genesisHash
  · simp [hgen]
  simp only [hgen, if_false]
  rcases hvtx : block.vtx with _ | ⟨cb, rest⟩
  · -- no coinbase: both stop
    constructor <;> intro h <;> obtain ⟨_, -, h⟩ := bind_eq_ok h <;> cases h
  constructor
  · intro h
    obtain ⟨⟨st, vs⟩, hloop, h⟩ := bind_eq_ok h
    obtain ⟨cbOut, hout, h⟩ := bind_eq_ok h
    by_cases hpass : vs.all (·.run E) = true
    · rw [(connectTransactions_ok_iff _ _ _ _).2 ⟨vs, hloop, hpass⟩, ok_bind]
      dsimp only
      rw [hout, ok_bind]
      simpa [hpass] using h
    · -- a failed check: "block-validation-failed", or an earlier rejection
      simp only at h
      split_ifs at h <;> simp_all [reject]
  · intro h
    obtain ⟨st, hloop, h⟩ := bind_eq_ok h
    obtain ⟨vs, hloop', hpass⟩ := (connectTransactions_ok_iff _ _ _ _).1 hloop
    obtain ⟨cbOut, hout, h⟩ := bind_eq_ok h
    rw [hloop', ok_bind]
    dsimp only
    rw [hout, ok_bind]
    simpa [hpass] using h

/-- With `Wait` the answer of the script check queue, over any worker
threads, a block is connected exactly when it is connected with the scripts
run in the calling thread, to the same view and undo record. -/
theorem ConnectBlockDeferred_queue_eq_ok_iff {W : Type} [DecidableEq W] [Fintype W] {nBatchSize : Nat}
    {Wait : List CScriptCheckData → Bool} (hWait : CheckQueue.QueueAnswers (CScriptCheckData.run E) W nBatchSize Wait)
    {tip : Option CBlockIndex} {block : CBlock} {view : CCoinsViewCache} {fJustCheck : Bool}
    {r : CCoinsViewCache × List CTxUndo} :
    ConnectBlockDeferred E history fScriptChecks pindex Wait tip block view fJustCheck = .ok r ↔
      ConnectBlock E history fScriptChecks pindex tip block view fJustCheck = .ok r := by
  rw [show Wait = fun vChecks => vChecks.all (·.run E) from funext hWait.eq_all]
  exact ConnectBlockDeferred_eq_ok_iff

end Connect

open CheckQueue in
theorem parallel_checks_conjunction :
    (∀ {T W : Type} [DecidableEq W] [Fintype W] (check : T → Bool) (nBatchSize : Nat) (q : CCheckQueue T W),
      Reachable check (CCheckQueue.init nBatchSize) q → ∀ fRet, q.fRet = some fRet →
        (fRet = true ↔ ∀ c ∈ q.added, check c = true) ∧ (q.ran : Multiset T) ≤ q.added ∧
          q.queue = [] ∧ (∀ t, (q.thread t).pc ≠ .work) ∧ q.nTodo = 0 ∧ q.fAllOk = true) ∧
    (∀ {T W : Type} [DecidableEq W] [Fintype W] (check : T → Bool) (nBatchSize : Nat) (q : CCheckQueue T W),
      Reachable check (CCheckQueue.init nBatchSize) q →
        ∃ q', Reachable check q q' ∧ q'.added = q.added ∧ q'.fRet.isSome) ∧
    (∀ (E : ValidationEnv) (W : Type) [DecidableEq W] [Fintype W] (nBatchSize : Nat),
      QueueAnswers (CScriptCheckData.run E) W nBatchSize (·.all (CScriptCheckData.run E)) ∧
      ∀ Wait, QueueAnswers (CScriptCheckData.run E) W nBatchSize Wait →
        ∀ history fScriptChecks pindex tip block view fJustCheck r,
          ConnectBlockDeferred E history fScriptChecks pindex Wait tip block view fJustCheck = .ok r ↔
            ConnectBlock E history fScriptChecks pindex tip block view fJustCheck = .ok r) :=
  ⟨fun _ _ _ hq _ hret => Wait_result hq hret, fun _ _ _ hq => Wait_returns hq,
    fun _ _ _ _ _ => ⟨queueAnswers_all _, fun _ hWait _ _ _ _ _ _ _ _ => ConnectBlockDeferred_queue_eq_ok_iff hWait⟩⟩

open CheckQueue in
theorem parallel_checks_conjunction_run :
    ∃ q : CCheckQueue Bool Unit, Reachable id (CCheckQueue.init 1) q ∧ q.fRet = some false ∧
      (false = true ↔ ∀ c ∈ q.added, id c = true) :=
  have hq : Reachable id (CCheckQueue.init 1 : CCheckQueue Bool Unit) _ :=
    .step (.lock none) (.step (.run none) (.step (.run none) (.step (.lock none) (.step (.run none)
      (.step (.run none) (.step (.lock none) (.step .wait (.step (.add [true, false]) .init rfl) rfl) rfl) rfl) rfl)
      rfl) rfl) rfl) rfl
  ⟨_, hq, rfl, (parallel_checks_conjunction.1 id 1 _ hq false rfl).1⟩

end Tapyrus
