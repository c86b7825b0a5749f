import Tapyrus.Validation.Tokens
import Tapyrus.TxMemPool
import Tapyrus.CompactBlock
/-!
# Accepting a transaction into the memory pool

`AcceptToMemoryPoolWorker` (`validation.cpp`) with the checks it calls:
`CheckConflictsInMempool`, `DoAllInputsExist`, `CheckFinalTx`,
`CheckSequenceLocks`, `CheckInputsFromMempoolAndCache` and
`LimitMempoolSize`.

The transaction is checked alone (`CheckTransaction`, not a coinbase,
`IsStandardTx`, at least 82 bytes, final), then against the pool (not there,
conflicts only with replaceable transactions), then against the coins the
mempool view (`CCoinsViewMemPool`: the pool's outputs over the chain's
coins) gives its inputs: the colors of its colored outputs, the sequence
locks, `CheckTxInputs`, standard inputs, signature operations, the fees
against the pool's minimum and the relay fee, the ancestor limits, the
replacement rules, the scripts (`CheckInputs`) and the token balances. It
then evicts what it replaces, enters the pool and may be trimmed out again.

`coinsTip` is `pcoinsTip`, the chain's coins, whose best block is the tip;
its cache and the database behind it are one view here, so
`HaveCoinInCache` is `HaveCoin`. The cache `view` the worker builds holds
the coins `DoAllInputsExist` fetched for the inputs, and nothing else is read
from it.
-/

namespace Tapyrus

open Lib CCoinsViewCache

def MIN_STANDARD_TX_SIZE : Nat := 82

def MAX_BIP125_RBF_SEQUENCE : UInt32 := 0xfffffffd

/-- `LOCKTIME_VERIFY_SEQUENCE | LOCKTIME_MEDIAN_TIME_PAST`. -/
def STANDARD_LOCKTIME_VERIFY_FLAGS : Nat := 3

def DEFAULT_MAX_MEMPOOL_SIZE : Nat := 300

/-- `MempoolAcceptanceFlags`. -/
inductive MempoolAcceptanceFlags where
  | NONE
  | BYPASSS_LIMITS
  | TEST_ONLY
  deriving DecidableEq, Repr

/-- What the worker reads besides the pool and the coins: the consensus
environment and the xfield history, the relay policy, the chain tip, the
clock (`GetTime()`, which is also the entry's time), and the node's mempool
settings. Memory use and the decay of the rolling fee are functions of the
pool (see `Tapyrus.TxMemPool`). -/
structure MempoolEnv where
  E : ValidationEnv
  history : CXFieldHistoryMap
  P : RelayPolicy
  tip : CBlockIndex
  nAcceptTime : Int
  nBytesPerSigOp : Nat
  incrementalRelayFee : Int
  /-- `-maxmempool`, in bytes. -/
  maxmempool : Nat
  /-- `-mempoolexpiry`, in seconds. -/
  mempoolexpiry : Int
  limits : AncestorLimits
  fEnableReplacement : Bool
  DynamicMemoryUsage : CTxMemPool → Nat
  decayedMinFee : CTxMemPool → Int

/-- How the worker ends when it does not fail: the pool it leaves (the same
pool for `TEST_ONLY`), or `false` with the input it found missing and the
state valid (`fMissingInputs`: an orphan). -/
inductive AcceptResult where
  | accepted (pool : CTxMemPool)
  | missingInputs (prevout : COutPoint)

/-! ## The checks -/

/-- `CheckFinalTx(tx, STANDARD_LOCKTIME_VERIFY_FLAGS)`: final in the next
block, by the tip's median time past. -/
def CheckFinalTx (tip : CBlockIndex) (tx : CTransaction) : Bool :=
  IsFinalTx tx (tip.nHeight + 1) (tip.ancestorMTP tip.nHeight)

/-- `CheckConflictsInMempool(tx, setConflicts, state)`: the pool
transactions spending an input of `tx`; each must signal replaceability by
an input sequence of at most `MAX_BIP125_RBF_SEQUENCE`. -/
def CheckConflictsInMempool (fEnableReplacement : Bool) (pool : CTxMemPool) :
    List uint256 → List CTxIn → Valid (List uint256)
  | setConflicts, [] => .ok setConflicts
  | setConflicts, txin :: rest =>
    match pool.mapNextTx.lookup txin.prevout with
    | some hashConflicting =>
      if hashConflicting ∈ setConflicts then CheckConflictsInMempool fEnableReplacement pool setConflicts rest else
      let vinConflicting := ((pool.get hashConflicting).map (·.vin)).getD []
      let fReplacementOptOut := !(fEnableReplacement && vinConflicting.any (·.nSequence ≤ MAX_BIP125_RBF_SEQUENCE))
      if fReplacementOptOut then reject "txn-mempool-conflict"
      else CheckConflictsInMempool fEnableReplacement pool (setConflicts.insert hashConflicting) rest
    | none => CheckConflictsInMempool fEnableReplacement pool setConflicts rest

/-- `view.HaveCoin(outpoint)` through the mempool view. -/
def HaveCoinMemPool (pool : CTxMemPool) (coinsTip : CCoinsViewCache) (outpoint : COutPoint) : Bool :=
  ((CCoinsViewMemPool.GetCoin pool coinsTip outpoint).filter (!·.IsSpent)).isSome

/-- `DoAllInputsExist(tx, state, opt, view)`: `none` when every input has a
coin, else the first missing one; "txn-already-known" when the chain already
has an output of the transaction itself. -/
def DoAllInputsExist (pool : CTxMemPool) (coinsTip : CCoinsViewCache) (tx : CTransaction) (hash : uint256) :
    List CTxIn → Valid (Option COutPoint)
  | [] => .ok none
  | txin :: rest =>
    if HaveCoinMemPool pool coinsTip txin.prevout then DoAllInputsExist pool coinsTip tx hash rest
    else if (List.range tx.vout.length).any (fun out => coinsTip.HaveCoin ⟨hash, UInt32.ofNat out⟩) then
      reject "txn-already-known"
    else .ok (some txin.prevout)

/-- The coins `DoAllInputsExist` leaves in the worker's cache: those the
mempool view has for the inputs. -/
def fetchInputs (pool : CTxMemPool) (coinsTip : CCoinsViewCache) (vin : List CTxIn) : CoinsMap :=
  vin.foldl (fun m txin =>
    match CCoinsViewMemPool.GetCoin pool coinsTip txin.prevout with
    | some coin => m.insert txin.prevout coin
    | none => m) ∅

/-- `CheckSequenceLocks(tx, STANDARD_LOCKTIME_VERIFY_FLAGS, viewMemPool,
&lp)`: the lock points when the locks pass in the next block, an input in
the pool counting as confirmed in it; `none` when they do not, or an input
is missing. -/
def CheckSequenceLocks (tip : CBlockIndex) (pool : CTxMemPool) (coinsTip : CCoinsViewCache) (tx : CTransaction) :
    Option LockPoints :=
  match tx.vin.mapM fun txin => CCoinsViewMemPool.GetCoin pool coinsTip txin.prevout with
  | none => none
  | some coins =>
    let prevheights := coins.map fun coin =>
      ((if coin.nHeight = MEMPOOL_HEIGHT then tip.nHeight + 1 else coin.nHeight : Nat) : Int)
    let lockPair := CalculateSequenceLocks tx STANDARD_LOCKTIME_VERIFY_FLAGS prevheights tip.ancestorMTP
    if EvaluateSequenceLocks (tip.nHeight + 1) (tip.ancestorMTP tip.nHeight) lockPair then
      some ⟨lockPair.1, lockPair.2⟩
    else none

/-- `CheckInputsFromMempoolAndCache(tx, state, view, pool, flags)`: the
scripts again under `flags`, after checking that each input's coin is the
pool's output or the chain's coin. A spent coin makes it return false with
no reason, which the worker reports as a bug; unreachable after
`CheckTxInputs`, and failed `assert`s, are both `.abort` here. -/
def CheckInputsFromMempoolAndCache (E : ValidationEnv) (pool : CTxMemPool) (coinsTip : CCoinsViewCache)
    (tx : CTransaction) (view : CCoinsViewCache) (flags : UInt32) : Valid TxColoredCoinBalancesMap :=
  if tx.IsCoinBase then .error .abort else
  let coinMatches := fun txin : CTxIn =>
    let coin := view.AccessCoin txin.prevout
    !coin.IsSpent &&
      match pool.get txin.prevout.hashMalFix with
      | some txFrom => txFrom.vout[txin.prevout.n.toNat]? == some coin.out
      | none =>
        let coinFromDisk := coinsTip.AccessCoin txin.prevout
        !coinFromDisk.IsSpent && coinFromDisk.out == coin.out
  if !tx.vin.all coinMatches then .error .abort
  else CheckInputs E tx view true flags []

/-- `maxDescendantsToVisit`. -/
def maxDescendantsToVisit : Int := 100

/-- The loop over the conflicts in the replacement rules: each direct
conflict must pay a lower fee rate than the replacement; collect the
conflicts, their inputs' transaction ids, and their descendant counts. -/
def conflictLoop (nBytesPerSigOp : Nat) (pool : CTxMemPool) (newFeeRate : Int) :
    List uint256 → List uint256 × List uint256 × Int → Valid (List uint256 × List uint256 × Int)
  | [], acc => .ok acc
  | hashConflicting :: rest, (setIterConflicting, setConflictsParents, nConflictingCount) =>
    match pool.mapTx.lookup hashConflicting with
    | none => conflictLoop nBytesPerSigOp pool newFeeRate rest (setIterConflicting, setConflictsParents, nConflictingCount)
    | some mi =>
      if newFeeRate ≤ CFeeRate.ofFee mi.GetModifiedFee (mi.GetTxSize nBytesPerSigOp) then reject "insufficient fee"
      else conflictLoop nBytesPerSigOp pool newFeeRate rest
        (setIterConflicting.insert hashConflicting,
          mi.tx.vin.foldl (fun s txin => s.insert txin.prevout.hashMalFix) setConflictsParents,
          nConflictingCount + mi.nCountWithDescendants)

/-- The replacement rules for a transaction with conflicts: a higher fee
rate than each, at most 100 transactions evicted, no new unconfirmed input,
and fees covering the evicted ones' plus its own relay. The evicted
transactions and their fees. -/
def checkReplacement (S : MempoolEnv) (pool : CTxMemPool) (tx : CTransaction) (setConflicts : List uint256)
    (nModifiedFees : Int) (nSize : Nat) : Valid (List uint256 × Int) := do
  let newFeeRate := CFeeRate.ofFee nModifiedFees nSize
  let (setIterConflicting, setConflictsParents, nConflictingCount) ←
    conflictLoop S.nBytesPerSigOp pool newFeeRate setConflicts ([], [], 0)
  if nConflictingCount > maxDescendantsToVisit then reject "too many potential replacements" else
  let allConflicting := setIterConflicting.foldl (fun s it => pool.CalculateDescendants it s) []
  let nConflictingFees := (allConflicting.map pool.modFeeOf).sum
  if tx.vin.any (fun txin =>
      !setConflictsParents.contains txin.prevout.hashMalFix && pool.exists txin.prevout.hashMalFix) then
    reject "replacement-adds-unconfirmed"
  else if nModifiedFees < nConflictingFees then reject "insufficient fee"
  else if nModifiedFees - nConflictingFees < CFeeRate.GetFee S.incrementalRelayFee nSize then
    reject "insufficient fee"
  else pure (allConflicting, nConflictingFees)

/-- What passed the checks: the transaction's id, its entry, its in-pool
ancestors, and the pool transactions it replaces. -/
structure Staged where
  hash : uint256
  entry : CTxMemPoolEntry
  setAncestors : List uint256
  allConflicting : List uint256

/-- The worker up to `VerifyTokenBalances`: everything it checks before it
touches the pool, and what it then adds; or the missing input. -/
def PreChecks (S : MempoolEnv) (pool : CTxMemPool) (coinsTip : CCoinsViewCache) (tx : CTransaction)
    (flags : MempoolAcceptanceFlags) (nAbsurdFee : Int) : Valid (Except COutPoint Staged) := do
  let hash := tx.GetHashMalFix S.E.C
  CheckTransaction S.history tx true
  -- the checks of the transaction alone
  if tx.IsCoinBase then reject "coinbase" else
  match IsStandardTx S.P tx with
  | .error reason => reject reason
  | .ok () =>
  if tx.GetSerializeSize < MIN_STANDARD_TX_SIZE then reject "tx-size-small" else
  if !CheckFinalTx S.tip tx then reject "non-final" else
  -- against the pool
  if pool.exists hash then reject "txn-already-in-mempool" else
  let setConflicts ← CheckConflictsInMempool S.fEnableReplacement pool [] tx.vin
  match ← DoAllInputsExist pool coinsTip tx hash tx.vin with
  | some prevout => pure (.error prevout)
  | none =>
  -- against the coins of its inputs
  let view : CCoinsViewCache := ⟨fetchInputs pool coinsTip tx.vin, coinsTip.GetBestBlock⟩
  if !CheckColorIdentifierValidity S.E.C tx view then reject "invalid-colorid" else
  let some lp := CheckSequenceLocks S.tip pool coinsTip tx | reject "non-BIP68-final"
  let nFees ← CheckTxInputs tx view (S.tip.nHeight + 1)
  if !AreInputsStandard S.E.C tx view then reject "bad-txns-nonstandard-inputs" else
  let nSigOps ← GetTransactionSigOps tx view STANDARD_SCRIPT_VERIFY_FLAGS
  let nModifiedFees := pool.ApplyDelta hash nFees
  let fSpendsCoinbase := tx.vin.any fun txin => (view.AccessCoin txin.prevout).fCoinBase
  let entry := CTxMemPoolEntry.create S.nBytesPerSigOp tx nFees S.nAcceptTime S.tip.nHeight fSpendsCoinbase nSigOps lp
  let nSize := entry.GetTxSize S.nBytesPerSigOp
  -- the fees
  let mempoolRejectFee := CFeeRate.GetFee (pool.GetMinFee S.decayedMinFee) nSize
  if flags ≠ .BYPASSS_LIMITS && mempoolRejectFee > 0 && nModifiedFees < mempoolRejectFee then
    reject "mempool min fee not met" else
  if flags ≠ .BYPASSS_LIMITS && nModifiedFees < CFeeRate.GetFee S.P.minRelayTxFee nSize then
    reject "min relay fee not met" else
  if nAbsurdFee ≠ 0 && nFees > nAbsurdFee then reject "absurdly-high-fee" else
  -- the package limits and the replacement rules
  match CTxMemPool.CalculateMemPoolAncestors S.nBytesPerSigOp pool entry hash S.limits true with
  | .error _ => reject "too-long-mempool-chain"
  | .ok setAncestors =>
  if setAncestors.any (· ∈ setConflicts) then reject "bad-txns-spends-conflicting-tx" else
  let (allConflicting, _) ←
    if setConflicts.isEmpty then pure ([], 0) else checkReplacement S pool tx setConflicts nModifiedFees nSize
  -- the scripts, last
  let inColoredCoinBalances ← CheckInputs S.E tx view true STANDARD_SCRIPT_VERIFY_FLAGS []
  let _ ← CheckInputsFromMempoolAndCache S.E pool coinsTip tx view SCRIPT_VERIFY_NONE
  VerifyTokenBalances tx inColoredCoinBalances (CFeeRate.GetFee S.P.minRelayTxFee nSize)
  pure (.ok ⟨hash, entry, setAncestors, allConflicting⟩)

/-- `LimitMempoolSize(pool, limit, age)`: expire the entries older than
`age`, then trim to `limit` bytes. -/
def LimitMempoolSize (S : MempoolEnv) (pool : CTxMemPool) : CTxMemPool :=
  (pool.Expire S.nBytesPerSigOp (S.nAcceptTime - S.mempoolexpiry)).TrimToSize S.nBytesPerSigOp S.incrementalRelayFee
    S.DynamicMemoryUsage S.maxmempool

/-- `LimitMempoolSize` keeps a pool none of whose entries is past the expiry
age and that uses no more than the limit. -/
theorem LimitMempoolSize_eq_self (S : MempoolEnv) (pool : CTxMemPool)
    (hexpiry : ∀ e ∈ pool.mapTx.entries, S.nAcceptTime - S.mempoolexpiry ≤ e.2.nTime)
    (hsize : S.DynamicMemoryUsage pool ≤ S.maxmempool) : LimitMempoolSize S pool = pool := by
  rw [LimitMempoolSize, CTxMemPool.Expire_eq_self _ _ _ hexpiry, CTxMemPool.TrimToSize_eq_self _ _ _ _ _ hsize]

/-- `AcceptToMemoryPoolWorker(ptx, opt)`. -/
def AcceptToMemoryPoolWorker (S : MempoolEnv) (pool : CTxMemPool) (coinsTip : CCoinsViewCache) (tx : CTransaction)
    (flags : MempoolAcceptanceFlags) (nAbsurdFee : Int) : Valid AcceptResult := do
  match ← PreChecks S pool coinsTip tx flags nAbsurdFee with
  | .error prevout => pure (.missingInputs prevout)
  | .ok staged =>
    if flags = .TEST_ONLY then pure (.accepted pool) else
    let pool := (pool.RemoveStaged S.nBytesPerSigOp staged.allConflicting false).addUnchecked S.nBytesPerSigOp
      staged.hash staged.entry staged.setAncestors
    if flags ≠ .BYPASSS_LIMITS then
      let pool := LimitMempoolSize S pool
      if !pool.exists staged.hash then reject "mempool full" else pure (.accepted pool)
    else pure (.accepted pool)

/-! ## Two copies of one NFT

`CheckColorIdentifierValidity` matches each output's color against the
inputs alone, and `VerifyTokenBalances` counts a color no input carries as
issued; neither counts the outputs of an NFT color. One coin of the chain
view therefore issues its NFT twice in one transaction, and the pool then
offers two coins of that color. -/

def nftPrevout : COutPoint := ⟨⟨List.replicate 32 0xcc, by simp⟩, 0⟩

def nftIssuerCoin : Coin := ⟨⟨100000, [OP_1]⟩, false, 1⟩

def nftChainView : CCoinsViewCache := ⟨(∅ : CoinsMap).insert nftPrevout nftIssuerCoin, Blob.zero 32⟩

def nftColor : ColorIdentifier := ColorIdentifier.ofOutPoint truncCrypto.sha256 nftPrevout .NFT

/-- Spends the issuer coin into two outputs of its NFT color. -/
def nftTx : CTransaction :=
  ⟨[⟨nftPrevout, [], 0xffffffff, []⟩],
    [⟨1, coloredAnyoneCanSpend nftColor⟩, ⟨1, coloredAnyoneCanSpend nftColor⟩], 1, 0⟩

def nftTip : CBlockIndex := ⟨1, Blob.zero 32, Blob.zero 32, fun _ => 0⟩

/-- The default relay policy and limits (`-limitancestorcount` 25 and so on),
at time 0; memory accounting and the fee decay stay parameters. -/
def nftEnv (DynamicMemoryUsage : CTxMemPool → Nat) (decayedMinFee : CTxMemPool → Int) : MempoolEnv :=
  ⟨wideEnv, wideHistory MAX_BLOCK_SIZE, RelayPolicy.default, nftTip, 0, 20, 1000, DEFAULT_MAX_MEMPOOL_SIZE * 1000000,
    336 * 60 * 60, ⟨25, 101000, 25, 101000⟩, true, DynamicMemoryUsage, decayedMinFee⟩

def nftEntry : CTxMemPoolEntry := CTxMemPoolEntry.create 20 nftTx 100000 0 1 false 0 ⟨-1, -1⟩

/-- Every check before the pool is touched passes. -/
theorem PreChecks_nft (u : CTxMemPool → Nat) (d : CTxMemPool → Int) :
    PreChecks (nftEnv u d) (CTxMemPool.empty 0) nftChainView nftTx .NONE 0 =
      .ok (.ok ⟨nftTx.GetHashMalFix truncCrypto, nftEntry, [], []⟩) := by
  -- the environment's fields
  have hE : (nftEnv u d).E = wideEnv := rfl
  have hC : wideEnv.C = truncCrypto := rfl
  have hhist : (nftEnv u d).history = wideHistory MAX_BLOCK_SIZE := rfl
  have hP : (nftEnv u d).P = RelayPolicy.default := rfl
  have htip : (nftEnv u d).tip = nftTip := rfl
  have hrepl : (nftEnv u d).fEnableReplacement = true := rfl
  have hbytes : (nftEnv u d).nBytesPerSigOp = 20 := rfl
  have hlimits : (nftEnv u d).limits = ⟨25, 101000, 25, 101000⟩ := rfl
  have htime : (nftEnv u d).nAcceptTime = 0 := rfl
  -- the transaction alone
  have hcheck : CheckTransaction (wideHistory MAX_BLOCK_SIZE) nftTx true = .ok () := by decide +kernel
  have hcb : nftTx.IsCoinBase = false := by decide +kernel
  have hstd : IsStandardTx RelayPolicy.default nftTx = .ok () := by decide +kernel
  have hsize : ¬ nftTx.GetSerializeSize < MIN_STANDARD_TX_SIZE := by decide +kernel
  have hfinal : CheckFinalTx nftTip nftTx = true := by decide +kernel
  -- against the empty pool and the chain view
  have hexists : (CTxMemPool.empty 0).exists (nftTx.GetHashMalFix truncCrypto) = false := rfl
  have hconf : CheckConflictsInMempool true (CTxMemPool.empty 0) [] nftTx.vin = .ok [] := by decide +kernel
  have hinputs : DoAllInputsExist (CTxMemPool.empty 0) nftChainView nftTx (nftTx.GetHashMalFix truncCrypto)
      nftTx.vin = .ok none := by decide +kernel
  have hview : (⟨fetchInputs (CTxMemPool.empty 0) nftChainView nftTx.vin, nftChainView.GetBestBlock⟩ :
      CCoinsViewCache) = nftChainView := by decide +kernel
  -- each output's NFT color is the issuer coin's, and each is matched to it on
  -- its own: the check sees no second copy
  have hcolor : CheckColorIdentifierValidity truncCrypto nftTx nftChainView = true := by
    have hin : (⟨nftPrevout, [], 0xffffffff, []⟩ : CTxIn) ∈ nftTx.vin := by simp [nftTx]
    have hscript : GetColorIdFromScript (coloredAnyoneCanSpend nftColor) = nftColor := by decide +kernel
    refine CheckColorIdentifierValidity_of_nft_issuer truncCrypto hin (by decide +kernel) (by decide +kernel) ?_
    intro txout htx _
    simp only [nftTx, List.mem_cons, List.not_mem_nil, or_false] at htx
    rcases htx with rfl | rfl <;> exact ⟨hscript, rfl⟩
  have hlocks : CheckSequenceLocks nftTip (CTxMemPool.empty 0) nftChainView nftTx = some ⟨-1, -1⟩ := by
    decide +kernel
  have hfees : CheckTxInputs nftTx nftChainView (nftTip.nHeight + 1) = .ok 100000 := by decide +kernel
  have hstdin : AreInputsStandard truncCrypto nftTx nftChainView = true := by decide +kernel
  have hsigops : GetTransactionSigOps nftTx nftChainView STANDARD_SCRIPT_VERIFY_FLAGS = .ok 0 := by decide +kernel
  have hcoinbase : (nftTx.vin.any fun txin => (nftChainView.AccessCoin txin.prevout).fCoinBase) = false := by
    decide +kernel
  -- the fees and the package
  have hdelta : (CTxMemPool.empty 0).ApplyDelta (nftTx.GetHashMalFix truncCrypto) 100000 = 100000 := rfl
  have hentry : CTxMemPoolEntry.create 20 nftTx 100000 0 nftTip.nHeight false 0 ⟨-1, -1⟩ = nftEntry := rfl
  have hminfee : (CTxMemPool.empty 0).GetMinFee (nftEnv u d).decayedMinFee = 0 := rfl
  have hnofee : CFeeRate.GetFee 0 (nftEntry.GetTxSize 20) = 0 := by decide +kernel
  have hrelay : CFeeRate.GetFee RelayPolicy.default.minRelayTxFee (nftEntry.GetTxSize 20) = 141 := by decide +kernel
  have hancestors : CTxMemPool.CalculateMemPoolAncestors 20 (CTxMemPool.empty 0) nftEntry
      (nftTx.GetHashMalFix truncCrypto) ⟨25, 101000, 25, 101000⟩ true = .ok [] := by decide +kernel
  -- the scripts, and the balances: the two outputs count as one issue
  have hscripts : CheckInputs wideEnv nftTx nftChainView true STANDARD_SCRIPT_VERIFY_FLAGS [] =
      .ok [(ColorIdentifier.none, 100000)] := by decide +kernel
  have hrecheck : CheckInputsFromMempoolAndCache wideEnv (CTxMemPool.empty 0) nftChainView nftTx nftChainView
      SCRIPT_VERIFY_NONE = .ok [(ColorIdentifier.none, 100000)] := by decide +kernel
  have htokens : VerifyTokenBalances nftTx [(ColorIdentifier.none, 100000)] 141 = .ok () := by
    -- the two outputs add up to one balance of a color no input carries: an
    -- issue, whose amount is not looked at
    have hout : outColoredCoinBalances nftTx = [(nftColor, 2)] := by decide +kernel
    rw [VerifyTokenBalances, hout, if_neg (by decide +kernel)]
    exact matchBalances_of_fresh (by decide +kernel) (by decide +kernel) _ (by decide +kernel)
  simp only [PreChecks, hE, hC, hhist, hP, htip, hrepl, hbytes, hcheck, ok_bind, hcb, Bool.false_eq_true, if_false,
    hstd, hsize, hfinal, Bool.not_true, hexists, hconf, hinputs, hview, hcolor, hlocks, hfees, hstdin, hsigops,
    hlimits, htime, hcoinbase, hdelta, hentry, hminfee, hnofee, hrelay, hancestors, hscripts, hrecheck, htokens]
  simp [pure, Except.pure]

/-- The pool after `nftTx` is added. -/
def nftPool : CTxMemPool :=
  (CTxMemPool.empty 0).addUnchecked 20 (nftTx.GetHashMalFix truncCrypto) nftEntry []

/-- From a chain view holding no colored coin, the worker accepts a
transaction that issues one NFT twice, whenever a one-entry pool fits the
memory limit; the pool's view then holds two coins of that NFT color. -/
theorem AcceptToMemoryPoolWorker_copies_nft (DynamicMemoryUsage : CTxMemPool → Nat)
    (decayedMinFee : CTxMemPool → Int)
    (husage : ∀ pool : CTxMemPool, pool.size ≤ 1 → DynamicMemoryUsage pool ≤ DEFAULT_MAX_MEMPOOL_SIZE * 1000000) :
    (∀ o coin, nftChainView.coins.lookup o = some coin → (GetColorIdFromScript coin.out.scriptPubKey).type = .NONE) ∧
      nftColor.type = .NFT ∧ GetColorIdFromScript (coloredAnyoneCanSpend nftColor) = nftColor ∧
      ∃ pool, AcceptToMemoryPoolWorker (nftEnv DynamicMemoryUsage decayedMinFee) (CTxMemPool.empty 0) nftChainView
          nftTx .NONE 0 = .ok (.accepted pool) ∧
        CCoinsViewMemPool.GetCoin pool nftChainView ⟨nftTx.GetHashMalFix truncCrypto, 0⟩ =
          some ⟨⟨1, coloredAnyoneCanSpend nftColor⟩, false, MEMPOOL_HEIGHT⟩ ∧
        CCoinsViewMemPool.GetCoin pool nftChainView ⟨nftTx.GetHashMalFix truncCrypto, 1⟩ =
          some ⟨⟨1, coloredAnyoneCanSpend nftColor⟩, false, MEMPOOL_HEIGHT⟩ := by
  have hchain : ∀ o coin, nftChainView.coins.lookup o = some coin →
      (GetColorIdFromScript coin.out.scriptPubKey).type = .NONE := by
    intro o coin h
    have hcoin : coin = nftIssuerCoin := by
      by_cases ho : o = nftPrevout
      · subst ho
        simp only [nftChainView, AList.lookup_insert, Option.some.injEq] at h
        exact h.symm
      · simp only [nftChainView, AList.lookup_insert_ne ho, AList.lookup_empty, reduceCtorEq] at h
    subst hcoin
    decide +kernel
  have hcolor : GetColorIdFromScript (coloredAnyoneCanSpend nftColor) = nftColor := by decide +kernel
  -- the new pool neither expires nor trims its one entry
  have hexpiry : ∀ e ∈ nftPool.mapTx.entries, (0 : Int) - 336 * 60 * 60 ≤ e.2.nTime := by decide +kernel
  have hsize : nftPool.size ≤ 1 := by decide +kernel
  have hlimit : LimitMempoolSize (nftEnv DynamicMemoryUsage decayedMinFee) nftPool = nftPool :=
    LimitMempoolSize_eq_self _ _ hexpiry (husage _ hsize)
  have hget : nftPool.get (nftTx.GetHashMalFix truncCrypto) = some nftTx := by
    rw [nftPool, CTxMemPool.get_addUnchecked, if_pos rfl]
    rfl
  have hexists : nftPool.exists (nftTx.GetHashMalFix truncCrypto) = true := CTxMemPool.exists_addUnchecked _ _ _ _ _
  refine ⟨hchain, rfl, hcolor, nftPool, ?_, ?_, ?_⟩
  · unfold AcceptToMemoryPoolWorker
    rw [PreChecks_nft, ok_bind]
    dsimp only
    rw [if_neg (by decide), if_pos (by decide)]
    have hpool : (CTxMemPool.empty 0).addUnchecked (nftEnv DynamicMemoryUsage decayedMinFee).nBytesPerSigOp
        (nftTx.GetHashMalFix truncCrypto) nftEntry [] = nftPool := rfl
    simp only [CTxMemPool.RemoveStaged_nil, hpool, hlimit, hexists, Bool.not_true, Bool.false_eq_true, if_false]
    rfl
  -- both outputs are coins of the pool's view
  · rw [CCoinsViewMemPool.GetCoin]
    dsimp only
    rw [hget]
    rfl
  · rw [CCoinsViewMemPool.GetCoin]
    dsimp only
    rw [hget]
    rfl

theorem AcceptToMemoryPoolWorker_copies_nft_free :
    (∀ pool : CTxMemPool, pool.size ≤ 1 → (fun _ => 0 : CTxMemPool → Nat) pool ≤ DEFAULT_MAX_MEMPOOL_SIZE * 1000000) ∧
    ((∀ o coin, nftChainView.coins.lookup o = some coin → (GetColorIdFromScript coin.out.scriptPubKey).type = .NONE) ∧
      nftColor.type = .NFT ∧ GetColorIdFromScript (coloredAnyoneCanSpend nftColor) = nftColor ∧
      ∃ pool, AcceptToMemoryPoolWorker (nftEnv (fun _ => 0) (fun _ => 0)) (CTxMemPool.empty 0) nftChainView
          nftTx .NONE 0 = .ok (.accepted pool) ∧
        CCoinsViewMemPool.GetCoin pool nftChainView ⟨nftTx.GetHashMalFix truncCrypto, 0⟩ =
          some ⟨⟨1, coloredAnyoneCanSpend nftColor⟩, false, MEMPOOL_HEIGHT⟩ ∧
        CCoinsViewMemPool.GetCoin pool nftChainView ⟨nftTx.GetHashMalFix truncCrypto, 1⟩ =
          some ⟨⟨1, coloredAnyoneCanSpend nftColor⟩, false, MEMPOOL_HEIGHT⟩) :=
  have husage : ∀ pool : CTxMemPool, pool.size ≤ 1 →
      (fun _ => 0 : CTxMemPool → Nat) pool ≤ DEFAULT_MAX_MEMPOOL_SIZE * 1000000 := fun _ _ => Nat.zero_le _
  ⟨husage, AcceptToMemoryPoolWorker_copies_nft _ _ husage⟩

end Tapyrus
