import Tapyrus.Policy
/-!
# The memory pool's bookkeeping

`CTxMemPoolEntry` and `CTxMemPool` (`txmempool.h`, `txmempool.cpp`): the
entries by transaction id (`mapTx`), the in-pool parent and child links
(`mapLinks`), which pool transaction spends each outpoint (`mapNextTx`), the
fee deltas of `PrioritiseTransaction` (`mapDeltas`), the total size, and the
rolling minimum fee.

Each entry carries sums over its in-pool ancestors and its in-pool
descendants (count, size, modified fee, and for ancestors signature
operations), which `addUnchecked` and the removals keep up to date step by
step. `CTxMemPool::check` recomputes them from the links.

A `setEntries` (a `std::set` of iterators, in address order) is a list of
ids without repetition here, read in list order. The order decides which
limit `CalculateMemPoolAncestors` reports when several are exceeded, never
whether it fails; the sums do not depend on it.

Not modelled: memory accounting (`DynamicMemoryUsage`, `cachedInnerUsage`),
which `TrimToSize` reads through a function of the pool it is handed; the
decay of the rolling minimum fee in `GetMinFee`, a halving by a
double-precision power of the time elapsed, also handed in; `vTxHashes`,
`nTransactionsUpdated` and the fee estimator, which nothing modelled reads;
the `assert`s of `UpdateDescendantState` and `UpdateAncestorState`.

The worklists run on fuel, the number of entries in the pool: each round
moves an entry that was not there into the result.
-/

namespace Tapyrus

open Lib

/-- `LockPoints`: the height and time a transaction's sequence locks need.
(`maxInputBlock`, which `removeForReorg` tests against the active chain, is
not modelled.) -/
structure LockPoints where
  height : Int
  time : Int
  deriving DecidableEq, Repr

/-- `GetTransactionSize(nSize, nSigOpCost)`: the size, or the signature
operations at `nBytesPerSigOp` bytes each when that is more. -/
def GetTransactionSize (nBytesPerSigOp : Nat) (nSize nSigOpCost : Nat) : Nat :=
  max nSize (nSigOpCost * nBytesPerSigOp)

/-- `CTxMemPoolEntry`: a pool transaction with what was computed when it
entered, its fee delta, and the sums over its in-pool descendants and
ancestors (each counting the entry itself). -/
structure CTxMemPoolEntry where
  tx : CTransaction
  nFee : Int
  /-- `GetSerializeSize(tx)`. -/
  nTxSize : Nat
  nTime : Int
  entryHeight : Nat
  spendsCoinbase : Bool
  sigOpCost : Nat
  lockPoints : LockPoints
  feeDelta : Int
  nCountWithDescendants : Int
  nSizeWithDescendants : Int
  nModFeesWithDescendants : Int
  nCountWithAncestors : Int
  nSizeWithAncestors : Int
  nModFeesWithAncestors : Int
  nSigOpCostWithAncestors : Int
  deriving DecidableEq, Repr

namespace CTxMemPoolEntry

variable (nBytesPerSigOp : Nat)

/-- `GetTxSize()`. -/
def GetTxSize (e : CTxMemPoolEntry) : Nat := GetTransactionSize nBytesPerSigOp e.nTxSize e.sigOpCost

/-- `GetModifiedFee()`: the fee plus the delta. -/
def GetModifiedFee (e : CTxMemPoolEntry) : Int := e.nFee + e.feeDelta

/-- The constructor: no fee delta yet, and the entry alone as its
descendants and its ancestors. -/
def create (tx : CTransaction) (nFee : Int) (nTime : Int) (entryHeight : Nat) (spendsCoinbase : Bool)
    (sigOpCost : Nat) (lp : LockPoints) : CTxMemPoolEntry :=
  let nTxSize := tx.GetSerializeSize
  let size : Int := GetTransactionSize nBytesPerSigOp nTxSize sigOpCost
  ⟨tx, nFee, nTxSize, nTime, entryHeight, spendsCoinbase, sigOpCost, lp, 0, 1, size, nFee, 1, size, nFee, sigOpCost⟩

/-- `UpdateFeeDelta(newFeeDelta)`: both fee sums move by the change. -/
def UpdateFeeDelta (newFeeDelta : Int) (e : CTxMemPoolEntry) : CTxMemPoolEntry :=
  { e with nModFeesWithDescendants := e.nModFeesWithDescendants + (newFeeDelta - e.feeDelta),
           nModFeesWithAncestors := e.nModFeesWithAncestors + (newFeeDelta - e.feeDelta),
           feeDelta := newFeeDelta }

/-- `UpdateDescendantState(modifySize, modifyFee, modifyCount)`. -/
def UpdateDescendantState (modifySize modifyFee modifyCount : Int) (e : CTxMemPoolEntry) : CTxMemPoolEntry :=
  { e with nSizeWithDescendants := e.nSizeWithDescendants + modifySize,
           nModFeesWithDescendants := e.nModFeesWithDescendants + modifyFee,
           nCountWithDescendants := e.nCountWithDescendants + modifyCount }

/-- `UpdateAncestorState(modifySize, modifyFee, modifyCount, modifySigOps)`. -/
def UpdateAncestorState (modifySize modifyFee modifyCount modifySigOps : Int) (e : CTxMemPoolEntry) :
    CTxMemPoolEntry :=
  { e with nSizeWithAncestors := e.nSizeWithAncestors + modifySize,
           nModFeesWithAncestors := e.nModFeesWithAncestors + modifyFee,
           nCountWithAncestors := e.nCountWithAncestors + modifyCount,
           nSigOpCostWithAncestors := e.nSigOpCostWithAncestors + modifySigOps }

end CTxMemPoolEntry

/-- `TxLinks`: an entry's in-pool parents and children. -/
structure TxLinks where
  parents : List uint256
  children : List uint256
  deriving DecidableEq, Repr

/-- `CTxMemPool`'s state. `mapNextTx` maps an outpoint to the id of the pool
transaction that spends it. -/
structure CTxMemPool where
  mapTx : AList (fun _ : uint256 => CTxMemPoolEntry)
  mapLinks : AList (fun _ : uint256 => TxLinks)
  mapNextTx : AList (fun _ : COutPoint => uint256)
  mapDeltas : AList (fun _ : uint256 => Int)
  totalTxSize : Int
  rollingMinimumFeeRate : Int
  blockSinceLastRollingFeeBump : Bool
  lastRollingFeeUpdate : Int

/-- `CFeeRate(nFeePaid, nBytes)`: the fee per 1000 bytes, rounded toward
zero; zero for no bytes. -/
def CFeeRate.ofFee (nFeePaid : Int) (nBytes : Int) : Int :=
  if nBytes > 0 then (nFeePaid * 1000).tdiv nBytes else 0

/-- The limits `CalculateMemPoolAncestors` checks, in bytes for sizes. -/
structure AncestorLimits where
  limitAncestorCount : Nat
  limitAncestorSize : Nat
  limitDescendantCount : Nat
  limitDescendantSize : Nat

/-- `nNoLimit` for all four: `std::numeric_limits<uint64_t>::max()`. -/
def AncestorLimits.noLimit : AncestorLimits := ⟨2 ^ 64 - 1, 2 ^ 64 - 1, 2 ^ 64 - 1, 2 ^ 64 - 1⟩

/-- What `CalculateMemPoolAncestors` writes to `errString` when it fails:
the limit, and the ancestor whose descendants are too many or too large. -/
inductive AncestorError where
  | tooManyParents (limit : Nat)
  | descendantSize (hash : uint256) (limit : Nat)
  | tooManyDescendants (hash : uint256) (limit : Nat)
  | ancestorSize (limit : Nat)
  | tooManyAncestors (limit : Nat)
  deriving DecidableEq, Repr

/-- `exists(hash)`. -/
def CTxMemPool.exists (pool : CTxMemPool) (hash : uint256) : Bool := (pool.mapTx.lookup hash).isSome

namespace CTxMemPool

/-- `_clear()`: the empty pool, with the fee update time set to now. -/
def empty (nTime : Int) : CTxMemPool := ⟨∅, ∅, ∅, ∅, 0, 0, false, nTime⟩

/-- `mapTx.size()`. -/
def size (pool : CTxMemPool) : Nat := pool.mapTx.entries.length

/-- `get(hash)`. -/
def get (pool : CTxMemPool) (hash : uint256) : Option CTransaction := (pool.mapTx.lookup hash).map (·.tx)

/-- `GetMemPoolParents(entry)`. -/
def GetMemPoolParents (pool : CTxMemPool) (h : uint256) : List uint256 :=
  ((pool.mapLinks.lookup h).map TxLinks.parents).getD []

/-- `GetMemPoolChildren(entry)`. -/
def GetMemPoolChildren (pool : CTxMemPool) (h : uint256) : List uint256 :=
  ((pool.mapLinks.lookup h).map TxLinks.children).getD []

/-- `mapTx.modify(it, f)` for the entry of `h`. -/
def modifyEntry (pool : CTxMemPool) (h : uint256) (f : CTxMemPoolEntry → CTxMemPoolEntry) : CTxMemPool :=
  match pool.mapTx.lookup h with
  | some e => { pool with mapTx := pool.mapTx.insert h (f e) }
  | none => pool

/-- `f` applied to the entry of each id in turn. -/
def modifyEntries (pool : CTxMemPool) (hs : List uint256) (f : CTxMemPoolEntry → CTxMemPoolEntry) : CTxMemPool :=
  hs.foldl (fun pool h => pool.modifyEntry h f) pool

/-- `mapLinks[h]` changed by `f`; the operator creates empty links when
there are none. -/
def modifyLinks (pool : CTxMemPool) (h : uint256) (f : TxLinks → TxLinks) : CTxMemPool :=
  { pool with mapLinks := pool.mapLinks.insert h (f ((pool.mapLinks.lookup h).getD ⟨[], []⟩)) }

/-- `UpdateChild(entry, child, add)`. -/
def UpdateChild (pool : CTxMemPool) (entry child : uint256) (add : Bool) : CTxMemPool :=
  pool.modifyLinks entry fun l =>
    { l with children := if add then l.children.insert child else l.children.erase child }

/-- `UpdateParent(entry, parent, add)`. -/
def UpdateParent (pool : CTxMemPool) (entry parent : uint256) (add : Bool) : CTxMemPool :=
  pool.modifyLinks entry fun l =>
    { l with parents := if add then l.parents.insert parent else l.parents.erase parent }

variable (nBytesPerSigOp : Nat)

/-- The size of the entry of `h`, `GetTxSize()` (0 for an id with no
entry, which a consistent pool never hands out). -/
def txSizeOf (pool : CTxMemPool) (h : uint256) : Int :=
  ((pool.mapTx.lookup h).map (CTxMemPoolEntry.GetTxSize nBytesPerSigOp ·)).getD 0

/-- `GetModifiedFee()` of the entry of `h`. -/
def modFeeOf (pool : CTxMemPool) (h : uint256) : Int :=
  ((pool.mapTx.lookup h).map CTxMemPoolEntry.GetModifiedFee).getD 0

/-- `GetSigOpCost()` of the entry of `h`. -/
def sigOpCostOf (pool : CTxMemPool) (h : uint256) : Int :=
  ((pool.mapTx.lookup h).map (·.sigOpCost : CTxMemPoolEntry → Int)).getD 0

/-! ## Descendants -/

/-- The loop of `CalculateDescendants`: take an entry off the stage, add it
to the result, and stage those of its children the result does not hold. -/
def descendantsLoop (pool : CTxMemPool) : Nat → List uint256 → List uint256 → List uint256
  | 0, _, setDescendants => setDescendants
  | _, [], setDescendants => setDescendants
  | fuel + 1, it :: stage, setDescendants =>
    let setDescendants := setDescendants.insert it
    let stage := (pool.GetMemPoolChildren it).foldl
      (fun stage childiter => if childiter ∈ setDescendants then stage else stage.insert childiter) stage
    descendantsLoop pool fuel stage setDescendants

/-- `CalculateDescendants(entryit, setDescendants)`: `setDescendants` with
the entry and its in-pool descendants added (those already there are taken
to have theirs there too). -/
def CalculateDescendants (pool : CTxMemPool) (entryit : uint256) (setDescendants : List uint256) : List uint256 :=
  descendantsLoop pool pool.size (if entryit ∈ setDescendants then [] else [entryit]) setDescendants

/-! ## Ancestors -/

/-- The parents of a new transaction: the pool entries its inputs spend,
with at most `limitAncestorCount - 1` of them. -/
def searchParents (pool : CTxMemPool) (limitAncestorCount : Nat) :
    List uint256 → List CTxIn → Except AncestorError (List uint256)
  | parentHashes, [] => .ok parentHashes
  | parentHashes, txin :: rest =>
    if pool.exists txin.prevout.hashMalFix then
      let parentHashes := parentHashes.insert txin.prevout.hashMalFix
      if parentHashes.length + 1 > limitAncestorCount then .error (.tooManyParents limitAncestorCount)
      else searchParents pool limitAncestorCount parentHashes rest
    else searchParents pool limitAncestorCount parentHashes rest

/-- The inner loop: stage the parents of an ancestor that are new, checking
the count after each. -/
def stageParents (limitAncestorCount : Nat) (setAncestors : List uint256) :
    List uint256 → List uint256 → Except AncestorError (List uint256)
  | parentHashes, [] => .ok parentHashes
  | parentHashes, phash :: rest =>
    let parentHashes := if phash ∈ setAncestors then parentHashes else parentHashes.insert phash
    if parentHashes.length + setAncestors.length + 1 > limitAncestorCount then
      .error (.tooManyAncestors limitAncestorCount)
    else stageParents limitAncestorCount setAncestors parentHashes rest

/-- The outer loop: move a staged parent into the ancestors, check the
limits its descendants and the running size put on the new entry, stage its
own parents. -/
def ancestorsLoop (pool : CTxMemPool) (entrySize : Int) (limits : AncestorLimits) :
    Nat → List uint256 → List uint256 → Int → Except AncestorError (List uint256)
  | 0, _, setAncestors, _ => .ok setAncestors
  | _, [], setAncestors, _ => .ok setAncestors
  | fuel + 1, stageit :: parentHashes, setAncestors, totalSizeWithAncestors => do
    let setAncestors := setAncestors.insert stageit
    let totalSizeWithAncestors := totalSizeWithAncestors + pool.txSizeOf nBytesPerSigOp stageit
    let stage := pool.mapTx.lookup stageit
    if ((stage.map (·.nSizeWithDescendants)).getD 0 + entrySize : Int) > limits.limitDescendantSize then
      .error (.descendantSize stageit limits.limitDescendantSize)
    else if ((stage.map (·.nCountWithDescendants)).getD 0 + 1 : Int) > limits.limitDescendantCount then
      .error (.tooManyDescendants stageit limits.limitDescendantCount)
    else if totalSizeWithAncestors > limits.limitAncestorSize then
      .error (.ancestorSize limits.limitAncestorSize)
    else
      let parentHashes ← stageParents limits.limitAncestorCount setAncestors parentHashes
        (pool.GetMemPoolParents stageit)
      ancestorsLoop pool entrySize limits fuel parentHashes setAncestors totalSizeWithAncestors

/-- `CalculateMemPoolAncestors(entry, setAncestors, limits..., errString,
fSearchForParents)` from an empty `setAncestors`. With `fSearchForParents`
the parents are the pool entries the inputs spend; without, the entry is in
the pool (`hash`) and they are its links. -/
def CalculateMemPoolAncestors (pool : CTxMemPool) (entry : CTxMemPoolEntry) (hash : uint256)
    (limits : AncestorLimits) (fSearchForParents : Bool) : Except AncestorError (List uint256) := do
  let parentHashes ←
    if fSearchForParents then searchParents pool limits.limitAncestorCount [] entry.tx.vin
    else pure (pool.GetMemPoolParents hash)
  ancestorsLoop nBytesPerSigOp pool (entry.GetTxSize nBytesPerSigOp) limits pool.size parentHashes []
    (entry.GetTxSize nBytesPerSigOp)

/-- The ancestors of a pool entry, with no limits (so no error). -/
def ancestorsOf (pool : CTxMemPool) (h : uint256) : List uint256 :=
  match pool.mapTx.lookup h with
  | some entry =>
    match CalculateMemPoolAncestors nBytesPerSigOp pool entry h AncestorLimits.noLimit false with
    | .ok setAncestors => setAncestors
    | .error _ => []
  | none => []

/-! ## Adding and removing -/

/-- `UpdateAncestorsOf(add, it, setAncestors)`: the entry added to or taken
from its parents' children, and its size, fee and count from its ancestors'
descendant sums. -/
def UpdateAncestorsOf (pool : CTxMemPool) (add : Bool) (it : uint256) (setAncestors : List uint256) : CTxMemPool :=
  let pool' := (pool.GetMemPoolParents it).foldl (fun pool piter => pool.UpdateChild piter it add) pool
  let updateCount : Int := if add then 1 else -1
  let updateSize := updateCount * pool.txSizeOf nBytesPerSigOp it
  let updateFee := updateCount * pool.modFeeOf it
  pool'.modifyEntries setAncestors (CTxMemPoolEntry.UpdateDescendantState updateSize updateFee updateCount)

/-- `UpdateEntryForAncestors(it, setAncestors)`: the ancestors' sizes, fees,
count and signature operations added to the entry's ancestor sums. -/
def UpdateEntryForAncestors (pool : CTxMemPool) (it : uint256) (setAncestors : List uint256) : CTxMemPool :=
  let updateSize := (setAncestors.map (pool.txSizeOf nBytesPerSigOp)).sum
  let updateFee := (setAncestors.map pool.modFeeOf).sum
  let updateSigOpsCost := (setAncestors.map pool.sigOpCostOf).sum
  pool.modifyEntry it (CTxMemPoolEntry.UpdateAncestorState updateSize updateFee setAncestors.length updateSigOpsCost)

/-- `addUnchecked(hash, entry, setAncestors)`: the entry with its fee delta,
its inputs in `mapNextTx` (an outpoint already there keeps its spender, as
`std::map::insert` does), links to its in-pool parents, and the sums of its
ancestors and its own. `AcceptToMemoryPoolWorker` calls it for a
transaction the pool does not hold and no pool entry spends. -/
def addUnchecked (pool : CTxMemPool) (hash : uint256) (entry : CTxMemPoolEntry) (setAncestors : List uint256) :
    CTxMemPool :=
  let pool := { pool with mapTx := pool.mapTx.insert hash entry, mapLinks := pool.mapLinks.insert hash ⟨[], []⟩ }
  let pool := match pool.mapDeltas.lookup hash with
    | some delta => if delta ≠ 0 then pool.modifyEntry hash (CTxMemPoolEntry.UpdateFeeDelta delta) else pool
    | none => pool
  let pool := entry.tx.vin.foldl (fun pool txin =>
    if (pool.mapNextTx.lookup txin.prevout).isSome then pool
    else { pool with mapNextTx := pool.mapNextTx.insert txin.prevout hash }) pool
  let setParentTransactions := entry.tx.vin.foldl (fun s txin => s.insert txin.prevout.hashMalFix) []
  let pool := setParentTransactions.foldl (fun pool phash =>
    if pool.exists phash then pool.UpdateParent hash phash true else pool) pool
  let pool := UpdateAncestorsOf nBytesPerSigOp pool true hash setAncestors
  let pool := UpdateEntryForAncestors nBytesPerSigOp pool hash setAncestors
  { pool with totalTxSize := pool.totalTxSize + entry.GetTxSize nBytesPerSigOp }

/-- `removeUnchecked(it)`: the entry's inputs out of `mapNextTx`, its size
off the total, its links and itself out. -/
def removeUnchecked (pool : CTxMemPool) (it : uint256) : CTxMemPool :=
  match pool.mapTx.lookup it with
  | none => pool
  | some entry =>
    { pool with
      mapNextTx := entry.tx.vin.foldl (fun m txin => m.erase txin.prevout) pool.mapNextTx,
      totalTxSize := pool.totalTxSize - entry.GetTxSize nBytesPerSigOp,
      mapLinks := pool.mapLinks.erase it,
      mapTx := pool.mapTx.erase it }

/-- `UpdateChildrenForRemoval(it)`: the entry out of its children's
parents. -/
def UpdateChildrenForRemoval (pool : CTxMemPool) (it : uint256) : CTxMemPool :=
  (pool.GetMemPoolChildren it).foldl (fun pool updateIt => pool.UpdateParent updateIt it false) pool

/-- `UpdateForRemoveFromMempool(entriesToRemove, updateDescendants)`: with
`updateDescendants` (a block confirms the entries) each one's size, fee and
sigops come off its descendants' ancestor sums; then each comes off its
ancestors' descendant sums and its parents' children; last, off its
children's parents. -/
def UpdateForRemoveFromMempool (pool : CTxMemPool) (entriesToRemove : List uint256) (updateDescendants : Bool) :
    CTxMemPool :=
  let pool := if updateDescendants then
      entriesToRemove.foldl (fun pool removeIt =>
        let setDescendants := (pool.CalculateDescendants removeIt []).erase removeIt
        pool.modifyEntries setDescendants
          (CTxMemPoolEntry.UpdateAncestorState (-pool.txSizeOf nBytesPerSigOp removeIt) (-pool.modFeeOf removeIt) (-1)
            (-pool.sigOpCostOf removeIt))) pool
    else pool
  let pool := entriesToRemove.foldl (fun pool removeIt =>
    UpdateAncestorsOf nBytesPerSigOp pool false removeIt (ancestorsOf nBytesPerSigOp pool removeIt)) pool
  entriesToRemove.foldl UpdateChildrenForRemoval pool

/-- `RemoveStaged(stage, updateDescendants, reason)`. -/
def RemoveStaged (pool : CTxMemPool) (stage : List uint256) (updateDescendants : Bool) : CTxMemPool :=
  stage.foldl (removeUnchecked nBytesPerSigOp) (UpdateForRemoveFromMempool nBytesPerSigOp pool stage updateDescendants)

/-- `ClearPrioritisation(hash)`. -/
def ClearPrioritisation (pool : CTxMemPool) (hash : uint256) : CTxMemPool :=
  { pool with mapDeltas := pool.mapDeltas.erase hash }

/-- `ApplyDelta(hash, nFeeDelta)`: the fee with the delta of `hash` added. -/
def ApplyDelta (pool : CTxMemPool) (hash : uint256) (nFeeDelta : Int) : Int :=
  match pool.mapDeltas.lookup hash with
  | some delta => nFeeDelta + delta
  | none => nFeeDelta

/-- `PrioritiseTransaction(hash, nFeeDelta)`: the delta grows; a pool entry
takes it, and so do its ancestors' descendant fees and its descendants'
ancestor fees. -/
def PrioritiseTransaction (pool : CTxMemPool) (hash : uint256) (nFeeDelta : Int) : CTxMemPool :=
  let delta := ((pool.mapDeltas.lookup hash).getD 0) + nFeeDelta
  let pool := { pool with mapDeltas := pool.mapDeltas.insert hash delta }
  if pool.exists hash then
    let pool := pool.modifyEntry hash (CTxMemPoolEntry.UpdateFeeDelta delta)
    let pool := pool.modifyEntries (ancestorsOf nBytesPerSigOp pool hash)
      (CTxMemPoolEntry.UpdateDescendantState 0 nFeeDelta 0)
    pool.modifyEntries ((pool.CalculateDescendants hash []).erase hash)
      (CTxMemPoolEntry.UpdateAncestorState 0 nFeeDelta 0 0)
  else pool

variable (C : Crypto)

/-- `removeRecursive(origTx)`: the transaction, or when it is not in the pool
the pool transactions spending its outputs, with all their descendants. -/
def removeRecursive (pool : CTxMemPool) (origTx : CTransaction) : CTxMemPool :=
  let hash := origTx.GetHashMalFix C
  let txToRemove := if pool.exists hash then [hash]
    else (List.range origTx.vout.length).filterMap fun i => pool.mapNextTx.lookup ⟨hash, UInt32.ofNat i⟩
  RemoveStaged nBytesPerSigOp pool (txToRemove.foldl (fun s it => pool.CalculateDescendants it s) []) false

/-- `removeConflicts(tx)`: every other pool transaction spending an input of
`tx`, with its descendants and its fee delta. -/
def removeConflicts (pool : CTxMemPool) (tx : CTransaction) : CTxMemPool :=
  tx.vin.foldl (fun pool txin =>
    match (pool.mapNextTx.lookup txin.prevout).bind pool.get with
    | some txConflict =>
      if txConflict.GetHash C ≠ tx.GetHash C then
        removeRecursive nBytesPerSigOp C (pool.ClearPrioritisation (txConflict.GetHashMalFix C)) txConflict
      else pool
    | none => pool) pool

/-- `removeForBlock(vtx, nBlockHeight)` at time `nTime`: each transaction of
the block leaves (its descendants' ancestor sums updated), with its
conflicts and its fee delta; the rolling fee may decay again. -/
def removeForBlock (pool : CTxMemPool) (vtx : List CTransaction) (nTime : Int) : CTxMemPool :=
  let pool := vtx.foldl (fun pool tx =>
    let hash := tx.GetHashMalFix C
    let pool := if pool.exists hash then RemoveStaged nBytesPerSigOp pool [hash] true else pool
    (removeConflicts nBytesPerSigOp C pool tx).ClearPrioritisation hash) pool
  { pool with lastRollingFeeUpdate := nTime, blockSinceLastRollingFeeBump := true }

/-! ## Limits -/

/-- `Expire(time)`: the entries that entered before `time`, with their
descendants, leave. -/
def Expire (pool : CTxMemPool) (time : Int) : CTxMemPool :=
  let toremove := pool.mapTx.entries.filterMap fun e => if e.2.nTime < time then some e.1 else none
  RemoveStaged nBytesPerSigOp pool (toremove.foldl (fun stage removeit => pool.CalculateDescendants removeit stage) [])
    false

/-- `GetModFeeAndSize`: the fee and size of the entry, or of the entry with
its descendants when that rate is higher. -/
def GetModFeeAndSize (e : CTxMemPoolEntry) : Int × Int :=
  let f1 := e.GetModifiedFee * e.nSizeWithDescendants
  let f2 := e.nModFeesWithDescendants * e.GetTxSize nBytesPerSigOp
  if f2 > f1 then (e.nModFeesWithDescendants, e.nSizeWithDescendants)
  else (e.GetModifiedFee, e.GetTxSize nBytesPerSigOp)

/-- `CompareTxMemPoolEntryByDescendantScore`: `a` before `b` when its rate is
lower, or equal with `a` no older. (The code compares `double` products; on
integers below 2^53 they are exact.) -/
def CompareByDescendantScore (a b : CTxMemPoolEntry) : Bool :=
  let (aFee, aSize) := GetModFeeAndSize nBytesPerSigOp a
  let (bFee, bSize) := GetModFeeAndSize nBytesPerSigOp b
  let f1 := aFee * bSize
  let f2 := aSize * bFee
  if f1 = f2 then a.nTime ≥ b.nTime else f1 < f2

/-- `mapTx.get<descendant_score>().begin()`: the first entry no other comes
before. -/
def lowestDescendantScore (pool : CTxMemPool) : Option (uint256 × CTxMemPoolEntry) :=
  pool.mapTx.entries.foldl (fun best e =>
    match best with
    | none => some ⟨e.1, e.2⟩
    | some b => if CompareByDescendantScore nBytesPerSigOp e.2 b.2 then some ⟨e.1, e.2⟩ else some b) none

/-- `trackPackageRemoved(rate)`: the rolling minimum fee rises to the rate of
a package evicted for space. -/
def trackPackageRemoved (pool : CTxMemPool) (rate : Int) : CTxMemPool :=
  if rate > pool.rollingMinimumFeeRate then
    { pool with rollingMinimumFeeRate := rate, blockSinceLastRollingFeeBump := false }
  else pool

/-- The loop of `TrimToSize(sizelimit)`: while the pool is not empty and uses
more than `sizelimit`, the package of lowest descendant score leaves and
the rolling minimum fee rises past its rate. -/
def trimLoop (incrementalRelayFee : Int) (DynamicMemoryUsage : CTxMemPool → Nat) (sizelimit : Nat) :
    Nat → CTxMemPool → CTxMemPool
  | 0, pool => pool
  | fuel + 1, pool =>
    if DynamicMemoryUsage pool ≤ sizelimit then pool else
    match lowestDescendantScore nBytesPerSigOp pool with
    | none => pool
    | some (it, e) =>
      let removed := CFeeRate.ofFee e.nModFeesWithDescendants e.nSizeWithDescendants + incrementalRelayFee
      let pool := pool.trackPackageRemoved removed
      let stage := pool.CalculateDescendants it []
      trimLoop incrementalRelayFee DynamicMemoryUsage sizelimit fuel (RemoveStaged nBytesPerSigOp pool stage false)

/-- `TrimToSize(sizelimit)`. Each round removes at least one entry, so the
pool's size is enough fuel. -/
def TrimToSize (incrementalRelayFee : Int) (DynamicMemoryUsage : CTxMemPool → Nat) (pool : CTxMemPool)
    (sizelimit : Nat) : CTxMemPool :=
  trimLoop nBytesPerSigOp incrementalRelayFee DynamicMemoryUsage sizelimit pool.size pool

/-- `GetMinFee(sizelimit)`, per 1000 bytes: the rolling minimum while no
block came since it last rose (or it is zero); after a block, the decayed
rate `decayedMinFee` gives, which is zero or at least the incremental relay
fee. -/
def GetMinFee (decayedMinFee : CTxMemPool → Int) (pool : CTxMemPool) : Int :=
  if !pool.blockSinceLastRollingFeeBump || pool.rollingMinimumFeeRate = 0 then pool.rollingMinimumFeeRate
  else decayedMinFee pool

/-! ## What the operations keep

The transaction an id maps to changes only where `addUnchecked` inserts
one; the entry updates touch fees, sizes and counts. -/

theorem get_modifyEntry (pool : CTxMemPool) (h : uint256) (f : CTxMemPoolEntry → CTxMemPoolEntry) (k : uint256)
    (hf : ∀ e, (f e).tx = e.tx) : (pool.modifyEntry h f).get k = pool.get k := by
  unfold modifyEntry
  split
  · rename_i e he
    by_cases hk : k = h
    · subst hk
      simp [get, he, hf]
    · simp [get, AList.lookup_insert_ne hk]
  · rfl

theorem get_modifyEntries (pool : CTxMemPool) (hs : List uint256) (f : CTxMemPoolEntry → CTxMemPoolEntry)
    (k : uint256) (hf : ∀ e, (f e).tx = e.tx) : (pool.modifyEntries hs f).get k = pool.get k := by
  induction hs generalizing pool with
  | nil => rfl
  | cons h hs ih => rw [modifyEntries, List.foldl_cons, ← modifyEntries, ih, get_modifyEntry _ _ _ _ hf]

/-- A loop whose every round keeps `get k` keeps it. -/
theorem get_foldl {α : Type} (l : List α) (g : CTxMemPool → α → CTxMemPool) (pool : CTxMemPool) (k : uint256)
    (hg : ∀ p a, (g p a).get k = p.get k) : (l.foldl g pool).get k = pool.get k := by
  induction l generalizing pool with
  | nil => rfl
  | cons a l ih => rw [List.foldl_cons, ih, hg]

theorem get_UpdateAncestorsOf (pool : CTxMemPool) (add : Bool) (it : uint256) (setAncestors : List uint256)
    (k : uint256) : (UpdateAncestorsOf nBytesPerSigOp pool add it setAncestors).get k = pool.get k := by
  unfold UpdateAncestorsOf
  dsimp only
  rw [get_modifyEntries, get_foldl]
  · exact fun _ _ => rfl
  · exact fun _ => rfl

theorem get_UpdateEntryForAncestors (pool : CTxMemPool) (it : uint256) (setAncestors : List uint256)
    (k : uint256) : (UpdateEntryForAncestors nBytesPerSigOp pool it setAncestors).get k = pool.get k := by
  unfold UpdateEntryForAncestors
  dsimp only
  rw [get_modifyEntry]
  exact fun _ => rfl

/-- `addUnchecked` maps `hash` to the entry's transaction and no other id
to anything new. -/
theorem get_addUnchecked (pool : CTxMemPool) (hash : uint256) (entry : CTxMemPoolEntry) (setAncestors : List uint256)
    (k : uint256) :
    (addUnchecked nBytesPerSigOp pool hash entry setAncestors).get k = if k = hash then some entry.tx else pool.get k := by
  unfold addUnchecked
  dsimp only
  -- after the insertion, no step changes the transaction of an id
  rw [show ∀ (p : CTxMemPool) x, get { p with totalTxSize := x } k = p.get k from fun _ _ => rfl,
    get_UpdateEntryForAncestors, get_UpdateAncestorsOf, get_foldl, get_foldl]
  · have hins : get { pool with mapTx := pool.mapTx.insert hash entry, mapLinks := pool.mapLinks.insert hash ⟨[], []⟩ } k =
        if k = hash then some entry.tx else pool.get k := by
      by_cases hk : k = hash
      · subst hk
        simp [get]
      · simp [get, hk, AList.lookup_insert_ne hk]
    -- the fee delta, when there is one, only changes the fee
    split
    · split
      · rw [get_modifyEntry, hins]
        exact fun _ => rfl
      · exact hins
    · exact hins
  · intro p txin
    split <;> rfl
  · intro p phash
    split <;> rfl

theorem exists_addUnchecked (pool : CTxMemPool) (hash : uint256) (entry : CTxMemPoolEntry)
    (setAncestors : List uint256) : (addUnchecked nBytesPerSigOp pool hash entry setAncestors).exists hash = true := by
  have h := get_addUnchecked nBytesPerSigOp pool hash entry setAncestors hash
  simp only [if_pos, get, Option.map_eq_some_iff] at h
  obtain ⟨e, he, -⟩ := h
  simp [CTxMemPool.exists, he]

@[simp] theorem RemoveStaged_nil (pool : CTxMemPool) (updateDescendants : Bool) :
    RemoveStaged nBytesPerSigOp pool [] updateDescendants = pool := by
  cases updateDescendants <;> rfl

/-- `Expire` keeps a pool none of whose entries entered before `time`. -/
theorem Expire_eq_self (pool : CTxMemPool) (time : Int) (h : ∀ e ∈ pool.mapTx.entries, time ≤ e.2.nTime) :
    pool.Expire nBytesPerSigOp time = pool := by
  have hnone : pool.mapTx.entries.filterMap (fun e => if e.2.nTime < time then some e.1 else none) = [] := by
    rw [List.filterMap_eq_nil_iff]
    intro e he
    simp [not_lt.2 (h e he)]
  simp only [Expire, hnone, List.foldl_nil, RemoveStaged_nil]

/-- `TrimToSize` keeps a pool that uses no more than the limit. -/
theorem TrimToSize_eq_self (incrementalRelayFee : Int) (DynamicMemoryUsage : CTxMemPool → Nat) (pool : CTxMemPool)
    (sizelimit : Nat) (h : DynamicMemoryUsage pool ≤ sizelimit) :
    pool.TrimToSize nBytesPerSigOp incrementalRelayFee DynamicMemoryUsage sizelimit = pool := by
  unfold TrimToSize
  cases pool.size with
  | zero => rfl
  | succ fuel => simp [trimLoop, h]

end CTxMemPool

/-- `MEMPOOL_HEIGHT`: the height a coin of a pool transaction has. -/
def MEMPOOL_HEIGHT : Nat := 0x7FFFFFFF

/-- `CCoinsViewMemPool::GetCoin(outpoint, coin)` over `base`: the output of
a pool transaction, which hides the base view for that id; else the base
view's unspent coin. -/
def CCoinsViewMemPool.GetCoin (pool : CTxMemPool) (base : CCoinsViewCache) (outpoint : COutPoint) : Option Coin :=
  match pool.get outpoint.hashMalFix with
  | some ptx => (ptx.vout[outpoint.n.toNat]?).map fun out => ⟨out, false, MEMPOOL_HEIGHT⟩
  | none => (base.coins.lookup outpoint).filter (!·.IsSpent)

end Tapyrus
