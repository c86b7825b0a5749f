import Tapyrus.Validation.Supply
/-!
# The active chain

`CChainState::ConnectTip`, `CChainState::DisconnectTip` and `ProcessNewBlock`
(`validation.cpp`) over the state they change: the active chain
(`chainActive`, never empty: the genesis block stays), the coins view
`pcoinsTip`, and the global xfield history `CXFieldHistory`.

`ConnectTip` connects a child of the tip and then records the block's xfield
when it is new, dated `GetHeight() + 1` from the height the coinbase claims.
`DisconnectTip` disconnects the tip and leaves the history as it is (the
source's TODO). Whatever the steps, the history only grows
(`runSteps_history_extends`): a change made by a block that a reorganisation
removed stays in force on the branch that replaced it.

`ProcessNewBlock` checks the block against the current tip (`CheckBlock`,
whose pass sets the block object's `fChecked`), accepts it
(`AcceptBlockHeader`, `AcceptBlock`) and activates it when it extends the
tip. The block index is the active chain: a header that is not on it is
unknown to the model, and a block on a branch off the active chain is
checked and then left unconnected, since it has no more work than the tip.
Checkpoints, block files, pruning and the mempool are not modelled.
-/

namespace Tapyrus

open Lib CCoinsViewCache

/-! ## Block index entries -/

/-- `CBlockIndex::nMedianTimeSpan`. -/
def nMedianTimeSpan : Nat := 11

/-- `GetMedianTimePast` from the block times of an entry and its ancestors,
newest first: the median of the last eleven. -/
def GetMedianTimePast (times : List Int) : Int :=
  let pmedian := (times.take nMedianTimeSpan).insertionSort (· ≤ ·)
  pmedian.getD (pmedian.length / 2) 0

/-- `AddToBlockIndex(block)` for a block whose parent is `pprev`, with the
block times of `pprev` and its ancestors: one height up, and the median time
past of the new entry after those of its ancestors. -/
def AddToBlockIndex (C : Crypto) (pprev : CBlockIndex) (prevTimes : List Int) (block : CBlock) : CBlockIndex :=
  let mtp := GetMedianTimePast ((block.nTime.toNat : Int) :: prevTimes)
  ⟨pprev.nHeight + 1, block.GetHash C, block.hashPrevBlock,
    fun h => if h ≤ pprev.nHeight then pprev.ancestorMTP h else mtp⟩

/-- A block of the active chain: its index entry, the block, and the undo
record `ConnectBlock` wrote for it. -/
structure ChainEntry where
  pindex : CBlockIndex
  block : CBlock
  vtxundo : List CTxUndo

/-- The node's chain state: the tip's entry and the entries below it, parent
first, the coins view and the xfield history. -/
structure ChainState where
  tipEntry : ChainEntry
  below : List ChainEntry
  view : CCoinsViewCache
  history : CXFieldHistoryMap

namespace ChainState

variable (st : ChainState)

/-- `chainActive.Tip()`. -/
def tip : CBlockIndex := st.tipEntry.pindex

/-- The active chain, tip first. -/
def entries : List ChainEntry := st.tipEntry :: st.below

/-- The block times of the active chain, tip first. -/
def times : List Int := st.entries.map fun e => (e.block.nTime.toNat : Int)

/-- The state after the genesis block: no coin, the genesis block's xfield as
the only aggregate key, and `MAX_BLOCK_SIZE`. -/
def genesis (E : ValidationEnv) (genesisBlock : CBlock) : ChainState :=
  ⟨⟨⟨0, E.genesisHash, Blob.zero 32, fun _ => genesisBlock.nTime.toNat⟩, genesisBlock, []⟩, [], genesisView E,
    CXFieldHistoryMap.ofGenesis genesisBlock.xfield.xfieldValue E.genesisHash⟩

end ChainState

section Steps

variable (E : ValidationEnv) (fScriptChecks : Bool)

/-! ## Connecting and disconnecting the tip -/

/-- The history update at the end of `ConnectTip`: a valid xfield of a block
past the genesis block that differs from the latest of its type becomes an
`XFieldChange` dated one above the height the block's coinbase claims. -/
def recordXField (history : CXFieldHistoryMap) (block : CBlock) : Valid CXFieldHistoryMap :=
  if block.xfield.IsValid E.IsFullyValid && block.GetHeight > 0 && IsXFieldNew E.IsFullyValid block.xfield history then
    match history.Add block.xfield.xfieldType ⟨block.xfield.xfieldValue, block.GetHeight + 1, block.GetHash E.C⟩ with
    | some history => .ok history
    | none => .error .abort
  else .ok history

/-- `CChainState::ConnectTip(state, pindexNew, pblock, ...)`: `ConnectBlock`
on a cache of the view, against the tip and the global history, then the
history update. `pindexNew->pprev == chainActive.Tip()` is asserted: the
entry is one up from the tip and names it as its parent. -/
def ConnectTip (st : ChainState) (pindexNew : CBlockIndex) (block : CBlock) : Valid ChainState :=
  if pindexNew.hashPrevBlock ≠ st.tip.hashBlock ∨ pindexNew.nHeight ≠ st.tip.nHeight + 1 then .error .abort else do
  let (view, vtxundo) ← ConnectBlock E st.history fScriptChecks pindexNew (some st.tip) block st.view false
  let history ← recordXField E st.history block
  pure ⟨⟨pindexNew, block, vtxundo⟩, st.entries, view, history⟩

/-- `CChainState::DisconnectTip(state, disconnectpool)`: `DisconnectBlock` on
the tip with its undo record; the history is left as it is. A result other
than `DISCONNECT_OK` fails the call (`error(...)`, no invalid state). -/
def DisconnectTip (st : ChainState) : Valid ChainState :=
  match st.below with
  -- the genesis block is never disconnected: it is on every chain
  | [] => .error .abort
  | parent :: rest =>
    -- assert(view.GetBestBlock() == pindexDelete->GetBlockHash())
    if st.view.GetBestBlock ≠ st.tip.hashBlock then .error .abort else
    match DisconnectBlock E.C st.tipEntry.block st.tip st.tipEntry.vtxundo st.view with
    | .ok (.DISCONNECT_OK, view) => .ok ⟨parent, rest, view, st.history⟩
    | .ok _ => .error .abort
    | .error e => .error e

/-! ## Accepting a block -/

def MAX_FUTURE_BLOCK_TIME : Int := 2 * 60 * 60

def MIN_BLOCKS_TO_KEEP : Nat := 288

/-- `ContextualCheckBlockHeader(block, state, pindexPrev, nAdjustedTime)`,
checkpoints apart: the time is past the parent's median time past and not
too far ahead of the adjusted time. -/
def ContextualCheckBlockHeader (block : CBlockHeader) (pindexPrev : CBlockIndex) (nAdjustedTime : Int) : Valid Unit :=
  if (block.nTime.toNat : Int) ≤ pindexPrev.ancestorMTP pindexPrev.nHeight then reject "time-too-old"
  else if (block.nTime.toNat : Int) > nAdjustedTime + MAX_FUTURE_BLOCK_TIME then reject "time-too-new"
  else .ok ()

/-- `ContextualCheckBlock(block, state, pindexPrev)`: final transactions at
the block's height and the parent's median time past, and no witness. -/
def ContextualCheckBlock (block : CBlock) (pindexPrev : CBlockIndex) : Valid Unit :=
  let nHeight := pindexPrev.nHeight + 1
  let nLockTimeCutoff := pindexPrev.ancestorMTP pindexPrev.nHeight
  if !block.vtx.all (fun tx => IsFinalTx tx nHeight nLockTimeCutoff) then reject "bad-txns-nonfinal"
  else if block.vtx.any (·.HasWitness) then reject "unexpected-witness"
  else .ok ()

/-- `CChainState::AcceptBlock(pblock, state, &pindex, fRequested, ...)`
with `AcceptBlockHeader` (no temporary history): the index entry of a block
to store, or `none` when there is nothing to do (a known block, or an
unrequested one with less work than the tip or too far ahead). -/
def AcceptBlock (nAdjustedTime : Int) (fRequested : Bool) (st : ChainState) (block : CBlock) :
    Valid (Option CBlockIndex) :=
  let hash := block.GetHash E.C
  -- a known header (the genesis block's among them) returns at once, and its data is there
  if hash = E.genesisHash || st.entries.any (·.pindex.hashBlock == hash) then .ok none else do
  -- CheckBlockHeader(block, state, pxfieldHistory) with nHeight = -1
  CheckBlockHeader E st.history none block.toCBlockHeader 0xffffffff true
  match st.entries.dropWhile (·.pindex.hashBlock != block.hashPrevBlock) with
  | [] => reject "prev-blk-not-found"
  | prev :: older => do
    ContextualCheckBlockHeader block.toCBlockHeader prev.pindex nAdjustedTime
    let pindex := AddToBlockIndex E.C prev.pindex ((prev :: older).map fun e => (e.block.nTime.toNat : Int)) block
    let fHasMoreOrSameWork := pindex.nHeight ≥ st.tip.nHeight
    let fTooFarAhead := pindex.nHeight > st.tip.nHeight + MIN_BLOCKS_TO_KEEP
    if !fRequested && (!fHasMoreOrSameWork || fTooFarAhead) then .ok none else do
    let _ ← CheckBlock E (some st.tip) st.history none block false true
    ContextualCheckBlock block prev.pindex
    pure (some pindex)

/-- `CChainState::ActivateBestChain(state, pblock)` after `pblock` was
stored at `pindex`: a block that extends the tip has the most work and is
connected; any other has no more work than the tip, which stays. A block
`ConnectTip` finds invalid is marked so and the chain stays as it was. -/
def ActivateBestChain (st : ChainState) (pindex : CBlockIndex) (block : CBlock) : Valid ChainState :=
  if pindex.hashPrevBlock ≠ st.tip.hashBlock then .ok st else
  match ConnectTip E fScriptChecks st pindex block with
  | .ok st' => .ok st'
  | .error (.invalid _) => .ok st
  | .error .abort => .error .abort

/-- `ProcessNewBlock(pblock, fForceProcessing, ...)`: `CheckBlock` with its
default arguments against the current tip (its pass sets the object's
`fChecked`), `AcceptBlock`, then `ActivateBestChain` with the same block
object. -/
def ProcessNewBlock (nAdjustedTime : Int) (fForceProcessing : Bool) (st : ChainState) (block : CBlock) :
    Valid ChainState := do
  let fChecked ← CheckBlock E (some st.tip) st.history none block true true
  let block := { block with fChecked := fChecked }
  match ← AcceptBlock E nAdjustedTime fForceProcessing st block with
  | none => pure st
  | some pindex => ActivateBestChain E fScriptChecks st pindex block

/-! ## Runs -/

/-- What happens to the chain state: a block handed to `ConnectTip` as the
next block, a `DisconnectTip`, or a block received. -/
inductive ChainStep where
  | connect (block : CBlock)
  | disconnect
  | processNewBlock (nAdjustedTime : Int) (fForceProcessing : Bool) (block : CBlock)

def chainStep (st : ChainState) : ChainStep → Valid ChainState
  | .connect block => ConnectTip E fScriptChecks st (AddToBlockIndex E.C st.tip st.times block) block
  | .disconnect => DisconnectTip E st
  | .processNewBlock nAdjustedTime fForceProcessing block =>
    ProcessNewBlock E fScriptChecks nAdjustedTime fForceProcessing st block

/-- The steps one after another, each on the state the one before left. -/
def runSteps : ChainState → List ChainStep → Valid ChainState
  | st, [] => .ok st
  | st, s :: rest => do
    let st ← chainStep E fScriptChecks st s
    runSteps st rest

/-! ## What each step can do -/

theorem ConnectTip_eq_ok {st st' : ChainState} {pindexNew : CBlockIndex} {block : CBlock}
    (h : ConnectTip E fScriptChecks st pindexNew block = .ok st') :
    pindexNew.hashPrevBlock = st.tip.hashBlock ∧ pindexNew.nHeight = st.tip.nHeight + 1 ∧
      ∃ view vtxundo history,
        ConnectBlock E st.history fScriptChecks pindexNew (some st.tip) block st.view false = .ok (view, vtxundo) ∧
        recordXField E st.history block = .ok history ∧ st' = ⟨⟨pindexNew, block, vtxundo⟩, st.entries, view, history⟩ := by
  unfold ConnectTip at h
  split at h
  · cases h
  rename_i hlink
  obtain ⟨hprev, hheight⟩ := not_or.1 hlink
  obtain ⟨⟨view, vtxundo⟩, hconnect, h⟩ := bind_eq_ok h
  obtain ⟨history, hrec, h⟩ := bind_eq_ok h
  cases h
  exact ⟨not_not.1 hprev, not_not.1 hheight, view, vtxundo, history, hconnect, hrec, rfl⟩

theorem DisconnectTip_eq_ok {st st' : ChainState} (h : DisconnectTip E st = .ok st') :
    ∃ parent rest view, st.below = parent :: rest ∧ st.view.GetBestBlock = st.tip.hashBlock ∧
      DisconnectBlock E.C st.tipEntry.block st.tip st.tipEntry.vtxundo st.view = .ok (.DISCONNECT_OK, view) ∧
      st' = ⟨parent, rest, view, st.history⟩ := by
  unfold DisconnectTip at h
  split at h
  · cases h
  rename_i parent rest hbelow
  split at h
  · cases h
  rename_i hbest
  split at h
  · rename_i view hdis
    cases h
    exact ⟨parent, rest, view, hbelow, not_not.1 hbest, hdis, rfl⟩
  all_goals cases h

/-- Activation connects the block or leaves the state. -/
theorem ActivateBestChain_eq_ok {st st' : ChainState} {pindex : CBlockIndex} {block : CBlock}
    (h : ActivateBestChain E fScriptChecks st pindex block = .ok st') :
    st' = st ∨ ConnectTip E fScriptChecks st pindex block = .ok st' := by
  unfold ActivateBestChain at h
  split at h
  · cases h
    exact .inl rfl
  split at h
  · rename_i hconnect
    cases h
    exact .inr hconnect
  · cases h
    exact .inl rfl
  · cases h

theorem ProcessNewBlock_eq_ok {nAdjustedTime : Int} {fForceProcessing : Bool} {st st' : ChainState}
    {block : CBlock} (h : ProcessNewBlock E fScriptChecks nAdjustedTime fForceProcessing st block = .ok st') :
    st' = st ∨ ∃ pindex fChecked, CheckBlock E (some st.tip) st.history none block true true = .ok fChecked ∧
      AcceptBlock E nAdjustedTime fForceProcessing st { block with fChecked := fChecked } = .ok (some pindex) ∧
      ConnectTip E fScriptChecks st pindex { block with fChecked := fChecked } = .ok st' := by
  unfold ProcessNewBlock at h
  obtain ⟨fChecked, hcheck, h⟩ := bind_eq_ok h
  obtain ⟨accepted, haccept, h⟩ := bind_eq_ok h
  cases accepted with
  | none =>
    cases h
    exact .inl rfl
  | some pindex =>
    rcases ActivateBestChain_eq_ok E fScriptChecks h with rfl | hconnect
    · exact .inl rfl
    · exact .inr ⟨pindex, fChecked, hcheck, haccept, hconnect⟩

/-- The run rule: an invariant that every step allowed by `Q` keeps holds
after every run of such steps, by induction on the steps. -/
theorem runSteps_step_invariant (P : ChainState → Prop) (Q : ChainStep → Prop)
    (hstep : ∀ st st' s, Q s → P st → chainStep E fScriptChecks st s = .ok st' → P st') :
    ∀ {steps : List ChainStep} {st st' : ChainState}, (∀ s ∈ steps, Q s) → P st →
      runSteps E fScriptChecks st steps = .ok st' → P st' := by
  intro steps
  induction steps with
  | nil =>
    intro st st' _ hst h
    cases h
    exact hst
  | cons s rest ih =>
    intro st st' hq hst h
    obtain ⟨mid, hs, hrest⟩ := bind_eq_ok h
    exact ih (fun s' hs' => hq s' (List.mem_cons_of_mem s hs')) (hstep st mid s (hq s List.mem_cons_self) hst hs)
      hrest

/-- An entry and its parent's: the child names the parent and is one up. -/
def ChildOf (e e' : ChainEntry) : Prop :=
  e.pindex.hashPrevBlock = e'.pindex.hashBlock ∧ e.pindex.nHeight = e'.pindex.nHeight + 1

/-- The active chain is a chain of parents from the genesis block at height
0, and the coins view is at its tip. -/
structure ChainState.WellFormed (st : ChainState) : Prop where
  linked : st.entries.IsChain ChildOf
  height_eq : st.tip.nHeight = st.below.length
  atTip : st.view.GetBestBlock = st.tip.hashBlock

theorem ChainState.WellFormed.genesis (genesisBlock : CBlock) : (ChainState.genesis E genesisBlock).WellFormed :=
  ⟨List.isChain_singleton _, rfl, rfl⟩

theorem ConnectTip_wellFormed {st st' : ChainState} {pindexNew : CBlockIndex} {block : CBlock} (hwf : st.WellFormed)
    (h : ConnectTip E fScriptChecks st pindexNew block = .ok st') : st'.WellFormed := by
  obtain ⟨hprev, hheight, view, vtxundo, history, hconnect, -, rfl⟩ := ConnectTip_eq_ok E fScriptChecks h
  have hbest := (ConnectBlock_eq_ok E st.history fScriptChecks pindexNew hconnect).2.2.2.2 rfl
  refine ⟨hwf.linked.cons ?_, ?_, hbest⟩
  · intro e he
    cases Option.mem_some_iff.1 he
    exact ⟨hprev, hheight⟩
  · show pindexNew.nHeight = (st.tipEntry :: st.below).length
    rw [hheight, hwf.height_eq]
    rfl

theorem DisconnectTip_wellFormed {st st' : ChainState} (hwf : st.WellFormed) (h : DisconnectTip E st = .ok st') :
    st'.WellFormed := by
  obtain ⟨parent, rest, view, hbelow, -, hdis, rfl⟩ := DisconnectTip_eq_ok E h
  have hlinked := hwf.linked
  simp only [ChainState.entries, hbelow, List.isChain_cons_cons] at hlinked
  obtain ⟨⟨hprev, hheight⟩, hrest⟩ := hlinked
  have hlen := hwf.height_eq
  simp only [ChainState.tip, hbelow, List.length_cons] at hlen
  refine ⟨hrest, ?_, ?_⟩
  · show parent.pindex.nHeight = rest.length
    omega
  · show view.hashBlock = parent.pindex.hashBlock
    rw [DisconnectBlock_bestBlock hdis (by decide)]
    exact hprev

/-! ## The height in the coinbase -/

/-- Against a tip past the genesis block, a child of the tip passes the
coinbase height check only with the height one above the tip's (as a
`uint32_t`). -/
theorem isBlockHeightInCoinbase_child {tip : CBlockIndex} {block : CBlock} (hpos : tip.nHeight ≠ 0)
    (hchild : block.hashPrevBlock = tip.hashBlock) (h : isBlockHeightInCoinbase E (some tip) block = true) :
    block.GetHeight = UInt32.ofNat tip.nHeight + 1 := by
  unfold isBlockHeightInCoinbase at h
  simp only [hpos, if_false] at h
  -- the test for the tip itself comes first; a child that passes it meets the test for a child
  split at h
  · cases h
  split at h
  · cases h
  rename_i _ hnot
  simpa [hchild] using hnot

/-- So a full pass of `CheckBlock` on a child of such a tip fixes the
height its coinbase claims. -/
theorem CheckBlock_GetHeight {tip : CBlockIndex} {history : CXFieldHistoryMap} {temp : Option CXFieldHistoryMap}
    {block : CBlock} {pow mr f : Bool} (hpos : tip.nHeight ≠ 0) (hchild : block.hashPrevBlock = tip.hashBlock)
    (hf : block.fChecked = false) (h : CheckBlock E (some tip) history temp block pow mr = .ok f) :
    block.GetHeight = UInt32.ofNat (tip.nHeight + 1) := by
  unfold CheckBlock at h
  rw [hf] at h
  simp only [Bool.false_eq_true, if_false] at h
  obtain ⟨_, -, h⟩ := bind_eq_ok h
  split at h
  · cases h
  -- the coinbase checks come before the height check
  split at h
  · cases h
  split at h
  · cases h
  split at h
  · cases h
  rename_i hheight
  have hin : isBlockHeightInCoinbase E (some tip) block = true := by simpa using hheight
  rw [UInt32.ofNat_add]
  exact isBlockHeightInCoinbase_child E hpos hchild hin

theorem AcceptBlock_eq_some {nAdjustedTime : Int} {fRequested : Bool} {st : ChainState} {block : CBlock}
    {pindex : CBlockIndex} (h : AcceptBlock E nAdjustedTime fRequested st block = .ok (some pindex)) :
    pindex.hashPrevBlock = block.hashPrevBlock ∧ pindex.hashBlock = block.GetHash E.C ∧
      block.GetHash E.C ≠ E.genesisHash := by
  unfold AcceptBlock at h
  dsimp only at h
  split at h
  · cases h
  rename_i hknown
  -- a block with the genesis block's hash is known and returns at once
  have hgen : block.GetHash E.C ≠ E.genesisHash := fun he => hknown (by simp [he])
  obtain ⟨_, -, h⟩ := bind_eq_ok h
  split at h
  · cases h
  obtain ⟨_, -, h⟩ := bind_eq_ok h
  split at h
  · cases h
  obtain ⟨_, -, h⟩ := bind_eq_ok h
  obtain ⟨_, -, h⟩ := bind_eq_ok h
  cases h
  exact ⟨rfl, rfl, hgen⟩

/-- `ConnectTip` of a child of the tip, as a block object with its flag
clear, on a tip past the genesis block: the `CheckBlock` in `ConnectBlock`
runs against the tip, so the block claims the height it is connected at. -/
theorem ConnectTip_GetHeight {st st' : ChainState} {pindexNew : CBlockIndex} {block : CBlock}
    (hpos : st.tip.nHeight ≠ 0) (hchild : block.hashPrevBlock = st.tip.hashBlock) (hf : block.fChecked = false)
    (h : ConnectTip E fScriptChecks st pindexNew block = .ok st') : block.GetHeight = UInt32.ofNat pindexNew.nHeight := by
  obtain ⟨-, hheight, view, vtxundo, history, hconnect, -, -⟩ := ConnectTip_eq_ok E fScriptChecks h
  obtain ⟨-, -, ⟨f, hcheck⟩, -⟩ := ConnectBlock_eq_ok E st.history fScriptChecks pindexNew hconnect
  rw [hheight]
  exact CheckBlock_GetHeight E hpos hchild hf hcheck

/-- `ProcessNewBlock` of a block object fresh from the network (its flag
clear) leaves the state, or connects a block that, on a tip past the
genesis block, claims its height: the check against the tip ran on the
object received, before its flag was set. -/
theorem ProcessNewBlock_GetHeight {nAdjustedTime : Int} {fForceProcessing : Bool} {st st' : ChainState}
    {block : CBlock} (hf : block.fChecked = false)
    (h : ProcessNewBlock E fScriptChecks nAdjustedTime fForceProcessing st block = .ok st') :
    st' = st ∨ ∃ pindex block', ConnectTip E fScriptChecks st pindex block' = .ok st' ∧
      (st.tip.nHeight ≠ 0 → block'.GetHeight = UInt32.ofNat pindex.nHeight) := by
  rcases ProcessNewBlock_eq_ok E fScriptChecks h with rfl | ⟨pindex, fChecked, hcheck, haccept, hconnect⟩
  · exact .inl rfl
  refine .inr ⟨pindex, _, hconnect, fun hpos => ?_⟩
  obtain ⟨hprev, hheight, -⟩ := ConnectTip_eq_ok E fScriptChecks hconnect
  have hchild : block.hashPrevBlock = st.tip.hashBlock := (AcceptBlock_eq_some E haccept).1 ▸ hprev
  show block.GetHeight = UInt32.ofNat pindex.nHeight
  rw [hheight]
  exact CheckBlock_GetHeight E hpos hchild hf hcheck

/-! ## Heights claimed along the active chain

The coinbase's claim is checked against the tip whenever the block object
still has its flag clear, except on the genesis tip, where any claim
passes. So over a run of steps that hand in fresh objects, as blocks read
from the network or from disk are, every block of the active chain above
height one claims its height. -/

/-- Every block of the active chain above height one claims, in its
coinbase, the height it is at. -/
def ChainState.HeightsClaimed (st : ChainState) : Prop :=
  ∀ e ∈ st.entries, 2 ≤ e.pindex.nHeight → e.block.GetHeight = UInt32.ofNat e.pindex.nHeight

/-- A step whose block, if it has one, is a fresh object. -/
def ChainStep.Fresh : ChainStep → Prop
  | .connect block => block.fChecked = false
  | .disconnect => True
  | .processNewBlock _ _ block => block.fChecked = false

theorem ChainState.HeightsClaimed.connectTip {st st' : ChainState} {pindex : CBlockIndex} {block : CBlock}
    (hinv : st.HeightsClaimed) (h : ConnectTip E fScriptChecks st pindex block = .ok st')
    (hclaim : st.tip.nHeight ≠ 0 → block.GetHeight = UInt32.ofNat pindex.nHeight) : st'.HeightsClaimed := by
  obtain ⟨-, hheight, view, vtxundo, history, -, -, rfl⟩ := ConnectTip_eq_ok E fScriptChecks h
  intro e he h2
  rcases List.mem_cons.1 he with rfl | he
  · -- the new tip is above height one only on a tip past the genesis block
    exact hclaim (by change 2 ≤ pindex.nHeight at h2; omega)
  · exact hinv e he h2

theorem ChainState.HeightsClaimed.disconnectTip {st st' : ChainState} (hinv : st.HeightsClaimed)
    (h : DisconnectTip E st = .ok st') : st'.HeightsClaimed := by
  obtain ⟨parent, rest, view, hbelow, -, -, rfl⟩ := DisconnectTip_eq_ok E h
  intro e he
  apply hinv e
  show e ∈ st.tipEntry :: st.below
  rw [hbelow]
  exact List.mem_cons_of_mem _ he

/-- The step lemma: a fresh step keeps every claim on the active chain. -/
theorem ChainState.HeightsClaimed.chainStep {st st' : ChainState} {s : ChainStep} (hinv : st.HeightsClaimed)
    (hs : s.Fresh) (h : chainStep E fScriptChecks st s = .ok st') : st'.HeightsClaimed := by
  cases s with
  | connect block =>
    -- the entry `ConnectTip` gets names the block's parent, which is the tip
    have hchild : block.hashPrevBlock = st.tip.hashBlock := (ConnectTip_eq_ok E fScriptChecks h).1
    exact hinv.connectTip E fScriptChecks h fun hpos => ConnectTip_GetHeight E fScriptChecks hpos hchild hs h
  | disconnect => exact hinv.disconnectTip E h
  | processNewBlock nAdjustedTime fForceProcessing block =>
    rcases ProcessNewBlock_GetHeight E fScriptChecks hs h with rfl | ⟨pindex, block', hc, hclaim⟩
    · exact hinv
    · exact hinv.connectTip E fScriptChecks hc hclaim

/-- The run lemma: the run rule with fresh steps. -/
theorem ChainState.HeightsClaimed.runSteps {steps : List ChainStep} {st st' : ChainState}
    (hinv : st.HeightsClaimed) (hfresh : ∀ s ∈ steps, s.Fresh) (h : runSteps E fScriptChecks st steps = .ok st') :
    st'.HeightsClaimed :=
  runSteps_step_invariant E fScriptChecks ChainState.HeightsClaimed ChainStep.Fresh
    (fun _ _ _ hs hinv hstep => hinv.chainStep E fScriptChecks hs hstep) hfresh hinv h

end Steps

/-! ## What the history should give

The xfield value in force at a height, read off the active chain: that of
the highest block below the height that carries one of the type. The
history is meant to answer `Get(type, h)` with it. -/

/-- The value of an xfield type in force at height `h` on the active chain:
the xfield of the highest block below `h` that carries one of the type (the
genesis block carries the first aggregate key). -/
def ChainState.xfieldInForce (st : ChainState) (type : TAPYRUS_XFIELDTYPES) (h : Nat) : Option XFieldData :=
  (st.entries.find? fun e => decide (e.pindex.nHeight < h) && e.block.xfield.xfieldType == type).map
    (·.block.xfield.xfieldValue)

/-! ## Sample chains

Witness data: a federation whose proof of a block is its key itself, so a
proof verifies under exactly one key, and blocks that hold only a coinbase. -/

def genesisKey : List UInt8 := 0x02 :: List.replicate 32 0

def nextKey : List UInt8 := 0x03 :: List.replicate 32 0x11

/-- A block after `prev` whose only transaction is a coinbase claiming
`height`, with an xfield, a proof and a time. -/
def coinbaseBlock (prev : uint256) (height : UInt32) (xfield : CXField) (proof : List UInt8) (nTime : UInt32) :
    CBlock :=
  let coinbase : CTransaction := ⟨[⟨⟨Blob.zero 32, height⟩, [0x01, 0x01], 0xffffffff, []⟩], [⟨5000000000, [OP_1]⟩], 1, 0⟩
  { nFeatures := 1, hashPrevBlock := prev,
    hashMerkleRoot := (ComputeMerkleRoot sampleCrypto.SHA256D64 [coinbase.GetHash sampleCrypto]).1,
    hashImMerkleRoot := (ComputeMerkleRoot sampleCrypto.SHA256D64 [coinbase.GetHashMalFix sampleCrypto]).1,
    nTime := nTime, xfield := xfield, proof := proof, vtx := [coinbase], fChecked := false }

/-- The genesis block, with the first aggregate key. -/
def sampleGenesis : CBlock := coinbaseBlock (Blob.zero 32) 0 ⟨.AGGPUBKEY, .aggPubKey genesisKey⟩ [] 0

def federationEnv : ValidationEnv :=
  ⟨sampleCrypto, fun key _ proof => proof == key, fun _ => true, fun _ _ _ => BaseSignatureChecker.base,
    sampleGenesis.GetHash sampleCrypto, 150⟩

/-- The chain state after the genesis block. -/
def sampleStart : ChainState := ChainState.genesis federationEnv sampleGenesis

/-- A block at height 1 that sets the next aggregate key. -/
def keyChangeBlock : CBlock :=
  coinbaseBlock federationEnv.genesisHash 1 ⟨.AGGPUBKEY, .aggPubKey nextKey⟩ genesisKey 1

/-- A competing block at height 1 that sets none. -/
def plainBlock : CBlock := coinbaseBlock federationEnv.genesisHash 1 ⟨.NONE, .empty⟩ genesisKey 1

/-- A block at height 2 on `plainBlock`, with a proof by `key`. -/
def heightTwoBlock (key : List UInt8) : CBlock :=
  coinbaseBlock (plainBlock.GetHash sampleCrypto) 2 ⟨.NONE, .empty⟩ key 2

theorem runSteps_keeps_abandoned_key :
    (runSteps federationEnv true sampleStart [.connect keyChangeBlock, .disconnect, .connect plainBlock]).map
        (fun st => (st.tip.nHeight, (st.history.Get .AGGPUBKEY 2).map (·.xfieldValue),
          st.xfieldInForce .AGGPUBKEY 2)) =
      .ok (1, some (.aggPubKey nextKey), some (.aggPubKey genesisKey)) ∧
    (runSteps federationEnv true sampleStart
        [.connect keyChangeBlock, .disconnect, .connect plainBlock, .connect (heightTwoBlock nextKey)]).map
        (·.tip.nHeight) = .ok 2 ∧
    federationEnv.Verify_Schnorr genesisKey ((heightTwoBlock nextKey).GetHashForSign sampleCrypto)
        (heightTwoBlock nextKey).proof = false ∧
    (runSteps federationEnv true sampleStart
        [.connect keyChangeBlock, .disconnect, .connect plainBlock, .connect (heightTwoBlock genesisKey)]).map
        (fun _ => ()) = .error (.invalid "bad-proof") := by
  refine ⟨by decide +kernel, by decide +kernel, by decide +kernel, by decide +kernel⟩

/-- A block at real height 1 whose coinbase claims height 7. -/
def wrongHeightBlock : CBlock := coinbaseBlock federationEnv.genesisHash 7 ⟨.NONE, .empty⟩ genesisKey 1

theorem ProcessNewBlock_accepts_wrong_height :
    (ProcessNewBlock federationEnv true 0 true sampleStart wrongHeightBlock).map
        (fun st => (st.tip.nHeight, st.tipEntry.block.GetHeight)) = .ok (1, 7) := by
  decide +kernel

end Tapyrus
