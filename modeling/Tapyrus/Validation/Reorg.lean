import Tapyrus.Validation.ChainState
import Tapyrus.Validation.Disconnect
/-!
# The coins view follows the active chain

The chain state keeps one coins view and changes it in place: `ConnectTip`
applies a block's transactions and stores the undo record, `DisconnectTip`
takes the tip's block out again with that record. Whatever the order of
connects, disconnects and received blocks, the view should hold the coins of
the active chain as it now is, as if the node had connected its blocks one
after another from the genesis block and never reorganised.

`chainUTXO` states those coins as a map from outpoints: each block above the
genesis block, oldest first, takes its transactions' inputs out of the map and
puts their outputs in (`UpdateUTXO`). `CCoinsViewCache.utxo` reads a view as
such a map. The link between the two levels is `ConnectBlock_UpdateUTXO`: the
view `ConnectBlock` leaves is the map its block's transactions give.

`ChainReachable` is the closure of the genesis state under `chainStep`, where a
block handed to `ConnectTip` meets the premises of the round trip
(`StepGuard`): its `fChecked` flag is sound, its hash is not the genesis
block's, and no coin of the view carries the id of its coinbase. The last one
is the premise the source leaves to the coinbase's height (BIP30/BIP34); the
model's height check does not ensure it. The run invariant
(`ChainState.Replayed`) keeps, for each entry of the active chain, the view
its block was connected on. `DisconnectTip` then finds the undo record that
connecting wrote and gives back the coins below (`DisconnectBlock_after_ConnectBlock`).
-/

namespace Tapyrus

open Lib CCoinsViewCache

/-! ## The coins of the active chain -/

/-- The coins of a view as a map from outpoints. -/
def CCoinsViewCache.utxo (view : CCoinsViewCache) : COutPoint → Option Coin := fun o => view.coins.lookup o

@[simp] theorem CCoinsViewCache.utxo_apply (view : CCoinsViewCache) (o : COutPoint) :
    view.utxo o = view.coins.lookup o := rfl

/-- A transaction's effect on the coins, as a map: the coins its inputs
spend are gone (a coinbase spends none), and its spendable outputs are there
at `nHeight`. -/
def UpdateUTXO (C : Crypto) (nHeight : Nat) (utxo : COutPoint → Option Coin) (tx : CTransaction) :
    COutPoint → Option Coin := fun o =>
  (outputAt (tx.GetHashMalFix C) nHeight tx.IsCoinBase 0 tx.vout o).or
    (if tx.IsCoinBase = false ∧ o ∈ tx.vin.map (·.prevout) then none else utxo o)

/-- The coins of a chain of entries, tip first: the genesis block's outputs
are no coins (`ConnectBlock` skips it), and every block above it applies its
transactions in order at its height. -/
def chainUTXO (C : Crypto) : List ChainEntry → COutPoint → Option Coin
  | [] => fun _ => none
  | [_] => fun _ => none
  | e :: e' :: rest => e.block.vtx.foldl (UpdateUTXO C e.pindex.nHeight) (chainUTXO C (e' :: rest))

/-! ## `ConnectBlock` computes the map -/

/-- `UpdateCoins` on a view of addable coins moves its map by `UpdateUTXO`. -/
theorem UpdateCoins_UpdateUTXO {C : Crypto} {tx : CTransaction} {V V' : CCoinsViewCache} {nHeight : Nat}
    {undo : List Coin} (hpos : nHeight ≠ 0) (hV : V.Addable) (hlen : tx.vout.length ≤ 2 ^ 32)
    (h : UpdateCoins C tx V nHeight = .ok (V', undo)) : V'.Addable ∧ V'.utxo = UpdateUTXO C nHeight V.utxo tx := by
  unfold UpdateCoins at h
  obtain ⟨⟨M, txundo⟩, hspend, h⟩ := bind_eq_ok h
  obtain ⟨M', hadd, hok⟩ := bind_eq_ok h
  cases hok
  -- the input loop runs for a transaction other than a coinbase
  have hM : ∀ o, M.coins.lookup o =
      if tx.IsCoinBase = false ∧ o ∈ tx.vin.map (·.prevout) then none else V.coins.lookup o := by
    cases hcb : tx.IsCoinBase with
    | false =>
      rw [hcb, Bool.not_false, if_pos rfl] at hspend
      obtain ⟨-, hlookM, -, -⟩ := spendInputs_spec tx.vin V M undo hspend
      simpa using hlookM
    | true =>
      rw [hcb, Bool.not_true, if_neg Bool.false_ne_true] at hspend
      cases hspend
      simp
  have hMadd : M.Addable := by
    intro o c hc
    rw [hM] at hc
    split at hc
    · cases hc
    · exact hV o c hc
  rw [AddCoins] at hadd
  obtain ⟨-, hM', hlookM', -⟩ := addOutputs_spec _ hpos tx.IsCoinBase tx.vout 0 M V' (by omega) hMadd hadd
  refine ⟨hM', funext fun o => ?_⟩
  rw [utxo_apply, hlookM', hM]
  rfl

section Connect

variable (E : ValidationEnv) (history : CXFieldHistoryMap) (fScriptChecks : Bool) (pindex : CBlockIndex)

/-- The transaction loop of `ConnectBlock` moves the map by `UpdateUTXO`,
transaction after transaction. -/
theorem connectTransactions_UpdateUTXO (hpos : pindex.nHeight ≠ 0) :
    ∀ (txs : List CTransaction) (i : Nat) (st st' : ConnectState), st.view.Addable →
      (∀ tx ∈ txs, tx.vout.length ≤ 2 ^ 32) → connectTransactions E history fScriptChecks pindex i st txs = .ok st' →
      st'.view.Addable ∧ st'.view.utxo = txs.foldl (UpdateUTXO E.C pindex.nHeight) st.view.utxo := by
  intro txs
  induction txs with
  | nil =>
    intro i st st' hV _ h
    cases h
    exact ⟨hV, rfl⟩
  | cons tx rest ih =>
    intro i st st' hV hlen h
    rw [connectTransactions] at h
    obtain ⟨st₁, h₁, h₂⟩ := bind_eq_ok h
    obtain ⟨undo, hupd, -⟩ := connectTx_UpdateCoins E history fScriptChecks pindex h₁
    obtain ⟨hV₁, hlook₁⟩ := UpdateCoins_UpdateUTXO hpos hV (hlen tx List.mem_cons_self) hupd
    obtain ⟨hV', hlook'⟩ := ih (i + 1) st₁ st' hV₁ (fun t ht => hlen t (List.mem_cons_of_mem tx ht)) h₂
    rw [hlook', hlook₁, List.foldl_cons]
    exact ⟨hV', rfl⟩

end Connect

/-- `ConnectBlock` on a view of addable coins leaves the map its block's
transactions give, of addable coins again. -/
theorem ConnectBlock_UpdateUTXO {E : ValidationEnv} {history : CXFieldHistoryMap} {fScriptChecks : Bool}
    {pindex : CBlockIndex} {tip : Option CBlockIndex} {block : CBlock} {view view' : CCoinsViewCache}
    {vtxundo : List CTxUndo} (hflag : FlagSound E block) (hgen : block.GetHash E.C ≠ E.genesisHash)
    (hpos : pindex.nHeight ≠ 0) (hview : view.Addable)
    (h : ConnectBlock E history fScriptChecks pindex tip block view false = .ok (view', vtxundo)) :
    view'.Addable ∧ view'.utxo = block.vtx.foldl (UpdateUTXO E.C pindex.nHeight) view.utxo := by
  obtain ⟨-, -, ⟨f, hcheck⟩, hrun, -⟩ := ConnectBlock_eq_ok E history fScriptChecks pindex h
  rcases hrun with ⟨hg, -⟩ | ⟨-, st, -, -, -, hloop, -, -, -, hcoins, -⟩
  · exact absurd hg hgen
  obtain ⟨hadd, hlook⟩ := connectTransactions_UpdateUTXO E history fScriptChecks pindex hpos block.vtx 0 _ st hview
    (hflag.vout_length E hcheck) hloop
  -- the view handed back holds the loop's coins
  have hsame : view'.utxo = st.view.utxo := funext fun o => by rw [utxo_apply, utxo_apply, hcoins]
  refine ⟨fun o c hc => hadd o c (by rw [← hcoins]; exact hc), ?_⟩
  rw [hsame, hlook]

/-! ## Which steps keep the view undoable -/

/-- No coin of the view carries the id of one of the block's coinbases. -/
def CoinbaseFresh (E : ValidationEnv) (view : CCoinsViewCache) (block : CBlock) : Prop :=
  ∀ o c, view.coins.lookup o = some c → ∀ tx ∈ block.vtx, tx.IsCoinBase = true → o.hashMalFix ≠ tx.GetHashMalFix E.C

/-- What a step needs of the block it hands to `ConnectTip`: a sound flag, a
hash other than the genesis block's (`AcceptBlock` ensures it for a block
received), and a coinbase id that no coin of the view carries. -/
def StepGuard (E : ValidationEnv) (st : ChainState) : ChainStep → Prop
  | .connect block => FlagSound E block ∧ block.GetHash E.C ≠ E.genesisHash ∧ CoinbaseFresh E st.view block
  | .disconnect => True
  | .processNewBlock _ _ block => FlagSound E block ∧ CoinbaseFresh E st.view block

/-- The chain states a node reaches from the genesis state by steps whose
blocks meet the guard. -/
inductive ChainReachable (E : ValidationEnv) (fScriptChecks : Bool) (genesisBlock : CBlock) : ChainState → Prop where
  | genesis : ChainReachable E fScriptChecks genesisBlock (ChainState.genesis E genesisBlock)
  | step {st st' : ChainState} (s : ChainStep) : ChainReachable E fScriptChecks genesisBlock st → StepGuard E st s →
      chainStep E fScriptChecks st s = .ok st' → ChainReachable E fScriptChecks genesisBlock st'

/-- The entries of an active chain, each connected with its undo record on
a view of addable coins holding the coins of the entries below it, under the
premises of the round trip. -/
inductive Undoable (E : ValidationEnv) : List ChainEntry → Prop where
  | genesis (e : ChainEntry) : Undoable E [e]
  | connect {e : ChainEntry} {below : List ChainEntry} (history : CXFieldHistoryMap) (fScriptChecks : Bool)
      (tip : Option CBlockIndex) (V V' : CCoinsViewCache) : Undoable E below → V.utxo = chainUTXO E.C below →
      V.Addable → FlagSound E e.block → e.block.GetHash E.C ≠ E.genesisHash → e.pindex.nHeight ≠ 0 →
      CoinbaseFresh E V e.block → ConnectBlock E history fScriptChecks e.pindex tip e.block V false = .ok (V', e.vtxundo) →
      Undoable E (e :: below)

/-- The run invariant: a linked chain whose entries can be undone, and a view
of addable coins that holds the coins of the chain. -/
structure ChainState.Replayed (E : ValidationEnv) (st : ChainState) : Prop where
  wellFormed : st.WellFormed
  undoable : Undoable E st.entries
  coins : st.view.utxo = chainUTXO E.C st.entries
  addable : st.view.Addable

section Steps

variable (E : ValidationEnv) (fScriptChecks : Bool)

theorem ChainState.Replayed.genesis (genesisBlock : CBlock) : (ChainState.genesis E genesisBlock).Replayed E := by
  refine ⟨ChainState.WellFormed.genesis E genesisBlock, .genesis _, funext fun o => ?_, fun o c hc => ?_⟩
  · simp [ChainState.genesis, genesisView, chainUTXO, ChainState.entries]
  · simp [ChainState.genesis, genesisView] at hc

/-- A pass of `CheckBlock` on a block whose flag is sound sets a sound
flag: `ProcessNewBlock` connects the block object with the result. -/
theorem FlagSound.CheckBlock {block : CBlock} (hs : FlagSound E block) {tip : Option CBlockIndex}
    {history : CXFieldHistoryMap} {temp : Option CXFieldHistoryMap} {f : Bool}
    (h : Tapyrus.CheckBlock E tip history temp block true true = .ok f) : FlagSound E { block with fChecked := f } := by
  intro hf
  change f = true at hf
  subst hf
  cases hb : block.fChecked with
  | false =>
    -- the pass ran on the block itself
    have hblock : { { block with fChecked := true } with fChecked := false } = block := by
      cases block
      simp_all
    exact ⟨tip, history, temp, by rw [hblock]; exact h⟩
  | true => exact hs hb

theorem DisconnectTip_eq_of {st : ChainState} {parent : ChainEntry} {rest : List ChainEntry} {view : CCoinsViewCache}
    (hbelow : st.below = parent :: rest) (hbest : st.view.GetBestBlock = st.tip.hashBlock)
    (hdis : DisconnectBlock E.C st.tipEntry.block st.tip st.tipEntry.vtxundo st.view = .ok (.DISCONNECT_OK, view)) :
    DisconnectTip E st = .ok ⟨parent, rest, view, st.history⟩ := by
  unfold DisconnectTip
  rw [hbelow]
  dsimp only
  rw [if_neg (not_not.2 hbest), hdis]

/-- `ConnectTip` of a block that meets the guard keeps the invariant: the
new entry is connected on the view of the chain below it. -/
theorem ChainState.Replayed.connectTip {st st' : ChainState} {pindexNew : CBlockIndex} {block : CBlock}
    (hr : st.Replayed E) (hflag : FlagSound E block) (hgen : block.GetHash E.C ≠ E.genesisHash)
    (hfresh : CoinbaseFresh E st.view block) (h : ConnectTip E fScriptChecks st pindexNew block = .ok st') :
    st'.Replayed E := by
  have hwf := ConnectTip_wellFormed E fScriptChecks hr.wellFormed h
  obtain ⟨-, hheight, view, vtxundo, history, hconnect, -, rfl⟩ := ConnectTip_eq_ok E fScriptChecks h
  have hpos : pindexNew.nHeight ≠ 0 := by omega
  obtain ⟨hadd, hlook⟩ := ConnectBlock_UpdateUTXO hflag hgen hpos hr.addable hconnect
  refine ⟨hwf, .connect st.history fScriptChecks (some st.tip) st.view view hr.undoable hr.coins hr.addable hflag
    hgen hpos hfresh hconnect, ?_, hadd⟩
  -- the new tip's transactions on the coins of the chain below it
  rw [hlook, hr.coins]
  rfl

/-- From the invariant, `DisconnectTip` of a tip above the genesis block
succeeds and leaves the coins of the chain below: the tip's undo record is the
one connecting it wrote, and the view holds what connecting it left. -/
theorem ChainState.Replayed.DisconnectTip_eq {st : ChainState} {parent : ChainEntry} {rest : List ChainEntry}
    (hr : st.Replayed E) (hbelow : st.below = parent :: rest) :
    ∃ view, DisconnectTip E st = .ok ⟨parent, rest, view, st.history⟩ ∧ view.utxo = chainUTXO E.C st.below ∧
      view.Addable ∧ Undoable E st.below := by
  have hundo := hr.undoable
  rw [ChainState.entries, hbelow] at hundo
  cases hundo with
  | connect history fScriptChecks tip V V' hbelow' hV hVadd hflag hgen hpos hfresh hconnect =>
    obtain ⟨-, hlook'⟩ := ConnectBlock_UpdateUTXO hflag hgen hpos hVadd hconnect
    have hX : st.view.utxo = V'.utxo := by
      rw [hr.coins, hlook', hV, ChainState.entries, hbelow]
      rfl
    obtain ⟨view, hdis, -, hlook⟩ := DisconnectBlock_after_ConnectBlock hflag hgen hpos hVadd hfresh hconnect st.view
      (congrFun hX)
    have hsame : view.utxo = V.utxo := funext hlook
    refine ⟨view, DisconnectTip_eq_of E hbelow hr.wellFormed.atTip hdis, ?_, ?_, ?_⟩
    · rw [hsame, hV, hbelow]
    · intro o c hc
      exact hVadd o c (by rw [← hlook]; exact hc)
    · rw [hbelow]
      exact hbelow'

theorem ChainState.Replayed.disconnectTip {st st' : ChainState} (hr : st.Replayed E) (h : DisconnectTip E st = .ok st') :
    st'.Replayed E := by
  have hwf := DisconnectTip_wellFormed E hr.wellFormed h
  obtain ⟨parent, rest, -, hbelow, -, -, -⟩ := DisconnectTip_eq_ok E h
  obtain ⟨view, hdis, hcoins, hadd, hundo⟩ := hr.DisconnectTip_eq E hbelow
  rw [hdis] at h
  cases h
  rw [hbelow] at hcoins hundo
  exact ⟨hwf, hundo, hcoins, hadd⟩

/-- Every guarded step keeps the invariant: a received block is connected
with the flag its own `CheckBlock` pass set. -/
theorem ChainState.Replayed.chainStep {st st' : ChainState} {s : ChainStep} (hr : st.Replayed E)
    (hg : StepGuard E st s) (h : Tapyrus.chainStep E fScriptChecks st s = .ok st') : st'.Replayed E := by
  cases s with
  | connect block =>
    obtain ⟨hflag, hgen, hfresh⟩ := hg
    exact hr.connectTip E fScriptChecks hflag hgen hfresh h
  | disconnect => exact hr.disconnectTip E h
  | processNewBlock nAdjustedTime fForceProcessing block =>
    obtain ⟨hflag, hfresh⟩ := hg
    rcases ProcessNewBlock_eq_ok E fScriptChecks h with rfl | ⟨pindex, fChecked, hcheck, haccept, hconnect⟩
    · exact hr
    · exact hr.connectTip E fScriptChecks (hflag.CheckBlock E hcheck) (AcceptBlock_eq_some E haccept).2.2 hfresh
        hconnect

end Steps

section Runs

variable {E : ValidationEnv} {fScriptChecks : Bool} {genesisBlock : CBlock}

/-- The invariant holds of every reachable state, by induction on the run. -/
theorem ChainReachable.replayed {st : ChainState} (h : ChainReachable E fScriptChecks genesisBlock st) :
    st.Replayed E := by
  induction h with
  | genesis => exact ChainState.Replayed.genesis E genesisBlock
  | step s _ hg hstep ih => exact ih.chainStep E fScriptChecks hg hstep

/-- The coins view follows the active chain. After any run of connects,
disconnects and received blocks from the genesis state, in which every block
handed to `ConnectTip` meets the guard, the view holds exactly the coins of
the active chain: those of its blocks connected one after another from the
genesis block, whatever reorganisations came in between. -/
theorem ChainReachable.utxo_eq_chainUTXO {st : ChainState} (h : ChainReachable E fScriptChecks genesisBlock st) :
    st.view.utxo = chainUTXO E.C st.entries :=
  h.replayed.coins

/-- The sample chain's key-setting block meets the guard on the genesis state. -/
theorem keyChangeBlock_guard : StepGuard federationEnv sampleStart (.connect keyChangeBlock) := by
  refine ⟨fun hc => absurd hc (by decide), by decide +kernel, fun o c hc => ?_⟩
  simp [sampleStart, ChainState.genesis, genesisView] at hc

/-- A reorganisation of the sample chain: the block that sets the next key
is connected, taken off again, and replaced by a competing block. -/
theorem ChainReachable.utxo_eq_chainUTXO_reorg :
    ∃ st, ChainReachable federationEnv true sampleGenesis st ∧ st.tipEntry.block = plainBlock ∧
      st.view.utxo = chainUTXO federationEnv.C st.entries := by
  obtain ⟨st, hrun⟩ := exists_eq_ok_of_isOk (show (runSteps federationEnv true sampleStart
    [.connect keyChangeBlock, .disconnect, .connect plainBlock]).isOk = true by decide +kernel)
  rw [runSteps] at hrun
  obtain ⟨st₁, h₁, hrun⟩ := bind_eq_ok hrun
  rw [runSteps] at hrun
  obtain ⟨st₂, h₂, hrun⟩ := bind_eq_ok hrun
  replace h₂ : DisconnectTip federationEnv st₁ = .ok st₂ := h₂
  rw [runSteps] at hrun
  obtain ⟨st₃, h₃, hrun⟩ := bind_eq_ok hrun
  obtain rfl : st₃ = st := Except.ok.inj hrun
  have hreach₁ : ChainReachable federationEnv true sampleGenesis st₁ := .step _ .genesis keyChangeBlock_guard h₁
  have hreach₂ : ChainReachable federationEnv true sampleGenesis st₂ := .step .disconnect hreach₁ trivial h₂
  -- back at the genesis block, with no coin
  have hempty : st₂.view.utxo = fun _ => none := by
    rw [ChainReachable.utxo_eq_chainUTXO hreach₂]
    obtain ⟨-, -, view, vtxundo, history, -, -, rfl⟩ := ConnectTip_eq_ok federationEnv true h₁
    obtain ⟨parent, rest, view₂, hbelow, -, -, rfl⟩ := DisconnectTip_eq_ok federationEnv h₂
    cases hbelow
    rfl
  have hguard₃ : StepGuard federationEnv st₂ (.connect plainBlock) := by
    refine ⟨fun hc => absurd hc (by decide), by decide +kernel, fun o c hc => ?_⟩
    rw [← utxo_apply, hempty] at hc
    cases hc
  have hreach₃ : ChainReachable federationEnv true sampleGenesis st₃ := .step _ hreach₂ hguard₃ h₃
  obtain ⟨-, -, view, vtxundo, history, -, -, rfl⟩ := ConnectTip_eq_ok federationEnv true h₃
  exact ⟨_, hreach₃, rfl, ChainReachable.utxo_eq_chainUTXO hreach₃⟩

end Runs

end Tapyrus
