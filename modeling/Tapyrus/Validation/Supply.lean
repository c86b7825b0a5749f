import Tapyrus.Validation.ConnectBlock
/-!
# The TPC supply

TPC and tokens share `CTxOut.nValue`; what keeps the TPC side bounded is
three filters on the color a script carries: `CheckTxInputs` adds up the TPC
inputs, `GetValueOut(ColorIdentifier())` the TPC outputs (of each
transaction, and of the coinbase against the reward), and `CheckBlock` bars
colored coinbase outputs.

`tpcSupply` is the value of the view's TPC coins. One transaction other than
the coinbase moves exactly its fee out of the supply (`connectTx_supply`);
the coinbase adds at most its TPC outputs, which `ConnectBlock` bounds by the
fees plus the subsidy. So a connected block raises the supply by at most its
subsidy (`ConnectBlock_tpcSupply_le`), and a chain of blocks from the view
the genesis block leaves holds at most the sum of their subsidies.

`CheckBlock` is what guarantees the block's shape (a coinbase first and only
there, no negative output, no outpoint spent twice in one transaction). It
may return early on a block object whose `fChecked` is set; that flag is
only ever set by a full pass, which `FlagSound` states.
-/

namespace Tapyrus

open Lib CCoinsViewCache

/-- The TPC the view holds. -/
def tpcSupply (view : CCoinsViewCache) : Int := amountWhere IsTPC view

/-- The TPC a transaction's outputs carry. -/
def tpcValueOut (tx : CTransaction) : Int := (tx.vout.map (outTerm IsTPC)).sum

/-! ## What `CheckBlock` guarantees -/

/-- The shape of a block's transactions the accounting needs. -/
structure WellFormedTxs (vtx : List CTransaction) : Prop where
  coinbase_first : ∃ cb rest, vtx = cb :: rest ∧ cb.IsCoinBase = true ∧ ∀ tx ∈ rest, tx.IsCoinBase = false
  outputs_nonneg : ∀ tx ∈ vtx, ∀ out ∈ tx.vout, 0 ≤ out.nValue
  inputs_distinct : ∀ tx ∈ vtx, (tx.vin.map (·.prevout)).Nodup

theorem checkTransactions_eq_ok {history : CXFieldHistoryMap} :
    ∀ {vtx : List CTransaction}, checkTransactions history vtx = .ok () →
      ∀ tx ∈ vtx, CheckTransaction history tx true = .ok () := by
  intro vtx
  induction vtx with
  | nil =>
    intro _ tx htx
    cases htx
  | cons tx rest ih =>
    intro h t ht
    obtain ⟨u, hcheck, hrest⟩ := bind_eq_ok h
    rcases List.mem_cons.1 ht with rfl | hmem
    · exact hcheck
    · exact ih hrest t hmem

section Checked

variable (E : ValidationEnv)

/-- A full pass of `CheckBlock` establishes the shape. -/
theorem CheckBlock_wellFormed {tip : Option CBlockIndex} {history : CXFieldHistoryMap}
    {temp : Option CXFieldHistoryMap} {block : CBlock} {pow mr f : Bool} (hf : block.fChecked = false)
    (h : CheckBlock E tip history temp block pow mr = .ok f) : WellFormedTxs block.vtx := by
  unfold CheckBlock at h
  rw [hf] at h
  simp only [Bool.false_eq_true, if_false] at h
  obtain ⟨_, -, h⟩ := bind_eq_ok h
  split at h
  · cases h
  rename_i cb rest hvtx
  -- the coinbase checks, the size limit, and the header
  split at h
  · cases h
  rename_i hcb
  split at h
  · cases h
  split at h
  · cases h
  split at h
  · split at h
    · cases h
    obtain ⟨_, -, h⟩ := bind_eq_ok h
    split at h
    · cases h
    rename_i hmulti
    obtain ⟨_, htxs, -⟩ := bind_eq_ok h
    have hcheck := checkTransactions_eq_ok htxs
    refine ⟨⟨cb, rest, hvtx, by simpa using hcb, ?_⟩, ?_, ?_⟩
    · intro tx htx
      simp only [List.any_eq_true, not_exists, not_and, Bool.not_eq_true] at hmulti
      exact hmulti tx htx
    · intro tx htx
      exact (CheckTransaction_eq_ok (hcheck tx htx)).1
    · intro tx htx
      exact (CheckTransaction_eq_ok (hcheck tx htx)).2 rfl
  · cases h

/-- The block object's `fChecked` is set only by a pass of `CheckBlock` with
the proof and both merkle roots checked. -/
def FlagSound (block : CBlock) : Prop :=
  block.fChecked = true →
    ∃ tip history temp, CheckBlock E tip history temp { block with fChecked := false } true true = .ok true

/-- So any pass of `CheckBlock` on a block whose flag is sound establishes the
shape. -/
theorem FlagSound.wellFormed {block : CBlock} (hs : FlagSound E block) {tip : Option CBlockIndex}
    {history : CXFieldHistoryMap} {temp : Option CXFieldHistoryMap} {pow mr f : Bool}
    (h : CheckBlock E tip history temp block pow mr = .ok f) : WellFormedTxs block.vtx := by
  cases hf : block.fChecked
  · exact CheckBlock_wellFormed E hf h
  · obtain ⟨tip', history', temp', h'⟩ := hs hf
    exact @CheckBlock_wellFormed E _ _ _ { block with fChecked := false } _ _ _ rfl h'

end Checked

/-! ## One transaction, one block -/

theorem GetBlockSubsidy_nonneg (nHeight nSubsidyHalvingInterval : Nat) :
    0 ≤ GetBlockSubsidy nHeight nSubsidyHalvingInterval := by
  unfold GetBlockSubsidy
  dsimp only
  split
  · exact le_refl 0
  · exact Int.zero_le_ofNat _

section Supply

variable (E : ValidationEnv) (history : CXFieldHistoryMap) (fScriptChecks : Bool) (pindex : CBlockIndex)

/-- The fee checks add the transaction's fee: its TPC in minus its TPC out. -/
theorem checkFees_eq_ok {tx : CTransaction} {view : CCoinsViewCache} {nFees nFees' : Int}
    (h : checkFees pindex tx view nFees = .ok nFees') :
    nFees' = nFees + (tpcValueIn tx view - tpcValueOut tx) := by
  unfold checkFees at h
  obtain ⟨txfee, hfee, h⟩ := bind_eq_ok h
  obtain ⟨-, hval, -⟩ := CheckTxInputs_eq_ok hfee
  dsimp only at h
  split at h
  · cases h
  split at h
  · cases h
  cases h
  rw [hval]
  rfl

/-- What one transaction does: a coinbase adds at most its TPC outputs to the
supply; any other transaction moves exactly its fee from the supply to the
fees. -/
theorem connectTx_supply {i : Nat} {st st' : ConnectState} {tx : CTransaction} (hv : NonNeg st.view)
    (hout : ∀ out ∈ tx.vout, 0 ≤ out.nValue) (hnd : (tx.vin.map (·.prevout)).Nodup)
    (h : connectTx E history fScriptChecks pindex i st tx = .ok st') :
    tpcSupply st'.view + st'.nFees ≤
        tpcSupply st.view + st.nFees + (if tx.IsCoinBase then tpcValueOut tx else 0) ∧
      NonNeg st'.view := by
  unfold connectTx at h
  obtain ⟨nFees, hfees, h⟩ := bind_eq_ok h
  obtain ⟨nSigOps, -, h⟩ := bind_eq_ok h
  dsimp only at h
  cases hmax : GetMaxBlockSigops history with
  | none => simp [hmax] at h
  | some nMaxSigOps =>
  simp only [hmax] at h
  split at h
  · cases h
  -- the scripts only reject; then `UpdateCoins` moves the coins
  have hupd : ∃ r, UpdateCoins E.C tx st.view pindex.nHeight = .ok r ∧
      st' = ⟨r.1, nFees, st.nSigOpsCost + nSigOps, if i > 0 then st.vtxundo ++ [r.2] else st.vtxundo⟩ := by
    obtain ⟨_, -, h⟩ := bind_eq_ok h
    obtain ⟨r, hr, hok⟩ := bind_eq_ok h
    cases hok
    exact ⟨r, hr, rfl⟩
  obtain ⟨⟨view', undo⟩, hr, rfl⟩ := hupd
  obtain ⟨hle, hv'⟩ := amountWhere_UpdateCoins_le IsTPC hv hout hr
  obtain ⟨hundo_cb, hundo⟩ := UpdateCoins_undo hr
  refine ⟨?_, hv'⟩
  simp only [tpcSupply]
  cases hcb : tx.IsCoinBase
  · -- the spent coins are the inputs' coins: their terms are the TPC in
    simp only [hcb, Bool.not_false, if_true] at hfees
    have hfee := checkFees_eq_ok pindex hfees
    rw [hundo hcb hnd, List.map_map] at hle
    simp only [tpcValueIn, tpcValueOut, Function.comp_def] at hle hfee ⊢
    simp only [Bool.false_eq_true, if_false]
    omega
  · -- a coinbase spends nothing and pays no fee
    simp only [hcb, Bool.not_true, Bool.false_eq_true, if_false] at hfees
    cases hfees
    rw [hundo_cb hcb] at hle
    simp only [tpcValueOut, if_true]
    simp only [List.map_nil, List.sum_nil, add_zero] at hle
    omega

/-- The transaction loop: the supply and the fees together grow by at most
the TPC outputs of the coinbases among the transactions. -/
theorem connectTransactions_supply :
    ∀ {vtx : List CTransaction} {i : Nat} {st st' : ConnectState}, NonNeg st.view →
      (∀ tx ∈ vtx, ∀ out ∈ tx.vout, 0 ≤ out.nValue) → (∀ tx ∈ vtx, (tx.vin.map (·.prevout)).Nodup) →
      connectTransactions E history fScriptChecks pindex i st vtx = .ok st' →
      tpcSupply st'.view + st'.nFees ≤
          tpcSupply st.view + st.nFees + (vtx.map fun tx => if tx.IsCoinBase then tpcValueOut tx else 0).sum ∧
        NonNeg st'.view := by
  intro vtx
  induction vtx with
  | nil =>
    intro i st st' hv _ _ h
    cases h
    simpa using hv
  | cons tx rest ih =>
    intro i st st' hv hout hnd h
    obtain ⟨mid, hstep, hrest⟩ := bind_eq_ok h
    obtain ⟨hle, hmid⟩ := connectTx_supply E history fScriptChecks pindex hv (hout tx List.mem_cons_self)
      (hnd tx List.mem_cons_self) hstep
    obtain ⟨hle', hv'⟩ := ih hmid (fun t ht => hout t (List.mem_cons_of_mem tx ht))
      (fun t ht => hnd t (List.mem_cons_of_mem tx ht)) hrest
    refine ⟨?_, hv'⟩
    simp only [List.map_cons, List.sum_cons]
    omega

/-- A connected block raises the TPC supply by at most its subsidy. -/
theorem ConnectBlock_tpcSupply_le {tip : Option CBlockIndex} {block : CBlock} {view view' : CCoinsViewCache}
    {fJustCheck : Bool} {vtxundo : List CTxUndo} (hsound : FlagSound E block) (hv : NonNeg view)
    (h : ConnectBlock E history fScriptChecks pindex tip block view fJustCheck = .ok (view', vtxundo)) :
    tpcSupply view' ≤ tpcSupply view + GetBlockSubsidy pindex.nHeight E.nSubsidyHalvingInterval ∧
      NonNeg view' := by
  have hsub := GetBlockSubsidy_nonneg pindex.nHeight E.nSubsidyHalvingInterval
  unfold ConnectBlock at h
  split at h
  · cases h
  obtain ⟨_, hcheck, h⟩ := bind_eq_ok h
  have hwf := hsound.wellFormed E hcheck
  split at h
  · cases h
  split at h
  · -- the genesis block: the coins stay as they are
    have hcoins : view'.coins = view.coins := by
      simp only [pure, Except.pure, Except.ok.injEq, Prod.mk.injEq] at h
      rw [← h.1]
      split <;> rfl
    exact ⟨by simp only [tpcSupply, amountWhere, hcoins]; omega, fun o c hc => hv o c (hcoins ▸ hc)⟩
  obtain ⟨st, hloop, h⟩ := bind_eq_ok h
  obtain ⟨cb, rest, hvtx, hcb, hrest⟩ := hwf.coinbase_first
  obtain ⟨hle, hv'⟩ := connectTransactions_supply E history fScriptChecks pindex hv hwf.outputs_nonneg
    hwf.inputs_distinct hloop
  simp only [hvtx] at h hle
  obtain ⟨cbOut, hout, h⟩ := bind_eq_ok h
  -- only the coinbase counts in the loop's bound, and the reward bounds it
  have hcbOut : cbOut = tpcValueOut cb := by
    rw [GetValueOut_eq_ok hout, valueOfColor_none]
    rfl
  have hrest0 : (rest.map fun tx => if tx.IsCoinBase then tpcValueOut tx else 0).sum = 0 := by
    apply List.sum_eq_zero
    intro x hx
    obtain ⟨tx, htx, rfl⟩ := List.mem_map.1 hx
    simp [hrest tx htx]
  simp only [List.map_cons, List.sum_cons, hcb, if_true, hrest0, add_zero] at hle
  split at h
  · cases h
  rename_i hreward
  have hcoins : view'.coins = st.view.coins := by split at h <;> (cases h; rfl)
  have hsame : tpcSupply view' = tpcSupply st.view := by simp only [tpcSupply, amountWhere, hcoins]
  refine ⟨?_, fun o c hc => hv' o c (hcoins ▸ hc)⟩
  omega

end Supply

/-! ## A chain of blocks -/

/-- One block of a chain connected in turn: the block, its index entry, and
the tip, history and `fScriptChecks` its `ConnectBlock` ran with. -/
structure BlockStep where
  block : CBlock
  pindex : CBlockIndex
  tip : Option CBlockIndex
  history : CXFieldHistoryMap
  fScriptChecks : Bool

/-- `ConnectBlock` on each block in turn, on the view the previous one left. -/
def connectBlocks (E : ValidationEnv) : CCoinsViewCache → List BlockStep → Valid CCoinsViewCache
  | view, [] => .ok view
  | view, s :: rest => do
    let (view, _) ← ConnectBlock E s.history s.fScriptChecks s.pindex s.tip s.block view false
    connectBlocks E view rest

/-- The view the genesis block leaves: no coin (its coinbase is not added),
and the genesis block as the best block. -/
def genesisView (E : ValidationEnv) : CCoinsViewCache := ⟨∅, E.genesisHash⟩

theorem NonNeg.genesisView (E : ValidationEnv) : NonNeg (genesisView E) := by
  intro o c h
  simp [Tapyrus.genesisView, AList.lookup_empty] at h

theorem tpcSupply_genesisView (E : ValidationEnv) : tpcSupply (genesisView E) = 0 := rfl

/-- Over a chain, the supply grows by at most the blocks' subsidies. -/
theorem connectBlocks_tpcSupply_le (E : ValidationEnv) :
    ∀ {steps : List BlockStep} {view view' : CCoinsViewCache}, NonNeg view →
      (∀ s ∈ steps, FlagSound E s.block) → connectBlocks E view steps = .ok view' →
      tpcSupply view' ≤
        tpcSupply view + (steps.map fun s => GetBlockSubsidy s.pindex.nHeight E.nSubsidyHalvingInterval).sum := by
  intro steps
  induction steps with
  | nil =>
    intro view view' _ _ h
    cases h
    simp
  | cons s rest ih =>
    intro view view' hv hsound h
    obtain ⟨⟨mid, _⟩, hblock, hrest⟩ := bind_eq_ok h
    obtain ⟨hle, hmid⟩ :=
      ConnectBlock_tpcSupply_le E s.history s.fScriptChecks s.pindex (hsound s List.mem_cons_self) hv hblock
    have hle' := ih hmid (fun t ht => hsound t (List.mem_cons_of_mem s ht)) hrest
    simp only [List.map_cons, List.sum_cons]
    omega

/-- The TPC that blocks at heights `1 .. n`, connected one after another from
the view the genesis block leaves, hold is at most the sum of their
subsidies. -/
theorem connectBlocks_tpcSupply_le_subsidies (E : ValidationEnv) (steps : List BlockStep) (view : CCoinsViewCache)
    (hheights : steps.map (·.pindex.nHeight) = List.range' 1 steps.length)
    (hsound : ∀ s ∈ steps, FlagSound E s.block) (hrun : connectBlocks E (genesisView E) steps = .ok view) :
    tpcSupply view ≤ ((List.range' 1 steps.length).map fun h => GetBlockSubsidy h E.nSubsidyHalvingInterval).sum := by
  have hle := connectBlocks_tpcSupply_le E (NonNeg.genesisView E) hsound hrun
  rw [tpcSupply_genesisView, zero_add] at hle
  have hsum : (steps.map fun s => GetBlockSubsidy s.pindex.nHeight E.nSubsidyHalvingInterval) =
      (List.range' 1 steps.length).map fun h => GetBlockSubsidy h E.nSubsidyHalvingInterval := by
    rw [← hheights, List.map_map]
    rfl
  rwa [hsum] at hle

/-! ## A regtest-like chain of two blocks

Witness data: hash functions that add up the input's bytes position by
position (so transactions and blocks that differ get different ids), a
federation signature check that always passes, and the regtest halving
interval. The first block holds only its coinbase; the second spends that
coinbase to issue a token and transfers the token in a second transaction. -/

/-- The bytes of the input added into `acc`, byte `i` at position `i % n`. -/
def foldBytes (n : Nat) : Nat → List UInt8 → List UInt8 → List UInt8
  | _, acc, [] => acc
  | i, acc, b :: bs => foldBytes n (i + 1) (acc.modify (i % n) (· + b)) bs

theorem foldBytes_length (n : Nat) : ∀ (i : Nat) (acc bs : List UInt8), (foldBytes n i acc bs).length = acc.length
  | _, _, [] => rfl
  | i, acc, b :: bs => by rw [foldBytes, foldBytes_length n (i + 1), List.length_modify]

/-- The input folded into `n` bytes. -/
def foldHash (n : Nat) (x : List UInt8) : Blob n := ⟨foldBytes n 0 (List.replicate n 0) x, by simp [foldBytes_length]⟩

def sampleCrypto : Crypto := ⟨foldHash 32, foldHash 20, foldHash 20, fun _ => true⟩

def sampleGenesisHash : uint256 := ⟨List.replicate 32 0xaa, by simp⟩

def sampleEnv : ValidationEnv :=
  ⟨sampleCrypto, fun _ _ _ => true, fun _ => true, fun _ _ _ => BaseSignatureChecker.base, sampleGenesisHash, 150⟩

def sampleHistory : CXFieldHistoryMap :=
  CXFieldHistoryMap.ofGenesis (.aggPubKey (0x02 :: List.replicate 32 0)) sampleGenesisHash

def sampleGenesisIndex : CBlockIndex := ⟨0, sampleGenesisHash, Blob.zero 32, fun _ => 0⟩

/-- A coinbase at height 1 paying the whole subsidy to `OP_1`. -/
def sampleCoinbase : CTransaction :=
  ⟨[⟨⟨Blob.zero 32, 1⟩, [0x01, 0x01], 0xffffffff, []⟩], [⟨5000000000, [OP_1]⟩], 1, 0⟩

def sampleBlock : CBlock :=
  { nFeatures := 1, hashPrevBlock := sampleGenesisHash,
    hashMerkleRoot := (ComputeMerkleRoot sampleCrypto.SHA256D64 [sampleCoinbase.GetHash sampleCrypto]).1,
    hashImMerkleRoot := (ComputeMerkleRoot sampleCrypto.SHA256D64 [sampleCoinbase.GetHashMalFix sampleCrypto]).1,
    nTime := 0, xfield := ⟨.NONE, .empty⟩, proof := [1], vtx := [sampleCoinbase], fChecked := false }

def sampleStep : BlockStep :=
  ⟨sampleBlock, ⟨1, sampleBlock.GetHash sampleCrypto, sampleGenesisHash, fun _ => 0⟩, some sampleGenesisIndex,
    sampleHistory, true⟩

/-- `<0x21 color> OP_COLOR OP_1`: a custom colored script anyone can spend. -/
def coloredAnyoneCanSpend (colorId : ColorIdentifier) : CScript := [0x21] ++ colorId.serialize ++ [OP_COLOR, OP_1]

/-- The reissuable token of the script `OP_1`. -/
def sampleTokenColor : ColorIdentifier := ColorIdentifier.ofScript sampleCrypto.sha256 [OP_1]

/-- A coinbase at height 2 paying the subsidy and the fees to `OP_1`. -/
def sampleCoinbase2 : CTransaction :=
  ⟨[⟨⟨Blob.zero 32, 2⟩, [0x01, 0x02], 0xffffffff, []⟩], [⟨5000010000, [OP_1]⟩], 1, 0⟩

/-- Spends the first coinbase into 100 units of the token and the TPC back,
less a fee of 10000. -/
def tokenIssueTx : CTransaction :=
  ⟨[⟨⟨sampleCoinbase.GetHashMalFix sampleCrypto, 0⟩, [], 0xffffffff, []⟩],
    [⟨100, coloredAnyoneCanSpend sampleTokenColor⟩, ⟨4999990000, [OP_1]⟩], 1, 0⟩

/-- Splits the 100 units into 60 and 40. -/
def tokenTransferTx : CTransaction :=
  ⟨[⟨⟨tokenIssueTx.GetHashMalFix sampleCrypto, 0⟩, [], 0xffffffff, []⟩],
    [⟨60, coloredAnyoneCanSpend sampleTokenColor⟩, ⟨40, coloredAnyoneCanSpend sampleTokenColor⟩], 1, 0⟩

def tokenBlock : CBlock :=
  { nFeatures := 1, hashPrevBlock := sampleBlock.GetHash sampleCrypto,
    hashMerkleRoot := (ComputeMerkleRoot sampleCrypto.SHA256D64
      ([sampleCoinbase2, tokenIssueTx, tokenTransferTx].map (·.GetHash sampleCrypto))).1,
    hashImMerkleRoot := (ComputeMerkleRoot sampleCrypto.SHA256D64
      ([sampleCoinbase2, tokenIssueTx, tokenTransferTx].map (·.GetHashMalFix sampleCrypto))).1,
    nTime := 1, xfield := ⟨.NONE, .empty⟩, proof := [1], vtx := [sampleCoinbase2, tokenIssueTx, tokenTransferTx],
    fChecked := false }

def tokenStep : BlockStep :=
  ⟨tokenBlock, ⟨2, tokenBlock.GetHash sampleCrypto, sampleBlock.GetHash sampleCrypto, fun _ => 0⟩,
    some sampleStep.pindex, sampleHistory, true⟩

/-- The two blocks connect. The view then holds the 100 units of the token,
and TPC within the two subsidies. -/
theorem connectBlocks_tpcSupply_le_subsidies_sample :
    ∃ view, connectBlocks sampleEnv (genesisView sampleEnv) [sampleStep, tokenStep] = .ok view ∧
      amountWhere (fun out => GetColorIdFromScript out.scriptPubKey = sampleTokenColor) view = 100 ∧
      tpcSupply view ≤ ((List.range' 1 2).map fun h => GetBlockSubsidy h sampleEnv.nSubsidyHalvingInterval).sum := by
  have hsound : ∀ s ∈ [sampleStep, tokenStep], FlagSound sampleEnv s.block := by
    intro s hs hf
    simp only [List.mem_cons, List.not_mem_nil, or_false] at hs
    rcases hs with rfl | rfl <;> cases hf
  have htoken : (connectBlocks sampleEnv (genesisView sampleEnv) [sampleStep, tokenStep]).map
      (amountWhere fun out => GetColorIdFromScript out.scriptPubKey = sampleTokenColor) = .ok 100 := by
    decide +kernel
  cases hrun : connectBlocks sampleEnv (genesisView sampleEnv) [sampleStep, tokenStep] with
  | error e =>
    rw [hrun] at htoken
    cases htoken
  | ok view =>
    rw [hrun] at htoken
    exact ⟨view, rfl, Except.ok.inj htoken,
      connectBlocks_tpcSupply_le_subsidies sampleEnv [sampleStep, tokenStep] view rfl hsound hrun⟩

end Tapyrus
