import Tapyrus.Validation.Supply
/-!
# The colored-coin rules

`CheckColorIdentifierValidity` and `VerifyTokenBalances` (`validation.cpp`),
the two checks on what a transaction does with tokens.

`CheckColorIdentifierValidity` looks at each colored output on its own: it
needs a token type, a positive value, and one unspent input whose coin gives
the output's color. A token coin gives its own color (a transfer); a TPC coin
gives the color it would issue, the hash of its script for REISSUABLE and of
its outpoint otherwise (an issue). An NFT output must carry exactly 1.

`VerifyTokenBalances` adds up the outputs by color and matches each total
against the balance `CheckInputs` collected from the inputs' scripts: a color
some input carries may not grow; a color none carries is an issue, bounded
only by the TPC the transaction pays beyond the relay fee.

`AcceptToMemoryPoolWorker` runs both. `ConnectBlock` runs neither: its
`CheckInputs` collects the input balances and drops them, and its value
checks (`CheckTxInputs`, `GetValueOut`) count TPC only. So a block may carry
a transaction that makes a token out of nothing.
-/

namespace Tapyrus

open Lib CCoinsViewCache

/-! ## `CheckColorIdentifierValidity` -/

section Validity

variable (C : Crypto)

/-- The color the coin an input spends gives an output of color
`outColorId`: a token coin its own color, a TPC coin the color it issues.
(The switch's `default: continue` is unreachable: the four types are all
the values `TokenTypes` has.) -/
def coinColorId (outColorId : ColorIdentifier) (txin : CTxIn) (coin : Coin) : ColorIdentifier :=
  let cid := GetColorIdFromScript coin.out.scriptPubKey
  match cid.type with
  | .NONE =>
    if outColorId.type = .REISSUABLE then ColorIdentifier.ofScript C.sha256 coin.out.scriptPubKey
    else ColorIdentifier.ofOutPoint C.sha256 txin.prevout outColorId.type
  | .REISSUABLE | .NON_REISSUABLE | .NFT => cid

/-- The inner loop's test: the input's coin gives the output's color and is
not spent. -/
def matchInput (inputs : CCoinsViewCache) (outColorId : ColorIdentifier) (txin : CTxIn) : Bool :=
  let coin := inputs.AccessCoin txin.prevout
  (coinColorId C outColorId txin coin).beq outColorId && !coin.IsSpent

/-- The outer loop's body for one output. The first matching input ends the
inner loop; whichever it is, an NFT output must then carry 1. -/
def checkOutputColor (tx : CTransaction) (inputs : CCoinsViewCache) (txout : CTxOut) : Bool :=
  if !txout.scriptPubKey.IsColoredScript then true else
  let outColorId := GetColorIdFromScript txout.scriptPubKey
  if outColorId.type = .NONE then false
  else if txout.nValue ≤ 0 then false
  else if tx.vin.any (matchInput C inputs outColorId) then !(outColorId.type == .NFT && txout.nValue != 1)
  else false

/-- `CheckColorIdentifierValidity(tx, state, inputs)`. -/
def CheckColorIdentifierValidity (tx : CTransaction) (inputs : CCoinsViewCache) : Bool :=
  tx.vout.all (checkOutputColor C tx inputs)

/-- What the check asks of one colored output. -/
structure ColorRule (tx : CTransaction) (inputs : CCoinsViewCache) (txout : CTxOut) : Prop where
  isToken : (GetColorIdFromScript txout.scriptPubKey).type ≠ .NONE
  pos : 0 < txout.nValue
  matched : ∃ txin ∈ tx.vin, ¬(inputs.AccessCoin txin.prevout).IsSpent ∧
    coinColorId C (GetColorIdFromScript txout.scriptPubKey) txin (inputs.AccessCoin txin.prevout) =
      GetColorIdFromScript txout.scriptPubKey
  nft : (GetColorIdFromScript txout.scriptPubKey).type = .NFT → txout.nValue = 1

theorem matchInput_eq_true {inputs : CCoinsViewCache} {outColorId : ColorIdentifier} {txin : CTxIn} :
    matchInput C inputs outColorId txin = true ↔
      ¬(inputs.AccessCoin txin.prevout).IsSpent ∧
        coinColorId C outColorId txin (inputs.AccessCoin txin.prevout) = outColorId := by
  simp only [matchInput, Bool.and_eq_true, Bool.not_eq_true', ColorIdentifier.beq_eq_true_iff]
  simp only [Bool.not_eq_true]
  exact and_comm

theorem checkOutputColor_eq_true {tx : CTransaction} {inputs : CCoinsViewCache} {txout : CTxOut} :
    checkOutputColor C tx inputs txout = true ↔
      (txout.scriptPubKey.IsColoredScript = true → ColorRule C tx inputs txout) := by
  unfold checkOutputColor
  cases hcol : txout.scriptPubKey.IsColoredScript
  · simp
  simp only [Bool.not_true, Bool.false_eq_true, if_false, forall_const]
  -- the guards in the order the loop body tests them
  by_cases hnone : (GetColorIdFromScript txout.scriptPubKey).type = .NONE
  · simp only [hnone, if_true, Bool.false_eq_true, false_iff]
    exact fun h => h.isToken hnone
  by_cases hpos : txout.nValue ≤ 0
  · simp only [hnone, hpos, if_true, if_false, Bool.false_eq_true, false_iff]
    exact fun h => absurd h.pos (by omega)
  simp only [hnone, hpos, if_false]
  by_cases hmatch : tx.vin.any (matchInput C inputs (GetColorIdFromScript txout.scriptPubKey)) = true
  · obtain ⟨txin, hin, hm⟩ := List.any_eq_true.1 hmatch
    simp only [hmatch, if_true, Bool.not_eq_true', Bool.and_eq_false_iff, beq_eq_false_iff_ne,
      bne_eq_false_iff_eq]
    constructor
    · intro hnft
      refine ⟨hnone, by omega, ⟨txin, hin, (matchInput_eq_true C).1 hm⟩, fun h => ?_⟩
      rcases hnft with hne | heq
      · exact absurd h hne
      · exact heq
    · intro h
      by_cases hnft : (GetColorIdFromScript txout.scriptPubKey).type = .NFT
      · exact Or.inr (h.nft hnft)
      · exact Or.inl hnft
  · simp only [hmatch, Bool.false_eq_true, if_false, false_iff]
    intro h
    obtain ⟨txin, hin, hm⟩ := h.matched
    exact hmatch (List.any_eq_true.2 ⟨txin, hin, (matchInput_eq_true C).2 hm⟩)

/-- The check is rule (a) on every colored output, each output matched on
its own. -/
theorem CheckColorIdentifierValidity_eq_true {tx : CTransaction} {inputs : CCoinsViewCache} :
    CheckColorIdentifierValidity C tx inputs = true ↔
      ∀ txout ∈ tx.vout, txout.scriptPubKey.IsColoredScript = true → ColorRule C tx inputs txout := by
  simp only [CheckColorIdentifierValidity, List.all_eq_true, checkOutputColor_eq_true]

/-- So one unspent TPC input is the issuer of every NFT output of the color
its outpoint gives, however many such outputs the transaction has. -/
theorem CheckColorIdentifierValidity_of_nft_issuer {tx : CTransaction} {inputs : CCoinsViewCache} {txin : CTxIn}
    (hin : txin ∈ tx.vin) (hunspent : ¬(inputs.AccessCoin txin.prevout).IsSpent)
    (htpc : (GetColorIdFromScript (inputs.AccessCoin txin.prevout).out.scriptPubKey).type = .NONE)
    (hout : ∀ txout ∈ tx.vout, txout.scriptPubKey.IsColoredScript = true →
      GetColorIdFromScript txout.scriptPubKey = ColorIdentifier.ofOutPoint C.sha256 txin.prevout .NFT ∧
        txout.nValue = 1) :
    CheckColorIdentifierValidity C tx inputs = true := by
  rw [CheckColorIdentifierValidity_eq_true]
  intro txout htx hcol
  obtain ⟨hcid, hval⟩ := hout txout htx hcol
  have hissue : coinColorId C (GetColorIdFromScript txout.scriptPubKey) txin (inputs.AccessCoin txin.prevout) =
      GetColorIdFromScript txout.scriptPubKey := by
    simp only [coinColorId, htpc, hcid, ColorIdentifier.ofOutPoint]
    rfl
  refine ⟨?_, by omega, ⟨txin, hin, hunspent, hissue⟩, fun _ => hval⟩
  rw [hcid]
  simp [ColorIdentifier.ofOutPoint]

end Validity

/-! ## `VerifyTokenBalances` -/

/-- `outColoredCoinBalances`: the outputs' values added up by color, in the
map's order. -/
def outColoredCoinBalances (tx : CTransaction) : TxColoredCoinBalancesMap :=
  tx.vout.foldl (fun m txout => addColoredCoinBalance m (GetColorIdFromScript txout.scriptPubKey) txout.nValue) []

/-- The balance `find` gives for a color, `0` when it has none. -/
def balanceOf (m : TxColoredCoinBalancesMap) (colorId : ColorIdentifier) : Int :=
  match CmpMap.find ColorIdentifierCompare m colorId with
  | some (_, v) => v
  | none => 0

/-- The loop over the output balances: each is taken from the input balance
of its color, or is an issue when the inputs have none. -/
def matchBalances (tpcin tpcout minrelayFee : Int) :
    TxColoredCoinBalancesMap → TxColoredCoinBalancesMap → Valid Unit
  | _, [] => .ok ()
  | inBalances, (colorId, nValue) :: rest =>
    match CmpMap.find ColorIdentifierCompare inBalances colorId with
    | none =>
      if tpcin < 0 || tpcin - tpcout - minrelayFee < 0 then reject "bad-txns-token-insufficient"
      else matchBalances tpcin tpcout minrelayFee inBalances rest
    | some (_, inValue) =>
      if nValue > inValue then reject "bad-txns-token-balance"
      else matchBalances tpcin tpcout minrelayFee
        (CmpMap.modify ColorIdentifierCompare inBalances colorId (· - nValue)) rest

/-- Output balances of colors the inputs do not carry pass as long as the
TPC covers the outputs and the relay fee: their amounts are never looked
at. -/
theorem matchBalances_of_fresh {tpcin tpcout minrelayFee : Int} (hin : 0 ≤ tpcin)
    (hfee : tpcout + minrelayFee ≤ tpcin) (inBalances : TxColoredCoinBalancesMap) :
    ∀ {outBalances : TxColoredCoinBalancesMap},
      (∀ e ∈ outBalances, CmpMap.find ColorIdentifierCompare inBalances e.1 = none) →
      matchBalances tpcin tpcout minrelayFee inBalances outBalances = .ok () := by
  intro outBalances
  induction outBalances with
  | nil => intro _; rfl
  | cons e rest ih =>
    intro hfresh
    obtain ⟨colorId, nValue⟩ := e
    have hcond : (decide (tpcin < 0) || decide (tpcin - tpcout - minrelayFee < 0)) = false := by
      simp only [Bool.or_eq_false_iff, decide_eq_false_iff_not]
      omega
    simp only [matchBalances, hfresh _ List.mem_cons_self, hcond, Bool.false_eq_true, if_false]
    exact ih fun e he => hfresh e (List.mem_cons_of_mem _ he)

/-- `VerifyTokenBalances(tx, state, inColoredCoinBalances, minrelayFee)`. -/
def VerifyTokenBalances (tx : CTransaction) (inColoredCoinBalances : TxColoredCoinBalancesMap)
    (minrelayFee : Int) : Valid Unit :=
  let outBalances := outColoredCoinBalances tx
  let tpcin := balanceOf inColoredCoinBalances ColorIdentifier.none
  let tpcout := balanceOf outBalances ColorIdentifier.none
  if tpcin ≤ 0 then reject "bad-txns-token-without-fee"
  else matchBalances tpcin tpcout minrelayFee inColoredCoinBalances outBalances

/-! ## A block that makes tokens

A view with two coins of a transaction confirmed at height 1: one unit of a
reissuable token and 1000 TPC, both under scripts anyone can spend. The
block after the genesis block spends both into 100 units of the token. -/

def inflationColor : ColorIdentifier := ⟨.REISSUABLE, ⟨List.replicate 32 0x11, by simp⟩⟩

def inflationPrevHash : uint256 := ⟨List.replicate 32 0xbb, by simp⟩

def inflationView : CCoinsViewCache :=
  ⟨((∅ : CoinsMap).insert ⟨inflationPrevHash, 1⟩ ⟨⟨1000, [OP_1]⟩, false, 1⟩).insert ⟨inflationPrevHash, 0⟩
      ⟨⟨1, coloredAnyoneCanSpend inflationColor⟩, false, 1⟩,
    sampleGenesisHash⟩

def inflationTx : CTransaction :=
  ⟨[⟨⟨inflationPrevHash, 0⟩, [], 0xffffffff, []⟩, ⟨⟨inflationPrevHash, 1⟩, [], 0xffffffff, []⟩],
    [⟨100, coloredAnyoneCanSpend inflationColor⟩], 1, 0⟩

def inflationBlock : CBlock :=
  { nFeatures := 1, hashPrevBlock := sampleGenesisHash,
    hashMerkleRoot :=
      (ComputeMerkleRoot sampleCrypto.SHA256D64 [sampleCoinbase.GetHash sampleCrypto, inflationTx.GetHash sampleCrypto]).1,
    hashImMerkleRoot :=
      (ComputeMerkleRoot sampleCrypto.SHA256D64
        [sampleCoinbase.GetHashMalFix sampleCrypto, inflationTx.GetHashMalFix sampleCrypto]).1,
    nTime := 0, xfield := ⟨.NONE, .empty⟩, proof := [1], vtx := [sampleCoinbase, inflationTx], fChecked := false }

def inflationIndex : CBlockIndex := ⟨1, inflationBlock.GetHash sampleCrypto, sampleGenesisHash, fun _ => 0⟩

/-- The view `ConnectBlock` leaves: the coinbase's output and the 100 units. -/
def inflatedView : CCoinsViewCache :=
  ⟨((∅ : CoinsMap).insert ⟨sampleCoinbase.GetHashMalFix sampleCrypto, 0⟩ ⟨⟨5000000000, [OP_1]⟩, true, 1⟩).insert
      ⟨inflationTx.GetHashMalFix sampleCrypto, 0⟩ ⟨⟨100, coloredAnyoneCanSpend inflationColor⟩, false, 1⟩,
    inflationBlock.GetHash sampleCrypto⟩

theorem ConnectBlock_inflates_token :
    ConnectBlock sampleEnv sampleHistory true inflationIndex (some sampleGenesisIndex) inflationBlock inflationView
        false =
      .ok (inflatedView,
        [[⟨⟨1, coloredAnyoneCanSpend inflationColor⟩, false, 1⟩, ⟨⟨1000, [OP_1]⟩, false, 1⟩]]) ∧
      inflationTx ∈ inflationBlock.vtx ∧ inflationTx.IsCoinBase = false ∧
      valueOfColor (inflationTx.vin.map fun txin => (inflationView.AccessCoin txin.prevout).out) inflationColor = 1 ∧
      valueOfColor inflationTx.vout inflationColor = 100 ∧
      CheckColorIdentifierValidity sampleCrypto inflationTx inflationView = true ∧
      CheckInputs sampleEnv inflationTx inflationView true STANDARD_SCRIPT_VERIFY_FLAGS [] =
        .ok [(ColorIdentifier.none, 1000), (inflationColor, 1)] ∧
      ∀ minrelayFee, VerifyTokenBalances inflationTx [(ColorIdentifier.none, 1000), (inflationColor, 1)] minrelayFee =
        reject "bad-txns-token-balance" := by
  refine ⟨by decide +kernel, by decide, by decide, by decide +kernel, by decide +kernel, by decide +kernel,
    by decide +kernel, ?_⟩
  intro minrelayFee
  rfl

end Tapyrus
