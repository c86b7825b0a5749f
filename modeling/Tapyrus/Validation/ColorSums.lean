import Tapyrus.Undo
import Tapyrus.Validation.Tokens
/-!
# Color balances past `int64`

`CheckInputs` adds each input's value to the balance of the color its
script hands back (`iter->second += coin.out.nValue`, a `CAmount`) with no
range check. `CheckTransaction` bounds only the outputs, and `CheckTxInputs`
bounds only the TPC inputs. The model adds in `Int`, so a balance above
`INT64_MAX` is a sum on which the code's `int64_t` overflows.

Witness data, with the outpoints of `fatTx n` from `Tapyrus.Undo`:
- `n` coins of `MAX_MONEY` units of one reissuable color, each under
  `coloredAnyoneCanSpend`;
- one transaction that spends them all to one unit of that color.

4393 inputs fit in the genesis maximum block size, and
4393 · `MAX_MONEY` > 2^63 - 1.
-/

namespace Tapyrus

open Lib CCoinsViewCache

/-! ## One color's balance -/

theorem addColoredCoinBalance_nil (c : ColorIdentifier) (v : Int) : addColoredCoinBalance [] c v = [(c, v)] := rfl

theorem addColoredCoinBalance_single (c : ColorIdentifier) (x v : Int) :
    addColoredCoinBalance [(c, x)] c v = [(c, x + v)] := by
  have hequiv : CmpMap.Equiv ColorIdentifierCompare c c = true := (ColorIdentifierCompare_equiv_iff c c).2 ⟨rfl, rfl⟩
  simp [addColoredCoinBalance, CmpMap.find, CmpMap.modify, hequiv]

section OneColor

variable (E : ValidationEnv) {tx : CTransaction} {inputs : CCoinsViewCache} {flags : UInt32} {c : ColorIdentifier}
  {coin : Coin}

/-- When every input spends `coin`, whose script hands back `c`, the loop
adds the coin's value to `c`'s balance once per input. -/
theorem checkInputScripts_one_color (hspent : coin.IsSpent = false) :
    ∀ (vin : List CTxIn) (nIn : Nat) (x : Int),
      (∀ txin ∈ vin, inputs.AccessCoin txin.prevout = coin ∧ ∀ n, CScriptCheck E tx n txin coin.out flags = .ok c) →
      checkInputScripts E tx inputs flags nIn [(c, x)] vin = .ok [(c, x + vin.length * coin.out.nValue)]
  | [], _, x, _ => by simp [checkInputScripts]
  | txin :: rest, nIn, x, h => by
    obtain ⟨hcoin, hcheck⟩ := h txin List.mem_cons_self
    rw [checkInputScripts]
    simp only [hcoin, hspent, Bool.false_eq_true, if_false, hcheck nIn, addColoredCoinBalance_single]
    rw [checkInputScripts_one_color hspent rest (nIn + 1) _ fun t ht => h t (List.mem_cons_of_mem txin ht)]
    simp only [List.length_cons, Nat.cast_add, Nat.cast_one]
    ring_nf

/-- `CheckInputs` from empty balances: `c`'s balance is the input count
times the coin's value. -/
theorem CheckInputs_one_color (hcb : tx.IsCoinBase = false) (hne : tx.vin ≠ []) (hspent : coin.IsSpent = false)
    (h : ∀ txin ∈ tx.vin, inputs.AccessCoin txin.prevout = coin ∧ ∀ n, CScriptCheck E tx n txin coin.out flags = .ok c) :
    CheckInputs E tx inputs true flags [] = .ok [(c, tx.vin.length * coin.out.nValue)] := by
  obtain ⟨txin, rest, hvin⟩ := List.exists_cons_of_ne_nil hne
  rw [hvin] at h
  obtain ⟨hcoin, hcheck⟩ := h txin List.mem_cons_self
  -- the first input emplaces the color, the others add to it
  rw [CheckInputs, hcb, Bool.false_or, Bool.not_true, if_neg Bool.false_ne_true, hvin, checkInputScripts]
  simp only [hcoin, hspent, Bool.false_eq_true, if_false, hcheck 0, addColoredCoinBalance_nil]
  rw [checkInputScripts_one_color E hspent rest 1 _ fun t ht => h t (List.mem_cons_of_mem txin ht)]
  simp only [List.length_cons, Nat.cast_add, Nat.cast_one]
  ring_nf

end OneColor

/-! ## Coins of `MAX_MONEY` units of one color -/

def richCoin (c : ColorIdentifier) : Coin := ⟨⟨MAX_MONEY, coloredAnyoneCanSpend c⟩, false, 1⟩

def richView (c : ColorIdentifier) (n : Nat) : CCoinsViewCache := ⟨coinsAt (richCoin c) n, Blob.zero 32⟩

/-- Spends the `n` coins to one unit of their color. -/
def richTx (c : ColorIdentifier) (n : Nat) : CTransaction := ⟨(fatTx n).vin, [⟨1, coloredAnyoneCanSpend c⟩], 1, 0⟩

theorem richTx_vin (c : ColorIdentifier) (n : Nat) : (richTx c n).vin = (fatTx n).vin := rfl

theorem richTx_serialize_length (c : ColorIdentifier) (hc : c.type.IsToken) (n : Nat) :
    ((richTx c n).serialize false).length = GetSizeOfCompactSize n + 41 * n + 54 := by
  have hcolor : (coloredAnyoneCanSpend c).length = 36 := by
    simp [coloredAnyoneCanSpend, ColorIdentifier.serialize, hc, c.payload.length_eq]
  rw [CTransaction.serialize, List.length_append, List.length_append, List.length_append, richTx_vin,
    serializeList_length_of_forall fatInput_serialize_length]
  simp [richTx, fatTx, ser_writeint, serializeList, CTxOut.serialize, serializeBytes, ser_writedata32, ser_writedata,
    WriteCompactSize_of_lt, hcolor]
  omega

/-- Every input of `richTx` finds `richCoin` in `richView`. -/
theorem richTx_AccessCoin {c : ColorIdentifier} {n : Nat} (hn : n ≤ 256 ^ 31) :
    ∀ txin ∈ (richTx c n).vin, (richView c n).AccessCoin txin.prevout = richCoin c := by
  intro txin htxin
  obtain ⟨i, hi, rfl⟩ := List.mem_map.1 htxin
  simp only [CCoinsViewCache.AccessCoin, richView, lookup_coinsAt hn (List.mem_range.1 hi)]
  rfl

/-- The script of `richCoin inflationColor` hands back the color against an
empty signature script, under the relay flags and under the block flags. -/
theorem CScriptCheck_richCoin (tx : CTransaction) (n : Nat) (txin : CTxIn) (hsig : txin.scriptSig = [])
    (hwit : txin.scriptWitness = []) (flags : UInt32)
    (hflags : flags = STANDARD_SCRIPT_VERIFY_FLAGS ∨ flags = SCRIPT_VERIFY_NONE) :
    CScriptCheck wideEnv tx n txin (richCoin inflationColor).out flags = .ok inflationColor := by
  rcases hflags with rfl | rfl
  · rw [CScriptCheck, hsig, hwit]
    rfl
  · rw [CScriptCheck, hsig, hwit]
    rfl

/-- The inputs carry no TPC: the fee is 0 at any spend height. -/
theorem CheckTxInputs_richTx {n : Nat} (h2 : 2 ≤ n) (hn : n ≤ 256 ^ 31) (nSpendHeight : Int) :
    CheckTxInputs (richTx inflationColor n) (richView inflationColor n) nSpendHeight = .ok 0 := by
  have haccess := richTx_AccessCoin (c := inflationColor) hn
  have hcb : (richTx inflationColor n).IsCoinBase = false := IsCoinBase_of_length (by simp [richTx, fatTx]; omega)
  have hhave : (richView inflationColor n).HaveInputs (richTx inflationColor n) = true := by
    simp only [CCoinsViewCache.HaveInputs, hcb, Bool.not_false, if_true, List.all_eq_true]
    intro txin htxin
    obtain ⟨i, hi, rfl⟩ := List.mem_map.1 htxin
    simp [CCoinsViewCache.HaveCoin, richView, lookup_coinsAt hn (List.mem_range.1 hi), richCoin, Coin.IsSpent,
      CTxOut.IsNull, MAX_MONEY, COIN]
  have hterms : ((richTx inflationColor n).vin.map fun txin =>
      outTerm IsTPC ((richView inflationColor n).AccessCoin txin.prevout).out).sum = 0 := by
    have hzero : outTerm IsTPC (richCoin inflationColor).out = 0 := by decide +kernel
    rw [List.map_congr_left fun txin htxin => by rw [haccess txin htxin, hzero]]
    simp
  have hvalues : checkInputValues (richView inflationColor n) nSpendHeight 0 (richTx inflationColor n).vin =
      .ok 0 := by
    rw [checkInputValues_eq_ok_of_forall le_rfl, hterms, zero_add]
    · intro txin htxin
      rw [haccess txin htxin]
      exact ⟨rfl, .inl rfl, by simp [richCoin, MoneyRange, MAX_MONEY, COIN]⟩
    · rw [hterms]
      norm_num [MAX_MONEY, COIN]
  -- the one output is colored
  have hout : (richTx inflationColor n).GetValueOut ColorIdentifier.none = .ok 0 := by
    show CTransaction.GetValueOut ⟨[], [⟨1, coloredAnyoneCanSpend inflationColor⟩], 1, 0⟩ ColorIdentifier.none = .ok 0
    decide +kernel
  simp only [CheckTxInputs, hhave, Bool.not_true, Bool.false_eq_true, if_false, hvalues, hout, ok_bind,
    lt_self_iff_false, sub_self]
  rfl

/-- Under the genesis maximum block size, a transaction spending 4393 coins
of `MAX_MONEY` units of one color passes `CheckTransaction` and
`CheckTxInputs`, every coin of the view is in the money range, and
`CheckInputs`, under the relay flags and under the block flags, sums the
color past `INT64_MAX`. -/
theorem CheckInputs_color_balance_overflows :
    CheckTransaction (wideHistory MAX_BLOCK_SIZE) (richTx inflationColor 4393) true = .ok () ∧
      (∀ o coin, (richView inflationColor 4393).coins.lookup o = some coin →
        0 ≤ coin.out.nValue ∧ coin.out.nValue ≤ MAX_MONEY) ∧
      CheckTxInputs (richTx inflationColor 4393) (richView inflationColor 4393) 2 = .ok 0 ∧
      CheckInputs wideEnv (richTx inflationColor 4393) (richView inflationColor 4393) true
        STANDARD_SCRIPT_VERIFY_FLAGS [] = .ok [(inflationColor, 4393 * MAX_MONEY)] ∧
      CheckInputs wideEnv (richTx inflationColor 4393) (richView inflationColor 4393) true SCRIPT_VERIFY_NONE [] =
        .ok [(inflationColor, 4393 * MAX_MONEY)] ∧
      INT64_MAX < 4393 * MAX_MONEY := by
  have hn : 4393 ≤ 256 ^ 31 := by norm_num
  have hcb : (richTx inflationColor 4393).IsCoinBase = false := IsCoinBase_of_length (by simp [richTx, fatTx])
  have hlen : (richTx inflationColor 4393).vin.length = 4393 := by simp [richTx, fatTx]
  -- 180170 bytes
  have hfit : (richTx inflationColor 4393).GetSerializeSize ≤ MAX_BLOCK_SIZE.toNat := by
    have hcount : GetSizeOfCompactSize 4393 = 3 := rfl
    have hmax : MAX_BLOCK_SIZE.toNat = 1000000 := rfl
    rw [CTransaction.GetSerializeSize, richTx_serialize_length _ (by decide), hcount, hmax]
    norm_num
  -- every input spends `richCoin` and its script hands back the color
  have hinputs : ∀ flags, flags = STANDARD_SCRIPT_VERIFY_FLAGS ∨ flags = SCRIPT_VERIFY_NONE →
      ∀ txin ∈ (richTx inflationColor 4393).vin,
        (richView inflationColor 4393).AccessCoin txin.prevout = richCoin inflationColor ∧
        ∀ k, CScriptCheck wideEnv (richTx inflationColor 4393) k txin (richCoin inflationColor).out flags =
          .ok inflationColor := by
    intro flags hflags txin htxin
    obtain ⟨-, hsig, hwit, -⟩ := fatTx_vin_coin hn txin (richTx_vin inflationColor 4393 ▸ htxin)
    exact ⟨richTx_AccessCoin hn txin htxin, fun k => CScriptCheck_richCoin _ k txin hsig hwit flags hflags⟩
  have hsum : ∀ flags, flags = STANDARD_SCRIPT_VERIFY_FLAGS ∨ flags = SCRIPT_VERIFY_NONE →
      CheckInputs wideEnv (richTx inflationColor 4393) (richView inflationColor 4393) true flags [] =
        .ok [(inflationColor, 4393 * MAX_MONEY)] := by
    intro flags hflags
    rw [CheckInputs_one_color wideEnv hcb (by simp [richTx, fatTx]) rfl (hinputs flags hflags), hlen]
    rfl
  refine ⟨CheckTransaction_of_fatInputs (wideHistory_GetCurrentMaxBlockSize _) (richTx_vin _ _) (by simp [richTx]) rfl hfit
      (by norm_num) hn, ?_, CheckTxInputs_richTx (by norm_num) hn 2, hsum _ (.inl rfl), hsum _ (.inr rfl),
      by norm_num [INT64_MAX, MAX_MONEY, COIN]⟩
  intro o coin hcoin
  rw [(lookup_coinsAt_eq_some hcoin).1]
  exact ⟨by norm_num [richCoin, MAX_MONEY, COIN], le_rfl⟩

end Tapyrus
