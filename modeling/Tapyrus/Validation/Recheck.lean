import Tapyrus.Validation.Mempool
import Tapyrus.Validation.ScriptCheckQueue
import Tapyrus.Script.Flags
/-!
# The worker's second script check

`AcceptToMemoryPoolWorker` runs the inputs' scripts twice: under
`STANDARD_SCRIPT_VERIFY_FLAGS`, and then through
`CheckInputsFromMempoolAndCache` under the flags of the next block
(`SCRIPT_VERIFY_NONE`), which first asserts that each input's coin is the
pool transaction's output or the chain's coin. A failure of the second check
is reported as `BUG! PLEASE REPORT THIS!`.

The second check cannot fail once the first has passed: the flags it runs
under set no flag the standard ones do not (`Tapyrus.Script.Flags`), and the
coins the worker fetched are the mempool view's, so the assertions hold.
It even hands back the same balances.
-/

namespace Tapyrus

open Lib CCoinsViewCache

section Flags

variable (E : ValidationEnv) {G F : UInt32} (hGF : FlagsLe G F)
include hGF

theorem CScriptCheck_flags (tx : CTransaction) (nIn : Nat) (txin : CTxIn) (out : CTxOut) :
    OkLe (CScriptCheck E tx nIn txin out F) (CScriptCheck E tx nIn txin out G) :=
  VerifyScript_flags E.C _ hGF _ _ _ _

/-- The input loop under the laxer flags passes, with the same balances,
wherever it passes under the stricter ones: by induction on the inputs, each
script's color carrying over. -/
theorem checkInputScripts_flags (tx : CTransaction) (inputs : CCoinsViewCache) (vin : List CTxIn) :
    ∀ nIn balances, OkLe (checkInputScripts E tx inputs F nIn balances vin)
      (checkInputScripts E tx inputs G nIn balances vin) := by
  induction vin with
  | nil => exact fun _ _ => OkLe.refl _
  | cons txin rest ih =>
    intro nIn balances r h
    by_cases hspent : (inputs.AccessCoin txin.prevout).IsSpent = true
    · simp [checkInputScripts, hspent] at h
    have hcons : ∀ flags colorId,
        CScriptCheck E tx nIn txin (inputs.AccessCoin txin.prevout).out flags = .ok colorId →
        checkInputScripts E tx inputs flags nIn balances (txin :: rest) =
          checkInputScripts E tx inputs flags (nIn + 1)
            (addColoredCoinBalance balances colorId (inputs.AccessCoin txin.prevout).out.nValue) rest := by
      intro flags colorId hrun
      rw [checkInputScripts]
      simp [hspent, hrun]
    cases hrun : CScriptCheck E tx nIn txin (inputs.AccessCoin txin.prevout).out F with
    | error e => exact absurd h (checkInputScripts_of_error hrun r)
    | ok colorId =>
      rw [hcons F colorId hrun] at h
      rw [hcons G colorId (CScriptCheck_flags E hGF tx nIn txin _ colorId hrun)]
      exact ih _ _ r h

theorem CheckInputs_flags (tx : CTransaction) (inputs : CCoinsViewCache) (fScriptChecks : Bool)
    (balances : TxColoredCoinBalancesMap) :
    OkLe (CheckInputs E tx inputs fScriptChecks F balances) (CheckInputs E tx inputs fScriptChecks G balances) := by
  unfold CheckInputs
  split
  · exact OkLe.refl _
  · exact checkInputScripts_flags E hGF tx inputs tx.vin 0 balances

end Flags

/-! ## The coins the worker fetched -/

/-- A fold over the inputs each of whose rounds sets the entry of `o` to `c`
at an input spending `o`, and leaves it alone at the others. -/
theorem lookup_foldl_of_step {γ : Type} (g : AList (fun _ : COutPoint => γ) → CTxIn → AList (fun _ : COutPoint => γ))
    (o : COutPoint) (c : γ) (hg : ∀ m txin, (g m txin).lookup o = if txin.prevout = o then some c else m.lookup o)
    (vin : List CTxIn) :
    ∀ m, (vin.foldl g m).lookup o = if o ∈ vin.map (·.prevout) then some c else m.lookup o := by
  induction vin with
  | nil => exact fun m => by simp
  | cons txin rest ih =>
    intro m
    rw [List.foldl_cons, ih, hg]
    by_cases ho : txin.prevout = o
    · simp [ho]
    · simp [ho, Ne.symm ho]

/-- The worker's cache holds, at an outpoint an input spends, the mempool
view's coin. -/
theorem fetchInputs_lookup {pool : CTxMemPool} {coinsTip : CCoinsViewCache} {vin : List CTxIn} {o : COutPoint}
    {c : Coin} (ho : o ∈ vin.map (·.prevout)) (hc : CCoinsViewMemPool.GetCoin pool coinsTip o = some c) :
    (fetchInputs pool coinsTip vin).lookup o = some c := by
  unfold fetchInputs
  rw [lookup_foldl_of_step _ o c ?_ vin ∅, if_pos ho]
  intro m txin
  by_cases hin : txin.prevout = o
  · subst hin
    rw [hc, if_pos rfl, AList.lookup_insert]
  · rw [if_neg hin]
    split
    · exact AList.lookup_insert_ne (Ne.symm hin)
    · rfl

/-- `DoAllInputsExist` finds no missing input only when the mempool view
has an unspent coin for each. -/
theorem DoAllInputsExist_eq_none {pool : CTxMemPool} {coinsTip : CCoinsViewCache} {tx : CTransaction}
    {hash : uint256} {vin : List CTxIn} (h : DoAllInputsExist pool coinsTip tx hash vin = .ok none) :
    ∀ txin ∈ vin, HaveCoinMemPool pool coinsTip txin.prevout = true := by
  induction vin with
  | nil => simp
  | cons txin rest ih =>
    rw [DoAllInputsExist] at h
    split at h
    · rename_i hhave
      intro t ht
      rcases List.mem_cons.1 ht with rfl | ht
      · exact hhave
      · exact ih h t ht
    · split at h <;> cases h

theorem HaveCoinMemPool_spec {pool : CTxMemPool} {coinsTip : CCoinsViewCache} {o : COutPoint}
    (h : HaveCoinMemPool pool coinsTip o = true) :
    ∃ c, CCoinsViewMemPool.GetCoin pool coinsTip o = some c ∧ c.IsSpent = false := by
  cases hc : CCoinsViewMemPool.GetCoin pool coinsTip o with
  | none => simp [HaveCoinMemPool, hc] at h
  | some c => exact ⟨c, rfl, by simpa [HaveCoinMemPool, hc] using h⟩

/-- After `DoAllInputsExist` and a passing standard check, the worker's
second check passes under the next block's flags, with the balances of the
first: the assertions on the fetched coins hold, and `SCRIPT_VERIFY_NONE`
sets no flag the standard flags do not. -/
theorem CheckInputsFromMempoolAndCache_recheck {E : ValidationEnv} {pool : CTxMemPool}
    {coinsTip : CCoinsViewCache} {tx : CTransaction} {hash : uint256} {b : TxColoredCoinBalancesMap}
    (hcb : tx.IsCoinBase = false) (hexist : DoAllInputsExist pool coinsTip tx hash tx.vin = .ok none)
    (hstd : CheckInputs E tx ⟨fetchInputs pool coinsTip tx.vin, coinsTip.GetBestBlock⟩ true
      STANDARD_SCRIPT_VERIFY_FLAGS [] = .ok b) :
    CheckInputsFromMempoolAndCache E pool coinsTip tx ⟨fetchInputs pool coinsTip tx.vin, coinsTip.GetBestBlock⟩
      SCRIPT_VERIFY_NONE = .ok b := by
  unfold CheckInputsFromMempoolAndCache
  rw [if_neg (by simp [hcb])]
  dsimp only
  split
  · -- every input's coin is the pool transaction's output or the chain's coin
    rename_i hbad
    rw [Bool.not_eq_true', List.all_eq_false] at hbad
    obtain ⟨txin, hin, hbad⟩ := hbad
    obtain ⟨c, hc, hunspent⟩ := HaveCoinMemPool_spec (DoAllInputsExist_eq_none hexist txin hin)
    have hlook := fetchInputs_lookup (List.mem_map_of_mem hin) hc
    refine absurd ?_ hbad
    simp only [AccessCoin, hlook, Option.getD_some, hunspent, Bool.not_false, Bool.true_and]
    rw [CCoinsViewMemPool.GetCoin] at hc
    split
    · rename_i ptx hptx
      rw [hptx] at hc
      obtain ⟨out, hout, rfl⟩ := Option.map_eq_some_iff.1 hc
      simp [hout]
    · rename_i hnone
      rw [hnone] at hc
      obtain ⟨hdisk, -⟩ := Option.filter_eq_some_iff.1 hc
      simp [hdisk, hunspent]
  · exact CheckInputs_flags E (FlagsLe.none _) tx _ true [] b hstd

/-- The worker's two checks on the transaction that issues one NFT twice. -/
theorem CheckInputsFromMempoolAndCache_recheck_nft :
    nftTx.IsCoinBase = false ∧
      DoAllInputsExist (CTxMemPool.empty 0) nftChainView nftTx (nftTx.GetHashMalFix truncCrypto) nftTx.vin =
        .ok none ∧
      CheckInputs wideEnv nftTx ⟨fetchInputs (CTxMemPool.empty 0) nftChainView nftTx.vin, nftChainView.GetBestBlock⟩
        true STANDARD_SCRIPT_VERIFY_FLAGS [] = .ok [(ColorIdentifier.none, 100000)] ∧
      CheckInputsFromMempoolAndCache wideEnv (CTxMemPool.empty 0) nftChainView nftTx
        ⟨fetchInputs (CTxMemPool.empty 0) nftChainView nftTx.vin, nftChainView.GetBestBlock⟩ SCRIPT_VERIFY_NONE =
          .ok [(ColorIdentifier.none, 100000)] :=
  have hcb : nftTx.IsCoinBase = false := by decide +kernel
  have hexist : DoAllInputsExist (CTxMemPool.empty 0) nftChainView nftTx (nftTx.GetHashMalFix truncCrypto)
      nftTx.vin = .ok none := by decide +kernel
  have hstd : CheckInputs wideEnv nftTx
      ⟨fetchInputs (CTxMemPool.empty 0) nftChainView nftTx.vin, nftChainView.GetBestBlock⟩ true
      STANDARD_SCRIPT_VERIFY_FLAGS [] = .ok [(ColorIdentifier.none, 100000)] := by decide +kernel
  ⟨hcb, hexist, hstd, CheckInputsFromMempoolAndCache_recheck hcb hexist hstd⟩

end Tapyrus
