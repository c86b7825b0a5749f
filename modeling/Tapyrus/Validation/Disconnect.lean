import Tapyrus.Validation.Supply
import Tapyrus.Undo
/-!
# `DisconnectBlock` undoes `ConnectBlock`

A reorganisation disconnects blocks with the undo records `ConnectBlock`
wrote for them. `DisconnectBlock` goes through the block's transactions
last first. For each one it takes out the outputs (`disconnectOutputs`),
checking each against the coin it finds. Then it puts back the coins the
inputs spent, from the undo record (`restoreInputs`).

`DisconnectBlock_ConnectBlock`: disconnecting a block right after connecting
it succeeds with `DISCONNECT_OK` and gives back the coins of the view the
block was connected to. It needs the view to hold addable coins (`Coin.Addable`):
unspent, spendable, and at a height other than zero, because an undo coin at
height zero makes `ApplyTxInUndo` look for its metadata elsewhere. It needs
no coin of the view to carry the id of the block's coinbase, because
`AddCoins` overwrites a coinbase's outpoints without a check and the undo
record keeps nothing of what it overwrote.

Each loop has its own spec lemma, stated over lookups. `outputAt` names the
coins a transaction's outputs add. `addOutputs_spec` and
`disconnectOutputs_spec` say that they come in and go out again.
`spendInputs_spec` and `restoreInputs_spec` say the same for the inputs. The
block-level proof is an induction over the transactions after the coinbase,
where the last one connected is the first one undone.
-/

namespace Tapyrus

open Lib CCoinsViewCache

/-- A coin that `AddCoin` stores as it is and `ApplyTxInUndo` restores as it
is: unspent, with a spendable script, and with its height. -/
structure Coin.Addable (coin : Coin) : Prop where
  unspent : coin.IsSpent = false
  spendable : coin.out.scriptPubKey.IsUnspendable = false
  height : coin.nHeight ≠ 0

/-- Every coin the view holds is addable. -/
def CCoinsViewCache.Addable (view : CCoinsViewCache) : Prop :=
  ∀ o c, view.coins.lookup o = some c → c.Addable

/-- In a view of addable coins, `HaveCoin` is having an entry. -/
theorem CCoinsViewCache.Addable.HaveCoin_eq {view : CCoinsViewCache} (hv : view.Addable) (o : COutPoint) :
    view.HaveCoin o = (view.coins.lookup o).isSome := by
  unfold HaveCoin
  cases hc : view.coins.lookup o with
  | none => rfl
  | some c => simp [(hv o c hc).unspent]

/-- The coin `AddCoins` puts at `o` for the outputs `outs` of `txid` from
index `i` on. -/
def outputAt (txid : uint256) (nHeight : Nat) (fCoinbase : Bool) : Nat → List CTxOut → COutPoint → Option Coin
  | _, [], _ => none
  | i, out :: outs, o =>
    if out.scriptPubKey.IsUnspendable = false ∧ o = ⟨txid, UInt32.ofNat i⟩ then some ⟨out, fCoinbase, nHeight⟩
    else outputAt txid nHeight fCoinbase (i + 1) outs o

theorem UInt32.ofNat_ne {j k : Nat} (hj : j < 2 ^ 32) (hk : k < 2 ^ 32) (hjk : j ≠ k) :
    UInt32.ofNat j ≠ UInt32.ofNat k := by
  intro h
  have := congrArg UInt32.toNat h
  rw [UInt32.toNat_ofNat', UInt32.toNat_ofNat'] at this
  omega

/-- The outputs from index `i` on do not reach an earlier index. -/
theorem outputAt_of_lt (txid : uint256) (nHeight : Nat) (fCoinbase : Bool) {j : Nat} :
    ∀ (outs : List CTxOut) (i : Nat), j < i → i + outs.length ≤ 2 ^ 32 →
      outputAt txid nHeight fCoinbase i outs ⟨txid, UInt32.ofNat j⟩ = none := by
  intro outs
  induction outs with
  | nil => exact fun _ _ _ => rfl
  | cons out outs ih =>
    intro i hj hlen
    simp only [List.length_cons] at hlen
    rw [outputAt, if_neg, ih (i + 1) (by omega) (by omega)]
    rintro ⟨-, h⟩
    exact UInt32.ofNat_ne (by omega) (by omega) (Nat.ne_of_lt hj) (COutPoint.mk.inj h).2

/-- What `outputAt` puts: an output of the transaction, at its height and
with its coinbase flag, with a spendable script. -/
theorem outputAt_eq_some {txid : uint256} {nHeight : Nat} {fCoinbase : Bool} :
    ∀ {outs : List CTxOut} {i : Nat} {o : COutPoint} {c : Coin}, outputAt txid nHeight fCoinbase i outs o = some c →
      o.hashMalFix = txid ∧ c.out ∈ outs ∧ c.nHeight = nHeight ∧ c.fCoinBase = fCoinbase ∧
        c.out.scriptPubKey.IsUnspendable = false := by
  intro outs
  induction outs with
  | nil => exact fun h => by cases h
  | cons out outs ih =>
    intro i o c h
    rw [outputAt] at h
    split at h
    · rename_i hc
      cases h
      exact ⟨by rw [hc.2], List.mem_cons_self, rfl, rfl, hc.1⟩
    · obtain ⟨ho, hmem, hrest⟩ := ih h
      exact ⟨ho, List.mem_cons_of_mem out hmem, hrest⟩

/-! ## The outputs of a transaction -/

/-- `addOutputs` without the overwrite check, when it succeeds: the view
with the coins `outputAt` names, none of which overwrote a coin unless the
transaction is a coinbase. -/
theorem addOutputs_spec (txid : uint256) {nHeight : Nat} (hpos : nHeight ≠ 0) (fCoinbase : Bool) :
    ∀ (outs : List CTxOut) (i : Nat) (W W' : CCoinsViewCache), i + outs.length ≤ 2 ^ 32 → W.Addable →
      addOutputs txid nHeight fCoinbase false W i outs = .ok W' →
      W'.hashBlock = W.hashBlock ∧ W'.Addable ∧
        (∀ o, W'.coins.lookup o = (outputAt txid nHeight fCoinbase i outs o).or (W.coins.lookup o)) ∧
        (fCoinbase = false → ∀ o, (outputAt txid nHeight fCoinbase i outs o).isSome → W.coins.lookup o = none) := by
  intro outs
  induction outs with
  | nil =>
    intro i W W' _ hW h
    cases h
    exact ⟨rfl, hW, fun o => by simp [outputAt], fun _ o h => by simp [outputAt] at h⟩
  | cons out outs ih =>
    intro i W W' hlen hW h
    simp only [List.length_cons] at hlen
    rw [addOutputs] at h
    obtain ⟨W₁, hadd, hrest⟩ := bind_eq_ok h
    simp only [Bool.false_eq_true, if_false] at hadd
    obtain ⟨hunspent, ⟨hunsp, rfl⟩ | ⟨hsp, hfresh, rfl⟩⟩ := AddCoin_eq_ok hadd
    · -- an unspendable output is not stored
      have hskip : ∀ o, outputAt txid nHeight fCoinbase i (out :: outs) o =
          outputAt txid nHeight fCoinbase (i + 1) outs o := fun o => by simp [outputAt, hunsp]
      simp only [hskip]
      exact ih (i + 1) _ W' (by omega) hW hrest
    · -- a spendable one is stored at `(txid, i)`, which no later output names
      have hlater := outputAt_of_lt txid nHeight fCoinbase outs (i + 1) (Nat.lt_succ_self i) (by omega)
      have hW₁ : CCoinsViewCache.Addable
          { W with coins := W.coins.insert ⟨txid, UInt32.ofNat i⟩ ⟨out, fCoinbase, nHeight⟩ } := by
        intro o c hc
        by_cases ho : o = ⟨txid, UInt32.ofNat i⟩
        · subst ho
          simp only [AList.lookup_insert, Option.some.injEq] at hc
          subst hc
          exact ⟨hunspent, hsp, hpos⟩
        · rw [AList.lookup_insert_ne ho] at hc
          exact hW o c hc
      obtain ⟨hblock, hW', hlook, hnew⟩ := ih (i + 1) _ W' (by omega) hW₁ hrest
      refine ⟨hblock, hW', fun o => ?_, fun hcb o ho => ?_⟩
      · rw [hlook, outputAt]
        by_cases ho : o = ⟨txid, UInt32.ofNat i⟩
        · subst ho
          simp [hsp, hlater]
        · rw [if_neg (fun h => ho h.2), AList.lookup_insert_ne ho]
      · rw [outputAt] at ho
        by_cases hoi : o = ⟨txid, UInt32.ofNat i⟩
        · subst hoi
          have := hfresh hcb
          rwa [hW.HaveCoin_eq, Option.isSome_eq_false_iff, Option.isNone_iff_eq_none] at this
        · rw [if_neg (fun h => hoi h.2)] at ho
          have := hnew hcb o ho
          rwa [AList.lookup_insert_ne hoi] at this

/-- The output loop of `DisconnectBlock`: it takes out the coins `outputAt`
names, and stays clean when the view held each of them. -/
theorem disconnectOutputs_spec (nHeight : Nat) (txid : uint256) (fCoinbase : Bool) :
    ∀ (outs : List CTxOut) (i : Nat) (X Y : CCoinsViewCache) (fClean fClean' : Bool), i + outs.length ≤ 2 ^ 32 →
      disconnectOutputs nHeight txid fCoinbase X fClean i outs = (Y, fClean') →
      Y.hashBlock = X.hashBlock ∧
        (∀ o, Y.coins.lookup o = if (outputAt txid nHeight fCoinbase i outs o).isSome then none else X.coins.lookup o) ∧
        (fClean = true → (∀ o c, outputAt txid nHeight fCoinbase i outs o = some c → X.coins.lookup o = some c) →
          fClean' = true) := by
  intro outs
  induction outs with
  | nil =>
    intro i X Y fClean fClean' _ h
    cases h
    exact ⟨rfl, fun o => by simp [outputAt], fun h _ => h⟩
  | cons out outs ih =>
    intro i X Y fClean fClean' hlen h
    simp only [List.length_cons] at hlen
    rw [disconnectOutputs] at h
    split at h
    · -- an unspendable output was never stored
      rename_i hunsp
      have hskip : ∀ o, outputAt txid nHeight fCoinbase i (out :: outs) o =
          outputAt txid nHeight fCoinbase (i + 1) outs o := fun o => by simp [outputAt, hunsp]
      simp only [hskip]
      exact ih (i + 1) X Y fClean fClean' (by omega) h
    rename_i hsp
    rw [Bool.not_eq_true] at hsp
    have hlater := outputAt_of_lt txid nHeight fCoinbase outs (i + 1) (Nat.lt_succ_self i) (by omega)
    have hhere : outputAt txid nHeight fCoinbase i (out :: outs) ⟨txid, UInt32.ofNat i⟩ =
        some ⟨out, fCoinbase, nHeight⟩ := by simp [outputAt, hsp]
    have hother : ∀ o, o ≠ ⟨txid, UInt32.ofNat i⟩ → outputAt txid nHeight fCoinbase i (out :: outs) o =
        outputAt txid nHeight fCoinbase (i + 1) outs o := fun o ho => by
      rw [outputAt, if_neg (fun h => ho h.2)]
    dsimp only at h
    cases hspend : X.SpendCoin ⟨txid, UInt32.ofNat i⟩ with
    | none =>
      -- nothing to take out: the round is not clean
      rw [hspend] at h
      dsimp only at h
      obtain ⟨hblock, hlook, -⟩ := ih (i + 1) X Y _ fClean' (by omega) h
      have hnone : X.coins.lookup ⟨txid, UInt32.ofNat i⟩ = none := by
        unfold SpendCoin at hspend
        split at hspend
        · cases hspend
        · assumption
      refine ⟨hblock, fun o => ?_, fun _ hall => ?_⟩
      · by_cases ho : o = ⟨txid, UInt32.ofNat i⟩
        · subst ho
          rw [hlook, hlater, hhere, hnone]
          simp
        · rw [hlook, hother o ho]
      · rw [hall _ _ hhere] at hnone
        cases hnone
    | some r =>
      obtain ⟨coin, X₁⟩ := r
      rw [hspend] at h
      dsimp only at h
      obtain ⟨hcoin, rfl⟩ := SpendCoin_eq_some hspend
      obtain ⟨hblock, hlook, hclean⟩ := ih (i + 1) _ Y _ fClean' (by omega) h
      refine ⟨hblock, fun o => ?_, fun hc hall => hclean ?_ fun o c ho => ?_⟩
      · by_cases ho : o = ⟨txid, UInt32.ofNat i⟩
        · subst ho
          rw [hlook, hlater, hhere]
          simp
        · rw [hlook, hother o ho, AList.lookup_erase_ne ho]
      · -- the coin taken out is the output stored
        have := hall _ _ hhere
        rw [hcoin, Option.some.injEq] at this
        subst this
        simp [hc]
      · have ho' : o ≠ ⟨txid, UInt32.ofNat i⟩ := by
          rintro rfl
          rw [hlater] at ho
          cases ho
        rw [AList.lookup_erase_ne ho']
        exact hall o c (by rw [hother o ho', ho])

/-! ## The inputs of a transaction -/

/-- The input loop of `UpdateCoins`, when it succeeds: the inputs' outpoints
were distinct and each had a coin, and they are gone. -/
theorem spendInputs_spec : ∀ (vin : List CTxIn) (V M : CCoinsViewCache) (undo : List Coin),
    spendInputs V vin = .ok (M, undo) →
    M.hashBlock = V.hashBlock ∧ (∀ o, M.coins.lookup o = if o ∈ vin.map (·.prevout) then none else V.coins.lookup o) ∧
      (∀ t ∈ vin, (V.coins.lookup t.prevout).isSome) ∧ (vin.map (·.prevout)).Nodup := by
  intro vin
  induction vin with
  | nil =>
    intro V M undo h
    cases h
    exact ⟨rfl, fun o => by simp, fun t ht => absurd ht List.not_mem_nil, List.nodup_nil⟩
  | cons txin rest ih =>
    intro V M undo h
    unfold spendInputs at h
    split at h
    · cases h
    rename_i coin V₁ hspend
    obtain ⟨hcoin, rfl⟩ := SpendCoin_eq_some hspend
    obtain ⟨⟨M', undo'⟩, hrest, hok⟩ := bind_eq_ok h
    cases hok
    obtain ⟨hblock, hlook, hhad, hnd⟩ := ih _ M undo' hrest
    -- a later input names another outpoint: the erased one has no coin left
    have hne : ∀ t ∈ rest, t.prevout ≠ txin.prevout := by
      intro t ht he
      have := hhad t ht
      rw [he] at this
      simp at this
    refine ⟨hblock, fun o => ?_, fun t ht => ?_, ?_⟩
    · rw [hlook]
      by_cases ho : o = txin.prevout
      · subst ho
        simp
      · simp [ho, AList.lookup_erase_ne ho]
    · rcases List.mem_cons.1 ht with rfl | ht
      · simp [hcoin]
      · have := hhad t ht
        rwa [AList.lookup_erase_ne (hne t ht)] at this
    · rw [List.map_cons, List.nodup_cons]
      refine ⟨fun hmem => ?_, hnd⟩
      obtain ⟨t, ht, he⟩ := List.mem_map.1 hmem
      exact hne t ht he

/-- `ApplyTxInUndo` of an addable coin at an outpoint the view has no coin
at: the coin is back, cleanly. -/
theorem ApplyTxInUndo_fresh {undo : Coin} {view : CCoinsViewCache} {out : COutPoint} (hc : undo.Addable)
    (hfresh : view.coins.lookup out = none) :
    ApplyTxInUndo undo view out = .ok (.DISCONNECT_OK, { view with coins := view.coins.insert out undo }) := by
  have hhave : view.HaveCoin out = false := by simp [HaveCoin, hfresh]
  have hadd : view.AddCoin out undo false = .ok { view with coins := view.coins.insert out undo } := by
    simp [AddCoin, hc.unspent, hc.spendable, hhave]
  simp only [ApplyTxInUndo, hhave, Bool.not_false, Bool.not_true, hc.height, if_false, hadd, if_true, ok_bind]
  rfl

/-- The input loop of `DisconnectBlock` on distinct outpoints with no coin:
each gets its coin back, and the rest of the view stays. -/
theorem restoreInputs_spec : ∀ (pairs : List (CTxIn × Coin)) (X : CCoinsViewCache),
    (∀ p ∈ pairs, p.2.Addable) → (pairs.map (·.1.prevout)).Nodup → (∀ p ∈ pairs, X.coins.lookup p.1.prevout = none) →
    ∃ Y, restoreInputs X true pairs = .ok (.DISCONNECT_OK, Y) ∧ Y.hashBlock = X.hashBlock ∧
      (∀ p ∈ pairs, Y.coins.lookup p.1.prevout = some p.2) ∧
      ∀ o, o ∉ pairs.map (·.1.prevout) → Y.coins.lookup o = X.coins.lookup o := by
  intro pairs
  induction pairs with
  | nil =>
    intro X _ _ _
    exact ⟨X, rfl, rfl, fun p hp => absurd hp List.not_mem_nil, fun _ _ => rfl⟩
  | cons p rest ih =>
    obtain ⟨txin, undo⟩ := p
    intro X hadd hnd hfresh
    rw [List.map_cons, List.nodup_cons] at hnd
    have hne : ∀ q ∈ rest, q.1.prevout ≠ txin.prevout := fun q hq he => hnd.1 (he ▸ List.mem_map_of_mem hq)
    -- the first coin goes back; the later outpoints still have none
    obtain ⟨Y, hrun, hblock, hback, hkeep⟩ := ih { X with coins := X.coins.insert txin.prevout undo }
      (fun q hq => hadd q (List.mem_cons_of_mem _ hq)) hnd.2
      (fun q hq => by rw [AList.lookup_insert_ne (hne q hq)]; exact hfresh q (List.mem_cons_of_mem _ hq))
    refine ⟨Y, ?_, hblock, fun q hq => ?_, fun o ho => ?_⟩
    · rw [restoreInputs, ApplyTxInUndo_fresh (hadd _ List.mem_cons_self) (hfresh _ List.mem_cons_self), ok_bind]
      simpa using hrun
    · rcases List.mem_cons.1 hq with rfl | hq
      · have hnot : txin.prevout ∉ rest.map (·.1.prevout) := hnd.1
        rw [hkeep _ hnot]
        simp
      · exact hback q hq
    · rw [List.map_cons, List.mem_cons, not_or] at ho
      rw [hkeep o ho.2, AList.lookup_insert_ne ho.1]

/-! ## One transaction -/

section Update

variable {C : Crypto} {tx : CTransaction} {V V' : CCoinsViewCache} {nHeight : Nat} {undo : List Coin}

/-- What `UpdateCoins` left, when the outputs of a transaction that spends
nothing are taken out again: the view it started from. -/
theorem removeOutputs_addOutputs {M M' X : CCoinsViewCache} {fCoinbase : Bool} (hlen : tx.vout.length ≤ 2 ^ 32)
    (hfresh : ∀ o, (outputAt (tx.GetHashMalFix C) nHeight fCoinbase 0 tx.vout o).isSome → M.coins.lookup o = none)
    (hlook : ∀ o, M'.coins.lookup o = (outputAt (tx.GetHashMalFix C) nHeight fCoinbase 0 tx.vout o).or (M.coins.lookup o))
    (hX : ∀ o, X.coins.lookup o = M'.coins.lookup o) :
    ∃ Y, disconnectOutputs nHeight (tx.GetHashMalFix C) fCoinbase X true 0 tx.vout = (Y, true) ∧
      Y.hashBlock = X.hashBlock ∧ ∀ o, Y.coins.lookup o = M.coins.lookup o := by
  obtain ⟨hblock, hout, hclean⟩ := disconnectOutputs_spec nHeight (tx.GetHashMalFix C) fCoinbase tx.vout 0 X _ true _
    (by omega) rfl
  refine ⟨_, Prod.ext rfl (hclean rfl fun o c ho => by rw [hX, hlook, ho]; rfl), hblock, fun o => ?_⟩
  rw [hout]
  split
  · rename_i hsome
    exact (hfresh o hsome).symm
  · rename_i hnone
    rw [hX, hlook, Option.not_isSome_iff_eq_none.1 hnone]
    rfl

/-- `UpdateCoins` of a transaction that is not a coinbase, and what
`DisconnectBlock` does for it: take its outputs out and put its inputs'
coins back, cleanly, which gives back the view it started from. -/
theorem UpdateCoins_undone (hpos : nHeight ≠ 0) (hV : V.Addable) (hlen : tx.vout.length ≤ 2 ^ 32)
    (hcb : tx.IsCoinBase = false) (h : UpdateCoins C tx V nHeight = .ok (V', undo)) :
    V'.Addable ∧ V'.hashBlock = V.hashBlock ∧ undo.length = tx.vin.length ∧
      ∀ X, (∀ o, X.coins.lookup o = V'.coins.lookup o) →
        ∃ Y₁ Y, disconnectOutputs nHeight (tx.GetHashMalFix C) tx.IsCoinBase X true 0 tx.vout = (Y₁, true) ∧
          restoreInputs Y₁ true (tx.vin.zip undo).reverse = .ok (.DISCONNECT_OK, Y) ∧
          Y.hashBlock = X.hashBlock ∧ ∀ o, Y.coins.lookup o = V.coins.lookup o := by
  unfold UpdateCoins at h
  rw [hcb, Bool.not_false, if_pos rfl] at h
  obtain ⟨⟨M, txundo⟩, hspend, h⟩ := bind_eq_ok h
  obtain ⟨M', hadd, hok⟩ := bind_eq_ok h
  cases hok
  obtain ⟨hblockM, hlookM, hhad, hnd⟩ := spendInputs_spec tx.vin V M undo hspend
  have hundo := spendInputs_undo hnd hspend
  have hM : M.Addable := fun o c hc => by
    rw [hlookM] at hc
    split at hc
    · cases hc
    · exact hV o c hc
  rw [AddCoins, hcb] at hadd
  obtain ⟨hblockM', hM', hlookM', hfresh⟩ := addOutputs_spec _ hpos false tx.vout 0 M V' (by omega) hM hadd
  refine ⟨hM', hblockM'.trans hblockM, by rw [hundo, List.length_map], fun X hX => ?_⟩
  -- the outputs leave: the view after the spends
  obtain ⟨Y₁, hout, hblock₁, hlook₁⟩ := removeOutputs_addOutputs hlen (hfresh rfl) hlookM' hX
  -- the inputs' coins come back
  -- the pairs the input loop restores: each input with the coin it spent
  have hzip : (tx.vin.zip undo).reverse = (tx.vin.map fun t => (t, V.AccessCoin t.prevout)).reverse := by
    rw [hundo, ← List.map_prod_left_eq_zip]
  have hcoin : ∀ t ∈ tx.vin, V.coins.lookup t.prevout = some (V.AccessCoin t.prevout) := by
    intro t ht
    obtain ⟨c, hc⟩ := Option.isSome_iff_exists.1 (hhad t ht)
    simp [AccessCoin, hc]
  have hprevouts : ((tx.vin.map fun t => (t, V.AccessCoin t.prevout)).reverse.map (·.1.prevout)) =
      (tx.vin.map (·.prevout)).reverse := by
    simp [List.map_reverse]
  obtain ⟨Y, hrun, hblock, hback, hkeep⟩ := restoreInputs_spec (tx.vin.map fun t => (t, V.AccessCoin t.prevout)).reverse Y₁
    (fun p hp => by
      rw [List.mem_reverse, List.mem_map] at hp
      obtain ⟨t, ht, rfl⟩ := hp
      exact hV _ _ (hcoin t ht))
    (by rw [hprevouts]; exact List.nodup_reverse.2 hnd)
    (fun p hp => by
      rw [List.mem_reverse, List.mem_map] at hp
      obtain ⟨t, ht, rfl⟩ := hp
      rw [hlook₁, hlookM, if_pos (List.mem_map_of_mem ht)])
  refine ⟨Y₁, Y, by rw [hcb]; exact hout, by rw [hzip]; exact hrun, hblock.trans hblock₁, fun o => ?_⟩
  -- an input's outpoint has its coin back; any other outpoint kept its coin
  by_cases ho : o ∈ tx.vin.map (·.prevout)
  · obtain ⟨t, ht, rfl⟩ := List.mem_map.1 ho
    rw [hcoin t ht]
    exact hback _ (List.mem_reverse.2 (List.mem_map_of_mem ht))
  · rw [hkeep o (by rw [hprevouts, List.mem_reverse]; exact ho), hlook₁, hlookM, if_neg ho]

/-- `UpdateCoins` of a coinbase none of whose outpoints the view has a coin
at, and the output loop of `DisconnectBlock` for it, which gives back the
view it started from. -/
theorem UpdateCoins_coinbase_undone (hpos : nHeight ≠ 0) (hV : V.Addable) (hlen : tx.vout.length ≤ 2 ^ 32)
    (hcb : tx.IsCoinBase = true) (hfresh : ∀ o c, V.coins.lookup o = some c → o.hashMalFix ≠ tx.GetHashMalFix C)
    (h : UpdateCoins C tx V nHeight = .ok (V', undo)) :
    V'.Addable ∧ V'.hashBlock = V.hashBlock ∧
      ∀ X, (∀ o, X.coins.lookup o = V'.coins.lookup o) →
        ∃ Y, disconnectOutputs nHeight (tx.GetHashMalFix C) tx.IsCoinBase X true 0 tx.vout = (Y, true) ∧
          Y.hashBlock = X.hashBlock ∧ ∀ o, Y.coins.lookup o = V.coins.lookup o := by
  unfold UpdateCoins at h
  rw [hcb, Bool.not_true, if_neg Bool.false_ne_true] at h
  obtain ⟨⟨M, txundo⟩, hspend, h⟩ := bind_eq_ok h
  cases hspend
  obtain ⟨M', hadd, hok⟩ := bind_eq_ok h
  cases hok
  rw [AddCoins, hcb] at hadd
  obtain ⟨hblock, hV', hlook, -⟩ := addOutputs_spec _ hpos true tx.vout 0 V V' (by omega) hV hadd
  refine ⟨hV', hblock, fun X hX => ?_⟩
  -- the coinbase's outpoints carry its id, which no coin of the view has
  have hnew : ∀ o, (outputAt (tx.GetHashMalFix C) nHeight true 0 tx.vout o).isSome → V.coins.lookup o = none := by
    intro o ho
    obtain ⟨c, hc⟩ := Option.isSome_iff_exists.1 ho
    cases hv : V.coins.lookup o with
    | none => rfl
    | some c' => exact absurd (outputAt_eq_some hc).1 (hfresh o c' hv)
  obtain ⟨Y, hout, hblockY, hlookY⟩ := removeOutputs_addOutputs hlen hnew hlook hX
  exact ⟨Y, by rw [hcb]; exact hout, hblockY, hlookY⟩

end Update

/-! ## The loop over the transactions -/

section Loop

variable {C : Crypto} {nHeight : Nat} {view Y₁ Y : CCoinsViewCache} {tx : CTransaction}
  {rest : List (Nat × CTransaction)} {vtxundo : List CTxUndo}

/-- A coinbase round of `DisconnectBlock` whose outputs came out cleanly. -/
theorem disconnectTransactions_coinbase
    (hout : disconnectOutputs nHeight (tx.GetHashMalFix C) tx.IsCoinBase view true 0 tx.vout = (Y₁, true)) :
    disconnectTransactions C nHeight view true ((0, tx) :: rest) vtxundo =
      disconnectTransactions C nHeight Y₁ true rest vtxundo := by
  rw [disconnectTransactions, hout]
  rfl

/-- A round of `DisconnectBlock` for transaction `i > 0` whose outputs came
out and whose inputs went back cleanly. -/
theorem disconnectTransactions_tx {i : Nat} (hi : 0 < i)
    (hout : disconnectOutputs nHeight (tx.GetHashMalFix C) tx.IsCoinBase view true 0 tx.vout = (Y₁, true))
    (hlen : (vtxundo.getD (i - 1) []).length = tx.vin.length)
    (hres : restoreInputs Y₁ true (tx.vin.zip (vtxundo.getD (i - 1) [])).reverse = .ok (.DISCONNECT_OK, Y)) :
    disconnectTransactions C nHeight view true ((i, tx) :: rest) vtxundo =
      disconnectTransactions C nHeight Y true rest vtxundo := by
  rw [disconnectTransactions, hout]
  dsimp only
  rw [if_pos hi, if_neg (not_not.2 hlen), hres, ok_bind]
  rfl

end Loop

section Connect

variable (E : ValidationEnv) (history : CXFieldHistoryMap) (fScriptChecks : Bool) (pindex : CBlockIndex)

/-- A round of the transaction loop of `ConnectBlock` moves the coins by
`UpdateCoins`, and records its undo after the coinbase. -/
theorem connectTx_UpdateCoins {i : Nat} {st st' : ConnectState} {tx : CTransaction}
    (h : connectTx E history fScriptChecks pindex i st tx = .ok st') :
    ∃ undo, UpdateCoins E.C tx st.view pindex.nHeight = .ok (st'.view, undo) ∧
      st'.vtxundo = if i > 0 then st.vtxundo ++ [undo] else st.vtxundo := by
  unfold connectTx at h
  obtain ⟨nFees, -, h⟩ := bind_eq_ok h
  obtain ⟨nSigOps, -, h⟩ := bind_eq_ok h
  dsimp only at h
  cases hmax : GetMaxBlockSigops history with
  | none => simp [hmax] at h
  | some nMaxSigOps =>
    simp only [hmax] at h
    split at h
    · cases h
    -- the scripts only reject
    obtain ⟨_, -, h⟩ := bind_eq_ok h
    obtain ⟨r, hr, hok⟩ := bind_eq_ok h
    cases hok
    exact ⟨r.2, hr, rfl⟩

/-- After the coinbase, each round appends one undo record. -/
theorem connectTransactions_vtxundo : ∀ (txs : List CTransaction) (i : Nat) (st st' : ConnectState),
    connectTransactions E history fScriptChecks pindex i st txs = .ok st' → 0 < i →
      ∃ undos, st'.vtxundo = st.vtxundo ++ undos ∧ undos.length = txs.length := by
  intro txs
  induction txs with
  | nil =>
    intro i st st' h _
    cases h
    exact ⟨[], by simp, rfl⟩
  | cons tx rest ih =>
    intro i st st' h hi
    rw [connectTransactions] at h
    obtain ⟨st₁, h₁, h₂⟩ := bind_eq_ok h
    obtain ⟨undo, -, hvu⟩ := connectTx_UpdateCoins E history fScriptChecks pindex h₁
    rw [if_pos hi] at hvu
    obtain ⟨undos, hst', hlen⟩ := ih (i + 1) st₁ st' h₂ (by omega)
    exact ⟨undo :: undos, by rw [hst', hvu, List.append_assoc, List.singleton_append], by simp [hlen]⟩

theorem getD_append_cons {α : Type} (l t : List α) (a d : α) : (l ++ a :: t).getD l.length d = a := by
  simp [List.getD_eq_getElem?_getD]

/-- `DisconnectBlock`'s loop over the transactions after the coinbase, last
first, undoes `ConnectBlock`'s loop over them: by induction on the
transactions, the last one undone first, each round by `UpdateCoins_undone`. -/
theorem disconnectTransactions_connectTransactions (hpos : pindex.nHeight ≠ 0) :
    ∀ (txs : List CTransaction) (i : Nat) (st st' : ConnectState) (L : List (Nat × CTransaction))
      (X : CCoinsViewCache), 0 < i → st.view.Addable → (∀ tx ∈ txs, tx.IsCoinBase = false ∧ tx.vout.length ≤ 2 ^ 32) →
      st.vtxundo.length = i - 1 → connectTransactions E history fScriptChecks pindex i st txs = .ok st' →
      (∀ o, X.coins.lookup o = st'.view.coins.lookup o) →
      ∃ Y, Y.hashBlock = X.hashBlock ∧ (∀ o, Y.coins.lookup o = st.view.coins.lookup o) ∧
        disconnectTransactions E.C pindex.nHeight X true (((txs.zipIdx i).map fun p => (p.2, p.1)).reverse ++ L)
            st'.vtxundo =
          disconnectTransactions E.C pindex.nHeight Y true L st'.vtxundo := by
  intro txs
  induction txs with
  | nil =>
    intro i st st' L X _ _ _ _ h hX
    cases h
    exact ⟨X, rfl, hX, rfl⟩
  | cons tx rest ih =>
    intro i st st' L X hi hV htxs hlen h hX
    rw [connectTransactions] at h
    obtain ⟨st₁, h₁, h₂⟩ := bind_eq_ok h
    obtain ⟨undo, hupd, hvu⟩ := connectTx_UpdateCoins E history fScriptChecks pindex h₁
    rw [if_pos hi] at hvu
    obtain ⟨hcb, hvout⟩ := htxs tx List.mem_cons_self
    obtain ⟨hV₁, -, hundo, hstep⟩ := UpdateCoins_undone hpos hV hvout hcb hupd
    -- the later transactions first: back to the view after this one
    obtain ⟨Y', hblock', hlook', hrun'⟩ := ih (i + 1) st₁ st' ((i, tx) :: L) X (by omega) hV₁
      (fun t ht => htxs t (List.mem_cons_of_mem tx ht)) (by rw [hvu]; simp [hlen]; omega) h₂ hX
    -- then this one
    obtain ⟨Y₁, Y, hout, hres, hblock, hlook⟩ := hstep Y' hlook'
    have hget : st'.vtxundo.getD (i - 1) [] = undo := by
      obtain ⟨undos, hst', -⟩ := connectTransactions_vtxundo E history fScriptChecks pindex rest (i + 1) st₁ st' h₂
        (by omega)
      rw [hst', hvu, List.append_assoc, List.singleton_append, ← hlen, getD_append_cons]
    refine ⟨Y, hblock.trans hblock', hlook, ?_⟩
    rw [List.zipIdx_cons, List.map_cons, List.reverse_cons, List.append_assoc, List.singleton_append, hrun']
    exact disconnectTransactions_tx hi hout (by rw [hget, hundo]) (by rw [hget]; exact hres)

end Connect

/-! ## What `CheckBlock` bounds -/

theorem length_le_flatten_map {α : Type} (ser : α → List UInt8) (hser : ∀ x, ser x ≠ []) :
    ∀ l : List α, l.length ≤ (l.map ser).flatten.length := by
  intro l
  induction l with
  | nil => simp
  | cons a l ih =>
    have ha : 1 ≤ (ser a).length := List.length_pos_iff.2 (hser a)
    simp only [List.length_cons, List.map_cons, List.flatten_cons, List.length_append]
    omega

theorem CTxOut.serialize_ne_nil (out : CTxOut) : out.serialize ≠ [] := by
  obtain ⟨x, tail, h⟩ := WriteCompactSize_ne_nil out.scriptPubKey.length
  simp [CTxOut.serialize, serializeBytes, h]

/-- An output takes at least a byte of the transaction's serialization. -/
theorem vout_length_le_GetSerializeSize (tx : CTransaction) : tx.vout.length ≤ tx.GetSerializeSize := by
  have h := length_le_flatten_map CTxOut.serialize CTxOut.serialize_ne_nil tx.vout
  simp only [CTransaction.GetSerializeSize, CTransaction.serialize, serializeList, List.length_append] at h ⊢
  omega

/-- A transaction `CheckTransaction` accepts serializes within the maximum
block size, a 32-bit number: its outputs' indexes are distinct as `uint32`s. -/
theorem CheckTransaction_vout_length {history : CXFieldHistoryMap} {tx : CTransaction} {f : Bool}
    (h : CheckTransaction history tx f = .ok ()) : tx.vout.length ≤ 2 ^ 32 := by
  unfold CheckTransaction at h
  split at h
  · cases h
  split at h
  · cases h
  split at h
  · cases h
  rename_i nMaxBlockSize _
  split at h
  · cases h
  rename_i hsize
  have := nMaxBlockSize.toNat_lt
  have := vout_length_le_GetSerializeSize tx
  omega

section Checked

variable (E : ValidationEnv)

/-- A full pass of `CheckBlock` ran `CheckTransaction` on every transaction. -/
theorem CheckBlock_checkTransactions {tip : Option CBlockIndex} {history : CXFieldHistoryMap}
    {temp : Option CXFieldHistoryMap} {block : CBlock} {pow mr f : Bool} (hf : block.fChecked = false)
    (h : CheckBlock E tip history temp block pow mr = .ok f) :
    ∀ tx ∈ block.vtx, CheckTransaction history tx true = .ok () := by
  unfold CheckBlock at h
  rw [hf] at h
  simp only [Bool.false_eq_true, if_false] at h
  obtain ⟨_, -, h⟩ := bind_eq_ok h
  -- the coinbase checks, the size limit and the header come first
  split at h
  · cases h
  split at h
  · cases h
  split at h
  · cases h
  split at h
  · cases h
  split at h
  · split at h
    · cases h
    obtain ⟨_, -, h⟩ := bind_eq_ok h
    split at h
    · cases h
    obtain ⟨_, htxs, -⟩ := bind_eq_ok h
    exact checkTransactions_eq_ok htxs
  · cases h

/-- Any pass of `CheckBlock` on a block whose flag is sound bounds the
outputs of each transaction. -/
theorem FlagSound.vout_length {block : CBlock} (hs : FlagSound E block) {tip : Option CBlockIndex}
    {history : CXFieldHistoryMap} {temp : Option CXFieldHistoryMap} {pow mr f : Bool}
    (h : CheckBlock E tip history temp block pow mr = .ok f) : ∀ tx ∈ block.vtx, tx.vout.length ≤ 2 ^ 32 := by
  intro tx htx
  cases hf : block.fChecked
  · exact CheckTransaction_vout_length (CheckBlock_checkTransactions E hf h tx htx)
  · obtain ⟨tip', history', temp', h'⟩ := hs hf
    exact CheckTransaction_vout_length (@CheckBlock_checkTransactions E _ _ _ { block with fChecked := false } _ _ _
      rfl h' tx htx)

end Checked

/-! ## The block -/

/-- The round trip on any view with the coins `ConnectBlock` left, whatever
the order of its entries: what a later reorganisation disconnects from. -/
theorem DisconnectBlock_after_ConnectBlock {E : ValidationEnv} {history : CXFieldHistoryMap}
    {fScriptChecks : Bool} {pindex : CBlockIndex} {tip : Option CBlockIndex} {block : CBlock}
    {view view' : CCoinsViewCache} {vtxundo : List CTxUndo} (hflag : FlagSound E block)
    (hgen : block.GetHash E.C ≠ E.genesisHash) (hpos : pindex.nHeight ≠ 0) (hview : view.Addable)
    (hfresh : ∀ o c, view.coins.lookup o = some c → ∀ tx ∈ block.vtx, tx.IsCoinBase = true →
      o.hashMalFix ≠ tx.GetHashMalFix E.C)
    (h : ConnectBlock E history fScriptChecks pindex tip block view false = .ok (view', vtxundo))
    (X : CCoinsViewCache) (hX : ∀ o, X.coins.lookup o = view'.coins.lookup o) :
    ∃ view'', DisconnectBlock E.C block pindex vtxundo X = .ok (.DISCONNECT_OK, view'') ∧
      view''.hashBlock = view.hashBlock ∧ ∀ o, view''.coins.lookup o = view.coins.lookup o := by
  obtain ⟨-, hprev, ⟨f, hcheck⟩, hrun, -⟩ := ConnectBlock_eq_ok E history fScriptChecks pindex h
  rcases hrun with ⟨hg, -⟩ | ⟨-, st, cb, rest, cbOut, hloop, hvtx, -, -, hcoins, rfl⟩
  · exact absurd hg hgen
  obtain ⟨⟨cb', rest', hvtx', hcb, hrest⟩, -, -⟩ := hflag.wellFormed E hcheck
  have hvout := hflag.vout_length E hcheck
  rw [hvtx] at hvtx' hvout hfresh hloop
  obtain ⟨rfl, rfl⟩ := List.cons.inj hvtx'
  -- the coinbase round
  rw [connectTransactions] at hloop
  obtain ⟨st₁, h₁, h₂⟩ := bind_eq_ok hloop
  obtain ⟨undo₀, hupd₀, hvu₀⟩ := connectTx_UpdateCoins E history fScriptChecks pindex h₁
  rw [if_neg (Nat.lt_irrefl 0)] at hvu₀
  obtain ⟨hV₁, -, hstep₀⟩ := UpdateCoins_coinbase_undone hpos hview (hvout cb List.mem_cons_self) hcb
    (fun o c hc => hfresh o c hc cb List.mem_cons_self hcb) hupd₀
  -- the other transactions, last first, then the coinbase
  obtain ⟨Y', -, hlook', hrun'⟩ := disconnectTransactions_connectTransactions E history fScriptChecks pindex hpos
    rest 1 st₁ st [(0, cb)] X (by omega) hV₁ (fun t ht => ⟨hrest t ht, hvout t (List.mem_cons_of_mem cb ht)⟩)
    (by rw [hvu₀]; rfl) h₂ (fun o => by rw [hX, hcoins])
  obtain ⟨Y, hout, -, hlook⟩ := hstep₀ Y' hlook'
  obtain ⟨undos, hst, hlen⟩ := connectTransactions_vtxundo E history fScriptChecks pindex rest 1 st₁ st h₂ (by omega)
  refine ⟨Y.SetBestBlock pindex.hashPrevBlock, ?_, hprev, hlook⟩
  have hcount : st.vtxundo.length + 1 = block.vtx.length := by
    rw [hvtx, hst, hvu₀, List.nil_append, hlen, List.length_cons]
  have hlist : ((List.zipIdx block.vtx).map fun p => (p.2, p.1)).reverse =
      ((rest.zipIdx 1).map fun p => (p.2, p.1)).reverse ++ [(0, cb)] := by
    rw [hvtx, List.zipIdx_cons, List.map_cons, List.reverse_cons]
  unfold DisconnectBlock
  rw [if_neg (not_not.2 hcount), hlist, hrun', disconnectTransactions_coinbase hout]
  rfl

/-- `DisconnectBlock` undoes `ConnectBlock`. Disconnecting a block right
after connecting it, with the undo record connecting wrote, succeeds cleanly
and gives back the coins of the view the block was connected to, at its best
block. The premises: the view holds addable coins, the block is not the
genesis block and sits above height zero, and no coin of the view carries the
id of the block's coinbase. `ConnectBlock` overwrites a coinbase's outpoints
without a check, and the undo record does not keep what was there. -/
theorem DisconnectBlock_ConnectBlock {E : ValidationEnv} {history : CXFieldHistoryMap} {fScriptChecks : Bool}
    {pindex : CBlockIndex} {tip : Option CBlockIndex} {block : CBlock} {view view' : CCoinsViewCache}
    {vtxundo : List CTxUndo} (hflag : FlagSound E block) (hgen : block.GetHash E.C ≠ E.genesisHash)
    (hpos : pindex.nHeight ≠ 0) (hview : view.Addable)
    (hfresh : ∀ o c, view.coins.lookup o = some c → ∀ tx ∈ block.vtx, tx.IsCoinBase = true →
      o.hashMalFix ≠ tx.GetHashMalFix E.C)
    (h : ConnectBlock E history fScriptChecks pindex tip block view false = .ok (view', vtxundo)) :
    ∃ view'', DisconnectBlock E.C block pindex vtxundo view' = .ok (.DISCONNECT_OK, view'') ∧
      view''.hashBlock = view.hashBlock ∧ ∀ o, view''.coins.lookup o = view.coins.lookup o :=
  DisconnectBlock_after_ConnectBlock hflag hgen hpos hview hfresh h view' fun _ => rfl

/-- The block whose second transaction spends two coins of the view,
connected and then disconnected. -/
theorem DisconnectBlock_ConnectBlock_fat :
    ∃ view' view'', ConnectBlock wideEnv (wideHistory 4000000) true (fatIndex 2) (some fatParent) (fatBlock 2)
        (fatView 2) false = .ok (view', [List.replicate 2 fatCoin]) ∧
      DisconnectBlock wideEnv.C (fatBlock 2) (fatIndex 2) [List.replicate 2 fatCoin] view' =
        .ok (.DISCONNECT_OK, view'') ∧
      view''.hashBlock = (fatView 2).hashBlock ∧ ∀ o, view''.coins.lookup o = (fatView 2).coins.lookup o := by
  obtain ⟨view', h⟩ := @ConnectBlock_fatBlock 2 4000000 le_rfl (by norm_num) (by decide) (by decide) (by decide)
  have hflag : FlagSound wideEnv (fatBlock 2) := fun hc => absurd hc Bool.false_ne_true
  have hview : (fatView 2).Addable := fun o c hc => by
    obtain ⟨rfl, -⟩ := lookup_fatCoins_eq_some hc
    exact ⟨rfl, rfl, by decide⟩
  -- the coins' ids start with 0xff, the coinbase's with 1
  have hfresh : ∀ o c, (fatView 2).coins.lookup o = some c → ∀ tx ∈ (fatBlock 2).vtx, tx.IsCoinBase = true →
      o.hashMalFix ≠ tx.GetHashMalFix wideEnv.C := by
    intro o c hc tx htx hcb he
    obtain ⟨-, hhead⟩ := lookup_fatCoins_eq_some hc
    rcases List.mem_cons.1 htx with rfl | htx
    · rw [he, show wideEnv.C = truncCrypto from rfl, wideTx_GetHashMalFix] at hhead
      cases hhead
    · rw [List.mem_singleton] at htx
      subst htx
      rw [fatTx_IsCoinBase le_rfl] at hcb
      cases hcb
  obtain ⟨view'', hd, hb, hl⟩ := DisconnectBlock_ConnectBlock hflag (fatBlock_GetHash_ne_zero 2) (by decide) hview
    hfresh h
  exact ⟨view', view'', h, hd, hb, hl⟩

end Tapyrus
