import Tapyrus.Lib.AListSum
import Tapyrus.Lib.Avoids
import Tapyrus.Transaction
/-!
# The coins view

`CCoinsViewCache` (`coins.h`, `coins.cpp`) as the map from outpoints to the
unspent coins the view holds, with the hash of the block whose state it is.
The cache's layers, flags and memory accounting are flattened away: a spent
entry that the cache keeps (`Clear`ed and marked DIRTY) reads like a missing
one through `AccessCoin` and `HaveCoin`, so the model drops it.

`UpdateCoins` spends a transaction's inputs (each must be present:
`assert(is_spent)`) and then `AddCoins` its outputs. `AddCoin` skips an
unspendable output and throws when it would replace an unspent coin without
`possible_overwrite`; both failures leave the call, `ValidationError.abort`.

`amountWhere p` is the value held in coins whose output satisfies `p`. The
accounting lemmas say what one spend, one add and one `UpdateCoins` do to it:
a spend takes out exactly the coin's term, an add puts in at most the new
coin's term when no coin in the view has a negative value.
-/

namespace Tapyrus

open Lib

/-- The unspent coins of a view, by outpoint. -/
abbrev CoinsMap := AList (fun _ : COutPoint => Coin)

/-- `CCoinsViewCache`, its layers flattened: the unspent coins and the best
block. -/
structure CCoinsViewCache where
  coins : CoinsMap
  hashBlock : uint256

/-- Views are compared by their entries, in order, so that the comparison
reduces in the kernel (Mathlib's instance on `AList` goes through a rewrite). -/
instance : DecidableEq CCoinsViewCache := fun a b =>
  decidable_of_iff (a.coins.entries = b.coins.entries ∧ a.hashBlock = b.hashBlock) (by
    obtain ⟨⟨ea, _⟩, ha⟩ := a
    obtain ⟨⟨eb, _⟩, hb⟩ := b
    simp)

namespace CCoinsViewCache

variable (view : CCoinsViewCache)

/-- `AccessCoin`: the coin, or the empty coin `coinEmpty`. -/
def AccessCoin (outpoint : COutPoint) : Coin := (view.coins.lookup outpoint).getD Coin.empty

/-- `HaveCoin`: an entry that is not spent. -/
def HaveCoin (outpoint : COutPoint) : Bool :=
  match view.coins.lookup outpoint with
  | some coin => !coin.IsSpent
  | none => false

/-- `HaveInputs`: every input's coin, for a transaction that is not a
coinbase. -/
def HaveInputs (tx : CTransaction) : Bool :=
  if !tx.IsCoinBase then tx.vin.all fun txin => view.HaveCoin txin.prevout else true

def GetBestBlock : uint256 := view.hashBlock

def SetBestBlock (hashBlock : uint256) : CCoinsViewCache := { view with hashBlock := hashBlock }

/-- `SpendCoin(outpoint, &moveout)`: the coin moved out and the view without
it, or `none` (`false`) when there is no entry. -/
def SpendCoin (outpoint : COutPoint) : Option (Coin × CCoinsViewCache) :=
  match view.coins.lookup outpoint with
  | some coin => some (coin, { view with coins := view.coins.erase outpoint })
  | none => none

/-- `AddCoin(outpoint, coin, possible_overwrite)`. -/
def AddCoin (outpoint : COutPoint) (coin : Coin) (possible_overwrite : Bool) : Valid CCoinsViewCache :=
  -- assert(!coin.IsSpent())
  if coin.IsSpent then .error .abort
  else if coin.out.scriptPubKey.IsUnspendable then .ok view
  -- "Adding new coin that replaces non-pruned entry" (std::logic_error)
  else if !possible_overwrite && view.HaveCoin outpoint then .error .abort
  else .ok { view with coins := view.coins.insert outpoint coin }

end CCoinsViewCache

open CCoinsViewCache

/-- The outputs of `AddCoins` from index `i` on: each at `(txid, i)`, a
possible overwrite when `check` finds a coin there, or for a coinbase. -/
def addOutputs (txid : uint256) (nHeight : Nat) (fCoinbase check : Bool) :
    CCoinsViewCache → Nat → List CTxOut → Valid CCoinsViewCache
  | view, _, [] => .ok view
  | view, i, out :: outs => do
    let outpoint : COutPoint := ⟨txid, UInt32.ofNat i⟩
    let overwrite := if check then view.HaveCoin outpoint else fCoinbase
    let view ← view.AddCoin outpoint ⟨out, fCoinbase, nHeight⟩ overwrite
    addOutputs txid nHeight fCoinbase check view (i + 1) outs

/-- `AddCoins(cache, tx, nHeight, check)`. -/
def AddCoins (C : Crypto) (view : CCoinsViewCache) (tx : CTransaction) (nHeight : Nat) (check : Bool) :
    Valid CCoinsViewCache :=
  addOutputs (tx.GetHashMalFix C) nHeight tx.IsCoinBase check view 0 tx.vout

/-- The input loop of `UpdateCoins`: each coin spent and kept for the undo
record; `assert(is_spent)` when one is missing. -/
def spendInputs : CCoinsViewCache → List CTxIn → Valid (CCoinsViewCache × List Coin)
  | view, [] => .ok (view, [])
  | view, txin :: rest =>
    match view.SpendCoin txin.prevout with
    | none => .error .abort
    | some (coin, view) => do
      let (view, undo) ← spendInputs view rest
      .ok (view, coin :: undo)

/-- `UpdateCoins(tx, inputs, txundo, nHeight)`: the view after the
transaction and its undo record (the spent coins, in input order). -/
def UpdateCoins (C : Crypto) (tx : CTransaction) (view : CCoinsViewCache) (nHeight : Nat) :
    Valid (CCoinsViewCache × List Coin) := do
  let (view, txundo) ← (if !tx.IsCoinBase then spendInputs view tx.vin else .ok (view, []))
  let view ← AddCoins C view tx nHeight false
  .ok (view, txundo)

/-! ## Value held in the view -/

/-- An output's share of `amountWhere p`: its value if it passes `p`. -/
def outTerm (p : CTxOut → Prop) [DecidablePred p] (out : CTxOut) : Int :=
  if p out then out.nValue else 0

/-- The value the view holds in coins whose output satisfies `p`. -/
def amountWhere (p : CTxOut → Prop) [DecidablePred p] (view : CCoinsViewCache) : Int :=
  sumEntries (fun _ coin => outTerm p coin.out) view.coins

/-- No coin of the view has a negative value. -/
def NonNeg (view : CCoinsViewCache) : Prop := ∀ o coin, view.coins.lookup o = some coin → 0 ≤ coin.out.nValue

@[simp] theorem SetBestBlock_coins (view : CCoinsViewCache) (h : uint256) : (view.SetBestBlock h).coins = view.coins :=
  rfl

theorem SpendCoin_eq_some {view view' : CCoinsViewCache} {o : COutPoint} {coin : Coin}
    (h : view.SpendCoin o = some (coin, view')) :
    view.coins.lookup o = some coin ∧ view' = { view with coins := view.coins.erase o } := by
  unfold SpendCoin at h
  split at h
  · rename_i c hc
    cases h
    exact ⟨hc, rfl⟩
  · cases h

/-- What an `AddCoin` that succeeds was: an unspent coin, and either an
unspendable one (nothing changes) or one whose outpoint has no coin unless
`possible_overwrite` is set. -/
theorem AddCoin_eq_ok {view view' : CCoinsViewCache} {o : COutPoint} {coin : Coin} {possible_overwrite : Bool}
    (h : view.AddCoin o coin possible_overwrite = .ok view') :
    coin.IsSpent = false ∧ ((coin.out.scriptPubKey.IsUnspendable = true ∧ view' = view) ∨
      (coin.out.scriptPubKey.IsUnspendable = false ∧ (possible_overwrite = false → view.HaveCoin o = false) ∧
        view' = { view with coins := view.coins.insert o coin })) := by
  unfold AddCoin at h
  by_cases hs : coin.IsSpent = true
  · rw [if_pos hs] at h
    cases h
  rw [if_neg hs] at h
  refine ⟨by simpa using hs, ?_⟩
  by_cases hu : coin.out.scriptPubKey.IsUnspendable = true
  · rw [if_pos hu] at h
    cases h
    exact .inl ⟨hu, rfl⟩
  rw [if_neg hu] at h
  by_cases hh : (!possible_overwrite && view.HaveCoin o) = true
  · rw [if_pos hh] at h
    cases h
  rw [if_neg hh] at h
  cases h
  refine .inr ⟨by simpa using hu, fun hpo => ?_, rfl⟩
  simpa [hpo] using hh

section Accounting

variable (p : CTxOut → Prop) [DecidablePred p]

theorem outTerm_nonneg {out : CTxOut} (h : 0 ≤ out.nValue) : 0 ≤ outTerm p out := by
  unfold outTerm
  split <;> omega

/-- A spend takes the coin's term out of the amount. -/
theorem amountWhere_SpendCoin {view view' : CCoinsViewCache} {o : COutPoint} {coin : Coin}
    (h : view.SpendCoin o = some (coin, view')) :
    amountWhere p view' + outTerm p coin.out = amountWhere p view := by
  obtain ⟨hlook, rfl⟩ := SpendCoin_eq_some h
  exact sumEntries_erase_add (fun _ coin => outTerm p coin.out) hlook

theorem NonNeg.SpendCoin {view view' : CCoinsViewCache} {o : COutPoint} {coin : Coin} (hv : NonNeg view)
    (h : view.SpendCoin o = some (coin, view')) : NonNeg view' ∧ 0 ≤ coin.out.nValue := by
  obtain ⟨hlook, rfl⟩ := SpendCoin_eq_some h
  refine ⟨fun o' c hc => hv o' c ?_, hv o coin hlook⟩
  by_cases ho : o' = o
  · subst ho
    simp [AList.lookup_erase] at hc
  · rwa [AList.lookup_erase_ne ho] at hc

/-- Erasing a key takes out a non-negative term. -/
theorem sumEntries_erase_le {view : CCoinsViewCache} (hv : NonNeg view) (o : COutPoint) :
    sumEntries (fun _ coin => outTerm p coin.out) (view.coins.erase o) ≤ amountWhere p view := by
  cases hl : view.coins.lookup o with
  | none => exact le_of_eq (sumEntries_erase_of_notMem _ (AList.lookup_eq_none.1 hl))
  | some old =>
    have hsum := sumEntries_erase_add (fun _ coin => outTerm p coin.out) hl
    have hnn := outTerm_nonneg p (hv o old hl)
    simp only [amountWhere]
    omega

theorem NonNeg.insert {view : CCoinsViewCache} (hv : NonNeg view) {o : COutPoint} {coin : Coin}
    (hc : 0 ≤ coin.out.nValue) : NonNeg { view with coins := view.coins.insert o coin } := by
  intro o' c hlook
  by_cases ho : o' = o
  · subst ho
    simp only [AList.lookup_insert, Option.some.injEq] at hlook
    rw [← hlook]
    exact hc
  · rw [AList.lookup_insert_ne ho] at hlook
    exact hv o' c hlook

/-- An add puts at most the new coin's term into the amount: it replaces a
coin of non-negative value, or adds nothing for an unspendable output. -/
theorem amountWhere_AddCoin_le {view view' : CCoinsViewCache} {o : COutPoint} {coin : Coin} {ow : Bool}
    (hv : NonNeg view) (hc : 0 ≤ coin.out.nValue) (h : view.AddCoin o coin ow = .ok view') :
    amountWhere p view' ≤ amountWhere p view + outTerm p coin.out ∧ NonNeg view' := by
  have hterm := outTerm_nonneg p hc
  unfold AddCoin at h
  split at h
  · cases h
  split at h
  · cases h
    exact ⟨by omega, hv⟩
  split at h
  · cases h
  cases h
  -- the insert replaced whatever `o` held: its term is gone, the coin's is in
  have hins := sumEntries_insert (fun _ coin => outTerm p coin.out) view.coins o coin
  have herase := sumEntries_erase_le p hv o
  refine ⟨?_, hv.insert hc⟩
  simp only [amountWhere] at herase ⊢
  omega

/-- `AddCoins`' loop puts at most the outputs' terms into the amount. -/
theorem amountWhere_addOutputs_le {txid : uint256} {nHeight : Nat} {fCoinbase check : Bool}
    {outs : List CTxOut} (hout : ∀ out ∈ outs, 0 ≤ out.nValue) :
    ∀ {view view' : CCoinsViewCache} {i : Nat}, NonNeg view →
      addOutputs txid nHeight fCoinbase check view i outs = .ok view' →
      amountWhere p view' ≤ amountWhere p view + (outs.map (outTerm p)).sum ∧ NonNeg view' := by
  induction outs with
  | nil =>
    intro view view' i hv h
    cases h
    simpa using hv
  | cons out outs ih =>
    intro view view' i hv h
    obtain ⟨mid, hadd, hrest⟩ := bind_eq_ok h
    have hout' : 0 ≤ out.nValue := hout out List.mem_cons_self
    obtain ⟨hle, hmid⟩ := amountWhere_AddCoin_le p hv hout' hadd
    dsimp only at hle
    obtain ⟨hle', hv'⟩ := ih (fun o ho => hout o (List.mem_cons_of_mem out ho)) hmid hrest
    refine ⟨?_, hv'⟩
    simp only [List.map_cons, List.sum_cons]
    omega

/-- The input loop of `UpdateCoins` takes out exactly the spent coins'
terms. -/
theorem amountWhere_spendInputs :
    ∀ {vin : List CTxIn} {view view' : CCoinsViewCache} {undo : List Coin},
      spendInputs view vin = .ok (view', undo) →
      amountWhere p view' + (undo.map fun coin => outTerm p coin.out).sum = amountWhere p view := by
  intro vin
  induction vin with
  | nil =>
    intro view view' undo h
    cases h
    simp
  | cons txin rest ih =>
    intro view view' undo h
    unfold spendInputs at h
    split at h
    · cases h
    · rename_i coin mid hspend
      obtain ⟨⟨v, u⟩, hrest, hok⟩ := bind_eq_ok h
      cases hok
      have hstep := amountWhere_SpendCoin p hspend
      have hrun := ih hrest
      simp only [List.map_cons, List.sum_cons]
      omega

end Accounting

theorem NonNeg.spendInputs :
    ∀ {vin : List CTxIn} {view view' : CCoinsViewCache} {undo : List Coin}, NonNeg view →
      spendInputs view vin = .ok (view', undo) → NonNeg view' := by
  intro vin
  induction vin with
  | nil =>
    intro view view' undo hv h
    cases h
    exact hv
  | cons txin rest ih =>
    intro view view' undo hv h
    unfold Tapyrus.spendInputs at h
    split at h
    · cases h
    · rename_i coin mid hspend
      obtain ⟨⟨v, u⟩, hrest, hok⟩ := bind_eq_ok h
      cases hok
      exact ih (hv.SpendCoin hspend).1 hrest

/-- With distinct outpoints, the coins the loop spends are the ones the view
held before it. -/
theorem spendInputs_undo :
    ∀ {vin : List CTxIn} {view view' : CCoinsViewCache} {undo : List Coin},
      (vin.map (·.prevout)).Nodup → spendInputs view vin = .ok (view', undo) →
      undo = vin.map fun txin => view.AccessCoin txin.prevout := by
  intro vin
  induction vin with
  | nil =>
    intro view view' undo _ h
    cases h
    rfl
  | cons txin rest ih =>
    intro view view' undo hnd h
    rw [List.map_cons, List.nodup_cons] at hnd
    unfold spendInputs at h
    split at h
    · cases h
    · rename_i coin mid hspend
      obtain ⟨⟨v, u⟩, hrest, hok⟩ := bind_eq_ok h
      cases hok
      obtain ⟨hlook, rfl⟩ := SpendCoin_eq_some hspend
      -- the later outpoints differ from this one, so erasing it leaves their coins
      have hsame : ∀ t ∈ rest, AccessCoin { view with coins := view.coins.erase txin.prevout } t.prevout =
          view.AccessCoin t.prevout := by
        intro t ht
        have hne : t.prevout ≠ txin.prevout := fun he => hnd.1 (he ▸ List.mem_map_of_mem ht)
        simp only [AccessCoin, AList.lookup_erase_ne hne]
      rw [ih hnd.2 hrest, List.map_cons, List.map_congr_left hsame]
      simp [AccessCoin, hlook]

/-- The loop succeeds on distinct outpoints that all have coins, by induction
on the inputs; every coin left was in the view, at the same outpoint. -/
theorem spendInputs_eq_ok :
    ∀ {vin : List CTxIn} {view : CCoinsViewCache}, (vin.map (·.prevout)).Nodup →
      (∀ txin ∈ vin, (view.coins.lookup txin.prevout).isSome) →
      ∃ view' undo, spendInputs view vin = .ok (view', undo) ∧ view'.hashBlock = view.hashBlock ∧
        ∀ o c, view'.coins.lookup o = some c → view.coins.lookup o = some c := by
  intro vin
  induction vin with
  | nil =>
    intro view _ _
    exact ⟨view, [], rfl, rfl, fun _ _ h => h⟩
  | cons txin rest ih =>
    intro view hnd hin
    rw [List.map_cons, List.nodup_cons] at hnd
    obtain ⟨coin, hcoin⟩ := Option.isSome_iff_exists.1 (hin txin List.mem_cons_self)
    have hspend : view.SpendCoin txin.prevout = some (coin, { view with coins := view.coins.erase txin.prevout }) := by
      simp [SpendCoin, hcoin]
    have hrest : ∀ t ∈ rest, (({ view with coins := view.coins.erase txin.prevout } : CCoinsViewCache).coins.lookup
        t.prevout).isSome := by
      intro t ht
      have hne : t.prevout ≠ txin.prevout := fun he => hnd.1 (he ▸ List.mem_map_of_mem ht)
      rw [AList.lookup_erase_ne hne]
      exact hin t (List.mem_cons_of_mem txin ht)
    obtain ⟨view', undo, hrun, hblock, hsub⟩ := ih hnd.2 hrest
    refine ⟨view', coin :: undo, ?_, hblock, ?_⟩
    · simp [spendInputs, hspend, hrun]
    · intro o c ho
      have hmid := hsub o c ho
      by_cases hoe : o = txin.prevout
      · subst hoe
        simp at hmid
      · rwa [AList.lookup_erase_ne hoe] at hmid

section Update

variable (p : CTxOut → Prop) [DecidablePred p]

/-- `UpdateCoins`: the spent coins' terms go out of the amount, at most the
outputs' terms come in. -/
theorem amountWhere_UpdateCoins_le {C : Crypto} {tx : CTransaction} {view view' : CCoinsViewCache} {nHeight : Nat}
    {undo : List Coin} (hv : NonNeg view) (hout : ∀ out ∈ tx.vout, 0 ≤ out.nValue)
    (h : UpdateCoins C tx view nHeight = .ok (view', undo)) :
    amountWhere p view' + (undo.map fun coin => outTerm p coin.out).sum ≤
      amountWhere p view + (tx.vout.map (outTerm p)).sum ∧ NonNeg view' := by
  unfold UpdateCoins at h
  obtain ⟨⟨mid, txundo⟩, hspend, h⟩ := bind_eq_ok h
  obtain ⟨v2, hadd, hok⟩ := bind_eq_ok h
  cases hok
  -- the spends: exactly the undo record's terms, none for a coinbase
  have hmid : amountWhere p mid + (undo.map fun coin => outTerm p coin.out).sum = amountWhere p view ∧
      NonNeg mid := by
    split at hspend
    · exact ⟨amountWhere_spendInputs p hspend, hv.spendInputs hspend⟩
    · cases hspend
      simpa using hv
  obtain ⟨hle, hv'⟩ := amountWhere_addOutputs_le p hout hmid.2 hadd
  exact ⟨by omega, hv'⟩

end Update

/-- The undo record of `UpdateCoins`: nothing for a coinbase; for another
transaction whose outpoints are distinct, the coins its inputs named. -/
theorem UpdateCoins_undo {C : Crypto} {tx : CTransaction} {view view' : CCoinsViewCache} {nHeight : Nat}
    {undo : List Coin} (h : UpdateCoins C tx view nHeight = .ok (view', undo)) :
    (tx.IsCoinBase = true → undo = []) ∧
      (tx.IsCoinBase = false → (tx.vin.map (·.prevout)).Nodup → undo = tx.vin.map fun txin => view.AccessCoin txin.prevout) := by
  unfold UpdateCoins at h
  obtain ⟨⟨mid, txundo⟩, hspend, h⟩ := bind_eq_ok h
  obtain ⟨v2, hadd, hok⟩ := bind_eq_ok h
  cases hok
  constructor
  · intro hcb
    simp only [hcb, Bool.not_true, Bool.false_eq_true, if_false] at hspend
    cases hspend
    rfl
  · intro hcb hnd
    simp only [hcb, Bool.not_false, if_true] at hspend
    exact spendInputs_undo hnd hspend

end Tapyrus
