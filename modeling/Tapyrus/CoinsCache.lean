import Tapyrus.Coins
/-!
# The stack of coins caches

`CCoinsViewCache` (`coins.h`, `coins.cpp`) as the node stacks it: layers of
caches over the coins database `CCoinsViewDB`, each layer a map from
outpoints to entries (`CCoinsCacheEntry`: a coin with the flags DIRTY and
FRESH), each layer's `base` the layer below it or, under the last one, the
database. `CoinsStack` is that stack as `coins_cache_simulation_test` drives
it, top first, and `CoinsStack.next` its operations: `AddCoin`, `SpendCoin`
and the lookups at the top, `Uncache` and `Flush` of any layer, a new layer
pushed, the top flushed and popped.

The flags carry the design. DIRTY unset promises that the entry shows what
the view below shows; FRESH promises that the view below has no unspent coin
there. `EntryInv` states both against `view`, the coins the layers below
show, and `StackInv` asks it of every entry of every layer. Each operation
keeps `StackInv`, and changes `view` only as the flattened view of
`Tapyrus.Coins` changes under the same `AddCoin` and `SpendCoin`
(`Refines`). So a lookup at the top reads that flattened view, the map the
test keeps as `result`, and no `BatchWrite` meets an entry marked FRESH over
an unspent coin (`Refines.next`, `Reachable.refines`).

Left out: `hashBlock` (carried through `BatchWrite`, read by no lookup) and
`cachedCoinsUsage` (memory accounting). The two flags are the only bits the
code sets in `flags`, so they are two fields.
-/

namespace Tapyrus.CoinsCache

/-- `CCoinsCacheEntry`: the cached coin and its flags. -/
structure CCoinsCacheEntry where
  coin : Coin
  /-- `DIRTY`: the entry may differ from the parent view's. -/
  dirty : Bool
  /-- `FRESH`: the parent view has no unspent coin at this outpoint. -/
  fresh : Bool
  deriving DecidableEq, Repr

/-- `CCoinsMap`: the entries of one layer. -/
abbrev CCoinsMap := AList (fun _ : COutPoint => CCoinsCacheEntry)

/-- What ends a cache operation early: a failed `assert`, or a
`std::logic_error` with its text. -/
inductive CacheFailure where
  | assertion
  | logic_error (what : String)
  deriving DecidableEq, Repr

namespace CCoinsCacheEntry

/-- The coin an entry shows a lookup: none when it is spent. -/
def view (it : CCoinsCacheEntry) : Option Coin := if it.coin.IsSpent then none else some it.coin

@[simp] theorem view_eq_none {it : CCoinsCacheEntry} : it.view = none ↔ it.coin.IsSpent = true := by
  unfold view
  split <;> simp_all

theorem view_eq_some {it : CCoinsCacheEntry} {coin : Coin} :
    it.view = some coin ↔ it.coin = coin ∧ it.coin.IsSpent = false := by
  unfold view
  split <;> simp_all

end CCoinsCacheEntry

/-! ## The database -/

/-- One pass of the loop of `CCoinsViewDB::BatchWrite`: a DIRTY entry is
erased when its coin is spent and written otherwise. -/
def dbWriteEntry (coins : CoinsMap) (outpoint : COutPoint) (it : CCoinsCacheEntry) : CoinsMap :=
  if it.dirty then (if it.coin.IsSpent then coins.erase outpoint else coins.insert outpoint it.coin) else coins

/-- The loop of `CCoinsViewDB::BatchWrite` over the entries. -/
def dbWriteEntries (coins : CoinsMap) : List (Sigma fun _ : COutPoint => CCoinsCacheEntry) → CoinsMap
  | [] => coins
  | e :: mapCoins => dbWriteEntries (dbWriteEntry coins e.1 e.2) mapCoins

/-- A DIRTY entry leaves what it shows; any other leaves the database as it was. -/
theorem lookup_dbWriteEntry (coins : CoinsMap) (outpoint o : COutPoint) (it : CCoinsCacheEntry) :
    (dbWriteEntry coins outpoint it).lookup o = if o = outpoint ∧ it.dirty then it.view else coins.lookup o := by
  unfold dbWriteEntry CCoinsCacheEntry.view
  by_cases ho : o = outpoint
  · subst ho
    split_ifs <;> simp_all [AList.lookup_erase, AList.lookup_insert]
  · split_ifs <;> simp_all [AList.lookup_erase_ne, AList.lookup_insert_ne]

theorem dbWriteEntries_unspent {coins : CoinsMap} (h : ∀ o coin, coins.lookup o = some coin → coin.IsSpent = false)
    (mapCoins : List (Sigma fun _ : COutPoint => CCoinsCacheEntry)) :
    ∀ o coin, (dbWriteEntries coins mapCoins).lookup o = some coin → coin.IsSpent = false := by
  induction mapCoins generalizing coins with
  | nil => exact h
  | cons e mapCoins ih =>
    apply ih
    intro o coin hlook
    rw [lookup_dbWriteEntry] at hlook
    split_ifs at hlook
    · exact (CCoinsCacheEntry.view_eq_some.1 hlook).1 ▸ (CCoinsCacheEntry.view_eq_some.1 hlook).2
    · exact h o coin hlook

/-- `CCoinsViewDB`: the coins database. It holds unspent coins only:
`BatchWrite` erases a spent one, and `Coin::Serialize` asserts
`!IsSpent()`. -/
structure CCoinsViewDB where
  coins : CoinsMap
  unspent : ∀ o coin, coins.lookup o = some coin → coin.IsSpent = false

namespace CCoinsViewDB

/-- `GetCoin`: `db.Read`. -/
def GetCoin (db : CCoinsViewDB) (outpoint : COutPoint) : Option Coin := db.coins.lookup outpoint

/-- `BatchWrite(mapCoins, hashBlock)`. -/
def BatchWrite (db : CCoinsViewDB) (mapCoins : CCoinsMap) : CCoinsViewDB :=
  ⟨dbWriteEntries db.coins mapCoins.entries, dbWriteEntries_unspent db.unspent mapCoins.entries⟩

end CCoinsViewDB

/-! ## One layer -/

/-- `FetchCoin(outpoint)` of a layer over `base`: the layer's entry, or else
the coin `base->GetCoin` finds, now cached; a spent one is cached FRESH.
`baseGetCoin` is what that call returns and leaves of the base; the code
makes it on a miss only, and the result does not depend on it otherwise. -/
def FetchCoin {σ : Type} (cacheCoins : CCoinsMap) (outpoint : COutPoint) (base : σ)
    (baseGetCoin : Option Coin × σ) : Option CCoinsCacheEntry × CCoinsMap × σ :=
  match cacheCoins.lookup outpoint with
  | some it => (some it, cacheCoins, base)
  | none =>
    match baseGetCoin with
    | (none, base) => (none, cacheCoins, base)
    | (some tmp, base) =>
      -- the parent only has an empty entry for this outpoint: ours is FRESH
      let entry : CCoinsCacheEntry := ⟨tmp, false, tmp.IsSpent⟩
      (some entry, cacheCoins.insert outpoint entry, base)

/-- `GetCoin(outpoint, coin)` of the view made of `layers`, top first, over
the database: the coin when it returns `true`, and the layers with what
`FetchCoin` cached in them. -/
def GetCoin (db : CCoinsViewDB) : List CCoinsMap → COutPoint → Option Coin × List CCoinsMap
  | [], outpoint => (db.GetCoin outpoint, [])
  | cacheCoins :: base, outpoint =>
    match FetchCoin cacheCoins outpoint base (GetCoin db base outpoint) with
    | (some it, cacheCoins, base) => (if it.coin.IsSpent then none else some it.coin, cacheCoins :: base)
    | (none, cacheCoins, base) => (none, cacheCoins :: base)

/-- `FetchCoin` of the layer `cacheCoins` over the layers `base`. -/
def fetch (db : CCoinsViewDB) (cacheCoins : CCoinsMap) (base : List CCoinsMap) (outpoint : COutPoint) :
    Option CCoinsCacheEntry × CCoinsMap × List CCoinsMap :=
  FetchCoin cacheCoins outpoint base (GetCoin db base outpoint)

/-- `AccessCoin(outpoint)`: the entry's coin, or `coinEmpty`. -/
def AccessCoin (db : CCoinsViewDB) (cacheCoins : CCoinsMap) (base : List CCoinsMap) (outpoint : COutPoint) :
    Coin × CCoinsMap × List CCoinsMap :=
  match fetch db cacheCoins base outpoint with
  | (some it, cacheCoins, base) => (it.coin, cacheCoins, base)
  | (none, cacheCoins, base) => (Coin.empty, cacheCoins, base)

/-- `HaveCoin(outpoint)`: an entry whose coin is not spent. -/
def HaveCoin (db : CCoinsViewDB) (cacheCoins : CCoinsMap) (base : List CCoinsMap) (outpoint : COutPoint) :
    Bool × CCoinsMap × List CCoinsMap :=
  match fetch db cacheCoins base outpoint with
  | (some it, cacheCoins, base) => (!it.coin.IsSpent, cacheCoins, base)
  | (none, cacheCoins, base) => (false, cacheCoins, base)

/-- `SpendCoin(outpoint, moveout)`: the coin moved out (`false` when there
is no entry), and the layer after it: a FRESH entry is erased, any other
cleared and marked DIRTY. -/
def SpendCoin (db : CCoinsViewDB) (cacheCoins : CCoinsMap) (base : List CCoinsMap) (outpoint : COutPoint) :
    Option Coin × CCoinsMap × List CCoinsMap :=
  match fetch db cacheCoins base outpoint with
  | (none, cacheCoins, base) => (none, cacheCoins, base)
  | (some it, cacheCoins, base) =>
    if it.fresh then (some it.coin, cacheCoins.erase outpoint, base)
    -- `flags |= DIRTY`, `coin.Clear()`
    else (some it.coin, cacheCoins.insert outpoint { it with coin := Coin.empty, dirty := true }, base)

/-- `AddCoin(outpoint, coin, possible_overwrite)`. It does not fetch: the
entry is the layer's own, or a new one holding the empty coin. -/
def AddCoin (cacheCoins : CCoinsMap) (outpoint : COutPoint) (coin : Coin) (possible_overwrite : Bool) :
    Except CacheFailure CCoinsMap :=
  -- assert(!coin.IsSpent())
  if coin.IsSpent then .error .assertion
  else if coin.out.scriptPubKey.IsUnspendable then .ok cacheCoins
  else
    let it := (cacheCoins.lookup outpoint).getD ⟨Coin.empty, false, false⟩
    if !possible_overwrite && !it.coin.IsSpent then
      .error (.logic_error "Adding new coin that replaces non-pruned entry")
    else
      let fresh := !possible_overwrite && !it.dirty
      .ok (cacheCoins.insert outpoint ⟨coin, true, it.fresh || fresh⟩)

/-- `Uncache(hash)`: an entry with no flag set is dropped. -/
def Uncache (cacheCoins : CCoinsMap) (hash : COutPoint) : CCoinsMap :=
  match cacheCoins.lookup hash with
  | some it => if !it.dirty && !it.fresh then cacheCoins.erase hash else cacheCoins
  | none => cacheCoins

/-- One pass of the loop of `BatchWrite(mapCoins, hashBlock)`: the child's
entry `it` at `outpoint` written into the layer `cacheCoins`. -/
def batchWriteEntry (cacheCoins : CCoinsMap) (outpoint : COutPoint) (it : CCoinsCacheEntry) :
    Except CacheFailure CCoinsMap :=
  -- non-dirty entries are ignored
  if !it.dirty then .ok cacheCoins
  else
    match cacheCoins.lookup outpoint with
    | none =>
      -- nothing to write for an entry both FRESH and spent
      if !(it.fresh && it.coin.IsSpent) then .ok (cacheCoins.insert outpoint ⟨it.coin, true, it.fresh⟩)
      else .ok cacheCoins
    | some itUs =>
      if it.fresh && !itUs.coin.IsSpent then
        .error (.logic_error "FRESH flag misapplied to cache entry for base transaction with spendable outputs")
      -- the grandparent has nothing here: the parent's entry can go
      else if itUs.fresh && it.coin.IsSpent then .ok (cacheCoins.erase outpoint)
      else .ok (cacheCoins.insert outpoint { itUs with coin := it.coin, dirty := true })

/-- The loop of `BatchWrite` over the child's entries. -/
def batchWriteEntries (cacheCoins : CCoinsMap) :
    List (Sigma fun _ : COutPoint => CCoinsCacheEntry) → Except CacheFailure CCoinsMap
  | [] => .ok cacheCoins
  | e :: mapCoins => do
    let cacheCoins ← batchWriteEntry cacheCoins e.1 e.2
    batchWriteEntries cacheCoins mapCoins

/-- `BatchWrite(mapCoins, hashBlock)` of a layer. -/
def BatchWrite (cacheCoins mapCoins : CCoinsMap) : Except CacheFailure CCoinsMap :=
  batchWriteEntries cacheCoins mapCoins.entries

/-! ## The stack -/

/-- `Flush()` of the layer at depth `i` from the top: `base->BatchWrite` of
its entries, then `cacheCoins.clear()`; `none` when there is no such
layer. -/
def flushAt (db : CCoinsViewDB) : Nat → List CCoinsMap →
    Option (Except CacheFailure (List CCoinsMap × CCoinsViewDB))
  | _, [] => none
  | 0, [cacheCoins] => some (.ok ([∅], db.BatchWrite cacheCoins))
  | 0, cacheCoins :: parent :: base =>
    some ((BatchWrite parent cacheCoins).map fun parent => (∅ :: parent :: base, db))
  | i + 1, cacheCoins :: base => (flushAt db i base).map (Except.map fun r => (cacheCoins :: r.1, r.2))

/-- `Uncache(hash)` of the layer at depth `i` from the top. -/
def uncacheAt (hash : COutPoint) : Nat → List CCoinsMap → Option (List CCoinsMap)
  | _, [] => none
  | 0, cacheCoins :: base => some (Uncache cacheCoins hash :: base)
  | i + 1, cacheCoins :: base => (uncacheAt hash i base).map (cacheCoins :: ·)

/-- The caches of `coins_cache_simulation_test`, top first, over the
database. -/
structure CoinsStack where
  layers : List CCoinsMap
  db : CCoinsViewDB

/-- An operation of the test on the stack. -/
inductive CoinsOp where
  | AddCoin (outpoint : COutPoint) (coin : Coin) (possible_overwrite : Bool)
  | SpendCoin (outpoint : COutPoint)
  | AccessCoin (outpoint : COutPoint)
  | GetCoin (outpoint : COutPoint)
  | HaveCoin (outpoint : COutPoint)
  /-- `Uncache` of the layer at this depth. -/
  | Uncache (depth : Nat) (hash : COutPoint)
  /-- `Flush` of the layer at this depth. -/
  | Flush (depth : Nat)
  /-- A new cache over the top one (or the database). -/
  | push
  /-- The top cache flushed and deleted. -/
  | pop
  deriving DecidableEq, Repr

namespace CoinsStack

variable (s : CoinsStack)

def AccessCoin (outpoint : COutPoint) : Option (Coin × CoinsStack) :=
  match s.layers with
  | [] => none
  | cacheCoins :: base =>
    let r := CoinsCache.AccessCoin s.db cacheCoins base outpoint
    some (r.1, { s with layers := r.2.1 :: r.2.2 })

def GetCoin (outpoint : COutPoint) : Option (Option Coin × CoinsStack) :=
  match s.layers with
  | [] => none
  | layers =>
    let r := CoinsCache.GetCoin s.db layers outpoint
    some (r.1, { s with layers := r.2 })

def HaveCoin (outpoint : COutPoint) : Option (Bool × CoinsStack) :=
  match s.layers with
  | [] => none
  | cacheCoins :: base =>
    let r := CoinsCache.HaveCoin s.db cacheCoins base outpoint
    some (r.1, { s with layers := r.2.1 :: r.2.2 })

/-- The stack after an operation; `none` when the operation names a layer
the stack does not have. -/
def next : CoinsOp → Option (Except CacheFailure CoinsStack)
  | .AddCoin outpoint coin possible_overwrite =>
    match s.layers with
    | [] => none
    | cacheCoins :: base =>
      some ((CoinsCache.AddCoin cacheCoins outpoint coin possible_overwrite).map fun cacheCoins =>
        { s with layers := cacheCoins :: base })
  | .SpendCoin outpoint =>
    match s.layers with
    | [] => none
    | cacheCoins :: base =>
      let r := CoinsCache.SpendCoin s.db cacheCoins base outpoint
      some (.ok { s with layers := r.2.1 :: r.2.2 })
  | .AccessCoin outpoint => (s.AccessCoin outpoint).map fun r => .ok r.2
  | .GetCoin outpoint => (s.GetCoin outpoint).map fun r => .ok r.2
  | .HaveCoin outpoint => (s.HaveCoin outpoint).map fun r => .ok r.2
  | .Uncache depth hash => (uncacheAt hash depth s.layers).map fun layers => .ok { s with layers := layers }
  | .Flush depth => (flushAt s.db depth s.layers).map (Except.map fun r => ⟨r.1, r.2⟩)
  | .push => some (.ok { s with layers := ∅ :: s.layers })
  | .pop =>
    match s.layers with
    | [] => none
    | layers => (flushAt s.db 0 layers).map (Except.map fun r => ⟨r.1.tail, r.2⟩)

end CoinsStack

/-- The map the test checks the stack against (`result`): the flattened
view of `Tapyrus.Coins`, changed by `AddCoin` and `SpendCoin` only. An
`AddCoin` it refuses (a spent coin, or an unspent one replaced without
`possible_overwrite`) is one the caller may not make. -/
def refNext (f : CCoinsViewCache) : CoinsOp → Option CCoinsViewCache
  | .AddCoin outpoint coin possible_overwrite => (f.AddCoin outpoint coin possible_overwrite).toOption
  | .SpendCoin outpoint =>
    match f.SpendCoin outpoint with
    | some r => some r.2
    | none => some f
  | _ => some f

/-- The pairs of a stack and the map reached from the database alone, by
the same operations. -/
inductive Reachable (db : CCoinsViewDB) : CoinsStack → CCoinsViewCache → Prop where
  | init (hashBlock : uint256) : Reachable db ⟨[], db⟩ ⟨db.coins, hashBlock⟩
  | step {s s' : CoinsStack} {f f' : CCoinsViewCache} (op : CoinsOp) :
      Reachable db s f → s.next op = some (.ok s') → refNext f op = some f' → Reachable db s' f'

/-! ## What the flags promise -/

/-- The view through the layer `cacheCoins` over the view `below` of the
layers under it. -/
def layerView (cacheCoins : CCoinsMap) (below : COutPoint → Option Coin) (o : COutPoint) : Option Coin :=
  match cacheCoins.lookup o with
  | some it => it.view
  | none => below o

/-- The view of `layers` over the database: the unspent coin a lookup
through them finds. -/
def view (db : CCoinsViewDB) : List CCoinsMap → COutPoint → Option Coin
  | [] => db.coins.lookup
  | cacheCoins :: base => layerView cacheCoins (view db base)

/-- What an entry's flags promise about `below`, what the layers under it
show at its outpoint. -/
structure EntryInv (it : CCoinsCacheEntry) (below : Option Coin) : Prop where
  /-- Not DIRTY: the entry shows what the layers below show. -/
  clean : it.dirty = false → it.view = below
  /-- FRESH: the layers below show no coin. -/
  fresh : it.fresh = true → below = none
  /-- A spent coin in a cache is a cleared one. -/
  cleared : it.coin.IsSpent = true → it.coin = Coin.empty

/-- Every entry of a layer keeps its promise. -/
def LayerInv (cacheCoins : CCoinsMap) (below : COutPoint → Option Coin) : Prop :=
  ∀ o it, cacheCoins.lookup o = some it → EntryInv it (below o)

/-- Every layer keeps its promises about the layers under it. -/
def StackInv (db : CCoinsViewDB) : List CCoinsMap → Prop
  | [] => True
  | cacheCoins :: base => LayerInv cacheCoins (view db base) ∧ StackInv db base

section Views

variable {cacheCoins : CCoinsMap} {below : COutPoint → Option Coin} {o : COutPoint} {it : CCoinsCacheEntry}

theorem layerView_of_lookup (h : cacheCoins.lookup o = some it) : layerView cacheCoins below o = it.view := by
  simp [layerView, h]

theorem layerView_of_lookup_none (h : cacheCoins.lookup o = none) : layerView cacheCoins below o = below o := by
  simp [layerView, h]

theorem layerView_eq_elim (cacheCoins : CCoinsMap) (below : COutPoint → Option Coin) (o : COutPoint) :
    layerView cacheCoins below o = (cacheCoins.lookup o).elim (below o) CCoinsCacheEntry.view := by
  cases h : cacheCoins.lookup o <;> simp [layerView, h]

@[simp] theorem layerView_empty (below : COutPoint → Option Coin) : layerView ∅ below = below := by
  funext o
  simp [layerView, AList.lookup_empty]

theorem layerView_insert (cacheCoins : CCoinsMap) (below : COutPoint → Option Coin) (o : COutPoint)
    (it : CCoinsCacheEntry) :
    layerView (cacheCoins.insert o it) below = Function.update (layerView cacheCoins below) o it.view := by
  funext o'
  by_cases ho : o' = o
  · subst ho
    simp [layerView, AList.lookup_insert]
  · simp [layerView, AList.lookup_insert_ne ho, Function.update_of_ne ho]

theorem layerView_erase (cacheCoins : CCoinsMap) (below : COutPoint → Option Coin) (o : COutPoint) :
    layerView (cacheCoins.erase o) below = Function.update (layerView cacheCoins below) o (below o) := by
  funext o'
  by_cases ho : o' = o
  · subst ho
    simp [layerView, AList.lookup_erase]
  · simp [layerView, AList.lookup_erase_ne ho, Function.update_of_ne ho]

/-- A lookup never shows a spent coin. -/
theorem view_unspent {db : CCoinsViewDB} {coin : Coin} {layers : List CCoinsMap}
    (h : view db layers o = some coin) : coin.IsSpent = false := by
  induction layers with
  | nil => exact db.unspent o coin h
  | cons cacheCoins base ih =>
    simp only [view, layerView] at h
    split at h
    · exact (CCoinsCacheEntry.view_eq_some.1 h).1 ▸ (CCoinsCacheEntry.view_eq_some.1 h).2
    · exact ih h

theorem LayerInv.insert (h : LayerInv cacheCoins below) (hit : EntryInv it (below o)) :
    LayerInv (cacheCoins.insert o it) below := by
  intro o' it' hlook
  by_cases ho : o' = o
  · subst ho
    rw [AList.lookup_insert, Option.some.injEq] at hlook
    exact hlook ▸ hit
  · exact h o' it' (by rwa [AList.lookup_insert_ne ho] at hlook)

theorem LayerInv.erase (h : LayerInv cacheCoins below) : LayerInv (cacheCoins.erase o) below := by
  intro o' it' hlook
  by_cases ho : o' = o
  · subst ho
    rw [AList.lookup_erase] at hlook
    cases hlook
  · exact h o' it' (by rwa [AList.lookup_erase_ne ho] at hlook)

theorem LayerInv.empty (below : COutPoint → Option Coin) : LayerInv ∅ below := by
  intro o it hlook
  rw [AList.lookup_empty] at hlook
  cases hlook

end Views

/-! ## Lookups -/

section Lookups

variable {db : CCoinsViewDB} {cacheCoins : CCoinsMap} {base : List CCoinsMap} {o : COutPoint}

/-- The three ways `FetchCoin` ends: a hit, a miss the base cannot fill,
and a miss filled from the base. -/
theorem FetchCoin_cases {σ : Type} (cacheCoins : CCoinsMap) (o : COutPoint) (base : σ)
    (baseGetCoin : Option Coin × σ) :
    (∃ it, cacheCoins.lookup o = some it ∧ FetchCoin cacheCoins o base baseGetCoin = (some it, cacheCoins, base)) ∨
    (cacheCoins.lookup o = none ∧ baseGetCoin.1 = none ∧
      FetchCoin cacheCoins o base baseGetCoin = (none, cacheCoins, baseGetCoin.2)) ∨
    (∃ tmp, cacheCoins.lookup o = none ∧ baseGetCoin.1 = some tmp ∧
      FetchCoin cacheCoins o base baseGetCoin =
        (some ⟨tmp, false, tmp.IsSpent⟩, cacheCoins.insert o ⟨tmp, false, tmp.IsSpent⟩, baseGetCoin.2)) := by
  obtain ⟨r, base'⟩ := baseGetCoin
  cases hl : cacheCoins.lookup o with
  | some it => exact .inl ⟨it, rfl, by simp [FetchCoin, hl]⟩
  | none =>
    cases r with
    | none => exact .inr (.inl ⟨rfl, rfl, by simp [FetchCoin, hl]⟩)
    | some tmp => exact .inr (.inr ⟨tmp, rfl, rfl, by simp [FetchCoin, hl]⟩)

/-- What `GetCoin` of `layers` does: it returns the coin their view shows,
and leaves the view and the invariant as they were. -/
structure GetsCoin (db : CCoinsViewDB) (layers : List CCoinsMap) (o : COutPoint) : Prop where
  coin_eq : (GetCoin db layers o).1 = view db layers o
  view_eq : view db (GetCoin db layers o).2 = view db layers
  inv : StackInv db (GetCoin db layers o).2

theorem GetCoin_cons : GetCoin db (cacheCoins :: base) o =
    match fetch db cacheCoins base o with
    | (some it, cacheCoins, base) => (it.view, cacheCoins :: base)
    | (none, cacheCoins, base) => (none, cacheCoins :: base) :=
  rfl

/-- `FetchCoin` at the layer `cacheCoins`, given what `GetCoin` of the
layers under it does: the entry it returns is now the layer's, a miss
means the view shows no coin, and view and invariant are kept. -/
theorem fetch_spec {it : Option CCoinsCacheEntry} {cacheCoins' : CCoinsMap} {base' : List CCoinsMap}
    (hinv : StackInv db (cacheCoins :: base)) (hbase : GetsCoin db base o)
    (hr : fetch db cacheCoins base o = (it, cacheCoins', base')) :
    cacheCoins'.lookup o = it ∧ (it = none → view db (cacheCoins :: base) o = none) ∧
      view db (cacheCoins' :: base') = view db (cacheCoins :: base) ∧ StackInv db (cacheCoins' :: base') := by
  obtain ⟨hlayer, hrest⟩ := hinv
  unfold fetch at hr
  rcases FetchCoin_cases cacheCoins o base (GetCoin db base o) with
    ⟨it₀, hl, he⟩ | ⟨hl, hnone, he⟩ | ⟨tmp, hl, hsome, he⟩
  · -- a hit changes nothing
    rw [he, Prod.mk.injEq, Prod.mk.injEq] at hr
    obtain ⟨rfl, rfl, rfl⟩ := hr
    exact ⟨hl, (fun h => by cases h), rfl, hlayer, hrest⟩
  · rw [he, Prod.mk.injEq, Prod.mk.injEq] at hr
    obtain ⟨rfl, rfl, rfl⟩ := hr
    refine ⟨hl, fun _ => ?_, ?_, ?_, hbase.inv⟩
    · rw [view, layerView_of_lookup_none hl, ← hbase.coin_eq, hnone]
    · simp only [view, hbase.view_eq]
    · rw [hbase.view_eq]
      exact hlayer
  · -- the coin the base found is the one its view shows, so caching it changes no view
    rw [he, Prod.mk.injEq, Prod.mk.injEq] at hr
    obtain ⟨rfl, rfl, rfl⟩ := hr
    have hview : view db base o = some tmp := hbase.coin_eq ▸ hsome
    have hunspent : tmp.IsSpent = false := view_unspent hview
    have hshow : CCoinsCacheEntry.view ⟨tmp, false, tmp.IsSpent⟩ = some tmp := by
      simp [CCoinsCacheEntry.view, hunspent]
    refine ⟨AList.lookup_insert _, (fun h => by cases h), ?_, ?_, hbase.inv⟩
    · simp only [view, hbase.view_eq, layerView_insert, hshow]
      apply Function.update_eq_self_iff.2
      rw [layerView_of_lookup_none hl, hview]
    · rw [hbase.view_eq]
      apply hlayer.insert
      refine ⟨fun _ => hshow.trans hview.symm, fun h => ?_, fun h => ?_⟩ <;>
        · simp only [hunspent] at h
          cases h

theorem GetsCoin.of_inv : ∀ {layers : List CCoinsMap}, StackInv db layers → GetsCoin db layers o := by
  intro layers hinv
  induction layers with
  | nil => exact ⟨rfl, rfl, trivial⟩
  | cons cacheCoins base ih =>
    have hbase := ih hinv.2
    rcases hfe : fetch db cacheCoins base o with ⟨it, cacheCoins', base'⟩
    obtain ⟨hlook, hmiss, hview, hinv'⟩ := fetch_spec hinv hbase hfe
    refine ⟨?_, ?_, ?_⟩ <;> rw [GetCoin_cons, hfe]
    · cases it with
      | some it => rw [← hview, view, layerView_of_lookup hlook]
      | none => exact (hmiss rfl).symm
    all_goals cases it <;> assumption

/-- `AccessCoin` at the top reads the view, `coinEmpty` for no coin. -/
theorem AccessCoin_spec {coin : Coin} {cacheCoins' : CCoinsMap} {base' : List CCoinsMap}
    (hinv : StackInv db (cacheCoins :: base)) (hr : AccessCoin db cacheCoins base o = (coin, cacheCoins', base')) :
    coin = (view db (cacheCoins :: base) o).getD Coin.empty ∧
      view db (cacheCoins' :: base') = view db (cacheCoins :: base) ∧ StackInv db (cacheCoins' :: base') := by
  rcases hfe : fetch db cacheCoins base o with ⟨it, cacheCoins₁, base₁⟩
  obtain ⟨hlook, hmiss, hview, hinv'⟩ := fetch_spec hinv (GetsCoin.of_inv hinv.2) hfe
  unfold AccessCoin at hr
  rw [hfe] at hr
  cases it with
  | some it =>
    rw [Prod.mk.injEq, Prod.mk.injEq] at hr
    obtain ⟨rfl, rfl, rfl⟩ := hr
    refine ⟨?_, hview, hinv'⟩
    rw [← hview, view, layerView_of_lookup hlook]
    -- a spent entry holds the cleared coin, which is `coinEmpty`
    by_cases hs : it.coin.IsSpent = true
    · rw [(CCoinsCacheEntry.view_eq_none.2 hs), Option.getD_none]
      exact (hinv'.1 o it hlook).cleared hs
    · rw [(CCoinsCacheEntry.view_eq_some.2 ⟨rfl, by simpa using hs⟩), Option.getD_some]
  | none =>
    rw [Prod.mk.injEq, Prod.mk.injEq] at hr
    obtain ⟨rfl, rfl, rfl⟩ := hr
    exact ⟨by rw [hmiss rfl, Option.getD_none], hview, hinv'⟩

/-- `HaveCoin` at the top: whether the view shows a coin. -/
theorem HaveCoin_spec {b : Bool} {cacheCoins' : CCoinsMap} {base' : List CCoinsMap}
    (hinv : StackInv db (cacheCoins :: base)) (hr : HaveCoin db cacheCoins base o = (b, cacheCoins', base')) :
    b = (view db (cacheCoins :: base) o).isSome ∧
      view db (cacheCoins' :: base') = view db (cacheCoins :: base) ∧ StackInv db (cacheCoins' :: base') := by
  rcases hfe : fetch db cacheCoins base o with ⟨it, cacheCoins₁, base₁⟩
  obtain ⟨hlook, hmiss, hview, hinv'⟩ := fetch_spec hinv (GetsCoin.of_inv hinv.2) hfe
  unfold HaveCoin at hr
  rw [hfe] at hr
  cases it with
  | some it =>
    rw [Prod.mk.injEq, Prod.mk.injEq] at hr
    obtain ⟨rfl, rfl, rfl⟩ := hr
    refine ⟨?_, hview, hinv'⟩
    rw [← hview, view, layerView_of_lookup hlook]
    cases hs : it.coin.IsSpent <;> simp [CCoinsCacheEntry.view, hs]
  | none =>
    rw [Prod.mk.injEq, Prod.mk.injEq] at hr
    obtain ⟨rfl, rfl, rfl⟩ := hr
    exact ⟨by rw [hmiss rfl, Option.isSome_none], hview, hinv'⟩

end Lookups

/-! ## Writes -/

section Writes

variable {cacheCoins : CCoinsMap} {below : COutPoint → Option Coin} {o : COutPoint}

/-- `coinEmpty`, what `Clear` leaves, is spent. -/
@[simp] theorem IsSpent_empty : Coin.empty.IsSpent = true := rfl

theorem view_of_unspent {coin : Coin} (hs : coin.IsSpent = false) (dirty fresh : Bool) :
    CCoinsCacheEntry.view ⟨coin, dirty, fresh⟩ = some coin := by
  simp [CCoinsCacheEntry.view, hs]

theorem AddCoin_unspendable {coin : Coin} {possible_overwrite : Bool} (hs : coin.IsSpent = false)
    (hu : coin.out.scriptPubKey.IsUnspendable = true) :
    AddCoin cacheCoins o coin possible_overwrite = .ok cacheCoins := by
  simp [AddCoin, hs, hu]

/-- `AddCoin` of a spendable coin shows it at the top. It does not throw
when `possible_overwrite` is set or no coin shows, and the entry it marks
FRESH has none below it. -/
theorem AddCoin_spec {coin : Coin} {possible_overwrite : Bool} (hinv : LayerInv cacheCoins below)
    (hs : coin.IsSpent = false) (hu : coin.out.scriptPubKey.IsUnspendable = false)
    (hpo : possible_overwrite = false → layerView cacheCoins below o = none) :
    ∃ cacheCoins', AddCoin cacheCoins o coin possible_overwrite = .ok cacheCoins' ∧ LayerInv cacheCoins' below ∧
      layerView cacheCoins' below = Function.update (layerView cacheCoins below) o (some coin) := by
  have hview := view_of_unspent hs true
  have hcleared : coin.IsSpent = true → coin = Coin.empty := fun h => by simp [hs] at h
  cases hl : cacheCoins.lookup o with
  | none =>
    -- a new entry, FRESH exactly when an overwrite is excluded
    have hbelow : possible_overwrite = false → below o = none := fun h =>
      (layerView_of_lookup_none hl).symm.trans (hpo h)
    refine ⟨cacheCoins.insert o ⟨coin, true, !possible_overwrite⟩, ?_, ?_, by rw [layerView_insert, hview]⟩
    · simp [AddCoin, hs, hu, hl]
    · refine hinv.insert ⟨(fun h => by cases h), fun h => hbelow (by simpa using h), hcleared⟩
  | some e =>
    have he := hinv o e hl
    cases possible_overwrite with
    | true =>
      refine ⟨cacheCoins.insert o ⟨coin, true, e.fresh⟩, ?_, ?_, by rw [layerView_insert, hview]⟩
      · simp [AddCoin, hs, hu, hl]
      · exact hinv.insert ⟨(fun h => by cases h), he.fresh, hcleared⟩
    | false =>
      -- no coin shows, so the entry's coin is spent and nothing is thrown
      have hes : e.coin.IsSpent = true := CCoinsCacheEntry.view_eq_none.1 (layerView_of_lookup hl ▸ hpo rfl)
      refine ⟨cacheCoins.insert o ⟨coin, true, e.fresh || !e.dirty⟩, ?_, ?_, by rw [layerView_insert, hview]⟩
      · simp [AddCoin, hs, hu, hl, hes]
      · refine hinv.insert ⟨(fun h => by cases h), fun hf => ?_, hcleared⟩
        cases hd : e.dirty
        · -- a clean entry shows what is below: no coin
          rw [← he.clean hd, CCoinsCacheEntry.view_eq_none]
          exact hes
        · simp only [hd, Bool.not_true, Bool.or_false] at hf
          exact he.fresh hf

/-- `Uncache` drops only an entry with no flag, which shows what is below. -/
theorem Uncache_spec (hinv : LayerInv cacheCoins below) :
    LayerInv (Uncache cacheCoins o) below ∧ layerView (Uncache cacheCoins o) below = layerView cacheCoins below := by
  cases hl : cacheCoins.lookup o with
  | none =>
    have hu : Uncache cacheCoins o = cacheCoins := by simp [Uncache, hl]
    rw [hu]
    exact ⟨hinv, rfl⟩
  | some it =>
    by_cases hflags : it.dirty = false ∧ it.fresh = false
    · have hu : Uncache cacheCoins o = cacheCoins.erase o := by simp [Uncache, hl, hflags]
      rw [hu, layerView_erase]
      refine ⟨hinv.erase, Function.update_eq_self_iff.2 ?_⟩
      rw [layerView_of_lookup hl]
      exact ((hinv o it hl).clean hflags.1).symm
    · have hu : Uncache cacheCoins o = cacheCoins := by
        simp only [Uncache, hl]
        split_ifs with h
        · simp only [Bool.and_eq_true, Bool.not_eq_eq_eq_not, Bool.not_true] at h
          exact absurd h hflags
        · rfl
      rw [hu]
      exact ⟨hinv, rfl⟩

end Writes

/-! ## Flushes -/

section Flushes

variable {cacheCoins : CCoinsMap} {below : COutPoint → Option Coin} {o : COutPoint}

/-- One entry written into the parent layer shows there what it showed in
the child. It cannot throw: an entry marked FRESH has no coin below it, so
the parent's entry is spent. -/
theorem batchWriteEntry_spec {it : CCoinsCacheEntry} (hinv : LayerInv cacheCoins below)
    (hit : EntryInv it (layerView cacheCoins below o)) :
    ∃ cacheCoins', batchWriteEntry cacheCoins o it = .ok cacheCoins' ∧ LayerInv cacheCoins' below ∧
      layerView cacheCoins' below = Function.update (layerView cacheCoins below) o it.view := by
  cases hd : it.dirty with
  | false =>
    -- a clean entry shows what is below: skipping it changes nothing
    refine ⟨cacheCoins, by simp [batchWriteEntry, hd], hinv, ?_⟩
    exact (Function.update_eq_self_iff.2 (hit.clean hd)).symm
  | true =>
    have hshow : CCoinsCacheEntry.view ⟨it.coin, true, it.fresh⟩ = it.view := rfl
    cases hl : cacheCoins.lookup o with
    | none =>
      rw [layerView_of_lookup_none hl] at hit
      by_cases hfs : (it.fresh && it.coin.IsSpent) = true
      · -- FRESH and spent: no coin below, and none to write
        rw [Bool.and_eq_true] at hfs
        refine ⟨cacheCoins, by simp [batchWriteEntry, hd, hl, hfs], hinv, ?_⟩
        symm
        apply Function.update_eq_self_iff.2
        rw [layerView_of_lookup_none hl, hit.fresh hfs.1, CCoinsCacheEntry.view_eq_none.2 hfs.2]
      · refine ⟨cacheCoins.insert o ⟨it.coin, true, it.fresh⟩, ?_, ?_, by rw [layerView_insert, hshow]⟩
        · simp only [batchWriteEntry, hd, hl, Bool.not_true, Bool.false_eq_true, if_false]
          rw [Bool.eq_false_iff.2 hfs]
          rfl
        · exact hinv.insert ⟨(fun h => by cases h), hit.fresh, hit.cleared⟩
    | some us =>
      have hus := hinv o us hl
      rw [layerView_of_lookup hl] at hit
      have hnothrow : (it.fresh && !us.coin.IsSpent) = false := by
        cases hf : it.fresh with
        | false => rfl
        | true => simp [CCoinsCacheEntry.view_eq_none.1 (hit.fresh hf)]
      by_cases hes : (us.fresh && it.coin.IsSpent) = true
      · -- the grandparent has no coin here: the parent's entry goes
        have hes' := Bool.and_eq_true _ _ ▸ hes
        refine ⟨cacheCoins.erase o, ?_, hinv.erase, ?_⟩
        · simp only [batchWriteEntry, hd, hl, Bool.not_true, Bool.false_eq_true, if_false, hnothrow]
          rw [if_pos hes]
        · rw [layerView_erase, hus.fresh hes'.1, CCoinsCacheEntry.view_eq_none.2 hes'.2]
      · refine ⟨cacheCoins.insert o { us with coin := it.coin, dirty := true }, ?_, ?_,
          by rw [layerView_insert]; rfl⟩
        · simp only [batchWriteEntry, hd, hl, Bool.not_true, Bool.false_eq_true, if_false, hnothrow]
          rw [if_neg hes]
        · exact hinv.insert ⟨(fun h => by cases h), hus.fresh, hit.cleared⟩

/-- The loop of `BatchWrite`: each entry of the child, at its own outpoint
(the keys are distinct), ends up shown by the parent. -/
theorem batchWriteEntries_spec {mapCoins : List (Sigma fun _ : COutPoint => CCoinsCacheEntry)}
    (hnd : mapCoins.NodupKeys) (hinv : LayerInv cacheCoins below)
    (hits : ∀ o it, mapCoins.dlookup o = some it → EntryInv it (layerView cacheCoins below o)) :
    ∃ cacheCoins', batchWriteEntries cacheCoins mapCoins = .ok cacheCoins' ∧ LayerInv cacheCoins' below ∧
      ∀ o, layerView cacheCoins' below o = (mapCoins.dlookup o).elim (layerView cacheCoins below o) CCoinsCacheEntry.view := by
  induction mapCoins generalizing cacheCoins with
  | nil => exact ⟨cacheCoins, rfl, hinv, fun o => rfl⟩
  | cons e mapCoins ih =>
    obtain ⟨a, it⟩ := e
    obtain ⟨hnotin, hnd'⟩ := List.nodupKeys_cons.1 hnd
    obtain ⟨c₁, h₁, hinv₁, hview₁⟩ := batchWriteEntry_spec hinv (hits a it (List.dlookup_cons_eq _ _ _))
    -- the other entries are at other outpoints, where the first write changed nothing
    have hrest : ∀ o it', mapCoins.dlookup o = some it' → EntryInv it' (layerView c₁ below o) := by
      intro o it' hlook
      have hne : o ≠ a := by
        rintro rfl
        exact hnotin (List.dlookup_isSome.1 (by simp [hlook]))
      rw [hview₁, Function.update_of_ne hne]
      exact hits o it' (by rw [List.dlookup_cons_ne _ _ hne]; exact hlook)
    obtain ⟨c', h', hinv', hview'⟩ := ih hnd' hinv₁ hrest
    refine ⟨c', ?_, hinv', fun o => ?_⟩
    · show (batchWriteEntry cacheCoins a it >>= fun c => batchWriteEntries c mapCoins) = _
      rw [h₁]
      exact h'
    · rw [hview']
      by_cases ho : o = a
      · subst ho
        rw [List.dlookup_eq_none.2 hnotin, Option.elim_none, hview₁, Function.update_self,
          List.dlookup_cons_eq, Option.elim_some]
      · rw [List.dlookup_cons_ne _ _ ho, hview₁, Function.update_of_ne ho]

/-- `BatchWrite` of a child that keeps its promises into its parent: no
throw, and the parent alone now shows what the child over it showed. -/
theorem BatchWrite_spec {mapCoins : CCoinsMap} (hinv : LayerInv cacheCoins below)
    (hchild : LayerInv mapCoins (layerView cacheCoins below)) :
    ∃ cacheCoins', BatchWrite cacheCoins mapCoins = .ok cacheCoins' ∧ LayerInv cacheCoins' below ∧
      layerView cacheCoins' below = layerView mapCoins (layerView cacheCoins below) := by
  obtain ⟨c', h', hinv', hview'⟩ := batchWriteEntries_spec mapCoins.nodupKeys hinv hchild
  refine ⟨c', h', hinv', funext fun o => ?_⟩
  rw [hview', layerView_eq_elim mapCoins]
  rfl

/-- The loop of `CCoinsViewDB::BatchWrite`: the database now shows what each
entry showed, and keeps what a clean entry showed anyway. -/
theorem dbWriteEntries_spec {mapCoins : List (Sigma fun _ : COutPoint => CCoinsCacheEntry)} {coins : CoinsMap}
    (hnd : mapCoins.NodupKeys)
    (hclean : ∀ o it, mapCoins.dlookup o = some it → it.dirty = false → it.view = coins.lookup o) (o : COutPoint) :
    (dbWriteEntries coins mapCoins).lookup o = (mapCoins.dlookup o).elim (coins.lookup o) CCoinsCacheEntry.view := by
  induction mapCoins generalizing coins with
  | nil => rfl
  | cons e mapCoins ih =>
    obtain ⟨a, it⟩ := e
    obtain ⟨hnotin, hnd'⟩ := List.nodupKeys_cons.1 hnd
    -- written or clean, the entry's outpoint shows its coin
    have hat : (dbWriteEntry coins a it).lookup a = it.view := by
      rw [lookup_dbWriteEntry]
      cases hd : it.dirty with
      | true => simp
      | false => simpa [hd] using (hclean a it (List.dlookup_cons_eq _ _ _) hd).symm
    have hrest : ∀ o it', mapCoins.dlookup o = some it' → it'.dirty = false →
        it'.view = (dbWriteEntry coins a it).lookup o := by
      intro o it' hlook hd
      have hne : o ≠ a := by
        rintro rfl
        exact hnotin (List.dlookup_isSome.1 (by simp [hlook]))
      rw [lookup_dbWriteEntry, if_neg (fun h => hne h.1)]
      exact hclean o it' (by rw [List.dlookup_cons_ne _ _ hne]; exact hlook) hd
    show (dbWriteEntries (dbWriteEntry coins a it) mapCoins).lookup o = _
    rw [ih hnd' hrest]
    by_cases ho : o = a
    · subst ho
      rw [List.dlookup_eq_none.2 hnotin, Option.elim_none, hat, List.dlookup_cons_eq, Option.elim_some]
    · rw [List.dlookup_cons_ne _ _ ho, lookup_dbWriteEntry, if_neg (fun h => ho h.1)]

/-- `BatchWrite` into the database: it now shows what the layer over it
showed. -/
theorem CCoinsViewDB.BatchWrite_view {db : CCoinsViewDB} {mapCoins : CCoinsMap}
    (hinv : LayerInv mapCoins db.coins.lookup) :
    (db.BatchWrite mapCoins).coins.lookup = layerView mapCoins db.coins.lookup := by
  funext o
  rw [layerView_eq_elim]
  exact dbWriteEntries_spec mapCoins.nodupKeys (fun o it hlook hd => (hinv o it hlook).clean hd) o

end Flushes

/-! ## The stack -/

section Stack

variable {db : CCoinsViewDB} {cacheCoins : CCoinsMap} {base : List CCoinsMap} {o : COutPoint}

/-- `SpendCoin` at the top: the view shows no coin at the outpoint, and
nothing else changes. A FRESH entry can go, since nothing shows below it. -/
theorem SpendCoin_spec {moved : Option Coin} {cacheCoins' : CCoinsMap} {base' : List CCoinsMap}
    (hinv : StackInv db (cacheCoins :: base)) (hr : SpendCoin db cacheCoins base o = (moved, cacheCoins', base')) :
    view db (cacheCoins' :: base') = Function.update (view db (cacheCoins :: base)) o none ∧
      StackInv db (cacheCoins' :: base') := by
  rcases hfe : fetch db cacheCoins base o with ⟨it, cacheCoins₁, base₁⟩
  obtain ⟨hlook, hmiss, hview, hinv₁, hrest₁⟩ := fetch_spec hinv (GetsCoin.of_inv hinv.2) hfe
  unfold SpendCoin at hr
  rw [hfe] at hr
  cases it with
  | none =>
    rw [Prod.mk.injEq, Prod.mk.injEq] at hr
    obtain ⟨rfl, rfl, rfl⟩ := hr
    refine ⟨?_, hinv₁, hrest₁⟩
    rw [hview]
    exact (Function.update_eq_self_iff.2 (hmiss rfl).symm).symm
  | some it =>
    have hit := hinv₁ o it hlook
    dsimp only at hr
    by_cases hf : it.fresh = true
    · rw [if_pos hf, Prod.mk.injEq, Prod.mk.injEq] at hr
      obtain ⟨rfl, rfl, rfl⟩ := hr
      refine ⟨?_, hinv₁.erase, hrest₁⟩
      rw [← hview, view, view, layerView_erase, hit.fresh hf]
    · rw [if_neg hf, Prod.mk.injEq, Prod.mk.injEq] at hr
      obtain ⟨rfl, rfl, rfl⟩ := hr
      refine ⟨?_, hinv₁.insert ⟨(fun h => by cases h), fun h => absurd h hf, fun _ => rfl⟩, hrest₁⟩
      rw [← hview, view, view, layerView_insert]
      rfl

/-- A flush of the top layer: the layer below (or the database) now shows
alone what both showed, and the top is left empty. -/
theorem flushAt_zero_spec {r : Except CacheFailure (List CCoinsMap × CCoinsViewDB)}
    (hinv : StackInv db (cacheCoins :: base)) (hr : flushAt db 0 (cacheCoins :: base) = some r) :
    ∃ base' db', r = .ok (∅ :: base', db') ∧ StackInv db' base' ∧ view db' base' = view db (cacheCoins :: base) := by
  rcases base with _ | ⟨parent, base⟩
  · refine ⟨[], db.BatchWrite cacheCoins, (Option.some.inj hr).symm, trivial, ?_⟩
    exact CCoinsViewDB.BatchWrite_view hinv.1
  · obtain ⟨hc, hp, hb⟩ := hinv
    obtain ⟨parent', hbw, hinv', hview'⟩ := BatchWrite_spec hp hc
    simp only [flushAt, hbw, Except.map, Option.some.injEq] at hr
    exact ⟨parent' :: base, db, hr.symm, ⟨hinv', hb⟩, by rw [view, view, hview']; rfl⟩

/-- A flush at any depth keeps every promise and changes no view: the layers
above the flushed one see the same coins below them. -/
theorem flushAt_spec (i : Nat) {db : CCoinsViewDB} {layers : List CCoinsMap}
    {r : Except CacheFailure (List CCoinsMap × CCoinsViewDB)}
    (hinv : StackInv db layers) (hr : flushAt db i layers = some r) :
    ∃ layers' db', r = .ok (layers', db') ∧ StackInv db' layers' ∧ view db' layers' = view db layers := by
  induction i generalizing layers r with
  | zero =>
    rcases layers with _ | ⟨cacheCoins, base⟩
    · cases hr
    · obtain ⟨base', db', rfl, hinv', hview'⟩ := flushAt_zero_spec hinv hr
      exact ⟨∅ :: base', db', rfl, ⟨LayerInv.empty _, hinv'⟩, by rw [view, layerView_empty, hview']⟩
  | succ i ih =>
    rcases layers with _ | ⟨cacheCoins, base⟩
    · cases hr
    · cases hlow : flushAt db i base with
      | none => simp [flushAt, hlow] at hr
      | some r' =>
        obtain ⟨base', db', rfl, hinv', hview'⟩ := ih hinv.2 hlow
        simp only [flushAt, hlow, Option.map_some, Except.map, Option.some.injEq] at hr
        refine ⟨cacheCoins :: base', db', hr.symm, ⟨hview' ▸ hinv.1, hinv'⟩, ?_⟩
        rw [view, view, hview']

/-- `Uncache` at any depth keeps every promise and changes no view. -/
theorem uncacheAt_spec (hash : COutPoint) (i : Nat) {layers layers' : List CCoinsMap}
    (hinv : StackInv db layers) (hr : uncacheAt hash i layers = some layers') :
    StackInv db layers' ∧ view db layers' = view db layers := by
  induction i generalizing layers layers' with
  | zero =>
    rcases layers with _ | ⟨cacheCoins, base⟩
    · cases hr
    · cases hr
      obtain ⟨hlayer, hview⟩ := Uncache_spec (o := hash) hinv.1
      exact ⟨⟨hlayer, hinv.2⟩, by rw [view, view, hview]⟩
  | succ i ih =>
    rcases layers with _ | ⟨cacheCoins, base⟩
    · cases hr
    · cases hlow : uncacheAt hash i base with
      | none => simp [uncacheAt, hlow] at hr
      | some base' =>
        simp only [uncacheAt, hlow, Option.map_some, Option.some.injEq] at hr
        subst hr
        obtain ⟨hinv', hview'⟩ := ih hinv.2 hlow
        exact ⟨⟨hview' ▸ hinv.1, hinv'⟩, by rw [view, view, hview']⟩

end Stack

/-! ## The stack refines the flattened view -/

/-- The stack stands for the flattened view `f`: every layer keeps its
promises, and a lookup through the layers reads `f`'s coins. -/
structure Refines (s : CoinsStack) (f : CCoinsViewCache) : Prop where
  inv : StackInv s.db s.layers
  view_eq : view s.db s.layers = f.coins.lookup

section Refinement

variable {s : CoinsStack} {f : CCoinsViewCache}

theorem lookup_insert_eq_update (coins : CoinsMap) (o : COutPoint) (coin : Coin) :
    (coins.insert o coin).lookup = Function.update coins.lookup o (some coin) := by
  funext o'
  by_cases ho : o' = o
  · subst ho
    simp [AList.lookup_insert]
  · simp [AList.lookup_insert_ne ho, Function.update_of_ne ho]

theorem lookup_erase_eq_update (coins : CoinsMap) (o : COutPoint) :
    (coins.erase o).lookup = Function.update coins.lookup o none := by
  funext o'
  by_cases ho : o' = o
  · subst ho
    simp [AList.lookup_erase]
  · simp [AList.lookup_erase_ne ho, Function.update_of_ne ho]

/-- The flattened `HaveCoin` asks whether the stack's view shows a coin. -/
theorem Refines.HaveCoin_eq (h : Refines s f) (o : COutPoint) : f.HaveCoin o = (view s.db s.layers o).isSome := by
  have hv : view s.db s.layers o = f.coins.lookup o := congrFun h.view_eq o
  unfold CCoinsViewCache.HaveCoin
  rw [← hv]
  cases hv : view s.db s.layers o with
  | none => rfl
  | some coin => simp [view_unspent hv]

/-- A change of layers that keeps the invariant and the view keeps the
refinement. -/
theorem Refines.of_view {s' : CoinsStack} (h : Refines s f) (hinv : StackInv s'.db s'.layers)
    (hview : view s'.db s'.layers = view s.db s.layers) : Refines s' f :=
  ⟨hinv, hview.trans h.view_eq⟩

/-- Every operation the flattened view accepts, on a layer the stack has,
succeeds on the stack (no `assert`, no `logic_error`) and keeps the
refinement. -/
theorem Refines.next {f' : CCoinsViewCache} {op : CoinsOp} (h : Refines s f) (hf : refNext f op = some f')
    (hs : (s.next op).isSome) : ∃ s', s.next op = some (.ok s') ∧ Refines s' f' := by
  obtain ⟨layers, db⟩ := s
  have hinv : StackInv db layers := h.inv
  cases op with
  | AddCoin o coin possible_overwrite =>
    rcases layers with _ | ⟨cacheCoins, base⟩
    · cases hs
    have hok : f.AddCoin o coin possible_overwrite = .ok f' := by
      cases hA : f.AddCoin o coin possible_overwrite <;> simp_all [refNext, Except.toOption]
    obtain ⟨hs, ⟨hu, rfl⟩ | ⟨hu, hpo, rfl⟩⟩ := AddCoin_eq_ok hok
    · -- an unspendable output is never stored
      refine ⟨⟨cacheCoins :: base, db⟩, ?_, h⟩
      simp [CoinsStack.next, AddCoin_unspendable hs hu, Except.map]
    · have hpo' : possible_overwrite = false → layerView cacheCoins (view db base) o = none := fun hp => by
        have hhave : false = (view db (cacheCoins :: base) o).isSome := (hpo hp).symm.trans (h.HaveCoin_eq o)
        cases hv : view db (cacheCoins :: base) o with
        | none => exact hv
        | some c =>
          rw [hv] at hhave
          cases hhave
      obtain ⟨cacheCoins', hadd, hlayer, hview⟩ := AddCoin_spec hinv.1 hs hu hpo'
      refine ⟨⟨cacheCoins' :: base, db⟩, by simp [CoinsStack.next, hadd, Except.map], ⟨hlayer, hinv.2⟩, ?_⟩
      show layerView cacheCoins' (view db base) = _
      rw [hview, lookup_insert_eq_update]
      exact congrArg (Function.update · o (some coin)) h.view_eq
  | SpendCoin o =>
    rcases layers with _ | ⟨cacheCoins, base⟩
    · cases hs
    rcases hsp : SpendCoin db cacheCoins base o with ⟨moved, cacheCoins', base'⟩
    obtain ⟨hview, hinv'⟩ := SpendCoin_spec hinv hsp
    refine ⟨⟨cacheCoins' :: base', db⟩, by simp [CoinsStack.next, hsp], ⟨hinv', ?_⟩⟩
    show view db (cacheCoins' :: base') = _
    rw [hview, h.view_eq]
    -- the flattened view erases the coin, or has none to erase
    cases hflat : f.SpendCoin o with
    | some r =>
      obtain ⟨-, hr⟩ := SpendCoin_eq_some hflat
      simp only [refNext, hflat, Option.some.injEq] at hf
      rw [← hf, hr, lookup_erase_eq_update]
    | none =>
      simp only [refNext, hflat, Option.some.injEq] at hf
      subst hf
      have hnone : f.coins.lookup o = none := by
        unfold CCoinsViewCache.SpendCoin at hflat
        split at hflat
        · cases hflat
        · assumption
      exact Function.update_eq_self_iff.2 hnone.symm
  | AccessCoin o =>
    rcases layers with _ | ⟨cacheCoins, base⟩
    · cases hs
    simp only [refNext, Option.some.injEq] at hf
    subst hf
    rcases hA : CoinsCache.AccessCoin db cacheCoins base o with ⟨coin, cacheCoins', base'⟩
    obtain ⟨-, hview, hinv'⟩ := AccessCoin_spec hinv hA
    exact ⟨⟨cacheCoins' :: base', db⟩, by simp [CoinsStack.next, CoinsStack.AccessCoin, hA], h.of_view hinv' hview⟩
  | GetCoin o =>
    rcases layers with _ | ⟨cacheCoins, base⟩
    · cases hs
    simp only [refNext, Option.some.injEq] at hf
    subst hf
    have hget := GetsCoin.of_inv (o := o) hinv
    exact ⟨⟨_, db⟩, by simp [CoinsStack.next, CoinsStack.GetCoin], h.of_view hget.inv hget.view_eq⟩
  | HaveCoin o =>
    rcases layers with _ | ⟨cacheCoins, base⟩
    · cases hs
    simp only [refNext, Option.some.injEq] at hf
    subst hf
    rcases hH : CoinsCache.HaveCoin db cacheCoins base o with ⟨b, cacheCoins', base'⟩
    obtain ⟨-, hview, hinv'⟩ := HaveCoin_spec hinv hH
    exact ⟨⟨cacheCoins' :: base', db⟩, by simp [CoinsStack.next, CoinsStack.HaveCoin, hH], h.of_view hinv' hview⟩
  | Uncache depth hash =>
    simp only [refNext, Option.some.injEq] at hf
    subst hf
    cases hu : uncacheAt hash depth layers with
    | none => simp [CoinsStack.next, hu] at hs
    | some layers' =>
      obtain ⟨hinv', hview⟩ := uncacheAt_spec hash depth hinv hu
      exact ⟨⟨layers', db⟩, by simp [CoinsStack.next, hu], h.of_view hinv' hview⟩
  | Flush depth =>
    simp only [refNext, Option.some.injEq] at hf
    subst hf
    cases hfl : flushAt db depth layers with
    | none => simp [CoinsStack.next, hfl] at hs
    | some r =>
      obtain ⟨layers', db', rfl, hinv', hview⟩ := flushAt_spec depth hinv hfl
      exact ⟨⟨layers', db'⟩, by simp [CoinsStack.next, hfl, Except.map], h.of_view hinv' hview⟩
  | push =>
    simp only [refNext, Option.some.injEq] at hf
    subst hf
    exact ⟨⟨∅ :: layers, db⟩, rfl, h.of_view ⟨LayerInv.empty _, hinv⟩ (by rw [view, layerView_empty])⟩
  | pop =>
    simp only [refNext, Option.some.injEq] at hf
    subst hf
    rcases layers with _ | ⟨cacheCoins, base⟩
    · cases hs
    cases hfl : flushAt db 0 (cacheCoins :: base) with
    | none => simp [CoinsStack.next, hfl] at hs
    | some r =>
      obtain ⟨base', db', rfl, hinv', hview⟩ := flushAt_zero_spec hinv hfl
      exact ⟨⟨base', db'⟩, by simp [CoinsStack.next, hfl, Except.map], h.of_view hinv' hview⟩

/-- The refinement holds along every run. -/
theorem Reachable.refines {db : CCoinsViewDB} (h : Reachable db s f) : Refines s f := by
  induction h with
  | init hashBlock => exact ⟨trivial, rfl⟩
  | step op _ hnext hf ih =>
    obtain ⟨s'', hs'', hR⟩ := ih.next hf (by rw [hnext]; rfl)
    rw [hnext, Option.some.injEq, Except.ok.injEq] at hs''
    exact hs'' ▸ hR

/-- The lookups at the top read the flattened view: `AccessCoin` its coin
or `coinEmpty`, `GetCoin` its coin, `HaveCoin` whether it has one. -/
theorem Refines.lookups (h : Refines s f) (hne : s.layers ≠ []) (o : COutPoint) :
    (∃ s', s.AccessCoin o = some (f.AccessCoin o, s')) ∧ (∃ s', s.GetCoin o = some (f.coins.lookup o, s')) ∧
      (∃ s', s.HaveCoin o = some (f.HaveCoin o, s')) := by
  obtain ⟨layers, db⟩ := s
  rcases layers with _ | ⟨cacheCoins, base⟩
  · exact absurd rfl hne
  have hinv : StackInv db (cacheCoins :: base) := h.inv
  have hview : view db (cacheCoins :: base) o = f.coins.lookup o := congrFun h.view_eq o
  refine ⟨?_, ?_, ?_⟩
  · rcases hA : CoinsCache.AccessCoin db cacheCoins base o with ⟨coin, cacheCoins', base'⟩
    obtain ⟨hcoin, -, -⟩ := AccessCoin_spec hinv hA
    refine ⟨⟨cacheCoins' :: base', db⟩, ?_⟩
    simp only [CoinsStack.AccessCoin, hA, CCoinsViewCache.AccessCoin, hcoin, hview]
  · refine ⟨⟨(CoinsCache.GetCoin db (cacheCoins :: base) o).2, db⟩, ?_⟩
    simp only [CoinsStack.GetCoin, (GetsCoin.of_inv hinv).coin_eq, hview]
  · rcases hH : CoinsCache.HaveCoin db cacheCoins base o with ⟨b, cacheCoins', base'⟩
    obtain ⟨hb, -, -⟩ := HaveCoin_spec hinv hH
    refine ⟨⟨cacheCoins' :: base', db⟩, ?_⟩
    simp only [CoinsStack.HaveCoin, hH, hb, h.HaveCoin_eq]

end Refinement

/-- Along any run from the database, every lookup at the top of the stack
reads the map the same `AddCoin` and `SpendCoin` calls make, and every
operation on a layer the stack has succeeds when the map accepts it: no
`BatchWrite` throws. -/
theorem coins_cache_stack_refines_map {db : CCoinsViewDB} {s : CoinsStack} {f : CCoinsViewCache}
    (h : Reachable db s f) :
    (s.layers ≠ [] → ∀ o, (∃ s', s.AccessCoin o = some (f.AccessCoin o, s')) ∧
      (∃ s', s.GetCoin o = some (f.coins.lookup o, s')) ∧ (∃ s', s.HaveCoin o = some (f.HaveCoin o, s'))) ∧
    ∀ op f', refNext f op = some f' → (s.next op).isSome → ∃ s', s.next op = some (.ok s') :=
  ⟨fun hne o => h.refines.lookups hne o, fun _ _ hf hs => (h.refines.next hf hs).imp fun _ h => h.1⟩

/-- A coin added to the top of a new cache, then a second cache pushed and
the first flushed into an empty database: the lookup at the top fetches the
coin from the database. -/
theorem coins_cache_stack_refines_map_run :
    ∃ (s : CoinsStack) (f : CCoinsViewCache),
      Reachable ⟨∅, fun _ _ h => by rw [AList.lookup_empty] at h; cases h⟩ s f ∧
        ∃ s', s.AccessCoin ⟨Lib.Blob.zero 32, 0⟩ = some (⟨⟨5, [0x51]⟩, false, 1⟩, s') :=
  have hq : Reachable ⟨∅, fun _ _ h => by rw [AList.lookup_empty] at h; cases h⟩ _ _ :=
    .step (.Flush 1) (.step .push (.step (.AddCoin ⟨Lib.Blob.zero 32, 0⟩ ⟨⟨5, [0x51]⟩, false, 1⟩ false)
      (.step .push (.init (Lib.Blob.zero 32)) rfl rfl) rfl rfl) rfl rfl) rfl rfl
  ⟨_, _, hq, ((coins_cache_stack_refines_map hq).1 (List.cons_ne_nil _ _) _).1⟩

end Tapyrus.CoinsCache
