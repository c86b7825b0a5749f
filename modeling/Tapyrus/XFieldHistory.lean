import Tapyrus.XField
/-!
# The xfield history

`CXFieldHistoryMap` (`xfieldhistory.h`, `xfieldhistory.cpp`): for each
xfield type the node knows (`XFIELDTYPES_INIT_LIST`: the aggregate public
key and the maximum block size), the list of changes in the order they were
added. The genesis constructor starts each list with the genesis value at
height 0; `Add` appends a change unless an equal one is already listed. A
change made by the block at height `h` applies from height `h + 1`.

`Get(type, height)` reads the list as sorted by height: the first change at
exactly `height`, or the last one below it when the next is above; past the
end it answers the last change. `GetLatest` answers the last change
whatever height is asked about.

Only the two known types have a list; the code dereferences the map's `end()`
for any other, which no caller does. The model answers `none` there, and for
an empty list.
-/

namespace Tapyrus

open Lib

/-- `MAX_BLOCK_SIZE`, the genesis maximum block size. -/
def MAX_BLOCK_SIZE : UInt32 := 1000000

/-- `XFieldHistoryMapType` as the node fills it: one change list per known
type. -/
structure CXFieldHistoryMap where
  aggPubKey : List XFieldChange
  maxBlockSize : List XFieldChange
  deriving DecidableEq, Repr

namespace CXFieldHistoryMap

variable (history : CXFieldHistoryMap)

/-- `find(type)->second`. -/
def find (type : TAPYRUS_XFIELDTYPES) : Option (List XFieldChange) :=
  if type = .AGGPUBKEY then some history.aggPubKey
  else if type = .MAXBLOCKSIZE then some history.maxBlockSize
  else none

/-- The map with one type's list replaced. -/
def setList (type : TAPYRUS_XFIELDTYPES) (l : List XFieldChange) : CXFieldHistoryMap :=
  if type = .AGGPUBKEY then { history with aggPubKey := l }
  else if type = .MAXBLOCKSIZE then { history with maxBlockSize := l }
  else history

/-- `IsNew`: no listed change equals this one (value, height and block). -/
def IsNew (type : TAPYRUS_XFIELDTYPES) (xFieldChange : XFieldChange) : Option Bool :=
  (history.find type).map fun l => l.all (· != xFieldChange)

/-- `Add`: append the change unless it is listed already. -/
def Add (type : TAPYRUS_XFIELDTYPES) (xFieldChange : XFieldChange) : Option CXFieldHistoryMap := do
  let l ← history.find type
  if l.all (· != xFieldChange) then some (history.setList type (l ++ [xFieldChange])) else some history

/-- The loop of `Get(type, height)`: the change at `height`, or the one
below `height` whose successor is above it. At the last change only the
first test can hold (`height` is not past it there), so `at(i + 1)` is never
read. -/
def getAtHeight (height : UInt32) : List XFieldChange → Option XFieldChange
  | [] => none
  | [c] => if height = c.height then some c else none
  | c :: d :: rest =>
    if height = c.height || (c.height < height && height < d.height) then some c
    else getAtHeight height (d :: rest)

/-- The same loop as the code runs it: when the change is neither at
`height` nor above it, the test reads `at(i + 1)`, which past the end throws
`std::out_of_range` (the error here). `getAtHeight` leaves that read out;
`getAtHeightChecked_eq` shows it never happens once `Get` has passed its
guard. -/
def getAtHeightChecked (height : UInt32) : List XFieldChange → Except String (Option XFieldChange)
  | [] => .ok none
  | c :: rest =>
    if height = c.height then .ok (some c)
    else if c.height < height then
      match rest with
      | [] => .error "out_of_range"
      | d :: _ => if height < d.height then .ok (some c) else getAtHeightChecked height rest
    else getAtHeightChecked height rest

/-- `Get(type, height)`. -/
def Get (type : TAPYRUS_XFIELDTYPES) (height : UInt32) : Option XFieldChange := do
  let l ← history.find type
  let last ← l.getLast?
  if height = 0 || l.length = 1 then l.head?
  else if height > last.height then some last
  else (getAtHeight height l).orElse fun _ => some last

/-- `Get(type, blockHash)`: the change that block made, else the last one. -/
def GetByHash (type : TAPYRUS_XFIELDTYPES) (blockHash : uint256) : Option XFieldChange := do
  let l ← history.find type
  (l.find? (·.blockHash = blockHash)).orElse fun _ => l.getLast?

/-- `GetLatest(type, xfieldval)`: the value of the last change. -/
def GetLatest (type : TAPYRUS_XFIELDTYPES) : Option XFieldData :=
  (history.find type).bind fun l => l.getLast?.map (·.xfieldValue)

end CXFieldHistoryMap

/-- `CXFieldHistory(genesis)`: the genesis block's aggregate key and
`MAX_BLOCK_SIZE`, both at height 0 and dated by the genesis hash. -/
def CXFieldHistoryMap.ofGenesis (genesisXFieldValue : XFieldData) (genesisHash : uint256) : CXFieldHistoryMap :=
  ⟨[⟨genesisXFieldValue, 0, genesisHash⟩], [⟨.maxBlockSize MAX_BLOCK_SIZE, 0, genesisHash⟩]⟩

/-- `XFIELDTYPES_INIT_LIST`. -/
def XFIELDTYPES_INIT_LIST : List TAPYRUS_XFIELDTYPES := [.AGGPUBKEY, .MAXBLOCKSIZE]

/-- `CXField::IsValid`: a known type, a valid value (a fully valid public
key; a size above 1000) of that type. -/
def CXField.IsValid (IsFullyValid : List UInt8 → Bool) (x : CXField) : Bool :=
  x.xfieldType.IsValid &&
    (match x.xfieldValue with
      | .empty => true
      | .aggPubKey data => IsFullyValid data
      | .maxBlockSize data => data > 1000) &&
    GetXFieldTypeFrom x.xfieldValue == x.xfieldType

/-- `IsXFieldNew`: a valid field of a known type whose value differs from the
last value of its type (`IsXFieldLastInHistoryVisitor`). -/
def IsXFieldNew (IsFullyValid : List UInt8 → Bool) (xfield : CXField) (history : CXFieldHistoryMap) : Bool :=
  xfield.IsValid IsFullyValid && XFIELDTYPES_INIT_LIST.contains xfield.xfieldType &&
    !(history.GetLatest (GetXFieldTypeFrom xfield.xfieldValue) == some xfield.xfieldValue)

/-- `GetCurrentMaxBlockSize`: the latest maximum block size. -/
def GetCurrentMaxBlockSize (history : CXFieldHistoryMap) : Option UInt32 :=
  match history.GetLatest .MAXBLOCKSIZE with
  | some (.maxBlockSize data) => some data
  | _ => none

/-- `GetMaxBlockSigops`: a fiftieth of the size. -/
def GetMaxBlockSigops (history : CXFieldHistoryMap) : Option UInt32 :=
  (GetCurrentMaxBlockSize history).map (· / 50)

/-! ## The history only grows -/

namespace CXFieldHistoryMap

/-- `a` lists every change `b` lists, in the same order, and maybe more after. -/
def Extends (b a : CXFieldHistoryMap) : Prop := b.aggPubKey <+: a.aggPubKey ∧ b.maxBlockSize <+: a.maxBlockSize

theorem Extends.refl (h : CXFieldHistoryMap) : h.Extends h := ⟨List.prefix_refl _, List.prefix_refl _⟩

theorem Extends.trans {a b c : CXFieldHistoryMap} (hab : a.Extends b) (hbc : b.Extends c) : a.Extends c :=
  ⟨hab.1.trans hbc.1, hab.2.trans hbc.2⟩

/-- Below its last change the loop never reads past the end. -/
theorem getAtHeightChecked_eq (height : UInt32) :
    ∀ l : List XFieldChange, (∀ last ∈ l.getLast?, height ≤ last.height) →
      getAtHeightChecked height l = .ok (getAtHeight height l)
  | [], _ => rfl
  | [c], hlast => by
    have hle : height ≤ c.height := hlast c rfl
    by_cases heq : height = c.height
    · simp [getAtHeightChecked, getAtHeight, heq]
    · simp [getAtHeightChecked, getAtHeight, heq, UInt32.not_lt.2 hle]
  | c :: d :: rest, hlast => by
    have ih := getAtHeightChecked_eq height (d :: rest) (by simpa [List.getLast?_cons_cons] using hlast)
    -- one round of each loop; the checked one reads `d`, which is there
    rw [getAtHeightChecked, getAtHeight]
    by_cases heq : height = c.height
    · simp [heq]
    · by_cases hc : c.height < height
      · by_cases hd : height < d.height
        · simp [heq, hc, hd]
        · simp [heq, hc, hd, ih]
      · simp [heq, hc, ih]

/-- Heights strictly increasing. -/
abbrev HeightSorted (l : List XFieldChange) : Prop := l.Pairwise (·.height < ·.height)

/-- No change above `height` passes the filter. -/
theorem filter_height_eq_nil {height : UInt32} {l : List XFieldChange} (h : ∀ x ∈ l, height < x.height) :
    l.filter (·.height ≤ height) = [] := by
  rw [List.filter_eq_nil_iff]
  intro x hx
  simpa using UInt32.not_le.2 (h x hx)

/-- In a sorted list every change is at or below the last. -/
theorem le_getLast_height {l : List XFieldChange} (hl : HeightSorted l) (hne : l ≠ []) :
    ∀ x ∈ l, x.height ≤ (l.getLast hne).height := by
  intro x hx
  have hsplit := List.dropLast_append_getLast hne
  rw [← hsplit] at hl hx
  rcases List.mem_append.1 hx with hdrop | hlast
  · exact UInt32.le_of_lt (List.pairwise_append.1 hl |>.2.2 x hdrop _ (List.mem_singleton_self _))
  · rw [List.mem_singleton.1 hlast]
    exact UInt32.le_refl _

/-- The loop answers the last change at or below `height`, when the first
change is at or below it and the last is not. -/
theorem getAtHeight_eq_getLast?_filter (height : UInt32) :
    ∀ (c : XFieldChange) (rest : List XFieldChange), HeightSorted (c :: rest) → c.height ≤ height →
      (∀ last ∈ (c :: rest).getLast?, height ≤ last.height) →
      getAtHeight height (c :: rest) = ((c :: rest).filter (·.height ≤ height)).getLast?
  | c, [], _, hc, hlast => by
    have heq : height = c.height := UInt32.le_antisymm (hlast c rfl) hc
    simp [getAtHeight, heq]
  | c, d :: rest, hsorted, hc, hlast => by
    obtain ⟨hcabove, hdsorted⟩ := List.pairwise_cons.1 hsorted
    have hdabove : ∀ x ∈ rest, d.height < x.height := (List.pairwise_cons.1 hdsorted).1
    by_cases hstop : height = c.height ∨ (c.height < height ∧ height < d.height)
    · -- the loop stops at `c`, and every later change is above `height`
      have habove : ∀ x ∈ d :: rest, height < x.height := by
        intro x hx
        rcases hstop with heq | ⟨-, hd⟩
        · exact heq ▸ hcabove x hx
        · rcases List.mem_cons.1 hx with rfl | hx
          · exact hd
          · exact UInt32.lt_trans hd (hdabove x hx)
      have hfilter : (c :: d :: rest).filter (·.height ≤ height) = [c] := by
        rw [List.filter_cons_of_pos (by simpa using hc), filter_height_eq_nil habove]
      rw [hfilter]
      simp [getAtHeight, hstop]
    · -- the loop goes on to `d`, which is at or below `height`
      have hne : height ≠ c.height := fun h => hstop (Or.inl h)
      have hclt : c.height < height := UInt32.lt_of_le_of_ne hc (Ne.symm hne)
      have hdle : d.height ≤ height := UInt32.not_lt.1 fun hd => hstop (Or.inr ⟨hclt, hd⟩)
      have ih := getAtHeight_eq_getLast?_filter height d rest hdsorted hdle
        (by simpa [List.getLast?_cons_cons] using hlast)
      have hstep : getAtHeight height (c :: d :: rest) = getAtHeight height (d :: rest) := by
        simp only [getAtHeight]
        rw [if_neg (by simpa using hstop)]
      rw [hstep, ih, List.filter_cons_of_pos (by simpa using hdle), List.filter_cons_of_pos (by simpa using hc),
        List.filter_cons_of_pos (by simpa using hdle), List.getLast?_cons_cons]


/-- Over a change list sorted by height and starting at height 0, `Get`
answers the last change at or below `height`. The list is not empty, so
`[0]` and `back()` are in range, and the loop, which `Get` enters only at or
below the last change, never reads past the end. -/
theorem Get_change_in_effect (history : CXFieldHistoryMap) (type : TAPYRUS_XFIELDTYPES) (L : List XFieldChange)
    (hfind : history.find type = some L) (hsorted : HeightSorted L) (hzero : L.head?.map (·.height) = some 0)
    (height : UInt32) :
    history.Get type height = (L.filter (·.height ≤ height)).getLast? ∧ L ≠ [] ∧
      ((∀ last ∈ L.getLast?, height ≤ last.height) → getAtHeightChecked height L = .ok (getAtHeight height L)) := by
  obtain ⟨c, rest, rfl, hc0⟩ : ∃ c rest, L = c :: rest ∧ c.height = 0 := by
    cases L with
    | nil => simp at hzero
    | cons c rest => exact ⟨c, rest, rfl, by simpa using hzero⟩
  have hne : c :: rest ≠ [] := List.cons_ne_nil c rest
  have hgetLast : (c :: rest).getLast? = some ((c :: rest).getLast hne) := List.getLast?_eq_some_getLast hne
  have hbelow := le_getLast_height hsorted hne
  have hcle : c.height ≤ height := hc0 ▸ UInt32.zero_le
  have hcpass : (c :: rest).filter (·.height ≤ height) = c :: rest.filter (·.height ≤ height) :=
    List.filter_cons_of_pos (by simpa using hcle)
  refine ⟨?_, hne, getAtHeightChecked_eq height _⟩
  simp only [Get, hfind, hgetLast, Option.bind_some, Option.bind_eq_bind]
  by_cases hfirst : height = 0 ∨ (c :: rest).length = 1
  · -- `[0]`: no later change is at or below `height`
    have habove : ∀ x ∈ rest, height < x.height := by
      rcases hfirst with h0 | hlen
      · intro x hx
        rw [h0, ← hc0]
        exact (List.pairwise_cons.1 hsorted).1 x hx
      · have hrest : rest = [] := by simpa using hlen
        simp [hrest]
    rw [hcpass, filter_height_eq_nil habove, if_pos (by simpa using hfirst)]
    rfl
  · by_cases hpast : height > ((c :: rest).getLast hne).height
    · -- past the last change every change is at or below `height`
      have hall : (c :: rest).filter (·.height ≤ height) = c :: rest := by
        rw [List.filter_eq_self]
        intro x hx
        simpa using UInt32.le_of_lt (UInt32.lt_of_le_of_lt (hbelow x hx) hpast)
      rw [hall, hgetLast, if_neg (by simpa using hfirst), if_pos hpast]
    · have hle : height ≤ ((c :: rest).getLast hne).height := UInt32.not_lt.1 hpast
      have hloop := getAtHeight_eq_getLast?_filter height c rest hsorted hcle (by simpa [hgetLast] using hle)
      rw [if_neg (by simpa using hfirst), if_neg hpast, hloop, hcpass,
        List.getLast?_eq_some_getLast (List.cons_ne_nil _ _)]
      rfl

/-- The maximum block size raised at height 5. -/
def raisedSizeHistory : CXFieldHistoryMap :=
  ⟨[], [⟨.maxBlockSize MAX_BLOCK_SIZE, 0, Blob.zero 32⟩, ⟨.maxBlockSize 2000000, 5, Blob.zero 32⟩]⟩

theorem Get_change_in_effect_raised :
    raisedSizeHistory.find .MAXBLOCKSIZE = some raisedSizeHistory.maxBlockSize ∧
      HeightSorted raisedSizeHistory.maxBlockSize ∧ raisedSizeHistory.maxBlockSize.head?.map (·.height) = some 0 ∧
      (raisedSizeHistory.Get .MAXBLOCKSIZE 3 = (raisedSizeHistory.maxBlockSize.filter (·.height ≤ 3)).getLast? ∧
        raisedSizeHistory.maxBlockSize ≠ [] ∧
        ((∀ last ∈ raisedSizeHistory.maxBlockSize.getLast?, 3 ≤ last.height) →
          getAtHeightChecked 3 raisedSizeHistory.maxBlockSize = .ok (getAtHeight 3 raisedSizeHistory.maxBlockSize))) :=
  have hfind : raisedSizeHistory.find .MAXBLOCKSIZE = some raisedSizeHistory.maxBlockSize := rfl
  have hsorted : HeightSorted raisedSizeHistory.maxBlockSize := by decide
  have hzero : raisedSizeHistory.maxBlockSize.head?.map (·.height) = some 0 := rfl
  ⟨hfind, hsorted, hzero, Get_change_in_effect _ _ _ hfind hsorted hzero 3⟩

end CXFieldHistoryMap

end Tapyrus
