import Tapyrus.Serialize
/-!
# Extra fields

`primitives/xfield.h` and the storage half of `xfieldhistory.h`: the block
header's extra field (`CXField`: a type byte and a value, the aggregate
public key or the maximum block size), a recorded change of one
(`XFieldChange`: the value, the height from which it applies and the block
that carried it), and the block-tree database record that stores the list of
changes of one type.

The record is written by the generic vector serializer
(`CBlockTreeDB::WriteXField` stores `helper.xfieldChanges`) and read back by
the hand-written `XFieldChangeListWrapper::Unserialize`.
-/

namespace Tapyrus

open Lib

/-- `TAPYRUS_XFIELDTYPES`: an enum over `uint8_t`, so any byte is a value. -/
structure TAPYRUS_XFIELDTYPES where
  val : UInt8
  deriving DecidableEq, Repr

namespace TAPYRUS_XFIELDTYPES

def NONE : TAPYRUS_XFIELDTYPES := ⟨0⟩
def AGGPUBKEY : TAPYRUS_XFIELDTYPES := ⟨1⟩
def MAXBLOCKSIZE : TAPYRUS_XFIELDTYPES := ⟨2⟩

/-- `IsValid(TAPYRUS_XFIELDTYPES)`: one of the three known types. -/
def IsValid (t : TAPYRUS_XFIELDTYPES) : Bool := t == NONE || t == AGGPUBKEY || t == MAXBLOCKSIZE

end TAPYRUS_XFIELDTYPES

/-- `XFieldData`, the variant of `XFieldEmpty`, `XFieldAggPubKey` (key bytes)
and `XFieldMaxBlockSize` (a `uint32_t`). -/
inductive XFieldData where
  | empty
  | aggPubKey (data : List UInt8)
  | maxBlockSize (data : UInt32)
  deriving DecidableEq, Repr

/-- `GetXFieldTypeFrom`: the variant's index. -/
def GetXFieldTypeFrom : XFieldData → TAPYRUS_XFIELDTYPES
  | .empty => .NONE
  | .aggPubKey _ => .AGGPUBKEY
  | .maxBlockSize _ => .MAXBLOCKSIZE

/-- The `BLOCKTREE_DB_KEY`s. -/
def XFieldAggPubKey_BLOCKTREE_DB_KEY : Char := '1'
def XFieldMaxBlockSize_BLOCKTREE_DB_KEY : Char := '2'

/-- `::Serialize` of the value alone (`XFieldChange::Serialize`'s switch):
the key as a byte vector, the size as four bytes, nothing for `XFieldEmpty`. -/
def XFieldData.serialize : XFieldData → List UInt8
  | .empty => []
  | .aggPubKey data => WriteCompactSize data.length ++ data
  | .maxBlockSize data => ser_writedata32 data.toNat

/-- `Unserialize` of a `std::vector<unsigned char>`: a CompactSize length,
then that many bytes. -/
def readByteVector : SerReader (List UInt8) := do
  let nSize ← ReadCompactSize
  readBytes END_OF_DATA nSize

/-- `CXField`, the header's extra field. -/
structure CXField where
  xfieldType : TAPYRUS_XFIELDTYPES
  xfieldValue : XFieldData
  deriving DecidableEq, Repr

/-! ## Recorded changes -/

/-- `XFieldChange`. -/
structure XFieldChange where
  xfieldValue : XFieldData
  height : UInt32
  blockHash : uint256
  deriving DecidableEq, Repr

/-- `XFieldChange::Serialize`. -/
def XFieldChange.serialize (c : XFieldChange) : List UInt8 :=
  c.xfieldValue.serialize ++ ser_writedata32 c.height.toNat ++ c.blockHash.bytes

/-- `::Serialize(std::vector<XFieldChange>)`: what `WriteXField` and
`RewriteXField` store. -/
def serializeXFieldChangeList (l : List XFieldChange) : List UInt8 :=
  WriteCompactSize l.length ++ (l.map XFieldChange.serialize).flatten

def UNKNOWN_XFIELD : SerError :=
  .runtimeError "unknown xfield found. restart node with -reloadxfield option to correct the db."

/-- One round of the loop of `XFieldChangeListWrapper::Unserialize`: the
value as the record's key says, then the height and the block hash. -/
def readXFieldChange (key : Char) : SerReader XFieldChange := do
  let xfieldValue ←
    if key = XFieldAggPubKey_BLOCKTREE_DB_KEY then do
      let data ← readByteVector
      pure (XFieldData.aggPubKey data)
    else if key = XFieldMaxBlockSize_BLOCKTREE_DB_KEY then do
      let data ← ser_readdata32
      pure (XFieldData.maxBlockSize (UInt32.ofNat data))
    else Reader.throw UNKNOWN_XFIELD
  let height ← ser_readdata32
  let blockHash ← readBytes END_OF_DATA 32
  if h : blockHash.length = 32 then pure ⟨xfieldValue, UInt32.ofNat height, ⟨blockHash, h⟩⟩
  else Reader.throw END_OF_DATA

/-- `XFieldChangeListWrapper::Unserialize`: a `VARINT` count (a `uint32_t`),
then changes until the stream is empty, then `assert(len == size)`. -/
def XFieldChangeListWrapper.Unserialize (key : Char) (s : List UInt8) : Ends SerError (List XFieldChange) :=
  match StateT.run (ReadVarInt 0xffffffff) s with
  | .error e => .throws e
  | .ok (len, s') =>
    match StateT.run (untilEmpty (readXFieldChange key) s'.length) s' with
    | .error e => .throws e
    | .ok (xfieldChanges, _) => if len = xfieldChanges.length then .returns xfieldChanges else .aborts

/-- Whatever the loop reads, a normal return has as many changes as the
count that was read. -/
theorem Unserialize_returns_length {key : Char} {s : List UInt8} {l : List XFieldChange}
    (h : XFieldChangeListWrapper.Unserialize key s = .returns l) :
    ∃ s', StateT.run (ReadVarInt 0xffffffff) s = .ok (l.length, s') := by
  unfold XFieldChangeListWrapper.Unserialize at h
  split at h
  · cases h
  · rename_i len s' hlen
    split at h
    · cases h
    · split at h
      · rename_i hl; cases h; exact ⟨s', by rw [hlen, hl]⟩
      · cases h

/-- The record does not read back what was written once the list has 128 or
more changes: the writer's one-byte CompactSize count is at least `0x80`, which
the reader's VarInt takes for a continuation byte, so it also eats the first
byte of the first change and reads a count of `(n - 127) * 128 + b`. -/
theorem XFieldChangeListWrapper_Unserialize_ne (key : Char) (L : List XFieldChange) (b : UInt8)
    (hlo : 128 ≤ L.length) (hhi : L.length < 253)
    (hb : (L.map XFieldChange.serialize).flatten.head? = some b) (hb0 : 0 < b.toNat) (hb1 : b.toNat < 128) :
    XFieldChangeListWrapper.Unserialize key (serializeXFieldChangeList L) ≠ .returns L := by
  intro h
  obtain ⟨s', hread⟩ := Unserialize_returns_length h
  obtain ⟨rest, hrest⟩ : ∃ rest, (L.map XFieldChange.serialize).flatten = b :: rest := by
    cases hl : (L.map XFieldChange.serialize).flatten with
    | nil => rw [hl] at hb; cases hb
    | cons x xs => rw [hl] at hb; cases hb; exact ⟨xs, rfl⟩
  have hn : (UInt8.ofNat L.length).toNat = L.length := by simp; omega
  have htwo := ReadVarInt_two 0xffffffff (UInt8.ofNat L.length) b rest (by omega) hb1 (by norm_num)
  rw [serializeXFieldChangeList, WriteCompactSize_of_lt hhi, hrest, List.singleton_append, htwo, hn] at hread
  simp only [Except.ok.injEq, Prod.mk.injEq] at hread
  omega

/-- A 33-byte aggregate key change: its record starts with the key's length. -/
def sampleAggPubKeyChange : XFieldChange :=
  ⟨.aggPubKey (0x02 :: List.replicate 32 0), 2, Blob.zero 32⟩

theorem XFieldChangeListWrapper_Unserialize_ne_128 :
    128 ≤ (List.replicate 128 sampleAggPubKeyChange).length ∧
      (List.replicate 128 sampleAggPubKeyChange).length < 253 ∧
      ((List.replicate 128 sampleAggPubKeyChange).map XFieldChange.serialize).flatten.head? = some 33 ∧
      XFieldChangeListWrapper.Unserialize '1' (serializeXFieldChangeList (List.replicate 128 sampleAggPubKeyChange)) ≠
        .returns (List.replicate 128 sampleAggPubKeyChange) :=
  have hhead : ((List.replicate 128 sampleAggPubKeyChange).map XFieldChange.serialize).flatten.head? = some 33 := by
    rfl
  ⟨by simp, by simp, hhead,
    XFieldChangeListWrapper_Unserialize_ne '1' _ 33 (by simp) (by simp) hhead (by decide) (by decide)⟩

end Tapyrus
