import Tapyrus.Block
/-!
# Reading a block header back

The read side of `CBlockHeader::SerializationOp` (`primitives/block.h`) and
`CXField::Unserialize` (`primitives/xfield.h`).

`CXField::Unserialize` reads into the object the stream operator is given.
It stores the type byte, and it reads and stores a value only for the two
known types. For `NONE`, and for an unknown byte, the object keeps the value
it held before. It then throws `BadXFieldException` when the type does not
name the value's variant. So the result depends on the object's previous
contents as well as on the bytes: the readers here take that object as
`prev`.

The block header's fields are read in order: `nFeatures` (an `int32_t`),
the three hashes, `nTime`, the extra field and the proof (a byte vector).
-/

namespace Tapyrus

open Lib

/-! ## Fields -/

/-- `Unserialize` of an `int32_t`: four bytes, two's complement. -/
def ser_readint32 : SerReader Int := do
  let n ← ser_readdata32
  pure (if n < 2 ^ 31 then n else n - 2 ^ 32)

/-- `Unserialize` of a `uint32_t` field. -/
def readUInt32 : SerReader UInt32 := do
  let n ← ser_readdata32
  pure (UInt32.ofNat n)

/-- `uint256::Unserialize`: 32 bytes. -/
def readUint256 : SerReader uint256 := do
  let bs ← readBytes END_OF_DATA 32
  if h : bs.length = 32 then pure ⟨bs, h⟩ else Reader.throw END_OF_DATA

theorem ser_readint32_decodes {x : Int} (hlo : -2 ^ 31 ≤ x) (hhi : x < 2 ^ 31) :
    Decodes ser_readint32 (ser_writeint 4) x := by
  intro rest
  have hlt : (x % (256 ^ 4 : Nat)).toNat < 256 ^ 4 := by omega
  have hwrite : ser_writeint 4 x = ser_writedata32 (x % (256 ^ 4 : Nat)).toNat := rfl
  rw [ser_readint32, hwrite, ser_readdata32, ser_writedata32, (ser_readdata_decodes 4 _ hlt).bind, Reader.run_pure]
  -- a negative value is written as `x + 2^32`
  congr 2
  split_ifs <;> omega

theorem readUInt32_decodes (x : UInt32) : Decodes readUInt32 (fun x => ser_writedata32 x.toNat) x := by
  intro rest
  show StateT.run readUInt32 (ser_writedata32 x.toNat ++ rest) = _
  rw [readUInt32, ser_readdata32, ser_writedata32, (ser_readdata_decodes 4 _ (by simpa using x.toNat_lt)).bind,
    Reader.run_pure, UInt32.ofNat_toNat]

theorem readUint256_decodes (b : uint256) : Decodes readUint256 (·.bytes) b := by
  intro rest
  have hread := readBytes_append END_OF_DATA b.bytes rest
  rw [b.length_eq] at hread
  rw [readUint256, Reader.run_bind_of_ok hread, dif_pos b.length_eq]
  rfl

theorem readByteVector_decodes {v : List UInt8} (h : v.length ≤ MAX_SIZE) : Decodes readByteVector serializeBytes v := by
  intro rest
  rw [readByteVector, serializeBytes, List.append_assoc, (ReadCompactSize_decodes h).bind, readBytes_append]

/-- Whatever four or 32 bytes hold, the fixed-size readers take them. -/
theorem ser_readint32_run {s : List UInt8} (h : 4 ≤ s.length) :
    ∃ x, StateT.run ser_readint32 s = .ok (x, s.drop 4) := by
  simp only [ser_readint32, ser_readdata32, ser_readdata]
  rw [Reader.run_bind_of_ok (Reader.run_bind_of_ok (readBytes_of_le h))]
  exact ⟨_, rfl⟩

theorem readUint256_run {s : List UInt8} (h : 32 ≤ s.length) :
    ∃ b, StateT.run readUint256 s = .ok (b, s.drop 32) := by
  rw [readUint256, Reader.run_bind_of_ok (readBytes_of_le h), dif_pos (by simp; omega)]
  exact ⟨_, rfl⟩

theorem readUInt32_run {s : List UInt8} (h : 4 ≤ s.length) :
    ∃ x, StateT.run readUInt32 s = .ok (x, s.drop 4) := by
  simp only [readUInt32, ser_readdata32, ser_readdata]
  rw [Reader.run_bind_of_ok (Reader.run_bind_of_ok (readBytes_of_le h))]
  exact ⟨_, rfl⟩

/-! ## The extra field -/

/-- `BadXFieldException(type, value)`. -/
structure BadXFieldException where
  xfieldType : TAPYRUS_XFIELDTYPES
  xfieldValue : XFieldData
  deriving DecidableEq, Repr

/-- What reading a header throws: a stream error, or `BadXFieldException`. -/
inductive HeaderReadError where
  | stream (e : SerError)
  | badXField (e : BadXFieldException)
  deriving DecidableEq, Repr

/-- The value `CXField::Unserialize`'s switch leaves in the object: read
for the two known types, the previous value for `NONE` and for an unknown
byte. -/
def readXFieldValue (prevValue : XFieldData) (xfieldType : TAPYRUS_XFIELDTYPES) : Reader HeaderReadError XFieldData :=
  if xfieldType = .AGGPUBKEY then do
    let data ← Reader.mapError .stream readByteVector
    pure (XFieldData.aggPubKey data)
  else if xfieldType = .MAXBLOCKSIZE then do
    let data ← Reader.mapError .stream readUInt32
    pure (XFieldData.maxBlockSize data)
  else pure prevValue

/-- `CXField::Unserialize` into an object that held `prev`. -/
def CXField.Unserialize (prev : CXField) : Reader HeaderReadError CXField := do
  let temp ← Reader.mapError .stream ser_readdata8
  let xfieldType : TAPYRUS_XFIELDTYPES := ⟨UInt8.ofNat temp⟩
  let xfieldValue ← readXFieldValue prev.xfieldValue xfieldType
  if GetXFieldTypeFrom xfieldValue ≠ xfieldType then Reader.throw (.badXField ⟨xfieldType, xfieldValue⟩)
  else pure ⟨xfieldType, xfieldValue⟩

/-- `CBlockHeader::Unserialize` into an object that held `prev`. -/
def CBlockHeader.Unserialize (prev : CBlockHeader) : Reader HeaderReadError CBlockHeader := do
  let nFeatures ← Reader.mapError .stream ser_readint32
  let hashPrevBlock ← Reader.mapError .stream readUint256
  let hashMerkleRoot ← Reader.mapError .stream readUint256
  let hashImMerkleRoot ← Reader.mapError .stream readUint256
  let nTime ← Reader.mapError .stream readUInt32
  let xfield ← CXField.Unserialize prev.xfield
  let proof ← Reader.mapError .stream readByteVector
  pure ⟨nFeatures, hashPrevBlock, hashMerkleRoot, hashImMerkleRoot, nTime, xfield, proof⟩

/-! ## Reading back what was written -/

theorem readTypeByte (t : UInt8) (rest : List UInt8) :
    StateT.run (Reader.mapError HeaderReadError.stream ser_readdata8) (t :: rest) = .ok (t.toNat, rest) := by
  have h := ser_readdata_decodes 1 t.toNat (by simpa using t.toNat_lt) rest
  have hbyte : t :: rest = ser_writedata 1 t.toNat ++ rest := by simp [ser_writedata, toLE]
  rw [Reader.run_mapError, ser_readdata8, hbyte, h]
  rfl

/-- Reading into an object keeps the previous value for a type other than the two known ones. -/
theorem readXFieldValue_other (prevValue : XFieldData) {xfieldType : TAPYRUS_XFIELDTYPES}
    (h1 : xfieldType ≠ .AGGPUBKEY) (h2 : xfieldType ≠ .MAXBLOCKSIZE) (s : List UInt8) :
    StateT.run (readXFieldValue prevValue xfieldType) s = .ok (prevValue, s) := by
  rw [readXFieldValue, if_neg h1, if_neg h2]
  rfl

/-- A value of a known type reads back. -/
theorem readXFieldValue_decodes (prevValue : XFieldData) (v : XFieldData)
    (hkey : ∀ data, v = .aggPubKey data → data.length ≤ MAX_SIZE) (hne : v ≠ .empty) :
    Decodes (readXFieldValue prevValue (GetXFieldTypeFrom v)) XFieldData.serialize v := by
  intro rest
  cases v with
  | empty => exact absurd rfl hne
  | aggPubKey data =>
    have hdata := ((readByteVector_decodes (hkey data rfl)).mapError HeaderReadError.stream).bind
      (fun data => pure (XFieldData.aggPubKey data)) rest
    rw [GetXFieldTypeFrom, readXFieldValue, if_pos rfl, XFieldData.serialize, ← serializeBytes, hdata]
    rfl
  | maxBlockSize d =>
    have hdata := ((readUInt32_decodes d).mapError HeaderReadError.stream).bind
      (fun data => pure (XFieldData.maxBlockSize data)) rest
    rw [GetXFieldTypeFrom, readXFieldValue, if_neg (by decide), if_pos rfl, XFieldData.serialize, hdata]
    rfl

theorem CXField.Unserialize_cons (prev : CXField) (t : UInt8) (rest : List UInt8) :
    StateT.run (CXField.Unserialize prev) (t :: rest) =
      StateT.run (do
        let xfieldValue ← readXFieldValue prev.xfieldValue ⟨t⟩
        if GetXFieldTypeFrom xfieldValue ≠ ⟨t⟩ then Reader.throw (.badXField ⟨⟨t⟩, xfieldValue⟩)
        else pure ⟨⟨t⟩, xfieldValue⟩) rest := by
  rw [CXField.Unserialize, Reader.run_bind_of_ok (readTypeByte t rest), UInt8.ofNat_toNat]

/-- A field reads back into any object, except a `NONE` field into an
object whose value is not empty: that value stays, and the check throws. -/
theorem CXField.Unserialize_serialize (prev x : CXField) (hagree : GetXFieldTypeFrom x.xfieldValue = x.xfieldType)
    (hkey : ∀ data, x.xfieldValue = .aggPubKey data → data.length ≤ MAX_SIZE) (rest : List UInt8) :
    StateT.run (CXField.Unserialize prev) (x.serialize ++ rest) =
      if x.xfieldType = .NONE ∧ prev.xfieldValue ≠ .empty then .error (.badXField ⟨.NONE, prev.xfieldValue⟩)
      else .ok (x, rest) := by
  obtain ⟨xfieldType, xfieldValue⟩ := x
  dsimp only at hagree hkey ⊢
  subst hagree
  rw [CXField.serialize, List.singleton_append, List.cons_append, CXField.Unserialize_cons]
  by_cases hempty : xfieldValue = .empty
  · -- `NONE`: no value is read, and the previous one is checked against the type
    subst hempty
    rw [Reader.run_bind_of_ok (readXFieldValue_other prev.xfieldValue (by decide) (by decide) _)]
    cases hprev : prev.xfieldValue <;> rfl
  · have hread := readXFieldValue_decodes prev.xfieldValue xfieldValue hkey hempty rest
    have hnone : GetXFieldTypeFrom xfieldValue ≠ .NONE := by
      cases xfieldValue <;> simp_all [GetXFieldTypeFrom] <;> decide
    rw [Reader.run_bind_of_ok hread, if_neg (not_not.2 rfl), if_neg (fun h => hnone h.1)]
    rfl

/-- The header reads back as its extra field does. -/
theorem CBlockHeader.Unserialize_serialize (prev h : CBlockHeader)
    (hagree : GetXFieldTypeFrom h.xfield.xfieldValue = h.xfield.xfieldType)
    (hfeatures : -2 ^ 31 ≤ h.nFeatures ∧ h.nFeatures < 2 ^ 31) (hproof : h.proof.length ≤ MAX_SIZE)
    (hkey : ∀ data, h.xfield.xfieldValue = .aggPubKey data → data.length ≤ MAX_SIZE) (rest : List UInt8) :
    StateT.run (CBlockHeader.Unserialize prev) (h.serialize ++ rest) =
      if h.xfield.xfieldType = .NONE ∧ prev.xfield.xfieldValue ≠ .empty then
        .error (.badXField ⟨.NONE, prev.xfield.xfieldValue⟩)
      else .ok (h, rest) := by
  obtain ⟨nFeatures, hashPrevBlock, hashMerkleRoot, hashImMerkleRoot, nTime, xfield, proof⟩ := h
  dsimp only at hagree hfeatures hproof hkey ⊢
  simp only [CBlockHeader.serialize, CBlockHeader.serializeWithoutProof, List.append_assoc]
  -- the fixed fields read back whatever they hold
  rw [CBlockHeader.Unserialize, ((ser_readint32_decodes hfeatures.1 hfeatures.2).mapError _).bind,
    ((readUint256_decodes _).mapError _).bind, ((readUint256_decodes _).mapError _).bind,
    ((readUint256_decodes _).mapError _).bind, ((readUInt32_decodes _).mapError _).bind]
  have hx := CXField.Unserialize_serialize prev.xfield xfield hagree hkey (serializeBytes proof ++ rest)
  split_ifs at hx ⊢ with hcase
  · rw [Reader.run_bind_of_error hx]
  · rw [Reader.run_bind_of_ok hx, ((readByteVector_decodes hproof).mapError _).bind]
    rfl

theorem GetXFieldTypeFrom_val_lt (v : XFieldData) : (GetXFieldTypeFrom v).val.toNat < 3 := by
  cases v <;> simp [GetXFieldTypeFrom, TAPYRUS_XFIELDTYPES.NONE, TAPYRUS_XFIELDTYPES.AGGPUBKEY,
    TAPYRUS_XFIELDTYPES.MAXBLOCKSIZE]

/-- An unknown type byte keeps the previous value, whose type is one of the
three known ones: the read throws. -/
theorem CXField.Unserialize_unknown (prev : CXField) (t : UInt8) (ht : 3 ≤ t.toNat) (rest : List UInt8) :
    StateT.run (CXField.Unserialize prev) (t :: rest) = .error (.badXField ⟨⟨t⟩, prev.xfieldValue⟩) := by
  have hne : ∀ v, GetXFieldTypeFrom v ≠ ⟨t⟩ := fun v h => by
    have := GetXFieldTypeFrom_val_lt v
    rw [h] at this
    dsimp only at this
    omega
  rw [CXField.Unserialize_cons, Reader.run_bind_of_ok (readXFieldValue_other prev.xfieldValue
    (fun h => hne (.aggPubKey []) (by rw [h]; rfl)) ?_ rest)]
  · rw [if_pos (hne prev.xfieldValue)]
    rfl
  · intro h
    exact hne (.maxBlockSize 0) (by rw [h]; rfl)

/-- Whatever the first 104 bytes hold, a type byte other than 0, 1 and 2
throws. -/
theorem CBlockHeader.Unserialize_unknown_xfield (prev : CBlockHeader) (head : List UInt8) (hhead : head.length = 104)
    (t : UInt8) (ht : 3 ≤ t.toNat) (rest : List UInt8) :
    StateT.run (CBlockHeader.Unserialize prev) (head ++ t :: rest) =
      .error (.badXField ⟨⟨t⟩, prev.xfield.xfieldValue⟩) := by
  set s := head ++ t :: rest with hs
  have hlen : s.length = 105 + rest.length := by simp [hs, hhead]; omega
  -- the 104 bytes before the type byte are four fixed-size fields whatever they hold
  obtain ⟨nFeatures, h0⟩ := ser_readint32_run (s := s) (by omega)
  obtain ⟨hashPrevBlock, h1⟩ := readUint256_run (s := s.drop 4) (by simp; omega)
  obtain ⟨hashMerkleRoot, h2⟩ := readUint256_run (s := (s.drop 4).drop 32) (by simp; omega)
  obtain ⟨hashImMerkleRoot, h3⟩ := readUint256_run (s := ((s.drop 4).drop 32).drop 32) (by simp; omega)
  obtain ⟨nTime, h4⟩ := readUInt32_run (s := (((s.drop 4).drop 32).drop 32).drop 32) (by simp; omega)
  have hrest : ((((s.drop 4).drop 32).drop 32).drop 32).drop 4 = t :: rest := by
    simp only [List.drop_drop, hs]
    rw [show 4 + (32 + (32 + (32 + 4))) = head.length by omega, List.drop_left]
  rw [CBlockHeader.Unserialize, Reader.run_bind_of_ok (by rw [Reader.run_mapError, h0]; rfl),
    Reader.run_bind_of_ok (by rw [Reader.run_mapError, h1]; rfl),
    Reader.run_bind_of_ok (by rw [Reader.run_mapError, h2]; rfl),
    Reader.run_bind_of_ok (by rw [Reader.run_mapError, h3]; rfl),
    Reader.run_bind_of_ok (by rw [Reader.run_mapError, h4]; rfl), hrest,
    Reader.run_bind_of_error (CXField.Unserialize_unknown prev.xfield t ht rest)]


/-- Reading a header back: a header whose extra field agrees with its type
reads back into any object, unless its field is `NONE` and the object's is
not empty; and bytes whose type byte is not 0, 1 or 2 throw whatever the
object held. -/
theorem CBlockHeader.Unserialize_serialize_contract (prev h : CBlockHeader)
    (hagree : GetXFieldTypeFrom h.xfield.xfieldValue = h.xfield.xfieldType)
    (hfeatures : -2 ^ 31 ≤ h.nFeatures ∧ h.nFeatures < 2 ^ 31) (hproof : h.proof.length ≤ MAX_SIZE)
    (hkey : ∀ data, h.xfield.xfieldValue = .aggPubKey data → data.length ≤ MAX_SIZE)
    (head : List UInt8) (hhead : head.length = 104) (t : UInt8) (ht : 3 ≤ t.toNat) (rest : List UInt8) :
    StateT.run (CBlockHeader.Unserialize prev) (h.serialize ++ rest) =
      (if h.xfield.xfieldType = .NONE ∧ prev.xfield.xfieldValue ≠ .empty then
        .error (.badXField ⟨.NONE, prev.xfield.xfieldValue⟩)
      else .ok (h, rest)) ∧
    StateT.run (CBlockHeader.Unserialize prev) (head ++ t :: rest) =
      .error (.badXField ⟨⟨t⟩, prev.xfield.xfieldValue⟩) :=
  ⟨CBlockHeader.Unserialize_serialize prev h hagree hfeatures hproof hkey rest,
    CBlockHeader.Unserialize_unknown_xfield prev head hhead t ht rest⟩

/-- A header without an extra field, and one with an aggregate key. -/
def plainHeader : CBlockHeader :=
  ⟨1, Blob.zero 32, Blob.zero 32, Blob.zero 32, 0, ⟨.NONE, .empty⟩, []⟩

def keyHeader : CBlockHeader :=
  { plainHeader with xfield := ⟨.AGGPUBKEY, .aggPubKey (0x02 :: List.replicate 32 0)⟩ }

theorem CBlockHeader.Unserialize_serialize_contract_keyHeader :
    (GetXFieldTypeFrom plainHeader.xfield.xfieldValue = plainHeader.xfield.xfieldType ∧
      (-2 ^ 31 ≤ plainHeader.nFeatures ∧ plainHeader.nFeatures < 2 ^ 31) ∧
      plainHeader.proof.length ≤ MAX_SIZE ∧ 3 ≤ (3 : UInt8).toNat) ∧
    (StateT.run (CBlockHeader.Unserialize keyHeader) (plainHeader.serialize ++ []) =
      (if plainHeader.xfield.xfieldType = .NONE ∧ keyHeader.xfield.xfieldValue ≠ .empty then
        .error (.badXField ⟨.NONE, keyHeader.xfield.xfieldValue⟩)
      else .ok (plainHeader, [])) ∧
    StateT.run (CBlockHeader.Unserialize keyHeader) (List.replicate 104 0 ++ (3 : UInt8) :: []) =
      .error (.badXField ⟨⟨3⟩, keyHeader.xfield.xfieldValue⟩)) :=
  ⟨⟨by decide, by decide, by decide, by decide⟩,
    CBlockHeader.Unserialize_serialize_contract keyHeader plainHeader (by decide) (by decide) (by decide)
      (fun data h => by cases h) (List.replicate 104 0) (by simp) 3 (by decide) []⟩

/-- The header without an extra field, written out and read into an object
that holds a key, does not read back: the key stays and the check throws. -/
theorem CBlockHeader.Unserialize_keeps_prior_key :
    GetXFieldTypeFrom plainHeader.xfield.xfieldValue = plainHeader.xfield.xfieldType ∧
    StateT.run (CBlockHeader.Unserialize keyHeader) plainHeader.serialize =
      .error (.badXField ⟨.NONE, keyHeader.xfield.xfieldValue⟩) := by
  refine ⟨by decide, ?_⟩
  have h := CBlockHeader.Unserialize_serialize keyHeader plainHeader (by decide) (by decide) (by decide)
    (fun data h => by cases h) []
  rw [List.append_nil, if_pos ⟨rfl, by decide⟩] at h
  exact h

end Tapyrus
