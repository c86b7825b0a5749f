import Tapyrus.Serialize
import Tapyrus.Lib.CmpMap
/-!
# Color identifiers

`coloridentifier.h`: the token types, the 33-byte color identifier (one type
byte and a 32-byte payload on the wire), how it is built from an issuing
input, its stream format, and the two comparisons the code uses on it:
`operator==` on the fields and `operator<` / `ColorIdentifierCompare`, which
`memcmp` the first `COLOR_IDENTIFIER_SIZE` bytes of the object.

The object's memory is part of the model: `TokenTypes` is a scoped enum, so
its underlying type is `int` and the object is four little-endian type bytes
followed by the payload (`objectBytes`).
-/

namespace Tapyrus

open Lib

/-- `TokenTypes`. -/
inductive TokenTypes where
  | NONE
  | REISSUABLE
  | NON_REISSUABLE
  | NFT
  deriving DecidableEq, Repr

/-- `TokenToUint`: the enum's value. -/
def TokenToUint : TokenTypes → UInt8
  | .NONE => 0x00
  | .REISSUABLE => 0xc1
  | .NON_REISSUABLE => 0xc2
  | .NFT => 0xc3

/-- `UintToToken`: unknown bytes become `NONE`. -/
def UintToToken (t : UInt8) : TokenTypes :=
  if t = 0xc1 then .REISSUABLE
  else if t = 0xc2 then .NON_REISSUABLE
  else if t = 0xc3 then .NFT
  else .NONE

theorem TokenToUint_injective : Function.Injective TokenToUint := by
  intro a b h
  cases a <;> cases b <;> first | rfl | exact absurd h (by decide)

@[simp] theorem UintToToken_TokenToUint (t : TokenTypes) : UintToToken (TokenToUint t) = t := by
  cases t <;> decide

/-- `type >= REISSUABLE && type <= TOKENTYPE_MAX`: the types that carry a payload. -/
def TokenTypes.IsToken (t : TokenTypes) : Bool := t != .NONE

def COLOR_IDENTIFIER_SIZE : Nat := 33

/-- `ColorIdentifier`. -/
structure ColorIdentifier where
  type : TokenTypes
  payload : uint256
  deriving DecidableEq, Repr

namespace ColorIdentifier

/-- `ColorIdentifier()`: the TPC color. -/
def none : ColorIdentifier := ⟨.NONE, Blob.zero 32⟩

instance : Inhabited ColorIdentifier := ⟨none⟩

/-- `operator==`: the same type and the same 32 payload bytes. -/
def beq (a b : ColorIdentifier) : Bool :=
  a.type == b.type && memcmp a.payload.bytes b.payload.bytes (COLOR_IDENTIFIER_SIZE - 1) == .eq

theorem beq_eq_true_iff {a b : ColorIdentifier} : a.beq b = true ↔ a = b := by
  obtain ⟨ta, pa⟩ := a
  obtain ⟨tb, pb⟩ := b
  have hm : memcmp pa.bytes pb.bytes 32 = .eq ↔ pa = pb := by
    rw [memcmp_eq_iff (by rw [pa.length_eq]) (by rw [pb.length_eq]),
      List.take_of_length_le (by rw [pa.length_eq]), List.take_of_length_le (by rw [pb.length_eq])]
    exact ⟨Blob.ext', fun h => h ▸ rfl⟩
  have hsz : COLOR_IDENTIFIER_SIZE - 1 = 32 := rfl
  simp only [beq, hsz, Bool.and_eq_true, beq_iff_eq, hm, mk.injEq]

/-- The object's memory: the `int`-sized enum, little-endian, then the payload. -/
def objectBytes (c : ColorIdentifier) : List UInt8 := toLE 4 (TokenToUint c.type).toNat ++ c.payload.bytes

/-- `operator<`: `memcmp(this, &colorId, COLOR_IDENTIFIER_SIZE) < 0`. -/
def lt (a b : ColorIdentifier) : Bool := memcmp a.objectBytes b.objectBytes COLOR_IDENTIFIER_SIZE == .lt

/-! ## Stream format -/

/-- `Serialize`: the type byte, then the payload for a token type. -/
def serialize (c : ColorIdentifier) : List UInt8 :=
  [TokenToUint c.type] ++ if c.type.IsToken then c.payload.bytes else []

/-- `Unserialize` into an existing object: the type is read first and
stored; the payload is read only for a token type, so a `NONE` type keeps the
payload the object had. -/
def unserializeInto (prev : ColorIdentifier) : SerReader ColorIdentifier := do
  let xtype ← readBytes END_OF_DATA 1
  let type := UintToToken (xtype.headD 0)
  if type.IsToken then
    let p ← readBytes END_OF_DATA 32
    if h : p.length = 32 then pure ⟨type, ⟨p, h⟩⟩ else pure ⟨type, prev.payload⟩
  else pure { prev with type := type }

/-- `ColorIdentifier(const std::vector<unsigned char>&)`: the deserializing
constructor (its payload starts zeroed in the model), with the stream's
exception if the bytes run out. -/
def ofVector (v : List UInt8) : Except SerError ColorIdentifier :=
  (StateT.run (unserializeInto none) v).map Prod.fst

/-- `toVector`. -/
def toVector (c : ColorIdentifier) : List UInt8 := c.serialize

theorem serialize_of_IsToken {c : ColorIdentifier} (hc : c.type.IsToken) :
    c.serialize = TokenToUint c.type :: c.payload.bytes := by
  simp [serialize, hc]

theorem serialize_length {c : ColorIdentifier} (hc : c.type.IsToken) : c.serialize.length = COLOR_IDENTIFIER_SIZE := by
  rw [serialize_of_IsToken hc, List.length_cons, c.payload.length_eq]
  rfl

/-- A token color reads back from its serialization, whatever the object held. -/
theorem unserializeInto_serialize (prev : ColorIdentifier) {c : ColorIdentifier} (hc : c.type.IsToken)
    (rest : List UInt8) : StateT.run (unserializeInto prev) (c.serialize ++ rest) = .ok (c, rest) := by
  have htype : StateT.run (readBytes END_OF_DATA 1) (c.serialize ++ rest) =
      .ok ([TokenToUint c.type], c.payload.bytes ++ rest) := by
    rw [serialize_of_IsToken hc]
    exact readBytes_append END_OF_DATA [TokenToUint c.type] (c.payload.bytes ++ rest)
  have hpay : StateT.run (readBytes END_OF_DATA 32) (c.payload.bytes ++ rest) = .ok (c.payload.bytes, rest) := by
    have := readBytes_append END_OF_DATA c.payload.bytes rest
    rwa [c.payload.length_eq] at this
  rw [unserializeInto, Reader.run_bind, htype]
  simp only [List.headD_cons, UintToToken_TokenToUint, hc, if_true]
  rw [Reader.run_bind, hpay]
  simp [c.payload.length_eq]
  rfl

theorem ofVector_serialize {c : ColorIdentifier} (hc : c.type.IsToken) : ofVector c.serialize = .ok c := by
  have := unserializeInto_serialize none hc []
  rw [List.append_nil] at this
  simp [ofVector, this, Except.map]

/-- The constructor yields the TPC color or a token color: an unknown type
byte reads as `NONE` and keeps the zero payload it started with. -/
theorem ofVector_eq_ok {v : List UInt8} {c : ColorIdentifier} (h : ofVector v = .ok c) :
    c = none ∨ c.type.IsToken := by
  obtain ⟨⟨c', s⟩, hrun, hc⟩ : ∃ r, StateT.run (unserializeInto none) v = .ok r ∧ r.1 = c := by
    unfold ofVector at h
    cases hr : StateT.run (unserializeInto none) v with
    | error e => rw [hr] at h; cases h
    | ok r => rw [hr] at h; exact ⟨r, rfl, by cases h; rfl⟩
  subst hc
  obtain ⟨xtype, s₁, -, hrest⟩ := Reader.run_bind_eq_ok.1 hrun
  by_cases ht : (UintToToken (xtype.headD 0)).IsToken
  · -- a token type: the result carries it, whichever payload was read
    simp only [ht, if_true] at hrest
    obtain ⟨p, s₂, -, hpay⟩ := Reader.run_bind_eq_ok.1 hrest
    right
    split at hpay <;> (cases hpay; exact ht)
  · -- not a token: the type is `NONE` and the payload the zero one
    simp only [ht] at hrest
    cases hrest
    left
    have hnone : UintToToken (xtype.headD 0) = .NONE := by
      simpa [TokenTypes.IsToken] using ht
    rw [hnone]
    rfl

end ColorIdentifier

/-- `TxColoredCoinBalancesMap`'s comparator, `ColorIdentifierCompare`: the
same `memcmp` as `operator<`. -/
def ColorIdentifierCompare (c1 c2 : ColorIdentifier) : Bool :=
  memcmp c1.objectBytes c2.objectBytes COLOR_IDENTIFIER_SIZE == .lt

/-- `TxColoredCoinBalancesMap`: an amount per color, ordered by
`ColorIdentifierCompare`. -/
abbrev TxColoredCoinBalancesMap := List (ColorIdentifier × Int)

/-- The first `COLOR_IDENTIFIER_SIZE` bytes of the object: the four type
bytes and only 29 of the 32 payload bytes. -/
theorem objectBytes_take (c : ColorIdentifier) :
    c.objectBytes.take COLOR_IDENTIFIER_SIZE = toLE 4 (TokenToUint c.type).toNat ++ c.payload.bytes.take 29 := by
  simp [ColorIdentifier.objectBytes, COLOR_IDENTIFIER_SIZE, List.take_append]

theorem toLE_type_inj {a b : TokenTypes} (h : toLE 4 (TokenToUint a).toNat = toLE 4 (TokenToUint b).toNat) :
    a = b := by
  have hlt : ∀ t : TokenTypes, (TokenToUint t).toNat < 256 ^ 4 := fun t => by
    have := (TokenToUint t).toNat_lt; omega
  have := congrArg ofLE h
  rw [ofLE_toLE_of_lt (hlt a), ofLE_toLE_of_lt (hlt b)] at this
  exact TokenToUint_injective (UInt8.toNat_inj.1 this)

/-- What the map's comparator treats as one color: the same type and the same
first 29 payload bytes. `operator<` is the same `memcmp`, so it agrees. -/
theorem ColorIdentifierCompare_equiv_iff (a b : ColorIdentifier) :
    CmpMap.Equiv ColorIdentifierCompare a b = true ↔
      a.type = b.type ∧ a.payload.bytes.take 29 = b.payload.bytes.take 29 := by
  have hlen : ∀ c : ColorIdentifier, COLOR_IDENTIFIER_SIZE ≤ c.objectBytes.length := fun c => by
    simp [ColorIdentifier.objectBytes, c.payload.length_eq, COLOR_IDENTIFIER_SIZE]
  have hc : ColorIdentifierCompare = fun x y => memcmp x.objectBytes y.objectBytes COLOR_IDENTIFIER_SIZE == .lt :=
    rfl
  rw [hc, CmpMap.equiv_memcmp_iff ColorIdentifier.objectBytes, memcmp_eq_iff (hlen a) (hlen b),
    objectBytes_take, objectBytes_take]
  constructor
  · intro h
    obtain ⟨ht, hp⟩ := List.append_inj h (by simp)
    exact ⟨toLE_type_inj ht, hp⟩
  · rintro ⟨ht, hp⟩
    rw [ht, hp]

theorem lt_eq_ColorIdentifierCompare : ColorIdentifier.lt = ColorIdentifierCompare := rfl

/-- Two colors of one type whose payloads differ only in the last byte are
one key of a `TxColoredCoinBalancesMap` and of `operator<`, though
`operator==` tells them apart: emplacing both leaves one entry. -/
theorem ColorIdentifierCompare_merges_colors :
    let a : ColorIdentifier := ⟨.REISSUABLE, Blob.zero 32⟩
    let b : ColorIdentifier := ⟨.REISSUABLE, ⟨List.replicate 31 0 ++ [1], rfl⟩⟩
    CmpMap.Equiv ColorIdentifierCompare a b = true ∧ CmpMap.Equiv ColorIdentifier.lt a b = true ∧
      a.beq b = false ∧
      (CmpMap.emplace ColorIdentifierCompare (CmpMap.emplace ColorIdentifierCompare [] a 1) b 1).length = 1 := by
  decide

/-! ## Issuing a color -/

section Issue

variable (sha256 : List UInt8 → uint256)

/-- The stream format of an outpoint: the 32 hash bytes and `n` as four bytes. -/
def COutPoint.serialize (o : COutPoint) : List UInt8 := o.hashMalFix.bytes ++ ser_writedata32 o.n.toNat

/-- `ColorIdentifier(COutPoint&, TokenTypes)`: the hash of the serialized
outpoint, for NON_REISSUABLE and NFT issues. -/
def ColorIdentifier.ofOutPoint (utxoIn : COutPoint) (typeIn : TokenTypes) : ColorIdentifier :=
  ⟨typeIn, sha256 utxoIn.serialize⟩

/-- `ColorIdentifier(const CScript&)`: a REISSUABLE color, the hash of the
issuer's script. -/
def ColorIdentifier.ofScript (input : CScript) : ColorIdentifier := ⟨.REISSUABLE, sha256 input⟩

end Issue

end Tapyrus
