import Tapyrus.Script.Script
/-!
# Colored scripts

The pattern matchers of `script/script.cpp` that recognise colored scripts,
and `GetColorIdFromScript` (`coloridentifier.cpp`), the color a script
carries as the UTXO checks, the mempool and the statistics read it: the two
fixed templates first (CP2PKH, 60 bytes, and CP2SH, 58 bytes), then a search
for a 33-byte push `0x21 <type> <payload>` right before the first `OP_COLOR`.
-/

namespace Tapyrus

open Lib

/-- The byte is one of the three token types. -/
def IsTokenTypeByte (b : UInt8) : Bool :=
  b == TokenToUint .REISSUABLE || b == TokenToUint .NON_REISSUABLE || b == TokenToUint .NFT

/-- `IsColoredPayToScriptHash`: `<0x21 cid> OP_COLOR OP_HASH160 <20> OP_EQUAL`. -/
def CScript.IsColoredPayToScriptHash (s : CScript) : Bool :=
  s.length == 58 && s[0]? == some 0x21 && s[34]? == some OP_COLOR && s[35]? == some OP_HASH160 &&
    s[36]? == some 0x14 && s[57]? == some OP_EQUAL && IsTokenTypeByte (s.getD 1 0)

/-- `MatchColoredPayToPubkeyHash`: the CP2PKH template; its pubkey hash and
color identifier bytes. -/
def MatchColoredPayToPubkeyHash (s : CScript) : Option (List UInt8 × List UInt8) :=
  if s.length == 60 && s[0]? == some 0x21 && s[34]? == some OP_COLOR && s[35]? == some OP_DUP &&
      s[36]? == some OP_HASH160 && s[37]? == some 20 && s[58]? == some OP_EQUALVERIFY &&
      s[59]? == some OP_CHECKSIG && IsTokenTypeByte (s.getD 1 0) then
    some ((s.drop 38).take 20, (s.drop 1).take 33)
  else none

/-- The position just after the first `OP_COLOR` a `GetOp` walk meets. -/
def opColorEnd (s : CScript) : Option Nat :=
  ((ScriptOps s).1.find? (fun o => o.opcode == OP_COLOR)).map (fun o => s.length - o.rest.length)

/-- `MatchCustomColoredScript`: the first `0x21` byte of the script must sit
exactly 34 bytes before the first `OP_COLOR`, and `OP_COLOR` must not be the
script's last byte; the 33 bytes after that `0x21` are the color. -/
def MatchCustomColoredScript (s : CScript) : Option (List UInt8) :=
  match opColorEnd s with
  | none => none
  | some iterOpColor =>
    let iterColorId1 := s.idxOf 0x21
    if iterOpColor = s.length then none
    else if iterColorId1 < s.length && (iterOpColor : Int) - 1 - (iterColorId1 + 1) = COLOR_IDENTIFIER_SIZE &&
        IsTokenTypeByte (s.getD (iterColorId1 + 1) 0) then
      some ((s.drop (iterColorId1 + 1)).take 33)
    else none

/-- `ColorIdentifier(colorId)` on the bytes a matcher returned: always 33
bytes starting with a token type, so the constructor never throws there. -/
def colorIdOfBytes (v : List UInt8) : ColorIdentifier :=
  match ColorIdentifier.ofVector v with
  | .ok c => c
  | .error _ => ColorIdentifier.none

/-- `GetColorIdFromScript`. -/
def GetColorIdFromScript (script : CScript) : ColorIdentifier :=
  if !script.IsColoredScript then ColorIdentifier.none
  else match MatchColoredPayToPubkeyHash script with
    | some (_, colorId) => colorIdOfBytes colorId
    | none =>
      if script.IsColoredPayToScriptHash then colorIdOfBytes ((script.drop 1).take 33)
      else match MatchCustomColoredScript script with
        | some colorId => colorIdOfBytes colorId
        | none => ColorIdentifier.none

/-- The constructor on a matcher's bytes yields the TPC color or a token. -/
theorem colorIdOfBytes_cases (v : List UInt8) :
    colorIdOfBytes v = ColorIdentifier.none ∨ (colorIdOfBytes v).type.IsToken := by
  unfold colorIdOfBytes
  split
  · rename_i c hc
    exact ColorIdentifier.ofVector_eq_ok hc
  · exact Or.inl rfl

/-- A script carries the TPC color or a token color: never a `NONE` type
with another payload. -/
theorem GetColorIdFromScript_cases (script : CScript) :
    GetColorIdFromScript script = ColorIdentifier.none ∨ (GetColorIdFromScript script).type.IsToken := by
  unfold GetColorIdFromScript
  split
  · exact Or.inl rfl
  split
  · exact colorIdOfBytes_cases _
  split
  · exact colorIdOfBytes_cases _
  split
  · exact colorIdOfBytes_cases _
  · exact Or.inl rfl

/-- So the two tests the code uses for TPC, `cid.type == TokenTypes::NONE`
and `cid == ColorIdentifier()`, agree on every script. -/
theorem GetColorIdFromScript_type_eq_NONE (script : CScript) :
    (GetColorIdFromScript script).type = .NONE ↔ GetColorIdFromScript script = ColorIdentifier.none := by
  constructor
  · intro h
    rcases GetColorIdFromScript_cases script with h' | h'
    · exact h'
    · simp [TokenTypes.IsToken, h] at h'
  · intro h
    rw [h]
    rfl

/-! ## Script templates -/

/-- `CTxDestination`: the variant of `CNoDestination`, `CKeyID`, `CScriptID`,
`CColorKeyID` and `CColorScriptID`. -/
inductive CTxDestination where
  | noDestination
  | keyID (id : uint160)
  | scriptID (id : uint160)
  | colorKeyID (id : uint160) (color : ColorIdentifier)
  | colorScriptID (id : uint160) (color : ColorIdentifier)
  deriving DecidableEq, Repr

/-- `GetScriptForDestination`: the script `CScriptVisitor` writes for each
destination. -/
def GetScriptForDestination : CTxDestination → CScript
  | .noDestination => []
  | .keyID id => [OP_DUP, OP_HASH160] ++ pushData id.bytes ++ [OP_EQUALVERIFY, OP_CHECKSIG]
  | .scriptID id => [OP_HASH160] ++ pushData id.bytes ++ [OP_EQUAL]
  | .colorKeyID id color =>
    pushData color.toVector ++ [OP_COLOR, OP_DUP, OP_HASH160] ++ pushData id.bytes ++ [OP_EQUALVERIFY, OP_CHECKSIG]
  | .colorScriptID id color => pushData color.toVector ++ [OP_COLOR, OP_HASH160] ++ pushData id.bytes ++ [OP_EQUAL]

theorem pushData_uint160 (id : uint160) : pushData id.bytes = 0x14 :: id.bytes := by
  rw [pushData_of_lt (by rw [id.length_eq]; decide), id.length_eq]
  rfl

theorem pushData_toVector {cid : ColorIdentifier} (hcid : cid.type.IsToken) :
    pushData cid.toVector = 0x21 :: cid.serialize := by
  have hlen := ColorIdentifier.serialize_length hcid
  rw [ColorIdentifier.toVector, pushData_of_lt (by rw [hlen]; decide), hlen]
  rfl

/-! The single-address templates byte by byte: the 20-byte hash pushed with
its length `0x14`, and a token color pushed as its 33-byte serialization. -/

theorem GetScriptForDestination_keyID (id : uint160) :
    GetScriptForDestination (.keyID id) = OP_DUP :: OP_HASH160 :: 0x14 :: (id.bytes ++ [OP_EQUALVERIFY, OP_CHECKSIG]) := by
  simp [GetScriptForDestination, pushData_uint160]

theorem GetScriptForDestination_scriptID (id : uint160) :
    GetScriptForDestination (.scriptID id) = OP_HASH160 :: 0x14 :: (id.bytes ++ [OP_EQUAL]) := by
  simp [GetScriptForDestination, pushData_uint160]

theorem GetScriptForDestination_colorKeyID {cid : ColorIdentifier} (hcid : cid.type.IsToken) (id : uint160) :
    GetScriptForDestination (.colorKeyID id cid) =
      0x21 :: (cid.serialize ++ OP_COLOR :: OP_DUP :: OP_HASH160 :: 0x14 :: (id.bytes ++ [OP_EQUALVERIFY, OP_CHECKSIG])) := by
  simp [GetScriptForDestination, pushData_toVector hcid, pushData_uint160]

theorem GetScriptForDestination_colorScriptID {cid : ColorIdentifier} (hcid : cid.type.IsToken) (id : uint160) :
    GetScriptForDestination (.colorScriptID id cid) =
      0x21 :: (cid.serialize ++ OP_COLOR :: OP_HASH160 :: 0x14 :: (id.bytes ++ [OP_EQUAL])) := by
  simp [GetScriptForDestination, pushData_toVector hcid, pushData_uint160]

end Tapyrus
