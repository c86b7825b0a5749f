import Tapyrus.Base58
import Tapyrus.Destination
import Tapyrus.Script.ColorSpend
/-!
# Addresses

`key_io.cpp`: `EncodeDestination` and `DecodeDestination`, the Base58Check
addresses of the four single-address destinations under a chain's
`base58Prefixes`: the prefix, then for a colored destination the color's
33-byte serialization, then the 20-byte hash.

`DecodeDestination` tries the four layouts by payload size and prefix, in
that order. Both colored branches read the color at the offset of the
`C_PUBKEY_ADDRESS` prefix's size; the chains' prefixes are all one byte, so
the colored script branch reads it where its own prefix ends.

An address decodes to its destination on both chains, and a string of the
Base58 alphabet that decodes to a destination is that destination's address.
A string that is not of the alphabet can decode too: `DecodeBase58` skips
spaces around the digits, so the address with a leading space decodes to the
same destination and does not re-encode to itself.
-/

namespace Tapyrus

open Lib

/-- The address kinds of `CChainParams::Base58Type`. -/
inductive Base58Type where
  | PUBKEY_ADDRESS
  | SCRIPT_ADDRESS
  | C_PUBKEY_ADDRESS
  | C_SCRIPT_ADDRESS
  deriving DecidableEq, Repr

/-- `CChainParams`, with the address prefixes. -/
structure CChainParams where
  base58Prefixes : Base58Type → List UInt8

/-- `CChainParams::Base58Prefix`. -/
def CChainParams.Base58Prefix (params : CChainParams) (type : Base58Type) : List UInt8 :=
  params.base58Prefixes type

/-- `CProductionChainParams`. -/
def CProductionChainParams : CChainParams where
  base58Prefixes
    | .PUBKEY_ADDRESS => [0]
    | .SCRIPT_ADDRESS => [5]
    | .C_PUBKEY_ADDRESS => [1]
    | .C_SCRIPT_ADDRESS => [6]

/-- `CDevelopmentChainParams`. -/
def CDevelopmentChainParams : CChainParams where
  base58Prefixes
    | .PUBKEY_ADDRESS => [111]
    | .SCRIPT_ADDRESS => [196]
    | .C_PUBKEY_ADDRESS => [112]
    | .C_SCRIPT_ADDRESS => [197]

/-- `DestinationEncoder`: `none` when the encoder's `assert` fails. -/
def EncodeDestination (C : Crypto) (params : CChainParams) : CTxDestination → Option (List UInt8)
  | .noDestination => some []
  | .keyID id => EncodeBase58Check C (params.Base58Prefix .PUBKEY_ADDRESS ++ id.bytes)
  | .scriptID id => EncodeBase58Check C (params.Base58Prefix .SCRIPT_ADDRESS ++ id.bytes)
  | .colorKeyID id color => EncodeBase58Check C (params.Base58Prefix .C_PUBKEY_ADDRESS ++ color.toVector ++ id.bytes)
  | .colorScriptID id color =>
    EncodeBase58Check C (params.Base58Prefix .C_SCRIPT_ADDRESS ++ color.toVector ++ id.bytes)

/-- The branches of `DecodeDestination` on the checked payload `data`. The
color is built by the range constructor on exactly 33 bytes, which reads the
type byte and, for a token type, the payload (`colorIdOfBytes`). -/
def DecodeDestinationData (params : CChainParams) (data : List UInt8) : CTxDestination :=
  let pubkey_prefix_bytes := params.Base58Prefix .PUBKEY_ADDRESS
  let script_prefix_bytes := params.Base58Prefix .SCRIPT_ADDRESS
  let c_pubkey_prefix_bytes := params.Base58Prefix .C_PUBKEY_ADDRESS
  let c_script_prefix_bytes := params.Base58Prefix .C_SCRIPT_ADDRESS
  if data.length = 20 + pubkey_prefix_bytes.length ∧ pubkey_prefix_bytes.isPrefixOf data then
    .keyID (uint160OfVector (data.drop pubkey_prefix_bytes.length))
  else if data.length = 20 + script_prefix_bytes.length ∧ script_prefix_bytes.isPrefixOf data then
    .scriptID (uint160OfVector (data.drop script_prefix_bytes.length))
  else
    -- both colored branches read the color after `c_pubkey_prefix_bytes`
    let cid := colorIdOfBytes ((data.drop c_pubkey_prefix_bytes.length).take COLOR_IDENTIFIER_SIZE)
    if data.length = 20 + c_pubkey_prefix_bytes.length + COLOR_IDENTIFIER_SIZE ∧ c_pubkey_prefix_bytes.isPrefixOf data ∧
        cid.type ≠ .NONE then
      .colorKeyID (uint160OfVector (data.drop (c_pubkey_prefix_bytes.length + COLOR_IDENTIFIER_SIZE))) cid
    else if data.length = 20 + c_script_prefix_bytes.length + COLOR_IDENTIFIER_SIZE ∧ c_script_prefix_bytes.isPrefixOf data ∧
        cid.type ≠ .NONE then
      .colorScriptID (uint160OfVector (data.drop (c_script_prefix_bytes.length + COLOR_IDENTIFIER_SIZE))) cid
    else .noDestination

/-- `DecodeDestination(str, params)` on `str.c_str()`: `none` only when an
`assert` of the decoder fails. -/
def DecodeDestination (C : Crypto) (str : List UInt8) (params : CChainParams) : Option CTxDestination :=
  match DecodeBase58Check C (str.takeWhile (· != 0)) with
  | none => none
  | some none => some .noDestination
  | some (some data) => some (DecodeDestinationData params data)

/-! ## The chains' prefixes -/

/-- What `DecodeDestination` relies on in a chain's address prefixes: one
byte each, the key and script prefixes apart, the colored ones apart. -/
structure CChainParams.SingleBytePrefixes (params : CChainParams) : Prop where
  pubkey : ∃ a, params.Base58Prefix .PUBKEY_ADDRESS = [a]
  script : ∃ a, params.Base58Prefix .SCRIPT_ADDRESS = [a]
  c_pubkey : ∃ a, params.Base58Prefix .C_PUBKEY_ADDRESS = [a]
  c_script : ∃ a, params.Base58Prefix .C_SCRIPT_ADDRESS = [a]
  key_ne_script : params.Base58Prefix .PUBKEY_ADDRESS ≠ params.Base58Prefix .SCRIPT_ADDRESS
  colorKey_ne_colorScript : params.Base58Prefix .C_PUBKEY_ADDRESS ≠ params.Base58Prefix .C_SCRIPT_ADDRESS

theorem CProductionChainParams_prefixes : CProductionChainParams.SingleBytePrefixes :=
  ⟨⟨0, rfl⟩, ⟨5, rfl⟩, ⟨1, rfl⟩, ⟨6, rfl⟩, by decide, by decide⟩

theorem CDevelopmentChainParams_prefixes : CDevelopmentChainParams.SingleBytePrefixes :=
  ⟨⟨111, rfl⟩, ⟨196, rfl⟩, ⟨112, rfl⟩, ⟨197, rfl⟩, by decide, by decide⟩

theorem isPrefixOf_singleton {a : UInt8} {data : List UInt8} (h : [a].isPrefixOf data = true) :
    ∃ rest, data = a :: rest := by
  cases data with
  | nil => simp [List.isPrefixOf] at h
  | cons x rest => exact ⟨rest, by simp_all [List.isPrefixOf]⟩

/-! ## The color of an address -/

theorem UintToToken_of_not_token : ∀ b : UInt8, IsTokenTypeByte b = false → UintToToken b = .NONE := by
  decide +kernel

/-- Bytes that do not start with a token type read as the TPC color. -/
theorem colorIdOfBytes_cons_of_not_token {b : UInt8} (p : List UInt8) (hb : IsTokenTypeByte b = false) :
    colorIdOfBytes (b :: p) = ColorIdentifier.none := by
  have hnone := UintToToken_of_not_token b hb
  have hread : StateT.run (readBytes END_OF_DATA 1) (b :: p) = .ok ([b], p) := readBytes_append END_OF_DATA [b] p
  have hrun : StateT.run (ColorIdentifier.unserializeInto ColorIdentifier.none) (b :: p) =
      .ok (ColorIdentifier.none, p) := by
    rw [ColorIdentifier.unserializeInto, Reader.run_bind, hread]
    simp [hnone, TokenTypes.IsToken]
    rfl
  simp [colorIdOfBytes, ColorIdentifier.ofVector, hrun, Except.map]

/-- The 33 color bytes of a decoded address whose color is not `NONE` are that
color's serialization. -/
theorem toVector_colorIdOfBytes {v : List UInt8} (hlen : v.length = 33) (hne : (colorIdOfBytes v).type ≠ .NONE) :
    (colorIdOfBytes v).toVector = v := by
  by_cases htype : IsTokenTypeByte (v.headD 0)
  · exact (colorIdOfBytes_toVector hlen htype).2
  · obtain ⟨b, p, rfl⟩ : ∃ b p, v = b :: p := List.exists_cons_of_length_eq_add_one hlen
    rw [colorIdOfBytes_cons_of_not_token p (by simpa using htype)] at hne
    exact absurd rfl hne

/-! ## Decoding an address -/

section Decode

variable {params : CChainParams} (hp : params.SingleBytePrefixes)
include hp

theorem DecodeDestinationData_keyID (id : uint160) :
    DecodeDestinationData params (params.Base58Prefix .PUBKEY_ADDRESS ++ id.bytes) = .keyID id := by
  obtain ⟨a, ha⟩ := hp.pubkey
  simp [DecodeDestinationData, ha, id.length_eq, List.isPrefixOf]

theorem DecodeDestinationData_scriptID (id : uint160) :
    DecodeDestinationData params (params.Base58Prefix .SCRIPT_ADDRESS ++ id.bytes) = .scriptID id := by
  obtain ⟨a, ha⟩ := hp.pubkey
  obtain ⟨b, hb⟩ := hp.script
  have hab : a ≠ b := fun h => hp.key_ne_script (by rw [ha, hb, h])
  simp [DecodeDestinationData, ha, hb, id.length_eq, List.isPrefixOf]
  exact hab

theorem DecodeDestinationData_colorKeyID (id : uint160) {color : ColorIdentifier} (hc : color.type.IsToken) :
    DecodeDestinationData params (params.Base58Prefix .C_PUBKEY_ADDRESS ++ color.toVector ++ id.bytes) =
      .colorKeyID id color := by
  obtain ⟨a, ha⟩ := hp.pubkey
  obtain ⟨b, hb⟩ := hp.script
  obtain ⟨c, hc'⟩ := hp.c_pubkey
  have hlen : color.toVector.length = 33 := ColorIdentifier.serialize_length hc
  simp [DecodeDestinationData, ha, hb, hc', id.length_eq, hlen, List.isPrefixOf, COLOR_IDENTIFIER_SIZE,
    colorIdOfBytes_of_IsToken hc, IsToken_ne_NONE hc]

theorem DecodeDestinationData_colorScriptID (id : uint160) {color : ColorIdentifier} (hc : color.type.IsToken) :
    DecodeDestinationData params (params.Base58Prefix .C_SCRIPT_ADDRESS ++ color.toVector ++ id.bytes) =
      .colorScriptID id color := by
  obtain ⟨a, ha⟩ := hp.pubkey
  obtain ⟨b, hb⟩ := hp.script
  obtain ⟨c, hc'⟩ := hp.c_pubkey
  obtain ⟨e, he⟩ := hp.c_script
  have hce : c ≠ e := fun h => hp.colorKey_ne_colorScript (by rw [hc', he, h])
  have hlen : color.toVector.length = 33 := ColorIdentifier.serialize_length hc
  simp [DecodeDestinationData, ha, hb, hc', he, id.length_eq, hlen, List.isPrefixOf, COLOR_IDENTIFIER_SIZE,
    colorIdOfBytes_of_IsToken hc, IsToken_ne_NONE hc]
  exact hce

end Decode

/-! ## Encoding a decoded payload -/

theorem takeWhile_ne_zero {str : List UInt8} (hs : ∀ c ∈ str, c ∈ pszBase58) : str.takeWhile (· != 0) = str := by
  rw [List.takeWhile_eq_self_iff]
  intro c hc
  have hc0 : c ≠ 0 := fun h => zero_not_mem_pszBase58 (h ▸ hs c hc)
  simpa using hc0

section Encode

variable {params : CChainParams} (hp : params.SingleBytePrefixes)
include hp

/-- A payload that decodes to a destination is the one that destination's
encoder builds. -/
theorem EncodeDestination_DecodeDestinationData (C : Crypto) {data : List UInt8}
    (hd : DecodeDestinationData params data ≠ .noDestination) :
    EncodeDestination C params (DecodeDestinationData params data) = EncodeBase58Check C data := by
  obtain ⟨a, ha⟩ := hp.pubkey
  obtain ⟨b, hb⟩ := hp.script
  obtain ⟨c, hc⟩ := hp.c_pubkey
  obtain ⟨e, he⟩ := hp.c_script
  simp only [DecodeDestinationData, ha, hb, hc, he, List.length_singleton, COLOR_IDENTIFIER_SIZE] at hd ⊢
  split_ifs at hd ⊢ with h1 h2 h3 h4
  · -- a key hash: its prefix, then the hash
    obtain ⟨rest, rfl⟩ := isPrefixOf_singleton h1.2
    have hl : rest.length = 20 := by simpa using h1.1
    simp [EncodeDestination, ha, uint160OfVector_of_length hl]
  · obtain ⟨rest, rfl⟩ := isPrefixOf_singleton h2.2
    have hl : rest.length = 20 := by simpa using h2.1
    simp [EncodeDestination, hb, uint160OfVector_of_length hl]
  · -- a colored key hash: its prefix, the color, then the hash
    obtain ⟨rest, rfl⟩ := isPrefixOf_singleton h3.2.1
    have hl : rest.length = 53 := by simpa using h3.1
    have hcid : (colorIdOfBytes (rest.take 33)).toVector = rest.take 33 :=
      toVector_colorIdOfBytes (by simp [hl]) (by simpa using h3.2.2)
    simp [EncodeDestination, hc, hcid, uint160OfVector_of_length (show (rest.drop 33).length = 20 by simp [hl])]
  · -- a colored script hash: the color read after the colored key prefix, which has the same length
    obtain ⟨rest, rfl⟩ := isPrefixOf_singleton h4.2.1
    have hl : rest.length = 53 := by simpa using h4.1
    have hcid : (colorIdOfBytes (rest.take 33)).toVector = rest.take 33 :=
      toVector_colorIdOfBytes (by simp [hl]) (by simpa using h4.2.2)
    simp [EncodeDestination, he, hcid, uint160OfVector_of_length (show (rest.drop 33).length = 20 by simp [hl])]
  · exact absurd rfl hd

/-- An address decodes to its destination. -/
theorem DecodeDestination_EncodeDestination (C : Crypto) {d : CTxDestination} (hd : d.HasTemplate) :
    ∃ s, EncodeDestination C params d = some s ∧ DecodeDestination C s params = some d := by
  -- the payload the encoder builds, which the decoder's branches take apart again
  obtain ⟨data, henc, hdata⟩ : ∃ data, EncodeDestination C params d = EncodeBase58Check C data ∧
      DecodeDestinationData params data = d := by
    cases d with
    | noDestination => cases hd
    | keyID id => exact ⟨_, rfl, DecodeDestinationData_keyID hp id⟩
    | scriptID id => exact ⟨_, rfl, DecodeDestinationData_scriptID hp id⟩
    | colorKeyID id color => exact ⟨_, rfl, DecodeDestinationData_colorKeyID hp id hd⟩
    | colorScriptID id color => exact ⟨_, rfl, DecodeDestinationData_colorScriptID hp id hd⟩
  obtain ⟨s, hs, hdec⟩ := DecodeBase58Check_EncodeBase58Check C data
  refine ⟨s, henc.trans hs, ?_⟩
  rw [DecodeDestination, takeWhile_ne_zero (EncodeBase58_mem hs), hdec]
  exact congrArg some hdata

/-- A string of the alphabet that decodes to a destination is its address. -/
theorem EncodeDestination_DecodeDestination (C : Crypto) {str : List UInt8} (hs : ∀ c ∈ str, c ∈ pszBase58)
    {d : CTxDestination} (hdec : DecodeDestination C str params = some d) (hd : d ≠ .noDestination) :
    EncodeDestination C params d = some str := by
  rw [DecodeDestination, takeWhile_ne_zero hs] at hdec
  split at hdec
  · cases hdec
  · cases hdec
    exact absurd rfl hd
  · rename_i data hcheck
    cases hdec
    -- the string decoded to the payload and its checksum, which encodes back to the string
    obtain ⟨v, hv, henc⟩ := EncodeBase58_DecodeBase58 hs
    rw [DecodeBase58Check_eq_some hcheck, Option.some.injEq, Option.some.injEq] at hv
    rw [EncodeDestination_DecodeDestinationData hp C hd, EncodeBase58Check, hv, henc]

end Encode

/-! ## Spaces around an address -/

/-- A leading space is skipped by the decoder. -/
theorem DecodeDestination_cons_isspace (C : Crypto) (params : CChainParams) {c : UInt8} (hc : isspace c)
    (hc0 : c ≠ 0) (str : List UInt8) : DecodeDestination C (c :: str) params = DecodeDestination C str params := by
  have htw : (c :: str).takeWhile (· != 0) = c :: str.takeWhile (· != 0) :=
    List.takeWhile_cons_of_pos (by simpa using hc0)
  simp only [DecodeDestination, htw, DecodeBase58Check, DecodeBase58_cons_isspace hc]

/-- The two chains' addresses and decoders are inverse: every single-address
destination's address decodes to it, and every string of the Base58 alphabet
that decodes to a destination is that destination's address. -/
theorem EncodeDestination_DecodeDestination_inverse (C : Crypto) :
    ∀ params ∈ [CProductionChainParams, CDevelopmentChainParams],
      (∀ d : CTxDestination, d.HasTemplate →
        ∃ s, EncodeDestination C params d = some s ∧ DecodeDestination C s params = some d) ∧
      (∀ (str : List UInt8) (d : CTxDestination), (∀ c ∈ str, c ∈ pszBase58) →
        DecodeDestination C str params = some d → d ≠ .noDestination → EncodeDestination C params d = some str) := by
  intro params hparams
  have hp : params.SingleBytePrefixes := by
    simp only [List.mem_cons, List.not_mem_nil, or_false] at hparams
    rcases hparams with rfl | rfl
    exacts [CProductionChainParams_prefixes, CDevelopmentChainParams_prefixes]
  exact ⟨fun _ hd => DecodeDestination_EncodeDestination hp C hd,
    fun _ _ hs hdec hd => EncodeDestination_DecodeDestination hp C hs hdec hd⟩

/-- The production chain, under hash functions that return zero. -/
theorem EncodeDestination_DecodeDestination_inverse_production :
    let C : Crypto := ⟨fun _ => Blob.zero 32, fun _ => Blob.zero 20, fun _ => Blob.zero 20, fun _ => true⟩
    CProductionChainParams ∈ [CProductionChainParams, CDevelopmentChainParams] ∧
      ∀ d : CTxDestination, d.HasTemplate →
        ∃ s, EncodeDestination C CProductionChainParams d = some s ∧ DecodeDestination C s CProductionChainParams = some d :=
  ⟨List.mem_cons_self, (EncodeDestination_DecodeDestination_inverse _ _ List.mem_cons_self).1⟩

/-- The production address of the zero key hash, with a space in front, decodes
to that key hash, and the key hash's address is not that string. -/
theorem DecodeDestination_leading_space :
    ∃ s, EncodeDestination zeroCrypto CProductionChainParams (.keyID (Blob.zero 20)) = some s ∧
      DecodeDestination zeroCrypto (0x20 :: s) CProductionChainParams = some (.keyID (Blob.zero 20)) ∧
      EncodeDestination zeroCrypto CProductionChainParams (.keyID (Blob.zero 20)) ≠ some (0x20 :: s) := by
  obtain ⟨s, henc, hdec⟩ := DecodeDestination_EncodeDestination CProductionChainParams_prefixes zeroCrypto
    (show (CTxDestination.keyID (Blob.zero 20)).HasTemplate from rfl)
  refine ⟨s, henc, ?_, ?_⟩
  · rw [DecodeDestination_cons_isspace zeroCrypto _ (by decide) (by decide), hdec]
  · rw [henc, Ne, Option.some.injEq]
    exact fun h => List.cons_ne_self _ _ h.symm

end Tapyrus
