import Tapyrus.Policy
/-!
# Destinations

`ExtractDestination` and `GetScriptForDestination` of `script/standard.cpp`:
the address a standard script pays to, and the script for an address.

The two are inverse on the four single-address templates. Each destination's
script falls to its own template in `Solver`'s order (the earlier templates
check lengths and fixed bytes that it does not have), and a script that
`Solver` puts in one of those templates is its destination's script byte for
byte: the template's fixed bytes pin everything but the hash and the color,
and the color's push is the 33-byte serialization that `CScript`'s push
encoding prefixes with its length `0x21`.
-/

namespace Tapyrus

open Lib

/-- `uint160(vch)`: the 20 bytes of a solution. (`base_blob` asserts the
size; the hashes `Solver` cuts from fixed positions of a template have it.) -/
def uint160OfVector (vch : List UInt8) : uint160 := ⟨(vch ++ List.replicate 20 0).take 20, by simp⟩

/-- `ExtractDestination(scriptPubKey, addressRet)`: the destination when it
returns true. A pay-to-pubkey script gives the key's `CKeyID` when the key
has a valid size; a colored template whose color reads as `NONE` gives
none. -/
def ExtractDestination (C : Crypto) (scriptPubKey : CScript) : Option CTxDestination :=
  match Solver scriptPubKey with
  | some (.TX_PUBKEY, vSolutions) =>
    let pubKey := vSolutions.headD []
    if CPubKey.ValidSize pubKey then some (.keyID (C.hash160 pubKey)) else none
  | some (.TX_PUBKEYHASH, vSolutions) => some (.keyID (uint160OfVector (vSolutions.headD [])))
  | some (.TX_COLOR_PUBKEYHASH, vSolutions) =>
    let color := colorIdOfBytes (vSolutions.getD 1 [])
    if color.type = .NONE then none else some (.colorKeyID (uint160OfVector (vSolutions.headD [])) color)
  | some (.TX_SCRIPTHASH, vSolutions) => some (.scriptID (uint160OfVector (vSolutions.headD [])))
  | some (.TX_COLOR_SCRIPTHASH, vSolutions) =>
    let color := colorIdOfBytes (vSolutions.getD 1 [])
    if color.type = .NONE then none else some (.colorScriptID (uint160OfVector (vSolutions.headD [])) color)
  -- multisig has more than one address; the other types have none
  | _ => none

/-- The destinations with a single-address template: a key or script hash,
and a colored one whose color is a token. -/
def CTxDestination.HasTemplate : CTxDestination → Bool
  | .keyID _ | .scriptID _ => true
  | .colorKeyID _ color | .colorScriptID _ color => color.type.IsToken
  | .noDestination => false

/-! ## Hashes and colors -/

theorem uint160OfVector_of_length {vch : List UInt8} (h : vch.length = 20) : (uint160OfVector vch).bytes = vch := by
  simp [uint160OfVector, List.take_append_of_le_length (le_of_eq h.symm), List.take_of_length_le (le_of_eq h)]

@[simp] theorem uint160OfVector_bytes (id : uint160) : uint160OfVector id.bytes = id :=
  Blob.ext' (uint160OfVector_of_length id.length_eq)

theorem IsTokenTypeByte_TokenToUint {t : TokenTypes} (ht : t.IsToken) : IsTokenTypeByte (TokenToUint t) := by
  cases t <;> simp_all [TokenTypes.IsToken, IsTokenTypeByte]

/-- A token type byte names a token type and is that type's byte. -/
theorem TokenToUint_UintToToken {b : UInt8} (hb : IsTokenTypeByte b) :
    TokenToUint (UintToToken b) = b ∧ (UintToToken b).IsToken := by
  simp only [IsTokenTypeByte, Bool.or_eq_true, beq_iff_eq] at hb
  rcases hb with (rfl | rfl) | rfl <;> decide

/-- The 33 bytes of a colored template, with a token type byte first, read
as a token color whose serialization they are. -/
theorem colorIdOfBytes_toVector {cid : List UInt8} (hlen : cid.length = 33) (htype : IsTokenTypeByte (cid.headD 0)) :
    (colorIdOfBytes cid).type.IsToken ∧ (colorIdOfBytes cid).toVector = cid := by
  obtain ⟨b, p, rfl⟩ : ∃ b p, cid = b :: p := List.exists_cons_of_length_eq_add_one hlen
  have hp : p.length = 32 := by simpa using hlen
  rw [List.headD_cons] at htype
  obtain ⟨hb, htok⟩ := TokenToUint_UintToToken htype
  let c : ColorIdentifier := ⟨UintToToken b, ⟨p, hp⟩⟩
  have hser : c.serialize = b :: p := by
    rw [ColorIdentifier.serialize_of_IsToken htok, hb]
  have hc : colorIdOfBytes (b :: p) = c := by
    rw [colorIdOfBytes, ← hser, ColorIdentifier.ofVector_serialize htok]
  rw [hc]
  exact ⟨htok, hser⟩

theorem colorIdOfBytes_of_IsToken {color : ColorIdentifier} (hc : color.type.IsToken) :
    colorIdOfBytes color.toVector = color := by
  simp [colorIdOfBytes, ColorIdentifier.toVector, ColorIdentifier.ofVector_serialize hc]

/-! ## Each destination's script falls to its own template -/

section Forward

variable (id : uint160) {color : ColorIdentifier}

/- The key hash template is 25 bytes that open with `OP_DUP`: too short for
the colored templates, not 23 bytes for P2SH, not a version opcode for a
witness program, and neither 35 nor 67 bytes for P2PK. -/
theorem Solver_keyID : Solver (GetScriptForDestination (.keyID id)) = some (.TX_PUBKEYHASH, [id.bytes]) := by
  simp +decide [GetScriptForDestination_keyID, Solver, id.length_eq, CScript.IsPayToScriptHash,
    CScript.IsColoredPayToScriptHash, CScript.IsWitnessProgram, MatchPayToPubkey, MatchPayToPubkeyHash,
    PUBLIC_KEY_SIZE, COMPRESSED_PUBLIC_KEY_SIZE]

theorem Solver_scriptID : Solver (GetScriptForDestination (.scriptID id)) = some (.TX_SCRIPTHASH, [id.bytes]) := by
  simp +decide [GetScriptForDestination_scriptID, Solver, id.length_eq, CScript.IsPayToScriptHash]

theorem Solver_colorKeyID (hc : color.type.IsToken) :
    Solver (GetScriptForDestination (.colorKeyID id color)) = some (.TX_COLOR_PUBKEYHASH, [id.bytes, color.toVector]) := by
  simp +decide [GetScriptForDestination_colorKeyID hc id, ColorIdentifier.toVector, ColorIdentifier.serialize_of_IsToken hc, Solver, id.length_eq,
    color.payload.length_eq, IsTokenTypeByte_TokenToUint hc, CScript.IsPayToScriptHash, CScript.IsColoredPayToScriptHash,
    CScript.IsWitnessProgram, MatchPayToPubkey, MatchPayToPubkeyHash, MatchColoredPayToPubkeyHash,
    PUBLIC_KEY_SIZE, COMPRESSED_PUBLIC_KEY_SIZE, List.drop_append, List.take_append]

theorem Solver_colorScriptID (hc : color.type.IsToken) :
    Solver (GetScriptForDestination (.colorScriptID id color)) = some (.TX_COLOR_SCRIPTHASH, [id.bytes, color.toVector]) := by
  simp +decide [GetScriptForDestination_colorScriptID hc id, ColorIdentifier.toVector, ColorIdentifier.serialize_of_IsToken hc, Solver, id.length_eq,
    color.payload.length_eq, IsTokenTypeByte_TokenToUint hc, CScript.IsPayToScriptHash, CScript.IsColoredPayToScriptHash,
    List.drop_append, List.take_append]

end Forward

/-! ## A script in a single-address template is its destination's script -/

section Backward

variable {S : CScript} {vs : List (List UInt8)}

/- `Solver` returns each of these types from one template only; the
shortcuts before them and the matchers after return other types. -/
theorem Solver_eq_TX_PUBKEYHASH (h : Solver S = some (.TX_PUBKEYHASH, vs)) :
    ∃ hash, MatchPayToPubkeyHash S = some hash ∧ vs = [hash] := by
  unfold Solver at h
  split_ifs at h
  all_goals (repeat' split at h) <;> simp_all

theorem Solver_eq_TX_SCRIPTHASH (h : Solver S = some (.TX_SCRIPTHASH, vs)) :
    S.IsPayToScriptHash ∧ vs = [(S.drop 2).take 20] := by
  unfold Solver at h
  split_ifs at h
  all_goals (repeat' split at h) <;> simp_all

theorem Solver_eq_TX_COLOR_PUBKEYHASH (h : Solver S = some (.TX_COLOR_PUBKEYHASH, vs)) :
    ∃ hash cid, MatchColoredPayToPubkeyHash S = some (hash, cid) ∧ vs = [hash, cid] := by
  unfold Solver at h
  split_ifs at h
  all_goals (repeat' split at h) <;> simp_all

theorem Solver_eq_TX_COLOR_SCRIPTHASH (h : Solver S = some (.TX_COLOR_SCRIPTHASH, vs)) :
    S.IsColoredPayToScriptHash ∧ vs = [(S.drop 37).take 20, (S.drop 1).take 33] := by
  unfold Solver at h
  split_ifs at h
  all_goals (repeat' split at h) <;> simp_all

theorem MatchPayToPubkeyHash_layout {hash : List UInt8} (h : MatchPayToPubkeyHash S = some hash) :
    hash.length = 20 ∧ S = [OP_DUP, OP_HASH160, 20] ++ hash ++ [OP_EQUALVERIFY, OP_CHECKSIG] := by
  simp only [MatchPayToPubkeyHash] at h
  split_ifs at h with hm
  cases h
  simp only [Bool.and_eq_true, beq_iff_eq] at hm
  obtain ⟨⟨⟨⟨⟨hlen, h0⟩, h1⟩, h2⟩, h23⟩, h24⟩ := hm
  refine ⟨by simp [hlen], eq_layout (by simp [hlen]) ?_ ?_⟩
  · intro i hi
    simp only [List.length_cons, List.length_nil] at hi
    interval_cases i <;> assumption
  · intro j hj
    simp only [List.length_cons, List.length_nil] at hj
    interval_cases j <;> assumption

theorem IsPayToScriptHash_layout (h : S.IsPayToScriptHash) :
    ((S.drop 2).take 20).length = 20 ∧ S = [OP_HASH160, 20] ++ (S.drop 2).take 20 ++ [OP_EQUAL] := by
  simp only [CScript.IsPayToScriptHash, Bool.and_eq_true, beq_iff_eq] at h
  obtain ⟨⟨⟨hlen, h0⟩, h1⟩, h22⟩ := h
  refine ⟨by simp [hlen], eq_layout (by simp [hlen]) ?_ ?_⟩
  · intro i hi
    simp only [List.length_cons, List.length_nil] at hi
    interval_cases i <;> assumption
  · intro j hj
    simp only [List.length_cons, List.length_nil] at hj
    interval_cases j
    exact h22

theorem colorPush_headD : ((S.drop 1).take 33).headD 0 = S.getD 1 0 := by
  simp only [List.headD_eq_head?_getD, List.head?_take, List.head?_drop, List.getD_eq_getElem?_getD]
  simp

/-- The colored templates open with the push of their 33 color bytes. -/
theorem eq_colorPush (hlen : 34 ≤ S.length) (h0 : S[0]? = some 0x21) :
    S = [0x21] ++ (S.drop 1).take 33 ++ S.drop 34 := by
  refine eq_layout (by simp; omega) ?_ (fun j _ => by simp [List.getElem?_drop, Nat.add_comm])
  intro i hi
  simp only [List.length_cons, List.length_nil] at hi
  interval_cases i
  exact h0

theorem MatchColoredPayToPubkeyHash_layout {hash cid : List UInt8}
    (h : MatchColoredPayToPubkeyHash S = some (hash, cid)) :
    hash.length = 20 ∧ cid.length = 33 ∧ IsTokenTypeByte (cid.headD 0) ∧
      S = [0x21] ++ cid ++ [OP_COLOR, OP_DUP, OP_HASH160, 20] ++ hash ++ [OP_EQUALVERIFY, OP_CHECKSIG] := by
  simp only [MatchColoredPayToPubkeyHash] at h
  split_ifs at h with hm
  cases h
  simp only [Bool.and_eq_true, beq_iff_eq] at hm
  obtain ⟨⟨⟨⟨⟨⟨⟨⟨hlen, h0⟩, h34⟩, h35⟩, h36⟩, h37⟩, h58⟩, h59⟩, htype⟩ := hm
  -- after the color's push, the rest is the key hash template behind `OP_COLOR`
  have hrest : S.drop 34 = [OP_COLOR, OP_DUP, OP_HASH160, 20] ++ (S.drop 38).take 20 ++ [OP_EQUALVERIFY, OP_CHECKSIG] := by
    have hl : (S.drop 34).length = List.length [OP_COLOR, OP_DUP, OP_HASH160, 20] + 20 +
        List.length [OP_EQUALVERIFY, OP_CHECKSIG] := by simp [hlen]
    have := eq_layout hl ?_ ?_
    · simpa [List.drop_drop] using this
    · intro i hi
      simp only [List.length_cons, List.length_nil] at hi
      interval_cases i <;> simpa [List.getElem?_drop]
    · intro j hj
      simp only [List.length_cons, List.length_nil] at hj
      interval_cases j <;> simpa [List.getElem?_drop]
  refine ⟨by simp [hlen], by simp [hlen], by rw [colorPush_headD]; exact htype, ?_⟩
  calc S = [0x21] ++ (S.drop 1).take 33 ++ S.drop 34 := eq_colorPush (by omega) h0
    _ = _ := by rw [hrest]; simp

theorem IsColoredPayToScriptHash_layout (h : S.IsColoredPayToScriptHash) :
    ((S.drop 37).take 20).length = 20 ∧ ((S.drop 1).take 33).length = 33 ∧
      IsTokenTypeByte (((S.drop 1).take 33).headD 0) ∧
      S = [0x21] ++ (S.drop 1).take 33 ++ [OP_COLOR, OP_HASH160, 20] ++ (S.drop 37).take 20 ++ [OP_EQUAL] := by
  simp only [CScript.IsColoredPayToScriptHash, Bool.and_eq_true, beq_iff_eq] at h
  obtain ⟨⟨⟨⟨⟨⟨hlen, h0⟩, h34⟩, h35⟩, h36⟩, h57⟩, htype⟩ := h
  have hrest : S.drop 34 = [OP_COLOR, OP_HASH160, 20] ++ (S.drop 37).take 20 ++ [OP_EQUAL] := by
    have hl : (S.drop 34).length = List.length [OP_COLOR, OP_HASH160, 20] + 20 + List.length [OP_EQUAL] := by
      simp [hlen]
    have := eq_layout hl ?_ ?_
    · simpa [List.drop_drop] using this
    · intro i hi
      simp only [List.length_cons, List.length_nil] at hi
      interval_cases i <;> simpa [List.getElem?_drop]
    · intro j hj
      simp only [List.length_cons, List.length_nil] at hj
      interval_cases j
      simpa [List.getElem?_drop]
  refine ⟨by simp [hlen], by simp [hlen], by rw [colorPush_headD]; exact htype, ?_⟩
  calc S = [0x21] ++ (S.drop 1).take 33 ++ S.drop 34 := eq_colorPush (by omega) h0
    _ = _ := by rw [hrest]; simp

end Backward

/-! ## The round trips -/

section RoundTrip

variable (C : Crypto)

theorem IsToken_ne_NONE {t : TokenTypes} (ht : t.IsToken) : t ≠ .NONE := by
  simpa [TokenTypes.IsToken] using ht

theorem ExtractDestination_GetScriptForDestination {d : CTxDestination} (hd : d.HasTemplate) :
    ExtractDestination C (GetScriptForDestination d) = some d := by
  cases d with
  | noDestination => cases hd
  | keyID id => simp [ExtractDestination, Solver_keyID]
  | scriptID id => simp [ExtractDestination, Solver_scriptID]
  | colorKeyID id color =>
    have hc : color.type.IsToken := hd
    simp [ExtractDestination, Solver_colorKeyID id hc, colorIdOfBytes_of_IsToken hc, IsToken_ne_NONE hc]
  | colorScriptID id color =>
    have hc : color.type.IsToken := hd
    simp [ExtractDestination, Solver_colorScriptID id hc, colorIdOfBytes_of_IsToken hc, IsToken_ne_NONE hc]

/- Each template's case: invert `Solver`, read the script's layout, and
rebuild it from the destination `ExtractDestination` reads. -/
theorem GetScriptForDestination_ExtractDestination {S : CScript} {t : txnouttype} {vSolutions : List (List UInt8)}
    (hS : Solver S = some (t, vSolutions))
    (ht : t ∈ [.TX_PUBKEYHASH, .TX_SCRIPTHASH, .TX_COLOR_PUBKEYHASH, .TX_COLOR_SCRIPTHASH]) :
    ∃ d, d.HasTemplate ∧ ExtractDestination C S = some d ∧ GetScriptForDestination d = S := by
  simp only [List.mem_cons, List.not_mem_nil, or_false] at ht
  rcases ht with rfl | rfl | rfl | rfl
  · obtain ⟨hash, hm, rfl⟩ := Solver_eq_TX_PUBKEYHASH hS
    obtain ⟨hl, hSeq⟩ := MatchPayToPubkeyHash_layout hm
    refine ⟨.keyID (uint160OfVector hash), rfl, by simp [ExtractDestination, hS], ?_⟩
    rw [GetScriptForDestination_keyID, uint160OfVector_of_length hl]
    exact hSeq.symm
  · obtain ⟨hp2sh, rfl⟩ := Solver_eq_TX_SCRIPTHASH hS
    obtain ⟨hl, hSeq⟩ := IsPayToScriptHash_layout hp2sh
    refine ⟨.scriptID (uint160OfVector ((S.drop 2).take 20)), rfl, by simp [ExtractDestination, hS], ?_⟩
    rw [GetScriptForDestination_scriptID, uint160OfVector_of_length hl]
    exact hSeq.symm
  · obtain ⟨hash, cid, hm, rfl⟩ := Solver_eq_TX_COLOR_PUBKEYHASH hS
    obtain ⟨hl, hcl, htype, hSeq⟩ := MatchColoredPayToPubkeyHash_layout hm
    obtain ⟨htok, hvec⟩ := colorIdOfBytes_toVector hcl htype
    refine ⟨.colorKeyID (uint160OfVector hash) (colorIdOfBytes cid), htok,
      by simp [ExtractDestination, hS, IsToken_ne_NONE htok], ?_⟩
    rw [GetScriptForDestination_colorKeyID htok, uint160OfVector_of_length hl, ← ColorIdentifier.toVector, hvec]
    simpa using hSeq.symm
  · obtain ⟨hcp2sh, rfl⟩ := Solver_eq_TX_COLOR_SCRIPTHASH hS
    obtain ⟨hl, hcl, htype, hSeq⟩ := IsColoredPayToScriptHash_layout hcp2sh
    obtain ⟨htok, hvec⟩ := colorIdOfBytes_toVector hcl htype
    refine ⟨.colorScriptID (uint160OfVector ((S.drop 37).take 20)) (colorIdOfBytes ((S.drop 1).take 33)), htok,
      by simp [ExtractDestination, hS, IsToken_ne_NONE htok, -List.drop_one], ?_⟩
    rw [GetScriptForDestination_colorScriptID htok, uint160OfVector_of_length hl, ← ColorIdentifier.toVector, hvec]
    simpa using hSeq.symm

/-- `ExtractDestination` and `GetScriptForDestination` are inverse on the
single-address templates, in both directions. -/
theorem ExtractDestination_GetScriptForDestination_inverse :
    (∀ d : CTxDestination, d.HasTemplate → ExtractDestination C (GetScriptForDestination d) = some d) ∧
    (∀ (S : CScript) (t : txnouttype) (vSolutions : List (List UInt8)), Solver S = some (t, vSolutions) →
      t ∈ [.TX_PUBKEYHASH, .TX_SCRIPTHASH, .TX_COLOR_PUBKEYHASH, .TX_COLOR_SCRIPTHASH] →
      ∃ d, d.HasTemplate ∧ ExtractDestination C S = some d ∧ GetScriptForDestination d = S) :=
  ⟨fun _ hd => ExtractDestination_GetScriptForDestination C hd,
    fun _ _ _ hS ht => GetScriptForDestination_ExtractDestination C hS ht⟩

end RoundTrip

end Tapyrus
