import Tapyrus.Lib.Avoids
import Tapyrus.Script.Verify
/-!
# The color of a spend

Two code paths name the color of a coin. `CheckInputs` takes the color that
`OP_COLOR` wrote into `VerifyScript`'s `colorId` while the scripts ran; the
balance checks and the UTXO statistics take `GetColorIdFromScript` of the
scriptPubKey, a reading of its bytes. And a colored P2SH output is meant to
be as hard to spend as an uncolored one.

Symbolic runs of two scripts show where these part:

* `OP_0 OP_IF <color> OP_COLOR OP_ENDIF OP_1`: the bytes carry the color, so
  `GetColorIdFromScript` returns it, but `OP_COLOR` sits in a branch that
  does not run, so the spend verifies with the TPC color
  (`VerifyScript_colorInDeadBranch`);
* the CP2SH script `<color> OP_COLOR OP_HASH160 <h> OP_EQUAL` is 58 bytes,
  and `VerifyScript` runs a redeem script only for the 23-byte P2SH form: a
  scriptSig that merely pushes any script hashing to `h` spends it
  (`VerifyScript_CP2SH_reveal`).

The hash functions and the signature checker stay parameters: both results
hold for every `Crypto`, every checker and every flag set.
-/

namespace Tapyrus

open Lib

/-! ## A color in a branch that does not run -/

/-- `OP_0 OP_IF <color> OP_COLOR OP_ENDIF OP_1`. -/
def colorInDeadBranch (cid : ColorIdentifier) : CScript :=
  [OP_0, OP_IF] ++ pushData cid.toVector ++ [OP_COLOR, OP_ENDIF, OP_1]

section DeadBranch

variable {cid : ColorIdentifier} (hcid : cid.type.IsToken)
include hcid

theorem colorInDeadBranch_eq :
    colorInDeadBranch cid = OP_0 :: OP_IF :: 0x21 :: (cid.serialize ++ [OP_COLOR, OP_ENDIF, OP_1]) := by
  simp [colorInDeadBranch, pushData_toVector hcid]

/-- The `GetOp` walk: six instructions, all decodable. -/
theorem ScriptOps_colorInDeadBranch :
    ScriptOps (colorInDeadBranch cid) =
      ([⟨OP_0, [], OP_IF :: 0x21 :: (cid.serialize ++ [OP_COLOR, OP_ENDIF, OP_1])⟩,
        ⟨OP_IF, [], 0x21 :: (cid.serialize ++ [OP_COLOR, OP_ENDIF, OP_1])⟩,
        ⟨0x21, cid.serialize, [OP_COLOR, OP_ENDIF, OP_1]⟩,
        ⟨OP_COLOR, [], [OP_ENDIF, OP_1]⟩, ⟨OP_ENDIF, [], [OP_1]⟩, ⟨OP_1, [], []⟩], false) := by
  have hlen := ColorIdentifier.serialize_length hcid
  have h1 := GetScriptOp_direct (d := []) (n := OP_0) (OP_IF :: 0x21 :: (cid.serialize ++ [OP_COLOR, OP_ENDIF, OP_1]))
    (by decide) rfl
  have h2 := GetScriptOp_nonpush (0x21 :: (cid.serialize ++ [OP_COLOR, OP_ENDIF, OP_1])) (show OP_PUSHDATA4 < OP_IF by decide)
  have h3 := GetScriptOp_direct (n := 0x21) [OP_COLOR, OP_ENDIF, OP_1] (by decide) (by rw [hlen]; rfl)
  have h4 := GetScriptOp_nonpush [OP_ENDIF, OP_1] (show OP_PUSHDATA4 < OP_COLOR by decide)
  have h5 := GetScriptOp_nonpush [OP_1] (show OP_PUSHDATA4 < OP_ENDIF by decide)
  have h6 := GetScriptOp_nonpush [] (show OP_PUSHDATA4 < OP_1 by decide)
  rw [List.nil_append] at h1
  rw [colorInDeadBranch_eq hcid, ScriptOps_of_GetScriptOp h1, ScriptOps_of_GetScriptOp h2, ScriptOps_of_GetScriptOp h3,
    ScriptOps_of_GetScriptOp h4, ScriptOps_of_GetScriptOp h5, ScriptOps_of_GetScriptOp h6, ScriptOps_nil]

/-- The run: `OP_0` makes the branch dead, the color push and `OP_COLOR`
are skipped, `OP_ENDIF` closes the branch and `OP_1` is left. The color
pointer is untouched. -/
theorem EvalScript_colorInDeadBranch (C : Crypto) (flags : UInt32) (checker : BaseSignatureChecker)
    (colorId : ColorIdentifier) :
    EvalScript C flags checker .BASE [] (colorInDeadBranch cid) (some colorId) = .ok ([[1]], some colorId) := by
  have hlen := ColorIdentifier.serialize_length hcid
  have hsize : ¬ (colorInDeadBranch cid).length > MAX_SCRIPT_SIZE := by
    simp [colorInDeadBranch_eq hcid, hlen, MAX_SCRIPT_SIZE, COLOR_IDENTIFIER_SIZE]
  have hif : decodeOpcode OP_IF = .ifNotIf := by decide
  have hendif : decodeOpcode OP_ENDIF = .endif := by decide
  have hone : decodeOpcode OP_1 = .pushNum := by decide
  rw [EvalScript, if_neg hsize, evalTry, ScriptOps_colorInDeadBranch hcid]
  simp +decide [hif, hendif, hone, evalOps, step, execInstr, ifOp, hlen, COLOR_IDENTIFIER_SIZE,
    MAX_SCRIPT_ELEMENT_SIZE, CheckMinimalPush, Exec.ofAssert, CastToBool]

/-- The bytes do carry the color: the first `0x21` byte is 34 bytes before
the first `OP_COLOR`, which is not the last byte. -/
theorem GetColorIdFromScript_colorInDeadBranch : GetColorIdFromScript (colorInDeadBranch cid) = cid := by
  have hlen := ColorIdentifier.serialize_length hcid
  have hcolored : (colorInDeadBranch cid).IsColoredScript := by
    simp [CScript.IsColoredScript, ScriptOps_colorInDeadBranch hcid]
  have hend : opColorEnd (colorInDeadBranch cid) = some 37 := by
    rw [opColorEnd, ScriptOps_colorInDeadBranch hcid]
    simp +decide [colorInDeadBranch_eq hcid, hlen, COLOR_IDENTIFIER_SIZE]
  have hidx : (colorInDeadBranch cid).idxOf 0x21 = 2 := by
    simp +decide [colorInDeadBranch_eq hcid]
  have hbyte : (colorInDeadBranch cid).getD 3 0 = TokenToUint cid.type := by
    simp [colorInDeadBranch_eq hcid, ColorIdentifier.serialize_of_IsToken hcid]
  have htype : IsTokenTypeByte (TokenToUint cid.type) := by
    cases ht : cid.type <;> simp_all +decide [TokenTypes.IsToken]
  have hmatch : MatchCustomColoredScript (colorInDeadBranch cid) = some cid.serialize := by
    rw [MatchCustomColoredScript, hend, hidx]
    simp only [Nat.reduceAdd, hbyte, htype]
    simp +decide [colorInDeadBranch_eq hcid, hlen, COLOR_IDENTIFIER_SIZE]
  have hpkh : MatchColoredPayToPubkeyHash (colorInDeadBranch cid) = none := by
    simp [MatchColoredPayToPubkeyHash, colorInDeadBranch_eq hcid, hlen, COLOR_IDENTIFIER_SIZE]
  have hsh : (colorInDeadBranch cid).IsColoredPayToScriptHash = false := by
    simp [CScript.IsColoredPayToScriptHash, colorInDeadBranch_eq hcid, hlen, COLOR_IDENTIFIER_SIZE]
  simp [GetColorIdFromScript, hcolored, hpkh, hsh, hmatch, colorIdOfBytes, ColorIdentifier.ofVector_serialize hcid]

theorem IsWitnessProgram_colorInDeadBranch : (colorInDeadBranch cid).IsWitnessProgram = none := by
  have hlen := ColorIdentifier.serialize_length hcid
  simp +decide [CScript.IsWitnessProgram, colorInDeadBranch_eq hcid, hlen, COLOR_IDENTIFIER_SIZE]

end DeadBranch

@[simp] theorem EvalScript_nil (C : Crypto) (flags : UInt32) (checker : BaseSignatureChecker) (sigversion : SigVersion)
    (stack : List (List UInt8)) (colorId : Option ColorIdentifier) :
    EvalScript C flags checker sigversion stack [] colorId = .ok (stack, colorId) := by
  simp [EvalScript, evalTry, evalOps, MAX_SCRIPT_SIZE]

/-- The spend verifies with the TPC color under every flag set, while
`GetColorIdFromScript` gives the coin the token color. -/
theorem VerifyScript_colorInDeadBranch (C : Crypto) (flags : UInt32) (checker : BaseSignatureChecker)
    {cid : ColorIdentifier} (hcid : cid.type.IsToken) :
    VerifyScript C flags checker [] (colorInDeadBranch cid) [] ColorIdentifier.none = .ok ColorIdentifier.none ∧
      GetColorIdFromScript (colorInDeadBranch cid) = cid ∧ cid ≠ ColorIdentifier.none := by
  have hne : cid ≠ ColorIdentifier.none := by
    rintro rfl
    simp [ColorIdentifier.none, TokenTypes.IsToken] at hcid
  have hp2sh : (colorInDeadBranch cid).IsPayToScriptHash = false := by
    simp [CScript.IsPayToScriptHash, colorInDeadBranch_eq hcid, ColorIdentifier.serialize_length hcid,
      COLOR_IDENTIFIER_SIZE]
  refine ⟨?_, GetColorIdFromScript_colorInDeadBranch hcid, hne⟩
  have hpush : CScript.IsPushOnly [] = true := rfl
  simp [VerifyScript, hpush, EvalScript_colorInDeadBranch hcid, verifyBareWitness,
    IsWitnessProgram_colorInDeadBranch hcid, hp2sh, verifyFinal, CastToBool]

/-- Hash functions that ignore their input: a fixed `Crypto` for the
witnesses, whose theorems hold for every `Crypto`. -/
def zeroCrypto : Crypto := ⟨fun _ => Blob.zero 32, fun _ => Blob.zero 20, fun _ => Blob.zero 20, fun _ => true⟩

/-- A reissuable color with a zero payload. -/
def sampleColor : ColorIdentifier := ⟨.REISSUABLE, Blob.zero 32⟩

theorem VerifyScript_colorInDeadBranch_reissuable :
    sampleColor.type.IsToken ∧
      (VerifyScript zeroCrypto 0 BaseSignatureChecker.base [] (colorInDeadBranch sampleColor) [] ColorIdentifier.none =
          .ok ColorIdentifier.none ∧
        GetColorIdFromScript (colorInDeadBranch sampleColor) = sampleColor ∧ sampleColor ≠ ColorIdentifier.none) :=
  ⟨by decide, VerifyScript_colorInDeadBranch zeroCrypto 0 BaseSignatureChecker.base (by decide)⟩

/-! ## Colored P2SH never runs the redeem script -/

section ScriptHash

variable (C : Crypto) (flags : UInt32) (checker : BaseSignatureChecker)

/-- The tail `OP_HASH160 <id> OP_EQUAL` that P2SH and CP2SH share. -/
theorem ScriptOps_hashEqual (id : uint160) :
    ScriptOps (OP_HASH160 :: 0x14 :: (id.bytes ++ [OP_EQUAL])) =
      ([⟨OP_HASH160, [], 0x14 :: (id.bytes ++ [OP_EQUAL])⟩, ⟨0x14, id.bytes, [OP_EQUAL]⟩, ⟨OP_EQUAL, [], []⟩],
        false) := by
  have h1 := GetScriptOp_nonpush (0x14 :: (id.bytes ++ [OP_EQUAL])) (show OP_PUSHDATA4 < OP_HASH160 by decide)
  have h2 := GetScriptOp_direct (n := 0x14) [OP_EQUAL] (by decide) (by rw [id.length_eq]; rfl)
  have h3 := GetScriptOp_nonpush [] (show OP_PUSHDATA4 < OP_EQUAL by decide)
  rw [ScriptOps_of_GetScriptOp h1, ScriptOps_of_GetScriptOp h2, ScriptOps_of_GetScriptOp h3, ScriptOps_nil]

/-- The CP2SH walk: the color push, `OP_COLOR`, then the P2SH tail. -/
theorem ScriptOps_colorScriptID {cid : ColorIdentifier} (hcid : cid.type.IsToken) (id : uint160) :
    ScriptOps (GetScriptForDestination (.colorScriptID id cid)) =
      (⟨0x21, cid.serialize, OP_COLOR :: OP_HASH160 :: 0x14 :: (id.bytes ++ [OP_EQUAL])⟩ ::
        ⟨OP_COLOR, [], OP_HASH160 :: 0x14 :: (id.bytes ++ [OP_EQUAL])⟩ ::
        (ScriptOps (OP_HASH160 :: 0x14 :: (id.bytes ++ [OP_EQUAL]))).1, false) := by
  have hlen := ColorIdentifier.serialize_length hcid
  have h1 := GetScriptOp_direct (n := 0x21) (OP_COLOR :: OP_HASH160 :: 0x14 :: (id.bytes ++ [OP_EQUAL]))
    (by decide) (by rw [hlen]; rfl)
  have h2 := GetScriptOp_nonpush (OP_HASH160 :: 0x14 :: (id.bytes ++ [OP_EQUAL])) (show OP_PUSHDATA4 < OP_COLOR by decide)
  rw [GetScriptForDestination_colorScriptID hcid, ScriptOps_of_GetScriptOp h1, ScriptOps_of_GetScriptOp h2,
    ScriptOps_hashEqual]

/-- The CP2SH run on one item `x`: `OP_COLOR` sets the color, and the
result is whether `x` hashes to `id`. -/
theorem EvalScript_colorScriptID {cid : ColorIdentifier} (hcid : cid.type.IsToken) (id : uint160) (x : List UInt8) :
    EvalScript C flags checker .BASE [x] (GetScriptForDestination (.colorScriptID id cid)) (some ColorIdentifier.none) =
      .ok ([boolVch ((C.hash160 x).bytes == id.bytes)], some cid) := by
  have hlen := ColorIdentifier.serialize_length hcid
  have hsize : ¬ (GetScriptForDestination (.colorScriptID id cid)).length > MAX_SCRIPT_SIZE := by
    simp [GetScriptForDestination_colorScriptID hcid, hlen, id.length_eq, MAX_SCRIPT_SIZE, COLOR_IDENTIFIER_SIZE]
  have hcolor : decodeOpcode OP_COLOR = .color := by decide
  have hhash : decodeOpcode OP_HASH160 = .hash := by decide
  have hequal : decodeOpcode OP_EQUAL = .equal := by decide
  have hread : Exec.ofSer ((StateT.run (ColorIdentifier.none.unserializeInto) cid.serialize).map Prod.fst) = .ok cid := by
    have := ColorIdentifier.unserializeInto_serialize ColorIdentifier.none hcid []
    rw [List.append_nil] at this
    rw [this]
    rfl
  have hne : cid.serialize ≠ [] := by
    intro h
    rw [h] at hlen
    cases hlen
  have hid : id.bytes ≠ [] := by
    intro h
    have := id.length_eq
    rw [h] at this
    cases this
  rw [EvalScript, if_neg hsize, evalTry, ScriptOps_colorScriptID hcid, ScriptOps_hashEqual]
  simp +decide [hcolor, hhash, hequal, evalOps, step, execInstr, colorOp, hread, hne, hid, equalOp, hashOp, hlen,
    hcid, id.length_eq, COLOR_IDENTIFIER_SIZE, MAX_SCRIPT_ELEMENT_SIZE, CheckMinimalPush, Exec.ofAssert]

/-- The P2SH run on one item `x`: whether `x` hashes to `id`. -/
theorem EvalScript_scriptID (id : uint160) (x : List UInt8) (colorId : Option ColorIdentifier) :
    EvalScript C flags checker .BASE [x] (GetScriptForDestination (.scriptID id)) colorId =
      .ok ([boolVch ((C.hash160 x).bytes == id.bytes)], colorId) := by
  have hsize : ¬ (GetScriptForDestination (.scriptID id)).length > MAX_SCRIPT_SIZE := by
    simp [GetScriptForDestination_scriptID, id.length_eq, MAX_SCRIPT_SIZE]
  have hhash : decodeOpcode OP_HASH160 = .hash := by decide
  have hequal : decodeOpcode OP_EQUAL = .equal := by decide
  have hid : id.bytes ≠ [] := by
    intro h
    have := id.length_eq
    rw [h] at this
    cases this
  rw [EvalScript, if_neg hsize, evalTry, GetScriptForDestination_scriptID, ScriptOps_hashEqual]
  simp +decide [hhash, hequal, evalOps, step, execInstr, hid, equalOp, hashOp, id.length_eq,
    MAX_SCRIPT_ELEMENT_SIZE, CheckMinimalPush, Exec.ofAssert]

/-- A direct push of 2 to 75 bytes: one instruction. -/
theorem ScriptOps_pushData {R : CScript} (hR : 2 ≤ R.length ∧ R.length ≤ 75) :
    ScriptOps (pushData R) = ([⟨UInt8.ofNat R.length, R, []⟩], false) := by
  have hlt : R.length < OP_PUSHDATA1.toNat := by
    simp [OP_PUSHDATA1]
    omega
  have hn : (UInt8.ofNat R.length).toNat = R.length := by
    simp
    omega
  have h1 := GetScriptOp_direct (n := UInt8.ofNat R.length) (d := R) []
    (by rw [UInt8.lt_iff_toNat_lt, hn]; exact hlt) hn.symm
  rw [List.append_nil] at h1
  rw [pushData_of_lt hlt, ScriptOps_of_GetScriptOp h1, ScriptOps_nil]

/-- The scriptSig `<R>`: a minimal push, so the run leaves `R` alone. -/
theorem EvalScript_pushData {R : CScript} (hR : 2 ≤ R.length ∧ R.length ≤ 75) (colorId : Option ColorIdentifier) :
    EvalScript C flags checker .BASE [] (pushData R) colorId = .ok ([R], colorId) := by
  have hn : (UInt8.ofNat R.length).toNat = R.length := by
    simp
    omega
  have hne : R ≠ [] := by
    rintro rfl
    simp at hR
  have hpush : UInt8.ofNat R.length ≤ OP_PUSHDATA4 := by
    rw [UInt8.le_iff_toNat_le, hn]
    simp [OP_PUSHDATA4]
    omega
  have hmin : CheckMinimalPush R (UInt8.ofNat R.length) = some true := by
    have h1 : R.length ≠ 1 := by omega
    simp [CheckMinimalPush, UInt8.lt_iff_toNat_lt, hn, hne, h1, hR.2, OP_PUSHDATA4]
    omega
  have hsize : ¬ (pushData R).length > MAX_SCRIPT_SIZE := by
    have hlt : R.length < OP_PUSHDATA1.toNat := by
      simp [OP_PUSHDATA1]
      omega
    simp [pushData_of_lt hlt, MAX_SCRIPT_SIZE]
    omega
  -- the push is counted by no limit: it is below `OP_16`, enabled, and not `OP_CODESEPARATOR`
  have h16 : ¬ OP_16 < UInt8.ofNat R.length := by
    rw [UInt8.lt_iff_toNat_lt, hn]
    simp [OP_16]
    omega
  have hdis : IsDisabledOpcode (UInt8.ofNat R.length) = false := IsDisabledOpcode_of_lt (by rw [hn]; simp [OP_CAT]; omega)
  have hsep : UInt8.ofNat R.length ≠ OP_CODESEPARATOR := by
    intro h
    have := congrArg UInt8.toNat h
    rw [hn] at this
    simp [OP_CODESEPARATOR] at this
    omega
  have h520 : ¬ 520 < R.length := by omega
  rw [EvalScript, if_neg hsize, evalTry, ScriptOps_pushData hR]
  simp +decide [evalOps, step, hpush, hmin, h16, hdis, hsep, h520, Exec.ofAssert, MAX_SCRIPT_ELEMENT_SIZE]

theorem IsPushOnly_pushData {R : CScript} (hR : 2 ≤ R.length ∧ R.length ≤ 75) : (pushData R).IsPushOnly := by
  have hn : (UInt8.ofNat R.length).toNat = R.length := by
    simp
    omega
  simp [CScript.IsPushOnly, ScriptOps_pushData hR, UInt8.le_iff_toNat_le, hn, OP_16]
  omega

/-- A script that starts with `OP_RETURN` fails. -/
theorem EvalScript_OP_RETURN (sigversion : SigVersion) (stack : List (List UInt8)) {rest : CScript}
    (h : rest.length < MAX_SCRIPT_SIZE) (colorId : Option ColorIdentifier) :
    EvalScript C flags checker sigversion stack (OP_RETURN :: rest) colorId = Exec.fail .OP_RETURN := by
  have hop := GetScriptOp_nonpush rest (show OP_PUSHDATA4 < OP_RETURN by decide)
  have hsize : ¬ (OP_RETURN :: rest).length > MAX_SCRIPT_SIZE := by
    simp only [List.length_cons]
    omega
  have hret : decodeOpcode OP_RETURN = .return_ := by decide
  rw [EvalScript, if_neg hsize, evalTry, ScriptOps_of_GetScriptOp hop]
  simp +decide [evalOps, step, execInstr, hret, Exec.fail, catchScriptException]

/-- The same reveal against the uncolored P2SH script runs the redeem script,
and a redeem script starting with `OP_RETURN` fails there. -/
theorem VerifyScript_scriptID_reveal_OP_RETURN {rest : CScript} (hR : 1 ≤ rest.length ∧ rest.length ≤ 74)
    (colorId : ColorIdentifier) :
    VerifyScript C flags checker (pushData (OP_RETURN :: rest))
      (GetScriptForDestination (.scriptID (C.hash160 (OP_RETURN :: rest)))) [] colorId = Exec.fail .OP_RETURN := by
  have hR' : 2 ≤ (OP_RETURN :: rest).length ∧ (OP_RETURN :: rest).length ≤ 75 := by
    simp only [List.length_cons]
    omega
  have hid := (C.hash160 (OP_RETURN :: rest)).length_eq
  have hwp : (GetScriptForDestination (.scriptID (C.hash160 (OP_RETURN :: rest)))).IsWitnessProgram = none := by
    simp +decide [GetScriptForDestination_scriptID, CScript.IsWitnessProgram]
  have hp2sh : (GetScriptForDestination (.scriptID (C.hash160 (OP_RETURN :: rest)))).IsPayToScriptHash := by
    simp +decide [GetScriptForDestination_scriptID, CScript.IsPayToScriptHash, hid]
  simp [VerifyScript, IsPushOnly_pushData hR', EvalScript_pushData C flags checker hR', EvalScript_scriptID,
    boolVch, vchTrue, CastToBool, verifyBareWitness, hwp, hp2sh, verifyP2SH,
    EvalScript_OP_RETURN C flags checker _ _ (show rest.length < MAX_SCRIPT_SIZE by simp [MAX_SCRIPT_SIZE]; omega),
    Exec.fail]

/-- Any scriptSig that pushes a script with the CP2SH hash spends the output,
with the output's color: the redeem script itself never runs. -/
theorem VerifyScript_CP2SH_reveal {cid : ColorIdentifier} (hcid : cid.type.IsToken) {R : CScript}
    (hR : 2 ≤ R.length ∧ R.length ≤ 75) :
    VerifyScript C flags checker (pushData R) (GetScriptForDestination (.colorScriptID (C.hash160 R) cid)) []
      ColorIdentifier.none = .ok cid := by
  have hlen := ColorIdentifier.serialize_length hcid
  have hid := (C.hash160 R).length_eq
  have hwp : (GetScriptForDestination (.colorScriptID (C.hash160 R) cid)).IsWitnessProgram = none := by
    simp [GetScriptForDestination_colorScriptID hcid, CScript.IsWitnessProgram, hlen, hid, COLOR_IDENTIFIER_SIZE]
  have hp2sh : (GetScriptForDestination (.colorScriptID (C.hash160 R) cid)).IsPayToScriptHash = false := by
    simp [GetScriptForDestination_colorScriptID hcid, CScript.IsPayToScriptHash, hlen, hid, COLOR_IDENTIFIER_SIZE]
  simp [VerifyScript, IsPushOnly_pushData hR, EvalScript_pushData C flags checker hR,
    EvalScript_colorScriptID C flags checker hcid, boolVch, vchTrue, CastToBool, verifyBareWitness, hwp, hp2sh,
    verifyFinal]

end ScriptHash

/-- The redeem script `OP_RETURN OP_RETURN` fails, the uncolored P2SH output
with its hash refuses the reveal, and the CP2SH output accepts it. -/
theorem VerifyScript_CP2SH_reveal_OP_RETURN :
    (sampleColor.type.IsToken ∧ 2 ≤ [OP_RETURN, OP_RETURN].length ∧ [OP_RETURN, OP_RETURN].length ≤ 75) ∧
      VerifyScript zeroCrypto 0 BaseSignatureChecker.base (pushData [OP_RETURN, OP_RETURN])
          (GetScriptForDestination (.colorScriptID (zeroCrypto.hash160 [OP_RETURN, OP_RETURN]) sampleColor)) []
          ColorIdentifier.none = .ok sampleColor ∧
      EvalScript zeroCrypto 0 BaseSignatureChecker.base .BASE [] [OP_RETURN, OP_RETURN] none = Exec.fail .OP_RETURN ∧
      VerifyScript zeroCrypto 0 BaseSignatureChecker.base (pushData [OP_RETURN, OP_RETURN])
          (GetScriptForDestination (.scriptID (zeroCrypto.hash160 [OP_RETURN, OP_RETURN]))) [] ColorIdentifier.none =
        Exec.fail .OP_RETURN :=
  ⟨⟨by decide, by decide, by decide⟩,
    VerifyScript_CP2SH_reveal zeroCrypto 0 BaseSignatureChecker.base (by decide) (by decide),
    EvalScript_OP_RETURN zeroCrypto 0 BaseSignatureChecker.base .BASE [] (by decide) none,
    VerifyScript_scriptID_reveal_OP_RETURN zeroCrypto 0 BaseSignatureChecker.base (by decide) ColorIdentifier.none⟩

end Tapyrus
