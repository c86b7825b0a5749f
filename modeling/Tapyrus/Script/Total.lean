import Tapyrus.Lib.Avoids
import Tapyrus.Script.Verify
/-!
# The interpreter fails only through its error channel

`EvalScript` and `VerifyScript` end, on every input, by returning a result
or a `ScriptError`: no `assert` fails and no exception leaves them. Lean
functions are total, so termination is given; the content is that neither
`.abort` nor an uncaught `.raise` is a possible result.

Inside `EvalScript` exceptions are caught, so the property needed of each
step is only that it never aborts (`Avoids Halt.IsAbort`). Three asserts
could fire in the loop:

* `CheckMinimalPush` asserts a push opcode; the loop calls it on pushes only;
* `+=`, `-=` and unary minus on a `CScriptNum` assert no `int64_t`
  overflow; the operands are read from at most four bytes, so they are below
  `2^31` (`ofVch_natAbs_lt`);

and one in `VerifyScript`: the P2SH branch asserts a non-empty stack, which
holds because the P2SH script `OP_HASH160 <h> OP_EQUAL` fails on an empty one.
-/

namespace Tapyrus

open Lib

/-- The run stopped by a failed `assert`. -/
def Halt.IsAbort (h : Halt) : Prop := h = .abort

@[simp] theorem Halt.isAbort_fail (e : ScriptError) : ¬ (Halt.fail e).IsAbort := by
  simp [Halt.IsAbort]

@[simp] theorem Halt.isAbort_raise (x : ScriptException) : ¬ (Halt.raise x).IsAbort := by
  simp [Halt.IsAbort]

/-- The run stopped other than by reporting a `ScriptError`. -/
def Halt.Crash : Halt → Prop
  | .fail _ => False
  | _ => True

/-! ## The helpers never abort -/

section Helpers

variable {α : Type}

@[simp] theorem avoids_fail (e : ScriptError) : Avoids Halt.IsAbort (Exec.fail e : Exec α) := by
  simp [Exec.fail]

@[simp] theorem avoids_ofNum (r : Except String CScriptNum) : Avoids Halt.IsAbort (Exec.ofNum r) := by
  cases r <;> simp [Exec.ofNum]

@[simp] theorem avoids_ofCheck (r : Except ScriptError Unit) : Avoids Halt.IsAbort (Exec.ofCheck r) := by
  cases r <;> simp [Exec.ofCheck]

@[simp] theorem avoids_ofSer (r : Except SerError α) : Avoids Halt.IsAbort (Exec.ofSer r) := by
  rcases r with (_ | _) | _ <;> simp [Exec.ofSer]

@[simp] theorem avoids_stacktop (stack : List (List UInt8)) (i : Nat) : Avoids Halt.IsAbort (stacktop stack i) := by
  unfold stacktop
  split <;> simp

@[simp] theorem avoids_popstack (stack : List (List UInt8)) : Avoids Halt.IsAbort (popstack stack) := by
  cases stack <;> simp [popstack]

theorem ofNum_eq_ok {r : Except String CScriptNum} {n : CScriptNum} (h : Exec.ofNum r = .ok n) : r = .ok n := by
  cases r with
  | error e => cases h
  | ok a => cases h; rfl

end Helpers

/-! ## Each arm of the switch never aborts -/

section Arms

variable (C : Crypto) (flags : UInt32) (checker : BaseSignatureChecker) (sigversion : SigVersion)

/-- The one arm with asserts: its operand came from at most four bytes. -/
theorem unaryNumOp_avoids (opcode : opcodetype) {bn : CScriptNum} (h : bn.m_value.natAbs < 2 ^ 31) :
    Avoids Halt.IsAbort (unaryNumOp opcode bn) := by
  have h1 : (1 : Int).natAbs < 2 ^ 31 := by norm_num
  unfold unaryNumOp
  split_ifs <;>
    simp [CScriptNum.addAssign_of_lt h h1, CScriptNum.subAssign_of_lt h h1, CScriptNum.neg_of_lt h, Exec.ofAssert]

@[simp] theorem unaryNumArm_avoids (opcode : opcodetype) (st : EvalState) :
    Avoids Halt.IsAbort (unaryNumArm opcode st) := by
  unfold unaryNumArm
  split
  · refine avoids_bind (avoids_ofNum _) (fun bn hbn => ?_)
    have hlt : bn.m_value.natAbs < 2 ^ 31 := CScriptNum.ofVch_natAbs_lt (ofNum_eq_ok hbn)
    exact avoids_bind (unaryNumOp_avoids opcode hlt) (fun _ _ => avoids_ok _)
  · simp

@[simp] theorem checkLockOp_avoids (opcode : opcodetype) (st : EvalState) :
    Avoids Halt.IsAbort (checkLockOp checker opcode st) := by
  unfold checkLockOp
  split <;> simp

@[simp] theorem ifOp_avoids (opcode : opcodetype) (fExec : Bool) (st : EvalState) :
    Avoids Halt.IsAbort (ifOp flags sigversion opcode fExec st) := by
  unfold ifOp
  split
  · simp
  · split <;> simp

@[simp] theorem pickRollOp_avoids (opcode : opcodetype) (st : EvalState) :
    Avoids Halt.IsAbort (pickRollOp opcode st) := by
  unfold pickRollOp
  split <;> simp

@[simp] theorem equalOp_avoids (opcode : opcodetype) (st : EvalState) :
    Avoids Halt.IsAbort (equalOp opcode st) := by
  unfold equalOp
  split <;> simp

@[simp] theorem binaryNumArm_avoids (opcode : opcodetype) (st : EvalState) :
    Avoids Halt.IsAbort (binaryNumArm opcode st) := by
  unfold binaryNumArm
  split <;> simp

@[simp] theorem withinOp_avoids (st : EvalState) : Avoids Halt.IsAbort (withinOp st) := by
  unfold withinOp
  split <;> simp

@[simp] theorem checkSigEncodings_avoids (vchSig vchPubKey : List UInt8) :
    Avoids Halt.IsAbort (checkSigEncodings C flags sigversion vchSig vchPubKey) := by
  simp [checkSigEncodings]

@[simp] theorem dropSignature_avoids (scriptCode : CScript) (vchSig : List UInt8) :
    Avoids Halt.IsAbort (dropSignature flags sigversion scriptCode vchSig) := by
  unfold dropSignature
  split_ifs <;> simp

@[simp] theorem checkSigOp_avoids (opcode : opcodetype) (st : EvalState) :
    Avoids Halt.IsAbort (checkSigOp C flags checker sigversion opcode st) := by
  unfold checkSigOp
  split <;> simp

@[simp] theorem checkDataSigOp_avoids (opcode : opcodetype) (st : EvalState) :
    Avoids Halt.IsAbort (checkDataSigOp C flags checker sigversion opcode st) := by
  unfold checkDataSigOp
  split <;> simp

/-- The signature loop, by induction on the keys left. -/
@[simp] theorem multisigLoop_avoids (stack : List (List UInt8)) (scriptCode : CScript) (currentSchnorr : Bool)
    (isig ikey nSigsCount nKeysCount : Nat) :
    Avoids Halt.IsAbort
      (multisigLoop C flags checker sigversion stack scriptCode currentSchnorr isig ikey nSigsCount nKeysCount) := by
  induction nKeysCount generalizing isig ikey nSigsCount with
  | zero => simp [multisigLoop]
  | succ nKeysCount ih => simp [multisigLoop, ih]

/-- The clean-up loop, by induction on the arguments left to pop. -/
@[simp] theorem multisigCleanup_avoids (fSuccess : Bool) (i ikey2 : Nat) (stack : List (List UInt8)) :
    Avoids Halt.IsAbort (multisigCleanup flags fSuccess i ikey2 stack) := by
  induction i generalizing ikey2 stack with
  | zero => simp [multisigCleanup]
  | succ i ih =>
    cases i with
    | zero => simp [multisigCleanup]
    | succ i => simp [multisigCleanup, ih]

@[simp] theorem checkMultiSigOp_avoids (opcode : opcodetype) (st : EvalState) :
    Avoids Halt.IsAbort (checkMultiSigOp C flags checker sigversion opcode st) := by
  unfold checkMultiSigOp
  simp [avoids_foldlM]

@[simp] theorem colorOp_avoids (st : EvalState) : Avoids Halt.IsAbort (colorOp st) := by
  unfold colorOp
  split
  · simp
  · split_ifs
    · simp
    · simp
    · split <;> simp

theorem execInstr_avoids (opcode : opcodetype) (pc : CScript) (fExec : Bool) (st : EvalState) :
    Avoids Halt.IsAbort (execInstr C flags checker sigversion opcode pc fExec st) := by
  unfold execInstr
  -- the arms with a body of their own have their lemma; the others may match on a stack
  split <;> (try split) <;> simp

/-- The push branch calls `CheckMinimalPush` on push opcodes only. -/
theorem CheckMinimalPush_isSome {data : List UInt8} {opcode : opcodetype} (h : opcode ≤ OP_PUSHDATA4) :
    (CheckMinimalPush data opcode).isSome := by
  have : ¬ OP_PUSHDATA4 < opcode := by
    rw [UInt8.lt_iff_toNat_lt]; rw [UInt8.le_iff_toNat_le] at h; omega
  simp [CheckMinimalPush, this]

theorem step_avoids (op : ScriptOp) (st : EvalState) :
    Avoids Halt.IsAbort (step C flags checker sigversion op st) := by
  unfold step
  -- the checks before the switch report errors; what is left is the push and the switch
  simp
  refine fun _ _ _ _ => ⟨fun _ hpush => ?_, fun _ _ => execInstr_avoids C flags checker sigversion _ _ _ _⟩
  obtain ⟨b, hb⟩ := Option.isSome_iff_exists.1 (@CheckMinimalPush_isSome op.data _ hpush)
  simp [hb, Exec.ofAssert]

/-- The run lemma: no loop over decoded instructions aborts. -/
theorem evalOps_avoids (ops : List ScriptOp) (st : EvalState) :
    Avoids Halt.IsAbort (evalOps C flags checker sigversion ops st) := by
  induction ops generalizing st with
  | nil => exact avoids_ok st
  | cons op ops ih => exact avoids_bind (step_avoids C flags checker sigversion op st) (fun st' _ => ih st')

end Arms

/-! ## EvalScript and VerifyScript settle -/

@[simp] theorem Halt.not_crash_fail (e : ScriptError) : ¬ (Halt.fail e).Crash := by
  simp [Halt.Crash]

@[simp] theorem avoids_crash_fail {α : Type} (e : ScriptError) : Avoids Halt.Crash (Exec.fail e : Exec α) := by
  simp [Exec.fail]

/-- The `catch` clauses leave only a failed assertion uncaught. -/
theorem catchScriptException_not_crash {h : Halt} (hh : ¬ h.IsAbort) : ¬ (catchScriptException h).Crash := by
  rcases h with e | (what | what) | _
  · simp [catchScriptException]
  · simp only [catchScriptException]
    split_ifs <;> simp
  · simp [catchScriptException]
  · exact absurd rfl hh

section Settles

variable (C : Crypto) (flags : UInt32) (checker : BaseSignatureChecker)

theorem evalTry_avoids (sigversion : SigVersion) (stack : List (List UInt8)) (script : CScript)
    (colorId : Option ColorIdentifier) :
    Avoids Halt.IsAbort (evalTry C flags checker sigversion stack script colorId) :=
  avoids_bind (evalOps_avoids C flags checker sigversion _ _) (fun _ _ => by split_ifs <;> simp)

@[simp] theorem EvalScript_settles (sigversion : SigVersion) (stack : List (List UInt8)) (script : CScript)
    (colorId : Option ColorIdentifier) :
    Avoids Halt.Crash (EvalScript C flags checker sigversion stack script colorId) := by
  unfold EvalScript
  split_ifs
  · simp
  · split
    · split_ifs <;> simp
    · rename_i h hrun
      simpa using catchScriptException_not_crash (evalTry_avoids C flags checker sigversion _ _ _ h hrun)

/-! ### The P2SH assert -/

theorem decodeOpcode_HASH160 : decodeOpcode OP_HASH160 = .hash := by decide

theorem IsPayToScriptHash_cons {script : CScript} (h : script.IsPayToScriptHash) :
    ∃ rest, script = OP_HASH160 :: rest := by
  cases script with
  | nil => simp [CScript.IsPayToScriptHash] at h
  | cons b rest =>
    simp only [CScript.IsPayToScriptHash, Bool.and_eq_true, beq_iff_eq] at h
    obtain ⟨⟨⟨-, hb⟩, -⟩, -⟩ := h
    simp only [List.getElem?_cons_zero, Option.some.injEq] at hb
    exact ⟨rest, by rw [hb]⟩

/-- A P2SH script starts with `OP_HASH160`, which fails on an empty stack:
so the stack the P2SH branch restores is not empty. -/
theorem EvalScript_P2SH_nil {script : CScript} (h : script.IsPayToScriptHash) (sigversion : SigVersion)
    (colorId : Option ColorIdentifier) :
    EvalScript C flags checker sigversion [] script colorId = Exec.fail .INVALID_STACK_OPERATION := by
  obtain ⟨rest, rfl⟩ := IsPayToScriptHash_cons h
  have hop := GetScriptOp_nonpush rest (show OP_PUSHDATA4 < OP_HASH160 by decide)
  have hsize : ¬ MAX_SCRIPT_SIZE ≤ rest.length := by
    simp [CScript.IsPayToScriptHash] at h
    simp [MAX_SCRIPT_SIZE]; omega
  -- the first round: counted, enabled, executed, not a push; `OP_HASH160` finds no item
  have h16 : OP_16 < OP_HASH160 := by decide
  have hcount : ¬ MAX_OPS_PER_SCRIPT < 1 := by decide
  have hdis : IsDisabledOpcode OP_HASH160 = false := by decide
  have hsep : OP_HASH160 ≠ OP_CODESEPARATOR := by decide
  have hpush : ¬ OP_HASH160 ≤ OP_PUSHDATA4 := by decide
  simp [EvalScript, evalTry, ScriptOps_of_GetScriptOp hop, evalOps, step, execInstr, decodeOpcode_HASH160,
    hsize, h16, hcount, hdis, hsep, hpush, Exec.fail, catchScriptException]

/-! ### VerifyScript -/

@[simp] theorem witnessV0Script_settles (witness : List (List UInt8)) (program : List UInt8) :
    Avoids Halt.Crash (witnessV0Script C witness program) := by
  unfold witnessV0Script
  split_ifs
  · split <;> simp
  · simp
  · simp
  · simp

@[simp] theorem VerifyWitnessProgram_settles (witness : List (List UInt8)) (witversion : Nat)
    (program : List UInt8) : Avoids Halt.Crash (VerifyWitnessProgram C flags checker witness witversion program) := by
  unfold VerifyWitnessProgram
  split_ifs
  · simp
  · simp
  · refine avoids_bind (witnessV0Script_settles C _ _) (fun ⟨stack, scriptPubKey⟩ _ => ?_)
    simp only
    split_ifs
    · simp
    · refine avoids_bind (EvalScript_settles C flags checker _ _ _ _) (fun ⟨stack', _⟩ _ => ?_)
      simp only
      split
      · split_ifs <;> simp
      · simp

@[simp] theorem verifyWitnessBranch_settles (witness : List (List UInt8)) (scriptSigOk : Bool)
    (malleated : ScriptError) (witversion : Nat) (program : List UInt8) (stack : List (List UInt8)) :
    Avoids Halt.Crash (verifyWitnessBranch C flags checker witness scriptSigOk malleated witversion program stack) := by
  unfold verifyWitnessBranch
  split_ifs <;> simp

/-- The P2SH branch, on a non-empty restored stack. -/
theorem verifyP2SH_settles (scriptSig : CScript) (witness : List (List UInt8)) {stackCopy : List (List UInt8)}
    (hne : stackCopy ≠ []) (hadWitness : Bool) :
    Avoids Halt.Crash (verifyP2SH C flags checker scriptSig witness stackCopy hadWitness) := by
  unfold verifyP2SH
  split_ifs
  · simp
  · obtain ⟨pubKeySerialized, stack, rfl⟩ := List.exists_cons_of_ne_nil hne
    refine avoids_bind (EvalScript_settles C flags checker _ _ _ _) (fun ⟨stack', _⟩ _ => ?_)
    simp only
    split
    · simp
    · split_ifs
      · simp
      · split <;> simp

@[simp] theorem verifyBareWitness_settles (scriptSig scriptPubKey : CScript) (witness stack : List (List UInt8)) :
    Avoids Halt.Crash (verifyBareWitness C flags checker scriptSig scriptPubKey witness stack) := by
  unfold verifyBareWitness
  split <;> simp

@[simp] theorem verifyFinal_settles (witness : List (List UInt8)) (colorId : ColorIdentifier) (hadWitness : Bool)
    (stack : List (List UInt8)) : Avoids Halt.Crash (verifyFinal flags witness colorId hadWitness stack) := by
  unfold verifyFinal
  split_ifs <;> simp

/-- `VerifyScript` returns a color or reports a `ScriptError`. -/
theorem VerifyScript_settles (scriptSig scriptPubKey : CScript) (witness : List (List UInt8))
    (colorId : ColorIdentifier) :
    Avoids Halt.Crash (VerifyScript C flags checker scriptSig scriptPubKey witness colorId) := by
  unfold VerifyScript
  split
  · simp
  · refine avoids_bind (EvalScript_settles C flags checker _ _ _ _) (fun ⟨stackCopy, color⟩ _ => ?_)
    refine avoids_bind (EvalScript_settles C flags checker _ _ _ _) (fun ⟨stack, color'⟩ hpub => ?_)
    simp only
    split
    · simp
    · split
      · simp
      · refine avoids_bind (verifyBareWitness_settles C flags checker _ _ _ _) (fun ⟨hadWitness, stack'⟩ _ => ?_)
        split
        · -- the P2SH script ran on the scriptSig's stack and did not fail there
          rename_i hp2sh
          have hne : stackCopy ≠ [] := by
            rintro rfl
            rw [EvalScript_P2SH_nil C flags checker hp2sh] at hpub
            cases hpub
          exact avoids_bind (verifyP2SH_settles C flags checker _ _ hne _) (fun _ _ => verifyFinal_settles flags _ _ _ _)
        · simp

end Settles

/-- A run that avoids crashing returns a value or reports a `ScriptError`. -/
theorem avoids_crash_iff {α : Type} (x : Exec α) :
    Avoids Halt.Crash x ↔ (∃ a, x = .ok a) ∨ ∃ e, x = .error (.fail e) := by
  cases x with
  | ok a => simp
  | error h => cases h <;> simp [Halt.Crash]

theorem EvalScript_VerifyScript_settle (C : Crypto) (flags : UInt32) (checker : BaseSignatureChecker) :
    (∀ sigversion stack script colorId,
      (∃ r, EvalScript C flags checker sigversion stack script colorId = .ok r) ∨
        ∃ e, EvalScript C flags checker sigversion stack script colorId = .error (.fail e)) ∧
    (∀ scriptSig scriptPubKey witness colorId,
      (∃ c, VerifyScript C flags checker scriptSig scriptPubKey witness colorId = .ok c) ∨
        ∃ e, VerifyScript C flags checker scriptSig scriptPubKey witness colorId = .error (.fail e)) := by
  constructor
  · intro sigversion stack script colorId
    exact (avoids_crash_iff _).1 (EvalScript_settles C flags checker sigversion stack script colorId)
  · intro scriptSig scriptPubKey witness colorId
    exact (avoids_crash_iff _).1 (VerifyScript_settles C flags checker scriptSig scriptPubKey witness colorId)

end Tapyrus
