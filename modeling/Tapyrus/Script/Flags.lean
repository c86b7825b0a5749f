import Tapyrus.Script.Verify
import Tapyrus.Lib.OkLe
/-!
# Fewer flags, the same success

Every script verification flag the interpreter reads turns on one more
check that can only fail the run (`if (flags & F && ...) return
set_error(...)`); no flag lets a run pass that would fail without it, and
no flag changes what a passing run computes. So a run under flags `F` that
passes, passes with the same result under any `G` that sets no flag `F`
does not set (`FlagsLe G F`), `SCRIPT_VERIFY_NONE` among them.

Each helper that reads the flags has its lemma, stated with `OkLe`; the
opcode switch cites them (`execInstr_flags`), the loop is an induction over
the instructions (`evalOps_flags`), and `VerifyScript_flags` lifts the result
through the witness and P2SH branches.
-/

namespace Tapyrus

open Lib

/-- Every flag `G` sets, `F` sets: `G` asks for no check that `F` does not
ask for. -/
def FlagsLe (G F : UInt32) : Prop := ∀ f, hasFlag G f = true → hasFlag F f = true

theorem FlagsLe.none (F : UInt32) : FlagsLe SCRIPT_VERIFY_NONE F := by
  intro f h
  simp [hasFlag, SCRIPT_VERIFY_NONE] at h

/-- An encoding test under the stricter flags passes only where the laxer one does. -/
theorem ofCheck_okLe {a b : Except ScriptError Unit} (h : OkLe a b) : OkLe (Exec.ofCheck a) (Exec.ofCheck b) := by
  intro r hr
  cases ha : a with
  | error e =>
    rw [ha] at hr
    cases hr
  | ok u =>
    rw [ha] at hr
    rw [h u ha]
    exact hr

/-- A test that fails a run unless an optional check `X` passes: it is made
under the stricter condition whenever under the laxer one. -/
theorem OkLe.ite_check {c c' : Prop} [Decidable c] [Decidable c'] {X : Exec Unit} (hc : c' → c) :
    OkLe (if c then X else pure ()) (if c' then X else pure ()) := by
  intro r h
  by_cases h' : c'
  · rw [if_pos (hc h')] at h
    rwa [if_pos h']
  · rw [if_neg h']
    rfl

/-- One round of the clean-up loop: the `NULLFAIL` test, then the pop and
the rounds after it. -/
theorem multisigCleanup_succ_succ (flags : UInt32) (fSuccess : Bool) (i ikey2 : Nat) (stack : List (List UInt8)) :
    multisigCleanup flags fSuccess (i + 2) ikey2 stack =
      (if (!fSuccess && hasFlag flags SCRIPT_VERIFY_NULLFAIL && decide (ikey2 = 0)) = true then
        (do let top ← stacktop stack 1; if top.length > 0 then Exec.fail .SIG_NULLFAIL else .ok ())
      else pure ()) >>= fun _ => popstack stack >>= multisigCleanup flags fSuccess (i + 1) (ikey2 - 1) := by
  simp only [multisigCleanup]
  split
  · cases stacktop stack 1 with
    | error e => rfl
    | ok top =>
      show (if top.length > 0 then _ else _) = ((if top.length > 0 then Exec.fail .SIG_NULLFAIL else .ok ()) >>= _)
      split_ifs <;> rfl
  · rfl

section Helpers

variable (C : Crypto) (checker : BaseSignatureChecker) (sigversion : SigVersion) {G F : UInt32}
  (hGF : FlagsLe G F)
include hGF

theorem CheckPubKeyEncoding_flags (vchPubKey : List UInt8) :
    OkLe (CheckPubKeyEncoding vchPubKey F sigversion) (CheckPubKeyEncoding vchPubKey G sigversion) := by
  unfold CheckPubKeyEncoding
  refine OkLe.ite_error id fun _ => OkLe.ite_error (fun h => ?_) fun _ => OkLe.refl _
  simp only [Bool.and_eq_true] at h ⊢
  exact ⟨⟨hGF _ h.1.1, h.1.2⟩, h.2⟩

theorem checkSigEncodings_flags (vchSig vchPubKey : List UInt8) :
    OkLe (checkSigEncodings C F sigversion vchSig vchPubKey) (checkSigEncodings C G sigversion vchSig vchPubKey) :=
  OkLe.bind (OkLe.refl _) fun _ _ => ofCheck_okLe (CheckPubKeyEncoding_flags sigversion hGF vchPubKey)

theorem dropSignature_flags (scriptCode : CScript) (vchSig : List UInt8) :
    OkLe (dropSignature F sigversion scriptCode vchSig) (dropSignature G sigversion scriptCode vchSig) := by
  unfold dropSignature
  split
  · refine OkLe.ite_error (fun h => ?_) fun _ => OkLe.refl _
    simp only [Bool.and_eq_true] at h ⊢
    exact ⟨h.1, hGF _ h.2⟩
  · exact OkLe.refl _

theorem multisigLoop_flags (stack : List (List UInt8)) (scriptCode : CScript) (currentSchnorr : Bool)
    (nKeysCount : Nat) :
    ∀ isig ikey nSigsCount,
      OkLe (multisigLoop C F checker sigversion stack scriptCode currentSchnorr isig ikey nSigsCount nKeysCount)
        (multisigLoop C G checker sigversion stack scriptCode currentSchnorr isig ikey nSigsCount nKeysCount) := by
  induction nKeysCount with
  | zero => exact fun _ _ _ => OkLe.refl _
  | succ n ih =>
    intro isig ikey nSigsCount
    simp only [multisigLoop]
    split_ifs
    · exact OkLe.refl _
    -- the round's key and signature tests, then the next round
    refine OkLe.bind (OkLe.refl _) fun _ _ => OkLe.bind (OkLe.refl _) fun _ _ =>
      OkLe.bind (checkSigEncodings_flags C sigversion hGF _ _) fun _ _ => OkLe.ite_error id fun _ => ?_
    split_ifs <;> first | exact OkLe.refl _ | exact ih _ _ _

/-- The clean-up loop: `NULLFAIL` adds a test on the signatures. -/
theorem multisigCleanup_flags (fSuccess : Bool) (i : Nat) :
    ∀ ikey2 stack, OkLe (multisigCleanup F fSuccess i ikey2 stack) (multisigCleanup G fSuccess i ikey2 stack) := by
  induction i using Nat.strong_induction_on with
  | _ i ih =>
    intro ikey2 stack
    rcases i with _ | _ | i
    · exact OkLe.refl _
    · exact OkLe.refl _
    · rw [multisigCleanup_succ_succ, multisigCleanup_succ_succ]
      refine OkLe.bind ?_ fun _ _ => OkLe.bind (OkLe.refl _) fun _ _ => ih (i + 1) (by omega) _ _
      apply OkLe.ite_check
      intro h
      simp only [Bool.and_eq_true, decide_eq_true_eq] at h ⊢
      exact ⟨⟨h.1.1, hGF _ h.1.2⟩, h.2⟩

theorem checkMultiSigOp_flags (opcode : opcodetype) (st : EvalState) :
    OkLe (checkMultiSigOp C F checker sigversion opcode st) (checkMultiSigOp C G checker sigversion opcode st) := by
  unfold checkMultiSigOp
  dsimp only
  -- the key count, the operation count and the stack depth read no flag
  refine OkLe.ite_error id fun _ => ?_
  refine OkLe.bind (OkLe.refl _) fun _ _ => ?_
  refine OkLe.bind (OkLe.refl _) fun _ _ => ?_
  refine OkLe.ite_error id fun _ => ?_
  refine OkLe.ite_error id fun _ => ?_
  refine OkLe.ite_error id fun _ => ?_
  -- nor does the signature count
  refine OkLe.bind (OkLe.refl _) fun _ _ => ?_
  refine OkLe.bind (OkLe.refl _) fun _ _ => ?_
  refine OkLe.ite_error id fun _ => ?_
  refine OkLe.ite_error id fun _ => ?_
  -- the three steps that read the flags: the signatures dropped, the loop, the clean-up
  refine OkLe.bind (OkLe.foldlM (fun _ _ => OkLe.bind (OkLe.refl _) fun _ _ =>
    dropSignature_flags sigversion hGF _ _) _ _) fun _ _ => ?_
  refine OkLe.bind (OkLe.refl _) fun _ _ => ?_
  refine OkLe.bind (multisigLoop_flags C checker sigversion hGF _ _ _ _ _ _ _) fun _ _ => ?_
  exact OkLe.bind (multisigCleanup_flags hGF _ _ _ _) fun _ _ => OkLe.refl _

theorem ifOp_flags (opcode : opcodetype) (fExec : Bool) (st : EvalState) :
    OkLe (ifOp F sigversion opcode fExec st) (ifOp G sigversion opcode fExec st) := by
  unfold ifOp
  split
  · exact OkLe.refl _
  split
  · exact OkLe.refl _
  refine OkLe.ite_error ?_ fun _ => OkLe.refl _
  intro h
  simp only [Bool.and_eq_true] at h ⊢
  exact ⟨⟨h.1.1, hGF _ h.1.2⟩, h.2⟩

/-- The `NULLFAIL` test after a signature check: under the laxer flags it
fails only where it fails under the stricter ones. -/
theorem nullfail_flags {α : Type} (fSuccess : Bool) (n : Nat) (x : Exec α) :
    OkLe (if (!fSuccess && hasFlag F SCRIPT_VERIFY_NULLFAIL && decide (n > 0)) = true then Exec.fail .SIG_NULLFAIL
      else x)
      (if (!fSuccess && hasFlag G SCRIPT_VERIFY_NULLFAIL && decide (n > 0)) = true then Exec.fail .SIG_NULLFAIL
        else x) := by
  refine OkLe.ite_error ?_ fun _ => OkLe.refl _
  intro h
  simp only [Bool.and_eq_true] at h ⊢
  exact ⟨⟨h.1.1, hGF _ h.1.2⟩, h.2⟩

theorem checkSigOp_flags (opcode : opcodetype) (st : EvalState) :
    OkLe (checkSigOp C F checker sigversion opcode st) (checkSigOp C G checker sigversion opcode st) := by
  unfold checkSigOp
  split
  · refine OkLe.bind (dropSignature_flags sigversion hGF _ _) fun _ _ => ?_
    exact OkLe.bind (checkSigEncodings_flags C sigversion hGF _ _) fun _ _ => nullfail_flags hGF _ _ _
  · exact OkLe.refl _

theorem checkDataSigOp_flags (opcode : opcodetype) (st : EvalState) :
    OkLe (checkDataSigOp C F checker sigversion opcode st) (checkDataSigOp C G checker sigversion opcode st) := by
  unfold checkDataSigOp
  split
  · dsimp only
    -- the ECDSA encoding test, for a signature that is not 64 bytes, reads no flag
    split
    · refine OkLe.bind (OkLe.refl _) fun _ _ => ?_
      exact OkLe.bind (ofCheck_okLe (CheckPubKeyEncoding_flags sigversion hGF _)) fun _ _ => nullfail_flags hGF _ _ _
    · exact OkLe.bind (ofCheck_okLe (CheckPubKeyEncoding_flags sigversion hGF _)) fun _ _ => nullfail_flags hGF _ _ _
  · exact OkLe.refl _

/-- The opcode switch: the arms that read no flag are the same on both
sides; the others have their lemma. -/
theorem execInstr_flags (opcode : opcodetype) (pc : CScript) (fExec : Bool) (st : EvalState) :
    OkLe (execInstr C F checker sigversion opcode pc fExec st) (execInstr C G checker sigversion opcode pc fExec st) := by
  unfold execInstr
  split <;> first
    | exact ifOp_flags sigversion hGF opcode fExec st
    | exact checkSigOp_flags C checker sigversion hGF opcode st
    | exact checkDataSigOp_flags C checker sigversion hGF opcode st
    | exact checkMultiSigOp_flags C checker sigversion hGF opcode st
    | exact OkLe.ite_error (hGF _) fun _ => OkLe.refl _
    | exact OkLe.refl _

/-- One round of the loop: the `CONST_SCRIPTCODE` test on
`OP_CODESEPARATOR`, then the instruction. -/
theorem step_flags (op : ScriptOp) (st : EvalState) :
    OkLe (step C F checker sigversion op st) (step C G checker sigversion op st) := by
  unfold step
  dsimp only
  refine OkLe.ite_error id fun _ => ?_
  refine OkLe.ite_error id fun _ => ?_
  refine OkLe.ite_error id fun _ => ?_
  refine OkLe.ite_error ?_ fun _ => ?_
  · intro h
    simp only [Bool.and_eq_true] at h ⊢
    exact ⟨h.1, hGF _ h.2⟩
  -- the stack size test is copied into each branch; only the switch reads the flags
  split
  · exact OkLe.refl _
  split
  · exact OkLe.bind (execInstr_flags C checker sigversion hGF _ _ _ _) fun _ _ => OkLe.refl _
  · exact OkLe.refl _

/-- The loop, by induction on the instructions. -/
theorem evalOps_flags (ops : List ScriptOp) (st : EvalState) :
    OkLe (evalOps C F checker sigversion ops st) (evalOps C G checker sigversion ops st) := by
  induction ops generalizing st with
  | nil => exact OkLe.refl _
  | cons op ops ih => exact OkLe.bind (step_flags C checker sigversion hGF op st) fun st' _ => ih st'

theorem evalTry_flags (stack : List (List UInt8)) (script : CScript) (colorId : Option ColorIdentifier) :
    OkLe (evalTry C F checker sigversion stack script colorId) (evalTry C G checker sigversion stack script colorId) :=
  OkLe.bind (evalOps_flags C checker sigversion hGF _ _) fun _ _ => OkLe.refl _

theorem EvalScript_flags (stack : List (List UInt8)) (script : CScript) (colorId : Option ColorIdentifier) :
    OkLe (EvalScript C F checker sigversion stack script colorId)
      (EvalScript C G checker sigversion stack script colorId) := by
  unfold EvalScript
  refine OkLe.ite_error id fun _ => ?_
  -- the catch clauses keep a halted run halted, so only a passing run carries over
  intro r h
  cases hF : evalTry C F checker sigversion stack script colorId with
  | error e =>
    rw [hF] at h
    cases h
  | ok st =>
    rw [hF] at h
    rw [evalTry_flags C checker sigversion hGF stack script colorId st hF]
    exact h

end Helpers

section Verify

variable (C : Crypto) (checker : BaseSignatureChecker) {G F : UInt32} (hGF : FlagsLe G F)
include hGF

theorem VerifyWitnessProgram_flags (witness : List (List UInt8)) (witversion : Nat) (program : List UInt8) :
    OkLe (VerifyWitnessProgram C F checker witness witversion program)
      (VerifyWitnessProgram C G checker witness witversion program) := by
  unfold VerifyWitnessProgram
  split
  · exact OkLe.ite_error (hGF _) fun _ => OkLe.refl _
  · refine OkLe.bind (OkLe.refl _) fun x _ => ?_
    obtain ⟨stack, scriptPubKey⟩ := x
    refine OkLe.ite_error id fun _ => ?_
    exact OkLe.bind (EvalScript_flags C checker .WITNESS_V0 hGF _ _ _) fun _ _ => OkLe.refl _

theorem verifyWitnessBranch_flags (witness : List (List UInt8)) (scriptSigOk : Bool) (malleated : ScriptError)
    (witversion : Nat) (program : List UInt8) (stack : List (List UInt8)) :
    OkLe (verifyWitnessBranch C F checker witness scriptSigOk malleated witversion program stack)
      (verifyWitnessBranch C G checker witness scriptSigOk malleated witversion program stack) := by
  unfold verifyWitnessBranch
  by_cases hG : hasFlag G SCRIPT_VERIFY_WITNESS = true
  · rw [if_pos (hGF _ hG), if_pos hG]
    exact OkLe.ite_error id fun _ =>
      OkLe.bind (VerifyWitnessProgram_flags C checker hGF _ _ _) fun _ _ => OkLe.refl _
  -- a witness the laxer flags do not ask about is not verified, and the stack is cut the same way
  · rw [if_neg hG]
    split
    · exact OkLe.ite_skip fun _ => OkLe.bind_skip _ _
    · exact OkLe.refl _

theorem verifyP2SH_flags (scriptSig : CScript) (witness stackCopy : List (List UInt8)) (hadWitness : Bool) :
    OkLe (verifyP2SH C F checker scriptSig witness stackCopy hadWitness)
      (verifyP2SH C G checker scriptSig witness stackCopy hadWitness) := by
  unfold verifyP2SH
  refine OkLe.ite_error id fun _ => ?_
  rcases stackCopy with _ | ⟨pubKeySerialized, stack⟩
  · exact OkLe.refl _
  refine OkLe.bind (EvalScript_flags C checker .BASE hGF _ _ _) fun x _ => ?_
  obtain ⟨stack₁, _⟩ := x
  rcases stack₁ with _ | ⟨top, _⟩
  · exact OkLe.refl _
  refine OkLe.ite_error id fun _ => ?_
  split
  · exact OkLe.bind (verifyWitnessBranch_flags C checker hGF _ _ _ _ _ _) fun _ _ => OkLe.refl _
  · exact OkLe.refl _

theorem verifyBareWitness_flags (scriptSig scriptPubKey : CScript) (witness stack : List (List UInt8)) :
    OkLe (verifyBareWitness C F checker scriptSig scriptPubKey witness stack)
      (verifyBareWitness C G checker scriptSig scriptPubKey witness stack) := by
  unfold verifyBareWitness
  split
  · exact OkLe.bind (verifyWitnessBranch_flags C checker hGF _ _ _ _ _ _) fun _ _ => OkLe.refl _
  · exact OkLe.refl _

theorem verifyFinal_flags (witness : List (List UInt8)) (colorId : ColorIdentifier) (hadWitness : Bool)
    (stack : List (List UInt8)) :
    OkLe (verifyFinal F witness colorId hadWitness stack) (verifyFinal G witness colorId hadWitness stack) := by
  unfold verifyFinal
  refine OkLe.ite_error ?_ fun _ => ?_
  · intro h
    simp only [Bool.and_eq_true] at h ⊢
    exact ⟨hGF _ h.1, h.2⟩
  refine OkLe.ite_error ?_ fun _ => OkLe.refl _
  intro h
  simp only [Bool.and_eq_true] at h ⊢
  exact ⟨⟨hGF _ h.1.1, h.1.2⟩, h.2⟩

/-- `VerifyScript` under the laxer flags passes, with the same color,
wherever it passes under the stricter ones. -/
theorem VerifyScript_flags (scriptSig scriptPubKey : CScript) (witness : List (List UInt8))
    (colorId : ColorIdentifier) :
    OkLe (VerifyScript C F checker scriptSig scriptPubKey witness colorId)
      (VerifyScript C G checker scriptSig scriptPubKey witness colorId) := by
  unfold VerifyScript
  refine OkLe.ite_error ?_ fun _ => ?_
  · intro h
    simp only [Bool.and_eq_true] at h ⊢
    exact ⟨hGF _ h.1, h.2⟩
  -- the scriptSig, then the scriptPubKey on the stack it left
  refine OkLe.bind (EvalScript_flags C checker .BASE hGF _ _ _) fun x _ => ?_
  obtain ⟨stack, color⟩ := x
  refine OkLe.bind (EvalScript_flags C checker .BASE hGF _ _ _) fun y _ => ?_
  obtain ⟨stack₁, color₁⟩ := y
  rcases stack₁ with _ | ⟨top, rest⟩
  · exact OkLe.refl _
  refine OkLe.ite_error id fun _ => ?_
  -- the witness program, bare or behind P2SH, and the final checks
  refine OkLe.bind (verifyBareWitness_flags C checker hGF _ _ _ _) fun z _ => ?_
  obtain ⟨hadWitness, stack₂⟩ := z
  dsimp only
  -- both branches rejoin the final checks
  split
  · refine OkLe.bind (verifyP2SH_flags C checker hGF _ _ _ _) fun w _ => ?_
    obtain ⟨hadWitness₁, stack₃⟩ := w
    exact verifyFinal_flags hGF _ _ _ _
  · exact OkLe.bind (OkLe.refl _) fun _ _ => verifyFinal_flags hGF _ _ _ _

end Verify

/-- The flags are compared bit by bit: no flag against `CLEANSTACK` and
`NULLFAIL`, on a script that pushes true. -/
theorem VerifyScript_flags_none :
    FlagsLe SCRIPT_VERIFY_NONE (SCRIPT_VERIFY_CLEANSTACK ||| SCRIPT_VERIFY_NULLFAIL) ∧
      OkLe (VerifyScript ⟨fun _ => Blob.zero 32, fun _ => Blob.zero 20, fun _ => Blob.zero 20, fun _ => true⟩
          (SCRIPT_VERIFY_CLEANSTACK ||| SCRIPT_VERIFY_NULLFAIL) BaseSignatureChecker.base [] [OP_1] []
          ColorIdentifier.none)
        (VerifyScript ⟨fun _ => Blob.zero 32, fun _ => Blob.zero 20, fun _ => Blob.zero 20, fun _ => true⟩
          SCRIPT_VERIFY_NONE BaseSignatureChecker.base [] [OP_1] [] ColorIdentifier.none) :=
  ⟨FlagsLe.none _, VerifyScript_flags _ _ (FlagsLe.none _) _ _ _ _⟩

end Tapyrus
