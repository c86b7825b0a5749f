import Tapyrus.Script.Interpreter
/-!
# VerifyScript

`VerifyScript` and `VerifyWitnessProgram` (`script/interpreter.cpp`): the
scriptSig runs, then the scriptPubKey on the stack it left, both with the
input's color pointer; a bare or P2SH-wrapped witness program then runs its
witness, and a 23-byte P2SH script runs the redeem script the scriptSig
pushed last, without a color pointer.

A witness is its `stack` vector, bottom first. The result is the color the
runs set (`colorId` is an out-parameter of the code), or how verification
stopped.
-/

namespace Tapyrus

open Lib

def WITNESS_V0_SCRIPTHASH_SIZE : Nat := 32
def WITNESS_V0_KEYHASH_SIZE : Nat := 20

section Verify

variable (C : Crypto) (flags : UInt32) (checker : BaseSignatureChecker)

/-- The version 0 program's stack (top first) and script: the witness script
itself for a 32-byte program, the P2PKH template for a 20-byte one. -/
def witnessV0Script (witness : List (List UInt8)) (program : List UInt8) :
    Exec (List (List UInt8) × CScript) :=
  if program.length = WITNESS_V0_SCRIPTHASH_SIZE then
    match witness.getLast? with
    | none => Exec.fail .WITNESS_PROGRAM_WITNESS_EMPTY
    | some scriptPubKey =>
      if (C.sha256 scriptPubKey).bytes ≠ program then Exec.fail .WITNESS_PROGRAM_MISMATCH
      else .ok (witness.dropLast.reverse, scriptPubKey)
  else if program.length = WITNESS_V0_KEYHASH_SIZE then
    if witness.length ≠ 2 then Exec.fail .WITNESS_PROGRAM_MISMATCH
    else .ok (witness.reverse, [OP_DUP, OP_HASH160] ++ pushData program ++ [OP_EQUALVERIFY, OP_CHECKSIG])
  else Exec.fail .WITNESS_PROGRAM_WRONG_LENGTH

/-- `VerifyWitnessProgram`: higher versions succeed unless discouraged; a
version 0 run must end on exactly one true item. -/
def VerifyWitnessProgram (witness : List (List UInt8)) (witversion : Nat) (program : List UInt8) :
    Exec Unit :=
  if witversion ≠ 0 then
    if hasFlag flags SCRIPT_VERIFY_DISCOURAGE_UPGRADABLE_WITNESS_PROGRAM then
      Exec.fail .DISCOURAGE_UPGRADABLE_WITNESS_PROGRAM
    else .ok ()
  else do
    let (stack, scriptPubKey) ← witnessV0Script C witness program
    if stack.any (fun v => v.length > MAX_SCRIPT_ELEMENT_SIZE) then Exec.fail .PUSH_SIZE else
    let (stack, _) ← EvalScript C flags checker .WITNESS_V0 stack scriptPubKey none
    match stack with
    | [top] => if CastToBool top then .ok () else Exec.fail .EVAL_FALSE
    | _ => Exec.fail .CLEANSTACK

/-- A witness program run from `VerifyScript`, bare or in P2SH: under
`SCRIPT_VERIFY_WITNESS` the scriptSig must be exactly `scriptSigOk`, and the
witness must verify; then `stack.resize(1)` keeps the bottom item. -/
def verifyWitnessBranch (witness : List (List UInt8)) (scriptSigOk : Bool) (malleated : ScriptError)
    (witversion : Nat) (program : List UInt8) (stack : List (List UInt8)) : Exec (List (List UInt8)) :=
  if hasFlag flags SCRIPT_VERIFY_WITNESS then
    if !scriptSigOk then Exec.fail malleated
    else do
      VerifyWitnessProgram C flags checker witness witversion program
      .ok (stack.drop (stack.length - 1))
  else .ok (stack.drop (stack.length - 1))

/-- The P2SH branch: the scriptSig's own stack, its last push run as the
redeem script without a color pointer. Returns `hadWitness` and the stack. -/
def verifyP2SH (scriptSig : CScript) (witness : List (List UInt8)) (stackCopy : List (List UInt8))
    (hadWitness : Bool) : Exec (Bool × List (List UInt8)) :=
  if !scriptSig.IsPushOnly then Exec.fail .SIG_PUSHONLY else
  -- `assert(!stack.empty())` on the restored copy, then `popstack`
  match stackCopy with
  | [] => .error .abort
  | pubKeySerialized :: stack => do
    let (stack, _) ← EvalScript C flags checker .BASE stack pubKeySerialized none
    match stack with
    | [] => Exec.fail .EVAL_FALSE
    | top :: _ =>
      if !CastToBool top then Exec.fail .EVAL_FALSE else
      match CScript.IsWitnessProgram pubKeySerialized with
      | some (witversion, program) => do
        let stack ← verifyWitnessBranch C flags checker witness (scriptSig == pushData pubKeySerialized)
          .WITNESS_MALLEATED_P2SH witversion program stack
        .ok (true, stack)
      | none => .ok (hadWitness, stack)

/-- The bare witness program branch of `VerifyScript`: `hadWitness` and the
stack. -/
def verifyBareWitness (scriptSig scriptPubKey : CScript) (witness : List (List UInt8))
    (stack : List (List UInt8)) : Exec (Bool × List (List UInt8)) :=
  match scriptPubKey.IsWitnessProgram with
  | some (witversion, program) => do
    let stack ← verifyWitnessBranch C flags checker witness (scriptSig.length == 0) .WITNESS_MALLEATED
      witversion program stack
    .ok (true, stack)
  | none => .ok (false, stack)

/-- The checks after every run: a clean stack under `CLEANSTACK`, and no
witness that no witness program read. -/
def verifyFinal (witness : List (List UInt8)) (colorId : ColorIdentifier) (hadWitness : Bool)
    (stack : List (List UInt8)) : Exec ColorIdentifier :=
  if hasFlag flags SCRIPT_VERIFY_CLEANSTACK && stack.length ≠ 1 then Exec.fail .CLEANSTACK
  else if hasFlag flags SCRIPT_VERIFY_WITNESS && !hadWitness && !witness.isEmpty then
    Exec.fail .WITNESS_UNEXPECTED
  else .ok colorId

/-- `VerifyScript`, with the color the caller passes in `colorId`. -/
def VerifyScript (scriptSig scriptPubKey : CScript) (witness : List (List UInt8)) (colorId : ColorIdentifier) :
    Exec ColorIdentifier := do
  if hasFlag flags SCRIPT_VERIFY_SIGPUSHONLY && !scriptSig.IsPushOnly then Exec.fail .SIG_PUSHONLY else
  let (stack, color) ← EvalScript C flags checker .BASE [] scriptSig (some colorId)
  let stackCopy := stack
  let (stack, color) ← EvalScript C flags checker .BASE stack scriptPubKey color
  match stack with
  | [] => Exec.fail .EVAL_FALSE
  | top :: _ =>
    if !CastToBool top then Exec.fail .EVAL_FALSE else do
    let (hadWitness, stack) ← verifyBareWitness C flags checker scriptSig scriptPubKey witness stack
    let (hadWitness, stack) ←
      if scriptPubKey.IsPayToScriptHash then verifyP2SH C flags checker scriptSig witness stackCopy hadWitness
      else .ok (hadWitness, stack)
    -- both runs had the pointer, so they handed a color back
    verifyFinal flags witness (color.getD colorId) hadWitness stack

end Verify

end Tapyrus
