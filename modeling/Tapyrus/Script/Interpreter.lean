import Tapyrus.Script.Checks
import Tapyrus.Script.ColorScript
/-!
# EvalScript

`EvalScript` (`script/interpreter.cpp`), the stack machine every input's
scripts run on. The loop meets the instructions `ScriptOps` lists; each one is
checked (push size, operation count, disabled opcodes, `OP_CODESEPARATOR`
under `CONST_SCRIPTCODE`), then pushed, executed by the opcode switch, or
skipped in an unexecuted branch, and the stack size is checked after it.

A step can end the run three ways (`Halt`): `return set_error(...)`, an
exception (which the `try` around the loop turns into
`SCRIPT_ERR_MINIMALDATA` or `SCRIPT_ERR_UNKNOWN_ERROR`), or a failed
`assert`, which no handler catches. `decodeOpcode` is the case labels of the
switch: it groups the opcodes into the families the switch's arms handle.

Stacks are lists with the top first: `stacktop(-i)` is element `i - 1`.
-/

namespace Tapyrus

open Lib

/-- The exceptions the interpreter's helpers throw. -/
inductive ScriptException where
  | scriptnum (what : String)
  | runtime (what : String)
  deriving DecidableEq, Repr

/-- How a step stops the run. -/
inductive Halt where
  | fail (e : ScriptError)
  | raise (x : ScriptException)
  | abort
  deriving DecidableEq, Repr

abbrev Exec (α : Type) := Except Halt α

/-- The interpreter's state between instructions. -/
structure EvalState where
  stack : List (List UInt8)
  altstack : List (List UInt8)
  vfExec : List Bool
  nOpCount : Nat
  pbegincodehash : CScript
  /-- The `ColorIdentifier*` argument; `none` is a null pointer. -/
  colorId : Option ColorIdentifier
  deriving DecidableEq, Repr

namespace Exec

def fail {α : Type} (e : ScriptError) : Exec α := .error (.fail e)

/-- An `assert`: no handler catches its failure. -/
def assert (b : Bool) : Exec Unit := if b then .ok () else .error .abort

/-- A value under an `assert` (`none` when it fails). -/
def ofAssert {α : Type} : Option α → Exec α
  | some a => .ok a
  | none => .error .abort

/-- A `CScriptNum` constructor: its `scriptnum_error` is an exception. -/
def ofNum (r : Except String CScriptNum) : Exec CScriptNum :=
  match r with
  | .ok n => .ok n
  | .error what => .error (.raise (.scriptnum what))

/-- An encoding test: its error is the run's error. -/
def ofCheck (r : Except ScriptError Unit) : Exec Unit :=
  match r with
  | .ok () => .ok ()
  | .error e => .error (.fail e)

/-- A deserialization: its `ios_base::failure` is an exception. -/
def ofSer {α : Type} (r : Except SerError α) : Exec α :=
  match r with
  | .ok a => .ok a
  | .error (.iosFailure what) => .error (.raise (.runtime what))
  | .error (.runtimeError what) => .error (.raise (.runtime what))

end Exec

/-- `stacktop(-i)`, through `std::vector::at`. -/
def stacktop (stack : List (List UInt8)) (i : Nat) : Exec (List UInt8) :=
  match stack[i - 1]? with
  | some v => .ok v
  | none => .error (.raise (.runtime "vector::_M_range_check"))

/-- `popstack`. -/
def popstack (stack : List (List UInt8)) : Exec (List (List UInt8)) :=
  match stack with
  | [] => .error (.raise (.runtime "popstack(): stack empty"))
  | _ :: s => .ok s

def vchFalse : List UInt8 := []
def vchTrue : List UInt8 := [1]

def boolVch (b : Bool) : List UInt8 := if b then vchTrue else vchFalse

/-- `CScriptNum(b)` of a comparison result. -/
def boolNum (b : Bool) : CScriptNum := ⟨if b then 1 else 0⟩

/-- The families of the opcode switch. -/
inductive Instr where
  | pushNum | nop | checkLockTimeVerify | checkSequenceVerify | upgradableNop
  | ifNotIf | else_ | endif | verify | return_
  | toAltStack | fromAltStack | drop2 | dup2 | dup3 | over2 | rot2 | swap2
  | ifdup | depth | drop | dup | nip | over | pickRoll | rot | swap | tuck | size
  | equal | unaryNum | binaryNum | within | hash | codeSeparator
  | checkSig | checkDataSig | checkMultiSig | color | bad
  deriving DecidableEq, Repr

/-- The case labels of the switch. -/
def decodeOpcode (o : opcodetype) : Instr :=
  if o = OP_1NEGATE || (OP_1 ≤ o && o ≤ OP_16) then .pushNum
  else if o = OP_NOP then .nop
  else if o = OP_CHECKLOCKTIMEVERIFY then .checkLockTimeVerify
  else if o = OP_CHECKSEQUENCEVERIFY then .checkSequenceVerify
  else if o = OP_NOP1 || (OP_NOP4 ≤ o && o ≤ OP_NOP10) then .upgradableNop
  else if o = OP_IF || o = OP_NOTIF then .ifNotIf
  else if o = OP_ELSE then .else_
  else if o = OP_ENDIF then .endif
  else if o = OP_VERIFY then .verify
  else if o = OP_RETURN then .return_
  else if o = OP_TOALTSTACK then .toAltStack
  else if o = OP_FROMALTSTACK then .fromAltStack
  else if o = OP_2DROP then .drop2
  else if o = OP_2DUP then .dup2
  else if o = OP_3DUP then .dup3
  else if o = OP_2OVER then .over2
  else if o = OP_2ROT then .rot2
  else if o = OP_2SWAP then .swap2
  else if o = OP_IFDUP then .ifdup
  else if o = OP_DEPTH then .depth
  else if o = OP_DROP then .drop
  else if o = OP_DUP then .dup
  else if o = OP_NIP then .nip
  else if o = OP_OVER then .over
  else if o = OP_PICK || o = OP_ROLL then .pickRoll
  else if o = OP_ROT then .rot
  else if o = OP_SWAP then .swap
  else if o = OP_TUCK then .tuck
  else if o = OP_SIZE then .size
  else if o = OP_EQUAL || o = OP_EQUALVERIFY then .equal
  else if o = OP_1ADD || o = OP_1SUB || o = OP_NEGATE || o = OP_ABS || o = OP_NOT || o = OP_0NOTEQUAL then
    .unaryNum
  else if o = OP_ADD || o = OP_SUB || (OP_BOOLAND ≤ o && o ≤ OP_MAX) then .binaryNum
  else if o = OP_WITHIN then .within
  else if OP_RIPEMD160 ≤ o && o ≤ OP_HASH256 then .hash
  else if o = OP_CODESEPARATOR then .codeSeparator
  else if o = OP_CHECKSIG || o = OP_CHECKSIGVERIFY then .checkSig
  else if o = OP_CHECKDATASIG || o = OP_CHECKDATASIGVERIFY then .checkDataSig
  else if o = OP_CHECKMULTISIG || o = OP_CHECKMULTISIGVERIFY then .checkMultiSig
  else if o = OP_COLOR then .color
  else .bad

/-- The opcodes rejected as disabled before the switch. -/
def IsDisabledOpcode (o : opcodetype) : Bool :=
  o == OP_CAT || o == OP_SUBSTR || o == OP_LEFT || o == OP_RIGHT || o == OP_INVERT || o == OP_AND ||
    o == OP_OR || o == OP_XOR || o == OP_2MUL || o == OP_2DIV || o == OP_MUL || o == OP_DIV ||
    o == OP_MOD || o == OP_LSHIFT || o == OP_RSHIFT

/-- Every disabled opcode is `OP_CAT` or above, so no push is disabled. -/
theorem IsDisabledOpcode_of_lt {o : opcodetype} (h : o.toNat < OP_CAT.toNat) : IsDisabledOpcode o = false := by
  simp only [IsDisabledOpcode, Bool.or_eq_false_iff, beq_eq_false_iff_ne, ne_eq, ← UInt8.toNat_inj]
  simp only [OP_CAT, OP_SUBSTR, OP_LEFT, OP_RIGHT, OP_INVERT, OP_AND, OP_OR, OP_XOR, OP_2MUL, OP_2DIV, OP_MUL,
    OP_DIV, OP_MOD, OP_LSHIFT, OP_RSHIFT, UInt8.reduceToNat] at h ⊢
  omega

section Arms

variable (C : Crypto) (flags : UInt32) (checker : BaseSignatureChecker) (sigversion : SigVersion)

/-- `OP_1ADD` .. `OP_0NOTEQUAL` on their operand. -/
def unaryNumOp (opcode : opcodetype) (bn : CScriptNum) : Exec CScriptNum :=
  if opcode = OP_1ADD then Exec.ofAssert (bn.addAssign 1)
  else if opcode = OP_1SUB then Exec.ofAssert (bn.subAssign 1)
  else if opcode = OP_NEGATE then Exec.ofAssert bn.neg
  else if opcode = OP_ABS then (if bn.m_value < 0 then Exec.ofAssert bn.neg else .ok bn)
  else if opcode = OP_NOT then .ok (boolNum (bn.m_value == 0))
  else .ok (boolNum (bn.m_value != 0))

/-- `OP_ADD` .. `OP_MAX` on their operands (`operator+` and `operator-`
carry no assert). -/
def binaryNumOp (opcode : opcodetype) (bn1 bn2 : CScriptNum) : CScriptNum :=
  if opcode = OP_ADD then ⟨bn1.m_value + bn2.m_value⟩
  else if opcode = OP_SUB then ⟨bn1.m_value - bn2.m_value⟩
  else if opcode = OP_BOOLAND then boolNum (bn1.m_value != 0 && bn2.m_value != 0)
  else if opcode = OP_BOOLOR then boolNum (bn1.m_value != 0 || bn2.m_value != 0)
  else if opcode = OP_NUMEQUAL || opcode = OP_NUMEQUALVERIFY then boolNum (bn1.m_value == bn2.m_value)
  else if opcode = OP_NUMNOTEQUAL then boolNum (bn1.m_value != bn2.m_value)
  else if opcode = OP_LESSTHAN then boolNum (decide (bn1.m_value < bn2.m_value))
  else if opcode = OP_GREATERTHAN then boolNum (decide (bn1.m_value > bn2.m_value))
  else if opcode = OP_LESSTHANOREQUAL then boolNum (decide (bn1.m_value ≤ bn2.m_value))
  else if opcode = OP_GREATERTHANOREQUAL then boolNum (decide (bn1.m_value ≥ bn2.m_value))
  else if opcode = OP_MIN then (if bn1.m_value < bn2.m_value then bn1 else bn2)
  else (if bn1.m_value > bn2.m_value then bn1 else bn2)

/-- `OP_RIPEMD160` .. `OP_HASH256`. -/
def hashOp (opcode : opcodetype) (vch : List UInt8) : List UInt8 :=
  if opcode = OP_RIPEMD160 then (C.ripemd160 vch).bytes
  else if opcode = OP_SHA1 then (C.sha1 vch).bytes
  else if opcode = OP_SHA256 then (C.sha256 vch).bytes
  else if opcode = OP_HASH160 then (C.hash160 vch).bytes
  else (C.hash256 vch).bytes

/-- The signature test of `OP_CHECKSIG` and of each round of
`OP_CHECKMULTISIG`: Schnorr for 65 bytes, ECDSA otherwise, then the key. -/
def checkSigEncodings (vchSig vchPubKey : List UInt8) : Exec Unit := do
  Exec.ofCheck (if vchSig.length = COMPACT_SIGNATURE_SIZE then CheckSchnorrSignatureEncoding vchSig
    else CheckECDSASignatureEncoding C vchSig)
  Exec.ofCheck (CheckPubKeyEncoding vchPubKey flags sigversion)

/-- `FindAndDelete` of a signature's push in base scripts, refused under
`CONST_SCRIPTCODE` when it finds one. -/
def dropSignature (scriptCode : CScript) (vchSig : List UInt8) : Exec CScript :=
  if sigversion = .BASE then
    let (sc, found) := FindAndDelete scriptCode (pushData vchSig)
    if found > 0 && hasFlag flags SCRIPT_VERIFY_CONST_SCRIPTCODE then Exec.fail .SIG_FINDANDDELETE else .ok sc
  else .ok scriptCode

/-- The signature loop of `OP_CHECKMULTISIG`, with signature and key
positions `isig`, `ikey` counted from the top; returns `fSuccess`. It recurses
on the keys left: `nSigsCount ≤ nKeysCount` holds at every round (the
`SIG_COUNT` check, then the early exit), so no round starts without a key. -/
def multisigLoop (stack : List (List UInt8)) (scriptCode : CScript) (currentSchnorr : Bool) :
    Nat → Nat → Nat → Nat → Exec Bool
  | _, _, _, 0 => .ok true
  | isig, ikey, nSigsCount, nKeysCount + 1 =>
    if nSigsCount = 0 then .ok true else do
      let vchSig ← stacktop stack isig
      let vchPubKey ← stacktop stack ikey
      checkSigEncodings C flags sigversion vchSig vchPubKey
      if decide (vchSig.length = COMPACT_SIGNATURE_SIZE) != currentSchnorr then Exec.fail .MIXED_SCHEME_MULTISIG
      else
        let fOk := checker.CheckSig vchSig vchPubKey scriptCode sigversion
        let isig' := if fOk then isig + 1 else isig
        let nSigsCount' := if fOk then nSigsCount - 1 else nSigsCount
        if nSigsCount' > nKeysCount then .ok false
        else multisigLoop stack scriptCode currentSchnorr isig' (ikey + 1) nSigsCount' nKeysCount

/-- The clean-up loop `while (i-- > 1)`: pop `i - 1` arguments; with
`NULLFAIL`, a failed check needs the signatures (the items once `ikey2`
reaches zero) to be empty. -/
def multisigCleanup (fSuccess : Bool) : Nat → Nat → List (List UInt8) → Exec (List (List UInt8))
  | 0, _, stack => .ok stack
  | 1, _, stack => .ok stack
  | i + 2, ikey2, stack => do
    if !fSuccess && hasFlag flags SCRIPT_VERIFY_NULLFAIL && ikey2 = 0 then
      let top ← stacktop stack 1
      if top.length > 0 then Exec.fail .SIG_NULLFAIL else .ok ()
    let stack ← popstack stack
    multisigCleanup fSuccess (i + 1) (ikey2 - 1) stack

/-- `OP_CHECKMULTISIG` and `OP_CHECKMULTISIGVERIFY`. -/
def checkMultiSigOp (opcode : opcodetype) (st : EvalState) : Exec EvalState := do
  let stack := st.stack
  if stack.length < 1 then Exec.fail .INVALID_STACK_OPERATION else
  let nKeysCount := (← Exec.ofNum (CScriptNum.ofVch (← stacktop stack 1) true)).getint
  if nKeysCount < 0 || nKeysCount > MAX_PUBKEYS_PER_MULTISIG then Exec.fail .PUBKEY_COUNT else
  let nKeys := nKeysCount.toNat
  let nOpCount := st.nOpCount + nKeys
  if nOpCount > MAX_OPS_PER_SCRIPT then Exec.fail .OP_COUNT else
  let ikey := 2
  let ikey2 := nKeys + 2
  let i := 2 + nKeys
  if stack.length < i then Exec.fail .INVALID_STACK_OPERATION else
  let nSigsCount := (← Exec.ofNum (CScriptNum.ofVch (← stacktop stack i) true)).getint
  if nSigsCount < 0 || nSigsCount > nKeysCount then Exec.fail .SIG_COUNT else
  let nSigs := nSigsCount.toNat
  let isig := i + 1
  let i := isig + nSigs
  if stack.length < i then Exec.fail .INVALID_STACK_OPERATION else
  let scriptCode ← (List.range nSigs).foldlM
    (fun sc k => do dropSignature flags sigversion sc (← stacktop stack (isig + k))) st.pbegincodehash
  let currentSchnorr := decide ((← stacktop stack isig).length = COMPACT_SIGNATURE_SIZE)
  let fSuccess ← multisigLoop C flags checker sigversion stack scriptCode currentSchnorr isig ikey nSigs nKeys
  let stack ← multisigCleanup flags fSuccess i ikey2 stack
  if stack.length < 1 then Exec.fail .INVALID_STACK_OPERATION else
  if (← stacktop stack 1).length > 0 then Exec.fail .SIG_NULLDUMMY else
  let stack ← popstack stack
  let stack := boolVch fSuccess :: stack
  if opcode = OP_CHECKMULTISIGVERIFY then
    if fSuccess then .ok { st with stack := ← popstack stack, nOpCount := nOpCount }
    else Exec.fail .CHECKMULTISIGVERIFY
  else .ok { st with stack := stack, nOpCount := nOpCount }

/-- The stack shuffles, with the stack diagrams of their comments read top
first: the new stack, or `none` when too few items are there. -/
def shuffleStack : Instr → List (List UInt8) → Option (List (List UInt8))
  | .drop2, _ :: _ :: s => some s
  | .dup2, a :: b :: s => some (a :: b :: a :: b :: s)
  | .dup3, a :: b :: c :: s => some (a :: b :: c :: a :: b :: c :: s)
  | .over2, a :: b :: c :: d :: s => some (c :: d :: a :: b :: c :: d :: s)
  -- `erase(end-6, end-4)`, then push the two erased items
  | .rot2, a :: b :: c :: d :: e :: f :: s => some (e :: f :: a :: b :: c :: d :: s)
  | .swap2, a :: b :: c :: d :: s => some (c :: d :: a :: b :: s)
  | .ifdup, a :: s => some (if CastToBool a then a :: a :: s else a :: s)
  | .drop, _ :: s => some s
  | .dup, a :: s => some (a :: a :: s)
  | .nip, a :: _ :: s => some (a :: s)
  | .over, a :: b :: s => some (b :: a :: b :: s)
  | .rot, a :: b :: c :: s => some (c :: a :: b :: s)
  | .swap, a :: b :: s => some (b :: a :: s)
  | .tuck, a :: b :: s => some (a :: b :: a :: s)
  | _, _ => none

/-- `OP_CHECKLOCKTIMEVERIFY` and `OP_CHECKSEQUENCEVERIFY`: a 5-byte operand,
left on the stack. -/
def checkLockOp (opcode : opcodetype) (st : EvalState) : Exec EvalState :=
  match st.stack with
  | [] => Exec.fail .INVALID_STACK_OPERATION
  | top :: _ => do
    let n ← Exec.ofNum (CScriptNum.ofVch top true 5)
    if n.m_value < 0 then Exec.fail .NEGATIVE_LOCKTIME
    else if opcode = OP_CHECKLOCKTIMEVERIFY then
      if checker.CheckLockTime n then .ok st else Exec.fail .UNSATISFIED_LOCKTIME
    -- the disable flag turns `OP_CHECKSEQUENCEVERIFY` into a NOP
    else if n.m_value.toNat &&& SEQUENCE_LOCKTIME_DISABLE_FLAG.toNat ≠ 0 then .ok st
    else if checker.CheckSequence n then .ok st else Exec.fail .UNSATISFIED_LOCKTIME

/-- `OP_IF` and `OP_NOTIF`. In an unexecuted branch the condition is not
read and the new branch is off. -/
def ifOp (opcode : opcodetype) (fExec : Bool) (st : EvalState) : Exec EvalState :=
  if !fExec then .ok { st with vfExec := false :: st.vfExec } else
  match st.stack with
  | [] => Exec.fail .UNBALANCED_CONDITIONAL
  | vch :: s =>
    if sigversion = .WITNESS_V0 && hasFlag flags SCRIPT_VERIFY_MINIMALIF &&
        (vch.length > 1 || (vch.length = 1 && vch.headD 0 != 1)) then Exec.fail .MINIMALIF
    else
      let fValue := if opcode = OP_NOTIF then !CastToBool vch else CastToBool vch
      .ok { st with stack := s, vfExec := fValue :: st.vfExec }

/-- `OP_PICK` and `OP_ROLL`: the item `n` below the popped operand. -/
def pickRollOp (opcode : opcodetype) (st : EvalState) : Exec EvalState :=
  match st.stack with
  | top :: s@(_ :: _) => do
    let n := (← Exec.ofNum (CScriptNum.ofVch top true)).getint
    if n < 0 || n ≥ s.length then Exec.fail .INVALID_STACK_OPERATION else
    let vch ← stacktop s (n.toNat + 1)
    .ok { st with stack := vch :: (if opcode = OP_ROLL then s.eraseIdx n.toNat else s) }
  | _ => Exec.fail .INVALID_STACK_OPERATION

/-- `OP_EQUAL` and `OP_EQUALVERIFY`; the `VERIFY` form pops the result it
pushed. -/
def equalOp (opcode : opcodetype) (st : EvalState) : Exec EvalState :=
  match st.stack with
  | vch2 :: vch1 :: s =>
    let fEqual := vch1 == vch2
    if opcode = OP_EQUALVERIFY then
      if fEqual then .ok { st with stack := s } else Exec.fail .EQUALVERIFY
    else .ok { st with stack := boolVch fEqual :: s }
  | _ => Exec.fail .INVALID_STACK_OPERATION

/-- The unary numeric opcodes on a 4-byte operand. -/
def unaryNumArm (opcode : opcodetype) (st : EvalState) : Exec EvalState :=
  match st.stack with
  | top :: s => do
    let bn ← unaryNumOp opcode (← Exec.ofNum (CScriptNum.ofVch top true))
    .ok { st with stack := bn.getvch :: s }
  | [] => Exec.fail .INVALID_STACK_OPERATION

/-- The binary numeric opcodes; `OP_NUMEQUALVERIFY` pops its true result. -/
def binaryNumArm (opcode : opcodetype) (st : EvalState) : Exec EvalState :=
  match st.stack with
  | x2 :: x1 :: s => do
    let bn1 ← Exec.ofNum (CScriptNum.ofVch x1 true)
    let bn2 ← Exec.ofNum (CScriptNum.ofVch x2 true)
    let bn := binaryNumOp opcode bn1 bn2
    if opcode = OP_NUMEQUALVERIFY then
      if CastToBool bn.getvch then .ok { st with stack := s } else Exec.fail .NUMEQUALVERIFY
    else .ok { st with stack := bn.getvch :: s }
  | _ => Exec.fail .INVALID_STACK_OPERATION

/-- `OP_WITHIN`: `min ≤ x < max`. -/
def withinOp (st : EvalState) : Exec EvalState :=
  match st.stack with
  | x3 :: x2 :: x1 :: s => do
    let bn1 ← Exec.ofNum (CScriptNum.ofVch x1 true)
    let bn2 ← Exec.ofNum (CScriptNum.ofVch x2 true)
    let bn3 ← Exec.ofNum (CScriptNum.ofVch x3 true)
    .ok { st with stack := boolVch (decide (bn2.m_value ≤ bn1.m_value) && decide (bn1.m_value < bn3.m_value)) :: s }
  | _ => Exec.fail .INVALID_STACK_OPERATION

/-- `OP_CHECKSIG` and `OP_CHECKSIGVERIFY`, over the script from the last
`OP_CODESEPARATOR`. -/
def checkSigOp (opcode : opcodetype) (st : EvalState) : Exec EvalState :=
  match st.stack with
  | vchPubKey :: vchSig :: s => do
    let scriptCode ← dropSignature flags sigversion st.pbegincodehash vchSig
    checkSigEncodings C flags sigversion vchSig vchPubKey
    let fSuccess := checker.CheckSig vchSig vchPubKey scriptCode sigversion
    if !fSuccess && hasFlag flags SCRIPT_VERIFY_NULLFAIL && vchSig.length > 0 then Exec.fail .SIG_NULLFAIL
    else if opcode = OP_CHECKSIGVERIFY then
      if fSuccess then .ok { st with stack := s } else Exec.fail .CHECKSIGVERIFY
    else .ok { st with stack := boolVch fSuccess :: s }
  | _ => Exec.fail .INVALID_STACK_OPERATION

/-- `OP_CHECKDATASIG` and `OP_CHECKDATASIGVERIFY`: a signature without
hashtype over the SHA256 of the message. A 64-byte signature skips the ECDSA
encoding test. -/
def checkDataSigOp (opcode : opcodetype) (st : EvalState) : Exec EvalState :=
  match st.stack with
  | vchPubKey :: vchMessage :: vchSig :: s => do
    if vchSig.length ≠ COMPACT_SIGNATURE_SIZE - 1 then Exec.ofCheck (CheckECDSASignatureEncoding C vchSig true)
    Exec.ofCheck (CheckPubKeyEncoding vchPubKey flags sigversion)
    let fSuccess := vchSig.length > 0 && checker.VerifySignature vchSig vchPubKey (C.sha256 vchMessage)
    if !fSuccess && hasFlag flags SCRIPT_VERIFY_NULLFAIL && vchSig.length > 0 then Exec.fail .SIG_NULLFAIL
    else if opcode = OP_CHECKDATASIGVERIFY then
      if fSuccess then .ok { st with stack := s } else Exec.fail .CHECKDATASIGVERIFY
    else .ok { st with stack := boolVch fSuccess :: s }
  | _ => Exec.fail .INVALID_STACK_OPERATION

/-- `OP_COLOR`: read the color from the top item into `*colorId`. Refused
without a color pointer (a P2SH redeem script), once a color is set, and
inside a branch. -/
def colorOp (st : EvalState) : Exec EvalState :=
  match st.colorId with
  | none => Exec.fail .OP_COLOR_UNEXPECTED
  | some colorId =>
    if colorId.type ≠ .NONE then Exec.fail .OP_COLORMULTIPLE
    else if !st.vfExec.isEmpty then Exec.fail .OP_COLORINBRANCH
    else match st.stack with
      | [] => Exec.fail .INVALID_STACK_OPERATION
      | vchColorid :: s => do
        let colorId' ← Exec.ofSer ((StateT.run (colorId.unserializeInto) vchColorid).map Prod.fst)
        if vchColorid.length = COLOR_IDENTIFIER_SIZE && colorId'.type.IsToken then
          .ok { st with stack := s, colorId := some colorId' }
        else Exec.fail .OP_COLORID_INVALID

/-- The opcode switch, with `pc` the script after the opcode. -/
def execInstr (opcode : opcodetype) (pc : CScript) (fExec : Bool) (st : EvalState) : Exec EvalState :=
  match decodeOpcode opcode with
  | .pushNum => .ok { st with stack := CScriptNum.serialize ((opcode.toNat : Int) - (OP_1.toNat - 1 : Nat)) :: st.stack }
  | .nop => .ok st
  | .checkLockTimeVerify | .checkSequenceVerify => checkLockOp checker opcode st
  | .upgradableNop =>
    if hasFlag flags SCRIPT_VERIFY_DISCOURAGE_UPGRADABLE_NOPS then Exec.fail .DISCOURAGE_UPGRADABLE_NOPS else .ok st
  | .ifNotIf => ifOp flags sigversion opcode fExec st
  | .else_ =>
    match st.vfExec with
    | [] => Exec.fail .UNBALANCED_CONDITIONAL
    | b :: bs => .ok { st with vfExec := (!b) :: bs }
  | .endif =>
    match st.vfExec with
    | [] => Exec.fail .UNBALANCED_CONDITIONAL
    | _ :: bs => .ok { st with vfExec := bs }
  | .verify =>
    match st.stack with
    | [] => Exec.fail .INVALID_STACK_OPERATION
    | top :: s => if CastToBool top then .ok { st with stack := s } else Exec.fail .VERIFY
  | .return_ => Exec.fail .OP_RETURN
  | .toAltStack =>
    match st.stack with
    | [] => Exec.fail .INVALID_STACK_OPERATION
    | top :: s => .ok { st with stack := s, altstack := top :: st.altstack }
  | .fromAltStack =>
    match st.altstack with
    | [] => Exec.fail .INVALID_ALTSTACK_OPERATION
    | top :: s => .ok { st with stack := top :: st.stack, altstack := s }
  | .drop2 | .dup2 | .dup3 | .over2 | .rot2 | .swap2 | .ifdup | .drop | .dup | .nip | .over | .rot | .swap
  | .tuck =>
    match shuffleStack (decodeOpcode opcode) st.stack with
    | some s => .ok { st with stack := s }
    | none => Exec.fail .INVALID_STACK_OPERATION
  | .depth => .ok { st with stack := CScriptNum.serialize st.stack.length :: st.stack }
  | .pickRoll => pickRollOp opcode st
  | .size =>
    match st.stack with
    | [] => Exec.fail .INVALID_STACK_OPERATION
    | top :: _ => .ok { st with stack := CScriptNum.serialize top.length :: st.stack }
  | .equal => equalOp opcode st
  | .unaryNum => unaryNumArm opcode st
  | .binaryNum => binaryNumArm opcode st
  | .within => withinOp st
  | .hash =>
    match st.stack with
    | [] => Exec.fail .INVALID_STACK_OPERATION
    | top :: s => .ok { st with stack := hashOp C opcode top :: s }
  -- the script code of later signature checks starts after the separator
  | .codeSeparator => .ok { st with pbegincodehash := pc }
  | .checkSig => checkSigOp C flags checker sigversion opcode st
  | .checkDataSig => checkDataSigOp C flags checker sigversion opcode st
  | .checkMultiSig => checkMultiSigOp C flags checker sigversion opcode st
  | .color => colorOp st
  | .bad => Exec.fail .BAD_OPCODE

/-- One round of the loop: the checks every instruction passes, executed or
not, then the push, the switch, or nothing in an unexecuted branch (where
`OP_IF` .. `OP_ENDIF` still run), then the stack size. -/
def step (op : ScriptOp) (st : EvalState) : Exec EvalState := do
  let opcode := op.opcode
  let fExec := !st.vfExec.contains false
  if op.data.length > MAX_SCRIPT_ELEMENT_SIZE then Exec.fail .PUSH_SIZE else
  -- `OP_RESERVED` does not count towards the limit
  let nOpCount := if opcode > OP_16 then st.nOpCount + 1 else st.nOpCount
  if nOpCount > MAX_OPS_PER_SCRIPT then Exec.fail .OP_COUNT else
  if IsDisabledOpcode opcode then Exec.fail .DISABLED_OPCODE else
  if opcode = OP_CODESEPARATOR && sigversion = .BASE && hasFlag flags SCRIPT_VERIFY_CONST_SCRIPTCODE then
    Exec.fail .OP_CODESEPARATOR else
  let st := { st with nOpCount := nOpCount }
  let st ←
    if fExec && opcode ≤ OP_PUSHDATA4 then do
      if !(← Exec.ofAssert (CheckMinimalPush op.data opcode)) then Exec.fail .MINIMALDATA
      else pure { st with stack := op.data :: st.stack }
    else if fExec || (OP_IF ≤ opcode && opcode ≤ OP_ENDIF) then
      execInstr C flags checker sigversion opcode op.rest fExec st
    else pure st
  if st.stack.length + st.altstack.length > MAX_STACK_SIZE then Exec.fail .STACK_SIZE else pure st

/-- The loop over the decoded instructions. -/
def evalOps : List ScriptOp → EvalState → Exec EvalState
  | [], st => .ok st
  | op :: ops, st => step C flags checker sigversion op st >>= evalOps ops

end Arms

/-- The `catch` clauses around the loop; a failed `assert` passes through. -/
def catchScriptException : Halt → Halt
  | .raise (.scriptnum what) => .fail (if what = CScriptNum.NON_MINIMAL then .MINIMALDATA else .UNKNOWN_ERROR)
  | .raise (.runtime _) => .fail .UNKNOWN_ERROR
  | h => h

/-- The `try` block: the loop from the initial state. An undecodable
instruction stops it with `BAD_OPCODE` once the instructions before it have
run. -/
def evalTry (C : Crypto) (flags : UInt32) (checker : BaseSignatureChecker) (sigversion : SigVersion)
    (stack : List (List UInt8)) (script : CScript) (colorId : Option ColorIdentifier) : Exec EvalState := do
  let st ← evalOps C flags checker sigversion (ScriptOps script).1 ⟨stack, [], [], 0, script, colorId⟩
  if (ScriptOps script).2 then Exec.fail .BAD_OPCODE else .ok st

/-- `EvalScript`: the final stack and color, or how the run stopped. -/
def EvalScript (C : Crypto) (flags : UInt32) (checker : BaseSignatureChecker) (sigversion : SigVersion)
    (stack : List (List UInt8)) (script : CScript) (colorId : Option ColorIdentifier) :
    Exec (List (List UInt8) × Option ColorIdentifier) :=
  if script.length > MAX_SCRIPT_SIZE then Exec.fail .SCRIPT_SIZE else
  match evalTry C flags checker sigversion stack script colorId with
  | .ok st => if !st.vfExec.isEmpty then Exec.fail .UNBALANCED_CONDITIONAL else .ok (st.stack, st.colorId)
  | .error h => .error (catchScriptException h)

end Tapyrus
