import Tapyrus.Script.ScriptNum
/-!
# What the interpreter checks and calls

The pieces of `script/interpreter.cpp` that `EvalScript` calls: the error
codes and verification flags, the signature checker it is handed, the
encoding tests on signatures and public keys, `CastToBool`,
`CheckMinimalPush` and `FindAndDelete`.

The hash functions and the secp256k1 low-S test are not embedded: `Crypto`
holds them, and every result about the interpreter holds for any values of
them. The signature checker is a parameter of the code itself
(`BaseSignatureChecker&`).

An encoding test that returns false sets the error it reports; where the code
returns false without setting one, the error in force is the
`SCRIPT_ERR_UNKNOWN_ERROR` that `EvalScript` set on entry, and the model
reports that.
-/

namespace Tapyrus

open Lib

/-- `ScriptError_t`. -/
inductive ScriptError where
  | OK | UNKNOWN_ERROR | EVAL_FALSE | OP_RETURN
  | SCRIPT_SIZE | PUSH_SIZE | OP_COUNT | STACK_SIZE | SIG_COUNT | PUBKEY_COUNT
  | VERIFY | EQUALVERIFY | CHECKMULTISIGVERIFY | CHECKSIGVERIFY | NUMEQUALVERIFY | CHECKDATASIGVERIFY
  | BAD_OPCODE | DISABLED_OPCODE | INVALID_STACK_OPERATION | INVALID_ALTSTACK_OPERATION
  | UNBALANCED_CONDITIONAL | MIXED_SCHEME_MULTISIG
  | NEGATIVE_LOCKTIME | UNSATISFIED_LOCKTIME
  | SIG_HASHTYPE | SIG_DER | MINIMALDATA | SIG_PUSHONLY | SIG_HIGH_S | SIG_NULLDUMMY | PUBKEYTYPE
  | CLEANSTACK | MINIMALIF | SIG_NULLFAIL
  | DISCOURAGE_UPGRADABLE_NOPS | DISCOURAGE_UPGRADABLE_WITNESS_PROGRAM
  | WITNESS_PROGRAM_WRONG_LENGTH | WITNESS_PROGRAM_WITNESS_EMPTY | WITNESS_PROGRAM_MISMATCH
  | WITNESS_MALLEATED | WITNESS_MALLEATED_P2SH | WITNESS_UNEXPECTED | WITNESS_PUBKEYTYPE
  | OP_CODESEPARATOR | SIG_FINDANDDELETE
  | OP_COLOR_UNEXPECTED | OP_COLORID_INVALID | OP_COLORMULTIPLE | OP_COLORINBRANCH
  deriving DecidableEq, Repr

def SCRIPT_VERIFY_NONE : UInt32 := 0
def SCRIPT_VERIFY_SIGPUSHONLY : UInt32 := (1 : UInt32) <<< 0
def SCRIPT_VERIFY_DISCOURAGE_UPGRADABLE_NOPS : UInt32 := (1 : UInt32) <<< 1
def SCRIPT_VERIFY_CLEANSTACK : UInt32 := (1 : UInt32) <<< 2
def SCRIPT_VERIFY_WITNESS : UInt32 := (1 : UInt32) <<< 11
def SCRIPT_VERIFY_DISCOURAGE_UPGRADABLE_WITNESS_PROGRAM : UInt32 := (1 : UInt32) <<< 12
def SCRIPT_VERIFY_MINIMALIF : UInt32 := (1 : UInt32) <<< 13
def SCRIPT_VERIFY_NULLFAIL : UInt32 := (1 : UInt32) <<< 14
def SCRIPT_VERIFY_WITNESS_PUBKEYTYPE : UInt32 := (1 : UInt32) <<< 15
def SCRIPT_VERIFY_CONST_SCRIPTCODE : UInt32 := (1 : UInt32) <<< 16

/-- `flags & f` is set. -/
def hasFlag (flags f : UInt32) : Bool := flags &&& f != 0

/-- `SigVersion`. -/
inductive SigVersion where
  | BASE
  | WITNESS_V0
  deriving DecidableEq, Repr

def SIGHASH_ALL : Nat := 1
def SIGHASH_SINGLE : Nat := 3
def SIGHASH_ANYONECANPAY : Nat := 0x80
def COMPRESSED_PUBLIC_KEY_SIZE : Nat := 33
def PUBLIC_KEY_SIZE : Nat := 65
def COMPACT_SIGNATURE_SIZE : Nat := 65

/-- The hash functions and the low-S test the interpreter calls. -/
structure Crypto where
  sha256 : List UInt8 → uint256
  sha1 : List UInt8 → uint160
  ripemd160 : List UInt8 → uint160
  /-- `CPubKey::CheckLowS` on a DER signature without its hash type. -/
  checkLowS : List UInt8 → Bool

/-- `CHash160`: RIPEMD-160 of SHA-256. -/
def Crypto.hash160 (C : Crypto) (x : List UInt8) : uint160 := C.ripemd160 (C.sha256 x).bytes

/-- `CHash256`: SHA-256 twice. -/
def Crypto.hash256 (C : Crypto) (x : List UInt8) : uint256 := C.sha256 (C.sha256 x).bytes

/-- `BaseSignatureChecker`: the four virtual checks. -/
structure BaseSignatureChecker where
  VerifySignature : List UInt8 → List UInt8 → uint256 → Bool
  CheckSig : List UInt8 → List UInt8 → CScript → SigVersion → Bool
  CheckLockTime : CScriptNum → Bool
  CheckSequence : CScriptNum → Bool

/-- `BaseSignatureChecker` itself: every check fails. -/
def BaseSignatureChecker.base : BaseSignatureChecker :=
  ⟨fun _ _ _ => false, fun _ _ _ _ => false, fun _ => false, fun _ => false⟩

/-- `CastToBool`: some byte is non-zero, other than a last `0x80` (negative
zero). -/
def CastToBool : List UInt8 → Bool
  | [] => false
  | [b] => b != 0 && b != 0x80
  | b :: bs => b != 0 || CastToBool bs

/-! ## Encodings -/

/-- `IsCompressedOrUncompressedPubKey`. -/
def IsCompressedOrUncompressedPubKey (v : List UInt8) : Bool :=
  if v.length < COMPRESSED_PUBLIC_KEY_SIZE then false
  else if v[0]? == some 0x04 then v.length == PUBLIC_KEY_SIZE
  else if v[0]? == some 0x02 || v[0]? == some 0x03 then v.length == COMPRESSED_PUBLIC_KEY_SIZE
  else false

/-- `IsCompressedPubKey`. -/
def IsCompressedPubKey (v : List UInt8) : Bool :=
  v.length == COMPRESSED_PUBLIC_KEY_SIZE && (v[0]? == some 0x02 || v[0]? == some 0x03)

/-- `IsValidSignatureEncoding`: strict DER, with a trailing hash-type byte
unless `dataSignature`. -/
def IsValidSignatureEncoding (sig : List UInt8) (dataSignature : Bool := false) : Bool :=
  let numparts := if dataSignature then 8 else 9
  let size := if dataSignature then 72 else 73
  let at_ (i : Nat) : Nat := (sig.getD i 0).toNat
  let lenR := at_ 3
  let lenS := at_ (5 + lenR)
  sig.length ≥ numparts && sig.length ≤ size && at_ 0 == 0x30 &&
    at_ 1 == sig.length - (if dataSignature then 2 else 3) &&
    5 + lenR < sig.length &&
    lenR + lenS + (if dataSignature then 6 else 7) == sig.length &&
    at_ 2 == 0x02 && lenR != 0 && at_ 4 &&& 0x80 == 0 &&
    !(lenR > 1 && at_ 4 == 0 && at_ 5 &&& 0x80 == 0) &&
    at_ (lenR + 4) == 0x02 && lenS != 0 && at_ (lenR + 6) &&& 0x80 == 0 &&
    !(lenS > 1 && at_ (lenR + 6) == 0 && at_ (lenR + 7) &&& 0x80 == 0)

/-- `IsLowDERSignature`. -/
def IsLowDERSignature (C : Crypto) (vchSig : List UInt8) (dataSignature : Bool := false) :
    Except ScriptError Unit :=
  if !IsValidSignatureEncoding vchSig dataSignature then .error .SIG_DER
  else
    let vchSigCopy := if dataSignature then vchSig else vchSig.dropLast
    if !C.checkLowS vchSigCopy then .error .SIG_HIGH_S else .ok ()

/-- `IsDefinedHashtypeSignature`. -/
def IsDefinedHashtypeSignature (vchSig : List UInt8) : Bool :=
  match vchSig.getLast? with
  | none => false
  | some last =>
    let nHashType := last.toNat &&& (0xff - SIGHASH_ANYONECANPAY)
    SIGHASH_ALL ≤ nHashType && nHashType ≤ SIGHASH_SINGLE

/-- `CheckSchnorrSignatureEncoding`; the wrong length returns false without
setting an error. -/
def CheckSchnorrSignatureEncoding (vchSig : List UInt8) (datasignature : Bool := false) :
    Except ScriptError Unit :=
  if vchSig.length ≠ (if datasignature then 64 else 65) then .error .UNKNOWN_ERROR
  else if !datasignature && !IsDefinedHashtypeSignature vchSig then .error .SIG_HASHTYPE
  else .ok ()

/-- `CheckECDSASignatureEncoding`: the empty signature passes. -/
def CheckECDSASignatureEncoding (C : Crypto) (vchSig : List UInt8) (datasignature : Bool := false) :
    Except ScriptError Unit :=
  if vchSig.isEmpty then .ok ()
  else if !IsValidSignatureEncoding vchSig datasignature then .error .SIG_DER
  else match IsLowDERSignature C vchSig datasignature with
    | .error e => .error e
    | .ok () => if !datasignature && !IsDefinedHashtypeSignature vchSig then .error .SIG_HASHTYPE else .ok ()

/-- `CheckPubKeyEncoding`. -/
def CheckPubKeyEncoding (vchPubKey : List UInt8) (flags : UInt32) (sigversion : SigVersion) :
    Except ScriptError Unit :=
  if !IsCompressedOrUncompressedPubKey vchPubKey then .error .PUBKEYTYPE
  else if hasFlag flags SCRIPT_VERIFY_WITNESS_PUBKEYTYPE && sigversion == .WITNESS_V0 &&
      !IsCompressedPubKey vchPubKey then .error .WITNESS_PUBKEYTYPE
  else .ok ()

/-- `CheckMinimalPush`, under `assert(0 <= opcode && opcode <= OP_PUSHDATA4)`
(`none` when the assertion fails). -/
def CheckMinimalPush (data : List UInt8) (opcode : opcodetype) : Option Bool :=
  if opcode > OP_PUSHDATA4 then none
  else some <|
    if data.isEmpty then opcode == OP_0
    else if data.length == 1 && 1 ≤ (data.getD 0 0).toNat && (data.getD 0 0).toNat ≤ 16 then false
    else if data.length == 1 && data.getD 0 0 == 0x81 then false
    else if data.length ≤ 75 then opcode.toNat == data.length
    else if data.length ≤ 255 then opcode == OP_PUSHDATA1
    else if data.length ≤ 65535 then opcode == OP_PUSHDATA2
    else true

/-! ## FindAndDelete -/

/-- The inner loop: drop copies of `b` while the script continues with one. -/
def skipMatches (b : List UInt8) : Nat → CScript → Nat × CScript
  | 0, s => (0, s)
  | fuel + 1, s =>
    if b.length ≤ s.length && s.take b.length == b then
      let r := skipMatches b fuel (s.drop b.length)
      (r.1 + 1, r.2)
    else (0, s)

/-- The outer loop from the current `pc`: skip matches there, then copy one
instruction and continue; at an undecodable instruction or the end, copy the
rest. Returns the kept bytes and the number of matches. -/
def findAndDeleteLoop (b : List UInt8) : Nat → CScript → List UInt8 × Nat
  | 0, s => (s, 0)
  | fuel + 1, s =>
    let (k, s') := skipMatches b s.length s
    match GetScriptOp s' with
    | none => (s', k)
    | some (_, _, rest) =>
      let r := findAndDeleteLoop b fuel rest
      (s'.take (s'.length - rest.length) ++ r.1, k + r.2)

/-- `FindAndDelete(script, b)`: the script with every instruction-aligned
occurrence of `b` removed (unchanged if there is none), and the count. -/
def FindAndDelete (script : CScript) (b : CScript) : CScript × Nat :=
  if b.isEmpty then (script, 0)
  else
    let r := findAndDeleteLoop b (script.length + 1) script
    if r.2 > 0 then (r.1, r.2) else (script, 0)

end Tapyrus
