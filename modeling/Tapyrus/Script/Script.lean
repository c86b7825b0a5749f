import Tapyrus.ColorIdentifier
/-!
# Scripts

`script/script.h` and `script/script.cpp`: opcodes, `GetScriptOp` (one
instruction and its push data), and the syntactic tests on scripts.

Every loop of the code that walks a script with `GetOp` stops at the first
instruction `GetOp` cannot decode. `ScriptOps` decodes a script once into the
list of instructions such a loop meets, each with the part of the script that
follows it (the loop's `pc` after the step), and whether the walk ended on an
undecodable instruction. The tests below, and the interpreter, read that list.
-/

namespace Tapyrus

open Lib

/-- `opcodetype`: the opcode byte. -/
abbrev opcodetype := UInt8

def OP_0 : opcodetype := 0x00
def OP_PUSHDATA1 : opcodetype := 0x4c
def OP_PUSHDATA2 : opcodetype := 0x4d
def OP_PUSHDATA4 : opcodetype := 0x4e
def OP_1NEGATE : opcodetype := 0x4f
def OP_RESERVED : opcodetype := 0x50
def OP_1 : opcodetype := 0x51
def OP_16 : opcodetype := 0x60
def OP_NOP : opcodetype := 0x61
def OP_VER : opcodetype := 0x62
def OP_IF : opcodetype := 0x63
def OP_NOTIF : opcodetype := 0x64
def OP_VERIF : opcodetype := 0x65
def OP_VERNOTIF : opcodetype := 0x66
def OP_ELSE : opcodetype := 0x67
def OP_ENDIF : opcodetype := 0x68
def OP_VERIFY : opcodetype := 0x69
def OP_RETURN : opcodetype := 0x6a
def OP_TOALTSTACK : opcodetype := 0x6b
def OP_FROMALTSTACK : opcodetype := 0x6c
def OP_2DROP : opcodetype := 0x6d
def OP_2DUP : opcodetype := 0x6e
def OP_3DUP : opcodetype := 0x6f
def OP_2OVER : opcodetype := 0x70
def OP_2ROT : opcodetype := 0x71
def OP_2SWAP : opcodetype := 0x72
def OP_IFDUP : opcodetype := 0x73
def OP_DEPTH : opcodetype := 0x74
def OP_DROP : opcodetype := 0x75
def OP_DUP : opcodetype := 0x76
def OP_NIP : opcodetype := 0x77
def OP_OVER : opcodetype := 0x78
def OP_PICK : opcodetype := 0x79
def OP_ROLL : opcodetype := 0x7a
def OP_ROT : opcodetype := 0x7b
def OP_SWAP : opcodetype := 0x7c
def OP_TUCK : opcodetype := 0x7d
def OP_CAT : opcodetype := 0x7e
def OP_SUBSTR : opcodetype := 0x7f
def OP_LEFT : opcodetype := 0x80
def OP_RIGHT : opcodetype := 0x81
def OP_SIZE : opcodetype := 0x82
def OP_INVERT : opcodetype := 0x83
def OP_AND : opcodetype := 0x84
def OP_OR : opcodetype := 0x85
def OP_XOR : opcodetype := 0x86
def OP_EQUAL : opcodetype := 0x87
def OP_EQUALVERIFY : opcodetype := 0x88
def OP_RESERVED1 : opcodetype := 0x89
def OP_RESERVED2 : opcodetype := 0x8a
def OP_1ADD : opcodetype := 0x8b
def OP_1SUB : opcodetype := 0x8c
def OP_2MUL : opcodetype := 0x8d
def OP_2DIV : opcodetype := 0x8e
def OP_NEGATE : opcodetype := 0x8f
def OP_ABS : opcodetype := 0x90
def OP_NOT : opcodetype := 0x91
def OP_0NOTEQUAL : opcodetype := 0x92
def OP_ADD : opcodetype := 0x93
def OP_SUB : opcodetype := 0x94
def OP_MUL : opcodetype := 0x95
def OP_DIV : opcodetype := 0x96
def OP_MOD : opcodetype := 0x97
def OP_LSHIFT : opcodetype := 0x98
def OP_RSHIFT : opcodetype := 0x99
def OP_BOOLAND : opcodetype := 0x9a
def OP_BOOLOR : opcodetype := 0x9b
def OP_NUMEQUAL : opcodetype := 0x9c
def OP_NUMEQUALVERIFY : opcodetype := 0x9d
def OP_NUMNOTEQUAL : opcodetype := 0x9e
def OP_LESSTHAN : opcodetype := 0x9f
def OP_GREATERTHAN : opcodetype := 0xa0
def OP_LESSTHANOREQUAL : opcodetype := 0xa1
def OP_GREATERTHANOREQUAL : opcodetype := 0xa2
def OP_MIN : opcodetype := 0xa3
def OP_MAX : opcodetype := 0xa4
def OP_WITHIN : opcodetype := 0xa5
def OP_RIPEMD160 : opcodetype := 0xa6
def OP_SHA1 : opcodetype := 0xa7
def OP_SHA256 : opcodetype := 0xa8
def OP_HASH160 : opcodetype := 0xa9
def OP_HASH256 : opcodetype := 0xaa
def OP_CODESEPARATOR : opcodetype := 0xab
def OP_CHECKSIG : opcodetype := 0xac
def OP_CHECKSIGVERIFY : opcodetype := 0xad
def OP_CHECKMULTISIG : opcodetype := 0xae
def OP_CHECKMULTISIGVERIFY : opcodetype := 0xaf
def OP_NOP1 : opcodetype := 0xb0
def OP_CHECKLOCKTIMEVERIFY : opcodetype := 0xb1
def OP_CHECKSEQUENCEVERIFY : opcodetype := 0xb2
def OP_NOP4 : opcodetype := 0xb3
def OP_NOP5 : opcodetype := 0xb4
def OP_NOP6 : opcodetype := 0xb5
def OP_NOP7 : opcodetype := 0xb6
def OP_NOP8 : opcodetype := 0xb7
def OP_NOP9 : opcodetype := 0xb8
def OP_NOP10 : opcodetype := 0xb9
def OP_CHECKDATASIG : opcodetype := 0xba
def OP_CHECKDATASIGVERIFY : opcodetype := 0xbb
def OP_COLOR : opcodetype := 0xbc
def OP_INVALIDOPCODE : opcodetype := 0xff

def MAX_SCRIPT_ELEMENT_SIZE : Nat := 520
def MAX_OPS_PER_SCRIPT : Nat := 201
def MAX_PUBKEYS_PER_MULTISIG : Nat := 20
def MAX_SCRIPT_SIZE : Nat := 10000
def MAX_STACK_SIZE : Nat := 1000

/-- The push size `GetScriptOp` reads after a push opcode, and the script
after the size field. -/
def readPushSize (opcode : opcodetype) (pc : CScript) : Option (Nat × CScript) :=
  if opcode < OP_PUSHDATA1 then some (opcode.toNat, pc)
  else if opcode = OP_PUSHDATA1 then (if 1 ≤ pc.length then some (ofLE (pc.take 1), pc.drop 1) else none)
  else if opcode = OP_PUSHDATA2 then (if 2 ≤ pc.length then some (ofLE (pc.take 2), pc.drop 2) else none)
  else (if 4 ≤ pc.length then some (ofLE (pc.take 4), pc.drop 4) else none)

/-- `GetScriptOp`: the opcode at the front, its push data and the rest of
the script, or `none` where the code returns false (a push that runs past
the end). -/
def GetScriptOp (s : CScript) : Option (opcodetype × List UInt8 × CScript) :=
  match s with
  | [] => none
  | opcode :: pc =>
    if opcode ≤ OP_PUSHDATA4 then
      match readPushSize opcode pc with
      | none => none
      | some (nSize, pc) => if nSize ≤ pc.length then some (opcode, pc.take nSize, pc.drop nSize) else none
    else some (opcode, [], pc)

theorem readPushSize_rest_le {opcode : opcodetype} {pc pc' : CScript} {n : Nat}
    (h : readPushSize opcode pc = some (n, pc')) : pc'.length ≤ pc.length := by
  unfold readPushSize at h
  split_ifs at h <;> cases h <;> simp

/-- Each instruction consumes at least its opcode byte. -/
theorem GetScriptOp_rest_lt {s rest : CScript} {op : opcodetype} {d : List UInt8}
    (h : GetScriptOp s = some (op, d, rest)) : rest.length < s.length := by
  cases s with
  | nil => cases h
  | cons opcode pc =>
    simp only [GetScriptOp] at h
    split_ifs at h
    · cases hs : readPushSize opcode pc with
      | none => rw [hs] at h; cases h
      | some p =>
        obtain ⟨nSize, pc'⟩ := p
        rw [hs] at h
        simp only at h
        split_ifs at h
        cases h
        have := readPushSize_rest_le hs
        simp; omega
    · cases h; simp

/-- A decoded instruction: the opcode, its push data, and the script after it. -/
structure ScriptOp where
  opcode : opcodetype
  data : List UInt8
  rest : CScript
  deriving DecidableEq, Repr

/-- Decode instructions while `GetOp` succeeds; the flag says whether the
walk stopped on an undecodable instruction rather than at the end. `fuel`
bounds the steps; the script's length is enough. -/
def scriptOpsAux : Nat → CScript → List ScriptOp × Bool
  | _, [] => ([], false)
  | 0, _ :: _ => ([], false)
  | fuel + 1, s@(_ :: _) =>
    match GetScriptOp s with
    | none => ([], true)
    | some (op, d, rest) =>
      let r := scriptOpsAux fuel rest
      (⟨op, d, rest⟩ :: r.1, r.2)

/-- The instructions a `GetOp` walk over `s` meets, and whether it stopped on
an undecodable one. -/
def ScriptOps (s : CScript) : List ScriptOp × Bool := scriptOpsAux s.length s

/-- Any fuel at least the script's length decodes the same instructions. -/
theorem scriptOpsAux_fuel (f1 f2 : Nat) (s : CScript) (h1 : s.length ≤ f1) (h2 : s.length ≤ f2) :
    scriptOpsAux f1 s = scriptOpsAux f2 s := by
  induction f1 generalizing f2 s with
  | zero =>
    obtain rfl : s = [] := List.eq_nil_of_length_eq_zero (by omega)
    cases f2 <;> rfl
  | succ f1 ih =>
    cases s with
    | nil => cases f2 <;> rfl
    | cons b bs =>
      cases f2 with
      | zero => simp at h2
      | succ f2 =>
        simp only [scriptOpsAux]
        cases hop : GetScriptOp (b :: bs) with
        | none => rfl
        | some r =>
          obtain ⟨op, d, rest⟩ := r
          have hlt := GetScriptOp_rest_lt hop
          simp only [List.length_cons] at h1 h2 hlt
          dsimp only
          rw [ih f2 rest (by omega) (by omega)]

@[simp] theorem ScriptOps_nil : ScriptOps [] = ([], false) := rfl

/-- The walk decodes the first instruction, then walks the rest. -/
theorem ScriptOps_of_GetScriptOp {s rest : CScript} {op : opcodetype} {d : List UInt8}
    (h : GetScriptOp s = some (op, d, rest)) :
    ScriptOps s = (⟨op, d, rest⟩ :: (ScriptOps rest).1, (ScriptOps rest).2) := by
  have hlt := GetScriptOp_rest_lt h
  cases s with
  | nil => cases h
  | cons b bs =>
    simp only [List.length_cons] at hlt
    simp only [ScriptOps, List.length_cons, scriptOpsAux, h]
    rw [scriptOpsAux_fuel bs.length rest.length rest (by omega) le_rfl]

/-- A direct push: an opcode below `OP_PUSHDATA1`, then that many bytes. -/
theorem GetScriptOp_direct {n : opcodetype} {d : List UInt8} (rest : CScript) (hn : n < OP_PUSHDATA1)
    (hd : d.length = n.toNat) : GetScriptOp (n :: (d ++ rest)) = some (n, d, rest) := by
  have hle : n ≤ OP_PUSHDATA4 := by
    rw [UInt8.le_iff_toNat_le]; rw [UInt8.lt_iff_toNat_lt] at hn; simp [OP_PUSHDATA1, OP_PUSHDATA4] at *; omega
  simp [GetScriptOp, hle, readPushSize, hn, ← hd]

/-- Any opcode above `OP_PUSHDATA4` is one byte with no data. -/
theorem GetScriptOp_nonpush {o : opcodetype} (rest : CScript) (ho : OP_PUSHDATA4 < o) :
    GetScriptOp (o :: rest) = some (o, [], rest) := by
  have : ¬ o ≤ OP_PUSHDATA4 := by
    rw [UInt8.le_iff_toNat_le]; rw [UInt8.lt_iff_toNat_lt] at ho; omega
  simp [GetScriptOp, this]

/-- `CScript() << b`: the shortest push opcode for `b`'s length, then `b`. -/
def pushData (b : List UInt8) : CScript :=
  (if b.length < OP_PUSHDATA1.toNat then [UInt8.ofNat b.length]
  else if b.length ≤ 0xff then [OP_PUSHDATA1, UInt8.ofNat b.length]
  else if b.length ≤ 0xffff then OP_PUSHDATA2 :: toLE 2 b.length
  else OP_PUSHDATA4 :: toLE 4 b.length) ++ b

theorem pushData_of_lt {b : List UInt8} (h : b.length < OP_PUSHDATA1.toNat) : pushData b = UInt8.ofNat b.length :: b := by
  simp [pushData, h]

/-- `IsPushOnly`: every instruction decodes and is a push (`OP_RESERVED`
included). -/
def CScript.IsPushOnly (s : CScript) : Bool :=
  !(ScriptOps s).2 && (ScriptOps s).1.all (fun o => o.opcode ≤ OP_16)

/-- `IsColoredScript`: the walk meets `OP_COLOR` before any undecodable
instruction. -/
def CScript.IsColoredScript (s : CScript) : Bool := (ScriptOps s).1.any (fun o => o.opcode == OP_COLOR)

/-- `IsPayToScriptHash`: the 23-byte `OP_HASH160 <20 bytes> OP_EQUAL`. -/
def CScript.IsPayToScriptHash (s : CScript) : Bool :=
  s.length == 23 && s[0]? == some OP_HASH160 && s[1]? == some 0x14 && s[22]? == some OP_EQUAL

/-- `IsUnspendable`: starts with `OP_RETURN` or is too large. -/
def CScript.IsUnspendable (s : CScript) : Bool :=
  (s.length > 0 && s[0]? == some OP_RETURN) || s.length > MAX_SCRIPT_SIZE

/-- `DecodeOP_N` on `OP_0` and `OP_1 .. OP_16`. -/
def DecodeOP_N (opcode : opcodetype) : Nat := if opcode = OP_0 then 0 else opcode.toNat - (OP_1.toNat - 1)

/-- `IsWitnessProgram`: a version opcode and one direct push of 2 to 40
bytes, returned as the version and the program. -/
def CScript.IsWitnessProgram (s : CScript) : Option (Nat × List UInt8) :=
  if s.length < 4 || s.length > 42 then none
  else match s with
    | v :: n :: prog =>
      if v ≠ OP_0 && (v < OP_1 || v > OP_16) then none
      else if n.toNat + 2 = s.length then some (DecodeOP_N v, prog) else none
    | _ => none

end Tapyrus
