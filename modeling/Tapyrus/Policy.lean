import Tapyrus.TxVerify
/-!
# Standardness

`Solver` (`script/standard.cpp`) and the relay policy of `policy/policy.cpp`:
`IsStandard`, `IsDust`, `IsStandardTx` and `AreInputsStandard`, with
`CFeeRate::GetFee`.

`Solver` classifies a script by the first template it matches, in the order
the code tries them: P2SH, CP2SH, a witness program (nonstandard), a data
carrier, P2PK, P2PKH, CP2PKH, bare multisig. A script that matches none is
still standard (`TX_CUSTOM`) when `CheckScriptSyntax` passes: every
instruction decodes, no push is over 520 bytes, at most 201 counted
instructions, and none of the opcodes the interpreter disables.

The node's settings the policy reads (`-datacarrier`, `-datacarriersize`,
`-dustrelayfee` and the others) are the fields of `RelayPolicy`.
-/

namespace Tapyrus

open Lib

/-- `txnouttype`. -/
inductive txnouttype where
  | TX_NONSTANDARD
  | TX_PUBKEY
  | TX_PUBKEYHASH
  | TX_SCRIPTHASH
  | TX_MULTISIG
  | TX_NULL_DATA
  | TX_CUSTOM
  | TX_COLOR_PUBKEYHASH
  | TX_COLOR_SCRIPTHASH
  deriving DecidableEq, Repr

/-! ## Templates -/

/-- `CPubKey::GetLen`: the length the header byte announces. -/
def CPubKey.GetLen (chHeader : UInt8) : Nat :=
  if chHeader = 2 || chHeader = 3 then COMPRESSED_PUBLIC_KEY_SIZE
  else if chHeader = 4 || chHeader = 6 || chHeader = 7 then PUBLIC_KEY_SIZE
  else 0

/-- `CPubKey::ValidSize`. -/
def CPubKey.ValidSize (vch : List UInt8) : Bool :=
  match vch with
  | [] => false
  | chHeader :: _ => CPubKey.GetLen chHeader == vch.length

/-- `MatchPayToPubkey`: `<pubkey> OP_CHECKSIG` with an uncompressed or a
compressed key. -/
def MatchPayToPubkey (s : CScript) : Option (List UInt8) :=
  let matchKey (keySize : Nat) : Option (List UInt8) :=
    let pubkey := (s.drop 1).take keySize
    if CPubKey.ValidSize pubkey then some pubkey else none
  if s.length == PUBLIC_KEY_SIZE + 2 && s[0]? == some (UInt8.ofNat PUBLIC_KEY_SIZE) &&
      s.getLast? == some OP_CHECKSIG then matchKey PUBLIC_KEY_SIZE
  else if s.length == COMPRESSED_PUBLIC_KEY_SIZE + 2 && s[0]? == some (UInt8.ofNat COMPRESSED_PUBLIC_KEY_SIZE) &&
      s.getLast? == some OP_CHECKSIG then matchKey COMPRESSED_PUBLIC_KEY_SIZE
  else none

/-- `MatchPayToPubkeyHash`: `OP_DUP OP_HASH160 <20> OP_EQUALVERIFY OP_CHECKSIG`. -/
def MatchPayToPubkeyHash (s : CScript) : Option (List UInt8) :=
  if s.length == 25 && s[0]? == some OP_DUP && s[1]? == some OP_HASH160 && s[2]? == some 20 &&
      s[23]? == some OP_EQUALVERIFY && s[24]? == some OP_CHECKSIG then some ((s.drop 3).take 20)
  else none

/-- `IsSmallInteger`: `OP_1` to `OP_16`. -/
def IsSmallInteger (opcode : opcodetype) : Bool := OP_1 ≤ opcode && opcode ≤ OP_16

/-- `MatchMultisig`: `OP_m <pubkey>... OP_n OP_CHECKMULTISIG`, the required
count and the keys. The key loop stops at the first instruction that is not
a valid-size key; that instruction must be `OP_n`, with only the last byte
after it. -/
def MatchMultisig (s : CScript) : Option (Nat × List (List UInt8)) :=
  if s.getLast? ≠ some OP_CHECKMULTISIG then none else
  match (ScriptOps s).1 with
  | [] => none
  | first :: rest =>
    if !IsSmallInteger first.opcode then none else
    let required := DecodeOP_N first.opcode
    let pubkeys := rest.takeWhile fun o => CPubKey.ValidSize o.data
    -- the instruction that ended the loop; none when `GetOp` failed or the script ended
    match rest.drop pubkeys.length with
    | [] => none
    | last :: _ =>
      if !IsSmallInteger last.opcode then none else
      let keys := DecodeOP_N last.opcode
      if pubkeys.length ≠ keys || keys < required then none
      else if last.rest.length = 1 then some (required, pubkeys.map (·.data))
      else none

/-- The opcodes `CheckScriptSyntax` refuses: those `EvalScript` disables,
the reserved ones, and the unassigned `OP_NOP`s. -/
def syntaxRefusedOpcodes : List opcodetype :=
  [OP_CAT, OP_SUBSTR, OP_LEFT, OP_RIGHT, OP_INVERT, OP_AND, OP_OR, OP_XOR, OP_2MUL, OP_2DIV, OP_MUL, OP_DIV,
    OP_MOD, OP_LSHIFT, OP_RSHIFT, OP_VER, OP_VERIF, OP_VERNOTIF, OP_RESERVED, OP_RESERVED1, OP_RESERVED2,
    OP_NOP1, OP_NOP4, OP_NOP5, OP_NOP6, OP_NOP7, OP_NOP8, OP_NOP9, OP_NOP10]

/-- `CheckScriptSyntax`: its loop fails on the first instruction that does
not decode, pushes too much, is one counted instruction too many, or is
refused; so it passes when no instruction does. -/
def CheckScriptSyntax (s : CScript) : Bool :=
  !(ScriptOps s).2 &&
    (ScriptOps s).1.all (fun o => o.data.length ≤ MAX_SCRIPT_ELEMENT_SIZE && !syntaxRefusedOpcodes.contains o.opcode) &&
    ((ScriptOps s).1.filter (·.opcode > OP_16)).length ≤ MAX_OPS_PER_SCRIPT

/-- `Solver(scriptPubKey, typeRet, vSolutionsRet)`: the type and solutions
when it returns true. -/
def Solver (scriptPubKey : CScript) : Option (txnouttype × List (List UInt8)) :=
  if scriptPubKey.IsPayToScriptHash then some (.TX_SCRIPTHASH, [(scriptPubKey.drop 2).take 20])
  else if scriptPubKey.IsColoredPayToScriptHash then
    some (.TX_COLOR_SCRIPTHASH, [(scriptPubKey.drop 37).take 20, (scriptPubKey.drop 1).take 33])
  else if scriptPubKey.IsWitnessProgram.isSome then some (.TX_NONSTANDARD, [])
  else if scriptPubKey.length ≥ 1 && scriptPubKey[0]? == some OP_RETURN then
    if CScript.IsPushOnly (scriptPubKey.drop 1) then some (.TX_NULL_DATA, []) else none
  else match MatchPayToPubkey scriptPubKey with
  | some pubkey => some (.TX_PUBKEY, [pubkey])
  | none => match MatchPayToPubkeyHash scriptPubKey with
    | some pubkeyhash => some (.TX_PUBKEYHASH, [pubkeyhash])
    | none => match MatchColoredPayToPubkeyHash scriptPubKey with
      | some (pubkeyhash, colorId) => some (.TX_COLOR_PUBKEYHASH, [pubkeyhash, colorId])
      | none => match MatchMultisig scriptPubKey with
        | some (required, keys) =>
          some (.TX_MULTISIG, [[UInt8.ofNat required]] ++ keys ++ [[UInt8.ofNat keys.length]])
        | none => if CheckScriptSyntax scriptPubKey then some (.TX_CUSTOM, []) else none

/-! ## Relay policy -/

/-- The node's relay settings. -/
structure RelayPolicy where
  /-- `::minRelayTxFee`, per 1000 bytes. -/
  minRelayTxFee : Int
  /-- `::dustRelayFee`, per 1000 bytes. -/
  dustRelayFee : Int
  fAcceptDatacarrier : Bool
  nMaxDatacarrierBytes : Nat
  fAcceptMultipleDatacarrier : Bool

/-- The defaults: `DEFAULT_MIN_RELAY_TX_FEE`, `DUST_RELAY_TX_FEE`,
`DEFAULT_ACCEPT_DATACARRIER`, `MAX_OP_RETURN_RELAY`,
`DEFAULT_ACCEPT_MULTIPLE_DATACARRIER`. -/
def RelayPolicy.default : RelayPolicy := ⟨1000, 3000, true, 83, false⟩

/-- `CFeeRate(nTapyrusPerK).GetFee(nBytes)`: the rate times the size, over
1000 rounded toward zero, and at least one unit either way when the size is
not zero. -/
def CFeeRate.GetFee (nTapyrusPerK : Int) (nBytes : Nat) : Int :=
  let nFee := (nTapyrusPerK * nBytes).tdiv 1000
  if nFee = 0 && nBytes ≠ 0 then
    if nTapyrusPerK > 0 then 1 else if nTapyrusPerK < 0 then -1 else nFee
  else nFee

variable (P : RelayPolicy)

/-- `IsStandard(scriptPubKey, whichType)`: the type of a standard script. -/
def IsStandard (scriptPubKey : CScript) : Option txnouttype :=
  match Solver scriptPubKey with
  | none => none
  | some (whichType, vSolutions) =>
    let standard := if whichType = .TX_NONSTANDARD then none else some whichType
    if whichType = .TX_MULTISIG then
      let m := (vSolutions.head?.bind (·.head?)).getD 0
      let n := (vSolutions.getLast?.bind (·.head?)).getD 0
      -- up to x-of-3 multisig
      if n < 1 || n > 3 then none
      else if m < 1 || m > n then none
      else standard
    else if whichType = .TX_NULL_DATA && (!P.fAcceptDatacarrier || scriptPubKey.length > P.nMaxDatacarrierBytes) then
      none
    else standard

/-- `GetDustThreshold(txout, dustRelayFee)`: the fee to spend the output,
its size plus that of a typical input. -/
def GetDustThreshold (txout : CTxOut) : Int :=
  if txout.scriptPubKey.IsUnspendable then 0
  else CFeeRate.GetFee P.dustRelayFee (txout.serialize.length + (32 + 4 + 1 + 107 + 4))

/-- `IsDust`: an uncolored output worth less than its threshold. -/
def IsDust (txout : CTxOut) : Bool :=
  !txout.scriptPubKey.IsColoredScript && decide (txout.nValue < GetDustThreshold P txout)

def MAX_STANDARD_FEATURES : Int := 1

def MAX_STANDARD_TX_SIZE : Nat := 100000

def MAX_P2SH_SIGOPS : Nat := 15

/-- The output loop of `IsStandardTx`: the number of data carriers, or the
reason the first nonstandard output gives. -/
def standardOutputs (nDataOut : Nat) : List CTxOut → Except String Nat
  | [] => .ok nDataOut
  | txout :: rest =>
    match IsStandard P txout.scriptPubKey with
    | none => .error "scriptpubkey"
    | some whichType =>
      if whichType = .TX_NULL_DATA then standardOutputs (nDataOut + 1) rest
      else if IsDust P txout then .error "dust"
      else standardOutputs nDataOut rest

/-- `IsStandardTx(tx, reason)`: `.error reason` when it returns false. -/
def IsStandardTx (tx : CTransaction) : Except String Unit :=
  if tx.nFeatures > MAX_STANDARD_FEATURES || tx.nFeatures < 1 then .error "features"
  else if tx.GetSerializeSize > MAX_STANDARD_TX_SIZE then .error "tx-size"
  else match tx.vin.find? (fun txin => txin.scriptSig.length > 1650 || !txin.scriptSig.IsPushOnly) with
  | some txin => if txin.scriptSig.length > 1650 then .error "scriptsig-size" else .error "scriptsig-not-pushonly"
  | none => do
    let nDataOut ← standardOutputs P 0 tx.vout
    if nDataOut > 1 && !P.fAcceptMultipleDatacarrier then .error "multi-op-return" else .ok ()

/-- `AreInputsStandard(tx, mapInputs)`: each spent script solves, and the
redeem script a (colored) P2SH input reveals, the last item its `scriptSig`
leaves, has at most 15 signature operations. -/
def AreInputsStandard (C : Crypto) (tx : CTransaction) (mapInputs : CCoinsViewCache) : Bool :=
  if tx.IsCoinBase then true else
  tx.vin.all fun txin =>
    let prevScript := (mapInputs.AccessCoin txin.prevout).out.scriptPubKey
    match Solver prevScript with
    | none => false
    | some (whichType, _) =>
      if whichType = .TX_SCRIPTHASH || whichType = .TX_COLOR_SCRIPTHASH then
        match EvalScript C SCRIPT_VERIFY_NONE BaseSignatureChecker.base .BASE [] txin.scriptSig none with
        | .ok (stack, _) =>
          match stack with
          | [] => false
          | subscript :: _ => CScript.GetSigOpCount subscript true ≤ MAX_P2SH_SIGOPS
        | .error _ => false
      else true

end Tapyrus
