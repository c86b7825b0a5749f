import Tapyrus.Script.ColorScript
import Tapyrus.Script.Checks
/-!
# Transactions in the stream, and their hashes

`SerializeTransaction` (`primitives/transaction.h`): the features, the
inputs, the outputs and the lock time. Tapyrus writes no witness, and the
malleability-fixed form (`SERIALIZE_TRANSACTION_MALFIX`) leaves every
`scriptSig` out. `GetHash` and `GetHashMalFix` are double SHA-256 of the two
forms; outpoints name transactions by the second.

`GetValueOut(colorId)` sums the outputs of one color. It throws when an
output or a partial sum leaves the money range; the validation functions that
call it return `ValidationError.abort` then.
-/

namespace Tapyrus

open Lib

/-- How a validation call fails: a rejection recorded in `CValidationState`
(its reject reason), or no normal return (an assertion that fails, or an
exception that leaves the call). -/
inductive ValidationError where
  | invalid (reason : String)
  | abort
  deriving DecidableEq, Repr

/-- A validation step: its result, or how it failed. -/
abbrev Valid (α : Type) := Except ValidationError α

/-- `state.DoS(...)` / `state.Invalid(...)`: reject with a reason. -/
def reject {α : Type} (reason : String) : Valid α := .error (.invalid reason)

/-! ## Stream format -/

/-- A signed `w`-byte integer in two's complement, little-endian. -/
def ser_writeint (w : Nat) (n : Int) : List UInt8 := toLE w (n % (256 ^ w : Nat)).toNat

/-- `std::vector<unsigned char>` and `CScript`: a CompactSize length, then the
bytes. -/
def serializeBytes (v : List UInt8) : List UInt8 := WriteCompactSize v.length ++ v

/-- `CTxIn`: the outpoint, the `scriptSig` unless `fMalFix`, the sequence. -/
def CTxIn.serialize (fMalFix : Bool) (txin : CTxIn) : List UInt8 :=
  txin.prevout.serialize ++ (if fMalFix then [] else serializeBytes txin.scriptSig) ++
    ser_writedata32 txin.nSequence.toNat

/-- `CTxOut`: the 8-byte value and the script. -/
def CTxOut.serialize (txout : CTxOut) : List UInt8 :=
  ser_writeint 8 txout.nValue ++ serializeBytes txout.scriptPubKey

/-- `std::vector<T>`: a CompactSize count, then the items. -/
def serializeList {α : Type} (ser : α → List UInt8) (l : List α) : List UInt8 :=
  WriteCompactSize l.length ++ (l.map ser).flatten

/-- `SerializeTransaction`, with or without the `scriptSig`s. -/
def CTransaction.serialize (fMalFix : Bool) (tx : CTransaction) : List UInt8 :=
  ser_writeint 4 tx.nFeatures ++ serializeList (CTxIn.serialize fMalFix) tx.vin ++
    serializeList CTxOut.serialize tx.vout ++ ser_writedata32 tx.nLockTime.toNat

namespace CTransaction

variable (C : Crypto)

/-- `GetHash`: the hash of the full serialization. -/
def GetHash (tx : CTransaction) : uint256 := C.hash256 (tx.serialize false)

/-- `GetHashMalFix`: the hash without the `scriptSig`s, the transaction's id
in outpoints. -/
def GetHashMalFix (tx : CTransaction) : uint256 := C.hash256 (tx.serialize true)

/-- `GetSerializeSize(tx, SER_NETWORK, PROTOCOL_VERSION | SERIALIZE_TRANSACTION_NO_WITNESS)`. -/
def GetSerializeSize (tx : CTransaction) : Nat := (tx.serialize false).length

/-- `GetValueOut(colorId)`: the outputs of color `colorId`, in the money range. -/
def GetValueOut (tx : CTransaction) (colorId : ColorIdentifier) : Valid Int :=
  tx.vout.foldlM (fun nValueOut txout =>
    let nValueOut := if GetColorIdFromScript txout.scriptPubKey = colorId then nValueOut + txout.nValue
      else nValueOut
    -- "GetValueOut: value out of range" (std::runtime_error)
    if !MoneyRange txout.nValue || !MoneyRange nValueOut then .error .abort else .ok nValueOut) 0

end CTransaction

/-- The sum of the values of the outputs of one color, without the range
checks. -/
def valueOfColor (vout : List CTxOut) (colorId : ColorIdentifier) : Int :=
  (vout.map fun txout => if GetColorIdFromScript txout.scriptPubKey = colorId then txout.nValue else 0).sum

end Tapyrus
