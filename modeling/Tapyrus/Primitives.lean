import Tapyrus.Lib.Bytes
/-!
# Transactions and coins

The data model of `primitives/transaction.h`, `amount.h` and `coins.h`:
amounts, outpoints, inputs, outputs, transactions and the unspent coins the
UTXO set stores. Scripts are plain byte strings here; `Tapyrus.Script` reads
them as opcodes.

Amounts are `Int` (the code's `int64_t CAmount`); every sum the model
computes is guarded by `MoneyRange` the way the code guards it, so the
unbounded sums are the machine sums wherever the code reaches them.
-/

namespace Tapyrus

open Lib

abbrev uint256 := Blob 32
abbrev uint160 := Blob 20

/-- Equality of hashes is decided byte by byte; the instance is named once
here so that every membership test on hashes refers to it. -/
instance uint256.instLawfulBEq : LawfulBEq uint256 := inferInstance

def COIN : Int := 100000000
def MAX_MONEY : Int := 21000000 * COIN

/-- `MoneyRange`. -/
def MoneyRange (nValue : Int) : Bool := 0 ≤ nValue && nValue ≤ MAX_MONEY

/-- `CScript`: the bytes of a script. -/
abbrev CScript := List UInt8

/-- `COutPoint`: a transaction's malleability-fixed hash and an output index. -/
structure COutPoint where
  hashMalFix : uint256
  n : UInt32
  deriving DecidableEq, Repr

namespace COutPoint

/-- The default outpoint: null hash and index `-1`. -/
def null : COutPoint := ⟨Blob.zero 32, 0xffffffff⟩

def IsNull (o : COutPoint) : Bool := o.hashMalFix.IsNull && o.n == 0xffffffff

end COutPoint

/-- `CTxIn`; the witness is only carried for `VerifyScript`. -/
structure CTxIn where
  prevout : COutPoint
  scriptSig : CScript
  nSequence : UInt32
  scriptWitness : List (List UInt8) := []
  deriving DecidableEq, Repr

def SEQUENCE_FINAL : UInt32 := 0xffffffff
def SEQUENCE_LOCKTIME_DISABLE_FLAG : UInt32 := 0x80000000
def SEQUENCE_LOCKTIME_TYPE_FLAG : UInt32 := 0x00400000
def SEQUENCE_LOCKTIME_MASK : UInt32 := 0x0000ffff

/-- `CTxOut`. -/
structure CTxOut where
  nValue : Int
  scriptPubKey : CScript
  deriving DecidableEq, Repr

namespace CTxOut

/-- `SetNull`: value `-1` and an empty script, the spent marker. -/
def null : CTxOut := ⟨-1, []⟩

def IsNull (o : CTxOut) : Bool := o.nValue == -1

end CTxOut

/-- `CTransaction` (the hashes the code caches are functions of the fields,
computed in `Tapyrus.Serialize`). -/
structure CTransaction where
  vin : List CTxIn
  vout : List CTxOut
  nFeatures : Int
  nLockTime : UInt32
  deriving DecidableEq, Repr

namespace CTransaction

/-- A Tapyrus coinbase: one input whose prevout hash is null (its index
carries the block height). -/
def IsCoinBase (tx : CTransaction) : Bool :=
  match tx.vin with
  | [txin] => txin.prevout.hashMalFix.IsNull
  | _ => false

def HasWitness (tx : CTransaction) : Bool := tx.vin.any (fun i => !i.scriptWitness.isEmpty)

end CTransaction

/-- `Coin`: an unspent output with the height and coinbase flag of the
transaction that created it. -/
structure Coin where
  out : CTxOut
  fCoinBase : Bool
  nHeight : Nat
  deriving DecidableEq, Repr

namespace Coin

/-- The empty coin `AccessCoin` returns for a missing outpoint. -/
def empty : Coin := ⟨CTxOut.null, false, 0⟩

def IsSpent (c : Coin) : Bool := c.out.IsNull

end Coin

end Tapyrus
