import Tapyrus.Transaction
import Tapyrus.XField
/-!
# Blocks

`CBlockHeader` and `CBlock` (`primitives/block.h`): the header signed by the
federation's aggregate key (`proof` is the signature over the header without
it), the transactions, and the `fChecked` flag that `CheckBlock` sets on the
object once its context-free checks have passed with signature and merkle
checks on.

The two merkle roots commit to the transactions' `GetHash` and
`GetHashMalFix`. `ComputeMerkleRoot` hashes pairs level by level, pairing an
odd last hash with itself, and reports a `mutated` tree when some level has
two equal hashes side by side at an even position (CVE-2012-2459).
-/

namespace Tapyrus

open Lib

/-- `CXField::Serialize`: the type byte, then the value. (The code throws
when the type does not name the value's variant; `Unserialize` throws the
same way, so no header in the node holds such a field.) -/
def CXField.serialize (x : CXField) : List UInt8 := [x.xfieldType.val] ++ x.xfieldValue.serialize

/-- `CBlockHeader`. -/
structure CBlockHeader where
  nFeatures : Int
  hashPrevBlock : uint256
  hashMerkleRoot : uint256
  hashImMerkleRoot : uint256
  nTime : UInt32
  xfield : CXField
  proof : List UInt8
  deriving DecidableEq, Repr

namespace CBlockHeader

/-- `TAPYRUS_BLOCK_FEATURES`. -/
def TAPYRUS_BLOCK_FEATURES : Int := 1

/-- `CBlockHeaderWithoutProof`'s stream format: what the proof signs. -/
def serializeWithoutProof (h : CBlockHeader) : List UInt8 :=
  ser_writeint 4 h.nFeatures ++ h.hashPrevBlock.bytes ++ h.hashMerkleRoot.bytes ++ h.hashImMerkleRoot.bytes ++
    ser_writedata32 h.nTime.toNat ++ h.xfield.serialize

/-- `CBlockHeader`'s stream format. -/
def serialize (h : CBlockHeader) : List UInt8 := h.serializeWithoutProof ++ serializeBytes h.proof

variable (C : Crypto)

/-- `GetHash`: the block's hash, over the header with its proof. -/
def GetHash (h : CBlockHeader) : uint256 := C.hash256 h.serialize

/-- `GetHashForSign`: the hash the aggregate key signs. -/
def GetHashForSign (h : CBlockHeader) : uint256 := C.hash256 h.serializeWithoutProof

end CBlockHeader

/-- `CBlock`: a header with its transactions and the cached `fChecked`. -/
structure CBlock extends CBlockHeader where
  vtx : List CTransaction
  fChecked : Bool
  deriving DecidableEq, Repr

namespace CBlock

/-- `GetBlockHeader`. -/
def GetBlockHeader (b : CBlock) : CBlockHeader := b.toCBlockHeader

/-- The stream format, transactions without witness. -/
def serialize (b : CBlock) : List UInt8 :=
  b.toCBlockHeader.serialize ++ serializeList (CTransaction.serialize false) b.vtx

/-- `GetSerializeSize(block, SER_NETWORK, PROTOCOL_VERSION | SERIALIZE_TRANSACTION_NO_WITNESS)`. -/
def GetSerializeSize (b : CBlock) : Nat := b.serialize.length

def GetHash (C : Crypto) (b : CBlock) : uint256 := b.toCBlockHeader.GetHash C

/-- `GetHeight`: the index of the coinbase's outpoint, where a Tapyrus
coinbase carries the block's height. (`vtx[0]` is only read once the block
is known to have transactions.) -/
def GetHeight (b : CBlock) : UInt32 :=
  match b.vtx with
  | coinbase :: _ =>
    match coinbase.vin with
    | txin :: _ => if coinbase.IsCoinBase then txin.prevout.n else 0
    | [] => 0
  | [] => 0

end CBlock

/-! ## Merkle roots -/

/-- `SHA256D64`: the double SHA-256 of two hashes' 64 bytes, the merkle
tree's pair hash. -/
def Crypto.SHA256D64 (C : Crypto) (a b : uint256) : uint256 := C.hash256 (a.bytes ++ b.bytes)

section Merkle

/- The loop takes its pair hash as a parameter: `BlockMerkleRoot` passes
`SHA256D64`, and the properties of the tree are stated for any. -/
variable (SHA256D64 : uint256 → uint256 → uint256)

/-- One level of `ComputeMerkleRoot`: `SHA256D64` of each pair, the last hash
doubled when the level is odd. -/
def merklePairs : List uint256 → List uint256
  | a :: b :: rest => SHA256D64 a b :: merklePairs rest
  | [a] => [SHA256D64 a a]
  | [] => []

/-- The `mutated` test of one level: two equal hashes at positions `2k` and
`2k + 1`. -/
def hasEqualPair : List uint256 → Bool
  | a :: b :: rest => a == b || hasEqualPair rest
  | _ => false

/-- The loop of `ComputeMerkleRoot`, `fuel` levels at most. -/
def computeMerkleRootAux : Nat → List uint256 → Bool → uint256 × Bool
  | 0, hashes, mutation => (hashes.headD (Blob.zero 32), mutation)
  | fuel + 1, hashes, mutation =>
    if hashes.length > 1 then computeMerkleRootAux fuel (merklePairs SHA256D64 hashes) (mutation || hasEqualPair hashes)
    else (hashes.headD (Blob.zero 32), mutation)

/-- `ComputeMerkleRoot`: the root (`uint256()` for no hashes) and whether the
tree is mutated. Every level at least halves a list of two or more, so the
list's length bounds the levels. -/
def ComputeMerkleRoot (hashes : List uint256) : uint256 × Bool :=
  computeMerkleRootAux SHA256D64 hashes.length hashes false

end Merkle

/-- `BlockMerkleRoot(block, &mutated, immutable)`: over the transactions'
`GetHash`, or their `GetHashMalFix` for the immutable root. -/
def BlockMerkleRoot (C : Crypto) (block : CBlock) (immutable : Bool) : uint256 × Bool :=
  ComputeMerkleRoot C.SHA256D64 (block.vtx.map fun tx => if immutable then tx.GetHashMalFix C else tx.GetHash C)

end Tapyrus
