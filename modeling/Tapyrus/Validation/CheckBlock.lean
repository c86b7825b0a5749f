import Tapyrus.Merkle
import Tapyrus.TxVerify
/-!
# Block checks

`CheckBlockHeader`, `isBlockHeightInCoinbase` and `CheckBlock`
(`validation.cpp`). The checks read the node's state: the active chain's tip
(`chainActive.Tip()`, for the height in the coinbase) and the global xfield
history (the aggregate key at the block's claimed height, the latest
maximum block size). `AcceptBlockHeader` and `ProcessNewBlockHeaders` pass a
temporary history instead, and `CheckBlockHeader` then takes the latest
aggregate key of that one.

`CheckBlock` returns at once when the block object's `fChecked` is set; a
pass with both the proof and the merkle roots checked sets it (the result is
the new value of the flag).

`isBlockHeightInCoinbase` compares the height the coinbase claims
(`GetHeight`) with the tip only when the block is the tip, its child or its
parent, and accepts any height while the tip is the genesis block.
-/

namespace Tapyrus

open Lib

/-- The cryptography and chain parameters that validation reads: the hash
functions, the federation's Schnorr check of block proofs
(`CPubKey(key).Verify_Schnorr(hash, proof)`), public key validity
(`IsFullyValid`), the signature checker of each transaction input
(`CachingTransactionSignatureChecker(tx, nIn, amount)`), the genesis block's
hash and the halving interval. -/
structure ValidationEnv where
  C : Crypto
  Verify_Schnorr : List UInt8 → uint256 → List UInt8 → Bool
  IsFullyValid : List UInt8 → Bool
  txChecker : CTransaction → Nat → Int → BaseSignatureChecker
  genesisHash : uint256
  nSubsidyHalvingInterval : Nat

/-- What validation reads of a `CBlockIndex`: the height, the block's hash,
the hash of the previous block (`uint256()` for the genesis block) and the
median time past of the ancestor at each height
(`GetAncestor(h)->GetMedianTimePast()`). -/
structure CBlockIndex where
  nHeight : Nat
  hashBlock : uint256
  hashPrevBlock : uint256
  ancestorMTP : Nat → Int

section Checks

variable (E : ValidationEnv)

/-- `CheckBlockHeader(block, state, pxfieldHistory, nHeight, fCheckPOW)`:
features, a valid xfield, and a proof that the aggregate key verifies. The
key is the latest of the temporary history when one is given, else the
global history's key at `nHeight`; a value of another variant makes
`std::get` throw. -/
def CheckBlockHeader (history : CXFieldHistoryMap) (pxfieldHistory : Option CXFieldHistoryMap)
    (block : CBlockHeader) (nHeight : UInt32) (fCheckPOW : Bool) : Valid Unit :=
  if block.nFeatures ≠ CBlockHeader.TAPYRUS_BLOCK_FEATURES then reject "bad-features"
  else if !block.xfield.IsValid E.IsFullyValid then reject "bad-xfieldType-xfield"
  else if !fCheckPOW then .ok ()
  else if block.proof.isEmpty then reject "bad-proof"
  else
    let aggregatePubkeyObj :=
      match pxfieldHistory with
      | some temp => temp.GetLatest .AGGPUBKEY
      | none => (history.Get .AGGPUBKEY nHeight).map XFieldChange.xfieldValue
    match aggregatePubkeyObj with
    | some (.aggPubKey aggregatePubkey) =>
      if !E.Verify_Schnorr aggregatePubkey (block.GetHashForSign E.C) block.proof then reject "bad-proof"
      else .ok ()
    | _ => .error .abort

/-- `isBlockHeightInCoinbase(block)` against the tip `chainActive.Tip()`. -/
def isBlockHeightInCoinbase (tip : Option CBlockIndex) (block : CBlock) : Bool :=
  match tip with
  | none => false
  | some pindex =>
    if pindex.nHeight = 0 then true
    else
      let blockHeight := block.GetHeight
      if block.GetHash E.C = pindex.hashBlock && blockHeight ≠ UInt32.ofNat pindex.nHeight then false
      else if block.hashPrevBlock = pindex.hashBlock && blockHeight ≠ UInt32.ofNat pindex.nHeight + 1 then false
      else if pindex.hashPrevBlock = block.GetHash E.C && blockHeight ≠ UInt32.ofNat pindex.nHeight - 1 then false
      -- unrelated blocks: the height is assumed valid
      else true

/-- `CheckTransaction(*tx, state, true)` on each transaction, the first
failure's reason kept. -/
def checkTransactions (history : CXFieldHistoryMap) : List CTransaction → Valid Unit
  | [] => .ok ()
  | tx :: rest => do
    CheckTransaction history tx true
    checkTransactions history rest

/-- `CheckBlock(block, state, fCheckPOW, fCheckMerkleRoot, pxfieldHistory)`:
the new value of `block.fChecked`. Both merkle roots are computed with the
same `mutated` out-parameter, so the test reads the immutable root's. -/
def CheckBlock (tip : Option CBlockIndex) (history : CXFieldHistoryMap) (pxfieldHistory : Option CXFieldHistoryMap)
    (block : CBlock) (fCheckPOW fCheckMerkleRoot : Bool) : Valid Bool :=
  if block.fChecked then .ok true else
  -- the merkle roots
  (if fCheckMerkleRoot then
    let (hashMerkleRoot2, _) := BlockMerkleRoot E.C block false
    if block.hashMerkleRoot ≠ hashMerkleRoot2 then reject "bad-txnmrklroot" else
    let (hashImMerkleRoot2, mutated) := BlockMerkleRoot E.C block true
    if block.hashImMerkleRoot ≠ hashImMerkleRoot2 then reject "bad-txnimmrklroot"
    else if mutated then reject "bad-txns-duplicate"
    else .ok ()
  else .ok ()) >>= fun () =>
  match block.vtx with
  | [] => reject "bad-cb-missing"
  | coinbase :: rest =>
  if !coinbase.IsCoinBase then reject "bad-cb-missing"
  else if coinbase.vout.any (·.scriptPubKey.IsColoredScript) then reject "bad-cb-issuetoken"
  else if tip.isSome && !isBlockHeightInCoinbase E tip block then reject "bad-cb-invalid" else
  let height := block.GetHeight
  match history.GetLatest .MAXBLOCKSIZE with
  | some (.maxBlockSize currentBlockSize) =>
    if block.vtx.length > currentBlockSize.toNat || block.GetSerializeSize > currentBlockSize.toNat then
      reject "bad-blk-length"
    else do
    CheckBlockHeader E history pxfieldHistory block.toCBlockHeader height fCheckPOW
    if rest.any (·.IsCoinBase) then reject "bad-cb-multiple"
    checkTransactions history block.vtx
    let nSigOps := (block.vtx.map GetLegacySigOpCount).sum
    match GetMaxBlockSigops history with
    | none => .error .abort
    | some nMaxSigOps =>
      if nSigOps > nMaxSigOps.toNat then reject "bad-blk-sigops"
      else .ok (fCheckPOW && fCheckMerkleRoot)
  | _ => .error .abort

end Checks

/-! ## Blocks with a mutated tree

The list-level completeness of `ComputeMerkleRoot_mutated_of_root_eq`
carried to `CheckBlock`. Both roots are computed with one `mutated`, so the
flag it tests is the immutable tree's, over the transactions'
`GetHashMalFix`. A block that passes and another nonempty block with the same
immutable root, another list of ids and the same depth: the other is
rejected by the merkle checks, unless the pair hash has a collision. -/

section Mutated

variable (E : ValidationEnv) {tip : Option CBlockIndex} {history : CXFieldHistoryMap}
  {temp : Option CXFieldHistoryMap} {block : CBlock} {pow : Bool}

/-- The immutable root is the tree over the transactions' `GetHashMalFix`. -/
theorem BlockMerkleRoot_immutable (C : Crypto) (block : CBlock) :
    BlockMerkleRoot C block true = ComputeMerkleRoot C.SHA256D64 (block.vtx.map (·.GetHashMalFix C)) := rfl

/-- The merkle checks come first: a block whose immutable root is not the
one in its header, or whose immutable tree is flagged, is rejected by them,
whatever the rest of the block. -/
theorem CheckBlock_merkle_reject (hf : block.fChecked = false)
    (h : (BlockMerkleRoot E.C block true).1 ≠ block.hashImMerkleRoot ∨ (BlockMerkleRoot E.C block true).2 = true) :
    CheckBlock E tip history temp block pow true = reject "bad-txnmrklroot" ∨
      CheckBlock E tip history temp block pow true = reject "bad-txnimmrklroot" ∨
      CheckBlock E tip history temp block pow true = reject "bad-txns-duplicate" := by
  unfold CheckBlock
  rw [hf]
  rcases hroot : BlockMerkleRoot E.C block false with ⟨root, mutated⟩
  rcases himm : BlockMerkleRoot E.C block true with ⟨imm, flag⟩
  rw [himm] at h
  simp only [Bool.false_eq_true, if_false, if_true]
  -- the txid root, the immutable root, then the immutable tree's flag
  by_cases h1 : block.hashMerkleRoot ≠ root
  · left
    simp [h1, reject]
  right
  by_cases h2 : block.hashImMerkleRoot ≠ imm
  · left
    simp [h1, h2, reject]
  right
  have hflag : flag = true := by simp_all
  simp [h1, h2, hflag, reject]

/-- A block that passes has a transaction. -/
theorem CheckBlock_ok_vtx {f : Bool} (hf : block.fChecked = false)
    (h : CheckBlock E tip history temp block pow true = .ok f) : block.vtx ≠ [] := by
  unfold CheckBlock at h
  rw [hf] at h
  simp only [Bool.false_eq_true, if_false] at h
  obtain ⟨_, -, h⟩ := bind_eq_ok h
  intro hnil
  rw [hnil] at h
  cases h

/-- A block that passes has its immutable root, and its immutable tree is not
flagged. -/
theorem CheckBlock_ok_merkle {f : Bool} (hf : block.fChecked = false)
    (h : CheckBlock E tip history temp block pow true = .ok f) :
    (BlockMerkleRoot E.C block true).1 = block.hashImMerkleRoot ∧ (BlockMerkleRoot E.C block true).2 = false := by
  by_contra hbad
  rw [not_and_or, Bool.not_eq_false] at hbad
  rcases @CheckBlock_merkle_reject E tip history temp block pow hf hbad with hrej | hrej | hrej <;>
    rw [hrej] at h <;> cases h

end Mutated

/-- A pair hash for the example below: the two hashes xored byte by byte,
plus one. -/
def xorPairHash (a b : uint256) : uint256 :=
  ⟨(a.bytes.zip b.bytes).map (fun p => (p.1 ^^^ p.2) + 1), by simp [a.length_eq, b.length_eq]⟩

/-- Three hashes for the example below. -/
def sampleLeaves : List uint256 := [Blob.zero 32, ⟨List.replicate 32 1, by simp⟩, ⟨List.replicate 32 2, by simp⟩]

theorem ComputeMerkleRoot_mutation_complete :
    (∀ (SHA256D64 : uint256 → uint256 → uint256) (L1 L2 : List uint256), L1 ≠ [] → L2 ≠ [] → L1 ≠ L2 →
      merkleRounds L1.length = merkleRounds L2.length →
      (ComputeMerkleRoot SHA256D64 L1).1 = (ComputeMerkleRoot SHA256D64 L2).1 →
      (ComputeMerkleRoot SHA256D64 L1).2 = true ∨ (ComputeMerkleRoot SHA256D64 L2).2 = true ∨
        MerkleCollision SHA256D64) ∧
    (∀ (E : ValidationEnv) (tip tip₂ : Option CBlockIndex) (history history₂ : CXFieldHistoryMap)
        (temp temp₂ : Option CXFieldHistoryMap) (block block₂ : CBlock) (pow pow₂ f : Bool),
      block.fChecked = false → block₂.fChecked = false → block₂.vtx ≠ [] →
      block.vtx.map (·.GetHashMalFix E.C) ≠ block₂.vtx.map (·.GetHashMalFix E.C) →
      merkleRounds block.vtx.length = merkleRounds block₂.vtx.length →
      block₂.hashImMerkleRoot = block.hashImMerkleRoot →
      CheckBlock E tip history temp block pow true = .ok f →
      (CheckBlock E tip₂ history₂ temp₂ block₂ pow₂ true = reject "bad-txnmrklroot" ∨
        CheckBlock E tip₂ history₂ temp₂ block₂ pow₂ true = reject "bad-txnimmrklroot" ∨
        CheckBlock E tip₂ history₂ temp₂ block₂ pow₂ true = reject "bad-txns-duplicate") ∨
        MerkleCollision E.C.SHA256D64) := by
  refine ⟨ComputeMerkleRoot_mutated_of_root_eq, ?_⟩
  intro E tip tip₂ history history₂ temp temp₂ block block₂ pow pow₂ f hf hf₂ hne₂ hdiff hdepth himm hok
  have hpass := CheckBlock_ok_merkle E hf hok
  by_cases hbad₂ : (BlockMerkleRoot E.C block₂ true).1 ≠ block₂.hashImMerkleRoot ∨
      (BlockMerkleRoot E.C block₂ true).2 = true
  · exact .inl (CheckBlock_merkle_reject E hf₂ hbad₂)
  -- the other block has the same immutable root: by completeness of the
  -- immutable tree, it is flagged unless the pair hash collides
  rw [not_or, not_not, Bool.not_eq_true] at hbad₂
  have hne : block.vtx.map (·.GetHashMalFix E.C) ≠ [] := by
    simpa using CheckBlock_ok_vtx E hf hok
  rw [BlockMerkleRoot_immutable] at hpass hbad₂
  rcases ComputeMerkleRoot_mutated_of_root_eq E.C.SHA256D64 _ _ hne (by simpa using hne₂) hdiff
      (by simpa using hdepth) (by rw [hpass.1, hbad₂.1, himm]) with h | h | h
  · rw [hpass.2] at h
    cases h
  · rw [hbad₂.2] at h
    cases h
  · exact .inr h

/-- Three hashes and the same three with the last doubled: one root, one
depth, and the longer list flagged. -/
theorem ComputeMerkleRoot_mutation_complete_doubled :
    (ComputeMerkleRoot xorPairHash sampleLeaves).1 =
        (ComputeMerkleRoot xorPairHash (sampleLeaves ++ [sampleLeaves.getLastD (Blob.zero 32)])).1 ∧
      ((ComputeMerkleRoot xorPairHash sampleLeaves).2 = true ∨
        (ComputeMerkleRoot xorPairHash (sampleLeaves ++ [sampleLeaves.getLastD (Blob.zero 32)])).2 = true ∨
        MerkleCollision xorPairHash) := by
  have hroot : (ComputeMerkleRoot xorPairHash sampleLeaves).1 =
      (ComputeMerkleRoot xorPairHash (sampleLeaves ++ [sampleLeaves.getLastD (Blob.zero 32)])).1 := by
    decide
  exact ⟨hroot, ComputeMerkleRoot_mutation_complete.1 xorPairHash _ _ (by simp [sampleLeaves]) (by simp)
    (by decide) (by simp [sampleLeaves, merkleRounds]) hroot⟩

end Tapyrus
