import Tapyrus.Validation.CheckBlock
import Tapyrus.Merkle
/-!
# Compact blocks

`blockencodings.h` and `blockencodings.cpp`: the `cmpctblock` message
(`CBlockHeaderAndShortTxIDs`). The constructor keeps the header, a random
nonce, the coinbase as the one prefilled transaction (index 0) and, for every
other transaction, a six-byte short id: SipHash of its `GetHashMalFix` under
the two keys `FillShortTxIDSelector` reads from SHA-256 of the header and the
nonce.

`SerializationOp` writes (and reads) transaction positions as `uint16_t`, and
throws `"indexes overflowed 16 bits"` when the message counts more than 65535
transactions (`BlockTxCount`). The test stands after the fields, outside the
`ForRead` branch, so writing a message throws as reading one does: a node
cannot send the compact form of a block of more transactions. `CheckBlock`
bounds the transactions by the maximum block size only, which an xfield can
raise to any `uint32_t` above 1000 (`CheckBlock_wideBlock`).
-/

namespace Tapyrus

open Lib

/-- `PrefilledTransaction`: the transaction and its index (in the message,
the offset from the previous prefilled transaction). -/
structure PrefilledTransaction where
  index : UInt16
  tx : CTransaction
  deriving DecidableEq, Repr

/-- `PrefilledTransaction::SerializationOp`, writing: the index as a
CompactSize, then the transaction. The index is read back from a `uint16_t`,
so the overflow test cannot fire here. -/
def PrefilledTransaction.serialize (p : PrefilledTransaction) : Except SerError (List UInt8) :=
  let idx := p.index.toNat
  if idx > 0xffff then .error (.iosFailure "index overflowed 16-bits")
  else .ok (WriteCompactSize idx ++ p.tx.serialize false)

/-- `CBlockHeaderAndShortTxIDs`. The SipHash keys `shorttxidk0`,
`shorttxidk1` are a cache of `FillShortTxIDSelector`, a function of the
header and the nonce. -/
structure CBlockHeaderAndShortTxIDs where
  nonce : UInt64
  shorttxids : List UInt64
  prefilledtxn : List PrefilledTransaction
  header : CBlockHeader
  deriving DecidableEq, Repr

namespace CBlockHeaderAndShortTxIDs

/-- `BlockTxCount`. -/
def BlockTxCount (c : CBlockHeaderAndShortTxIDs) : Nat := c.shorttxids.length + c.prefilledtxn.length

/-- A short id on the wire: the low four bytes, then the next two. -/
def serializeShortID (shorttxid : UInt64) : List UInt8 :=
  ser_writedata32 (shorttxid &&& 0xffffffff).toNat ++ ser_writedata16 ((shorttxid >>> 32) &&& 0xffff).toNat

/-- `SerializationOp`, writing: the header, the nonce, the short ids and the
prefilled transactions; then the count test, which throws with all of it
written. -/
def serialize (c : CBlockHeaderAndShortTxIDs) : Except SerError (List UInt8) := do
  let prefilled ← c.prefilledtxn.mapM PrefilledTransaction.serialize
  if c.BlockTxCount > 0xffff then throw (.iosFailure "indexes overflowed 16 bits")
  pure (c.header.serialize ++ ser_writedata64 c.nonce.toNat ++ WriteCompactSize c.shorttxids.length ++
    (c.shorttxids.map serializeShortID).flatten ++ WriteCompactSize c.prefilledtxn.length ++ prefilled.flatten)

section ShortIDs

/- SipHash-2-4 over a `uint256` (`SipHashUint256(k0, k1, val)`) is a
parameter, as the hash functions of `Crypto` are. -/
variable (C : Crypto) (SipHashUint256 : UInt64 → UInt64 → uint256 → UInt64)

/-- `FillShortTxIDSelector`: the first two little-endian 64-bit words of
SHA-256 of the header and the nonce. -/
def FillShortTxIDSelector (c : CBlockHeaderAndShortTxIDs) : UInt64 × UInt64 :=
  let shorttxidhash := C.sha256 (c.header.serialize ++ ser_writedata64 c.nonce.toNat)
  (UInt64.ofNat (ofLE (shorttxidhash.bytes.take 8)), UInt64.ofNat (ofLE ((shorttxidhash.bytes.drop 8).take 8)))

/-- `GetShortID`: SipHash under the selector's keys, to six bytes. -/
def GetShortID (c : CBlockHeaderAndShortTxIDs) (txhash : uint256) : UInt64 :=
  let (shorttxidk0, shorttxidk1) := FillShortTxIDSelector C c
  SipHashUint256 shorttxidk0 shorttxidk1 txhash &&& 0xffffffffffff

/-- `CBlockHeaderAndShortTxIDs(block)` with the nonce `GetRand` drew. The
code reads `block.vtx[0]` unchecked (and sizes `shorttxids` as
`vtx.size() - 1`); the model has no message for a block without
transactions. -/
def ofBlock (nonce : UInt64) (block : CBlock) : Option CBlockHeaderAndShortTxIDs :=
  match block.vtx with
  | [] => none
  | coinbase :: rest =>
    let cmpctblock : CBlockHeaderAndShortTxIDs := ⟨nonce, [], [⟨0, coinbase⟩], block.toCBlockHeader⟩
    some { cmpctblock with shorttxids := rest.map fun tx => GetShortID C SipHashUint256 cmpctblock (tx.GetHashMalFix C) }

/-- The message of a block counts the block's transactions. -/
theorem ofBlock_BlockTxCount {nonce : UInt64} {block : CBlock} {c : CBlockHeaderAndShortTxIDs}
    (h : ofBlock C SipHashUint256 nonce block = some c) : c.BlockTxCount = block.vtx.length := by
  unfold ofBlock at h
  split at h
  · cases h
  · rename_i coinbase rest hvtx
    cases h
    simp [BlockTxCount, hvtx]

theorem ofBlock_eq_some (nonce : UInt64) {block : CBlock} (h : block.vtx ≠ []) :
    ∃ c, ofBlock C SipHashUint256 nonce block = some c := by
  unfold ofBlock
  split
  · contradiction
  · exact ⟨_, rfl⟩

end ShortIDs

/-- A prefilled transaction is always written. -/
theorem PrefilledTransaction.serialize_eq_ok (p : PrefilledTransaction) :
    p.serialize = .ok (WriteCompactSize p.index.toNat ++ p.tx.serialize false) := by
  have h : ¬ p.index.toNat > 0xffff := by
    have := p.index.toNat_lt
    omega
  simp [PrefilledTransaction.serialize, h]

theorem mapM_PrefilledTransaction_serialize (l : List PrefilledTransaction) :
    l.mapM PrefilledTransaction.serialize = .ok (l.map fun p => WriteCompactSize p.index.toNat ++ p.tx.serialize false) := by
  induction l with
  | nil => rfl
  | cons p l ih => simp [List.mapM_cons, PrefilledTransaction.serialize_eq_ok, ih]

/-- Writing a message throws exactly when it counts more than 65535
transactions, and then with the count's message. -/
theorem serialize_eq_error_iff (c : CBlockHeaderAndShortTxIDs) (e : SerError) :
    c.serialize = .error e ↔ 0xffff < c.BlockTxCount ∧ e = .iosFailure "indexes overflowed 16 bits" := by
  unfold serialize
  rw [mapM_PrefilledTransaction_serialize]
  by_cases hc : c.BlockTxCount > 0xffff
  · simp [hc, throw, throwThe, MonadExceptOf.throw, eq_comm]
  · simp [hc]

/-- The compact form of a block of more than 65535 transactions throws when
written, whatever the nonce. -/
theorem ofBlock_serialize_eq_error (C : Crypto) (SipHashUint256 : UInt64 → UInt64 → uint256 → UInt64)
    (nonce : UInt64) {block : CBlock} (h : 0xffff < block.vtx.length) :
    ∃ c, ofBlock C SipHashUint256 nonce block = some c ∧ c.serialize = .error (.iosFailure "indexes overflowed 16 bits") := by
  have hne : block.vtx ≠ [] := List.ne_nil_of_length_pos (by omega)
  obtain ⟨c, hc⟩ := ofBlock_eq_some C SipHashUint256 nonce hne
  refine ⟨c, hc, (serialize_eq_error_iff c _).2 ⟨?_, rfl⟩⟩
  rw [ofBlock_BlockTxCount C SipHashUint256 hc]
  exact h

end CBlockHeaderAndShortTxIDs

/-! ## Sizes -/

/-- A vector of items of `k` bytes each. -/
theorem serializeList_length_of_forall {α : Type} {ser : α → List UInt8} {k : Nat} {l : List α}
    (h : ∀ x ∈ l, (ser x).length = k) :
    (serializeList ser l).length = GetSizeOfCompactSize l.length + k * l.length := by
  have hmap : l.map (fun x => (ser x).length) = l.map fun _ => k := List.map_congr_left h
  simp [serializeList, WriteCompactSize_length, List.length_flatten, List.map_map, Function.comp_def, hmap,
    Nat.mul_comm]

theorem CBlockHeader.serialize_length (h : CBlockHeader) :
    h.serialize.length = 104 + h.xfield.serialize.length + GetSizeOfCompactSize h.proof.length + h.proof.length := by
  simp [CBlockHeader.serialize, CBlockHeader.serializeWithoutProof, serializeBytes, ser_writeint,
    ser_writedata32, ser_writedata, WriteCompactSize_length, Blob.length_eq]
  omega

theorem checkTransactions_eq_ok_of_forall {history : CXFieldHistoryMap} :
    ∀ {vtx : List CTransaction}, (∀ tx ∈ vtx, CheckTransaction history tx true = .ok ()) →
      checkTransactions history vtx = .ok ()
  | [], _ => rfl
  | tx :: rest, h => by
    rw [checkTransactions, h tx List.mem_cons_self, ok_bind]
    exact checkTransactions_eq_ok_of_forall fun t ht => h t (List.mem_cons_of_mem tx ht)

/-! ## A block `CheckBlock` admits and no node can relay as a compact block

Witness data: hash functions that keep the first bytes of their input, so a
transaction's id shows the start of its outpoint; a federation check that
always passes; a history whose latest xfield set the maximum block size to
`size`. Transaction `i` spends output 1 of the transaction whose id is the
number `i`, to one empty output of value 0; transaction 0, whose outpoint is
null, is the coinbase of height 1. Each is sixty bytes with no signature
operation, so a block of 65536 fits four megabytes. -/

/-- The first `n` bytes of the input, zero-padded. -/
def truncHash (n : Nat) (x : List UInt8) : Blob n := ⟨(x ++ List.replicate n 0).take n, by simp⟩

def truncCrypto : Crypto := ⟨truncHash 32, truncHash 20, truncHash 20, fun _ => true⟩

theorem truncHash_of_length {n : Nat} {x : List UInt8} (h : x.length = n) : (truncHash n x).bytes = x := by
  simp [truncHash, ← h]

theorem truncCrypto_hash256 (x : List UInt8) : truncCrypto.hash256 x = truncHash 32 x :=
  Blob.ext' (truncHash_of_length (truncHash 32 x).length_eq)

/-- The pair hash keeps the left hash. -/
theorem truncCrypto_SHA256D64 (a b : uint256) : truncCrypto.SHA256D64 a b = a := by
  apply Blob.ext'
  rw [Crypto.SHA256D64, truncCrypto_hash256]
  simp [truncHash, ← a.length_eq]

def wideEnv : ValidationEnv :=
  ⟨truncCrypto, fun _ _ _ => true, fun _ => true, fun _ _ _ => BaseSignatureChecker.base, Blob.zero 32, 150⟩

/-- The genesis history, then an xfield at height 1 that sets the maximum
block size to `size`. -/
def wideHistory (size : UInt32) : CXFieldHistoryMap :=
  ⟨[⟨.aggPubKey (0x02 :: List.replicate 32 0), 0, Blob.zero 32⟩],
    [⟨.maxBlockSize MAX_BLOCK_SIZE, 0, Blob.zero 32⟩, ⟨.maxBlockSize size, 1, Blob.zero 32⟩]⟩

def wideTx (i : Nat) : CTransaction :=
  ⟨[⟨⟨⟨toLE 32 i, toLE_length 32 i⟩, 1⟩, [], 0xffffffff, []⟩], [⟨0, []⟩], 1, 0⟩

/-- The coinbase and `n` spends. -/
def wideTxs (n : Nat) : List CTransaction := (List.range (n + 1)).map wideTx

def wideBlock (n : Nat) : CBlock :=
  { nFeatures := 1, hashPrevBlock := Blob.zero 32,
    hashMerkleRoot := (ComputeMerkleRoot truncCrypto.SHA256D64 ((wideTxs n).map (·.GetHash truncCrypto))).1,
    hashImMerkleRoot := (ComputeMerkleRoot truncCrypto.SHA256D64 ((wideTxs n).map (·.GetHashMalFix truncCrypto))).1,
    nTime := 0, xfield := ⟨.NONE, .empty⟩, proof := [1], vtx := wideTxs n, fChecked := false }

theorem wideTxs_eq_cons (n : Nat) : wideTxs n = wideTx 0 :: (List.range n).map fun i => wideTx (i + 1) := by
  rw [wideTxs, List.range_succ_eq_map, List.map_cons, List.map_map]
  rfl

theorem wideTx_serialize_length (i : Nat) : ((wideTx i).serialize false).length = 60 := by
  simp [wideTx, CTransaction.serialize, serializeList, CTxIn.serialize, CTxOut.serialize, COutPoint.serialize,
    serializeBytes, ser_writeint, ser_writedata32, ser_writedata, WriteCompactSize_length, GetSizeOfCompactSize]

theorem wideTx_GetHashMalFix (i : Nat) :
    (wideTx i).GetHashMalFix truncCrypto = ⟨[1, 0, 0, 0, 1] ++ toLE 27 i, by simp⟩ := by
  have hfeatures : toLE 4 1 = [1, 0, 0, 0] := rfl
  have hid : (toLE 32 i).take 27 = toLE 27 i := take_toLE (by omega) i
  apply Blob.ext'
  simp [CTransaction.GetHashMalFix, truncCrypto_hash256, truncHash, wideTx, CTransaction.serialize, serializeList,
    CTxIn.serialize, COutPoint.serialize, ser_writeint, WriteCompactSize_of_lt, hfeatures,
    List.take_append_of_le_length, hid]

theorem wideTx_IsCoinBase_zero : (wideTx 0).IsCoinBase = true := by decide

theorem wideTx_IsCoinBase_of_pos {i : Nat} (h0 : 0 < i) (h : i < 256 ^ 32) : (wideTx i).IsCoinBase = false := by
  rw [Bool.eq_false_iff]
  intro hcb
  have hzero : ofLE (toLE 32 i) = 0 := ofLE_eq_zero_of_all hcb
  rw [ofLE_toLE_of_lt h] at hzero
  omega

theorem wideTx_GetLegacySigOpCount (i : Nat) : GetLegacySigOpCount (wideTx i) = 0 := rfl

/-- Every transaction of the block passes `CheckTransaction`, the coinbase
(height 1, an empty `scriptSig`) and the spends (outpoints that are not
null) alike. -/
theorem CheckTransaction_wideTx {history : CXFieldHistoryMap} {size : UInt32}
    (hsize : GetCurrentMaxBlockSize history = some size) (h60 : 60 ≤ size.toNat) (i : Nat) :
    CheckTransaction history (wideTx i) true = .ok () := by
  have hlen : ¬ 60 > size.toNat := by omega
  simp only [CheckTransaction, hsize, CTransaction.GetSerializeSize, wideTx_serialize_length, hlen, if_false]
  simp [wideTx, checkOutputValues, checkDuplicateInputs, MoneyRange, MAX_MONEY, COIN, COutPoint.IsNull]

theorem wideTxs_hashes_nodup {n : Nat} (hn : n < 256 ^ 27) :
    ((wideTxs n).map (·.GetHashMalFix truncCrypto)).Nodup := by
  rw [wideTxs, List.map_map]
  apply List.Nodup.map_on _ List.nodup_range
  intro i hi j hj hij
  simp only [Function.comp_apply, wideTx_GetHashMalFix, Blob.mk.injEq, List.append_cancel_left_eq] at hij
  have hi' : i < 256 ^ 27 := by simp at hi; omega
  have hj' : j < 256 ^ 27 := by simp at hj; omega
  rw [← ofLE_toLE_of_lt hi', ← ofLE_toLE_of_lt hj', hij]

theorem wideBlock_GetSerializeSize (n : Nat) :
    (wideBlock n).GetSerializeSize = 107 + GetSizeOfCompactSize (n + 1) + 60 * (n + 1) := by
  have htxs : ∀ tx ∈ wideTxs n, (tx.serialize false).length = 60 := by
    intro tx htx
    obtain ⟨i, -, rfl⟩ := List.mem_map.1 htx
    exact wideTx_serialize_length i
  have hvtx : (wideBlock n).vtx = wideTxs n := rfl
  rw [CBlock.GetSerializeSize, CBlock.serialize, List.length_append, CBlockHeader.serialize_length, hvtx,
    serializeList_length_of_forall htxs]
  have hproof : GetSizeOfCompactSize 1 = 1 := rfl
  simp [wideBlock, wideTxs, CXField.serialize, XFieldData.serialize, hproof]
  omega

theorem wideHistory_GetLatest (size : UInt32) :
    (wideHistory size).GetLatest .MAXBLOCKSIZE = some (.maxBlockSize size) := rfl

theorem wideHistory_GetCurrentMaxBlockSize (size : UInt32) :
    GetCurrentMaxBlockSize (wideHistory size) = some size := rfl

theorem wideHistory_GetMaxBlockSigops (size : UInt32) :
    GetMaxBlockSigops (wideHistory size) = some (size / 50) := rfl

theorem wideBlock_vtx (n : Nat) : (wideBlock n).vtx = wideTx 0 :: (List.range n).map fun i => wideTx (i + 1) :=
  wideTxs_eq_cons n

/-- The block's roots are its transactions' roots, and the immutable tree is
not flagged: the pair hash keeps its left hash and the ids differ. -/
theorem wideBlock_BlockMerkleRoot {n : Nat} (hn : n < 256 ^ 27) :
    (BlockMerkleRoot truncCrypto (wideBlock n) false).1 = (wideBlock n).hashMerkleRoot ∧
      BlockMerkleRoot truncCrypto (wideBlock n) true = ((wideBlock n).hashImMerkleRoot, false) := by
  have hmut := ComputeMerkleRoot_not_mutated truncCrypto_SHA256D64 (wideTxs_hashes_nodup hn)
  refine ⟨by simp [BlockMerkleRoot, wideBlock], ?_⟩
  simp only [BlockMerkleRoot, wideBlock, if_true]
  exact Prod.ext rfl hmut

theorem wideBlock_GetHeight (n : Nat) : (wideBlock n).GetHeight = 1 := by
  rw [CBlock.GetHeight, wideBlock_vtx]
  rfl

/-- A header with the features, an empty xfield and a proof passes: the
federation's check accepts the proof under the genesis key. -/
theorem CheckBlockHeader_wideEnv {header : CBlockHeader} (size : UInt32) (hfeatures : header.nFeatures = 1)
    (hxfield : header.xfield = ⟨.NONE, .empty⟩) (hproof : header.proof ≠ []) :
    CheckBlockHeader wideEnv (wideHistory size) none header 1 true = .ok () := by
  have hvalid : CXField.IsValid (fun _ => true) ⟨.NONE, .empty⟩ = true := rfl
  have hkey : (wideHistory size).Get .AGGPUBKEY 1 =
      some ⟨.aggPubKey (0x02 :: List.replicate 32 0), 0, Blob.zero 32⟩ := rfl
  simp [CheckBlockHeader, wideEnv, CBlockHeader.TAPYRUS_BLOCK_FEATURES, hfeatures, hxfield, hvalid, hkey, hproof]

theorem CheckBlock_wideBlock {n : Nat} {size : UInt32} (hn : n < 256 ^ 27)
    (hsize : 107 + GetSizeOfCompactSize (n + 1) + 60 * (n + 1) ≤ size.toNat) :
    CheckBlock wideEnv none (wideHistory size) none (wideBlock n) true true = .ok true := by
  obtain ⟨hroot, himm⟩ := wideBlock_BlockMerkleRoot hn
  have hC : wideEnv.C = truncCrypto := rfl
  have hfc : (wideBlock n).fChecked = false := rfl
  have hcb : (wideTx 0).vout.any (·.scriptPubKey.IsColoredScript) = false := rfl
  have hcount : ¬ (wideBlock n).vtx.length > size.toNat := by
    simp only [wideBlock_vtx, List.length_cons, List.length_map, List.length_range]
    omega
  have hbytes : ¬ (wideBlock n).GetSerializeSize > size.toNat := by
    rw [wideBlock_GetSerializeSize]
    omega
  -- the spends are no coinbase: their outpoints are not null
  have hmulti : ((List.range n).map fun i => wideTx (i + 1)).any (·.IsCoinBase) = false := by
    rw [List.any_eq_false]
    intro tx htx
    obtain ⟨i, hi, rfl⟩ := List.mem_map.1 htx
    have hi : i < n := List.mem_range.1 hi
    have hbound : i + 1 < 256 ^ 32 := by
      have : (256 : Nat) ^ 27 ≤ 256 ^ 32 := Nat.pow_le_pow_right (by norm_num) (by norm_num)
      omega
    simp [wideTx_IsCoinBase_of_pos (Nat.succ_pos i) hbound]
  have hchecks : checkTransactions (wideHistory size) (wideBlock n).vtx = .ok () := by
    apply checkTransactions_eq_ok_of_forall
    intro tx htx
    obtain ⟨i, -, rfl⟩ := List.mem_map.1 htx
    exact CheckTransaction_wideTx (wideHistory_GetCurrentMaxBlockSize size) (by omega) i
  have hsigops : ((wideBlock n).vtx.map GetLegacySigOpCount).sum = 0 := by
    apply List.sum_eq_zero
    intro k hk
    obtain ⟨tx, htx, rfl⟩ := List.mem_map.1 hk
    obtain ⟨i, -, rfl⟩ := List.mem_map.1 htx
    exact wideTx_GetLegacySigOpCount i
  have hheader : CheckBlockHeader wideEnv (wideHistory size) none (wideBlock n).toCBlockHeader 1 true = .ok () :=
    CheckBlockHeader_wideEnv size rfl rfl (List.cons_ne_nil _ _)
  unfold CheckBlock
  simp only [hC, hfc, hroot, himm, ne_eq, not_true_eq_false, if_false, if_true, Bool.false_eq_true, ok_bind,
    wideHistory_GetLatest, wideBlock_GetHeight, hheader, hcount, hbytes, decide_false,
    Bool.or_false, hchecks, hsigops, wideHistory_GetMaxBlockSigops]
  rw [wideBlock_vtx]
  simp only [wideTx_IsCoinBase_zero, hcb, Bool.not_true, Option.isSome_none, Bool.false_and, Bool.false_eq_true,
    if_false, hmulti, gt_iff_lt, Nat.not_lt_zero]
  rfl

/-- A block of 65536 transactions, under a maximum block size an xfield set
to four megabytes, passes `CheckBlock` with its proof and merkle roots
checked; its compact form throws when written, whatever the nonce and the
SipHash keys. -/
theorem CheckBlock_ok_cmpctblock_serialize_throws :
    (wideHistory 4000000).GetLatest .MAXBLOCKSIZE = some (.maxBlockSize 4000000) ∧
      CheckBlock wideEnv none (wideHistory 4000000) none (wideBlock 65535) true true = .ok true ∧
      ∀ (SipHashUint256 : UInt64 → UInt64 → uint256 → UInt64) (nonce : UInt64),
        ∃ cmpctblock, CBlockHeaderAndShortTxIDs.ofBlock truncCrypto SipHashUint256 nonce (wideBlock 65535) =
            some cmpctblock ∧ cmpctblock.serialize = .error (.iosFailure "indexes overflowed 16 bits") := by
  have hsize : 107 + GetSizeOfCompactSize (65535 + 1) + 60 * (65535 + 1) ≤ (4000000 : UInt32).toNat := by
    decide
  have hcount : 0xffff < (wideBlock 65535).vtx.length := by
    rw [wideBlock_vtx, List.length_cons, List.length_map, List.length_range]
    norm_num
  refine ⟨wideHistory_GetLatest 4000000, CheckBlock_wideBlock (by norm_num) hsize, ?_⟩
  intro SipHashUint256 nonce
  exact CBlockHeaderAndShortTxIDs.ofBlock_serialize_eq_error truncCrypto SipHashUint256 nonce hcount

end Tapyrus
