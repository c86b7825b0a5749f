import Tapyrus.Validation.ConnectBlock
import Tapyrus.CompactBlock
/-!
# Undo records

`undo.h`, `compressor.h` and `compressor.cpp`: the stream format of the undo
record `ConnectBlock` collects (`CBlockUndo`: one `CTxUndo` per transaction
after the coinbase, one coin per input), as `UndoWriteToDisk` writes it and
`UndoReadFromDisk` reads it back for `DisconnectBlock`.

A coin is written as `TxInUndoSerializer` does: a VarInt of twice the height
plus the coinbase flag, a zero byte where older versions kept the
transaction version (for a height above 0), then the output compressed
(`CTxOutCompressor`): the amount by `CompressAmount`, the script by
`CScriptCompressor`, which stores the three standard templates in 21 or 33
bytes and any other script as a VarInt of its length plus 6 and its bytes.

The reader of `CTxUndo` refuses a count above `MAX_INPUTS_PER_BLOCK`, the
genesis `MAX_BLOCK_SIZE` over the size of an empty input: 24390.
`CheckTransaction` bounds a transaction by the current maximum block size
instead, which an xfield can raise, so a transaction of more inputs can be
connected and its undo record then cannot be read.

The stream is modelled as its bytes (`SerReader`); a short read throws the
model's `END_OF_DATA` where the undo file throws `CAutoFile`'s message.
-/

namespace Tapyrus

open Lib

/-! ## Amounts -/

/-- The loop of `CompressAmount`: divide by 10 while the last digit is 0, at
most `k` more times, counting the divisions in `e`. -/
def stripZeros : Nat → Nat → Nat → Nat × Nat
  | n, e, 0 => (n, e)
  | n, e, k + 1 => if n % 10 = 0 then stripZeros (n / 10) (e + 1) k else (n, e)

/-- `CompressAmount` of a `uint64_t`: the exponent `e` of the trailing zeros
(at most 9) and, below 9, the last nonzero digit `d`, packed as
`1 + 10 * (9 * n + d - 1) + e`. The code's `assert(d >= 1 && d <= 9)` holds:
the loop stopped at a nonzero digit. -/
def CompressAmount (n : Nat) : Nat :=
  if n = 0 then 0 else
  let (n, e) := stripZeros n 0 9
  if e < 9 then
    let d := n % 10
    let n := n / 10
    (1 + (n * 9 + d - 1) * 10 + e) % 2 ^ 64
  else (1 + (n - 1) * 10 + 9) % 2 ^ 64

/-- `DecompressAmount`, in `uint64_t`: the loop `while (e) n *= 10` is the
product by `10 ^ e`, wrapping. -/
def DecompressAmount (x : Nat) : Nat :=
  if x = 0 then 0 else
  let x := x - 1
  let e := x % 10
  let x := x / 10
  let n := if e < 9 then x / 9 * 10 + (x % 9 + 1) else x + 1
  n * 10 ^ e % 2 ^ 64

/-- A `uint64_t` stored into an `int64_t` (`CAmount`): two's complement. -/
def toInt64 (n : Nat) : Int := if n < 2 ^ 63 then n else n - 2 ^ 64

/-! ## Scripts -/

/-- `nSpecialScripts`: the codes `CScriptCompressor` keeps for templates. -/
def nSpecialScripts : Nat := 6

/-- `IsToKeyID`: a pay-to-pubkey-hash script, and its hash. -/
def IsToKeyID (script : CScript) : Option (List UInt8) :=
  if script.length == 25 && script[0]? == some OP_DUP && script[1]? == some OP_HASH160 && script[2]? == some 20 &&
      script[23]? == some OP_EQUALVERIFY && script[24]? == some OP_CHECKSIG then
    some ((script.drop 3).take 20)
  else none

/-- `IsToScriptID`: a pay-to-script-hash script, and its hash. -/
def IsToScriptID (script : CScript) : Option (List UInt8) :=
  if script.length == 23 && script[0]? == some OP_HASH160 && script[1]? == some 20 && script[22]? == some OP_EQUAL then
    some ((script.drop 2).take 20)
  else none

section Compress

/- `CPubKey::IsFullyValid`, as `ValidationEnv` has it. -/
variable (IsFullyValid : List UInt8 → Bool)

/-- `IsToPubKey`: a pay-to-pubkey script with a compressed key, or with an
uncompressed key that is fully valid, and the key. -/
def IsToPubKey (script : CScript) : Option (List UInt8) :=
  if script.length == 35 && script[0]? == some 33 && script[34]? == some OP_CHECKSIG &&
      (script[1]? == some 0x02 || script[1]? == some 0x03) then
    some ((script.drop 1).take 33)
  else if script.length == 67 && script[0]? == some 65 && script[66]? == some OP_CHECKSIG &&
      script[1]? == some 0x04 then
    let pubkey := (script.drop 1).take 65
    if IsFullyValid pubkey then some pubkey else none
  else none

/-- `CompressScript`: the 21- or 33-byte form of a template, or `none`
(`false`) for any other script. An uncompressed key keeps its `x` and the
parity of `y`. -/
def CompressScript (script : CScript) : Option (List UInt8) :=
  match IsToKeyID script with
  | some hash => some (0x00 :: hash)
  | none =>
  match IsToScriptID script with
  | some hash => some (0x01 :: hash)
  | none =>
  match IsToPubKey IsFullyValid script with
  | some pubkey =>
    let x := (pubkey.drop 1).take 32
    if pubkey[0]? == some 0x02 || pubkey[0]? == some 0x03 then some (pubkey.headD 0 :: x)
    else if pubkey[0]? == some 0x04 then some ((0x04 ||| (pubkey.getD 64 0 &&& 0x01)) :: x)
    else none
  | none => none

/-- `CScriptCompressor::Serialize`. -/
def CScriptCompressor.serialize (script : CScript) : List UInt8 :=
  match CompressScript IsFullyValid script with
  | some compr => compr
  | none => WriteVarInt (script.length + nSpecialScripts) ++ script

/-- `CTxOutCompressor`, writing: the compressed amount (the `int64_t` value
read as a `uint64_t`) and the script. -/
def CTxOutCompressor.serialize (txout : CTxOut) : List UInt8 :=
  WriteVarInt (CompressAmount (txout.nValue % 2 ^ 64).toNat) ++ CScriptCompressor.serialize IsFullyValid txout.scriptPubKey

/-- `TxInUndoSerializer`: the height and the coinbase flag, the dummy
version byte above height 0, the output. -/
def TxInUndoSerializer (txout : Coin) : List UInt8 :=
  WriteVarInt (txout.nHeight * 2 + if txout.fCoinBase then 1 else 0) ++ (if txout.nHeight > 0 then [0] else []) ++
    CTxOutCompressor.serialize IsFullyValid txout.out

/-- `CTxUndo::Serialize`: a CompactSize count, then the coins. -/
def CTxUndo.serialize (txundo : CTxUndo) : List UInt8 :=
  WriteCompactSize txundo.length ++ (txundo.map (TxInUndoSerializer IsFullyValid)).flatten

/-- `CBlockUndo`'s `READWRITE(vtxundo)`: the vector of records. -/
def CBlockUndo.serialize (vtxundo : List CTxUndo) : List UInt8 :=
  serializeList (CTxUndo.serialize IsFullyValid) vtxundo

end Compress

/-- `GetSpecialScriptSize`: the bytes that follow a template code. -/
def GetSpecialScriptSize (nSize : Nat) : Nat :=
  if nSize = 0 || nSize = 1 then 20
  else if nSize = 2 || nSize = 3 || nSize = 4 || nSize = 5 then 32
  else 0

section Decompress

/- `CPubKey::Decompress` of a 33-byte key: the 65-byte form, or `none` for a
point that is not on the curve. -/
variable (Decompress : List UInt8 → Option (Blob 65))

/-- `DecompressScript(script, nSize, in)`: the template of code `nSize`
around the stored bytes, or `none` (`false`) when a compressed key does not
decompress. -/
def DecompressScript (nSize : Nat) (input : List UInt8) : Option CScript :=
  if nSize = 0 then some (OP_DUP :: OP_HASH160 :: 20 :: input.take 20 ++ [OP_EQUALVERIFY, OP_CHECKSIG])
  else if nSize = 1 then some (OP_HASH160 :: 20 :: input.take 20 ++ [OP_EQUAL])
  else if nSize = 2 || nSize = 3 then some (33 :: UInt8.ofNat nSize :: input.take 32 ++ [OP_CHECKSIG])
  else if nSize = 4 || nSize = 5 then
    (Decompress (UInt8.ofNat (nSize - 2) :: input.take 32)).map fun pubkey => 65 :: pubkey.bytes ++ [OP_CHECKSIG]
  else none

/-- `CScriptCompressor::Unserialize` into the empty script of a fresh coin:
a template (the script stays empty when `DecompressScript` fails, its result
being ignored), a script over `MAX_SCRIPT_SIZE` replaced by `OP_RETURN` and
skipped, or the script's bytes. -/
def CScriptCompressor.unserialize : SerReader CScript := do
  let nSize ← ReadVarInt 0xffffffff
  if nSize < nSpecialScripts then
    let vch ← readBytes END_OF_DATA (GetSpecialScriptSize nSize)
    pure ((DecompressScript Decompress nSize vch).getD [])
  else
    let nSize := nSize - nSpecialScripts
    if nSize > MAX_SCRIPT_SIZE then do
      let _ ← readBytes END_OF_DATA nSize
      pure [OP_RETURN]
    else readBytes END_OF_DATA nSize

/-- `CTxOutCompressor`, reading. -/
def CTxOutCompressor.unserialize : SerReader CTxOut := do
  let nVal ← ReadVarInt 0xffffffffffffffff
  let scriptPubKey ← CScriptCompressor.unserialize Decompress
  pure ⟨toInt64 (DecompressAmount nVal), scriptPubKey⟩

/-- `TxInUndoDeserializer`: the height and flag, the dummy version (a VarInt)
above height 0, the output. -/
def TxInUndoDeserializer : SerReader Coin := do
  let nCode ← ReadVarInt 0xffffffff
  let nHeight := nCode / 2
  let fCoinBase := nCode % 2 == 1
  if nHeight > 0 then
    let _nVersionDummy ← ReadVarInt 0xffffffff
  let out ← CTxOutCompressor.unserialize Decompress
  pure ⟨out, fCoinBase, nHeight⟩

/-- `MAX_INPUTS_PER_BLOCK`: `MAX_BLOCK_SIZE` over the size of `CTxIn()`. -/
def MAX_INPUTS_PER_BLOCK : Nat :=
  MAX_BLOCK_SIZE.toNat / (CTxIn.serialize false ⟨COutPoint.null, [], SEQUENCE_FINAL, []⟩).length

/-- `CTxUndo::Unserialize`: the count, refused above `MAX_INPUTS_PER_BLOCK`,
then the coins. -/
def CTxUndo.unserialize : SerReader CTxUndo := do
  let count ← ReadCompactSize
  if count > MAX_INPUTS_PER_BLOCK then Reader.throw (.iosFailure "Too many input undo records")
  readN (TxInUndoDeserializer Decompress) count

/-- `CBlockUndo`'s `READWRITE(vtxundo)`, reading: the count, then the
records. -/
def CBlockUndo.unserialize : SerReader (List CTxUndo) := do
  let nSize ← ReadCompactSize
  readN (CTxUndo.unserialize Decompress) nSize

end Decompress

theorem MAX_INPUTS_PER_BLOCK_eq : MAX_INPUTS_PER_BLOCK = 24390 := by decide

/-- The record of a transaction of more than `MAX_INPUTS_PER_BLOCK` inputs
does not read back: the reader throws at its count. -/
theorem CTxUndo.unserialize_serialize_of_lt (IsFullyValid : List UInt8 → Bool)
    (Decompress : List UInt8 → Option (Blob 65)) {txundo : CTxUndo} (hmany : MAX_INPUTS_PER_BLOCK < txundo.length)
    (hsize : txundo.length ≤ MAX_SIZE) (rest : List UInt8) :
    StateT.run (CTxUndo.unserialize Decompress) (CTxUndo.serialize IsFullyValid txundo ++ rest) =
      .error (.iosFailure "Too many input undo records") := by
  rw [CTxUndo.unserialize, CTxUndo.serialize, List.append_assoc, (ReadCompactSize_decodes hsize).bind]
  simp [hmany]

/-- A block's undo data whose first record holds more than
`MAX_INPUTS_PER_BLOCK` coins does not read back: the reader throws at that
record's count, whatever follows. -/
theorem CBlockUndo.unserialize_serialize_of_lt (IsFullyValid : List UInt8 → Bool)
    (Decompress : List UInt8 → Option (Blob 65)) {txundo : CTxUndo} {vtxundo : List CTxUndo}
    (hmany : MAX_INPUTS_PER_BLOCK < txundo.length) (hsize : txundo.length ≤ MAX_SIZE)
    (hcount : vtxundo.length + 1 ≤ MAX_SIZE) :
    StateT.run (CBlockUndo.unserialize Decompress) (CBlockUndo.serialize IsFullyValid (txundo :: vtxundo)) =
      .error (.iosFailure "Too many input undo records") := by
  rw [CBlockUndo.unserialize, CBlockUndo.serialize, serializeList, List.length_cons,
    (ReadCompactSize_decodes hcount).bind, readN]
  apply Reader.run_bind_of_error
  rw [List.map_cons, List.flatten_cons]
  exact CTxUndo.unserialize_serialize_of_lt IsFullyValid Decompress hmany hsize _

/-! ## A connected block whose undo record does not read back

Witness data, with `truncCrypto`, `wideEnv` and `wideHistory` of
`Tapyrus.CompactBlock`: a view of `n` coins of value 1 with the script
`OP_1`, at height 1, at outpoints whose hash starts with `0xff` (no
transaction of the block has such an id); a block at height 1 on the genesis
block, of the coinbase `wideTx 0` and one transaction that spends all `n`
coins to one output of value 0. An input is 41 bytes, so 24391 of them pass
the checks under a maximum block size of four megabytes. -/

def fatCoin : Coin := ⟨⟨1, [OP_1]⟩, false, 1⟩

def fatOutPoint (i : Nat) : COutPoint := ⟨⟨0xff :: toLE 31 i, by simp⟩, 0⟩

/-- `fatCoin` at the outpoints `0 .. n - 1`. -/
def fatCoins : Nat → CoinsMap
  | 0 => ∅
  | n + 1 => (fatCoins n).insert (fatOutPoint n) fatCoin

/-- Any one coin at the outpoints `0 .. n - 1`. -/
def coinsAt (coin : Coin) : Nat → CoinsMap
  | 0 => ∅
  | n + 1 => (coinsAt coin n).insert (fatOutPoint n) coin

def fatTx (n : Nat) : CTransaction :=
  ⟨(List.range n).map fun i => ⟨fatOutPoint i, [], SEQUENCE_FINAL, []⟩, [⟨0, [OP_1]⟩], 1, 0⟩

def fatBlock (n : Nat) : CBlock :=
  { nFeatures := 1, hashPrevBlock := Blob.zero 32,
    hashMerkleRoot := (ComputeMerkleRoot truncCrypto.SHA256D64 ([wideTx 0, fatTx n].map (·.GetHash truncCrypto))).1,
    hashImMerkleRoot :=
      (ComputeMerkleRoot truncCrypto.SHA256D64 ([wideTx 0, fatTx n].map (·.GetHashMalFix truncCrypto))).1,
    nTime := 0, xfield := ⟨.NONE, .empty⟩, proof := [1], vtx := [wideTx 0, fatTx n], fChecked := false }

/-- The genesis block's index: the tip the block extends. -/
def fatParent : CBlockIndex := ⟨0, Blob.zero 32, Blob.zero 32, fun _ => 0⟩

def fatIndex (n : Nat) : CBlockIndex := ⟨1, (fatBlock n).GetHash truncCrypto, Blob.zero 32, fun _ => 0⟩

def fatView (n : Nat) : CCoinsViewCache := ⟨fatCoins n, Blob.zero 32⟩

theorem fatOutPoint_inj {i j : Nat} (hi : i < 256 ^ 31) (hj : j < 256 ^ 31) (h : fatOutPoint i = fatOutPoint j) :
    i = j := by
  simp only [fatOutPoint, COutPoint.mk.injEq, Blob.mk.injEq, List.cons.injEq, true_and, and_true] at h
  rw [← ofLE_toLE_of_lt hi, ← ofLE_toLE_of_lt hj, h]

theorem fatCoins_eq (n : Nat) : fatCoins n = coinsAt fatCoin n := by
  induction n with
  | zero => rfl
  | succ n ih => rw [fatCoins, coinsAt, ih]

theorem lookup_coinsAt {coin : Coin} {n i : Nat} (hn : n ≤ 256 ^ 31) (hi : i < n) :
    (coinsAt coin n).lookup (fatOutPoint i) = some coin := by
  induction n with
  | zero => omega
  | succ n ih =>
    rw [coinsAt]
    by_cases hin : i = n
    · rw [hin, AList.lookup_insert]
    · rw [AList.lookup_insert_ne fun h => hin (fatOutPoint_inj (by omega) (by omega) h)]
      exact ih (by omega) (by omega)

/-- Every coin of the map is `coin`, at a hash that starts with `0xff`. -/
theorem lookup_coinsAt_eq_some {coin : Coin} {n : Nat} {o : COutPoint} {c : Coin}
    (h : (coinsAt coin n).lookup o = some c) : c = coin ∧ o.hashMalFix.bytes.head? = some 0xff := by
  induction n with
  | zero => simp [coinsAt] at h
  | succ n ih =>
    rw [coinsAt] at h
    by_cases ho : o = fatOutPoint n
    · subst ho
      rw [AList.lookup_insert] at h
      exact ⟨(Option.some.inj h).symm, rfl⟩
    · rw [AList.lookup_insert_ne ho] at h
      exact ih h

theorem lookup_fatCoins {n i : Nat} (hn : n ≤ 256 ^ 31) (hi : i < n) :
    (fatCoins n).lookup (fatOutPoint i) = some fatCoin := by
  rw [fatCoins_eq]
  exact lookup_coinsAt hn hi

theorem lookup_fatCoins_eq_some {n : Nat} {o : COutPoint} {c : Coin} (h : (fatCoins n).lookup o = some c) :
    c = fatCoin ∧ o.hashMalFix.bytes.head? = some 0xff := by
  rw [fatCoins_eq] at h
  exact lookup_coinsAt_eq_some h

theorem fatTx_prevouts_nodup {n : Nat} (hn : n ≤ 256 ^ 31) : ((fatTx n).vin.map (·.prevout)).Nodup := by
  simp only [fatTx, List.map_map]
  apply List.Nodup.map_on _ List.nodup_range
  intro i hi j hj h
  exact fatOutPoint_inj (by simp at hi; omega) (by simp at hj; omega) h

/-- An input of `fatTx n` is 41 bytes: the outpoint, an empty script and
the sequence. -/
theorem fatInput_serialize_length {n : Nat} : ∀ txin ∈ (fatTx n).vin, (CTxIn.serialize false txin).length = 41 := by
  intro txin htxin
  obtain ⟨i, -, rfl⟩ := List.mem_map.1 htxin
  simp [CTxIn.serialize, fatOutPoint, COutPoint.serialize, serializeBytes, ser_writedata32, ser_writedata,
    WriteCompactSize_of_lt]

theorem fatTx_serialize_length (n : Nat) :
    ((fatTx n).serialize false).length = GetSizeOfCompactSize n + 41 * n + 19 := by
  rw [CTransaction.serialize, List.length_append, List.length_append, List.length_append,
    serializeList_length_of_forall fatInput_serialize_length]
  simp [fatTx, ser_writeint, serializeList, CTxOut.serialize, serializeBytes, ser_writedata32, ser_writedata,
    WriteCompactSize_of_lt]
  omega

/-- Both forms of the transaction start with the features and the input
count. -/
theorem fatTx_serialize_eq (n : Nat) (fMalFix : Bool) :
    ∃ rest, (fatTx n).serialize fMalFix = [1, 0, 0, 0] ++ WriteCompactSize n ++ rest := by
  refine ⟨((fatTx n).vin.map (CTxIn.serialize fMalFix)).flatten ++ serializeList CTxOut.serialize (fatTx n).vout ++
    ser_writedata32 (fatTx n).nLockTime.toNat, ?_⟩
  simp only [CTransaction.serialize, serializeList, List.append_assoc]
  have hfeatures : ser_writeint 4 (fatTx n).nFeatures = [1, 0, 0, 0] := by
    show ser_writeint 4 1 = _
    decide
  have hcount : (fatTx n).vin.length = n := by simp [fatTx]
  rw [hfeatures, hcount]

/-- The first 32 bytes of a long enough input are its first bytes. -/
theorem truncHash_getElem? {x : List UInt8} {i : Nat} (hi : i < 32) (hx : i < x.length) :
    (truncHash 32 x).bytes[i]? = x[i]? := by
  simp [truncHash, hi, List.getElem_append_left hx, List.getElem?_eq_getElem hx]

theorem fatTx_id_getElem? (n : Nat) (fMalFix : Bool) :
    (truncHash 32 ((fatTx n).serialize fMalFix)).bytes[0]? = some 1 ∧
      (truncHash 32 ((fatTx n).serialize fMalFix)).bytes[4]? = (WriteCompactSize n).head? := by
  obtain ⟨rest, hser⟩ := fatTx_serialize_eq n fMalFix
  have hne : WriteCompactSize n ≠ [] := by
    unfold WriteCompactSize
    split_ifs <;> simp [ser_writedata8, ser_writedata, toLE]
  obtain ⟨b, bs, hw⟩ := List.exists_cons_of_ne_nil hne
  rw [hser, hw]
  constructor
  · rw [truncHash_getElem? (by norm_num) (by simp)]
    rfl
  · rw [truncHash_getElem? (by norm_num) (by simp)]
    rfl

theorem IsCoinBase_of_length {tx : CTransaction} (h : tx.vin.length ≠ 1) : tx.IsCoinBase = false := by
  unfold CTransaction.IsCoinBase
  split
  · rename_i txin hvin
    simp [hvin] at h
  · rfl

theorem fatTx_IsCoinBase {n : Nat} (hn : 2 ≤ n) : (fatTx n).IsCoinBase = false :=
  IsCoinBase_of_length (by simp [fatTx]; omega)

theorem fatTx_GetLegacySigOpCount (n : Nat) : GetLegacySigOpCount (fatTx n) = 0 := by
  have hsig : CScript.GetSigOpCount [] false = 0 := rfl
  have hpub : CScript.GetSigOpCount [OP_1] false = 0 := rfl
  simp [GetLegacySigOpCount, fatTx, hpub, Function.comp_def, hsig]

/-- A transaction with the inputs of `fatTx n` passes `CheckTransaction`
when its outputs do and it fits the maximum block size: its outpoints are
distinct and not null. -/
theorem CheckTransaction_of_fatInputs {history : CXFieldHistoryMap} {size : UInt32} {n : Nat} {tx : CTransaction}
    (hsize : GetCurrentMaxBlockSize history = some size) (hvin : tx.vin = (fatTx n).vin) (hvout : tx.vout ≠ [])
    (hout : checkOutputValues 0 tx.vout = .ok ()) (hfit : tx.GetSerializeSize ≤ size.toNat) (h2 : 2 ≤ n)
    (hn : n ≤ 256 ^ 31) :
    CheckTransaction history tx true = .ok () := by
  have hlen : ¬ tx.GetSerializeSize > size.toNat := Nat.not_lt.2 hfit
  have hempty : tx.vin.isEmpty = false := by
    simp [hvin, fatTx]
    omega
  have hnone : tx.vout.isEmpty = false := List.isEmpty_eq_false_iff.2 hvout
  have hdup : checkDuplicateInputs [] tx.vin = .ok () :=
    hvin ▸ checkDuplicateInputs_eq_ok_of_nodup (fatTx_prevouts_nodup hn) (fun _ _ h => by cases h)
  have hnull : tx.vin.any (·.prevout.IsNull) = false := by
    simp [hvin, fatTx, COutPoint.IsNull, fatOutPoint]
  have hcb : tx.IsCoinBase = false := IsCoinBase_of_length (by simp [hvin, fatTx]; omega)
  simp only [CheckTransaction, hempty, hnone, hsize, hlen, hout, hdup, hcb, hnull, Bool.false_eq_true,
    if_false, ok_bind, if_true]
  rfl

/-- The spending transaction passes `CheckTransaction` when it fits the
maximum block size. -/
theorem CheckTransaction_fatTx {history : CXFieldHistoryMap} {size : UInt32} {n : Nat}
    (hsize : GetCurrentMaxBlockSize history = some size) (hfit : GetSizeOfCompactSize n + 41 * n + 19 ≤ size.toNat)
    (h2 : 2 ≤ n) (hn : n ≤ 256 ^ 31) :
    CheckTransaction history (fatTx n) true = .ok () := by
  have hlen : (fatTx n).GetSerializeSize ≤ size.toNat := by
    rw [CTransaction.GetSerializeSize, fatTx_serialize_length]
    exact hfit
  exact CheckTransaction_of_fatInputs hsize rfl (by simp [fatTx]) rfl hlen h2 hn

theorem fatBlock_GetSerializeSize (n : Nat) :
    (fatBlock n).GetSerializeSize = 168 + (GetSizeOfCompactSize n + 41 * n + 19) := by
  have hproof : GetSizeOfCompactSize 1 = 1 := rfl
  have hcount : GetSizeOfCompactSize 2 = 1 := rfl
  rw [CBlock.GetSerializeSize, CBlock.serialize, List.length_append, CBlockHeader.serialize_length]
  simp [fatBlock, serializeList, wideTx_serialize_length, fatTx_serialize_length, CXField.serialize,
    XFieldData.serialize, hproof, hcount, WriteCompactSize_length]
  omega

/-- The two ids differ at their fifth byte, the first byte of the input
count: so the immutable tree is not flagged. -/
theorem fatBlock_BlockMerkleRoot {n : Nat} (hcount : (WriteCompactSize n).head? ≠ some 1) :
    (BlockMerkleRoot truncCrypto (fatBlock n) false).1 = (fatBlock n).hashMerkleRoot ∧
      BlockMerkleRoot truncCrypto (fatBlock n) true = ((fatBlock n).hashImMerkleRoot, false) := by
  have hne : (wideTx 0).GetHashMalFix truncCrypto ≠ (fatTx n).GetHashMalFix truncCrypto := by
    intro h
    have h4 := congrArg (fun b : uint256 => b.bytes[4]?) h
    simp only [CTransaction.GetHashMalFix, truncCrypto_hash256, (fatTx_id_getElem? n true).2] at h4
    exact hcount h4.symm
  have hnodup : ([wideTx 0, fatTx n].map (·.GetHashMalFix truncCrypto)).Nodup := by
    simpa using hne
  have hmut := ComputeMerkleRoot_not_mutated truncCrypto_SHA256D64 hnodup
  refine ⟨by simp [BlockMerkleRoot, fatBlock], ?_⟩
  simp only [BlockMerkleRoot, fatBlock, if_true]
  exact Prod.ext rfl hmut

theorem CheckBlock_fatBlock {n : Nat} {size : UInt32} (h2 : 2 ≤ n) (hn : n ≤ 256 ^ 31)
    (hcount : (WriteCompactSize n).head? ≠ some 1) (hsize : 168 + (GetSizeOfCompactSize n + 41 * n + 19) ≤ size.toNat) :
    CheckBlock wideEnv (some fatParent) (wideHistory size) none (fatBlock n) true true = .ok true := by
  obtain ⟨hroot, himm⟩ := fatBlock_BlockMerkleRoot hcount
  have hC : wideEnv.C = truncCrypto := rfl
  have hfc : (fatBlock n).fChecked = false := rfl
  have hvtx : (fatBlock n).vtx = [wideTx 0, fatTx n] := rfl
  have hcb : (wideTx 0).vout.any (·.scriptPubKey.IsColoredScript) = false := rfl
  have hheight : isBlockHeightInCoinbase wideEnv (some fatParent) (fatBlock n) = true := rfl
  have hblockheight : (fatBlock n).GetHeight = 1 := rfl
  have hbytes : ¬ (fatBlock n).GetSerializeSize > size.toNat := by
    rw [fatBlock_GetSerializeSize]
    omega
  have hlength : ¬ (fatBlock n).vtx.length > size.toNat := by
    rw [hvtx]
    simp only [List.length_cons, List.length_nil]
    omega
  have hheader : CheckBlockHeader wideEnv (wideHistory size) none (fatBlock n).toCBlockHeader 1 true = .ok () :=
    CheckBlockHeader_wideEnv size rfl rfl (List.cons_ne_nil _ _)
  have hchecks : checkTransactions (wideHistory size) (fatBlock n).vtx = .ok () := by
    apply checkTransactions_eq_ok_of_forall
    intro tx htx
    rw [hvtx, List.mem_cons, List.mem_singleton] at htx
    rcases htx with rfl | rfl
    · exact CheckTransaction_wideTx (wideHistory_GetCurrentMaxBlockSize size) (by omega) 0
    · exact CheckTransaction_fatTx (wideHistory_GetCurrentMaxBlockSize size) (by omega) h2 hn
  have hsigops : ((fatBlock n).vtx.map GetLegacySigOpCount).sum = 0 := by
    simp [hvtx, wideTx_GetLegacySigOpCount, fatTx_GetLegacySigOpCount]
  unfold CheckBlock
  simp only [hC, hfc, hroot, himm, ne_eq, not_true_eq_false, if_false, if_true, Bool.false_eq_true, ok_bind,
    wideHistory_GetLatest, hblockheight, hheader, hlength, hbytes, decide_false, Bool.or_false, hchecks, hsigops,
    wideHistory_GetMaxBlockSigops, hheight]
  rw [hvtx]
  simp only [wideTx_IsCoinBase_zero, hcb, Bool.not_true, Option.isSome_some, Bool.not_true, Bool.and_false,
    Bool.false_eq_true, if_false, List.any_cons, List.any_nil, fatTx_IsCoinBase h2, Bool.or_false, gt_iff_lt,
    Nat.not_lt_zero]
  rfl

/-- The coinbase's output, where `ConnectBlock` adds it. -/
def fatCoinbaseOut : COutPoint := ⟨(wideTx 0).GetHashMalFix truncCrypto, 0⟩

def fatCoinbaseCoin : Coin := ⟨⟨0, []⟩, true, 1⟩

theorem connectTx_coinbase (n : Nat) (size : UInt32) (view : CCoinsViewCache) :
    connectTx wideEnv (wideHistory size) true (fatIndex n) 0 ⟨view, 0, 0, []⟩ (wideTx 0) =
      .ok ⟨{ view with coins := view.coins.insert fatCoinbaseOut fatCoinbaseCoin }, 0, 0, []⟩ := by
  have hsigops : GetTransactionSigOps (wideTx 0) view (GetBlockScriptFlags (fatIndex n)) = .ok 0 := by
    simp [GetTransactionSigOps, wideTx_IsCoinBase_zero, wideTx_GetLegacySigOpCount]
    rfl
  -- `AddCoins` of the coinbase: its one output, a possible overwrite
  have hadd : AddCoins truncCrypto view (wideTx 0) 1 false =
      .ok { view with coins := view.coins.insert fatCoinbaseOut fatCoinbaseCoin } := by
    rw [AddCoins, wideTx_IsCoinBase_zero]
    show addOutputs _ 1 true false view 0 [⟨0, []⟩] = _
    simp [addOutputs, CCoinsViewCache.AddCoin, Coin.IsSpent, CTxOut.IsNull, CScript.IsUnspendable, fatCoinbaseOut,
      fatCoinbaseCoin]
  have hupdate : UpdateCoins wideEnv.C (wideTx 0) view (fatIndex n).nHeight =
      .ok ({ view with coins := view.coins.insert fatCoinbaseOut fatCoinbaseCoin }, []) := by
    rw [UpdateCoins, wideTx_IsCoinBase_zero]
    simp only [Bool.not_true, Bool.false_eq_true, if_false, ok_bind]
    rw [show wideEnv.C = truncCrypto from rfl, show (fatIndex n).nHeight = 1 from rfl, hadd]
    rfl
  simp only [connectTx, wideTx_IsCoinBase_zero, Bool.not_true, Bool.false_eq_true, if_false, hsigops,
    wideHistory_GetMaxBlockSigops, hupdate]
  simp [pure, Except.pure]

/-- The view after the coinbase: the coins, and the coinbase's output. -/
def fatView1 (n : Nat) : CCoinsViewCache :=
  { fatView n with coins := (fatCoins n).insert fatCoinbaseOut fatCoinbaseCoin }

theorem fatOutPoint_ne_coinbaseOut (i : Nat) : fatOutPoint i ≠ fatCoinbaseOut := by
  intro h
  have hhead := congrArg (fun o : COutPoint => o.hashMalFix.bytes.head?) h
  simp [fatOutPoint, fatCoinbaseOut, wideTx_GetHashMalFix] at hhead

theorem AccessCoin_fatView1 {n i : Nat} (hn : n ≤ 256 ^ 31) (hi : i < n) :
    (fatView1 n).coins.lookup (fatOutPoint i) = some fatCoin := by
  rw [fatView1, AList.lookup_insert_ne (fatOutPoint_ne_coinbaseOut i)]
  exact lookup_fatCoins hn hi

/-- What the spending transaction's inputs find in the view: `fatCoin`. -/
theorem fatTx_vin_coin {n : Nat} (hn : n ≤ 256 ^ 31) :
    ∀ txin ∈ (fatTx n).vin, (fatView1 n).coins.lookup txin.prevout = some fatCoin ∧ txin.scriptSig = [] ∧
      txin.scriptWitness = [] ∧ txin.nSequence = SEQUENCE_FINAL := by
  intro txin htxin
  obtain ⟨i, hi, rfl⟩ := List.mem_map.1 htxin
  exact ⟨AccessCoin_fatView1 hn (List.mem_range.1 hi), rfl, rfl, rfl⟩

theorem fatTx_GetValueOut (n : Nat) : (fatTx n).GetValueOut ColorIdentifier.none = .ok 0 := rfl

/-- The fee: `n` coins of 1 in, nothing out. -/
theorem checkFees_fatTx {n : Nat} (h2 : 2 ≤ n) (hn : n ≤ 256 ^ 31) (hmoney : n ≤ MAX_MONEY) :
    checkFees (fatIndex n) (fatTx n) (fatView1 n) 0 = .ok n := by
  have hcoin := fatTx_vin_coin hn
  have haccess : ∀ txin ∈ (fatTx n).vin, (fatView1 n).AccessCoin txin.prevout = fatCoin := by
    intro txin htxin
    simp [CCoinsViewCache.AccessCoin, (hcoin txin htxin).1]
  have hhave : (fatView1 n).HaveInputs (fatTx n) = true := by
    simp only [CCoinsViewCache.HaveInputs, fatTx_IsCoinBase h2, Bool.not_false, if_true, List.all_eq_true]
    intro txin htxin
    simp [CCoinsViewCache.HaveCoin, (hcoin txin htxin).1, fatCoin, Coin.IsSpent, CTxOut.IsNull]
  have hterms : ((fatTx n).vin.map fun txin => outTerm IsTPC ((fatView1 n).AccessCoin txin.prevout).out).sum = n := by
    have hone : outTerm IsTPC fatCoin.out = 1 := by decide
    rw [List.map_congr_left fun txin htxin => by rw [haccess txin htxin, hone]]
    simp [fatTx, Function.comp_def]
  have hvalues : checkInputValues (fatView1 n) (fatIndex n).nHeight 0 (fatTx n).vin = .ok n := by
    rw [checkInputValues_eq_ok_of_forall le_rfl, hterms, zero_add]
    · intro txin htxin
      rw [haccess txin htxin]
      exact ⟨rfl, .inl rfl, by decide⟩
    · rw [hterms]
      omega
  have hinputs : CheckTxInputs (fatTx n) (fatView1 n) (fatIndex n).nHeight = .ok n := by
    have hrange : MoneyRange (n - 0) = true := by
      simp only [MoneyRange, Bool.and_eq_true, decide_eq_true_eq]
      omega
    have hlt : ¬ (n : Int) < 0 := by omega
    simp only [CheckTxInputs, hhave, Bool.not_true, Bool.false_eq_true, if_false, hvalues, fatTx_GetValueOut,
      ok_bind, hlt, hrange]
    rfl
  have hlocks : SequenceLocks (fatTx n) LOCKTIME_VERIFY_SEQUENCE
      ((fatTx n).vin.map fun txin => (((fatView1 n).AccessCoin txin.prevout).nHeight : Int)) (fatIndex n).nHeight
      (fatIndex n).ancestorMTP = true := by
    apply SequenceLocks_of_disabled _ le_rfl
    intro txin htxin
    rw [(hcoin txin htxin).2.2.2]
    decide
  have hrange : MoneyRange (0 + n) = true := by
    simp only [MoneyRange, Bool.and_eq_true, decide_eq_true_eq]
    omega
  simp only [checkFees, hinputs, ok_bind, hrange, Bool.not_true, Bool.false_eq_true, if_false, hlocks]
  simp [pure, Except.pure]

/-- The spending transaction's output is a new outpoint: its hash starts
with 1 where the coins' start with `0xff`, and its fifth byte is the input
count's first byte where the coinbase's is 1. -/
theorem lookup_fatView1_fatTx_out {n : Nat} (hcount : (WriteCompactSize n).head? ≠ some 1) :
    (fatView1 n).coins.lookup ⟨(fatTx n).GetHashMalFix truncCrypto, 0⟩ = none := by
  obtain ⟨h0, h4⟩ := fatTx_id_getElem? n true
  have hne : (⟨(fatTx n).GetHashMalFix truncCrypto, 0⟩ : COutPoint) ≠ fatCoinbaseOut := by
    intro h
    have hbyte := congrArg (fun o : COutPoint => o.hashMalFix.bytes[4]?) h
    simp only [CTransaction.GetHashMalFix, truncCrypto_hash256, fatCoinbaseOut, h4] at hbyte
    exact hcount hbyte
  rw [fatView1, AList.lookup_insert_ne hne]
  cases hl : (fatCoins n).lookup _ with
  | none => rfl
  | some c =>
    have hhead := (lookup_fatCoins_eq_some hl).2
    simp [CTransaction.GetHashMalFix, truncCrypto_hash256, List.head?_eq_getElem?, h0] at hhead

theorem fatTx_vout (n : Nat) : (fatTx n).vout = [⟨0, [OP_1]⟩] := rfl

/-- Spending the coins: every input finds `fatCoin`, so the undo record is
`n` copies of it, and the output lands on a free outpoint. -/
theorem UpdateCoins_fatTx {n : Nat} (h2 : 2 ≤ n) (hn : n ≤ 256 ^ 31) (hcount : (WriteCompactSize n).head? ≠ some 1) :
    ∃ view', UpdateCoins truncCrypto (fatTx n) (fatView1 n) 1 = .ok (view', List.replicate n fatCoin) := by
  have hcoin := fatTx_vin_coin hn
  obtain ⟨view2, undo, hspend, -, hsub⟩ := @spendInputs_eq_ok (fatTx n).vin (fatView1 n)
    (fatTx_prevouts_nodup hn) fun txin htxin => by simp [(hcoin txin htxin).1]
  have hundo : undo = List.replicate n fatCoin := by
    rw [spendInputs_undo (fatTx_prevouts_nodup hn) hspend, List.eq_replicate_iff]
    refine ⟨by simp [fatTx], fun c hc => ?_⟩
    obtain ⟨txin, htxin, rfl⟩ := List.mem_map.1 hc
    simp [CCoinsViewCache.AccessCoin, (hcoin txin htxin).1]
  -- the spent view only lost entries, so the new outpoint is still free
  have hfree : view2.HaveCoin ⟨(fatTx n).GetHashMalFix truncCrypto, 0⟩ = false := by
    unfold CCoinsViewCache.HaveCoin
    cases hl : view2.coins.lookup _ with
    | none => rfl
    | some c =>
      have hold := hsub _ _ hl
      rw [lookup_fatView1_fatTx_out hcount] at hold
      cases hold
  refine ⟨{ view2 with coins := view2.coins.insert ⟨(fatTx n).GetHashMalFix truncCrypto, 0⟩ ⟨⟨0, [OP_1]⟩, false, 1⟩ },
    ?_⟩
  have hspendable : CScript.IsUnspendable [OP_1] = false := by decide
  rw [UpdateCoins, fatTx_IsCoinBase h2]
  simp [hspend, hundo, AddCoins, fatTx_IsCoinBase h2, fatTx_vout, addOutputs, CCoinsViewCache.AddCoin, hfree,
    Coin.IsSpent, CTxOut.IsNull, hspendable]

/-- The spending transaction as transaction 1 of the block: its fee is the
`n` coins, it has no signature operations, its scripts (`OP_1` against empty
signatures) pass, and its undo record is the `n` spent coins. -/
theorem connectTx_fatTx {n : Nat} {size : UInt32} (h2 : 2 ≤ n) (hn : n ≤ 256 ^ 31) (hmoney : n ≤ MAX_MONEY)
    (hcount : (WriteCompactSize n).head? ≠ some 1) :
    ∃ view', connectTx wideEnv (wideHistory size) true (fatIndex n) 1 ⟨fatView1 n, 0, 0, []⟩ (fatTx n) =
      .ok ⟨view', n, 0, [List.replicate n fatCoin]⟩ := by
  have hcoin := fatTx_vin_coin hn
  have haccess : ∀ txin ∈ (fatTx n).vin, (fatView1 n).AccessCoin txin.prevout = fatCoin := by
    intro txin htxin
    simp [CCoinsViewCache.AccessCoin, (hcoin txin htxin).1]
  have hflags : GetBlockScriptFlags (fatIndex n) = SCRIPT_VERIFY_NONE := rfl
  have hsigops : GetTransactionSigOps (fatTx n) (fatView1 n) SCRIPT_VERIFY_NONE = .ok 0 := by
    rw [GetTransactionSigOps_of_legacy (fatTx_IsCoinBase h2) (by decide), fatTx_GetLegacySigOpCount]
    intro txin htxin
    rw [haccess txin htxin]
    exact ⟨rfl, by decide⟩
  -- every input runs `OP_1` against an empty signature script
  have hscripts : ∃ b, CheckInputs wideEnv (fatTx n) (fatView1 n) true SCRIPT_VERIFY_NONE [] = .ok b := by
    rw [CheckInputs, fatTx_IsCoinBase h2]
    apply checkInputScripts_eq_ok
    intro txin htxin
    obtain ⟨-, hsig, hwit, -⟩ := hcoin txin htxin
    rw [haccess txin htxin]
    refine ⟨rfl, fun k => ⟨ColorIdentifier.none, ?_⟩⟩
    rw [CScriptCheck, hsig, hwit]
    rfl
  obtain ⟨b, hb⟩ := hscripts
  obtain ⟨view', hupdate⟩ := UpdateCoins_fatTx h2 hn hcount
  refine ⟨view', ?_⟩
  have hnotlt : ¬ (size / 50).toNat < 0 + 0 := Nat.not_lt_zero _
  simp only [connectTx, fatTx_IsCoinBase h2, Bool.not_false, if_true, checkFees_fatTx h2 hn hmoney, ok_bind, hflags,
    hsigops, wideHistory_GetMaxBlockSigops, gt_iff_lt, hnotlt, if_false, hb]
  rw [show wideEnv.C = truncCrypto from rfl, show (fatIndex n).nHeight = 1 from rfl, hupdate]
  rfl

/-- The block's hash starts with its version byte 1: it is not the genesis
hash. -/
theorem fatBlock_GetHash_ne_zero (n : Nat) : (fatBlock n).GetHash truncCrypto ≠ Blob.zero 32 := by
  have hfeatures : ser_writeint 4 (fatBlock n).nFeatures = [1, 0, 0, 0] := by
    show ser_writeint 4 1 = _
    decide
  intro h
  have hbyte := congrArg (fun b : uint256 => b.bytes[0]?) h
  simp only [CBlock.GetHash, CBlockHeader.GetHash, truncCrypto_hash256, CBlockHeader.serialize,
    CBlockHeader.serializeWithoutProof] at hbyte
  rw [truncHash_getElem? (by norm_num) (by simp [hfeatures])] at hbyte
  simp [hfeatures, Blob.zero] at hbyte

/-- The whole block against the view of the `n` coins: the undo record of
the spending transaction is the `n` coins. -/
theorem ConnectBlock_fatBlock {n : Nat} {size : UInt32} (h2 : 2 ≤ n) (hn : n ≤ 256 ^ 31) (hmoney : n ≤ MAX_MONEY)
    (hcount : (WriteCompactSize n).head? ≠ some 1)
    (hsize : 168 + (GetSizeOfCompactSize n + 41 * n + 19) ≤ size.toNat) :
    ∃ view', ConnectBlock wideEnv (wideHistory size) true (fatIndex n) (some fatParent) (fatBlock n) (fatView n) false =
      .ok (view', [List.replicate n fatCoin]) := by
  obtain ⟨view', hview'⟩ := @connectTx_fatTx n size h2 hn hmoney hcount
  -- the coinbase, then the spending transaction against the view it leaves
  have hloop : connectTransactions wideEnv (wideHistory size) true (fatIndex n) 0 ⟨fatView n, 0, 0, []⟩
      [wideTx 0, fatTx n] = .ok ⟨view', n, 0, [List.replicate n fatCoin]⟩ := by
    rw [connectTransactions, connectTx_coinbase, ok_bind, connectTransactions]
    show (connectTx wideEnv (wideHistory size) true (fatIndex n) 1 ⟨fatView1 n, 0, 0, []⟩ (fatTx n) >>= _) = _
    rw [hview', ok_bind, connectTransactions]
  have hhash : (fatIndex n).hashBlock = (fatBlock n).GetHash wideEnv.C := rfl
  have hprev : (fatIndex n).hashPrevBlock = (fatView n).GetBestBlock := rfl
  have hgen : (fatBlock n).GetHash wideEnv.C ≠ wideEnv.genesisHash := fatBlock_GetHash_ne_zero n
  have hvtx : (fatBlock n).vtx = [wideTx 0, fatTx n] := rfl
  have hcbout : (wideTx 0).GetValueOut ColorIdentifier.none = .ok 0 := rfl
  have hsubsidy : 0 ≤ GetBlockSubsidy (fatIndex n).nHeight wideEnv.nSubsidyHalvingInterval := by
    show 0 ≤ GetBlockSubsidy 1 150
    decide
  have hreward : ¬ (0 : Int) > n + GetBlockSubsidy (fatIndex n).nHeight wideEnv.nSubsidyHalvingInterval := by
    omega
  refine ⟨view'.SetBestBlock (fatIndex n).hashBlock, ?_⟩
  -- `simp` here would try to decide the hash comparisons by evaluation
  unfold ConnectBlock
  rw [if_neg (not_not.2 hhash), Bool.not_false, CheckBlock_fatBlock h2 hn hcount hsize, ok_bind,
    if_neg (not_not.2 hprev), if_neg hgen, hvtx, hloop, ok_bind]
  dsimp only
  rw [hcbout, ok_bind, if_neg hreward, if_neg Bool.false_ne_true]
  rfl

/-- Under an xfield maximum block size of four megabytes, `CheckBlock`
accepts the block that spends 24391 coins in one transaction, and
`ConnectBlock` connects it with the undo record of those coins; the undo
data written to disk does not read back, whatever the key and script
decompression, because 24391 is above `MAX_INPUTS_PER_BLOCK`, which is
computed from the genesis `MAX_BLOCK_SIZE`. -/
theorem ConnectBlock_ok_undo_unreadable :
    (wideHistory 4000000).GetLatest .MAXBLOCKSIZE = some (.maxBlockSize 4000000) ∧
      CheckBlock wideEnv (some fatParent) (wideHistory 4000000) none (fatBlock 24391) true true = .ok true ∧
      ∃ view', ConnectBlock wideEnv (wideHistory 4000000) true (fatIndex 24391) (some fatParent) (fatBlock 24391)
          (fatView 24391) false = .ok (view', [List.replicate 24391 fatCoin]) ∧
        ∀ (IsFullyValid : List UInt8 → Bool) (Decompress : List UInt8 → Option (Blob 65)),
          StateT.run (CBlockUndo.unserialize Decompress) (CBlockUndo.serialize IsFullyValid [List.replicate 24391 fatCoin]) =
            .error (.iosFailure "Too many input undo records") := by
  have hn : 24391 ≤ 256 ^ 31 := by norm_num
  have hmoney : ((24391 : Nat) : Int) ≤ MAX_MONEY := by norm_num [MAX_MONEY, COIN]
  have hcount : (WriteCompactSize 24391).head? ≠ some 1 := by decide
  have hsize : 168 + (GetSizeOfCompactSize 24391 + 41 * 24391 + 19) ≤ (4000000 : UInt32).toNat := by decide
  have hmany : MAX_INPUTS_PER_BLOCK < (List.replicate 24391 fatCoin).length := by
    rw [MAX_INPUTS_PER_BLOCK_eq, List.length_replicate]
    norm_num
  obtain ⟨view', hconnect⟩ := ConnectBlock_fatBlock (by norm_num) hn hmoney hcount hsize
  refine ⟨rfl, CheckBlock_fatBlock (by norm_num) hn hcount hsize, view', hconnect, fun IsFullyValid Decompress => ?_⟩
  exact CBlockUndo.unserialize_serialize_of_lt IsFullyValid Decompress hmany (by norm_num [MAX_SIZE]) (by norm_num [MAX_SIZE])

end Tapyrus
