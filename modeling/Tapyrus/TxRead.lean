import Tapyrus.HeaderRead
/-!
# Reading a transaction back

`UnserializeTransaction` (`primitives/transaction.h`): the features (an
`int32_t`), the inputs, the outputs and the lock time, each vector a
CompactSize count and its items. `Unserialize_impl` (`serialize.h`) reads a
vector in chunks of at most 5 MB; here it is read whole, and a stream that
ends early throws the same end-of-data failure either way. An input's
`scriptSig` is read only without `SERIALIZE_TRANSACTION_MALFIX`, as
`CTxIn::SerializationOp` writes it; the inputs are read into the vector
`UnserializeTransaction` cleared, so they start as `CTxIn()`.

Three facts about the format:

* `UnserializeTransaction_decodes`: a transaction reads back when its fields
  hold values of their C++ types and its vectors fit `MAX_SIZE`;
* `UnserializeTransaction_canonical`: every byte string the reader accepts is
  the serialization of what it read, since `ReadCompactSize` refuses the
  longer forms;
* `serialize_malfix_cancels`: the malleability-fixed form is a prefix code on
  the features, the outpoints and sequences, the outputs and the lock time.
  So two transactions have the same malleability-fixed form exactly when
  they agree on those fields.
-/

namespace Tapyrus

open Lib

/-! ## Readers -/

/-- `Unserialize` of an `int64_t`: eight bytes, two's complement. -/
def ser_readint64 : SerReader Int := do
  let n ← ser_readdata64
  pure (if n < 2 ^ 63 then n else n - 2 ^ 64)

/-- A vector's `Unserialize_impl`: the count, then the items. -/
def readVector {α : Type} (elem : SerReader α) : SerReader (List α) := do
  let nSize ← ReadCompactSize
  readN elem nSize

/-- `COutPoint::SerializationOp`, reading. -/
def COutPoint.Unserialize : SerReader COutPoint := do
  let hashMalFix ← readUint256
  let n ← readUInt32
  pure ⟨hashMalFix, n⟩

/-- `CTxIn::SerializationOp`, reading into `CTxIn()`: the `scriptSig` only
without `fMalFix`. -/
def CTxIn.Unserialize (fMalFix : Bool) : SerReader CTxIn := do
  let prevout ← COutPoint.Unserialize
  let scriptSig ← if fMalFix then pure [] else readByteVector
  let nSequence ← readUInt32
  pure ⟨prevout, scriptSig, nSequence, []⟩

/-- `CTxOut::SerializationOp`, reading. -/
def CTxOut.Unserialize : SerReader CTxOut := do
  let nValue ← ser_readint64
  let scriptPubKey ← readByteVector
  pure ⟨nValue, scriptPubKey⟩

/-- `UnserializeTransaction`. -/
def UnserializeTransaction (fMalFix : Bool) : SerReader CTransaction := do
  let nFeatures ← ser_readint32
  let vin ← readVector (CTxIn.Unserialize fMalFix)
  let vout ← readVector CTxOut.Unserialize
  let nLockTime ← readUInt32
  pure ⟨vin, vout, nFeatures, nLockTime⟩

namespace CTransaction

/-- `nFeatures` holds an `int32_t` and each `nValue` an `int64_t`; the
model's integers are unbounded. -/
def FieldsInRange (tx : CTransaction) : Prop :=
  (-2 ^ 31 ≤ tx.nFeatures ∧ tx.nFeatures < 2 ^ 31) ∧
    ∀ txout ∈ tx.vout, -2 ^ 63 ≤ txout.nValue ∧ txout.nValue < 2 ^ 63

/-- Every vector of `tx` (the inputs, the outputs and their scripts) has at
most `bound` elements. -/
def SizesAtMost (bound : Nat) (tx : CTransaction) : Prop :=
  tx.vin.length ≤ bound ∧ tx.vout.length ≤ bound ∧ (∀ txin ∈ tx.vin, txin.scriptSig.length ≤ bound) ∧
    ∀ txout ∈ tx.vout, txout.scriptPubKey.length ≤ bound

instance (tx : CTransaction) : Decidable tx.FieldsInRange :=
  inferInstanceAs (Decidable ((-2 ^ 31 ≤ tx.nFeatures ∧ tx.nFeatures < 2 ^ 31) ∧
    ∀ txout ∈ tx.vout, -2 ^ 63 ≤ txout.nValue ∧ txout.nValue < 2 ^ 63))

instance (bound : Nat) (tx : CTransaction) : Decidable (tx.SizesAtMost bound) :=
  inferInstanceAs (Decidable (tx.vin.length ≤ bound ∧ tx.vout.length ≤ bound ∧
    (∀ txin ∈ tx.vin, txin.scriptSig.length ≤ bound) ∧ ∀ txout ∈ tx.vout, txout.scriptPubKey.length ≤ bound))

/-- What the malleability-fixed form keeps of the inputs. -/
def outpointSequences (tx : CTransaction) : List (COutPoint × UInt32) :=
  tx.vin.map fun txin => (txin.prevout, txin.nSequence)

end CTransaction

/-! ## Round trip -/

theorem ser_readint64_decodes {x : Int} (hlo : -2 ^ 63 ≤ x) (hhi : x < 2 ^ 63) :
    Decodes ser_readint64 (ser_writeint 8) x := by
  intro rest
  have hlt : (x % (256 ^ 8 : Nat)).toNat < 256 ^ 8 := by omega
  have hwrite : ser_writeint 8 x = ser_writedata64 (x % (256 ^ 8 : Nat)).toNat := rfl
  rw [ser_readint64, hwrite, ser_readdata64, ser_writedata64, (ser_readdata_decodes 8 _ hlt).bind, Reader.run_pure]
  -- a negative value is written as `x + 2^64`
  congr 2
  split_ifs <;> omega

theorem readVector_decodes {α : Type} {elem : SerReader α} {enc : α → List UInt8} {l : List α}
    (hlen : l.length ≤ MAX_SIZE) (h : ∀ a ∈ l, Decodes elem enc a) : Decodes (readVector elem) (serializeList enc) l := by
  intro rest
  rw [readVector, serializeList, List.append_assoc, (ReadCompactSize_decodes hlen).bind]
  exact readN_decodes h rest

theorem COutPoint.Unserialize_decodes (o : COutPoint) : Decodes COutPoint.Unserialize COutPoint.serialize o := by
  intro rest
  rw [COutPoint.Unserialize, COutPoint.serialize, List.append_assoc, (readUint256_decodes _).bind,
    (readUInt32_decodes _).bind]
  rfl

theorem CTxIn.Unserialize_decodes {txin : CTxIn} (hsize : txin.scriptSig.length ≤ MAX_SIZE)
    (hwit : txin.scriptWitness = []) : Decodes (CTxIn.Unserialize false) (CTxIn.serialize false) txin := by
  intro rest
  obtain ⟨prevout, scriptSig, nSequence, scriptWitness⟩ := txin
  dsimp only at hsize hwit
  subst hwit
  rw [CTxIn.Unserialize, CTxIn.serialize, List.append_assoc, List.append_assoc, (COutPoint.Unserialize_decodes _).bind]
  simp only [Bool.false_eq_true, ↓reduceIte]
  rw [(readByteVector_decodes hsize).bind, (readUInt32_decodes _).bind]
  rfl

theorem CTxOut.Unserialize_decodes {txout : CTxOut} (hvalue : -2 ^ 63 ≤ txout.nValue ∧ txout.nValue < 2 ^ 63)
    (hsize : txout.scriptPubKey.length ≤ MAX_SIZE) : Decodes CTxOut.Unserialize CTxOut.serialize txout := by
  intro rest
  rw [CTxOut.Unserialize, CTxOut.serialize, List.append_assoc, (ser_readint64_decodes hvalue.1 hvalue.2).bind,
    (readByteVector_decodes hsize).bind]
  rfl

/-- A transaction whose fields hold values of their C++ types, whose vectors
fit `MAX_SIZE` and whose inputs carry no witness reads back. -/
theorem UnserializeTransaction_decodes {tx : CTransaction} (hrange : tx.FieldsInRange)
    (hsizes : tx.SizesAtMost MAX_SIZE) (hwit : ∀ txin ∈ tx.vin, txin.scriptWitness = []) :
    Decodes (UnserializeTransaction false) (CTransaction.serialize false) tx := by
  intro rest
  obtain ⟨⟨hlo, hhi⟩, hvalues⟩ := hrange
  obtain ⟨hvin, hvout, hsig, hpub⟩ := hsizes
  have hin : Decodes (readVector (CTxIn.Unserialize false)) (serializeList (CTxIn.serialize false)) tx.vin :=
    readVector_decodes hvin fun txin h => CTxIn.Unserialize_decodes (hsig txin h) (hwit txin h)
  have hout : Decodes (readVector CTxOut.Unserialize) (serializeList CTxOut.serialize) tx.vout :=
    readVector_decodes hvout fun txout h => CTxOut.Unserialize_decodes (hvalues txout h) (hpub txout h)
  rw [UnserializeTransaction, CTransaction.serialize]
  simp only [List.append_assoc]
  rw [(ser_readint32_decodes hlo hhi).bind, hin.bind, hout.bind, (readUInt32_decodes _).bind]
  rfl

/-! ## One encoding per transaction -/

theorem readUint256_canonical : Canonical readUint256 (·.bytes) := by
  intro s b s₂ h
  obtain ⟨bs, s₁, hbs, hcheck⟩ := Reader.run_bind_eq_ok.mp h
  obtain ⟨rfl, hlen⟩ := readBytes_ok hbs
  rw [dif_pos hlen] at hcheck
  cases hcheck
  rfl

theorem readUInt32_canonical : Canonical readUInt32 (fun x => ser_writedata32 x.toNat) := by
  intro s x s₂ h
  obtain ⟨n, s₁, hn, hpure⟩ := Reader.run_bind_eq_ok.mp h
  cases hpure
  obtain ⟨hs, hlt⟩ := ser_readdata_ok hn
  show s = ser_writedata32 (UInt32.ofNat n).toNat ++ _
  rw [hs, UInt32.toNat_ofNat', Nat.mod_eq_of_lt (by simpa using hlt)]
  rfl

/-- The value a signed reader returns is the bytes' value less `2 ^ (8 w)`
when the top bit is set: the same residue, so the same bytes. -/
theorem ser_readint32_canonical : Canonical ser_readint32 (ser_writeint 4) := by
  intro s x s₂ h
  obtain ⟨n, s₁, hn, hpure⟩ := Reader.run_bind_eq_ok.mp h
  cases hpure
  obtain ⟨hs, hlt⟩ := ser_readdata_ok hn
  rw [hs, ser_writeint]
  congr 2
  split_ifs <;> omega

theorem ser_readint64_canonical : Canonical ser_readint64 (ser_writeint 8) := by
  intro s x s₂ h
  obtain ⟨n, s₁, hn, hpure⟩ := Reader.run_bind_eq_ok.mp h
  cases hpure
  obtain ⟨hs, hlt⟩ := ser_readdata_ok hn
  rw [hs, ser_writeint]
  congr 2
  split_ifs <;> omega

theorem readByteVector_canonical : Canonical readByteVector serializeBytes := by
  intro s v s₂ h
  obtain ⟨n, s₁, hn, hbytes⟩ := Reader.run_bind_eq_ok.mp h
  obtain ⟨rfl, hlen⟩ := readBytes_ok hbytes
  rw [ReadCompactSize_canonical _ _ _ hn, serializeBytes, hlen, List.append_assoc]

theorem readVector_canonical {α : Type} {elem : SerReader α} {enc : α → List UInt8} (h : Canonical elem enc) :
    Canonical (readVector elem) (serializeList enc) := by
  intro s l s₂ hrun
  obtain ⟨n, s₁, hn, hitems⟩ := Reader.run_bind_eq_ok.mp hrun
  rw [ReadCompactSize_canonical _ _ _ hn, readN_canonical h n _ _ _ hitems, serializeList, readN_length hitems,
    List.append_assoc]

theorem COutPoint.Unserialize_canonical : Canonical COutPoint.Unserialize COutPoint.serialize := by
  intro s o s₃ h
  obtain ⟨hash, s₁, hhash, hrest⟩ := Reader.run_bind_eq_ok.mp h
  obtain ⟨n, s₂, hn, hpure⟩ := Reader.run_bind_eq_ok.mp hrest
  cases hpure
  rw [readUint256_canonical _ _ _ hhash, readUInt32_canonical _ _ _ hn, COutPoint.serialize, List.append_assoc]

theorem CTxIn.Unserialize_canonical : Canonical (CTxIn.Unserialize false) (CTxIn.serialize false) := by
  intro s txin s₄ h
  obtain ⟨prevout, s₁, hprevout, hrest⟩ := Reader.run_bind_eq_ok.mp h
  simp only [Bool.false_eq_true, ↓reduceIte] at hrest
  obtain ⟨scriptSig, s₂, hsig, hrest⟩ := Reader.run_bind_eq_ok.mp hrest
  obtain ⟨nSequence, s₃, hseq, hpure⟩ := Reader.run_bind_eq_ok.mp hrest
  cases hpure
  rw [COutPoint.Unserialize_canonical _ _ _ hprevout, readByteVector_canonical _ _ _ hsig,
    readUInt32_canonical _ _ _ hseq, CTxIn.serialize]
  simp only [Bool.false_eq_true, ↓reduceIte, List.append_assoc]

theorem CTxOut.Unserialize_canonical : Canonical CTxOut.Unserialize CTxOut.serialize := by
  intro s txout s₃ h
  obtain ⟨nValue, s₁, hvalue, hrest⟩ := Reader.run_bind_eq_ok.mp h
  obtain ⟨scriptPubKey, s₂, hscript, hpure⟩ := Reader.run_bind_eq_ok.mp hrest
  cases hpure
  rw [ser_readint64_canonical _ _ _ hvalue, readByteVector_canonical _ _ _ hscript,
    CTxOut.serialize, List.append_assoc]

/-- Every byte string the transaction reader accepts is the serialization of
the transaction it read, followed by what it left. -/
theorem UnserializeTransaction_canonical : Canonical (UnserializeTransaction false) (CTransaction.serialize false) := by
  intro s tx s₅ h
  obtain ⟨nFeatures, s₁, hfeatures, hrest⟩ := Reader.run_bind_eq_ok.mp h
  obtain ⟨vin, s₂, hvin, hrest⟩ := Reader.run_bind_eq_ok.mp hrest
  obtain ⟨vout, s₃, hvout, hrest⟩ := Reader.run_bind_eq_ok.mp hrest
  obtain ⟨nLockTime, s₄, hlock, hpure⟩ := Reader.run_bind_eq_ok.mp hrest
  cases hpure
  rw [ser_readint32_canonical _ _ _ hfeatures,
    readVector_canonical CTxIn.Unserialize_canonical _ _ _ hvin,
    readVector_canonical CTxOut.Unserialize_canonical _ _ _ hvout,
    readUInt32_canonical _ _ _ hlock, CTransaction.serialize]
  simp only [List.append_assoc]

/-! ## The malleability-fixed form -/

/-- A signed `int32_t` is written as its residue modulo `2 ^ 32`. -/
theorem ser_writeint_cancels_4 : Cancels (ser_writeint 4) id (fun x => -2 ^ 31 ≤ x ∧ x < 2 ^ 31) :=
  Cancels.of_length 4 (fun _ _ => toLE_length _ _) fun a b ha hb h => by
    have hres := (toLE_cancels 4).eq (by omega) (by omega) h
    simp only [id] at hres ⊢
    omega

/-- A signed `int64_t` is written as its residue modulo `2 ^ 64`. -/
theorem ser_writeint_cancels_8 : Cancels (ser_writeint 8) id (fun x => -2 ^ 63 ≤ x ∧ x < 2 ^ 63) :=
  Cancels.of_length 8 (fun _ _ => toLE_length _ _) fun a b ha hb h => by
    have hres := (toLE_cancels 8).eq (by omega) (by omega) h
    simp only [id] at hres ⊢
    omega

theorem uint256_cancels : Cancels (fun b : uint256 => b.bytes) id (fun _ => True) :=
  Cancels.of_length 32 (fun b _ => b.length_eq) fun _ _ _ _ h => Blob.ext' h

theorem uint32_cancels : Cancels (fun x : UInt32 => ser_writedata32 x.toNat) id (fun _ => True) :=
  Cancels.of_length 4 (fun _ _ => toLE_length _ _) fun a b _ _ h =>
    UInt32.toNat_inj.mp ((toLE_cancels 4).eq (by simpa using a.toNat_lt) (by simpa using b.toNat_lt) h)

theorem COutPoint.serialize_cancels : Cancels COutPoint.serialize id (fun _ => True) :=
  ((uint256_cancels.comp COutPoint.hashMalFix).append (uint32_cancels.comp COutPoint.n)).map
    fun a b _ _ h => by
      obtain ⟨hash, n⟩ := a
      obtain ⟨hash', n'⟩ := b
      simp only [id, Prod.mk.injEq] at h
      rw [h.1, h.2]

/-- An input without its `scriptSig`: the outpoint and the sequence. -/
theorem CTxIn.serialize_malfix (txin : CTxIn) :
    CTxIn.serialize true txin = txin.prevout.serialize ++ ser_writedata32 txin.nSequence.toNat := by
  simp [CTxIn.serialize]

theorem CTxIn.serialize_malfix_cancels :
    Cancels (CTxIn.serialize true) (fun txin => (txin.prevout, txin.nSequence)) (fun _ => True) := by
  have henc : CTxIn.serialize true = fun txin => txin.prevout.serialize ++ ser_writedata32 txin.nSequence.toNat :=
    funext CTxIn.serialize_malfix
  rw [henc]
  exact (COutPoint.serialize_cancels.comp CTxIn.prevout).append (uint32_cancels.comp CTxIn.nSequence)

theorem serializeList_cancels {α β : Type} {enc : α → List UInt8} {key : α → β} {p : α → Prop}
    (h : Cancels enc key p) :
    Cancels (serializeList enc) (·.map key) (fun l => l.length < 2 ^ 64 ∧ ∀ a ∈ l, p a) :=
  Cancels.counted WriteCompactSize_cancels h

theorem serializeBytes_cancels : Cancels serializeBytes id (fun v => v.length < 2 ^ 64) := by
  have henc : serializeBytes = serializeList fun b => [b] := by
    funext v
    rw [serializeBytes, serializeList, ← List.flatMap_def, List.flatMap_singleton']
  rw [henc]
  refine ((serializeList_cancels (Cancels.of_length 1 (p := fun _ => True) (fun _ _ => rfl)
    fun _ _ _ _ h => List.singleton_inj.mp h)).map fun _ _ _ _ h => by simpa using h).mono ?_
  intro v hv
  exact ⟨hv, fun _ _ => trivial⟩

theorem CTxOut.serialize_cancels :
    Cancels CTxOut.serialize id
      (fun txout => (-2 ^ 63 ≤ txout.nValue ∧ txout.nValue < 2 ^ 63) ∧ txout.scriptPubKey.length < 2 ^ 64) :=
  (((ser_writeint_cancels_8.comp CTxOut.nValue).mono fun _ h => h.1).append
    ((serializeBytes_cancels.comp CTxOut.scriptPubKey).mono fun _ h => h.2)).map fun a b _ _ h => by
      obtain ⟨nValue, scriptPubKey⟩ := a
      obtain ⟨nValue', scriptPubKey'⟩ := b
      simp only [id, Prod.mk.injEq] at h
      rw [h.1, h.2]

/-- The malleability-fixed form is a prefix code on the transactions whose
fields hold values of their C++ types: it determines the features, the
outpoints and sequences, the outputs and the lock time. -/
theorem serialize_malfix_cancels :
    Cancels (CTransaction.serialize true) (fun tx => (tx.nFeatures, tx.outpointSequences, tx.vout, tx.nLockTime))
      (fun tx => tx.FieldsInRange ∧ tx.SizesAtMost (2 ^ 64 - 1)) := by
  have hfeatures := (ser_writeint_cancels_4.comp CTransaction.nFeatures).mono
    fun (tx : CTransaction) (h : tx.FieldsInRange ∧ tx.SizesAtMost (2 ^ 64 - 1)) => h.1.1
  have hvin := ((serializeList_cancels CTxIn.serialize_malfix_cancels).comp CTransaction.vin).mono
    fun (tx : CTransaction) (h : tx.FieldsInRange ∧ tx.SizesAtMost (2 ^ 64 - 1)) =>
      ⟨by have := h.2.1; omega, fun _ _ => trivial⟩
  have hvout := ((serializeList_cancels CTxOut.serialize_cancels).comp CTransaction.vout).mono
    fun (tx : CTransaction) (h : tx.FieldsInRange ∧ tx.SizesAtMost (2 ^ 64 - 1)) =>
      ⟨by have := h.2.2.1; omega, fun txout hout => ⟨h.1.2 txout hout, by have := h.2.2.2.2 txout hout; omega⟩⟩
  have hlock := (uint32_cancels.comp CTransaction.nLockTime).mono
    fun (tx : CTransaction) (_ : tx.FieldsInRange ∧ tx.SizesAtMost (2 ^ 64 - 1)) => trivial
  -- the four fields in sequence, `++` associating to the left as in `CTransaction.serialize`
  refine (((hfeatures.append hvin).append hvout).append hlock).map fun a b _ _ h => ?_
  simp only [id, List.map_id, Prod.mk.injEq] at h
  obtain ⟨⟨⟨h1, h2⟩, h3⟩, h4⟩ := h
  simp only [CTransaction.outpointSequences, h1, h2, h3, h4]

/-- The malleability-fixed form from the fields it keeps. -/
theorem serialize_malfix_eq (tx : CTransaction) :
    tx.serialize true = ser_writeint 4 tx.nFeatures ++
      (WriteCompactSize tx.outpointSequences.length ++
        (tx.outpointSequences.map fun o => o.1.serialize ++ ser_writedata32 o.2.toNat).flatten) ++
      serializeList CTxOut.serialize tx.vout ++ ser_writedata32 tx.nLockTime.toNat := by
  have hmap : tx.vin.map (CTxIn.serialize true) =
      tx.outpointSequences.map fun o => o.1.serialize ++ ser_writedata32 o.2.toNat := by
    rw [CTransaction.outpointSequences, List.map_map]
    exact List.map_congr_left fun txin _ => CTxIn.serialize_malfix txin
  simp only [CTransaction.serialize, serializeList, hmap, CTransaction.outpointSequences, List.length_map]

/-- Two transactions in range have one malleability-fixed form exactly when
they agree on the fields it keeps. -/
theorem serialize_malfix_eq_iff {tx₁ tx₂ : CTransaction} (h₁ : tx₁.FieldsInRange ∧ tx₁.SizesAtMost (2 ^ 64 - 1))
    (h₂ : tx₂.FieldsInRange ∧ tx₂.SizesAtMost (2 ^ 64 - 1)) :
    tx₁.serialize true = tx₂.serialize true ↔
      tx₁.nFeatures = tx₂.nFeatures ∧ tx₁.outpointSequences = tx₂.outpointSequences ∧ tx₁.vout = tx₂.vout ∧
        tx₁.nLockTime = tx₂.nLockTime := by
  constructor
  · intro h
    simpa only [Prod.mk.injEq] using serialize_malfix_cancels.eq h₁ h₂ h
  · rintro ⟨hf, hin, hout, hlock⟩
    rw [serialize_malfix_eq, serialize_malfix_eq, hf, hin, hout, hlock]

/-- The transaction format. A transaction whose fields hold values of their
C++ types reads back; every byte string the reader accepts is the
serialization of what it read; and the malleability-fixed form, which
`GetHashMalFix` hashes, is determined by the features, the outpoints and
sequences, the outputs and the lock time, and determines them. -/
theorem UnserializeTransaction_wire_format :
    (∀ tx : CTransaction, tx.FieldsInRange → tx.SizesAtMost MAX_SIZE → (∀ txin ∈ tx.vin, txin.scriptWitness = []) →
      Decodes (UnserializeTransaction false) (CTransaction.serialize false) tx) ∧
    Canonical (UnserializeTransaction false) (CTransaction.serialize false) ∧
    (∀ tx₁ tx₂ : CTransaction, tx₁.FieldsInRange ∧ tx₁.SizesAtMost (2 ^ 64 - 1) →
      tx₂.FieldsInRange ∧ tx₂.SizesAtMost (2 ^ 64 - 1) →
      (tx₁.serialize true = tx₂.serialize true ↔
        tx₁.nFeatures = tx₂.nFeatures ∧ tx₁.outpointSequences = tx₂.outpointSequences ∧ tx₁.vout = tx₂.vout ∧
          tx₁.nLockTime = tx₂.nLockTime)) ∧
    (∀ (C : Crypto) (tx₁ tx₂ : CTransaction), tx₁.nFeatures = tx₂.nFeatures →
      tx₁.outpointSequences = tx₂.outpointSequences → tx₁.vout = tx₂.vout → tx₁.nLockTime = tx₂.nLockTime →
      tx₁.GetHashMalFix C = tx₂.GetHashMalFix C) := by
  refine ⟨fun tx hrange hsizes hwit => UnserializeTransaction_decodes hrange hsizes hwit,
    UnserializeTransaction_canonical, fun tx₁ tx₂ h₁ h₂ => serialize_malfix_eq_iff h₁ h₂, ?_⟩
  intro C tx₁ tx₂ hf hin hout hlock
  rw [CTransaction.GetHashMalFix, CTransaction.GetHashMalFix, serialize_malfix_eq, serialize_malfix_eq, hf, hin, hout,
    hlock]

/-- A one-input, one-output transaction reads back. -/
theorem UnserializeTransaction_wire_format_spend :
    let tx : CTransaction := ⟨[⟨⟨Blob.zero 32, 0⟩, [OP_1], SEQUENCE_FINAL, []⟩], [⟨50 * COIN, [OP_1]⟩], 1, 0⟩
    tx.FieldsInRange ∧ tx.SizesAtMost MAX_SIZE ∧ (∀ txin ∈ tx.vin, txin.scriptWitness = []) ∧
      Decodes (UnserializeTransaction false) (CTransaction.serialize false) tx :=
  ⟨by decide, by decide, by decide, UnserializeTransaction_wire_format.1 _ (by decide) (by decide) (by decide)⟩

end Tapyrus
