import Tapyrus.Lib.Reader
import Tapyrus.Lib.PrefixCode
import Tapyrus.Primitives
/-!
# Serialization

`serialize.h` over byte lists: the fixed-width integers, the two variable
length codes (`CompactSize`, the vector and string length prefix, and
`VarInt`, the base-128 code of the databases), vectors, and the
transaction format of `primitives/transaction.h`.

Writers are functions to `List UInt8`; readers are `SerReader`s that throw
the code's `std::ios_base::failure` messages.
-/

namespace Tapyrus

open Lib

/-- The exceptions deserialization throws. -/
inductive SerError where
  | iosFailure (what : String)
  | runtimeError (what : String)
  deriving DecidableEq, Repr

abbrev SerReader (α : Type) := Reader SerError α

/-- What `CDataStream::read` throws at the end of the stream. -/
def END_OF_DATA : SerError := .iosFailure "CDataStream::read(): end of data"

def MAX_SIZE : Nat := 0x02000000

/-! ## Fixed-width integers -/

/-- `ser_writedata8/16/32/64`: the low `w` bytes, little-endian. -/
def ser_writedata (w n : Nat) : List UInt8 := toLE w n

/-- `ser_readdata8/16/32/64`. -/
def ser_readdata (w : Nat) : SerReader Nat := do
  let bs ← readBytes END_OF_DATA w
  pure (ofLE bs)

def ser_writedata8 (n : Nat) : List UInt8 := ser_writedata 1 n
def ser_writedata16 (n : Nat) : List UInt8 := ser_writedata 2 n
def ser_writedata32 (n : Nat) : List UInt8 := ser_writedata 4 n
def ser_writedata64 (n : Nat) : List UInt8 := ser_writedata 8 n
def ser_readdata8 : SerReader Nat := ser_readdata 1
def ser_readdata16 : SerReader Nat := ser_readdata 2
def ser_readdata32 : SerReader Nat := ser_readdata 4
def ser_readdata64 : SerReader Nat := ser_readdata 8

theorem ser_readdata_decodes (w n : Nat) (h : n < 256 ^ w) :
    Decodes (ser_readdata w) (ser_writedata w) n := by
  intro rest
  have hread := readBytes_append END_OF_DATA (toLE w n) rest
  rw [toLE_length] at hread
  simp only [ser_readdata, ser_writedata]
  rw [Reader.run_bind_of_ok hread, Reader.run_pure, ofLE_toLE_of_lt h]

/-- What `ser_readdata` reads is the value of its bytes, written back as
those bytes. -/
theorem ser_readdata_ok {w : Nat} {s s' : List UInt8} {n : Nat} (h : StateT.run (ser_readdata w) s = .ok (n, s')) :
    s = ser_writedata w n ++ s' ∧ n < 256 ^ w := by
  obtain ⟨bs, s₁, hbs, hpure⟩ := Reader.run_bind_eq_ok.mp h
  cases hpure
  obtain ⟨rfl, hlen⟩ := readBytes_ok hbs
  refine ⟨by rw [ser_writedata, ← hlen, toLE_ofLE], ?_⟩
  have := ofLE_lt bs
  rwa [hlen] at this

theorem ser_readdata_canonical (w : Nat) : Canonical (ser_readdata w) (ser_writedata w) :=
  fun _ _ _ h => (ser_readdata_ok h).1

/-! ## CompactSize -/

/-- `WriteCompactSize` (of a `uint64_t`). -/
def WriteCompactSize (nSize : Nat) : List UInt8 :=
  if nSize < 253 then ser_writedata8 nSize
  else if nSize ≤ 0xffff then ser_writedata8 253 ++ ser_writedata16 nSize
  else if nSize ≤ 0xffffffff then ser_writedata8 254 ++ ser_writedata32 nSize
  else ser_writedata8 255 ++ ser_writedata64 nSize

/-- `GetSizeOfCompactSize`. -/
def GetSizeOfCompactSize (nSize : Nat) : Nat :=
  if nSize < 253 then 1 else if nSize ≤ 0xffff then 3 else if nSize ≤ 0xffffffff then 5 else 9

def NON_CANONICAL : SerError := .iosFailure "non-canonical ReadCompactSize()"
def SIZE_TOO_LARGE : SerError := .iosFailure "ReadCompactSize(): size too large"

/-- `ReadCompactSize`: rejects a value that a shorter form could hold and a
value above `MAX_SIZE`. -/
def ReadCompactSize : SerReader Nat := do
  let chSize ← ser_readdata8
  let nSizeRet ←
    if chSize < 253 then pure chSize
    else if chSize = 253 then do
      let n ← ser_readdata16
      if n < 253 then Reader.throw NON_CANONICAL else pure n
    else if chSize = 254 then do
      let n ← ser_readdata32
      if n < 0x10000 then Reader.throw NON_CANONICAL else pure n
    else do
      let n ← ser_readdata64
      if n < 0x100000000 then Reader.throw NON_CANONICAL else pure n
  if nSizeRet > MAX_SIZE then Reader.throw SIZE_TOO_LARGE else pure nSizeRet

theorem WriteCompactSize_length (n : Nat) : (WriteCompactSize n).length = GetSizeOfCompactSize n := by
  unfold WriteCompactSize GetSizeOfCompactSize
  split_ifs <;> simp [ser_writedata8, ser_writedata16, ser_writedata32, ser_writedata64, ser_writedata]

/-- A one-byte CompactSize is the byte itself. -/
theorem WriteCompactSize_of_lt {n : Nat} (h : n < 253) : WriteCompactSize n = [UInt8.ofNat n] := by
  simp [WriteCompactSize, h, ser_writedata8, ser_writedata, toLE, Nat.mod_eq_of_lt (show n < 256 by omega)]

/-- `ReadCompactSize` reads back a size up to `MAX_SIZE`, in each of the
three forms such a size takes. -/
theorem ReadCompactSize_decodes {n : Nat} (h : n ≤ MAX_SIZE) : Decodes ReadCompactSize WriteCompactSize n := by
  intro rest
  have hmax : ¬ n > MAX_SIZE := by omega
  unfold WriteCompactSize
  split_ifs with h1 h2 h3
  · rw [ReadCompactSize, ser_readdata8, ser_writedata8, (ser_readdata_decodes 1 n (by omega)).bind]
    simp [h1, hmax]
    rfl
  · have h253 : ¬ n < 253 := h1
    rw [List.append_assoc, ReadCompactSize, ser_readdata8, ser_writedata8,
      (ser_readdata_decodes 1 253 (by norm_num)).bind]
    simp only [↓reduceIte, Nat.lt_irrefl]
    rw [ser_readdata16, ser_writedata16, (ser_readdata_decodes 2 n (by omega)).bind]
    simp [h253, hmax]
    rfl
  · have h65536 : ¬ n < 65536 := by omega
    rw [List.append_assoc, ReadCompactSize, ser_readdata8, ser_writedata8,
      (ser_readdata_decodes 1 254 (by norm_num)).bind]
    rw [if_neg (by decide : ¬ (254 : Nat) < 253), if_neg (by decide : (254 : Nat) ≠ 253), if_pos rfl]
    rw [ser_readdata32, ser_writedata32, (ser_readdata_decodes 4 n (by omega)).bind]
    simp [h65536, hmax]
    rfl
  · exact absurd (show n ≤ 0xffffffff by unfold MAX_SIZE at h; omega) h3

/-! ### One form per size -/

/-- The first byte of a CompactSize names its form. -/
theorem WriteCompactSize_eq_cons (n : Nat) :
    WriteCompactSize n =
      if n < 253 then [UInt8.ofNat n]
      else if n ≤ 0xffff then 253 :: toLE 2 n
      else if n ≤ 0xffffffff then 254 :: toLE 4 n
      else 255 :: toLE 8 n := by
  by_cases h1 : n < 253
  · rw [if_pos h1, WriteCompactSize_of_lt h1]
  · rw [if_neg h1, WriteCompactSize, if_neg h1]
    split_ifs <;> rfl

/-- What the first byte of a CompactSize says: below 253 it is the value;
253, 254 and 255 announce a value of 2, 4 and 8 bytes. -/
theorem WriteCompactSize_eq_cons_iff {n : Nat} {x : UInt8} {tail : List UInt8} (h : WriteCompactSize n = x :: tail) :
    (x.toNat < 253 ∧ n = x.toNat ∧ tail = []) ∨ (x = 253 ∧ 253 ≤ n ∧ n < 256 ^ 2 ∧ tail = toLE 2 n) ∨
    (x = 254 ∧ 253 ≤ n ∧ n < 256 ^ 4 ∧ tail = toLE 4 n) ∨ (x = 255 ∧ 253 ≤ n ∧ tail = toLE 8 n) := by
  rw [WriteCompactSize_eq_cons] at h
  split_ifs at h with h1 h2 h3 <;> simp only [List.cons.injEq] at h <;> obtain ⟨rfl, rfl⟩ := h
  · have hx : (UInt8.ofNat n).toNat = n := by rw [UInt8.toNat_ofNat', Nat.mod_eq_of_lt (by omega)]
    exact .inl ⟨by omega, hx.symm, rfl⟩
  · exact .inr (.inl ⟨rfl, by omega, by omega, rfl⟩)
  · exact .inr (.inr (.inl ⟨rfl, by omega, by omega, rfl⟩))
  · exact .inr (.inr (.inr ⟨rfl, by omega, rfl⟩))

theorem WriteCompactSize_ne_nil (n : Nat) : ∃ x tail, WriteCompactSize n = x :: tail := by
  rw [WriteCompactSize_eq_cons]
  split_ifs <;> exact ⟨_, _, rfl⟩

/-- CompactSize is a prefix code on the values of a `uint64_t`: the first
byte names the width, and each width is little-endian. -/
theorem WriteCompactSize_cancels : Cancels WriteCompactSize id (· < 2 ^ 64) := by
  intro a b ha hb r s h
  obtain ⟨x, tail, hx⟩ := WriteCompactSize_ne_nil a
  obtain ⟨y, tail', hy⟩ := WriteCompactSize_ne_nil b
  rw [hx, hy, List.cons_append, List.cons_append, List.cons.injEq] at h
  obtain ⟨rfl, htail⟩ := h
  -- the first byte names one form, the same on both sides
  rcases WriteCompactSize_eq_cons_iff hx with ⟨hlt, rfl, rfl⟩ | ⟨rfl, -, ha2, rfl⟩ | ⟨rfl, -, ha4, rfl⟩ | ⟨rfl, -, rfl⟩
  · rcases WriteCompactSize_eq_cons_iff hy with ⟨-, hb, rfl⟩ | ⟨rfl, -⟩ | ⟨rfl, -⟩ | ⟨rfl, -⟩
    · exact ⟨hb.symm, by simpa using htail⟩
    all_goals exact absurd hlt (by decide)
  · rcases WriteCompactSize_eq_cons_iff hy with ⟨hlt, -⟩ | ⟨-, -, hb2, rfl⟩ | ⟨hne, -⟩ | ⟨hne, -⟩
    · exact absurd hlt (by decide)
    · exact toLE_cancels 2 a b ha2 hb2 r s htail
    all_goals exact absurd hne (by decide)
  · rcases WriteCompactSize_eq_cons_iff hy with ⟨hlt, -⟩ | ⟨hne, -⟩ | ⟨-, -, hb4, rfl⟩ | ⟨hne, -⟩
    · exact absurd hlt (by decide)
    · exact absurd hne (by decide)
    · exact toLE_cancels 4 a b ha4 hb4 r s htail
    · exact absurd hne (by decide)
  · rcases WriteCompactSize_eq_cons_iff hy with ⟨hlt, -⟩ | ⟨hne, -⟩ | ⟨hne, -⟩ | ⟨-, -, rfl⟩
    · exact absurd hlt (by decide)
    · exact absurd hne (by decide)
    · exact absurd hne (by decide)
    · exact toLE_cancels 8 a b (by norm_num at ha ⊢; omega) (by norm_num at hb ⊢; omega) r s htail

/-- The size check at the end of `ReadCompactSize`. -/
theorem sizeCheck_ok {v n : Nat} {s s' : List UInt8}
    (h : StateT.run (if v > MAX_SIZE then Reader.throw SIZE_TOO_LARGE else pure v : SerReader Nat) s = .ok (n, s')) :
    v ≤ MAX_SIZE ∧ n = v ∧ s' = s := by
  split_ifs at h with hbig
  · cases h
  · cases h
    exact ⟨by omega, rfl, rfl⟩

/-- A longer form that passed its non-canonical check: the value read and
checked, then the size check. -/
theorem nonCanonicalCheck_ok {r : SerReader Nat} {lo n : Nat} {s s' : List UInt8}
    {k : Nat → SerReader Nat}
    (h : StateT.run (do let m ← r; if m < lo then (do let v ← Reader.throw NON_CANONICAL; k v) else (do let v ← pure m; k v)) s =
      .ok (n, s')) :
    ∃ m s₁, StateT.run r s = .ok (m, s₁) ∧ lo ≤ m ∧ StateT.run (k m) s₁ = .ok (n, s') := by
  obtain ⟨m, s₁, hm, hcheck⟩ := Reader.run_bind_eq_ok.mp h
  split_ifs at hcheck with hlow
  · cases hcheck
  · exact ⟨m, s₁, hm, by omega, hcheck⟩

/-- What `ReadCompactSize` accepts: a size up to `MAX_SIZE`, in the form
`WriteCompactSize` writes. The non-canonical checks refuse every longer
form, and the size check the 8-byte one. -/
theorem ReadCompactSize_ok {s s' : List UInt8} {n : Nat} (h : StateT.run ReadCompactSize s = .ok (n, s')) :
    n ≤ MAX_SIZE ∧ s = WriteCompactSize n ++ s' := by
  obtain ⟨ch, s₁, hch, hrest⟩ := Reader.run_bind_eq_ok.mp h
  obtain ⟨hs, hch256⟩ := ser_readdata_ok hch
  rw [hs]
  dsimp only at hrest
  split_ifs at hrest with h1 h2 h3
  · -- one byte
    obtain ⟨hle, rfl, rfl⟩ := sizeCheck_ok hrest
    refine ⟨hle, ?_⟩
    rw [WriteCompactSize, if_pos h1]
    rfl
  · -- 253 and two bytes, at least 253
    obtain ⟨m, s₃, hm, hlow, hfin⟩ := nonCanonicalCheck_ok hrest
    obtain ⟨hle, rfl, rfl⟩ := sizeCheck_ok hfin
    obtain ⟨hs₁, hm256⟩ := ser_readdata_ok hm
    refine ⟨hle, ?_⟩
    rw [WriteCompactSize, if_neg (by omega), if_pos (by norm_num at hm256; omega), h2, hs₁, List.append_assoc]
    rfl
  · -- 254 and four bytes, at least `0x10000`
    obtain ⟨m, s₃, hm, hlow, hfin⟩ := nonCanonicalCheck_ok hrest
    obtain ⟨hle, rfl, rfl⟩ := sizeCheck_ok hfin
    obtain ⟨hs₁, hm256⟩ := ser_readdata_ok hm
    refine ⟨hle, ?_⟩
    rw [WriteCompactSize, if_neg (by omega), if_neg (by omega), if_pos (by norm_num at hm256; omega), h3, hs₁,
      List.append_assoc]
    rfl
  · -- 255 and eight bytes, at least `2 ^ 32`: above `MAX_SIZE`
    obtain ⟨m, s₃, hm, hlow, hfin⟩ := nonCanonicalCheck_ok hrest
    obtain ⟨hle, rfl, rfl⟩ := sizeCheck_ok hfin
    unfold MAX_SIZE at hle
    omega

/-- `ReadCompactSize` accepts only the form `WriteCompactSize` writes. -/
theorem ReadCompactSize_canonical : Canonical ReadCompactSize WriteCompactSize :=
  fun _ _ _ h => (ReadCompactSize_ok h).2

/-- The three longer forms: the marker, the width of the value after it, and
the least value the form may hold (what no shorter form holds). -/
def longerForms : List (Nat × Nat × Nat) := [(253, 2, 253), (254, 4, 0x10000), (255, 8, 0x100000000)]

/-- A longer form holding a value that a shorter form holds is refused as
non-canonical, whatever follows it. -/
theorem ReadCompactSize_refuses_longer {tag w lo : Nat} (hf : (tag, w, lo) ∈ longerForms) {n : Nat} (h : n < lo)
    (rest : List UInt8) :
    StateT.run ReadCompactSize (ser_writedata8 tag ++ ser_writedata w n ++ rest) = .error NON_CANONICAL := by
  simp only [longerForms, List.mem_cons, Prod.mk.injEq, List.not_mem_nil, or_false] at hf
  rcases hf with ⟨rfl, rfl, rfl⟩ | ⟨rfl, rfl, rfl⟩ | ⟨rfl, rfl, rfl⟩
  · -- 253: two bytes
    rw [List.append_assoc, ReadCompactSize, ser_readdata8, ser_writedata8,
      (ser_readdata_decodes 1 253 (by norm_num)).bind]
    simp only [↓reduceIte, Nat.lt_irrefl]
    rw [ser_readdata16, (ser_readdata_decodes 2 n (by omega)).bind]
    rw [if_pos h]
    rfl
  · -- 254: four bytes
    rw [List.append_assoc, ReadCompactSize, ser_readdata8, ser_writedata8,
      (ser_readdata_decodes 1 254 (by norm_num)).bind]
    rw [if_neg (by decide : ¬ (254 : Nat) < 253), if_neg (by decide : (254 : Nat) ≠ 253), if_pos rfl]
    rw [ser_readdata32, (ser_readdata_decodes 4 n (by omega)).bind]
    rw [if_pos h]
    rfl
  · -- 255: eight bytes
    rw [List.append_assoc, ReadCompactSize, ser_readdata8, ser_writedata8,
      (ser_readdata_decodes 1 255 (by norm_num)).bind]
    rw [if_neg (by decide : ¬ (255 : Nat) < 253), if_neg (by decide : (255 : Nat) ≠ 253),
      if_neg (by decide : (255 : Nat) ≠ 254)]
    rw [ser_readdata64, (ser_readdata_decodes 8 n (by omega)).bind]
    rw [if_pos h]
    rfl

/-- The form `WriteCompactSize` writes for a size above `MAX_SIZE` (in four
or eight bytes) is refused by the size check. -/
theorem ReadCompactSize_too_large {n : Nat} (h : MAX_SIZE < n) (h64 : n < 2 ^ 64) (rest : List UInt8) :
    StateT.run ReadCompactSize (WriteCompactSize n ++ rest) = .error SIZE_TOO_LARGE := by
  have hbig : n > MAX_SIZE := h
  unfold MAX_SIZE at h
  unfold WriteCompactSize
  rw [if_neg (by omega), if_neg (by omega)]
  split_ifs with h32
  · rw [List.append_assoc, ReadCompactSize, ser_readdata8, ser_writedata8,
      (ser_readdata_decodes 1 254 (by norm_num)).bind]
    rw [if_neg (by decide : ¬ (254 : Nat) < 253), if_neg (by decide : (254 : Nat) ≠ 253), if_pos rfl]
    rw [ser_readdata32, ser_writedata32, (ser_readdata_decodes 4 n (by omega)).bind]
    simp [show ¬ n < 65536 by omega, hbig]
  · rw [List.append_assoc, ReadCompactSize, ser_readdata8, ser_writedata8,
      (ser_readdata_decodes 1 255 (by norm_num)).bind]
    rw [if_neg (by decide : ¬ (255 : Nat) < 253), if_neg (by decide : (255 : Nat) ≠ 253),
      if_neg (by decide : (255 : Nat) ≠ 254)]
    rw [ser_readdata64, ser_writedata64, (ser_readdata_decodes 8 n (by omega)).bind]
    simp [show ¬ n < 4294967296 by omega, hbig]

/-! ## VarInt -/

/-- The bytes `WriteVarInt` collects in `tmp`, least significant digit
first: seven bits each, every digit after the first flagged with `0x80`, and
one subtracted from the quotient at each step. `fuel` bounds the digits. -/
def varIntTmp : Nat → Nat → Bool → List UInt8
  | 0, _, _ => []
  | fuel + 1, n, flag =>
    let b := UInt8.ofNat (n % 128 + if flag then 0x80 else 0)
    if n ≤ 0x7F then [b] else b :: varIntTmp fuel (n / 128 - 1) true

/-- `WriteVarInt`: `tmp` written from its last digit to its first. -/
def WriteVarInt (n : Nat) : List UInt8 := (varIntTmp (n + 1) n false).reverse

def VARINT_TOO_LARGE : SerError := .iosFailure "ReadVarInt(): size too large"

/-- The loop of `ReadVarInt<I>` for an unsigned `I` whose largest value is
`imax`, from the value `n` read so far. -/
def readVarIntLoop (imax : Nat) (n : Nat) : List UInt8 → Except SerError (Nat × List UInt8)
  | [] => .error END_OF_DATA
  | chData :: rest =>
    if n > imax / 128 then .error VARINT_TOO_LARGE else
    let n' := n * 128 + chData.toNat % 128
    if chData.toNat ≥ 128 then
      if n' = imax then .error VARINT_TOO_LARGE else readVarIntLoop imax (n' + 1) rest
    else .ok (n', rest)

/-- `ReadVarInt<I>` for an unsigned `I` whose largest value is `imax`. -/
def ReadVarInt (imax : Nat) : SerReader Nat := fun s => readVarIntLoop imax 0 s

/-- A byte without the continuation bit is a whole VarInt. -/
theorem ReadVarInt_one (imax : Nat) (b : UInt8) (rest : List UInt8) (h : b.toNat < 128) :
    StateT.run (ReadVarInt imax) (b :: rest) = .ok (b.toNat, rest) := by
  have : ¬ 128 ≤ b.toNat := by omega
  simp [StateT.run, ReadVarInt, readVarIntLoop, this, Nat.mod_eq_of_lt h]

/-- A byte with the continuation bit followed by one without: the value
`(b₀ - 127) * 128 + b₁`. -/
theorem ReadVarInt_two (imax : Nat) (b₀ b₁ : UInt8) (rest : List UInt8) (h₀ : 128 ≤ b₀.toNat)
    (h₁ : b₁.toNat < 128) (hmax : 2 ^ 14 ≤ imax) :
    StateT.run (ReadVarInt imax) (b₀ :: b₁ :: rest) = .ok ((b₀.toNat - 127) * 128 + b₁.toNat, rest) := by
  have hb₀ := b₀.toNat_lt
  have hne : b₀.toNat % 128 ≠ imax := by omega
  have hsmall : ¬ b₀.toNat % 128 + 1 > imax / 128 := by omega
  have h₁' : ¬ 128 ≤ b₁.toNat := by omega
  have hv : (b₀.toNat % 128 + 1) * 128 + b₁.toNat % 128 = (b₀.toNat - 127) * 128 + b₁.toNat := by omega
  simp [StateT.run, ReadVarInt, readVarIntLoop, h₀, hne, hsmall, h₁', hv]

/-! ### Reading back what `WriteVarInt` wrote -/

/-- The last digit `WriteVarInt` collects, and one with more above it. -/
theorem varIntTmp_last {fuel m : Nat} (flag : Bool) (h : m ≤ 0x7F) :
    varIntTmp (fuel + 1) m flag = [UInt8.ofNat (m % 128 + if flag then 0x80 else 0)] := by
  rw [varIntTmp, if_pos h]

theorem varIntTmp_more {fuel m : Nat} (flag : Bool) (h : ¬ m ≤ 0x7F) :
    varIntTmp (fuel + 1) m flag =
      UInt8.ofNat (m % 128 + if flag then 0x80 else 0) :: varIntTmp fuel (m / 128 - 1) true := by
  rw [varIntTmp, if_neg h]

/-- One byte with the continuation bit, below the size limit: the loop goes
on from the value read so far, plus one. -/
theorem readVarIntLoop_cons_continue {imax acc : Nat} {b : UInt8} (hacc : acc ≤ imax / 128) (hb : 128 ≤ b.toNat)
    (hne : acc * 128 + b.toNat % 128 ≠ imax) (rest : List UInt8) :
    readVarIntLoop imax acc (b :: rest) = readVarIntLoop imax (acc * 128 + b.toNat % 128 + 1) rest := by
  rw [readVarIntLoop, if_neg (by omega), if_pos hb, if_neg hne]

/-- One byte without it: the value. -/
theorem readVarIntLoop_cons_last {imax acc : Nat} {b : UInt8} (hacc : acc ≤ imax / 128) (hb : b.toNat < 128)
    (rest : List UInt8) :
    readVarIntLoop imax acc (b :: rest) = .ok (acc * 128 + b.toNat, rest) := by
  rw [readVarIntLoop, if_neg (by omega), if_neg (by omega), Nat.mod_eq_of_lt hb]

/-- The digit `WriteVarInt` writes for `m`, flagged or not. -/
theorem varIntDigit_toNat (m : Nat) (flag : Bool) :
    (UInt8.ofNat (m % 128 + if flag then 0x80 else 0)).toNat = m % 128 + if flag then 128 else 0 := by
  rw [UInt8.toNat_ofNat', Nat.mod_eq_of_lt (by split <;> omega)]

/-- The digits of `m` that carry the continuation flag, read from zero,
leave the loop at `m + 1`, the prefix of the next digit. -/
theorem readVarIntLoop_flagged (imax fuel : Nat) :
    ∀ m, m < fuel → m < imax → ∀ rest : List UInt8,
      readVarIntLoop imax 0 ((varIntTmp fuel m true).reverse ++ rest) = readVarIntLoop imax (m + 1) rest := by
  induction fuel with
  | zero => intro m hm; omega
  | succ fuel ih =>
    intro m hfuel hm rest
    have hb : (UInt8.ofNat (m % 128 + if true then 0x80 else 0)).toNat = m % 128 + 128 := varIntDigit_toNat m true
    by_cases hsmall : m ≤ 0x7F
    · -- the most significant digit, read first
      rw [varIntTmp_last true hsmall, List.reverse_singleton, List.singleton_append,
        readVarIntLoop_cons_continue (Nat.zero_le _) (by omega) (by omega), hb]
      congr 1
      omega
    · -- the digits above it, then this one
      rw [varIntTmp_more true hsmall, List.reverse_cons, List.append_assoc, List.singleton_append,
        ih (m / 128 - 1) (by omega) (by omega), Nat.sub_add_cancel (by omega),
        readVarIntLoop_cons_continue (by omega) (by omega) (by omega), hb]
      congr 1
      omega

/-- `ReadVarInt` reads back every value its type holds. -/
theorem ReadVarInt_decodes {imax n : Nat} (h : n ≤ imax) : Decodes (ReadVarInt imax) WriteVarInt n := by
  intro rest
  show readVarIntLoop imax 0 ((varIntTmp (n + 1) n false).reverse ++ rest) = .ok (n, rest)
  have hb : (UInt8.ofNat (n % 128 + if false then 0x80 else 0)).toNat = n % 128 := varIntDigit_toNat n false
  by_cases hsmall : n ≤ 0x7F
  · rw [varIntTmp_last false hsmall, List.reverse_singleton, List.singleton_append,
      readVarIntLoop_cons_last (Nat.zero_le _) (by omega), hb]
    congr 2
    omega
  · rw [varIntTmp_more false hsmall, List.reverse_cons, List.append_assoc, List.singleton_append,
      readVarIntLoop_flagged imax n (n / 128 - 1) (by omega) (by omega), Nat.sub_add_cancel (by omega),
      readVarIntLoop_cons_last (by omega) (by omega), hb]
    congr 2
    omega
/-! ### One encoding per integer

The code is bijective base 128: every byte sequence whose digits carry the
continuation flag up to an unflagged one is the encoding of exactly one
integer, so whatever `ReadVarInt` accepts is what `WriteVarInt` writes for
the value read. For a type whose largest value is `2 ^ w - 1` the size checks
refuse exactly the encodings of larger values. -/

/-- The digits `WriteVarInt` collects do not depend on the fuel, once there
is enough of it. -/
theorem varIntTmp_fuel : ∀ {f g m : Nat} (flag : Bool), m < f → m < g → varIntTmp f m flag = varIntTmp g m flag
  | 0, _, _, _, hf, _ => absurd hf (Nat.not_lt_zero _)
  | _ + 1, 0, _, _, _, hg => absurd hg (Nat.not_lt_zero _)
  | f + 1, g + 1, m, flag, hf, hg => by
    by_cases hsmall : m ≤ 0x7F
    · rw [varIntTmp_last flag hsmall, varIntTmp_last flag hsmall]
    · rw [varIntTmp_more flag hsmall, varIntTmp_more flag hsmall,
        varIntTmp_fuel true (by omega : m / 128 - 1 < f) (by omega : m / 128 - 1 < g)]

/-- The flagged digits that take the loop of `ReadVarInt` from zero to `acc`:
none for zero, and for `m + 1` the flagged digits of `m`. -/
def varIntPrefix : Nat → List UInt8
  | 0 => []
  | m + 1 => (varIntTmp (m + 1) m true).reverse

/-- A digit `b` below `128`, written back with or without the flag. -/
theorem UInt8_ofNat_digit {b : UInt8} (flag : Bool) (hb : (b.toNat ≥ 128) = flag) :
    UInt8.ofNat (b.toNat % 128 + if flag then 0x80 else 0) = b := by
  have hlt := b.toNat_lt
  apply UInt8.toNat.inj
  rw [varIntDigit_toNat]
  cases flag <;> simp at hb <;> simp <;> omega

/-- One more flagged digit `b` after the digits leading to `acc`: the digits
leading to the next accumulator. -/
theorem varIntPrefix_flagged (acc : Nat) {b : UInt8} (hb : 128 ≤ b.toNat) :
    varIntPrefix (acc * 128 + b.toNat % 128 + 1) = varIntPrefix acc ++ [b] := by
  have hdigit := UInt8_ofNat_digit true (by simpa using hb)
  rw [varIntPrefix]
  cases acc with
  | zero =>
    -- the first digit is the most significant one
    rw [varIntTmp_last true (by omega), Nat.zero_mul, Nat.zero_add, Nat.mod_mod, hdigit]
    rfl
  | succ a =>
    have hbig : ¬ (a + 1) * 128 + b.toNat % 128 ≤ 0x7F := by omega
    have hdiv : ((a + 1) * 128 + b.toNat % 128) / 128 - 1 = a := by omega
    have hmod : ((a + 1) * 128 + b.toNat % 128) % 128 = b.toNat % 128 := by omega
    rw [varIntTmp_more true hbig, hdiv, hmod, hdigit, List.reverse_cons, varIntPrefix,
      varIntTmp_fuel true (by omega : a < (a + 1) * 128 + b.toNat % 128) (by omega : a < a + 1)]

/-- An unflagged digit `b` after the digits leading to `acc`: the whole
encoding of the value the loop returns. -/
theorem WriteVarInt_last (acc : Nat) {b : UInt8} (hb : b.toNat < 128) :
    WriteVarInt (acc * 128 + b.toNat) = varIntPrefix acc ++ [b] := by
  have hdigit := UInt8_ofNat_digit false (by simp; omega)
  rw [Nat.mod_eq_of_lt hb] at hdigit
  rw [WriteVarInt]
  cases acc with
  | zero =>
    rw [varIntTmp_last false (by omega), Nat.zero_mul, Nat.zero_add, Nat.mod_eq_of_lt hb, hdigit]
    rfl
  | succ a =>
    have hbig : ¬ (a + 1) * 128 + b.toNat ≤ 0x7F := by omega
    have hdiv : ((a + 1) * 128 + b.toNat) / 128 - 1 = a := by omega
    have hmod : ((a + 1) * 128 + b.toNat) % 128 = b.toNat := by omega
    rw [varIntTmp_more false hbig, hdiv, hmod, hdigit, List.reverse_cons, varIntPrefix,
      varIntTmp_fuel true (by omega : a < (a + 1) * 128 + b.toNat) (by omega : a < a + 1)]

/-- A digit read when the value so far is above the largest value over 128:
the size error. -/
theorem readVarIntLoop_cons_over {imax acc : Nat} (hacc : acc > imax / 128) (b : UInt8) (rest : List UInt8) :
    readVarIntLoop imax acc (b :: rest) = .error VARINT_TOO_LARGE := by
  rw [readVarIntLoop, if_pos hacc]

/-- A flagged digit that makes the value the largest one: the size error,
since one more is to be added. -/
theorem readVarIntLoop_cons_max {imax acc : Nat} {b : UInt8} (hacc : acc ≤ imax / 128) (hb : 128 ≤ b.toNat)
    (heq : acc * 128 + b.toNat % 128 = imax) (rest : List UInt8) :
    readVarIntLoop imax acc (b :: rest) = .error VARINT_TOO_LARGE := by
  rw [readVarIntLoop, if_neg (by omega), if_pos hb, if_pos heq]

/-- What the loop accepts from `acc`, after the digits that lead to `acc`, is
the encoding of the value it returns; by induction on the bytes, with the
accumulator generalized. -/
theorem readVarIntLoop_canonical (imax : Nat) :
    ∀ (s : List UInt8) (acc v : Nat) (s' : List UInt8), readVarIntLoop imax acc s = .ok (v, s') →
      varIntPrefix acc ++ s = WriteVarInt v ++ s'
  | [], _, _, _, h => by cases h
  | b :: rest, acc, v, s', h => by
    by_cases hover : acc > imax / 128
    · rw [readVarIntLoop_cons_over hover] at h
      cases h
    by_cases hflag : 128 ≤ b.toNat
    · by_cases hmax : acc * 128 + b.toNat % 128 = imax
      · rw [readVarIntLoop_cons_max (by omega) hflag hmax] at h
        cases h
      · -- a flagged digit: the loop goes on from the next accumulator
        rw [readVarIntLoop_cons_continue (by omega) hflag hmax] at h
        rw [← List.singleton_append, ← List.append_assoc, ← varIntPrefix_flagged acc hflag]
        exact readVarIntLoop_canonical imax rest _ v s' h
    · -- the last digit: the value and the rest
      rw [readVarIntLoop_cons_last (by omega) (by omega)] at h
      cases h
      rw [WriteVarInt_last acc (by omega), List.append_assoc, List.singleton_append]

/-- `ReadVarInt` accepts only what `WriteVarInt` writes. -/
theorem ReadVarInt_canonical (imax : Nat) : Canonical (ReadVarInt imax) WriteVarInt :=
  fun s v s' h => readVarIntLoop_canonical imax s 0 v s' h

/-- The flagged digits of `m` against the size checks of a type whose largest
value ends in seven one bits: they lead to `m + 1` when `m` is below the
largest value, and are refused otherwise. -/
theorem readVarIntLoop_flagged_checked {imax : Nat} (himax : imax % 128 = 127) (fuel : Nat) :
    ∀ m, m < fuel → ∀ rest : List UInt8,
      readVarIntLoop imax 0 ((varIntTmp fuel m true).reverse ++ rest) =
        if m < imax then readVarIntLoop imax (m + 1) rest else .error VARINT_TOO_LARGE := by
  induction fuel with
  | zero => intro m hm; omega
  | succ fuel ih =>
    intro m hfuel rest
    have hb : (UInt8.ofNat (m % 128 + if true then 0x80 else 0)).toNat = m % 128 + 128 := varIntDigit_toNat m true
    by_cases hsmall : m ≤ 0x7F
    · -- the most significant digit: only the check against the largest value applies
      rw [varIntTmp_last true hsmall, List.reverse_singleton, List.singleton_append]
      by_cases heq : m = imax
      · rw [readVarIntLoop_cons_max (Nat.zero_le _) (by omega) (by rw [hb]; omega), if_neg (show ¬ m < imax by omega)]
      · rw [readVarIntLoop_cons_continue (Nat.zero_le _) (by omega) (by rw [hb]; omega),
          if_pos (show m < imax by omega), hb]
        congr 1
        omega
    · rw [varIntTmp_more true hsmall, List.reverse_cons, List.append_assoc, List.singleton_append,
        ih _ (by omega)]
      by_cases hq : m / 128 - 1 < imax
      · -- the digits above lead to `m / 128`; then the checks on this digit
        rw [if_pos hq, Nat.sub_add_cancel (by omega)]
        by_cases hover : m / 128 > imax / 128
        · rw [readVarIntLoop_cons_over hover, if_neg (show ¬ m < imax by omega)]
        · by_cases heq : m = imax
          · rw [readVarIntLoop_cons_max (by omega) (by omega) (by rw [hb]; omega), if_neg (show ¬ m < imax by omega)]
          · rw [readVarIntLoop_cons_continue (by omega) (by omega) (by rw [hb]; omega),
              if_pos (show m < imax by omega), hb]
            congr 1
            omega
      · rw [if_neg hq, if_neg (show ¬ m < imax by omega)]

/-- What `ReadVarInt` makes of an encoding, for a type whose largest value
ends in seven one bits: the value when the type holds it, the size error
when it does not. -/
theorem ReadVarInt_WriteVarInt {imax : Nat} (himax : imax % 128 = 127) (v : Nat) (rest : List UInt8) :
    StateT.run (ReadVarInt imax) (WriteVarInt v ++ rest) =
      if v ≤ imax then .ok (v, rest) else .error VARINT_TOO_LARGE := by
  show readVarIntLoop imax 0 ((varIntTmp (v + 1) v false).reverse ++ rest) = _
  have hb : (UInt8.ofNat (v % 128 + if false then 0x80 else 0)).toNat = v % 128 := varIntDigit_toNat v false
  by_cases hsmall : v ≤ 0x7F
  · rw [varIntTmp_last false hsmall, List.reverse_singleton, List.singleton_append,
      readVarIntLoop_cons_last (Nat.zero_le _) (by omega), hb, if_pos (show v ≤ imax by omega)]
    congr 2
    omega
  · rw [varIntTmp_more false hsmall, List.reverse_cons, List.append_assoc, List.singleton_append,
      readVarIntLoop_flagged_checked himax v (v / 128 - 1) (by omega)]
    by_cases hq : v / 128 - 1 < imax
    · -- the digits above lead to `v / 128`; the last digit passes the size check when `v` fits
      rw [if_pos hq, Nat.sub_add_cancel (by omega)]
      by_cases hover : v / 128 > imax / 128
      · rw [readVarIntLoop_cons_over hover, if_neg (show ¬ v ≤ imax by omega)]
      · rw [readVarIntLoop_cons_last (by omega) (by omega), hb, if_pos (show v ≤ imax by omega)]
        congr 2
        omega
    · rw [if_neg hq, if_neg (show ¬ v ≤ imax by omega)]

/-- What `ReadVarInt` accepts for a type whose largest value ends in seven
one bits is a value of the type. -/
theorem ReadVarInt_ok_le {imax : Nat} (himax : imax % 128 = 127) {s s' : List UInt8} {n : Nat}
    (h : StateT.run (ReadVarInt imax) s = .ok (n, s')) : n ≤ imax := by
  rw [ReadVarInt_canonical imax s n s' h, ReadVarInt_WriteVarInt himax] at h
  by_contra hn
  rw [if_neg hn] at h
  cases h

/-- The largest value of an unsigned type of `w ≥ 7` bits ends in seven one
bits. -/
theorem two_pow_sub_one_mod_128 {w : Nat} (hw : 7 ≤ w) : (2 ^ w - 1) % 128 = 127 := by
  have hsplit : 2 ^ w = 128 * 2 ^ (w - 7) := by
    rw [show (128 : Nat) = 2 ^ 7 by norm_num, ← Nat.pow_add, Nat.add_sub_cancel' hw]
  have hpos : 1 ≤ 2 ^ (w - 7) := Nat.one_le_two_pow
  rw [hsplit]
  omega

/-- Both integer codes are bijections onto what their readers accept.

For every unsigned type of `w ≥ 7` bits, whose largest value is `2 ^ w - 1`:
`ReadVarInt` reads back every value the type holds; it accepts only the
encoding `WriteVarInt` writes of the value it returns; it returns only values
the type holds; and it refuses the encoding of every larger value.

`ReadCompactSize` reads back every size up to `MAX_SIZE`, accepts only the
form `WriteCompactSize` writes and only sizes up to `MAX_SIZE`. It refuses
each longer form that holds a value a shorter form holds, and the form of
every size above `MAX_SIZE`. -/
theorem integer_codes_bijective :
    (∀ w, 7 ≤ w →
      (∀ n < 2 ^ w, Decodes (ReadVarInt (2 ^ w - 1)) WriteVarInt n) ∧
      Canonical (ReadVarInt (2 ^ w - 1)) WriteVarInt ∧
      (∀ s n s', StateT.run (ReadVarInt (2 ^ w - 1)) s = .ok (n, s') → n < 2 ^ w) ∧
      (∀ n, 2 ^ w ≤ n → ∀ rest,
        StateT.run (ReadVarInt (2 ^ w - 1)) (WriteVarInt n ++ rest) = .error VARINT_TOO_LARGE)) ∧
    (∀ n ≤ MAX_SIZE, Decodes ReadCompactSize WriteCompactSize n) ∧
    Canonical ReadCompactSize WriteCompactSize ∧
    (∀ s n s', StateT.run ReadCompactSize s = .ok (n, s') → n ≤ MAX_SIZE) ∧
    (∀ tag w lo, (tag, w, lo) ∈ longerForms → ∀ n < lo, ∀ rest,
      StateT.run ReadCompactSize (ser_writedata8 tag ++ ser_writedata w n ++ rest) = .error NON_CANONICAL) ∧
    (∀ n, MAX_SIZE < n → n < 2 ^ 64 → ∀ rest,
      StateT.run ReadCompactSize (WriteCompactSize n ++ rest) = .error SIZE_TOO_LARGE) := by
  refine ⟨fun w hw => ?_, fun n hn => ReadCompactSize_decodes hn, ReadCompactSize_canonical,
    fun _ _ _ h => (ReadCompactSize_ok h).1, fun _ _ _ hf _ hn rest => ReadCompactSize_refuses_longer hf hn rest,
    fun _ h h64 rest => ReadCompactSize_too_large h h64 rest⟩
  have himax := two_pow_sub_one_mod_128 hw
  have hpos : 1 ≤ 2 ^ w := Nat.one_le_two_pow
  refine ⟨fun n hn => ReadVarInt_decodes (by omega), ReadVarInt_canonical _, ?_, ?_⟩
  · intro s n s' h
    have := ReadVarInt_ok_le himax h
    omega
  · intro n hn rest
    rw [ReadVarInt_WriteVarInt himax, if_neg (by omega)]

/-- At 32 bits: `2 ^ 32` is refused by `ReadVarInt<uint32_t>`, and 100 in the
three-byte form of CompactSize is refused as non-canonical. -/
theorem integer_codes_bijective_uint32 :
    (7 ≤ 32 ∧ 2 ^ 32 ≤ 2 ^ 32 ∧
      StateT.run (ReadVarInt (2 ^ 32 - 1)) (WriteVarInt (2 ^ 32) ++ []) = .error VARINT_TOO_LARGE) ∧
    ((253, 2, 253) ∈ longerForms ∧ 100 < 253 ∧
      StateT.run ReadCompactSize (ser_writedata8 253 ++ ser_writedata 2 100 ++ []) = .error NON_CANONICAL) :=
  ⟨⟨by norm_num, Nat.le_refl _, (integer_codes_bijective.1 32 (by norm_num)).2.2.2 _ (Nat.le_refl _) []⟩,
    ⟨List.mem_cons_self, by norm_num,
      integer_codes_bijective.2.2.2.2.1 253 2 253 List.mem_cons_self 100 (by norm_num) []⟩⟩

end Tapyrus
