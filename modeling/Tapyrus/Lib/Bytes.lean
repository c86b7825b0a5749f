import Mathlib
/-!
# Bytes

Byte strings as `List UInt8`, the two views of them that C++ serialization
code uses everywhere, and nothing specific to one program:

* fixed-width little-endian integers (`toLE`, `ofLE`), the layout of
  `ser_writedata16/32/64` and of an integer object in memory;
* `memcmp`, the unsigned lexicographic comparison of a prefix of two objects;
* fixed layouts: a list that agrees with a template's fixed bytes is the
  template around its own slices.

`Blob n` is a byte string that carries its length, for hashes and other
fixed-size fields.
-/

namespace Tapyrus.Lib

/-- A byte string of exactly `n` bytes. -/
structure Blob (n : Nat) where
  bytes : List UInt8
  length_eq : bytes.length = n
  deriving DecidableEq, Repr

namespace Blob

/-- The all-zero value, what a default-constructed `uint256` holds. -/
def zero (n : Nat) : Blob n := ⟨List.replicate n 0, by simp⟩

/-- `IsNull`: every byte is zero. -/
def IsNull {n : Nat} (b : Blob n) : Bool := b.bytes.all (· == 0)

theorem ext' {n : Nat} {a b : Blob n} (h : a.bytes = b.bytes) : a = b := by
  cases a; cases b; cases h; rfl

end Blob

/-! ## Little-endian integers -/

/-- The low `w` bytes of `n`, least significant first. -/
def toLE : Nat → Nat → List UInt8
  | 0, _ => []
  | w + 1, n => UInt8.ofNat (n % 256) :: toLE w (n / 256)

/-- The value of little-endian bytes. -/
def ofLE : List UInt8 → Nat
  | [] => 0
  | b :: bs => b.toNat + 256 * ofLE bs

@[simp] theorem toLE_length (w n : Nat) : (toLE w n).length = w := by
  induction w generalizing n with
  | zero => rfl
  | succ w ih => simp [toLE, ih]

theorem ofLE_lt (bs : List UInt8) : ofLE bs < 256 ^ bs.length := by
  induction bs with
  | nil => simp [ofLE]
  | cons b bs ih =>
    have hb := b.toNat_lt
    simp only [ofLE, List.length_cons, pow_succ]
    omega

/-- Writing the low `w` bytes and reading them back gives `n mod 256^w`. -/
theorem ofLE_toLE (w n : Nat) : ofLE (toLE w n) = n % 256 ^ w := by
  induction w generalizing n with
  | zero => simp [toLE, ofLE, Nat.mod_one]
  | succ w ih =>
    have h : (UInt8.ofNat (n % 256)).toNat = n % 256 := by simp
    simp only [toLE, ofLE, h, ih, pow_succ]
    rw [mul_comm (256 ^ w) 256, Nat.mod_mul]

theorem ofLE_toLE_of_lt {w n : Nat} (h : n < 256 ^ w) : ofLE (toLE w n) = n := by
  rw [ofLE_toLE, Nat.mod_eq_of_lt h]

/-- Reading `w` bytes and writing the value back gives the same bytes. -/
theorem toLE_ofLE (bs : List UInt8) : toLE bs.length (ofLE bs) = bs := by
  induction bs with
  | nil => rfl
  | cons b bs ih =>
    have hb := b.toNat_lt
    have h1 : (b.toNat + 256 * ofLE bs) % 256 = b.toNat := by omega
    have h2 : (b.toNat + 256 * ofLE bs) / 256 = ofLE bs := by omega
    simp only [List.length_cons, toLE, ofLE, h1, h2, ih, UInt8.ofNat_toNat]

/-- The low `k` of the low `w` bytes are the low `k` bytes. -/
theorem take_toLE {k w : Nat} (h : k ≤ w) (n : Nat) : (toLE w n).take k = toLE k n := by
  induction k generalizing w n with
  | zero => rfl
  | succ k ih =>
    obtain ⟨w, rfl⟩ : ∃ v, w = v + 1 := ⟨w - 1, by omega⟩
    simp only [toLE, List.take_succ_cons, ih (Nat.le_of_succ_le_succ h)]

/-- Zero bytes have the value zero. -/
theorem ofLE_eq_zero_of_all {bs : List UInt8} (h : bs.all (· == 0) = true) : ofLE bs = 0 := by
  induction bs with
  | nil => rfl
  | cons b bs ih =>
    simp only [List.all_cons, Bool.and_eq_true, beq_iff_eq] at h
    simp [ofLE, h.1, ih h.2]

/-! ## memcmp -/

/-- `memcmp(a, b, n)`: the first `n` bytes of two objects compared as unsigned
chars; the first differing byte decides. Both objects are at least `n` bytes
long wherever the model calls it. -/
def memcmp : List UInt8 → List UInt8 → Nat → Ordering
  | _, _, 0 => .eq
  | x :: xs, y :: ys, n + 1 => if x < y then .lt else if y < x then .gt else memcmp xs ys n
  | _, _, _ + 1 => .eq

theorem memcmp_swap (a b : List UInt8) (n : Nat) : memcmp b a n = (memcmp a b n).swap := by
  induction n generalizing a b with
  | zero => cases a <;> cases b <;> rfl
  | succ n ih =>
    cases a with
    | nil => cases b <;> rfl
    | cons x xs =>
      cases b with
      | nil => rfl
      | cons y ys =>
        simp only [memcmp, ih xs ys, UInt8.lt_iff_toNat_lt]
        by_cases hxy : x.toNat < y.toNat
        · have hyx : ¬ y.toNat < x.toNat := by omega
          simp [hxy, hyx]
        · by_cases hyx : y.toNat < x.toNat <;> simp [hxy, hyx]

/-- On objects of at least `n` bytes, `memcmp` reports equality exactly when
the first `n` bytes agree. -/
theorem memcmp_eq_iff {a b : List UInt8} {n : Nat} (ha : n ≤ a.length) (hb : n ≤ b.length) :
    memcmp a b n = .eq ↔ a.take n = b.take n := by
  induction n generalizing a b with
  | zero => simp [memcmp]
  | succ n ih =>
    match a, b, ha, hb with
    | x :: xs, y :: ys, ha, hb =>
      simp only [List.length_cons, Nat.add_le_add_iff_right] at ha hb
      simp only [memcmp, List.take_succ_cons, List.cons.injEq, UInt8.lt_iff_toNat_lt]
      by_cases hxy : x.toNat < y.toNat
      · have : x ≠ y := fun h => by subst h; omega
        simp [hxy, this]
      · by_cases hyx : y.toNat < x.toNat
        · have : x ≠ y := fun h => by subst h; omega
          simp [hxy, hyx, this]
        · obtain rfl : x = y := UInt8.toNat_inj.1 (by omega)
          simp [ih ha hb]

/-! ## Fixed layouts -/

section Layout

variable {α : Type}

theorem take_eq_of_getElem? {s P : List α} (h : ∀ i < P.length, s[i]? = P[i]?) : s.take P.length = P := by
  apply List.ext_getElem?
  intro i
  rw [List.getElem?_take]
  split
  · exact h i ‹_›
  · rename_i hi
    rw [List.getElem?_eq_none (Nat.le_of_not_lt hi)]

theorem drop_eq_of_getElem? {s Q : List α} {k : Nat} (hlen : s.length = k + Q.length)
    (h : ∀ j < Q.length, s[k + j]? = Q[j]?) : s.drop k = Q := by
  apply List.ext_getElem?
  intro j
  rw [List.getElem?_drop]
  by_cases hj : j < Q.length
  · exact h j hj
  · rw [List.getElem?_eq_none (by omega), List.getElem?_eq_none (by omega)]

/-- A list of length `P.length + m + Q.length` that reads `P` at its start and
`Q` at its end is `P`, its own slice of `m` elements, and `Q`. -/
theorem eq_layout {s P Q : List α} {m : Nat} (hlen : s.length = P.length + m + Q.length)
    (hP : ∀ i < P.length, s[i]? = P[i]?) (hQ : ∀ j < Q.length, s[P.length + m + j]? = Q[j]?) :
    s = P ++ (s.drop P.length).take m ++ Q := by
  have hQ' : (s.drop P.length).drop m = Q := by
    rw [List.drop_drop]
    exact drop_eq_of_getElem? hlen hQ
  conv_lhs => rw [← List.take_append_drop P.length s, ← List.take_append_drop m (s.drop P.length)]
  rw [take_eq_of_getElem? hP, hQ', List.append_assoc]

end Layout

end Tapyrus.Lib
