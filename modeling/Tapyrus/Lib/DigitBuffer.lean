import Mathlib
/-!
# Digit buffers

A big number held in a fixed-size buffer of base-`base` digits, listed from
the least significant digit on, and the pass that in-place base conversion
runs over it once per input symbol:

    carry += mult * digit; digit = carry % base; carry /= base

from the least significant digit up, for as long as a carry is left or the
digits already in use (the first `length`) are not all visited. The pass
leaves `number * mult + x` in the buffer when it fits, with a carry left over
exactly when it does not (`mulAdd`). Run over a list of symbols (`foldlM`),
it converts a big-endian number in base `mult` to base `base`; the digits in
use, read from the top without their leading zeros, are `Nat.digits`.
-/

namespace Tapyrus.Lib

/-- One pass from the least significant digit: the new digits, the carry
left over, and where the pass stopped (`i` after the loop). -/
def carryLoop (mult base length : Nat) : Nat → Nat → List Nat → List Nat × Nat × Nat
  | carry, i, [] => ([], carry, i)
  | carry, i, d :: ds =>
    if carry ≠ 0 ∨ i < length then
      let carry := carry + mult * d
      let r := carryLoop mult base length (carry / base) (i + 1) ds
      (carry % base :: r.1, r.2.1, r.2.2)
    else (d :: ds, carry, i)

/-- The pass with `x` as the first carry, then `assert(carry == 0)` and
`length = i`: the new buffer and `length`, or `none` when a carry is left. -/
def mulAdd (mult base : Nat) (buf : List Nat) (length x : Nat) : Option (List Nat × Nat) :=
  let r := carryLoop mult base length x 0 buf
  if r.2.1 = 0 then some (r.1, r.2.2) else none

/-- `buf` holds `value` in base `base`, with every digit from `length` on zero. -/
structure Holds (base : Nat) (buf : List Nat) (length value : Nat) : Prop where
  digit_lt : ∀ d ∈ buf, d < base
  zero_above : ∀ j, length ≤ j → buf.getD j 0 = 0
  value_eq : Nat.ofDigits base buf = value

/-- The number a big-endian list of base-`mult` symbols appends to `v`. -/
def horner (mult v : Nat) (xs : List Nat) : Nat := xs.foldl (fun a x => a * mult + x) v

section Pass

variable {mult base length : Nat}

@[simp] theorem carryLoop_length (carry i : Nat) (ds : List Nat) :
    (carryLoop mult base length carry i ds).1.length = ds.length := by
  induction ds generalizing carry i with
  | nil => rfl
  | cons d ds ih =>
    simp only [carryLoop]
    split <;> simp [ih]

theorem carryLoop_digit_lt (hbase : 0 < base) (carry i : Nat) {ds : List Nat} (hds : ∀ d ∈ ds, d < base) :
    ∀ d ∈ (carryLoop mult base length carry i ds).1, d < base := by
  induction ds generalizing carry i with
  | nil => simp [carryLoop]
  | cons d ds ih =>
    simp only [carryLoop]
    split
    · simp only [List.mem_cons, forall_eq_or_imp]
      exact ⟨Nat.mod_lt _ hbase, ih _ _ (fun x hx => hds x (List.mem_cons_of_mem d hx))⟩
    · exact hds

/-- The pass stops only with no carry and past the digits in use; those it
does not visit are zero, so it never loses part of the number. -/
theorem carryLoop_value (carry i : Nat) {ds : List Nat} (hz : ∀ j, length ≤ i + j → ds.getD j 0 = 0) :
    Nat.ofDigits base (carryLoop mult base length carry i ds).1 +
        base ^ ds.length * (carryLoop mult base length carry i ds).2.1 =
      mult * Nat.ofDigits base ds + carry := by
  induction ds generalizing carry i with
  | nil => simp [carryLoop]
  | cons d ds ih =>
    simp only [carryLoop]
    split
    · rename_i hgo
      have hz' : ∀ j, length ≤ (i + 1) + j → ds.getD j 0 = 0 := fun j hj => by
        simpa using hz (j + 1) (by omega)
      have hrec := ih ((carry + mult * d) / base) (i + 1) hz'
      have hdiv := Nat.mod_add_div (carry + mult * d) base
      simp only [Nat.ofDigits_cons, List.length_cons, pow_succ]
      nlinarith
    · rename_i hstop
      -- stopped: no carry, and every digit from here on is past `length`
      have hc : carry = 0 := by omega
      have hzero : ∀ x ∈ d :: ds, x = 0 := by
        intro x hx
        obtain ⟨j, hj, rfl⟩ := List.getElem_of_mem hx
        have hzj := hz j (by omega)
        rwa [List.getD_eq_getElem _ _ hj] at hzj
      have hnil : Nat.ofDigits base (d :: ds) = 0 := by
        rw [List.eq_replicate_iff.2 ⟨rfl, hzero⟩, Nat.ofDigits_replicate_zero]
      simp [hnil, hc]

theorem carryLoop_start_le (carry i : Nat) (ds : List Nat) : i ≤ (carryLoop mult base length carry i ds).2.2 := by
  induction ds generalizing carry i with
  | nil => simp [carryLoop]
  | cons d ds ih =>
    simp only [carryLoop]
    split
    · exact Nat.le_of_succ_le (ih _ _)
    · exact le_refl i

/-- Every digit from where the pass stops on is zero. -/
theorem carryLoop_zero_above (carry i : Nat) {ds : List Nat} (hz : ∀ j, length ≤ i + j → ds.getD j 0 = 0) :
    ∀ j, (carryLoop mult base length carry i ds).2.2 ≤ i + j → (carryLoop mult base length carry i ds).1.getD j 0 = 0 := by
  induction ds generalizing carry i with
  | nil => simp [carryLoop]
  | cons d ds ih =>
    simp only [carryLoop]
    split
    · rename_i hgo
      have hz' : ∀ j, length ≤ (i + 1) + j → ds.getD j 0 = 0 := fun j hj => by
        simpa using hz (j + 1) (by omega)
      have hi : i + 1 ≤ (carryLoop mult base length ((carry + mult * d) / base) (i + 1) ds).2.2 :=
        carryLoop_start_le _ _ _
      intro j hj
      simp only at hj ⊢
      cases j with
      | zero => omega
      | succ j => simpa using ih _ (i + 1) hz' j (by omega)
    · rename_i hstop
      intro j _
      exact hz j (by omega)

end Pass

/-! ## One symbol -/

section MulAdd

variable {mult base : Nat} {buf : List Nat} {length value : Nat}

theorem Holds.start (hbase : 0 < base) (size : Nat) : Holds base (List.replicate size 0) 0 0 where
  digit_lt d hd := by rw [List.eq_of_mem_replicate hd]; exact hbase
  zero_above j _ := by
    simp only [List.getD_eq_getElem?_getD, List.getElem?_replicate]
    split <;> rfl
  value_eq := Nat.ofDigits_replicate_zero

/-- What the pass with `x` leaves, read through `Holds`. -/
theorem carryLoop_Holds (mult : Nat) (h : Holds base buf length value) (x : Nat) :
    Nat.ofDigits base (carryLoop mult base length x 0 buf).1 + base ^ buf.length * (carryLoop mult base length x 0 buf).2.1 =
      value * mult + x := by
  rw [carryLoop_value x 0 (fun j hj => h.zero_above j (by omega)), h.value_eq, Nat.mul_comm]

theorem mulAdd_eq_some (hbase : 1 < base) (h : Holds base buf length value) (x : Nat)
    (hfit : value * mult + x < base ^ buf.length) :
    ∃ buf' length', mulAdd mult base buf length x = some (buf', length') ∧
      Holds base buf' length' (value * mult + x) ∧ buf'.length = buf.length := by
  have hval := carryLoop_Holds mult h x
  -- a carry left over would count `base ^ buf.length` more than fits
  have hcarry : (carryLoop mult base length x 0 buf).2.1 = 0 := by
    by_contra hne
    have : base ^ buf.length ≤ base ^ buf.length * (carryLoop mult base length x 0 buf).2.1 :=
      Nat.le_mul_of_pos_right _ (Nat.pos_of_ne_zero hne)
    omega
  refine ⟨(carryLoop mult base length x 0 buf).1, (carryLoop mult base length x 0 buf).2.2,
    by simp [mulAdd, hcarry], ⟨?_, ?_, ?_⟩, carryLoop_length _ _ _⟩
  · exact carryLoop_digit_lt (by omega) x 0 h.digit_lt
  · intro j hj
    exact carryLoop_zero_above x 0 (fun j hj => h.zero_above j (by omega)) j (by omega)
  · simpa [hcarry] using hval

theorem mulAdd_eq_none (hbase : 1 < base) (h : Holds base buf length value) (x : Nat)
    (hover : base ^ buf.length ≤ value * mult + x) : mulAdd mult base buf length x = none := by
  have hval := carryLoop_Holds mult h x
  have hd : ∀ d ∈ (carryLoop mult base length x 0 buf).1, d < base := carryLoop_digit_lt (by omega) x 0 h.digit_lt
  have hlt : Nat.ofDigits base (carryLoop mult base length x 0 buf).1 < base ^ buf.length := by
    have := Nat.ofDigits_lt_base_pow_length hbase hd
    rwa [carryLoop_length] at this
  have hcarry : (carryLoop mult base length x 0 buf).2.1 ≠ 0 := by
    intro h0
    rw [h0] at hval
    omega
  simp [mulAdd, hcarry]

end MulAdd

/-! ## A run of symbols -/

section Run

variable {mult base : Nat}

theorem horner_eq (v : Nat) (xs : List Nat) :
    horner mult v xs = v * mult ^ xs.length + Nat.ofDigits mult xs.reverse := by
  induction xs generalizing v with
  | nil => simp [horner]
  | cons x xs ih =>
    have hstep : horner mult v (x :: xs) = horner mult (v * mult + x) xs := rfl
    rw [hstep, ih, List.reverse_cons, Nat.ofDigits_append, List.length_reverse, List.length_cons, pow_succ]
    simp only [Nat.ofDigits_singleton]
    ring

theorem horner_lt (hmult : 1 < mult) {xs : List Nat} (hxs : ∀ x ∈ xs, x < mult) :
    horner mult 0 xs < mult ^ xs.length := by
  rw [horner_eq, Nat.zero_mul, Nat.zero_add, ← List.length_reverse]
  exact Nat.ofDigits_lt_base_pow_length hmult (fun x hx => hxs x (List.mem_reverse.1 hx))

theorem horner_reverse_digits (mult n : Nat) : horner mult 0 (Nat.digits mult n).reverse = n := by
  rw [horner_eq, Nat.zero_mul, Nat.zero_add, List.reverse_reverse, Nat.ofDigits_digits]

theorem le_horner (hmult : 1 ≤ mult) (v : Nat) (xs : List Nat) : v ≤ horner mult v xs := by
  rw [horner_eq]
  calc v = v * 1 := (Nat.mul_one v).symm
    _ ≤ v * mult ^ xs.length := Nat.mul_le_mul_left _ (Nat.one_le_pow _ _ hmult)
    _ ≤ _ := Nat.le_add_right _ _

/-- The passes over a run of symbols, when the whole number fits: each
intermediate number is at most the final one, so no pass leaves a carry. -/
theorem foldlM_mulAdd (hbase : 1 < base) (hmult : 1 ≤ mult) {buf : List Nat} {length value : Nat}
    (h : Holds base buf length value) (xs : List Nat) (hfit : horner mult value xs < base ^ buf.length) :
    ∃ buf' length', xs.foldlM (fun (st : List Nat × Nat) x => mulAdd mult base st.1 st.2 x) (buf, length) =
        some (buf', length') ∧ Holds base buf' length' (horner mult value xs) ∧ buf'.length = buf.length := by
  induction xs generalizing buf length value with
  | nil => exact ⟨buf, length, rfl, h, rfl⟩
  | cons x xs ih =>
    have hstep : value * mult + x < base ^ buf.length := lt_of_le_of_lt (le_horner hmult _ xs) hfit
    obtain ⟨buf₁, length₁, hrun₁, h₁, hlen₁⟩ := mulAdd_eq_some hbase h x hstep
    obtain ⟨buf', length', hrun', h', hlen'⟩ := ih h₁ (by rw [hlen₁]; exact hfit)
    exact ⟨buf', length', by simp [List.foldlM_cons, hrun₁, hrun'], h', hlen'.trans hlen₁⟩

end Run

/-! ## Buffer sizes -/

/-- A buffer sized by a rational bound on a ratio of logarithms suffices:
from `a ^ k ≤ b ^ j` and `j * n ≤ k * m`, `m` base-`b` digits hold every
`n`-digit base-`a` number. -/
theorem pow_le_pow_of_ratio {a b j k n m : Nat} (hk : k ≠ 0) (hb : 1 ≤ b) (hab : a ^ k ≤ b ^ j)
    (hjn : j * n ≤ k * m) : a ^ n ≤ b ^ m := by
  have hpow : (a ^ n) ^ k ≤ (b ^ m) ^ k :=
    calc (a ^ n) ^ k = (a ^ k) ^ n := by rw [← pow_mul, ← pow_mul, mul_comm]
      _ ≤ (b ^ j) ^ n := Nat.pow_le_pow_left hab n
      _ = b ^ (j * n) := by rw [← pow_mul]
      _ ≤ b ^ (k * m) := Nat.pow_le_pow_right hb hjn
      _ = (b ^ m) ^ k := by rw [← pow_mul, mul_comm]
  exact (Nat.pow_le_pow_iff_left hk).1 hpow

/-! ## Reading the digits out -/

section Digits

variable {base : Nat}

theorem ofDigits_eq_zero_of_forall {l : List Nat} (h : ∀ x ∈ l, x = 0) : Nat.ofDigits base l = 0 := by
  rw [List.eq_replicate_iff.2 ⟨rfl, h⟩, Nat.ofDigits_replicate_zero]

/-- A big-endian digit list without its leading zeros is its number's
`Nat.digits`, from the top. -/
theorem digits_ofDigits_reverse (hbase : 1 < base) {X : List Nat} (hX : ∀ x ∈ X, x < base) :
    (Nat.digits base (Nat.ofDigits base X.reverse)).reverse = X.dropWhile (· == 0) := by
  have hsplit := @List.takeWhile_append_dropWhile _ (· == 0) X
  have hzeros : Nat.ofDigits base (X.takeWhile (· == 0)).reverse = 0 :=
    ofDigits_eq_zero_of_forall fun x hx => by simpa using List.mem_takeWhile_imp (List.mem_reverse.1 hx)
  have hval : Nat.ofDigits base X.reverse = Nat.ofDigits base (X.dropWhile (· == 0)).reverse := by
    conv_lhs => rw [← hsplit]
    rw [List.reverse_append, Nat.ofDigits_append, hzeros, Nat.mul_zero, Nat.add_zero]
  have hlast : ∀ hne : (X.dropWhile (· == 0)).reverse ≠ [], (X.dropWhile (· == 0)).reverse.getLast hne ≠ 0 := by
    intro hne
    rw [List.getLast_reverse]
    have hd := List.head_dropWhile_not (fun x : Nat => x == 0) (List.reverse_ne_nil_iff.1 hne)
    exact beq_eq_false_iff_ne.1 hd
  rw [hval, Nat.digits_ofDigits base hbase _ (fun x hx => hX x ((List.dropWhile_suffix _).subset (List.mem_reverse.1 hx))) hlast,
    List.reverse_reverse]

/-- The digits in use, from the top and without their leading zeros, are the
held number's `Nat.digits`. -/
theorem Holds.digits (hbase : 1 < base) {buf : List Nat} {length value : Nat} (h : Holds base buf length value) :
    (buf.take length).reverse.dropWhile (· == 0) = (Nat.digits base value).reverse := by
  have hdrop : Nat.ofDigits base (buf.drop length) = 0 := by
    refine ofDigits_eq_zero_of_forall fun x hx => ?_
    obtain ⟨j, hj, rfl⟩ := List.getElem_of_mem hx
    have hz := h.zero_above (length + j) (by omega)
    rwa [List.getElem_drop, ← List.getD_eq_getElem _ 0]
  have hval : Nat.ofDigits base (buf.take length).reverse.reverse = value := by
    rw [List.reverse_reverse, ← h.value_eq]
    conv_rhs => rw [← List.take_append_drop length buf]
    rw [Nat.ofDigits_append, hdrop, Nat.mul_zero, Nat.add_zero]
  rw [← hval, digits_ofDigits_reverse hbase]
  intro x hx
  exact h.digit_lt x (List.mem_of_mem_take (List.mem_reverse.1 hx))

theorem head?_reverse_digits (b n : Nat) : (Nat.digits b n).reverse.head? ≠ some 0 := by
  rw [List.head?_reverse]
  by_cases hn : n = 0
  · simp [hn]
  · rw [List.getLast?_eq_some_getLast (Nat.digits_ne_nil_iff_ne_zero.2 hn)]
    intro h
    exact Nat.getLast_digit_ne_zero b hn (Option.some.inj h)

/-- A big-endian digit list with no leading zero is its number's `Nat.digits`,
from the top. -/
theorem digits_ofDigits_reverse_of_head (hbase : 1 < base) {X : List Nat} (hX : ∀ x ∈ X, x < base)
    (hhead : X.head? ≠ some 0) : (Nat.digits base (Nat.ofDigits base X.reverse)).reverse = X := by
  rw [digits_ofDigits_reverse hbase hX]
  cases X with
  | nil => rfl
  | cons x X => exact List.dropWhile_cons_of_neg (by simpa using hhead)

end Digits

/-! ## Leading runs

Both conversions count a run of leading zeros (or of the zero digit's
character) apart and convert the rest. -/

section Leading

variable {α : Type} [BEq α] [LawfulBEq α]

theorem takeWhile_beq_eq_replicate (l : List α) (a : α) :
    l.takeWhile (· == a) = List.replicate (l.takeWhile (· == a)).length a :=
  List.eq_replicate_iff.2 ⟨rfl, fun x hx => by simpa using List.mem_takeWhile_imp hx⟩

theorem head?_dropWhile_beq (l : List α) (a : α) : (l.dropWhile (· == a)).head? ≠ some a := by
  intro h
  have hne : l.dropWhile (· == a) ≠ [] := fun hnil => by simp [hnil] at h
  have hd := List.head_dropWhile_not (· == a) hne
  rw [List.head?_eq_some_head hne, Option.some.injEq] at h
  simp [h] at hd

theorem takeWhile_replicate_append {a : α} {l : List α} (hl : l.head? ≠ some a) (z : Nat) :
    (List.replicate z a ++ l).takeWhile (· == a) = List.replicate z a := by
  induction z with
  | zero =>
    cases l with
    | nil => rfl
    | cons x l => exact List.takeWhile_cons_of_neg (by simpa using hl)
  | succ z ih => simp [List.replicate_succ, ih]

end Leading

theorem drop_takeWhile_length {α : Type} (p : α → Bool) (l : List α) :
    l.drop (l.takeWhile p).length = l.dropWhile p := by
  induction l with
  | nil => rfl
  | cons x l ih => by_cases hx : p x <;> simp [hx, ih]

theorem dropWhile_of_forall {α : Type} {p : α → Bool} {l : List α} (h : ∀ x ∈ l, p x = false) : l.dropWhile p = l := by
  cases l with
  | nil => rfl
  | cons x l => exact List.dropWhile_cons_of_neg (by simp [h x (by simp)])

end Tapyrus.Lib
