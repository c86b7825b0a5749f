import Tapyrus.Script.Script
/-!
# Script numbers

`CScriptNum` (`script/script.h`): a stack element read as a little-endian
sign-magnitude integer of at most `nMaxNumSize` bytes (4 for arithmetic, 5
for the lock-time opcodes), held as an `int64_t`, and written back in its
shortest form.

The constructor throws `scriptnum_error`, which the interpreter catches; the
in-place operators `+=` and `-=` and unary minus `assert` that the `int64_t`
result does not overflow. Here the value is an `Int`, the throws are `Except
String`, and each assert is an `Option` that is `none` exactly when the
assertion fails.

`ofVch_natAbs_lt` is the bound every assertion rests on: a number read from
`k` bytes has magnitude below `2^(8k-1)`.
-/

namespace Tapyrus

open Lib

def INT64_MAX : Int := 2 ^ 63 - 1
def INT64_MIN : Int := -2 ^ 63
def INT_MAX : Int := 2 ^ 31 - 1
def INT_MIN : Int := -2 ^ 31

/-- `CScriptNum`: its `int64_t m_value`. -/
structure CScriptNum where
  m_value : Int
  deriving DecidableEq, Repr

namespace CScriptNum

def nDefaultMaxNumSize : Nat := 4

/-- `set_vch`: little-endian magnitude, sign in the top bit of the last byte. -/
def set_vch (vch : List UInt8) : Int :=
  match vch.getLast? with
  | none => 0
  | some last =>
    if last.toNat ≥ 0x80 then -((ofLE vch : Int) - 0x80 * 256 ^ (vch.length - 1)) else ofLE vch

def NON_MINIMAL : String := "non-minimally encoded script number"
def OVERFLOW : String := "script number overflow"

/-- The minimality test of the constructor: the last byte carries more than
the sign, unless the byte before it needs its own top bit. -/
def IsMinimal (vch : List UInt8) : Bool :=
  match vch.reverse with
  | [] => true
  | last :: rest =>
    last.toNat % 128 != 0 ||
      match rest with
      | b :: _ => decide (b.toNat ≥ 0x80)
      | [] => false

/-- `CScriptNum(vch, fRequireMinimal, nMaxNumSize)`. -/
def ofVch (vch : List UInt8) (fRequireMinimal : Bool) (nMaxNumSize : Nat := nDefaultMaxNumSize) :
    Except String CScriptNum :=
  if vch.length > nMaxNumSize then .error OVERFLOW
  else if fRequireMinimal && !IsMinimal vch then .error NON_MINIMAL
  else .ok ⟨set_vch vch⟩

/-- The little-endian bytes of a magnitude, without trailing zeros. -/
def magnitudeBytes : Nat → Nat → List UInt8
  | 0, _ => []
  | fuel + 1, n => if n = 0 then [] else UInt8.ofNat (n % 256) :: magnitudeBytes fuel (n / 256)

/-- `serialize`: the shortest encoding, with a sign byte when the top bit of
the magnitude is taken. -/
def serialize (value : Int) : List UInt8 :=
  if value = 0 then [] else
  let neg := value < 0
  let result := magnitudeBytes value.natAbs value.natAbs
  match result.getLast? with
  | none => []
  | some last =>
    if last.toNat ≥ 0x80 then result ++ [if neg then 0x80 else 0]
    else if neg then result.dropLast ++ [last ||| 0x80] else result

def getvch (n : CScriptNum) : List UInt8 := serialize n.m_value

/-- `getint`: the value clamped to `int`. -/
def getint (n : CScriptNum) : Int :=
  if n.m_value > INT_MAX then INT_MAX else if n.m_value < INT_MIN then INT_MIN else n.m_value

/-- `operator+=`, under its overflow `assert`. -/
def addAssign (n : CScriptNum) (rhs : Int) : Option CScriptNum :=
  if rhs = 0 || (rhs > 0 && n.m_value ≤ INT64_MAX - rhs) || (rhs < 0 && n.m_value ≥ INT64_MIN - rhs) then
    some ⟨n.m_value + rhs⟩
  else none

/-- `operator-=`, under its overflow `assert`. -/
def subAssign (n : CScriptNum) (rhs : Int) : Option CScriptNum :=
  if rhs = 0 || (rhs > 0 && n.m_value ≥ INT64_MIN + rhs) || (rhs < 0 && n.m_value ≤ INT64_MAX + rhs) then
    some ⟨n.m_value - rhs⟩
  else none

/-- Unary `operator-`, under `assert(m_value != INT64_MIN)`. -/
def neg (n : CScriptNum) : Option CScriptNum :=
  if n.m_value ≠ INT64_MIN then some ⟨-n.m_value⟩ else none

/-! ## The operand bound -/

theorem ofLE_append_single (l : List UInt8) (b : UInt8) :
    (ofLE (l ++ [b]) : Int) = ofLE l + 256 ^ l.length * b.toNat := by
  induction l with
  | nil => simp [ofLE]
  | cons x xs ih =>
    simp only [List.cons_append, ofLE, List.length_cons, pow_succ] at ih ⊢
    push_cast at ih ⊢
    rw [ih]; ring

/-- The magnitude `set_vch` decodes from `k` bytes is below `2^(8k-1)`. -/
theorem set_vch_natAbs_lt (vch : List UInt8) (h : vch ≠ []) :
    (set_vch vch).natAbs < 2 ^ (8 * vch.length - 1) := by
  obtain ⟨l, b, rfl⟩ : ∃ l b, vch = l ++ [b] := ⟨vch.dropLast, vch.getLast h, (List.dropLast_append_getLast h).symm⟩
  have hl := ofLE_lt l
  have hb := b.toNat_lt
  have hlen : 8 * (l ++ [b]).length - 1 = 8 * l.length + 7 := by simp; omega
  have hpow : (2 : Int) ^ (8 * l.length + 7) = 128 * 256 ^ l.length := by
    rw [pow_add, pow_mul]; norm_num; ring
  have hv := ofLE_append_single l b
  have hl' : (ofLE l : Int) < 256 ^ l.length := by exact_mod_cast hl
  have hpos : (0 : Int) ≤ ofLE l := by positivity
  rw [hlen]
  simp only [set_vch, List.getLast?_append, List.getLast?_singleton, Option.some_or, List.length_append,
    List.length_singleton, Nat.add_sub_cancel]
  apply Int.ofNat_lt.1
  rw [Int.natCast_natAbs, Nat.cast_pow, Nat.cast_ofNat, hpow]
  split_ifs with htop
  · rw [abs_neg, hv, abs_lt]; constructor <;> nlinarith
  · rw [hv, abs_lt]; constructor <;> nlinarith

/-- A number the constructor accepts from at most `k` bytes has magnitude
below `2^(8k-1)`. -/
theorem ofVch_natAbs_lt {vch : List UInt8} {req : Bool} {k : Nat} {n : CScriptNum}
    (h : ofVch vch req k = .ok n) : n.m_value.natAbs < 2 ^ (8 * k - 1) := by
  unfold ofVch at h
  split_ifs at h with h1 h2
  cases h
  by_cases hv : vch = []
  · subst hv; simp [set_vch]
  · exact lt_of_lt_of_le (set_vch_natAbs_lt vch hv) (Nat.pow_le_pow_right (by norm_num) (by omega))

/-! ## The asserts on operands within range -/

section Asserts

variable {n : CScriptNum} {rhs : Int}

theorem addAssign_of_lt (hn : n.m_value.natAbs < 2 ^ 31) (hr : rhs.natAbs < 2 ^ 31) :
    n.addAssign rhs = some ⟨n.m_value + rhs⟩ := by
  unfold addAssign INT64_MAX INT64_MIN
  rw [if_pos]
  simp only [Bool.or_eq_true, Bool.and_eq_true, decide_eq_true_eq]
  omega

theorem subAssign_of_lt (hn : n.m_value.natAbs < 2 ^ 31) (hr : rhs.natAbs < 2 ^ 31) :
    n.subAssign rhs = some ⟨n.m_value - rhs⟩ := by
  unfold subAssign INT64_MAX INT64_MIN
  rw [if_pos]
  simp only [Bool.or_eq_true, Bool.and_eq_true, decide_eq_true_eq]
  omega

theorem neg_of_lt (hn : n.m_value.natAbs < 2 ^ 31) : n.neg = some ⟨-n.m_value⟩ := by
  unfold neg INT64_MIN
  rw [if_pos]
  omega

end Asserts

/-! ## Minimal encodings

`serialize` writes the magnitude's little-endian bytes without trailing
zeros (`magnitudeBytes_spec`) and puts the sign in the top bit of the last
byte, or in a byte of its own when that bit is taken
(`serialize_of_magnitude`). With `fRequireMinimal` the constructor accepts
exactly these encodings (`ofVch_serialize_inverse`). The value is an
unbounded integer here; up to eight bytes it is the code's `int64_t`.
-/

section Minimal

theorem ofLE_concat (l : List UInt8) (b : UInt8) : ofLE (l ++ [b]) = ofLE l + 256 ^ l.length * b.toNat := by
  exact_mod_cast ofLE_append_single l b

theorem toNat_ne_zero {b : UInt8} (hb : b ≠ 0) : b.toNat ≠ 0 := fun h => hb (UInt8.toNat_inj.1 h)

/-- Bytes ending in a nonzero byte are worth at least `256` to the power of
their length less one. -/
theorem pow_le_ofLE_concat (l : List UInt8) {b : UInt8} (hb : b ≠ 0) : 256 ^ l.length ≤ ofLE (l ++ [b]) := by
  rw [ofLE_concat]
  have := Nat.le_mul_of_pos_right (256 ^ l.length) (Nat.pos_of_ne_zero (toNat_ne_zero hb))
  omega

theorem pow_eight (m : Nat) : 256 ^ m = 2 ^ (8 * m) := by
  rw [show (256 : Nat) = 2 ^ 8 by norm_num, ← pow_mul]

/-- Below `256 ^ fuel`, `magnitudeBytes` reads back the magnitude and ends in
a nonzero byte. -/
theorem magnitudeBytes_spec : ∀ (fuel n : Nat), n < 256 ^ fuel →
    ofLE (magnitudeBytes fuel n) = n ∧ (magnitudeBytes fuel n).getLast? ≠ some 0
  | 0, n, h => by
    obtain rfl : n = 0 := by simpa using h
    simp [magnitudeBytes, ofLE]
  | fuel + 1, n, h => by
    by_cases hn : n = 0
    · subst hn
      simp [magnitudeBytes, ofLE]
    have hdiv : n / 256 < 256 ^ fuel := by
      rw [pow_succ] at h
      omega
    obtain ⟨hval, hlast⟩ := magnitudeBytes_spec fuel (n / 256) hdiv
    have hbyte : (UInt8.ofNat (n % 256)).toNat = n % 256 := by simp
    refine ⟨?_, ?_⟩
    · simp only [magnitudeBytes, hn, if_false, ofLE, hval, hbyte]
      omega
    · simp only [magnitudeBytes, hn, if_false, List.getLast?_cons]
      cases hr : (magnitudeBytes fuel (n / 256)).getLast? with
      | some c => simpa [hr] using hlast
      | none =>
        -- the last byte is this one: the rest of the magnitude is zero
        rw [List.getLast?_eq_none_iff.1 hr, ofLE] at hval
        intro he
        have := congrArg UInt8.toNat (Option.some.inj he)
        simp only [Option.getD_none, hbyte] at this
        simp only [UInt8.toNat_zero] at this
        omega

/-- Bytes without a trailing zero are what `magnitudeBytes` writes for their
value, given a byte of fuel for each. -/
theorem magnitudeBytes_ofLE : ∀ (v : List UInt8) (fuel : Nat), v.length ≤ fuel → v.getLast? ≠ some 0 →
    magnitudeBytes fuel (ofLE v) = v
  | [], fuel, _, _ => by cases fuel <;> simp [magnitudeBytes, ofLE]
  | x :: xs, fuel + 1, hlen, hlast => by
    have hxs : xs.getLast? ≠ some 0 := by
      cases h : xs.getLast? with
      | none => simp
      | some c =>
        rw [List.getLast?_cons, h] at hlast
        simpa using hlast
    have hx := x.toNat_lt
    have hpos : ofLE (x :: xs) ≠ 0 := by
      rcases List.eq_nil_or_concat' (x :: xs) with h | ⟨l, b, h⟩
      · cases h
      · have hb : b ≠ 0 := by
          intro hb
          rw [h, hb, List.getLast?_concat] at hlast
          exact hlast rfl
        have := pow_le_ofLE_concat l hb
        rw [← h] at this
        have : 0 < 256 ^ l.length := by positivity
        omega
    have hmod : ofLE (x :: xs) % 256 = x.toNat := by simp only [ofLE]; omega
    have hdiv : ofLE (x :: xs) / 256 = ofLE xs := by simp only [ofLE]; omega
    simp only [magnitudeBytes, hpos, if_false, hmod, hdiv, UInt8.ofNat_toNat,
      magnitudeBytes_ofLE xs fuel (by simp at hlen; omega) hxs]
  | _ :: _, 0, hlen, _ => by simp at hlen

/-- With its magnitude as fuel, `magnitudeBytes` writes back bytes ending in
a nonzero byte. -/
theorem magnitudeBytes_self (l : List UInt8) {b : UInt8} (hb : b ≠ 0) :
    magnitudeBytes (ofLE (l ++ [b])) (ofLE (l ++ [b])) = l ++ [b] := by
  apply magnitudeBytes_ofLE
  · have h1 := pow_le_ofLE_concat l hb
    have h2 : l.length < 256 ^ l.length := Nat.lt_pow_self (by norm_num)
    simp only [List.length_append, List.length_singleton]
    omega
  · simpa using hb

/-- Setting the top bit of a byte below `0x80` adds `0x80`. -/
theorem toNat_or_0x80 : ∀ b : UInt8, b.toNat < 0x80 → (b ||| 0x80).toNat = b.toNat + 0x80 := by
  decide +kernel

/-- A byte with its top bit set is its low bits with the top bit set. -/
theorem ofNat_sub_or_0x80 : ∀ c : UInt8, 0x80 ≤ c.toNat → UInt8.ofNat (c.toNat - 0x80) ||| 0x80 = c := by
  decide +kernel

/-- `serialize` of a nonzero value from the trimmed bytes `l ++ [b]` of its
magnitude. -/
theorem serialize_of_magnitude {n : Int} (hn : n ≠ 0) {l : List UInt8} {b : UInt8}
    (hr : magnitudeBytes n.natAbs n.natAbs = l ++ [b]) :
    serialize n = if b.toNat ≥ 0x80 then l ++ [b] ++ [if n < 0 then 0x80 else 0]
      else if n < 0 then l ++ [b ||| 0x80] else l ++ [b] := by
  simp only [serialize, hn, if_false, hr, List.getLast?_concat, List.dropLast_concat]

theorem ofLE_concat_pos (l : List UInt8) {b : UInt8} (hb : b ≠ 0) : 0 < ofLE (l ++ [b]) :=
  lt_of_lt_of_le (by positivity) (pow_le_ofLE_concat l hb)

/-- A positive value written from its trimmed bytes. -/
theorem serialize_pos (l : List UInt8) {b : UInt8} (hb : b ≠ 0) :
    serialize (ofLE (l ++ [b]) : Int) = if b.toNat ≥ 0x80 then l ++ [b] ++ [0] else l ++ [b] := by
  have hpos := ofLE_concat_pos l hb
  rw [serialize_of_magnitude (by omega) (by rw [Int.natAbs_natCast]; exact magnitudeBytes_self l hb)]
  simp only [show ¬((ofLE (l ++ [b]) : Int) < 0) by omega, if_false]

/-- A negative value written from the trimmed bytes of its magnitude. -/
theorem serialize_neg (l : List UInt8) {b : UInt8} (hb : b ≠ 0) :
    serialize (-(ofLE (l ++ [b]) : Int)) = if b.toNat ≥ 0x80 then l ++ [b] ++ [0x80] else l ++ [b ||| 0x80] := by
  have hpos := ofLE_concat_pos l hb
  rw [serialize_of_magnitude (by omega)
    (by rw [Int.natAbs_neg, Int.natAbs_natCast]; exact magnitudeBytes_self l hb)]
  simp only [show -((ofLE (l ++ [b]) : Int)) < 0 by omega, if_true]

/-- `set_vch` of bytes ending in `c`: the magnitude without the top bit of
`c`, negated when that bit is set. -/
theorem set_vch_concat (l : List UInt8) (c : UInt8) :
    set_vch (l ++ [c]) = if c.toNat ≥ 0x80 then -((ofLE l : Int) + 256 ^ l.length * (c.toNat - 128 : Nat))
      else (ofLE l : Int) + 256 ^ l.length * c.toNat := by
  simp only [set_vch, List.getLast?_concat, ofLE_append_single, List.length_append, List.length_singleton,
    Nat.add_sub_cancel]
  split_ifs with hc
  · have : ((c.toNat - 128 : Nat) : Int) = c.toNat - 128 := by omega
    rw [this]
    ring
  · rfl

/-- The constructor's minimality test on bytes ending in `c`. -/
theorem IsMinimal_concat (l : List UInt8) (c : UInt8) :
    IsMinimal (l ++ [c]) = (c.toNat % 128 != 0 || (l.getLast?.map fun d => decide (d.toNat ≥ 0x80)).getD false) := by
  rcases List.eq_nil_or_concat' l with rfl | ⟨l', d, rfl⟩
  · simp [IsMinimal]
  · simp [IsMinimal, List.reverse_append]

/-- A value of magnitude below `2^(8k-1)` is written in at most `k` bytes,
which the constructor reads back. -/
theorem serialize_read_back {k : Nat} {n : Int} (hn : n.natAbs ≤ 2 ^ (8 * k - 1) - 1) :
    (serialize n).length ≤ k ∧ ofVch (serialize n) true k = .ok ⟨n⟩ := by
  by_cases h0 : n = 0
  · subst h0
    simp [serialize, ofVch, IsMinimal, set_vch]
  have hbound : n.natAbs < 2 ^ (8 * k - 1) := by
    have : 0 < 2 ^ (8 * k - 1) := by positivity
    omega
  obtain ⟨hval, hlast⟩ := magnitudeBytes_spec n.natAbs n.natAbs (Nat.lt_pow_self (by norm_num))
  obtain ⟨l, b, hr⟩ : ∃ l b, magnitudeBytes n.natAbs n.natAbs = l ++ [b] := by
    rcases List.eq_nil_or_concat' (magnitudeBytes n.natAbs n.natAbs) with h | h
    · rw [h, ofLE] at hval
      omega
    · exact h
  have hb : b ≠ 0 := by
    intro hb
    rw [hr, hb, List.getLast?_concat] at hlast
    exact hlast rfl
  rw [hr] at hval
  -- the magnitude, read from `l ++ [b]`, and its two parts
  have hA : (ofLE (l ++ [b]) : Int) = ofLE l + 256 ^ l.length * b.toNat := by exact_mod_cast ofLE_concat l b
  have hneg : n < 0 → (ofLE (l ++ [b]) : Int) = -n := fun h => by rw [hval]; omega
  have hpos : ¬n < 0 → (ofLE (l ++ [b]) : Int) = n := fun h => by rw [hval]; omega
  have hread : ∀ v : List UInt8, v.length ≤ k → IsMinimal v = true → set_vch v = n →
      ofVch v true k = .ok ⟨n⟩ := by
    intro v hv hm hs
    simp [ofVch, hm, hs, show ¬(v.length > k) by omega]
  rw [serialize_of_magnitude h0 hr]
  by_cases htop : b.toNat ≥ 0x80
  · -- the top bit of the last byte is taken: a sign byte follows
    have hlen : l.length + 2 ≤ k := by
      have h1 : 2 ^ (8 * l.length + 7) ≤ n.natAbs := by
        have := Nat.mul_le_mul_left (256 ^ l.length) htop
        rw [← hval, ofLE_concat, pow_add, ← pow_eight]
        norm_num
        omega
      have := (Nat.pow_lt_pow_iff_right (by norm_num : 1 < 2)).1 (lt_of_le_of_lt h1 hbound)
      omega
    have hmin : ∀ s : UInt8, s.toNat % 128 = 0 → IsMinimal (l ++ [b] ++ [s]) = true := by
      intro s hs
      rw [IsMinimal_concat]
      simp [hs, htop]
    have hlen' : ∀ s : UInt8, (l ++ [b] ++ [s]).length ≤ k := fun s => by simp; omega
    simp only [htop, if_true]
    refine ⟨hlen' _, hread _ (hlen' _) (hmin _ (by split_ifs <;> decide)) ?_⟩
    rw [set_vch_concat]
    by_cases hn : n < 0
    · simp only [hn, if_true, show (0x80 : UInt8).toNat = 128 from rfl, ge_iff_le, le_refl, Nat.sub_self,
        Nat.cast_zero, mul_zero, add_zero]
      linarith [hneg hn]
    · simp only [hn, if_false, UInt8.toNat_zero, ge_iff_le, Nat.cast_zero, mul_zero, add_zero]
      simp only [show ¬(128 ≤ 0) by omega, if_false]
      linarith [hpos hn]
  · -- the sign goes in the top bit of the last byte
    have hlen : l.length + 1 ≤ k := by
      have h1 : 2 ^ (8 * l.length) ≤ n.natAbs := by
        rw [← pow_eight, ← hval]
        exact pow_le_ofLE_concat l hb
      have := (Nat.pow_lt_pow_iff_right (by norm_num : 1 < 2)).1 (lt_of_le_of_lt h1 hbound)
      omega
    have hb0 := toNat_ne_zero hb
    simp only [htop, if_false]
    by_cases hn : n < 0
    · have hor := toNat_or_0x80 b (by omega)
      have hmin : IsMinimal (l ++ [b ||| 0x80]) = true := by
        rw [IsMinimal_concat, hor]
        simp only [bne_iff_ne, ne_eq, Bool.or_eq_true]
        omega
      have hlen' : (l ++ [b ||| 0x80]).length ≤ k := by simp; omega
      simp only [hn, if_true]
      refine ⟨hlen', hread _ hlen' hmin ?_⟩
      rw [set_vch_concat, hor]
      simp only [show b.toNat + 128 ≥ 0x80 by omega, if_true, Nat.add_sub_cancel]
      linarith [hneg hn]
    · have hmin : IsMinimal (l ++ [b]) = true := by
        rw [IsMinimal_concat]
        simp only [bne_iff_ne, ne_eq, Bool.or_eq_true]
        omega
      have hlen' : (l ++ [b]).length ≤ k := by simp; omega
      simp only [hn, if_false]
      refine ⟨hlen', hread _ hlen' hmin ?_⟩
      rw [set_vch_concat]
      simp only [htop, if_false]
      linarith [hpos hn]

/-- What the constructor accepts with `fRequireMinimal` is what `serialize`
writes for the value it reads. -/
theorem ofVch_minimal_serialize {k : Nat} {v : List UInt8} {m : CScriptNum} (h : ofVch v true k = .ok m) :
    serialize m.m_value = v := by
  unfold ofVch at h
  split_ifs at h with h1 h2
  cases h
  have hmin : IsMinimal v = true := by simpa using h2
  rcases List.eq_nil_or_concat' v with rfl | ⟨l, c, rfl⟩
  · rfl
  rw [set_vch_concat]
  have hc := c.toNat_lt
  rw [IsMinimal_concat] at hmin
  -- the byte before the last, when the last carries only a sign
  have hprev : c.toNat % 128 = 0 → ∃ l' d, l = l' ++ [d] ∧ d.toNat ≥ 0x80 := by
    intro hc0
    rcases List.eq_nil_or_concat' l with rfl | ⟨l', d, rfl⟩
    · simp [hc0] at hmin
    · simp only [hc0, bne_self_eq_false, List.getLast?_concat, Option.map_some, Option.getD_some,
        Bool.false_or, decide_eq_true_eq] at hmin
      exact ⟨l', d, rfl, hmin⟩
  by_cases htop : c.toNat ≥ 0x80
  · simp only [htop, if_true]
    by_cases hc0 : c.toNat = 128
    · -- a sign byte of its own after a byte with its top bit set
      obtain ⟨l', d, rfl, hd⟩ := hprev (by omega)
      have hd0 : d ≠ 0 := fun h => by rw [h] at hd; exact absurd hd (by decide)
      have hval : -((ofLE (l' ++ [d]) : Int) + 256 ^ (l' ++ [d]).length * (c.toNat - 128 : Nat)) =
          -((ofLE (l' ++ [d]) : Nat) : Int) := by
        rw [hc0]
        simp
      have hc80 : c = 0x80 := UInt8.toNat_inj.1 hc0
      rw [hval, serialize_neg l' hd0, if_pos hd, hc80]
    · -- the sign in the top bit of a last byte with other bits set
      have hbn : (UInt8.ofNat (c.toNat - 128)).toNat = c.toNat - 128 := by simp; omega
      have hb0 : UInt8.ofNat (c.toNat - 128) ≠ 0 := fun h => by rw [h] at hbn; simp at hbn; omega
      have hval : -((ofLE l : Int) + 256 ^ l.length * (c.toNat - 128 : Nat)) =
          -((ofLE (l ++ [UInt8.ofNat (c.toNat - 128)]) : Nat) : Int) := by
        rw [ofLE_concat, hbn]
        push_cast
        ring
      rw [hval, serialize_neg l hb0, if_neg (by omega), ofNat_sub_or_0x80 c htop]
  · simp only [htop, if_false]
    by_cases hc0 : c.toNat = 0
    · -- a zero byte carrying the sign bit the byte before it takes
      obtain ⟨l', d, rfl, hd⟩ := hprev (by omega)
      have hd0 : d ≠ 0 := fun h => by rw [h] at hd; exact absurd hd (by decide)
      have hval : (ofLE (l' ++ [d]) : Int) + 256 ^ (l' ++ [d]).length * c.toNat = ((ofLE (l' ++ [d]) : Nat) : Int) := by
        rw [hc0]
        simp
      have hc00 : c = 0 := UInt8.toNat_inj.1 hc0
      rw [hval, serialize_pos l' hd0, if_pos hd, hc00]
    · have hc0' : c ≠ 0 := fun h => hc0 (by rw [h]; rfl)
      have hval : (ofLE l : Int) + 256 ^ l.length * c.toNat = ((ofLE (l ++ [c]) : Nat) : Int) := by
        rw [ofLE_concat]
        push_cast
        ring
      rw [hval, serialize_pos l hc0', if_neg htop]

theorem ofVch_serialize_inverse (k : Nat) :
    (∀ n : Int, n.natAbs ≤ 2 ^ (8 * k - 1) - 1 →
      (serialize n).length ≤ k ∧ ofVch (serialize n) true k = .ok ⟨n⟩) ∧
    (∀ (v : List UInt8) (m : CScriptNum), v.length ≤ k → ofVch v true k = .ok m → serialize m.m_value = v) :=
  ⟨fun _ hn => serialize_read_back hn, fun _ _ _ h => ofVch_minimal_serialize h⟩

end Minimal

end CScriptNum

end Tapyrus
