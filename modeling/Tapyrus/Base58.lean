import Tapyrus.Lib.DigitBuffer
import Tapyrus.Script.Checks
/-!
# Base58

`base58.cpp`: `EncodeBase58` and `DecodeBase58`, and their checked forms
with a 4-byte `Hash` checksum.

Both directions are in-place base conversions over a buffer sized from a
rounded ratio of logarithms (`len * 138 / 100 + 1` base-58 digits for `len`
bytes, `len * 733 / 1000 + 1` bytes for `len` characters), run with
`Lib.mulAdd`; leading zero bytes and leading '1's are counted apart. Each
`assert(carry == 0)` is an `Option` that is `none` when the assertion fails.
Strings are the bytes of the C string (what `c_str()` gives), and the buffers
are kept from their last entry (`rbegin`) on.
-/

namespace Tapyrus

open Lib

/-- `pszBase58`: all alphanumeric characters except "0", "I", "O" and "l". -/
def pszBase58 : List UInt8 := "123456789ABCDEFGHJKLMNPQRSTUVWXYZabcdefghijkmnopqrstuvwxyz".toList.map Char.toUInt8

/-- `mapBase58`: each byte's base-58 digit, or -1. -/
def mapBase58 : List Int := [
  -1, -1, -1, -1, -1, -1, -1, -1, -1, -1, -1, -1, -1, -1, -1, -1,
  -1, -1, -1, -1, -1, -1, -1, -1, -1, -1, -1, -1, -1, -1, -1, -1,
  -1, -1, -1, -1, -1, -1, -1, -1, -1, -1, -1, -1, -1, -1, -1, -1,
  -1, 0, 1, 2, 3, 4, 5, 6, 7, 8, -1, -1, -1, -1, -1, -1,
  -1, 9, 10, 11, 12, 13, 14, 15, 16, -1, 17, 18, 19, 20, 21, -1,
  22, 23, 24, 25, 26, 27, 28, 29, 30, 31, 32, -1, -1, -1, -1, -1,
  -1, 33, 34, 35, 36, 37, 38, 39, 40, 41, 42, 43, -1, 44, 45, 46,
  47, 48, 49, 50, 51, 52, 53, 54, 55, 56, 57, -1, -1, -1, -1, -1,
  -1, -1, -1, -1, -1, -1, -1, -1, -1, -1, -1, -1, -1, -1, -1, -1,
  -1, -1, -1, -1, -1, -1, -1, -1, -1, -1, -1, -1, -1, -1, -1, -1,
  -1, -1, -1, -1, -1, -1, -1, -1, -1, -1, -1, -1, -1, -1, -1, -1,
  -1, -1, -1, -1, -1, -1, -1, -1, -1, -1, -1, -1, -1, -1, -1, -1,
  -1, -1, -1, -1, -1, -1, -1, -1, -1, -1, -1, -1, -1, -1, -1, -1,
  -1, -1, -1, -1, -1, -1, -1, -1, -1, -1, -1, -1, -1, -1, -1, -1,
  -1, -1, -1, -1, -1, -1, -1, -1, -1, -1, -1, -1, -1, -1, -1, -1,
  -1, -1, -1, -1, -1, -1, -1, -1, -1, -1, -1, -1, -1, -1, -1, -1]

/-- `isspace` in the "C" locale: space, tab, newline, vertical tab, form
feed, carriage return. -/
def isspace (c : UInt8) : Bool := c == 0x20 || (0x09 ≤ c && c ≤ 0x0d)

/-! ## Decoding -/

/-- The loop of `DecodeBase58` over the characters after the leading '1's,
up to the end or a space: each character's digit is added into `b256` by
`carry += 58 * (*it); *it = carry % 256; carry /= 256`. `none` when the
`assert` fails, `some none` on an invalid character (`return false`), and
otherwise the buffer, `length` and the characters left. -/
def decodeLoop : List Nat → Nat → List UInt8 → Option (Option (List Nat × Nat × List UInt8))
  | b256, length, [] => some (some (b256, length, []))
  | b256, length, c :: psz =>
    if isspace c then some (some (b256, length, c :: psz))
    else
      let carry := mapBase58.getD c.toNat (-1)
      if carry = -1 then some none
      else match mulAdd 58 256 b256 length carry.toNat with
        | none => none
        | some (b256, length) => decodeLoop b256 length psz

/-- `DecodeBase58(psz, vch)`: `none` when an `assert` fails, `some none`
when it returns false, `some (some vch)` when it returns true. -/
def DecodeBase58 (psz : List UInt8) : Option (Option (List UInt8)) :=
  -- skip leading spaces, then skip and count leading '1's
  let psz := psz.dropWhile isspace
  let zeroes := (psz.takeWhile (· == '1'.toUInt8)).length
  let psz := psz.drop zeroes
  -- log(58) / log(256), rounded up
  let size := psz.length * 733 / 1000 + 1
  match decodeLoop (List.replicate size 0) 0 psz with
  | none => none
  | some none => some none
  | some (some (b256, length, psz)) =>
    -- skip trailing spaces; anything else left is an error
    if psz.dropWhile isspace ≠ [] then some none
    -- the bytes in use, without their leading zeroes
    else some (some (List.replicate zeroes 0 ++ ((b256.take length).reverse.dropWhile (· == 0)).map UInt8.ofNat))

/-! ## Encoding -/

/-- `EncodeBase58(pbegin, pend)`: `none` when the `assert` fails. -/
def EncodeBase58 (v : List UInt8) : Option (List UInt8) :=
  -- skip and count leading zeroes
  let zeroes := (v.takeWhile (· == 0)).length
  let v := v.drop zeroes
  -- log(256) / log(58), rounded up
  let size := v.length * 138 / 100 + 1
  -- "b58 = b58 * 256 + ch" for each byte
  match (v.map UInt8.toNat).foldlM (fun (st : List Nat × Nat) ch => mulAdd 256 58 st.1 st.2 ch)
      (List.replicate size 0, 0) with
  | none => none
  | some (b58, length) =>
    -- the digits in use, without their leading zeroes, as characters
    some (List.replicate zeroes '1'.toUInt8 ++
      ((b58.take length).reverse.dropWhile (· == 0)).map (fun d => pszBase58.getD d 0))

/-! ## With a checksum -/

/-- `EncodeBase58Check`: the first 4 bytes of `Hash(vchIn)` appended. -/
def EncodeBase58Check (C : Crypto) (vchIn : List UInt8) : Option (List UInt8) :=
  EncodeBase58 (vchIn ++ (C.hash256 vchIn).bytes.take 4)

/-- `DecodeBase58Check`: the payload when the last 4 bytes are its checksum. -/
def DecodeBase58Check (C : Crypto) (psz : List UInt8) : Option (Option (List UInt8)) :=
  match DecodeBase58 psz with
  | none => none
  | some none => some none
  | some (some vchRet) =>
    if vchRet.length < 4 then some none
    else if memcmp (C.hash256 (vchRet.take (vchRet.length - 4))).bytes (vchRet.drop (vchRet.length - 4)) 4 ≠ .eq then
      some none
    else some (some (vchRet.take (vchRet.length - 4)))

/-! ## The alphabet -/

/-- The digit the decoding loop adds for a character of the alphabet. -/
def base58Digit (c : UInt8) : Nat := (mapBase58.getD c.toNat (-1)).toNat

theorem pszBase58_length : pszBase58.length = 58 := by decide

theorem mapBase58_pszBase58 : ∀ k : Fin 58, mapBase58.getD (pszBase58.getD k 0).toNat (-1) = k := by decide

/-- `mapBase58` holds -1 or a digit. -/
theorem mapBase58_range : ∀ c : UInt8, mapBase58.getD c.toNat (-1) = -1 ∨
    (0 ≤ mapBase58.getD c.toNat (-1) ∧ mapBase58.getD c.toNat (-1) < 58) := by decide +kernel

theorem isspace_pszBase58 : ∀ k : Fin 58, isspace (pszBase58.getD k 0) = false := by decide

theorem pszBase58_zero : pszBase58.getD 0 0 = '1'.toUInt8 := by decide

/-- No character of the alphabet is the NUL that ends a C string. -/
theorem zero_not_mem_pszBase58 : (0 : UInt8) ∉ pszBase58 := by decide

section Alphabet

variable {k : Nat}

theorem mapBase58_of_lt (hk : k < 58) : mapBase58.getD (pszBase58.getD k 0).toNat (-1) = k :=
  mapBase58_pszBase58 ⟨k, hk⟩

theorem base58Digit_of_lt (hk : k < 58) : base58Digit (pszBase58.getD k 0) = k := by
  rw [base58Digit, mapBase58_of_lt hk]
  rfl

theorem pszBase58_mem (hk : k < 58) : pszBase58.getD k 0 ∈ pszBase58 := by
  rw [List.getD_eq_getElem _ _ (by rw [pszBase58_length]; exact hk)]
  exact List.getElem_mem _

theorem mem_pszBase58 {c : UInt8} (hc : c ∈ pszBase58) : base58Digit c < 58 ∧ pszBase58.getD (base58Digit c) 0 = c := by
  obtain ⟨k, hk, rfl⟩ := List.getElem_of_mem hc
  have hk58 : k < 58 := pszBase58_length ▸ hk
  rw [← List.getD_eq_getElem _ 0 hk, base58Digit_of_lt hk58]
  exact ⟨hk58, rfl⟩

/-- Only the zero digit is written '1'. -/
theorem pszBase58_eq_one (hk : k < 58) : pszBase58.getD k 0 = '1'.toUInt8 ↔ k = 0 := by
  constructor
  · intro h
    have hd := base58Digit_of_lt hk
    rw [h, ← pszBase58_zero, base58Digit_of_lt (by norm_num)] at hd
    exact hd.symm
  · rintro rfl
    exact pszBase58_zero

theorem base58Digit_eq_zero {c : UInt8} (hc : c ∈ pszBase58) : base58Digit c = 0 ↔ c = '1'.toUInt8 := by
  conv_rhs => rw [← (mem_pszBase58 hc).2]
  exact (pszBase58_eq_one (mem_pszBase58 hc).1).symm

theorem isspace_of_mem {c : UInt8} (hc : c ∈ pszBase58) : isspace c = false := by
  rw [← (mem_pszBase58 hc).2]
  exact isspace_pszBase58 ⟨_, (mem_pszBase58 hc).1⟩

end Alphabet

/-! ## Buffer sizes -/

/-- `len * 138 / 100 + 1` base-58 digits hold `len` bytes: `256 ^ 100 ≤ 58 ^ 138`. -/
theorem pow_256_le_pow_58 (m : Nat) : 256 ^ m ≤ 58 ^ (m * 138 / 100 + 1) :=
  pow_le_pow_of_ratio (by norm_num : 100 ≠ 0) (by norm_num) (by norm_num : 256 ^ 100 ≤ 58 ^ 138) (by omega)

/-- `len * 733 / 1000 + 1` bytes hold `len` base-58 digits: `58 ^ 71 ≤ 256 ^ 52`,
and `52 / 71 < 733 / 1000`. -/
theorem pow_58_le_pow_256 (n : Nat) : 58 ^ n ≤ 256 ^ (n * 733 / 1000 + 1) :=
  pow_le_pow_of_ratio (by norm_num : 71 ≠ 0) (by norm_num) (by norm_num : 58 ^ 71 ≤ 256 ^ 52) (by omega)

/-! ## Encoding, computed -/

theorem horner_bytes_lt (w : List UInt8) : horner 256 0 (w.map UInt8.toNat) < 256 ^ w.length := by
  have h : horner 256 0 (w.map UInt8.toNat) < 256 ^ (w.map UInt8.toNat).length :=
    horner_lt (by norm_num) (fun x hx => by
      obtain ⟨b, -, rfl⟩ := List.mem_map.1 hx
      exact UInt8.toNat_lt b)
  rwa [List.length_map] at h

/-- `EncodeBase58` never fails its `assert`: it writes the leading zero bytes
as '1's, then the base-58 digits of the number the other bytes spell. -/
theorem EncodeBase58_eq (v : List UInt8) :
    EncodeBase58 v = some (List.replicate (v.takeWhile (· == 0)).length '1'.toUInt8 ++
      (Nat.digits 58 (horner 256 0 ((v.dropWhile (· == 0)).map UInt8.toNat))).reverse.map
        (fun d => pszBase58.getD d 0)) := by
  have hdrop := drop_takeWhile_length (· == 0) v
  have hfit : horner 256 0 ((v.dropWhile (· == 0)).map UInt8.toNat) <
      58 ^ (List.replicate ((v.dropWhile (· == 0)).length * 138 / 100 + 1) 0).length := by
    rw [List.length_replicate]
    exact lt_of_lt_of_le (horner_bytes_lt _) (pow_256_le_pow_58 _)
  obtain ⟨b58, length, hrun, hH, -⟩ :=
    foldlM_mulAdd (by norm_num) (by norm_num) (Holds.start (by norm_num) _) _ hfit
  simp only [EncodeBase58, hdrop, hrun, hH.digits (by norm_num)]

/-- What `EncodeBase58` writes is a string of the alphabet. -/
theorem EncodeBase58_mem {v s : List UInt8} (h : EncodeBase58 v = some s) : ∀ c ∈ s, c ∈ pszBase58 := by
  rw [EncodeBase58_eq, Option.some.injEq] at h
  subst h
  intro c hc
  rcases List.mem_append.1 hc with hc | hc
  · rw [List.eq_of_mem_replicate hc, ← pszBase58_zero]
    exact pszBase58_mem (by norm_num)
  · obtain ⟨d, hd, rfl⟩ := List.mem_map.1 hc
    exact pszBase58_mem (Nat.digits_lt_base (by norm_num) (List.mem_reverse.1 hd))

/-! ## Decoding, computed -/

theorem mapBase58_of_mem {c : UInt8} (hc : c ∈ pszBase58) : mapBase58.getD c.toNat (-1) = base58Digit c := by
  conv_lhs => rw [← (mem_pszBase58 hc).2]
  rw [mapBase58_of_lt (mem_pszBase58 hc).1]

/-- On characters of the alphabet the loop is the passes over their digits. -/
theorem decodeLoop_of_mem {psz : List UInt8} (hpsz : ∀ c ∈ psz, c ∈ pszBase58) (b256 : List Nat) (length : Nat) :
    decodeLoop b256 length psz =
      ((psz.map base58Digit).foldlM (fun (st : List Nat × Nat) x => mulAdd 58 256 st.1 st.2 x) (b256, length)).map
        (fun st => some (st.1, st.2, [])) := by
  induction psz generalizing b256 length with
  | nil => rfl
  | cons c psz ih =>
    have hc := hpsz c List.mem_cons_self
    have hrest : ∀ c ∈ psz, c ∈ pszBase58 := fun c' h => hpsz c' (List.mem_cons_of_mem _ h)
    have hne : (base58Digit c : Int) ≠ -1 := by omega
    simp only [decodeLoop, isspace_of_mem hc, mapBase58_of_mem hc, hne, Int.toNat_natCast, if_false,
      Bool.false_eq_true, List.map_cons, List.foldlM_cons]
    cases hm : mulAdd 58 256 b256 length (base58Digit c) with
    | none => rfl
    | some st => simp [ih hrest]

theorem horner_base58Digit_lt {rest : List UInt8} (hrest : ∀ c ∈ rest, c ∈ pszBase58) :
    horner 58 0 (rest.map base58Digit) < 58 ^ rest.length := by
  have h : horner 58 0 (rest.map base58Digit) < 58 ^ (rest.map base58Digit).length :=
    horner_lt (by norm_num) (fun x hx => by
      obtain ⟨c, hc, rfl⟩ := List.mem_map.1 hx
      exact (mem_pszBase58 (hrest c hc)).1)
  rwa [List.length_map] at h

/-- On a string of the alphabet `DecodeBase58` returns true: the leading
'1's as zero bytes, then the bytes of the number the other digits spell. -/
theorem DecodeBase58_of_mem {s : List UInt8} (hs : ∀ c ∈ s, c ∈ pszBase58) :
    DecodeBase58 s = some (some (List.replicate (s.takeWhile (· == '1'.toUInt8)).length 0 ++
      (Nat.digits 256 (horner 58 0 ((s.dropWhile (· == '1'.toUInt8)).map base58Digit))).reverse.map UInt8.ofNat)) := by
  have hsp : s.dropWhile isspace = s := dropWhile_of_forall (fun c hc => isspace_of_mem (hs c hc))
  have hdrop := drop_takeWhile_length (· == '1'.toUInt8) s
  have hrest : ∀ c ∈ s.dropWhile (· == '1'.toUInt8), c ∈ pszBase58 :=
    fun c hc => hs c ((List.dropWhile_suffix _).subset hc)
  have hfit : horner 58 0 ((s.dropWhile (· == '1'.toUInt8)).map base58Digit) <
      256 ^ (List.replicate ((s.dropWhile (· == '1'.toUInt8)).length * 733 / 1000 + 1) 0).length := by
    rw [List.length_replicate]
    exact lt_of_lt_of_le (horner_base58Digit_lt hrest) (pow_58_le_pow_256 _)
  obtain ⟨b256, length, hrun, hH, -⟩ :=
    foldlM_mulAdd (by norm_num) (by norm_num) (Holds.start (by norm_num) _) _ hfit
  simp only [DecodeBase58, hsp, hdrop, decodeLoop_of_mem hrest, hrun, Option.map_some, List.dropWhile_nil,
    ne_eq, not_true_eq_false, if_false, hH.digits (by norm_num)]

/-- A leading space changes nothing: decoding skips it. -/
theorem DecodeBase58_cons_isspace {c : UInt8} (hc : isspace c) (psz : List UInt8) :
    DecodeBase58 (c :: psz) = DecodeBase58 psz := by
  simp only [DecodeBase58, List.dropWhile_cons_of_pos hc]

/-- Whatever the characters, no pass of the loop leaves a carry: the number
after each character is below `58` to the number of characters read, and the
buffer was sized for all of them. -/
theorem decodeLoop_ne_none {b256 : List Nat} {length value : Nat} (h : Holds 256 b256 length value) (psz : List UInt8)
    (hfit : (value + 1) * 58 ^ psz.length ≤ 256 ^ b256.length) : decodeLoop b256 length psz ≠ none := by
  induction psz generalizing b256 length value with
  | nil => simp [decodeLoop]
  | cons c psz ih =>
    rw [List.length_cons, pow_succ] at hfit
    simp only [decodeLoop]
    split
    · simp
    · rcases mapBase58_range c with hinv | ⟨h0, h58⟩
      · rw [if_pos hinv]
        simp
      · have hne : mapBase58.getD c.toNat (-1) ≠ -1 := by omega
        have hd58 : (mapBase58.getD c.toNat (-1)).toNat < 58 := by omega
        -- the number with this digit, plus one, is at most 58 times the number before, plus one
        have hgrow : (value * 58 + (mapBase58.getD c.toNat (-1)).toNat + 1) * 58 ^ psz.length ≤
            256 ^ b256.length :=
          calc (value * 58 + (mapBase58.getD c.toNat (-1)).toNat + 1) * 58 ^ psz.length
              ≤ (value + 1) * 58 * 58 ^ psz.length := Nat.mul_le_mul_right _ (by omega)
            _ = (value + 1) * (58 ^ psz.length * 58) := by ring
            _ ≤ 256 ^ b256.length := hfit
        have hstep : value * 58 + (mapBase58.getD c.toNat (-1)).toNat < 256 ^ b256.length :=
          lt_of_lt_of_le (by have := Nat.one_le_pow psz.length 58 (by norm_num); nlinarith) hgrow
        obtain ⟨b', l', hm, h', hlen⟩ := mulAdd_eq_some (by norm_num) h _ hstep
        simp only [hne, if_false, hm]
        exact ih h' (by rw [hlen]; exact hgrow)

/-- `DecodeBase58` never fails its `assert`, whatever the string. -/
theorem DecodeBase58_ne_none (psz : List UInt8) : DecodeBase58 psz ≠ none := by
  have hloop := decodeLoop_ne_none (Holds.start (by norm_num) _)
    ((psz.dropWhile isspace).drop ((psz.dropWhile isspace).takeWhile (· == '1'.toUInt8)).length)
    (by rw [List.length_replicate, Nat.zero_add, Nat.one_mul]; exact pow_58_le_pow_256 _)
  simp only [DecodeBase58]
  split
  · contradiction
  · simp
  · split <;> simp

/-! ## The round trips -/

section RoundTrip

variable {D : List Nat}

theorem map_pszBase58_mem (hD : ∀ d ∈ D, d < 58) : ∀ c ∈ D.map (fun d => pszBase58.getD d 0), c ∈ pszBase58 := by
  intro c hc
  obtain ⟨d, hd, rfl⟩ := List.mem_map.1 hc
  exact pszBase58_mem (hD d hd)

theorem map_base58Digit (hD : ∀ d ∈ D, d < 58) : (D.map (fun d => pszBase58.getD d 0)).map base58Digit = D := by
  rw [List.map_map]
  exact (List.map_congr_left fun d hd => base58Digit_of_lt (hD d hd)).trans (List.map_id _)

theorem head?_map_pszBase58 (hD : ∀ d ∈ D, d < 58) (h0 : D.head? ≠ some 0) :
    (D.map (fun d => pszBase58.getD d 0)).head? ≠ some '1'.toUInt8 := by
  cases D with
  | nil => simp
  | cons d D =>
    simp only [List.map_cons, List.head?_cons, ne_eq, Option.some.injEq] at h0 ⊢
    exact fun h => h0 ((pszBase58_eq_one (hD d List.mem_cons_self)).1 h)

theorem head?_map_ofNat (hD : ∀ d ∈ D, d < 256) (h0 : D.head? ≠ some 0) :
    (D.map UInt8.ofNat).head? ≠ some 0 := by
  cases D with
  | nil => simp
  | cons d D =>
    simp only [List.map_cons, List.head?_cons, ne_eq, Option.some.injEq] at h0 ⊢
    intro h
    have hd := congrArg UInt8.toNat h
    simp [Nat.mod_eq_of_lt (hD d List.mem_cons_self)] at hd
    exact h0 hd

theorem map_toNat_ofNat (hD : ∀ d ∈ D, d < 256) : (D.map UInt8.ofNat).map UInt8.toNat = D := by
  rw [List.map_map]
  exact (List.map_congr_left fun d hd => by simp [Nat.mod_eq_of_lt (hD d hd)]).trans (List.map_id _)

end RoundTrip

/-- Decoding an encoding gives the bytes back. -/
theorem DecodeBase58_EncodeBase58 (v : List UInt8) : ∃ s, EncodeBase58 v = some s ∧ DecodeBase58 s = some (some v) := by
  refine ⟨_, EncodeBase58_eq v, ?_⟩
  -- the number the bytes after the leading zeros spell, and its base-58 digits
  set X := (v.dropWhile (· == 0)).map UInt8.toNat with hX
  set N := horner 256 0 X with hN
  have hD : ∀ d ∈ (Nat.digits 58 N).reverse, d < 58 :=
    fun d hd => Nat.digits_lt_base (by norm_num) (List.mem_reverse.1 hd)
  have hhead := head?_map_pszBase58 hD (head?_reverse_digits 58 N)
  have hmem : ∀ c ∈ List.replicate (v.takeWhile (· == 0)).length '1'.toUInt8 ++
      (Nat.digits 58 N).reverse.map (fun d => pszBase58.getD d 0), c ∈ pszBase58 := by
    intro c hc
    rcases List.mem_append.1 hc with hc | hc
    · rw [List.eq_of_mem_replicate hc, ← pszBase58_zero]
      exact pszBase58_mem (by norm_num)
    · exact map_pszBase58_mem hD c hc
  -- the bytes are < 256 and do not start with a zero
  have hXlt : ∀ x ∈ X, x < 256 := fun x hx => by
    obtain ⟨b, -, rfl⟩ := List.mem_map.1 hx
    exact UInt8.toNat_lt b
  have hXhead : X.head? ≠ some 0 := by
    rw [hX, List.head?_map]
    intro h
    obtain ⟨b, hb, hb0⟩ := Option.map_eq_some_iff.1 h
    exact head?_dropWhile_beq v 0 (by rw [hb, show b = 0 from UInt8.toNat_inj.1 hb0])
  have hbytes : (Nat.digits 256 N).reverse = X := by
    rw [hN, horner_eq, Nat.zero_mul, Nat.zero_add]
    exact digits_ofDigits_reverse_of_head (by norm_num) hXlt hXhead
  rw [DecodeBase58_of_mem hmem, takeWhile_replicate_append hhead, List.length_replicate,
    ← drop_takeWhile_length, takeWhile_replicate_append hhead, List.length_replicate,
    List.drop_left' List.length_replicate, map_base58Digit hD, horner_reverse_digits, hbytes, hX,
    List.map_map, ← takeWhile_beq_eq_replicate v 0]
  simp [Function.comp_def, UInt8.ofNat_toNat]

/-- Encoding a decoded string of the alphabet gives the string back. -/
theorem EncodeBase58_DecodeBase58 {s : List UInt8} (hs : ∀ c ∈ s, c ∈ pszBase58) :
    ∃ v, DecodeBase58 s = some (some v) ∧ EncodeBase58 v = some s := by
  refine ⟨_, DecodeBase58_of_mem hs, ?_⟩
  -- the digits after the leading '1's, and the number they spell
  set D := (s.dropWhile (· == '1'.toUInt8)).map base58Digit with hDdef
  set N := horner 58 0 D with hN
  have hrest : ∀ c ∈ s.dropWhile (· == '1'.toUInt8), c ∈ pszBase58 :=
    fun c hc => hs c ((List.dropWhile_suffix _).subset hc)
  have hD : ∀ d ∈ D, d < 58 := fun d hd => by
    obtain ⟨c, hc, rfl⟩ := List.mem_map.1 hd
    exact (mem_pszBase58 (hrest c hc)).1
  have hDhead : D.head? ≠ some 0 := by
    rw [hDdef, List.head?_map]
    intro h
    obtain ⟨c, hc, hc0⟩ := Option.map_eq_some_iff.1 h
    have hcmem := hrest c (List.mem_of_head? hc)
    exact head?_dropWhile_beq s '1'.toUInt8 (by rw [hc, (base58Digit_eq_zero hcmem).1 hc0])
  have hB : ∀ d ∈ (Nat.digits 256 N).reverse, d < 256 :=
    fun d hd => Nat.digits_lt_base (by norm_num) (List.mem_reverse.1 hd)
  have hB0 := head?_map_ofNat hB (head?_reverse_digits 256 N)
  have hdigits : (Nat.digits 58 N).reverse = D := by
    rw [hN, horner_eq, Nat.zero_mul, Nat.zero_add]
    exact digits_ofDigits_reverse_of_head (by norm_num) hD hDhead
  have hchars : D.map (fun d => pszBase58.getD d 0) = s.dropWhile (· == '1'.toUInt8) := by
    rw [hDdef, List.map_map]
    exact (List.map_congr_left fun c hc => (mem_pszBase58 (hrest c hc)).2).trans (List.map_id _)
  rw [EncodeBase58_eq, takeWhile_replicate_append hB0, List.length_replicate,
    ← drop_takeWhile_length, takeWhile_replicate_append hB0, List.length_replicate,
    List.drop_left' List.length_replicate, map_toNat_ofNat hB, horner_reverse_digits, hdigits, hchars,
    ← takeWhile_beq_eq_replicate s, List.takeWhile_append_dropWhile]

/-- The checked decoding of a checked encoding gives the payload back. -/
theorem DecodeBase58Check_EncodeBase58Check (C : Crypto) (v : List UInt8) :
    ∃ s, EncodeBase58Check C v = some s ∧ DecodeBase58Check C s = some (some v) := by
  obtain ⟨s, hs, hd⟩ := DecodeBase58_EncodeBase58 (v ++ (C.hash256 v).bytes.take 4)
  refine ⟨s, hs, ?_⟩
  have hlen : ((C.hash256 v).bytes.take 4).length = 4 := by simp [(C.hash256 v).length_eq]
  have hcheck : memcmp (C.hash256 v).bytes ((C.hash256 v).bytes.take 4) 4 = .eq :=
    (memcmp_eq_iff (by simp [(C.hash256 v).length_eq]) (by rw [hlen])).2 (by simp)
  simp [DecodeBase58Check, hd, hcheck, (C.hash256 v).length_eq]

/-- A checked decoding that succeeds decoded the payload followed by its checksum. -/
theorem DecodeBase58Check_eq_some {C : Crypto} {psz data : List UInt8} (h : DecodeBase58Check C psz = some (some data)) :
    DecodeBase58 psz = some (some (data ++ (C.hash256 data).bytes.take 4)) := by
  unfold DecodeBase58Check at h
  split at h
  · cases h
  · cases h
  · rename_i full hfull
    split_ifs at h with hshort hcheck
    · cases h
    · cases h
    · cases h
      -- the last four bytes are the first four of the payload's hash
      have hsum : (full.drop (full.length - 4)).length = 4 := by simp; omega
      have htail : (C.hash256 (full.take (full.length - 4))).bytes.take 4 = full.drop (full.length - 4) := by
        have heq := (memcmp_eq_iff (by simp [(C.hash256 _).length_eq]) (by rw [hsum])).1 (not_not.1 hcheck)
        rwa [List.take_of_length_le (le_of_eq hsum)] at heq
      rw [hfull, htail, List.take_append_drop]

/-- `EncodeBase58` and `DecodeBase58` are inverse bijections between byte
strings and strings of the alphabet, neither ever fails its `assert(carry ==
0)` (decoding on any string at all), and the checked forms round-trip. -/
theorem Base58_bijection :
    (∀ v : List UInt8, ∃ s, EncodeBase58 v = some s ∧ DecodeBase58 s = some (some v)) ∧
    (∀ s : List UInt8, (∀ c ∈ s, c ∈ pszBase58) → ∃ v, DecodeBase58 s = some (some v) ∧ EncodeBase58 v = some s) ∧
    (∀ psz : List UInt8, DecodeBase58 psz ≠ none) ∧
    (∀ (C : Crypto) (v : List UInt8),
      ∃ s, EncodeBase58Check C v = some s ∧ DecodeBase58Check C s = some (some v)) :=
  ⟨DecodeBase58_EncodeBase58, fun _ hs => EncodeBase58_DecodeBase58 hs, DecodeBase58_ne_none,
    DecodeBase58Check_EncodeBase58Check⟩

end Tapyrus
