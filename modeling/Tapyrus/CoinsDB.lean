import Tapyrus.Undo
/-!
# The UTXO database record

`Coin::Serialize` and `Coin::Unserialize` (`coins.h`): the record
`CCoinsViewDB` stores for each unspent output, a VarInt of twice the height
plus the coinbase flag, then the output through `CTxOutCompressor`, the
compressor of `compressor.h` that the undo records share (`Tapyrus.Undo`).

Every coin the UTXO set can hold reads back: the VarInt, the amount code
(`CompressAmount` and `DecompressAmount` invert each other on amounts below
`2 ^ 60` and codes below `10 ^ 11`) and the script code (`DecompressScript`
inverts `CompressScript` on the three templates, given that public key
decompression inverts compression on fully valid keys) each read back.
-/

namespace Tapyrus

open Lib

/-! ## Amounts -/

/-- What `stripZeros` returns: the value without `j ≤ k` trailing zeros,
and the count raised by `j`; the digit left is nonzero unless all `k`
divisions ran. -/
theorem stripZeros_spec (n e k : Nat) :
    ∃ j m, stripZeros n e k = (m, e + j) ∧ n = m * 10 ^ j ∧ j ≤ k ∧ (j < k → m % 10 ≠ 0) := by
  induction k generalizing n e with
  | zero => exact ⟨0, n, rfl, by simp, le_refl _, fun h => absurd h (Nat.lt_irrefl 0)⟩
  | succ k ih =>
    by_cases h0 : n % 10 = 0
    · obtain ⟨j, m, hrun, hn, hjk, hm⟩ := ih (n / 10) (e + 1)
      refine ⟨j + 1, m, ?_, ?_, by omega, fun hj => hm (by omega)⟩
      · rw [stripZeros, if_pos h0, hrun, Nat.add_assoc, Nat.add_comm 1 j]
      · rw [Nat.pow_succ, ← Nat.mul_assoc, ← hn]
        omega
    · exact ⟨0, n, by rw [stripZeros, if_neg h0, Nat.add_zero], by simp, Nat.zero_le _, fun _ => h0⟩

/-- A value with `j` zeros appended, `j` at most the divisions allowed. -/
theorem stripZeros_mul_pow {m : Nat} (e : Nat) {j k : Nat} (hjk : j ≤ k) (hm : j < k → m % 10 ≠ 0) :
    stripZeros (m * 10 ^ j) e k = (m, e + j) := by
  induction j generalizing e k with
  | zero =>
    cases k with
    | zero => rw [Nat.pow_zero, Nat.mul_one, Nat.add_zero, stripZeros]
    | succ k =>
      rw [Nat.pow_zero, Nat.mul_one, stripZeros, if_neg (hm (Nat.succ_pos k))]
      rfl
  | succ j ih =>
    obtain ⟨k, rfl⟩ : ∃ k', k = k' + 1 := ⟨k - 1, by omega⟩
    have h0 : m * 10 ^ (j + 1) % 10 = 0 := by rw [Nat.pow_succ, ← Nat.mul_assoc]; exact Nat.mul_mod_left _ _
    have hdiv : m * 10 ^ (j + 1) / 10 = m * 10 ^ j := by
      rw [Nat.pow_succ, ← Nat.mul_assoc]
      exact Nat.mul_div_cancel _ (by norm_num)
    rw [stripZeros, if_pos h0, hdiv, ih (e + 1) (by omega) (fun h => hm (by omega))]
    congr 1
    omega

/-- `CompressAmount` of a nonzero amount, from what `stripZeros` left. -/
theorem CompressAmount_of_stripZeros {n m j : Nat} (hn : n ≠ 0) (hrun : stripZeros n 0 9 = (m, j)) :
    CompressAmount n = if j < 9 then (1 + (m / 10 * 9 + m % 10 - 1) * 10 + j) % 2 ^ 64
      else (1 + (m - 1) * 10 + 9) % 2 ^ 64 := by
  rw [CompressAmount, if_neg hn, hrun]

/-- A code is a `uint64_t`. -/
theorem CompressAmount_lt (n : Nat) : CompressAmount n < 2 ^ 64 := by
  by_cases h0 : n = 0
  · subst h0; norm_num [CompressAmount]
  rcases hrun : stripZeros n 0 9 with ⟨m, j⟩
  rw [CompressAmount_of_stripZeros h0 hrun]
  split_ifs <;> exact Nat.mod_lt _ (by norm_num)

/-- `DecompressAmount` of a nonzero code `1 + 10 * y + e`. -/
theorem DecompressAmount_code (y e : Nat) (he : e < 10) :
    DecompressAmount (1 + 10 * y + e) = (if e < 9 then y / 9 * 10 + (y % 9 + 1) else y + 1) * 10 ^ e % 2 ^ 64 := by
  have hx : (1 + 10 * y + e - 1) % 10 = e := by omega
  have hy : (1 + 10 * y + e - 1) / 10 = y := by omega
  rw [DecompressAmount, if_neg (by omega)]
  simp only [hx, hy]

/-- The amount codes invert: every amount below `2 ^ 60` decompresses back
from its code. -/
theorem DecompressAmount_CompressAmount {n : Nat} (hn : n < 2 ^ 60) : DecompressAmount (CompressAmount n) = n := by
  by_cases h0 : n = 0
  · subst h0; rfl
  obtain ⟨j, m, hrun, rfl, hj, hm⟩ := stripZeros_spec n 0 9
  rw [Nat.zero_add] at hrun
  have hm0 : m ≠ 0 := by rintro rfl; simp at h0
  have hmn : m ≤ m * 10 ^ j := Nat.le_mul_of_pos_right m (by positivity)
  rw [CompressAmount_of_stripZeros h0 hrun]
  split_ifs with hj9
  · -- a last nonzero digit `d = m % 10` and the digits above it
    have hd := hm hj9
    have hcode : (1 + (m / 10 * 9 + m % 10 - 1) * 10 + j) % 2 ^ 64 = 1 + 10 * (m / 10 * 9 + m % 10 - 1) + j := by
      omega
    rw [hcode, DecompressAmount_code _ _ (by omega), if_pos hj9]
    have hback : (m / 10 * 9 + m % 10 - 1) / 9 * 10 + ((m / 10 * 9 + m % 10 - 1) % 9 + 1) = m := by omega
    rw [hback, Nat.mod_eq_of_lt (by omega)]
  · -- nine zeros stripped: the quotient is stored whole
    have hj : j = 9 := by omega
    subst hj
    have hcode : (1 + (m - 1) * 10 + 9) % 2 ^ 64 = 1 + 10 * (m - 1) + 9 := by omega
    rw [hcode, DecompressAmount_code _ _ (by omega), if_neg (by omega), Nat.sub_add_cancel (by omega),
      Nat.mod_eq_of_lt (by omega)]

/-- And the other way: every code below `10 ^ 11` is the code of its amount. -/
theorem CompressAmount_DecompressAmount {x : Nat} (hx : x < 10 ^ 11) : CompressAmount (DecompressAmount x) = x := by
  by_cases h0 : x = 0
  · subst h0; rfl
  obtain ⟨y, e, he, rfl⟩ : ∃ y e, e < 10 ∧ x = 1 + 10 * y + e :=
    ⟨(x - 1) / 10, (x - 1) % 10, by omega, by omega⟩
  rw [DecompressAmount_code y e he]
  have hpow : 10 ^ e ≤ 10 ^ 9 := Nat.pow_le_pow_right (by norm_num) (by omega)
  split_ifs with he9
  · -- the amount is `n * 10 ^ e` with last digit `y % 9 + 1`
    obtain ⟨n, hn⟩ : ∃ n, n = y / 9 * 10 + (y % 9 + 1) := ⟨_, rfl⟩
    rw [← hn]
    have hbound : n * 10 ^ e < 2 ^ 64 :=
      calc n * 10 ^ e ≤ n * 10 ^ 9 := Nat.mul_le_mul_left n hpow
        _ < 2 ^ 64 := by omega
    have hpos : n * 10 ^ e ≠ 0 := Nat.mul_ne_zero (by omega) (by positivity)
    rw [Nat.mod_eq_of_lt hbound,
      CompressAmount_of_stripZeros hpos (stripZeros_mul_pow 0 (by omega) (fun _ => by omega)), Nat.zero_add, if_pos he9]
    -- the digits of `n` are the quotient and remainder of `y` by 9
    have hdiv : n / 10 = y / 9 := by omega
    have hmod : n % 10 = y % 9 + 1 := by omega
    have hy : y / 9 * 9 + (y % 9 + 1) - 1 = y := by omega
    rw [hdiv, hmod, hy, Nat.mod_eq_of_lt (by omega)]
    omega
  · -- `e = 9`: the amount is `(y + 1) * 10 ^ 9`
    have he : e = 9 := by omega
    subst he
    have hbound : (y + 1) * 10 ^ 9 < 2 ^ 64 := by omega
    have hpos : (y + 1) * 10 ^ 9 ≠ 0 := by positivity
    rw [Nat.mod_eq_of_lt hbound,
      CompressAmount_of_stripZeros hpos (stripZeros_mul_pow 0 (le_refl 9) (fun h => absurd h (Nat.lt_irrefl 9))),
      Nat.zero_add, if_neg (Nat.lt_irrefl 9)]
    omega

/-! ## Scripts -/

/-- A list whose length and first and last entries are known is those
entries around the `k` bytes between them. -/
theorem eq_frame {l p s : List UInt8} {k : Nat} (hlen : l.length = p.length + k + s.length)
    (hp : ∀ i < p.length, l[i]? = p[i]?) (hs : ∀ i < s.length, l[p.length + k + i]? = s[i]?) :
    l = p ++ (l.drop p.length).take k ++ s := by
  apply List.ext_getElem?
  intro i
  have hmid : ((l.drop p.length).take k).length = k := by simp; omega
  rcases Nat.lt_or_ge i p.length with h1 | h1
  · rw [hp i h1, List.append_assoc, List.getElem?_append_left h1]
  rcases Nat.lt_or_ge i (p.length + k) with h2 | h2
  · -- between the two frames
    rw [List.getElem?_append_left (by simp only [List.length_append, hmid]; omega), List.getElem?_append_right h1,
      List.getElem?_take, if_pos (by omega), List.getElem?_drop, Nat.add_sub_cancel' h1]
  rcases Nat.lt_or_ge i (p.length + k + s.length) with h3 | h3
  · have := hs (i - (p.length + k)) (by omega)
    rw [Nat.add_sub_cancel' h2] at this
    rw [this, List.getElem?_append_right (by simp only [List.length_append, hmid]; omega), List.length_append, hmid]
  · rw [List.getElem?_eq_none (by omega), List.getElem?_eq_none (by simp only [List.length_append, hmid]; omega)]

theorem IsToKeyID_eq_some {script hash : List UInt8} (h : IsToKeyID script = some hash) :
    hash.length = 20 ∧ script = [OP_DUP, OP_HASH160, 20] ++ hash ++ [OP_EQUALVERIFY, OP_CHECKSIG] := by
  unfold IsToKeyID at h
  split_ifs at h with hc
  simp only [Bool.and_eq_true, beq_iff_eq] at hc
  obtain ⟨⟨⟨⟨⟨hlen, h0⟩, h1⟩, h2⟩, h23⟩, h24⟩ := hc
  cases h
  refine ⟨by simp [hlen], eq_frame (by simp [hlen]) ?_ ?_⟩
  · intro i hi
    simp only [List.length_cons, List.length_nil] at hi
    interval_cases i <;> assumption
  · intro i hi
    simp only [List.length_cons, List.length_nil] at hi
    interval_cases i <;> assumption

theorem IsToScriptID_eq_some {script hash : List UInt8} (h : IsToScriptID script = some hash) :
    hash.length = 20 ∧ script = [OP_HASH160, 20] ++ hash ++ [OP_EQUAL] := by
  unfold IsToScriptID at h
  split_ifs at h with hc
  simp only [Bool.and_eq_true, beq_iff_eq] at hc
  obtain ⟨⟨⟨hlen, h0⟩, h1⟩, h22⟩ := hc
  cases h
  refine ⟨by simp [hlen], eq_frame (by simp [hlen]) ?_ ?_⟩
  · intro i hi
    simp only [List.length_cons, List.length_nil] at hi
    interval_cases i <;> assumption
  · intro i hi
    simp only [List.length_cons, List.length_nil] at hi
    interval_cases i
    exact h22

/-! The templates `GetScriptForDestination` writes are recognised, with
their hash. -/

theorem IsToKeyID_keyID (id : uint160) : IsToKeyID (GetScriptForDestination (.keyID id)) = some id.bytes := by
  have hlen := id.length_eq
  rw [GetScriptForDestination_keyID, IsToKeyID]
  simp [hlen]

theorem IsToKeyID_scriptID (id : uint160) : IsToKeyID (GetScriptForDestination (.scriptID id)) = none := by
  have hlen := id.length_eq
  rw [GetScriptForDestination_scriptID, IsToKeyID]
  simp [hlen]

theorem IsToScriptID_scriptID (id : uint160) :
    IsToScriptID (GetScriptForDestination (.scriptID id)) = some id.bytes := by
  have hlen := id.length_eq
  rw [GetScriptForDestination_scriptID, IsToScriptID]
  simp [hlen]

/-- The first byte of the bytes after the first. -/
theorem getElem?_zero_drop_take {l : List UInt8} {k : Nat} (hk : 0 < k) : ((l.drop 1).take k)[0]? = l[1]? := by
  rw [List.getElem?_take, if_pos hk, List.getElem?_drop]

section Compress

variable {IsFullyValid : List UInt8 → Bool}

/-- A pay-to-pubkey script is its key between the push and `OP_CHECKSIG`:
a compressed key of 33 bytes, prefix 2 or 3, or a fully valid
uncompressed key of 65 bytes, prefix 4. -/
theorem IsToPubKey_eq_some {script pubkey : List UInt8} (h : IsToPubKey IsFullyValid script = some pubkey) :
    (pubkey.length = 33 ∧ (pubkey[0]? = some 0x02 ∨ pubkey[0]? = some 0x03) ∧
      script = [33] ++ pubkey ++ [OP_CHECKSIG]) ∨
    (pubkey.length = 65 ∧ pubkey[0]? = some 0x04 ∧ IsFullyValid pubkey = true ∧
      script = [65] ++ pubkey ++ [OP_CHECKSIG]) := by
  unfold IsToPubKey at h
  dsimp only at h
  split_ifs at h with hc hu hv
  · simp only [Bool.and_eq_true, Bool.or_eq_true, beq_iff_eq] at hc
    obtain ⟨⟨⟨hlen, h0⟩, h34⟩, h1⟩ := hc
    cases h
    refine .inl ⟨by simp [hlen], by rwa [getElem?_zero_drop_take (by norm_num)], eq_frame (by simp [hlen]) ?_ ?_⟩
    · intro i hi
      simp only [List.length_cons, List.length_nil] at hi
      interval_cases i
      exact h0
    · intro i hi
      simp only [List.length_cons, List.length_nil] at hi
      interval_cases i
      exact h34
  · simp only [Bool.and_eq_true, beq_iff_eq] at hu
    obtain ⟨⟨⟨hlen, h0⟩, h66⟩, h1⟩ := hu
    cases h
    refine .inr ⟨by simp [hlen], by rwa [getElem?_zero_drop_take (by norm_num)], hv,
      eq_frame (by simp [hlen]) ?_ ?_⟩
    · intro i hi
      simp only [List.length_cons, List.length_nil] at hi
      interval_cases i
      exact h0
    · intro i hi
      simp only [List.length_cons, List.length_nil] at hi
      interval_cases i
      exact h66

/-! `CompressScript` compresses each template: a hash to its code (0 or 1)
and the hash, a compressed key to itself, a fully valid uncompressed key to
the parity of `y` (code 4 or 5) and `x`. -/

theorem CompressScript_keyID (id : uint160) :
    CompressScript IsFullyValid (GetScriptForDestination (.keyID id)) = some (0x00 :: id.bytes) := by
  rw [CompressScript, IsToKeyID_keyID]

theorem CompressScript_scriptID (id : uint160) :
    CompressScript IsFullyValid (GetScriptForDestination (.scriptID id)) = some (0x01 :: id.bytes) := by
  rw [CompressScript, IsToKeyID_scriptID, IsToScriptID_scriptID]

theorem CompressScript_pubkey {pubkey : List UInt8} (hlen : pubkey.length = 33)
    (hc : pubkey[0]? = some 0x02 ∨ pubkey[0]? = some 0x03) :
    CompressScript IsFullyValid ([33] ++ pubkey ++ [OP_CHECKSIG]) = some pubkey := by
  obtain ⟨c, rest, rfl⟩ := List.exists_cons_of_length_eq_add_one hlen
  have hrest : rest.length = 32 := by simpa using hlen
  simp only [List.getElem?_cons_zero, Option.some.injEq] at hc
  rw [CompressScript, IsToKeyID, IsToScriptID, IsToPubKey]
  rcases hc with rfl | rfl <;> simp [hrest, List.take_of_length_le]

theorem CompressScript_uncompressed {pubkey : List UInt8} (hlen : pubkey.length = 65)
    (hc : pubkey[0]? = some 0x04) (hvalid : IsFullyValid pubkey = true) :
    CompressScript IsFullyValid ([65] ++ pubkey ++ [OP_CHECKSIG]) =
      some ((0x04 ||| (pubkey.getD 64 0 &&& 0x01)) :: (pubkey.drop 1).take 32) := by
  obtain ⟨c, rest, rfl⟩ := List.exists_cons_of_length_eq_add_one hlen
  have hrest : rest.length = 64 := by simpa using hlen
  simp only [List.getElem?_cons_zero, Option.some.injEq] at hc
  subst hc
  rw [CompressScript, IsToKeyID, IsToScriptID, IsToPubKey]
  simp [hrest, hvalid]

/-- The low bit of a byte. -/
theorem and_one_cases (p : UInt8) : p &&& 0x01 = 0 ∨ p &&& 0x01 = 1 := by
  have h : (p &&& 0x01).toNat = p.toNat % 2 := by simp [UInt8.toNat_and, Nat.and_one_is_mod]
  rcases Nat.mod_two_eq_zero_or_one p.toNat with h2 | h2
  · exact .inl (UInt8.toNat_inj.mp (by rw [h, h2]; rfl))
  · exact .inr (UInt8.toNat_inj.mp (by rw [h, h2]; rfl))

variable (IsFullyValid) in
/-- `CPubKey::Decompress` inverts compression on the keys `IsToPubKey`
accepts uncompressed: a fully valid 65-byte key of prefix 4, given as its
parity prefix (2 or 3) and its `x`, decompresses to itself. -/
def DecompressInverts (Decompress : List UInt8 → Option (Blob 65)) : Prop :=
  ∀ pubkey : List UInt8, pubkey.length = 65 → pubkey[0]? = some 0x04 → IsFullyValid pubkey = true →
    (Decompress ((0x02 ||| (pubkey.getD 64 0 &&& 0x01)) :: (pubkey.drop 1).take 32)).map Blob.bytes = some pubkey

variable {Decompress : List UInt8 → Option (Blob 65)}

/-- The code of an uncompressed key, 4 or 5 by the parity of `y`,
decompresses through the key's compressed form. -/
theorem DecompressScript_uncompressed (p : UInt8) (hp : p = 0 ∨ p = 1) (input : List UInt8)
    (hinput : input.length = 32) :
    DecompressScript Decompress (0x04 ||| p).toNat input =
      (Decompress ((0x02 ||| p) :: input)).map fun pubkey => 65 :: pubkey.bytes ++ [OP_CHECKSIG] := by
  have htake := List.take_of_length_le (le_of_eq hinput)
  rcases hp with rfl | rfl
  · simp [DecompressScript, htake]
  · simp [DecompressScript, htake]
    rfl

/-- `DecompressScript` inverts `CompressScript`: a compressed script is a
code below `nSpecialScripts` and the bytes that code reads, which
decompress to the script. -/
theorem DecompressScript_CompressScript (hdec : DecompressInverts IsFullyValid Decompress)
    {script compr : List UInt8} (h : CompressScript IsFullyValid script = some compr) :
    ∃ c input, compr = c :: input ∧ c.toNat < nSpecialScripts ∧ input.length = GetSpecialScriptSize c.toNat ∧
      DecompressScript Decompress c.toNat input = some script := by
  unfold CompressScript at h
  rcases hkey : IsToKeyID script with _ | hash
  · rcases hsh : IsToScriptID script with _ | hash
    · rcases hpk : IsToPubKey IsFullyValid script with _ | pubkey
      · simp [hkey, hsh, hpk] at h
      · simp only [hkey, hsh, hpk] at h
        obtain ⟨c, rest, rfl⟩ := List.exists_cons_of_ne_nil (fun h0 : pubkey = [] => by
          rcases IsToPubKey_eq_some hpk with ⟨hlen, -⟩ | ⟨hlen, -⟩ <;> simp [h0] at hlen)
        rcases IsToPubKey_eq_some hpk with ⟨hlen, hc, rfl⟩ | ⟨hlen, hc, hvalid, rfl⟩
        · -- a compressed key: its prefix is the code
          have hrest : rest.length = 32 := by simp only [List.length_cons] at hlen; omega
          simp only [List.getElem?_cons_zero, Option.some.injEq] at hc
          rw [if_pos (by rcases hc with rfl | rfl <;> rfl)] at h
          cases h
          rw [List.headD_cons, List.drop_one, List.tail_cons, List.take_of_length_le (le_of_eq hrest)]
          refine ⟨c, rest, rfl, by rcases hc with rfl | rfl <;> decide, ?_, ?_⟩
          · rcases hc with rfl | rfl <;> simp [hrest, GetSpecialScriptSize]
          · rcases hc with rfl | rfl <;> simp [DecompressScript, List.take_of_length_le (le_of_eq hrest)]
        · -- an uncompressed key: the code carries the parity of `y`
          have hrest : rest.length = 64 := by simp only [List.length_cons] at hlen; omega
          simp only [List.getElem?_cons_zero, Option.some.injEq] at hc
          subst hc
          rw [if_neg (by simp), if_pos (by simp)] at h
          cases h
          obtain ⟨B, hB, hbytes⟩ := Option.map_eq_some_iff.mp (hdec (4 :: rest) hlen rfl hvalid)
          have hp := and_one_cases ((4 :: rest).getD 64 0)
          have hinput : (((4 :: rest).drop 1).take 32).length = 32 := by simp [hrest]
          refine ⟨_, _, rfl, ?_, ?_, ?_⟩
          · rcases hp with h1 | h1 <;> rw [h1] <;> decide
          · rcases hp with h1 | h1 <;> rw [h1] <;> simp [hrest, GetSpecialScriptSize]
          · rw [DecompressScript_uncompressed _ hp _ hinput, hB, Option.map_some, hbytes]
            rfl
    · -- pay to script hash: code 1
      rw [hkey, hsh] at h
      cases h
      obtain ⟨hlen, rfl⟩ := IsToScriptID_eq_some hsh
      exact ⟨1, hash, rfl, by decide, by simp [hlen, GetSpecialScriptSize],
        by simp [DecompressScript, List.take_of_length_le (le_of_eq hlen)]⟩
  · -- pay to pubkey hash: code 0
    rw [hkey] at h
    cases h
    obtain ⟨hlen, rfl⟩ := IsToKeyID_eq_some hkey
    exact ⟨0, hash, rfl, by decide, by simp [hlen, GetSpecialScriptSize],
      by simp [DecompressScript, List.take_of_length_le (le_of_eq hlen)]⟩

end Compress


/-! ## The record -/

section Record

variable (IsFullyValid : List UInt8 → Bool) (Decompress : List UInt8 → Option (Blob 65))

/-- `Coin::Serialize`: the VarInt of the `uint32_t` `nHeight * 2 + fCoinBase`,
then the output compressed. -/
def Coin.Serialize (coin : Coin) : List UInt8 :=
  WriteVarInt ((coin.nHeight * 2 + if coin.fCoinBase then 1 else 0) % 2 ^ 32) ++
    CTxOutCompressor.serialize IsFullyValid coin.out

/-- `Coin::Unserialize`: the code, split into height and flag, then the
output. -/
def Coin.Unserialize : SerReader Coin := do
  let code ← ReadVarInt 0xffffffff
  let nHeight := code / 2
  let fCoinBase := code % 2 == 1
  let out ← CTxOutCompressor.unserialize Decompress
  pure ⟨out, fCoinBase, nHeight⟩

end Record

section Decodes

variable {IsFullyValid : List UInt8 → Bool} {Decompress : List UInt8 → Option (Blob 65)}

/-- A script up to `MAX_SCRIPT_SIZE` reads back: a template through its
code, any other script through its length. -/
theorem CScriptCompressor.unserialize_decodes (hdec : DecompressInverts IsFullyValid Decompress) {script : CScript}
    (hsize : script.length ≤ MAX_SCRIPT_SIZE) :
    Decodes (CScriptCompressor.unserialize Decompress) (CScriptCompressor.serialize IsFullyValid) script := by
  intro rest
  unfold CScriptCompressor.serialize
  rcases hc : CompressScript IsFullyValid script with _ | compr
  · -- any other script: its length plus `nSpecialScripts`, then its bytes
    have hbig : ¬ script.length + nSpecialScripts < nSpecialScripts := by omega
    have hfit : ¬ script.length + nSpecialScripts - nSpecialScripts > MAX_SCRIPT_SIZE := by omega
    have hcode : script.length + nSpecialScripts ≤ 0xffffffff := by unfold MAX_SCRIPT_SIZE nSpecialScripts at *; omega
    rw [List.append_assoc, CScriptCompressor.unserialize, (ReadVarInt_decodes hcode).bind,
      if_neg hbig, if_neg hfit, Nat.add_sub_cancel, readBytes_append]
  · -- a template: its code is a one-byte VarInt, then the bytes the code reads
    obtain ⟨c, input, rfl, hc6, hlen, hdecomp⟩ := DecompressScript_CompressScript hdec hc
    rw [List.cons_append, CScriptCompressor.unserialize,
      Reader.run_bind_of_ok (ReadVarInt_one _ c _ (by unfold nSpecialScripts at hc6; omega)), if_pos hc6, ← hlen,
      Reader.run_bind_of_ok (readBytes_append _ _ _), hdecomp]
    rfl

/-- An output of an amount in `[0, MAX_MONEY]` and a script up to
`MAX_SCRIPT_SIZE` reads back. -/
theorem CTxOutCompressor.unserialize_decodes (hdec : DecompressInverts IsFullyValid Decompress) {txout : CTxOut}
    (hvalue : 0 ≤ txout.nValue ∧ txout.nValue ≤ MAX_MONEY)
    (hsize : txout.scriptPubKey.length ≤ MAX_SCRIPT_SIZE) :
    Decodes (CTxOutCompressor.unserialize Decompress) (CTxOutCompressor.serialize IsFullyValid) txout := by
  intro rest
  obtain ⟨nValue, scriptPubKey⟩ := txout
  dsimp only at hvalue hsize ⊢
  obtain ⟨n, rfl⟩ : ∃ n : Nat, nValue = n := ⟨nValue.toNat, by omega⟩
  have hmax : n < 2 ^ 60 := by unfold MAX_MONEY COIN at hvalue; omega
  have hmod : ((n : Int) % 2 ^ 64).toNat = n := by omega
  have hcode : CompressAmount n ≤ 0xffffffffffffffff := Nat.le_pred_of_lt (CompressAmount_lt n)
  rw [CTxOutCompressor.serialize, hmod, List.append_assoc, CTxOutCompressor.unserialize,
    (ReadVarInt_decodes hcode).bind, (CScriptCompressor.unserialize_decodes hdec hsize).bind, Reader.run_pure,
    DecompressAmount_CompressAmount hmax]
  have hint : toInt64 n = n := by unfold toInt64; rw [if_pos (by omega)]
  rw [hint]

/-- A coin of the UTXO set reads back: height below `2 ^ 31`, amount in
`[0, MAX_MONEY]`, script up to `MAX_SCRIPT_SIZE`. -/
theorem Coin.Unserialize_decodes (hdec : DecompressInverts IsFullyValid Decompress) {coin : Coin}
    (hheight : coin.nHeight < 2 ^ 31) (hvalue : 0 ≤ coin.out.nValue ∧ coin.out.nValue ≤ MAX_MONEY)
    (hsize : coin.out.scriptPubKey.length ≤ MAX_SCRIPT_SIZE) :
    Decodes (Coin.Unserialize Decompress) (Coin.Serialize IsFullyValid) coin := by
  intro rest
  obtain ⟨out, fCoinBase, nHeight⟩ := coin
  dsimp only at hheight hvalue hsize
  have hflag : (if fCoinBase then 1 else 0) < 2 := by split <;> omega
  have hcode : (nHeight * 2 + if fCoinBase then 1 else 0) % 2 ^ 32 = nHeight * 2 + if fCoinBase then 1 else 0 :=
    Nat.mod_eq_of_lt (by omega)
  rw [Coin.Serialize, hcode, List.append_assoc, Coin.Unserialize, (ReadVarInt_decodes (by omega)).bind]
  dsimp only
  rw [(CTxOutCompressor.unserialize_decodes hdec hvalue hsize).bind, Reader.run_pure]
  -- the height and the flag come back from the code
  have hh : (nHeight * 2 + if fCoinBase then 1 else 0) / 2 = nHeight := by omega
  have hf : ((nHeight * 2 + if fCoinBase then 1 else 0) % 2 == 1) = fCoinBase := by cases fCoinBase <;> simp
  rw [hh, hf]

/-- The UTXO record and its parts read back: every coin the set can hold,
every amount up to `MAX_MONEY`, every code up to that of `MAX_MONEY`, and
every script `CompressScript` compresses, which the pay-to-pubkey-hash,
pay-to-script-hash and pay-to-pubkey templates all are. -/
theorem Coin.Serialize_roundtrip (hdec : DecompressInverts IsFullyValid Decompress) :
    (∀ coin : Coin, coin.nHeight < 2 ^ 31 → 0 ≤ coin.out.nValue ∧ coin.out.nValue ≤ MAX_MONEY →
      coin.out.scriptPubKey.length ≤ MAX_SCRIPT_SIZE →
      Decodes (Coin.Unserialize Decompress) (Coin.Serialize IsFullyValid) coin) ∧
    (∀ n : Nat, (n : Int) ≤ MAX_MONEY → DecompressAmount (CompressAmount n) = n) ∧
    (∀ x : Nat, x ≤ CompressAmount MAX_MONEY.toNat → CompressAmount (DecompressAmount x) = x) ∧
    (∀ script compr, CompressScript IsFullyValid script = some compr →
      ∃ c input, compr = c :: input ∧ c.toNat < nSpecialScripts ∧ input.length = GetSpecialScriptSize c.toNat ∧
        DecompressScript Decompress c.toNat input = some script) ∧
    (∀ id : uint160, CompressScript IsFullyValid (GetScriptForDestination (.keyID id)) = some (0x00 :: id.bytes)) ∧
    (∀ id : uint160, CompressScript IsFullyValid (GetScriptForDestination (.scriptID id)) = some (0x01 :: id.bytes)) ∧
    (∀ pubkey : List UInt8, pubkey.length = 33 → (pubkey[0]? = some 0x02 ∨ pubkey[0]? = some 0x03) →
      CompressScript IsFullyValid ([33] ++ pubkey ++ [OP_CHECKSIG]) = some pubkey) ∧
    (∀ pubkey : List UInt8, pubkey.length = 65 → pubkey[0]? = some 0x04 → IsFullyValid pubkey = true →
      CompressScript IsFullyValid ([65] ++ pubkey ++ [OP_CHECKSIG]) =
        some ((0x04 ||| (pubkey.getD 64 0 &&& 0x01)) :: (pubkey.drop 1).take 32)) := by
  have hcode : CompressAmount MAX_MONEY.toNat = 21000000 := by decide
  refine ⟨fun coin hheight hvalue hsize => Coin.Unserialize_decodes hdec hheight hvalue hsize, ?_, ?_,
    fun script compr h => DecompressScript_CompressScript hdec h, CompressScript_keyID, CompressScript_scriptID,
    fun _ hlen hc => CompressScript_pubkey hlen hc, fun _ hlen hc hvalid => CompressScript_uncompressed hlen hc hvalid⟩
  · intro n hn
    exact DecompressAmount_CompressAmount (by unfold MAX_MONEY COIN at hn; omega)
  · intro x hx
    exact CompressAmount_DecompressAmount (by omega)

/-- A coinbase coin of 50 coins at height 1, read back with any
decompression, as no key is fully valid. -/
theorem Coin.Serialize_roundtrip_coinbase :
    DecompressInverts (fun _ => false) (fun _ => none) ∧
    Decodes (Coin.Unserialize (fun _ => none)) (Coin.Serialize (fun _ => false))
      ⟨⟨50 * COIN, [OP_1]⟩, true, 1⟩ :=
  have hdec : DecompressInverts (fun _ => false) (fun _ => none) := fun _ _ _ h => absurd h Bool.false_ne_true
  ⟨hdec, (Coin.Serialize_roundtrip hdec).1 _ (by decide) (by decide) (by decide)⟩

end Decodes

end Tapyrus
