import Mathlib.Data.List.Basic
/-!
# Buffers

A block of memory holding elements of `α`, as the function from offsets to
elements. Only a prefix of a buffer is in use; the rest holds whatever was
there before, and the lemmas below never depend on it. The operations are
the C library's block copies (`memcpy`, `memmove`), `std::fill_n`, and the
copy of an input range into place (`fill`); `read b n` is the sequence of
the first `n` elements.

Each lemma says what an operation leaves for a later `read`, in terms of
the sequence read before it:

* `read_memcpy`: a copy of the first `n` elements reads back as the source;
* `read_fill_n_end`, `read_update_end`: elements written just past the end;
* `read_insert`, `read_insert_n`, `read_insert_one`: a tail moved up, and a gap filled;
* `read_erase`: a tail moved down over a gap;
* `read_update`: one element overwritten;
* `read_take`: a shorter prefix.

Each is proved by comparing the two sequences index by index (`read_eq`).
-/

namespace Tapyrus.Lib.Buffer

variable {α : Type}

/-- The first `n` elements of the buffer. -/
def read (b : Nat → α) (n : Nat) : List α := (List.range n).map b

/-- `memcpy(dst, src, n)`: the first `n` elements of `src` over those of `dst`. -/
def memcpy (dst src : Nat → α) (n : Nat) : Nat → α :=
  fun i => if i < n then src i else dst i

/-- `memmove(b + dst, b + src, n)` within one buffer: the `n` elements at
`src` are copied to `dst`, as if through a temporary, so the two ranges may
overlap. -/
def memmove (b : Nat → α) (dst src n : Nat) : Nat → α :=
  fun i => if dst ≤ i ∧ i < dst + n then b (src + (i - dst)) else b i

/-- `std::fill_n(b + dst, count, value)`. -/
def fill_n (b : Nat → α) (dst count : Nat) (value : α) : Nat → α :=
  fun i => if dst ≤ i ∧ i < dst + count then value else b i

/-- The elements of an input range constructed in place from `b + dst` on. -/
def fill (b : Nat → α) (dst : Nat) (l : List α) : Nat → α :=
  fun i => if h : dst ≤ i ∧ i < dst + l.length then l[i - dst] else b i

@[simp] theorem length_read (b : Nat → α) (n : Nat) : (read b n).length = n := by
  simp [read]

@[simp] theorem getElem_read (b : Nat → α) (n i : Nat) (h : i < (read b n).length) : (read b n)[i] = b i := by
  simp [read]

@[simp] theorem read_zero (b : Nat → α) : read b 0 = [] := rfl

/-- The rule every lemma below is proved by: a buffer reads back as a list
when it has the list's elements at the list's indices. -/
theorem read_eq {b : Nat → α} {n : Nat} {l : List α} (hlen : n = l.length)
    (h : ∀ i (hi : i < l.length), b i = l[i]) : read b n = l := by
  apply List.ext_getElem (by simpa using hlen)
  intro i h₁ h₂
  rw [getElem_read]
  exact h i h₂

theorem read_congr {b b' : Nat → α} {n : Nat} (h : ∀ i, i < n → b i = b' i) : read b n = read b' n := by
  apply read_eq (length_read b' n).symm
  intro i hi
  rw [getElem_read]
  exact h i (by simpa using hi)

theorem read_take (b : Nat → α) {m n : Nat} (h : m ≤ n) : read b m = (read b n).take m := by
  apply read_eq (by simp [h])
  intro i hi
  simp

theorem read_memcpy (dst src : Nat → α) (n : Nat) : read (memcpy dst src n) n = read src n :=
  read_congr fun _ hi => if_pos hi

/-- What `fill_n` writes just past the elements in use. -/
theorem read_fill_n_end (b : Nat → α) (s k : Nat) (value : α) :
    read (fill_n b s k value) (s + k) = read b s ++ List.replicate k value := by
  apply read_eq (by simp)
  intro i hi
  simp only [List.length_append, length_read, List.length_replicate] at hi
  simp only [fill_n, List.getElem_append, length_read, getElem_read, List.getElem_replicate]
  split_ifs <;> first | rfl | omega

theorem read_update_end (b : Nat → α) (s : Nat) (value : α) :
    read (Function.update b s value) (s + 1) = read b s ++ [value] := by
  apply read_eq (by simp)
  intro i hi
  simp only [List.length_append, length_read, List.length_singleton] at hi
  simp only [Function.update, eq_rec_constant, dite_eq_ite, List.getElem_append, length_read, getElem_read,
    List.getElem_singleton]
  split_ifs <;> first | rfl | omega

theorem read_update (b : Nat → α) {n i : Nat} (value : α) :
    read (Function.update b i value) n = (read b n).set i value := by
  apply read_eq (by simp)
  intro j hj
  simp only [Function.update, eq_rec_constant, dite_eq_ite, List.getElem_set, getElem_read]
  split_ifs <;> first | rfl | omega

/-- The tail from `p` moved up by the length of `l`, and `l` written into the
gap: `l` inserted at `p`. -/
theorem read_insert (b : Nat → α) {p s : Nat} (hp : p ≤ s) (l : List α) :
    read (fill (memmove b (p + l.length) p (s - p)) p l) (s + l.length) =
      (read b s).take p ++ l ++ (read b s).drop p := by
  apply read_eq (by simp; omega)
  intro i hi
  simp only [List.length_append, List.length_take, List.length_drop, length_read] at hi
  simp only [fill, memmove, List.getElem_append, List.length_append, List.length_take, length_read,
    List.getElem_take, List.getElem_drop, getElem_read]
  split_ifs <;> first | rfl | (congr 1; omega)

theorem fill_replicate (b : Nat → α) (dst count : Nat) (value : α) :
    fill b dst (List.replicate count value) = fill_n b dst count value := by
  funext i
  simp only [fill, fill_n, List.length_replicate, List.getElem_replicate]
  split_ifs <;> rfl

theorem fill_singleton (b : Nat → α) (dst : Nat) (value : α) : fill b dst [value] = Function.update b dst value := by
  funext i
  simp only [fill, Function.update, eq_rec_constant, dite_eq_ite, List.length_singleton, List.getElem_singleton]
  split_ifs <;> first | rfl | omega

theorem read_insert_n (b : Nat → α) {p s : Nat} (hp : p ≤ s) (count : Nat) (value : α) :
    read (fill_n (memmove b (p + count) p (s - p)) p count value) (s + count) =
      (read b s).take p ++ List.replicate count value ++ (read b s).drop p := by
  have h := read_insert b hp (List.replicate count value)
  rwa [List.length_replicate, fill_replicate] at h

theorem read_insert_one (b : Nat → α) {p s : Nat} (hp : p ≤ s) (value : α) :
    read (Function.update (memmove b (p + 1) p (s - p)) p value) (s + 1) =
      (read b s).take p ++ value :: (read b s).drop p := by
  have h := read_insert b hp [value]
  rwa [List.length_singleton, fill_singleton, List.append_assoc, List.singleton_append] at h

/-- The tail from `last` moved down to `first`: the elements between them
are gone. -/
theorem read_erase (b : Nat → α) {first last s : Nat} (h₁ : first ≤ last) (h₂ : last ≤ s) :
    read (memmove b first last (s - last)) (s - (last - first)) = (read b s).take first ++ (read b s).drop last := by
  apply read_eq (by simp; omega)
  intro i hi
  simp only [List.length_append, List.length_take, List.length_drop, length_read] at hi
  simp only [memmove, List.getElem_append, List.length_take, length_read, List.getElem_take, List.getElem_drop,
    getElem_read]
  split_ifs <;> first | rfl | (congr 1; omega)

theorem read_fill (b : Nat → α) (l : List α) : read (fill b 0 l) l.length = l := by
  apply read_eq rfl
  intro i hi
  simp [fill, hi]

end Tapyrus.Lib.Buffer
