import Tapyrus.Lib.Buffer
/-!
# prevector

`prevector.h`: the vector that scripts are kept in (`CScript` is a
`prevector<28, unsigned char>`). Up to `N` elements live in the object
itself; more live in a heap buffer. `_union` holds either the inline array
or the heap buffer's pointer and capacity, and `_size` says which: the
number of elements while it is at most `N`, that number plus `N + 1` while
the elements are on the heap.

The memory is modelled by `Tapyrus.Lib.Buffer`: a buffer is the function from
offsets to elements, and the methods move and fill it as the source does with
`memcpy`, `memmove`, `std::fill_n` and construction in place. Both halves of
the union are kept as fields; only the one `_size` selects is read. What a
fresh `malloc` holds is taken to be whatever the heap field held before:
nothing reads past the elements in use, so the choice does not matter.

`size_type` is `uint32_t`; it is modelled by `Nat`, so a prevector of more
than `2^32 - N - 2` elements, where `_size` would wrap, is out of the model.
Allocation failure (the code asserts it does not happen) is not modelled.

The abstraction is `toList`, the elements in order. Each method refines the
`std::vector` operation of the same name on `toList` and keeps `Inv`: the
buffer in use holds the elements and a heap buffer is larger than the inline
array. `prevector_tester` runs a sequence of those operations on two
prevectors and two `std::vector`s side by side, as the unit test does;
`pre_run_refines` carries the agreement over a whole run.
-/

namespace Tapyrus

open Lib.Buffer

/-- The heap half of `_union`. -/
structure indirect_contents (T : Type) where
  capacity : Nat
  indirect : Nat → T

/-- `prevector<N, T>`: the inline array, the heap buffer and its capacity,
and `_size`. -/
structure prevector (N : Nat) (T : Type) where
  direct : Nat → T
  indirect_contents : indirect_contents T
  _size : Nat

namespace prevector

variable {N : Nat} {T : Type}

def is_direct (v : prevector N T) : Bool := decide (v._size ≤ N)

def size (v : prevector N T) : Nat := if v.is_direct then v._size else v._size - N - 1

def capacity (v : prevector N T) : Nat := if v.is_direct then N else v.indirect_contents.capacity

/-- The buffer `item_ptr` points into. -/
def items (v : prevector N T) : Nat → T := if v.is_direct then v.direct else v.indirect_contents.indirect

/-- A write through `item_ptr`: into the buffer that holds the elements. -/
def set_items (v : prevector N T) (b : Nat → T) : prevector N T :=
  if v.is_direct then { v with direct := b }
  else { v with indirect_contents := { v.indirect_contents with indirect := b } }

/-- `_size += k`. -/
def add_size (v : prevector N T) (k : Nat) : prevector N T := { v with _size := v._size + k }

/-- `_size -= k`. -/
def sub_size (v : prevector N T) (k : Nat) : prevector N T := { v with _size := v._size - k }

/-- The elements, in order: what `begin()` to `end()` walks over. -/
def toList (v : prevector N T) : List T := read v.items v.size

/-- Move the elements into a buffer that holds `new_capacity` of them: the
inline array when it fits, else the heap. -/
def change_capacity (v : prevector N T) (new_capacity : Nat) : prevector N T :=
  if new_capacity ≤ N then
    if !v.is_direct then
      -- the elements are copied into the inline array and the heap buffer freed
      { v with direct := memcpy v.direct v.indirect_contents.indirect v.size, _size := v._size - (N + 1) }
    else v
  else if !v.is_direct then
    -- realloc keeps the elements
    { v with indirect_contents := { v.indirect_contents with capacity := new_capacity } }
  else
    { v with
      indirect_contents := ⟨new_capacity, memcpy v.indirect_contents.indirect v.direct v.size⟩
      _size := v._size + (N + 1) }

/-- `erase(first, last)`: the tail moved down over the erased elements. The
capacity stays, so a heap prevector stays on the heap however few elements
are left. -/
def erase (v : prevector N T) (first last : Nat) : prevector N T :=
  (v.set_items (memmove v.items first last (v.size - last))).sub_size (last - first)

/-- `erase(pos)`. -/
def erase_one (v : prevector N T) (pos : Nat) : prevector N T := v.erase pos (pos + 1)

def pop_back (v : prevector N T) : prevector N T := v.erase (v.size - 1) v.size

/-- `operator[](pos) = value`. -/
def update (v : prevector N T) (pos : Nat) (value : T) : prevector N T :=
  v.set_items (Function.update v.items pos value)

/-- `insert(pos, value)`: a full buffer grows by half the new size. -/
def insert (v : prevector N T) (p : Nat) (value : T) : prevector N T :=
  let new_size := v.size + 1
  let v := if v.capacity < new_size then v.change_capacity (new_size + (new_size >>> 1)) else v
  let b := memmove v.items (p + 1) p (v.size - p)
  (v.set_items (Function.update b p value)).add_size 1

/-- `insert(pos, count, value)`. -/
def insert_n (v : prevector N T) (p count : Nat) (value : T) : prevector N T :=
  let new_size := v.size + count
  let v := if v.capacity < new_size then v.change_capacity (new_size + (new_size >>> 1)) else v
  let v := (v.set_items (memmove v.items (p + count) p (v.size - p))).add_size count
  v.set_items (fill_n v.items p count value)

/-- `insert(pos, first, last)`. -/
def insert_range (v : prevector N T) (p : Nat) (l : List T) : prevector N T :=
  let count := l.length
  let new_size := v.size + count
  let v := if v.capacity < new_size then v.change_capacity (new_size + (new_size >>> 1)) else v
  let b := fill (memmove v.items (p + count) p (v.size - p)) p l
  (v.set_items b).add_size count

/-- `emplace_back(value)`, which `push_back` calls. -/
def emplace_back (v : prevector N T) (value : T) : prevector N T :=
  let new_size := v.size + 1
  let v := if v.capacity < new_size then v.change_capacity (new_size + (new_size >>> 1)) else v
  (v.set_items (Function.update v.items v.size value)).add_size 1

def push_back (v : prevector N T) (value : T) : prevector N T := v.emplace_back value

def reserve (v : prevector N T) (new_capacity : Nat) : prevector N T :=
  if new_capacity > v.capacity then v.change_capacity new_capacity else v

def shrink_to_fit (v : prevector N T) : prevector N T := v.change_capacity v.size

/-- `swap(other)`: the two objects exchange `_union` and `_size`, that is,
everything. The pair is the new `*this` and the new `other`. -/
def swap (v other : prevector N T) : prevector N T × prevector N T := (other, v)

/-- `operator=(prevector&&)`, which is `swap`. -/
def move_assign (v other : prevector N T) : prevector N T × prevector N T := v.swap other

section Default

variable [Inhabited T]

/-- `resize(new_size)`: erase the tail, or fill the new elements with `T{}`. -/
def resize (v : prevector N T) (new_size : Nat) : prevector N T :=
  let cur_size := v.size
  if cur_size = new_size then v
  else if cur_size > new_size then v.erase new_size cur_size
  else
    let v := if new_size > v.capacity then v.change_capacity new_size else v
    let increase := new_size - cur_size
    (v.set_items (fill_n v.items cur_size increase default)).add_size increase

def clear (v : prevector N T) : prevector N T := v.resize 0

/-- `assign(n, val)`. -/
def assign (v : prevector N T) (n : Nat) (val : T) : prevector N T :=
  let v := v.clear
  let v := if v.capacity < n then v.change_capacity n else v
  let v := v.add_size n
  v.set_items (fill_n v.items 0 n val)

/-- `assign(first, last)`. -/
def assign_range (v : prevector N T) (l : List T) : prevector N T :=
  let n := l.length
  let v := v.clear
  let v := if v.capacity < n then v.change_capacity n else v
  let v := v.add_size n
  v.set_items (fill v.items 0 l)

/-- `operator=(const prevector&)` between two distinct objects (on itself it
returns at once). -/
def copy_assign (v other : prevector N T) : prevector N T := v.assign_range other.toList

/-- `prevector()`: `_union = {}` and `_size = 0`. -/
def empty : prevector N T := ⟨fun _ => default, ⟨0, fun _ => default⟩, 0⟩

/-- `prevector(n)`. -/
def of_size (n : Nat) : prevector N T := (empty : prevector N T).resize n

/-- `prevector(n, val)`. -/
def of_fill (n : Nat) (val : T) : prevector N T :=
  let v := (empty : prevector N T).change_capacity n
  let v := v.add_size n
  v.set_items (fill_n v.items 0 n val)

/-- `prevector(first, last)`. -/
def of_range (l : List T) : prevector N T :=
  let n := l.length
  let v := (empty : prevector N T).change_capacity n
  let v := v.add_size n
  v.set_items (fill v.items 0 l)

/-- `prevector(const prevector&)`: as from the range of the other's elements. -/
def of_copy (other : prevector N T) : prevector N T := of_range other.toList

/-- `prevector(prevector&&)`: an empty prevector swapped with the other; the
pair is the new object and what is left of the other. -/
def of_move (other : prevector N T) : prevector N T × prevector N T := (empty : prevector N T).swap other

end Default

/-! ## The representation -/

/-- The capacity bounds the methods rely on: the buffer in use holds the
elements, and a heap buffer is at least as large as the inline array. -/
def Inv (v : prevector N T) : Prop := v.size ≤ v.capacity ∧ N ≤ v.capacity

section Representation

variable {v : prevector N T}

theorem is_direct_iff (v : prevector N T) : v.is_direct = true ↔ v._size ≤ N := decide_eq_true_iff

theorem size_eq (v : prevector N T) : v.size = if v._size ≤ N then v._size else v._size - N - 1 := by
  simp only [size, is_direct, decide_eq_true_eq]

theorem size_of_direct (hd : v._size ≤ N) : v.size = v._size := by simp [size_eq, hd]

theorem size_of_indirect (hd : N < v._size) : v.size = v._size - N - 1 := by
  simp [size_eq, Nat.not_le.2 hd]

theorem capacity_of_direct (hd : v._size ≤ N) : v.capacity = N := by simp [capacity, is_direct, hd]

theorem capacity_of_indirect (hd : N < v._size) : v.capacity = v.indirect_contents.capacity := by
  simp [capacity, is_direct, Nat.not_le.2 hd]

theorem items_of_direct (hd : v._size ≤ N) : v.items = v.direct := by simp [items, is_direct, hd]

theorem items_of_indirect (hd : N < v._size) : v.items = v.indirect_contents.indirect := by
  simp [items, is_direct, Nat.not_le.2 hd]

@[simp] theorem set_items_is_direct (v : prevector N T) (b : Nat → T) : (v.set_items b).is_direct = v.is_direct := by
  unfold set_items; split <;> rfl

@[simp] theorem set_items_size (v : prevector N T) (b : Nat → T) : (v.set_items b).size = v.size := by
  unfold set_items; split <;> rfl

@[simp] theorem set_items_capacity (v : prevector N T) (b : Nat → T) : (v.set_items b).capacity = v.capacity := by
  unfold set_items; split <;> rfl

@[simp] theorem set_items_items (v : prevector N T) (b : Nat → T) : (v.set_items b).items = b := by
  unfold items
  rw [set_items_is_direct]
  cases hv : v.is_direct <;> simp [set_items, hv]

@[simp] theorem set_items_inv (v : prevector N T) (b : Nat → T) : (v.set_items b).Inv ↔ v.Inv := by
  simp [Inv]

theorem toList_set_items (v : prevector N T) (b : Nat → T) : (v.set_items b).toList = read b v.size := by
  simp [toList]

/-- `_size += k` with room for `k` more in the buffer in use: the
representation stays, and `k` more elements of the buffer count. -/
theorem add_size_spec (hinv : v.Inv) {k : Nat} (h : v.size + k ≤ v.capacity) :
    (v.add_size k).Inv ∧ (v.add_size k).size = v.size + k ∧ (v.add_size k).items = v.items ∧
      (v.add_size k).capacity = v.capacity := by
  have hk : (v.add_size k)._size = v._size + k := rfl
  rcases Nat.lt_or_ge N v._size with hd | hd
  · -- on the heap, and still there
    have hd' : N < (v.add_size k)._size := by omega
    have hcap : (v.add_size k).capacity = v.capacity := by
      rw [capacity_of_indirect hd, capacity_of_indirect hd']; rfl
    have hsize : (v.add_size k).size = v.size + k := by
      rw [size_of_indirect hd', size_of_indirect hd, hk]; omega
    refine ⟨⟨by rw [hsize, hcap]; exact h, by rw [hcap]; exact hinv.2⟩, hsize, ?_, hcap⟩
    rw [items_of_indirect hd', items_of_indirect hd]; rfl
  · -- inline, and `h` keeps it inline
    rw [size_of_direct hd, capacity_of_direct hd] at h
    have hd' : (v.add_size k)._size ≤ N := by omega
    have hcap : (v.add_size k).capacity = v.capacity := by rw [capacity_of_direct hd, capacity_of_direct hd']
    have hsize : (v.add_size k).size = v.size + k := by rw [size_of_direct hd', size_of_direct hd, hk]
    refine ⟨⟨?_, Nat.le_of_eq (capacity_of_direct hd').symm⟩, hsize, ?_, hcap⟩
    · rw [size_of_direct hd', capacity_of_direct hd']; exact hd'
    · rw [items_of_direct hd', items_of_direct hd]; rfl

/-- A write into the buffer in use, then `_size += k` with room for `k`
more: the elements are the first `size() + k` of the written buffer. -/
theorem set_items_add_size_spec (hinv : v.Inv) (b : Nat → T) {k : Nat} (h : v.size + k ≤ v.capacity) :
    ((v.set_items b).add_size k).Inv ∧ ((v.set_items b).add_size k).size = v.size + k ∧
      ((v.set_items b).add_size k).items = b ∧ ((v.set_items b).add_size k).toList = read b (v.size + k) := by
  obtain ⟨hinv', hsize, hitems, -⟩ := add_size_spec ((set_items_inv v b).2 hinv) (k := k)
    (by rw [set_items_size, set_items_capacity]; exact h)
  rw [set_items_items] at hitems
  rw [set_items_size] at hsize
  refine ⟨hinv', hsize, hitems, ?_⟩
  rw [toList, hsize, hitems]

/-- `_size -= k` for at most `size()` elements: the representation stays. -/
theorem sub_size_spec (hinv : v.Inv) {k : Nat} (h : k ≤ v.size) :
    (v.sub_size k).Inv ∧ (v.sub_size k).size = v.size - k ∧ (v.sub_size k).items = v.items := by
  have hk : (v.sub_size k)._size = v._size - k := rfl
  rcases Nat.lt_or_ge N v._size with hd | hd
  · -- `_size` stays above `N`: the count is `_size - N - 1` and `k` is at most it
    rw [size_of_indirect hd] at h
    have hd' : N < (v.sub_size k)._size := by omega
    have hcap : (v.sub_size k).capacity = v.capacity := by
      rw [capacity_of_indirect hd, capacity_of_indirect hd']; rfl
    have hsize : (v.sub_size k).size = v.size - k := by
      rw [size_of_indirect hd', size_of_indirect hd, hk]; omega
    refine ⟨⟨by rw [hsize, hcap]; exact Nat.le_trans (Nat.sub_le _ _) hinv.1, by rw [hcap]; exact hinv.2⟩, hsize, ?_⟩
    rw [items_of_indirect hd', items_of_indirect hd]; rfl
  · have hd' : (v.sub_size k)._size ≤ N := by omega
    have hsize : (v.sub_size k).size = v.size - k := by rw [size_of_direct hd', size_of_direct hd, hk]
    refine ⟨⟨?_, Nat.le_of_eq (capacity_of_direct hd').symm⟩, hsize, ?_⟩
    · rw [size_of_direct hd', capacity_of_direct hd']; exact hd'
    · rw [items_of_direct hd', items_of_direct hd]; rfl

/-- `change_capacity(c)` for a `c` that holds the elements: the same
elements, in a buffer of at least `c`. -/
theorem change_capacity_spec (hinv : v.Inv) {c : Nat} (h : v.size ≤ c) :
    (v.change_capacity c).Inv ∧ (v.change_capacity c).toList = v.toList ∧ c ≤ (v.change_capacity c).capacity ∧
      (v.change_capacity c).size = v.size := by
  unfold change_capacity
  rcases Nat.lt_or_ge N v._size with hd | hd
  · have hnd : (!v.is_direct) = true := by simp [is_direct, Nat.not_le.2 hd]
    rw [size_of_indirect hd] at h
    simp only [hnd, if_true]
    split_ifs with hc
    · -- back into the inline array: `_size` drops to the element count
      generalize hw : (⟨memcpy v.direct v.indirect_contents.indirect v.size, v.indirect_contents,
        v._size - (N + 1)⟩ : prevector N T) = w
      have hs : w._size = v._size - (N + 1) := by rw [← hw]
      have hd' : w._size ≤ N := by omega
      have hitems : w.items = memcpy v.direct v.indirect_contents.indirect v.size := by rw [items_of_direct hd', ← hw]
      have hsize : w.size = v.size := by rw [size_of_direct hd', size_of_indirect hd, hs]; omega
      refine ⟨⟨?_, ?_⟩, ?_, ?_, hsize⟩
      · rw [size_of_direct hd', capacity_of_direct hd']; exact hd'
      · exact Nat.le_of_eq (capacity_of_direct hd').symm
      · rw [toList, toList, hitems, hsize, read_memcpy, items_of_indirect hd]
      · rw [capacity_of_direct hd']; exact hc
    · -- realloc: the same buffer, a new capacity
      generalize hw : (⟨v.direct, ⟨c, v.indirect_contents.indirect⟩, v._size⟩ : prevector N T) = w
      have hd' : N < w._size := by rw [← hw]; exact hd
      have hsize : w.size = v.size := by rw [size_of_indirect hd', size_of_indirect hd, ← hw]
      have hcap : w.capacity = c := by rw [capacity_of_indirect hd', ← hw]
      refine ⟨⟨?_, ?_⟩, ?_, hcap ▸ Nat.le_refl c, hsize⟩
      · rw [hsize, hcap, size_of_indirect hd]; exact h
      · rw [hcap]; omega
      · rw [toList, toList, hsize, items_of_indirect hd', items_of_indirect hd, ← hw]
  · have hnd : (!v.is_direct) = false := by simp [is_direct, hd]
    simp only [hnd, Bool.false_eq_true, if_false]
    split_ifs with hc
    · refine ⟨hinv, rfl, ?_, rfl⟩
      rw [capacity_of_direct hd]; exact hc
    · -- out to a new heap buffer: `_size` gains `N + 1`
      generalize hw : (⟨v.direct, ⟨c, memcpy v.indirect_contents.indirect v.direct v.size⟩,
        v._size + (N + 1)⟩ : prevector N T) = w
      have hs : w._size = v._size + (N + 1) := by rw [← hw]
      have hd' : N < w._size := by omega
      have hitems : w.items = memcpy v.indirect_contents.indirect v.direct v.size := by
        rw [items_of_indirect hd', ← hw]
      have hsize : w.size = v.size := by rw [size_of_indirect hd', size_of_direct hd, hs]; omega
      have hcap : w.capacity = c := by rw [capacity_of_indirect hd', ← hw]
      refine ⟨⟨?_, ?_⟩, ?_, hcap ▸ Nat.le_refl c, hsize⟩
      · rw [hsize, hcap]; exact h
      · rw [hcap]; omega
      · rw [toList, toList, hitems, hsize, read_memcpy, items_of_direct hd]

/-- The growth step the inserting methods, `resize`, `reserve` and `assign`
share: when the capacity is below `n`, `change_capacity(c)` for some `c ≥ n`.
The elements stay, and there is room for `n`. -/
theorem grow_capacity_spec (hinv : v.Inv) {n c : Nat} (hc : n ≤ c) :
    (if v.capacity < n then v.change_capacity c else v).Inv ∧
      (if v.capacity < n then v.change_capacity c else v).toList = v.toList ∧
      n ≤ (if v.capacity < n then v.change_capacity c else v).capacity ∧
      (if v.capacity < n then v.change_capacity c else v).size = v.size := by
  split_ifs with hlt
  · -- the elements fit in the old capacity, so in `c`
    have hfit : v.size ≤ c := Nat.le_trans (Nat.le_of_lt (Nat.lt_of_le_of_lt hinv.1 hlt)) hc
    obtain ⟨hinv', hl, hcap, hs⟩ := change_capacity_spec hinv hfit
    exact ⟨hinv', hl, Nat.le_trans hc hcap, hs⟩
  · exact ⟨hinv, rfl, Nat.not_lt.1 hlt, rfl⟩

end Representation

/-! ## Each method refines its `std::vector` operation

One spec lemma per method: it keeps `Inv` and does to `toList` what the
`std::vector` operation of the same name does to the sequence. The
preconditions are the standard library's: positions within the sequence. -/

section Methods

variable {v : prevector N T}

theorem read_items_size (v : prevector N T) : read v.items v.size = v.toList := rfl

theorem length_toList (v : prevector N T) : v.toList.length = v.size := length_read _ _

theorem erase_spec (hinv : v.Inv) {first last : Nat} (h₁ : first ≤ last) (h₂ : last ≤ v.size) :
    (v.erase first last).Inv ∧ (v.erase first last).toList = v.toList.take first ++ v.toList.drop last := by
  unfold erase
  obtain ⟨hinv', hsize, hitems⟩ := sub_size_spec ((set_items_inv v (memmove v.items first last (v.size - last))).2 hinv)
    (k := last - first)
    (by rw [set_items_size]; omega)
  refine ⟨hinv', ?_⟩
  rw [toList, hsize, hitems, set_items_items, set_items_size, read_erase _ h₁ h₂, read_items_size]

theorem erase_one_spec (hinv : v.Inv) {pos : Nat} (h : pos < v.size) :
    (v.erase_one pos).Inv ∧ (v.erase_one pos).toList = v.toList.take pos ++ v.toList.drop (pos + 1) :=
  erase_spec hinv (Nat.le_succ pos) h

theorem pop_back_spec (hinv : v.Inv) :
    v.pop_back.Inv ∧ v.pop_back.toList = v.toList.dropLast := by
  obtain ⟨hinv', hl⟩ := erase_spec hinv (Nat.sub_le v.size 1) (Nat.le_refl v.size)
  refine ⟨hinv', ?_⟩
  have hlen : v.toList.length = v.size := length_read _ _
  rw [pop_back, hl, List.dropLast_eq_take, hlen, List.drop_eq_nil_of_le (Nat.le_of_eq hlen), List.append_nil]

theorem update_spec (hinv : v.Inv) (pos : Nat) (value : T) :
    (v.update pos value).Inv ∧ (v.update pos value).toList = v.toList.set pos value := by
  refine ⟨(set_items_inv v _).2 hinv, ?_⟩
  rw [update, toList_set_items, read_update, read_items_size]

theorem insert_spec (hinv : v.Inv) {p : Nat} (hp : p ≤ v.size) (value : T) :
    (v.insert p value).Inv ∧ (v.insert p value).toList = v.toList.take p ++ value :: v.toList.drop p := by
  dsimp only [insert]
  obtain ⟨hw, hwl, hwc, hws⟩ := grow_capacity_spec hinv (n := v.size + 1)
    (c := v.size + 1 + ((v.size + 1) >>> 1)) (Nat.le_add_right _ _)
  generalize (if v.capacity < v.size + 1 then v.change_capacity (v.size + 1 + ((v.size + 1) >>> 1)) else v) = w
    at hw hwl hwc hws ⊢
  rw [← hws] at hp hwc
  obtain ⟨hinv', -, -, hl⟩ := set_items_add_size_spec hw (Function.update (memmove w.items (p + 1) p (w.size - p)) p value) hwc
  rw [hl, read_insert_one _ hp, read_items_size, hwl]
  exact ⟨hinv', rfl⟩

theorem insert_n_spec (hinv : v.Inv) {p : Nat} (hp : p ≤ v.size) (count : Nat) (value : T) :
    (v.insert_n p count value).Inv ∧
      (v.insert_n p count value).toList = v.toList.take p ++ List.replicate count value ++ v.toList.drop p := by
  dsimp only [insert_n]
  obtain ⟨hw, hwl, hwc, hws⟩ := grow_capacity_spec hinv (n := v.size + count)
    (c := v.size + count + ((v.size + count) >>> 1)) (Nat.le_add_right _ _)
  generalize (if v.capacity < v.size + count then
    v.change_capacity (v.size + count + ((v.size + count) >>> 1)) else v) = w at hw hwl hwc hws ⊢
  rw [← hws] at hp hwc
  obtain ⟨hinv', hsize, hitems, -⟩ := set_items_add_size_spec hw (memmove w.items (p + count) p (w.size - p)) hwc
  refine ⟨(set_items_inv _ _).2 hinv', ?_⟩
  rw [toList_set_items, hsize, hitems, read_insert_n _ hp, read_items_size, hwl]

theorem insert_range_spec (hinv : v.Inv) {p : Nat} (hp : p ≤ v.size) (l : List T) :
    (v.insert_range p l).Inv ∧ (v.insert_range p l).toList = v.toList.take p ++ l ++ v.toList.drop p := by
  dsimp only [insert_range]
  obtain ⟨hw, hwl, hwc, hws⟩ := grow_capacity_spec hinv (n := v.size + l.length)
    (c := v.size + l.length + ((v.size + l.length) >>> 1)) (Nat.le_add_right _ _)
  generalize (if v.capacity < v.size + l.length then
    v.change_capacity (v.size + l.length + ((v.size + l.length) >>> 1)) else v) = w at hw hwl hwc hws ⊢
  rw [← hws] at hp hwc
  obtain ⟨hinv', -, -, hl⟩ := set_items_add_size_spec hw (fill (memmove w.items (p + l.length) p (w.size - p)) p l) hwc
  rw [hl, read_insert _ hp, read_items_size, hwl]
  exact ⟨hinv', rfl⟩

theorem push_back_spec (hinv : v.Inv) (value : T) :
    (v.push_back value).Inv ∧ (v.push_back value).toList = v.toList ++ [value] := by
  dsimp only [push_back, emplace_back]
  obtain ⟨hw, hwl, hwc, hws⟩ := grow_capacity_spec hinv (n := v.size + 1)
    (c := v.size + 1 + ((v.size + 1) >>> 1)) (Nat.le_add_right _ _)
  generalize (if v.capacity < v.size + 1 then v.change_capacity (v.size + 1 + ((v.size + 1) >>> 1)) else v) = w
    at hw hwl hwc hws ⊢
  rw [← hws] at hwc
  obtain ⟨hinv', -, -, hl⟩ := set_items_add_size_spec hw (Function.update w.items w.size value) hwc
  rw [hl, read_update_end, read_items_size, hwl]
  exact ⟨hinv', rfl⟩

/-- `reserve(n)` keeps the elements and leaves room for `n`, which the unit
test checks. -/
theorem reserve_spec (hinv : v.Inv) (new_capacity : Nat) :
    (v.reserve new_capacity).Inv ∧ (v.reserve new_capacity).toList = v.toList ∧
      new_capacity ≤ (v.reserve new_capacity).capacity := by
  obtain ⟨hw, hwl, hwc, -⟩ := grow_capacity_spec hinv (n := new_capacity) (c := new_capacity) (Nat.le_refl _)
  exact ⟨hw, hwl, hwc⟩

theorem shrink_to_fit_spec (hinv : v.Inv) : v.shrink_to_fit.Inv ∧ v.shrink_to_fit.toList = v.toList := by
  obtain ⟨hw, hwl, -, -⟩ := change_capacity_spec hinv (Nat.le_refl v.size)
  exact ⟨hw, hwl⟩

/-- What `assign` and the constructors share: from no elements, room for
`n`, `_size += n`, then the `n` elements written from the start. -/
theorem fill_from_empty_spec {u : prevector N T} (hu : u.Inv) (h0 : u.size = 0) {n : Nat} (hn : n ≤ u.capacity)
    (f : (Nat → T) → Nat → T) :
    ((u.add_size n).set_items (f (u.add_size n).items)).Inv ∧
      ((u.add_size n).set_items (f (u.add_size n).items)).toList = read (f u.items) n := by
  obtain ⟨hinv', hsize, hitems, -⟩ := add_size_spec hu (k := n) (by rw [h0, Nat.zero_add]; exact hn)
  refine ⟨(set_items_inv _ _).2 hinv', ?_⟩
  rw [toList_set_items, hsize, hitems, h0, Nat.zero_add]

end Methods

section Defaults

variable [Inhabited T] {v : prevector N T}

/-- `resize(n)`: the first `n` elements, then `T{}` up to `n`. -/
theorem resize_spec (hinv : v.Inv) (new_size : Nat) :
    (v.resize new_size).Inv ∧
      (v.resize new_size).toList = v.toList.take new_size ++ List.replicate (new_size - v.size) default := by
  have hlen := length_toList v
  dsimp only [resize]
  by_cases heq : v.size = new_size
  · -- the size already: nothing happens
    rw [if_pos heq, ← heq, ← hlen, List.take_length, Nat.sub_self, List.replicate_zero, List.append_nil]
    exact ⟨hinv, rfl⟩
  by_cases hgt : v.size > new_size
  · -- smaller: the tail is erased
    rw [if_neg heq, if_pos hgt]
    obtain ⟨hinv', hl⟩ := erase_spec hinv (Nat.le_of_lt hgt) (Nat.le_refl _)
    refine ⟨hinv', ?_⟩
    rw [hl, List.drop_eq_nil_of_le (Nat.le_of_eq hlen), Nat.sub_eq_zero_of_le (Nat.le_of_lt hgt),
      List.replicate_zero]
  · -- larger: room for `new_size`, then `T{}` in the new places
    rw [if_neg heq, if_neg hgt]
    obtain ⟨hw, hwl, hwc, hws⟩ := grow_capacity_spec hinv (n := new_size) (c := new_size) (Nat.le_refl _)
    generalize (if v.capacity < new_size then v.change_capacity new_size else v) = w at hw hwl hwc hws ⊢
    have hroom : w.size + (new_size - v.size) ≤ w.capacity := by omega
    obtain ⟨hinv', -, -, hl⟩ := set_items_add_size_spec hw (fill_n w.items v.size (new_size - v.size) default) hroom
    refine ⟨hinv', ?_⟩
    rw [hl, ← hws, read_fill_n_end, read_items_size, hwl, List.take_of_length_le (by omega)]

theorem clear_spec (hinv : v.Inv) : v.clear.Inv ∧ v.clear.toList = [] := by
  obtain ⟨hinv', hl⟩ := resize_spec hinv 0
  exact ⟨hinv', by rw [clear, hl, List.take_zero, Nat.zero_sub, List.replicate_zero, List.append_nil]⟩

theorem assign_spec (hinv : v.Inv) (n : Nat) (val : T) :
    (v.assign n val).Inv ∧ (v.assign n val).toList = List.replicate n val := by
  dsimp only [assign]
  obtain ⟨hc, hcl⟩ := clear_spec hinv
  have hc0 : v.clear.size = 0 := by rw [← length_toList, hcl, List.length_nil]
  generalize v.clear = u at hc hcl hc0 ⊢
  obtain ⟨hw, -, hwc, hws⟩ := grow_capacity_spec hc (n := n) (c := n) (Nat.le_refl _)
  generalize (if u.capacity < n then u.change_capacity n else u) = w at hw hwc hws ⊢
  obtain ⟨hinv', hl⟩ := fill_from_empty_spec hw (hws.trans hc0) hwc (fun b => fill_n b 0 n val)
  refine ⟨hinv', ?_⟩
  have h := read_fill_n_end w.items 0 n val
  rw [Nat.zero_add, read_zero, List.nil_append] at h
  rw [hl, h]

theorem assign_range_spec (hinv : v.Inv) (l : List T) :
    (v.assign_range l).Inv ∧ (v.assign_range l).toList = l := by
  dsimp only [assign_range]
  obtain ⟨hc, hcl⟩ := clear_spec hinv
  have hc0 : v.clear.size = 0 := by rw [← length_toList, hcl, List.length_nil]
  generalize v.clear = u at hc hcl hc0 ⊢
  obtain ⟨hw, -, hwc, hws⟩ := grow_capacity_spec hc (n := l.length) (c := l.length) (Nat.le_refl _)
  generalize (if u.capacity < l.length then u.change_capacity l.length else u) = w at hw hwc hws ⊢
  obtain ⟨hinv', hl⟩ := fill_from_empty_spec hw (hws.trans hc0) hwc (fun b => fill b 0 l)
  exact ⟨hinv', by rw [hl, read_fill]⟩

theorem copy_assign_spec (hinv : v.Inv) (other : prevector N T) :
    (v.copy_assign other).Inv ∧ (v.copy_assign other).toList = other.toList :=
  assign_range_spec hinv other.toList

theorem empty_spec : (empty : prevector N T).Inv ∧ (empty : prevector N T).toList = [] := by
  have hd : (empty : prevector N T)._size ≤ N := Nat.zero_le N
  refine ⟨⟨?_, ?_⟩, ?_⟩
  · rw [size_of_direct hd, capacity_of_direct hd]; exact hd
  · exact Nat.le_of_eq (capacity_of_direct hd).symm
  · rw [toList, size_of_direct hd]; rfl

theorem empty_size : (empty : prevector N T).size = 0 := by
  rw [← length_toList, empty_spec.2, List.length_nil]

theorem of_size_spec (n : Nat) :
    (of_size n : prevector N T).Inv ∧ (of_size n : prevector N T).toList = List.replicate n default := by
  obtain ⟨hinv, hl⟩ := resize_spec empty_spec.1 (v := (empty : prevector N T)) n
  refine ⟨hinv, ?_⟩
  rw [of_size, hl, empty_spec.2, empty_size, List.take_nil, List.nil_append, Nat.sub_zero]

/-- The constructors that allocate for `n` and write `n` elements:
`change_capacity(n)` on an empty prevector makes room for them. -/
theorem change_capacity_empty_spec (n : Nat) :
    ((empty : prevector N T).change_capacity n).Inv ∧ ((empty : prevector N T).change_capacity n).size = 0 ∧
      n ≤ ((empty : prevector N T).change_capacity n).capacity := by
  obtain ⟨hinv, -, hcap, hs⟩ := change_capacity_spec empty_spec.1 (v := (empty : prevector N T)) (c := n)
    (by rw [empty_size]; exact Nat.zero_le n)
  exact ⟨hinv, hs.trans empty_size, hcap⟩

theorem of_fill_spec (n : Nat) (val : T) :
    (of_fill n val : prevector N T).Inv ∧ (of_fill n val : prevector N T).toList = List.replicate n val := by
  dsimp only [of_fill]
  obtain ⟨hw, hw0, hwc⟩ := change_capacity_empty_spec (N := N) (T := T) n
  generalize (empty : prevector N T).change_capacity n = w at hw hw0 hwc ⊢
  obtain ⟨hinv', hl⟩ := fill_from_empty_spec hw hw0 hwc (fun b => fill_n b 0 n val)
  refine ⟨hinv', ?_⟩
  have h := read_fill_n_end w.items 0 n val
  rw [Nat.zero_add, read_zero, List.nil_append] at h
  rw [hl, h]

theorem of_range_spec (l : List T) : (of_range l : prevector N T).Inv ∧ (of_range l : prevector N T).toList = l := by
  dsimp only [of_range]
  obtain ⟨hw, hw0, hwc⟩ := change_capacity_empty_spec (N := N) (T := T) l.length
  generalize (empty : prevector N T).change_capacity l.length = w at hw hw0 hwc ⊢
  obtain ⟨hinv', hl⟩ := fill_from_empty_spec hw hw0 hwc (fun b => fill b 0 l)
  exact ⟨hinv', by rw [hl, read_fill]⟩

theorem of_copy_spec (other : prevector N T) :
    (of_copy other).Inv ∧ (of_copy other).toList = other.toList :=
  of_range_spec other.toList

/-- The moved-from prevector is left empty. -/
theorem of_move_spec (other : prevector N T) :
    (of_move other).1 = other ∧ (of_move other).2.Inv ∧ (of_move other).2.toList = [] :=
  ⟨rfl, empty_spec⟩

end Defaults

end prevector

/-! ## The unit test: prevectors against `std::vector`s

`prevector_tester` (test/prevector_tests.cpp) keeps a `std::vector` and a
prevector side by side, with a second pair for `swap`, `move` and `copy`,
applies each operation to both and compares the elements. `std::vector` is
modelled by `List`: the abstract side, with the standard library's meaning
of each operation and its preconditions. -/

/-- The operations `prevector_tester` applies to the first vector of each
pair, and the copy and move constructors beside the assignments. -/
inductive VectorOp (T : Type) where
  | resize (n : Nat)
  | reserve (n : Nat)
  | insert (position : Nat) (value : T)
  | insert_n (position count : Nat) (value : T)
  | insert_range (position : Nat) (values : List T)
  | erase (position : Nat)
  | erase_range (first last : Nat)
  | update (pos : Nat) (value : T)
  | push_back (value : T)
  | pop_back
  | clear
  | assign (n : Nat) (value : T)
  | assign_range (values : List T)
  | shrink_to_fit
  | swap
  | move
  | copy
  | copy_construct
  | move_construct

namespace VectorOp

variable {N : Nat} {T : Type}

/-- The standard library's preconditions, on the first vector: positions
within the sequence, and something to pop. -/
def valid : VectorOp T → List T → Bool
  | .insert position _, r => position ≤ r.length
  | .insert_n position _ _, r => position ≤ r.length
  | .insert_range position _, r => position ≤ r.length
  | .erase position, r => position < r.length
  | .erase_range first last, r => first ≤ last && last ≤ r.length
  | .update pos _, r => pos < r.length
  | .pop_back, r => 0 < r.length
  | _, _ => true

theorem eraseIdx_eq (r : List T) (position : Nat) : r.eraseIdx position = r.take position ++ r.drop (position + 1) :=
  List.eraseIdx_eq_take_drop_succ r position

section Real

variable [Inhabited T]

/-- The operation on the two `std::vector`s. A moved-from vector is cleared
by the test after a move assignment, and is empty after a move construction. -/
def real : VectorOp T → List T × List T → List T × List T
  | .resize n, (r, a) => (if n ≤ r.length then r.take n else r ++ List.replicate (n - r.length) default, a)
  | .reserve _, s => s
  | .insert position value, (r, a) => (r.take position ++ value :: r.drop position, a)
  | .insert_n position count value, (r, a) => (r.take position ++ List.replicate count value ++ r.drop position, a)
  | .insert_range position values, (r, a) => (r.take position ++ values ++ r.drop position, a)
  | .erase position, (r, a) => (r.eraseIdx position, a)
  | .erase_range first last, (r, a) => (r.take first ++ r.drop last, a)
  | .update pos value, (r, a) => (r.set pos value, a)
  | .push_back value, (r, a) => (r ++ [value], a)
  | .pop_back, (r, a) => (r.dropLast, a)
  | .clear, (_, a) => ([], a)
  | .assign n value, (_, a) => (List.replicate n value, a)
  | .assign_range values, (_, a) => (values, a)
  | .shrink_to_fit, s => s
  | .swap, (r, a) => (a, r)
  | .move, (_, a) => (a, [])
  | .copy, (_, a) => (a, a)
  | .copy_construct, (_, a) => (a, a)
  | .move_construct, (_, a) => (a, [])

/-- The operation on the two prevectors, through the methods of the model. -/
def pre : VectorOp T → prevector N T × prevector N T → prevector N T × prevector N T
  | .resize n, (p, a) => (p.resize n, a)
  | .reserve n, (p, a) => (p.reserve n, a)
  | .insert position value, (p, a) => (p.insert position value, a)
  | .insert_n position count value, (p, a) => (p.insert_n position count value, a)
  | .insert_range position values, (p, a) => (p.insert_range position values, a)
  | .erase position, (p, a) => (p.erase_one position, a)
  | .erase_range first last, (p, a) => (p.erase first last, a)
  | .update pos value, (p, a) => (p.update pos value, a)
  | .push_back value, (p, a) => (p.push_back value, a)
  | .pop_back, (p, a) => (p.pop_back, a)
  | .clear, (p, a) => (p.clear, a)
  | .assign n value, (p, a) => (p.assign n value, a)
  | .assign_range values, (p, a) => (p.assign_range values, a)
  | .shrink_to_fit, (p, a) => (p.shrink_to_fit, a)
  | .swap, (p, a) => p.swap a
  | .move, (p, a) => ((p.move_assign a).1, (p.move_assign a).2.clear)
  | .copy, (p, a) => (p.copy_assign a, a)
  | .copy_construct, (_, a) => (prevector.of_copy a, a)
  | .move_construct, (_, a) => prevector.of_move a

/-- Every operation of a sequence meets its preconditions, on the
`std::vector`s it is applied to. -/
def valid_run : List (VectorOp T) → List T × List T → Bool
  | [], _ => true
  | op :: ops, s => op.valid s.1 && valid_run ops (op.real s)

def real_run (ops : List (VectorOp T)) (s : List T × List T) : List T × List T :=
  ops.foldl (fun s op => op.real s) s

def pre_run (ops : List (VectorOp T)) (s : prevector N T × prevector N T) : prevector N T × prevector N T :=
  ops.foldl (fun s op => op.pre s) s

/-- The element sequences of the two prevectors. -/
def toLists (s : prevector N T × prevector N T) : List T × List T := (s.1.toList, s.2.toList)

theorem resize_eq (r : List T) (n : Nat) :
    (if n ≤ r.length then r.take n else r ++ List.replicate (n - r.length) default) =
      r.take n ++ List.replicate (n - r.length) default := by
  split_ifs with h
  · rw [Nat.sub_eq_zero_of_le h, List.replicate_zero, List.append_nil]
  · rw [List.take_of_length_le (by omega)]

/-- One step: each operation, on prevectors that keep `Inv` and meet the
preconditions, does to their elements what it does to `std::vector`s. -/
theorem pre_step (op : VectorOp T) (s : prevector N T × prevector N T) (hinv : s.1.Inv ∧ s.2.Inv)
    (hvalid : op.valid s.1.toList = true) :
    toLists (op.pre s) = op.real (toLists s) ∧ (op.pre s).1.Inv ∧ (op.pre s).2.Inv := by
  obtain ⟨p, a⟩ := s
  obtain ⟨hp, ha⟩ := hinv
  simp only [toLists] at hvalid ⊢
  have hlen := p.length_toList
  cases op with
  | resize n =>
    obtain ⟨h, hl⟩ := p.resize_spec hp n
    exact ⟨by simp only [pre, real]; rw [resize_eq, hl, hlen], h, ha⟩
  | reserve n =>
    obtain ⟨h, hl, -⟩ := p.reserve_spec hp n
    exact ⟨by simp only [pre, real, hl], h, ha⟩
  | insert position value =>
    simp only [valid, decide_eq_true_eq, hlen] at hvalid
    obtain ⟨h, hl⟩ := p.insert_spec hp hvalid value
    exact ⟨by simp only [pre, real, hl], h, ha⟩
  | insert_n position count value =>
    simp only [valid, decide_eq_true_eq, hlen] at hvalid
    obtain ⟨h, hl⟩ := p.insert_n_spec hp hvalid count value
    exact ⟨by simp only [pre, real, hl], h, ha⟩
  | insert_range position values =>
    simp only [valid, decide_eq_true_eq, hlen] at hvalid
    obtain ⟨h, hl⟩ := p.insert_range_spec hp hvalid values
    exact ⟨by simp only [pre, real, hl], h, ha⟩
  | erase position =>
    simp only [valid, decide_eq_true_eq, hlen] at hvalid
    obtain ⟨h, hl⟩ := p.erase_one_spec hp hvalid
    exact ⟨by simp only [pre, real, hl, eraseIdx_eq], h, ha⟩
  | erase_range first last =>
    simp only [valid, Bool.and_eq_true, decide_eq_true_eq, hlen] at hvalid
    obtain ⟨h, hl⟩ := p.erase_spec hp hvalid.1 hvalid.2
    exact ⟨by simp only [pre, real, hl], h, ha⟩
  | update pos value =>
    obtain ⟨h, hl⟩ := p.update_spec hp pos value
    exact ⟨by simp only [pre, real, hl], h, ha⟩
  | push_back value =>
    obtain ⟨h, hl⟩ := p.push_back_spec hp value
    exact ⟨by simp only [pre, real, hl], h, ha⟩
  | pop_back =>
    obtain ⟨h, hl⟩ := p.pop_back_spec hp
    exact ⟨by simp only [pre, real, hl], h, ha⟩
  | clear =>
    obtain ⟨h, hl⟩ := p.clear_spec hp
    exact ⟨by simp only [pre, real, hl], h, ha⟩
  | assign n value =>
    obtain ⟨h, hl⟩ := p.assign_spec hp n value
    exact ⟨by simp only [pre, real, hl], h, ha⟩
  | assign_range values =>
    obtain ⟨h, hl⟩ := p.assign_range_spec hp values
    exact ⟨by simp only [pre, real, hl], h, ha⟩
  | shrink_to_fit =>
    obtain ⟨h, hl⟩ := p.shrink_to_fit_spec hp
    exact ⟨by simp only [pre, real, hl], h, ha⟩
  | swap => exact ⟨rfl, ha, hp⟩
  | move =>
    -- the swap hands the first vector's old elements to the second, which the test clears
    obtain ⟨h, hl⟩ := p.clear_spec hp
    exact ⟨by simp only [pre, real, prevector.move_assign, prevector.swap, hl], ha, h⟩
  | copy =>
    obtain ⟨h, hl⟩ := p.copy_assign_spec hp a
    exact ⟨by simp only [pre, real, hl], h, ha⟩
  | copy_construct =>
    obtain ⟨h, hl⟩ := prevector.of_copy_spec a
    exact ⟨by simp only [pre, real, hl], h, ha⟩
  | move_construct =>
    obtain ⟨h1, h2, h3⟩ := prevector.of_move_spec a
    exact ⟨by simp only [pre, real, h1, h3], h1 ▸ ha, h2⟩

/-- A whole run: from prevectors that keep `Inv`, a sequence of operations
that meets the preconditions leaves them holding what the `std::vector`s
hold after the same sequence, and still keeping `Inv`; by induction on the
sequence, one `pre_step` per operation. -/
theorem pre_run_agrees (ops : List (VectorOp T)) :
    ∀ s : prevector N T × prevector N T, s.1.Inv ∧ s.2.Inv → valid_run ops (toLists s) = true →
      toLists (pre_run ops s) = real_run ops (toLists s) ∧ (pre_run ops s).1.Inv ∧ (pre_run ops s).2.Inv := by
  induction ops with
  | nil => intro s hinv _; exact ⟨rfl, hinv⟩
  | cons op ops ih =>
    intro s hinv hvalid
    simp only [valid_run, Bool.and_eq_true] at hvalid
    obtain ⟨hstep, hinv₁, hinv₂⟩ := pre_step op s hinv hvalid.1
    have hrest := ih (op.pre s) ⟨hinv₁, hinv₂⟩ (by rw [hstep]; exact hvalid.2)
    rw [pre_run, real_run, List.foldl_cons, List.foldl_cons, ← hstep]
    exact hrest

/-- The third element moves a `prevector<2, _>` to the heap; erasing two
leaves it there, and `shrink_to_fit` brings it back inline. -/
example :
    let v := (((prevector.empty : prevector 2 Nat).push_back 1).push_back 2).push_back 3
    v.is_direct = false ∧ (v.erase 0 2).is_direct = false ∧ (v.erase 0 2).shrink_to_fit.is_direct = true := by
  decide

/-- A prevector is a drop-in `std::vector`: from any two prevectors that keep
`Inv` (two fresh ones among them), every sequence of the tester's operations
that meets the standard library's preconditions leaves the prevectors
holding exactly the elements that two `std::vector`s hold after the same
sequence; and each of them still keeps `Inv`, with `is_direct()` exactly when
`_size ≤ N` and `size()` read off `_size` accordingly. -/
theorem prevector_drop_in (ops : List (VectorOp T)) (s : prevector N T × prevector N T)
    (hinv : s.1.Inv ∧ s.2.Inv) (hvalid : valid_run ops (toLists s) = true) :
    toLists (pre_run ops s) = real_run ops (toLists s) ∧
      ∀ v ∈ [(pre_run ops s).1, (pre_run ops s).2], v.Inv ∧ (v.is_direct = true ↔ v._size ≤ N) ∧
        v.size = if v._size ≤ N then v._size else v._size - N - 1 := by
  obtain ⟨hrun, hinv₁, hinv₂⟩ := pre_run_agrees ops s hinv hvalid
  refine ⟨hrun, ?_⟩
  intro v hv
  have hvinv : v.Inv := by
    rcases List.mem_cons.1 hv with rfl | hv
    · exact hinv₁
    · rw [List.mem_singleton.1 hv]; exact hinv₂
  exact ⟨hvinv, v.is_direct_iff, v.size_eq⟩

/-- Three elements overflow the inline array of two, erase leaves the
prevector on the heap with one element, and `shrink_to_fit` brings it back
inline; the elements follow `std::vector` throughout. -/
theorem prevector_drop_in_spill :
    let ops : List (VectorOp Nat) :=
      [.push_back 1, .push_back 2, .push_back 3, .insert 0 7, .erase_range 0 3, .shrink_to_fit, .swap, .copy]
    let s : prevector 2 Nat × prevector 2 Nat := (prevector.empty, prevector.empty)
    (s.1.Inv ∧ s.2.Inv) ∧ valid_run ops (toLists s) = true ∧
      (toLists (pre_run ops s) = real_run ops (toLists s) ∧
        ∀ v ∈ [(pre_run ops s).1, (pre_run ops s).2], v.Inv ∧ (v.is_direct = true ↔ v._size ≤ 2) ∧
          v.size = if v._size ≤ 2 then v._size else v._size - 2 - 1) :=
  ⟨⟨prevector.empty_spec.1, prevector.empty_spec.1⟩, by decide,
    prevector_drop_in _ _ ⟨prevector.empty_spec.1, prevector.empty_spec.1⟩ (by decide)⟩

end Real

end VectorOp

end Tapyrus
