import Tapyrus.Lib.Bytes
/-!
# Maps ordered by a comparator

A `std::map<K, V, Compare>` as the list of its entries in the map's order.
The map never looks at keys except through `lt`: two keys are the same key
when neither is ordered before the other (`Equiv`). `find`, `emplace` and
in-place updates are stated that way, so a comparator whose equivalence is
coarser than equality merges keys exactly as the C++ container does.
-/

namespace Tapyrus.Lib

namespace CmpMap

variable {κ ν : Type} (lt : κ → κ → Bool)

/-- The map's notion of the same key. -/
def Equiv (a b : κ) : Bool := !lt a b && !lt b a

/-- `find`: the entry whose key is equivalent to `k`. -/
def find (m : List (κ × ν)) (k : κ) : Option (κ × ν) := m.find? (fun e => Equiv lt e.1 k)

/-- Insert at the position the order gives: before the first larger key. -/
def insertSorted (k : κ) (v : ν) : List (κ × ν) → List (κ × ν)
  | [] => [(k, v)]
  | e :: es => if lt k e.1 then (k, v) :: e :: es else e :: insertSorted k v es

/-- `emplace(k, v)`: no change when an equivalent key is present. -/
def emplace (m : List (κ × ν)) (k : κ) (v : ν) : List (κ × ν) :=
  if (find lt m k).isSome then m else insertSorted lt k v m

/-- `iter->second = f(iter->second)` for the entry `find` returns. -/
def modify (m : List (κ × ν)) (k : κ) (f : ν → ν) : List (κ × ν) :=
  match m with
  | [] => []
  | e :: es => if Equiv lt e.1 k then (e.1, f e.2) :: es else e :: modify es k f

@[simp] theorem insertSorted_length (k : κ) (v : ν) (m : List (κ × ν)) :
    (insertSorted lt k v m).length = m.length + 1 := by
  induction m with
  | nil => rfl
  | cons e es ih => unfold insertSorted; split <;> simp [ih]

@[simp] theorem modify_length (m : List (κ × ν)) (k : κ) (f : ν → ν) :
    (modify lt m k f).length = m.length := by
  induction m with
  | nil => rfl
  | cons e es ih => unfold modify; split <;> simp [ih]

theorem emplace_length_le (m : List (κ × ν)) (k : κ) (v : ν) :
    (emplace lt m k v).length ≤ m.length + 1 := by
  unfold emplace; split <;> simp

/-- An emplace with a key equivalent to a present one adds nothing. -/
theorem emplace_of_find (m : List (κ × ν)) (k : κ) (v : ν) (h : (find lt m k).isSome) :
    emplace lt m k v = m := by
  simp [emplace, h]

/-- For a comparator that `memcmp`s `n` bytes of an object's image, two keys
are the same key exactly when those bytes agree. -/
theorem equiv_memcmp_iff {α : Type} (img : α → List UInt8) (n : Nat) (a b : α) :
    Equiv (fun x y => memcmp (img x) (img y) n == .lt) a b = true ↔ memcmp (img a) (img b) n = .eq := by
  simp only [Equiv, memcmp_swap (img a) (img b), Bool.and_eq_true, Bool.not_eq_true', beq_eq_false_iff_ne]
  cases memcmp (img a) (img b) n <;> decide

end CmpMap

end Tapyrus.Lib
