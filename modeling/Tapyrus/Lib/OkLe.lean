import Mathlib.Logic.Basic
/-!
# Success that carries over

`OkLe a b`: whenever the `Except` computation `a` succeeds, `b` succeeds
with the same value. Two runs of one program that differ only in what they
check, a stricter and a laxer setting, are compared with it: the laxer run
passes every check the stricter one passes, and computes the same thing
after it.

The relation is a preorder closed under the monad. `OkLe.bind` compares two
`do` blocks step by step, with the first step's value in scope;
`OkLe.ite_error` compares two checks whose failure conditions are ordered
(the laxer fails only where the stricter does); `OkLe.foldlM` lifts a
comparison of the steps to a fold.
-/

namespace Tapyrus.Lib

/-- `b` succeeds, with the same value, whenever `a` does. -/
def OkLe {ε α : Type} (a b : Except ε α) : Prop := ∀ r, a = .ok r → b = .ok r

namespace OkLe

variable {ε α β : Type}

@[refl] theorem refl (a : Except ε α) : OkLe a a := fun _ h => h

theorem trans {a b c : Except ε α} (hab : OkLe a b) (hbc : OkLe b c) : OkLe a c := fun r h => hbc r (hab r h)

theorem of_error (e : ε) (b : Except ε α) : OkLe (.error e) b := fun _ h => by cases h

/-- Two `do` blocks whose first steps compare, and whose rests compare from
every value the first step of the stricter block succeeds with. -/
theorem bind {a b : Except ε α} {f g : α → Except ε β} (hab : OkLe a b)
    (hfg : ∀ x, a = .ok x → OkLe (f x) (g x)) : OkLe (a >>= f) (b >>= g) := by
  intro r h
  cases ha : a with
  | error e =>
    rw [ha] at h
    cases h
  | ok x =>
    rw [ha] at h
    rw [hab x ha]
    exact hfg x ha r h

/-- Two checks failing on `c` and on `c'`, where `c'` implies `c`: past the
stricter check the laxer one passes too, and both go on as `x` and `y`. -/
theorem ite_error {c c' : Prop} [Decidable c] [Decidable c'] {e e' : ε} {x y : Except ε α} (hc : c' → c)
    (hxy : ¬ c → OkLe x y) : OkLe (if c then .error e else x) (if c' then .error e' else y) := by
  intro r h
  by_cases h₁ : c
  · rw [if_pos h₁] at h
    cases h
  · rw [if_neg h₁] at h
    rw [if_neg (fun h₂ => h₁ (hc h₂))]
    exact hxy h₁ r h

/-- A check only the stricter run makes: past it, it goes on as `x`. -/
theorem ite_skip {c : Prop} [Decidable c] {e : ε} {x y : Except ε α} (hxy : ¬ c → OkLe x y) :
    OkLe (if c then .error e else x) y := by
  intro r h
  by_cases h₁ : c
  · rw [if_pos h₁] at h
    cases h
  · rw [if_neg h₁] at h
    exact hxy h₁ r h

/-- A step whose value is dropped, which only the stricter run takes. -/
theorem bind_skip (a : Except ε α) (y : Except ε β) : OkLe (a >>= fun _ => y) y := by
  intro r h
  cases ha : a with
  | error e =>
    rw [ha] at h
    cases h
  | ok x =>
    rw [ha] at h
    exact h

theorem foldlM {f g : β → α → Except ε β} (hfg : ∀ b x, OkLe (f b x) (g b x)) (l : List α) (init : β) :
    OkLe (l.foldlM f init) (l.foldlM g init) := by
  induction l generalizing init with
  | nil => exact refl _
  | cons x l ih => exact bind (hfg init x) fun b _ => ih b

end OkLe

end Tapyrus.Lib
