import Mathlib.Logic.Basic
/-!
# Computations that avoid a kind of error

`Avoids bad x`: the `Except` computation `x` does not end in an error that
`bad` picks out. A program that can stop in several ways (a reported error,
an exception, a failed assertion) is modelled with one error type, and a
safety property says which of those ways a run never takes.

The predicate is closed under the monad: `avoids_bind` takes the success
value of the first step into scope, so a step may rely on what the earlier
steps returned; `avoids_foldlM` lifts a per-element fact to a fold. A whole
run then avoids an error kind once each step does. `bind_eq_ok` reads a
successful `do` block back step by step; `bind_drop_ok_iff` compares two
blocks that differ in one step, one dropping its result and the other
passing on a list it returns.
-/

namespace Tapyrus.Lib

/-- `x` does not end in an error that `bad` picks out. -/
def Avoids {ε α : Type} (bad : ε → Prop) (x : Except ε α) : Prop :=
  ∀ e, x = .error e → ¬ bad e

section

variable {ε α β : Type} {bad : ε → Prop}

/-- The two evaluation rules of `bind` that a symbolic run uses. -/
@[simp] theorem error_bind (e : ε) (f : α → Except ε β) : (Except.error e >>= f) = .error e := rfl

@[simp] theorem ok_bind (a : α) (f : α → Except ε β) : (Except.ok a >>= f) = f a := rfl

/-- A `do` block that succeeded: its first step succeeded, and the rest from
that value. -/
theorem bind_eq_ok {x : Except ε α} {f : α → Except ε β} {b : β} (h : (x >>= f) = .ok b) :
    ∃ a, x = .ok a ∧ f a = .ok b := by
  cases x with
  | error e => cases h
  | ok a => exact ⟨a, rfl, h⟩

/-- A check that returns an error when its condition holds, and succeeded:
the condition failed, and the rest succeeded. -/
theorem ite_error_eq_ok {c : Prop} [Decidable c] {e : ε} {k : Except ε α} {r : α}
    (h : (if c then .error e else k) = .ok r) : ¬ c ∧ k = .ok r := by
  by_cases hc : c
  · rw [if_pos hc] at h
    cases h
  · rw [if_neg hc] at h
    exact ⟨hc, h⟩

/-- A computation that `isOk` reports successful has a value. -/
theorem exists_eq_ok_of_isOk {x : Except ε α} (h : x.isOk = true) : ∃ a, x = .ok a := by
  cases x with
  | error e => cases h
  | ok a => exact ⟨a, rfl⟩

/-- A `do` block that drops a step's result, against the same block with
the step handing back a list that the block passes on: the two succeed
together, with the same value, when the two steps succeed together. -/
theorem bind_drop_ok_iff {γ δ σ : Type} {D : Except ε α} {D' : Except ε (β × List γ)} {U : Except ε δ}
    {K : δ → σ} {P : List γ → Prop} {s : σ} (hD : (∃ a, D = .ok a) ↔ ∃ b vs, D' = .ok (b, vs) ∧ P vs) :
    (D >>= fun _ => U >>= fun x => pure (K x)) = .ok s ↔
      ∃ vs, (D' >>= fun y => U >>= fun x => pure (K x, y.2)) = .ok (s, vs) ∧ P vs := by
  constructor
  · intro h
    obtain ⟨a, hDa, hrest⟩ := bind_eq_ok h
    obtain ⟨b, vs, hD', hP⟩ := hD.1 ⟨a, hDa⟩
    refine ⟨vs, ?_, hP⟩
    obtain ⟨u, hU, hs⟩ := bind_eq_ok hrest
    rw [hD', hU]
    cases hs
    rfl
  · rintro ⟨vs, h, hP⟩
    obtain ⟨⟨b, vs'⟩, hD', hrest⟩ := bind_eq_ok h
    obtain ⟨u, hU, hs⟩ := bind_eq_ok hrest
    cases hs
    obtain ⟨a, hDa⟩ := hD.2 ⟨b, vs', hD', hP⟩
    rw [hDa, hU]
    rfl

@[simp] theorem avoids_ok (a : α) : Avoids bad (.ok a : Except ε α) := by
  intro e h
  cases h

@[simp] theorem avoids_error (e : ε) : Avoids bad (.error e : Except ε α) ↔ ¬ bad e := by
  constructor
  · intro h
    exact h e rfl
  · rintro h e' ⟨⟩
    exact h

@[simp] theorem avoids_pure (a : α) : Avoids bad (pure a : Except ε α) := avoids_ok a

/-- The rule for `do` blocks: the rest may assume the first step's value. -/
theorem avoids_bind {x : Except ε α} {f : α → Except ε β} (hx : Avoids bad x)
    (hf : ∀ a, x = .ok a → Avoids bad (f a)) : Avoids bad (x >>= f) := by
  cases x with
  | error e =>
    change Avoids bad (.error e)
    exact (avoids_error e).2 ((avoids_error e).1 hx)
  | ok a => exact hf a rfl

@[simp] theorem avoids_bind_iff {x : Except ε α} {f : α → Except ε β} :
    Avoids bad (x >>= f) ↔ Avoids bad x ∧ ∀ a, x = .ok a → Avoids bad (f a) := by
  cases x with
  | error e =>
    change Avoids bad (.error e) ↔ _
    rw [avoids_error, avoids_error]
    exact ⟨fun h => ⟨h, fun a h' => by cases h'⟩, fun h => h.1⟩
  | ok a =>
    constructor
    · intro h
      exact ⟨avoids_ok a, fun a' h' => by cases h'; exact h⟩
    · intro h
      exact h.2 a rfl

/-- A fold whose every step returns the accumulator unchanged returns it. -/
theorem foldlM_eq_ok_of_forall {f : β → α → Except ε β} {b : β} :
    ∀ {l : List α}, (∀ a ∈ l, f b a = .ok b) → l.foldlM f b = .ok b
  | [], _ => rfl
  | a :: l, h => by
    rw [List.foldlM_cons, h a List.mem_cons_self, ok_bind]
    exact foldlM_eq_ok_of_forall fun x hx => h x (List.mem_cons_of_mem a hx)

theorem avoids_map {x : Except ε α} (f : α → β) (hx : Avoids bad x) : Avoids bad (f <$> x) := by
  cases x with
  | error e =>
    change Avoids bad (.error e)
    exact (avoids_error e).2 ((avoids_error e).1 hx)
  | ok a => exact avoids_ok (f a)

theorem avoids_ite {c : Prop} [Decidable c] {x y : Except ε α} (hx : c → Avoids bad x)
    (hy : ¬ c → Avoids bad y) : Avoids bad (if c then x else y) := by
  by_cases h : c
  · rw [if_pos h]
    exact hx h
  · rw [if_neg h]
    exact hy h

@[simp] theorem avoids_ite_iff {c : Prop} [Decidable c] {x y : Except ε α} :
    Avoids bad (if c then x else y) ↔ (c → Avoids bad x) ∧ (¬ c → Avoids bad y) := by
  by_cases h : c <;> simp [h]

/-- A monadic fold avoids `bad` when every step on an element of the list
does, from any accumulator. -/
theorem avoids_foldlM {f : β → α → Except ε β} (l : List α) (init : β)
    (hf : ∀ b a, a ∈ l → Avoids bad (f b a)) : Avoids bad (l.foldlM f init) := by
  induction l generalizing init with
  | nil => exact avoids_pure init
  | cons a l ih =>
    rw [List.foldlM_cons]
    refine avoids_bind (hf init a List.mem_cons_self) (fun b _ => ?_)
    exact ih b (fun b' a' ha' => hf b' a' (List.mem_cons_of_mem a ha'))

/-- Avoiding more kinds of error avoids fewer. -/
theorem Avoids.mono {bad' : ε → Prop} {x : Except ε α} (h : Avoids bad x) (hb : ∀ e, bad' e → bad e) :
    Avoids bad' x :=
  fun e he hbad => h e he (hb e hbad)

end

end Tapyrus.Lib
