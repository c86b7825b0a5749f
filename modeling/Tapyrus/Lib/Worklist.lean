import Mathlib.Logic.Relation
import Mathlib.Data.List.Nodup
/-!
# Closures by a worklist

A set of nodes closed under a successor function `next`, computed the way a
C++ loop over a staging set computes it: take a node off the stage, add it to
the result, and stage those of its successors that the result does not hold.
Result and stage are lists used as sets (`List.insert`), and the loop runs on
fuel in place of `while (!stage.empty())`.

`closureLoop_mem_iff`: the loop ends with exactly the nodes it started with
and those reachable from the stage. Three conditions make this hold. First,
every staged node and every successor of one lies in a finite universe `U`,
and the fuel covers the nodes of `U` that the result does not hold. Second,
the stage holds no node of the result. Third, the nodes the loop starts
with are closed under successors up to the stage (`Frontier`). The proof
splits into soundness, where every node the loop adds is reachable
(`closureLoop_sound`), and coverage, where the result is closed
(`closureLoop_covers`).
-/

namespace Tapyrus.Lib

variable {α : Type} [DecidableEq α] (next : α → List α)

/-- Stage the nodes of `l` that `seen` does not hold. -/
def pushNew (seen stage l : List α) : List α :=
  l.foldl (fun stage c => if c ∈ seen then stage else stage.insert c) stage

/-- The loop: take a node off the stage into the result and stage its
successors that are new. -/
def closureLoop : Nat → List α → List α → List α
  | 0, _, seen => seen
  | _, [], seen => seen
  | fuel + 1, x :: stage, seen =>
    let seen := seen.insert x
    closureLoop fuel (pushNew seen stage (next x)) seen

/-- With nothing staged, the loop is done. -/
theorem closureLoop_nil (fuel : Nat) (seen : List α) : closureLoop next fuel [] seen = seen := by
  cases fuel <;> rfl

/-- The nodes of `U` that `seen` does not hold. -/
def unseenCount (U seen : List α) : Nat := (U.filter fun x => x ∉ seen).length

/-- What the loop keeps: the stage is new and without repeats, and every
successor of a node already taken is taken or staged. -/
structure Frontier (stage seen : List α) : Prop where
  disjoint : ∀ x ∈ stage, x ∉ seen
  nodup : stage.Nodup
  closed : ∀ y ∈ seen, ∀ c ∈ next y, c ∈ seen ∨ c ∈ stage

/-- What the loop ends with: the nodes it started with and the staged ones,
closed under successors. -/
structure Covers (r stage seen : List α) : Prop where
  seen_sub : ∀ x ∈ seen, x ∈ r
  stage_sub : ∀ x ∈ stage, x ∈ r
  closed : ∀ y ∈ r, ∀ c ∈ next y, c ∈ r

section Stage

variable {seen : List α}

theorem mem_pushNew {c : α} : ∀ {stage l : List α}, c ∈ pushNew seen stage l ↔ c ∈ stage ∨ (c ∈ l ∧ c ∉ seen) := by
  intro stage l
  induction l generalizing stage with
  | nil => simp [pushNew]
  | cons a l ih =>
    change c ∈ pushNew seen (if a ∈ seen then stage else stage.insert a) l ↔ _
    rw [ih]
    by_cases ha : a ∈ seen
    · rw [if_pos ha]
      constructor
      · rintro (h | ⟨hl, hs⟩)
        · exact .inl h
        · exact .inr ⟨List.mem_cons_of_mem a hl, hs⟩
      · rintro (h | ⟨hl, hs⟩)
        · exact .inl h
        · rcases List.mem_cons.1 hl with rfl | hl
          · exact absurd ha hs
          · exact .inr ⟨hl, hs⟩
    · rw [if_neg ha, List.mem_insert_iff, List.mem_cons]
      constructor
      · rintro ((rfl | h) | ⟨hl, hs⟩)
        · exact .inr ⟨.inl rfl, ha⟩
        · exact .inl h
        · exact .inr ⟨.inr hl, hs⟩
      · rintro (h | ⟨rfl | hl, hs⟩)
        · exact .inl (.inr h)
        · exact .inl (.inl rfl)
        · exact .inr ⟨hl, hs⟩

theorem nodup_pushNew : ∀ {stage l : List α}, stage.Nodup → (pushNew seen stage l).Nodup := by
  intro stage l hs
  induction l generalizing stage with
  | nil => exact hs
  | cons a l ih =>
    apply ih
    by_cases ha : a ∈ seen
    · simpa [ha] using hs
    · simpa [ha] using hs.insert

end Stage

/-- Taking a node of `U` that the result does not hold leaves fewer. -/
theorem unseenCount_insert_lt {U seen : List α} {x : α} (hx : x ∈ U) (hnew : x ∉ seen) :
    unseenCount U (seen.insert x) < unseenCount U seen := by
  have hsplit : U.filter (fun y => y ∉ seen.insert x) = (U.filter fun y => y ∉ seen).filter fun y => y ≠ x := by
    rw [List.filter_filter]
    apply List.filter_congr
    intro y _
    by_cases hy : y = x <;> simp [hy, hnew]
  unfold unseenCount
  rw [hsplit, List.length_filter_lt_length_iff_exists]
  exact ⟨x, List.mem_filter.2 ⟨hx, by simpa using hnew⟩, by simp⟩

/-- Soundness: every node of the result was there at the start or is
reachable from a staged node. -/
theorem closureLoop_sound : ∀ (fuel : Nat) (stage seen : List α) (z : α), z ∈ closureLoop next fuel stage seen →
    z ∈ seen ∨ ∃ x ∈ stage, Relation.ReflTransGen (fun a b => b ∈ next a) x z := by
  intro fuel
  induction fuel with
  | zero => exact fun _ _ _ h => .inl h
  | succ fuel ih =>
    intro stage seen z h
    cases stage with
    | nil => exact .inl h
    | cons x stage =>
      rcases ih _ _ z h with hz | ⟨y, hy, hyz⟩
      · -- the node just taken, or one taken before
        rcases List.mem_insert_iff.1 hz with rfl | hz
        · exact .inr ⟨z, List.mem_cons_self, .refl⟩
        · exact .inl hz
      · -- a node staged before, or a successor of the node just taken
        rcases mem_pushNew.1 hy with hy | ⟨hy, -⟩
        · exact .inr ⟨y, List.mem_cons_of_mem x hy, hyz⟩
        · exact .inr ⟨x, List.mem_cons_self, .head hy hyz⟩

/-- Taking the first staged node keeps the frontier. -/
theorem Frontier.pop {x : α} {stage seen : List α} (hf : Frontier next (x :: stage) seen) :
    Frontier next (pushNew (seen.insert x) stage (next x)) (seen.insert x) := by
  have hx : x ∉ stage := (List.nodup_cons.1 hf.nodup).1
  refine ⟨fun y hy => ?_, nodup_pushNew (List.nodup_cons.1 hf.nodup).2, fun y hy c hc => ?_⟩
  · rcases mem_pushNew.1 hy with hy | ⟨-, hs⟩
    · rw [List.mem_insert_iff, not_or]
      exact ⟨fun he => hx (he ▸ hy), hf.disjoint y (List.mem_cons_of_mem x hy)⟩
    · exact hs
  · -- a successor of the node just taken is staged unless taken; the older
    -- nodes' successors were taken or staged already
    by_cases hcs : c ∈ seen.insert x
    · exact .inl hcs
    refine .inr (mem_pushNew.2 ?_)
    rcases List.mem_insert_iff.1 hy with rfl | hy
    · exact .inr ⟨hc, hcs⟩
    · rcases hf.closed y hy c hc with hc' | hc'
      · exact absurd (List.mem_insert_of_mem hc') hcs
      · rcases List.mem_cons.1 hc' with rfl | hc'
        · exact absurd List.mem_insert_self hcs
        · exact .inl hc'

omit [DecidableEq α] in
theorem Frontier.covers_nil {seen : List α} (hf : Frontier next [] seen) : Covers next seen [] seen :=
  ⟨fun _ h => h, fun _ h => absurd h List.not_mem_nil,
    fun y hy c hc => (hf.closed y hy c hc).resolve_right List.not_mem_nil⟩

section Covers

variable {next} (U : List α) (hU : ∀ x ∈ U, ∀ c ∈ next x, c ∈ U)
include hU

/-- Coverage: with fuel for every node of `U` not taken yet, the loop runs
until the stage is empty, so the result is closed. By induction on the
fuel, each round taking one node of `U`. -/
theorem closureLoop_covers : ∀ (fuel : Nat) (stage seen : List α), Frontier next stage seen →
    (∀ x ∈ stage, x ∈ U) → unseenCount U seen ≤ fuel → Covers next (closureLoop next fuel stage seen) stage seen := by
  intro fuel
  induction fuel with
  | zero =>
    intro stage seen hf hst hfuel
    cases stage with
    | nil => exact hf.covers_nil
    | cons x stage =>
      -- a staged node of `U` is not taken yet, so the fuel is not zero
      have := unseenCount_insert_lt (hst x List.mem_cons_self) (hf.disjoint x List.mem_cons_self)
      omega
  | succ fuel ih =>
    intro stage seen hf hst hfuel
    cases stage with
    | nil => exact hf.covers_nil
    | cons x stage =>
      have hx := hst x List.mem_cons_self
      have hfewer := unseenCount_insert_lt hx (hf.disjoint x List.mem_cons_self)
      have hstage : ∀ y ∈ pushNew (seen.insert x) stage (next x), y ∈ U := by
        intro y hy
        rcases mem_pushNew.1 hy with hy | ⟨hy, -⟩
        · exact hst y (List.mem_cons_of_mem x hy)
        · exact hU x hx y hy
      obtain ⟨hseen', hstage', hclosed⟩ := ih _ _ hf.pop hstage (by omega)
      refine ⟨fun y hy => hseen' y (List.mem_insert_of_mem hy), fun y hy => ?_, hclosed⟩
      rcases List.mem_cons.1 hy with rfl | hy
      · exact hseen' y List.mem_insert_self
      · exact hstage' y (mem_pushNew.2 (.inl hy))

/-- The loop computes the closure: the nodes it started with and those
reachable from the stage. -/
theorem closureLoop_mem_iff {fuel : Nat} {stage seen : List α} (hf : Frontier next stage seen)
    (hst : ∀ x ∈ stage, x ∈ U) (hfuel : unseenCount U seen ≤ fuel) (z : α) :
    z ∈ closureLoop next fuel stage seen ↔ z ∈ seen ∨ ∃ x ∈ stage, Relation.ReflTransGen (fun a b => b ∈ next a) x z := by
  refine ⟨closureLoop_sound next fuel stage seen z, ?_⟩
  have hcov := closureLoop_covers U hU fuel stage seen hf hst hfuel
  rintro (hz | ⟨x, hx, hxz⟩)
  · exact hcov.seen_sub z hz
  · -- along the path from the staged node, each step stays in the closed result
    induction hxz with
    | refl => exact hcov.stage_sub x hx
    | tail _ hbc ih => exact hcov.closed _ ih _ hbc

end Covers

end Tapyrus.Lib
