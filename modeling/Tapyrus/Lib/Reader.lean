import Tapyrus.Lib.Bytes
/-!
# Stream readers

A deserializer in the style of C++ `operator>>` on a byte stream: it consumes
a prefix of the stream and either yields a value or throws. `Reader ε α` is
`StateT` over the remaining bytes with the exceptions in `Except ε`.

The rules here are what every round-trip proof uses:

* `run_bind_eq_ok`: a successful sequence is a successful first step followed
  by a successful rest (the inversion lemma for `do` blocks);
* `readBytes_append`: reading `n` bytes from a stream that starts with `n`
  given bytes returns them and leaves the rest;
* `Decodes` and its composition rules `Decodes.bind`, `Decodes.pair`: a
  reader inverts a writer on every trailing stream;
* `Canonical`, the converse: what a reader accepts is the writer's encoding
  of the value it read.

`untilEmpty` reads elements while bytes remain, the loop
`while (s.size()) { ... }` that some hand-written readers use.
-/

namespace Tapyrus.Lib

/-- How a call ends: it returns a value, throws an exception, or fails an
`assert` and aborts the process. -/
inductive Ends (ε α : Type) where
  | returns (a : α)
  | throws (e : ε)
  | aborts
  deriving DecidableEq, Repr

/-- A deserializer over a byte stream: consumes a prefix or throws an `ε`. -/
abbrev Reader (ε α : Type) := StateT (List UInt8) (Except ε) α

variable {ε α β : Type}

namespace Reader

/-- Throw `e`, whatever the stream holds. -/
def throw (e : ε) : Reader ε α := fun _ => .error e

@[simp] theorem run_pure (a : α) (s : List UInt8) :
    StateT.run (pure a : Reader ε α) s = .ok (a, s) := rfl

@[simp] theorem run_throw (e : ε) (s : List UInt8) :
    StateT.run (throw e : Reader ε α) s = .error e := rfl

theorem run_bind (x : Reader ε α) (f : α → Reader ε β) (s : List UInt8) :
    StateT.run (x >>= f) s =
      match StateT.run x s with
      | .ok (a, s') => StateT.run (f a) s'
      | .error e => .error e := by
  simp only [StateT.run_bind]
  rcases StateT.run x s with e | ⟨a, s'⟩ <;> rfl

/-- A `do` block succeeds exactly when its first step succeeds and the rest
succeeds from where the first step stopped. -/
theorem run_bind_eq_ok {x : Reader ε α} {f : α → Reader ε β} {s s'' : List UInt8} {b : β} :
    StateT.run (x >>= f) s = .ok (b, s'') ↔
      ∃ a s', StateT.run x s = .ok (a, s') ∧ StateT.run (f a) s' = .ok (b, s'') := by
  rw [run_bind]
  constructor
  · intro h
    split at h
    · exact ⟨_, _, ‹_›, h⟩
    · cases h
  · rintro ⟨a, s', hx, hf⟩
    rw [hx]; exact hf

theorem run_bind_of_ok {x : Reader ε α} {f : α → Reader ε β} {s s' : List UInt8} {a : α}
    (hx : StateT.run x s = .ok (a, s')) : StateT.run (x >>= f) s = StateT.run (f a) s' := by
  rw [run_bind, hx]

theorem run_bind_of_error {x : Reader ε α} {f : α → Reader ε β} {s : List UInt8} {e : ε}
    (hx : StateT.run x s = .error e) : StateT.run (x >>= f) s = .error e := by
  rw [run_bind, hx]

/-- The same reader with its exceptions wrapped by `f`: a callee read by a
caller that throws more kinds of exception. -/
def mapError {ε' : Type} (f : ε → ε') (r : Reader ε α) : Reader ε' α := fun s => (r s).mapError f

@[simp] theorem run_mapError {ε' : Type} (f : ε → ε') (r : Reader ε α) (s : List UInt8) :
    StateT.run (mapError f r) s = (StateT.run r s).mapError f := rfl

end Reader

/-- Read exactly `n` bytes, throwing `eof` when fewer remain. -/
def readBytes (eof : ε) (n : Nat) : Reader ε (List UInt8) := fun s =>
  if n ≤ s.length then .ok (s.take n, s.drop n) else .error eof

theorem readBytes_append (eof : ε) (bs rest : List UInt8) :
    StateT.run (readBytes eof bs.length) (bs ++ rest) = .ok (bs, rest) := by
  simp [readBytes, StateT.run]

theorem readBytes_of_le {eof : ε} {n : Nat} {s : List UInt8} (h : n ≤ s.length) :
    StateT.run (readBytes eof n) s = .ok (s.take n, s.drop n) := by
  simp [readBytes, StateT.run, h]

theorem readBytes_of_lt {eof : ε} {n : Nat} {s : List UInt8} (h : s.length < n) :
    StateT.run (readBytes eof n) s = .error eof := by
  simp [readBytes, StateT.run, Nat.not_le.2 h]

theorem readBytes_ok {eof : ε} {n : Nat} {s r s' : List UInt8}
    (h : StateT.run (readBytes eof n) s = .ok (r, s')) : s = r ++ s' ∧ r.length = n := by
  simp only [readBytes, StateT.run] at h
  split at h
  · cases h; exact ⟨(List.take_append_drop n s).symm, by simp; omega⟩
  · cases h

/-! ## Round trips -/

/-- `r` reads back what `enc` wrote for `a`, whatever follows in the stream. -/
def Decodes (r : Reader ε α) (enc : α → List UInt8) (a : α) : Prop :=
  ∀ rest, StateT.run r (enc a ++ rest) = .ok (a, rest)

theorem Decodes.bind {r : Reader ε α} {enc : α → List UInt8} {a : α} (h : Decodes r enc a)
    (f : α → Reader ε β) (rest : List UInt8) :
    StateT.run (r >>= f) (enc a ++ rest) = StateT.run (f a) rest :=
  Reader.run_bind_of_ok (h rest)

theorem Decodes.mapError {ε' : Type} {r : Reader ε α} {enc : α → List UInt8} {a : α} (h : Decodes r enc a)
    (f : ε → ε') : Decodes (Reader.mapError f r) enc a := by
  intro rest
  rw [Reader.run_mapError, h rest]
  rfl

/-- Two readers in sequence read back two writers in sequence. -/
theorem Decodes.pair {r₁ : Reader ε α} {r₂ : Reader ε β} {e₁ : α → List UInt8} {e₂ : β → List UInt8}
    {a : α} {b : β} (h₁ : Decodes r₁ e₁ a) (h₂ : Decodes r₂ e₂ b) :
    Decodes (do let x ← r₁; let y ← r₂; pure (x, y)) (fun p => e₁ p.1 ++ e₂ p.2) (a, b) := by
  intro rest
  simp only [List.append_assoc]
  rw [h₁.bind, h₂.bind]
  rfl

/-! ## Reading a counted sequence -/

/-- Read `n` elements with `elem`, one after another: the loop of a vector's
`Unserialize` once the count is known. -/
def readN (elem : Reader ε α) : Nat → Reader ε (List α)
  | 0 => pure []
  | n + 1 => do
    let a ← elem
    let as ← readN elem n
    pure (a :: as)

/-- `readN` reads back the concatenation of what `enc` wrote for each element,
by induction on the list. -/
theorem readN_decodes {elem : Reader ε α} {enc : α → List UInt8} :
    ∀ {l : List α}, (∀ a ∈ l, Decodes elem enc a) → Decodes (readN elem l.length) (fun l => (l.map enc).flatten) l
  | [], _ => fun rest => rfl
  | a :: l, h => by
    intro rest
    have hl : Decodes (readN elem l.length) (fun l => (l.map enc).flatten) l :=
      readN_decodes fun b hb => h b (List.mem_cons_of_mem a hb)
    simp only [List.length_cons, readN, List.map_cons, List.flatten_cons, List.append_assoc]
    rw [(h a List.mem_cons_self).bind, hl.bind]
    rfl

/-! ## Canonical readers -/

/-- Whatever `r` accepts is what `enc` writes for the value it reads: each
accepted prefix of a stream is the encoding of its value. -/
def Canonical (r : Reader ε α) (enc : α → List UInt8) : Prop :=
  ∀ s a s', StateT.run r s = .ok (a, s') → s = enc a ++ s'

theorem canonical_readBytes (eof : ε) (n : Nat) : Canonical (readBytes eof n) id :=
  fun _ _ _ h => (readBytes_ok h).1

/-- A value computed from what a canonical reader read, and written back
as that. -/
theorem Canonical.map {r : Reader ε α} {enc : α → List UInt8} (h : Canonical r enc) {f : α → β}
    {enc' : β → List UInt8} (henc : ∀ a, enc' (f a) = enc a) : Canonical (do let a ← r; pure (f a)) enc' := by
  intro s b s₂ hrun
  obtain ⟨a, s₁, hr, hpure⟩ := Reader.run_bind_eq_ok.mp hrun
  cases hpure
  rw [h _ _ _ hr, henc]

/-- `readN` of a canonical element reader is canonical, by induction on the
count. -/
theorem readN_canonical {elem : Reader ε α} {enc : α → List UInt8} (h : Canonical elem enc) :
    ∀ n, Canonical (readN elem n) (fun l => (l.map enc).flatten)
  | 0 => fun s l s₁ hrun => by
    cases hrun
    rfl
  | n + 1 => fun s l s₃ hrun => by
    obtain ⟨a, s₁, ha, hrest⟩ := Reader.run_bind_eq_ok.mp hrun
    obtain ⟨as, s₂, has, hpure⟩ := Reader.run_bind_eq_ok.mp hrest
    cases hpure
    rw [h _ _ _ ha, readN_canonical h n _ _ _ has]
    simp only [List.map_cons, List.flatten_cons, List.append_assoc]

/-- `readN` returns as many elements as it was asked for. -/
theorem readN_length {elem : Reader ε α} : ∀ {n : Nat} {s s' : List UInt8} {l : List α},
    StateT.run (readN elem n) s = .ok (l, s') → l.length = n
  | 0, _, _, _, hrun => by
    cases hrun
    rfl
  | n + 1, _, _, _, hrun => by
    obtain ⟨a, s₁, -, hrest⟩ := Reader.run_bind_eq_ok.mp hrun
    obtain ⟨as, s₂, has, hpure⟩ := Reader.run_bind_eq_ok.mp hrest
    cases hpure
    rw [List.length_cons, readN_length has]

/-! ## Reading to the end of the stream -/

/-- Read elements with `elem` while the stream is not empty; `fuel` bounds
the number of rounds (the stream's length suffices for an `elem` that always
consumes a byte). -/
def untilEmpty (elem : Reader ε α) : Nat → Reader ε (List α)
  | 0 => pure []
  | fuel + 1 => fun s =>
    if s.isEmpty then .ok ([], s) else
      match StateT.run elem s with
      | .ok (a, s') =>
        match StateT.run (untilEmpty elem fuel) s' with
        | .ok (as, s'') => .ok (a :: as, s'')
        | .error e => .error e
      | .error e => .error e

end Tapyrus.Lib
