import Tapyrus.Lib.Bytes
/-!
# Prefix codes

An encoder is a prefix code when an encoding, followed by any bytes, gives
back the value and the bytes that follow: no encoding is a proper prefix of
another, and no two values share one. Formats built from fixed-width
fields, counted sequences and concatenation are prefix codes, and that is
what makes a serialization injective.

`Cancels enc key p`: on the values that satisfy `p`, an encoding followed by
anything determines `key` of the value and what follows. `key` is the part
of the value the encoding holds: the value itself for a full encoding, less
for a format that leaves fields out.

The rules:

* `Cancels.of_length`: encodings of one fixed width that determine the key;
* `Cancels.append`: two encodings of one value in sequence;
* `Cancels.flatten`: the encodings of the elements of two lists of one length;
* `Cancels.counted`: a count that cancels, then that many elements;
* `Cancels.eq`: equal encodings give equal keys;
* `toLE_cancels`: little-endian integers of one width.
-/

namespace Tapyrus.Lib

variable {α β γ : Type}

/-- On the values that satisfy `p`, an encoding followed by any bytes
determines the key of the value and the bytes that follow. -/
def Cancels (enc : α → List UInt8) (key : α → β) (p : α → Prop) : Prop :=
  ∀ a b, p a → p b → ∀ r s, enc a ++ r = enc b ++ s → key a = key b ∧ r = s

namespace Cancels

variable {enc : α → List UInt8} {key : α → β} {p : α → Prop}

/-- Equal encodings give equal keys. -/
theorem eq (h : Cancels enc key p) {a b : α} (ha : p a) (hb : p b) (heq : enc a = enc b) : key a = key b :=
  (h a b ha hb [] [] (by rw [heq])).1

/-- Encodings of one width `w` that determine the key. -/
theorem of_length (w : Nat) (hlen : ∀ a, p a → (enc a).length = w)
    (hinj : ∀ a b, p a → p b → enc a = enc b → key a = key b) : Cancels enc key p := by
  intro a b ha hb r s h
  obtain ⟨henc, hrest⟩ := List.append_inj h (by rw [hlen a ha, hlen b hb])
  exact ⟨hinj a b ha hb henc, hrest⟩

/-- A key that the key determines. -/
theorem map {key' : α → γ} (h : Cancels enc key p) (hkey : ∀ a b, p a → p b → key a = key b → key' a = key' b) :
    Cancels enc key' p := by
  intro a b ha hb r s hab
  obtain ⟨hk, hrs⟩ := h a b ha hb r s hab
  exact ⟨hkey a b ha hb hk, hrs⟩

/-- Fewer values. -/
theorem mono {q : α → Prop} (h : Cancels enc key p) (hq : ∀ a, q a → p a) : Cancels enc key q :=
  fun a b ha hb => h a b (hq a ha) (hq b hb)

/-- The encoding of a part of the value. -/
theorem comp {δ : Type} (h : Cancels enc key p) (f : δ → α) :
    Cancels (fun d => enc (f d)) (fun d => key (f d)) (fun d => p (f d)) :=
  fun a b ha hb => h (f a) (f b) ha hb

/-- Two encodings of one value in sequence determine both keys. -/
theorem append {enc₂ : α → List UInt8} {key₂ : α → γ} (h₁ : Cancels enc key p) (h₂ : Cancels enc₂ key₂ p) :
    Cancels (fun a => enc a ++ enc₂ a) (fun a => (key a, key₂ a)) p := by
  intro a b ha hb r s h
  simp only [List.append_assoc] at h
  obtain ⟨hk₁, hr⟩ := h₁ a b ha hb _ _ h
  obtain ⟨hk₂, hrs⟩ := h₂ a b ha hb r s hr
  exact ⟨Prod.ext hk₁ hk₂, hrs⟩

/-- The encodings of the elements of two lists of one length, in sequence,
determine the keys element by element; by induction on the first list. -/
theorem flatten (h : Cancels enc key p) :
    ∀ {l l' : List α}, (∀ a ∈ l, p a) → (∀ a ∈ l', p a) → l.length = l'.length →
      ∀ r s, (l.map enc).flatten ++ r = (l'.map enc).flatten ++ s → l.map key = l'.map key ∧ r = s
  | [], [], _, _, _, r, s, hrs => ⟨rfl, hrs⟩
  | a :: l, b :: l', hl, hl', hlen, r, s, hrs => by
    simp only [List.map_cons, List.flatten_cons, List.append_assoc] at hrs
    obtain ⟨hab, htail⟩ := h a b (hl a List.mem_cons_self) (hl' b List.mem_cons_self) _ _ hrs
    obtain ⟨hkeys, hfinal⟩ := flatten h (fun x hx => hl x (List.mem_cons_of_mem a hx))
      (fun x hx => hl' x (List.mem_cons_of_mem b hx)) (by simpa using hlen) r s htail
    exact ⟨by rw [List.map_cons, List.map_cons, hab, hkeys], hfinal⟩

/-- A count that cancels, then that many elements: the keys of the elements. -/
theorem counted {cnt : Nat → List UInt8} {q : Nat → Prop} (hcnt : Cancels cnt id q) (h : Cancels enc key p) :
    Cancels (fun l : List α => cnt l.length ++ (l.map enc).flatten) (fun l => l.map key)
      (fun l => q l.length ∧ ∀ a ∈ l, p a) := by
  intro l l' hl hl' r s hrs
  simp only [List.append_assoc] at hrs
  obtain ⟨hlen, htail⟩ := hcnt _ _ hl.1 hl'.1 _ _ hrs
  exact h.flatten hl.2 hl'.2 hlen r s htail

end Cancels

/-- Little-endian integers of one width are a prefix code on the values
that width holds. -/
theorem toLE_cancels (w : Nat) : Cancels (toLE w) id (· < 256 ^ w) :=
  Cancels.of_length w (fun n _ => toLE_length w n) fun a b ha hb h => by
    rw [id, id, ← ofLE_toLE_of_lt ha, ← ofLE_toLE_of_lt hb, h]

end Tapyrus.Lib
