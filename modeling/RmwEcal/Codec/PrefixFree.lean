import RmwEcal.Codec.Basic

/-!
# Formats that can be read in one way only

A format is prefix-free if no encoding of a value begins with an encoding of another one.  Then an
encoding that something follows can still be told from what follows it, and stands for one value.

Being prefix-free composes, as far as it is known how many encodings there are: over a pair
(`PrefixFree.append`), over as many values in a row (`PrefixFree.each`), and over any number of them
behind a header that tells the number (`PrefixFree.counted`).
-/

set_option autoImplicit false

namespace Codec

variable {μ ν β : Type}

/-- No encoding of a value begins with one of another value, or with another one of its own. -/
def Format.PrefixFree (fmt : Format ν β) : Prop :=
  ∀ ⦃v v' : ν⦄ ⦃w w' rest rest' : List β⦄, fmt v w → fmt v' w' → w ++ rest = w' ++ rest' →
    v = v' ∧ w = w'

variable {fmt : Format ν β}

/-- Encodings of the same length are told apart as they are. -/
theorem Format.prefixFree_of_length {n : ℕ} (hlen : ∀ v w, fmt v w → w.length = n)
    (hunique : ∀ v v' w, fmt v w → fmt v' w → v = v') : fmt.PrefixFree := by
  intro v v' w w' rest rest' h h' heq
  obtain ⟨rfl, -⟩ := List.append_inj heq ((hlen v w h).trans (hlen v' w' h').symm)
  exact ⟨hunique v v' w h h', rfl⟩

/-- A value is a value of another kind, under a name. -/
theorem Format.PrefixFree.map {fmt : Format μ β} (h : fmt.PrefixFree) (name : μ → ν) :
    Format.PrefixFree fun (v : ν) w => ∃ x, v = name x ∧ fmt x w := by
  rintro _ _ w w' rest rest' ⟨x, rfl, hx⟩ ⟨x', rfl, hx'⟩ heq
  obtain ⟨rfl, rfl⟩ := h hx hx' heq
  exact ⟨rfl, rfl⟩

/-- A first value and the others. -/
theorem Format.PrefixFree.append {tail : Format (List ν) β} (h : fmt.PrefixFree)
    (htail : tail.PrefixFree) : Format.PrefixFree fun (vs : List ν) w =>
      ∃ v rest w₁ w₂, vs = v :: rest ∧ w = w₁ ++ w₂ ∧ fmt v w₁ ∧ tail rest w₂ := by
  rintro _ _ _ _ more more' ⟨v, vs, w₁, w₂, rfl, rfl, h₁, h₂⟩
    ⟨v', vs', w₁', w₂', rfl, rfl, h₁', h₂'⟩ heq
  rw [List.append_assoc, List.append_assoc] at heq
  obtain ⟨rfl, rfl⟩ := h h₁ h₁' heq
  obtain ⟨rfl, rfl⟩ := htail h₂ h₂' (List.append_cancel_left heq)
  exact ⟨rfl, rfl⟩

/-- **As many values in a row.** -/
theorem Format.PrefixFree.each (h : fmt.PrefixFree) (n : ℕ) :
    Format.PrefixFree fun vs w => vs.length = n ∧ fmt.each vs w := by
  induction n with
  | zero =>
    rintro vs vs' w w' rest rest' ⟨hlen, hvs⟩ ⟨hlen', hvs'⟩ -
    obtain rfl := List.length_eq_zero_iff.mp hlen
    obtain rfl := List.length_eq_zero_iff.mp hlen'
    exact ⟨rfl, hvs.trans hvs'.symm⟩
  | succ n ih =>
    have hcons := h.append ih
    rintro (_ | ⟨v, vs⟩) (_ | ⟨v', vs'⟩) w w' rest rest' ⟨hlen, hvs⟩ ⟨hlen', hvs'⟩ heq
    · cases hlen
    · cases hlen
    · cases hlen'
    · obtain ⟨w₁, w₂, rfl, h₁, h₂⟩ := hvs
      obtain ⟨w₁', w₂', rfl, h₁', h₂'⟩ := hvs'
      exact hcons ⟨v, vs, w₁, w₂, rfl, rfl, h₁, Nat.succ.inj hlen, h₂⟩
        ⟨v', vs', w₁', w₂', rfl, rfl, h₁', Nat.succ.inj hlen', h₂'⟩ heq

/-- **Any number of values behind their number.** -/
theorem Format.PrefixFree.counted (h : fmt.PrefixFree) (bounded : ℕ → Prop)
    {header : ℕ → List β} {k : ℕ} (hlen : ∀ n, (header n).length = k)
    (hinj : ∀ m n, bounded m → bounded n → header m = header n → m = n) :
    Format.PrefixFree fun vs w =>
      bounded vs.length ∧ ∃ w', w = header vs.length ++ w' ∧ fmt.each vs w' := by
  rintro vs vs' _ _ rest rest' ⟨hb, w, rfl, hvs⟩ ⟨hb', w', rfl, hvs'⟩ heq
  rw [List.append_assoc, List.append_assoc] at heq
  obtain ⟨hheader, heq⟩ := List.append_inj heq ((hlen _).trans (hlen _).symm)
  have hcount : vs.length = vs'.length := hinj _ _ hb hb' hheader
  obtain ⟨rfl, rfl⟩ := h.each vs'.length ⟨hcount, hvs⟩ ⟨rfl, hvs'⟩ heq
  exact ⟨rfl, rfl⟩

/-- Symbols that stand for one value each. -/
theorem Format.prefixFree_symbol {symbol : ν → β} (hinj : Function.Injective symbol) :
    Format.PrefixFree fun v w => w = [symbol v] :=
  Format.prefixFree_of_length (fun v w h => by rw [h, List.length_singleton]) fun v v' w h h' =>
    hinj (List.singleton_inj.mp (h.symm.trans h'))

theorem Format.each_symbol (symbol : ν → β) (vs : List ν) :
    Format.each (fun v w => w = [symbol v]) vs (vs.map symbol) := by
  induction vs with
  | nil => rfl
  | cons v vs ih => exact ⟨[symbol v], vs.map symbol, rfl, rfl, ih⟩

end Codec
