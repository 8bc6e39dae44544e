import Mathlib.Algebra.Order.Ring.Nat
import Mathlib.Data.List.Basic

/-!
# Positions in strings

The few functions of `std::string` that code which takes names apart relies on, over lists of any
symbols.  Positions are 64-bit numbers, so that arithmetic with `npos` wraps around.
-/

set_option autoImplicit false

namespace Codec

variable {α : Type}

/-- The difference of two 64-bit sizes. -/
def sizeSub (a b : ℕ) : ℕ := if b ≤ a then a - b else a + 2 ^ 64 - b

/-- `substr`, up to the end where no count is given.  It throws if the position is beyond the
end. -/
def substr (s : List α) (pos : ℕ) (count : Option ℕ) : Option (List α) :=
  if pos ≤ s.length then some (match count with
    | some n => (s.drop pos).take n
    | none => s.drop pos) else none

/-- `find_last_of` a single symbol, if it occurs. -/
def findLast? [DecidableEq α] (c : α) : List α → Option ℕ
  | [] => none
  | x :: xs => ((findLast? c xs).map (· + 1)).or (if x = c then some 0 else none)

/-- The position after the last occurrence of a symbol: `find_last_of(c) + 1`, which is zero where
there is none. -/
def afterLast [DecidableEq α] (c : α) (s : List α) : ℕ := ((findLast? c s).map (· + 1)).getD 0

section Last

variable [DecidableEq α] {c : α}

theorem findLast?_of_not_mem {s : List α} (h : c ∉ s) : findLast? c s = none := by
  induction s with
  | nil => rfl
  | cons x s ih =>
    have hx : x ≠ c := fun heq => h (heq ▸ .head _)
    rw [findLast?, ih fun hs => h (.tail _ hs), if_neg hx]
    rfl

theorem findLast?_append {s t : List α} (h : c ∉ t) :
    findLast? c (s ++ c :: t) = some s.length := by
  induction s with
  | nil =>
    rw [List.nil_append, findLast?, findLast?_of_not_mem h, if_pos rfl]
    rfl
  | cons x s ih =>
    rw [List.cons_append, findLast?, ih]
    rfl

theorem afterLast_append {s t : List α} (h : c ∉ t) :
    afterLast c (s ++ c :: t) = s.length + 1 := by
  rw [afterLast, findLast?_append h]
  rfl

theorem exists_last {s : List α} (h : c ∈ s) : ∃ t u, s = t ++ c :: u ∧ c ∉ u := by
  induction s with
  | nil => cases h
  | cons x s ih =>
    by_cases hs : c ∈ s
    · obtain ⟨t, u, rfl, hu⟩ := ih hs
      exact ⟨x :: t, u, rfl, hu⟩
    · obtain rfl := (List.mem_cons.mp h).resolve_right hs
      exact ⟨[], s, rfl, hs⟩

end Last

theorem substr_rest (s t : List α) : substr (s ++ t) s.length none = some t := by
  rw [substr, if_pos (by rw [List.length_append]; omega)]
  simp only [List.drop_left]

theorem substr_count (s t : List α) (n : ℕ) :
    substr (s ++ t) s.length (some n) = some (t.take n) := by
  rw [substr, if_pos (by rw [List.length_append]; omega)]
  simp only [List.drop_left]

end Codec
