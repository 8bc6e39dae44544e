import Mathlib.Data.List.TakeWhile
import RmwEcal.Codec.Occurrence

/-!
# String functions

`ConstructCString` and `ReplaceString` of `string_functions.hpp`.

`ReplaceString` has a position and a string that may get longer in every round.  What gets shorter
is the part of the string from the position on: all that is in front has been dealt with, and is
never looked at again.  So the loop works through the pieces that the string is cut into
(`replaceLoop_append`), and ends after the last one (`replaceString_substitutes`), unless there is
nothing to search for (`replaceLoop_empty`).

Strings are as long as they need to be; that memory may run out is not part of this.
-/

set_option autoImplicit false

namespace RmwEcal

open Codec

/-! ## The functions -/

/-- The character behind the last one of a C string. -/
def nul : Char := Char.ofNat 0

/-- `ConstructCString`: what `strlen` counts and `strcpy` copies. -/
def constructCString (value : List Char) : List Char := value.takeWhile (· ≠ nul)

/-- The loop of `ReplaceString`, for at most so many rounds. -/
def replaceLoop (search replace : List Char) : ℕ → List Char → ℕ → Option (List Char)
  | rounds, subject, pos =>
    match find subject search pos with
    | none => some subject
    | some pos =>
      match rounds with
      | 0 => none
      | rounds + 1 =>
        replaceLoop search replace rounds (replaceAt subject pos search.length replace)
          (pos + replace.length)

/-- `ReplaceString`.  There are no more rounds than characters, or the loop does not end. -/
def replaceString (subject search replace : List Char) : Option (List Char) :=
  replaceLoop search replace subject.length subject 0

/-! ## C strings -/

theorem constructCString_eq_self {value : List Char} (h : nul ∉ value) :
    constructCString value = value := by
  rw [constructCString, List.takeWhile_eq_self_iff]
  exact fun c hc => decide_eq_true fun heq => h (heq ▸ hc)

theorem nul_not_mem_constructCString (value : List Char) : nul ∉ constructCString value :=
  fun h => by simpa using List.mem_takeWhile_imp h

/-! ## The loop -/

section Loop

variable {search replace : List Char}

/-- **The loop replaces the separators between the pieces that are left**, whatever is in front of
them. -/
theorem replaceLoop_append {rest : List Char} {pieces : List (List Char)}
    (h : Cut search rest pieces) (done : List Char) {rounds : ℕ}
    (hrounds : pieces.length ≤ rounds + 1) :
    replaceLoop search replace rounds (done ++ rest) done.length =
      some (done ++ replace.intercalate pieces) := by
  induction h generalizing done rounds with
  | @last s hnone =>
    rw [replaceLoop, find_append, firstOccurrence_of_not_inside hnone, List.intercalate_singleton]
    rfl
  | @piece s rest pieces hleft hrest ih =>
    -- there is a round for every separator
    have hpos := List.length_pos_iff.mpr hrest.ne_nil
    rw [List.length_cons] at hrounds
    obtain ⟨rounds, rfl⟩ : ∃ r, rounds = r + 1 := ⟨rounds - 1, by omega⟩
    have hsubject : replaceAt (done ++ (s ++ search ++ rest)) (done.length + s.length)
        search.length replace = (done ++ s ++ replace) ++ rest := by
      rw [← List.length_append, ← List.append_assoc, ← List.append_assoc, replaceAt_append]
    have hpos : done.length + s.length + replace.length = (done ++ s ++ replace).length := by
      rw [List.length_append, List.length_append]
    rw [replaceLoop, find_append, firstOccurrence_of_leftmost hleft]
    simp only [Option.map_some]
    rw [hsubject, hpos, ih _ (by omega), List.intercalate_cons_of_ne_nil hrest.ne_nil]
    simp only [List.append_assoc]

/-- If there is nothing to search for, it is found again and again. -/
theorem replaceLoop_empty (rounds : ℕ) (done rest : List Char) :
    replaceLoop [] replace rounds (done ++ rest) done.length = none := by
  have hfirst : firstOccurrence [] rest = some 0 := by cases rest <;> rfl
  induction rounds generalizing done with
  | zero =>
    rw [replaceLoop, find_append, hfirst]
    rfl
  | succ rounds ih =>
    have hsubject : replaceAt (done ++ rest) done.length ([] : List Char).length replace =
        (done ++ replace) ++ rest := by
      simpa using replaceAt_append done [] rest replace
    rw [replaceLoop, find_append, hfirst]
    simp only [Option.map_some, Nat.add_zero]
    rw [hsubject, ← List.length_append, ih]

/-- What a string has been cut at is replaced. -/
theorem replaceString_of_cut {subject : List Char} {pieces : List (List Char)}
    (h : Cut search subject pieces) (hsearch : search ≠ []) (replace : List Char) :
    replaceString subject search replace = some (replace.intercalate pieces) := by
  obtain ⟨pieces', hcut, hlen⟩ := exists_cut hsearch subject
  obtain rfl := h.unique hcut
  exact replaceLoop_append h [] (by omega)

end Loop

/-- **`ReplaceString` replaces what the string is cut at, and nothing else.**  The loop ends, in no
more rounds than the string has characters, and the pieces between the leftmost occurrences are put
together again with the replacement in the gaps, whatever that contains. -/
theorem replaceString_substitutes {search : List Char} (hsearch : search ≠ [])
    (subject replace : List Char) :
    ∃ pieces, (∀ pieces', Cut search subject pieces' ↔ pieces' = pieces) ∧
      search.intercalate pieces = subject ∧
      (∀ rounds, subject.length ≤ rounds →
        replaceLoop search replace rounds subject 0 = some (replace.intercalate pieces)) ∧
      replaceString subject search replace = some (replace.intercalate pieces) := by
  obtain ⟨pieces, hcut, hlen⟩ := exists_cut hsearch subject
  have hloop : ∀ rounds, subject.length ≤ rounds →
      replaceLoop search replace rounds subject 0 = some (replace.intercalate pieces) := by
    intro rounds hrounds
    exact replaceLoop_append hcut [] (by omega)
  exact ⟨pieces, fun pieces' => ⟨hcut.unique, fun heq => heq ▸ hcut⟩, hcut.intercalate, hloop,
    hloop _ (Nat.le_refl _)⟩

/-- Overlapping occurrences, and a replacement with another one in it. -/
theorem replaceString_substitutes_overlapping :
    ∃ pieces, (∀ pieces', Cut ['_', '_'] ['a', '_', '_', '_', 'b'] pieces' ↔ pieces' = pieces) ∧
      List.intercalate ['_', '_'] pieces = ['a', '_', '_', '_', 'b'] ∧
      (∀ rounds, 5 ≤ rounds →
        replaceLoop ['_', '_'] ['_', '_', '/'] rounds ['a', '_', '_', '_', 'b'] 0 =
          some (List.intercalate ['_', '_', '/'] pieces)) ∧
      replaceString ['a', '_', '_', '_', 'b'] ['_', '_'] ['_', '_', '/'] =
        some (List.intercalate ['_', '_', '/'] pieces) :=
  replaceString_substitutes (by decide) ['a', '_', '_', '_', 'b'] ['_', '_', '/']

example : replaceString ['a', '_', '_', '_', 'b'] ['_', '_'] ['_', '_', '/'] =
    some ['a', '_', '_', '/', '_', 'b'] := rfl

end RmwEcal
