import Mathlib.Data.List.Basic
import RmwEcal.Codec.Text

/-!
# Occurrences of one string in another

`find` and `replaceAt` are `std::string::find` and `std::string::replace`.  What a program that goes
from one occurrence to the next works on is `Cut`: a string is cut at the leftmost occurrence of
another one, and what is behind it is cut again.  There is one way to do that and no more
(`exists_cut`, `Cut.unique`), and the pieces can be put together again with anything in the gaps.

Two facts about the pieces are all that is needed of them later.  A list of strings without the
separator, that do not begin one at their ends either, is what their own concatenation is cut into
(`cut_intercalate`); and a doubled symbol is in none of the pieces unless it was in the string
(`Cut.inside`), nor does it come up where they are put together (`not_pair_infix_intercalate`).
-/

set_option autoImplicit false

namespace Codec

variable {α : Type}

/-! ## Finding and replacing -/

section Find

variable [DecidableEq α]

/-- The position of the first occurrence. -/
def firstOccurrence (search : List α) : List α → Option ℕ
  | [] => if search = [] then some 0 else none
  | c :: s =>
    if search.isPrefixOf (c :: s) then some 0 else (firstOccurrence search s).map (· + 1)

/-- `find`: the position of the first occurrence from a position on. -/
def find (s search : List α) (pos : ℕ) : Option ℕ :=
  if pos ≤ s.length then (firstOccurrence search (s.drop pos)).map (pos + ·) else none

/-- What is in front of the first occurrence and what is behind it; no other one begins before. -/
theorem firstOccurrence_some {search s : List α} {n : ℕ} (h : firstOccurrence search s = some n) :
    ∃ front back, s = front ++ search ++ back ∧ front.length = n ∧
      ∀ i < front.length, ¬ search <+: s.drop i := by
  induction s generalizing n with
  | nil =>
    rw [firstOccurrence, Option.ite_none_right_eq_some] at h
    obtain ⟨rfl, hn⟩ := h
    cases hn
    exact ⟨[], [], rfl, rfl, fun _ h => absurd h (Nat.not_lt_zero _)⟩
  | cons c s ih =>
    rw [firstOccurrence] at h
    split_ifs at h with hstart
    · cases h
      obtain ⟨back, hback⟩ := List.isPrefixOf_iff_prefix.mp hstart
      exact ⟨[], back, hback.symm, rfl, fun _ h => absurd h (Nat.not_lt_zero _)⟩
    · obtain ⟨m, hm, rfl⟩ := Option.map_eq_some_iff.mp h
      obtain ⟨front, back, hs, rfl, hleft⟩ := ih hm
      refine ⟨c :: front, back, by rw [hs, List.cons_append, List.cons_append], rfl, ?_⟩
      intro i hi
      cases i with
      | zero => exact fun hat => hstart (List.isPrefixOf_iff_prefix.mpr hat)
      | succ i => exact hleft i (Nat.lt_of_succ_lt_succ hi)

theorem firstOccurrence_none {search s : List α} (h : firstOccurrence search s = none) :
    ¬ search <:+: s := by
  induction s with
  | nil =>
    rw [firstOccurrence] at h
    split_ifs at h with hne
    exact fun hinside => hne (List.infix_nil.mp hinside)
  | cons c s ih =>
    rw [firstOccurrence] at h
    split_ifs at h with hstart
    rw [Option.map_eq_none_iff] at h
    rw [List.infix_cons_iff, not_or]
    exact ⟨fun hat => hstart (List.isPrefixOf_iff_prefix.mpr hat), ih h⟩

/-- What has been passed makes no difference. -/
theorem find_append (done rest search : List α) :
    find (done ++ rest) search done.length =
      (firstOccurrence search rest).map (done.length + ·) := by
  rw [find, if_pos (by rw [List.length_append]; omega), List.drop_left]

end Find

/-- `replace`: so many symbols from a position on give way to others. -/
def replaceAt (s : List α) (pos count : ℕ) (replace : List α) : List α :=
  s.take pos ++ replace ++ s.drop (pos + count)

theorem replaceAt_append (front search back replace : List α) :
    replaceAt (front ++ search ++ back) front.length search.length replace =
      front ++ replace ++ back := by
  rw [replaceAt, ← List.length_append, List.drop_left, List.append_assoc front search,
    List.take_left]

/-! ## Cutting a string at its separators -/

/-- A string is cut at the leftmost occurrence of a separator, and again behind that. -/
inductive Cut (sep : List α) : List α → List (List α) → Prop
  | last {s : List α} (h : ¬ sep <:+: s) : Cut sep s [s]
  | piece {s rest : List α} {pieces : List (List α)}
      (h : ∀ i < s.length, ¬ sep <+: (s ++ sep ++ rest).drop i) (hrest : Cut sep rest pieces) :
      Cut sep (s ++ sep ++ rest) (s :: pieces)

section Cut

variable {sep s : List α} {pieces : List (List α)}

theorem Cut.ne_nil (h : Cut sep s pieces) : pieces ≠ [] := by
  cases h with
  | last | piece => exact List.cons_ne_nil _ _

/-- The pieces and the separators make up the string. -/
theorem Cut.intercalate (h : Cut sep s pieces) : sep.intercalate pieces = s := by
  induction h with
  | last => exact List.intercalate_singleton
  | piece _ hrest ih => rw [List.intercalate_cons_of_ne_nil hrest.ne_nil, ih]

/-- The pieces are parts of the string. -/
theorem Cut.inside (h : Cut sep s pieces) : ∀ piece ∈ pieces, piece <:+: s := by
  induction h with
  | last => exact fun piece hmem => List.mem_singleton.mp hmem ▸ List.infix_rfl
  | @piece s rest pieces _ _ ih =>
    intro piece hmem
    obtain rfl | hmem := List.mem_cons.mp hmem
    · exact ⟨[], sep ++ rest, by rw [List.nil_append, List.append_assoc]⟩
    · exact (ih piece hmem).trans (List.suffix_append _ _).isInfix

/-- The separator is in none of them. -/
theorem Cut.not_inside (hsep : sep ≠ []) (h : Cut sep s pieces) :
    ∀ piece ∈ pieces, ¬ sep <:+: piece := by
  induction h with
  | last h => exact fun piece hmem => List.mem_singleton.mp hmem ▸ h
  | @piece s rest pieces hleft _ ih =>
    intro piece hmem
    obtain rfl | hmem := List.mem_cons.mp hmem
    · rintro ⟨front, back, rfl⟩
      have hpos := List.length_pos_iff.mpr hsep
      refine hleft front.length ?_ ?_
      · rw [List.length_append, List.length_append]
        omega
      · simp only [List.append_assoc, List.drop_left]
        exact List.prefix_append _ _
    · exact ih piece hmem

/-- The leftmost occurrence is in one place only. -/
theorem eq_of_leftmost {s₁ s₂ rest₁ rest₂ : List α} (h : s₁ ++ sep ++ rest₁ = s₂ ++ sep ++ rest₂)
    (h₁ : ∀ i < s₁.length, ¬ sep <+: (s₁ ++ sep ++ rest₁).drop i)
    (h₂ : ∀ i < s₂.length, ¬ sep <+: (s₂ ++ sep ++ rest₂).drop i) : s₁ = s₂ ∧ rest₁ = rest₂ := by
  have hat : ∀ s rest : List α, sep <+: (s ++ sep ++ rest).drop s.length := by
    intro s rest
    rw [List.append_assoc, List.drop_left]
    exact List.prefix_append _ _
  have hlen : s₁.length = s₂.length := by
    refine Nat.le_antisymm (Nat.le_of_not_lt fun hlt => ?_) (Nat.le_of_not_lt fun hlt => ?_)
    · exact h₁ _ hlt (h ▸ hat s₂ rest₂)
    · exact h₂ _ hlt (h ▸ hat s₁ rest₁)
  rw [List.append_assoc, List.append_assoc] at h
  obtain ⟨rfl, hrest⟩ := List.append_inj h hlen
  exact ⟨rfl, List.append_cancel_left hrest⟩

theorem firstOccurrence_of_leftmost [DecidableEq α] {rest : List α}
    (h : ∀ i < s.length, ¬ sep <+: (s ++ sep ++ rest).drop i) :
    firstOccurrence sep (s ++ sep ++ rest) = some s.length := by
  cases hfirst : firstOccurrence sep (s ++ sep ++ rest) with
  | none => exact absurd (List.infix_append _ _ _) (firstOccurrence_none hfirst)
  | some n =>
    obtain ⟨front, back, heq, rfl, hleft⟩ := firstOccurrence_some hfirst
    obtain ⟨rfl, -⟩ := eq_of_leftmost heq h (heq ▸ hleft)
    rfl

theorem firstOccurrence_of_not_inside [DecidableEq α] (h : ¬ sep <:+: s) :
    firstOccurrence sep s = none := by
  cases hfirst : firstOccurrence sep s with
  | none => rfl
  | some n =>
    obtain ⟨front, back, rfl, -, -⟩ := firstOccurrence_some hfirst
    exact absurd (List.infix_append _ _ _) h

/-- **There is one way to cut a string.** -/
theorem Cut.unique {pieces' : List (List α)} (h : Cut sep s pieces) (h' : Cut sep s pieces') :
    pieces' = pieces := by
  induction h generalizing pieces' with
  | last hnone =>
    cases h' with
    | last => rfl
    | piece => exact absurd (List.infix_append _ _ _) hnone
  | @piece s rest pieces hleft hrest ih =>
    generalize hwhole : s ++ sep ++ rest = whole at h'
    cases h' with
    | last hnone => exact absurd (hwhole ▸ List.infix_append _ _ _) hnone
    | piece hleft' hrest' =>
      obtain ⟨rfl, rfl⟩ := eq_of_leftmost hwhole hleft hleft'
      rw [ih hrest']

/-- **And there is one**, with no more separators than symbols. -/
theorem exists_cut [DecidableEq α] (hsep : sep ≠ []) (s : List α) :
    ∃ pieces, Cut sep s pieces ∧ pieces.length ≤ s.length + 1 := by
  induction hn : s.length using Nat.strong_induction_on generalizing s with
  | h n ih =>
    cases hfirst : firstOccurrence sep s with
    | none => exact ⟨[s], .last (firstOccurrence_none hfirst), by simp⟩
    | some i =>
      obtain ⟨front, back, rfl, -, hleft⟩ := firstOccurrence_some hfirst
      have hpos := List.length_pos_iff.mpr hsep
      rw [List.length_append, List.length_append] at hn
      obtain ⟨pieces, hpieces, hlen⟩ := ih back.length (by omega) back rfl
      exact ⟨front :: pieces, .piece hleft hpieces, by rw [List.length_cons]; omega⟩

/-- A separator behind a string begins no earlier if none is in the string, nor begins there. -/
theorem leftmost_of_not_inside {s rest : List α} (h : ¬ sep <:+: s ++ sep.dropLast) :
    ∀ i < s.length, ¬ sep <+: (s ++ sep ++ rest).drop i := by
  rintro i hi ⟨back, hback⟩
  -- the occurrence ends before the last symbol of the separator behind the string
  have hlen : i + sep.length ≤ (s ++ sep.dropLast).length := by
    rw [List.length_append, List.length_dropLast]
    omega
  have hsep : ((s ++ sep.dropLast).drop i).take sep.length = sep := by
    have htake : s ++ sep.dropLast = (s ++ sep ++ rest).take (s ++ sep.dropLast).length := by
      rw [List.append_assoc, List.length_append, List.take_length_add_append, List.length_dropLast,
        List.take_append_of_le_length (Nat.sub_le _ _), List.dropLast_eq_take]
    rw [htake, List.drop_take, List.take_take, ← hback, Nat.min_eq_left (by omega), List.take_left]
  have hinside := (List.take_prefix sep.length ((s ++ sep.dropLast).drop i)).isInfix.trans
    (List.drop_suffix _ _).isInfix
  rw [hsep] at hinside
  exact h hinside

/-- **Strings that neither contain a separator nor begin one are what they are cut into again.** -/
theorem cut_intercalate (hne : pieces ≠ [])
    (h : ∀ piece ∈ pieces, ¬ sep <:+: piece ++ sep.dropLast) :
    Cut sep (sep.intercalate pieces) pieces := by
  induction pieces with
  | nil => exact absurd rfl hne
  | cons piece pieces ih =>
    by_cases hlast : pieces = []
    · subst hlast
      rw [List.intercalate_singleton]
      exact .last fun hinside => h piece (.head _) (hinside.trans (List.prefix_append _ _).isInfix)
    · rw [List.intercalate_cons_of_ne_nil hlast]
      exact .piece (leftmost_of_not_inside (h piece (.head _)))
        (ih hlast fun piece' hmem => h piece' (.tail _ hmem))

end Cut

/-! ## Doubled symbols -/

theorem pair_infix_append_iff {a b : α} {s t : List α} : [a, b] <:+: s ++ t ↔
    [a, b] <:+: s ∨ [a, b] <:+: t ∨ ([a] <:+ s ∧ [b] <+: t) := by
  rw [List.infix_append_iff_ne_nil]
  refine or_congr_right (or_congr_right ⟨?_, fun h => ?_⟩)
  · rintro ⟨l₁, l₂, h₁, h₂, heq, hs, ht⟩
    obtain ⟨x, l₁, rfl⟩ := List.exists_cons_of_ne_nil h₁
    obtain ⟨y, l₂, rfl⟩ := List.exists_cons_of_ne_nil h₂
    have hlen := congrArg List.length heq
    simp only [List.length_append, List.length_cons, List.length_nil] at hlen
    obtain rfl := List.eq_nil_of_length_eq_zero (show l₁.length = 0 by omega)
    obtain rfl := List.eq_nil_of_length_eq_zero (show l₂.length = 0 by omega)
    cases heq
    exact ⟨hs, ht⟩
  · exact ⟨[a], [b], List.cons_ne_nil _ _, List.cons_ne_nil _ _, rfl, h.1, h.2⟩

/-- **A doubled symbol does not come up between pieces** that have something else between them. -/
theorem not_pair_infix_intercalate {c : α} {sep : List α} (hsep : sep ≠ []) (hc : c ∉ sep)
    {pieces : List (List α)} (h : ∀ piece ∈ pieces, ¬ [c, c] <:+: piece) :
    ¬ [c, c] <:+: sep.intercalate pieces := by
  induction pieces with
  | nil =>
    rw [List.intercalate_nil, List.infix_nil]
    exact List.cons_ne_nil _ _
  | cons piece pieces ih =>
    by_cases hlast : pieces = []
    · subst hlast
      rw [List.intercalate_singleton]
      exact h piece (.head _)
    · have hrest := ih fun piece' hmem => h piece' (.tail _ hmem)
      rw [List.intercalate_cons_of_ne_nil hlast, pair_infix_append_iff, pair_infix_append_iff]
      rintro ((hpiece | hin | ⟨-, hfirst⟩) | hin | ⟨hend, -⟩)
      · exact h piece (.head _) hpiece
      · exact hc (hin.subset (.head _))
      · exact hc (hfirst.subset (.head _))
      · exact hrest hin
      · have hend' := (List.suffix_of_suffix_length_le hend (List.suffix_append piece sep)
          (List.length_pos_iff.mpr hsep)).subset (.head _)
        exact hc hend'

end Codec
