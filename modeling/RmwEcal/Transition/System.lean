import Mathlib.Data.List.Basic

/-!
# Systems that take one step after the other

A `System` is a state and a step function.  The label of a step says whose step it is and settles
whatever is left to chance, so that a step is a function of state and label; `none` means that it
cannot be taken.  Threads interleave in any way, since any label may follow any other.

Where several threads are at work, a state may list how far each of them is, and a label names a
thread by its position in the list (`exists_split`).

`Reachable ok` are the states of the runs all of whose steps meet the condition `ok`, which looks at
the state before the step.  Everything that is proved about them goes through
`Reachable.invariant`.
-/

set_option autoImplicit false

namespace Transition

variable {σ α : Type}

/-- A state to begin with, and labelled steps. -/
structure System (σ α : Type) where
  /-- The state at the beginning. -/
  init : σ
  /-- The state after a step, if it can be taken. -/
  step : σ → α → Option σ

namespace System

variable (S : System σ α)

/-- No condition on the steps. -/
def any : σ → α → Prop := fun _ _ => True

/-- The states of the runs whose steps meet a condition. -/
inductive Reachable (ok : σ → α → Prop) : σ → Prop
  | init : Reachable ok S.init
  | step {s s' : σ} {a : α} (h : Reachable ok s) (hok : ok s a) (hstep : S.step s a = some s') :
      Reachable ok s'

instance (s : σ) (a : α) : Decidable (any s a) := isTrue trivial

/-- The state after a run whose steps meet a condition that can be checked. -/
def exec (ok : σ → α → Prop) [∀ s a, Decidable (ok s a)] : σ → List α → Option σ
  | s, [] => some s
  | s, a :: as => if ok s a then (S.step s a).bind fun s' => exec ok s' as else none

variable {S} {ok : σ → α → Prop}

/-- **What holds at the beginning and is kept by every step holds throughout.** -/
theorem Reachable.invariant {P : σ → Prop} {s : σ} (h : S.Reachable ok s) (hinit : P S.init)
    (hstep : ∀ s a s', P s → ok s a → S.step s a = some s' → P s') : P s := by
  induction h with
  | init => exact hinit
  | step _ hok hs ih => exact hstep _ _ _ ih hok hs

/-- A condition on the steps may be weakened. -/
theorem Reachable.mono {ok' : σ → α → Prop} {s : σ} (h : S.Reachable ok s)
    (himp : ∀ s a, ok s a → ok' s a) : S.Reachable ok' s := by
  induction h with
  | init => exact .init
  | step _ hok hs ih => exact .step ih (himp _ _ hok) hs

/-- It may be forgotten. -/
theorem Reachable.any {s : σ} (h : S.Reachable ok s) : S.Reachable System.any s :=
  h.mono fun _ _ _ => trivial

/-- What is known of all states may be used in showing that a step keeps something else. -/
theorem Reachable.invariant_of {P Q : σ → Prop} {s : σ} (h : S.Reachable ok s)
    (hQ : ∀ s, S.Reachable ok s → Q s) (hinit : P S.init)
    (hstep : ∀ s a s', Q s → P s → ok s a → S.step s a = some s' → P s') : P s := by
  induction h with
  | init => exact hinit
  | step hr hok hs ih => exact hstep _ _ _ (hQ _ hr) ih hok hs

theorem Reachable.exec [∀ s a, Decidable (ok s a)] {s s' : σ} (h : S.Reachable ok s) {as : List α}
    (hrun : S.exec ok s as = some s') : S.Reachable ok s' := by
  induction as generalizing s with
  | nil => cases hrun; exact h
  | cons a as ih =>
    rw [System.exec, Option.ite_none_right_eq_some] at hrun
    obtain ⟨hok, hrun⟩ := hrun
    obtain ⟨s₁, hstep, hrun⟩ := Option.bind_eq_some_iff.mp hrun
    exact ih (h.step hok hstep) hrun

/-- What every step keeps is kept by a run. -/
theorem exec_keeps [∀ s a, Decidable (ok s a)] {P : σ → Prop}
    (hstep : ∀ s a s', P s → ok s a → S.step s a = some s' → P s') {s s' : σ} (hs : P s)
    {as : List α} (hrun : S.exec ok s as = some s') : P s' := by
  induction as generalizing s with
  | nil => cases hrun; exact hs
  | cons a as ih =>
    rw [exec, Option.ite_none_right_eq_some] at hrun
    obtain ⟨hok, hrun⟩ := hrun
    obtain ⟨s₁, hfirst, hrun⟩ := Option.bind_eq_some_iff.mp hrun
    exact ih (hstep s a s₁ hs hok hfirst) hrun

theorem exec_any_cons (s : σ) (a : α) (as : List α) :
    S.exec any s (a :: as) = (S.step s a).bind fun s' => S.exec any s' as := if_pos trivial

/-- **A run looked at in another way** is a run of another system, if every step is a step of it
then. -/
theorem exec_map {τ : Type} {T : System τ α} {P : σ → Prop} {f : σ → τ}
    (hkeeps : ∀ s a s', P s → S.step s a = some s' → P s')
    (hstep : ∀ s a, P s → (S.step s a).map f = T.step (f s) a) {s : σ} (hs : P s) (as : List α) :
    (S.exec any s as).map f = T.exec any (f s) as := by
  induction as generalizing s with
  | nil => rfl
  | cons a as ih =>
    rw [exec_any_cons, exec_any_cons, ← hstep s a hs]
    cases hfirst : S.step s a with
    | none => rfl
    | some s' => exact ih (hkeeps s a s' hs hfirst)

/-! ### Coming to an end

Every step leaves less to do, and there is a step as long as the end has not been reached. -/

section Ends

variable [∀ s a, Decidable (ok s a)] {P : σ → Prop} {work : σ → ℕ}

/-- **A run takes as many steps as there is work, or fewer.** -/
theorem length_le_of_exec
    (hstep : ∀ s a s', P s → ok s a → S.step s a = some s' → P s' ∧ work s' < work s) {s s' : σ}
    (hs : P s) {as : List α} (hrun : S.exec ok s as = some s') :
    P s' ∧ as.length + work s' ≤ work s := by
  induction as generalizing s with
  | nil => cases hrun; exact ⟨hs, Nat.le_of_eq (Nat.zero_add _)⟩
  | cons a as ih =>
    rw [exec, Option.ite_none_right_eq_some] at hrun
    obtain ⟨hok, hrun⟩ := hrun
    obtain ⟨s₁, hfirst, hrun⟩ := Option.bind_eq_some_iff.mp hrun
    obtain ⟨hs₁, hlt⟩ := hstep s a s₁ hs hok hfirst
    obtain ⟨hs', hle⟩ := ih hs₁ hrun
    refine ⟨hs', ?_⟩
    rw [List.length_cons]
    omega

/-- **It can be brought to the end.** -/
theorem exists_exec_of_work {Q : σ → Prop}
    (hstep : ∀ s a s', P s → ok s a → S.step s a = some s' → P s' ∧ work s' < work s)
    (hgoes : ∀ s, P s → ¬ Q s → ∃ a, ok s a ∧ (S.step s a).isSome) {s : σ} (hs : P s) :
    ∃ as s', S.exec ok s as = some s' ∧ P s' ∧ Q s' := by
  induction hn : work s using Nat.strongRecOn generalizing s with
  | ind n ih =>
    subst hn
    by_cases hend : Q s
    · exact ⟨[], s, rfl, hs, hend⟩
    · obtain ⟨a, hok, hsome⟩ := hgoes s hs hend
      obtain ⟨s₁, hfirst⟩ := Option.isSome_iff_exists.mp hsome
      obtain ⟨hs₁, hlt⟩ := hstep s a s₁ hs hok hfirst
      obtain ⟨as, s', hrun, hend'⟩ := ih (work s₁) hlt hs₁ rfl
      refine ⟨a :: as, s', ?_, hend'⟩
      rw [exec, if_pos hok, hfirst, Option.bind_some, hrun]

end Ends

/-- A run that can be computed reaches where it ends. -/
theorem reachable_of_exec [∀ s a, Decidable (ok s a)] {s : σ} (as : List α)
    (hrun : S.exec ok S.init as = some s) : S.Reachable ok s := Reachable.exec .init hrun

end System

/-! ## Threads by their position -/

variable {β : Type}

/-- **What can happen to the thread at a position.**  It moves on, or it ends; the others stay as
they are. -/
theorem exists_split {l : List β} {i : ℕ} {a : β} (h : l[i]? = some a) :
    ∃ l₁ l₂, l = l₁ ++ a :: l₂ ∧ (∀ f, l.modify i f = l₁ ++ f a :: l₂) ∧
      (∀ b, l.set i b = l₁ ++ b :: l₂) ∧ l.eraseIdx i = l₁ ++ l₂ ∧ l₁.length = i := by
  obtain ⟨hi, rfl⟩ := List.getElem?_eq_some_iff.mp h
  refine ⟨l.take i, l.drop (i + 1), ?_, fun f => List.modify_eq_take_cons_drop hi, fun b => ?_,
    List.eraseIdx_eq_take_drop_succ l i, List.length_take_of_le (Nat.le_of_lt hi)⟩
  · rw [List.getElem_cons_drop, List.take_append_drop]
  · rw [List.set_eq_take_append_cons_drop, if_pos hi]

/-- It is one of them. -/
theorem perm_eraseIdx {l : List β} {i : ℕ} {a : β} (h : l[i]? = some a) :
    l.Perm (a :: l.eraseIdx i) := by
  obtain ⟨l₁, l₂, rfl, -, -, herase, -⟩ := exists_split h
  rw [herase]
  exact List.perm_middle

/-- The thread that came last moves on. -/
theorem modify_concat_length (l : List β) (a : β) (f : β → β) :
    (l ++ [a]).modify l.length f = l ++ [f a] := by
  simp [List.modify_eq_set_getElem?]

/-- The thread that came last ends. -/
theorem eraseIdx_concat_length (l : List β) (a : β) : (l ++ [a]).eraseIdx l.length = l := by
  simp [List.eraseIdx_append_of_length_le]

section Members

variable {l₁ l₂ : List β} {a b c : β}

/-- The threads that are left were there before. -/
theorem mem_of_mem_remove (h : c ∈ l₁ ++ l₂) : c ∈ l₁ ++ a :: l₂ :=
  ((List.sublist_cons_self a l₂).append_left l₁).subset h

/-- All threads but the one that has moved on were there before. -/
theorem mem_replace (h : c ∈ l₁ ++ b :: l₂) : c ∈ l₁ ++ a :: l₂ ∨ c = b := by
  rw [List.mem_append, List.mem_cons] at h
  obtain h | rfl | h := h
  · exact .inl (List.mem_append_left _ h)
  · exact .inr rfl
  · exact .inl (mem_of_mem_remove (List.mem_append_right _ h))

/-- What is known of all threads stays so if it holds of the one that has moved on. -/
theorem forall_mem_replace {P : β → Prop} (h : ∀ c ∈ l₁ ++ a :: l₂, P c) (hb : P b) :
    ∀ c ∈ l₁ ++ b :: l₂, P c := by
  intro c hmem
  obtain hmem | rfl := mem_replace hmem
  · exact h c hmem
  · exact hb

end Members

end Transition
