import RmwEcal.Shared.EventOwnership

/-!
# Counting events

An `Event` counts how often it was triggered and not taken, in eight bits.  `Trigger` adds one and
then notifies the wait set, if there is one, which makes no difference here.  `TakeTriggered` looks
whether the count is zero and then takes one off, and each of the two is atomic, but they are not so
together; any number of threads may be in it.

So the count can pass 255 when nobody takes anything for long enough, and it can fall below zero
when two threads have seen the same event.  It is what it should be until one of the two happens,
and not any longer (`event_counting`).
-/

set_option autoImplicit false

namespace RmwEcal

open Transition EventOwnership

namespace EventCount

/-! ## Events at work -/

/-- The next thing an activation of `TakeTriggered` does. -/
inductive Taker where
  /-- It looks whether the count is zero. -/
  | test
  /-- It has seen that it is not, and takes one off. -/
  | decrement
  deriving DecidableEq, Repr

/-- An event, and how often it has been triggered and taken. -/
structure State where
  event : Event
  /-- Threads in `TakeTriggered`. -/
  takers : List Taker
  /-- How often `Trigger` was called. -/
  triggers : ℕ
  /-- How often `TakeTriggered` has returned true. -/
  successes : ℕ
  deriving DecidableEq, Repr

/-- What can happen. -/
inductive Action where
  /-- A call of `Trigger`: `OnDataDropped` of a publisher or a subscriber. -/
  | trigger
  /-- A call of `TakeTriggered`: `rmw_take_event`. -/
  | takeTriggered
  /-- A thread in `TakeTriggered` takes its next step. -/
  | taker (i : ℕ)
  deriving DecidableEq, Repr

namespace State

/-- An event that has not been triggered. -/
def fresh : State := ⟨.new, [], 0, 0⟩

/-- One step. -/
def step (s : State) : Action → Option State
  | .trigger => some { s with event := s.event.trigger, triggers := s.triggers + 1 }
  | .takeTriggered => some { s with takers := s.takers ++ [.test] }
  | .taker i => do
    let taker ← s.takers[i]?
    match taker with
    | .test =>
      -- where there is nothing to take, the call returns false
      if s.event.triggeredCount = 0 then some { s with takers := s.takers.eraseIdx i }
      else some { s with takers := s.takers.set i .decrement }
    | .decrement => some { s with
        event := { s.event with triggeredCount := s.event.triggeredCount - 1 }
        takers := s.takers.eraseIdx i
        successes := s.successes + 1 }

end State

/-- An event at work. -/
def system : System State Action := ⟨.fresh, State.step⟩

/-! ## What is meant to hold -/

/-- No event is lost and none is invented. -/
structure Lawful (s : State) : Prop where
  /-- Nothing was taken that was not triggered. -/
  taken : s.successes ≤ s.triggers
  /-- Between calls, the event is triggered if not everything was taken. -/
  triggered : s.takers = [] → (s.event.triggered = true ↔ s.successes < s.triggers)

/-- The count does not pass 255, and it does not fall below zero. -/
def Within (s : State) : Action → Prop
  | .trigger => s.event.triggeredCount ≠ 255
  | .taker i => s.takers[i]? = some .decrement → s.event.triggeredCount ≠ 0
  | .takeTriggered => True

instance (s : State) : DecidablePred (Within s)
  | .trigger => inferInstanceAs (Decidable (_ ≠ _))
  | .taker _ => inferInstanceAs (Decidable (_ → _))
  | .takeTriggered => isTrue trivial

/-! ## The count -/

theorem toNat_add_one {count : UInt8} (h : count ≠ 255) :
    (count + 1).toNat = count.toNat + 1 := by
  have hne : count.toNat ≠ 255 := fun heq => h (UInt8.toNat_inj.mp heq)
  have hlt := count.toNat_lt
  rw [UInt8.toNat_add]
  exact Nat.mod_eq_of_lt (by simp only [UInt8.toNat_one]; omega)

theorem toNat_sub_one {count : UInt8} (h : count ≠ 0) : (count - 1).toNat + 1 = count.toNat := by
  have hne : count.toNat ≠ 0 := fun heq => h (UInt8.toNat_inj.mp heq)
  have hlt := count.toNat_lt
  rw [UInt8.toNat_sub, UInt8.toNat_one]
  omega

/-- What has been triggered has been taken or is still counted. -/
def Counted (s : State) : Prop := s.event.triggeredCount.toNat + s.successes = s.triggers

theorem triggered_iff (e : Event) : e.triggered = true ↔ 0 < e.triggeredCount.toNat := by
  rw [Event.triggered, decide_eq_true_eq, UInt8.lt_iff_toNat_lt]
  rfl

section Steps

variable {s s' : State}

theorem Counted.lawful (h : Counted s) : Lawful s := by
  rw [Counted] at h
  refine ⟨by omega, fun _ => ?_⟩
  rw [triggered_iff]
  omega

/-- What a thread in `TakeTriggered` can do. -/
theorem taker_cases {i : ℕ} (h : s.step (.taker i) = some s') :
    (s'.event = s.event ∧ s'.triggers = s.triggers ∧ s'.successes = s.successes) ∨
      s.takers[i]? = some .decrement ∧
        s' = { s with
          event := { s.event with triggeredCount := s.event.triggeredCount - 1 }
          takers := s.takers.eraseIdx i
          successes := s.successes + 1 } := by
  obtain ⟨taker, hget, h⟩ := Option.bind_eq_some_iff.mp h
  cases taker with
  | test =>
    dsimp only at h
    split at h
    · cases h
      exact .inl ⟨rfl, rfl, rfl⟩
    · cases h
      exact .inl ⟨rfl, rfl, rfl⟩
  | decrement =>
    cases h
    exact .inr ⟨hget, rfl⟩

/-- **A step keeps the count**, if it stays within bounds. -/
theorem Counted.step {a : Action} (h : Counted s) (hwithin : Within s a)
    (hstep : s.step a = some s') : Counted s' := by
  rw [Counted] at h
  cases a with
  | trigger =>
    cases hstep
    have hcount := toNat_add_one hwithin
    simp only [Counted, Event.trigger]
    omega
  | takeTriggered =>
    cases hstep
    exact h
  | taker i =>
    obtain ⟨hevent, htriggers, hsuccesses⟩ | ⟨hget, rfl⟩ := taker_cases hstep
    · rw [Counted, hevent, htriggers, hsuccesses, h]
    · have hcount := toNat_sub_one (hwithin hget)
      simp only [Counted]
      omega

theorem Counted.of_reachable (h : system.Reachable Within s) : Counted s :=
  h.invariant rfl fun _ _ _ hcounted hwithin hstep => hcounted.step hwithin hstep

/-- **A step that leaves the bounds** loses 256 events or invents one. -/
theorem Counted.not_lawful {a : Action} (h : Counted s) (hwithin : ¬ Within s a)
    (hstep : s.step a = some s') : ¬ Lawful s' ∨ a = .trigger ∧ s'.takers ≠ [] := by
  rw [Counted] at h
  cases a with
  | trigger =>
    have hcount : s.event.triggeredCount = 255 := not_not.mp hwithin
    cases hstep
    by_cases hrest : s.takers = []
    · refine .inl fun hlawful => ?_
      have htriggered := (hlawful.triggered hrest).mpr (by simp only; omega)
      simp [triggered_iff, Event.trigger, hcount] at htriggered
    · exact .inr ⟨rfl, hrest⟩
  | takeTriggered => exact (hwithin trivial).elim
  | taker i =>
    simp only [Within, Classical.not_imp, not_not] at hwithin
    obtain ⟨hget, hcount⟩ := hwithin
    obtain ⟨taker, hget', hstep⟩ := Option.bind_eq_some_iff.mp hstep
    obtain rfl : Taker.decrement = taker := Option.some_inj.mp (hget.symm.trans hget')
    cases hstep
    refine .inl fun hlawful => ?_
    -- one more was taken than was ever triggered
    have htaken := hlawful.taken
    rw [hcount, UInt8.toNat_zero] at h
    simp only at htaken
    omega

end Steps

/-- **Events are counted right until the count leaves its bounds.**  After any run that stays within
them, no more has been taken than was triggered, and between calls the event is triggered exactly if
there is something left to take.  A step that leaves them makes one of the two false, unless it is a
`Trigger` that comes while a thread is in `TakeTriggered`. -/
theorem event_counting {s : State} (h : system.Reachable Within s) :
    Lawful s ∧ ∀ a s', ¬ Within s a → s.step a = some s' →
      ¬ Lawful s' ∨ a = .trigger ∧ s'.takers ≠ [] := by
  have hcounted := Counted.of_reachable h
  exact ⟨hcounted.lawful, fun a s' hwithin hstep => hcounted.not_lawful hwithin hstep⟩

/-- Two threads of which one has taken an event while the other was about to look. -/
theorem event_counting_two : ∃ s : State, s.triggers = 2 ∧ s.successes = 1 ∧ s.takers = [.test] ∧
    Lawful s := by
  have h : system.Reachable Within _ := System.reachable_of_exec
    [.trigger, .takeTriggered, .trigger, .takeTriggered, .taker 0, .taker 0] rfl
  exact ⟨_, rfl, rfl, rfl, (event_counting h).1⟩

/-- An event that is triggered again and again, and never taken. -/
theorem reachable_triggers (n : ℕ) :
    system.Reachable System.any ⟨⟨UInt8.ofNat n, []⟩, [], n, 0⟩ := by
  induction n with
  | zero => exact .init
  | succ n ih =>
    refine .step (a := .trigger) ih trivial ?_
    simp only [system, State.step, Event.trigger, UInt8.ofNat_add]
    rfl

/-- **256 events are lost, or one is taken twice.**  The event has been triggered 256 times and is
not triggered; and it has been triggered once, when two threads have both looked before either has
taken it. -/
theorem event_counting_fails :
    (∃ s, system.Reachable System.any s ∧ s.takers = [] ∧ s.successes = 0 ∧ s.triggers = 256 ∧
      s.event.triggered = false ∧ ¬ Lawful s) ∧
    ∃ s, system.Reachable System.any s ∧ s.takers = [] ∧ s.successes = 2 ∧ s.triggers = 1 ∧
      s.event.triggered = true ∧ ¬ Lawful s := by
  constructor
  · refine ⟨_, reachable_triggers 256, rfl, rfl, rfl, rfl, fun hlawful => ?_⟩
    have htriggered := (hlawful.triggered rfl).mpr (by decide)
    cases htriggered
  · refine ⟨_, System.reachable_of_exec [.trigger, .takeTriggered, .takeTriggered, .taker 0,
      .taker 1, .taker 0, .taker 0] rfl, rfl, rfl, rfl, rfl, fun hlawful => ?_⟩
    have htaken := hlawful.taken
    exact absurd htaken (by decide)

end EventCount

end RmwEcal
