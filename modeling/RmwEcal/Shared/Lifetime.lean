import RmwEcal.Shared.Wakeup

/-!
# When a wait set can be destroyed

A wait set may be destroyed when no `rmw_wait` uses it any more, and by then it has been detached
from everything.  But there are threads that have found it attached before, and are going to notify
it.  `Trigger` keeps `internal_mutex_` until it has done so, and the wait set cannot be detached
before.  `NotifyWaitSet` gives `wait_set_mutex_` back before it uses the pointer, and nothing keeps
the wait set from being detached and destroyed in the meantime.

`not_misused` says that this is the only way for a wait set to be used after it was destroyed: it
is not if no `NotifyWaitSet` is under way with the pointer at that moment.  Otherwise it is
(`misused_of_pending`).

There may be other wait sets, which other threads attach and detach.  For this one it only matters
that it may be replaced.
-/

set_option autoImplicit false

namespace RmwEcal

open Transition

namespace Lifetime

open WaitSet (Entity Locks Phase Producer ProducerStep Stage stepWait_cases step_cases)

/-! ## Wait sets that are destroyed -/

/-- A wait set with everything around it. -/
structure State where
  /-- The wait set, and what is attached to it. -/
  inner : WaitSet.State
  /-- `rmw_destroy_wait_set` has been called. -/
  destroyed : Bool
  /-- Whether `condition_mutex` was locked or unlocked, or the wait set notified, after that. -/
  misused : Bool

/-- What can happen. -/
inductive Action where
  | step (a : WaitSet.Action)
  /-- Another `rmw_wait` attaches its own wait set to an entity, or detaches it. -/
  | replace (entity : Entity)
  /-- `rmw_destroy_wait_set`. -/
  | destroy
  deriving DecidableEq, Repr

/-- Whether a thread uses the wait set in its next step. -/
def usesWaitSet : Stage → Bool
  | .lockCondition | .notifyLocked | .unlockCondition | .lockConditionToTrigger
  | .unlockConditionToNotify | .notify => true
  | _ => false

/-- Whether the thread is in `rmw_wait`. -/
def inWait : Phase → Bool
  | .idle | .takeTriggered _ => false
  | _ => true

namespace State

/-- Nothing has happened yet. -/
def fresh : State := ⟨.fresh, false, false⟩

/-- Whether a producer uses the wait set in this step. -/
def uses (s : State) : WaitSet.Action → Bool
  | .producer i => s.inner.producers[i]?.any fun p => usesWaitSet p.stage
  | _ => false

/-- Whether `rmw_wait` is called with a wait set that there is not any more. -/
def waitsInVain (s : State) : WaitSet.Action → Bool
  | .rmwWait .. => s.destroyed
  | _ => false

/-- One step.  The wait set is not destroyed while it is used in `rmw_wait`, and `rmw_wait` is not
called with it afterwards. -/
def step (s : State) : Action → Option State
  | .step a =>
    if s.waitsInVain a then none
    else do
      let inner ← s.inner.step a
      some { s with inner := inner, misused := s.misused || s.destroyed && s.uses a }
  | .replace entity =>
    if s.inner.internalMutex entity then none
    else some { s with inner := { s.inner with
      attached := Function.update s.inner.attached entity false } }
  | .destroy =>
    if inWait s.inner.phase ∨ s.destroyed then none else some { s with destroyed := true }

/-- No `NotifyWaitSet` has found the wait set and is not done with it when it is destroyed. -/
def Unpending (s : State) : Action → Prop
  | .destroy => ∀ p ∈ s.inner.producers, p.stage.notifies = false
  | _ => True

instance (s : State) : (a : Action) → Decidable (s.Unpending a)
  | .destroy => inferInstanceAs (Decidable (∀ p ∈ s.inner.producers, p.stage.notifies = false))
  | .step _ | .replace _ => isTrue trivial

end State

/-- A wait set and its end. -/
def system : System State Action := ⟨.fresh, State.step⟩

/-! ## What `Trigger` relies on -/

/-- What the wait set may be attached to in a phase. -/
def mayBeAttached (entities : List Entity) : Phase → List Entity
  | .idle | .takeTriggered _ => []
  | .detach _ todo | .report _ _ todo => todo
  | _ => entities

/-- The wait set is attached to what a thread in `Trigger` has found it attached to, and not to
anything else than what `rmw_wait` is going to detach. -/
structure Guarded (s : WaitSet.State) : Prop where
  locks : Locks s
  attached : ∀ e, s.attached e = true → e ∈ mayBeAttached s.entities s.phase
  toAttach : ∀ done todo, s.phase = .attach done todo → todo ⊆ s.entities
  found : ∀ p ∈ s.producers, p.stage.triggers = true → s.attached p.entity = true

section Guarded

variable {s s' : WaitSet.State} {l₁ l₂ : List Producer} {entity : Entity} {ticket : ℕ}
  {stage : Stage}

theorem Guarded.producer (h : Guarded s) (hl : s.producers = l₁ ++ ⟨entity, ticket, stage⟩ :: l₂)
    (hstep : ProducerStep s l₁ l₂ entity ticket stage s') : Guarded s' := by
  obtain ⟨hattached, hentities, hphase⟩ := hstep.frame
  refine ⟨h.locks.producer hl hstep, fun e he => ?_, fun done todo hattach => ?_,
    fun p hmem hstage => ?_⟩
  · rw [hattached] at he
    have hmem := h.attached e he
    rw [hentities]
    rcases hphase with heq | ⟨hblocked, hwoken⟩
    · rwa [heq]
    · rw [hblocked] at hmem
      rwa [hwoken]
  · rw [hentities]
    rcases hphase with heq | ⟨-, hwoken⟩
    · exact h.toAttach done todo (heq ▸ hattach)
    · rw [hwoken] at hattach
      cases hattach
  · rw [hattached]
    have hfound := h.found
    rw [hl] at hfound
    rcases hstep.producers with heq | ⟨stage', heq, -, -, htriggers⟩
    · rw [heq] at hmem
      obtain ⟨h₁, h₂⟩ := List.forall_mem_append.mp hfound
      rcases List.mem_append.mp hmem with hmem | hmem
      · exact h₁ p hmem hstage
      · exact (List.forall_mem_cons.mp h₂).2 p hmem hstage
    · rw [heq] at hmem
      refine forall_mem_replace hfound (fun hstage' => ?_) p hmem hstage
      rcases htriggers hstage' with hbefore | hattached
      · exact hfound ⟨entity, ticket, stage⟩ (List.mem_append_right _ List.mem_cons_self) hbefore
      · exact hattached

/-- What a thread in `Trigger` has found stays so while `internal_mutex_` is free elsewhere. -/
theorem Guarded.update (h : Guarded s) (hfree : s.internalMutex entity = false) (value : Bool) :
    ∀ p ∈ s.producers, p.stage.triggers = true →
      Function.update s.attached entity value p.entity = true := by
  intro p hmem hstage
  have hholds : p.stage.holdsInternal = true := by
    revert hstage
    cases p.stage <;> simp [Stage.triggers, Stage.holdsInternal]
  rw [Function.update_of_ne (h.locks.entity_ne hfree hmem hholds)]
  exact h.found p hmem hstage

theorem Guarded.wait (h : Guarded s) (hstep : s.stepWait = some s') : Guarded s' := by
  have hlocks := h.locks.wait hstep
  have hattached := h.attached
  have htoAttach := h.toAttach
  have hcases := stepWait_cases hstep
  generalize s.phase = phase at hattached htoAttach hcases
  cases hcases with
  | takeTriggered | attached | lockCondition | block | found | next | unlockCondition | finish =>
    exact ⟨hlocks, hattached, nofun, h.found⟩
  | @attach done todo entity hfree =>
    have hsubset := htoAttach done (entity :: todo) rfl
    refine ⟨hlocks, fun e he => ?_, fun done' todo' hphase => ?_, h.update hfree true⟩
    · by_cases heq : e = entity
      · exact hsubset (heq ▸ List.mem_cons_self)
      · simp only [Function.update_of_ne heq] at he
        exact hattached e he
    · cases hphase
      exact (List.cons_subset.mp hsubset).2
  | @detach timedOut todo entity hfree =>
    refine ⟨hlocks, fun e he => ?_, nofun, h.update hfree false⟩
    by_cases heq : e = entity
    · subst heq
      simp at he
    · simp only [Function.update_of_ne heq] at he
      exact (List.mem_cons.mp (hattached e he)).resolve_left heq
  | @report timedOut todo entity =>
    obtain ⟨triggered, heq, -⟩ := WaitSet.report_eq s entity
    rw [heq] at hlocks ⊢
    exact ⟨hlocks, hattached, nofun, h.found⟩

theorem Guarded.step {a : WaitSet.Action} (h : Guarded s) (hstep : s.step a = some s') :
    Guarded s' := by
  have hlocks := h.locks.step hstep
  have hattached := h.attached
  cases step_cases hstep with
  | @produce entity =>
    refine ⟨hlocks, hattached, h.toAttach, List.forall_mem_append.mpr ⟨h.found, ?_⟩⟩
    refine List.forall_mem_singleton.mpr fun hstage => ?_
    cases entity <;> cases hstage
  | producer hl _ hstep => exact h.producer hl hstep
  | take => exact ⟨hlocks, hattached, h.toAttach, h.found⟩
  | notTriggered => exact h
  | rmwWait hphase =>
    rw [hphase] at hattached
    refine ⟨hlocks, fun e he => ?_, fun done todo htodo => ?_, h.found⟩
    · cases hattached e he
    · cases htodo
      exact List.Subset.refl _
  | wait hstep => exact h.wait hstep
  | takeTriggered hphase | wake hphase | comeBack hphase | timeOut hphase =>
    rw [hphase] at hattached
    exact ⟨hlocks, hattached, fun _ _ htodo => (by cases htodo), h.found⟩

/-- Another wait set is attached instead. -/
theorem Guarded.replace (h : Guarded s) (hfree : s.internalMutex entity = false) :
    Guarded { s with attached := Function.update s.attached entity false } := by
  refine ⟨⟨h.locks.condition, h.locks.internal⟩, fun e he => ?_, h.toAttach,
    h.update hfree false⟩
  by_cases heq : e = entity
  · subst heq
    simp at he
  · simp only [Function.update_of_ne heq] at he
    exact h.attached e he

/-- When `rmw_wait` is over, the wait set is attached to nothing. -/
theorem Guarded.not_attached (h : Guarded s) (hphase : inWait s.phase = false) (e : Entity) :
    s.attached e = false := by
  refine Bool.eq_false_iff.mpr fun he => ?_
  have hmem := h.attached e he
  cases hp : s.phase <;> rw [hp] at hphase hmem <;> cases hphase <;> cases hmem

/-- No thread in `Trigger` is going to use it then. -/
theorem Guarded.not_triggers (h : Guarded s) (hphase : inWait s.phase = false) {p : Producer}
    (hmem : p ∈ s.producers) : p.stage.triggers = false := by
  refine Bool.eq_false_iff.mpr fun hstage => ?_
  have hattached := h.found p hmem hstage
  rw [h.not_attached hphase] at hattached
  cases hattached

end Guarded

theorem guarded_of_reachable {s : State} (h : system.Reachable System.any s) :
    Guarded s.inner := by
  refine h.invariant (P := fun s => Guarded s.inner) ?_ ?_
  · refine ⟨⟨held_nil, fun _ => held_nil⟩, nofun, nofun, nofun⟩
  · rintro s a s' hguarded - hstep
    cases a with
    | step a =>
      obtain ⟨-, hstep⟩ := Option.ite_none_left_eq_some.mp hstep
      obtain ⟨inner, hinner, hstep⟩ := Option.bind_eq_some_iff.mp hstep
      cases hstep
      exact hguarded.step hinner
    | replace entity =>
      obtain ⟨hfree, hstep⟩ := Option.ite_none_left_eq_some.mp hstep
      cases hstep
      exact hguarded.replace (Bool.eq_false_iff.mpr hfree)
    | destroy =>
      obtain ⟨-, hstep⟩ := Option.ite_none_left_eq_some.mp hstep
      cases hstep
      exact hguarded

/-! ## What is left when a wait set is destroyed -/

/-- The thread is not in `rmw_wait`, and no `NotifyWaitSet` has the pointer. -/
structure Unused (s : WaitSet.State) : Prop where
  phase : inWait s.phase = false
  notifies : ∀ p ∈ s.producers, p.stage.notifies = false

section Unused

variable {s s' : WaitSet.State}

/-- Only `rmw_wait` brings the thread into `rmw_wait`. -/
theorem inWait_step {a : WaitSet.Action} (hphase : inWait s.phase = false)
    (hwait : ∀ subscriptions guardConditions services clients events waitTimeout,
      a ≠ .rmwWait subscriptions guardConditions services clients events waitTimeout)
    (hstep : s.step a = some s') : inWait s'.phase = false := by
  cases step_cases hstep with
  | produce | take | notTriggered => exact hphase
  | takeTriggered => rfl
  | producer _ _ hstep =>
    rcases hstep.frame.2.2 with heq | ⟨hblocked, -⟩
    · rwa [heq]
    · rw [hblocked] at hphase
      cases hphase
  | rmwWait => exact absurd rfl (hwait _ _ _ _ _ _)
  | wait hstep =>
    have hcases := stepWait_cases hstep
    generalize s.phase = phase at hphase hcases
    cases hcases with
    | takeTriggered => rfl
    | _ => cases hphase
  | wake hold | comeBack hold | timeOut hold =>
    rw [hold] at hphase
    cases hphase

/-- A thread finds the wait set only where it is attached. -/
theorem Unused.producers (h : Unused s) (hguarded : Guarded s) {a : WaitSet.Action}
    (hstep : s.step a = some s') : ∀ p ∈ s'.producers, p.stage.notifies = false := by
  have hnone := h.notifies
  rcases (step_cases hstep).producers with heq | ⟨entity, rfl⟩ | hproducer
  · rwa [heq]
  · refine List.forall_mem_append.mpr ⟨hnone, List.forall_mem_singleton.mpr ?_⟩
    cases entity <;> rfl
  · obtain ⟨l₁, l₂, entity, ticket, stage, hl, hcases⟩ := hproducer
    rw [hl] at hnone
    rcases hcases.producers with heq | ⟨stage', heq, -, hnotifies, -⟩
    · obtain ⟨h₁, h₂⟩ := List.forall_mem_append.mp hnone
      rw [heq]
      exact List.forall_mem_append.mpr ⟨h₁, (List.forall_mem_cons.mp h₂).2⟩
    · rw [heq]
      refine forall_mem_replace hnone (Bool.eq_false_iff.mpr fun hstage' => ?_)
      rcases hnotifies hstage' with hbefore | hattached
      · have hstage : stage.notifies = false :=
          hnone ⟨entity, ticket, stage⟩ (List.mem_append_right _ List.mem_cons_self)
        rw [hbefore] at hstage
        cases hstage
      · rw [hguarded.not_attached h.phase] at hattached
        cases hattached

/-- A thread uses the wait set only after it has found it. -/
theorem usesWaitSet_eq_false {stage : Stage} (hnotifies : stage.notifies = false)
    (htriggers : stage.triggers = false) : usesWaitSet stage = false := by
  revert hnotifies htriggers
  cases stage <;> simp [Stage.notifies, Stage.triggers, usesWaitSet]

end Unused

/-- A destroyed wait set is not used by anybody, and has not been. -/
def Intact (s : State) : Prop := (s.destroyed = true → Unused s.inner) ∧ s.misused = false

theorem Intact.step {s s' : State} (h : Intact s) (hguarded : Guarded s.inner) {a : Action}
    (hok : s.Unpending a) (hstep : s.step a = some s') : Intact s' := by
  obtain ⟨hunused, hmisused⟩ := h
  cases a with
  | step a =>
    obtain ⟨hvain, hstep⟩ := Option.ite_none_left_eq_some.mp hstep
    obtain ⟨inner, hinner, hstep⟩ := Option.bind_eq_some_iff.mp hstep
    cases hstep
    refine ⟨fun hdestroyed => ?_, ?_⟩
    · have hunused := hunused hdestroyed
      refine ⟨inWait_step hunused.phase (fun _ _ _ _ _ _ hrmwWait => hvain ?_) hinner,
        hunused.producers hguarded hinner⟩
      rw [hrmwWait]
      exact hdestroyed
    · show (s.misused || s.destroyed && s.uses a) = false
      rw [hmisused, Bool.false_or, Bool.and_eq_false_imp]
      intro hdestroyed
      have hunused := hunused hdestroyed
      cases a with
      | producer i =>
        obtain ⟨p, hget, -⟩ := Option.bind_eq_some_iff.mp hinner
        have hmem := List.mem_of_getElem? hget
        show s.inner.producers[i]?.any _ = false
        rw [hget]
        exact usesWaitSet_eq_false (hunused.notifies p hmem)
          (hguarded.not_triggers hunused.phase hmem)
      | _ => rfl
  | replace entity =>
    obtain ⟨-, hstep⟩ := Option.ite_none_left_eq_some.mp hstep
    cases hstep
    exact ⟨fun hdestroyed => ⟨(hunused hdestroyed).phase, (hunused hdestroyed).notifies⟩, hmisused⟩
  | destroy =>
    obtain ⟨hphase, hstep⟩ := Option.ite_none_left_eq_some.mp hstep
    cases hstep
    exact ⟨fun _ => ⟨Bool.eq_false_iff.mpr fun hin => hphase (.inl hin), hok⟩, hmisused⟩

/-! ## The results -/

/-- **A wait set is not used after it was destroyed**, if no `NotifyWaitSet` had found it and was
not done with it at that moment. -/
theorem not_misused {s : State} (h : system.Reachable State.Unpending s) : s.misused = false := by
  have hintact : Intact s := by
    refine h.invariant_of (Q := fun s => Guarded s.inner) (P := Intact) ?_ ?_ ?_
    · exact fun _ hreachable => guarded_of_reachable hreachable.any
    · exact ⟨fun hdestroyed => (by cases hdestroyed), rfl⟩
    · exact fun _ _ _ hguarded hintact hok hstep => hintact.step hguarded hok hstep
  exact hintact.2

/-- A guard condition is triggered while the wait set is attached, and a subscriber receives
something after the wait set was destroyed. -/
theorem not_misused_destroyed : ∃ s : State, s.destroyed = true ∧ s.inner.tickets = 2 ∧
    s.inner.queued (.subscriber 0) = 1 ∧ s.misused = false := by
  have h : system.Reachable State.Unpending _ := System.reachable_of_exec
    [.step (.rmwWait [0] [1] [] [] [] false), .step .wait, .step .wait, .step .wait,
      .step (.produce (.guardCondition 1)), .step (.producer 0), .step (.producer 0),
      .step (.producer 0), .step (.producer 0), .step (.producer 0), .step (.producer 0),
      .step .wait, .step .wait, .step .wait, .step .wait, .step .wait, .step .wait, .step .wait,
      .step .wait, .step .wait, .destroy, .step (.produce (.subscriber 0)), .step (.producer 0),
      .step (.producer 0)] rfl
  exact ⟨_, rfl, rfl, rfl, not_misused h⟩

/-- **A subscriber notifies a wait set that has been destroyed**: it found it attached, then
`rmw_wait` returned. -/
theorem used_after_destroy : ∃ s : State, system.Reachable System.any s ∧ s.destroyed = true ∧
    .returned 0 false ∈ s.inner.log ∧ s.misused = true := by
  refine ⟨_, System.reachable_of_exec
    [.step (.rmwWait [0] [] [] [] [] false), .step .wait, .step .wait,
      .step (.produce (.subscriber 0)), .step (.producer 0), .step (.producer 0),
      .step .wait, .step .wait, .step .wait, .step .wait, .step .wait, .step .wait,
      .destroy, .step (.producer 0)] rfl, rfl, ?_, rfl⟩
  decide

/-- A `NotifyWaitSet` that has the lock, or is about to get it, can go on. -/
theorem exists_step {s : WaitSet.State} {i : ℕ} {p : Producer} (hget : s.producers[i]? = some p)
    (hstage : p.stage = .notifyLocked ∨ p.stage = .unlockCondition ∨
      p.stage = .lockCondition ∧ s.conditionMutex = false) :
    usesWaitSet p.stage = true ∧ ∃ s', s.stepProducer i = some s' := by
  rcases hstage with hstage | hstage | ⟨hstage, hfree⟩
  · exact ⟨by rw [hstage]; rfl, _, Option.bind_eq_some_iff.mpr ⟨p, hget, by rw [hstage]⟩⟩
  · exact ⟨by rw [hstage]; rfl, _, Option.bind_eq_some_iff.mpr ⟨p, hget, by rw [hstage]⟩⟩
  · exact ⟨by rw [hstage]; rfl, _, Option.bind_eq_some_iff.mpr ⟨p, hget, by
      simp only [hstage]
      rw [hfree]
      rfl⟩⟩

/-- **If a `NotifyWaitSet` is under way when the wait set is destroyed, the wait set is used**: one
of these threads has the lock, or can get it. -/
theorem misused_of_pending {s s' : State} (h : system.Reachable System.any s)
    (hstep : s.step .destroy = some s') (hpending : ¬s.Unpending .destroy) :
    ∃ a s'', s'.step a = some s'' ∧ s''.misused = true := by
  have hguarded := guarded_of_reachable h
  obtain ⟨hphase, hstep⟩ := Option.ite_none_left_eq_some.mp hstep
  have hphase : inWait s.inner.phase = false := Bool.eq_false_iff.mpr fun hin => hphase (.inl hin)
  cases hstep
  obtain ⟨p, hmem, hnotifies⟩ : ∃ p ∈ s.inner.producers, p.stage.notifies = true := by
    simpa [State.Unpending] using hpending
  -- the thread that goes on
  obtain ⟨q, hq, hstage⟩ : ∃ q ∈ s.inner.producers, q.stage = .notifyLocked ∨
      q.stage = .unlockCondition ∨ q.stage = .lockCondition ∧ s.inner.conditionMutex = false := by
    cases hmutex : s.inner.conditionMutex with
    | false =>
      refine ⟨p, hmem, ?_⟩
      revert hnotifies
      cases p.stage <;> simp [Stage.notifies]
    | true =>
      have hheld := hguarded.locks.condition
      have hother : s.inner.phase.holdsCondition = false := by
        revert hphase
        cases s.inner.phase <;> simp [inWait, Phase.holdsCondition]
      rw [hmutex, hother] at hheld
      obtain ⟨q, hq, hholds⟩ := hheld.exists_holds
      have htriggers := hguarded.not_triggers hphase hq
      refine ⟨q, hq, ?_⟩
      revert hholds htriggers
      cases q.stage <;> simp [Stage.holdsCondition, Stage.triggers]
  obtain ⟨i, hget⟩ := List.mem_iff_getElem?.mp hq
  obtain ⟨huses, inner, hinner⟩ := exists_step hget hstage
  have hany : (s.inner.producers[i]?.any fun p => usesWaitSet p.stage) = true := by
    rw [hget]
    exact huses
  refine ⟨.step (.producer i), ⟨inner, true, true⟩, ?_, rfl⟩
  simp [State.step, State.waitsInVain, State.uses, WaitSet.State.step, hinner, hany]

end Lifetime

end RmwEcal
