import RmwEcal.Shared.WaitSet
import RmwEcal.Transition.Lock

/-!
# No lost wakeup, no lost trigger

A thread that is blocked in `rmw_wait` while something it waits for is ready is going to be woken:
the thread that made it ready has its notification still before it.  And no call of
`GuardCondition::Trigger` is lost: either the guard condition is still triggered, or some `rmw_wait`
has reported it since.

## How the proof goes

* `Locks` — the locks exclude.
* `Attaching` — what the wait set is attached to, and that `Trigger` does not think otherwise.
* `Watching` — what `has_data` has found not to be ready is either still not ready, or its producer
  has not notified anybody yet.  A queue may fill while `has_data` is on its way, but its producer
  cannot notify before it has the lock.  A guard condition or an event cannot change at all before
  the lock is given back, since the wait set is attached to it.
* `Reporting` — what has been put down of triggers.
-/

set_option autoImplicit false

namespace RmwEcal

open Transition

namespace WaitSet

/-! ## What is meant to hold -/

namespace State

/-- A thread has made an entity ready and is going to notify the wait set. -/
def Outstanding (s : State) (p : Producer) : Prop :=
  match p.stage with
  | .getAttachedWaitSet => s.attached p.entity = true
  | .lockCondition | .notifyLocked | .unlockConditionToNotify | .notify => True
  | _ => False

/-- A call of `Trigger` was reported after it had set `triggered_`. -/
def Reported (log : List Entry) (i ticket : ℕ) : Prop :=
  ∃ before after wait, log = before ++ after ∧ .triggered i ticket ∈ before ∧
    .reported wait (.guardCondition i) true ∈ after

/-- Nothing is lost. -/
structure Live (s : State) : Prop where
  /-- If the thread that waits is blocked, and something is ready that its wait set is attached to,
  a thread that made it ready has its notification still before it. -/
  wakeup : s.phase = .blocked → ∀ entity, s.attached entity = true → s.ready entity = true →
    ∃ p ∈ s.producers, p.entity = entity ∧ s.Outstanding p
  /-- A call of `Trigger` that has returned leaves the guard condition triggered, or an `rmw_wait`
  has left its entry since. -/
  trigger : ∀ i ticket, .completed i ticket ∈ s.log →
    s.triggered i = true ∨ Reported s.log i ticket

end State

/-! ## Locks -/

/-- Whether `internal_mutex_` of an entity is held. -/
def holdsInternal (entity : Entity) (p : Producer) : Bool :=
  decide (p.entity = entity) && p.stage.holdsInternal

/-- The locks exclude. -/
structure Locks (s : State) : Prop where
  /-- `condition_mutex`. -/
  condition : Held (fun p => p.stage.holdsCondition) s.phase.holdsCondition s.producers
    s.conditionMutex
  /-- `internal_mutex_` of guard conditions and events. -/
  internal : ∀ entity, Held (holdsInternal entity) false s.producers (s.internalMutex entity)

section Locks

variable {s s' : State} {l₁ l₂ : List Producer} {entity : Entity} {ticket : ℕ} {stage : Stage}

theorem locks_notifyAll (h : Locks s) : Locks s.notifyAll := by
  obtain ⟨hphase, heq⟩ | ⟨-, heq⟩ := notifyAll_cases s
  · have hc := h.condition
    rw [hphase] at hc
    rw [heq]
    exact ⟨hc, h.internal⟩
  · rw [heq]
    exact h

theorem locks_trigger (h : Locks s) : Locks (s.trigger ticket entity) :=
  ⟨by simpa only [trigger_phase, trigger_producers, trigger_conditionMutex] using h.condition,
    fun e => by simpa only [trigger_producers, trigger_internalMutex] using h.internal e⟩

/-- A thread moves that does not touch the locks. -/
theorem Locks.move (h : Locks s) (hl : s.producers = l₁ ++ ⟨entity, ticket, stage⟩ :: l₂)
    (stage' : Stage) (hcondition : stage'.holdsCondition = stage.holdsCondition)
    (hinternal : stage'.holdsInternal = stage.holdsInternal) :
    Locks { s with producers := l₁ ++ ⟨entity, ticket, stage'⟩ :: l₂ } := by
  have hc := h.condition
  rw [hl] at hc
  refine ⟨hc.move hcondition, fun e => ?_⟩
  have hi := h.internal e
  rw [hl] at hi
  exact hi.move (by simp only [holdsInternal, hinternal])

theorem Locks.producer (h : Locks s) (hl : s.producers = l₁ ++ ⟨entity, ticket, stage⟩ :: l₂)
    (hstep : ProducerStep s l₁ l₂ entity ticket stage s') : Locks s' := by
  have hc := h.condition
  have hi := h.internal
  simp only [hl] at hc hi
  cases hstep with
  | enqueue =>
    have hlocks := h.move hl .getAttachedWaitSet rfl rfl
    exact ⟨hlocks.condition, hlocks.internal⟩
  | attached => exact h.move hl _ rfl rfl
  | detached =>
    exact ⟨hc.leave rfl, fun e => (hi e).leave (by simp [holdsInternal, Stage.holdsInternal])⟩
  | lockCondition hfree =>
    rw [hfree] at hc
    exact ⟨hc.acquire rfl, fun e => (hi e).move rfl⟩
  | notifyLocked => exact locks_notifyAll (h.move hl _ rfl rfl)
  | unlockCondition =>
    exact ⟨hc.release_leave rfl,
      fun e => (hi e).leave (by simp [holdsInternal, Stage.holdsInternal])⟩
  | lockInternal hfree hstage =>
    have hflags : ∀ stage' : Stage, (stage' = .lockConditionToTrigger ∨ stage' = .triggerDetached) →
        stage'.holdsCondition = false ∧ stage'.holdsInternal = true := by
      rintro _ (rfl | rfl) <;> exact ⟨rfl, rfl⟩
    obtain ⟨hnone, hsome⟩ := hflags _ (hstage.imp And.right And.right)
    refine ⟨hc.move hnone, fun e => ?_⟩
    by_cases he : e = entity
    · subst he
      have hie := hi e
      rw [hfree] at hie
      simp only [Function.update_self]
      exact hie.acquire (by simp [holdsInternal, hsome])
    · simp only [Function.update_of_ne he]
      exact (hi e).move (by simp [holdsInternal, Ne.symm he])
  | lockConditionToTrigger hfree =>
    rw [hfree] at hc
    exact ⟨hc.acquire rfl, fun e => (hi e).move rfl⟩
  | triggerAttached => exact locks_trigger (h.move hl _ rfl rfl)
  | unlockConditionToNotify => exact ⟨hc.release rfl rfl, fun e => (hi e).move rfl⟩
  | notify => exact locks_notifyAll (h.move hl _ rfl rfl)
  | triggerDetached => exact locks_trigger (h.move hl _ rfl rfl)
  | unlockInternal =>
    obtain ⟨entries, heq, -⟩ := complete_eq { s with
      producers := l₁ ++ l₂
      internalMutex := Function.update s.internalMutex entity false } ticket entity
    rw [heq]
    refine ⟨hc.leave rfl, fun e => ?_⟩
    by_cases he : e = entity
    · subst he
      simp only [Function.update_self]
      exact (hi e).release_leave (by simp [holdsInternal, Stage.holdsInternal])
    · simp only [Function.update_of_ne he]
      exact (hi e).leave (by simp [holdsInternal, Ne.symm he])

theorem Locks.wait (h : Locks s) (hstep : s.stepWait = some s') : Locks s' := by
  have hc := h.condition
  have hi := h.internal
  have hcases := stepWait_cases hstep
  generalize s.phase = phase at hc hcases
  cases hcases with
  | takeTriggered | attached | attach | found | next | finish | detach => exact ⟨hc, hi⟩
  | lockCondition hfree =>
    rw [hfree] at hc
    exact ⟨hc.acquire_other, hi⟩
  | block | unlockCondition => exact ⟨hc.release_other, hi⟩
  | @report timedOut todo entity =>
    obtain ⟨triggered, heq, -⟩ := report_eq s entity
    rw [heq]
    exact ⟨hc, hi⟩

theorem Locks.step {a : Action} (h : Locks s) (hstep : s.step a = some s') : Locks s' := by
  have hc := h.condition
  cases step_cases hstep with
  | @produce entity =>
    refine ⟨h.condition.enter ?_, fun e => (h.internal e).enter ?_⟩
    · cases entity <;> rfl
    · cases entity <;> simp [holdsInternal, Entity.firstStage, Stage.holdsInternal]
  | producer hl _ hstep => exact h.producer hl hstep
  | take => exact ⟨h.condition, h.internal⟩
  | notTriggered => exact h
  | takeTriggered hphase | rmwWait hphase | wake hphase =>
    rw [hphase] at hc
    exact ⟨hc, h.internal⟩
  | wait hstep => exact h.wait hstep
  | comeBack hphase hfree | timeOut hphase hfree =>
    rw [hphase, hfree] at hc
    exact ⟨hc.acquire_other, h.internal⟩

end Locks

theorem locks_of_reachable {s : State} (h : system.Reachable System.any s) : Locks s :=
  h.invariant ⟨held_nil, fun _ => held_nil⟩ fun _ _ _ hlocks _ hstep => hlocks.step hstep

/-! ## What the wait set is attached to -/

/-- What the wait set is attached to in a phase. -/
def AttachedTo (attached : Entity → Bool) (entities : List Entity) : Phase → Prop
  | .idle | .takeTriggered _ => ∀ entity, attached entity = false
  | .attach done todo => entities = done ++ todo ∧ ∀ entity, attached entity = true ↔ entity ∈ done
  | .hasData done todo =>
    entities = done ++ todo ∧ ∀ entity, attached entity = true ↔ entity ∈ entities
  | .lockCondition | .blocked | .woken | .unlockCondition _ =>
    ∀ entity, attached entity = true ↔ entity ∈ entities
  | .detach _ todo | .report _ _ todo => ∀ entity, attached entity = true → entity ∈ todo

/-- It is attached to what it should be, and a thread in `Trigger` does not think otherwise. -/
structure Attaching (s : State) : Prop where
  /-- What the wait set is attached to. -/
  attachedTo : AttachedTo s.attached s.entities s.phase
  /-- A thread that has found no wait set is right: it holds the lock that it takes to attach one. -/
  detached : ∀ p ∈ s.producers, p.stage = .triggerDetached → s.attached p.entity = false

section Attaching

variable {s s' : State} {l₁ l₂ : List Producer} {entity : Entity} {ticket : ℕ} {stage : Stage}

/-- A wait set can be attached and detached only while nobody is in `Trigger`. -/
theorem Locks.entity_ne (h : Locks s) (hfree : s.internalMutex entity = false) {p : Producer}
    (hmem : p ∈ s.producers) (hstage : p.stage.holdsInternal = true) : p.entity ≠ entity := by
  intro hentity
  have hi := h.internal entity
  rw [hfree] at hi
  have hnone := hi.not_holds_of_free hmem
  simp [holdsInternal, hentity, hstage] at hnone

/-- A producer does not attach anything, and the waiting thread may find itself woken. -/
theorem ProducerStep.frame (hstep : ProducerStep s l₁ l₂ entity ticket stage s') :
    s'.attached = s.attached ∧ s'.entities = s.entities ∧
      (s'.phase = s.phase ∨ s.phase = .blocked ∧ s'.phase = .woken) := by
  cases hstep with
  | notifyLocked =>
    obtain ⟨hphase, heq⟩ | ⟨-, heq⟩ := notifyAll_cases
      { s with producers := l₁ ++ ⟨entity, ticket, .unlockCondition⟩ :: l₂ }
    · rw [heq]
      exact ⟨rfl, rfl, .inr ⟨hphase, rfl⟩⟩
    · rw [heq]
      exact ⟨rfl, rfl, .inl rfl⟩
  | notify =>
    obtain ⟨hphase, heq⟩ | ⟨-, heq⟩ := notifyAll_cases
      { s with producers := l₁ ++ ⟨entity, ticket, .unlockInternal⟩ :: l₂ }
    · rw [heq]
      exact ⟨rfl, rfl, .inr ⟨hphase, rfl⟩⟩
    · rw [heq]
      exact ⟨rfl, rfl, .inl rfl⟩
  | triggerAttached | triggerDetached =>
    exact ⟨trigger_attached .., trigger_entities .., .inl (trigger_phase ..)⟩
  | unlockInternal =>
    obtain ⟨entries, heq, -⟩ := complete_eq { s with
      producers := l₁ ++ l₂
      internalMutex := Function.update s.internalMutex entity false } ticket entity
    rw [heq]
    exact ⟨rfl, rfl, .inl rfl⟩
  | _ => exact ⟨rfl, rfl, .inl rfl⟩

/-- Where a producer is after its step. -/
theorem ProducerStep.producers (hstep : ProducerStep s l₁ l₂ entity ticket stage s') :
    s'.producers = l₁ ++ l₂ ∨ ∃ stage', s'.producers = l₁ ++ ⟨entity, ticket, stage'⟩ :: l₂ ∧
      (stage' = .triggerDetached → s.attached entity = false) ∧
      (stage'.notifies = true → stage.notifies = true ∨ s.attached entity = true) ∧
      (stage'.triggers = true → stage.triggers = true ∨ s.attached entity = true) := by
  cases hstep with
  | detached | unlockCondition => exact .inl rfl
  | unlockInternal =>
    obtain ⟨entries, heq, -⟩ := complete_eq { s with
      producers := l₁ ++ l₂
      internalMutex := Function.update s.internalMutex entity false } ticket entity
    rw [heq]
    exact .inl rfl
  | notify => exact .inr ⟨_, rfl, nofun, nofun, nofun⟩
  | triggerAttached | triggerDetached =>
    exact .inr ⟨_, trigger_producers .., nofun, nofun, fun h => .inl h⟩
  | lockInternal _ hstage =>
    obtain ⟨hattached, rfl⟩ | ⟨hnone, rfl⟩ := hstage
    · exact .inr ⟨_, rfl, nofun, nofun, fun _ => .inr hattached⟩
    · exact .inr ⟨_, rfl, fun _ => hnone, nofun, nofun⟩
  | attached hattached => exact .inr ⟨_, rfl, nofun, fun _ => .inr hattached, nofun⟩
  | _ => exact .inr ⟨_, rfl, nofun, fun h => .inl h, fun h => .inl h⟩

theorem Attaching.producer (h : Attaching s)
    (hl : s.producers = l₁ ++ ⟨entity, ticket, stage⟩ :: l₂)
    (hstep : ProducerStep s l₁ l₂ entity ticket stage s') : Attaching s' := by
  obtain ⟨hattached, hentities, hphase⟩ := hstep.frame
  refine ⟨?_, fun p hmem hstage => ?_⟩
  · have hto := h.attachedTo
    rw [hattached, hentities]
    obtain heq | ⟨hblocked, hwoken⟩ := hphase
    · rw [heq]
      exact hto
    · rw [hblocked] at hto
      rw [hwoken]
      exact hto
  · rw [hattached]
    have hold : p ∈ l₁ ++ l₂ → s.attached p.entity = false := fun hmem =>
      h.detached p (by rw [hl]; exact mem_of_mem_remove hmem) hstage
    obtain heq | ⟨stage', heq, hnew, -⟩ := hstep.producers
    · rw [heq] at hmem
      exact hold hmem
    · rw [heq, List.mem_append, List.mem_cons] at hmem
      obtain hmem | rfl | hmem := hmem
      · exact hold (List.mem_append_left _ hmem)
      · exact hnew hstage
      · exact hold (List.mem_append_right _ hmem)

theorem Attaching.wait (h : Attaching s) (hlocks : Locks s) (hstep : s.stepWait = some s') :
    Attaching s' := by
  have hto := h.attachedTo
  have hcases := stepWait_cases hstep
  generalize s.phase = phase at hto hcases
  cases hcases with
  | takeTriggered => exact ⟨hto, h.detached⟩
  | attached =>
    refine ⟨fun e => ?_, h.detached⟩
    rw [hto.1, List.append_nil]
    exact hto.2 e
  | @attach done todo entity hfree =>
    refine ⟨⟨by rw [hto.1]; simp, fun e => ?_⟩, fun p hmem hstage => ?_⟩
    · by_cases he : e = entity
      · subst he
        simp
      · simp [he, hto.2 e]
    · have hne := hlocks.entity_ne hfree hmem (by rw [hstage]; rfl)
      simpa only [Function.update_of_ne hne] using h.detached p hmem hstage
  | lockCondition => exact ⟨⟨rfl, hto⟩, h.detached⟩
  | block | found => exact ⟨hto.2, h.detached⟩
  | next => exact ⟨⟨by rw [hto.1]; simp, hto.2⟩, h.detached⟩
  | unlockCondition => exact ⟨fun e he => (hto e).mp he, h.detached⟩
  | finish =>
    refine ⟨fun e => ?_, h.detached⟩
    by_contra he
    have hmem := hto e (by simpa using he)
    cases hmem
  | @detach timedOut todo entity hfree =>
    refine ⟨fun e he => ?_, fun p hmem hstage => ?_⟩
    · by_cases heq : e = entity
      · subst heq
        simp at he
      · simp only [Function.update_of_ne heq] at he
        exact (List.mem_cons.mp (hto e he)).resolve_left heq
    · have hne := hlocks.entity_ne hfree hmem (by rw [hstage]; rfl)
      simpa only [Function.update_of_ne hne] using h.detached p hmem hstage
  | @report timedOut todo entity =>
    obtain ⟨triggered, heq, -⟩ := report_eq s entity
    rw [heq]
    exact ⟨hto, h.detached⟩

theorem Attaching.step {a : Action} (h : Attaching s) (hlocks : Locks s)
    (hstep : s.step a = some s') : Attaching s' := by
  have hto := h.attachedTo
  cases step_cases hstep with
  | @produce entity =>
    refine ⟨h.attachedTo, fun p hmem hstage => ?_⟩
    obtain hmem | hmem := List.mem_append.mp hmem
    · exact h.detached p hmem hstage
    · rw [List.mem_singleton.mp hmem] at hstage
      cases entity <;> cases hstage
  | producer hl _ hstep => exact h.producer hl hstep
  | take => exact ⟨h.attachedTo, h.detached⟩
  | notTriggered => exact h
  | takeTriggered hphase | wake hphase | timeOut hphase =>
    rw [hphase] at hto
    exact ⟨hto, h.detached⟩
  | rmwWait hphase =>
    rw [hphase] at hto
    exact ⟨⟨rfl, fun e => by simp [hto e]⟩, h.detached⟩
  | wait hstep => exact h.wait hlocks hstep
  | comeBack hphase =>
    rw [hphase] at hto
    exact ⟨⟨rfl, hto⟩, h.detached⟩

end Attaching

theorem attaching_of_reachable {s : State} (h : system.Reachable System.any s) : Attaching s :=
  h.invariant_of (fun _ => locks_of_reachable) ⟨fun _ => rfl, nofun⟩
    fun _ _ _ hlocks hattaching _ hstep => hattaching.step hlocks hstep

/-! ## What has been found not to be ready -/

/-- Something has been put on a queue, and the lock is still to be taken. -/
def Stage.Queued : Stage → Prop
  | .getAttachedWaitSet | .lockCondition => True
  | _ => False

/-- Something has become ready, and the notification is still to come. -/
def Stage.Notifies : Stage → Prop
  | .getAttachedWaitSet | .lockCondition | .notifyLocked | .unlockConditionToNotify | .notify => True
  | _ => False

/-- An entity is not ready, or a thread that has made it ready is at one of these stages. -/
def Covered (stages : Stage → Prop) (s : State) (entity : Entity) : Prop :=
  s.ready entity = true → ∃ p ∈ s.producers, p.entity = entity ∧ stages p.stage

/-- Nothing that has been found not to be ready goes unnoticed. -/
def Watching (s : State) : Prop :=
  match s.phase with
  | .hasData done _ => ∀ entity ∈ done, Covered Stage.Queued s entity
  | .blocked => ∀ entity ∈ s.entities, Covered Stage.Notifies s entity
  | _ => True

theorem ready_trigger_of_ne {s : State} {ticket : ℕ} {entity e : Entity} (he : e ≠ entity) :
    (s.trigger ticket entity).ready e = s.ready e := by
  cases entity with
  | guardCondition i =>
    cases e with
    | guardCondition j =>
      have hj : j ≠ i := fun heq => he (by rw [heq])
      simp only [State.trigger, State.ready, Function.update_of_ne hj]
    | _ => rfl
  | event i =>
    cases e with
    | event j =>
      have hj : j ≠ i := fun heq => he (by rw [heq])
      simp only [State.trigger, State.ready, Function.update_of_ne hj]
    | _ => rfl
  | _ => rfl

theorem ready_trigger {s : State} {ticket : ℕ} {entity e : Entity}
    (h : (s.trigger ticket entity).ready e = true) : e = entity ∨ s.ready e = true := by
  by_cases he : e = entity
  · exact .inl he
  · exact .inr (by rwa [ready_trigger_of_ne he] at h)

theorem ready_enqueue {s : State} {entity e : Entity} {n : ℕ} (he : e ≠ entity) :
    State.ready { s with queued := Function.update s.queued entity n } e = s.ready e := by
  cases e <;> simp only [State.ready, Function.update_of_ne he]

/-- What is still ready after something was taken was so before. -/
theorem ready_take {s : State} {entity e : Entity} (hne : s.queued entity ≠ 0)
    (h : State.ready { s with
      queued := Function.update s.queued entity (s.queued entity - 1) } e = true) :
    s.ready e = true := by
  by_cases he : e = entity
  · subst he
    cases e <;> simp_all [State.ready]
  · rwa [ready_enqueue he] at h

section Watching

variable {s s' : State} {l₁ l₂ : List Producer} {entity : Entity} {ticket : ℕ} {stage : Stage}
  {stages : Stage → Prop} {e : Entity}

/-- A producer moves and stays at one of the stages if it was. -/
theorem Covered.move (h : Covered stages s e)
    (hl : s.producers = l₁ ++ ⟨entity, ticket, stage⟩ :: l₂) {stage' : Stage}
    (hl' : s'.producers = l₁ ++ ⟨entity, ticket, stage'⟩ :: l₂)
    (hready : s'.ready e = true → s.ready e = true)
    (hstages : entity = e → stages stage → stages stage') : Covered stages s' e := by
  intro hr
  obtain ⟨p, hmem, hentity, hp⟩ := h (hready hr)
  rw [hl, List.mem_append, List.mem_cons] at hmem
  obtain hmem | rfl | hmem := hmem
  · exact ⟨p, by rw [hl']; exact List.mem_append_left _ hmem, hentity, hp⟩
  · exact ⟨⟨entity, ticket, stage'⟩, by rw [hl']; simp, hentity, hstages hentity hp⟩
  · exact ⟨p, by rw [hl']; exact List.mem_append_right _ (List.mem_cons_of_mem _ hmem), hentity, hp⟩

/-- A producer ends that was at none of the stages. -/
theorem Covered.leave (h : Covered stages s e)
    (hl : s.producers = l₁ ++ ⟨entity, ticket, stage⟩ :: l₂) (hl' : s'.producers = l₁ ++ l₂)
    (hready : s'.ready e = true → s.ready e = true)
    (hstages : entity = e → ¬ stages stage) : Covered stages s' e := by
  intro hr
  obtain ⟨p, hmem, hentity, hp⟩ := h (hready hr)
  rw [hl, List.mem_append, List.mem_cons] at hmem
  obtain hmem | rfl | hmem := hmem
  · exact ⟨p, by rw [hl']; exact List.mem_append_left _ hmem, hentity, hp⟩
  · exact (hstages hentity hp).elim
  · exact ⟨p, by rw [hl']; exact List.mem_append_right _ hmem, hentity, hp⟩

/-- A producer has come to one of the stages. -/
theorem Covered.of_stage {stage' : Stage}
    (hl' : s'.producers = l₁ ++ ⟨entity, ticket, stage'⟩ :: l₂) (hentity : entity = e)
    (hstage : stages stage') : Covered stages s' e := fun _ =>
  ⟨⟨entity, ticket, stage'⟩, by rw [hl']; simp, hentity, hstage⟩

/-- **While `has_data` looks around**, nobody else has the lock. -/
theorem covered_hasData (hlocks : Locks s) (hattaching : Attaching s)
    (hl : s.producers = l₁ ++ ⟨entity, ticket, stage⟩ :: l₂)
    (hstep : ProducerStep s l₁ l₂ entity ticket stage s') {done todo : List Entity}
    (hphase : s.phase = .hasData done todo) (hattached : s.attached e = true)
    (h : Covered Stage.Queued s e) : Covered Stage.Queued s' e := by
  have hc := hlocks.condition
  rw [hphase] at hc
  have hlocked : s.conditionMutex = true := hc.locked_of_other
  have hmem : (⟨entity, ticket, stage⟩ : Producer) ∈ s.producers := by rw [hl]; simp
  have hholds : stage.holdsCondition = false := hc.not_holds hmem
  cases hstep with
  | enqueue =>
    by_cases he : entity = e
    · exact .of_stage rfl he trivial
    · exact h.move hl rfl (fun hr => (ready_enqueue (Ne.symm he)).symm.trans hr)
        fun heq => (he heq).elim
  | attached => exact h.move hl rfl id fun _ _ => trivial
  | detached hnone =>
    refine h.leave hl rfl id fun heq => ?_
    rw [heq, hattached] at hnone
    cases hnone
  | lockCondition hfree | lockConditionToTrigger hfree => rw [hfree] at hlocked; cases hlocked
  | notifyLocked | unlockCondition | triggerAttached | unlockConditionToNotify => cases hholds
  | lockInternal => exact h.move hl rfl id fun _ hq => hq.elim
  | notify =>
    obtain ⟨hblocked, -⟩ | ⟨-, heq⟩ := notifyAll_cases
      { s with producers := l₁ ++ ⟨entity, ticket, .unlockInternal⟩ :: l₂ }
    · exact absurd (hphase.symm.trans hblocked) nofun
    · rw [heq]
      exact h.move hl rfl id fun _ hq => hq.elim
  | triggerDetached =>
    have hnone := hattaching.detached _ hmem rfl
    refine h.move hl (trigger_producers ..) (fun hr => ?_) fun _ hq => hq.elim
    obtain rfl | hr := ready_trigger hr
    · rw [hattached] at hnone
      cases hnone
    · exact hr
  | unlockInternal =>
    obtain ⟨entries, heq, -⟩ := complete_eq { s with
      producers := l₁ ++ l₂
      internalMutex := Function.update s.internalMutex entity false } ticket entity
    rw [heq]
    exact h.leave hl rfl id fun _ hq => hq.elim

/-- **While the thread is blocked**, a notification wakes it. -/
theorem covered_blocked (hattaching : Attaching s)
    (hl : s.producers = l₁ ++ ⟨entity, ticket, stage⟩ :: l₂)
    (hstep : ProducerStep s l₁ l₂ entity ticket stage s') (hphase : s.phase = .blocked)
    (hattached : s.attached e = true) (h : Covered Stage.Notifies s e) :
    s'.phase = .woken ∨ Covered Stage.Notifies s' e := by
  have hmem : (⟨entity, ticket, stage⟩ : Producer) ∈ s.producers := by rw [hl]; simp
  cases hstep with
  | enqueue =>
    by_cases he : entity = e
    · exact .inr (.of_stage rfl he trivial)
    · exact .inr (h.move hl rfl (fun hr => (ready_enqueue (Ne.symm he)).symm.trans hr)
        fun heq => (he heq).elim)
  | attached | lockCondition | unlockConditionToNotify =>
    exact .inr (h.move hl rfl id fun _ _ => trivial)
  | detached hnone =>
    refine .inr (h.leave hl rfl id fun heq => ?_)
    rw [heq, hattached] at hnone
    cases hnone
  | notifyLocked | notify =>
    rw [State.notifyAll, if_pos hphase]
    exact .inl rfl
  | unlockCondition => exact .inr (h.leave hl rfl id fun _ hn => hn.elim)
  | lockInternal | lockConditionToTrigger => exact .inr (h.move hl rfl id fun _ hn => hn.elim)
  | triggerAttached =>
    refine .inr ?_
    by_cases he : entity = e
    · exact .of_stage (trigger_producers ..) he trivial
    · exact h.move hl (trigger_producers ..)
        (fun hr => (ready_trigger hr).resolve_left (Ne.symm he)) fun heq => (he heq).elim
  | triggerDetached =>
    have hnone := hattaching.detached _ hmem rfl
    refine .inr (h.move hl (trigger_producers ..) (fun hr => ?_) fun _ hn => hn.elim)
    obtain rfl | hr := ready_trigger hr
    · rw [hattached] at hnone
      cases hnone
    · exact hr
  | unlockInternal =>
    obtain ⟨entries, heq, -⟩ := complete_eq { s with
      producers := l₁ ++ l₂
      internalMutex := Function.update s.internalMutex entity false } ticket entity
    rw [heq]
    exact .inr (h.leave hl rfl id fun _ hn => hn.elim)

theorem Watching.producer (h : Watching s) (hlocks : Locks s) (hattaching : Attaching s)
    (hl : s.producers = l₁ ++ ⟨entity, ticket, stage⟩ :: l₂)
    (hstep : ProducerStep s l₁ l₂ entity ticket stage s') : Watching s' := by
  obtain ⟨-, hentities, hphase'⟩ := hstep.frame
  have hto := hattaching.attachedTo
  cases hphase : s.phase with
  | hasData done todo =>
    rw [Watching, hphase] at h
    rw [hphase] at hto
    obtain heq | ⟨hblocked, -⟩ := hphase'
    · rw [Watching, heq, hphase]
      intro e hmem
      have hattached : s.attached e = true :=
        (hto.2 e).mpr (by rw [hto.1]; exact List.mem_append_left _ hmem)
      exact covered_hasData hlocks hattaching hl hstep hphase hattached (h e hmem)
    · exact absurd (hphase.symm.trans hblocked) nofun
  | blocked =>
    rw [Watching, hphase] at h
    rw [hphase] at hto
    obtain heq | ⟨-, hwoken⟩ := hphase'
    · rw [Watching, heq, hphase]
      intro e hmem
      rw [hentities] at hmem
      refine (covered_blocked hattaching hl hstep hphase ((hto e).mpr hmem)
        (h e hmem)).resolve_left ?_
      rw [heq, hphase]
      nofun
    · rw [Watching, hwoken]
      trivial
  | _ =>
    obtain heq | ⟨hblocked, -⟩ := hphase'
    · rw [Watching, heq, hphase]
      trivial
    · exact absurd (hphase.symm.trans hblocked) nofun

theorem Watching.wait (h : Watching s) (hattaching : Attaching s) (hstep : s.stepWait = some s') :
    Watching s' := by
  have hto := hattaching.attachedTo
  have hcases := stepWait_cases hstep
  rw [Watching] at h
  generalize s.phase = phase at h hto hcases
  cases hcases with
  | takeTriggered | attached | attach | unlockCondition | finish | detach | report | found =>
    trivial
  | lockCondition => exact nofun
  | block =>
    intro e hmem hr
    rw [hto.1, List.append_nil] at hmem
    obtain ⟨p, hp, hentity, hstage⟩ := h e hmem hr
    refine ⟨p, hp, hentity, ?_⟩
    cases hs : p.stage <;> simp_all [Stage.Queued, Stage.Notifies]
  | next hready =>
    intro e hmem hr
    obtain hmem | hmem := List.mem_append.mp hmem
    · exact h e hmem hr
    · rw [List.mem_singleton.mp hmem] at hr
      exact absurd (hr.symm.trans hready) nofun

/-- What is covered stays so while threads come and nothing more becomes ready. -/
theorem Covered.mono (h : Covered stages s e) (hready : s'.ready e = true → s.ready e = true)
    (hproducers : ∀ p ∈ s.producers, p ∈ s'.producers) : Covered stages s' e := by
  intro hr
  obtain ⟨p, hmem, hp⟩ := h (hready hr)
  exact ⟨p, hproducers p hmem, hp⟩

theorem Watching.mono (h : Watching s) (hphase : s'.phase = s.phase)
    (hentities : s'.entities = s.entities)
    (hready : ∀ e, s'.ready e = true → s.ready e = true)
    (hproducers : ∀ p ∈ s.producers, p ∈ s'.producers) : Watching s' := by
  rw [Watching] at h ⊢
  rw [hphase, hentities]
  cases hp : s.phase <;> rw [hp] at h
  case hasData => exact fun e hmem => (h e hmem).mono (hready e) hproducers
  case blocked => exact fun e hmem => (h e hmem).mono (hready e) hproducers
  all_goals trivial

theorem Watching.step {a : Action} (h : Watching s) (hlocks : Locks s) (hattaching : Attaching s)
    (hstep : s.step a = some s') : Watching s' := by
  cases step_cases hstep with
  | produce => exact h.mono rfl rfl (fun _ => id) fun _ hmem => List.mem_append_left _ hmem
  | producer hl _ hstep => exact h.producer hlocks hattaching hl hstep
  | take hne => exact h.mono rfl rfl (fun _ => ready_take hne) fun _ => id
  | notTriggered => exact h
  | takeTriggered | rmwWait | wake | timeOut => trivial
  | wait hstep => exact h.wait hattaching hstep
  | comeBack => exact fun _ hmem => by cases hmem

end Watching

theorem watching_of_reachable {s : State} (h : system.Reachable System.any s) : Watching s :=
  h.invariant_of (Q := fun s => Locks s ∧ Attaching s)
    (fun _ hr => ⟨locks_of_reachable hr, attaching_of_reachable hr⟩) trivial
    fun _ _ _ hq hwatching _ hstep => hwatching.step hq.1 hq.2 hstep

/-! ## What has been put down -/

theorem State.Reported.append {log : List Entry} {i ticket : ℕ} (h : State.Reported log i ticket)
    (entries : List Entry) : State.Reported (log ++ entries) i ticket := by
  obtain ⟨before, after, wait, rfl, hbefore, hafter⟩ := h
  exact ⟨before, after ++ entries, wait, List.append_assoc .., hbefore,
    List.mem_append_left _ hafter⟩

/-- A thread in `Trigger` has set `triggered_`, or counted. -/
def Stage.HasTriggered : Stage → Prop
  | .unlockConditionToNotify | .notify | .unlockInternal => True
  | _ => False

/-- What has been put down of triggers. -/
structure Reporting (s : State) : Prop where
  /-- Threads that have set `triggered_` have put that down. -/
  logged : ∀ p ∈ s.producers, p.stage.HasTriggered → ∀ i, p.entity = .guardCondition i →
    .triggered i p.ticket ∈ s.log
  /-- Calls that have returned had set it. -/
  completed : ∀ i ticket, .completed i ticket ∈ s.log → .triggered i ticket ∈ s.log
  /-- No setting of it is lost. -/
  kept : ∀ i ticket, .triggered i ticket ∈ s.log →
    s.triggered i = true ∨ State.Reported s.log i ticket

section Reporting

variable {s s' : State} {l₁ l₂ : List Producer} {entity : Entity} {ticket : ℕ} {stage : Stage}

/-- A producer moves; it has set `triggered_` after the step only if it had before. -/
theorem Reporting.move (h : Reporting s) (hl : s.producers = l₁ ++ ⟨entity, ticket, stage⟩ :: l₂)
    (stage' : Stage) (hstage : stage'.HasTriggered → stage.HasTriggered) :
    Reporting { s with producers := l₁ ++ ⟨entity, ticket, stage'⟩ :: l₂ } := by
  refine ⟨fun p hmem hp i hi => ?_, h.completed, h.kept⟩
  have hlogged := h.logged
  rw [hl] at hlogged
  obtain hmem | rfl := mem_replace hmem
  · exact hlogged p hmem hp i hi
  · exact hlogged ⟨entity, ticket, stage⟩ (List.mem_append_right _ List.mem_cons_self)
      (hstage hp) i hi

/-- A producer ends. -/
theorem Reporting.leave (h : Reporting s) (hl : s.producers = l₁ ++ ⟨entity, ticket, stage⟩ :: l₂) :
    Reporting { s with producers := l₁ ++ l₂ } := by
  refine ⟨fun p hmem => h.logged p ?_, h.completed, h.kept⟩
  rw [hl]
  exact mem_of_mem_remove hmem

theorem Reporting.notifyAll (h : Reporting s) : Reporting s.notifyAll :=
  ⟨h.logged, h.completed, h.kept⟩

/-- **`triggered_` is set**, and that is put down. -/
theorem Reporting.trigger (h : Reporting s) (hl : s.producers = l₁ ++ ⟨entity, ticket, stage⟩ :: l₂)
    (stage' : Stage) : Reporting (State.trigger { s with
      producers := l₁ ++ ⟨entity, ticket, stage'⟩ :: l₂ } ticket entity) := by
  have hlogged : ∀ p ∈ l₁ ++ ⟨entity, ticket, stage'⟩ :: l₂, p.stage.HasTriggered →
      ∀ i, p.entity = .guardCondition i →
      .triggered i p.ticket ∈ s.log ∨ entity = .guardCondition i ∧ p.ticket = ticket := by
    intro p hmem hp i hi
    have hold := h.logged
    rw [hl] at hold
    obtain hmem | rfl := mem_replace hmem
    · exact .inl (hold p hmem hp i hi)
    · exact .inr ⟨hi, rfl⟩
  cases entity with
  | guardCondition j =>
    refine ⟨fun p hmem hp i hi => ?_, fun i t hmem => ?_, fun i t hmem => ?_⟩
    · obtain hmem | ⟨heq, htick⟩ := hlogged p hmem hp i hi
      · exact List.mem_append_left _ hmem
      · injection heq with heq
        rw [htick, ← heq]
        exact List.mem_append_right _ (List.mem_singleton.mpr rfl)
    · obtain hmem | hmem := List.mem_append.mp hmem
      · exact List.mem_append_left _ (h.completed i t hmem)
      · cases List.mem_singleton.mp hmem
    · by_cases hi : i = j
      · subst hi
        exact .inl (Function.update_self ..)
      · obtain hmem | hmem := List.mem_append.mp hmem
        · exact (h.kept i t hmem).imp (fun ht => by
            simpa only [State.trigger, Function.update_of_ne hi] using ht) fun hr => hr.append _
        · injection List.mem_singleton.mp hmem with heq
          exact (hi heq).elim
  | _ =>
    refine ⟨fun p hmem hp i hi => ?_, h.completed, h.kept⟩
    exact (hlogged p hmem hp i hi).resolve_right nofun

theorem Reporting.producer (h : Reporting s)
    (hl : s.producers = l₁ ++ ⟨entity, ticket, stage⟩ :: l₂)
    (hstep : ProducerStep s l₁ l₂ entity ticket stage s') : Reporting s' := by
  cases hstep with
  | enqueue =>
    have hr := h.move hl .getAttachedWaitSet id
    exact ⟨hr.logged, hr.completed, hr.kept⟩
  | attached => exact h.move hl _ id
  | detached => exact h.leave hl
  | lockCondition =>
    have hr := h.move hl .notifyLocked id
    exact ⟨hr.logged, hr.completed, hr.kept⟩
  | notifyLocked => exact (h.move hl .unlockCondition id).notifyAll
  | unlockCondition => exact ⟨(h.leave hl).logged, h.completed, h.kept⟩
  | @lockInternal _ stage' hstage =>
    have hr := h.move hl stage' (by
      obtain ⟨-, rfl⟩ | ⟨-, rfl⟩ := hstage <;> exact id)
    exact ⟨hr.logged, hr.completed, hr.kept⟩
  | lockConditionToTrigger =>
    have hr := h.move hl .triggerAttached id
    exact ⟨hr.logged, hr.completed, hr.kept⟩
  | triggerAttached => exact h.trigger hl _
  | unlockConditionToNotify =>
    have hr := h.move hl .notify id
    exact ⟨hr.logged, hr.completed, hr.kept⟩
  | notify => exact (h.move hl .unlockInternal id).notifyAll
  | triggerDetached => exact h.trigger hl _
  | unlockInternal =>
    obtain ⟨entries, heq, hentries⟩ := complete_eq { s with
      producers := l₁ ++ l₂
      internalMutex := Function.update s.internalMutex entity false } ticket entity
    rw [heq]
    have hr := h.leave hl
    have hmem : (⟨entity, ticket, .unlockInternal⟩ : Producer) ∈ s.producers := by rw [hl]; simp
    refine ⟨fun p hp hstage i hi => List.mem_append_left _ (hr.logged p hp hstage i hi),
      fun i t ht => ?_, fun i t ht => ?_⟩
    · obtain ht | ht := List.mem_append.mp ht
      · exact List.mem_append_left _ (h.completed i t ht)
      · obtain ⟨j, hj, heq⟩ := hentries _ ht
        injection heq with hij htt
        rw [hij, htt]
        exact List.mem_append_left _ (h.logged _ hmem trivial j hj)
    · obtain ht | ht := List.mem_append.mp ht
      · exact (h.kept i t ht).imp_right fun hr => hr.append entries
      · obtain ⟨j, -, heq⟩ := hentries _ ht
        cases heq

/-- Something else is put down. -/
theorem Reporting.append (h : Reporting s) {entries : List Entry}
    (hproducers : s'.producers = s.producers) (hlog : s'.log = s.log ++ entries)
    (hneither : ∀ i t, .triggered i t ∉ entries ∧ .completed i t ∉ entries)
    (hkept : ∀ i t, .triggered i t ∈ s.log → s.triggered i = true →
      s'.triggered i = true ∨ State.Reported s'.log i t) : Reporting s' := by
  refine ⟨fun p hmem hp i hi => ?_, fun i t ht => ?_, fun i t ht => ?_⟩
  · rw [hlog]
    exact List.mem_append_left _ (h.logged p (hproducers ▸ hmem) hp i hi)
  · rw [hlog] at ht ⊢
    obtain ht | ht := List.mem_append.mp ht
    · exact List.mem_append_left _ (h.completed i t ht)
    · exact ((hneither i t).2 ht).elim
  · rw [hlog] at ht
    obtain ht | ht := List.mem_append.mp ht
    · obtain htrue | hr := h.kept i t ht
      · exact hkept i t ht htrue
      · rw [hlog]
        exact .inr (hr.append entries)
    · exact ((hneither i t).1 ht).elim

theorem Reporting.wait (h : Reporting s) (hstep : s.stepWait = some s') : Reporting s' := by
  have hcases := stepWait_cases hstep
  generalize s.phase = phase at hcases
  cases hcases with
  | takeTriggered | attached | attach | lockCondition | block | found | next | unlockCondition
  | detach => exact ⟨h.logged, h.completed, h.kept⟩
  | finish =>
    exact h.append rfl rfl (fun i t => by simp) fun _ _ _ htrue => .inl htrue
  | @report timedOut todo entity =>
    obtain ⟨triggered, heq, htriggered⟩ := report_eq s entity
    rw [heq]
    refine h.append rfl rfl (fun i t => by simp) fun i t ht htrue => ?_
    obtain hsame | ⟨rfl, -⟩ := htriggered i
    · exact .inl (hsame.trans htrue)
    · refine .inr ⟨s.log, _, s.wait, rfl, ht, List.mem_singleton.mpr ?_⟩
      rw [State.ready, htrue]

theorem Reporting.step {a : Action} (h : Reporting s) (hstep : s.step a = some s') :
    Reporting s' := by
  cases step_cases hstep with
  | @produce entity =>
    refine ⟨fun p hmem hp i hi => ?_, h.completed, h.kept⟩
    obtain hmem | hmem := List.mem_append.mp hmem
    · exact h.logged p hmem hp i hi
    · rw [List.mem_singleton.mp hmem] at hp
      cases entity <;> exact hp.elim
  | producer hl _ hstep => exact h.producer hl hstep
  | wait hstep => exact h.wait hstep
  | take | notTriggered | takeTriggered | rmwWait | wake | comeBack | timeOut =>
    exact ⟨h.logged, h.completed, h.kept⟩

end Reporting

theorem reporting_of_reachable {s : State} (h : system.Reachable System.any s) : Reporting s :=
  h.invariant ⟨nofun, nofun, nofun⟩ fun _ _ _ hreporting _ hstep => hreporting.step hstep

/-! ## The result -/

/-- **No lost wakeup and no lost trigger.**  Whatever the thread waits for in its calls of
`rmw_wait`, whatever other threads do in the meantime, and however all their steps interleave. -/
theorem live {s : State} (h : system.Reachable System.any s) : s.Live where
  wakeup hphase e hattached hready := by
    have hto := (attaching_of_reachable h).attachedTo
    have hwatching := watching_of_reachable h
    rw [hphase] at hto
    rw [Watching, hphase] at hwatching
    obtain ⟨p, hmem, hentity, hstage⟩ := hwatching e ((hto e).mp hattached) hready
    refine ⟨p, hmem, hentity, ?_⟩
    rw [State.Outstanding, hentity]
    cases hs : p.stage <;> simp_all [Stage.Notifies]
  trigger i ticket hmem :=
    (reporting_of_reachable h).kept i ticket ((reporting_of_reachable h).completed i ticket hmem)

/-- A guard condition is triggered and reported; then the thread blocks, and a subscriber receives
something. -/
theorem live_blocked : ∃ s : State, s.phase = .blocked ∧ s.attached (.subscriber 0) = true ∧
    s.ready (.subscriber 0) = true ∧ .completed 1 0 ∈ s.log ∧ s.triggered 1 = false ∧ s.Live := by
  have h : system.Reachable System.any _ := System.reachable_of_exec
    [.produce (.guardCondition 1), .producer 0, .producer 0, .producer 0,
      .rmwWait [0] [1] [] [] [] false, .wait, .wait, .wait, .wait, .wait, .wait, .wait, .wait,
      .wait, .wait, .wait, .wait,
      .rmwWait [0] [1] [] [] [] false, .wait, .wait, .wait, .wait, .wait, .wait, .wait,
      .produce (.subscriber 0), .producer 0] rfl
  exact ⟨_, rfl, rfl, rfl, by decide, rfl, live h⟩

end WaitSet

end RmwEcal
