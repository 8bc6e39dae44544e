import RmwEcal.Transition.System
import Mathlib.Logic.Function.Basic

/-!
# Wait sets

`rmw_wait` attaches its wait set to everything it is given, blocks until one of these things is
ready, and detaches the wait set again.  What makes them ready happens on other threads, which tell
the wait set if there is one attached.

They go about it in different ways.  Subscribers, services and clients put something on a queue,
then look whether a wait set is attached, and then notify it with the lock of its condition held.
Guard conditions and events look first, with a lock of their own, change their state with the lock
of the condition and notify without it.

Here is one wait set and the one thread that calls `rmw_wait` with it, time and again.  Mutexes that
are only held while a single thing is done do not show.
-/

set_option autoImplicit false

namespace RmwEcal

open Transition

namespace WaitSet

/-! ## Entities and producers -/

/-- What can be waited for. -/
inductive Entity where
  | subscriber (i : ℕ)
  | guardCondition (i : ℕ)
  | service (i : ℕ)
  | client (i : ℕ)
  | event (i : ℕ)
  deriving DecidableEq, Repr

/-- The next thing a thread does that makes an entity ready. -/
inductive Stage where
  /-- `EnqueueData`, `EnqueueRequest` or `EnqueueResponse`. -/
  | enqueue
  | getAttachedWaitSet
  /-- `NotifyWaitSet` has found a wait set. -/
  | lockCondition
  | notifyLocked
  | unlockCondition
  /-- `GuardCondition::Trigger` or `Event::Trigger`. -/
  | lockInternal
  /-- There is a wait set. -/
  | lockConditionToTrigger
  | triggerAttached
  | unlockConditionToNotify
  | notify
  /-- There is none. -/
  | triggerDetached
  | unlockInternal
  deriving DecidableEq, Repr

namespace Stage

/-- Whether `condition_mutex` is held. -/
def holdsCondition : Stage → Bool
  | .notifyLocked | .unlockCondition | .triggerAttached | .unlockConditionToNotify => true
  | _ => false

/-- Whether `internal_mutex_` of the entity is held. -/
def holdsInternal : Stage → Bool
  | .lockConditionToTrigger | .triggerAttached | .unlockConditionToNotify | .notify
  | .triggerDetached | .unlockInternal => true
  | _ => false

/-- Whether `NotifyWaitSet` has found a wait set, and is not done with it. -/
def notifies : Stage → Bool
  | .lockCondition | .notifyLocked | .unlockCondition => true
  | _ => false

/-- Whether `Trigger` has found a wait set, and is not done with it. -/
def triggers : Stage → Bool
  | .lockConditionToTrigger | .triggerAttached | .unlockConditionToNotify | .notify => true
  | _ => false

end Stage

/-- A thread in `OnReceiveData`, `OnRequest`, `OnResponse` or a `Trigger`. -/
structure Producer where
  /-- What it makes ready. -/
  entity : Entity
  /-- The number of the call. -/
  ticket : ℕ
  /-- The next thing it does. -/
  stage : Stage
  deriving DecidableEq, Repr

/-- Where it begins. -/
def Entity.firstStage : Entity → Stage
  | .subscriber _ | .service _ | .client _ => .enqueue
  | .guardCondition _ | .event _ => .lockInternal

/-! ## The state -/

/-- Where the thread is that calls `rmw_wait`. -/
inductive Phase where
  /-- It is elsewhere. -/
  | idle
  /-- It is in `Event::TakeTriggered` and has seen that there is something to take. -/
  | takeTriggered (i : ℕ)
  /-- `attach_wait_set` has attached the wait set to some and will attach it to the others. -/
  | attach (done todo : List Entity)
  | lockCondition
  /-- `has_data` has looked at some and will look at the others. -/
  | hasData (done todo : List Entity)
  /-- It is blocked in `Wait`. -/
  | blocked
  /-- It is still in `Wait`, and waits for the lock. -/
  | woken
  | unlockCondition (timedOut : Bool)
  /-- `detach_wait_set` is going to detach these. -/
  | detach (timedOut : Bool) (todo : List Entity)
  /-- It has detached one and is going to see whether to leave it in the array. -/
  | report (timedOut : Bool) (entity : Entity) (todo : List Entity)
  deriving DecidableEq, Repr

/-- Whether `condition_mutex` is held. -/
def Phase.holdsCondition : Phase → Bool
  | .hasData _ _ | .unlockCondition _ => true
  | _ => false

/-- What is put down. -/
inductive Entry where
  /-- A call of `GuardCondition::Trigger` has set `triggered_`. -/
  | triggered (i ticket : ℕ)
  /-- A call of `GuardCondition::Trigger` has returned. -/
  | completed (i ticket : ℕ)
  /-- A call of `rmw_wait` has left the pointer to an entity in its array, or put a null pointer in
  its place. -/
  | reported (wait : ℕ) (entity : Entity) (left : Bool)
  /-- A call of `rmw_wait` has returned, with `RMW_RET_TIMEOUT` or with `RMW_RET_OK`. -/
  | returned (wait : ℕ) (timedOut : Bool)
  deriving DecidableEq, Repr

/-- A wait set with everything around it. -/
structure State where
  /-- Whether `wait_set_` of an entity is set. -/
  attached : Entity → Bool
  /-- How much there is in `data_`, `pending_requests_` or `responses_`. -/
  queued : Entity → ℕ
  /-- `triggered_` of a guard condition. -/
  triggered : ℕ → Bool
  /-- `triggered_count_` of an event. -/
  triggeredCount : ℕ → UInt8
  /-- Whether `internal_mutex_` of a guard condition or an event is taken. -/
  internalMutex : Entity → Bool
  /-- Whether `condition_mutex` is taken. -/
  conditionMutex : Bool
  /-- The threads that make entities ready. -/
  producers : List Producer
  /-- How many of them there have been. -/
  tickets : ℕ
  /-- Where the thread is that calls `rmw_wait`. -/
  phase : Phase
  /-- What it was called with. -/
  entities : List Entity
  /-- Whether there is a `wait_timeout`. -/
  waitTimeout : Bool
  /-- How many calls have begun before. -/
  wait : ℕ
  /-- What was put down. -/
  log : List Entry

namespace State

/-- Nothing has happened yet. -/
def fresh : State where
  attached _ := false
  queued _ := 0
  triggered _ := false
  triggeredCount _ := 0
  internalMutex _ := false
  conditionMutex := false
  producers := []
  tickets := 0
  phase := .idle
  entities := []
  waitTimeout := false
  wait := 0
  log := []

/-- `HasData`, `HasRequest`, `HasResponse` or `Triggered`. -/
def ready (s : State) : Entity → Bool
  | .subscriber i => s.queued (.subscriber i) ≠ 0
  | .service i => s.queued (.service i) ≠ 0
  | .client i => s.queued (.client i) ≠ 0
  | .guardCondition i => s.triggered i
  | .event i => 0 < s.triggeredCount i

/-! ## Producers -/

/-- `WaitSet::Trigger`: if the waiting thread is blocked, it is not any more. -/
def notifyAll (s : State) : State :=
  { s with phase := if s.phase = .blocked then .woken else s.phase }

/-- `triggered_ = true` or `triggered_count_++`. -/
def trigger (s : State) (ticket : ℕ) : Entity → State
  | .guardCondition i => { s with
      triggered := Function.update s.triggered i true
      log := s.log ++ [.triggered i ticket] }
  | .event i => { s with
      triggeredCount := Function.update s.triggeredCount i (s.triggeredCount i + 1) }
  | _ => s

/-- `Trigger` returns. -/
def complete (s : State) (ticket : ℕ) : Entity → State
  | .guardCondition i => { s with log := s.log ++ [.completed i ticket] }
  | _ => s

/-- A thread is called that makes an entity ready. -/
def produce (s : State) (entity : Entity) : State :=
  { s with
    producers := s.producers ++ [⟨entity, s.tickets, entity.firstStage⟩]
    tickets := s.tickets + 1 }

/-- Another stage for a thread. -/
def move (s : State) (i : ℕ) (stage : Stage) : State :=
  { s with producers := s.producers.modify i fun p => { p with stage := stage } }

/-- A thread is done. -/
def finish (s : State) (i : ℕ) : State := { s with producers := s.producers.eraseIdx i }

/-- The next step of a thread that makes an entity ready.  A lock can be taken when it is free. -/
def stepProducer (s : State) (i : ℕ) : Option State := do
  let p ← s.producers[i]?
  match p.stage with
  | .enqueue => some { s.move i .getAttachedWaitSet with
      queued := Function.update s.queued p.entity (s.queued p.entity + 1) }
  | .getAttachedWaitSet =>
    some (if s.attached p.entity then s.move i .lockCondition else s.finish i)
  | .lockCondition =>
    if s.conditionMutex then none
    else some { s.move i .notifyLocked with conditionMutex := true }
  | .notifyLocked => some (s.move i .unlockCondition).notifyAll
  | .unlockCondition => some { s.finish i with conditionMutex := false }
  | .lockInternal =>
    if s.internalMutex p.entity then none
    else some { s.move i (if s.attached p.entity then .lockConditionToTrigger else .triggerDetached)
      with internalMutex := Function.update s.internalMutex p.entity true }
  | .lockConditionToTrigger =>
    if s.conditionMutex then none
    else some { s.move i .triggerAttached with conditionMutex := true }
  | .triggerAttached => some ((s.move i .unlockConditionToNotify).trigger p.ticket p.entity)
  | .unlockConditionToNotify => some { s.move i .notify with conditionMutex := false }
  | .notify => some (s.move i .unlockInternal).notifyAll
  | .triggerDetached => some ((s.move i .unlockInternal).trigger p.ticket p.entity)
  | .unlockInternal => some ({ s.finish i with
      internalMutex := Function.update s.internalMutex p.entity false }.complete p.ticket p.entity)

/-! ## Taking -/

/-- A thread takes something off a queue that is not empty. -/
def take (s : State) (entity : Entity) : Option State :=
  if s.queued entity = 0 then none
  else some { s with queued := Function.update s.queued entity (s.queued entity - 1) }

/-- `Event::TakeTriggered`, between two calls of `rmw_wait`, up to `return false` or to
`triggered_count_--`. -/
def takeTriggered (s : State) (i : ℕ) : Option State :=
  if s.phase = .idle then
    some (if s.triggeredCount i = 0 then s else { s with phase := .takeTriggered i })
  else none

/-! ## Waiting -/

/-- `rmw_wait` is called. -/
def rmwWait (s : State) (subscriptions guardConditions services clients events : List ℕ)
    (waitTimeout : Bool) : Option State :=
  let entities := subscriptions.map .subscriber ++ guardConditions.map .guardCondition ++
    services.map .service ++ clients.map .client ++ events.map .event
  if s.phase = .idle then
    some { s with phase := .attach [] entities, entities := entities, waitTimeout := waitTimeout }
  else none

/-- The entry of the array that is left for an entity, once it has been detached: `TakeTriggered`
for a guard condition, which resets it, and `ready` for the others. -/
def report (s : State) (entity : Entity) : State :=
  let log := s.log ++ [.reported s.wait entity (s.ready entity)]
  match entity with
  | .guardCondition i => { s with triggered := Function.update s.triggered i false, log := log }
  | _ => { s with log := log }

/-- The next step of the thread that calls `rmw_wait`.  `AttachWaitSet` and `DetachWaitSet` take
`internal_mutex_`, where there is one; while the thread is blocked it has no step of its own. -/
def stepWait (s : State) : Option State :=
  match s.phase with
  | .idle => none
  | .takeTriggered i => some { s with
      triggeredCount := Function.update s.triggeredCount i (s.triggeredCount i - 1)
      phase := .idle }
  | .attach _ [] => some { s with phase := .lockCondition }
  | .attach done (entity :: todo) =>
    if s.internalMutex entity then none
    else some { s with
      attached := Function.update s.attached entity true
      phase := .attach (done ++ [entity]) todo }
  | .lockCondition =>
    if s.conditionMutex then none
    else some { s with conditionMutex := true, phase := .hasData [] s.entities }
  -- nothing is ready: to wait gives the lock back
  | .hasData _ [] => some { s with conditionMutex := false, phase := .blocked }
  | .hasData done (entity :: todo) => some { s with
      phase := if s.ready entity then .unlockCondition false
        else .hasData (done ++ [entity]) todo }
  | .blocked => none
  | .woken => none
  | .unlockCondition timedOut => some { s with
      conditionMutex := false
      phase := .detach timedOut s.entities }
  | .detach timedOut [] => some { s with
      phase := .idle
      wait := s.wait + 1
      log := s.log ++ [.returned s.wait timedOut] }
  | .detach timedOut (entity :: todo) =>
    if s.internalMutex entity then none
    else some { s with
      attached := Function.update s.attached entity false
      phase := .report timedOut entity todo }
  | .report timedOut entity todo => some { s.report entity with phase := .detach timedOut todo }

/-- The condition variable lets go of the thread for no reason, or because time is up. -/
def wake (s : State) : Option State :=
  if s.phase = .blocked then some { s with phase := .woken } else none

/-- The thread comes out of `Wait` with the lock, and with an answer if it is asked for one. -/
def comeBack (s : State) (timedOut : Bool) : Option State :=
  if s.phase = .woken ∧ s.conditionMutex = false ∧ (timedOut → s.waitTimeout) then
    some { s with
      conditionMutex := true
      phase := if timedOut then .unlockCondition true else .hasData [] s.entities }
  else none

end State

/-! ## Steps -/

/-- The steps: of threads that make entities ready, of those that take, and of the one that
waits. -/
inductive Action where
  /-- `OnReceiveData`, `OnRequest`, `OnResponse` or a `Trigger` is called. -/
  | produce (entity : Entity)
  /-- Such a thread takes its next step. -/
  | producer (i : ℕ)
  /-- A thread takes something off a queue. -/
  | take (entity : Entity)
  /-- The thread that calls `rmw_wait` takes an event. -/
  | takeTriggered (i : ℕ)
  /-- It calls `rmw_wait`. -/
  | rmwWait (subscriptions guardConditions services clients events : List ℕ) (waitTimeout : Bool)
  /-- It takes its next step. -/
  | wait
  /-- It is let go for no reason, or because time is up. -/
  | wake
  /-- It has the lock again. -/
  | comeBack (timedOut : Bool)
  deriving DecidableEq, Repr

namespace State

/-- One step. -/
def step (s : State) : Action → Option State
  | .produce entity => some (s.produce entity)
  | .producer i => s.stepProducer i
  | .take entity => s.take entity
  | .takeTriggered i => s.takeTriggered i
  | .rmwWait subscriptions guardConditions services clients events waitTimeout =>
    s.rmwWait subscriptions guardConditions services clients events waitTimeout
  | .wait => s.stepWait
  | .wake => s.wake
  | .comeBack timedOut => s.comeBack timedOut

end State

/-- A wait set at work. -/
def system : System State Action := ⟨.fresh, State.step⟩

/-! ## What steps leave alone -/

section Frame

variable (s : State) (ticket : ℕ) (entity : Entity)

@[simp] theorem trigger_attached : (s.trigger ticket entity).attached = s.attached := by
  cases entity <;> rfl

@[simp] theorem trigger_internalMutex :
    (s.trigger ticket entity).internalMutex = s.internalMutex := by
  cases entity <;> rfl

@[simp] theorem trigger_conditionMutex :
    (s.trigger ticket entity).conditionMutex = s.conditionMutex := by
  cases entity <;> rfl

@[simp] theorem trigger_producers : (s.trigger ticket entity).producers = s.producers := by
  cases entity <;> rfl

@[simp] theorem trigger_phase : (s.trigger ticket entity).phase = s.phase := by
  cases entity <;> rfl

@[simp] theorem trigger_entities : (s.trigger ticket entity).entities = s.entities := by
  cases entity <;> rfl

/-- A return of `Trigger` is put down, and that is all. -/
theorem complete_eq : ∃ entries, s.complete ticket entity = { s with log := s.log ++ entries } ∧
    ∀ entry ∈ entries, ∃ i, entity = .guardCondition i ∧ entry = .completed i ticket := by
  cases entity with
  | guardCondition i => exact ⟨_, rfl, fun entry hmem => ⟨i, rfl, List.mem_singleton.mp hmem⟩⟩
  | _ => exact ⟨[], by rw [List.append_nil]; rfl, nofun⟩

/-- `detach_wait_set` resets a guard condition that it reports, and that is all but for what is put
down. -/
theorem report_eq : ∃ triggered, s.report entity = { s with
      triggered := triggered
      log := s.log ++ [.reported s.wait entity (s.ready entity)] } ∧
    ∀ i, triggered i = s.triggered i ∨ entity = .guardCondition i ∧ triggered i = false := by
  cases entity with
  | guardCondition i =>
    refine ⟨_, rfl, fun j => ?_⟩
    by_cases h : j = i
    · subst h
      exact .inr ⟨rfl, Function.update_self ..⟩
    · exact .inl (Function.update_of_ne h ..)
  | _ => exact ⟨s.triggered, rfl, fun _ => .inl rfl⟩

/-- A thread that is blocked is woken, and that is all. -/
theorem notifyAll_cases : s.phase = .blocked ∧ s.notifyAll = { s with phase := .woken } ∨
    s.phase ≠ .blocked ∧ s.notifyAll = s := by
  rw [State.notifyAll]
  split
  · exact .inl ⟨‹_›, rfl⟩
  · exact .inr ⟨‹_›, rfl⟩

end Frame

/-- The steps of a thread that makes an entity ready, by the stage it is at; `l₁` and `l₂` are the
other threads. -/
inductive ProducerStep (s : State) (l₁ l₂ : List Producer) (entity : Entity) (ticket : ℕ) :
    Stage → State → Prop
  | enqueue : ProducerStep s l₁ l₂ entity ticket .enqueue
      { s with
        producers := l₁ ++ ⟨entity, ticket, .getAttachedWaitSet⟩ :: l₂
        queued := Function.update s.queued entity (s.queued entity + 1) }
  | attached (h : s.attached entity = true) :
      ProducerStep s l₁ l₂ entity ticket .getAttachedWaitSet
        { s with producers := l₁ ++ ⟨entity, ticket, .lockCondition⟩ :: l₂ }
  | detached (h : s.attached entity = false) :
      ProducerStep s l₁ l₂ entity ticket .getAttachedWaitSet { s with producers := l₁ ++ l₂ }
  | lockCondition (h : s.conditionMutex = false) :
      ProducerStep s l₁ l₂ entity ticket .lockCondition
        { s with
          producers := l₁ ++ ⟨entity, ticket, .notifyLocked⟩ :: l₂
          conditionMutex := true }
  | notifyLocked : ProducerStep s l₁ l₂ entity ticket .notifyLocked
      (State.notifyAll { s with producers := l₁ ++ ⟨entity, ticket, .unlockCondition⟩ :: l₂ })
  | unlockCondition : ProducerStep s l₁ l₂ entity ticket .unlockCondition
      { s with producers := l₁ ++ l₂, conditionMutex := false }
  | lockInternal (h : s.internalMutex entity = false) {stage : Stage}
      (hstage : s.attached entity = true ∧ stage = .lockConditionToTrigger ∨
        s.attached entity = false ∧ stage = .triggerDetached) :
      ProducerStep s l₁ l₂ entity ticket .lockInternal
        { s with
          producers := l₁ ++ ⟨entity, ticket, stage⟩ :: l₂
          internalMutex := Function.update s.internalMutex entity true }
  | lockConditionToTrigger (h : s.conditionMutex = false) :
      ProducerStep s l₁ l₂ entity ticket .lockConditionToTrigger
        { s with
          producers := l₁ ++ ⟨entity, ticket, .triggerAttached⟩ :: l₂
          conditionMutex := true }
  | triggerAttached : ProducerStep s l₁ l₂ entity ticket .triggerAttached
      (State.trigger { s with
        producers := l₁ ++ ⟨entity, ticket, .unlockConditionToNotify⟩ :: l₂ } ticket entity)
  | unlockConditionToNotify : ProducerStep s l₁ l₂ entity ticket .unlockConditionToNotify
      { s with producers := l₁ ++ ⟨entity, ticket, .notify⟩ :: l₂, conditionMutex := false }
  | notify : ProducerStep s l₁ l₂ entity ticket .notify
      (State.notifyAll { s with producers := l₁ ++ ⟨entity, ticket, .unlockInternal⟩ :: l₂ })
  | triggerDetached : ProducerStep s l₁ l₂ entity ticket .triggerDetached
      (State.trigger { s with producers := l₁ ++ ⟨entity, ticket, .unlockInternal⟩ :: l₂ }
        ticket entity)
  | unlockInternal : ProducerStep s l₁ l₂ entity ticket .unlockInternal
      (State.complete { s with
        producers := l₁ ++ l₂
        internalMutex := Function.update s.internalMutex entity false } ticket entity)

/-- **What a step of a producer is.** -/
theorem stepProducer_cases {s s' : State} {i : ℕ} (h : s.stepProducer i = some s') :
    ∃ l₁ l₂ entity ticket stage, s.producers = l₁ ++ ⟨entity, ticket, stage⟩ :: l₂ ∧
      s.producers[i]? = some ⟨entity, ticket, stage⟩ ∧
      ProducerStep s l₁ l₂ entity ticket stage s' := by
  obtain ⟨⟨entity, ticket, stage⟩, hget, h⟩ := Option.bind_eq_some_iff.mp h
  obtain ⟨l₁, l₂, hl, hmodify, -, herase, -⟩ := exists_split hget
  refine ⟨l₁, l₂, entity, ticket, stage, hl, hget, ?_⟩
  cases stage <;> simp only [State.move, State.finish, hmodify, herase] at h
  case enqueue => cases h; exact .enqueue
  case getAttachedWaitSet =>
    cases hattached : s.attached entity with
    | false => simp only [hattached] at h; cases h; exact .detached hattached
    | true => simp only [hattached] at h; cases h; exact .attached hattached
  case lockCondition =>
    cases hmutex : s.conditionMutex with
    | false => simp only [hmutex] at h; cases h; exact .lockCondition hmutex
    | true => simp only [hmutex] at h; cases h
  case notifyLocked => cases h; exact .notifyLocked
  case unlockCondition => cases h; exact .unlockCondition
  case lockInternal =>
    cases hmutex : s.internalMutex entity with
    | true => simp only [hmutex] at h; cases h
    | false =>
      simp only [hmutex] at h
      cases h
      refine .lockInternal hmutex ?_
      cases hattached : s.attached entity with
      | false => exact .inr ⟨rfl, rfl⟩
      | true => exact .inl ⟨rfl, rfl⟩
  case lockConditionToTrigger =>
    cases hmutex : s.conditionMutex with
    | false => simp only [hmutex] at h; cases h; exact .lockConditionToTrigger hmutex
    | true => simp only [hmutex] at h; cases h
  case triggerAttached => cases h; exact .triggerAttached
  case unlockConditionToNotify => cases h; exact .unlockConditionToNotify
  case notify => cases h; exact .notify
  case triggerDetached => cases h; exact .triggerDetached
  case unlockInternal => cases h; exact .unlockInternal

/-- The steps of the thread that calls `rmw_wait`, by the phase it is in. -/
inductive WaitStep (s : State) : Phase → State → Prop
  | takeTriggered {i : ℕ} : WaitStep s (.takeTriggered i)
      { s with
        triggeredCount := Function.update s.triggeredCount i (s.triggeredCount i - 1)
        phase := .idle }
  | attached {done : List Entity} :
      WaitStep s (.attach done []) { s with phase := .lockCondition }
  | attach {done todo : List Entity} {entity : Entity} (h : s.internalMutex entity = false) :
      WaitStep s (.attach done (entity :: todo))
        { s with
          attached := Function.update s.attached entity true
          phase := .attach (done ++ [entity]) todo }
  | lockCondition (h : s.conditionMutex = false) : WaitStep s .lockCondition
      { s with conditionMutex := true, phase := .hasData [] s.entities }
  | block {done : List Entity} : WaitStep s (.hasData done [])
      { s with conditionMutex := false, phase := .blocked }
  | found {done todo : List Entity} {entity : Entity} (h : s.ready entity = true) :
      WaitStep s (.hasData done (entity :: todo)) { s with phase := .unlockCondition false }
  | next {done todo : List Entity} {entity : Entity} (h : s.ready entity = false) :
      WaitStep s (.hasData done (entity :: todo))
        { s with phase := .hasData (done ++ [entity]) todo }
  | unlockCondition {timedOut : Bool} : WaitStep s (.unlockCondition timedOut)
      { s with conditionMutex := false, phase := .detach timedOut s.entities }
  | finish {timedOut : Bool} : WaitStep s (.detach timedOut [])
      { s with
        phase := .idle
        wait := s.wait + 1
        log := s.log ++ [.returned s.wait timedOut] }
  | detach {timedOut : Bool} {todo : List Entity} {entity : Entity}
      (h : s.internalMutex entity = false) : WaitStep s (.detach timedOut (entity :: todo))
        { s with
          attached := Function.update s.attached entity false
          phase := .report timedOut entity todo }
  | report {timedOut : Bool} {todo : List Entity} {entity : Entity} :
      WaitStep s (.report timedOut entity todo)
        { s.report entity with phase := .detach timedOut todo }

/-- **What a step of `rmw_wait` is.** -/
theorem stepWait_cases {s s' : State} (h : s.stepWait = some s') : WaitStep s s.phase s' := by
  rw [State.stepWait] at h
  cases hphase : s.phase with
  | idle | blocked | woken => simp only [hphase] at h; cases h
  | takeTriggered i => simp only [hphase] at h; cases h; exact .takeTriggered
  | attach done todo =>
    cases todo with
    | nil => simp only [hphase] at h; cases h; exact .attached
    | cons entity todo =>
      cases hmutex : s.internalMutex entity with
      | false => simp only [hphase, hmutex] at h; cases h; exact .attach hmutex
      | true => simp only [hphase, hmutex] at h; cases h
  | lockCondition =>
    cases hmutex : s.conditionMutex with
    | false => simp only [hphase, hmutex] at h; cases h; exact .lockCondition hmutex
    | true => simp only [hphase, hmutex] at h; cases h
  | hasData done todo =>
    cases todo with
    | nil => simp only [hphase] at h; cases h; exact .block
    | cons entity todo =>
      cases hready : s.ready entity with
      | true => simp only [hphase, hready] at h; cases h; exact .found hready
      | false => simp only [hphase, hready] at h; cases h; exact .next hready
  | unlockCondition timedOut => simp only [hphase] at h; cases h; exact .unlockCondition
  | detach timedOut todo =>
    cases todo with
    | nil => simp only [hphase] at h; cases h; exact .finish
    | cons entity todo =>
      cases hmutex : s.internalMutex entity with
      | false => simp only [hphase, hmutex] at h; cases h; exact .detach hmutex
      | true => simp only [hphase, hmutex] at h; cases h
  | report timedOut entity todo => simp only [hphase] at h; cases h; exact .report

/-- The steps, by what is done. -/
inductive Step (s : State) : Action → State → Prop
  | produce {entity : Entity} : Step s (.produce entity) (s.produce entity)
  | producer {i : ℕ} {l₁ l₂ : List Producer} {entity : Entity} {ticket : ℕ} {stage : Stage}
      {s' : State} (hl : s.producers = l₁ ++ ⟨entity, ticket, stage⟩ :: l₂)
      (hget : s.producers[i]? = some ⟨entity, ticket, stage⟩)
      (hstep : ProducerStep s l₁ l₂ entity ticket stage s') : Step s (.producer i) s'
  | take {entity : Entity} (hne : s.queued entity ≠ 0) : Step s (.take entity)
      { s with queued := Function.update s.queued entity (s.queued entity - 1) }
  | notTriggered {i : ℕ} (hphase : s.phase = .idle) (hcount : s.triggeredCount i = 0) :
      Step s (.takeTriggered i) s
  | takeTriggered {i : ℕ} (hphase : s.phase = .idle) (hcount : s.triggeredCount i ≠ 0) :
      Step s (.takeTriggered i) { s with phase := .takeTriggered i }
  | rmwWait {subscriptions guardConditions services clients events : List ℕ} {waitTimeout : Bool}
      {entities : List Entity} (hphase : s.phase = .idle)
      (hentities : entities = subscriptions.map .subscriber ++
        guardConditions.map .guardCondition ++ services.map .service ++ clients.map .client ++
        events.map .event) :
      Step s (.rmwWait subscriptions guardConditions services clients events waitTimeout)
        { s with
          phase := .attach [] entities
          entities := entities
          waitTimeout := waitTimeout }
  | wait {s' : State} (hstep : s.stepWait = some s') : Step s .wait s'
  | wake (hphase : s.phase = .blocked) : Step s .wake { s with phase := .woken }
  | comeBack (hphase : s.phase = .woken) (hfree : s.conditionMutex = false) :
      Step s (.comeBack false) { s with conditionMutex := true, phase := .hasData [] s.entities }
  | timeOut (hphase : s.phase = .woken) (hfree : s.conditionMutex = false)
      (hwaitTimeout : s.waitTimeout = true) :
      Step s (.comeBack true) { s with conditionMutex := true, phase := .unlockCondition true }

/-- **What a step is.** -/
theorem step_cases {s s' : State} {a : Action} (h : s.step a = some s') : Step s a s' := by
  cases a with
  | produce entity =>
    cases h
    exact .produce
  | producer i =>
    obtain ⟨l₁, l₂, entity, ticket, stage, hl, hget, hcases⟩ := stepProducer_cases h
    exact .producer hl hget hcases
  | take entity =>
    rw [State.step, State.take, Option.ite_none_left_eq_some, Option.some_inj] at h
    obtain ⟨hne, rfl⟩ := h
    exact .take hne
  | takeTriggered i =>
    rw [State.step, State.takeTriggered, Option.ite_none_right_eq_some, Option.some_inj] at h
    obtain ⟨hphase, rfl⟩ := h
    split
    · exact .notTriggered hphase ‹_›
    · exact .takeTriggered hphase ‹_›
  | rmwWait subscriptions guardConditions services clients events waitTimeout =>
    simp only [State.step, State.rmwWait, Option.ite_none_right_eq_some] at h
    obtain ⟨hphase, h⟩ := h
    cases h
    exact .rmwWait hphase rfl
  | wait => exact .wait h
  | wake =>
    rw [State.step, State.wake, Option.ite_none_right_eq_some, Option.some_inj] at h
    obtain ⟨hphase, rfl⟩ := h
    exact .wake hphase
  | comeBack timedOut =>
    rw [State.step, State.comeBack, Option.ite_none_right_eq_some, Option.some_inj] at h
    obtain ⟨⟨hphase, hfree, hwaitTimeout⟩, rfl⟩ := h
    cases timedOut with
    | false => exact .comeBack hphase hfree
    | true => exact .timeOut hphase hfree (hwaitTimeout rfl)

/-- Only a step of a producer, or a new one, changes where the producers are. -/
theorem Step.producers {s s' : State} {a : Action} (h : Step s a s') :
    s'.producers = s.producers ∨ (∃ entity, s' = s.produce entity) ∨
      ∃ l₁ l₂ entity ticket stage, s.producers = l₁ ++ ⟨entity, ticket, stage⟩ :: l₂ ∧
        ProducerStep s l₁ l₂ entity ticket stage s' := by
  cases h with
  | produce => exact .inr (.inl ⟨_, rfl⟩)
  | producer hl _ hstep => exact .inr (.inr ⟨_, _, _, _, _, hl, hstep⟩)
  | wait hstep =>
    have hcases := stepWait_cases hstep
    generalize s.phase = phase at hcases
    cases hcases with
    | @report timedOut todo entity =>
      obtain ⟨triggered, heq, -⟩ := report_eq s entity
      rw [heq]
      exact .inl rfl
    | _ => exact .inl rfl
  | take | notTriggered | takeTriggered | rmwWait | wake | comeBack | timeOut => exact .inl rfl

end WaitSet

end RmwEcal
