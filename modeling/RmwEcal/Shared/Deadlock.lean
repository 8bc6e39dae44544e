import RmwEcal.Shared.WaitSet
import RmwEcal.Transition.Threads
import Mathlib.Data.Fintype.Order
import Mathlib.Order.Fin.Basic

/-!
# All that locks, and why it does not lock up

The functions of the library that lock a mutex, as programs of `Transition.Threads`, and with them
all that a thread does between them: `rmw_wait`, the two `Trigger`s, the callbacks of eCAL, and the
functions that take and send.  Any number of threads may run them, with any number of wait sets.

A thread never holds more than two mutexes.  `rmw_wait` looks at the queues while it holds
`condition_mutex`, and `Trigger` locks `condition_mutex` while it holds `internal_mutex_`.
Everything else is locked with nothing held.  So `internal_mutex_` comes first, `condition_mutex`
second, and the others last (`Mutex.rank`).

`CallAsync` does not run a callback on the thread that calls it, and locks none of these mutexes.
-/

set_option autoImplicit false

namespace RmwEcal

open Transition

namespace Deadlock

open WaitSet (Entity)
open Prog (lock unlock read write exchange choose goto withLock)

/-! ## Mutexes and memory -/

/-- The mutexes.  `current_requests_mutex_` is never locked. -/
inductive Mutex where
  /-- `internal_mutex_` of a guard condition or an event. -/
  | internalMutex (entity : Entity)
  /-- `condition_mutex` of a wait set. -/
  | conditionMutex (waitSet : ℕ)
  /-- `wait_set_mutex_` of a subscriber, a service or a client. -/
  | waitSetMutex (entity : Entity)
  /-- `queue_mutex_`, `pending_requests_mutex_` or `response_queue_mutex_`. -/
  | queueMutex (entity : Entity)
  /-- `request_queue_mutex_` of a client. -/
  | requestQueueMutex (client : ℕ)
  /-- `waiter_mutex_` of a request that a service has. -/
  | waiterMutex (requestId : ℕ)
  deriving DecidableEq, Repr

/-- What the threads share. -/
structure Memory where
  waitSet : Entity → Option ℕ
  /-- How much there is in `data_`, `pending_requests_` or `responses_`. -/
  queued : Entity → ℕ
  /-- How much there is in `requests_`. -/
  requests : ℕ → ℕ
  /-- `triggered_` of a guard condition. -/
  triggered : ℕ → Bool
  /-- `triggered_count_` of an event. -/
  triggeredCount : ℕ → UInt8
  /-- The counter of `GenerateRequestId`. -/
  requestId : ℕ

/-- Where a thread can begin, and the loop of `rmw_wait`. -/
inductive Label where
  | rmwWait (entities : List Entity) (waitSet : ℕ) (waitTimeout : Bool)
  | waitLoop (entities : List Entity) (waitSet : ℕ) (waitTimeout : Bool)
  | guardConditionTrigger (i : ℕ)
  | eventTrigger (i : ℕ)
  | onReceiveData (subscriber : ℕ)
  | onRequest (service : ℕ)
  | sendRequest (client : ℕ)
  | onResponse (client : ℕ)
  | rmwTake (subscriber : ℕ)
  | rmwTakeSequence (subscriber count : ℕ)
  | rmwTakeRequest (service : ℕ)
  | rmwTakeResponse (client : ℕ)
  | rmwTakeEvent (i : ℕ)
  deriving DecidableEq, Repr

/-- What a thread does. -/
abbrev Run (α : Type) : Type := Prog Memory Mutex Label α

/-! ## Queues -/

/-- `HasData`, `HasRequest` or `HasResponse`. -/
def has (entity : Entity) : Run Bool :=
  withLock (.queueMutex entity) (read fun s => s.queued entity ≠ 0)

/-- `EnqueueData`, `EnqueueRequest` or `EnqueueResponse`. -/
def enqueue (entity : Entity) : Run Unit :=
  withLock (.queueMutex entity) (write fun s =>
    { s with queued := Function.update s.queued entity (s.queued entity + 1) })

/-- `PopData`, `PopNextRequest` or `PopResponse`. -/
def pop (entity : Entity) : Run Unit :=
  withLock (.queueMutex entity) (write fun s =>
    { s with queued := Function.update s.queued entity (s.queued entity - 1) })

/-! ## Wait sets -/

/-- The mutex that guards `wait_set_`. -/
def guard : Entity → Mutex
  | .guardCondition i => .internalMutex (.guardCondition i)
  | .event i => .internalMutex (.event i)
  | .subscriber i => .waitSetMutex (.subscriber i)
  | .service i => .waitSetMutex (.service i)
  | .client i => .waitSetMutex (.client i)

/-- `AttachWaitSet`, or `DetachWaitSet` with a null pointer. -/
def setWaitSet (entity : Entity) (waitSet : Option ℕ) : Run Unit :=
  withLock (guard entity) (write fun s =>
    { s with waitSet := Function.update s.waitSet entity waitSet })

/-- `WaitSet::Trigger`: those that wait are let go.  They may be at any time. -/
def notifyAll : Run Unit := pure ()

/-- `WaitSet::Wait`: `condition_mutex` is given back meanwhile.  It ends when the thread is
notified, when time is up, or for no reason. -/
def wait (waitSet : ℕ) (waitTimeout : Bool) : Run Bool := do
  unlock (.conditionMutex waitSet)
  let timedOut ← choose
  lock (.conditionMutex waitSet)
  return timedOut && waitTimeout

/-- `GetAttachedWaitSet`. -/
def getAttachedWaitSet (entity : Entity) : Run (Option ℕ) :=
  withLock (guard entity) (read fun s => s.waitSet entity)

/-- `NotifyWaitSet` of a subscriber, a service or a client. -/
def notifyWaitSet (entity : Entity) : Run Unit := do
  match ← getAttachedWaitSet entity with
  | some waitSet => withLock (.conditionMutex waitSet) notifyAll
  | none => return

/-- `Trigger` of a guard condition or an event. -/
def trigger (entity : Entity) (update : Memory → Memory) : Run Unit :=
  withLock (guard entity) do
    match ← read fun s => s.waitSet entity with
    | some waitSet =>
      withLock (.conditionMutex waitSet) (write update)
      notifyAll
    | none => write update

/-- `GuardCondition::Trigger`. -/
def guardConditionTrigger (i : ℕ) : Run Unit :=
  trigger (.guardCondition i) fun s => { s with triggered := Function.update s.triggered i true }

/-- `Event::Trigger`. -/
def eventTrigger (i : ℕ) : Run Unit :=
  trigger (.event i) fun s =>
    { s with triggeredCount := Function.update s.triggeredCount i (s.triggeredCount i + 1) }

/-! ## Waiting -/

/-- `HasData`, `HasRequest`, `HasResponse` or `Triggered`. -/
def ready : Entity → Run Bool
  | .guardCondition i => read fun s => s.triggered i
  | .event i => read fun s => 0 < s.triggeredCount i
  | .subscriber i => has (.subscriber i)
  | .service i => has (.service i)
  | .client i => has (.client i)

/-- Whether the entry of an entity is left in its array: `TakeTriggered` for a guard condition. -/
def left : Entity → Run Bool
  | .guardCondition i => exchange (fun s => s.triggered i) fun s =>
      { s with triggered := Function.update s.triggered i false }
  | entity => ready entity

/-- `has_data`. -/
def hasData : List Entity → Run Bool
  | [] => return false
  | entity :: entities => do
    if ← ready entity then return true else hasData entities

/-- `attach_wait_set`. -/
def attachWaitSet (entities : List Entity) (waitSet : ℕ) : Run Unit :=
  entities.forM fun entity => setWaitSet entity (some waitSet)

/-- `detach_wait_set`, with what becomes of the arrays. -/
def detachWaitSet : List Entity → Run (List Bool)
  | [] => return []
  | entity :: entities => do
    setWaitSet entity none
    let isLeft ← left entity
    let rest ← detachWaitSet entities
    return isLeft :: rest

/-- `rmw_wait`, up to its loop. -/
def rmwWait (entities : List Entity) (waitSet : ℕ) (waitTimeout : Bool) : Run Unit := do
  attachWaitSet entities waitSet
  lock (.conditionMutex waitSet)
  goto (.waitLoop entities waitSet waitTimeout)

/-- What comes after the loop. -/
def leave (entities : List Entity) (waitSet : ℕ) : Run Unit := do
  unlock (.conditionMutex waitSet)
  let _ ← detachWaitSet entities
  return

/-- The loop: `while (!has_data(..))`. -/
def waitLoop (entities : List Entity) (waitSet : ℕ) (waitTimeout : Bool) : Run Unit := do
  if ← hasData entities then leave entities waitSet
  else
    if ← wait waitSet waitTimeout then leave entities waitSet
    else goto (.waitLoop entities waitSet waitTimeout)

/-! ## Callbacks, sending and taking -/

/-- `Subscriber::OnReceiveData`. -/
def onReceiveData (subscriber : ℕ) : Run Unit := do
  enqueue (.subscriber subscriber)
  notifyWaitSet (.subscriber subscriber)

/-- `Service::Request::WaitForResponse`: `waiter_mutex_` is given back while it waits. -/
def waitForResponse (requestId : ℕ) : Run Unit :=
  withLock (.waiterMutex requestId) do
    unlock (.waiterMutex requestId)
    let _ ← choose
    lock (.waiterMutex requestId)

/-- `Service::OnRequest`. -/
def onRequest (service : ℕ) : Run Unit := do
  let requestId ← exchange (fun s => s.requestId) fun s => { s with requestId := s.requestId + 1 }
  enqueue (.service service)
  notifyWaitSet (.service service)
  waitForResponse requestId

/-- `CallAsync`. -/
def callAsync : Run Unit := pure ()

/-- `Client::SendRequest`. -/
def sendRequest (client : ℕ) : Run Unit :=
  withLock (.requestQueueMutex client) do
    let requests ← exchange (fun s => s.requests client) fun s =>
      { s with requests := Function.update s.requests client (s.requests client + 1) }
    if requests + 1 = 1 then callAsync

/-- `Client::PopLastRequest`. -/
def popLastRequest (client : ℕ) : Run Unit :=
  withLock (.requestQueueMutex client) (write fun s =>
    { s with requests := Function.update s.requests client (s.requests client - 1) })

/-- `Client::PerformNextRequest`. -/
def performNextRequest (client : ℕ) : Run Unit :=
  withLock (.requestQueueMutex client) do
    let requests ← read fun s => s.requests client
    if requests ≠ 0 then callAsync

/-- `Client::OnResponse`. -/
def onResponse (client : ℕ) : Run Unit := do
  enqueue (.client client)
  notifyWaitSet (.client client)
  popLastRequest client
  performNextRequest client

/-- A message is taken if there is one: `rmw_take`, `rmw_take_with_info` and
`rmw_take_serialized_message`, and with a service or a client `rmw_take_request` and
`rmw_take_response`. -/
def take (entity : Entity) : Run Unit := do
  if ← has entity then pop entity

/-- `rmw_take_sequence`, with so many messages still to take. -/
def rmwTakeSequence (subscriber : ℕ) : ℕ → Run Unit
  | 0 => do
    let _ ← has (.subscriber subscriber)
    return
  | count + 1 => do
    if ← has (.subscriber subscriber) then
      pop (.subscriber subscriber)
      rmwTakeSequence subscriber count

/-- `rmw_take_event`: `Event::TakeTriggered`. -/
def rmwTakeEvent (i : ℕ) : Run Unit := do
  let count ← read fun s => s.triggeredCount i
  if count ≠ 0 then
    write fun s =>
      { s with triggeredCount := Function.update s.triggeredCount i (s.triggeredCount i - 1) }

/-- The library. -/
def code : Code Memory Mutex Label where
  body
    | .rmwWait entities waitSet waitTimeout => rmwWait entities waitSet waitTimeout
    | .waitLoop entities waitSet waitTimeout => waitLoop entities waitSet waitTimeout
    | .guardConditionTrigger i => guardConditionTrigger i
    | .eventTrigger i => eventTrigger i
    | .onReceiveData subscriber => onReceiveData subscriber
    | .onRequest service => onRequest service
    | .sendRequest client => sendRequest client
    | .onResponse client => onResponse client
    | .rmwTake subscriber => take (.subscriber subscriber)
    | .rmwTakeSequence subscriber count => rmwTakeSequence subscriber count
    | .rmwTakeRequest service => take (.service service)
    | .rmwTakeResponse client => take (.client client)
    | .rmwTakeEvent i => rmwTakeEvent i
  start
    | .waitLoop _ _ _ => false
    | _ => true
  init := ⟨fun _ => none, fun _ => 0, fun _ => 0, fun _ => false, fun _ => 0, 0⟩

/-! ## The order -/

/-- Which mutexes are locked first. -/
def Mutex.rank : Mutex → Fin 3
  | .internalMutex _ => 0
  | .conditionMutex _ => 1
  | .waitSetMutex _ | .queueMutex _ | .requestQueueMutex _ | .waiterMutex _ => 2

/-- The loop of `rmw_wait` begins with `condition_mutex` locked. -/
def order : LockOrder Mutex Label (Fin 3) where
  rank := Mutex.rank
  entry
    | .waitLoop _ waitSet _ => [.conditionMutex waitSet]
    | _ => []

open LockOrder

variable {held : List Mutex} (entity : Entity)

theorem balanced_has (h : ∀ m ∈ held, m.rank < 2) : order.Balanced held (has entity) :=
  (balanced_read _).withLock h

theorem balanced_ready (h : ∀ m ∈ held, m.rank < 2) : order.Balanced held (ready entity) := by
  cases entity with
  | guardCondition i => exact balanced_read _
  | event i => exact balanced_read _
  | subscriber i => exact balanced_has _ h
  | service i => exact balanced_has _ h
  | client i => exact balanced_has _ h

theorem balanced_left (h : ∀ m ∈ held, m.rank < 2) : order.Balanced held (left entity) := by
  cases entity with
  | guardCondition i => exact balanced_exchange _ _
  | event i => exact balanced_ready (.event i) h
  | subscriber i => exact balanced_ready (.subscriber i) h
  | service i => exact balanced_ready (.service i) h
  | client i => exact balanced_ready (.client i) h

/-- `has_data` looks at the queues while `condition_mutex` is held. -/
theorem balanced_hasData (h : ∀ m ∈ held, m.rank < 2) (entities : List Entity) :
    order.Balanced held (hasData entities) := by
  induction entities with
  | nil => exact balanced_pure _
  | cons entity entities ih =>
    refine (balanced_ready entity h).bind fun isReady => ?_
    cases isReady with
    | true => exact balanced_pure _
    | false => exact ih

theorem balanced_setWaitSet (waitSet : Option ℕ) :
    order.Balanced [] (setWaitSet entity waitSet) :=
  (balanced_write _).withLock (List.forall_mem_nil _)

theorem balanced_detachWaitSet (entities : List Entity) :
    order.Balanced [] (detachWaitSet entities) := by
  induction entities with
  | nil => exact balanced_pure _
  | cons entity entities ih =>
    exact (balanced_setWaitSet entity none).bind fun _ =>
      (balanced_left entity (List.forall_mem_nil _)).bind
      fun _ => ih.bind fun _ => balanced_pure _

theorem balanced_enqueue : order.Balanced [] (enqueue entity) :=
  (balanced_write _).withLock (List.forall_mem_nil _)

theorem balanced_pop : order.Balanced [] (pop entity) :=
  (balanced_write _).withLock (List.forall_mem_nil _)

theorem balanced_notifyWaitSet : order.Balanced [] (notifyWaitSet entity) := by
  refine ((balanced_read _).withLock (List.forall_mem_nil _)).bind fun waitSet => ?_
  cases waitSet with
  | none => exact balanced_pure _
  | some waitSet => exact (balanced_pure _).withLock (List.forall_mem_nil _)

/-- `Trigger` locks `condition_mutex` while `internal_mutex_` is held. -/
theorem balanced_trigger (hrank : (guard entity).rank = 0)
    (update : Memory → Memory) : order.Balanced [] (trigger entity update) := by
  refine Balanced.withLock ?_ (List.forall_mem_nil _)
  refine (balanced_read _).bind fun waitSet => ?_
  cases waitSet with
  | none => exact balanced_write _
  | some waitSet =>
    refine ((balanced_write _).withLock ?_).bind fun _ => balanced_pure _
    refine List.forall_mem_singleton.mpr ?_
    show (guard entity).rank < 1
    rw [hrank]
    decide

theorem balanced_waitForResponse (requestId : ℕ) :
    order.Balanced [] (waitForResponse requestId) := by
  refine Balanced.withLock ?_ (List.forall_mem_nil _)
  refine orderly_unlock.bind ?_
  rintro _ _ rfl
  exact balanced_choose.bind fun _ => orderly_lock (List.forall_mem_nil _)

theorem balanced_sendRequest (client : ℕ) : order.Balanced [] (sendRequest client) := by
  refine Balanced.withLock ((balanced_exchange _ _).bind fun requests => ?_)
    (List.forall_mem_nil _)
  split
  · exact balanced_pure _
  · exact balanced_pure _

theorem balanced_performNextRequest (client : ℕ) :
    order.Balanced [] (performNextRequest client) := by
  refine Balanced.withLock ((balanced_read _).bind fun requests => ?_) (List.forall_mem_nil _)
  split
  · exact balanced_pure _
  · exact balanced_pure _

theorem balanced_onResponse (client : ℕ) : order.Balanced [] (onResponse client) :=
  (balanced_enqueue _).bind fun _ => (balanced_notifyWaitSet _).bind fun _ =>
    ((balanced_write _).withLock (List.forall_mem_nil _)).bind fun _ =>
      balanced_performNextRequest client

theorem balanced_take : order.Balanced [] (take entity) := by
  refine (balanced_has _ (List.forall_mem_nil _)).bind fun hasData => ?_
  split
  · exact balanced_pop _
  · exact balanced_pure _

theorem balanced_rmwTakeSequence (subscriber count : ℕ) :
    order.Balanced [] (rmwTakeSequence subscriber count) := by
  induction count with
  | zero => exact (balanced_has _ (List.forall_mem_nil _)).bind fun _ => balanced_pure _
  | succ count ih =>
    refine (balanced_has _ (List.forall_mem_nil _)).bind fun hasData => ?_
    split
    · exact (balanced_pop _).bind fun _ => ih
    · exact balanced_pure _

theorem balanced_rmwTakeEvent (i : ℕ) : order.Balanced [] (rmwTakeEvent i) := by
  refine (balanced_read _).bind fun count => ?_
  split
  · exact balanced_write _
  · exact balanced_pure _

/-- After the loop `condition_mutex` is given back, and nothing is held any more. -/
theorem orderly_leave (entities : List Entity) (waitSet : ℕ) :
    order.Orderly [.conditionMutex waitSet] (leave entities waitSet) fun _ held => held = [] := by
  refine orderly_unlock.bind ?_
  rintro _ _ rfl
  exact (balanced_detachWaitSet entities).bind fun _ => balanced_pure _

theorem orderly_rmwWait (entities : List Entity) (waitSet : ℕ) (waitTimeout : Bool) :
    order.Orderly [] (rmwWait entities waitSet waitTimeout) fun _ held => held = [] := by
  refine (Balanced.forM fun entity _ => balanced_setWaitSet entity _).bind fun _ => ?_
  refine (orderly_lock (List.forall_mem_nil _)).bind ?_
  rintro _ _ rfl
  rfl

/-- `has_data` only locks what comes after `condition_mutex`, and waiting gives it back. -/
theorem orderly_waitLoop (entities : List Entity) (waitSet : ℕ) (waitTimeout : Bool) :
    order.Orderly [.conditionMutex waitSet] (waitLoop entities waitSet waitTimeout)
      fun _ held => held = [] := by
  refine (balanced_hasData ?_ entities).bind fun hasData => ?_
  · exact List.forall_mem_singleton.mpr (by decide : (1 : Fin 3) < 2)
  split
  · exact orderly_leave entities waitSet
  · refine Balanced.bind ?_ fun timedOut => ?_
    · refine orderly_unlock.bind ?_
      rintro _ _ rfl
      refine balanced_choose.bind fun _ => (orderly_lock (List.forall_mem_nil _)).bind ?_
      rintro _ _ rfl
      rfl
    · split
      · exact orderly_leave entities waitSet
      · rfl

/-- **Every function keeps to the order.** -/
theorem kept : order.Kept code where
  body k := by
    cases k with
    | rmwWait entities waitSet waitTimeout => exact orderly_rmwWait entities waitSet waitTimeout
    | waitLoop entities waitSet waitTimeout => exact orderly_waitLoop entities waitSet waitTimeout
    | guardConditionTrigger i => exact balanced_trigger (.guardCondition i) rfl _
    | eventTrigger i => exact balanced_trigger (.event i) rfl _
    | onReceiveData i => exact (balanced_enqueue _).bind fun _ => balanced_notifyWaitSet _
    | onRequest i =>
      exact (balanced_exchange _ _).bind fun requestId => (balanced_enqueue _).bind fun _ =>
        (balanced_notifyWaitSet _).bind fun _ => balanced_waitForResponse requestId
    | sendRequest i => exact balanced_sendRequest i
    | onResponse i => exact balanced_onResponse i
    | rmwTake i => exact balanced_take (.subscriber i)
    | rmwTakeSequence i count => exact balanced_rmwTakeSequence i count
    | rmwTakeRequest i => exact balanced_take (.service i)
    | rmwTakeResponse i => exact balanced_take (.client i)
    | rmwTakeEvent i => exact balanced_rmwTakeEvent i
  start k hstart := by
    cases k with
    | waitLoop entities waitSet waitTimeout => cases hstart
    | _ => rfl

/-! ## The result -/

/-- **No threads wait for one another in a circle**, whatever functions any number of threads run
and however their steps interleave. -/
theorem deadlock_free {c : Threads Memory Mutex Label}
    (h : code.system.Reachable System.any c) : ¬c.Deadlocked :=
  LockOrder.not_deadlocked kept h

/-- One of them can always go on, as long as not all of them are done. -/
theorem some_thread_goes_on {c : Threads Memory Mutex Label}
    (h : code.system.Reachable System.any c) {t : ℕ} {p : Run Unit}
    (hget : c.threads[t]? = some p) (hp : ∀ a, p ≠ .pure a) :
    ∃ t choice c', code.stepThread c t choice = some c' :=
  LockOrder.exists_step kept h hget hp

/-- A thread waits for the `internal_mutex_` of a guard condition to attach its wait set, while
another one triggers the guard condition. -/
theorem deadlock_free_waiting : ∃ c : Threads Memory Mutex Label,
    c.wants 0 = some (.internalMutex (.guardCondition 0)) ∧
    c.owner (.internalMutex (.guardCondition 0)) = some 1 ∧ ¬c.Deadlocked := by
  have h : code.system.Reachable System.any _ := System.reachable_of_exec
    [.start (.rmwWait [.guardCondition 0] 0 false), .start (.guardConditionTrigger 0),
      .step 0 false, .step 1 false, .step 1 false] rfl
  exact ⟨_, rfl, rfl, deadlock_free h⟩

end Deadlock

end RmwEcal
