import RmwEcal.Transition.System

/-!
# Who owns an event

An `Event` is a member of the publisher or subscriber it belongs to.  An `rmw_event_t` only points
to it, and any number of them may point to the same one.  `rmw_event_fini` nevertheless deletes what
its argument points to.

Here `Event`s are destroyed as often as the code does it, and whatever is done to one that was
destroyed before is noted.  `owned_iff` says that all is well as long as no `rmw_event_t` has been
finalised, and not any longer.

The members of an endpoint are destroyed in the reverse order of their declaration, so its `Event`
is gone before the publisher or subscriber of eCAL, whose callback triggers it.  A callback that
falls in between comes too late (`misused_of_late`).
-/

set_option autoImplicit false

namespace RmwEcal

open Transition

namespace EventOwnership

/-! ## Events and what points to them -/

/-- `rmw_event_type_t`. -/
inductive EventType where
  | requestedDeadlineMissed
  | offeredDeadlineMissed
  | other (code : ℕ)
  | invalid
  deriving DecidableEq, Repr

/-- `rmw_ret_t`. -/
inductive Ret where
  | ok
  | unsupported
  | incorrectRmwImplementation
  deriving DecidableEq, Repr

/-- What destroys an `Event`. -/
inductive Destroyer where
  | rmwEventFini
  | endpoint
  deriving DecidableEq, Repr

/-- An `Event`, alive or not. -/
structure Event where
  triggeredCount : UInt8
  /-- What has destroyed it, first to last. -/
  destroyedBy : List Destroyer
  deriving DecidableEq, Repr

namespace Event

/-- A new `Event`. -/
def new : Event := ⟨0, []⟩

/-- `Trigger`. -/
def trigger (e : Event) : Event := { e with triggeredCount := e.triggeredCount + 1 }

/-- `Triggered`. -/
def triggered (e : Event) : Bool := 0 < e.triggeredCount

/-- `TakeTriggered`. -/
def takeTriggered (e : Event) : Event × Bool :=
  if e.triggeredCount = 0 then (e, false)
  else ({ e with triggeredCount := e.triggeredCount - 1 }, true)

/-- `~Event`. -/
def destroy (e : Event) (destroyer : Destroyer) : Event :=
  { e with destroyedBy := e.destroyedBy ++ [destroyer] }

end Event

/-- What contains an `Event`. -/
inductive Kind where
  | publisher
  | subscription
  deriving DecidableEq, Repr

/-- How far an endpoint has come. -/
inductive Lifetime where
  | alive
  /-- The destructor has destroyed `data_dropped_event_`, but not yet `publisher_` or
  `subscriber_`. -/
  | destructing
  | destroyed
  deriving DecidableEq, Repr

/-- A `Publisher` or a `Subscriber`. -/
structure Endpoint where
  kind : Kind
  lifetime : Lifetime
  dataDroppedEvent : Event
  deriving DecidableEq, Repr

/-- An `rmw_event_t`. -/
structure RmwEvent where
  eventType : EventType
  /-- Whether `implementation_identifier` is the one of this library; otherwise it is null. -/
  implementationIdentifier : Bool
  /-- The endpoint to whose `Event` `data` points. -/
  data : ℕ
  deriving DecidableEq, Repr

/-- All endpoints and all `rmw_event_t`s there have been. -/
structure State where
  endpoints : List Endpoint
  rmwEvents : List RmwEvent
  /-- Whether something was done to an `Event` that had been destroyed. -/
  misused : Bool
  deriving DecidableEq, Repr

namespace State

/-- Nothing has been created. -/
def fresh : State := ⟨[], [], false⟩

/-- The `Event` of an endpoint becomes another one. -/
def onEvent (s : State) (i : ℕ) (f : Event → Event) : State :=
  { s with endpoints := s.endpoints.modify i fun e =>
      { e with dataDroppedEvent := f e.dataDroppedEvent } }

/-- Whether the `Event` of an endpoint has been destroyed. -/
def destroyedAt (s : State) (i : ℕ) : Bool :=
  s.endpoints[i]?.any fun e => !e.dataDroppedEvent.destroyedBy.isEmpty

/-- Something is done to these `Event`s. -/
def use (s : State) (events : List ℕ) : State :=
  { s with misused := s.misused || events.any s.destroyedAt }

/-! ## What can be done -/

/-- `rmw_create_publisher` or `rmw_create_subscription`. -/
def create (s : State) (kind : Kind) : State :=
  { s with endpoints := s.endpoints ++ [⟨kind, .alive, .new⟩] }

/-- The two functions that make an `rmw_event_t` point to an `Event`: each supports one type of
event of one kind of endpoint. -/
def eventInit (s : State) (kind : Kind) (supported : EventType) (i : ℕ) (eventType : EventType) :
    Option (State × Ret) := do
  let endpoint ← s.endpoints[i]?
  if endpoint.kind = kind ∧ endpoint.lifetime = .alive then
    if eventType ≠ supported then some (s, .unsupported)
    else some ({ s with rmwEvents := s.rmwEvents ++ [⟨eventType, true, i⟩] }, .ok)
  else none

def rmwPublisherEventInit (s : State) (publisher : ℕ) (eventType : EventType) :
    Option (State × Ret) :=
  s.eventInit .publisher .offeredDeadlineMissed publisher eventType

def rmwSubscriptionEventInit (s : State) (subscription : ℕ) (eventType : EventType) :
    Option (State × Ret) :=
  s.eventInit .subscription .requestedDeadlineMissed subscription eventType

/-- `rmw_take_event`, with what is left in `taken`. -/
def rmwTakeEvent (s : State) (eventHandle : ℕ) : Option (State × Ret × Option Bool) := do
  let rmwEvent ← s.rmwEvents[eventHandle]?
  if rmwEvent.implementationIdentifier then
    let endpoint ← s.endpoints[rmwEvent.data]?
    some ((s.use [rmwEvent.data]).onEvent rmwEvent.data fun e => e.takeTriggered.1, .ok,
      some endpoint.dataDroppedEvent.takeTriggered.2)
  else some (s, .incorrectRmwImplementation, none)

/-- `rmw_wait`, with what it reports of the events: it does not look at what kind of `rmw_event_t`
the pointers are from. -/
def rmwWait (s : State) (eventHandles : List ℕ) : Option (State × List Bool) := do
  let rmwEvents ← eventHandles.mapM fun i => s.rmwEvents[i]?
  let events := rmwEvents.map RmwEvent.data
  some (s.use events, events.map fun i => s.endpoints[i]?.any fun e => e.dataDroppedEvent.triggered)

def rmwEventFini (s : State) (event : ℕ) : Option (State × Ret) := do
  let rmwEvent ← s.rmwEvents[event]?
  if rmwEvent.implementationIdentifier then
    let rmwEvents := s.rmwEvents.modify event fun e =>
      { e with eventType := .invalid, implementationIdentifier := false }
    some (State.onEvent { s with rmwEvents := rmwEvents } rmwEvent.data fun e =>
      e.destroy .rmwEventFini, .ok)
  else some (s, .incorrectRmwImplementation)

/-- `OnDataDropped`: `publisher_` or `subscriber_` calls it, as long as there is one. -/
def onDataDropped (s : State) (i : ℕ) : Option State := do
  let endpoint ← s.endpoints[i]?
  if endpoint.lifetime = .destroyed then none else some ((s.use [i]).onEvent i Event.trigger)

/-- `rmw_destroy_publisher` or `rmw_destroy_subscription`, up to the destruction of
`data_dropped_event_`. -/
def destroy (s : State) (kind : Kind) (i : ℕ) : Option State := do
  let endpoint ← s.endpoints[i]?
  if endpoint.kind = kind ∧ endpoint.lifetime = .alive then
    some { s with endpoints := s.endpoints.modify i fun e => { e with
      lifetime := .destructing
      dataDroppedEvent := e.dataDroppedEvent.destroy .endpoint } }
  else none

/-- The rest of the destructor. -/
def destroyRest (s : State) (i : ℕ) : Option State := do
  let endpoint ← s.endpoints[i]?
  if endpoint.lifetime = .destructing then
    some { s with endpoints := s.endpoints.modify i fun e => { e with lifetime := .destroyed } }
  else none

end State

/-- The steps. -/
inductive Action where
  | create (kind : Kind)
  | rmwPublisherEventInit (publisher : ℕ) (eventType : EventType)
  | rmwSubscriptionEventInit (subscription : ℕ) (eventType : EventType)
  | rmwTakeEvent (eventHandle : ℕ)
  | rmwWait (eventHandles : List ℕ)
  | rmwEventFini (event : ℕ)
  | onDataDropped (i : ℕ)
  | destroy (kind : Kind) (i : ℕ)
  | destroyRest (i : ℕ)
  deriving DecidableEq, Repr

namespace State

/-- One step. -/
def step (s : State) : Action → Option State
  | .create kind => some (s.create kind)
  | .rmwPublisherEventInit publisher eventType =>
    (s.rmwPublisherEventInit publisher eventType).map Prod.fst
  | .rmwSubscriptionEventInit subscription eventType =>
    (s.rmwSubscriptionEventInit subscription eventType).map Prod.fst
  | .rmwTakeEvent eventHandle => (s.rmwTakeEvent eventHandle).map Prod.fst
  | .rmwWait eventHandles => (s.rmwWait eventHandles).map Prod.fst
  | .rmwEventFini event => (s.rmwEventFini event).map Prod.fst
  | .onDataDropped i => s.onDataDropped i
  | .destroy kind i => s.destroy kind i
  | .destroyRest i => s.destroyRest i

/-- An endpoint is destroyed when its `rmw_event_t`s have been finalised. -/
def Permitted (s : State) : Action → Prop
  | .destroy _ i => ∀ rmwEvent ∈ s.rmwEvents, rmwEvent.data = i →
      rmwEvent.implementationIdentifier = false
  | _ => True

/-- No callback comes while an endpoint is being destroyed. -/
def Timely (s : State) : Action → Prop
  | .onDataDropped i => ∀ endpoint ∈ s.endpoints[i]?, endpoint.lifetime = .alive
  | _ => True

instance (s : State) : (a : Action) → Decidable (s.Permitted a)
  | .destroy _ i => inferInstanceAs (Decidable (∀ rmwEvent ∈ s.rmwEvents, rmwEvent.data = i →
      rmwEvent.implementationIdentifier = false))
  | .create _ | .rmwPublisherEventInit _ _ | .rmwSubscriptionEventInit _ _ | .rmwTakeEvent _
  | .rmwWait _ | .rmwEventFini _ | .onDataDropped _ | .destroyRest _ => isTrue trivial

instance (s : State) : (a : Action) → Decidable (s.Timely a)
  | .onDataDropped i => inferInstanceAs (Decidable (∀ endpoint ∈ s.endpoints[i]?,
      endpoint.lifetime = .alive))
  | .create _ | .rmwPublisherEventInit _ _ | .rmwSubscriptionEventInit _ _ | .rmwTakeEvent _
  | .rmwWait _ | .rmwEventFini _ | .destroy _ _ | .destroyRest _ => isTrue trivial

/-- Every `Event` is destroyed once, by the endpoint it is in, and not used afterwards. -/
structure Owned (s : State) : Prop where
  destroyedBy : ∀ endpoint ∈ s.endpoints, endpoint.dataDroppedEvent.destroyedBy =
    if endpoint.lifetime = .alive then [] else [.endpoint]
  not_misused : s.misused = false

end State

/-- Endpoints and their events. -/
def system : System State Action := ⟨.fresh, State.step⟩

/-! ## What a step is -/

/-- The steps, by what they do. -/
inductive Step (s : State) : Action → State → Prop
  | create {kind : Kind} : Step s (.create kind) (s.create kind)
  | refuse {a : Action} : Step s a s
  | init {a : Action} {i : ℕ} {endpoint : Endpoint} (hget : s.endpoints[i]? = some endpoint)
      (halive : endpoint.lifetime = .alive) (eventType : EventType) :
      Step s a { s with rmwEvents := s.rmwEvents ++ [⟨eventType, true, i⟩] }
  | take {a : Action} {rmwEvent : RmwEvent} (hmem : rmwEvent ∈ s.rmwEvents)
      (hvalid : rmwEvent.implementationIdentifier = true) :
      Step s a ((s.use [rmwEvent.data]).onEvent rmwEvent.data fun e => e.takeTriggered.1)
  | wait {a : Action} {rmwEvents : List RmwEvent}
      (hmem : ∀ rmwEvent ∈ rmwEvents, rmwEvent ∈ s.rmwEvents) :
      Step s a (s.use (rmwEvents.map RmwEvent.data))
  | fini {a : Action} {l₁ l₂ : List RmwEvent} {rmwEvent : RmwEvent}
      (hl : s.rmwEvents = l₁ ++ rmwEvent :: l₂) :
      Step s a (State.onEvent { s with rmwEvents := l₁ ++ { rmwEvent with
        eventType := .invalid, implementationIdentifier := false } :: l₂ } rmwEvent.data fun e =>
          e.destroy .rmwEventFini)
  | dataDropped {i : ℕ} {endpoint : Endpoint} (hget : s.endpoints[i]? = some endpoint) :
      Step s (.onDataDropped i) ((s.use [i]).onEvent i Event.trigger)
  | destroy {kind : Kind} {i : ℕ} {endpoint : Endpoint} (hget : s.endpoints[i]? = some endpoint)
      (halive : endpoint.lifetime = .alive) : Step s (.destroy kind i)
        { s with endpoints := s.endpoints.modify i fun e => { e with
          lifetime := .destructing
          dataDroppedEvent := e.dataDroppedEvent.destroy .endpoint } }
  | destroyRest {a : Action} {i : ℕ} {endpoint : Endpoint}
      (hget : s.endpoints[i]? = some endpoint) (hdestructing : endpoint.lifetime = .destructing) :
      Step s a { s with endpoints := s.endpoints.modify i fun e => { e with
        lifetime := .destroyed } }

variable {s s' : State} {a : Action}

theorem eventInit_cases {kind : Kind} {supported eventType : EventType} {i : ℕ} {ret : Ret}
    (h : s.eventInit kind supported i eventType = some (s', ret)) : Step s a s' := by
  obtain ⟨endpoint, hget, h⟩ := Option.bind_eq_some_iff.mp h
  split at h
  · rename_i hendpoint
    split at h
    · cases h
      exact .refuse
    · cases h
      exact .init hget hendpoint.2 eventType
  · cases h

theorem rmwTakeEvent_cases {eventHandle : ℕ} {out : Ret × Option Bool}
    (h : s.rmwTakeEvent eventHandle = some (s', out)) : Step s a s' := by
  obtain ⟨rmwEvent, hget, h⟩ := Option.bind_eq_some_iff.mp h
  split at h
  · rename_i hvalid
    obtain ⟨endpoint, -, h⟩ := Option.bind_eq_some_iff.mp h
    cases h
    exact .take (List.mem_of_getElem? hget) hvalid
  · cases h
    exact .refuse

theorem mem_of_mapM {handles : List ℕ} {rmwEvents : List RmwEvent}
    (h : (handles.mapM fun i => s.rmwEvents[i]?) = some rmwEvents) :
    ∀ rmwEvent ∈ rmwEvents, rmwEvent ∈ s.rmwEvents := by
  induction handles generalizing rmwEvents with
  | nil =>
    cases h
    exact fun _ hmem => by cases hmem
  | cons i handles ih =>
    rw [List.mapM_cons] at h
    obtain ⟨first, hget, h⟩ := Option.bind_eq_some_iff.mp h
    obtain ⟨rest, hrest, h⟩ := Option.bind_eq_some_iff.mp h
    cases h
    exact List.forall_mem_cons.mpr ⟨List.mem_of_getElem? hget, ih hrest⟩

theorem rmwWait_cases {eventHandles : List ℕ} {left : List Bool}
    (h : s.rmwWait eventHandles = some (s', left)) : Step s a s' := by
  obtain ⟨rmwEvents, hmap, h⟩ := Option.bind_eq_some_iff.mp h
  cases h
  exact .wait (mem_of_mapM hmap)

theorem rmwEventFini_cases {event : ℕ} {ret : Ret} (h : s.rmwEventFini event = some (s', ret)) :
    Step s a s' := by
  obtain ⟨rmwEvent, hget, h⟩ := Option.bind_eq_some_iff.mp h
  obtain ⟨l₁, l₂, hl, hmodify, -⟩ := exists_split hget
  simp only [hmodify] at h
  split at h
  · cases h
    exact .fini hl
  · cases h
    exact .refuse

/-- **What a step can be.** -/
theorem step_cases (h : s.step a = some s') : Step s a s' := by
  cases a with
  | create kind => cases h; exact .create
  | rmwPublisherEventInit publisher eventType =>
    obtain ⟨out, hout, rfl⟩ := Option.map_eq_some_iff.mp h
    exact eventInit_cases hout
  | rmwSubscriptionEventInit subscription eventType =>
    obtain ⟨out, hout, rfl⟩ := Option.map_eq_some_iff.mp h
    exact eventInit_cases hout
  | rmwTakeEvent eventHandle =>
    obtain ⟨out, hout, rfl⟩ := Option.map_eq_some_iff.mp h
    exact rmwTakeEvent_cases hout
  | rmwWait eventHandles =>
    obtain ⟨out, hout, rfl⟩ := Option.map_eq_some_iff.mp h
    exact rmwWait_cases hout
  | rmwEventFini event =>
    obtain ⟨out, hout, rfl⟩ := Option.map_eq_some_iff.mp h
    exact rmwEventFini_cases hout
  | onDataDropped i =>
    obtain ⟨endpoint, hget, h⟩ := Option.bind_eq_some_iff.mp h
    split at h
    · cases h
    · cases h
      exact .dataDropped hget
  | destroy kind i =>
    obtain ⟨endpoint, hget, h⟩ := Option.bind_eq_some_iff.mp h
    split at h
    · rename_i hendpoint
      cases h
      exact .destroy hget hendpoint.2
    · cases h
  | destroyRest i =>
    obtain ⟨endpoint, hget, h⟩ := Option.bind_eq_some_iff.mp h
    split at h
    · rename_i hdestructing
      cases h
      exact .destroyRest hget hdestructing
    · cases h

/-! ## What is kept -/

/-- What the steps leave of an endpoint: what has destroyed its `Event` is not forgotten, and it
stays alive as long as an `rmw_event_t` points to it. -/
def Keeps (s s' : State) : Prop :=
  ∀ i endpoint, s.endpoints[i]? = some endpoint → ∃ endpoint', s'.endpoints[i]? = some endpoint' ∧
    endpoint.dataDroppedEvent.destroyedBy ⊆ endpoint'.dataDroppedEvent.destroyedBy ∧
    ((∃ rmwEvent ∈ s.rmwEvents, rmwEvent.data = i ∧ rmwEvent.implementationIdentifier = true) →
      endpoint.lifetime = .alive → endpoint'.lifetime = .alive)

/-- An endpoint is changed. -/
theorem Keeps.modify {i : ℕ} {f : Endpoint → Endpoint}
    (hend : s'.endpoints = s.endpoints.modify i f)
    (hf : ∀ endpoint, s.endpoints[i]? = some endpoint →
      endpoint.dataDroppedEvent.destroyedBy ⊆ (f endpoint).dataDroppedEvent.destroyedBy ∧
      ((∃ rmwEvent ∈ s.rmwEvents, rmwEvent.data = i ∧ rmwEvent.implementationIdentifier = true) →
        endpoint.lifetime = .alive → (f endpoint).lifetime = .alive)) : Keeps s s' := by
  intro j endpoint hget
  rw [hend, List.getElem?_modify, hget]
  by_cases hij : i = j
  · subst hij
    exact ⟨f endpoint, by simp, hf endpoint hget⟩
  · exact ⟨endpoint, by simp [hij], List.Subset.refl _, fun _ halive => halive⟩

/-- Something is done to an `Event` that does not bring it back. -/
theorem Keeps.onEvent {i : ℕ} {f : Event → Event}
    (hend : s'.endpoints = (s.onEvent i f).endpoints)
    (hf : ∀ event, event.destroyedBy ⊆ (f event).destroyedBy) : Keeps s s' :=
  .modify hend fun endpoint _ => ⟨hf endpoint.dataDroppedEvent, fun _ halive => halive⟩

theorem Event.takeTriggered_destroyedBy (e : Event) :
    e.takeTriggered.1.destroyedBy = e.destroyedBy := by
  rw [Event.takeTriggered]
  split <;> rfl

theorem Step.keeps (h : Step s a s') (hpermitted : s.Permitted a) : Keeps s s' := by
  rcases h with _ | _ | _ | _ | _ | _ | _ | _ | ⟨hget, hdestructing⟩
  · intro i endpoint hget
    refine ⟨endpoint, ?_, List.Subset.refl _, fun _ halive => halive⟩
    rw [State.create, List.getElem?_append_left (List.getElem?_eq_some_iff.mp hget).1, hget]
  · exact fun i endpoint hget => ⟨endpoint, hget, List.Subset.refl _, fun _ halive => halive⟩
  · exact fun i endpoint hget => ⟨endpoint, hget, List.Subset.refl _, fun _ halive => halive⟩
  · exact .onEvent rfl fun event => by rw [event.takeTriggered_destroyedBy]; exact List.Subset.refl _
  · exact fun i endpoint hget => ⟨endpoint, hget, List.Subset.refl _, fun _ halive => halive⟩
  · exact .onEvent (f := fun e => e.destroy .rmwEventFini) rfl fun event =>
      List.subset_append_left _ _
  · exact .onEvent rfl fun event => List.Subset.refl _
  · refine .modify rfl fun endpoint _ => ⟨List.subset_append_left _ _, ?_⟩
    rintro ⟨rmwEvent, hmem, hdata, hvalid⟩ -
    rw [hpermitted rmwEvent hmem hdata] at hvalid
    cases hvalid
  · refine .modify rfl fun endpoint hget' => ⟨List.Subset.refl _, fun _ halive => ?_⟩
    cases hget.symm.trans hget'
    rw [halive] at hdestructing
    cases hdestructing

/-- What an `rmw_event_t` points to is alive before it is finalised, and has been destroyed
afterwards. -/
def Linked (s : State) (rmwEvent : RmwEvent) : Prop :=
  ∃ endpoint, s.endpoints[rmwEvent.data]? = some endpoint ∧
    (rmwEvent.implementationIdentifier = true → endpoint.lifetime = .alive) ∧
    (rmwEvent.implementationIdentifier = false →
      .rmwEventFini ∈ endpoint.dataDroppedEvent.destroyedBy)

theorem Linked.keeps {rmwEvent : RmwEvent} (h : Linked s rmwEvent) (hmem : rmwEvent ∈ s.rmwEvents)
    (hkeeps : Keeps s s') : Linked s' rmwEvent := by
  obtain ⟨endpoint, hget, halive, hfini⟩ := h
  obtain ⟨endpoint', hget', hdestroyed, halive'⟩ := hkeeps _ endpoint hget
  exact ⟨endpoint', hget', fun hvalid => halive' ⟨rmwEvent, hmem, rfl, hvalid⟩ (halive hvalid),
    fun hinvalid => hdestroyed (hfini hinvalid)⟩

/-- What is said of an `rmw_event_t` is so at first, and stays so. -/
theorem Step.linked (h : Step s a s') (hpermitted : s.Permitted a)
    (hlinked : ∀ rmwEvent ∈ s.rmwEvents, Linked s rmwEvent) :
    ∀ rmwEvent ∈ s'.rmwEvents, Linked s' rmwEvent := by
  have hold : ∀ rmwEvent ∈ s.rmwEvents, Linked s' rmwEvent := fun rmwEvent hmem =>
    (hlinked rmwEvent hmem).keeps hmem (h.keeps hpermitted)
  rcases h with _ | _ | ⟨hget, halive, eventType⟩ | _ | _ | @⟨_, l₁, l₂, rmwEvent, hl⟩ | _ | _ | _
  · exact hold
  · exact hold
  · refine List.forall_mem_append.mpr ⟨hold, List.forall_mem_singleton.mpr ?_⟩
    exact ⟨_, hget, fun _ => halive, fun hinvalid => by cases hinvalid⟩
  · exact hold
  · exact hold
  · rw [hl] at hold hlinked
    refine forall_mem_replace hold ?_
    obtain ⟨endpoint, hget, -⟩ := hlinked rmwEvent (List.mem_append_right _ List.mem_cons_self)
    refine ⟨{ endpoint with dataDroppedEvent := endpoint.dataDroppedEvent.destroy .rmwEventFini },
      ?_, (fun hvalid => by cases hvalid), fun _ => List.mem_append_right _ List.mem_cons_self⟩
    rw [State.onEvent, List.getElem?_modify_eq, hget]
    rfl
  · exact hold
  · exact hold
  · exact hold

/-- An endpoint is changed, and its `Event` still has nothing but its owner to destroy it. -/
theorem State.Owned.modify (h : s.Owned) {i : ℕ} {f : Endpoint → Endpoint}
    (hend : s'.endpoints = s.endpoints.modify i f) (hmisused : s'.misused = false)
    (hf : ∀ endpoint, s.endpoints[i]? = some endpoint →
      (f endpoint).dataDroppedEvent.destroyedBy =
        if (f endpoint).lifetime = .alive then [] else [.endpoint]) : s'.Owned := by
  refine ⟨fun endpoint hmem => ?_, hmisused⟩
  rw [hend] at hmem
  obtain ⟨j, hget⟩ := List.mem_iff_getElem?.mp hmem
  rw [List.getElem?_modify] at hget
  obtain ⟨endpoint', hget', rfl⟩ := Option.map_eq_some_iff.mp hget
  by_cases hij : i = j
  · subst hij
    simpa using hf endpoint' hget'
  · simpa [hij] using h.destroyedBy endpoint' (List.mem_of_getElem? hget')

/-- `Event`s of endpoints that are alive can be used. -/
theorem State.Owned.use (h : s.Owned) {events : List ℕ}
    (halive : ∀ i ∈ events, ∀ endpoint, s.endpoints[i]? = some endpoint →
      endpoint.lifetime = .alive) : (s.use events).Owned := by
  refine ⟨h.destroyedBy, ?_⟩
  rw [State.use, Bool.or_eq_false_iff, List.any_eq_false]
  refine ⟨h.not_misused, fun i hmem => ?_⟩
  rw [State.destroyedAt]
  cases hget : s.endpoints[i]? with
  | none => simp
  | some endpoint =>
    have hdestroyedBy := h.destroyedBy endpoint (List.mem_of_getElem? hget)
    rw [if_pos (halive i hmem endpoint hget)] at hdestroyedBy
    simp [hdestroyedBy]

/-- What is done to an `Event` does not matter as long as it does not destroy it. -/
theorem State.Owned.onEvent (h : s.Owned) {i : ℕ} {f : Event → Event}
    (hf : ∀ event, (f event).destroyedBy = event.destroyedBy) : (s.onEvent i f).Owned := by
  refine h.modify rfl h.not_misused fun endpoint hget => ?_
  rw [hf]
  exact h.destroyedBy endpoint (List.mem_of_getElem? hget)

theorem Linked.alive {rmwEvent : RmwEvent} (h : Linked s rmwEvent)
    (hvalid : rmwEvent.implementationIdentifier = true) {endpoint : Endpoint}
    (hget : s.endpoints[rmwEvent.data]? = some endpoint) : endpoint.lifetime = .alive := by
  obtain ⟨endpoint', hget', halive, -⟩ := h
  cases hget.symm.trans hget'
  exact halive hvalid

/-- No `rmw_event_t` has been finalised. -/
def NoneFinalised (s : State) : Prop :=
  ∀ rmwEvent ∈ s.rmwEvents, rmwEvent.implementationIdentifier = true

theorem Step.owned (h : Step s a s') (hpermitted : s.Permitted a) (htimely : s.Timely a)
    (hlinked : ∀ rmwEvent ∈ s.rmwEvents, Linked s rmwEvent) (hnone : NoneFinalised s')
    (howned : NoneFinalised s → s.Owned) : s'.Owned := by
  rcases h with _ | _ | _ | @⟨_, rmwEvent, hmem, hvalid⟩ | @⟨_, rmwEvents, hmem⟩ | _ | hget |
    ⟨hget, halive⟩ | ⟨hget, hdestructing⟩
  · have howned := howned hnone
    refine ⟨List.forall_mem_append.mpr ⟨howned.destroyedBy, ?_⟩, howned.not_misused⟩
    exact List.forall_mem_singleton.mpr rfl
  · exact howned hnone
  · obtain ⟨hdestroyedBy, hmisused⟩ := howned (List.forall_mem_append.mp hnone).1
    exact ⟨hdestroyedBy, hmisused⟩
  · refine ((howned hnone).use fun i hi endpoint hget => ?_).onEvent Event.takeTriggered_destroyedBy
    rw [List.mem_singleton.mp hi] at hget
    exact (hlinked rmwEvent hmem).alive hvalid hget
  · refine (howned hnone).use fun i hi endpoint hget => ?_
    obtain ⟨rmwEvent, hrmwEvent, rfl⟩ := List.mem_map.mp hi
    have hmem := hmem rmwEvent hrmwEvent
    exact (hlinked rmwEvent hmem).alive (hnone rmwEvent hmem) hget
  · -- now there is one that has been finalised
    have hvalid := hnone _ (List.mem_append_right _ List.mem_cons_self)
    cases hvalid
  · refine ((howned hnone).use fun i hi endpoint hget => ?_).onEvent fun _ => rfl
    rw [List.mem_singleton.mp hi] at hget
    exact htimely endpoint hget
  · have howned := howned hnone
    refine howned.modify rfl howned.not_misused fun endpoint hget' => ?_
    cases hget.symm.trans hget'
    have hdestroyedBy := howned.destroyedBy _ (List.mem_of_getElem? hget)
    rw [if_pos halive] at hdestroyedBy
    rw [Event.destroy, hdestroyedBy]
    rfl
  · have howned := howned hnone
    refine howned.modify rfl howned.not_misused fun endpoint hget' => ?_
    cases hget.symm.trans hget'
    have hdestroyedBy := howned.destroyedBy _ (List.mem_of_getElem? hget)
    rw [hdestructing] at hdestroyedBy
    exact hdestroyedBy

/-! ## The results -/

/-- **Every `Event` is destroyed once, by its owner, and not used afterwards, as long as no
`rmw_event_t` has been finalised**, and no longer. -/
theorem owned_iff {s : State} (h : system.Reachable (fun s a => s.Permitted a ∧ s.Timely a) s) :
    s.Owned ↔ NoneFinalised s := by
  have hinv : (∀ rmwEvent ∈ s.rmwEvents, Linked s rmwEvent) ∧ (NoneFinalised s → s.Owned) := by
    refine h.invariant (P := fun s => (∀ rmwEvent ∈ s.rmwEvents, Linked s rmwEvent) ∧
      (NoneFinalised s → s.Owned)) ?_ ?_
    · refine ⟨fun rmwEvent hmem => ?_, fun _ => ⟨fun endpoint hmem => ?_, rfl⟩⟩
      · cases hmem
      · cases hmem
    · rintro s a s' ⟨hlinked, howned⟩ ⟨hpermitted, htimely⟩ hstep
      have hstep := step_cases hstep
      exact ⟨hstep.linked hpermitted hlinked, fun hnone =>
        hstep.owned hpermitted htimely hlinked hnone howned⟩
  refine ⟨fun howned rmwEvent hmem => ?_, hinv.2⟩
  by_contra hinvalid
  obtain ⟨endpoint, hget, -, hfini⟩ := hinv.1 rmwEvent hmem
  have hfini := hfini (Bool.eq_false_iff.mpr hinvalid)
  rw [howned.destroyedBy endpoint (List.mem_of_getElem? hget)] at hfini
  split at hfini
  · cases hfini
  · cases List.mem_singleton.mp hfini

/-- A publisher and a subscription, the one with two events, the other destroyed. -/
theorem owned_iff_two : ∃ s : State, s.rmwEvents.length = 2 ∧ (s.Owned ↔ NoneFinalised s) := by
  have h : system.Reachable (fun s a => s.Permitted a ∧ s.Timely a)
      ⟨[⟨.publisher, .alive, ⟨0, []⟩⟩, ⟨.subscription, .destroyed, ⟨0, [.endpoint]⟩⟩],
        [⟨.offeredDeadlineMissed, true, 0⟩, ⟨.offeredDeadlineMissed, true, 0⟩], false⟩ :=
    System.reachable_of_exec [.create .publisher, .create .subscription,
      .rmwPublisherEventInit 0 .offeredDeadlineMissed,
      .rmwPublisherEventInit 0 .offeredDeadlineMissed, .onDataDropped 0, .rmwWait [0, 1],
      .rmwTakeEvent 1, .destroy .subscription 1, .destroyRest 1] (by decide)
  exact ⟨_, rfl, owned_iff h⟩

/-- **An `Event` is destroyed three times**, twice before its owner does it, and used in between. -/
theorem destroyed_thrice : ∃ (s : State) (endpoint : Endpoint),
    system.Reachable (fun s a => s.Permitted a ∧ s.Timely a) s ∧ endpoint ∈ s.endpoints ∧
    endpoint.dataDroppedEvent.destroyedBy = [.rmwEventFini, .rmwEventFini, .endpoint] ∧
    s.misused = true := by
  refine ⟨⟨[⟨.publisher, .destroyed, ⟨0, [.rmwEventFini, .rmwEventFini, .endpoint]⟩⟩],
    [⟨.invalid, false, 0⟩, ⟨.invalid, false, 0⟩], true⟩, _,
    System.reachable_of_exec [.create .publisher,
      .rmwPublisherEventInit 0 .offeredDeadlineMissed,
      .rmwPublisherEventInit 0 .offeredDeadlineMissed, .rmwEventFini 0, .rmwTakeEvent 1,
      .rmwEventFini 1, .destroy .publisher 0, .destroyRest 0] (by decide),
    List.mem_singleton.mpr rfl, rfl, rfl⟩

/-- A callback that comes while an endpoint is being destroyed triggers what is not there any
more. -/
theorem misused_of_late {i : ℕ} {endpoint : Endpoint} (h : s.step (.onDataDropped i) = some s')
    (hget : s.endpoints[i]? = some endpoint)
    (hdestroyed : endpoint.dataDroppedEvent.destroyedBy ≠ []) : s'.misused = true := by
  obtain ⟨_, hget', h⟩ := Option.bind_eq_some_iff.mp h
  cases hget.symm.trans hget'
  split at h
  · cases h
  · cases h
    simp [State.onEvent, State.use, State.destroyedAt, hget, hdestroyed]

end EventOwnership

end RmwEcal
