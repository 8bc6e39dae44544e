import RmwEcal.Shared.Service

/-!
# Handing over a response

eCAL calls a service any number of times, and threads of the executor take the requests and send the
responses, all in any order.  The handler of a call is meant to return when the response is there,
and not before.

The wait has no predicate, and nothing but the notification tells the handler that there is a
response.  So it returns too early when it wakes for no reason, and never when the notification
comes while it is still on its way to the wait; the request has been in the hands of the executor
since `EnqueueRequest`.

`HandOver.hand_over` says that nothing else goes wrong.
-/

set_option autoImplicit false

namespace RmwEcal

open Transition Service

namespace HandOver

/-! ## Services at work -/

/-- A service, and what has happened to it. -/
structure State where
  service : Service
  /-- The counter of `GenerateRequestId`. -/
  counter : ℕ
  /-- What `SendResponse` was called for: the id and the request it found under it. -/
  called : List (ℕ × ℕ)
  /-- The requests for which `ConsumeResponse` has completed. -/
  consumed : List ℕ
  deriving DecidableEq, Repr

/-- The steps: of eCAL, of handlers and of the executor. -/
inductive Action where
  /-- A request to another service of the process draws an id. -/
  | generate
  /-- eCAL calls `OnRequest`, with what a client sent. -/
  | onRequest (request : List UInt8)
  /-- A handler takes its next step. -/
  | handler (ref : ℕ)
  /-- A handler wakes for no reason. -/
  | wake (ref : ℕ)
  /-- A thread gets the lock in `TakeRequest`. -/
  | takeRequest
  /-- A thread in `TakeRequest` takes its next step. -/
  | take (i : ℕ)
  /-- A thread calls `SendResponse`; the response is serialized to these bytes. -/
  | sendResponse (response : List UInt8) (requestId : ℕ)
  /-- A thread in `SendResponse` takes its next step. -/
  | send (i : ℕ)
  deriving DecidableEq, Repr

namespace State

/-- A service nobody has called yet. -/
def fresh : State := ⟨.fresh, 0, [], []⟩

/-- One step. -/
def step (s : State) : Action → Option State
  | .generate => some { s with counter := s.counter + 1 }
  -- what a client sends has a trailer
  | .onRequest request => do
    let _ ← getSequenceNumber request
    some { s with
      service := s.service.onRequest (s.counter % 2 ^ 64) request
      counter := s.counter + 1 }
  | .handler ref => do
    let (service, _) ← s.service.stepHandler ref
    some { s with service := service }
  | .wake ref => do
    let service ← s.service.wake ref
    some { s with service := service }
  | .takeRequest => do
    let service ← s.service.takeRequest
    some { s with service := service }
  | .take i => do
    let (service, _) ← s.service.stepTake i
    some { s with service := service }
  | .sendResponse response requestId => do
    let ref ← s.service.current.lookup requestId
    let service ← s.service.sendResponse response requestId
    some { s with service := service, called := s.called ++ [(requestId, ref)] }
  | .send i => do
    let send ← s.service.sends[i]?
    let service ← s.service.stepSend i
    some { s with
      service := service
      consumed := if send.stage = .notifyOne then s.consumed ++ [send.ref] else s.consumed }

end State

/-- A service at work. -/
def system : System State Action := ⟨.fresh, State.step⟩

/-! ## What is meant to hold -/

namespace State

/-- A notification for a request is still to come. -/
def Notifies (s : State) (ref : ℕ) : Prop :=
  ∃ send ∈ s.service.sends, send.ref = ref ∧ send.stage ≠ .eraseCurrent

/-- No handler has returned too early, and none has been left waiting. -/
structure Safe (s : State) : Prop where
  /-- `SendResponse` has been called for the request of a handler that has returned. -/
  returned : ∀ ref handler, s.service.handlers[ref]? = some handler →
    handler.phase = .returned → (handler.requestId, ref) ∈ s.called
  /-- A handler that has not come out of the wait although its response has been consumed has a
  notification to come. -/
  notified : ∀ ref ∈ s.consumed, ∀ handler, s.service.handlers[ref]? = some handler →
    handler.phase.Awaits → s.Notifies ref

/-- A handler wakes without notification only after `SendResponse` has been called for its request,
and a notification finds the handler in the wait or past it, if it is the last one. -/
def Timely (s : State) : Action → Prop
  | .wake ref => ∀ handler, s.service.handlers[ref]? = some handler →
      (handler.requestId, ref) ∈ s.called
  | .send i => ∀ send handler, s.service.sends[i]? = some send → send.stage = .notifyOne →
      s.service.handlers[send.ref]? = some handler → handler.phase.Awaits →
      handler.phase = .waiting ∨ ∃ j other, j ≠ i ∧ s.service.sends[j]? = some other ∧
        other.ref = send.ref ∧ other.stage ≠ .eraseCurrent
  | _ => True

end State

/-! ## The invariant -/

/-- The invariant. -/
structure Inv (s : State) : Prop where
  /-- An id leads to the request it was drawn for. -/
  current : ∀ entry ∈ s.service.current, ∃ handler,
    s.service.handlers[entry.2]? = some handler ∧ handler.requestId = entry.1
  /-- So do those of the responses under way. -/
  sends : ∀ send ∈ s.service.sends, ∃ handler,
    s.service.handlers[send.ref]? = some handler ∧ handler.requestId = send.requestId
  /-- `SendResponse` was called for them. -/
  sends_called : ∀ send ∈ s.service.sends, (send.requestId, send.ref) ∈ s.called
  /-- `SendResponse` was called for handlers that are past the wait. -/
  past : ∀ ref handler, s.service.handlers[ref]? = some handler → ¬ handler.phase.Awaits →
    (handler.requestId, ref) ∈ s.called
  /-- Responses were consumed by handlers. -/
  consumed : ∀ ref ∈ s.consumed, ref < s.service.handlers.length
  /-- No handler has been left waiting. -/
  notified : ∀ ref ∈ s.consumed, ∀ handler, s.service.handlers[ref]? = some handler →
    handler.phase.Awaits → s.Notifies ref
  /-- Requests carry a sequence number. -/
  trailer : ∀ (ref : ℕ) (handler : Handler), s.service.handlers[ref]? = some handler →
    (getSequenceNumber handler.request).isSome

theorem inv_fresh : Inv .fresh where
  current _ h := by cases h
  sends _ h := by cases h
  sends_called _ h := by cases h
  past _ _ h := by cases h
  consumed _ h := by cases h
  notified _ h := by cases h
  trailer _ _ h := by cases h

section Steps

variable {s : State}

theorem Inv.safe (h : Inv s) : s.Safe where
  returned ref handler hget hphase := h.past ref handler hget fun hawaits => hawaits.2 hphase
  notified := h.notified

/-- **A handler moves.**  It keeps its request and does not go back into the wait, and it comes out
of it only if `SendResponse` was called for it. -/
theorem Inv.update {ref : ℕ} {handler : Handler} (h : Inv s) (handler' : Handler)
    (hget : s.service.handlers[ref]? = some handler)
    (hid : handler'.requestId = handler.requestId) (hrequest : handler'.request = handler.request)
    (hpast : ¬ handler'.phase.Awaits → (handler.requestId, ref) ∈ s.called)
    (hback : handler'.phase.Awaits → handler.phase.Awaits) :
    Inv { s with service := s.service.update ref handler' } := by
  refine ⟨fun entry hmem => exists_update hget hid (h.current entry hmem),
    fun send hmem => exists_update hget hid (h.sends send hmem), h.sends_called,
    fun ref' other hother hphase => ?_, fun ref' hmem => ?_,
    fun ref' hmem other hother hphase => ?_, fun ref' other hother => ?_⟩
  · obtain ⟨rfl, rfl⟩ | ⟨-, hother⟩ := (getElem?_update hget).mp hother
    · rw [hid]
      exact hpast hphase
    · exact h.past ref' other hother hphase
  · simpa [Service.update] using h.consumed ref' hmem
  · obtain ⟨rfl, rfl⟩ | ⟨-, hother⟩ := (getElem?_update hget).mp hother
    · exact h.notified ref' hmem handler hget (hback hphase)
    · exact h.notified ref' hmem other hother hphase
  · obtain ⟨rfl, rfl⟩ | ⟨-, hother⟩ := (getElem?_update hget).mp hother
    · rw [hrequest]
      exact h.trailer ref' handler hget
    · exact h.trailer ref' other hother

/-- **eCAL calls.** -/
theorem Inv.onRequest {request : List UInt8} (h : Inv s) (requestId counter : ℕ)
    (htrailer : (getSequenceNumber request).isSome) :
    Inv { s with service := s.service.onRequest requestId request, counter := counter } := by
  refine ⟨fun entry hmem => ?_, fun send hmem => ?_, h.sends_called,
    fun ref other hother hphase => ?_, fun ref hmem => ?_, fun ref hmem other hother hphase => ?_,
    fun ref other hother => ?_⟩
  · obtain ⟨other, hother, hid⟩ := h.current entry hmem
    exact ⟨other, getElem?_onRequest.mpr (.inr hother), hid⟩
  · obtain ⟨other, hother, hid⟩ := h.sends send hmem
    exact ⟨other, getElem?_onRequest.mpr (.inr hother), hid⟩
  · obtain ⟨-, rfl⟩ | hother := getElem?_onRequest.mp hother
    · exact (hphase Phase.awaits_enqueueRequest).elim
    · exact h.past ref other hother hphase
  · have hlt := h.consumed ref hmem
    simp only [Service.onRequest, List.length_append]
    omega
  · obtain ⟨rfl, -⟩ | hother := getElem?_onRequest.mp hother
    · exact (Nat.lt_irrefl _ (h.consumed _ hmem)).elim
    · exact h.notified ref hmem other hother hphase
  · obtain ⟨-, rfl⟩ | hother := getElem?_onRequest.mp hother
    · exact htrailer
    · exact h.trailer ref other hother

/-- **A response goes one step further.**  The invariant is kept if no notification is lost: where a
request is consumed, its handler does not wait for another one that does not come. -/
theorem Inv.sends_modify {l₁ l₂ : List Send} {send : Send} {consumed : List ℕ} (h : Inv s)
    (send' : Send) (hl : s.service.sends = l₁ ++ send :: l₂)
    (hid : send'.requestId = send.requestId) (href : send'.ref = send.ref)
    (hconsumed : ∀ ref ∈ consumed, ref ∈ s.consumed ∨ ref = send.ref)
    (hnotified : ∀ handler, s.service.handlers[send.ref]? = some handler →
      handler.phase.Awaits → send.ref ∈ consumed →
      ∃ other ∈ l₁ ++ send' :: l₂, other.ref = send.ref ∧ other.stage ≠ .eraseCurrent) :
    Inv { s with
      service := { s.service with sends := l₁ ++ send' :: l₂ }
      consumed := consumed } := by
  have hold : ∀ {other : Send}, other ∈ l₁ ++ send' :: l₂ →
      other ∈ s.service.sends ∨ other = send' := by
    intro other hmem
    rw [hl]
    exact mem_replace hmem
  have hsend : send ∈ s.service.sends := by rw [hl]; simp
  refine ⟨h.current, fun other hmem => ?_, fun other hmem => ?_, h.past, fun ref hmem => ?_,
    fun ref hmem handler hget hphase => ?_, h.trailer⟩
  · obtain hmem | rfl := hold hmem
    · exact h.sends other hmem
    · rw [hid, href]
      exact h.sends send hsend
  · obtain hmem | rfl := hold hmem
    · exact h.sends_called other hmem
    · rw [hid, href]
      exact h.sends_called send hsend
  · obtain hmem | rfl := hconsumed ref hmem
    · exact h.consumed ref hmem
    · obtain ⟨handler, hget, -⟩ := h.sends send hsend
      exact (List.getElem?_eq_some_iff.mp hget).1
  · by_cases heq : ref = send.ref
    · subst heq
      exact hnotified handler hget hphase hmem
    · obtain ⟨other, hother, rfl, hstage⟩ :=
        h.notified ref ((hconsumed ref hmem).resolve_right heq) handler hget hphase
      have hne : other ≠ send := fun h => heq (by rw [h])
      refine ⟨other, ?_, rfl, hstage⟩
      rw [hl] at hother
      exact (mem_replace hother).resolve_right hne

/-- **A thread in `SendResponse` takes its next step.** -/
theorem Inv.send {i : ℕ} {send : Send} {service : Service} (h : Inv s)
    (htimely : s.Timely (.send i)) (hget : s.service.sends[i]? = some send)
    (hstep : s.service.stepSend i = some service) :
    Inv { s with
      service := service
      consumed := if send.stage = .notifyOne then s.consumed ++ [send.ref] else s.consumed } := by
  obtain ⟨l₁, l₂, send', hget', hl, hlen, hcases⟩ := stepSend_cases hstep
  obtain rfl : send = send' := by rw [hget] at hget'; exact Option.some_inj.mp hget'
  have hcalled := h.sends_called send (List.mem_of_getElem? hget)
  generalize hstage : send.stage = stage at hcases ⊢
  cases hcases with
  | @assignResponse handler hhandler =>
    have hinv := h.update { handler with response := send.response } hhandler rfl rfl
      (h.past send.ref handler hhandler) id
    refine hinv.sends_modify { send with stage := .notifyOne } hl rfl rfl
      (fun _ hmem => .inl hmem) fun _ _ _ _ => ?_
    exact ⟨{ send with stage := .notifyOne }, by simp, rfl, nofun⟩
  | @notifyOne handler hhandler _ phase hphase =>
    obtain ⟨other, hother, hid⟩ := h.sends send (List.mem_of_getElem? hget)
    obtain rfl : handler = other := by rw [hhandler] at hother; exact Option.some_inj.mp hother
    have hinv := h.update { handler with phase := phase } hhandler rfl rfl
      (fun _ => hid ▸ hcalled) fun hawaits => by
        obtain ⟨-, rfl⟩ | ⟨-, rfl⟩ := hphase
        · exact (hawaits.1 rfl).elim
        · exact hawaits
    refine hinv.sends_modify { send with stage := .eraseCurrent } hl rfl rfl
      (fun _ hmem => by simpa using hmem) fun moved hmoved hawaits _ => ?_
    -- the handler was not in the wait, or it would have come out of it
    obtain ⟨-, rfl⟩ | ⟨hne, -⟩ := (getElem?_update hhandler).mp hmoved
    swap
    · exact (hne rfl).elim
    obtain ⟨-, rfl⟩ | ⟨hwaiting, rfl⟩ := hphase
    · exact (hawaits.1 rfl).elim
    obtain hwait | ⟨j, other, hj, hother, href, hlast⟩ :=
      htimely send handler hget hstage hhandler hawaits
    · exact (hwaiting hwait).elim
    refine ⟨other, ?_, href, hlast⟩
    rw [hl, List.getElem?_append] at hother
    split at hother
    · exact List.mem_append_left _ (List.mem_of_getElem? hother)
    · obtain ⟨k, hk⟩ : ∃ k, j - l₁.length = k + 1 := ⟨j - l₁.length - 1, by omega⟩
      rw [hk, List.getElem?_cons_succ] at hother
      exact List.mem_append_right _ (List.mem_cons_of_mem _ (List.mem_of_getElem? hother))
  | @eraseCurrent current hcurrent =>
    have hold : ∀ {other : Send}, other ∈ l₁ ++ l₂ → other ∈ s.service.sends := by
      intro other hmem
      rw [hl]
      exact mem_of_mem_remove hmem
    refine ⟨fun entry hmem => h.current entry (hcurrent entry hmem),
      fun other hmem => h.sends other (hold hmem),
      fun other hmem => h.sends_called other (hold hmem), h.past, h.consumed,
      fun ref hmem handler hhandler hphase => ?_, h.trailer⟩
    obtain ⟨other, hother, href, hne⟩ := h.notified ref hmem handler hhandler hphase
    refine ⟨other, ?_, href, hne⟩
    rw [hl] at hother
    simp only [List.mem_append, List.mem_cons] at hother ⊢
    obtain hother | rfl | hother := hother
    · exact .inl hother
    · exact (hne hstage).elim
    · exact .inr hother

/-- **A handler takes its next step.** -/
theorem Inv.handler {ref : ℕ} {service : Service} {response : Option (List UInt8)} (h : Inv s)
    (hstep : s.service.stepHandler ref = some (service, response)) :
    Inv { s with service := service } := by
  obtain ⟨handler, hget, hcases⟩ := stepHandler_cases hstep
  have hpast := h.past ref handler hget
  cases hcases with
  | enqueueRequest hphase =>
    have hinv := h.update { handler with phase := .notifyWaitSet } hget rfl rfl
      (fun hn => (hn ⟨nofun, nofun⟩).elim) fun _ => by rw [hphase]; exact ⟨nofun, nofun⟩
    exact ⟨hinv.current, hinv.sends, hinv.sends_called, hinv.past, hinv.consumed, hinv.notified,
      hinv.trailer⟩
  | notifyWaitSet hphase =>
    exact h.update _ hget rfl rfl (fun hn => (hn ⟨nofun, nofun⟩).elim)
      fun _ => by rw [hphase]; exact ⟨nofun, nofun⟩
  | waitForResponse hphase =>
    exact h.update _ hget rfl rfl (fun hn => (hn ⟨nofun, nofun⟩).elim)
      fun _ => by rw [hphase]; exact ⟨nofun, nofun⟩
  | getResponse hphase =>
    refine h.update _ hget rfl rfl (fun _ => hpast fun hawaits => hawaits.1 hphase)
      fun hawaits => (hawaits.2 rfl).elim

/-- **A step keeps the invariant.** -/
theorem Inv.step {s' : State} {a : Action} (h : Inv s) (htimely : s.Timely a)
    (hstep : s.step a = some s') : Inv s' := by
  cases a with
  | generate =>
    cases hstep
    exact ⟨h.current, h.sends, h.sends_called, h.past, h.consumed, h.notified, h.trailer⟩
  | onRequest request =>
    obtain ⟨n, hn, hstep⟩ := Option.bind_eq_some_iff.mp hstep
    cases hstep
    exact h.onRequest _ _ (by rw [hn]; rfl)
  | handler ref =>
    obtain ⟨⟨service, response⟩, hservice, hstep⟩ := Option.bind_eq_some_iff.mp hstep
    cases hstep
    exact h.handler hservice
  | wake ref =>
    obtain ⟨service, hservice, hstep⟩ := Option.bind_eq_some_iff.mp hstep
    cases hstep
    obtain ⟨handler, hget, -, rfl⟩ := wake_cases hservice
    exact h.update _ hget rfl rfl (fun _ => htimely handler hget) fun hawaits =>
      (hawaits.1 rfl).elim
  | takeRequest =>
    obtain ⟨service, hservice, hstep⟩ := Option.bind_eq_some_iff.mp hstep
    cases hstep
    obtain ⟨ref, pending, -, rfl⟩ := takeRequest_cases hservice
    exact ⟨h.current, h.sends, h.sends_called, h.past, h.consumed, h.notified, h.trailer⟩
  | take i =>
    obtain ⟨⟨service, taken⟩, hservice, hstep⟩ := Option.bind_eq_some_iff.mp hstep
    cases hstep
    obtain ⟨l₁, l₂, ref, stage, handler, -, -, hget, hcases⟩ := stepTake_cases hservice
    cases hcases with
    | insertCurrent hcurrent =>
      refine ⟨fun entry hmem => ?_, h.sends, h.sends_called, h.past, h.consumed, h.notified,
        h.trailer⟩
      obtain hmem | rfl := hcurrent entry hmem
      · exact h.current entry hmem
      · exact ⟨handler, hget, rfl⟩
    | deserializeRequest =>
      exact ⟨h.current, h.sends, h.sends_called, h.past, h.consumed, h.notified, h.trailer⟩
  | sendResponse response requestId =>
    obtain ⟨ref, hlookup, hstep⟩ := Option.bind_eq_some_iff.mp hstep
    obtain ⟨service, hservice, hstep⟩ := Option.bind_eq_some_iff.mp hstep
    cases hstep
    obtain ⟨ref', hlookup', hmem, rfl⟩ := sendResponse_cases hservice
    obtain rfl : ref = ref' := by rw [hlookup] at hlookup'; exact Option.some_inj.mp hlookup'
    refine ⟨h.current, fun send hsend => ?_, fun send hsend => ?_,
      fun ref handler hget hphase => List.mem_append_left _ (h.past ref handler hget hphase),
      h.consumed, fun ref hmem handler hget hphase => ?_, h.trailer⟩
    · obtain hsend | hsend := List.mem_append.mp hsend
      · exact h.sends send hsend
      · rw [List.mem_singleton.mp hsend]
        exact h.current _ hmem
    · obtain hsend | hsend := List.mem_append.mp hsend
      · exact List.mem_append_left _ (h.sends_called send hsend)
      · rw [List.mem_singleton.mp hsend]
        exact List.mem_append_right _ (List.mem_singleton.mpr rfl)
    · obtain ⟨send, hsend, hnotifies⟩ := h.notified ref hmem handler hget hphase
      exact ⟨send, List.mem_append_left _ hsend, hnotifies⟩
  | send i =>
    obtain ⟨send, hget, hstep⟩ := Option.bind_eq_some_iff.mp hstep
    obtain ⟨service, hservice, hstep⟩ := Option.bind_eq_some_iff.mp hstep
    cases hstep
    exact h.send htimely hget hservice

end Steps

theorem Inv.of_reachable {s : State} (h : system.Reachable State.Timely s) : Inv s :=
  h.invariant inv_fresh fun _ _ _ hinv htimely hstep => hinv.step htimely hstep

/-! ## Where it fails -/

/-- **A handler that wakes too early returns too early.** -/
theorem Inv.returns_early {s s' : State} {ref : ℕ} (h : Inv s) (htimely : ¬ s.Timely (.wake ref))
    (hstep : s.step (.wake ref) = some s') :
    ∃ s'', s'.step (.handler ref) = some s'' ∧ ¬ s''.Safe := by
  obtain ⟨service, hservice, hstep⟩ := Option.bind_eq_some_iff.mp hstep
  cases hstep
  obtain ⟨handler, hget, -, rfl⟩ := wake_cases hservice
  have huncalled : (handler.requestId, ref) ∉ s.called := fun hmem =>
    htimely fun other hother => by
      rw [hget, Option.some_inj] at hother
      rwa [← hother]
  obtain ⟨n, hn⟩ := Option.isSome_iff_exists.mp (h.trailer ref handler hget)
  have hwoken : (s.service.update ref { handler with phase := .getResponse }).handlers[ref]? =
      some { handler with phase := .getResponse } :=
    (getElem?_update hget).mpr (.inl ⟨rfl, rfl⟩)
  let woken := s.service.update ref { handler with phase := .getResponse }
  refine ⟨{ s with service := woken.update ref { handler with phase := .returned } }, ?_,
    fun hsafe => ?_⟩
  · simp only [State.step, Service.stepHandler, hwoken, Option.bind_eq_bind, Option.bind_some,
      reply, hn, Option.map_some]
    rfl
  · exact huncalled (hsafe.returned ref { handler with phase := .returned }
      ((getElem?_update hwoken).mpr (.inl ⟨rfl, rfl⟩)) rfl)

/-- **A notification that comes too early is lost**, and with it the handler. -/
theorem not_safe_of_lost {s s' : State} {i : ℕ} (htimely : ¬ s.Timely (.send i))
    (hstep : s.step (.send i) = some s') : ¬ s'.Safe := by
  simp only [State.Timely, not_forall, not_or] at htimely
  obtain ⟨send, handler, hget, hstage, hhandler, hawaits, hwaiting, hlast⟩ := htimely
  obtain ⟨send', hget', hstep⟩ := Option.bind_eq_some_iff.mp hstep
  obtain ⟨service, hservice, hstep⟩ := Option.bind_eq_some_iff.mp hstep
  obtain rfl : send = send' := by rw [hget] at hget'; exact Option.some_inj.mp hget'
  cases hstep
  obtain ⟨l₁, l₂, send', hget', hl, hlen, hcases⟩ := stepSend_cases hservice
  obtain rfl : send = send' := by rw [hget] at hget'; exact Option.some_inj.mp hget'
  rw [hstage] at hcases
  intro hsafe
  cases hcases with
  | @notifyOne handler' hhandler' _ phase hphase =>
    obtain rfl : handler = handler' := by
      rw [hhandler] at hhandler'
      exact Option.some_inj.mp hhandler'
    obtain ⟨hwait, -⟩ | ⟨-, rfl⟩ := hphase
    · exact hwaiting hwait
    obtain ⟨other, hother, href, hne⟩ := hsafe.notified send.ref (by simp [hstage]) handler
      ((getElem?_update hhandler).mpr (.inl ⟨rfl, rfl⟩)) hawaits
    refine hlast ?_
    simp only [List.mem_append, List.mem_cons] at hother
    obtain hother | rfl | hother := hother
    · obtain ⟨j, hj⟩ := List.mem_iff_getElem?.mp hother
      have hlt := (List.getElem?_eq_some_iff.mp hj).1
      refine ⟨j, other, by omega, ?_, href, hne⟩
      rw [hl, List.getElem?_append_left hlt, hj]
    · exact (hne rfl).elim
    · obtain ⟨j, hj⟩ := List.mem_iff_getElem?.mp hother
      refine ⟨l₁.length + (j + 1), other, by omega, ?_, href, hne⟩
      rw [hl, List.getElem?_append_right (by omega), Nat.add_sub_cancel_left,
        List.getElem?_cons_succ, hj]

/-- **Responses are handed over, or where it fails.**  After any run all of whose steps are timely,
no handler has returned before `SendResponse` was called for its request, and none is left waiting
for a notification that does not come.  A step that is not timely leads to a state where one has or
one is, at the latest when the handler that was woken takes its next step. -/
theorem hand_over {s : State} (h : system.Reachable State.Timely s) :
    s.Safe ∧
      ∀ a s', ¬ s.Timely a → s.step a = some s' →
        ¬ s'.Safe ∨ ∃ ref s'', s'.step (.handler ref) = some s'' ∧ ¬ s''.Safe := by
  have hinv := Inv.of_reachable h
  refine ⟨hinv.safe, fun a s' htimely hstep => ?_⟩
  cases a with
  | wake ref => exact .inr ⟨ref, hinv.returns_early htimely hstep⟩
  | send i => exact .inl (not_safe_of_lost htimely hstep)
  | generate | onRequest _ | handler _ | takeRequest | take _ | sendResponse _ _ =>
    exact (htimely trivial).elim

/-- One request that is answered while its handler waits. -/
theorem hand_over_one : ∃ s : State, s.service.handlers.map Handler.phase = [.returned] ∧
    s.consumed = [0] ∧ s.Safe := by
  have hwait : system.Reachable State.Timely _ :=
    .step (a := .handler 0) (.step (a := .handler 0) (.step (a := .handler 0)
      (.step (a := .onRequest (sequenceBytes 5)) .init trivial rfl) trivial rfl) trivial rfl)
      trivial rfl
  have hsend : system.Reachable State.Timely _ :=
    .step (a := .sendResponse [7] 0) (.step (a := .take 0) (.step (a := .take 0)
      (.step (a := .takeRequest) hwait trivial rfl) trivial rfl) trivial rfl) trivial rfl
  have h : system.Reachable State.Timely _ :=
    .step (a := .handler 0) (.step (a := .send 0) (.step (a := .send 0) hsend
      (fun _ _ h hstage => by cases h; cases hstage) rfl)
      (fun _ _ h _ hhandler _ => by cases h; cases hhandler; exact .inl rfl) rfl) trivial rfl
  exact ⟨_, rfl, rfl, (hand_over h).1⟩

/-- **A handler that waits for ever, and one that returns too early.**  The executor answers a
request before its handler has entered the wait, and the notification wakes nobody; and a handler
wakes for no reason and returns, before the executor has even seen the request. -/
theorem hand_over_fails :
    (∃ s : State, system.Reachable System.any s ∧ s.consumed = [0] ∧
      s.service.handlers.map Handler.phase = [.waiting] ∧ ¬ s.Safe) ∧
    ∃ s : State, system.Reachable System.any s ∧ s.called = [] ∧
      s.service.handlers.map Handler.phase = [.returned] ∧ ¬ s.Safe := by
  constructor
  · refine ⟨_, System.reachable_of_exec [.onRequest (sequenceBytes 5), .handler 0,
      .handler 0, .takeRequest, .take 0, .take 0, .sendResponse [7] 0, .send 0, .send 0, .send 0,
      .handler 0] rfl, rfl, rfl, fun h => ?_⟩
    obtain ⟨send, hmem, -⟩ := h.notified 0 (by decide) _ rfl ⟨nofun, nofun⟩
    cases hmem
  · refine ⟨_, System.reachable_of_exec [.onRequest (sequenceBytes 5), .handler 0,
      .handler 0, .handler 0, .wake 0, .handler 0] rfl, rfl, rfl, fun h => ?_⟩
    have hmem := h.returned 0 _ rfl rfl
    cases hmem

end HandOver

end RmwEcal
