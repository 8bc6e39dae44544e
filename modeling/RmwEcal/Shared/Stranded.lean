import RmwEcal.Shared.Answering

/-!
# Takes that throw

`TakeRequest`, `TakeResponse` and `TakeLatestDataWithInfo` take an item off their queue and then let
the type support look at it.  A type support may throw, and nobody puts the item back.

`TakeRequest` has also inserted the request into `current_requests_` by then.  Its id would have
been the result of the call, so that nobody knows it; and as long as the executor answers only
requests it knows, the handler waits for ever (`Stranded.waits`).
-/

set_option autoImplicit false

namespace RmwEcal

open Transition

variable {μ : Type}

/-! ## What is meant to hold -/

/-- `TakeLatestDataWithInfo` throws, and the queue is as before. -/
def Subscriber.StrandsNothing (deserialize : Deserialize μ) (s : Subscriber) (data : μ) : Prop :=
  ∃ s' left, s.takeLatestDataWithInfo deserialize data = some (s', left, none) ∧ s'.data = s.data

/-- `TakeResponse` throws, and the queue is as before. -/
def Client.StrandsNothing (deserialize : Deserialize μ) (c : Client) (data : μ) : Prop :=
  ∃ c' left, c.takeResponseInto deserialize data = some (c', left, none) ∧
    c'.responses = c.responses

/-- `TakeRequest` throws, and the queue and the map are as before. -/
def Service.StrandsNothing (deserialize : Deserialize μ) (s : Service) (data : μ) : Prop :=
  ∃ s' left, s.takeRequestInto deserialize data = some (s', left, none) ∧
    s'.pending = s.pending ∧ s'.current = s.current

/-! ## What does -/

namespace Stranded

section Throws

variable {deserialize : Deserialize μ} {data left : μ}

/-- **The request is gone**, and it is in the map. -/
theorem takeRequestInto_of_error {s : Service} {ref : ℕ} {rest : List ℕ}
    {handler : Service.Handler} {request : List UInt8} (hpending : s.pending = ref :: rest)
    (hhandler : s.deref ref = some handler) (hrequest : handler.getRequest = some request)
    (herror : deserialize request data = .error left) :
    s.takeRequestInto deserialize data =
      some ({ s with pending := rest, current := s.insertCurrent handler.requestId ref },
        left, none) := by
  rw [Service.takeRequestInto_eq deserialize hpending, hhandler, Option.bind_some, hrequest,
    Option.map_some, Deserialize.thenReturn_of_error herror]

/-- Whoever takes and throws has taken something. -/
theorem subscriber_not_strandsNothing (s : Subscriber) : ¬ s.StrandsNothing deserialize data := by
  rintro ⟨s', left, htake, heq⟩
  obtain ⟨item, hqueue, -⟩ := Subscriber.takeLatestDataWithInfo_cases htake
  exact List.cons_ne_self _ _ (hqueue.symm.trans heq.symm)

theorem client_not_strandsNothing (c : Client) : ¬ c.StrandsNothing deserialize data := by
  rintro ⟨c', left, htake, heq⟩
  obtain ⟨item, hqueue, -⟩ := Client.takeResponseInto_cases htake
  exact List.cons_ne_self _ _ (hqueue.symm.trans heq.symm)

theorem service_not_strandsNothing (s : Service) : ¬ s.StrandsNothing deserialize data := by
  rintro ⟨s', left, htake, heq, -⟩
  obtain ⟨ref, pending, handler, request, hpending, -, -, rfl, -⟩ :=
    Service.takeRequestInto_cases htake
  exact List.cons_ne_self _ _ (hpending.symm.trans heq.symm)

end Throws

/-! ## Handlers that wait for ever -/

open Answering

/-- Handlers are punctual, ids do not run out, and the executor answers only what it was handed. -/
def Honest (s : State) (a : Action) : Prop :=
  Regular s a ∧
    ∀ response requestId, a = .sendResponse response requestId →
      ∃ ref, (requestId, ref) ∈ s.handed

section Runs

variable {s : State} {ref : ℕ} {handler : Service.Handler}

/-- Only what was handed out is answered. -/
theorem answered_handed (h : system.Reachable Honest s) :
    ∀ ref ∈ s.answered, ref ∈ s.handed.map Prod.snd := by
  refine h.invariant_of (Q := fun s => Inv s ∧ Punctual s)
    (P := fun s => ∀ ref ∈ s.answered, ref ∈ s.handed.map Prod.snd)
    (fun s hr => ⟨Inv.of_reachable hr.any, Punctual.of_reachable (hr.mono fun _ _ h => h.1)⟩)
    (fun _ hmem => by cases hmem) ?_
  rintro s a s' ⟨hinv, hpunctual⟩ hprev ⟨-, hhonest⟩ hstep ref hmem
  cases a with
  | generate | onRequest request =>
    cases hstep
    exact hprev ref hmem
  | handler i =>
    obtain ⟨⟨service, response⟩, -, hstep⟩ := Option.bind_eq_some_iff.mp hstep
    cases hstep
    exact hprev ref hmem
  | wake i =>
    obtain ⟨service, -, hstep⟩ := Option.bind_eq_some_iff.mp hstep
    cases hstep
    exact hprev ref hmem
  | takeRequest throws =>
    obtain ⟨i, pending, handler, -, -, rfl⟩ := takeRequest_cases hstep
    have hold := hprev ref hmem
    cases throws with
    | true => exact hold
    | false =>
      rw [if_neg Bool.false_ne_true, List.map_append]
      exact List.mem_append_left _ hold
  | sendResponse response requestId =>
    obtain ⟨-, rfl⟩ | ⟨bytes, i, handler, -, hlookup, hget, rfl⟩ := sendResponse_cases hstep
    · exact hprev ref hmem
    obtain hmem | hmem := List.mem_append.mp hmem
    · exact hprev ref hmem
    · -- the id was handed out, and it belongs to one request only
      rw [List.mem_singleton.mp hmem]
      obtain ⟨j, hhanded⟩ := hhonest response requestId rfl
      obtain ⟨handler₀, hget₀, hid⟩ := hinv.current _ (mem_of_lookup hlookup)
      obtain rfl : j = i := hpunctual.eq_of_entry hget₀ (by rw [hid]; exact hinv.handed _ hhanded)
      exact List.mem_map_of_mem hhanded

/-- **A handler whose request was taken by a call that threw waits for ever**: its request is in the
map, under an id that was never handed out. -/
theorem waits (h : system.Reachable Honest s) (hstranded : ref ∈ s.stranded) :
    ∃ handler, s.service.handlers[ref]? = some handler ∧ handler.phase.Awaits ∧
      (handler.requestId, ref) ∈ s.service.current ∧ ∀ i, (handler.requestId, i) ∉ s.handed := by
  have hinv := Inv.of_reachable h.any
  have hpunctual := Punctual.of_reachable (h.mono fun _ _ h => h.1)
  have htaken : ref ∈ s.taken := List.mem_append_right _ hstranded
  -- it was not handed out, and so it was not answered
  have hnot : ref ∉ s.handed.map Prod.snd := by
    intro hmem
    have hnodup := (List.nodup_append.mp hinv.nodup).2.1
    exact (List.nodup_append.mp hnodup).2.2 ref hmem ref hstranded rfl
  have hunanswered : ref ∉ s.answered := fun hmem => hnot (answered_handed h ref hmem)
  obtain ⟨handler, hget, -⟩ := hinv.queued ref (List.mem_append_right _ htaken)
  refine ⟨handler, hget, ?_, ?_, fun i hhanded => ?_⟩
  · by_contra hpast
    exact hunanswered (hpunctual.past ref handler hget hpast)
  · exact (hpunctual.registered ref htaken handler hget).resolve_left hunanswered
  · obtain rfl : i = ref := hpunctual.eq_of_entry hget (hinv.handed _ hhanded)
    exact hnot (List.mem_map_of_mem hhanded)

/-- **What a take that throws does to a service at work.** -/
theorem takeRequest_strands {deserialize : Deserialize μ} {message left : μ} {rest : List ℕ}
    {request : List UInt8} (h : system.Reachable Regular s)
    (hpending : s.service.pending = ref :: rest) (hget : s.service.handlers[ref]? = some handler)
    (hrequest : handler.getRequest = some request)
    (herror : deserialize request message = .error left) :
    s.service.takeRequestInto deserialize message =
        some ({ s.service with
          pending := rest
          current := s.service.current ++ [(handler.requestId, ref)] }, left, none) ∧
      ∀ i, (handler.requestId, i) ∉ s.handed := by
  have hinv := Inv.of_reachable h.any
  have hpunctual := Punctual.of_reachable h
  have hlive : handler.phase ≠ .returned := by
    intro hreturned
    have hanswered := hpunctual.past ref handler hget fun hawaits => hawaits.2 hreturned
    exact hinv.not_taken hpending (hinv.answered ref hanswered)
  have hhandler : s.service.deref ref = some handler := by
    rw [Service.deref, hget, Option.bind_eq_bind, Option.bind_some, if_neg hlive]
  refine ⟨?_, fun i hhanded => ?_⟩
  · rw [takeRequestInto_of_error hpending hhandler hrequest herror,
      hpunctual.insertCurrent_eq hinv hpending hget]
  · obtain rfl : i = ref := hpunctual.eq_of_entry hget (hinv.handed _ hhanded)
    exact hinv.not_taken hpending (List.mem_append_left _ (List.mem_map_of_mem hhanded))

end Runs

/-- **A take that throws strands what it has taken.**  The queues are never as they were.  A request
that was taken so is in the map under an id that nobody was told, and its handler waits for ever. -/
theorem take_strands (deserialize : Deserialize μ) (message : μ) :
    ((∀ s : Subscriber, ¬ s.StrandsNothing deserialize message) ∧
      (∀ c : Client, ¬ c.StrandsNothing deserialize message) ∧
      ∀ s : Service, ¬ s.StrandsNothing deserialize message) ∧
    (∀ (s : State) (ref : ℕ) (rest : List ℕ) (handler : Service.Handler) (request : List UInt8)
      (left : μ), system.Reachable Regular s → s.service.pending = ref :: rest →
      s.service.handlers[ref]? = some handler → handler.getRequest = some request →
      deserialize request message = .error left →
      s.service.takeRequestInto deserialize message =
          some ({ s.service with
            pending := rest
            current := s.service.current ++ [(handler.requestId, ref)] }, left, none) ∧
        ∀ i, (handler.requestId, i) ∉ s.handed) ∧
    ∀ s, system.Reachable Honest s → ∀ ref ∈ s.stranded,
      ∃ handler, s.service.handlers[ref]? = some handler ∧ handler.phase.Awaits ∧
        (handler.requestId, ref) ∈ s.service.current ∧ ∀ i, (handler.requestId, i) ∉ s.handed :=
  ⟨⟨subscriber_not_strandsNothing, client_not_strandsNothing, service_not_strandsNothing⟩,
    fun _ _ _ _ _ _ h hpending hget hrequest herror =>
      takeRequest_strands h hpending hget hrequest herror,
    fun _ h _ hstranded => waits h hstranded⟩

/-- A type support for messages with a wide string behind a string, which it does not refuse before
it comes to one. -/
def refusing : Deserialize (List UInt8) := fun _ message => .error message

/-- A service after its first request has been queued. -/
def oneQueued : State :=
  ⟨⟨[⟨⟨sequenceBytes 5, 0, []⟩, .notifyWaitSet⟩], [0], [], [], []⟩, 1, [], [], []⟩

/-- And after it has been taken. -/
def oneStranded : State :=
  ⟨⟨[⟨⟨sequenceBytes 5, 0, []⟩, .notifyWaitSet⟩], [], [(0, 0)], [], []⟩, 1, [], [0], []⟩

theorem reachable_oneQueued : system.Reachable Honest oneQueued :=
  .step (a := .handler 0) (.step (a := .onRequest (sequenceBytes 5)) .init
    ⟨Nat.two_pow_pos 64, nofun⟩ rfl) ⟨trivial, nofun⟩ rfl

theorem reachable_oneStranded : system.Reachable Honest oneStranded :=
  .step (a := .takeRequest true) reachable_oneQueued ⟨trivial, nofun⟩ rfl

theorem take_strands_one :
    (∀ i, (0, i) ∉ oneQueued.handed) ∧
      ∃ handler, oneStranded.service.handlers[0]? = some handler ∧ handler.phase.Awaits ∧
        (handler.requestId, 0) ∈ oneStranded.service.current ∧
        ∀ i, (handler.requestId, i) ∉ oneStranded.handed :=
  have h := take_strands refusing []
  ⟨(h.2.1 oneQueued 0 [] _ [] [] (reachable_oneQueued.mono fun _ _ h => h.1) rfl rfl rfl rfl).2,
    h.2.2 oneStranded reachable_oneStranded 0 (.head _)⟩

/-- **A request that nobody can answer.**  It was taken by a call that threw; the queue is empty,
and the map has an entry that was not there before. -/
theorem take_not_undone :
    system.Reachable Honest oneQueued ∧
      oneQueued.service.takeRequestInto refusing [] = some (oneStranded.service, [], none) ∧
      ¬ oneQueued.service.StrandsNothing refusing [] := by
  refine ⟨reachable_oneQueued, rfl, ?_⟩
  rintro ⟨s', left, htake, hpending, -⟩
  cases htake
  cases hpending

end Stranded

end RmwEcal
