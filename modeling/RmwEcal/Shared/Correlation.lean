import RmwEcal.Shared.World

/-!
# Which response goes with which request

A client knows a request by the sequence number it drew for it, the service by the id that its
handler drew.  The number travels behind the request, and back behind the response; the id never
leaves the service.

What is delivered to a client is what it should be, in any world: if `TakeResponse` returns a number
and a response, the client sent a request with this number, and the response is what the service
answered to this very request (`World.correlated`).  Nothing is said of whether there is a response
at all, or only one: see `StopAndWait` and `HandOver`.

## How the proof goes

The events in the log are never taken back.  So whatever is under way is described by the events
behind it (`Log.Requests` on the way to the service, `Log.Replies` on the way back), and such a
description stays true.  In the service an id leads to one handler and stays with it, which is what
takes the one to the other (`Serving.replies`).
-/

set_option autoImplicit false

namespace RmwEcal

open Transition Service

section Correlation

variable {Req Res : Type} (ts : ServiceTypeSupport Req Res) (processOf : ℕ → ℕ)

/-! ## What is meant to hold -/

namespace Log

variable (log : Log Req Res)

/-- The bytes of a request that a client has sent. -/
def Requests (client : ℕ) (data : List UInt8) : Prop :=
  ∃ sent ∈ log.sent, sent.client = client ∧ sent.sequenceNumber < 2 ^ 64 ∧
    data = ts.serializeRequest sent.request ++ sequenceBytes sent.sequenceNumber

/-- The bytes of a response to a request that a client has sent with some number: `TakeRequest`
returned an id with the request, and `SendResponse` was called with this id and the response. -/
def Answers (client sequenceNumber : ℕ) (data : List UInt8) : Prop :=
  ∃ sent ∈ log.sent, ∃ taken ∈ log.taken, ∃ answered ∈ log.answered,
    sent.client = client ∧ sent.sequenceNumber = sequenceNumber ∧
    taken.client = client ∧
    taken.request = ts.serializeRequest sent.request ++ sequenceBytes sequenceNumber ∧
    taken.data = ts.serializeRequest sent.request ∧
    answered.requestId = taken.requestId ∧ data = ts.serializeResponse answered.response

/-- Such a response with the number behind it. -/
def Replies (client : ℕ) (data : List UInt8) : Prop :=
  ∃ sequenceNumber response, sequenceNumber < 2 ^ 64 ∧
    data = response ++ sequenceBytes sequenceNumber ∧ log.Answers ts client sequenceNumber response

/-- Everything that has happened in one log has happened in the other. -/
structure Extends (log log' : Log Req Res) : Prop where
  /-- The same was sent. -/
  sent : log.sent ⊆ log'.sent
  /-- The same was taken. -/
  taken : log.taken ⊆ log'.taken
  /-- The same was answered. -/
  answered : log.answered ⊆ log'.answered

variable {ts} {log} {log' : Log Req Res}

theorem Extends.refl : log.Extends log :=
  ⟨List.Subset.refl _, List.Subset.refl _, List.Subset.refl _⟩

theorem Requests.mono (hle : log.Extends log') {client : ℕ} {data : List UInt8}
    (h : log.Requests ts client data) : log'.Requests ts client data := by
  obtain ⟨sent, hmem, h⟩ := h
  exact ⟨sent, hle.sent hmem, h⟩

theorem Answers.mono (hle : log.Extends log') {client sequenceNumber : ℕ} {data : List UInt8}
    (h : log.Answers ts client sequenceNumber data) :
    log'.Answers ts client sequenceNumber data := by
  obtain ⟨sent, hsent, taken, htaken, answered, hanswered, h⟩ := h
  exact ⟨sent, hle.sent hsent, taken, hle.taken htaken, answered, hle.answered hanswered, h⟩

theorem Replies.mono (hle : log.Extends log') {client : ℕ} {data : List UInt8}
    (h : log.Replies ts client data) : log'.Replies ts client data := by
  obtain ⟨sequenceNumber, response, hlt, hdata, h⟩ := h
  exact ⟨sequenceNumber, response, hlt, hdata, h.mono hle⟩

end Log

namespace World

/-- A world in which clients get the responses to their requests, and it is clear which. -/
structure Correlated (w : World Req Res) : Prop where
  /-- A client gets what the service answered to the request it sent with this number. -/
  delivered : ∀ d ∈ w.delivered, w.log.Answers ts d.client d.sequenceNumber d.data
  /-- No process uses a number twice. -/
  sent_unique : ∀ sent ∈ w.log.sent, ∀ sent' ∈ w.log.sent,
    processOf sent.client = processOf sent'.client →
    sent.sequenceNumber = sent'.sequenceNumber → sent = sent'
  /-- The service uses no id twice. -/
  taken_unique : ∀ taken ∈ w.log.taken, ∀ taken' ∈ w.log.taken,
    taken.requestId = taken'.requestId → taken = taken'
  /-- There is one answer to an id. -/
  answered_unique : ∀ answered ∈ w.log.answered, ∀ answered' ∈ w.log.answered,
    answered.requestId = answered'.requestId → answered = answered'

/-- What is asked of the steps: counters are far from their end, a handler wakes only after its
response was consumed, and an id that was taken is answered once. -/
def Regular (w : World Req Res) : Action Req Res → Prop
  | .sendRequest c _ => w.sequenceNumbers (processOf c) < 2 ^ 63
  | .onRequest _ => w.requestIds < 2 ^ 63
  | .wake ref => ref ∈ w.consumed
  | .sendResponse _ requestId =>
    (∃ taken ∈ w.log.taken, taken.requestId = requestId) ∧
      ∀ answered ∈ w.log.answered, answered.requestId ≠ requestId
  | _ => True

instance (w : World Req Res) (a : Action Req Res) : Decidable (w.Regular processOf a) :=
  match a with
  | .sendRequest _ _ | .onRequest _ => Nat.decLt _ _
  | .wake _ => List.instDecidableMemOfLawfulBEq _ _
  | .sendResponse _ _ => instDecidableAnd
  | .generateSequenceNumber _ | .generateRequestId | .enqueueRequest _ _ | .handler _
  | .takeRequest | .take _ | .send _ | .onResponse _ | .callback _ _ | .takeResponse _ =>
    isTrue trivial

end World

/-! ## Clients -/

/-- What is inside a client comes from what it has sent and goes to what it takes. -/
structure Calling (log : Log Req Res) (c : ℕ) (client : Client) : Prop where
  /-- Threads in `EnqueueRequest` have requests. -/
  sending : ∀ request ∈ client.sending, log.Requests ts c request.data
  /-- There are requests on the queue. -/
  requests : ∀ request ∈ client.requests, log.Requests ts c request.data
  /-- Callbacks have replies. -/
  callbacks : ∀ callback ∈ client.callbacks, log.Replies ts c callback.response
  /-- There are responses to be taken. -/
  responses : ∀ response ∈ client.responses,
    log.Answers ts c response.sequenceNumber response.data

section Clients

variable {ts} {log log' : Log Req Res} {c : ℕ} {client client' : Client}

theorem Calling.mono (hle : log.Extends log') (h : Calling ts log c client) :
    Calling ts log' c client where
  sending request hmem := (h.sending request hmem).mono hle
  requests request hmem := (h.requests request hmem).mono hle
  callbacks callback hmem := (h.callbacks callback hmem).mono hle
  responses response hmem := (h.responses response hmem).mono hle

/-- What is called is a request that was sent. -/
theorem Calling.enqueueRequest {i : ℕ} {call : Option (List UInt8)} (h : Calling ts log c client)
    (hstep : client.enqueueRequest i = some (client', call)) :
    Calling ts log c client' ∧ ∀ data ∈ call, log.Requests ts c data := by
  obtain ⟨request, hget, rfl, hcall⟩ := Client.enqueueRequest_cases hstep
  have hrequest := h.sending request (List.mem_of_getElem? hget)
  refine ⟨⟨fun r hmem => h.sending r (List.mem_of_mem_eraseIdx hmem), fun r hmem => ?_,
    h.callbacks, h.responses⟩, fun data hmem => ?_⟩
  · obtain hmem | hmem := List.mem_append.mp hmem
    · exact h.requests r hmem
    · rw [List.mem_singleton.mp hmem]
      exact hrequest
  · obtain ⟨-, rfl⟩ | ⟨-, rfl⟩ := hcall
    · cases hmem
      exact hrequest
    · cases hmem

/-- What enters `responses_` answers a request that was sent. -/
theorem Calling.stepCallback {i : ℕ} {call : Option (List UInt8)} (h : Calling ts log c client)
    (hstep : client.stepCallback i = some (client', call)) :
    Calling ts log c client' ∧ ∀ data ∈ call, log.Requests ts c data := by
  obtain ⟨l₁, l₂, stage, response, hget, hl, hcases⟩ := Client.stepCallback_cases hstep
  have hreply : log.Replies ts c response := h.callbacks _ (List.mem_of_getElem? hget)
  have hmove : ∀ stage', ∀ callback ∈ l₁ ++ ⟨stage', response⟩ :: l₂,
      log.Replies ts c callback.response := by
    intro stage' callback hmem
    obtain hmem | rfl | hmem := by simpa only [List.mem_append, List.mem_cons] using hmem
    · exact h.callbacks callback (by rw [hl]; exact List.mem_append_left _ hmem)
    · exact hreply
    · exact h.callbacks callback (by
        rw [hl]
        exact List.mem_append_right _ (List.mem_cons_of_mem _ hmem))
  cases hcases with
  | @enqueueResponse size n hsize hn =>
    refine ⟨⟨h.sending, h.requests, hmove _, fun r hmem => ?_⟩, nofun⟩
    obtain hmem | hmem := List.mem_append.mp hmem
    · exact h.responses r hmem
    · obtain ⟨sequenceNumber, data, hlt, rfl, hanswers⟩ := hreply
      rw [getSequenceDataSize_append, Option.some_inj] at hsize
      rw [getSequenceNumber_append hlt, Option.some_inj] at hn
      rw [List.mem_singleton.mp hmem, ← hsize, ← hn, List.take_left]
      exact hanswers
  | notifyWaitSet => exact ⟨⟨h.sending, h.requests, hmove _, h.responses⟩, nofun⟩
  | popLastRequest hrequests =>
    refine ⟨⟨h.sending, fun r hmem => h.requests r ?_, hmove _, h.responses⟩, nofun⟩
    rw [hrequests]
    exact List.mem_cons_of_mem _ hmem
  | performNextRequest =>
    refine ⟨⟨h.sending, h.requests, fun callback hmem => h.callbacks callback ?_, h.responses⟩,
      fun data hmem => ?_⟩
    · rw [hl]
      exact mem_of_mem_remove hmem
    · obtain ⟨request, hhead, rfl⟩ := Option.map_eq_some_iff.mp hmem
      exact h.requests request (List.mem_of_mem_head? hhead)

/-- What is taken answers a request that was sent. -/
theorem Calling.takeResponse {response : Client.Response} (h : Calling ts log c client)
    (hstep : client.takeResponse = some (client', response)) :
    Calling ts log c client' ∧ log.Answers ts c response.sequenceNumber response.data := by
  cases hr : client.responses with
  | nil => rw [Client.takeResponse, hr] at hstep; cases hstep
  | cons first responses =>
    rw [Client.takeResponse, hr] at hstep
    cases hstep
    have hall : ∀ r ∈ response :: responses, log.Answers ts c r.sequenceNumber r.data :=
      hr ▸ h.responses
    exact ⟨⟨h.sending, h.requests, h.callbacks, fun r hmem => hall r (List.mem_cons_of_mem _ hmem)⟩,
      hall response List.mem_cons_self⟩

end Clients

/-! ## The service -/

/-- The response of a request is the answer to its id. -/
def Log.Assigned (log : Log Req Res) (handler : Handler) : Prop :=
  ∃ answered ∈ log.answered, answered.requestId = handler.requestId ∧
    handler.response = ts.serializeResponse answered.response

/-- A response has been put into a request: the handler has come out of the wait, or a thread in
`SendResponse` has got this far, or further. -/
def Ready (service : Service) (consumed : List ℕ) (ref : ℕ) (handler : Handler) : Prop :=
  ¬ handler.phase.Awaits ∨ ref ∈ consumed ∨
    ∃ send ∈ service.sends, send.ref = ref ∧ send.stage ≠ .assignResponse

/-- What is inside the service comes from what clients have sent and goes to what they get. -/
structure Serving (log : Log Req Res) (origins consumed : List ℕ) (requestIds : ℕ)
    (service : Service) : Prop where
  /-- Every activation of `OnRequest` is for a request that some client sent. -/
  handlers : ∀ (ref : ℕ) (handler : Handler), service.handlers[ref]? = some handler →
    ∃ c, origins[ref]? = some c ∧ log.Requests ts c handler.request
  /-- There is an activation for every call that has come. -/
  length_origins : origins.length = service.handlers.length
  /-- Its id has been drawn. -/
  ids_lt : ∀ (ref : ℕ) (handler : Handler), service.handlers[ref]? = some handler →
    handler.requestId < requestIds
  /-- No two activations have the same id. -/
  ids_inj : ∀ (ref ref' : ℕ) (handler handler' : Handler), service.handlers[ref]? = some handler →
    service.handlers[ref']? = some handler' → handler.requestId = handler'.requestId → ref = ref'
  /-- `current_requests_` leads from an id to the request that has it. -/
  current : ∀ entry ∈ service.current, ∃ handler,
    service.handlers[entry.2]? = some handler ∧ handler.requestId = entry.1
  /-- So do threads in `SendResponse`. -/
  sends : ∀ send ∈ service.sends, ∃ handler,
    service.handlers[send.ref]? = some handler ∧ handler.requestId = send.requestId
  /-- They have the answer to their id. -/
  sends_answered : ∀ send ∈ service.sends, ∃ answered ∈ log.answered,
    answered.requestId = send.requestId ∧ send.response = ts.serializeResponse answered.response
  /-- Where a response has been put, it is the right one. -/
  ready : ∀ ref handler, service.handlers[ref]? = some handler →
    Ready service consumed ref handler → log.Assigned ts handler
  /-- Responses were consumed by handlers. -/
  consumed_lt : ∀ ref ∈ consumed, ref < service.handlers.length
  /-- What was taken is what a handler has. -/
  taken : ∀ taken ∈ log.taken, ∃ (ref : ℕ) (handler : Handler),
    service.handlers[ref]? = some handler ∧ origins[ref]? = some taken.client ∧
      handler.requestId = taken.requestId ∧ handler.request = taken.request ∧
      handler.getRequest = some taken.data
  /-- What was answered had been taken. -/
  answered : ∀ answered ∈ log.answered, ∃ taken ∈ log.taken, taken.requestId = answered.requestId

section Service

variable {ts} {log log' : Log Req Res} {origins consumed : List ℕ} {requestIds : ℕ}
  {service service' : Service}

/-- **From an id to the request it was taken with.** -/
theorem Serving.taken_eq (h : Serving ts log origins consumed requestIds service) {ref : ℕ}
    {handler : Handler} (hget : service.handlers[ref]? = some handler) {taken : Taken}
    (hmem : taken ∈ log.taken) (hid : taken.requestId = handler.requestId) :
    origins[ref]? = some taken.client ∧ taken.request = handler.request ∧
      handler.getRequest = some taken.data := by
  obtain ⟨ref', handler', hget', hclient, hid', hrequest, hdata⟩ := h.taken taken hmem
  obtain rfl := h.ids_inj ref ref' handler handler' hget hget' (by rw [hid', hid])
  obtain rfl : handler = handler' := by rw [hget] at hget'; exact Option.some_inj.mp hget'
  exact ⟨hclient, hrequest.symm, hdata⟩

theorem Serving.taken_unique (h : Serving ts log origins consumed requestIds service)
    {taken taken' : Taken} (hmem : taken ∈ log.taken) (hmem' : taken' ∈ log.taken)
    (hid : taken.requestId = taken'.requestId) : taken = taken' := by
  obtain ⟨ref, handler, hget, hclient, hid', hrequest, hdata⟩ := h.taken taken hmem
  obtain ⟨hclient', hrequest', hdata'⟩ := h.taken_eq hget hmem' (by rw [hid', hid])
  rw [hclient, Option.some_inj] at hclient'
  rw [hdata, Option.some_inj] at hdata'
  cases taken
  cases taken'
  simp_all

/-- **What a handler returns.** -/
theorem Serving.replies (h : Serving ts log origins consumed requestIds service) {ref c : ℕ}
    {handler : Handler} {data : List UInt8} (hget : service.handlers[ref]? = some handler)
    (hphase : ¬ handler.phase.Awaits) (hclient : origins[ref]? = some c)
    (hreply : reply handler.request handler.response = some data) : log.Replies ts c data := by
  obtain ⟨c', hc', sent, hsent, hfrom, hlt, hrequest⟩ := h.handlers ref handler hget
  obtain rfl : c = c' := by rw [hclient] at hc'; exact Option.some_inj.mp hc'
  obtain ⟨answered, hanswered, hid, hresponse⟩ := h.ready ref handler hget (.inl hphase)
  obtain ⟨taken, htaken, hid'⟩ := h.answered answered hanswered
  obtain ⟨hc, htr, htd⟩ := h.taken_eq hget htaken (by rw [hid', hid])
  rw [hclient, Option.some_inj] at hc
  rw [Request.getRequest, hrequest, getSequenceDataSize_append, Option.bind_eq_bind,
    Option.bind_some, List.take_left, Option.some_inj] at htd
  rw [reply, hrequest, getSequenceNumber_append hlt, Option.map_some, Option.some_inj] at hreply
  exact ⟨sent.sequenceNumber, handler.response, hlt, hreply.symm, sent, hsent, taken, htaken,
    answered, hanswered, hfrom, rfl, hc.symm, by rw [htr, hrequest], htd.symm, by rw [hid'],
    hresponse⟩

/-- **A handler moves.**  Its request stays what it was, and its response is right if there is to
be one. -/
theorem Serving.update (h : Serving ts log origins consumed requestIds service) {ref : ℕ}
    {handler : Handler} (handler' : Handler) (hget : service.handlers[ref]? = some handler)
    (hid : handler'.requestId = handler.requestId) (hrequest : handler'.request = handler.request)
    (hready : Ready service consumed ref handler' → log.Assigned ts handler') :
    Serving ts log origins consumed requestIds (service.update ref handler') := by
  have hold : ∀ {ref' : ℕ} {other : Handler},
      (service.update ref handler').handlers[ref']? = some other → ∃ before,
        service.handlers[ref']? = some before ∧ other.requestId = before.requestId ∧
          other.request = before.request := by
    intro ref' other hother
    obtain ⟨rfl, rfl⟩ | ⟨-, hother⟩ := (getElem?_update hget).mp hother
    · exact ⟨handler, hget, hid, hrequest⟩
    · exact ⟨other, hother, rfl, rfl⟩
  refine ⟨fun ref' other hother => ?_, ?_, fun ref' other hother => ?_,
    fun ref₁ ref₂ hd₁ hd₂ hget₁ hget₂ heq => ?_,
    fun entry hmem => exists_update hget hid (h.current entry hmem),
    fun send hmem => exists_update hget hid (h.sends send hmem), h.sends_answered,
    fun ref' other hother hr => ?_, fun ref' hmem => ?_, fun taken hmem => ?_, h.answered⟩
  · obtain ⟨before, hbefore, -, hreq⟩ := hold hother
    rw [hreq]
    exact h.handlers ref' before hbefore
  · rw [Service.update, List.length_set]
    exact h.length_origins
  · obtain ⟨before, hbefore, hids, -⟩ := hold hother
    rw [hids]
    exact h.ids_lt ref' before hbefore
  · obtain ⟨before₁, hbefore₁, hids₁, -⟩ := hold hget₁
    obtain ⟨before₂, hbefore₂, hids₂, -⟩ := hold hget₂
    exact h.ids_inj ref₁ ref₂ before₁ before₂ hbefore₁ hbefore₂ (by rw [← hids₁, ← hids₂, heq])
  · obtain ⟨rfl, rfl⟩ | ⟨-, hother⟩ := (getElem?_update hget).mp hother
    · exact hready hr
    · exact h.ready ref' other hother hr
  · rw [Service.update, List.length_set]
    exact h.consumed_lt ref' hmem
  · obtain ⟨ref', before, hbefore, hc, hids, hreq, hdata⟩ := h.taken taken hmem
    by_cases heq : ref' = ref
    · subst heq
      obtain rfl : handler = before := by rw [hget] at hbefore; exact Option.some_inj.mp hbefore
      refine ⟨ref', handler', (getElem?_update hget).mpr (.inl ⟨rfl, rfl⟩), hc, hid.trans hids,
        hrequest.trans hreq, ?_⟩
      rw [← hdata, Request.getRequest, Request.getRequest, hrequest]
    · exact ⟨ref', before, (getElem?_update hget).mpr (.inr ⟨heq, hbefore⟩), hc, hids, hreq, hdata⟩

/-- **A handler takes its next step.** -/
theorem Serving.stepHandler (h : Serving ts log origins consumed requestIds service) {ref c : ℕ}
    {response : Option (List UInt8)} (hclient : origins[ref]? = some c)
    (hstep : service.stepHandler ref = some (service', response)) :
    Serving ts log origins consumed requestIds service' ∧
      ∀ data ∈ response, log.Replies ts c data := by
  obtain ⟨handler, hget, hcases⟩ := stepHandler_cases hstep
  have hready := h.ready ref handler hget
  -- nothing becomes ready while the handler is on its way to the wait
  have hback : ∀ phase : Phase, phase.Awaits → handler.phase.Awaits →
      Ready service consumed ref { handler with phase := phase } →
      log.Assigned ts { handler with phase := phase } := by
    intro phase hphase _ hr
    obtain hr | hr := hr
    · exact (hr hphase).elim
    · exact hready (.inr hr)
  cases hcases with
  | enqueueRequest hphase =>
    have hserving := h.update { handler with phase := .notifyWaitSet } hget rfl rfl
      (hback _ ⟨nofun, nofun⟩ (by rw [hphase]; exact ⟨nofun, nofun⟩))
    exact ⟨⟨hserving.handlers, hserving.length_origins, hserving.ids_lt, hserving.ids_inj,
      hserving.current, hserving.sends, hserving.sends_answered, hserving.ready,
      hserving.consumed_lt, hserving.taken, hserving.answered⟩, nofun⟩
  | notifyWaitSet hphase | waitForResponse hphase =>
    exact ⟨h.update _ hget rfl rfl
      (hback _ ⟨nofun, nofun⟩ (by rw [hphase]; exact ⟨nofun, nofun⟩)), nofun⟩
  | @getResponse hphase data hreply =>
    have hpast : ¬ handler.phase.Awaits := fun hawaits => hawaits.1 hphase
    refine ⟨h.update _ hget rfl rfl fun _ => hready (.inl hpast), fun data' hmem => ?_⟩
    cases hmem
    exact h.replies hget hpast hclient hreply

/-- **A call comes.** -/
theorem Serving.onRequest (h : Serving ts log origins consumed requestIds service) {c : ℕ}
    {request : List UInt8} (hrequest : log.Requests ts c request) :
    Serving ts log (origins ++ [c]) consumed (requestIds + 1)
      (service.onRequest requestIds request) := by
  have hkeep : ∀ {ref : ℕ} {a : ℕ}, origins[ref]? = some a → (origins ++ [c])[ref]? = some a := by
    intro ref a ha
    rw [List.getElem?_append_left (List.getElem?_eq_some_iff.mp ha).1, ha]
  refine ⟨fun ref other hother => ?_, ?_, fun ref other hother => ?_,
    fun ref₁ ref₂ hd₁ hd₂ hget₁ hget₂ heq => ?_, fun entry hmem => ?_, fun send hmem => ?_,
    h.sends_answered, fun ref other hother hr => ?_, fun ref hmem => ?_, fun taken hmem => ?_,
    h.answered⟩
  · obtain ⟨rfl, rfl⟩ | hother := getElem?_onRequest.mp hother
    · refine ⟨c, ?_, hrequest⟩
      rw [← h.length_origins, List.getElem?_append_right (Nat.le_refl _), Nat.sub_self]
      rfl
    · obtain ⟨a, ha, hreq⟩ := h.handlers ref other hother
      exact ⟨a, hkeep ha, hreq⟩
  · simp only [Service.onRequest, List.length_append, List.length_singleton, h.length_origins]
  · obtain ⟨-, rfl⟩ | hother := getElem?_onRequest.mp hother
    · exact Nat.lt_succ_self requestIds
    · exact Nat.lt_succ_of_lt (h.ids_lt ref other hother)
  · obtain ⟨rfl, rfl⟩ | hget₁ := getElem?_onRequest.mp hget₁ <;>
      obtain ⟨rfl, rfl⟩ | hget₂ := getElem?_onRequest.mp hget₂
    · rfl
    · exact absurd heq.symm (Nat.ne_of_lt (h.ids_lt ref₂ hd₂ hget₂))
    · exact absurd heq (Nat.ne_of_lt (h.ids_lt ref₁ hd₁ hget₁))
    · exact h.ids_inj ref₁ ref₂ hd₁ hd₂ hget₁ hget₂ heq
  · obtain ⟨other, hother, hid⟩ := h.current entry hmem
    exact ⟨other, getElem?_onRequest.mpr (.inr hother), hid⟩
  · obtain ⟨other, hother, hid⟩ := h.sends send hmem
    exact ⟨other, getElem?_onRequest.mpr (.inr hother), hid⟩
  · obtain ⟨rfl, rfl⟩ | hother := getElem?_onRequest.mp hother
    · -- nobody has heard of the new handler
      obtain hr | hr | ⟨send, hmem, href, -⟩ := hr
      · exact (hr Phase.awaits_enqueueRequest).elim
      · exact absurd (h.consumed_lt _ hr) (Nat.lt_irrefl _)
      · obtain ⟨other, hother, -⟩ := h.sends send hmem
        rw [href] at hother
        exact absurd (List.getElem?_eq_some_iff.mp hother).1 (Nat.lt_irrefl _)
    · exact h.ready ref other hother hr
  · have hlt := h.consumed_lt ref hmem
    simp only [Service.onRequest, List.length_append]
    omega
  · obtain ⟨ref, other, hother, hc, hrest⟩ := h.taken taken hmem
    exact ⟨ref, other, getElem?_onRequest.mpr (.inr hother), hkeep hc, hrest⟩

/-- **A thread in `TakeRequest` takes its next step.** -/
theorem Serving.stepTake (h : Serving ts log origins consumed requestIds service) {i c : ℕ}
    {take : Take} {handler : Handler} {taken : Option (ℕ × List UInt8)}
    (htake : service.takes[i]? = some take) (hget : service.handlers[take.ref]? = some handler)
    (hclient : origins[take.ref]? = some c)
    (hstep : service.stepTake i = some (service', taken)) :
    Serving ts { log with
      taken := log.taken ++ taken.toList.map fun t => ⟨t.1, t.2, c, handler.request⟩ }
      origins consumed requestIds service' := by
  obtain ⟨l₁, l₂, ref, stage, handler', htake', -, hget', hcases⟩ := stepTake_cases hstep
  obtain rfl : take = ⟨ref, stage⟩ := by rw [htake] at htake'; exact Option.some_inj.mp htake'
  obtain rfl : handler = handler' := by rw [hget] at hget'; exact Option.some_inj.mp hget'
  cases hcases with
  | insertCurrent hcurrent =>
    simp only [Option.toList_none, List.map_nil, List.append_nil]
    refine ⟨h.handlers, h.length_origins, h.ids_lt, h.ids_inj, fun entry hmem => ?_, h.sends,
      h.sends_answered, h.ready, h.consumed_lt, h.taken, h.answered⟩
    obtain hmem | rfl := hcurrent entry hmem
    · exact h.current entry hmem
    · exact ⟨handler, hget, rfl⟩
  | @deserializeRequest data hdata =>
    have hle : log.Extends { log with taken := log.taken ++
        [⟨handler.requestId, data, c, handler.request⟩] } :=
      ⟨List.Subset.refl _, List.subset_append_left _ _, List.Subset.refl _⟩
    refine ⟨fun ref' other hother => ?_, h.length_origins, h.ids_lt, h.ids_inj, h.current, h.sends,
      h.sends_answered, h.ready, h.consumed_lt, fun t hmem => ?_, fun a hmem => ?_⟩
    · obtain ⟨a, ha, hreq⟩ := h.handlers ref' other hother
      exact ⟨a, ha, hreq.mono hle⟩
    · obtain hmem | hmem := List.mem_append.mp hmem
      · exact h.taken t hmem
      · rw [List.mem_singleton.mp hmem]
        exact ⟨ref, handler, hget, hclient, rfl, rfl, hdata⟩
    · obtain ⟨t, hmem', hid⟩ := h.answered a hmem
      exact ⟨t, List.mem_append_left _ hmem', hid⟩

/-- **A thread calls `SendResponse`.** -/
theorem Serving.sendResponse (h : Serving ts log origins consumed requestIds service)
    {response : Res}
    {requestId : ℕ} (htaken : ∃ taken ∈ log.taken, taken.requestId = requestId)
    (hstep : service.sendResponse (ts.serializeResponse response) requestId = some service') :
    Serving ts { log with answered := log.answered ++ [⟨requestId, response⟩] }
      origins consumed requestIds service' := by
  obtain ⟨ref, -, hcurrent, rfl⟩ := sendResponse_cases hstep
  have hle : log.Extends { log with answered := log.answered ++ [⟨requestId, response⟩] } :=
    ⟨List.Subset.refl _, List.Subset.refl _, List.subset_append_left _ _⟩
  refine ⟨fun ref' other hother => ?_, h.length_origins, h.ids_lt, h.ids_inj, h.current,
    fun send hmem => ?_, fun send hmem => ?_, fun ref' other hother hr => ?_, h.consumed_lt, h.taken,
    fun a hmem => ?_⟩
  · obtain ⟨a, ha, hreq⟩ := h.handlers ref' other hother
    exact ⟨a, ha, hreq.mono hle⟩
  · obtain hmem | hmem := List.mem_append.mp hmem
    · exact h.sends send hmem
    · rw [List.mem_singleton.mp hmem]
      exact h.current _ hcurrent
  · obtain hmem | hmem := List.mem_append.mp hmem
    · obtain ⟨a, ha, hrest⟩ := h.sends_answered send hmem
      exact ⟨a, List.mem_append_left _ ha, hrest⟩
    · rw [List.mem_singleton.mp hmem]
      exact ⟨⟨requestId, response⟩, List.mem_append_right _ (List.mem_singleton.mpr rfl), rfl, rfl⟩
  · have hr' : Ready service consumed ref' other := by
      obtain hr | hr | ⟨send, hmem, href, hstage⟩ := hr
      · exact .inl hr
      · exact .inr (.inl hr)
      · obtain hmem | hmem := List.mem_append.mp hmem
        · exact .inr (.inr ⟨send, hmem, href, hstage⟩)
        · rw [List.mem_singleton.mp hmem] at hstage
          exact (hstage rfl).elim
    obtain ⟨a, ha, hrest⟩ := h.ready ref' other hother hr'
    exact ⟨a, List.mem_append_left _ ha, hrest⟩
  · obtain hmem | hmem := List.mem_append.mp hmem
    · exact h.answered a hmem
    · rw [List.mem_singleton.mp hmem]
      exact htaken

/-- **A response goes one step further**, when it has been put into its request. -/
theorem Serving.sends_modify (h : Serving ts log origins consumed requestIds service)
    {l₁ l₂ : List Send} {send : Send} (send' : Send) {consumed' : List ℕ}
    (hl : service.sends = l₁ ++ send :: l₂) (hid : send'.requestId = send.requestId)
    (href : send'.ref = send.ref) (hresponse : send'.response = send.response)
    (hconsumed : ∀ ref ∈ consumed', ref ∈ consumed ∨ ref = send.ref)
    (hready : ∀ handler, service.handlers[send.ref]? = some handler → log.Assigned ts handler) :
    Serving ts log origins consumed' requestIds { service with sends := l₁ ++ send' :: l₂ } := by
  have hsend : send ∈ service.sends := by rw [hl]; simp
  have hold : ∀ {other : Send}, other ∈ l₁ ++ send' :: l₂ →
      other ∈ service.sends ∨ other = send' := by
    intro other hmem
    rw [hl]
    exact mem_replace hmem
  refine ⟨h.handlers, h.length_origins, h.ids_lt, h.ids_inj, h.current, fun other hmem => ?_,
    fun other hmem => ?_, fun ref handler hget hr => ?_, fun ref hmem => ?_, h.taken, h.answered⟩
  · obtain hmem | rfl := hold hmem
    · exact h.sends other hmem
    · rw [hid, href]
      exact h.sends send hsend
  · obtain hmem | rfl := hold hmem
    · exact h.sends_answered other hmem
    · rw [hid, hresponse]
      exact h.sends_answered send hsend
  · by_cases heq : ref = send.ref
    · subst heq
      exact hready handler hget
    · refine h.ready ref handler hget ?_
      obtain hr | hr | ⟨other, hmem, rfl, hstage⟩ := hr
      · exact .inl hr
      · exact .inr (.inl ((hconsumed ref hr).resolve_right heq))
      · obtain hmem | rfl := hold hmem
        · exact .inr (.inr ⟨other, hmem, rfl, hstage⟩)
        · exact (heq href).elim
  · obtain hmem | rfl := hconsumed ref hmem
    · exact h.consumed_lt ref hmem
    · obtain ⟨handler, hget, -⟩ := h.sends send hsend
      exact (List.getElem?_eq_some_iff.mp hget).1

/-- **A thread in `SendResponse` takes its next step.** -/
theorem Serving.stepSend (h : Serving ts log origins consumed requestIds service) {i : ℕ}
    {send : Send} (hget : service.sends[i]? = some send)
    (hstep : service.stepSend i = some service') :
    Serving ts log origins
      (if send.stage = .notifyOne then consumed ++ [send.ref] else consumed) requestIds service' := by
  obtain ⟨l₁, l₂, send', hget', hl, -, hcases⟩ := stepSend_cases hstep
  obtain rfl : send = send' := by rw [hget] at hget'; exact Option.some_inj.mp hget'
  have hmem := List.mem_of_getElem? hget
  generalize hstage : send.stage = stage at hcases ⊢
  cases hcases with
  | @assignResponse handler hhandler _ =>
    obtain ⟨answered, hanswered, hid, hresponse⟩ := h.sends_answered send hmem
    obtain ⟨other, hother, hother_id⟩ := h.sends send hmem
    obtain rfl : handler = other := by rw [hhandler] at hother; exact Option.some_inj.mp hother
    have hassigned : log.Assigned ts { handler with response := send.response } :=
      ⟨answered, hanswered, hid.trans hother_id.symm, hresponse⟩
    have hserving := h.update { handler with response := send.response } hhandler rfl rfl
      fun _ => hassigned
    refine hserving.sends_modify { send with stage := .notifyOne } hl rfl rfl rfl
      (fun _ hmem => .inl hmem) ?_
    intro moved hmoved
    obtain ⟨-, rfl⟩ | ⟨hne, -⟩ := (getElem?_update hhandler).mp hmoved
    · exact hassigned
    · exact (hne rfl).elim
  | @notifyOne handler hhandler _ phase _ =>
    have hassigned : log.Assigned ts { handler with phase := phase } :=
      h.ready send.ref handler hhandler (.inr (.inr ⟨send, hmem, rfl, by rw [hstage]; nofun⟩))
    have hserving := h.update { handler with phase := phase } hhandler rfl rfl
      fun _ => hassigned
    have hconsumed : ∀ ref ∈ consumed ++ [send.ref], ref ∈ consumed ∨ ref = send.ref :=
      fun _ hmem => by simpa using hmem
    refine hserving.sends_modify { send with stage := .eraseCurrent } hl rfl rfl rfl hconsumed ?_
    intro moved hmoved
    obtain ⟨-, rfl⟩ | ⟨hne, -⟩ := (getElem?_update hhandler).mp hmoved
    · exact hassigned
    · exact (hne rfl).elim
  | @eraseCurrent current hcurrent =>
    have hold : ∀ {other : Send}, other ∈ l₁ ++ l₂ → other ∈ service.sends := by
      intro other hmem
      rw [hl]
      exact mem_of_mem_remove hmem
    refine ⟨h.handlers, h.length_origins, h.ids_lt, h.ids_inj,
      fun entry hmem => h.current entry (hcurrent entry hmem),
      fun other hmem => h.sends other (hold hmem),
      fun other hmem => h.sends_answered other (hold hmem), fun ref handler hhandler hr => ?_,
      h.consumed_lt, h.taken, h.answered⟩
    refine h.ready ref handler hhandler (hr.imp_right (Or.imp_right ?_))
    rintro ⟨other, hmem, hrest⟩
    exact ⟨other, hold hmem, hrest⟩

end Service

/-! ## The world -/

namespace World

/-- The invariant. -/
structure Inv (w : World Req Res) : Prop where
  /-- The service. -/
  serving : Serving ts w.log w.origins w.consumed w.requestIds w.service
  clients : ∀ c, Calling ts w.log c (w.clients c)
  /-- Calls are requests that were sent. -/
  calls : ∀ call ∈ w.calls, w.log.Requests ts call.client call.data
  /-- Replies answer requests that were sent. -/
  replies : ∀ reply ∈ w.replies, w.log.Replies ts reply.client reply.data
  /-- What was delivered answers requests that were sent. -/
  delivered : ∀ d ∈ w.delivered, w.log.Answers ts d.client d.sequenceNumber d.data
  /-- Sequence numbers have been drawn. -/
  numbers_lt : ∀ sent ∈ w.log.sent,
    sent.sequenceNumber < w.sequenceNumbers (processOf sent.client)
  /-- No process uses a number twice. -/
  sent_unique : ∀ sent ∈ w.log.sent, ∀ sent' ∈ w.log.sent,
    processOf sent.client = processOf sent'.client →
    sent.sequenceNumber = sent'.sequenceNumber → sent = sent'
  /-- There is one answer to an id. -/
  answered_unique : ∀ answered ∈ w.log.answered, ∀ answered' ∈ w.log.answered,
    answered.requestId = answered'.requestId → answered = answered'

section World

variable {ts} {processOf} {w w' : World Req Res}

theorem inv_fresh : Inv ts processOf (fresh : World Req Res) where
  serving := ⟨nofun, rfl, nofun, nofun, nofun, nofun, nofun, nofun, nofun, nofun, nofun⟩
  clients _ := ⟨nofun, nofun, nofun, nofun⟩
  calls := nofun
  replies := nofun
  delivered := nofun
  numbers_lt := nofun
  sent_unique := nofun
  answered_unique := nofun

theorem Inv.correct (h : Inv ts processOf w) : w.Correlated ts processOf where
  delivered := h.delivered
  sent_unique := h.sent_unique
  taken_unique _ hmem _ hmem' := h.serving.taken_unique hmem hmem'
  answered_unique := h.answered_unique

/-- **A client moves**, and may make a call. -/
theorem Inv.setClient (h : Inv ts processOf w) {c : ℕ} {client : Client}
    {call : Option (List UInt8)} (hclient : Calling ts w.log c client)
    (hcall : ∀ data ∈ call, w.log.Requests ts c data) :
    Inv ts processOf (w.setClient c client call) := by
  refine ⟨h.serving, fun c' => ?_, fun m hmem => ?_, h.replies, h.delivered, h.numbers_lt,
    h.sent_unique, h.answered_unique⟩
  · by_cases heq : c' = c
    · subst heq
      simpa only [World.setClient, Function.update_self] using hclient
    · simpa only [World.setClient, Function.update_of_ne heq] using h.clients c'
  · obtain hmem | hmem := List.mem_append.mp hmem
    · exact h.calls m hmem
    · obtain ⟨data, hdata, rfl⟩ := List.mem_map.mp hmem
      exact hcall data (Option.mem_toList.mp hdata)

/-- **The service moves, and more is known.** -/
theorem Inv.extend (h : Inv ts processOf w) {service : Service} {log : Log Req Res}
    (hserving : Serving ts log w.origins w.consumed w.requestIds service)
    (hle : w.log.Extends log) (hsent : log.sent = w.log.sent)
    (hanswered : ∀ answered ∈ log.answered, ∀ answered' ∈ log.answered,
      answered.requestId = answered'.requestId → answered = answered') :
    Inv ts processOf { w with service := service, log := log } where
  serving := hserving
  clients c := (h.clients c).mono hle
  calls m hmem := (h.calls m hmem).mono hle
  replies m hmem := (h.replies m hmem).mono hle
  delivered d hmem := (h.delivered d hmem).mono hle
  numbers_lt := by rw [hsent]; exact h.numbers_lt
  sent_unique := by rw [hsent]; exact h.sent_unique
  answered_unique := hanswered

/-- **A request is sent.** -/
theorem Inv.sendRequest (h : Inv ts processOf w) {c : ℕ} {request : Req}
    (hlt : w.sequenceNumbers (processOf c) < 2 ^ 63)
    (hstep : w.step ts processOf (.sendRequest c request) = some w') : Inv ts processOf w' := by
  cases hstep
  have hmod : w.sequenceNumbers (processOf c) % 2 ^ 64 = w.sequenceNumbers (processOf c) :=
    Nat.mod_eq_of_lt (by omega)
  rw [hmod]
  generalize hn : w.sequenceNumbers (processOf c) = n at hlt
  have hle : w.log.Extends { w.log with sent := w.log.sent ++ [⟨c, n, request⟩] } :=
    ⟨List.subset_append_left _ _, List.Subset.refl _, List.Subset.refl _⟩
  have hnew : ∀ {sent : Sent Req}, sent ∈ w.log.sent ++ [⟨c, n, request⟩] →
      sent ∈ w.log.sent ∨ sent = ⟨c, n, request⟩ := fun hmem =>
    (List.mem_append.mp hmem).imp_right List.mem_singleton.mp
  have hfresh : ∀ sent ∈ w.log.sent, processOf sent.client = processOf c →
      sent.sequenceNumber ≠ n := by
    intro sent hmem hprocess heq
    have hlt' := h.numbers_lt sent hmem
    rw [hprocess, hn, heq] at hlt'
    exact Nat.lt_irrefl _ hlt'
  have hclient := (h.clients c).mono hle
  refine ⟨?_, fun c' => ?_, fun m hmem => ?_, fun m hmem => (h.replies m hmem).mono hle,
    fun d hmem => (h.delivered d hmem).mono hle, fun sent hmem => ?_,
    fun sent hmem sent' hmem' hprocess heq => ?_, h.answered_unique⟩
  · refine ⟨fun ref handler hget => ?_, h.serving.length_origins, h.serving.ids_lt,
      h.serving.ids_inj, h.serving.current, h.serving.sends, h.serving.sends_answered,
      h.serving.ready, h.serving.consumed_lt, h.serving.taken, h.serving.answered⟩
    obtain ⟨c', hc', hrequest⟩ := h.serving.handlers ref handler hget
    exact ⟨c', hc', hrequest.mono hle⟩
  · by_cases hc : c' = c
    · subst hc
      simp only [World.setClient, Function.update_self]
      refine ⟨fun r hmem => ?_, hclient.requests, hclient.callbacks, hclient.responses⟩
      obtain hmem | hmem := List.mem_append.mp hmem
      · exact hclient.sending r hmem
      · rw [List.mem_singleton.mp hmem]
        exact ⟨⟨c', n, request⟩, List.mem_append_right _ (List.mem_singleton.mpr rfl), rfl,
          (by omega : n < 2 ^ 64), rfl⟩
    · simp only [World.setClient, Function.update_of_ne hc]
      exact (h.clients c').mono hle
  · simp only [World.setClient, Option.toList_none, List.map_nil, List.append_nil] at hmem
    exact (h.calls m hmem).mono hle
  · obtain hmem | rfl := hnew hmem
    · have hlt' := h.numbers_lt sent hmem
      by_cases hprocess : processOf sent.client = processOf c
      · simp only [hprocess, Function.update_self]
        rw [hprocess, hn] at hlt'
        omega
      · simpa only [Function.update_of_ne hprocess] using hlt'
    · simp only [Function.update_self]
      omega
  · obtain hmem | rfl := hnew hmem <;> obtain hmem' | rfl := hnew hmem'
    · exact h.sent_unique sent hmem sent' hmem' hprocess heq
    · exact (hfresh sent hmem hprocess heq).elim
    · exact (hfresh sent' hmem' hprocess.symm heq.symm).elim
    · rfl

/-- **The service moves** on its own. -/
theorem Inv.serve (h : Inv ts processOf w) {service : Service} {consumed : List ℕ}
    {requestIds : ℕ} (hserving : Serving ts w.log w.origins consumed requestIds service) :
    Inv ts processOf { w with
      service := service
      consumed := consumed
      requestIds := requestIds } :=
  ⟨hserving, h.clients, h.calls, h.replies, h.delivered, h.numbers_lt, h.sent_unique,
    h.answered_unique⟩

/-- **A handler moves**, and may reply. -/
theorem Inv.handler {ref : ℕ} (h : Inv ts processOf w)
    (hstep : w.step ts processOf (.handler ref) = some w') : Inv ts processOf w' := by
  obtain ⟨c, hc, hstep⟩ := Option.bind_eq_some_iff.mp hstep
  obtain ⟨⟨service, reply⟩, hservice, hstep⟩ := Option.bind_eq_some_iff.mp hstep
  cases hstep
  obtain ⟨hserving, hreply⟩ := h.serving.stepHandler hc hservice
  refine ⟨hserving, h.clients, h.calls, fun m hmem => ?_, h.delivered, h.numbers_lt,
    h.sent_unique, h.answered_unique⟩
  obtain hmem | hmem := List.mem_append.mp hmem
  · exact h.replies m hmem
  · obtain ⟨data, hdata, rfl⟩ := List.mem_map.mp hmem
    exact hreply data (Option.mem_toList.mp hdata)

/-- **A response is sent.** -/
theorem Inv.sendResponse {response : Res} {requestId : ℕ} (h : Inv ts processOf w)
    (hregular : w.Regular processOf (.sendResponse response requestId))
    (hstep : w.step ts processOf (.sendResponse response requestId) = some w') :
    Inv ts processOf w' := by
  obtain ⟨service, hservice, hstep⟩ := Option.bind_eq_some_iff.mp hstep
  cases hstep
  refine h.extend (h.serving.sendResponse hregular.1 hservice)
    ⟨List.Subset.refl _, List.Subset.refl _, List.subset_append_left _ _⟩ rfl ?_
  intro answered hmem answered' hmem' heq
  obtain hmem | hmem := List.mem_append.mp hmem <;>
    obtain hmem' | hmem' := List.mem_append.mp hmem'
  · exact h.answered_unique answered hmem answered' hmem' heq
  · rw [List.mem_singleton.mp hmem'] at heq
    exact (hregular.2 answered hmem heq).elim
  · rw [List.mem_singleton.mp hmem] at heq
    exact (hregular.2 answered' hmem' heq.symm).elim
  · rw [List.mem_singleton.mp hmem, List.mem_singleton.mp hmem']

/-- **A reply reaches its client.** -/
theorem Inv.onResponse {i : ℕ} (h : Inv ts processOf w)
    (hstep : w.step ts processOf (.onResponse i) = some w') : Inv ts processOf w' := by
  obtain ⟨reply, hget, hstep⟩ := Option.bind_eq_some_iff.mp hstep
  cases hstep
  have hc := h.clients reply.client
  have hclient : Calling ts w.log reply.client
      ((w.clients reply.client).onResponse reply.data) := by
    refine ⟨hc.sending, hc.requests, fun callback hmem => ?_, hc.responses⟩
    obtain hmem | hmem := List.mem_append.mp hmem
    · exact hc.callbacks callback hmem
    · rw [List.mem_singleton.mp hmem]
      exact h.replies reply (List.mem_of_getElem? hget)
  have hinv : Inv ts processOf (w.setClient reply.client
      ((w.clients reply.client).onResponse reply.data) none) := h.setClient hclient nofun
  exact ⟨hinv.serving, hinv.clients, hinv.calls,
    fun m hmem => h.replies m (List.mem_of_mem_eraseIdx hmem), h.delivered, h.numbers_lt,
    h.sent_unique, h.answered_unique⟩

/-- **A response is taken.** -/
theorem Inv.takeResponse {c : ℕ} (h : Inv ts processOf w)
    (hstep : w.step ts processOf (.takeResponse c) = some w') : Inv ts processOf w' := by
  obtain ⟨⟨client, response⟩, hclient, hstep⟩ := Option.bind_eq_some_iff.mp hstep
  cases hstep
  obtain ⟨hcalling, hanswers⟩ := (h.clients c).takeResponse hclient
  have hinv : Inv ts processOf (w.setClient c client none) := h.setClient hcalling nofun
  refine ⟨hinv.serving, hinv.clients, hinv.calls, h.replies, fun d hmem => ?_, h.numbers_lt,
    h.sent_unique, h.answered_unique⟩
  obtain hmem | hmem := List.mem_append.mp hmem
  · exact h.delivered d hmem
  · rw [List.mem_singleton.mp hmem]
    exact hanswers

/-- **A step keeps the invariant.** -/
theorem Inv.step {a : Action Req Res} (h : Inv ts processOf w) (hregular : w.Regular processOf a)
    (hstep : w.step ts processOf a = some w') : Inv ts processOf w' := by
  have hs := h.serving
  cases a with
  | generateSequenceNumber process =>
    cases hstep
    refine ⟨h.serving, h.clients, h.calls, h.replies, h.delivered, fun sent hmem => ?_,
      h.sent_unique, h.answered_unique⟩
    have hlt := h.numbers_lt sent hmem
    by_cases hprocess : processOf sent.client = process
    · subst hprocess
      simp only [Function.update_self]
      omega
    · simpa only [Function.update_of_ne hprocess] using hlt
  | generateRequestId =>
    cases hstep
    exact h.serve ⟨hs.handlers, hs.length_origins,
      fun ref handler hget => Nat.lt_succ_of_lt (hs.ids_lt ref handler hget), hs.ids_inj,
      hs.current, hs.sends, hs.sends_answered, hs.ready, hs.consumed_lt, hs.taken, hs.answered⟩
  | sendRequest c request => exact h.sendRequest hregular hstep
  | enqueueRequest c i =>
    obtain ⟨⟨client, call⟩, hclient, hstep⟩ := Option.bind_eq_some_iff.mp hstep
    cases hstep
    obtain ⟨hcalling, hcall⟩ := (h.clients c).enqueueRequest hclient
    exact h.setClient hcalling hcall
  | onRequest i =>
    obtain ⟨call, hget, hstep⟩ := Option.bind_eq_some_iff.mp hstep
    cases hstep
    have hmod : w.requestIds % 2 ^ 64 = w.requestIds :=
      Nat.mod_eq_of_lt (Nat.lt_trans hregular (by decide))
    rw [hmod]
    exact ⟨h.serving.onRequest (h.calls call (List.mem_of_getElem? hget)), h.clients,
      fun m hmem => h.calls m (List.mem_of_mem_eraseIdx hmem), h.replies, h.delivered,
      h.numbers_lt, h.sent_unique, h.answered_unique⟩
  | handler ref => exact h.handler hstep
  | wake ref =>
    obtain ⟨service, hservice, hstep⟩ := Option.bind_eq_some_iff.mp hstep
    cases hstep
    obtain ⟨handler, hget, -, rfl⟩ := wake_cases hservice
    exact h.serve (hs.update _ hget rfl rfl fun _ =>
      hs.ready ref handler hget (.inr (.inl hregular)))
  | takeRequest =>
    obtain ⟨service, hservice, hstep⟩ := Option.bind_eq_some_iff.mp hstep
    cases hstep
    obtain ⟨ref, pending, -, rfl⟩ := takeRequest_cases hservice
    exact h.serve ⟨hs.handlers, hs.length_origins, hs.ids_lt, hs.ids_inj, hs.current, hs.sends,
      hs.sends_answered, hs.ready, hs.consumed_lt, hs.taken, hs.answered⟩
  | take i =>
    obtain ⟨take, htake, hstep⟩ := Option.bind_eq_some_iff.mp hstep
    obtain ⟨handler, hget, hstep⟩ := Option.bind_eq_some_iff.mp hstep
    obtain ⟨c, hc, hstep⟩ := Option.bind_eq_some_iff.mp hstep
    obtain ⟨⟨service, taken⟩, hservice, hstep⟩ := Option.bind_eq_some_iff.mp hstep
    cases hstep
    exact h.extend (h.serving.stepTake htake hget hc hservice)
      ⟨List.Subset.refl _, List.subset_append_left _ _, List.Subset.refl _⟩ rfl h.answered_unique
  | sendResponse response requestId => exact h.sendResponse hregular hstep
  | send i =>
    obtain ⟨send, hget, hstep⟩ := Option.bind_eq_some_iff.mp hstep
    obtain ⟨service, hservice, hstep⟩ := Option.bind_eq_some_iff.mp hstep
    cases hstep
    exact h.serve (hs.stepSend hget hservice)
  | onResponse i => exact h.onResponse hstep
  | callback c i =>
    obtain ⟨⟨client, call⟩, hclient, hstep⟩ := Option.bind_eq_some_iff.mp hstep
    cases hstep
    obtain ⟨hcalling, hcall⟩ := (h.clients c).stepCallback hclient
    exact h.setClient hcalling hcall
  | takeResponse c => exact h.takeResponse hstep

/-- **Responses are correlated with requests.**  In any world that regular steps lead to, whatever
the number of processes, clients and requests, and in whatever order requests arrive, are taken and
are answered: when `TakeResponse` of a client returns a number with a response, its `SendRequest`
returned that number for a request, and the response is what `SendResponse` was called with under
the id that `TakeRequest` returned with the bytes of this very request. -/
theorem correlated (h : (system ts processOf).Reachable (Regular processOf) w) :
    w.Correlated ts processOf :=
  (h.invariant (P := Inv ts processOf) inv_fresh
    fun _ _ _ hinv hregular hstep => hinv.step hregular hstep).correct

end World

/-- Two clients of different processes whose requests have the same number; the service answers the
second one first. -/
theorem correlated_two : ∃ w : World (List UInt8) (List UInt8),
    w.delivered = [⟨1, 0, [8, 8]⟩, ⟨0, 0, [7]⟩] ∧ w.Correlated ⟨id, id⟩ id := by
  have h : (system ⟨id, id⟩ id).Reachable (Regular id) _ :=
    System.reachable_of_exec [.sendRequest 0 [1], .sendRequest 1 [1, 1],
      .enqueueRequest 1 0, .enqueueRequest 0 0, .onRequest 1, .onRequest 0,
      .handler 0, .handler 0, .handler 0, .handler 1, .handler 1, .handler 1,
      .takeRequest, .take 0, .take 0, .takeRequest, .take 0, .take 0,
      .sendResponse [8, 8] 1, .send 0, .send 0, .send 0,
      .sendResponse [7] 0, .send 0, .send 0, .send 0, .handler 0, .handler 1,
      .onResponse 0, .onResponse 0, .callback 1 0, .takeResponse 1, .callback 0 0,
      .takeResponse 0] rfl
  exact ⟨_, rfl, correlated h⟩

end World

end Correlation

end RmwEcal
