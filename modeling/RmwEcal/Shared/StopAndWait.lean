import RmwEcal.Shared.Service
import Mathlib.Data.List.Infix

/-!
# One call at a time

Any number of threads send requests through one client, eCAL answers every call once, and the steps
of all of them interleave.

A client means to have one call under way at most, the one for the request at the front of its
queue.  There is a gap in this: a callback that has taken the last request off the queue lets go of
the lock before it looks whether there is a next one.  A request that comes in between finds the
queue empty and is called right away, and the callback calls it once more.

`StopAndWait.stop_and_wait` says that nothing else goes wrong: as long as no callback comes upon a
request in `PerformNextRequest` while another call is under way, calls are made once each and in
order; and the step on which one does makes a call twice.
-/

set_option autoImplicit false

namespace RmwEcal

open Transition

namespace StopAndWait

/-! ## Clients at work -/

/-- A client, the calls it has outstanding, and what has happened to it. -/
structure State where
  client : Client
  /-- The counter of `GenerateSequenceNumber`. -/
  counter : ℕ
  /-- What was passed to `CallAsync` and has not been answered. -/
  inFlight : List (List UInt8)
  /-- All requests that were put on the queue. -/
  enqueued : List Client.Request
  /-- How many of them were taken off it. -/
  popped : ℕ
  /-- What was passed to `CallAsync`, with the place of the request among all that were put on the
  queue. -/
  calls : List (ℕ × List UInt8)
  /-- The sequence numbers that entered `responses_`. -/
  entered : List ℕ
  deriving DecidableEq, Repr

/-- The steps: of threads that send requests, of eCAL, of callbacks and of the executor. -/
inductive Action where
  /-- Another client of the process draws a sequence number. -/
  | generate
  /-- A thread calls `SendRequest`; the request is serialized to these bytes. -/
  | sendRequest (serializedData : List UInt8)
  /-- A thread gets the lock in `EnqueueRequest`. -/
  | enqueueRequest (i : ℕ)
  /-- eCAL has the response of the service to a call. -/
  | respond (i : ℕ) (response : List UInt8)
  /-- A callback takes its next step. -/
  | callback (i : ℕ)
  /-- The executor takes a response. -/
  | takeResponse
  deriving DecidableEq, Repr

namespace State

/-- A client nobody has used yet. -/
def fresh : State := ⟨.fresh, 0, [], [], 0, [], []⟩

/-- The client takes a step in which it may make a call.  The records follow from what the step did
to the queues. -/
def record (s : State) (client : Client) (call : Option (List UInt8)) : State :=
  let popped := s.popped + (s.client.requests.length - client.requests.length)
  { s with
    client := client
    inFlight := s.inFlight ++ call.toList
    enqueued := s.enqueued ++ client.requests.drop s.client.requests.length
    popped := popped
    calls := s.calls ++ call.toList.map fun data => (popped, data)
    entered := s.entered ++
      (client.responses.drop s.client.responses.length).map Client.Response.sequenceNumber }

/-- One step. -/
def step (s : State) : Action → Option State
  | .generate => some { s with counter := s.counter + 1 }
  | .sendRequest serializedData => some { s with
      client := s.client.beginRequest (s.counter % 2 ^ 64) serializedData
      counter := s.counter + 1 }
  | .enqueueRequest i => do
    let (client, call) ← s.client.enqueueRequest i
    some (s.record client call)
  | .respond i response => do
    let request ← s.inFlight[i]?
    let reply ← Service.reply request response
    some { s with client := s.client.onResponse reply, inFlight := s.inFlight.eraseIdx i }
  | .callback i => do
    let (client, call) ← s.client.stepCallback i
    some (s.record client call)
  | .takeResponse => do
    let (client, _) ← s.client.takeResponse
    some (s.record client none)

end State

/-- A client at work. -/
def system : System State Action := ⟨.fresh, State.step⟩

/-! ## What is meant to hold -/

/-- Requests in the order of the queue, with their places. -/
def numbered (requests : List Client.Request) : List (ℕ × List UInt8) :=
  requests.mapIdx fun place request => (place, request.data)

/-- The callbacks that have not taken their request off the queue. -/
def answering (callbacks : List Client.Callback) : List Client.Callback :=
  callbacks.filter fun callback => callback.stage ≠ .performNextRequest

/-- The steps a callback has before it. -/
def remaining : Client.Stage → ℕ
  | .enqueueResponse => 4
  | .notifyWaitSet => 3
  | .popLastRequest => 2
  | .performNextRequest => 1

namespace State

/-- No call is outstanding and no callback is running. -/
def AtRest (s : State) : Prop := s.inFlight = [] ∧ s.client.callbacks = []

/-- What a client with one call at a time owes its callers. -/
structure Orderly (s : State) : Prop where
  /-- No request is called twice, and they are called in order. -/
  calls_prefix : s.calls <+: numbered s.enqueued
  /-- No request is forgotten. -/
  calls_all : s.AtRest → s.calls = numbered s.enqueued
  /-- There is one call at a time. -/
  inFlight_le : s.inFlight.length ≤ 1
  /-- The queue is not empty when a request is taken off it. -/
  requests_ne : ∀ callback ∈ s.client.callbacks, callback.stage = .popLastRequest →
    s.client.requests ≠ []
  /-- Responses enter once each and in the order of the requests. -/
  entered_prefix : s.entered <+: s.enqueued.map Client.Request.sequenceNumber

/-- A callback in `PerformNextRequest` finds no request, or no other call is under way: none is
outstanding, and no callback has still to take its request off the queue. -/
def Timely (s : State) : Action → Prop
  | .callback i => ∀ response, s.client.callbacks[i]? = some ⟨.performNextRequest, response⟩ →
      s.client.requests = [] ∨ s.inFlight = [] ∧ answering s.client.callbacks = []
  | _ => True

/-- What is left to do until the client is at rest, if no more requests come: steps for each call
that is outstanding, for each callback and for each request that has not been called. -/
def work (s : State) : ℕ :=
  5 * s.inFlight.length + (s.client.callbacks.map fun callback => remaining callback.stage).sum +
    5 * (s.enqueued.length - s.calls.length)

end State

/-! ## Lists of calls and callbacks -/

theorem length_numbered (requests : List Client.Request) :
    (numbered requests).length = requests.length := List.length_mapIdx

theorem numbered_concat (requests : List Client.Request) (request : Client.Request) :
    numbered (requests ++ [request]) = numbered requests ++ [(requests.length, request.data)] :=
  List.mapIdx_concat

theorem numbered_prefix_append (l₁ l₂ : List Client.Request) :
    numbered l₁ <+: numbered (l₁ ++ l₂) := by
  rw [numbered, numbered, List.mapIdx_append]
  exact List.prefix_append _ _

/-- A list of calls that are numbered from the beginning has no room for one more call of the
request that was called last. -/
theorem not_prefix_of_repeated (done : List Client.Request) (request : Client.Request)
    (data : List UInt8) (all : List Client.Request) :
    ¬ numbered (done ++ [request]) ++ [(done.length, data)] <+: numbered all := by
  rintro ⟨rest, h⟩
  have hlen : (numbered (done ++ [request])).length = done.length + 1 := by
    rw [length_numbered, List.length_append, List.length_singleton]
  have hget := congrArg (fun l => l[done.length + 1]?) h
  simp only [List.append_assoc, List.singleton_append] at hget
  rw [List.getElem?_append_right hlen.le, hlen, Nat.sub_self, List.getElem?_cons_zero, numbered,
    List.getElem?_mapIdx, eq_comm, Option.map_eq_some_iff] at hget
  obtain ⟨_, _, heq⟩ := hget
  have hplace := congrArg Prod.fst heq
  simp only at hplace
  omega

@[simp] theorem answering_nil : answering [] = [] := rfl

@[simp] theorem answering_append (l₁ l₂ : List Client.Callback) :
    answering (l₁ ++ l₂) = answering l₁ ++ answering l₂ := List.filter_append ..

theorem answering_cons_of_ne {callback : Client.Callback} (l : List Client.Callback)
    (h : callback.stage ≠ .performNextRequest) :
    answering (callback :: l) = callback :: answering l :=
  List.filter_cons_of_pos (by simpa using h)

theorem answering_cons_of_eq {callback : Client.Callback} (l : List Client.Callback)
    (h : callback.stage = .performNextRequest) : answering (callback :: l) = answering l :=
  List.filter_cons_of_neg (by simpa using h)

/-- If there is one callback that has not taken its request off the queue, a callback that has not
is that one. -/
theorem eq_of_answering {l₁ l₂ : List Client.Callback} {callback callback' : Client.Callback}
    (hstage : callback.stage ≠ .performNextRequest)
    (h : answering (l₁ ++ callback :: l₂) = [callback']) :
    callback = callback' ∧ answering l₁ = [] ∧ answering l₂ = [] := by
  rw [answering_append, answering_cons_of_ne _ hstage, List.append_eq_singleton_iff] at h
  obtain ⟨h₁, h₂⟩ | ⟨_, h₂⟩ := h
  · injection h₂ with heq h₂
    exact ⟨heq, h₁, h₂⟩
  · cases h₂

/-! ## The round of a request -/

/-- A request that carries its sequence number. -/
def Signed (request : Client.Request) : Prop :=
  request.sequenceNumber < 2 ^ 64 ∧
    ∃ data, request.data = data ++ sequenceBytes request.sequenceNumber

theorem Signed.getSequenceNumber {request : Client.Request} (h : Signed request) :
    getSequenceNumber request.data = some request.sequenceNumber := by
  obtain ⟨hlt, data, hdata⟩ := h
  rw [hdata, getSequenceNumber_append hlt]

/-- The round that every request goes, with `entered` for the request as soon as its response has
entered `responses_`. -/
inductive Round (request : Client.Request) (inFlight : List (List UInt8))
    (answering : List Client.Callback) (entered : List Client.Request) : Prop
  /-- Its call is outstanding. -/
  | calling (hinFlight : inFlight = [request.data]) (hanswering : answering = [])
      (hentered : entered = [])
  /-- The call has been answered, and a callback has the response. -/
  | answered {data : List UInt8} (hinFlight : inFlight = [])
      (hanswering :
        answering = [⟨.enqueueResponse, data ++ sequenceBytes request.sequenceNumber⟩])
      (hentered : entered = [])
  /-- The response is in its queue, and the request still in its own. -/
  | recorded {callback : Client.Callback} (hinFlight : inFlight = [])
      (hanswering : answering = [callback]) (hstage : callback.stage ≠ .enqueueResponse)
      (hentered : entered = [request])

/-- Whose turn it is; `done` are the requests whose round is over. -/
inductive Turn (s : State) (done : List Client.Request) : Prop
  /-- Nothing is under way.  If there is a next request, a callback is going to see it. -/
  | quiet (hinFlight : s.inFlight = []) (hanswering : answering s.client.callbacks = [])
      (hcalls : s.calls = numbered done)
      (hentered : s.entered = done.map Client.Request.sequenceNumber)
      (hnext : s.client.requests ≠ [] → s.client.callbacks ≠ [])
  /-- The request at the front of the queue goes its round. -/
  | underway {request : Client.Request} {requests entered : List Client.Request}
      (hrequests : s.client.requests = request :: requests)
      (hround : Round request s.inFlight (answering s.client.callbacks) entered)
      (hcalls : s.calls = numbered (done ++ [request]))
      (hentered : s.entered = (done ++ entered).map Client.Request.sequenceNumber)

/-- The invariant. -/
structure Inv (s : State) (done : List Client.Request) : Prop where
  /-- The requests are those whose round is over and those on the queue. -/
  enqueued : s.enqueued = done ++ s.client.requests
  /-- Those whose round is over have been taken off the queue. -/
  popped : s.popped = done.length
  /-- The requests that are to come carry their sequence numbers. -/
  signed_sending : ∀ request ∈ s.client.sending, Signed request
  /-- So do those on the queue. -/
  signed_requests : ∀ request ∈ s.client.requests, Signed request
  /-- One request at a time goes its round. -/
  turn : Turn s done

theorem inv_fresh : Inv .fresh [] where
  enqueued := rfl
  popped := rfl
  signed_sending _ h := by cases h
  signed_requests _ h := by cases h
  turn := .quiet rfl rfl rfl rfl fun h => (h rfl).elim

section Rounds

variable {s : State} {done : List Client.Request}

theorem Round.length_inFlight_le {request : Client.Request} {inFlight : List (List UInt8)}
    {answering : List Client.Callback} {entered : List Client.Request}
    (h : Round request inFlight answering entered) : inFlight.length ≤ 1 := by
  cases h with
  | calling h | answered h | recorded h => rw [h]; simp

theorem Round.entered_prefix {request : Client.Request} {inFlight : List (List UInt8)}
    {answering : List Client.Callback} {entered : List Client.Request}
    (h : Round request inFlight answering entered) : entered <+: [request] := by
  cases h with
  | calling _ _ h | answered _ _ h => rw [h]; exact List.nil_prefix
  | recorded _ _ _ h => rw [h]

/-- While a request goes its round, there is a call outstanding or a callback running. -/
theorem Round.not_atRest {request : Client.Request} {entered : List Client.Request}
    (h : Round request s.inFlight (answering s.client.callbacks) entered) : ¬ s.AtRest := by
  intro hrest
  rw [hrest.1, hrest.2] at h
  cases h with
  | calling h => cases h
  | answered _ h | recorded _ h => cases h

/-- **What the invariant promises the callers.** -/
theorem Inv.orderly (h : Inv s done) : s.Orderly := by
  cases h.turn with
  | quiet hinFlight hanswering hcalls hentered hnext =>
    refine ⟨?_, fun hrest => ?_, by rw [hinFlight]; simp, fun callback hmem hstage => ?_, ?_⟩
    · rw [hcalls, h.enqueued]
      exact numbered_prefix_append _ _
    · have hnone : s.client.requests = [] := by
        by_contra hne
        exact hnext hne hrest.2
      rw [hcalls, h.enqueued, hnone, List.append_nil]
    · have hmem' : callback ∈ answering s.client.callbacks :=
        List.mem_filter.mpr ⟨hmem, by simp [hstage]⟩
      rw [hanswering] at hmem'
      cases hmem'
    · rw [hentered, h.enqueued, List.map_append]
      exact List.prefix_append _ _
  | @underway request requests entered hrequests hround hcalls hentered =>
    have henqueued : s.enqueued = done ++ [request] ++ requests := by
      rw [h.enqueued, hrequests, List.append_cons]
    refine ⟨?_, fun hrest => (hround.not_atRest hrest).elim, hround.length_inFlight_le,
      fun _ _ _ => by rw [hrequests]; exact List.cons_ne_nil _ _, ?_⟩
    · rw [hcalls, henqueued]
      exact numbered_prefix_append _ _
    · rw [hentered, henqueued, List.append_assoc]
      have hprefix : entered <+: [request] ++ requests :=
        hround.entered_prefix.trans (List.prefix_append _ _)
      exact ((List.prefix_append_right_inj _).mpr hprefix).map _

/-! ## Steps -/

/-- **A request joins the queue.**  If nothing is under way and the queue is empty, its round
begins. -/
theorem Inv.enqueueRequest {i : ℕ} {client : Client} {call : Option (List UInt8)}
    (h : Inv s done) (hstep : s.client.enqueueRequest i = some (client, call)) :
    Inv (s.record client call) done := by
  obtain ⟨request, hget, rfl, hcall⟩ := Client.enqueueRequest_cases hstep
  have hsigned := h.signed_sending request (List.mem_of_getElem? hget)
  refine ⟨?_, ?_, fun r hr => h.signed_sending r (List.mem_of_mem_eraseIdx hr), ?_, ?_⟩
  · simp only [State.record, List.drop_left, h.enqueued, List.append_assoc]
  · simp [State.record, h.popped]
  · intro r hr
    obtain hr | hr := List.mem_append.mp hr
    · exact h.signed_requests r hr
    · rw [List.mem_singleton.mp hr]
      exact hsigned
  obtain ⟨hnone, rfl⟩ | ⟨hne, rfl⟩ := hcall
  · cases h.turn with
    | quiet hinFlight hanswering hcalls hentered _ =>
      refine @Turn.underway _ _ request [] [] ?_
        (.calling ?_ hanswering rfl) ?_ ?_
      · simp only [State.record, hnone, List.nil_append]
      · simp [State.record, hinFlight]
      · simp [State.record, hcalls, numbered_concat, h.popped]
      · simp [State.record, hentered]
    | underway hrequests => rw [hrequests] at hnone; cases hnone
  · cases h.turn with
    | quiet hinFlight hanswering hcalls hentered hnext =>
      refine .quiet ?_ hanswering ?_ ?_ fun _ => hnext hne
      · simp [State.record, hinFlight]
      · simp [State.record, hcalls]
      · simp [State.record, hentered]
    | @underway front requests entered hrequests hround hcalls hentered =>
      refine @Turn.underway _ _ front (requests ++ [request]) entered ?_ ?_ ?_ ?_
      · simp [State.record, hrequests]
      · simpa [State.record] using hround
      · simp [State.record, hcalls]
      · simp [State.record, hentered]

/-- **A call is answered**, so it was outstanding, and it was that of the front of the queue. -/
theorem Inv.respond {i : ℕ} {request response reply : List UInt8} (h : Inv s done)
    (hget : s.inFlight[i]? = some request) (hreply : Service.reply request response = some reply) :
    Inv { s with client := s.client.onResponse reply, inFlight := s.inFlight.eraseIdx i } done := by
  refine ⟨h.enqueued, h.popped, h.signed_sending, h.signed_requests, ?_⟩
  cases h.turn with
  | quiet hinFlight => rw [hinFlight] at hget; cases hget
  | @underway front requests entered hrequests hround hcalls hentered =>
    cases hround with
    | answered hinFlight | recorded hinFlight => rw [hinFlight] at hget; cases hget
    | calling hinFlight hanswering hnone =>
      rw [hinFlight, List.getElem?_singleton, Option.ite_none_right_eq_some] at hget
      obtain ⟨rfl, hdata⟩ := hget
      injection hdata with hdata
      have hsigned := h.signed_requests front (by rw [hrequests]; exact List.mem_cons_self)
      rw [Service.reply, ← hdata, hsigned.getSequenceNumber, Option.map_some,
        Option.some_inj] at hreply
      refine .underway hrequests (@Round.answered _ _ _ _ response ?_ ?_ hnone) hcalls hentered
      · rw [hinFlight]
        rfl
      · rw [Client.onResponse, answering_append, hanswering, ← hreply]
        rfl

/-- **Whose response a callback has.**  A callback that has not taken its request off the queue is
the only one, and its request is at the front. -/
theorem Turn.answers (h : Turn s done) {l₁ l₂ : List Client.Callback} {stage : Client.Stage}
    {response : List UInt8} (hl : s.client.callbacks = l₁ ++ ⟨stage, response⟩ :: l₂)
    (hstage : stage ≠ .performNextRequest) : ∃ request requests,
      s.client.requests = request :: requests ∧ s.inFlight = [] ∧
      s.calls = numbered (done ++ [request]) ∧ answering l₁ = [] ∧ answering l₂ = [] ∧
      (stage = .enqueueResponse ∧
          (∃ data, response = data ++ sequenceBytes request.sequenceNumber) ∧
          s.entered = done.map Client.Request.sequenceNumber ∨
        stage ≠ .enqueueResponse ∧
          s.entered = (done ++ [request]).map Client.Request.sequenceNumber) := by
  have hne : answering s.client.callbacks ≠ [] := by
    rw [hl, answering_append, answering_cons_of_ne l₂ hstage]
    simp
  cases h with
  | quiet _ hanswering => exact (hne hanswering).elim
  | @underway request requests entered hrequests hround hcalls hentered =>
    cases hround with
    | calling _ hanswering => exact (hne hanswering).elim
    | @answered data hinFlight hanswering hnone =>
      rw [hl] at hanswering
      obtain ⟨heq, h₁, h₂⟩ := eq_of_answering hstage hanswering
      injection heq with hfirst hdata
      refine ⟨request, requests, hrequests, hinFlight, hcalls, h₁, h₂,
        .inl ⟨hfirst, ⟨data, hdata⟩, ?_⟩⟩
      rw [hentered, hnone, List.append_nil]
    | recorded hinFlight hanswering hlater hsome =>
      rw [hl] at hanswering
      obtain ⟨rfl, h₁, h₂⟩ := eq_of_answering hstage hanswering
      exact ⟨request, requests, hrequests, hinFlight, hcalls, h₁, h₂,
        .inr ⟨hlater, hsome ▸ hentered⟩⟩

/-- **A callback calls the next request**, if there is one, or is done.  Then nothing else is under
way, and the round of that request begins. -/
theorem Inv.performNext {l₁ l₂ : List Client.Callback} {response : List UInt8} (h : Inv s done)
    (hl : s.client.callbacks = l₁ ++ ⟨.performNextRequest, response⟩ :: l₂)
    (htimely : s.client.requests = [] ∨
      s.inFlight = [] ∧ answering s.client.callbacks = []) :
    Inv (s.record { s.client with callbacks := l₁ ++ l₂ }
      (s.client.requests.head?.map Client.Request.data)) done := by
  have hsame : answering (l₁ ++ l₂) = answering s.client.callbacks := by
    rw [hl, answering_append, answering_append, answering_cons_of_eq _ rfl]
  refine ⟨by simp [State.record, h.enqueued], by simp [State.record, h.popped],
    h.signed_sending, h.signed_requests, ?_⟩
  by_cases hnone : s.client.requests = []
  · cases h.turn with
    | underway hrequests => rw [hnone] at hrequests; cases hrequests
    | quiet hinFlight hanswering hcalls hentered hnext =>
      refine .quiet ?_ ?_ ?_ ?_ fun hne => (hne hnone).elim
      · simp [State.record, hinFlight, hnone]
      · simp [State.record, hsame, hanswering]
      · simp [State.record, hcalls, hnone]
      · simp [State.record, hentered]
  · obtain ⟨hinFlight, hanswering⟩ := htimely.resolve_left hnone
    obtain ⟨request, requests, hrequests⟩ := List.exists_cons_of_ne_nil hnone
    cases h.turn with
    | underway _ hround =>
      rw [hinFlight, hanswering] at hround
      cases hround with
      | calling h => cases h
      | answered _ h | recorded _ h => cases h
    | quiet _ _ hcalls hentered _ =>
      refine @Turn.underway _ _ request requests [] hrequests
        (.calling ?_ ?_ rfl) ?_ ?_
      · simp [State.record, hinFlight, hrequests]
      · simp [State.record, hsame, hanswering]
      · simp [State.record, hcalls, numbered_concat, h.popped, hrequests]
      · simp [State.record, hentered]

/-- **A callback takes its next step.** -/
theorem Inv.callback {i : ℕ} {client : Client} {call : Option (List UInt8)} (h : Inv s done)
    (htimely : s.Timely (.callback i)) (hstep : s.client.stepCallback i = some (client, call)) :
    ∃ done', Inv (s.record client call) done' := by
  obtain ⟨l₁, l₂, stage, response, hget, hl, hcases⟩ := Client.stepCallback_cases hstep
  cases hcases with
  | @enqueueResponse size n hsize hn =>
    obtain ⟨request, requests, hrequests, hinFlight, hcalls, h₁, h₂, hentered⟩ :=
      h.turn.answers hl (by simp)
    obtain ⟨-, ⟨data, hdata⟩, hentered⟩ | ⟨hlater, -⟩ := hentered
    swap
    · exact (hlater rfl).elim
    have hsigned := h.signed_requests request (by rw [hrequests]; exact List.mem_cons_self)
    rw [hdata, getSequenceNumber_append hsigned.1, Option.some_inj] at hn
    refine ⟨done, by simp [State.record, h.enqueued], by simp [State.record, h.popped],
      h.signed_sending, h.signed_requests, ?_⟩
    refine .underway hrequests (@Round.recorded _ _ _ _ ⟨.notifyWaitSet, response⟩ ?_ ?_
      (by simp) rfl) ?_ ?_
    · simp [State.record, hinFlight]
    · simp [State.record, answering_cons_of_ne, h₁, h₂]
    · simp [State.record, hcalls]
    · simp [State.record, hentered, hn]
  | notifyWaitSet =>
    obtain ⟨request, requests, hrequests, hinFlight, hcalls, h₁, h₂, hentered⟩ :=
      h.turn.answers hl (by simp)
    obtain ⟨hfirst, -⟩ | ⟨-, hentered⟩ := hentered
    · cases hfirst
    refine ⟨done, by simp [State.record, h.enqueued], by simp [State.record, h.popped],
      h.signed_sending, h.signed_requests, ?_⟩
    refine .underway hrequests (@Round.recorded _ _ _ _ ⟨.popLastRequest, response⟩ ?_ ?_
      (by simp) rfl) ?_ ?_
    · simp [State.record, hinFlight]
    · simp [State.record, answering_cons_of_ne, h₁, h₂]
    · simp [State.record, hcalls]
    · simp [State.record, hentered]
  | @popLastRequest front rest hfront =>
    obtain ⟨request, requests, hrequests, hinFlight, hcalls, h₁, h₂, hentered⟩ :=
      h.turn.answers hl (by simp)
    obtain ⟨hfirst, -⟩ | ⟨-, hentered⟩ := hentered
    · cases hfirst
    obtain ⟨rfl, rfl⟩ := List.cons.inj (hfront.symm.trans hrequests)
    refine ⟨done ++ [front], by simp [State.record, h.enqueued, hrequests],
      by simp [State.record, h.popped, hrequests], h.signed_sending,
      fun r hr => h.signed_requests r (by rw [hrequests]; exact List.mem_cons_of_mem _ hr), ?_⟩
    refine .quiet ?_ ?_ ?_ ?_ fun _ => ?_
    · simp [State.record, hinFlight]
    · simp [State.record, answering_cons_of_eq, h₁, h₂]
    · simp [State.record, hcalls]
    · simp [State.record, hentered]
    · simp [State.record]
  | performNextRequest => exact ⟨done, h.performNext hl (htimely response hget)⟩

/-- A callback that comes upon a request while another call is under way makes a call for the
request that was called last. -/
theorem Inv.repeats {i : ℕ} {client : Client} {call : Option (List UInt8)} (h : Inv s done)
    (htimely : ¬ s.Timely (.callback i)) (hstep : s.client.stepCallback i = some (client, call)) :
    ¬ (s.record client call).Orderly := by
  simp only [State.Timely, not_forall, not_or] at htimely
  obtain ⟨response, hget, hsome, hbusy⟩ := htimely
  obtain ⟨l₁, l₂, stage, response', hget', -, hcases⟩ := Client.stepCallback_cases hstep
  obtain ⟨rfl, rfl⟩ : stage = .performNextRequest ∧ response' = response := by
    rw [hget] at hget'
    injection hget' with heq
    injection heq with hstage hresponse
    exact ⟨hstage.symm, hresponse.symm⟩
  cases hcases
  cases h.turn with
  | quiet hinFlight hanswering => exact (hbusy ⟨hinFlight, hanswering⟩).elim
  | @underway request requests entered hrequests hround hcalls hentered =>
    intro horderly
    have hprefix := horderly.calls_prefix
    simp only [State.record, hrequests, hcalls, h.popped, Nat.sub_self, Nat.add_zero,
      List.head?_cons, Option.map_some, Option.toList_some, List.map_cons, List.map_nil] at hprefix
    exact not_prefix_of_repeated done request request.data _ hprefix

/-- **A step keeps the invariant.** -/
theorem Inv.step {s' : State} {a : Action} (h : Inv s done) (htimely : s.Timely a)
    (hstep : s.step a = some s') : ∃ done', Inv s' done' := by
  cases a with
  | generate =>
    cases hstep
    exact ⟨done, h.enqueued, h.popped, h.signed_sending, h.signed_requests, by
      cases h.turn with
      | quiet h₁ h₂ h₃ h₄ h₅ => exact .quiet h₁ h₂ h₃ h₄ h₅
      | underway h₁ h₂ h₃ h₄ => exact .underway h₁ h₂ h₃ h₄⟩
  | sendRequest serializedData =>
    cases hstep
    refine ⟨done, h.enqueued, h.popped, fun request hmem => ?_, h.signed_requests, ?_⟩
    · obtain hmem | hmem := List.mem_append.mp hmem
      · exact h.signed_sending request hmem
      · rw [List.mem_singleton.mp hmem]
        exact ⟨Nat.mod_lt _ (by decide), serializedData, rfl⟩
    · cases h.turn with
      | quiet h₁ h₂ h₃ h₄ h₅ => exact .quiet h₁ h₂ h₃ h₄ h₅
      | underway h₁ h₂ h₃ h₄ => exact .underway h₁ h₂ h₃ h₄
  | enqueueRequest i =>
    obtain ⟨⟨client, call⟩, hclient, hstep⟩ := Option.bind_eq_some_iff.mp hstep
    cases hstep
    exact ⟨done, h.enqueueRequest hclient⟩
  | respond i response =>
    obtain ⟨request, hget, hstep⟩ := Option.bind_eq_some_iff.mp hstep
    obtain ⟨reply, hreply, hstep⟩ := Option.bind_eq_some_iff.mp hstep
    cases hstep
    exact ⟨done, h.respond hget hreply⟩
  | callback i =>
    obtain ⟨⟨client, call⟩, hclient, hstep⟩ := Option.bind_eq_some_iff.mp hstep
    cases hstep
    exact h.callback htimely hclient
  | takeResponse =>
    obtain ⟨⟨client, response⟩, hclient, hstep⟩ := Option.bind_eq_some_iff.mp hstep
    cases hstep
    cases hr : s.client.responses with
    | nil => rw [Client.takeResponse, hr] at hclient; cases hclient
    | cons first responses =>
      rw [Client.takeResponse, hr] at hclient
      cases hclient
      refine ⟨done, by simp [State.record, h.enqueued], by simp [State.record, h.popped],
        h.signed_sending, h.signed_requests, ?_⟩
      cases h.turn with
      | quiet h₁ h₂ h₃ h₄ h₅ =>
        refine .quiet ?_ h₂ ?_ ?_ h₅ <;> simp [State.record, h₁, h₃, h₄, hr]
      | @underway request requests entered h₁ h₂ h₃ h₄ =>
        refine @Turn.underway _ _ request requests entered h₁ ?_ ?_ ?_
        · simpa [State.record] using h₂
        · simp [State.record, h₃]
        · simp [State.record, h₄, hr]

end Rounds

theorem exists_inv {s : State} (h : system.Reachable State.Timely s) : ∃ done, Inv s done := by
  refine h.invariant (P := fun s => ∃ done, Inv s done) ⟨[], inv_fresh⟩ ?_
  rintro s a s' ⟨done, hinv⟩ htimely hstep
  exact hinv.step htimely hstep

/-! ## Coming to rest -/

/-- The steps that answer the calls that have been made. -/
def Action.Answers : Action → Prop
  | .respond _ _ | .callback _ => True
  | _ => False

/-- **Calls are answered in finitely many steps**: each such step is one less to do. -/
theorem work_step {s s' : State} {a : Action} (hanswers : a.Answers) (horderly : s'.Orderly)
    (hstep : s.step a = some s') : s'.work + 1 = s.work := by
  have hcalls : s'.calls.length ≤ s'.enqueued.length := by
    have hlen := horderly.calls_prefix.length_le
    rwa [length_numbered] at hlen
  cases a with
  | respond i response =>
    obtain ⟨request, hget, hstep⟩ := Option.bind_eq_some_iff.mp hstep
    obtain ⟨reply, hreply, hstep⟩ := Option.bind_eq_some_iff.mp hstep
    cases hstep
    obtain ⟨l₁, l₂, hl, -, -, herase, -⟩ := exists_split hget
    have hfour : remaining .enqueueResponse = 4 := rfl
    simp only [State.work, Client.onResponse, herase, List.map_append, List.sum_append,
      List.length_append, List.map_cons, List.map_nil, List.sum_cons, List.sum_nil, hfour]
    rw [hl, List.length_append, List.length_cons]
    omega
  | callback i =>
    obtain ⟨⟨client, call⟩, hclient, hstep⟩ := Option.bind_eq_some_iff.mp hstep
    cases hstep
    obtain ⟨l₁, l₂, stage, response, -, hl, hcases⟩ := Client.stepCallback_cases hclient
    cases hcases with
    | enqueueResponse | notifyWaitSet =>
      simp [State.work, State.record, hl, remaining]
      omega
    | popLastRequest hrequests =>
      simp [State.work, State.record, hl, remaining, hrequests]
      omega
    | performNextRequest =>
      simp only [State.record, List.length_append, List.length_map, List.drop_length,
        List.append_nil] at hcalls
      simp only [State.work, State.record, hl, remaining, List.length_append, List.length_map,
        List.drop_length, List.append_nil, List.map_append, List.map_cons, List.sum_append,
        List.sum_cons]
      omega
  | generate | sendRequest _ | enqueueRequest _ | takeResponse => exact hanswers.elim

theorem isSome_step_callback {s : State} {i : ℕ} (h : (s.client.stepCallback i).isSome) :
    (s.step (.callback i)).isSome := by
  obtain ⟨⟨client, call⟩, heq⟩ := Option.isSome_iff_exists.mp h
  rw [State.step, heq]
  rfl

/-- **Nothing is stuck**: a client that is not at rest can take a step that answers a call. -/
theorem Inv.exists_answer {s : State} {done : List Client.Request} (h : Inv s done)
    (hrest : ¬ s.AtRest) : ∃ a : Action, a.Answers ∧ s.Timely a ∧ (s.step a).isSome := by
  by_cases hanswering : answering s.client.callbacks = []
  · cases h.turn with
    | quiet hinFlight =>
      obtain ⟨callback, callbacks, hcallbacks⟩ :=
        List.exists_cons_of_ne_nil fun hnone => hrest ⟨hinFlight, hnone⟩
      have hstage : callback.stage = .performNextRequest := by
        by_contra hne
        rw [hcallbacks, answering_cons_of_ne _ hne] at hanswering
        cases hanswering
      refine ⟨.callback 0, trivial, fun _ _ => .inr ⟨hinFlight, hanswering⟩,
        isSome_step_callback (Client.isSome_stepCallback (by rw [hcallbacks]; rfl) ?_ ?_)⟩
      · simp [hstage]
      · simp [hstage]
    | @underway request requests entered hrequests hround =>
      rw [hanswering] at hround
      cases hround with
      | answered _ h | recorded _ h => cases h
      | calling hinFlight =>
        have hsigned := h.signed_requests request (by rw [hrequests]; exact List.mem_cons_self)
        refine ⟨.respond 0 [], trivial, trivial, ?_⟩
        rw [State.step, hinFlight, List.getElem?_cons_zero, Option.bind_eq_bind, Option.bind_some,
          Service.reply, hsigned.getSequenceNumber]
        rfl
  · obtain ⟨callback, hmem⟩ := List.exists_mem_of_ne_nil _ hanswering
    obtain ⟨hmem, hstage⟩ := List.mem_filter.mp hmem
    obtain ⟨i, hget⟩ := List.mem_iff_getElem?.mp hmem
    obtain ⟨l₁, l₂, hl, -⟩ := exists_split hget
    obtain ⟨request, requests, hrequests, -, -, -, -, hresponse⟩ :=
      h.turn.answers hl (by simpa using hstage)
    refine ⟨.callback i, trivial, fun response hget' => ?_,
      isSome_step_callback (Client.isSome_stepCallback hget (fun hfirst => ?_) fun _ => ?_)⟩
    · rw [hget, Option.some_inj] at hget'
      simp [hget'] at hstage
    · obtain ⟨-, ⟨data, hdata⟩, -⟩ | ⟨hlater, -⟩ := hresponse
      · have hsigned := h.signed_requests request (by rw [hrequests]; exact List.mem_cons_self)
        rw [hdata, getSequenceNumber_append hsigned.1]
        rfl
      · exact (hlater hfirst).elim
    · rw [hrequests]
      exact List.cons_ne_nil _ _

/-! ## The result -/

/-- **One call at a time, or where it fails.**  After any run all of whose steps are timely:

* every request on the queue has been called once, in its turn, or is going to be: calls can be
  answered until nothing is left to do, in as many steps as there is work;
* at most one call is outstanding, no request is taken off an empty queue, and responses enter once
  each and in the order of the requests;
* and the next step, whatever it is, leaves it so exactly if it is timely. -/
theorem stop_and_wait {s : State} (h : system.Reachable State.Timely s) :
    s.Orderly ∧
      (s.AtRest ∨ ∃ a : Action, a.Answers ∧ s.Timely a ∧ (s.step a).isSome) ∧
      (∀ (a : Action) s', a.Answers → s.Timely a → s.step a = some s' → s'.work + 1 = s.work) ∧
      ∀ a s', s.step a = some s' → (s'.Orderly ↔ s.Timely a) := by
  obtain ⟨done, hinv⟩ := exists_inv h
  have hkeep : ∀ a s', s.Timely a → s.step a = some s' → s'.Orderly := by
    intro a s' htimely hstep
    obtain ⟨done', hinv'⟩ := hinv.step htimely hstep
    exact hinv'.orderly
  refine ⟨hinv.orderly, or_iff_not_imp_left.mpr hinv.exists_answer, ?_, ?_⟩
  · intro a s' hanswers htimely hstep
    exact work_step hanswers (hkeep a s' htimely hstep) hstep
  · intro a s' hstep
    refine ⟨fun horderly => ?_, fun htimely => hkeep a s' htimely hstep⟩
    cases a with
    | callback i =>
      by_contra htimely
      obtain ⟨⟨client, call⟩, hclient, hstep⟩ := Option.bind_eq_some_iff.mp hstep
      cases hstep
      exact hinv.repeats htimely hclient horderly
    | generate | sendRequest _ | enqueueRequest _ | respond _ _ | takeResponse => trivial

/-- A client whose only request has gone its round. -/
theorem stop_and_wait_round : ∃ s : State, s.AtRest ∧ s.calls = numbered s.enqueued ∧
    s.enqueued.length = 1 ∧ s.Orderly := by
  have h : system.Reachable State.Timely _ :=
    .step (a := .callback 0)
      (.step (a := .callback 0)
        (.step (a := .callback 0)
          (.step (a := .callback 0)
            (.step (a := .respond 0 [7])
              (.step (a := .enqueueRequest 0)
                (.step (a := .sendRequest [1]) .init trivial rfl) trivial rfl) trivial rfl)
            (fun _ h => by cases h) rfl) (fun _ h => by cases h) rfl) (fun _ h => by cases h) rfl)
      (fun _ _ => .inl rfl) rfl
  exact ⟨_, ⟨rfl, rfl⟩, rfl, rfl, (stop_and_wait h).1⟩

/-- **A call made twice.**  A callback has taken the only request off the queue and let go of the
lock.  A second request finds the queue empty and is called; the callback then finds it on the queue
and calls it again. -/
theorem called_twice : ∃ s : State, system.Reachable System.any s ∧ s.inFlight.length = 2 ∧
    s.calls.map Prod.fst = [0, 1, 1] ∧ ¬ s.Orderly := by
  refine ⟨_, System.reachable_of_exec [.sendRequest [1], .enqueueRequest 0, .respond 0 [7],
    .callback 0, .callback 0, .callback 0, .sendRequest [2], .enqueueRequest 0, .callback 0] rfl,
    rfl, rfl, fun h => ?_⟩
  have hle := h.inFlight_le
  exact absurd hle (by decide)

end StopAndWait

end RmwEcal
