import RmwEcal.Shared.Subscriber
import RmwEcal.Shared.HandOver
import RmwEcal.Shared.StopAndWait

/-!
# Taking

The functions of `rmw.cpp` that take a message, a request or a response look whether there is one,
let go of the lock, and take it.  `Transition.Mailbox` says what comes of it for a queue of any
kind; here are the three kinds there are, with everything else that may happen to a subscriber, a
service or a client while its messages are taken.
-/

set_option autoImplicit false

namespace RmwEcal

open Transition

/-! ## The functions that take -/

/-- `rmw_take`. -/
def rmwTake : Mailbox.Take := .once

/-- `rmw_take_with_info`. -/
def rmwTakeWithInfo : Mailbox.Take := .once

/-- `rmw_take_sequence`, for sequences of these capacities. -/
def rmwTakeSequence (count messageCapacity infoCapacity : ℕ) : Except String Mailbox.Take :=
  if messageCapacity < count then .error "message_sequence capacity is smaller then count."
  else if infoCapacity < count then .error "message_info_sequence capacity is smaller then count."
  else .ok (.upTo count)

/-- `rmw_take_serialized_message`. -/
def rmwTakeSerializedMessage : Mailbox.Take := .once

/-- `rmw_take_serialized_message_with_info`. -/
def rmwTakeSerializedMessageWithInfo : Mailbox.Take := rmwTakeSerializedMessage

/-- `rmw_take_request`. -/
def rmwTakeRequest : Mailbox.Take := .once

/-- `rmw_take_response`. -/
def rmwTakeResponse : Mailbox.Take := .once

/-! ## Requests -/

/-- `HasRequest`. -/
def Service.hasRequest (s : Service) : Bool := !s.pending.isEmpty

namespace HandOver

/-- Everything that happens to a service but for requests being taken. -/
def stepOther (s : State) (a : Action) : Option State :=
  if a = .takeRequest then none else s.step a

/-- `PopNextRequest`, with the request that `TakeRequest` goes on with. -/
def popNextRequest (s : State) : Option (State × ℕ) := do
  let ref ← s.service.pending.head?
  let s ← s.step .takeRequest
  some (s, ref)

/-- A request that arrives comes to the end of the queue, and nothing but a take removes one. -/
theorem stepOther_pending {s s' : State} {a : Action} (h : stepOther s a = some s') :
    s.service.pending <+: s'.service.pending := by
  rw [stepOther, Option.ite_none_left_eq_some] at h
  obtain ⟨hother, h⟩ := h
  rcases a with _ | request | ref | ref | _ | i | ⟨response, requestId⟩ | i
  · cases h
    exact List.prefix_rfl
  · obtain ⟨_, -, h⟩ := Option.bind_eq_some_iff.mp h
    cases h
    exact List.prefix_rfl
  · obtain ⟨⟨service, response⟩, hservice, h⟩ := Option.bind_eq_some_iff.mp h
    cases h
    obtain ⟨handler, -, hcase⟩ := Service.stepHandler_cases hservice
    rcases hcase with _ | _ | _ | _
    · exact List.prefix_append _ _
    · exact List.prefix_rfl
    · exact List.prefix_rfl
    · exact List.prefix_rfl
  · obtain ⟨service, hservice, h⟩ := Option.bind_eq_some_iff.mp h
    cases h
    obtain ⟨handler, -, -, rfl⟩ := Service.wake_cases hservice
    exact List.prefix_rfl
  · exact absurd rfl hother
  · obtain ⟨⟨service, taken⟩, hservice, h⟩ := Option.bind_eq_some_iff.mp h
    cases h
    obtain ⟨l₁, l₂, ref, stage, handler, -, -, -, hcase⟩ := Service.stepTake_cases hservice
    rcases hcase with _ | _
    · exact List.prefix_rfl
    · exact List.prefix_rfl
  · obtain ⟨ref, -, h⟩ := Option.bind_eq_some_iff.mp h
    obtain ⟨service, hservice, h⟩ := Option.bind_eq_some_iff.mp h
    cases h
    obtain ⟨ref', -, -, rfl⟩ := Service.sendResponse_cases hservice
    exact List.prefix_rfl
  · obtain ⟨send, -, h⟩ := Option.bind_eq_some_iff.mp h
    obtain ⟨service, hservice, h⟩ := Option.bind_eq_some_iff.mp h
    cases h
    obtain ⟨l₁, l₂, send', -, -, -, hcase⟩ := Service.stepSend_cases hservice
    generalize send'.stage = stage at hcase
    rcases hcase with _ | _ | _
    · exact List.prefix_rfl
    · exact List.prefix_rfl
    · exact List.prefix_rfl

/-- The queue of a service. -/
def mailbox : Mailbox State Action ℕ where
  init := .fresh
  step := stepOther
  queue s := s.service.pending
  has s := s.service.hasRequest
  pop := popNextRequest
  queue_init := rfl
  queue_step := stepOther_pending
  has_eq _ := rfl
  queue_pop {s s' ref} h := by
    obtain ⟨ref', hhead, h⟩ := Option.bind_eq_some_iff.mp h
    obtain ⟨t, hstep, h⟩ := Option.bind_eq_some_iff.mp h
    cases h
    obtain ⟨pending, hpending⟩ := List.head?_eq_some_iff.mp hhead
    rw [State.step, Service.takeRequest, hpending] at hstep
    cases hstep
    exact hpending
  isSome_pop {s} h := by
    obtain ⟨ref, pending, hpending⟩ := List.exists_cons_of_ne_nil h
    rw [popNextRequest, State.step, Service.takeRequest, hpending]
    rfl

end HandOver

/-! ## Responses -/

/-- `HasResponse`. -/
def Client.hasResponse (c : Client) : Bool := !c.responses.isEmpty

namespace StopAndWait

/-- Everything that happens to a client but for responses being taken. -/
def stepOther (s : State) (a : Action) : Option State :=
  if a = .takeResponse then none else s.step a

/-- `PopResponse`, with the response that `TakeResponse` goes on with. -/
def popResponse (s : State) : Option (State × Client.Response) := do
  let response ← s.client.responses.head?
  let s ← s.step .takeResponse
  some (s, response)

/-- A response that arrives comes to the end of the queue, and nothing but a take removes one. -/
theorem stepOther_responses {s s' : State} {a : Action} (h : stepOther s a = some s') :
    s.client.responses <+: s'.client.responses := by
  rw [stepOther, Option.ite_none_left_eq_some] at h
  obtain ⟨hother, h⟩ := h
  rcases a with _ | serializedData | i | ⟨i, response⟩ | i | _
  · cases h
    exact List.prefix_rfl
  · cases h
    exact List.prefix_rfl
  · obtain ⟨⟨client, call⟩, hclient, h⟩ := Option.bind_eq_some_iff.mp h
    cases h
    obtain ⟨request, -, rfl, -⟩ := Client.enqueueRequest_cases hclient
    exact List.prefix_rfl
  · obtain ⟨request, -, h⟩ := Option.bind_eq_some_iff.mp h
    obtain ⟨reply, -, h⟩ := Option.bind_eq_some_iff.mp h
    cases h
    exact List.prefix_rfl
  · obtain ⟨⟨client, call⟩, hclient, h⟩ := Option.bind_eq_some_iff.mp h
    cases h
    obtain ⟨l₁, l₂, stage, response, -, -, hcase⟩ := Client.stepCallback_cases hclient
    rcases hcase with _ | _ | _ | _
    · exact List.prefix_append _ _
    · exact List.prefix_rfl
    · exact List.prefix_rfl
    · exact List.prefix_rfl
  · exact absurd rfl hother

/-- The queue of responses of a client. -/
def mailbox : Mailbox State Action Client.Response where
  init := .fresh
  step := stepOther
  queue s := s.client.responses
  has s := s.client.hasResponse
  pop := popResponse
  queue_init := rfl
  queue_step := stepOther_responses
  has_eq _ := rfl
  queue_pop {s s' response} h := by
    obtain ⟨response', hhead, h⟩ := Option.bind_eq_some_iff.mp h
    obtain ⟨t, hstep, h⟩ := Option.bind_eq_some_iff.mp h
    cases h
    obtain ⟨responses, hresponses⟩ := List.head?_eq_some_iff.mp hhead
    rw [State.step, Client.takeResponse, hresponses] at hstep
    cases hstep
    exact hresponses
  isSome_pop {s} h := by
    obtain ⟨response, responses, hresponses⟩ := List.exists_cons_of_ne_nil h
    rw [popResponse, State.step, Client.takeResponse, hresponses]
    rfl

end StopAndWait

/-! ## Exactly once -/

/-- **Every message, request and response is handed out once and in order**, and none is taken from
an empty queue, in all runs in which a last one is only taken while no other thread has seen it. -/
theorem taken_exactly_once (qos : Qos.EndpointQOS) :
    (∀ s, (Subscriber.mailbox qos).takers.Reachable (Subscriber.mailbox qos).Uncontested s →
      s.underflow = false ∧ s.arrived = s.handed ++ s.inner.data) ∧
    (∀ s, HandOver.mailbox.takers.Reachable HandOver.mailbox.Uncontested s →
      s.underflow = false ∧ s.arrived = s.handed ++ s.inner.service.pending) ∧
    ∀ s, StopAndWait.mailbox.takers.Reachable StopAndWait.mailbox.Uncontested s →
      s.underflow = false ∧ s.arrived = s.handed ++ s.inner.client.responses := by
  refine ⟨fun s h => ?_, fun s h => ?_, fun s h => ?_⟩
  · obtain ⟨hnone, hbalanced⟩ := Mailbox.takers_safe h
    exact ⟨hnone, hbalanced⟩
  · obtain ⟨hnone, hbalanced⟩ := Mailbox.takers_safe h
    exact ⟨hnone, hbalanced⟩
  · obtain ⟨hnone, hbalanced⟩ := Mailbox.takers_safe h
    exact ⟨hnone, hbalanced⟩

/-- A message is taken by a thread that would take up to two, a request and a response by one that
asks for one. -/
theorem taken_exactly_once_each :
    ∃ s t u, ((Subscriber.mailbox Subscriber.lastOnlyQos).takers.Reachable
          (Subscriber.mailbox Subscriber.lastOnlyQos).Uncontested s ∧ s.handed.length = 1 ∧
        s.underflow = false ∧ s.arrived = s.handed ++ s.inner.data) ∧
      (HandOver.mailbox.takers.Reachable HandOver.mailbox.Uncontested t ∧ t.handed = [0] ∧
        t.underflow = false ∧ t.arrived = t.handed ++ t.inner.service.pending) ∧
      StopAndWait.mailbox.takers.Reachable StopAndWait.mailbox.Uncontested u ∧
        u.handed.length = 1 ∧ u.underflow = false ∧
        u.arrived = u.handed ++ u.inner.client.responses := by
  have hs : (Subscriber.mailbox Subscriber.lastOnlyQos).takers.Reachable
      (Subscriber.mailbox Subscriber.lastOnlyQos).Uncontested _ := System.reachable_of_exec
    [.work (.onReceiveData [1] 0 0), .work (.callback 0), .call (.upTo 2), .taker 0, .taker 0,
      .taker 0] rfl
  have ht : HandOver.mailbox.takers.Reachable HandOver.mailbox.Uncontested _ :=
    System.reachable_of_exec
    [.work (.onRequest (sequenceBytes 0)), .work (.handler 0), .call rmwTakeRequest, .taker 0,
      .taker 0] rfl
  have hu : StopAndWait.mailbox.takers.Reachable StopAndWait.mailbox.Uncontested _ :=
    System.reachable_of_exec
    [.work (.sendRequest [1]), .work (.enqueueRequest 0), .work (.respond 0 [7]),
      .work (.callback 0), .call rmwTakeResponse, .taker 0, .taker 0] rfl
  have h := taken_exactly_once Subscriber.lastOnlyQos
  exact ⟨_, _, _, ⟨hs, rfl, h.1 _ hs⟩, ⟨ht, rfl, h.2.1 _ ht⟩, hu, rfl, h.2.2 _ hu⟩

/-- **Two threads have seen the only message.**  The second one to take it takes from an empty
queue. -/
theorem taken_twice : ∃ s,
    (Subscriber.mailbox Subscriber.lastOnlyQos).takers.Reachable System.any s ∧
      s.arrived.length = 1 ∧ s.underflow = true :=
  ⟨_, System.reachable_of_exec [.work (.onReceiveData [1] 0 0), .work (.callback 0), .call rmwTake,
    .call rmwTake, .taker 0, .taker 1, .taker 0, .taker 0] rfl, rfl, rfl⟩

end RmwEcal
