import RmwEcal.Shared.ExactlyOnce
import RmwEcal.Shared.Whereabouts

/-!
# Coming to an answer

Any number of clients and the threads of a service are at work, and a client has sent requests.
`ExactlyOnce` says that they have all been answered when nothing is left to do for this client; here
it comes to that.  If no more requests are sent and the executor answers what it takes, every step
leaves less to do (`World.work_lt`), whatever the order of the steps, and there is a step as long as
something is left (`World.exists_serves`).

So `World.completes` leaves no room for a request that is forgotten, for one that goes round for
ever or for a deadlock, with one exception.  `PopNextRequest` reads an element that it has popped,
and `current_requests_` is used without a lock; the model has a result for both, and the code need
not have one.  Which of these steps are defined is left open (`World.LeftOpen`), and it is only they
that can keep a request from its answer.  What `World.completes` asks of the steps before is that of
`Correlation`, `ExactlyOnce` and `Whereabouts`.
-/

set_option autoImplicit false

namespace RmwEcal

open Transition Service

section Completion

variable {Req Res : Type}

/-! ## What is left to do

A step takes something away and may leave something else behind, which weighs less. -/

/-- What is left to do in an activation of `OnResponse`: its own steps, and the next call, which it
may make. -/
def Client.Stage.work : Client.Stage → ℕ
  | .enqueueResponse => 3
  | .notifyWaitSet => 2
  | .popLastRequest => 1
  | .performNextRequest => 17

/-- What is left to do in a client.  A request on the queue is still to be taken off it, and one
that is not there yet is to be called too. -/
def Client.work (client : Client) : ℕ :=
  34 * client.sending.length + 17 * client.requests.length +
    (client.callbacks.map fun callback => callback.stage.work).sum

/-- What is left to do in an activation of `OnRequest`.  While it has not put its request on the
queue, this is to be taken and answered. -/
def Service.Phase.work : Phase → ℕ
  | .enqueueRequest => 15
  | .notifyWaitSet => 7
  | .waitForResponse => 6
  | .waiting | .getResponse => 5
  | .returned => 0

/-- What is left to do with a request that a thread in `TakeRequest` has. -/
def Service.TakeStage.work : TakeStage → ℕ
  | .insertCurrent => 6
  | .deserializeRequest => 5

/-- What is left to do in `SendResponse`. -/
def Service.SendStage.work : SendStage → ℕ
  | .assignResponse => 3
  | .notifyOne => 2
  | .eraseCurrent => 1

/-- What is left to do in a service. -/
def Service.work (service : Service) : ℕ :=
  (service.handlers.map fun handler => handler.phase.work).sum + 7 * service.pending.length +
    (service.takes.map fun take => take.stage.work).sum +
    (service.sends.map fun send => send.stage.work).sum

/-- The requests that have been taken and not been answered. -/
def Log.unanswered (log : Log Req Res) : ℕ :=
  log.taken.countP fun taken => ¬ log.IsAnswered taken.requestId

section Work

variable {client client' : Client} {service service' : Service} {log : Log Req Res}

/-- To put a request on the queue, and to call it if there is no other, leaves less to do. -/
theorem Client.work_enqueueRequest {i : ℕ} {call : Option (List UInt8)}
    (h : client.enqueueRequest i = some (client', call)) :
    client'.work + 16 * call.toList.length < client.work := by
  obtain ⟨request, hget, rfl, -⟩ := Client.enqueueRequest_cases h
  have hlen := (perm_eraseIdx hget).length_eq
  have hle : call.toList.length ≤ 1 := by cases call <;> simp
  simp only [Client.work, List.length_append, List.length_cons, List.length_nil] at hlen ⊢
  omega

theorem Client.work_stepCallback {i : ℕ} {call : Option (List UInt8)}
    (h : client.stepCallback i = some (client', call)) :
    client'.work + 16 * call.toList.length < client.work := by
  obtain ⟨l₁, l₂, stage, response, -, hl, hcases⟩ := Client.stepCallback_cases h
  cases hcases with
  | enqueueResponse | notifyWaitSet =>
    simp [Client.work, hl, Client.Stage.work]
  | popLastRequest hrequests =>
    simp [Client.work, hl, Client.Stage.work, hrequests]
    omega
  | performNextRequest =>
    have hle : (client.requests.head?.map Client.Request.data).toList.length ≤ 1 := by
      cases client.requests.head? <;> simp
    simp only [Client.work, hl, Client.Stage.work, List.map_append, List.map_cons, List.sum_append,
      List.sum_cons]
    omega

theorem Client.work_onResponse (client : Client) (response : List UInt8) :
    (client.onResponse response).work = client.work + 3 := by
  simp [Client.onResponse, Client.work, Client.Stage.work, Nat.add_assoc]

theorem Service.work_onRequest (service : Service) (requestId : ℕ) (request : List UInt8) :
    (service.onRequest requestId request).work = service.work + 15 := by
  simp [Service.onRequest, Service.work, Service.Phase.work]
  omega

/-- A handler moves. -/
theorem Service.work_update {ref : ℕ} {handler : Handler}
    (hget : service.handlers[ref]? = some handler) (handler' : Handler) :
    (service.update ref handler').work + handler.phase.work =
      service.work + handler'.phase.work := by
  obtain ⟨l₁, l₂, hl, -, hset, -⟩ := exists_split hget
  simp only [Service.work, Service.update, hset]
  simp only [hl, List.map_append, List.map_cons, List.sum_append, List.sum_cons]
  omega

theorem Service.work_phase {ref n : ℕ} {handler : Handler}
    (hget : service.handlers[ref]? = some handler) {phase : Phase}
    (hlt : phase.work + n < handler.phase.work) :
    (service.update ref { handler with phase := phase }).work + n < service.work := by
  have heq := service.work_update hget { handler with phase := phase }
  simp only at heq
  omega

/-- A thread in `SendResponse` moves. -/
theorem Service.work_sends (service : Service) {l₁ l₂ : List Send} {send : Send}
    (hl : service.sends = l₁ ++ send :: l₂) (stage : SendStage) :
    Service.work { service with sends := l₁ ++ { send with stage := stage } :: l₂ } +
      send.stage.work = service.work + stage.work := by
  simp only [Service.work, hl, List.map_append, List.map_cons, List.sum_append, List.sum_cons]
  omega

theorem Service.work_stepHandler {ref : ℕ} {reply : Option (List UInt8)}
    (h : service.stepHandler ref = some (service', reply)) :
    service'.work + 4 * reply.toList.length < service.work := by
  obtain ⟨handler, hget, hcases⟩ := stepHandler_cases h
  cases hcases with
  | enqueueRequest hphase =>
    have heq := service.work_update hget { handler with phase := .notifyWaitSet }
    simp only [hphase, Service.Phase.work, Service.work, Service.update, List.length_append,
      List.length_singleton, Option.toList_none, List.length_nil] at heq ⊢
    omega
  | notifyWaitSet hphase | waitForResponse hphase | getResponse hphase =>
    exact Service.work_phase hget (by simp [hphase, Service.Phase.work])

theorem Service.work_takeRequest (h : service.takeRequest = some service') :
    service'.work < service.work := by
  obtain ⟨ref, pending, hpending, rfl⟩ := takeRequest_cases h
  simp [Service.work, hpending, Service.TakeStage.work]
  omega

theorem Service.work_stepTake {i : ℕ} {taken : Option (ℕ × List UInt8)}
    (h : service.stepTake i = some (service', taken)) :
    service'.work + 4 * taken.toList.length < service.work := by
  obtain ⟨l₁, l₂, ref, stage, handler, -, hl, -, hcases⟩ := stepTake_cases h
  cases hcases with
  | insertCurrent => simp [Service.work, hl, Service.TakeStage.work]
  | deserializeRequest =>
    simp [Service.work, hl, Service.TakeStage.work]
    omega

theorem Service.work_sendResponse {response : List UInt8} {requestId : ℕ}
    (h : service.sendResponse response requestId = some service') :
    service'.work = service.work + 3 := by
  obtain ⟨ref, -, -, rfl⟩ := sendResponse_cases h
  simp [Service.work, Service.SendStage.work, Nat.add_assoc]

theorem Service.work_stepSend {i : ℕ} (h : service.stepSend i = some service') :
    service'.work < service.work := by
  obtain ⟨l₁, l₂, send, -, hl, -, hcases⟩ := stepSend_cases h
  generalize hstage : send.stage = stage at hcases
  cases hcases with
  | @assignResponse handler hget _ =>
    have hmoved := service.work_update hget { handler with response := send.response }
    have hsent := Service.work_sends
      (service.update send.ref { handler with response := send.response }) hl .notifyOne
    simp only [hstage, Service.SendStage.work] at hmoved hsent ⊢
    omega
  | @notifyOne handler hget _ phase hphase =>
    have hmoved := service.work_update hget { handler with phase := phase }
    have hsent := Service.work_sends
      (service.update send.ref { handler with phase := phase }) hl .eraseCurrent
    have hphase : phase.work = handler.phase.work := by
      obtain ⟨hwaiting, rfl⟩ | ⟨-, rfl⟩ := hphase
      · rw [hwaiting]
        rfl
      · rfl
    simp only [hstage, hphase, Service.SendStage.work] at hmoved hsent ⊢
    omega
  | eraseCurrent =>
    simp [Service.work, hl, hstage, Service.SendStage.work]

/-- What is taken is to be answered. -/
theorem Log.unanswered_taken (log : Log Req Res) (taken : List Taken) :
    Log.unanswered { log with taken := log.taken ++ taken } ≤ log.unanswered + taken.length := by
  rw [Log.unanswered, List.countP_append]
  exact Nat.add_le_add_left List.countP_le_length _

/-- Fewer are counted if one of them is not counted any more. -/
theorem countP_lt_countP {β : Type} {p q : β → Bool} {l : List β} {b : β} (hmem : b ∈ l)
    (himp : ∀ b, p b → q b) (hp : ¬ p b) (hq : q b) : l.countP p < l.countP q := by
  obtain ⟨l₁, l₂, rfl⟩ := List.append_of_mem hmem
  have h₁ : l₁.countP p ≤ l₁.countP q := List.countP_mono_left fun b _ => himp b
  have h₂ : l₂.countP p ≤ l₂.countP q := List.countP_mono_left fun b _ => himp b
  rw [List.countP_append, List.countP_append, List.countP_cons_of_neg hp,
    List.countP_cons_of_pos hq]
  omega

/-- A request that has been taken is answered. -/
theorem Log.unanswered_answered {requestId : ℕ} (htaken : log.IsTaken requestId)
    (hnew : ¬ log.IsAnswered requestId) (response : Res) :
    Log.unanswered { log with answered := log.answered ++ [⟨requestId, response⟩] } <
      log.unanswered := by
  obtain ⟨taken, hmem, rfl⟩ := htaken
  refine countP_lt_countP hmem (fun other hother => ?_) ?_ (by simpa using hnew)
  · rw [decide_eq_true_eq] at hother ⊢
    exact fun ⟨answered, hanswered, hid⟩ =>
      hother ⟨answered, List.mem_append_left _ hanswered, hid⟩
  · rw [decide_eq_true_eq, not_not]
    exact ⟨_, List.mem_append_right _ (List.mem_singleton.mpr rfl), rfl⟩

end Work

/-! ## The world -/

namespace World

variable (ts : ServiceTypeSupport Req Res) (processOf : ℕ → ℕ)

/-! ### Less and less to do -/

/-- What is asked of the steps for a client. -/
def Unhindered (c : ℕ) (w : World Req Res) (a : Action Req Res) : Prop :=
  w.Prompt processOf a ∧ Timely c w a

instance (c : ℕ) (w : World Req Res) (a : Action Req Res) :
    Decidable (w.Unhindered processOf c a) := inferInstanceAs (Decidable (_ ∧ _))

/-- The steps in which the calls of a client are made and answered: those of its own threads but for
new requests, those of the service, and of eCAL between them. -/
def Serves (c : ℕ) (w : World Req Res) : Action Req Res → Prop
  | .enqueueRequest c' _ | .callback c' _ => c' = c
  | .onRequest _ | .handler _ | .takeRequest | .take _ | .sendResponse _ _ | .send _ => True
  | .onResponse i => w.replies[i]?.map Message.client = some c
  | .generateSequenceNumber _ | .generateRequestId | .sendRequest _ _ | .wake _
  | .takeResponse _ => False

instance (c : ℕ) (w : World Req Res) (a : Action Req Res) : Decidable (Serves c w a) :=
  match a with
  | .enqueueRequest _ _ | .callback _ _ => Nat.decEq _ _
  | .onRequest _ | .handler _ | .takeRequest | .take _ | .sendResponse _ _ | .send _ =>
    isTrue trivial
  | .onResponse _ => inferInstanceAs (Decidable (_ = _))
  | .generateSequenceNumber _ | .generateRequestId | .sendRequest _ _ | .wake _
  | .takeResponse _ => isFalse id

/-- Such a step that meets the condition. -/
def Advances (c : ℕ) (w : World Req Res) (a : Action Req Res) : Prop :=
  Serves c w a ∧ w.Unhindered processOf c a

instance (c : ℕ) (w : World Req Res) (a : Action Req Res) :
    Decidable (w.Advances processOf c a) := inferInstanceAs (Decidable (_ ∧ _))

/-- For such a step the model has a result, and the code need not have one: `PopNextRequest` reads
the reference that it has popped, and `current_requests_` is used without a lock. -/
def LeftOpen (w : World Req Res) : Action Req Res → Prop
  | .takeRequest | .sendResponse _ _ => True
  | .take i => ∃ take, w.service.takes[i]? = some take ∧ take.stage = .insertCurrent
  | .send i => ∃ send, w.service.sends[i]? = some send ∧ send.stage = .eraseCurrent
  | _ => False

/-- What is left to do until a client is at rest, with the calls of all clients. -/
def work (c : ℕ) (w : World Req Res) : ℕ :=
  (w.clients c).work + 16 * w.calls.length + w.service.work + 4 * w.log.unanswered +
    4 * (ofClient c w.replies).length

section Work

variable {ts} {processOf} {w w' : World Req Res} {c : ℕ}

/-- The client takes a step in which it may make a call. -/
theorem work_setClient {client : Client} {call : Option (List UInt8)}
    (h : client.work + 16 * call.toList.length < (w.clients c).work) :
    (w.setClient c client call).work c < w.work c := by
  simp only [work, setClient, Function.update_self, List.length_append, List.length_map]
  omega

/-- **Every such step leaves less to do.** -/
theorem work_lt {a : Action Req Res} (hserves : Serves c w a) (hregular : w.Regular processOf a)
    (hstep : w.step ts processOf a = some w') : w'.work c < w.work c := by
  cases a with
  | generateSequenceNumber _ | generateRequestId | sendRequest _ _ | wake _ | takeResponse _ =>
    exact hserves.elim
  | enqueueRequest c' i =>
    obtain rfl : c' = c := hserves
    obtain ⟨⟨client, call⟩, hclient, heq⟩ := Option.bind_eq_some_iff.mp hstep
    cases heq
    exact work_setClient (Client.work_enqueueRequest hclient)
  | onRequest i =>
    obtain ⟨call, hcall, heq⟩ := Option.bind_eq_some_iff.mp hstep
    cases heq
    have hlen := (perm_eraseIdx hcall).length_eq
    simp only [work, Service.work_onRequest, List.length_cons] at hlen ⊢
    omega
  | handler ref =>
    obtain ⟨client, -, hstep⟩ := Option.bind_eq_some_iff.mp hstep
    obtain ⟨⟨service, reply⟩, hservice, heq⟩ := Option.bind_eq_some_iff.mp hstep
    cases heq
    have hlt := Service.work_stepHandler hservice
    have hle : (ofClient c (reply.toList.map (Message.mk client))).length ≤
        reply.toList.length := by
      rw [ofClient, List.length_map]
      exact (List.length_filter_le _ _).trans (List.length_map _).le
    simp only [work, ofClient_append, List.length_append]
    omega
  | takeRequest =>
    obtain ⟨service, hservice, heq⟩ := Option.bind_eq_some_iff.mp hstep
    cases heq
    have hlt := Service.work_takeRequest hservice
    simp only [work]
    omega
  | take i =>
    obtain ⟨take, -, hstep⟩ := Option.bind_eq_some_iff.mp hstep
    obtain ⟨handler, -, hstep⟩ := Option.bind_eq_some_iff.mp hstep
    obtain ⟨client, -, hstep⟩ := Option.bind_eq_some_iff.mp hstep
    obtain ⟨⟨service, taken⟩, hservice, heq⟩ := Option.bind_eq_some_iff.mp hstep
    cases heq
    have hlt := Service.work_stepTake hservice
    have hle := w.log.unanswered_taken
      (taken.toList.map fun t => ⟨t.1, t.2, client, handler.request⟩)
    rw [List.length_map] at hle
    simp only [work]
    omega
  | sendResponse response requestId =>
    obtain ⟨service, hservice, heq⟩ := Option.bind_eq_some_iff.mp hstep
    cases heq
    have hnew : ¬ w.log.IsAnswered requestId := by
      rintro ⟨answered, hmem, hid⟩
      exact hregular.2 answered hmem hid
    have hlt := Log.unanswered_answered hregular.1 hnew response
    simp only [work, Service.work_sendResponse hservice]
    omega
  | send i =>
    obtain ⟨send, -, hstep⟩ := Option.bind_eq_some_iff.mp hstep
    obtain ⟨service, hservice, heq⟩ := Option.bind_eq_some_iff.mp hstep
    cases heq
    have hlt := Service.work_stepSend hservice
    simp only [work]
    omega
  | onResponse i =>
    obtain ⟨⟨c', data⟩, hreply, heq⟩ := Option.bind_eq_some_iff.mp hstep
    obtain rfl : c' = c := by simpa [Serves, hreply] using hserves
    cases heq
    obtain ⟨l₁, l₂, hl, -, -, herase, -⟩ := exists_split hreply
    have hlen :
        (ofClient c' w.replies).length = (ofClient c' (w.replies.eraseIdx i)).length + 1 := by
      rw [herase, hl, ofClient_append, ofClient_append, ofClient_cons_self]
      simp [Nat.add_assoc]
    simp only [work, setClient, Function.update_self, Client.work_onResponse, List.length_append,
      Option.toList_none, List.map_nil, List.length_nil]
    omega
  | callback c' i =>
    obtain rfl : c' = c := hserves
    obtain ⟨⟨client, call⟩, hclient, heq⟩ := Option.bind_eq_some_iff.mp hstep
    cases heq
    exact work_setClient (Client.work_stepCallback hclient)

end Work

/-! ### Nothing is stuck -/

section Serves

variable {ts} {processOf} {w w' : World Req Res} {c : ℕ}

/-- Requests carry a sequence number. -/
theorem Live.exists_trailer (h : Live ts processOf w) {ref : ℕ} {handler : Handler}
    (hget : w.service.handlers[ref]? = some handler) :
    ∃ data n, handler.request = data ++ sequenceBytes n ∧ n < 2 ^ 64 := by
  obtain ⟨c, -, sent, -, -, hlt, heq⟩ := h.inv.serving.handlers ref handler hget
  exact ⟨_, _, heq, hlt⟩

/-- A step of a handler that is neither in the wait nor gone. -/
theorem Live.isSome_handler (h : Live ts processOf w) {ref : ℕ} {handler : Handler}
    (hget : w.service.handlers[ref]? = some handler) (hwaiting : handler.phase ≠ .waiting)
    (hreturned : handler.phase ≠ .returned) : (w.step ts processOf (.handler ref)).isSome := by
  obtain ⟨client, hclient, -⟩ := h.inv.serving.handlers ref handler hget
  obtain ⟨data, n, hrequest, hlt⟩ := h.exists_trailer hget
  have hsome : (w.service.stepHandler ref).isSome := by
    rw [stepHandler, hget, Option.bind_eq_bind, Option.bind_some]
    cases hphase : handler.phase with
    | enqueueRequest | notifyWaitSet | waitForResponse => rfl
    | waiting => exact (hwaiting hphase).elim
    | getResponse => simp [reply, hrequest, getSequenceNumber_append hlt]
    | returned => exact (hreturned hphase).elim
  obtain ⟨⟨service, reply⟩, hservice⟩ := Option.isSome_iff_exists.mp hsome
  simp [World.step, hclient, hservice]

/-- A step of a thread in `TakeRequest`. -/
theorem Live.isSome_take (h : Live ts processOf w) {i : ℕ} {take : Take}
    (htake : w.service.takes[i]? = some take) : (w.step ts processOf (.take i)).isSome := by
  have hmem := List.mem_of_getElem? htake
  obtain ⟨handler, hget, -, hnot⟩ := h.offering.queued take.ref
    (List.mem_append_right _ (List.mem_map_of_mem hmem))
  obtain ⟨client, hclient, -⟩ := h.inv.serving.handlers take.ref handler hget
  obtain ⟨data, n, hrequest, -⟩ := h.exists_trailer hget
  have hlive : handler.phase ≠ .returned := fun hphase =>
    hnot (h.inv.serving.isTaken (h.inv.serving.isAnswered hget (by simp [Phase.Awaits, hphase])))
  have hsome : (w.service.stepTake i).isSome := by
    rw [stepTake, htake]
    cases hstage : take.stage <;>
      simp [deref, hget, hlive, hstage, Request.getRequest, hrequest]
  obtain ⟨⟨service, taken⟩, hservice⟩ := Option.isSome_iff_exists.mp hsome
  simp [World.step, htake, hget, hclient, hservice]

/-- A step of a thread in `SendResponse`. -/
theorem Live.isSome_send (h : Live ts processOf w) {i : ℕ} {send : Send}
    (hsend : w.service.sends[i]? = some send) : (w.step ts processOf (.send i)).isSome := by
  have hmem := List.mem_of_getElem? hsend
  obtain ⟨handler, hget, -⟩ := h.inv.serving.sends send hmem
  have hlive : send.stage ≠ .eraseCurrent → handler.phase ≠ .returned := fun hstage =>
    (h.returning.notifies send hmem hstage handler hget).2
  have hsome : (w.service.stepSend i).isSome := by
    rw [stepSend, hsend]
    cases hstage : send.stage with
    | assignResponse | notifyOne => simp [hstage, deref, hget, hlive]
    | eraseCurrent => simp [hstage]
  obtain ⟨service, hservice⟩ := Option.isSome_iff_exists.mp hsome
  simp [World.step, hsend, hservice]

/-- **The service can go on** until all handlers have returned. -/
theorem Live.exists_serves (h : Live ts processOf w) (response : Res)
    (hbusy : ∃ handler ∈ w.service.handlers, handler.phase ≠ .returned) :
    ∃ a, Serves c w a ∧ w.Unhindered processOf c a ∧ (w.step ts processOf a).isSome := by
  by_cases hmoves : ∃ handler ∈ w.service.handlers,
      handler.phase ≠ .waiting ∧ handler.phase ≠ .returned
  · obtain ⟨handler, hmem, hwaiting, hreturned⟩ := hmoves
    obtain ⟨ref, hget⟩ := List.mem_iff_getElem?.mp hmem
    exact ⟨.handler ref, trivial, ⟨⟨trivial, trivial⟩, trivial⟩,
      h.isSome_handler hget hwaiting hreturned⟩
  -- from here on the handlers that have not returned are in the wait
  have hwait : ∀ handler ∈ w.service.handlers, handler.phase ≠ .returned →
      handler.phase = .waiting := fun handler hmem hne => by
    by_contra hnot
    exact hmoves ⟨handler, hmem, hnot, hne⟩
  obtain ⟨handler, hmem, hne⟩ := hbusy
  obtain ⟨ref, hget⟩ := List.mem_iff_getElem?.mp hmem
  have hphase := hwait handler hmem hne
  by_cases htakes : w.service.takes = []
  swap
  · obtain ⟨take, takes, heq⟩ := List.exists_cons_of_ne_nil htakes
    exact ⟨.take 0, trivial, ⟨⟨trivial, trivial⟩, trivial⟩, h.isSome_take (by rw [heq]; rfl)⟩
  by_cases hpending : w.service.pending = []
  swap
  · obtain ⟨ref, pending, heq⟩ := List.exists_cons_of_ne_nil hpending
    refine ⟨.takeRequest, trivial, ⟨⟨trivial, trivial⟩, trivial⟩, ?_⟩
    simp [World.step, takeRequest, heq]
  by_cases hsends : w.service.sends = []
  swap
  · obtain ⟨send, sends, heq⟩ := List.exists_cons_of_ne_nil hsends
    have hsend : w.service.sends[0]? = some send := by rw [heq]; rfl
    refine ⟨.send 0, trivial, ⟨⟨trivial, fun other hother hstage other' hget' => ?_⟩, trivial⟩,
      h.isSome_send hsend⟩
    obtain rfl := Option.some.inj (hsend.symm.trans hother)
    have hawaits := h.returning.notifies send (List.mem_of_getElem? hsend) (by simp [hstage])
      other' hget'
    exact hwait other' (List.mem_of_getElem? hget') hawaits.2
  -- the request of a handler in the wait has been taken, and it has not been answered
  have htaken : w.log.IsTaken handler.requestId := by
    obtain hoffered | htaken := h.offering.placed ref handler hget (by simp [hphase])
    · simp [offered, htakes, hpending] at hoffered
    · exact htaken
  have hnew : ¬ w.log.IsAnswered handler.requestId := fun hanswered => by
    obtain ⟨send, hsend, -⟩ := h.returning.notified ref handler hget
      (by simp [Phase.Awaits, hphase]) hanswered
    simp [hsends] at hsend
  refine ⟨.sendResponse response handler.requestId, trivial, ⟨⟨⟨htaken, fun answered hmem hid =>
    hnew ⟨answered, hmem, hid⟩⟩, trivial⟩, trivial⟩, ?_⟩
  obtain ⟨ref', hcurrent⟩ := h.offering.outstanding handler.requestId htaken hnew
  have hfound : (w.service.current.lookup handler.requestId).isSome :=
    List.lookup_isSome_iff.mpr ⟨_, hcurrent, by simp⟩
  obtain ⟨found, hlookup⟩ := Option.isSome_iff_exists.mp hfound
  simp [World.step, sendResponse, hlookup]

/-- The service is to answer nothing when all handlers have returned. -/
theorem awaiting_eq_nil {origins : List ℕ} {handlers : List Handler}
    (h : ∀ handler ∈ handlers, handler.phase = .returned) (c : ℕ) :
    awaiting origins handlers c = [] :=
  List.filterMap_eq_nil_iff.mpr fun activation hmem =>
    awaited_returned (h activation.2 (List.of_mem_zip hmem).2)

/-- A callback of a client that has no call under way. -/
theorem Sees.exists_callback {ordered : Prop} {s : StopAndWait.State}
    {done : List Client.Request} (h : Sees processOf ordered c w s) (hinv : StopAndWait.Inv s done)
    (hidle : w.Idle c) (hcallbacks : (w.clients c).callbacks ≠ []) :
    ∃ i, Timely c w (.callback c i) ∧ (w.step ts processOf (.callback c i)).isSome := by
  have hnone := h.inFlight.eq_nil hidle
  obtain ⟨b, hanswers, htimely, hsome⟩ := hinv.exists_answer fun hrest =>
    hcallbacks (h.client ▸ hrest.2)
  cases b with
  | respond i response => simp [StopAndWait.State.step, hnone] at hsome
  | callback i =>
    refine ⟨i, fun _ hstage => ?_, ?_⟩
    · obtain ⟨⟨stage, response⟩, hget, hstage⟩ := Option.map_eq_some_iff.mp hstage
      obtain rfl : stage = .performNextRequest := hstage
      rw [← h.client] at hget ⊢
      exact (htimely response hget).imp_right (And.imp_left fun _ => hidle)
    · obtain ⟨s', hs'⟩ := Option.isSome_iff_exists.mp hsome
      obtain ⟨⟨client, call⟩, hclient, -⟩ := Option.bind_eq_some_iff.mp hs'
      rw [h.client] at hclient
      simp [World.step, hclient]
  | generate | sendRequest _ | enqueueRequest _ | takeResponse => exact hanswers.elim

/-- **Nothing is stuck**: there is a step until the client is at rest. -/
theorem exists_serves (h : (system ts processOf).Reachable (Unhindered processOf c) w)
    (response : Res) (hids : w.calls ≠ [] → w.requestIds < 2 ^ 63) (hrest : ¬ w.AtRest c) :
    ∃ a, Serves c w a ∧ w.Unhindered processOf c a ∧ (w.step ts processOf a).isSome := by
  have hlive := Live.of_reachable (h.mono fun _ _ => And.left)
  by_cases hbusy : ∃ handler ∈ w.service.handlers, handler.phase ≠ .returned
  · exact hlive.exists_serves response hbusy
  by_cases hcalls : w.calls = []
  swap
  · obtain ⟨call, calls, heq⟩ := List.exists_cons_of_ne_nil hcalls
    refine ⟨.onRequest 0, trivial, ⟨⟨hids hcalls, trivial⟩, trivial⟩, ?_⟩
    simp [World.step, heq]
  by_cases hreplies : ofClient c w.replies = []
  swap
  · obtain ⟨data, hdata⟩ := List.exists_mem_of_ne_nil _ hreplies
    obtain ⟨reply, hmem, -⟩ := List.mem_map.mp hdata
    obtain ⟨hmem, hclient⟩ := List.mem_filter.mp hmem
    obtain ⟨i, hget⟩ := List.mem_iff_getElem?.mp hmem
    refine ⟨.onResponse i, ?_, ⟨⟨trivial, trivial⟩, trivial⟩, ?_⟩
    · simpa [Serves, hget] using hclient
    · simp [World.step, hget]
  have hidle : w.Idle c := by
    refine ⟨by rw [hcalls]; rfl, awaiting_eq_nil (fun handler hmem => ?_) c, hreplies⟩
    by_contra hne
    exact hbusy ⟨handler, hmem, hne⟩
  by_cases hcallbacks : (w.clients c).callbacks = []
  swap
  · obtain ⟨s, hs, hsees⟩ := exists_seen False h (fun _ _ => And.right) False.elim
    obtain ⟨done, hinv⟩ := StopAndWait.exists_inv hs
    obtain ⟨i, htimely, hsome⟩ := hsees.exists_callback hinv hidle hcallbacks
    exact ⟨.callback c i, rfl, ⟨⟨trivial, trivial⟩, htimely⟩, hsome⟩
  obtain ⟨request, sending, heq⟩ := List.exists_cons_of_ne_nil fun hsending =>
    hrest ⟨hidle, hsending, hcallbacks⟩
  refine ⟨.enqueueRequest c 0, rfl, ⟨⟨trivial, trivial⟩, trivial⟩, ?_⟩
  simp [World.step, Client.enqueueRequest, heq]

/-- No request is sent meanwhile, and an id is drawn for a call that comes. -/
theorem Serves.sent {a : Action Req Res} (hserves : Serves c w a)
    (hstep : w.step ts processOf a = some w') :
    w'.log.sent = w.log.sent ∧ w'.requestIds ≤ w.requestIds + 1 := by
  cases a with
  | generateSequenceNumber _ | generateRequestId | sendRequest _ _ | wake _ | takeResponse _ =>
    exact hserves.elim
  | enqueueRequest _ _ | onRequest _ | takeRequest | sendResponse _ _ | onResponse _
  | callback _ _ =>
    obtain ⟨_, -, heq⟩ := Option.bind_eq_some_iff.mp hstep
    cases heq
    simp [setClient]
  | handler _ | send _ =>
    obtain ⟨_, -, hstep⟩ := Option.bind_eq_some_iff.mp hstep
    obtain ⟨_, -, heq⟩ := Option.bind_eq_some_iff.mp hstep
    cases heq
    simp
  | take _ =>
    obtain ⟨_, -, hstep⟩ := Option.bind_eq_some_iff.mp hstep
    obtain ⟨_, -, hstep⟩ := Option.bind_eq_some_iff.mp hstep
    obtain ⟨_, -, hstep⟩ := Option.bind_eq_some_iff.mp hstep
    obtain ⟨_, -, heq⟩ := Option.bind_eq_some_iff.mp hstep
    cases heq
    simp

variable (ts processOf c) in
/-- The worlds that such steps lead to from one in which these numbers have been sent. -/
structure Going (sent : List ℕ) (w : World Req Res) : Prop where
  /-- They can be reached. -/
  reachable : (system ts processOf).Reachable (Unhindered processOf c) w
  /-- There are ids left for what is to do. -/
  room : w.requestIds + w.work c ≤ 2 ^ 63
  /-- No more requests have been sent. -/
  sent : w.sentBy c = sent

theorem Going.step {sent : List ℕ} {a : Action Req Res} (h : Going ts processOf c sent w)
    (hok : Advances processOf c w a) (hstep : w.step ts processOf a = some w') :
    Going ts processOf c sent w' ∧ w'.work c < w.work c := by
  have hlt := work_lt hok.1 hok.2.1.1 hstep
  obtain ⟨hsent, hids⟩ := hok.1.sent hstep
  have hroom := h.room
  exact ⟨⟨h.reachable.step hok.2 hstep, by omega, by rw [sentBy, hsent]; exact h.sent⟩, hlt⟩

theorem Going.exists_advances {sent : List ℕ} (h : Going ts processOf c sent w) (response : Res)
    (hrest : ¬ w.AtRest c) :
    ∃ a, Advances processOf c w a ∧ (w.step ts processOf a).isSome := by
  have hroom := h.room
  obtain ⟨a, hserves, hok, hsome⟩ := exists_serves h.reachable response (fun hcalls => by
    have hpos := List.length_pos_iff.mpr hcalls
    rw [work] at hroom
    omega) hrest
  exact ⟨a, ⟨hserves, hok⟩, hsome⟩

theorem Going.answered {sent : List ℕ} (h : Going ts processOf c sent w) (hrest : w.AtRest c) :
    (w.answeredTo c).Perm sent := by
  obtain ⟨s, hs, hsees⟩ := exists_seen False h.reachable (fun _ _ => And.right) False.elim
  obtain ⟨done, hinv⟩ := StopAndWait.exists_inv hs
  exact h.sent ▸ hsees.perm_sentBy hinv hrest

end Serves

end World

end Completion

end RmwEcal
