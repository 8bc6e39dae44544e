import Mathlib.Data.List.Forall2
import Mathlib.Data.List.Perm.Subperm
import RmwEcal.Shared.StopAndWait
import RmwEcal.Shared.World
import RmwEcal.Transition.Channel

/-!
# What becomes of a request

Any number of clients and the threads of a service are at work.  What one of the clients sees of it
is a client whose calls are answered (`Sees`): a call that it has made is on its way to the service,
or a handler has it, or the reply is on its way back, and for the client there is no difference.

So what holds of a client alone (`StopAndWait`) holds of every client in a world, and it can be said
without what is not there to be seen: if none of its callbacks comes upon a request in
`PerformNextRequest` while another call is under way, every request is answered once at most, and
once exactly when nothing is left to do (`answered_once`); and if one thread sends the requests, the
answers come in the order in which they were sent (`answered_in_order`).
-/

set_option autoImplicit false

namespace RmwEcal

open Transition Service

namespace World

variable {Req Res : Type}

/-! ## What belongs to a client -/

/-- The messages of a client, among others. -/
def ofClient (c : ℕ) (messages : List Message) : List (List UInt8) :=
  (messages.filter fun m => m.client = c).map Message.data

/-- The request that an activation of `OnRequest` is to answer, if it is for this client. -/
def awaited (c : ℕ) (activation : ℕ × Handler) : Option (List UInt8) :=
  if activation.1 = c ∧ activation.2.phase ≠ .returned then some activation.2.request else none

/-- The requests of a client that the service is to answer. -/
def awaiting (origins : List ℕ) (handlers : List Handler) (c : ℕ) : List (List UInt8) :=
  (origins.zip handlers).filterMap (awaited c)

/-- The numbers that `SendRequest` of a client has returned or is going to return. -/
def sentBy (w : World Req Res) (c : ℕ) : List ℕ :=
  (w.log.sent.filter fun sent => sent.client = c).map Sent.sequenceNumber

/-- The numbers of the responses a client has got, those first that have been taken. -/
def answeredTo (w : World Req Res) (c : ℕ) : List ℕ :=
  (w.delivered.filter fun d => d.client = c).map Delivered.sequenceNumber ++
    (w.clients c).responses.map Client.Response.sequenceNumber

/-- A client has no call under way. -/
def Idle (w : World Req Res) (c : ℕ) : Prop :=
  ofClient c w.calls = [] ∧ awaiting w.origins w.service.handlers c = [] ∧ ofClient c w.replies = []

/-- Nothing is left to do for a client. -/
structure AtRest (w : World Req Res) (c : ℕ) : Prop where
  /-- It has no call under way. -/
  idle : w.Idle c
  /-- No thread is in `EnqueueRequest`. -/
  sending : (w.clients c).sending = []
  /-- None is in `OnResponse`. -/
  callbacks : (w.clients c).callbacks = []

instance (w : World Req Res) (c : ℕ) : Decidable (w.Idle c) :=
  inferInstanceAs (Decidable (_ ∧ _ ∧ _))

/-- A callback of the client in `PerformNextRequest` finds no request, or no other call is under
way. -/
def Timely (c : ℕ) (w : World Req Res) : Action Req Res → Prop
  | .callback c' i => c' = c →
      ((w.clients c).callbacks[i]?.map Client.Callback.stage) = some .performNextRequest →
        (w.clients c).requests = [] ∨
          w.Idle c ∧ StopAndWait.answering (w.clients c).callbacks = []
  | _ => True

/-- A thread of the client that calls `SendRequest` is the only one in it. -/
def OneThread (c : ℕ) (w : World Req Res) : Action Req Res → Prop
  | .sendRequest c' _ => c' = c → (w.clients c).sending = []
  | _ => True

instance (c : ℕ) (w : World Req Res) (a : Action Req Res) : Decidable (Timely c w a) :=
  match a with
  | .callback _ _ => inferInstanceAs (Decidable (_ → _ → _ ∨ _))
  | .generateSequenceNumber _ | .generateRequestId | .sendRequest _ _ | .enqueueRequest _ _
  | .onRequest _ | .handler _ | .wake _ | .takeRequest | .take _ | .sendResponse _ _ | .send _
  | .onResponse _ | .takeResponse _ => isTrue trivial

instance (c : ℕ) (w : World Req Res) (a : Action Req Res) : Decidable (OneThread c w a) :=
  match a with
  | .sendRequest _ _ => inferInstanceAs (Decidable (_ → _))
  | .generateSequenceNumber _ | .generateRequestId | .enqueueRequest _ _ | .onRequest _
  | .handler _ | .wake _ | .takeRequest | .take _ | .sendResponse _ _ | .send _ | .onResponse _
  | .callback _ _ | .takeResponse _ => isTrue trivial

/-! ## What the client sees -/

/-- The reply to a request. -/
def RepliesTo (request reply : List UInt8) : Prop :=
  ∃ response, Service.reply request response = some reply

variable (ts : ServiceTypeSupport Req Res) (processOf : ℕ → ℕ)

/-- What a client has outstanding: a call is on its way, or a handler has it, or the reply is on its
way. -/
def Outstanding (c : ℕ) (w : World Req Res) (inFlight : List (List UInt8)) : Prop :=
  ∃ replied, List.Forall₂ RepliesTo replied (ofClient c w.replies) ∧
    inFlight.Perm (ofClient c w.calls ++ (awaiting w.origins w.service.handlers c ++ replied))

/-- What one of the clients sees of a world; `ordered` if one thread sends its requests. -/
structure Sees (ordered : Prop) (c : ℕ) (w : World Req Res) (s : StopAndWait.State) : Prop where
  /-- It is this client. -/
  client : s.client = w.clients c
  /-- Its numbers come from the counter of its process. -/
  counter : s.counter = w.sequenceNumbers (processOf c)
  /-- There is an activation of `OnRequest` for each call that has come. -/
  length_origins : w.origins.length = w.service.handlers.length
  /-- Its calls. -/
  inFlight : Outstanding c w s.inFlight
  /-- What has entered `responses_` has been taken, or is there. -/
  entered : s.entered = w.answeredTo c
  /-- What has been sent is on the queue or has been, or a thread is about to put it there. -/
  sent : ((s.enqueued ++ s.client.sending).map Client.Request.sequenceNumber).Perm (w.sentBy c)
  /-- If one thread sends, it does so in order. -/
  sent_ordered : ordered → s.client.sending.length ≤ 1 ∧
    (s.enqueued ++ s.client.sending).map Client.Request.sequenceNumber = w.sentBy c

/-! ### Messages and activations -/

section Lists

variable {c c' ref : ℕ} {origins : List ℕ} {handlers : List Handler} {handler : Handler}

@[simp] theorem ofClient_append (c : ℕ) (l₁ l₂ : List Message) :
    ofClient c (l₁ ++ l₂) = ofClient c l₁ ++ ofClient c l₂ := by
  rw [ofClient, List.filter_append, List.map_append, ofClient, ofClient]

@[simp] theorem ofClient_nil (c : ℕ) : ofClient c [] = [] := rfl

theorem ofClient_cons_self (data : List UInt8) (l : List Message) :
    ofClient c (⟨c, data⟩ :: l) = data :: ofClient c l := by
  simp [ofClient]

theorem ofClient_cons_ne (hne : c' ≠ c) (data : List UInt8) (l : List Message) :
    ofClient c (⟨c', data⟩ :: l) = ofClient c l := by
  simp [ofClient, hne]

@[simp] theorem ofClient_mk_self (c : ℕ) (call : Option (List UInt8)) :
    ofClient c (call.toList.map (Message.mk c)) = call.toList := by
  cases call <;> simp [ofClient]

theorem ofClient_mk_ne (hne : c' ≠ c) (call : Option (List UInt8)) :
    ofClient c (call.toList.map (Message.mk c')) = [] := by
  cases call <;> simp [ofClient, hne]

theorem awaited_of_ne (hne : c' ≠ c) : awaited c (c', handler) = none :=
  if_neg fun h => hne h.1

theorem awaited_of_eq (hphase : handler.phase ≠ .returned) :
    awaited c (c, handler) = some handler.request := if_pos ⟨rfl, hphase⟩

theorem awaited_returned (hphase : handler.phase = .returned) : awaited c (c', handler) = none :=
  if_neg fun h => h.2 hphase

/-- A call comes to the service. -/
theorem awaiting_concat (hlength : origins.length = handlers.length) :
    awaiting (origins ++ [c']) (handlers ++ [handler]) c =
      awaiting origins handlers c ++ (awaited c (c', handler)).toList := by
  rw [awaiting, List.zip_append hlength, List.filterMap_append, awaiting]
  cases h : awaited c (c', handler) <;> simp [h]

/-- One activation of `OnRequest` among the others. -/
theorem exists_awaiting (hlength : origins.length = handlers.length)
    (hhandler : handlers[ref]? = some handler) (c : ℕ) : ∃ c' l₁ l₂, origins[ref]? = some c' ∧
      awaiting origins handlers c = l₁ ++ ((awaited c (c', handler)).toList ++ l₂) ∧
      ∀ handler', awaiting origins (handlers.set ref handler') c =
        l₁ ++ ((awaited c (c', handler')).toList ++ l₂) := by
  have hlt : ref < origins.length := hlength ▸ (List.getElem?_eq_some_iff.mp hhandler).1
  have horigin : origins[ref]? = some origins[ref] := List.getElem?_eq_getElem hlt
  obtain ⟨h₁, h₂, rfl, -, hset, -, hlen⟩ := exists_split hhandler
  obtain ⟨o₁, o₂, ho, -, -, -, hlen'⟩ := exists_split horigin
  generalize origins[ref] = c' at horigin ho
  subst ho
  have hall : ∀ handler', awaiting (o₁ ++ c' :: o₂) (h₁ ++ handler' :: h₂) c =
      awaiting o₁ h₁ c ++ ((awaited c (c', handler')).toList ++ awaiting o₂ h₂ c) := by
    intro handler'
    rw [awaiting, List.zip_append (hlen'.trans hlen.symm), List.filterMap_append,
      List.zip_cons_cons, List.filterMap_cons, awaiting, awaiting]
    cases awaited c (c', handler') <;> rfl
  exact ⟨c', _, _, horigin, hall handler, fun handler' => by rw [hset, hall]⟩

/-- What happens to an activation makes no difference unless it returns. -/
theorem awaiting_set (hlength : origins.length = handlers.length)
    (hhandler : handlers[ref]? = some handler) {handler' : Handler}
    (hrequest : handler'.request = handler.request)
    (hphase : handler'.phase = .returned ↔ handler.phase = .returned) (c : ℕ) :
    awaiting origins (handlers.set ref handler') c = awaiting origins handlers c := by
  obtain ⟨c', l₁, l₂, -, hold, hnew⟩ := exists_awaiting hlength hhandler c
  have hsame : awaited c (c', handler') = awaited c (c', handler) := by
    simp only [awaited, hrequest, ne_eq, hphase]
  rw [hold, hnew, hsame]

end Lists

/-! ### Steps -/

section Steps

variable {processOf : ℕ → ℕ} {ordered : Prop} {c : ℕ} {w w' : World Req Res}
  {s : StopAndWait.State}

/-- Something happens that makes no difference to the client. -/
theorem Sees.same (h : Sees processOf ordered c w s) (hclient : w'.clients c = w.clients c)
    (hcounter : w'.sequenceNumbers (processOf c) = w.sequenceNumbers (processOf c))
    (hlength : w'.origins.length = w'.service.handlers.length)
    (hinFlight : ∀ l, Outstanding c w l → Outstanding c w' l)
    (hdelivered : w'.answeredTo c = w.answeredTo c) (hsent : w'.sentBy c = w.sentBy c) :
    Sees processOf ordered c w' s :=
  ⟨h.client.trans hclient.symm, h.counter.trans hcounter.symm, hlength, hinFlight _ h.inFlight,
    h.entered.trans hdelivered.symm, hsent ▸ h.sent, hsent ▸ h.sent_ordered⟩

/-- The counter of its process moves on. -/
theorem Sees.generate (h : Sees processOf ordered c w s) :
    Sees processOf ordered c { w with
        sequenceNumbers := Function.update w.sequenceNumbers (processOf c)
          (w.sequenceNumbers (processOf c) + 1) } { s with counter := s.counter + 1 } := by
  refine ⟨h.client, ?_, h.length_origins, h.inFlight, h.entered, h.sent, h.sent_ordered⟩
  simp [h.counter]

/-- There is one order for what is one thing at most. -/
theorem eq_of_perm {β : Type} {l l' : List β} (h : l.Perm l') (hle : l'.length ≤ 1) : l = l' := by
  cases l' with
  | nil => exact h.eq_nil
  | cons b l' =>
    obtain rfl : l' = [] := List.eq_nil_of_length_eq_zero (by simpa using hle)
    exact List.perm_singleton.mp h

/-- **The client takes a step in which it may make a call.** -/
theorem Sees.record (h : Sees processOf ordered c w s) {client : Client}
    {call : Option (List UInt8)} (delivered : List Delivered)
    (hanswered : World.answeredTo { w.setClient c client call with delivered := delivered } c =
      w.answeredTo c ++ (client.responses.drop (w.clients c).responses.length).map
        Client.Response.sequenceNumber)
    (hsent : (client.requests.drop (w.clients c).requests.length ++ client.sending).Perm
      (w.clients c).sending) :
    Sees processOf ordered c { w.setClient c client call with delivered := delivered }
      (s.record client call) := by
  obtain ⟨replied, hreplied, hperm⟩ := h.inFlight
  have hclient : (w.setClient c client call).clients c = client := Function.update_self ..
  have hall : (s.enqueued ++ client.requests.drop (w.clients c).requests.length ++
      client.sending).Perm (s.enqueued ++ s.client.sending) := by
    rw [List.append_assoc, h.client]
    exact hsent.append_left _
  refine ⟨hclient.symm, h.counter, h.length_origins, ⟨replied, hreplied, ?_⟩, ?_, ?_, ?_⟩
  · show (s.inFlight ++ call.toList).Perm (ofClient c (w.calls ++ _) ++ _)
    rw [ofClient_append, ofClient_mk_self, List.append_assoc]
    refine (hperm.append_right _).trans ?_
    rw [List.append_assoc]
    exact List.perm_append_comm.append_left _
  · show s.entered ++ _ = _
    rw [h.entered, h.client, hanswered]
  · rw [StopAndWait.State.record, h.client]
    exact (hall.map _).trans h.sent
  · intro hordered
    obtain ⟨hle, heq⟩ := h.sent_ordered hordered
    rw [h.client] at hle heq
    have hsame := eq_of_perm hsent hle
    refine ⟨?_, ?_⟩
    · rw [← hsame, List.length_append] at hle
      exact (Nat.le_add_left _ _).trans hle
    · rw [StopAndWait.State.record, h.client]
      show ((s.enqueued ++ client.requests.drop _) ++ client.sending).map _ = w.sentBy c
      rw [List.append_assoc, hsame, heq]

/-- One thing and what is related to it. -/
theorem forall₂_append_cons {β γ : Type} {R : β → γ → Prop} {l : List β} {l₁ l₂ : List γ} {b : γ}
    (h : List.Forall₂ R l (l₁ ++ b :: l₂)) : ∃ r₁ a r₂, l = r₁ ++ a :: r₂ ∧
      List.Forall₂ R r₁ l₁ ∧ R a b ∧ List.Forall₂ R r₂ l₂ := by
  obtain ⟨a, r₂, hab, h₂, heq⟩ := List.forall₂_cons_right_iff.mp (List.forall₂_drop_append l l₁ _ h)
  refine ⟨l.take l₁.length, a, r₂, ?_, List.forall₂_take_append l l₁ _ h, hab, h₂⟩
  rw [← heq, List.take_append_drop]

theorem sentBy_concat {n : ℕ} {request : Req}
    (hsent : w'.log.sent = w.log.sent ++ [⟨c, n, request⟩]) : w'.sentBy c = w.sentBy c ++ [n] := by
  simp [sentBy, hsent]

/-- A thread calls `SendRequest`. -/
theorem Sees.sendRequest {ts : ServiceTypeSupport Req Res} (h : Sees processOf ordered c w s)
    {request : Req} (hordered : ordered → (w.clients c).sending = [])
    (hstep : w.step ts processOf (.sendRequest c request) = some w') :
    ∃ s', s.step (.sendRequest (ts.serializeRequest request)) = some s' ∧
      Sees processOf ordered c w' s' := by
  cases hstep
  refine ⟨_, rfl, ?_, ?_, h.length_origins, ?_, ?_, ?_, fun hone => ⟨?_, ?_⟩⟩
  · simp [setClient, h.client, h.counter]
  · simp [h.counter]
  · simpa [Outstanding, setClient] using h.inFlight
  · show s.entered = _
    rw [h.entered]
    simp [answeredTo, setClient, Client.beginRequest]
  · rw [sentBy_concat rfl, ← h.counter]
    have hsent := h.sent.append_right [s.counter % 2 ^ 64]
    simpa [Client.beginRequest] using hsent
  · simp [Client.beginRequest, h.client, hordered hone]
  · rw [sentBy_concat rfl, ← h.counter, ← (h.sent_ordered hone).2]
    simp [Client.beginRequest]

/-- A reply reaches the client. -/
theorem Sees.onResponse {ts : ServiceTypeSupport Req Res} (h : Sees processOf ordered c w s)
    {i : ℕ} {reply : Message} (hreply : w.replies[i]? = some reply) (hclient : reply.client = c)
    (hstep : w.step ts processOf (.onResponse i) = some w') :
    ∃ j response s', s.step (.respond j response) = some s' ∧ Sees processOf ordered c w' s' := by
  cases reply with
  | mk c' data =>
  subst hclient
  obtain ⟨l₁, l₂, hl, -, -, herase, -⟩ := exists_split hreply
  obtain ⟨replied, hreplied, hperm⟩ := h.inFlight
  rw [hl, ofClient_append, ofClient_cons_self] at hreplied
  obtain ⟨r₁, request, r₂, rfl, h₁, ⟨response, hresponse⟩, h₂⟩ := forall₂_append_cons hreplied
  have hmem : request ∈ s.inFlight := hperm.mem_iff.mpr (by simp)
  obtain ⟨j, hj⟩ := List.mem_iff_getElem?.mp hmem
  obtain ⟨reply', hreply', heq⟩ := Option.bind_eq_some_iff.mp hstep
  obtain rfl := Option.some.inj (hreply.symm.trans hreply')
  cases heq
  have hrest : (s.inFlight.eraseIdx j).Perm (ofClient c' w.calls ++
      (awaiting w.origins w.service.handlers c' ++ (r₁ ++ r₂))) := by
    refine ((perm_eraseIdx hj).symm.trans (hperm.trans ?_)).cons_inv
    rw [← List.append_assoc, ← List.append_assoc, ← List.append_assoc, ← List.append_assoc]
    exact List.perm_middle
  refine ⟨j, response, _, Option.bind_eq_some_iff.mpr ⟨request, hj,
    Option.bind_eq_some_iff.mpr ⟨data, hresponse, rfl⟩⟩, ?_, h.counter, h.length_origins,
    ⟨r₁ ++ r₂, ?_, ?_⟩, ?_, h.sent, h.sent_ordered⟩
  · simp [setClient, h.client]
  · show List.Forall₂ _ _ (ofClient c' (w.replies.eraseIdx i))
    rw [herase, ofClient_append]
    exact List.rel_append h₁ h₂
  · simpa [setClient] using hrest
  · show s.entered = _
    rw [h.entered]
    simp [answeredTo, setClient, Client.onResponse]

/-- Something happens inside the service, and nobody returns. -/
theorem Sees.serve (h : Sees processOf ordered c w s) {service : Service} {consumed : List ℕ}
    {log : Log Req Res} (hlog : log.sent = w.log.sent)
    (hhandlers : service.handlers = w.service.handlers ∨ ∃ ref handler handler',
      w.service.handlers[ref]? = some handler ∧
      service.handlers = w.service.handlers.set ref handler' ∧
      handler'.request = handler.request ∧
      (handler'.phase = .returned ↔ handler.phase = .returned)) :
    Sees processOf ordered c { w with service := service, consumed := consumed, log := log } s := by
  have hsame : service.handlers.length = w.service.handlers.length ∧
      awaiting w.origins service.handlers c = awaiting w.origins w.service.handlers c := by
    obtain heq | ⟨ref, handler, handler', hget, heq, hrequest, hphase⟩ := hhandlers
    · rw [heq]
      exact ⟨rfl, rfl⟩
    · rw [heq, List.length_set]
      exact ⟨rfl, awaiting_set h.length_origins hget hrequest hphase c⟩
  refine h.same rfl rfl (h.length_origins.trans hsame.1.symm) ?_ rfl (by simp [sentBy, hlog])
  rintro l ⟨replied, hreplied, hperm⟩
  exact ⟨replied, hreplied, by rwa [hsame.2]⟩

/-- A call reaches the service. -/
theorem Sees.onRequest {ts : ServiceTypeSupport Req Res} (h : Sees processOf ordered c w s) {i : ℕ}
    (hstep : w.step ts processOf (.onRequest i) = some w') : Sees processOf ordered c w' s := by
  obtain ⟨⟨c', data⟩, hcall, heq⟩ := Option.bind_eq_some_iff.mp hstep
  cases heq
  refine h.same rfl rfl ?_ ?_ rfl rfl
  · simp [Service.onRequest, h.length_origins]
  · rintro l ⟨replied, hreplied, hperm⟩
    obtain ⟨l₁, l₂, hl, -, -, herase, -⟩ := exists_split hcall
    refine ⟨replied, hreplied, hperm.trans ?_⟩
    show List.Perm _ (ofClient c (w.calls.eraseIdx i) ++
      (awaiting (w.origins ++ [c']) (w.service.handlers ++ [_]) c ++ replied))
    rw [herase, hl, awaiting_concat h.length_origins, ofClient_append, ofClient_append]
    by_cases hc : c' = c
    · subst hc
      rw [ofClient_cons_self, awaited_of_eq (by simp)]
      refine List.perm_iff_count.mpr fun bytes => ?_
      simp only [List.count_append, List.count_cons, Option.toList_some, List.count_nil]
      simp [Request.construct]
      omega
    · rw [ofClient_cons_ne hc, awaited_of_ne hc, Option.toList_none, List.append_nil]

/-- An activation of `OnRequest` returns: if it is for the client, the reply is on its way now. -/
theorem Outstanding.returns {l : List (List UInt8)} (h : Outstanding c w l)
    (hlength : w.origins.length = w.service.handlers.length) {ref c' : ℕ} {handler : Handler}
    {response : List UInt8} (horigin : w.origins[ref]? = some c')
    (hget : w.service.handlers[ref]? = some handler) (hphase : handler.phase ≠ .returned)
    (hreply : Service.reply handler.request handler.response = some response) :
    Outstanding c { w with
      service := w.service.update ref { handler with phase := .returned }
      replies := w.replies ++ [⟨c', response⟩] } l := by
  obtain ⟨replied, hreplied, hperm⟩ := h
  obtain ⟨c'', l₁, l₂, horigin', hold, hnew⟩ := exists_awaiting hlength hget c
  obtain rfl := Option.some.inj (horigin.symm.trans horigin')
  have hreturned : awaiting w.origins (w.service.update ref
      { handler with phase := .returned }).handlers c = l₁ ++ l₂ := by
    rw [update, hnew, awaited_returned rfl, Option.toList_none, List.nil_append]
  by_cases hc : c' = c
  · subst hc
    rw [awaited_of_eq hphase] at hold
    refine ⟨replied ++ [handler.request], ?_, hperm.trans ?_⟩
    · rw [ofClient_append, ofClient_cons_self]
      exact List.rel_append hreplied (.cons ⟨_, hreply⟩ .nil)
    · rw [hold, hreturned]
      refine List.perm_iff_count.mpr fun bytes => ?_
      simp only [List.count_append, Option.toList_some]
      omega
  · rw [awaited_of_ne hc, Option.toList_none, List.nil_append, ← hreturned] at hold
    refine ⟨replied, ?_, hold ▸ hperm⟩
    rwa [ofClient_append, ofClient_cons_ne hc, ofClient_nil, List.append_nil]

/-- An activation of `OnRequest` takes its next step. -/
theorem Sees.handler {ts : ServiceTypeSupport Req Res} (h : Sees processOf ordered c w s) {ref : ℕ}
    (hstep : w.step ts processOf (.handler ref) = some w') : Sees processOf ordered c w' s := by
  obtain ⟨c', horigin, hstep⟩ := Option.bind_eq_some_iff.mp hstep
  obtain ⟨⟨service, reply⟩, hservice, heq⟩ := Option.bind_eq_some_iff.mp hstep
  cases heq
  obtain ⟨handler, hget, hcases⟩ := stepHandler_cases hservice
  have hstays : ∀ (phase : Phase) (pending : List ℕ), handler.phase ≠ .returned →
      phase ≠ .returned → Sees processOf ordered c { w with
        service := { w.service.update ref { handler with phase := phase } with
          pending := pending }
        replies := w.replies ++ [] } s := by
    intro phase pending hold hnew
    rw [List.append_nil]
    exact h.serve rfl (.inr ⟨ref, handler, _, hget, rfl, rfl, by simp [hold, hnew]⟩)
  cases hcases with
  | enqueueRequest hphase => exact hstays _ _ (by simp [hphase]) (by simp)
  | notifyWaitSet hphase => exact hstays _ _ (by simp [hphase]) (by simp)
  | waitForResponse hphase => exact hstays _ _ (by simp [hphase]) (by simp)
  | getResponse hphase hreply =>
    refine h.same rfl rfl ?_ (fun l hl => ?_) rfl rfl
    · simp [update, h.length_origins]
    · exact hl.returns h.length_origins horigin hget (by simp [hphase]) hreply

/-- Another client takes a step. -/
theorem Sees.other (h : Sees processOf ordered c w s) {c' : ℕ} (hc : c' ≠ c) (client : Client)
    (call : Option (List UInt8)) : Sees processOf ordered c (w.setClient c' client call) s := by
  refine h.same (Function.update_of_ne hc.symm ..) rfl h.length_origins ?_ ?_ rfl
  · rintro l ⟨replied, hreplied, hperm⟩
    refine ⟨replied, hreplied, ?_⟩
    show List.Perm _ (ofClient c (w.calls ++ _) ++ _)
    rwa [ofClient_append, ofClient_mk_ne hc, List.append_nil]
  · simp [answeredTo, setClient, Function.update_of_ne hc.symm]

theorem Outstanding.eq_nil {l : List (List UInt8)} (h : Outstanding c w l) (hidle : w.Idle c) :
    l = [] := by
  obtain ⟨replied, hreplied, hperm⟩ := h
  obtain ⟨hcalls, hawaiting, hreplies⟩ := hidle
  rw [hreplies] at hreplied
  cases hreplied
  rw [hcalls, hawaiting] at hperm
  exact hperm.eq_nil

theorem Sees.timely (h : Sees processOf ordered c w s) {i : ℕ}
    (htimely : Timely c w (.callback c i)) : s.Timely (.callback i) := by
  intro response hget
  rw [h.client] at hget ⊢
  exact (htimely rfl (by rw [hget]; rfl)).imp_right (And.imp_left h.inFlight.eq_nil)

/-- A thread of the client gets the lock in `EnqueueRequest`. -/
theorem Sees.enqueueRequest {ts : ServiceTypeSupport Req Res} (h : Sees processOf ordered c w s)
    {i : ℕ} (hstep : w.step ts processOf (.enqueueRequest c i) = some w') :
    ∃ s', s.step (.enqueueRequest i) = some s' ∧ Sees processOf ordered c w' s' := by
  obtain ⟨⟨client, call⟩, hclient, heq⟩ := Option.bind_eq_some_iff.mp hstep
  cases heq
  refine ⟨s.record client call, Option.bind_eq_some_iff.mpr ⟨_, h.client ▸ hclient, rfl⟩, ?_⟩
  obtain ⟨request, hget, rfl, -⟩ := Client.enqueueRequest_cases hclient
  refine h.record w.delivered ?_ ?_
  · simp [answeredTo, setClient]
  · simpa using (perm_eraseIdx hget).symm

theorem Sees.callback {ts : ServiceTypeSupport Req Res} (h : Sees processOf ordered c w s)
    {i : ℕ} (hstep : w.step ts processOf (.callback c i) = some w') :
    ∃ s', s.step (.callback i) = some s' ∧ Sees processOf ordered c w' s' := by
  obtain ⟨⟨client, call⟩, hclient, heq⟩ := Option.bind_eq_some_iff.mp hstep
  cases heq
  refine ⟨s.record client call, Option.bind_eq_some_iff.mpr ⟨_, h.client ▸ hclient, rfl⟩, ?_⟩
  obtain ⟨l₁, l₂, stage, response, -, -, hcases⟩ := Client.stepCallback_cases hclient
  cases hcases with
  | popLastRequest hrequests =>
    refine h.record w.delivered ?_ ?_ <;>
      simp [answeredTo, setClient, hrequests, List.drop_eq_nil_of_le]
  | _ => refine h.record w.delivered ?_ ?_ <;> simp [answeredTo, setClient]

theorem Sees.takeResponse {ts : ServiceTypeSupport Req Res} (h : Sees processOf ordered c w s)
    (hstep : w.step ts processOf (.takeResponse c) = some w') :
    ∃ s', s.step .takeResponse = some s' ∧ Sees processOf ordered c w' s' := by
  obtain ⟨⟨client, response⟩, hclient, heq⟩ := Option.bind_eq_some_iff.mp hstep
  cases heq
  refine ⟨s.record client none, Option.bind_eq_some_iff.mpr ⟨_, h.client ▸ hclient, rfl⟩, ?_⟩
  cases hr : (w.clients c).responses with
  | nil =>
    rw [Client.takeResponse, hr] at hclient
    cases hclient
  | cons first responses =>
    rw [Client.takeResponse, hr] at hclient
    cases hclient
    refine h.record _ ?_ ?_ <;> simp [answeredTo, setClient, hr]

/-- **A step of the world is a step of the client**, or makes no difference to it. -/
theorem Sees.step {ts : ServiceTypeSupport Req Res} (h : Sees processOf ordered c w s)
    {a : Action Req Res} (htimely : Timely c w a) (hone : ordered → OneThread c w a)
    (hstep : w.step ts processOf a = some w') :
    Sees processOf ordered c w' s ∨
      ∃ b s', s.Timely b ∧ s.step b = some s' ∧ Sees processOf ordered c w' s' := by
  cases a with
  | generateSequenceNumber process =>
    cases hstep
    by_cases hp : process = processOf c
    · subst hp
      exact .inr ⟨.generate, _, trivial, rfl, h.generate⟩
    · refine .inl (h.same rfl ?_ h.length_origins (fun _ => id) rfl rfl)
      exact Function.update_of_ne (Ne.symm hp) ..
  | generateRequestId =>
    cases hstep
    exact .inl (h.same rfl rfl h.length_origins (fun _ => id) rfl rfl)
  | sendRequest c' request =>
    by_cases hc : c' = c
    · subst hc
      obtain ⟨s', hs', hsees⟩ := h.sendRequest (fun hordered => hone hordered rfl) hstep
      exact .inr ⟨.sendRequest _, s', trivial, hs', hsees⟩
    · cases hstep
      have hsent : ∀ n, World.sentBy { w with log := { w.log with
          sent := w.log.sent ++ [⟨c', n, request⟩] } } c = w.sentBy c := fun n => by
        simp [sentBy, hc]
      by_cases hp : processOf c' = processOf c
      · refine .inr ⟨.generate, _, trivial, rfl, (h.other hc _ none).generate.same rfl ?_
          h.length_origins (fun _ => id) rfl (hsent _)⟩
        rw [hp]
        rfl
      · exact .inl ((h.other hc _ none).same rfl (Function.update_of_ne (Ne.symm hp) ..)
          h.length_origins (fun _ => id) rfl (hsent _))
  | enqueueRequest c' i =>
    by_cases hc : c' = c
    · subst hc
      obtain ⟨s', hs', hsees⟩ := h.enqueueRequest hstep
      exact .inr ⟨.enqueueRequest i, s', trivial, hs', hsees⟩
    · obtain ⟨⟨client, call⟩, hclient, heq⟩ := Option.bind_eq_some_iff.mp hstep
      cases heq
      exact .inl (h.other hc client call)
  | onRequest i => exact .inl (h.onRequest hstep)
  | handler ref => exact .inl (h.handler hstep)
  | wake ref =>
    obtain ⟨service, hservice, heq⟩ := Option.bind_eq_some_iff.mp hstep
    cases heq
    obtain ⟨handler, hget, hphase, rfl⟩ := wake_cases hservice
    exact .inl (h.serve rfl (.inr ⟨ref, handler, _, hget, rfl, rfl, by simp [hphase]⟩))
  | takeRequest =>
    obtain ⟨service, hservice, heq⟩ := Option.bind_eq_some_iff.mp hstep
    cases heq
    obtain ⟨ref, pending, -, rfl⟩ := takeRequest_cases hservice
    exact .inl (h.serve rfl (.inl rfl))
  | take i =>
    obtain ⟨take, -, hstep⟩ := Option.bind_eq_some_iff.mp hstep
    obtain ⟨handler, -, hstep⟩ := Option.bind_eq_some_iff.mp hstep
    obtain ⟨client, -, hstep⟩ := Option.bind_eq_some_iff.mp hstep
    obtain ⟨⟨service, taken⟩, hservice, heq⟩ := Option.bind_eq_some_iff.mp hstep
    cases heq
    obtain ⟨l₁, l₂, ref, stage, handler, -, -, -, hcases⟩ := stepTake_cases hservice
    refine .inl (h.serve rfl (.inl ?_))
    cases hcases <;> rfl
  | sendResponse response requestId =>
    obtain ⟨service, hservice, heq⟩ := Option.bind_eq_some_iff.mp hstep
    cases heq
    obtain ⟨ref, -, -, rfl⟩ := sendResponse_cases hservice
    exact .inl (h.serve rfl (.inl rfl))
  | send i =>
    obtain ⟨send, -, hstep⟩ := Option.bind_eq_some_iff.mp hstep
    obtain ⟨service, hservice, heq⟩ := Option.bind_eq_some_iff.mp hstep
    cases heq
    obtain ⟨l₁, l₂, send, -, -, -, hcases⟩ := stepSend_cases hservice
    refine .inl (h.serve rfl ?_)
    generalize send.stage = stage at hcases
    cases hcases with
    | assignResponse hget hlive => exact .inr ⟨_, _, _, hget, rfl, rfl, Iff.rfl⟩
    | notifyOne hget hlive hphase =>
      refine .inr ⟨_, _, _, hget, rfl, rfl, ?_⟩
      obtain ⟨hwaiting, rfl⟩ | ⟨-, rfl⟩ := hphase
      · simp [hwaiting]
      · exact Iff.rfl
    | eraseCurrent => exact .inl rfl
  | onResponse i =>
    obtain ⟨reply, hreply, heq⟩ := Option.bind_eq_some_iff.mp hstep
    by_cases hc : reply.client = c
    · obtain ⟨j, response, s', hs', hsees⟩ := h.onResponse hreply hc hstep
      exact .inr ⟨.respond j response, s', trivial, hs', hsees⟩
    · cases heq
      obtain ⟨l₁, l₂, hl, -, -, herase, -⟩ := exists_split hreply
      refine .inl ((h.other hc _ none).same rfl rfl h.length_origins ?_ rfl rfl)
      rintro l ⟨replied, hreplied, hperm⟩
      refine ⟨replied, ?_, hperm⟩
      have hsame : ofClient c (w.replies.eraseIdx i) = ofClient c w.replies := by
        rw [herase, hl, ofClient_append, ofClient_append, ofClient_cons_ne hc]
      exact hsame.symm ▸ hreplied
  | callback c' i =>
    by_cases hc : c' = c
    · subst hc
      obtain ⟨s', hs', hsees⟩ := h.callback hstep
      exact .inr ⟨_, s', h.timely htimely, hs', hsees⟩
    · obtain ⟨⟨client, call⟩, hclient, heq⟩ := Option.bind_eq_some_iff.mp hstep
      cases heq
      exact .inl (h.other hc client call)
  | takeResponse c' =>
    by_cases hc : c' = c
    · subst hc
      obtain ⟨s', hs', hsees⟩ := h.takeResponse hstep
      exact .inr ⟨.takeResponse, s', trivial, hs', hsees⟩
    · obtain ⟨⟨client, response⟩, hclient, heq⟩ := Option.bind_eq_some_iff.mp hstep
      cases heq
      refine .inl ((h.other hc _ none).same rfl rfl h.length_origins (fun _ => id) ?_ rfl)
      simp [answeredTo, setClient, hc]

/-- **What a client sees of a run is a run of the client.** -/
theorem exists_seen (ordered : Prop) {ts : ServiceTypeSupport Req Res}
    {ok : World Req Res → Action Req Res → Prop} (h : (system ts processOf).Reachable ok w)
    (htimely : ∀ w a, ok w a → Timely c w a)
    (hone : ordered → ∀ w a, ok w a → OneThread c w a) :
    ∃ s, StopAndWait.system.Reachable StopAndWait.State.Timely s ∧
      Sees processOf ordered c w s := by
  refine h.simulate ?_ fun w s a w' _ hsees hok hstep =>
    hsees.step (htimely w a hok) (fun hordered => hone hordered w a hok) hstep
  exact ⟨rfl, rfl, rfl, ⟨[], .nil, .refl _⟩, rfl, .refl _, fun _ => ⟨Nat.zero_le _, rfl⟩⟩

end Steps

/-! ## What the clients may rely on -/

section Clients

variable {ts : ServiceTypeSupport Req Res} {processOf : ℕ → ℕ} {w : World Req Res} {c : ℕ}

/-- When nothing is left to do, every request has been answered. -/
theorem entered_eq {s : StopAndWait.State} {done : List Client.Request}
    (hinv : StopAndWait.Inv s done) (hrest : s.AtRest) :
    s.entered = s.enqueued.map Client.Request.sequenceNumber := by
  cases hinv.turn with
  | quiet _ _ _ hentered hnext =>
    have hnone : s.client.requests = [] := by
      by_contra hne
      exact hnext hne hrest.2
    rw [hentered, hinv.enqueued, hnone, List.append_nil]
  | underway _ hround => exact absurd hrest hround.not_atRest

theorem Sees.atRest {ordered : Prop} {s : StopAndWait.State} (h : Sees processOf ordered c w s)
    (hrest : w.AtRest c) : s.AtRest ∧ s.client.sending = [] := by
  refine ⟨⟨h.inFlight.eq_nil hrest.idle, ?_⟩, ?_⟩
  · rw [h.client, hrest.callbacks]
  · rw [h.client, hrest.sending]

theorem Sees.perm_sentBy {ordered : Prop} {s : StopAndWait.State} {done : List Client.Request}
    (h : Sees processOf ordered c w s) (hinv : StopAndWait.Inv s done) (hrest : w.AtRest c) :
    (w.answeredTo c).Perm (w.sentBy c) := by
  obtain ⟨hrest, hsending⟩ := h.atRest hrest
  have hsent := h.sent
  rwa [hsending, List.append_nil, ← entered_eq hinv hrest, h.entered] at hsent

/-- **Every request is answered once at most**, and once exactly when nothing is left to do. -/
theorem answered_once (h : (system ts processOf).Reachable (Timely c) w) :
    (w.answeredTo c).Subperm (w.sentBy c) ∧
      (w.AtRest c → (w.answeredTo c).Perm (w.sentBy c)) := by
  obtain ⟨s, hr, hsees⟩ := exists_seen False h (fun _ _ => id) False.elim
  obtain ⟨done, hinv⟩ := StopAndWait.exists_inv hr
  refine ⟨?_, hsees.perm_sentBy hinv⟩
  have hsent := hsees.sent
  rw [List.map_append] at hsent
  rw [← hsees.entered]
  have hprefix := hinv.orderly.entered_prefix.trans (List.prefix_append _
    (s.client.sending.map Client.Request.sequenceNumber))
  exact hprefix.sublist.subperm.trans hsent.subperm

/-- **Requests that one thread sends are answered in order.** -/
theorem answered_in_order (h : (system ts processOf).Reachable
    (fun w a => Timely c w a ∧ OneThread c w a) w) :
    w.answeredTo c <+: w.sentBy c ∧ (w.AtRest c → w.answeredTo c = w.sentBy c) := by
  obtain ⟨s, hr, hsees⟩ := exists_seen True h (fun _ _ => And.left)
    fun _ _ _ => And.right
  obtain ⟨done, hinv⟩ := StopAndWait.exists_inv hr
  obtain ⟨-, hsent⟩ := hsees.sent_ordered trivial
  rw [← hsees.entered, ← hsent, List.map_append]
  refine ⟨hinv.orderly.entered_prefix.trans (List.prefix_append _ _), fun hrest => ?_⟩
  obtain ⟨hrest, hsending⟩ := hsees.atRest hrest
  rw [hsending, List.map_nil, List.append_nil, entered_eq hinv hrest]

/-- Two clients of one process; the first one sends two requests, the second of them while the
first is under way. -/
def twoRequests : List (Action (List UInt8) (List UInt8)) :=
  [.sendRequest 0 [1], .enqueueRequest 0 0, .sendRequest 1 [2], .enqueueRequest 1 0,
    .sendRequest 0 [3], .enqueueRequest 0 0, .onRequest 0, .onRequest 0,
    .handler 0, .handler 0, .handler 0, .handler 1, .handler 1, .handler 1,
    .takeRequest, .take 0, .take 0, .takeRequest, .take 0, .take 0,
    .sendResponse [7] 0, .send 0, .send 0, .send 0, .sendResponse [8] 1, .send 0, .send 0, .send 0,
    .handler 1, .handler 0, .onResponse 0, .onResponse 0,
    .callback 0 0, .callback 0 0, .callback 0 0, .callback 0 0, .onRequest 0,
    .handler 2, .handler 2, .handler 2, .takeRequest, .take 0, .take 0,
    .sendResponse [9] 2, .send 0, .send 0, .send 0, .handler 2, .onResponse 0,
    .callback 0 0, .callback 0 0, .callback 0 0, .callback 0 0, .takeResponse 0]

theorem answered_once_two : ∃ w : World (List UInt8) (List UInt8),
    w.AtRest 0 ∧ w.answeredTo 0 = [0, 2] ∧ (w.answeredTo 0).Perm (w.sentBy 0) ∧
      (w.answeredTo 1).Subperm (w.sentBy 1) := by
  have h₀ : (system ⟨id, id⟩ fun _ => 0).Reachable (Timely 0) _ :=
    System.reachable_of_exec twoRequests rfl
  have h₁ : (system ⟨id, id⟩ fun _ => 0).Reachable (Timely 1) _ :=
    System.reachable_of_exec twoRequests rfl
  exact ⟨_, ⟨⟨rfl, rfl, rfl⟩, rfl, rfl⟩, rfl, (answered_once h₀).2 ⟨⟨rfl, rfl, rfl⟩, rfl, rfl⟩,
    (answered_once h₁).1⟩

theorem answered_in_order_two : ∃ w : World (List UInt8) (List UInt8),
    w.delivered = [⟨0, 0, [7]⟩] ∧ w.answeredTo 0 = w.sentBy 0 := by
  have h : (system ⟨id, id⟩ fun _ => 0).Reachable
      (fun w a => Timely 0 w a ∧ OneThread 0 w a) _ := System.reachable_of_exec twoRequests rfl
  exact ⟨_, rfl, (answered_in_order h).2 ⟨⟨rfl, rfl, rfl⟩, rfl, rfl⟩⟩

end Clients

end World

end RmwEcal
