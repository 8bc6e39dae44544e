import RmwEcal.Shared.Correlation
import RmwEcal.Shared.TypeSupport

/-!
# Requests and responses of a type

The clients and the service of a `World` deal in bytes.  What the callers of `SendRequest`,
`TakeRequest`, `SendResponse` and `TakeResponse` deal in are objects, in one language or the other,
which the type supports of the two ends serialize and deserialize, each with what its process has
analysed by then.

For a service whose request and response are plain, what was said of bytes (`World.Correlated`) can
be said of values: a client gets the value that the service answered, under the id that it took with
the value of the very request (`answered_as_asked`).
-/

set_option autoImplicit false

namespace RmwEcal

open Transition

/-- `CppServiceTypeSupport` or `CServiceTypeSupport`. -/
structure ServiceMembers where
  /-- Which of the two. -/
  language : Language
  requestMembers : MessageMembers
  responseMembers : MessageMembers

namespace ServiceMembers

/-- What serializes and deserializes requests. -/
def request (ts : ServiceMembers) : MessageTypeSupport := ⟨ts.language, ts.requestMembers⟩

/-- What serializes and deserializes responses. -/
def response (ts : ServiceMembers) : MessageTypeSupport := ⟨ts.language, ts.responseMembers⟩

end ServiceMembers

namespace TypedWorld

/-- The clients and the service, and the processes that they are in. -/
structure Setting where
  /-- The process of a client. -/
  processOf : ℕ → ℕ
  /-- The type support of a client. -/
  client : ℕ → ServiceMembers
  /-- The process of the service. -/
  serverProcess : ℕ
  /-- The type support of the service. -/
  server : ServiceMembers
  /-- The platform of a process. -/
  platform : ℕ → Platform
  /-- The types that a process may create type supports for. -/
  types : ℕ → Language → List MessageMembers

/-- `TakeRequest` returned. -/
structure Received where
  /-- What it returned. -/
  requestId : ℕ
  /-- The client that made the call. -/
  client : ℕ
  /-- What it made of the message that it was given. -/
  message : List Cell

/-- `TakeResponse` of a client returned. -/
structure Returned where
  client : ℕ
  /-- What it returned. -/
  sequenceNumber : ℕ
  /-- What it made of the message that it was given. -/
  message : List Cell

end TypedWorld

/-- Clients and a service, with type supports. -/
structure TypedWorld where
  /-- What they do with bytes. -/
  world : World (List UInt8) (List UInt8)
  /-- The registries of the processes, which have no lock here either (`Topic.registries`). -/
  registries : ℕ → Registries
  /-- The calls of `SendRequest`. -/
  sent : List (Sent (List Cell))
  /-- Those of `TakeRequest`. -/
  taken : List TypedWorld.Received
  /-- Those of `SendResponse`. -/
  answered : List (Answered (List Cell))
  /-- Those of `TakeResponse`. -/
  delivered : List TypedWorld.Returned

/-- It serializes or deserializes. -/
def World.Action.usesTypeSupport {Req Res : Type} : World.Action Req Res → Bool
  | .sendRequest _ _ | .take _ | .sendResponse _ _ | .takeResponse _ => true
  | _ => false

namespace TypedWorld

/-- What can happen. -/
inductive Action where
  /-- A process creates a serializer. -/
  | createSerializer (process : ℕ) (l : Language) (T : MessageMembers)
  /-- A process creates a deserializer. -/
  | createDeserializer (process : ℕ) (l : Language) (T : MessageMembers)
  /-- `SendRequest`. -/
  | sendRequest (client : ℕ) (data : List Cell)
  /-- A thread in `TakeRequest` takes its next step, with the message that it is to fill. -/
  | take (i : ℕ) (data : List Cell)
  /-- `SendResponse`. -/
  | sendResponse (data : List Cell) (requestId : ℕ)
  /-- `TakeResponse`. -/
  | takeResponse (client : ℕ) (data : List Cell)
  /-- Anything else, for which it makes no difference what the bytes are. -/
  | work (a : World.Action (List UInt8) (List UInt8))

/-- Bytes are sent as they are. -/
def bytes : ServiceTypeSupport (List UInt8) (List UInt8) := ⟨id, id⟩

section Steps

variable (S : Setting)

/-- Nothing has happened. -/
def fresh : TypedWorld := ⟨.fresh, fun _ => .empty, [], [], [], []⟩

/-- Serialize, in a process. -/
def serialize (t : TypedWorld) (process : ℕ) (ts : MessageTypeSupport) (data : List Cell) :
    Except Fault (List UInt8) :=
  ts.serialize (S.platform process) (t.registries process) data

/-- Deserialize, in a process. -/
def deserialize (t : TypedWorld) (process : ℕ) (ts : MessageTypeSupport) (message : List Cell)
    (serializedData : List UInt8) : Except Fault (List Cell) :=
  ts.deserialize (S.platform process) (t.registries process) message serializedData

/-- One step.  What is undefined has no result. -/
def step (t : TypedWorld) : Action → Option TypedWorld
  | .createSerializer process l T => some { t with
      registries := Function.update t.registries process
        ((t.registries process).createSerializer l T).2 }
  | .createDeserializer process l T => some { t with
      registries := Function.update t.registries process
        ((t.registries process).createDeserializer l T).2 }
  | .sendRequest c data =>
    match t.serialize S (S.processOf c) (S.client c).request data with
    | .ok request => do
      let world ← t.world.step bytes S.processOf (.sendRequest c request)
      let sequenceNumber := t.world.sequenceNumbers (S.processOf c) % 2 ^ 64
      some { t with world := world, sent := t.sent ++ [⟨c, sequenceNumber, data⟩] }
    | .error .undefined => none
    -- the number has been drawn by then
    | .error _ => do
      let world ← t.world.step bytes S.processOf (.generateSequenceNumber (S.processOf c))
      some { t with world := world }
  | .take i data => do
    let world ← t.world.step bytes S.processOf (.take i)
    match world.log.taken[t.world.log.taken.length]? with
    | none => some { t with world := world }
    -- it is about to return
    | some taken =>
      match t.deserialize S S.serverProcess S.server.request data taken.data with
      | .ok message => some { t with
          world := world
          taken := t.taken ++ [⟨taken.requestId, taken.client, message⟩] }
      | .error .undefined => none
      -- nobody gets to know the id, under which the request stays
      | .error _ => some { t with world := { world with log := t.world.log } }
  | .sendResponse data requestId => do
    -- the request is looked up first
    let _ ← t.world.service.current.lookup requestId
    match t.serialize S S.serverProcess S.server.response data with
    | .ok response => do
      let world ← t.world.step bytes S.processOf (.sendResponse response requestId)
      some { t with world := world, answered := t.answered ++ [⟨requestId, data⟩] }
    | .error .undefined => none
    | .error _ => some t
  | .takeResponse c data => do
    let world ← t.world.step bytes S.processOf (.takeResponse c)
    let delivered ← world.delivered[t.world.delivered.length]?
    match t.deserialize S (S.processOf c) (S.client c).response data delivered.data with
    | .ok message => some { t with
        world := world
        delivered := t.delivered ++ [⟨c, delivered.sequenceNumber, message⟩] }
    | .error .undefined => none
    -- the response is off the queue
    | .error _ => some { t with world := { world with delivered := t.world.delivered } }
  | .work a => if a.usesTypeSupport then none else do
    let world ← t.world.step bytes S.processOf a
    some { t with world := world }

/-- Clients and a service at work. -/
def system : System TypedWorld Action := ⟨fresh, step S⟩

/-! ## What is asked for -/

/-- All requests and responses are plain in their languages, and the processes have memory. -/
structure Setting.Plain : Prop where
  /-- The requests of the clients. -/
  request : ∀ c, (S.client c).request.Plain (S.types (S.processOf c))
  /-- Their responses. -/
  response : ∀ c, (S.client c).response.Plain (S.types (S.processOf c))
  /-- The requests of the service. -/
  serverRequest : S.server.request.Plain (S.types S.serverProcess)
  /-- Its responses. -/
  serverResponse : S.server.response.Plain (S.types S.serverProcess)
  /-- There is enough to take responses. -/
  ample : ∀ c, (S.platform (S.processOf c)).Ample
  /-- There is enough to take requests. -/
  serverAmple : (S.platform S.serverProcess).Ample

/-- What is asked of the steps: what is asked of them for bytes, that type supports are for types of
the program, that either end can hold what the other one sends, and that requests and responses are
taken into new messages. -/
def Regular (t : TypedWorld) : Action → Prop
  | .createSerializer process l T | .createDeserializer process l T => T ∈ S.types process l
  | .sendRequest c data => t.world.Regular S.processOf (.sendRequest c []) ∧
      ∃ q, (S.client c).request.content data = some q ∧ S.server.request.Holds q
  | .take _ data => S.server.request.Fresh data
  | .sendResponse data requestId => t.world.Regular S.processOf (.sendResponse [] requestId) ∧
      ∃ v, S.server.response.content data = some v ∧ ∀ c, (S.client c).response.Holds v
  | .takeResponse c data => (S.client c).response.Fresh data
  | .work a => t.world.Regular S.processOf a

/-! ## What bytes stand for -/

/-- Bytes were sent for this object, and can be read by the service. -/
def SentAs (sent : Sent (List UInt8)) (sent' : Sent (List Cell)) : Prop :=
  sent'.client = sent.client ∧ sent'.sequenceNumber = sent.sequenceNumber ∧
    ∃ q, (S.client sent.client).request.content sent'.request = some q ∧
      S.server.request.Holds q ∧ sent.request = q.wire

/-- Bytes were taken as this object. -/
def TakenAs (taken : Taken) (received : Received) : Prop :=
  received.requestId = taken.requestId ∧ received.client = taken.client ∧
    ∃ q, S.server.request.Holds q ∧ taken.data = q.wire ∧
      S.server.request.content received.message = some q

/-- Bytes were answered for this object, and can be read by all clients. -/
def AnsweredAs (answered : Answered (List UInt8)) (answered' : Answered (List Cell)) : Prop :=
  answered'.requestId = answered.requestId ∧
    ∃ v, S.server.response.content answered'.response = some v ∧
      (∀ c, (S.client c).response.Holds v) ∧ answered.response = v.wire

/-- Bytes were delivered as this object. -/
def DeliveredAs (delivered : Delivered) (returned : Returned) : Prop :=
  returned.client = delivered.client ∧ returned.sequenceNumber = delivered.sequenceNumber ∧
    ∃ v, (S.client delivered.client).response.Holds v ∧ delivered.data = v.wire ∧
      (S.client delivered.client).response.content returned.message = some v

/-- What happens with objects is what happens with bytes. -/
structure Carries (t : TypedWorld) : Prop where
  /-- The bytes are where they should be. -/
  inv : World.Inv bytes S.processOf t.world
  /-- The registries have come across types of the program only. -/
  within : ∀ process, (t.registries process).Within (S.types process)
  /-- The same was sent. -/
  sent : List.Forall₂ (SentAs S) t.world.log.sent t.sent
  /-- The same was taken. -/
  taken : List.Forall₂ (TakenAs S) t.world.log.taken t.taken
  /-- The same was answered. -/
  answered : List.Forall₂ (AnsweredAs S) t.world.log.answered t.answered
  /-- The same was delivered. -/
  delivered : List.Forall₂ (DeliveredAs S) t.world.delivered t.delivered

end Steps

section Carries

variable {S : Setting} {t t' : TypedWorld}

theorem exists_of_forall₂ {α β : Type} {R : α → β → Prop} {l : List α} {l' : List β}
    (h : List.Forall₂ R l l') {a : α} (ha : a ∈ l) : ∃ b ∈ l', R a b := by
  induction h with
  | nil => cases ha
  | @cons x y l l' hxy _ ih =>
    obtain rfl | ha := List.mem_cons.mp ha
    · exact ⟨y, .head _, hxy⟩
    · obtain ⟨b, hb, hab⟩ := ih ha
      exact ⟨b, .tail _ hb, hab⟩

/-- What a service takes is what a client has sent. -/
theorem taken_data {processOf : ℕ → ℕ} {w : World (List UInt8) (List UInt8)}
    (h : World.Inv bytes processOf w) {taken : Taken} (hmem : taken ∈ w.log.taken) :
    ∃ sent ∈ w.log.sent, taken.data = sent.request := by
  obtain ⟨ref, handler, hget, horigin, -, -, hdata⟩ := h.serving.taken taken hmem
  obtain ⟨c, -, sent, hsent, -, -, hrequest⟩ := h.serving.handlers ref handler hget
  refine ⟨sent, hsent, ?_⟩
  rw [Service.Request.getRequest, hrequest, getSequenceDataSize_append, Option.bind_eq_bind,
    Option.bind_some, List.take_left, Option.some_inj] at hdata
  exact hdata.symm

/-- What a step does not serialize or deserialize it does not note. -/
theorem log_of_work {processOf : ℕ → ℕ} {w w' : World (List UInt8) (List UInt8)}
    {a : World.Action (List UInt8) (List UInt8)} (ha : a.usesTypeSupport = false)
    (hstep : w.step bytes processOf a = some w') :
    w'.log = w.log ∧ w'.delivered = w.delivered := by
  cases a with
  | sendRequest _ _ | take _ | sendResponse _ _ | takeResponse _ => cases ha
  | generateSequenceNumber _ | generateRequestId =>
    cases hstep
    exact ⟨rfl, rfl⟩
  | enqueueRequest c i | callback c i =>
    obtain ⟨⟨client, call⟩, -, hstep⟩ := Option.bind_eq_some_iff.mp hstep
    cases hstep
    exact ⟨rfl, rfl⟩
  | onRequest i | onResponse i | wake ref | takeRequest =>
    obtain ⟨x, -, hstep⟩ := Option.bind_eq_some_iff.mp hstep
    cases hstep
    exact ⟨rfl, rfl⟩
  | handler ref =>
    obtain ⟨client, -, hstep⟩ := Option.bind_eq_some_iff.mp hstep
    obtain ⟨⟨service, reply⟩, -, hstep⟩ := Option.bind_eq_some_iff.mp hstep
    cases hstep
    exact ⟨rfl, rfl⟩
  | send i =>
    obtain ⟨send, -, hstep⟩ := Option.bind_eq_some_iff.mp hstep
    obtain ⟨service, -, hstep⟩ := Option.bind_eq_some_iff.mp hstep
    cases hstep
    exact ⟨rfl, rfl⟩

/-- What a step of `TakeRequest` notes, if anything. -/
theorem log_of_take {processOf : ℕ → ℕ} {w w' : World (List UInt8) (List UInt8)} {i : ℕ}
    (hstep : w.step bytes processOf (.take i) = some w') :
    w'.log.sent = w.log.sent ∧ w'.log.answered = w.log.answered ∧ w'.delivered = w.delivered ∧
      (w'.log.taken = w.log.taken ∨ ∃ taken, w'.log.taken = w.log.taken ++ [taken]) := by
  obtain ⟨take, -, hstep⟩ := Option.bind_eq_some_iff.mp hstep
  obtain ⟨handler, -, hstep⟩ := Option.bind_eq_some_iff.mp hstep
  obtain ⟨client, -, hstep⟩ := Option.bind_eq_some_iff.mp hstep
  obtain ⟨⟨service, taken⟩, -, hstep⟩ := Option.bind_eq_some_iff.mp hstep
  cases hstep
  refine ⟨rfl, rfl, rfl, ?_⟩
  cases taken with
  | none => exact .inl (List.append_nil _)
  | some taken => exact .inr ⟨_, rfl⟩

theorem carries_fresh : Carries S fresh where
  inv := World.inv_fresh
  within _ := Registries.within_empty _
  sent := .nil
  taken := .nil
  answered := .nil
  delivered := .nil

/-- Other types are analysed. -/
theorem Carries.setRegistries (h : Carries S t) {process : ℕ} {r : Registries}
    (hr : r.Within (S.types process)) :
    Carries S { t with registries := Function.update t.registries process r } := by
  refine ⟨h.inv, fun process' => ?_, h.sent, h.taken, h.answered, h.delivered⟩
  by_cases hprocess : process' = process
  · subst hprocess
    simpa using hr
  · simpa [hprocess] using h.within process'

/-- **A step with objects is one with bytes.** -/
theorem Carries.step (hS : S.Plain) (h : Carries S t) {a : Action} (hok : Regular S t a)
    (hstep : step S t a = some t') : Carries S t' := by
  cases a with
  | createSerializer process l T =>
    cases hstep
    exact h.setRegistries ((h.within process).createSerializer hok)
  | createDeserializer process l T =>
    cases hstep
    exact h.setRegistries ((h.within process).createDeserializer hok)
  | sendRequest c data =>
    obtain ⟨hregular, q, hq, hholds⟩ := hok
    rw [TypedWorld.step, serialize, (hS.request c).serialize_eq (h.within _) hq] at hstep
    obtain ⟨world, hworld, hstep⟩ := Option.bind_eq_some_iff.mp hstep
    cases hstep
    have hinv := h.inv.step (a := .sendRequest c q.wire) hregular hworld
    cases hworld
    exact ⟨hinv, h.within, List.rel_append h.sent (.cons ⟨rfl, rfl, q, hq, hholds, rfl⟩ .nil),
      h.taken, h.answered, h.delivered⟩
  | take i data =>
    obtain ⟨world, hworld, hstep⟩ := Option.bind_eq_some_iff.mp hstep
    have hinv := h.inv.step (a := .take i) trivial hworld
    obtain ⟨hsent, hanswered, hdelivered, htaken⟩ := log_of_take hworld
    obtain htaken | ⟨taken, htaken⟩ := htaken
    · rw [htaken, List.getElem?_eq_none le_rfl] at hstep
      cases hstep
      exact ⟨hinv, h.within, hsent ▸ h.sent, htaken ▸ h.taken, hanswered ▸ h.answered,
        hdelivered ▸ h.delivered⟩
    · rw [htaken, List.getElem?_concat_length] at hstep
      obtain ⟨sent, hmem, hdata⟩ := taken_data hinv (show taken ∈ world.log.taken by simp [htaken])
      obtain ⟨sent', -, -, -, q, -, hholds, hwire⟩ := exists_of_forall₂ h.sent (hsent ▸ hmem)
      obtain ⟨message, hrun, hcontent⟩ :=
        hS.serverRequest.deserialize_wire hS.serverAmple (h.within _) hholds hok
      simp only [deserialize, hdata, hwire, hrun] at hstep
      cases hstep
      refine ⟨hinv, h.within, hsent ▸ h.sent, ?_, hanswered ▸ h.answered, hdelivered ▸ h.delivered⟩
      rw [htaken]
      exact List.rel_append h.taken
        (.cons ⟨rfl, rfl, q, hholds, hdata.trans hwire, hcontent⟩ .nil)
  | sendResponse data requestId =>
    obtain ⟨hregular, v, hv, hholds⟩ := hok
    obtain ⟨ref, -, hstep⟩ := Option.bind_eq_some_iff.mp hstep
    rw [serialize, hS.serverResponse.serialize_eq (h.within _) hv] at hstep
    obtain ⟨world, hworld, hstep⟩ := Option.bind_eq_some_iff.mp hstep
    cases hstep
    have hinv := h.inv.step (a := .sendResponse v.wire requestId) hregular hworld
    obtain ⟨service, -, hworld⟩ := Option.bind_eq_some_iff.mp hworld
    cases hworld
    exact ⟨hinv, h.within, h.sent, h.taken,
      List.rel_append h.answered (.cons ⟨rfl, v, hv, hholds, rfl⟩ .nil), h.delivered⟩
  | takeResponse c data =>
    obtain ⟨world, hworld, hstep⟩ := Option.bind_eq_some_iff.mp hstep
    have hinv := h.inv.step (a := .takeResponse c) trivial hworld
    obtain ⟨⟨client, sequenceNumber, response⟩, -, hworld⟩ := Option.bind_eq_some_iff.mp hworld
    cases hworld
    obtain ⟨delivered, hget, hstep⟩ := Option.bind_eq_some_iff.mp hstep
    obtain rfl : ⟨c, sequenceNumber, response⟩ = delivered := by
      simpa using hget
    obtain ⟨-, -, -, -, answered, hmem, -, -, -, -, -, -, hdata⟩ :=
      hinv.delivered ⟨c, sequenceNumber, response⟩ (by simp)
    obtain ⟨answered', -, -, v, -, hholds, hwire⟩ := exists_of_forall₂ h.answered hmem
    obtain rfl : response = v.wire := hdata.trans hwire
    obtain ⟨message, hrun, hcontent⟩ :=
      (hS.response c).deserialize_wire (hS.ample c) (h.within _) (hholds c) hok
    simp only [deserialize, hrun] at hstep
    cases hstep
    exact ⟨hinv, h.within, h.sent, h.taken, h.answered,
      List.rel_append h.delivered (.cons ⟨rfl, rfl, v, hholds c, rfl, hcontent⟩ .nil)⟩
  | work a =>
    rw [TypedWorld.step] at hstep
    split at hstep
    · cases hstep
    · rename_i ha
      obtain ⟨world, hworld, hstep⟩ := Option.bind_eq_some_iff.mp hstep
      cases hstep
      obtain ⟨hlog, hdelivered⟩ := log_of_work (by simpa using ha) hworld
      exact ⟨h.inv.step hok hworld, h.within, hlog ▸ h.sent, hlog ▸ h.taken, hlog ▸ h.answered,
        hdelivered ▸ h.delivered⟩

theorem carries (hS : S.Plain) (h : (system S).Reachable (Regular S) t) : Carries S t :=
  h.invariant (P := Carries S) carries_fresh fun _ _ _ hcarries hok hstep =>
    hcarries.step hS hok hstep

/-- **A client gets the answer to what it asked.**  Whatever the languages of the two ends, the
interleaving of clients, service and eCAL, and the type supports that have been created in the
meantime: when `TakeResponse` returns a number and fills a message, `SendRequest` returned this
number for a request, `TakeRequest` filled a message with the same value, and the value that the
client has now is the one that `SendResponse` was called with under the id that came with it. -/
theorem answered_as_asked (hS : S.Plain) (h : (system S).Reachable (Regular S) t) :
    ∀ returned ∈ t.delivered, ∃ sent ∈ t.sent, ∃ received ∈ t.taken, ∃ answered ∈ t.answered,
      sent.client = returned.client ∧ sent.sequenceNumber = returned.sequenceNumber ∧
      received.client = returned.client ∧ answered.requestId = received.requestId ∧
      ∃ q v : Value,
        (S.client returned.client).request.content sent.request = some q ∧
        S.server.request.content received.message = some q ∧
        S.server.response.content answered.response = some v ∧
        (S.client returned.client).response.content returned.message = some v := by
  have hcarries := carries hS h
  intro returned hreturned
  obtain ⟨delivered, hdelivered, hclient, hnumber, v, hv, hdata, hresponse⟩ :=
    exists_of_forall₂ hcarries.delivered.flip hreturned
  obtain ⟨sent, hsent, taken, htaken, answered, hanswered, hfrom, hsequence, htakenfrom, -,
    hrequest, hid, hbytes⟩ := hcarries.inv.delivered delivered hdelivered
  obtain ⟨sent', hsent', hc, hn, q, hq, hholds, hwire⟩ := exists_of_forall₂ hcarries.sent hsent
  obtain ⟨received, hreceived, hid', hc', q', hq', hdata', hq''⟩ :=
    exists_of_forall₂ hcarries.taken htaken
  obtain ⟨answered', hanswered', hid'', v', hv', hholds', hwire'⟩ :=
    exists_of_forall₂ hcarries.answered hanswered
  -- what the two ends make of the same bytes is the same
  obtain rfl : q = q' := hS.serverRequest.wire_inj hholds hq'
    (hwire.symm.trans (hrequest.symm.trans hdata'))
  obtain rfl : v' = v := (hS.response _).wire_inj (hholds' _) hv
    (hwire'.symm.trans (hbytes.symm.trans hdata))
  refine ⟨sent', hsent', received, hreceived, answered', hanswered', ?_, ?_, ?_, ?_, q, v', ?_,
    hq'', hv', ?_⟩
  · rw [hc, hfrom, hclient]
  · rw [hn, hsequence, hnumber]
  · rw [hc', htakenfrom, hclient]
  · rw [hid'', hid, hid']
  · rw [hclient, ← hfrom]
    exact hq
  · rw [hclient]
    exact hresponse

/-- What is done with bytes alone is done as in a world of bytes. -/
theorem reachable_work (h : (system S).Reachable (Regular S) t)
    (as : List (World.Action (List UInt8) (List UInt8))) {w : World (List UInt8) (List UInt8)}
    (has : ∀ a ∈ as, a.usesTypeSupport = false)
    (hrun : (World.system bytes S.processOf).exec (World.Regular S.processOf) t.world as = some w) :
    (system S).Reachable (Regular S) { t with world := w } := by
  induction as generalizing t with
  | nil =>
    cases hrun
    exact h
  | cons a as ih =>
    rw [System.exec, Option.ite_none_right_eq_some] at hrun
    obtain ⟨hok, hrun⟩ := hrun
    obtain ⟨world, hworld, hrun⟩ := Option.bind_eq_some_iff.mp hrun
    have hstep : TypedWorld.step S t (.work a) = some { t with world := world } := by
      have ha : ¬a.usesTypeSupport = true := by simp [has a (.head _)]
      rw [TypedWorld.step, if_neg ha]
      exact Option.bind_eq_some_iff.mpr ⟨world, hworld, rfl⟩
    exact ih (t := { t with world := world }) (h.step (show Regular S t (.work a) from hok) hstep)
      (fun a' ha' => has a' (.tail _ ha')) hrun

/-- One client of places, in C++, of a service that answers places with places, in C. -/
def places : Setting where
  processOf _ := 0
  client _ := ⟨.cpp, cppPlace, cppPlace⟩
  serverProcess := 1
  server := ⟨.c, cPlace, cPlace⟩
  platform _ := .generous
  types _ := placeTypes

theorem plain_places : places.Plain :=
  ⟨fun _ => plain_cppPlaceSupport, fun _ => plain_cppPlaceSupport, plain_cPlaceSupport,
    plain_cPlaceSupport, fun _ => Platform.generous_ample, Platform.generous_ample⟩

theorem step_sendRequest {c : ℕ} {data : List Cell} {request : List UInt8}
    {w : World (List UInt8) (List UInt8)}
    (hrun : t.serialize S (S.processOf c) (S.client c).request data = .ok request)
    (hw : t.world.step bytes S.processOf (.sendRequest c request) = some w) :
    (system S).step t (.sendRequest c data) = some { t with
      world := w
      sent := t.sent ++ [⟨c, t.world.sequenceNumbers (S.processOf c) % 2 ^ 64, data⟩] } := by
  show TypedWorld.step S t (.sendRequest c data) = _
  rw [TypedWorld.step, hrun]
  exact Option.bind_eq_some_iff.mpr ⟨w, hw, rfl⟩

theorem step_take {i : ℕ} {data message : List Cell} {taken : Taken}
    {w : World (List UInt8) (List UInt8)}
    (hw : t.world.step bytes S.processOf (.take i) = some w)
    (hget : w.log.taken[t.world.log.taken.length]? = some taken)
    (hrun : t.deserialize S S.serverProcess S.server.request data taken.data = .ok message) :
    (system S).step t (.take i data) = some { t with
      world := w
      taken := t.taken ++ [⟨taken.requestId, taken.client, message⟩] } := by
  refine Option.bind_eq_some_iff.mpr ⟨w, hw, ?_⟩
  simp only [hget, hrun]

theorem step_sendResponse {requestId ref : ℕ} {data : List Cell} {response : List UInt8}
    {w : World (List UInt8) (List UInt8)}
    (hlookup : t.world.service.current.lookup requestId = some ref)
    (hrun : t.serialize S S.serverProcess S.server.response data = .ok response)
    (hw : t.world.step bytes S.processOf (.sendResponse response requestId) = some w) :
    (system S).step t (.sendResponse data requestId) = some { t with
      world := w
      answered := t.answered ++ [⟨requestId, data⟩] } := by
  refine Option.bind_eq_some_iff.mpr ⟨ref, hlookup, ?_⟩
  rw [hrun]
  exact Option.bind_eq_some_iff.mpr ⟨w, hw, rfl⟩

theorem step_takeResponse {c : ℕ} {data message : List Cell} {delivered : Delivered}
    {w : World (List UInt8) (List UInt8)}
    (hw : t.world.step bytes S.processOf (.takeResponse c) = some w)
    (hget : w.delivered[t.world.delivered.length]? = some delivered)
    (hrun : t.deserialize S (S.processOf c) (S.client c).response data delivered.data =
      .ok message) :
    (system S).step t (.takeResponse c data) = some { t with
      world := w
      delivered := t.delivered ++ [⟨c, delivered.sequenceNumber, message⟩] } := by
  refine Option.bind_eq_some_iff.mpr ⟨w, hw, Option.bind_eq_some_iff.mpr ⟨delivered, hget, ?_⟩⟩
  simp only [hrun]

/-- A client has asked for a place, and been given one. -/
theorem reachable_places : ∃ (t : TypedWorld) (message : List Cell),
    (system places).Reachable (Regular places) t ∧ t.delivered = [⟨0, 0, message⟩] := by
  have hempty : Registries.empty.Within placeTypes := Registries.within_empty placeTypes
  have hcpp : cppPlaceSupport.Holds placeValue := ⟨placeA, content_placeA⟩
  have hc : cPlaceSupport.Holds placeValue := ⟨placeC, content_placeC⟩
  have hblank : cppPlaceSupport.Fresh (zeros 40) :=
    ⟨.message [.string [], .message [.primitive [0, 0, 0, 0], .primitive [0, 0, 0, 0]]], rfl,
      by simp [Value.Blank, Value.BlankList]⟩
  obtain ⟨received, hreceived, -⟩ :=
    plain_cPlaceSupport.deserialize_wire Platform.generous_ample hempty hc fresh_zeros
  obtain ⟨returned, hreturned, -⟩ :=
    plain_cppPlaceSupport.deserialize_wire Platform.generous_ample hempty hcpp hblank
  have h₀ : (system places).Reachable (Regular places) fresh := .init
  have h₁ := h₀.step (show Regular places _ (.sendRequest 0 placeA) from
    ⟨show 0 < 2 ^ 63 by decide, placeValue, content_placeA, hc⟩)
    (step_sendRequest (plain_cppPlaceSupport.serialize_eq hempty content_placeA) rfl)
  have h₂ := reachable_work h₁ [.enqueueRequest 0 0, .onRequest 0, .handler 0, .handler 0,
    .handler 0, .takeRequest] (by decide) rfl
  have h₃ := h₂.step (show Regular places _ (.take 0 (zeros 32)) from fresh_zeros) rfl
  have h₄ := h₃.step (show Regular places _ (.take 0 (zeros 32)) from fresh_zeros)
    (step_take rfl rfl hreceived)
  have h₅ := h₄.step (show Regular places _ (.sendResponse placeC 0) from
    ⟨⟨⟨_, .head _, rfl⟩, fun _ hmem => absurd hmem List.not_mem_nil⟩, placeValue, content_placeC,
      fun _ => hcpp⟩)
    (step_sendResponse rfl (plain_cPlaceSupport.serialize_eq hempty content_placeC) rfl)
  have h₆ := reachable_work h₅ [.send 0, .send 0, .send 0, .handler 0, .onResponse 0,
    .callback 0 0] (by decide) rfl
  have h₇ := h₆.step (show Regular places _ (.takeResponse 0 (zeros 40)) from hblank)
    (step_takeResponse rfl rfl hreturned)
  exact ⟨_, returned, h₇, rfl⟩

theorem answered_as_asked_places : ∃ (t : TypedWorld) (message : List Cell),
    t.delivered = [⟨0, 0, message⟩] ∧
    ∃ sent ∈ t.sent, ∃ received ∈ t.taken, ∃ answered ∈ t.answered,
      sent.client = 0 ∧ sent.sequenceNumber = 0 ∧ received.client = 0 ∧
      answered.requestId = received.requestId ∧
      ∃ q v : Value,
        cppPlaceSupport.content sent.request = some q ∧
        cPlaceSupport.content received.message = some q ∧
        cPlaceSupport.content answered.response = some v ∧
        cppPlaceSupport.content message = some v := by
  obtain ⟨t, message, hreach, hdelivered⟩ := reachable_places
  refine ⟨t, message, hdelivered,
    answered_as_asked plain_places hreach ⟨0, 0, message⟩ ?_⟩
  rw [hdelivered]
  exact .head _

end Carries

end TypedWorld

end RmwEcal
