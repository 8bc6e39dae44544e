import RmwEcal.Shared.Client

/-!
# Services

A call of a service is an activation of `OnRequest`, which lives for as long as the call takes: it
queues a reference to its own `Request`, waits on a condition variable of that object, and returns
the response that `SendResponse` has put there in the meantime.

The steps are those at whose borders another thread can come in between.  A notification wakes a
thread that is waiting and nobody else, and a thread may wake for no reason.  To follow a reference
to the `Request` of an activation that has returned is undefined, as is whatever else has no next
step here.
-/

set_option autoImplicit false

namespace RmwEcal

open Transition

namespace Service

/-! ## Requests -/

/-- `Service::Request`. -/
structure Request where
  request : List UInt8
  requestId : ℕ
  response : List UInt8
  deriving DecidableEq, Repr

namespace Request

/-- The constructor, with the id that was drawn. -/
def construct (request : List UInt8) (requestId : ℕ) : Request := ⟨request, requestId, []⟩

/-- The `GetRequestSize` bytes at `GetRequest`. -/
def getRequest (req : Request) : Option (List UInt8) := do
  let size ← getSequenceDataSize req.request
  some (req.request.take size)

/-- `GetSequenceNumber`. -/
def getSequenceNumber (req : Request) : Option ℕ := RmwEcal.getSequenceNumber req.request

end Request

/-- What a response looks like on the wire: behind it the sequence number of the request. -/
def reply (request response : List UInt8) : Option (List UInt8) :=
  (getSequenceNumber request).map fun sequenceNumber => response ++ sequenceBytes sequenceNumber

/-! ## The state of a service -/

/-- The next thing an activation of `OnRequest` does. -/
inductive Phase where
  | enqueueRequest | notifyWaitSet
  /-- It is about to enter the wait. -/
  | waitForResponse
  /-- It is blocked in the wait. -/
  | waiting
  | getResponse | returned
  deriving DecidableEq, Repr

/-- It has not come out of the wait. -/
def Phase.Awaits (phase : Phase) : Prop := phase ≠ .getResponse ∧ phase ≠ .returned

instance : DecidablePred Phase.Awaits := fun _ => inferInstanceAs (Decidable (_ ∧ _))

theorem Phase.awaits_enqueueRequest : Phase.Awaits .enqueueRequest := ⟨nofun, nofun⟩

/-- An activation of `OnRequest`: its `Request` and where it is. -/
structure Handler extends Request where
  /-- The next thing it does. -/
  phase : Phase
  deriving DecidableEq, Repr

/-- The next thing an activation of `TakeRequest` does. -/
inductive TakeStage where
  | insertCurrent | deserializeRequest
  deriving DecidableEq, Repr

/-- An activation of `TakeRequest` that has its request. -/
structure Take where
  /-- The request, by the number of the activation of `OnRequest` that owns it. -/
  ref : ℕ
  /-- The next thing it does. -/
  stage : TakeStage
  deriving DecidableEq, Repr

/-- The next thing an activation of `SendResponse` does; the first two make up
`ConsumeResponse`. -/
inductive SendStage where
  | assignResponse | notifyOne | eraseCurrent
  deriving DecidableEq, Repr

/-- An activation of `SendResponse` that has found its request. -/
structure Send where
  /-- The request, by the number of the activation of `OnRequest` that owns it. -/
  ref : ℕ
  requestId : ℕ
  /-- `resp`. -/
  response : List UInt8
  /-- The next thing it does. -/
  stage : SendStage
  deriving DecidableEq, Repr

end Service

/-- A `Service`, and where the threads inside it are. -/
structure Service where
  /-- The activations of `OnRequest`, also those that have returned. -/
  handlers : List Service.Handler
  /-- `pending_requests_`. -/
  pending : List ℕ
  /-- `current_requests_`.  Nobody takes `current_requests_mutex_`: two threads that use the map at
  the same time race in the code, and come one after the other here. -/
  current : List (ℕ × ℕ)
  /-- Threads in `TakeRequest`. -/
  takes : List Service.Take
  /-- Threads in `SendResponse`. -/
  sends : List Service.Send
  deriving DecidableEq, Repr

namespace Service

/-- A service nobody has called yet. -/
def fresh : Service := ⟨[], [], [], [], []⟩

/-- The object behind a reference, while it is there. -/
def deref (s : Service) (ref : ℕ) : Option Handler := do
  let handler ← s.handlers[ref]?
  if handler.phase = .returned then none else some handler

/-- Something happens to an activation of `OnRequest`. -/
def update (s : Service) (ref : ℕ) (handler : Handler) : Service :=
  { s with handlers := s.handlers.set ref handler }

/-! ## Calls -/

/-- eCAL calls `OnRequest`, which constructs the request. -/
def onRequest (s : Service) (requestId : ℕ) (request : List UInt8) : Service :=
  { s with handlers := s.handlers ++ [{ Request.construct request requestId with
      phase := .enqueueRequest }] }

/-- The next step of an activation of `OnRequest`, with what it returns, if it does.  While it is
blocked it has none of its own. -/
def stepHandler (s : Service) (ref : ℕ) : Option (Service × Option (List UInt8)) := do
  let handler ← s.handlers[ref]?
  match handler.phase with
  | .enqueueRequest =>
    some ({ s.update ref { handler with phase := .notifyWaitSet } with
      pending := s.pending ++ [ref] }, none)
  -- whether there is a wait set to notify makes no difference to the service
  | .notifyWaitSet => some (s.update ref { handler with phase := .waitForResponse }, none)
  | .waitForResponse => some (s.update ref { handler with phase := .waiting }, none)
  | .waiting => none
  | .getResponse => do
    let response ← reply handler.request handler.response
    some (s.update ref { handler with phase := .returned }, some response)
  | .returned => none

/-- The condition variable lets go of an activation of `OnRequest` for no reason. -/
def wake (s : Service) (ref : ℕ) : Option Service := do
  let handler ← s.handlers[ref]?
  if handler.phase = .waiting then some (s.update ref { handler with phase := .getResponse })
  else none

/-! ## The executor -/

/-- `PopNextRequest`, with which `TakeRequest` begins.  To pop from an empty queue is undefined.
The reference wrapper that is read in the end has been popped by then, and the code relies on that
it can still be read; here it can. -/
def takeRequest (s : Service) : Option Service :=
  match s.pending with
  | [] => none
  | ref :: pending => some { s with pending := pending, takes := s.takes ++ [⟨ref, .insertCurrent⟩] }

/-- The next step of an activation of `TakeRequest`, with the id it returns and the bytes it
deserializes. -/
def stepTake (s : Service) (i : ℕ) : Option (Service × Option (ℕ × List UInt8)) := do
  let take ← s.takes[i]?
  let req ← s.deref take.ref
  match take.stage with
  | .insertCurrent =>
    let takes := s.takes.modify i fun take => { take with stage := .deserializeRequest }
    -- `insert` leaves the entry alone if there is one
    let current := if (s.current.lookup req.requestId).isSome then s.current
      else s.current ++ [(req.requestId, take.ref)]
    some ({ s with takes := takes, current := current }, none)
  | .deserializeRequest => do
    let data ← req.getRequest
    some ({ s with takes := s.takes.eraseIdx i }, some (req.requestId, data))

/-- `SendResponse` up to `ConsumeResponse`, where the type support has serialized the response.  It
is undefined for an id that has not been taken. -/
def sendResponse (s : Service) (response : List UInt8) (requestId : ℕ) : Option Service := do
  let ref ← s.current.lookup requestId
  some { s with sends := s.sends ++ [⟨ref, requestId, response, .assignResponse⟩] }

/-- The next step of an activation of `SendResponse`. -/
def stepSend (s : Service) (i : ℕ) : Option Service := do
  let send ← s.sends[i]?
  match send.stage with
  | .assignResponse => do
    let handler ← s.deref send.ref
    some { s.update send.ref { handler with response := send.response } with
      sends := s.sends.modify i fun send => { send with stage := .notifyOne } }
  | .notifyOne => do
    let handler ← s.deref send.ref
    -- only a thread that is already waiting is woken
    let phase := if handler.phase = .waiting then .getResponse else handler.phase
    some { s.update send.ref { handler with phase := phase } with
      sends := s.sends.modify i fun send => { send with stage := .eraseCurrent } }
  | .eraseCurrent =>
    some { s with
      sends := s.sends.eraseIdx i
      current := s.current.filter fun entry => entry.1 ≠ send.requestId }

/-! ## What a step can be -/

section Steps

variable {s s' : Service}

/-- A new activation comes behind the others. -/
theorem getElem?_onRequest {requestId ref : ℕ} {request : List UInt8} {handler : Handler} :
    (s.onRequest requestId request).handlers[ref]? = some handler ↔
      ref = s.handlers.length ∧ handler = ⟨.construct request requestId, .enqueueRequest⟩ ∨
        s.handlers[ref]? = some handler := by
  rw [onRequest, List.getElem?_append]
  split
  · next hlt =>
    rw [or_iff_right fun h => by omega]
  · next hge =>
    rw [List.getElem?_singleton, Option.ite_none_right_eq_some, Option.some_inj,
      List.getElem?_eq_none (by omega), eq_comm (b := handler), or_iff_left (by simp)]
    exact and_congr_left' (by omega)

/-- Something that happens to one activation does not happen to another. -/
theorem getElem?_update {ref ref' : ℕ} {handler handler' other : Handler}
    (hget : s.handlers[ref]? = some handler) :
    (s.update ref handler').handlers[ref']? = some other ↔
      ref' = ref ∧ other = handler' ∨ ref' ≠ ref ∧ s.handlers[ref']? = some other := by
  have hlt := (List.getElem?_eq_some_iff.mp hget).1
  rw [update, List.getElem?_set, if_pos hlt]
  split
  · next heq => rw [Option.some_inj, eq_comm (b := other)]; simp [heq]
  · next hne => simp [Ne.symm hne]

/-- An activation keeps its request, whatever happens to it. -/
theorem exists_update {ref ref' requestId : ℕ} {handler handler' : Handler}
    (hget : s.handlers[ref]? = some handler) (hid : handler'.requestId = handler.requestId)
    (h : ∃ other, s.handlers[ref']? = some other ∧ other.requestId = requestId) :
    ∃ other, (s.update ref handler').handlers[ref']? = some other ∧
      other.requestId = requestId := by
  obtain ⟨other, hother, rfl⟩ := h
  by_cases heq : ref' = ref
  · rw [heq, hget, Option.some_inj] at hother
    exact ⟨handler', (getElem?_update hget).mpr (.inl ⟨heq, rfl⟩), by rw [hid, hother]⟩
  · exact ⟨other, (getElem?_update hget).mpr (.inr ⟨heq, hother⟩), rfl⟩

theorem deref_eq_some {ref : ℕ} {handler : Handler} (h : s.deref ref = some handler) :
    s.handlers[ref]? = some handler ∧ handler.phase ≠ .returned := by
  obtain ⟨_, hget, h⟩ := Option.bind_eq_some_iff.mp h
  rw [Option.ite_none_left_eq_some, Option.some_inj] at h
  exact ⟨h.2 ▸ hget, h.2 ▸ h.1⟩

/-- The steps of an activation of `OnRequest`, by the phase it is in. -/
inductive HandlerStep (s : Service) (ref : ℕ) (handler : Handler) :
    Service → Option (List UInt8) → Prop
  | enqueueRequest (hphase : handler.phase = .enqueueRequest) :
      HandlerStep s ref handler { s.update ref { handler with phase := .notifyWaitSet } with
        pending := s.pending ++ [ref] } none
  | notifyWaitSet (hphase : handler.phase = .notifyWaitSet) :
      HandlerStep s ref handler (s.update ref { handler with phase := .waitForResponse }) none
  | waitForResponse (hphase : handler.phase = .waitForResponse) :
      HandlerStep s ref handler (s.update ref { handler with phase := .waiting }) none
  | getResponse (hphase : handler.phase = .getResponse) {response : List UInt8}
      (hreply : reply handler.request handler.response = some response) :
      HandlerStep s ref handler (s.update ref { handler with phase := .returned }) (some response)

/-- **What a step of `OnRequest` is.** -/
theorem stepHandler_cases {ref : ℕ} {response : Option (List UInt8)}
    (h : s.stepHandler ref = some (s', response)) :
    ∃ handler, s.handlers[ref]? = some handler ∧ HandlerStep s ref handler s' response := by
  obtain ⟨handler, hget, h⟩ := Option.bind_eq_some_iff.mp h
  refine ⟨handler, hget, ?_⟩
  cases hphase : handler.phase with
  | enqueueRequest => simp only [hphase] at h; cases h; exact .enqueueRequest hphase
  | notifyWaitSet => simp only [hphase] at h; cases h; exact .notifyWaitSet hphase
  | waitForResponse => simp only [hphase] at h; cases h; exact .waitForResponse hphase
  | waiting | returned => simp only [hphase] at h; cases h
  | getResponse =>
    simp only [hphase] at h
    obtain ⟨response, hreply, h⟩ := Option.bind_eq_some_iff.mp h
    cases h
    exact .getResponse hphase hreply

theorem wake_cases {ref : ℕ} (h : s.wake ref = some s') : ∃ handler,
    s.handlers[ref]? = some handler ∧ handler.phase = .waiting ∧
      s' = s.update ref { handler with phase := .getResponse } := by
  obtain ⟨handler, hget, h⟩ := Option.bind_eq_some_iff.mp h
  rw [Option.ite_none_right_eq_some, Option.some_inj] at h
  exact ⟨handler, hget, h.1, h.2.symm⟩

theorem takeRequest_cases (h : s.takeRequest = some s') : ∃ ref pending,
    s.pending = ref :: pending ∧
      s' = { s with pending := pending, takes := s.takes ++ [⟨ref, .insertCurrent⟩] } := by
  cases hpending : s.pending with
  | nil => rw [takeRequest, hpending] at h; cases h
  | cons ref pending =>
    rw [takeRequest, hpending] at h
    cases h
    exact ⟨ref, pending, rfl, rfl⟩

/-- The steps of an activation of `TakeRequest`, by the stage it is at; `l₁` and `l₂` are the other
activations. -/
inductive TakeStep (s : Service) (l₁ l₂ : List Take) (ref : ℕ) (handler : Handler) :
    TakeStage → Service → Option (ℕ × List UInt8) → Prop
  | insertCurrent {current : List (ℕ × ℕ)}
      (hcurrent : ∀ entry ∈ current, entry ∈ s.current ∨ entry = (handler.requestId, ref)) :
      TakeStep s l₁ l₂ ref handler .insertCurrent
        { s with takes := l₁ ++ ⟨ref, .deserializeRequest⟩ :: l₂, current := current } none
  | deserializeRequest {data : List UInt8} (hdata : handler.getRequest = some data) :
      TakeStep s l₁ l₂ ref handler .deserializeRequest { s with takes := l₁ ++ l₂ }
        (some (handler.requestId, data))

/-- **What a step of `TakeRequest` is.** -/
theorem stepTake_cases {i : ℕ} {taken : Option (ℕ × List UInt8)}
    (h : s.stepTake i = some (s', taken)) : ∃ l₁ l₂ ref stage handler,
      s.takes[i]? = some ⟨ref, stage⟩ ∧ s.takes = l₁ ++ ⟨ref, stage⟩ :: l₂ ∧
      s.handlers[ref]? = some handler ∧ TakeStep s l₁ l₂ ref handler stage s' taken := by
  obtain ⟨⟨ref, stage⟩, hget, h⟩ := Option.bind_eq_some_iff.mp h
  obtain ⟨handler, hderef, h⟩ := Option.bind_eq_some_iff.mp h
  obtain ⟨l₁, l₂, hl, hmodify, -, herase, -⟩ := exists_split hget
  refine ⟨l₁, l₂, ref, stage, handler, hget, hl, (deref_eq_some hderef).1, ?_⟩
  cases stage with
  | insertCurrent =>
    cases h
    rw [hmodify]
    refine .insertCurrent fun entry hmem => ?_
    split at hmem
    · exact .inl hmem
    · exact (List.mem_append.mp hmem).imp_right List.mem_singleton.mp
  | deserializeRequest =>
    obtain ⟨data, hdata, h⟩ := Option.bind_eq_some_iff.mp h
    cases h
    rw [herase]
    exact .deserializeRequest hdata

theorem sendResponse_cases {response : List UInt8} {requestId : ℕ}
    (h : s.sendResponse response requestId = some s') : ∃ ref,
      s.current.lookup requestId = some ref ∧ (requestId, ref) ∈ s.current ∧
      s' = { s with sends := s.sends ++ [⟨ref, requestId, response, .assignResponse⟩] } := by
  obtain ⟨ref, hlookup, h⟩ := Option.bind_eq_some_iff.mp h
  cases h
  obtain ⟨l₁, l₂, hl, -⟩ := List.lookup_eq_some_iff.mp hlookup
  exact ⟨ref, hlookup, by rw [hl]; simp, rfl⟩

/-- The steps of an activation of `SendResponse`, by the stage it is at; `l₁` and `l₂` are the other
activations. -/
inductive SendStep (s : Service) (l₁ l₂ : List Send) (send : Send) : SendStage → Service → Prop
  | assignResponse {handler : Handler} (hget : s.handlers[send.ref]? = some handler)
      (hlive : handler.phase ≠ .returned) : SendStep s l₁ l₂ send .assignResponse
        { s.update send.ref { handler with response := send.response } with
          sends := l₁ ++ { send with stage := .notifyOne } :: l₂ }
  | notifyOne {handler : Handler} (hget : s.handlers[send.ref]? = some handler)
      (hlive : handler.phase ≠ .returned) {phase : Phase}
      (hphase : handler.phase = .waiting ∧ phase = .getResponse ∨
        handler.phase ≠ .waiting ∧ phase = handler.phase) : SendStep s l₁ l₂ send .notifyOne
        { s.update send.ref { handler with phase := phase } with
          sends := l₁ ++ { send with stage := .eraseCurrent } :: l₂ }
  | eraseCurrent {current : List (ℕ × ℕ)} (hcurrent : ∀ entry ∈ current, entry ∈ s.current) :
      SendStep s l₁ l₂ send .eraseCurrent { s with sends := l₁ ++ l₂, current := current }

/-- **What a step of `SendResponse` is.** -/
theorem stepSend_cases {i : ℕ} (h : s.stepSend i = some s') : ∃ l₁ l₂ send,
    s.sends[i]? = some send ∧ s.sends = l₁ ++ send :: l₂ ∧ l₁.length = i ∧
      SendStep s l₁ l₂ send send.stage s' := by
  obtain ⟨send, hget, h⟩ := Option.bind_eq_some_iff.mp h
  obtain ⟨l₁, l₂, hl, hmodify, -, herase, hlen⟩ := exists_split hget
  refine ⟨l₁, l₂, send, hget, hl, hlen, ?_⟩
  cases hstage : send.stage with
  | assignResponse =>
    simp only [hstage] at h
    obtain ⟨handler, hderef, h⟩ := Option.bind_eq_some_iff.mp h
    obtain ⟨hhandler, hlive⟩ := deref_eq_some hderef
    cases h
    rw [hmodify]
    exact .assignResponse hhandler hlive
  | notifyOne =>
    simp only [hstage] at h
    obtain ⟨handler, hderef, h⟩ := Option.bind_eq_some_iff.mp h
    obtain ⟨hhandler, hlive⟩ := deref_eq_some hderef
    cases h
    rw [hmodify]
    refine .notifyOne hhandler hlive ?_
    split
    · exact .inl ⟨‹_›, rfl⟩
    · exact .inr ⟨‹_›, rfl⟩
  | eraseCurrent =>
    simp only [hstage] at h
    cases h
    rw [herase]
    exact .eraseCurrent fun _ hmem => (List.mem_filter.mp hmem).1

end Steps

end Service

end RmwEcal
