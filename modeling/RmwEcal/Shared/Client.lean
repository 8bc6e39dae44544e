import RmwEcal.Codec.LittleEndian
import RmwEcal.Transition.System

/-!
# Clients

A client has at most one call under way, or so it is meant to: `SendRequest` queues a request and
calls the service only if the queue was empty, and the callback for a response takes the request off
the queue and makes the call for the next one.  Each of these looks at the queue under a lock, and
releases the lock in between.

The steps here are the pieces that are atomic: a block under a lock, or what a thread does between
two of them.  A request is known by its sequence number, which travels behind the serialized data
and comes back behind the response.
-/

set_option autoImplicit false

namespace RmwEcal

open Codec Transition

/-! ## Sequence numbers -/

/-- `GetSequenceDataSize`.  A string of fewer than eight bytes has no trailer: the difference wraps
around, and what is read then is out of bounds. -/
def getSequenceDataSize (sequence : List UInt8) : Option ℕ :=
  if 8 ≤ sequence.length then some (sequence.length - 8) else none

/-- `GetSequenceNumber`. -/
def getSequenceNumber (sequence : List UInt8) : Option ℕ := do
  let size ← getSequenceDataSize sequence
  some (ofLeBytes (sequence.drop size))

/-- A sequence number as bytes. -/
def sequenceBytes (n : ℕ) : List UInt8 := leBytes 8 n

@[simp] theorem length_sequenceBytes (n : ℕ) : (sequenceBytes n).length = 8 := length_leBytes 8 n

@[simp] theorem getSequenceDataSize_append (data : List UInt8) (n : ℕ) :
    getSequenceDataSize (data ++ sequenceBytes n) = some data.length := by
  rw [getSequenceDataSize, List.length_append, length_sequenceBytes, if_pos (by omega),
    Nat.add_sub_cancel]

theorem getSequenceNumber_append {data : List UInt8} {n : ℕ} (h : n < 2 ^ 64) :
    getSequenceNumber (data ++ sequenceBytes n) = some n := by
  rw [getSequenceNumber, getSequenceDataSize_append, Option.bind_eq_bind, Option.bind_some,
    List.drop_left, sequenceBytes, ofLeBytes_leBytes_of_lt h]

/-! ## The state of a client -/

namespace Client

/-- `Client::Request`. -/
structure Request where
  sequenceNumber : ℕ
  /-- `data`: what is handed to eCAL. -/
  data : List UInt8
  deriving DecidableEq, Repr

/-- `Client::Response`. -/
structure Response where
  sequenceNumber : ℕ
  /-- `data`, `data_size` bytes of it. -/
  data : List UInt8
  deriving DecidableEq, Repr

/-- The next thing an activation of `OnResponse` does. -/
inductive Stage where
  | enqueueResponse | notifyWaitSet | popLastRequest | performNextRequest
  deriving DecidableEq, Repr

/-- An activation of `OnResponse`. -/
structure Callback where
  /-- The next thing it does. -/
  stage : Stage
  /-- The response it was called with. -/
  response : List UInt8
  deriving DecidableEq, Repr

end Client

/-- A `Client`, and where the threads inside it are. -/
structure Client where
  /-- Threads in `EnqueueRequest` that have a request but not yet the lock. -/
  sending : List Client.Request
  requests : List Client.Request
  responses : List Client.Response
  /-- Threads in `OnResponse`. -/
  callbacks : List Client.Callback
  deriving DecidableEq, Repr

namespace Client

/-- A client nobody has used yet. -/
def fresh : Client := ⟨[], [], [], []⟩

/-- `SendRequest` up to the lock, with the sequence number that was drawn. -/
def beginRequest (c : Client) (sequenceNumber : ℕ) (serializedData : List UInt8) : Client :=
  { c with sending := c.sending ++
      [⟨sequenceNumber, serializedData ++ sequenceBytes sequenceNumber⟩] }

/-- The rest of `EnqueueRequest` for one of the threads that wait for the lock, with what is passed
to `CallAsync`, if anything is. -/
def enqueueRequest (c : Client) (i : ℕ) : Option (Client × Option (List UInt8)) := do
  let request ← c.sending[i]?
  let requests := c.requests ++ [request]
  let c := { c with sending := c.sending.eraseIdx i, requests := requests }
  some (c, if requests.length = 1 then requests.head?.map Request.data else none)

/-- eCAL calls `OnResponse`. -/
def onResponse (c : Client) (response : List UInt8) : Client :=
  { c with callbacks := c.callbacks ++ [⟨.enqueueResponse, response⟩] }

/-- A callback goes on to its next stage. -/
def advance (c : Client) (i : ℕ) (stage : Stage) : Client :=
  { c with callbacks := c.callbacks.modify i fun cb => { cb with stage := stage } }

/-- The next step of an activation of `OnResponse`, with what is passed to `CallAsync`, if anything
is.  To pop from an empty queue is undefined. -/
def stepCallback (c : Client) (i : ℕ) : Option (Client × Option (List UInt8)) := do
  let callback ← c.callbacks[i]?
  match callback.stage with
  | .enqueueResponse =>
    let size ← getSequenceDataSize callback.response
    let sequenceNumber ← getSequenceNumber callback.response
    some ({ c.advance i .notifyWaitSet with
      responses := c.responses ++ [⟨sequenceNumber, callback.response.take size⟩] }, none)
  -- whether there is a wait set to notify makes no difference to the client
  | .notifyWaitSet => some (c.advance i .popLastRequest, none)
  | .popLastRequest =>
    match c.requests with
    | [] => none
    | _ :: requests => some ({ c.advance i .performNextRequest with requests := requests }, none)
  | .performNextRequest =>
    some ({ c with callbacks := c.callbacks.eraseIdx i }, c.requests.head?.map Request.data)

/-- `TakeResponse`, with what is delivered.  To take from an empty queue is undefined. -/
def takeResponse (c : Client) : Option (Client × Response) :=
  match c.responses with
  | [] => none
  | response :: responses => some ({ c with responses := responses }, response)

/-! ## What a step can be -/

/-- **What happens under the lock of `EnqueueRequest`.** -/
theorem enqueueRequest_cases {c c' : Client} {i : ℕ} {call : Option (List UInt8)}
    (h : c.enqueueRequest i = some (c', call)) : ∃ request, c.sending[i]? = some request ∧
      c' = { c with sending := c.sending.eraseIdx i, requests := c.requests ++ [request] } ∧
      (c.requests = [] ∧ call = some request.data ∨ c.requests ≠ [] ∧ call = none) := by
  obtain ⟨request, hget, h⟩ := Option.bind_eq_some_iff.mp h
  injection h with h
  injection h with hc hcall
  refine ⟨request, hget, hc.symm, ?_⟩
  cases hr : c.requests with
  | nil => exact .inl ⟨rfl, by rw [← hcall, hr]; rfl⟩
  | cons r rs => exact .inr ⟨List.cons_ne_nil _ _, by rw [← hcall, hr, if_neg (by simp)]⟩

/-- The steps of an activation of `OnResponse`, by the stage it is at; `l₁` and `l₂` are the other
activations. -/
inductive CallbackStep (c : Client) (l₁ l₂ : List Callback) (response : List UInt8) :
    Stage → Client → Option (List UInt8) → Prop
  | enqueueResponse {size n : ℕ} (hsize : getSequenceDataSize response = some size)
      (hn : getSequenceNumber response = some n) :
      CallbackStep c l₁ l₂ response .enqueueResponse
        { c with
          callbacks := l₁ ++ ⟨.notifyWaitSet, response⟩ :: l₂
          responses := c.responses ++ [⟨n, response.take size⟩] } none
  | notifyWaitSet :
      CallbackStep c l₁ l₂ response .notifyWaitSet
        { c with callbacks := l₁ ++ ⟨.popLastRequest, response⟩ :: l₂ } none
  | popLastRequest {request : Request} {requests : List Request}
      (hrequests : c.requests = request :: requests) :
      CallbackStep c l₁ l₂ response .popLastRequest
        { c with
          callbacks := l₁ ++ ⟨.performNextRequest, response⟩ :: l₂
          requests := requests } none
  | performNextRequest :
      CallbackStep c l₁ l₂ response .performNextRequest { c with callbacks := l₁ ++ l₂ }
        (c.requests.head?.map Request.data)

/-- **What a step of `OnResponse` is.** -/
theorem stepCallback_cases {c c' : Client} {i : ℕ} {call : Option (List UInt8)}
    (h : c.stepCallback i = some (c', call)) : ∃ l₁ l₂ stage response,
      c.callbacks[i]? = some ⟨stage, response⟩ ∧ c.callbacks = l₁ ++ ⟨stage, response⟩ :: l₂ ∧
      CallbackStep c l₁ l₂ response stage c' call := by
  obtain ⟨⟨stage, response⟩, hget, h⟩ := Option.bind_eq_some_iff.mp h
  obtain ⟨l₁, l₂, hl, hmodify, -, herase, -⟩ := exists_split hget
  refine ⟨l₁, l₂, stage, response, hget, hl, ?_⟩
  cases stage with
  | enqueueResponse =>
    obtain ⟨size, hsize, h⟩ := Option.bind_eq_some_iff.mp h
    obtain ⟨n, hn, h⟩ := Option.bind_eq_some_iff.mp h
    cases h
    rw [advance, hmodify]
    exact .enqueueResponse hsize hn
  | notifyWaitSet =>
    cases h
    rw [advance, hmodify]
    exact .notifyWaitSet
  | popLastRequest =>
    cases hr : c.requests with
    | nil => simp only [hr] at h; cases h
    | cons request requests =>
      simp only [hr] at h
      cases h
      rw [advance, hmodify]
      exact .popLastRequest hr
  | performNextRequest =>
    cases h
    rw [herase]
    exact .performNextRequest

/-- **An activation of `OnResponse` can go on**, unless it was called with less than a trailer or
comes to take a request off an empty queue. -/
theorem isSome_stepCallback {c : Client} {i : ℕ} {callback : Callback}
    (hget : c.callbacks[i]? = some callback)
    (hresponse : callback.stage = .enqueueResponse → (getSequenceNumber callback.response).isSome)
    (hrequests : callback.stage = .popLastRequest → c.requests ≠ []) :
    (c.stepCallback i).isSome := by
  rw [stepCallback, hget, Option.bind_eq_bind, Option.bind_some]
  cases hstage : callback.stage with
  | enqueueResponse =>
    obtain ⟨n, hn⟩ := Option.isSome_iff_exists.mp (hresponse hstage)
    obtain ⟨size, hsize, -⟩ := Option.bind_eq_some_iff.mp hn
    simp only [hsize, hn, Option.bind_eq_bind, Option.bind_some, Option.isSome_some]
  | notifyWaitSet => rfl
  | popLastRequest =>
    obtain ⟨request, requests, heq⟩ := List.exists_cons_of_ne_nil (hrequests hstage)
    simp only [heq, Option.isSome_some]
  | performNextRequest => rfl

end Client

end RmwEcal
