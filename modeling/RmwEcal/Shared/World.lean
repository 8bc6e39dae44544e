import RmwEcal.Shared.Service
import Mathlib.Logic.Function.Basic

/-!
# Clients and a service

Any number of clients, in any number of processes, call one service.  Clients of one process share
the counter that their sequence numbers come from, so that clients of different processes may well
use the same numbers; the ids of requests come from a counter in the process of the service.

What eCAL is expected to do is all it does here: a call reaches the service once, whenever it does,
and what the handler returns goes to the client whose call it was.
-/

set_option autoImplicit false

namespace RmwEcal

open Transition Service

/-- `ServiceTypeSupport`. -/
structure ServiceTypeSupport (Req Res : Type) where
  serializeRequest : Req → List UInt8
  serializeResponse : Res → List UInt8

/-! ## What happens -/

/-- `SendRequest` of a client drew the number that it returns. -/
structure Sent (Req : Type) where
  client : ℕ
  /-- What `SendRequest` returns. -/
  sequenceNumber : ℕ
  /-- What it was called with. -/
  request : Req

/-- `TakeRequest` returned. -/
structure Taken where
  /-- What it returned. -/
  requestId : ℕ
  /-- What it deserialized. -/
  data : List UInt8
  /-- The client that made the call. -/
  client : ℕ
  /-- What the client passed to `CallAsync`. -/
  request : List UInt8

/-- `SendResponse` was called. -/
structure Answered (Res : Type) where
  /-- With this id. -/
  requestId : ℕ
  /-- With this object. -/
  response : Res

/-- `TakeResponse` of a client returned. -/
structure Delivered where
  client : ℕ
  /-- What it returned. -/
  sequenceNumber : ℕ
  /-- What it deserialized. -/
  data : List UInt8

/-- What happened on the way of requests and responses. -/
structure Log (Req Res : Type) where
  /-- The calls of `SendRequest`. -/
  sent : List (Sent Req)
  /-- Those of `TakeRequest`. -/
  taken : List Taken
  /-- Those of `SendResponse`. -/
  answered : List (Answered Res)

/-- What is under way between a client and the service. -/
structure Message where
  client : ℕ
  /-- What it passed to `CallAsync`, or what the handler of its call returned. -/
  data : List UInt8

/-! ## Worlds -/

/-- Clients and a service. -/
structure World (Req Res : Type) where
  clients : ℕ → Client
  /-- The counters of `GenerateSequenceNumber`, one for each process. -/
  sequenceNumbers : ℕ → ℕ
  service : Service
  /-- The counter of `GenerateRequestId`. -/
  requestIds : ℕ
  /-- The clients whose calls the activations of `OnRequest` are for. -/
  origins : List ℕ
  /-- The requests for which `ConsumeResponse` has completed. -/
  consumed : List ℕ
  /-- Calls on their way to the service. -/
  calls : List Message
  /-- Replies on their way to the clients. -/
  replies : List Message
  /-- What happened on the way of requests and responses. -/
  log : Log Req Res
  /-- What came out of it. -/
  delivered : List Delivered

namespace World

/-- The steps: of the clients, of eCAL and of the service. -/
inductive Action (Req Res : Type) where
  /-- Another client of a process draws a sequence number. -/
  | generateSequenceNumber (process : ℕ)
  /-- A request to another service of the process of the service draws an id. -/
  | generateRequestId
  /-- A thread calls `SendRequest`. -/
  | sendRequest (client : ℕ) (request : Req)
  /-- A thread gets the lock in `EnqueueRequest`. -/
  | enqueueRequest (client i : ℕ)
  /-- A call reaches the service. -/
  | onRequest (i : ℕ)
  /-- A handler takes its next step. -/
  | handler (ref : ℕ)
  /-- A handler wakes for no reason. -/
  | wake (ref : ℕ)
  /-- A thread gets the lock in `TakeRequest`. -/
  | takeRequest
  /-- A thread in `TakeRequest` takes its next step. -/
  | take (i : ℕ)
  /-- A thread calls `SendResponse`. -/
  | sendResponse (response : Res) (requestId : ℕ)
  /-- A thread in `SendResponse` takes its next step. -/
  | send (i : ℕ)
  /-- A reply reaches its client. -/
  | onResponse (i : ℕ)
  /-- A callback takes its next step. -/
  | callback (client i : ℕ)
  /-- An executor takes a response. -/
  | takeResponse (client : ℕ)

section Steps

variable {Req Res : Type} (ts : ServiceTypeSupport Req Res) (processOf : ℕ → ℕ)

/-- The world before anything has happened. -/
def fresh : World Req Res :=
  ⟨fun _ => .fresh, fun _ => 0, .fresh, 0, [], [], [], [], ⟨[], [], []⟩, []⟩

/-- A client changes, and may make a call. -/
def setClient (w : World Req Res) (c : ℕ) (client : Client) (call : Option (List UInt8)) :
    World Req Res :=
  { w with
    clients := Function.update w.clients c client
    calls := w.calls ++ call.toList.map (Message.mk c) }

/-- One step. -/
def step (w : World Req Res) : Action Req Res → Option (World Req Res)
  | .generateSequenceNumber process => some { w with
      sequenceNumbers :=
        Function.update w.sequenceNumbers process (w.sequenceNumbers process + 1) }
  | .generateRequestId => some { w with requestIds := w.requestIds + 1 }
  | .sendRequest c request =>
    let counter := w.sequenceNumbers (processOf c)
    let client := (w.clients c).beginRequest (counter % 2 ^ 64) (ts.serializeRequest request)
    some { w.setClient c client none with
      sequenceNumbers := Function.update w.sequenceNumbers (processOf c) (counter + 1)
      log := { w.log with sent := w.log.sent ++ [⟨c, counter % 2 ^ 64, request⟩] } }
  | .enqueueRequest c i => do
    let (client, call) ← (w.clients c).enqueueRequest i
    some (w.setClient c client call)
  | .onRequest i => do
    let call ← w.calls[i]?
    some { w with
      service := w.service.onRequest (w.requestIds % 2 ^ 64) call.data
      requestIds := w.requestIds + 1
      origins := w.origins ++ [call.client]
      calls := w.calls.eraseIdx i }
  | .handler ref => do
    let client ← w.origins[ref]?
    let (service, reply) ← w.service.stepHandler ref
    some { w with
      service := service
      replies := w.replies ++ reply.toList.map (Message.mk client) }
  | .wake ref => do
    let service ← w.service.wake ref
    some { w with service := service }
  | .takeRequest => do
    let service ← w.service.takeRequest
    some { w with service := service }
  | .take i => do
    let take ← w.service.takes[i]?
    let handler ← w.service.handlers[take.ref]?
    let client ← w.origins[take.ref]?
    let (service, taken) ← w.service.stepTake i
    some { w with
      service := service
      log := { w.log with
        taken := w.log.taken ++
          taken.toList.map fun taken => ⟨taken.1, taken.2, client, handler.request⟩ } }
  | .sendResponse response requestId => do
    let service ← w.service.sendResponse (ts.serializeResponse response) requestId
    some { w with
      service := service
      log := { w.log with answered := w.log.answered ++ [⟨requestId, response⟩] } }
  | .send i => do
    let send ← w.service.sends[i]?
    let service ← w.service.stepSend i
    some { w with
      service := service
      consumed := if send.stage = .notifyOne then w.consumed ++ [send.ref] else w.consumed }
  | .onResponse i => do
    let reply ← w.replies[i]?
    let client := (w.clients reply.client).onResponse reply.data
    some { w.setClient reply.client client none with replies := w.replies.eraseIdx i }
  | .callback c i => do
    let (client, call) ← (w.clients c).stepCallback i
    some (w.setClient c client call)
  | .takeResponse c => do
    let (client, response) ← (w.clients c).takeResponse
    some { w.setClient c client none with
      delivered := w.delivered ++ [⟨c, response.sequenceNumber, response.data⟩] }

/-- Clients and a service at work. -/
def system : System (World Req Res) (Action Req Res) := ⟨fresh, step ts processOf⟩

end Steps

end World

end RmwEcal
