import RmwEcal.Shared.TakeCalls

/-!
# Answering requests

A request that `TakeRequest` hands out is answered by calling `SendResponse` with its id.  Here the
calls of the executor come one after the other, in any order, while the handlers of requests go on
with theirs; a call of either may throw, when the type support does not accept a request or a
response.

`SendResponse` looks its id up in `current_requests_` and uses what it finds without a check, and
`rmw_send_response` knows of no failure.  `sends_response_iff` says when that is good enough: for
responses that can be serialized, and ids that have been handed out and not been answered, as long
as the handlers of their requests are still there.  A response that cannot be leaves everything as
it is, and an exception takes the place of an error.

A take that throws has already inserted the request, under an id that nobody is told
(`take_strands`).
-/

set_option autoImplicit false

namespace RmwEcal

open Transition

/-! ## Whole calls -/

/-- `SerializeResponse` of a type support: the bytes, unless it throws. -/
abbrev SerializeResponse (ρ : Type) := ρ → Option (List UInt8)

namespace Service

/-- `ConsumeResponse`: the response is there, and a handler that waits for it is woken. -/
def Handler.consume (handler : Handler) (response : List UInt8) : Handler :=
  { handler with
    response := response
    phase := if handler.phase = .waiting then .getResponse else handler.phase }

/-- `SendResponse`, with the response serialized: the steps of a thread in it, one after the
other. -/
def respond (s : Service) (response : List UInt8) (requestId : ℕ) : Option Service := do
  let i := s.sends.length
  let s ← s.sendResponse response requestId
  let s ← s.stepSend i
  let s ← s.stepSend i
  s.stepSend i

/-- `SendResponse`, and whether it returns.  The request is looked up before the response is
serialized, and nothing has changed when the type support throws. -/
def respondWith {ρ : Type} (serializeResponse : SerializeResponse ρ) (s : Service) (data : ρ)
    (requestId : ℕ) : Option (Service × Option Unit) := do
  let _ ← s.current.lookup requestId
  match serializeResponse data with
  | some response => do
    let s ← s.respond response requestId
    some (s, some ())
  | none => some (s, none)

/-- The object behind a reference after something has happened to it. -/
theorem deref_update {s : Service} {ref : ℕ} {handler : Handler} (handler' : Handler)
    (h : s.deref ref = some handler) (hphase : handler'.phase ≠ .returned) :
    (s.update ref handler').deref ref = some handler' := by
  have hget : (s.update ref handler').handlers[ref]? = some handler' :=
    (getElem?_update (deref_eq_some h).1).mpr (.inl ⟨rfl, rfl⟩)
  rw [deref, hget, Option.bind_eq_bind, Option.bind_some, if_neg hphase]

theorem Handler.phase_consume {handler : Handler} (h : handler.phase ≠ .returned)
    (response : List UInt8) : (handler.consume response).phase ≠ .returned := by
  rw [consume]
  split
  · nofun
  · exact h

/-- **What `SendResponse` does** with an id that is in the map. -/
theorem respond_eq {s : Service} {requestId ref : ℕ}
    (h : s.current.lookup requestId = some ref) (response : List UInt8) :
    s.respond response requestId = (s.deref ref).map fun handler =>
      { s.update ref (handler.consume response) with
        current := s.current.filter fun entry => entry.1 ≠ requestId } := by
  simp only [respond, sendResponse, h, stepSend, Option.bind_eq_bind, Option.bind_some,
    List.getElem?_concat_length]
  cases hhandler : s.deref ref with
  | none =>
    rw [deref] at hhandler
    simp only [deref, hhandler, Option.bind_none, Option.map_none]
  | some handler =>
    have hlive := (deref_eq_some hhandler).2
    have hassigned := deref_update { handler with response := response } hhandler hlive
    rw [deref] at hhandler hassigned
    simp only [update] at hassigned
    simp only [deref, update, hhandler, hassigned, Option.bind_some, modify_concat_length,
      List.getElem?_concat_length, eraseIdx_concat_length, List.set_set, Handler.consume,
      Option.map_some]

end Service

namespace Answering

/-! ## Services at work -/

/-- A service, and what its calls have come to. -/
structure State where
  service : Service
  /-- The counter of `GenerateRequestId`. -/
  counter : ℕ
  /-- What `TakeRequest` has returned, with the request that was taken. -/
  handed : List (ℕ × ℕ)
  /-- The requests that were taken by a call that threw. -/
  stranded : List ℕ
  /-- The requests that have been given a response. -/
  answered : List ℕ
  deriving DecidableEq, Repr

/-- What can happen. -/
inductive Action where
  /-- A request to another service of the process draws an id. -/
  | generate
  /-- eCAL calls `OnRequest`. -/
  | onRequest (request : List UInt8)
  /-- A handler takes its next step. -/
  | handler (ref : ℕ)
  /-- A handler wakes for no reason. -/
  | wake (ref : ℕ)
  /-- A call of `TakeRequest`, and whether the type support throws. -/
  | takeRequest (throws : Bool)
  /-- A call of `SendResponse`; the response is serialized to these bytes, or the type support
  throws. -/
  | sendResponse (response : Option (List UInt8)) (requestId : ℕ)
  deriving DecidableEq, Repr

/-- A type support that accepts everything or nothing. -/
def verdict (throws : Bool) : Deserialize Unit := fun _ _ => if throws then .error () else .ok ()

namespace State

/-- A service nobody has called yet. -/
def fresh : State := ⟨.fresh, 0, [], [], []⟩

/-- The requests that have been taken. -/
def taken (s : State) : List ℕ := s.handed.map Prod.snd ++ s.stranded

/-- One step. -/
def step (s : State) : Action → Option State
  | .generate => some { s with counter := s.counter + 1 }
  | .onRequest request => some { s with
      service := s.service.onRequest (s.counter % 2 ^ 64) request
      counter := s.counter + 1 }
  | .handler ref => do
    let (service, _) ← s.service.stepHandler ref
    some { s with service := service }
  | .wake ref => do
    let service ← s.service.wake ref
    some { s with service := service }
  | .takeRequest throws => do
    let ref ← s.service.pending.head?
    let (service, _, returned) ← s.service.takeRequestInto (verdict throws) ()
    match returned with
    | some requestId => some { s with
        service := service
        handed := s.handed ++ [(requestId, ref)] }
    | none => some { s with service := service, stranded := s.stranded ++ [ref] }
  | .sendResponse response requestId => do
    let ref ← s.service.current.lookup requestId
    let (service, returned) ← s.service.respondWith id response requestId
    match returned with
    | some () => some { s with service := service, answered := s.answered ++ [ref] }
    | none => some { s with service := service }

end State

/-- A service at work. -/
def system : System State Action := ⟨.fresh, State.step⟩

/-! ## What is meant to hold -/

section Sends

variable {ρ : Type} (serializeResponse : SerializeResponse ρ)

/-- `rmw_send_response`, with what it returns, unless an exception passes through. -/
def rmwSendResponse (call : Call) (s : Service) (requestId : ℕ) (data : ρ) :
    Option (Service × Option RmwRet) :=
  match call.check [.service, .requestHeader, .rosResponse] with
  | .ok => do
    let (s, returned) ← s.respondWith serializeResponse data requestId
    some (s, returned.map fun _ => .ok)
  | refused => some (s, some refused)

/-- A request has been handed out under an id, and it has not been answered. -/
def State.Outstanding (s : State) (requestId ref : ℕ) : Prop :=
  (requestId, ref) ∈ s.handed ∧ ref ∉ s.answered

/-- A request is given a response, and just its entry is removed. -/
structure Answers (s : Service) (requestId ref : ℕ) (response : List UInt8) (s' : Service) :
    Prop where
  /-- The response is where the handler will look for it. -/
  response : ∃ handler, s'.deref ref = some handler ∧ handler.response = response
  /-- The entry is removed. -/
  current : ∃ l₁ l₂, s.current = l₁ ++ (requestId, ref) :: l₂ ∧ s'.current = l₁ ++ l₂
  /-- All other requests are left alone. -/
  others : ∀ other, other ≠ ref → s'.handlers[other]? = s.handlers[other]?
  /-- So is the queue. -/
  pending : s'.pending = s.pending

/-- **`SendResponse` answers only outstanding requests**, and `rmw_send_response` reports an error
where there is none. -/
def State.SendsResponse (s : State) (requestId : ℕ) (data : ρ) : Prop :=
  ∃ service ret,
    rmwSendResponse serializeResponse .proper s.service requestId data = some (service, ret) ∧
    ((∃ ref response, s.Outstanding requestId ref ∧ serializeResponse data = some response ∧
        Answers s.service requestId ref response service ∧ ret = some .ok) ∨
      (∀ ref, ¬ s.Outstanding requestId ref) ∧ service = s.service ∧
        ∃ code, ret = some code ∧ code ≠ .ok)

end Sends

/-! ## The map of requests -/

section Map

variable {l l₁ l₂ : List (ℕ × ℕ)} {k v : ℕ}

theorem mem_of_lookup (h : l.lookup k = some v) : (k, v) ∈ l := by
  obtain ⟨l₁, l₂, rfl, -⟩ := List.lookup_eq_some_iff.mp h
  simp

/-- An entry is found under its key if the keys are distinct. -/
theorem lookup_of_mem (hkeys : (l.map Prod.fst).Nodup) (h : (k, v) ∈ l) :
    l.lookup k = some v := by
  obtain ⟨l₁, l₂, rfl⟩ := List.append_of_mem h
  refine List.lookup_eq_some_iff.mpr ⟨l₁, l₂, rfl, fun entry hmem => ?_⟩
  rw [List.map_append, List.map_cons, List.nodup_append] at hkeys
  have hne := hkeys.2.2 entry.1 (List.mem_map_of_mem hmem) k (.head _)
  simpa using hne.symm

/-- To remove a key is to remove its entry. -/
theorem filter_of_nodup (hkeys : ((l₁ ++ (k, v) :: l₂).map Prod.fst).Nodup) :
    (l₁ ++ (k, v) :: l₂).filter (fun entry => entry.1 ≠ k) = l₁ ++ l₂ := by
  rw [List.map_append, List.map_cons, List.nodup_append, List.nodup_cons] at hkeys
  obtain ⟨-, ⟨hright, -⟩, hleft⟩ := hkeys
  have h₁ : l₁.filter (fun entry => entry.1 ≠ k) = l₁ := by
    refine List.filter_eq_self.mpr fun entry hmem => ?_
    simpa using hleft entry.1 (List.mem_map_of_mem hmem) k (.head _)
  have h₂ : l₂.filter (fun entry => entry.1 ≠ k) = l₂ := by
    refine List.filter_eq_self.mpr fun entry hmem => ?_
    have hne : entry.1 ≠ k := fun heq =>
      hright (List.mem_map.mpr ⟨entry, hmem, heq⟩)
    simpa using hne
  rw [List.filter_append, List.filter_cons_of_neg (by simp), h₁, h₂]

end Map

/-! ## The invariant -/

/-- The handlers are still there, with the ids of their requests, and none goes back to where it
has not queued its request. -/
def Persists (s s' : Service) : Prop :=
  ∀ (ref : ℕ) (handler : Service.Handler), s.handlers[ref]? = some handler →
    ∃ handler', s'.handlers[ref]? = some handler' ∧ handler'.requestId = handler.requestId ∧
    (handler.phase ≠ .enqueueRequest → handler'.phase ≠ .enqueueRequest)

theorem persists_update {s : Service} {ref : ℕ} {handler : Service.Handler}
    (hget : s.handlers[ref]? = some handler) (handler' : Service.Handler)
    (hid : handler'.requestId = handler.requestId)
    (hphase : handler.phase ≠ .enqueueRequest → handler'.phase ≠ .enqueueRequest) :
    Persists s (s.update ref handler') := by
  intro other handler₁ hother
  by_cases heq : other = ref
  · subst heq
    obtain rfl : handler = handler₁ := Option.some_inj.mp (hget.symm.trans hother)
    exact ⟨handler', (Service.getElem?_update hget).mpr (.inl ⟨rfl, rfl⟩), hid, hphase⟩
  · exact ⟨handler₁, (Service.getElem?_update hget).mpr (.inr ⟨heq, hother⟩), rfl, id⟩

theorem persists_onRequest (s : Service) (requestId : ℕ) (request : List UInt8) :
    Persists s (s.onRequest requestId request) := fun _ handler hget =>
  ⟨handler, Service.getElem?_onRequest.mpr (.inr hget), rfl, id⟩

/-- The invariant. -/
structure Inv (s : State) : Prop where
  /-- What is on the queue or has been taken was put on the queue by a handler. -/
  queued : ∀ ref ∈ s.service.pending ++ s.taken, ∃ handler,
    s.service.handlers[ref]? = some handler ∧ handler.phase ≠ .enqueueRequest
  /-- No request is there twice. -/
  nodup : (s.service.pending ++ s.taken).Nodup
  /-- A request is handed out under its id. -/
  handed : ∀ entry ∈ s.handed, ∃ handler,
    s.service.handlers[entry.2]? = some handler ∧ handler.requestId = entry.1
  /-- The ids in the map are distinct. -/
  keys : (s.service.current.map Prod.fst).Nodup
  /-- They lead to their requests. -/
  current : ∀ entry ∈ s.service.current, ∃ handler,
    s.service.handlers[entry.2]? = some handler ∧ handler.requestId = entry.1
  /-- These have been taken and not been answered. -/
  unanswered : ∀ entry ∈ s.service.current, entry.2 ∈ s.taken ∧ entry.2 ∉ s.answered
  /-- What has been answered had been taken. -/
  answered : ∀ ref ∈ s.answered, ref ∈ s.taken

theorem inv_fresh : Inv .fresh where
  queued _ h := by cases h
  nodup := .nil
  handed _ h := by cases h
  keys := .nil
  current _ h := by cases h
  unanswered _ h := by cases h
  answered _ h := by cases h

section Steps

variable {s : State} {ref : ℕ} {handler : Service.Handler}

/-- What an entry says stays true. -/
theorem Persists.entry {t t' : Service} (h : Persists t t') {entry : ℕ × ℕ}
    (hentry : ∃ handler, t.handlers[entry.2]? = some handler ∧ handler.requestId = entry.1) :
    ∃ handler, t'.handlers[entry.2]? = some handler ∧ handler.requestId = entry.1 := by
  obtain ⟨handler, hget, hid⟩ := hentry
  obtain ⟨handler', hget', hid', -⟩ := h _ _ hget
  exact ⟨handler', hget', hid'.trans hid⟩

theorem Persists.queued {t t' : Service} (h : Persists t t')
    (hqueued : ∃ handler, t.handlers[ref]? = some handler ∧ handler.phase ≠ .enqueueRequest) :
    ∃ handler, t'.handlers[ref]? = some handler ∧ handler.phase ≠ .enqueueRequest := by
  obtain ⟨handler, hget, hphase⟩ := hqueued
  obtain ⟨handler', hget', -, hphase'⟩ := h _ _ hget
  exact ⟨handler', hget', hphase' hphase⟩

/-- **Something happens to the handlers**, and to nothing else. -/
theorem Inv.persists (h : Inv s) {service : Service} (hpersists : Persists s.service service)
    (hpending : service.pending = s.service.pending)
    (hcurrent : service.current = s.service.current) (counter : ℕ) :
    Inv { s with service := service, counter := counter } where
  queued ref hmem := hpersists.queued (h.queued ref (by rwa [← hpending]))
  nodup := by
    have hnodup := h.nodup
    rwa [← hpending] at hnodup
  handed entry hmem := hpersists.entry (h.handed entry hmem)
  keys := by
    have hkeys := h.keys
    rwa [← hcurrent] at hkeys
  current entry hmem := hpersists.entry (h.current entry (by rwa [← hcurrent]))
  unanswered entry hmem := h.unanswered entry (by rwa [← hcurrent])
  answered := h.answered

/-- **A handler goes on.** -/
theorem Inv.moves (h : Inv s) (hget : s.service.handlers[ref]? = some handler)
    {phase : Service.Phase} (hphase : phase ≠ .enqueueRequest) :
    Inv { s with service := s.service.update ref { handler with phase := phase } } :=
  h.persists (persists_update hget { handler with phase := phase } rfl fun _ => hphase) rfl rfl _

/-- **A handler queues its request.** -/
theorem Inv.enqueue (h : Inv s) (hget : s.service.handlers[ref]? = some handler)
    (hphase : handler.phase = .enqueueRequest) :
    Inv { s with service := { s.service.update ref { handler with phase := .notifyWaitSet } with
      pending := s.service.pending ++ [ref] } } := by
  have hpersists : Persists s.service
      { s.service.update ref { handler with phase := .notifyWaitSet } with
        pending := s.service.pending ++ [ref] } :=
    persists_update hget { handler with phase := .notifyWaitSet } rfl fun _ => nofun
  -- a request that has not been queued is nowhere yet
  have hnew : ref ∉ s.service.pending ++ s.taken := by
    intro hmem
    obtain ⟨other, hother, hqueued⟩ := h.queued ref hmem
    obtain rfl : handler = other := Option.some_inj.mp (hget.symm.trans hother)
    exact hqueued hphase
  have hperm : (s.service.pending ++ [ref] ++ s.taken).Perm
      (ref :: (s.service.pending ++ s.taken)) := by
    rw [List.append_assoc]
    exact List.perm_middle
  refine ⟨fun other hmem => ?_, ?_, fun entry hmem => hpersists.entry (h.handed entry hmem),
    h.keys, fun entry hmem => hpersists.entry (h.current entry hmem), h.unanswered, h.answered⟩
  · obtain rfl | hmem := List.mem_cons.mp (hperm.subset hmem)
    · exact ⟨_, (Service.getElem?_update hget).mpr (.inl ⟨rfl, rfl⟩), nofun⟩
    · exact hpersists.queued (h.queued other hmem)
  · exact hperm.nodup_iff.mpr (List.nodup_cons.mpr ⟨hnew, h.nodup⟩)

theorem mem_insertCurrent {t : Service} {requestId : ℕ} {entry : ℕ × ℕ}
    (h : entry ∈ t.insertCurrent requestId ref) : entry ∈ t.current ∨ entry = (requestId, ref) := by
  rw [Service.insertCurrent] at h
  split at h
  · exact .inl h
  · exact (List.mem_append.mp h).imp_right List.mem_singleton.mp

theorem keys_insertCurrent {t : Service} (h : (t.current.map Prod.fst).Nodup) (requestId : ℕ) :
    ((t.insertCurrent requestId ref).map Prod.fst).Nodup := by
  rw [Service.insertCurrent]
  split
  · exact h
  · next hnone =>
    rw [List.map_append, List.map_singleton, (List.perm_append_singleton _ _).nodup_iff,
      List.nodup_cons]
    refine ⟨fun hmem => hnone ?_, h⟩
    obtain ⟨⟨k, v⟩, hentry, rfl⟩ := List.mem_map.mp hmem
    rw [lookup_of_mem h hentry]
    rfl

/-- What is still on the queue has not been taken. -/
theorem Inv.not_taken {pending : List ℕ} (h : Inv s)
    (hpending : s.service.pending = ref :: pending) : ref ∉ s.taken := by
  intro hmem
  have hnodup := h.nodup
  rw [hpending, List.cons_append, List.nodup_cons] at hnodup
  exact hnodup.1 (List.mem_append_right _ hmem)

/-- **A request is taken**, and handed out or not. -/
theorem Inv.take {pending : List ℕ} {handed : List (ℕ × ℕ)} {stranded : List ℕ} (h : Inv s)
    (hpending : s.service.pending = ref :: pending)
    (hget : s.service.handlers[ref]? = some handler)
    (hhanded : ∀ entry ∈ handed, entry ∈ s.handed ∨ entry = (handler.requestId, ref))
    (hperm : (handed.map Prod.snd ++ stranded).Perm (ref :: s.taken)) :
    Inv { s with
      service := { s.service with
        pending := pending
        current := s.service.insertCurrent handler.requestId ref }
      handed := handed
      stranded := stranded } := by
  have hmoved : (pending ++ (handed.map Prod.snd ++ stranded)).Perm
      (s.service.pending ++ s.taken) := by
    rw [hpending]
    exact (hperm.append_left pending).trans List.perm_middle
  have hnew : ref ∉ s.answered := fun hmem => h.not_taken hpending (h.answered ref hmem)
  refine ⟨fun other hmem => h.queued other (hmoved.subset hmem), hmoved.nodup_iff.mpr h.nodup,
    fun entry hmem => ?_, keys_insertCurrent h.keys _, fun entry hmem => ?_,
    fun entry hmem => ?_, fun other hmem => ?_⟩
  · obtain hmem | rfl := hhanded entry hmem
    · exact h.handed entry hmem
    · exact ⟨handler, hget, rfl⟩
  · obtain hmem | rfl := mem_insertCurrent hmem
    · exact h.current entry hmem
    · exact ⟨handler, hget, rfl⟩
  · obtain hmem | rfl := mem_insertCurrent hmem
    · exact ⟨hperm.symm.subset (.tail _ (h.unanswered entry hmem).1), (h.unanswered entry hmem).2⟩
    · exact ⟨hperm.symm.subset (.head _), hnew⟩
  · exact hperm.symm.subset (.tail _ (h.answered other hmem))

/-- **A request is answered.** -/
theorem Inv.answer {requestId : ℕ} (h : Inv s)
    (hlookup : s.service.current.lookup requestId = some ref)
    (hget : s.service.handlers[ref]? = some handler) (response : List UInt8) :
    Inv { s with
      service := { s.service.update ref (handler.consume response) with
        current := s.service.current.filter fun entry => entry.1 ≠ requestId }
      answered := s.answered ++ [ref] } := by
  have hpersists : Persists s.service (s.service.update ref (handler.consume response)) := by
    refine persists_update hget _ rfl fun hphase => ?_
    rw [Service.Handler.consume]
    split
    · nofun
    · exact hphase
  have hentry := mem_of_lookup hlookup
  -- another entry leads to another request
  have hne : ∀ entry ∈ s.service.current, entry.1 ≠ requestId → entry.2 ≠ ref := by
    intro entry hmem hkey heq
    obtain ⟨other, hother, hid⟩ := h.current entry hmem
    obtain ⟨other', hother', hid'⟩ := h.current _ hentry
    rw [heq] at hother
    obtain rfl : other = other' := Option.some_inj.mp (hother.symm.trans hother')
    exact hkey (hid.symm.trans hid')
  refine ⟨fun other hmem => hpersists.queued (h.queued other hmem), h.nodup,
    fun entry hmem => hpersists.entry (h.handed entry hmem),
    h.keys.sublist (List.filter_sublist.map _), fun entry hmem => ?_, fun entry hmem => ?_,
    fun other hmem => ?_⟩
  · exact hpersists.entry (h.current entry (List.mem_filter.mp hmem).1)
  · obtain ⟨hmem, hkey⟩ := List.mem_filter.mp hmem
    refine ⟨(h.unanswered entry hmem).1, fun hanswered => ?_⟩
    obtain hanswered | hanswered := List.mem_append.mp hanswered
    · exact (h.unanswered entry hmem).2 hanswered
    · exact hne entry hmem (by simpa using hkey) (List.mem_singleton.mp hanswered)
  · obtain hmem | hmem := List.mem_append.mp hmem
    · exact h.answered other hmem
    · rw [List.mem_singleton.mp hmem]
      exact (h.unanswered _ hentry).1

end Steps

/-! ## Steps -/

section Cases

variable {s s' : State}

/-- **What a call of `TakeRequest` does** to a service at work. -/
theorem takeRequest_cases {throws : Bool} (h : s.step (.takeRequest throws) = some s') :
    ∃ ref pending handler, s.service.pending = ref :: pending ∧
      s.service.handlers[ref]? = some handler ∧
      s' = { s with
        service := { s.service with
          pending := pending
          current := s.service.insertCurrent handler.requestId ref }
        handed := if throws then s.handed else s.handed ++ [(handler.requestId, ref)]
        stranded := if throws then s.stranded ++ [ref] else s.stranded } := by
  obtain ⟨ref, hhead, h⟩ := Option.bind_eq_some_iff.mp h
  obtain ⟨⟨service, message, returned⟩, htake, h⟩ := Option.bind_eq_some_iff.mp h
  obtain ⟨first, pending, handler, request, hpending, hhandler, -, rfl, hreturn⟩ :=
    Service.takeRequestInto_cases htake
  rw [hpending, List.head?_cons, Option.some_inj] at hhead
  subst hhead
  refine ⟨first, pending, handler, hpending, (Service.deref_eq_some hhandler).1, ?_⟩
  cases throws with
  | true =>
    cases hreturn
    cases h
    rfl
  | false =>
    cases hreturn
    cases h
    rfl

/-- **What a call of `SendResponse` does** to it: nothing, if the type support throws. -/
theorem sendResponse_cases {response : Option (List UInt8)} {requestId : ℕ}
    (h : s.step (.sendResponse response requestId) = some s') :
    response = none ∧ s' = s ∨
    ∃ bytes ref handler, response = some bytes ∧ s.service.current.lookup requestId = some ref ∧
      s.service.handlers[ref]? = some handler ∧
      s' = { s with
        service := { s.service.update ref (handler.consume bytes) with
          current := s.service.current.filter fun entry => entry.1 ≠ requestId }
        answered := s.answered ++ [ref] } := by
  obtain ⟨ref, hlookup, h⟩ := Option.bind_eq_some_iff.mp h
  rw [Service.respondWith, hlookup] at h
  cases response with
  | none =>
    cases h
    exact .inl ⟨rfl, rfl⟩
  | some bytes =>
    simp only [id, Option.bind_eq_bind, Option.bind_some, Service.respond_eq hlookup] at h
    cases hhandler : s.service.deref ref with
    | none =>
      rw [hhandler] at h
      cases h
    | some handler =>
      rw [hhandler] at h
      cases h
      exact .inr ⟨bytes, ref, handler, rfl, hlookup, (Service.deref_eq_some hhandler).1, rfl⟩

/-- A request that is taken is one more of those that have been taken. -/
theorem taken_perm (throws : Bool) (ref requestId : ℕ) :
    (((if throws then s.handed else s.handed ++ [(requestId, ref)]).map Prod.snd) ++
      if throws then s.stranded ++ [ref] else s.stranded).Perm (ref :: s.taken) := by
  cases throws with
  | true =>
    rw [if_pos rfl, if_pos rfl, ← List.append_assoc]
    exact List.perm_append_singleton ref _
  | false =>
    rw [if_neg Bool.false_ne_true, if_neg Bool.false_ne_true, List.map_append,
      List.map_singleton, List.append_assoc]
    exact List.perm_middle

/-- **A step keeps the invariant.** -/
theorem Inv.step {a : Action} (h : Inv s) (hstep : s.step a = some s') : Inv s' := by
  cases a with
  | generate =>
    cases hstep
    exact h.persists (fun _ handler hget => ⟨handler, hget, rfl, id⟩) rfl rfl _
  | onRequest request =>
    cases hstep
    exact h.persists (persists_onRequest _ _ _) rfl rfl _
  | handler ref =>
    obtain ⟨⟨service, response⟩, hservice, hstep⟩ := Option.bind_eq_some_iff.mp hstep
    cases hstep
    obtain ⟨handler, hget, hcases⟩ := Service.stepHandler_cases hservice
    cases hcases with
    | enqueueRequest hphase => exact h.enqueue hget hphase
    | notifyWaitSet | waitForResponse | getResponse => exact h.moves hget (by decide)
  | wake ref =>
    obtain ⟨service, hservice, hstep⟩ := Option.bind_eq_some_iff.mp hstep
    cases hstep
    obtain ⟨handler, hget, -, rfl⟩ := Service.wake_cases hservice
    exact h.moves hget (by decide)
  | takeRequest throws =>
    obtain ⟨ref, pending, handler, hpending, hget, rfl⟩ := takeRequest_cases hstep
    refine h.take hpending hget (fun entry hmem => ?_) (taken_perm throws _ _)
    split at hmem
    · exact .inl hmem
    · exact (List.mem_append.mp hmem).imp_right List.mem_singleton.mp
  | sendResponse response requestId =>
    obtain ⟨-, rfl⟩ | ⟨bytes, ref, handler, -, hlookup, hget, rfl⟩ := sendResponse_cases hstep
    · exact h
    · exact h.answer hlookup hget bytes

theorem Inv.of_reachable (h : system.Reachable System.any s) : Inv s :=
  h.invariant inv_fresh fun _ _ _ hinv _ hstep => hinv.step hstep

end Cases

/-! ## Punctual handlers -/

/-- No handler wakes without notification, and the ids do not run out. -/
def Regular (s : State) : Action → Prop
  | .onRequest _ => s.counter < 2 ^ 64
  | .wake _ => False
  | _ => True

/-- What holds in addition if all steps are of this kind. -/
structure Punctual (s : State) : Prop where
  /-- Ids were drawn from the counter. -/
  ids : ∀ (ref : ℕ) (handler : Service.Handler), s.service.handlers[ref]? = some handler →
    handler.requestId < s.counter
  /-- No id was drawn twice. -/
  distinct : ∀ (ref ref' : ℕ) (handler handler' : Service.Handler),
    s.service.handlers[ref]? = some handler → s.service.handlers[ref']? = some handler' →
    handler.requestId = handler'.requestId → ref = ref'
  /-- Handlers are past the wait only if they have been answered. -/
  past : ∀ (ref : ℕ) (handler : Service.Handler), s.service.handlers[ref]? = some handler →
    ¬ handler.phase.Awaits → ref ∈ s.answered
  /-- What has been taken is in the map until it is answered. -/
  registered : ∀ ref ∈ s.taken, ∀ handler, s.service.handlers[ref]? = some handler →
    ref ∈ s.answered ∨ (handler.requestId, ref) ∈ s.service.current

theorem punctual_fresh : Punctual .fresh where
  ids _ _ h := by cases h
  distinct _ _ _ _ h := by cases h
  past _ _ h := by cases h
  registered _ h := by cases h

section Punctual

variable {s : State} {ref : ℕ} {handler : Service.Handler}

/-- **A handler moves.** -/
theorem Punctual.update (h : Punctual s) (hget : s.service.handlers[ref]? = some handler)
    (handler' : Service.Handler) (hid : handler'.requestId = handler.requestId)
    (hpast : ¬ handler'.phase.Awaits → ref ∈ s.answered) :
    Punctual { s with service := s.service.update ref handler' } := by
  -- a handler of the new state, with one of the old state that has the same id
  have hold : ∀ {other : ℕ} {handler₁ : Service.Handler},
      (s.service.update ref handler').handlers[other]? = some handler₁ →
      ∃ handler₀, s.service.handlers[other]? = some handler₀ ∧
        handler₁.requestId = handler₀.requestId := by
    intro other handler₁ hother
    obtain ⟨rfl, rfl⟩ | ⟨-, hother⟩ := (Service.getElem?_update hget).mp hother
    · exact ⟨handler, hget, hid⟩
    · exact ⟨handler₁, hother, rfl⟩
  refine ⟨fun other handler₁ hother => ?_, fun i j handler₁ handler₂ hi hj heq => ?_,
    fun other handler₁ hother hphase => ?_, fun other hmem handler₁ hother => ?_⟩
  · obtain ⟨handler₀, hother, heq⟩ := hold hother
    rw [heq]
    exact h.ids other handler₀ hother
  · obtain ⟨handler₁', hi, heq₁⟩ := hold hi
    obtain ⟨handler₂', hj, heq₂⟩ := hold hj
    exact h.distinct i j handler₁' handler₂' hi hj (by rw [← heq₁, ← heq₂, heq])
  · obtain ⟨rfl, rfl⟩ | ⟨-, hother⟩ := (Service.getElem?_update hget).mp hother
    · exact hpast hphase
    · exact h.past other handler₁ hother hphase
  · obtain ⟨handler₀, hother, heq⟩ := hold hother
    rw [heq]
    exact h.registered other hmem handler₀ hother

theorem Punctual.onRequest (h : Punctual s) (hcounter : s.counter < 2 ^ 64)
    (request : List UInt8) (hinv : Inv s) :
    Punctual { s with
      service := s.service.onRequest (s.counter % 2 ^ 64) request
      counter := s.counter + 1 } := by
  rw [Nat.mod_eq_of_lt hcounter]
  refine ⟨fun other handler₁ hother => ?_, fun i j handler₁ handler₂ hi hj heq => ?_,
    fun other handler₁ hother hphase => ?_, fun other hmem handler₁ hother => ?_⟩
  · obtain ⟨-, rfl⟩ | hother := Service.getElem?_onRequest.mp hother
    · exact Nat.lt_succ_self _
    · exact Nat.lt_succ_of_lt (h.ids other handler₁ hother)
  · obtain ⟨rfl, rfl⟩ | hi := Service.getElem?_onRequest.mp hi
    · obtain ⟨rfl, rfl⟩ | hj := Service.getElem?_onRequest.mp hj
      · rfl
      · exact absurd heq.symm (Nat.ne_of_lt (h.ids j handler₂ hj))
    · obtain ⟨rfl, rfl⟩ | hj := Service.getElem?_onRequest.mp hj
      · exact absurd heq (Nat.ne_of_lt (h.ids i handler₁ hi))
      · exact h.distinct i j handler₁ handler₂ hi hj heq
  · obtain ⟨-, rfl⟩ | hother := Service.getElem?_onRequest.mp hother
    · exact (hphase Service.Phase.awaits_enqueueRequest).elim
    · exact h.past other handler₁ hother hphase
  · obtain ⟨rfl, -⟩ | hother := Service.getElem?_onRequest.mp hother
    · -- a request that has been taken has a handler already
      obtain ⟨handler₀, hget, -⟩ := hinv.queued _ (List.mem_append_right _ hmem)
      exact absurd (List.getElem?_eq_some_iff.mp hget).1 (Nat.lt_irrefl _)
    · exact h.registered other hmem handler₁ hother

/-- Requests with the same id are the same. -/
theorem Punctual.eq_of_entry {i : ℕ} (h : Punctual s)
    (hget : s.service.handlers[ref]? = some handler)
    (hentry : ∃ handler', s.service.handlers[i]? = some handler' ∧
      handler'.requestId = handler.requestId) : i = ref := by
  obtain ⟨handler', hget', hid⟩ := hentry
  exact h.distinct i ref handler' handler hget' hget hid

/-- The id of a request that is still on the queue is not in the map. -/
theorem Punctual.insertCurrent_eq {pending : List ℕ} (h : Punctual s) (hinv : Inv s)
    (hpending : s.service.pending = ref :: pending)
    (hget : s.service.handlers[ref]? = some handler) :
    s.service.insertCurrent handler.requestId ref =
      s.service.current ++ [(handler.requestId, ref)] := by
  have hnone : s.service.current.lookup handler.requestId = none := by
    refine Option.eq_none_iff_forall_ne_some.mpr fun ref' hlookup => ?_
    have hmem := mem_of_lookup hlookup
    obtain rfl : ref' = ref := h.eq_of_entry hget (hinv.current _ hmem)
    exact hinv.not_taken hpending (hinv.unanswered _ hmem).1
  rw [Service.insertCurrent, hnone]
  rfl

/-- **A request is taken.** -/
theorem Punctual.take {pending : List ℕ} {handed : List (ℕ × ℕ)} {stranded : List ℕ}
    (h : Punctual s) (hinv : Inv s) (hpending : s.service.pending = ref :: pending)
    (hget : s.service.handlers[ref]? = some handler)
    (hperm : (handed.map Prod.snd ++ stranded).Perm (ref :: s.taken)) :
    Punctual { s with
      service := { s.service with
        pending := pending
        current := s.service.insertCurrent handler.requestId ref }
      handed := handed
      stranded := stranded } := by
  refine ⟨h.ids, h.distinct, h.past, fun other hmem handler₁ hother => ?_⟩
  rw [h.insertCurrent_eq hinv hpending hget]
  obtain rfl | hmem := List.mem_cons.mp (hperm.subset hmem)
  · obtain rfl : handler = handler₁ := Option.some_inj.mp (hget.symm.trans hother)
    exact .inr (List.mem_append_right _ (.head _))
  · exact (h.registered other hmem handler₁ hother).imp_right (List.mem_append_left _)

/-- **A request is answered.** -/
theorem Punctual.answer {requestId : ℕ} (h : Punctual s) (hinv : Inv s)
    (hlookup : s.service.current.lookup requestId = some ref)
    (hget : s.service.handlers[ref]? = some handler) (response : List UInt8) :
    Punctual { s with
      service := { s.service.update ref (handler.consume response) with
        current := s.service.current.filter fun entry => entry.1 ≠ requestId }
      answered := s.answered ++ [ref] } := by
  have hmoved : Punctual { s with
      service := s.service.update ref (handler.consume response)
      answered := s.answered ++ [ref] } := by
    refine Punctual.update (s := { s with answered := s.answered ++ [ref] }) ?_ hget _ rfl
      fun _ => List.mem_append_right _ (.head _)
    exact ⟨h.ids, h.distinct, fun other handler₁ hother hphase =>
        List.mem_append_left _ (h.past other handler₁ hother hphase),
      fun other hmem handler₁ hother =>
        (h.registered other hmem handler₁ hother).imp_left (List.mem_append_left _)⟩
  refine ⟨hmoved.ids, hmoved.distinct, hmoved.past, fun other hmem handler₁ hother => ?_⟩
  obtain hanswered | hentry := hmoved.registered other hmem handler₁ hother
  · exact .inl hanswered
  by_cases hkey : handler₁.requestId = requestId
  · -- this is the one that has just been answered
    have hlookup' := lookup_of_mem hinv.keys hentry
    rw [hkey, hlookup, Option.some_inj] at hlookup'
    exact .inl (hlookup' ▸ List.mem_append_right _ (.head _))
  · exact .inr (List.mem_filter.mpr ⟨hentry, by simpa using hkey⟩)

/-- **Steps of this kind keep it.** -/
theorem Punctual.step {s' : State} {a : Action} (h : Punctual s) (hinv : Inv s)
    (hregular : Regular s a) (hstep : s.step a = some s') : Punctual s' := by
  cases a with
  | generate =>
    cases hstep
    exact ⟨fun ref handler hget => Nat.lt_succ_of_lt (h.ids ref handler hget), h.distinct, h.past,
      h.registered⟩
  | onRequest request =>
    cases hstep
    exact h.onRequest hregular request hinv
  | handler ref =>
    obtain ⟨⟨service, response⟩, hservice, hstep⟩ := Option.bind_eq_some_iff.mp hstep
    cases hstep
    obtain ⟨handler, hget, hcases⟩ := Service.stepHandler_cases hservice
    cases hcases with
    | enqueueRequest hphase =>
      have hmoved := h.update hget { handler with phase := .notifyWaitSet } rfl
        fun hphase => (hphase ⟨nofun, nofun⟩).elim
      exact ⟨hmoved.ids, hmoved.distinct, hmoved.past, hmoved.registered⟩
    | notifyWaitSet | waitForResponse =>
      exact h.update hget _ rfl fun hphase => (hphase ⟨nofun, nofun⟩).elim
    | getResponse hphase =>
      exact h.update hget _ rfl fun _ => h.past ref handler hget fun hawaits => hawaits.1 hphase
  | wake ref => exact hregular.elim
  | takeRequest throws =>
    obtain ⟨ref, pending, handler, hpending, hget, rfl⟩ := takeRequest_cases hstep
    exact h.take hinv hpending hget (taken_perm throws _ _)
  | sendResponse response requestId =>
    obtain ⟨-, rfl⟩ | ⟨bytes, ref, handler, -, hlookup, hget, rfl⟩ := sendResponse_cases hstep
    · exact h
    · exact h.answer hinv hlookup hget bytes

theorem Punctual.of_reachable (h : system.Reachable Regular s) : Punctual s :=
  h.invariant_of (fun _ hr => Inv.of_reachable hr.any) punctual_fresh
    fun _ _ _ hinv hpunctual hregular hstep => hpunctual.step hinv hregular hstep

end Punctual

/-! ## When `SendResponse` is good enough -/

section Sends

variable {ρ : Type} {serializeResponse : SerializeResponse ρ} {s : State} {requestId : ℕ} {data : ρ}

/-- **What `rmw_send_response` does** in a proper call, with an id that is in the map. -/
theorem rmwSendResponse_proper {t : Service} {ref : ℕ}
    (hlookup : t.current.lookup requestId = some ref) (data : ρ) :
    rmwSendResponse serializeResponse .proper t requestId data =
      match serializeResponse data with
      | some response => (t.respond response requestId).map fun t => (t, some .ok)
      | none => some (t, none) := by
  rw [rmwSendResponse, Call.check_proper, Service.respondWith, hlookup]
  cases serializeResponse data with
  | none => rfl
  | some response =>
    simp only [Option.bind_eq_bind, Option.bind_some]
    cases t.respond response requestId <;> rfl

/-- An id that is not in the map leads nowhere. -/
theorem rmwSendResponse_of_none {t : Service} (hlookup : t.current.lookup requestId = none)
    (data : ρ) : rmwSendResponse serializeResponse .proper t requestId data = none := by
  rw [rmwSendResponse, Call.check_proper, Service.respondWith, hlookup]
  rfl

/-- What `SendResponse` does is what it should do, for a request that has been handed out and whose
handler is still there. -/
theorem Inv.answers (h : Inv s) {response : List UInt8} {ref : ℕ} {handler : Service.Handler}
    (hlookup : s.service.current.lookup requestId = some ref)
    (hhandler : s.service.deref ref = some handler) :
    Answers s.service requestId ref response
      { s.service.update ref (handler.consume response) with
        current := s.service.current.filter fun entry => entry.1 ≠ requestId } := by
  obtain ⟨hget, hlive⟩ := Service.deref_eq_some hhandler
  refine ⟨⟨handler.consume response, Service.deref_update _ hhandler
    (Service.Handler.phase_consume hlive response), rfl⟩, ?_, fun other hne => ?_, rfl⟩
  · obtain ⟨l₁, l₂, hcurrent⟩ := List.append_of_mem (mem_of_lookup hlookup)
    have hkeys := h.keys
    rw [hcurrent] at hkeys
    exact ⟨l₁, l₂, hcurrent, by rw [← filter_of_nodup hkeys, ← hcurrent]⟩
  · exact List.getElem?_set_ne (Ne.symm hne)

theorem Inv.sendsResponse_iff (h : Inv s) :
    s.SendsResponse serializeResponse requestId data ↔
      (serializeResponse data).isSome ∧ ∃ ref, s.service.current.lookup requestId = some ref ∧
        (requestId, ref) ∈ s.handed ∧ (s.service.deref ref).isSome := by
  constructor
  · rintro ⟨service, ret, hsend, hcases⟩
    cases hlookup : s.service.current.lookup requestId with
    | none =>
      rw [rmwSendResponse_of_none hlookup] at hsend
      cases hsend
    | some ref =>
      rw [rmwSendResponse_proper hlookup] at hsend
      cases hdata : serializeResponse data with
      | none =>
        -- no error is reported, but an exception passes through
        rw [hdata] at hsend
        cases hsend
        obtain ⟨_, _, -, -, -, hret⟩ | ⟨-, -, _, hret, -⟩ := hcases
        · cases hret
        · cases hret
      | some response =>
        rw [hdata] at hsend
        obtain ⟨t, hrespond, heq⟩ := Option.map_eq_some_iff.mp hsend
        cases heq
        obtain ⟨ref', _, hout, -, hanswers, -⟩ | ⟨-, -, _, hret, hcode⟩ := hcases
        · obtain ⟨l₁, l₂, hcurrent, -⟩ := hanswers.current
          have hlookup' : s.service.current.lookup requestId = some ref' :=
            lookup_of_mem h.keys (by rw [hcurrent]; simp)
          obtain rfl : ref = ref' := Option.some_inj.mp (hlookup.symm.trans hlookup')
          rw [Service.respond_eq hlookup] at hrespond
          obtain ⟨handler, hhandler, -⟩ := Option.map_eq_some_iff.mp hrespond
          exact ⟨rfl, ref, rfl, hout.1, by rw [hhandler]; rfl⟩
        · cases hret
          exact absurd rfl hcode
  · rintro ⟨hdata, ref, hlookup, hhanded, halive⟩
    obtain ⟨response, hdata⟩ := Option.isSome_iff_exists.mp hdata
    obtain ⟨handler, hhandler⟩ := Option.isSome_iff_exists.mp halive
    refine ⟨_, some .ok, ?_, .inl ⟨ref, response, ⟨hhanded, ?_⟩, hdata,
      h.answers hlookup hhandler, rfl⟩⟩
    · rw [rmwSendResponse_proper hlookup, hdata]
      simp only [Service.respond_eq hlookup, hhandler, Option.map_some]
    · exact (h.unanswered _ (mem_of_lookup hlookup)).2

/-- **An outstanding request is in the map, and its handler is still there**, as long as the
handlers are punctual. -/
theorem Punctual.registered_of_outstanding (h : Punctual s) (hinv : Inv s) {ref : ℕ}
    (hout : s.Outstanding requestId ref) :
    s.service.current.lookup requestId = some ref ∧ (s.service.deref ref).isSome := by
  obtain ⟨handler, hget, hid⟩ := hinv.handed _ hout.1
  have htaken : ref ∈ s.taken := List.mem_append_left _ (List.mem_map_of_mem hout.1)
  have hentry := (h.registered ref htaken handler hget).resolve_left hout.2
  have hawaits : handler.phase.Awaits := by
    by_contra hpast
    exact hout.2 (h.past ref handler hget hpast)
  rw [hid] at hentry
  refine ⟨lookup_of_mem hinv.keys hentry, ?_⟩
  rw [Service.deref, hget, Option.bind_eq_bind, Option.bind_some, if_neg hawaits.2]
  rfl

end Sends

/-- **`SendResponse` answers the requests that it finds**, if the response can be serialized, they
were handed out and their handlers have not returned; otherwise it does not report an error, but
does something else, throws or does something undefined.  With punctual handlers and enough ids it
is the outstanding requests that it finds. -/
theorem sends_response_iff {ρ : Type} (serializeResponse : SerializeResponse ρ) (requestId : ℕ)
    (data : ρ) :
    (∀ s, system.Reachable System.any s → (s.SendsResponse serializeResponse requestId data ↔
      (serializeResponse data).isSome ∧ ∃ ref, s.service.current.lookup requestId = some ref ∧
        (requestId, ref) ∈ s.handed ∧ (s.service.deref ref).isSome)) ∧
    ∀ s, system.Reachable Regular s → (s.SendsResponse serializeResponse requestId data ↔
      (serializeResponse data).isSome ∧ ∃ ref, s.Outstanding requestId ref) := by
  refine ⟨fun s h => (Inv.of_reachable h).sendsResponse_iff, fun s h => ?_⟩
  have hinv := Inv.of_reachable h.any
  have hpunctual := Punctual.of_reachable h
  rw [hinv.sendsResponse_iff]
  refine and_congr_right fun _ => ⟨?_, ?_⟩
  · rintro ⟨ref, hlookup, hhanded, -⟩
    exact ⟨ref, hhanded, (hinv.unanswered _ (mem_of_lookup hlookup)).2⟩
  · rintro ⟨ref, hout⟩
    obtain ⟨hlookup, halive⟩ := hpunctual.registered_of_outstanding hinv hout
    exact ⟨ref, hlookup, hout.1, halive⟩

/-- A service after its first request has been taken. -/
def oneTaken : State :=
  ⟨⟨[⟨⟨sequenceBytes 5, 0, []⟩, .notifyWaitSet⟩], [], [(0, 0)], [], []⟩, 1, [(0, 0)], [], []⟩

theorem reachable_oneTaken : system.Reachable Regular oneTaken :=
  .step (a := .takeRequest false)
    (.step (a := .handler 0)
      (.step (a := .onRequest (sequenceBytes 5)) .init (Nat.two_pow_pos 64) rfl) trivial rfl)
    trivial rfl

/-- The request that has been taken can be answered. -/
theorem sends_response_iff_one :
    (oneTaken.SendsResponse some 0 [7] ↔ (some [(7 : UInt8)]).isSome ∧
      ∃ ref, oneTaken.service.current.lookup 0 = some ref ∧ (0, ref) ∈ oneTaken.handed ∧
        (oneTaken.service.deref ref).isSome) ∧
    (oneTaken.SendsResponse some 0 [7] ↔ (some [(7 : UInt8)]).isSome ∧
      ∃ ref, oneTaken.Outstanding 0 ref) :=
  ⟨(sends_response_iff some 0 [7]).1 oneTaken reachable_oneTaken.any,
    (sends_response_iff some 0 [7]).2 oneTaken reachable_oneTaken⟩

/-- **An id that was never handed out, one that was answered before, and a response that the type
support does not accept.**  The first two times the iterator at the end of the map is followed, the
third time the request stays where it is and an exception passes through; no error is reported. -/
theorem sends_response_fails :
    (system.Reachable Regular .fresh ∧
      rmwSendResponse some .proper State.fresh.service 5 [7] = none ∧
      ¬ State.fresh.SendsResponse some 5 [7]) ∧
    (∃ s, system.Reachable Regular s ∧ s.answered = [0] ∧
      rmwSendResponse some .proper s.service 0 [8] = none ∧ ¬ s.SendsResponse some 0 [8]) ∧
    oneTaken.Outstanding 0 0 ∧
      rmwSendResponse (fun _ : Unit => none) .proper oneTaken.service 0 () =
        some (oneTaken.service, none) ∧
      ¬ oneTaken.SendsResponse (fun _ : Unit => none) 0 () := by
  refine ⟨⟨.init, rfl, ?_⟩, ⟨_, .step (a := .sendResponse (some [7]) 0) reachable_oneTaken trivial
    rfl, rfl, rfl, ?_⟩, ⟨.head _, nofun⟩, rfl, ?_⟩
  · rintro ⟨_, _, hsend, -⟩
    cases hsend
  · rintro ⟨_, _, hsend, -⟩
    cases hsend
  · rintro ⟨_, _, hsend, ⟨_, _, -, hnone, -⟩ | ⟨hnone, -⟩⟩
    · cases hnone
    · exact hnone 0 ⟨.head _, nofun⟩

end Answering

end RmwEcal
