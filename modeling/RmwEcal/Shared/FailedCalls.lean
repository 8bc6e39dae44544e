import RmwEcal.Shared.Service

/-!
# Calls that fail

`CallAsync` may fail, in which case there will be no response.  A client does not look at what it
returns.  The request stays at the front of the queue all the same, where it keeps the ones behind
it from being called: only a response takes a request off the queue, and only an empty queue or a
response makes a call.

`FailedCalls.front_outstanding` says when this does no harm: while a callback is running, or if the
same request has been called before.  Any other failure is the end of the client
(`wedged_of_uncovered`).
-/

set_option autoImplicit false

namespace RmwEcal

open Transition

namespace FailedCalls

/-- A client, and the calls it has outstanding. -/
structure State where
  client : Client
  /-- The counter of `GenerateSequenceNumber`. -/
  counter : ℕ
  /-- How many requests were taken off the queue. -/
  popped : ℕ
  /-- The calls that will be answered: what was passed to `CallAsync`, with the place of the request
  among all that were put on the queue. -/
  outstanding : List (ℕ × List UInt8)
  deriving DecidableEq, Repr

/-- The steps.  Where `CallAsync` is called, `success` is what it returns. -/
inductive Action where
  /-- Another client of the process draws a sequence number. -/
  | generate
  /-- A thread calls `SendRequest`; the request is serialized to these bytes. -/
  | sendRequest (serializedData : List UInt8)
  /-- A thread gets the lock in `EnqueueRequest`. -/
  | enqueueRequest (i : ℕ) (success : Bool)
  /-- eCAL has the response of the service to a call. -/
  | respond (i : ℕ) (response : List UInt8)
  /-- A callback takes its next step. -/
  | callback (i : ℕ) (success : Bool)
  /-- The executor takes a response. -/
  | takeResponse
  deriving DecidableEq, Repr

namespace State

/-- A client nobody has used yet. -/
def fresh : State := ⟨.fresh, 0, 0, []⟩

/-- The client takes a step in which it may make a call. -/
def record (s : State) (client : Client) (call : Option (List UInt8)) (success : Bool) : State :=
  let popped := s.popped + (s.client.requests.length - client.requests.length)
  { s with
    client := client
    popped := popped
    outstanding := s.outstanding ++
      if success then call.toList.map fun data => (popped, data) else [] }

/-- One step. -/
def step (s : State) : Action → Option State
  | .generate => some { s with counter := s.counter + 1 }
  | .sendRequest serializedData => some { s with
      client := s.client.beginRequest (s.counter % 2 ^ 64) serializedData
      counter := s.counter + 1 }
  | .enqueueRequest i success => do
    let (client, call) ← s.client.enqueueRequest i
    some (s.record client call success)
  | .respond i response => do
    let (_, request) ← s.outstanding[i]?
    let reply ← Service.reply request response
    some { s with client := s.client.onResponse reply, outstanding := s.outstanding.eraseIdx i }
  | .callback i success => do
    let (client, call) ← s.client.stepCallback i
    some (s.record client call success)
  | .takeResponse => do
    let (client, _) ← s.client.takeResponse
    some { s with client := client }

/-- No `SendRequest` and no `OnResponse` is in progress. -/
def AtRest (s : State) : Prop := s.client.sending = [] ∧ s.client.callbacks = []

/-- A call for the request at the front of the queue is outstanding. -/
def FrontOutstanding (s : State) : Prop :=
  ∃ request ∈ s.client.requests.head?, (s.popped, request.data) ∈ s.outstanding

instance (s : State) : Decidable s.FrontOutstanding :=
  inferInstanceAs (Decidable (∃ request ∈ s.client.requests.head?,
    (s.popped, request.data) ∈ s.outstanding))

/-- A call that fails is covered if a callback is still to make the next one, or if one for the same
request is outstanding already. -/
def Covered (s : State) : Action → Prop
  | .enqueueRequest _ false => s.client.requests = [] → s.client.callbacks ≠ []
  | .callback i false =>
    (s.client.callbacks[i]?).map Client.Callback.stage = some .performNextRequest →
      s.client.requests ≠ [] → 2 ≤ s.client.callbacks.length ∨ s.FrontOutstanding
  | _ => True

end State

/-- A client whose calls may fail. -/
def system : System State Action := ⟨.fresh, State.step⟩

/-! ## What is kept -/

namespace State

variable {s s' : State}

/-- A queue that is not empty has a call for its front outstanding, unless a callback is running,
which will make one. -/
def Inv (s : State) : Prop :=
  s.client.requests = [] ∨ s.client.callbacks ≠ [] ∨ s.FrontOutstanding

/-- The front is not looked for anywhere but in the queue and among the calls. -/
theorem FrontOutstanding.congr (h : s.FrontOutstanding)
    (hrequests : s'.client.requests.head? = s.client.requests.head?) (hpopped : s'.popped = s.popped)
    (hcalls : s.outstanding ⊆ s'.outstanding) : s'.FrontOutstanding := by
  obtain ⟨request, hhead, hmem⟩ := h
  exact ⟨request, by rwa [hrequests], by rw [hpopped]; exact hcalls hmem⟩

theorem Inv.enqueueRequest (h : s.Inv) {i : ℕ} {success : Bool}
    (hcovered : s.Covered (.enqueueRequest i success))
    (hstep : s.step (.enqueueRequest i success) = some s') : s'.Inv := by
  obtain ⟨⟨client, call⟩, hclient, hstep⟩ := Option.bind_eq_some_iff.mp hstep
  cases hstep
  obtain ⟨request, -, rfl, ⟨hempty, rfl⟩ | ⟨hne, rfl⟩⟩ := Client.enqueueRequest_cases hclient
  · rcases success with _ | _
    · exact .inr (.inl (hcovered hempty))
    · refine .inr (.inr ⟨request, ?_, ?_⟩)
      · simp [record, hempty]
      · simp [record, hempty]
  · rcases h with hempty | hcallbacks | hfront
    · exact absurd hempty hne
    · exact .inr (.inl hcallbacks)
    · refine .inr (.inr (hfront.congr ?_ ?_ ?_))
      · simp [record, List.head?_append_of_ne_nil _ hne]
      · simp [record]
      · exact List.subset_append_left _ _

theorem inv_callback {i : ℕ} {success : Bool} (hcovered : s.Covered (.callback i success))
    (hstep : s.step (.callback i success) = some s') : s'.Inv := by
  obtain ⟨⟨client, call⟩, hclient, hstep⟩ := Option.bind_eq_some_iff.mp hstep
  cases hstep
  obtain ⟨l₁, l₂, stage, response, hget, hl, hcase⟩ := Client.stepCallback_cases hclient
  rcases hcase with ⟨-, -⟩ | _ | ⟨-⟩ | _
  · exact .inr (.inl (by simp [record]))
  · exact .inr (.inl (by simp [record]))
  · exact .inr (.inl (by simp [record]))
  · by_cases hne : s.client.requests = []
    · exact .inl hne
    · rcases success with _ | _
      · rcases hcovered (by rw [hget]; rfl) hne with hother | hfront
        · refine .inr (.inl fun hnone => ?_)
          have hlen : (l₁ ++ l₂).length = 0 := List.length_eq_zero_iff.mpr hnone
          rw [hl, List.length_append, List.length_cons] at hother
          rw [List.length_append] at hlen
          omega
        · exact .inr (.inr (hfront.congr rfl (by simp [record]) (List.subset_append_left _ _)))
      · obtain ⟨request, requests, hrequests⟩ := List.exists_cons_of_ne_nil hne
        refine .inr (.inr ⟨request, ?_, ?_⟩)
        · simp [record, hrequests]
        · simp [record, hrequests]

theorem Inv.step (h : s.Inv) {a : Action} (hcovered : s.Covered a) (hstep : s.step a = some s') :
    s'.Inv := by
  rcases a with _ | serializedData | ⟨i, success⟩ | ⟨i, response⟩ | ⟨i, success⟩ | _
  · cases hstep
    exact h
  · cases hstep
    exact h
  · exact h.enqueueRequest hcovered hstep
  · obtain ⟨⟨place, request⟩, -, hstep⟩ := Option.bind_eq_some_iff.mp hstep
    obtain ⟨reply, -, hstep⟩ := Option.bind_eq_some_iff.mp hstep
    cases hstep
    exact .inr (.inl (by simp [Client.onResponse]))
  · exact inv_callback hcovered hstep
  · obtain ⟨⟨client, response⟩, hclient, hstep⟩ := Option.bind_eq_some_iff.mp hstep
    cases hstep
    rw [Client.takeResponse] at hclient
    split at hclient
    · cases hclient
    · cases hclient
      exact h

end State

/-- **A client whose failed calls are all covered does not get stuck**: when nobody is at work, a
queue that is not empty waits for a response to the call for its front. -/
theorem front_outstanding {s : State} (h : system.Reachable State.Covered s) (hrest : s.AtRest)
    (hrequests : s.client.requests ≠ []) : s.FrontOutstanding := by
  have hinv : s.Inv := h.invariant (P := State.Inv) (.inl rfl) fun _ _ _ hinv hok hstep =>
    hinv.step hok hstep
  rcases hinv with hempty | hcallbacks | hfront
  · exact absurd hempty hrequests
  · exact absurd hrest.2 hcallbacks
  · exact hfront

/-- Two requests, the second one queued behind the first. -/
theorem front_outstanding_two : ∃ s : State, s.client.requests.length = 2 ∧
    s.FrontOutstanding := by
  have h : system.Reachable State.Covered
      ⟨⟨[], [⟨0, [1] ++ sequenceBytes 0⟩, ⟨1, [2] ++ sequenceBytes 1⟩], [], []⟩, 2, 0,
        [(0, [1] ++ sequenceBytes 0)]⟩ :=
    .step (a := .enqueueRequest 0 true)
      (.step (a := .enqueueRequest 0 true)
        (.step (a := .sendRequest [2]) (.step (a := .sendRequest [1]) .init trivial rfl) trivial rfl)
        trivial rfl) trivial rfl
  exact ⟨_, rfl, front_outstanding h ⟨rfl, rfl⟩ (List.cons_ne_nil _ _)⟩

/-- **A call fails, and the client is stuck**: the second request waits behind the first, for which
there will be no response. -/
theorem stuck : ∃ s : State, system.Reachable System.any s ∧ s.AtRest ∧
    s.client.requests.length = 2 ∧ s.outstanding = [] :=
  ⟨_, System.reachable_of_exec [.sendRequest [1], .enqueueRequest 0 false, .sendRequest [2],
    .enqueueRequest 0 true] rfl, ⟨rfl, rfl⟩, rfl, rfl⟩

/-! ## What happens otherwise -/

namespace State

variable {s s' : State}

/-- The front of the queue waits for a call that nobody is going to make. -/
structure Wedged (s : State) : Prop where
  requests_ne : s.client.requests ≠ []
  callbacks_nil : s.client.callbacks = []
  not_outstanding : ¬s.FrontOutstanding

/-- Only requests that were put on the queue are called. -/
def Placed (s : State) : Prop :=
  ∀ call ∈ s.outstanding, call.1 < s.popped + s.client.requests.length

/-- A step of the client calls no request but the front. -/
theorem Placed.record (h : s.Placed) {client : Client} {call : Option (List UInt8)} {success : Bool}
    (hcall : call.isSome → client.requests ≠ []) : (s.record client call success).Placed := by
  intro entry hmem
  show entry.1 < s.popped + (s.client.requests.length - client.requests.length) +
    client.requests.length
  rcases List.mem_append.mp hmem with hold | hnew
  · have hlt := h entry hold
    omega
  · rcases success with _ | _
    · cases hnew
    · rcases call with _ | data
      · cases hnew
      · have hlen := List.length_pos_iff.mpr (hcall rfl)
        rw [if_pos rfl, Option.toList_some, List.map_singleton, List.mem_singleton] at hnew
        rw [hnew]
        omega

theorem Placed.step (h : s.Placed) {a : Action} (hstep : s.step a = some s') : s'.Placed := by
  rcases a with _ | serializedData | ⟨i, success⟩ | ⟨i, response⟩ | ⟨i, success⟩ | _
  · cases hstep
    exact h
  · cases hstep
    exact h
  · obtain ⟨⟨client, call⟩, hclient, hstep⟩ := Option.bind_eq_some_iff.mp hstep
    cases hstep
    obtain ⟨request, -, rfl, -⟩ := Client.enqueueRequest_cases hclient
    exact h.record fun _ => by simp
  · obtain ⟨⟨place, request⟩, -, hstep⟩ := Option.bind_eq_some_iff.mp hstep
    obtain ⟨reply, -, hstep⟩ := Option.bind_eq_some_iff.mp hstep
    cases hstep
    exact fun call hmem => h call (List.mem_of_mem_eraseIdx hmem)
  · obtain ⟨⟨client, call⟩, hclient, hstep⟩ := Option.bind_eq_some_iff.mp hstep
    cases hstep
    obtain ⟨l₁, l₂, stage, response, -, -, hcase⟩ := Client.stepCallback_cases hclient
    rcases hcase with _ | _ | _ | _
    · exact h.record fun hsome => by cases hsome
    · exact h.record fun hsome => by cases hsome
    · exact h.record fun hsome => by cases hsome
    · refine h.record fun hsome hempty => ?_
      rw [show s.client.requests = [] from hempty] at hsome
      cases hsome
  · obtain ⟨⟨client, response⟩, hclient, hstep⟩ := Option.bind_eq_some_iff.mp hstep
    cases hstep
    rw [Client.takeResponse] at hclient
    split at hclient
    · cases hclient
    · cases hclient
      exact h

/-- A failure that is not covered leaves the client wedged. -/
theorem Placed.wedged (h : s.Placed) {a : Action} (hstep : s.step a = some s')
    (huncovered : ¬s.Covered a) : s'.Wedged := by
  rcases a with _ | serializedData | ⟨i, success⟩ | ⟨i, response⟩ | ⟨i, success⟩ | _
  · exact absurd trivial huncovered
  · exact absurd trivial huncovered
  · rcases success with _ | _
    · obtain ⟨hempty, hcallbacks⟩ := Classical.not_imp.mp huncovered
      obtain ⟨⟨client, call⟩, hclient, hstep⟩ := Option.bind_eq_some_iff.mp hstep
      cases hstep
      obtain ⟨request, -, rfl, -⟩ := Client.enqueueRequest_cases hclient
      refine ⟨by simp [State.record], not_not.mp hcallbacks, ?_⟩
      rintro ⟨request', hhead, hmem⟩
      have hold : (s.popped, request'.data) ∈ s.outstanding := by
        simpa [State.record, hempty] using hmem
      have hlt := h _ hold
      rw [hempty] at hlt
      exact absurd hlt (lt_irrefl _)
    · exact absurd trivial huncovered
  · exact absurd trivial huncovered
  · rcases success with _ | _
    · obtain ⟨hstage, hrest⟩ := Classical.not_imp.mp huncovered
      obtain ⟨hne, hrest⟩ := Classical.not_imp.mp hrest
      obtain ⟨hfew, hfront⟩ := not_or.mp hrest
      obtain ⟨⟨client, call⟩, hclient, hstep⟩ := Option.bind_eq_some_iff.mp hstep
      cases hstep
      obtain ⟨l₁, l₂, stage, response, hget, hl, hcase⟩ := Client.stepCallback_cases hclient
      rw [hget, Option.map_some, Option.some_inj] at hstage
      rcases hcase with _ | _ | _ | _
      · cases hstage
      · cases hstage
      · cases hstage
      · refine ⟨hne, ?_, fun hout => hfront (hout.congr rfl (by simp [State.record]) ?_)⟩
        · rw [hl, List.length_append, List.length_cons] at hfew
          have hlen : (l₁ ++ l₂).length = 0 := by
            rw [List.length_append]
            omega
          exact List.length_eq_zero_iff.mp hlen
        · simp [State.record]
    · exact absurd trivial huncovered
  · exact absurd trivial huncovered

/-- The threads that are still to send only queue up behind the front. -/
theorem Wedged.finish (h : s.Wedged) : ∃ as s', system.exec System.any s as = some s' ∧
    s'.AtRest ∧ s'.Wedged := by
  generalize hsending : s.client.sending = sending
  induction sending generalizing s with
  | nil => exact ⟨[], s, rfl, ⟨hsending, h.callbacks_nil⟩, h⟩
  | cons request sending ih =>
    obtain ⟨client, call, hclient, hrequests, hcallbacks, hrest⟩ : ∃ client call,
        s.client.enqueueRequest 0 = some (client, call) ∧
        client.requests = s.client.requests ++ [request] ∧
        client.callbacks = s.client.callbacks ∧ client.sending = sending := by
      rw [Client.enqueueRequest, hsending]
      exact ⟨_, _, rfl, rfl, rfl, rfl⟩
    have hstep : s.step (.enqueueRequest 0 false) = some (s.record client call false) :=
      Option.bind_eq_some_iff.mpr ⟨_, hclient, rfl⟩
    have hwedged : (s.record client call false).Wedged := by
      refine ⟨by simp [State.record, hrequests], hcallbacks.trans h.callbacks_nil, fun hfront =>
        h.not_outstanding (hfront.congr ?_ ?_ ?_)⟩
      · simp [State.record, hrequests, List.head?_append_of_ne_nil _ h.requests_ne]
      · simp [State.record, hrequests]
      · simp [State.record]
    obtain ⟨as, s', hrun, hend⟩ := ih hwedged hrest
    refine ⟨.enqueueRequest 0 false :: as, s', ?_, hend⟩
    exact (if_pos trivial).trans (Option.bind_eq_some_iff.mpr ⟨_, hstep, hrun⟩)

end State

/-- **A failure that is not covered is the end**: as soon as nobody is at work, a request waits at
the front of the queue for a response that will not come. -/
theorem stuck_of_uncovered {s s' : State} (h : system.Reachable System.any s) {a : Action}
    (hstep : s.step a = some s') (huncovered : ¬s.Covered a) :
    ∃ as s'', system.exec System.any s' as = some s'' ∧ s''.AtRest ∧ s''.client.requests ≠ [] ∧
      ¬s''.FrontOutstanding := by
  have hplaced : s.Placed := h.invariant (P := State.Placed) (by rintro _ ⟨⟩)
    fun _ _ _ hplaced _ hstep => hplaced.step hstep
  obtain ⟨as, s'', hrun, hrest, hwedged⟩ := (hplaced.wedged hstep huncovered).finish
  exact ⟨as, s'', hrun, hrest, hwedged.requests_ne, hwedged.not_outstanding⟩

end FailedCalls

end RmwEcal
