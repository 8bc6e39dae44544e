import RmwEcal.Shared.Takes

/-!
# Calls that take

In `Takes` a thread that takes is one among others, and what it takes is all that counts.  Here
nobody else takes anything, and a call is followed from beginning to end with everything it reads
and writes: the arguments it checks, the message the type support fills, the other out-parameters
and the flag that is to say whether there was anything.

Five functions of `rmw.cpp` take one message, request or response.  They are written the same way
five times (`takeIfAny`): look whether there is something, take it, set the flag.  None of them
clears the flag, so that it tells the truth only if there was something to take or if it was cleared
by the caller (`taken_flag_iff`).
-/

set_option autoImplicit false

namespace RmwEcal

open Transition

/-! ## Arguments and results -/

/-- `rmw_ret_t`. -/
inductive RmwRet where
  | ok | invalidArgument | incorrectRmwImplementation
  deriving DecidableEq, Repr

/-- The arguments that are passed by pointer. -/
inductive Argument where
  | subscription | client | service | rosMessage | rosRequest | rosResponse | serializedMessage
  | messageInfo | requestHeader | messageSequence | messageInfoSequence | taken
  deriving DecidableEq, Repr

/-- What a call can be refused for. -/
structure Call where
  /-- The arguments that are null. -/
  nulls : List Argument
  /-- Whether `implementation_identifier` of the handle is the one of this library. -/
  sameImplementation : Bool
  deriving DecidableEq, Repr

/-- A call nothing is wrong with. -/
def Call.proper : Call := ⟨[], true⟩

/-- `RMW_CHECK_ARGUMENT_FOR_NULL` for some arguments, and then `CHECK_RMW_IMPLEMENTATION`. -/
def Call.check (call : Call) (arguments : List Argument) : RmwRet :=
  if arguments.any fun argument => argument ∈ call.nulls then .invalidArgument
  else if call.sameImplementation then .ok
  else .incorrectRmwImplementation

theorem Call.check_proper (arguments : List Argument) : proper.check arguments = .ok := by
  simp [check, proper]

/-- What a call leaves behind: the object of the handle, the out-parameters, and what it returns. -/
structure Outcome (σ ω : Type) where
  /-- The `Subscriber`, `Client` or `Service`. -/
  object : σ
  /-- The out-parameters other than `taken`. -/
  out : ω
  /-- `*taken`. -/
  taken : Bool
  /-- What is returned, unless an exception passes through. -/
  ret : Option RmwRet
  deriving DecidableEq, Repr

/-! ## Type supports -/

variable {σ μ ρ ω κ ι : Type}

/-- `Deserialize`, `DeserializeRequest` or `DeserializeResponse` of a type support: what becomes of
a message that is filled from some bytes.  If it throws, the message keeps what it has been given
until then. -/
abbrev Deserialize (μ : Type) := List UInt8 → μ → Except μ μ

/-- A message is filled, and something is returned afterwards unless that throws. -/
def Deserialize.thenReturn (deserialize : Deserialize μ) (bytes : List UInt8) (message : μ)
    (result : ρ) : μ × Option ρ :=
  match deserialize bytes message with
  | .ok message => (message, some result)
  | .error message => (message, none)

theorem Deserialize.thenReturn_eq_some {deserialize : Deserialize μ} {bytes : List UInt8}
    {message message' : μ} {result result' : ρ}
    (h : deserialize.thenReturn bytes message result = (message', some result')) :
    deserialize bytes message = .ok message' ∧ result' = result := by
  rw [thenReturn] at h
  split at h
  · next hok =>
    cases h
    exact ⟨hok, rfl⟩
  · cases h

theorem Deserialize.thenReturn_of_error {deserialize : Deserialize μ} {bytes : List UInt8}
    {message left : μ} (h : deserialize bytes message = .error left) (result : ρ) :
    deserialize.thenReturn bytes message result = (left, none) := by
  rw [thenReturn, h]

/-! ## The takes of the three classes -/

/-- `TakeLatestDataWithInfo`, with the message it fills. -/
def Subscriber.takeLatestDataWithInfo (deserialize : Deserialize μ) (s : Subscriber) (data : μ) :
    Option (Subscriber × μ × Option MessageInfo) := do
  let (s, latestData) ← s.popData
  some (s, deserialize.thenReturn latestData.data data latestData.info)

/-- `TakeLatestData`. -/
def Subscriber.takeLatestData (deserialize : Deserialize μ) (s : Subscriber) (data : μ) :
    Option (Subscriber × μ × Option Unit) := do
  let (s, data, info) ← s.takeLatestDataWithInfo deserialize data
  some (s, data, info.map fun _ => ())

/-- `TakeLatestSerializedData`. -/
def Subscriber.takeLatestSerializedData (s : Subscriber) : Option (Subscriber × Data) := s.popData

/-- `TakeResponse`, with the message it fills. -/
def Client.takeResponseInto (deserialize : Deserialize μ) (c : Client) (data : μ) :
    Option (Client × μ × Option ℕ) := do
  let (c, resp) ← c.takeResponse
  some (c, deserialize.thenReturn resp.data data resp.sequenceNumber)

/-- `TakeRequest`, with the message it fills: the steps of a thread in it, one after the other. -/
def Service.takeRequestInto (deserialize : Deserialize μ) (s : Service) (data : μ) :
    Option (Service × μ × Option ℕ) := do
  let i := s.takes.length
  let s ← s.takeRequest
  let (s, _) ← s.stepTake i
  let (s, taken) ← s.stepTake i
  let (requestId, request) ← taken
  some (s, deserialize.thenReturn request data requestId)

/-- `current_requests_` with a request inserted. -/
def Service.insertCurrent (s : Service) (requestId ref : ℕ) : List (ℕ × ℕ) :=
  if (s.current.lookup requestId).isSome then s.current else s.current ++ [(requestId, ref)]

/-- **What `TakeRequest` does.**  It takes the first request off the queue and inserts it, and only
then does it look what is in it. -/
theorem Service.takeRequestInto_eq (deserialize : Deserialize μ) {s : Service} {ref : ℕ}
    {pending : List ℕ} (hpending : s.pending = ref :: pending) (data : μ) :
    s.takeRequestInto deserialize data =
      (s.deref ref).bind fun handler => handler.getRequest.map fun request =>
        ({ s with pending := pending, current := s.insertCurrent handler.requestId ref },
          deserialize.thenReturn request data handler.requestId) := by
  simp only [takeRequestInto, takeRequest, hpending, stepTake, Option.bind_eq_bind,
    Option.bind_some, List.getElem?_concat_length]
  cases hhandler : s.deref ref with
  | none =>
    rw [deref] at hhandler
    simp only [deref, hhandler, Option.bind_none]
  | some handler =>
    rw [deref] at hhandler
    simp only [deref, hhandler, Option.bind_some, modify_concat_length,
      List.getElem?_concat_length, eraseIdx_concat_length]
    cases hrequest : handler.getRequest with
    | none => simp only [Option.bind_none, Option.map_none]
    | some request => simp only [Option.bind_some, Option.map_some, insertCurrent]

section Cases

variable {deserialize : Deserialize μ} {data data' : μ}

/-- Whatever the type support does, the oldest message is off the queue. -/
theorem Subscriber.takeLatestDataWithInfo_cases {s s' : Subscriber} {returned : Option MessageInfo}
    (h : s.takeLatestDataWithInfo deserialize data = some (s', data', returned)) :
    ∃ item, s.data = item :: s'.data ∧
      deserialize.thenReturn item.data data item.info = (data', returned) := by
  obtain ⟨⟨t, item⟩, hpop, h⟩ := Option.bind_eq_some_iff.mp h
  simp only [Option.some_inj, Prod.mk.injEq] at h
  obtain ⟨rfl, hreturn⟩ := h
  exact ⟨item, (popData_cases hpop).1, hreturn⟩

/-- And so is the oldest response. -/
theorem Client.takeResponseInto_cases {c c' : Client} {returned : Option ℕ}
    (h : c.takeResponseInto deserialize data = some (c', data', returned)) :
    ∃ item, c.responses = item :: c'.responses ∧
      deserialize.thenReturn item.data data item.sequenceNumber = (data', returned) := by
  obtain ⟨⟨d, item⟩, htake, h⟩ := Option.bind_eq_some_iff.mp h
  simp only [Option.some_inj, Prod.mk.injEq] at h
  obtain ⟨rfl, hreturn⟩ := h
  refine ⟨item, ?_, hreturn⟩
  rw [takeResponse] at htake
  split at htake
  · cases htake
  · next hresponses =>
    cases htake
    exact hresponses

/-- And the oldest request, which is in the map. -/
theorem Service.takeRequestInto_cases {s s' : Service} {returned : Option ℕ}
    (h : s.takeRequestInto deserialize data = some (s', data', returned)) :
    ∃ ref pending handler request, s.pending = ref :: pending ∧ s.deref ref = some handler ∧
      handler.getRequest = some request ∧
      s' = { s with pending := pending, current := s.insertCurrent handler.requestId ref } ∧
      deserialize.thenReturn request data handler.requestId = (data', returned) := by
  cases hpending : s.pending with
  | nil => simp [takeRequestInto, takeRequest, hpending] at h
  | cons ref pending =>
    rw [takeRequestInto_eq deserialize hpending] at h
    obtain ⟨handler, hhandler, h⟩ := Option.bind_eq_some_iff.mp h
    obtain ⟨request, hrequest, h⟩ := Option.map_eq_some_iff.mp h
    simp only [Prod.mk.injEq] at h
    obtain ⟨rfl, hreturn⟩ := h
    exact ⟨ref, pending, handler, request, rfl, hhandler, hrequest, rfl, hreturn⟩

end Cases

/-! ## The functions of `rmw.cpp` -/

/-- What the functions that take one thing have in common: they look whether there is something,
take it, and write what is returned to the out-parameters; `*taken` is set in the end, and nowhere
else. -/
def takeIfAny (arguments : List Argument) (has : σ → Bool)
    (take : σ → ω → Option (σ × ω × Option ρ)) (store : ρ → ω → Option ω) (call : Call) (s : σ)
    (out : ω) (taken : Bool) : Option (Outcome σ ω) :=
  match call.check arguments with
  | .ok =>
    if has s then do
      let (s, out, returned) ← take s out
      match returned with
      | some result => do
        let out ← store result out
        some ⟨s, out, true, some .ok⟩
      -- nobody catches what the type support throws
      | none => some ⟨s, out, taken, none⟩
    else some ⟨s, out, taken, some .ok⟩
  | refused => some ⟨s, out, taken, some refused⟩

/-- A take that fills the message among the out-parameters. -/
def onMessage (take : σ → μ → Option (σ × μ × Option ρ)) (s : σ) (out : μ × κ) :
    Option (σ × (μ × κ) × Option ρ) := do
  let (s, message, returned) ← take s out.1
  some (s, (message, out.2), returned)

theorem onMessage_eq_some {take : σ → μ → Option (σ × μ × Option ρ)} {s s' : σ} {out out' : μ × κ}
    {returned : Option ρ} (h : onMessage take s out = some (s', out', returned)) :
    take s out.1 = some (s', out'.1, returned) := by
  obtain ⟨⟨t, message, result⟩, htake, h⟩ := Option.bind_eq_some_iff.mp h
  cases h
  exact htake

namespace TakeCalls

/-- `rmw_message_info_t`. -/
structure RmwMessageInfo where
  sourceTimestamp : ℤ
  receivedTimestamp : ℤ
  deriving DecidableEq, Repr

/-- `rmw_serialized_message_t`. -/
structure RmwSerializedMessage where
  /-- What is behind `buffer`. -/
  buffer : List UInt8
  bufferLength : ℕ
  bufferCapacity : ℕ
  deriving DecidableEq, Repr

/-- `duration_cast` from microseconds to nanoseconds.  The product is undefined if it takes more
than 64 bits. -/
def toNanoseconds (microseconds : ℤ) : Option ℤ :=
  if -2 ^ 63 ≤ microseconds * 1000 ∧ microseconds * 1000 < 2 ^ 63 then some (microseconds * 1000)
  else none

/-- The times of a message as ROS expects them. -/
def inNanoseconds (info : Subscriber.MessageInfo) : RmwMessageInfo :=
  ⟨info.sendTimestamp * 1000, info.receiveTimestamp * 1000⟩

/-- `rmw_take`. -/
def rmwTake (deserialize : Deserialize μ) :
    Call → Subscriber → μ → Bool → Option (Outcome Subscriber μ) :=
  takeIfAny [.subscription, .rosMessage, .taken] Subscriber.hasData
    (Subscriber.takeLatestData deserialize) fun _ => some

/-- `rmw_take_with_info`.  The pointer to the info is not checked. -/
def rmwTakeWithInfo (deserialize : Deserialize μ) (call : Call) :
    Subscriber → μ × RmwMessageInfo → Bool → Option (Outcome Subscriber (μ × RmwMessageInfo)) :=
  takeIfAny [.subscription, .rosMessage, .taken] Subscriber.hasData
    (onMessage (Subscriber.takeLatestDataWithInfo deserialize)) (fun info out => do
      let sourceTimestamp ← toNanoseconds info.sendTimestamp
      let receivedTimestamp ← toNanoseconds info.receiveTimestamp
      if .messageInfo ∈ call.nulls then none
      else some (out.1, ⟨sourceTimestamp, receivedTimestamp⟩)) call

/-- `rmw_take_serialized_message`. -/
def rmwTakeSerializedMessage :
    Call → Subscriber → RmwSerializedMessage → Bool →
      Option (Outcome Subscriber RmwSerializedMessage) :=
  takeIfAny [.subscription, .serializedMessage, .taken] Subscriber.hasData
    (fun s serializedMessage => do
      let (s, data) ← s.takeLatestSerializedData
      some (s, serializedMessage, some data))
    fun data _ => some ⟨data.data, data.data.length, data.data.length⟩

/-- `rmw_take_response`, with the message and the sequence number of the header. -/
def rmwTakeResponse (deserialize : Deserialize μ) :
    Call → Client → μ × ℕ → Bool → Option (Outcome Client (μ × ℕ)) :=
  takeIfAny [.client, .requestHeader, .rosResponse, .taken] Client.hasResponse
    (onMessage (Client.takeResponseInto deserialize))
    fun sequenceNumber out => some (out.1, sequenceNumber)

/-- `rmw_take_request`, with the message and the sequence number of the header. -/
def rmwTakeRequest (deserialize : Deserialize μ) :
    Call → Service → μ × ℕ → Bool → Option (Outcome Service (μ × ℕ)) :=
  takeIfAny [.service, .requestHeader, .rosRequest, .taken] Service.hasRequest
    (onMessage (Service.takeRequestInto deserialize))
    fun requestId out => some (out.1, requestId)

/-! ## What the flag says -/

/-- The oldest item, and only that, has been taken off the queue and written to the
out-parameters. -/
def TakesOne (queue : σ → List ι) (writes : σ → ι → ω → ω → Prop) (s : σ) (out : ω)
    (o : Outcome σ ω) : Prop :=
  ∃ item, queue s = item :: queue o.object ∧ writes s item out o.out

/-- **The flag tells the truth**, if the call returns `RMW_RET_OK`. -/
def TellsTruth (queue : σ → List ι) (writes : σ → ι → ω → ω → Prop) (s : σ) (out : ω)
    (outcome : Option (Outcome σ ω)) : Prop :=
  ∀ o, outcome = some o → o.ret = some .ok →
    (o.taken = true ↔ TakesOne queue writes s out o) ∧
      (¬ TakesOne queue writes s out o → queue o.object = queue s ∧ o.out = out)

section TakeIfAny

variable {arguments : List Argument} {has : σ → Bool} {take : σ → ω → Option (σ × ω × Option ρ)}
  {store : ρ → ω → Option ω} {queue : σ → List ι} {writes : σ → ι → ω → ω → Prop}

/-- Where there is nothing to take, nothing happens, not even to the flag. -/
theorem takeIfAny_of_empty {call : Call} (hcheck : call.check arguments = .ok) {s : σ}
    (hhas : has s = false) (out : ω) (taken : Bool) :
    takeIfAny arguments has take store call s out taken = some ⟨s, out, taken, some .ok⟩ := by
  simp only [takeIfAny, hcheck, hhas, Bool.false_eq_true, if_false]

/-- How a call comes to return `RMW_RET_OK`. -/
theorem takeIfAny_ok {call : Call} {s : σ} {out : ω} {taken : Bool} {o : Outcome σ ω}
    (h : takeIfAny arguments has take store call s out taken = some o) (hret : o.ret = some .ok) :
    call.check arguments = .ok ∧
      (has s = false ∧ o = ⟨s, out, taken, some .ok⟩ ∨
        ∃ s' out' result out'', take s out = some (s', out', some result) ∧
          store result out' = some out'' ∧ o = ⟨s', out'', true, some .ok⟩) := by
  rw [takeIfAny] at h
  split at h
  · next hcheck =>
    refine ⟨hcheck, ?_⟩
    split at h
    · obtain ⟨⟨s', out', returned⟩, htake, h⟩ := Option.bind_eq_some_iff.mp h
      cases returned with
      | none =>
        cases h
        cases hret
      | some result =>
        obtain ⟨out'', hstore, h⟩ := Option.bind_eq_some_iff.mp h
        cases h
        exact .inr ⟨s', out', result, out'', htake, hstore, rfl⟩
    · next hhas =>
      cases h
      exact .inl ⟨Bool.eq_false_iff.mpr hhas, rfl⟩
  · next hrefused =>
    cases h
    exact absurd (Option.some_inj.mp hret) hrefused

/-- **The flag tells the truth if there is something, or if it was not set before**; and trivially
if the call is refused. -/
theorem tellsTruth_iff (hhas : ∀ s, has s = !(queue s).isEmpty)
    (htake : ∀ s out s' out' result out'', take s out = some (s', out', some result) →
      store result out' = some out'' →
      ∃ item, queue s = item :: queue s' ∧ writes s item out out'')
    (call : Call) (s : σ) (out : ω) (taken : Bool) :
    TellsTruth queue writes s out (takeIfAny arguments has take store call s out taken) ↔
      queue s ≠ [] ∨ taken = false ∨ call.check arguments ≠ .ok := by
  constructor
  · intro h
    by_contra! hnot
    obtain ⟨hempty, htaken, hcheck⟩ := hnot
    have hnone : has s = false := by rw [hhas, hempty]; rfl
    -- the call leaves everything as it is, and the flag set
    have hflag := h _ (takeIfAny_of_empty hcheck hnone out taken) rfl
    obtain ⟨item, hqueue, -⟩ := hflag.1.mp (Bool.eq_true_of_not_eq_false htaken)
    rw [hempty] at hqueue
    cases hqueue
  · intro h o ho hret
    obtain ⟨hcheck, ⟨hnone, rfl⟩ | ⟨s', out', result, out'', htook, hstore, rfl⟩⟩ :=
      takeIfAny_ok ho hret
    · have hempty : queue s = [] := by
        rw [hhas] at hnone
        exact List.isEmpty_iff.mp (by simpa using hnone)
      have htaken : taken = false := (h.resolve_left fun hne => hne hempty).resolve_right
        fun hrefused => hrefused hcheck
      refine ⟨⟨fun hset => ?_, ?_⟩, fun _ => ⟨rfl, rfl⟩⟩
      · rw [htaken] at hset
        cases hset
      · rintro ⟨item, hqueue, -⟩
        rw [hempty] at hqueue
        cases hqueue
    · have hone := htake s out s' out' result out'' htook hstore
      exact ⟨⟨fun _ => hone, fun _ => rfl⟩, fun hnot => (hnot hone).elim⟩

end TakeIfAny

/-! ## The five functions -/

section Five

variable {deserialize : Deserialize μ}

/-- What `rmw_take` writes. -/
def WritesMessage (deserialize : Deserialize μ) (_ : Subscriber) (item : Subscriber.Data)
    (out out' : μ) : Prop := deserialize item.data out = .ok out'

/-- What `rmw_take_with_info` writes. -/
def WritesMessageAndInfo (deserialize : Deserialize μ) (_ : Subscriber) (item : Subscriber.Data)
    (out out' : μ × RmwMessageInfo) : Prop :=
  deserialize item.data out.1 = .ok out'.1 ∧ out'.2 = inNanoseconds item.info

/-- What `rmw_take_serialized_message` writes. -/
def WritesSerializedMessage (_ : Subscriber) (item : Subscriber.Data)
    (_ out' : RmwSerializedMessage) : Prop :=
  out' = ⟨item.data, item.data.length, item.data.length⟩

/-- What `rmw_take_response` writes. -/
def WritesResponse (deserialize : Deserialize μ) (_ : Client) (item : Client.Response)
    (out out' : μ × ℕ) : Prop :=
  deserialize item.data out.1 = .ok out'.1 ∧ out'.2 = item.sequenceNumber

/-- What `rmw_take_request` writes. -/
def WritesRequest (deserialize : Deserialize μ) (s : Service) (item : ℕ) (out out' : μ × ℕ) :
    Prop :=
  ∃ handler request, s.deref item = some handler ∧ handler.getRequest = some request ∧
    deserialize request out.1 = .ok out'.1 ∧ out'.2 = handler.requestId

theorem rmwTake_tellsTruth (call : Call) (s : Subscriber) (message : μ) (taken : Bool) :
    TellsTruth Subscriber.data (WritesMessage deserialize) s message
        (rmwTake deserialize call s message taken) ↔
      s.data ≠ [] ∨ taken = false ∨ call.check [.subscription, .rosMessage, .taken] ≠ .ok := by
  refine tellsTruth_iff (fun _ => rfl) ?_ call s message taken
  intro s message s' message' result out htake hstore
  obtain ⟨⟨t, message₁, info⟩, hinfo, htake⟩ := Option.bind_eq_some_iff.mp htake
  simp only [Option.some_inj, Prod.mk.injEq, Option.map_eq_some_iff] at htake
  obtain ⟨rfl, rfl, info, rfl, -⟩ := htake
  obtain ⟨item, hqueue, hreturn⟩ := Subscriber.takeLatestDataWithInfo_cases hinfo
  cases hstore
  exact ⟨item, hqueue, (Deserialize.thenReturn_eq_some hreturn).1⟩

theorem rmwTakeWithInfo_tellsTruth (call : Call) (s : Subscriber) (out : μ × RmwMessageInfo)
    (taken : Bool) :
    TellsTruth Subscriber.data (WritesMessageAndInfo deserialize) s out
        (rmwTakeWithInfo deserialize call s out taken) ↔
      s.data ≠ [] ∨ taken = false ∨ call.check [.subscription, .rosMessage, .taken] ≠ .ok := by
  refine tellsTruth_iff (fun _ => rfl) ?_ call s out taken
  intro s out s' out' info out'' htake hstore
  obtain ⟨item, hqueue, hreturn⟩ :=
    Subscriber.takeLatestDataWithInfo_cases (onMessage_eq_some htake)
  obtain ⟨hok, rfl⟩ := Deserialize.thenReturn_eq_some hreturn
  obtain ⟨source, hsource, hstore⟩ := Option.bind_eq_some_iff.mp hstore
  obtain ⟨received, hreceived, hstore⟩ := Option.bind_eq_some_iff.mp hstore
  rw [toNanoseconds, Option.ite_none_right_eq_some, Option.some_inj] at hsource hreceived
  rw [Option.ite_none_left_eq_some, Option.some_inj] at hstore
  obtain ⟨-, rfl⟩ := hstore
  exact ⟨item, hqueue, hok, by rw [inNanoseconds, ← hsource.2, ← hreceived.2]⟩

theorem rmwTakeSerializedMessage_tellsTruth (call : Call) (s : Subscriber)
    (out : RmwSerializedMessage) (taken : Bool) :
    TellsTruth Subscriber.data WritesSerializedMessage s out
        (rmwTakeSerializedMessage call s out taken) ↔
      s.data ≠ [] ∨ taken = false ∨
        call.check [.subscription, .serializedMessage, .taken] ≠ .ok := by
  refine tellsTruth_iff (fun _ => rfl) ?_ call s out taken
  intro s out s' out' item out'' htake hstore
  obtain ⟨⟨t, data⟩, hpop, htake⟩ := Option.bind_eq_some_iff.mp htake
  simp only [Option.some_inj, Prod.mk.injEq] at htake
  obtain ⟨rfl, rfl, rfl⟩ := htake
  cases hstore
  exact ⟨data, (Subscriber.popData_cases hpop).1, rfl⟩

theorem rmwTakeResponse_tellsTruth (call : Call) (c : Client) (out : μ × ℕ) (taken : Bool) :
    TellsTruth Client.responses (WritesResponse deserialize) c out
        (rmwTakeResponse deserialize call c out taken) ↔
      c.responses ≠ [] ∨ taken = false ∨
        call.check [.client, .requestHeader, .rosResponse, .taken] ≠ .ok := by
  refine tellsTruth_iff (fun _ => rfl) ?_ call c out taken
  intro c out c' out' sequenceNumber out'' htake hstore
  obtain ⟨item, hqueue, hreturn⟩ := Client.takeResponseInto_cases (onMessage_eq_some htake)
  obtain ⟨hok, rfl⟩ := Deserialize.thenReturn_eq_some hreturn
  cases hstore
  exact ⟨item, hqueue, hok, rfl⟩

theorem rmwTakeRequest_tellsTruth (call : Call) (s : Service) (out : μ × ℕ) (taken : Bool) :
    TellsTruth Service.pending (WritesRequest deserialize) s out
        (rmwTakeRequest deserialize call s out taken) ↔
      s.pending ≠ [] ∨ taken = false ∨
        call.check [.service, .requestHeader, .rosRequest, .taken] ≠ .ok := by
  refine tellsTruth_iff (fun _ => rfl) ?_ call s out taken
  intro s out s' out' requestId out'' htake hstore
  obtain ⟨ref, pending, handler, request, hpending, hhandler, hrequest, rfl, hreturn⟩ :=
    Service.takeRequestInto_cases (onMessage_eq_some htake)
  obtain ⟨hok, rfl⟩ := Deserialize.thenReturn_eq_some hreturn
  cases hstore
  exact ⟨ref, hpending, handler, request, hhandler, hrequest, hok, rfl⟩

end Five

/-- **The flag of the five functions tells the truth if there is something to take, or if it was
not set before**, or if the call is refused. -/
theorem taken_flag_iff (deserialize : Deserialize μ) (call : Call) (taken : Bool) :
    (∀ s message, TellsTruth Subscriber.data (WritesMessage deserialize) s message
        (rmwTake deserialize call s message taken) ↔
      s.data ≠ [] ∨ taken = false ∨ call.check [.subscription, .rosMessage, .taken] ≠ .ok) ∧
    (∀ s out, TellsTruth Subscriber.data (WritesMessageAndInfo deserialize) s out
        (rmwTakeWithInfo deserialize call s out taken) ↔
      s.data ≠ [] ∨ taken = false ∨ call.check [.subscription, .rosMessage, .taken] ≠ .ok) ∧
    (∀ s out, TellsTruth Subscriber.data WritesSerializedMessage s out
        (rmwTakeSerializedMessage call s out taken) ↔
      s.data ≠ [] ∨ taken = false ∨
        call.check [.subscription, .serializedMessage, .taken] ≠ .ok) ∧
    (∀ c out, TellsTruth Client.responses (WritesResponse deserialize) c out
        (rmwTakeResponse deserialize call c out taken) ↔
      c.responses ≠ [] ∨ taken = false ∨
        call.check [.client, .requestHeader, .rosResponse, .taken] ≠ .ok) ∧
    ∀ s out, TellsTruth Service.pending (WritesRequest deserialize) s out
        (rmwTakeRequest deserialize call s out taken) ↔
      s.pending ≠ [] ∨ taken = false ∨
        call.check [.service, .requestHeader, .rosRequest, .taken] ≠ .ok :=
  ⟨fun s message => rmwTake_tellsTruth call s message taken,
    fun s out => rmwTakeWithInfo_tellsTruth call s out taken,
    fun s out => rmwTakeSerializedMessage_tellsTruth call s out taken,
    fun c out => rmwTakeResponse_tellsTruth call c out taken,
    fun s out => rmwTakeRequest_tellsTruth call s out taken⟩

/-- A type support for messages that are bytes. -/
def copyBytes : Deserialize (List UInt8) := fun bytes _ => .ok bytes

/-- **A flag that is still set from the last time.**  Nothing has arrived, and all five report that
something was taken. -/
theorem taken_flag_stale :
    ¬ TellsTruth Subscriber.data (WritesMessage copyBytes) (.construct Subscriber.lastOnlyQos) [1]
        (rmwTake copyBytes .proper (.construct Subscriber.lastOnlyQos) [1] true) ∧
    ¬ TellsTruth Subscriber.data (WritesMessageAndInfo copyBytes)
        (.construct Subscriber.lastOnlyQos) ([1], ⟨1000, 2000⟩)
        (rmwTakeWithInfo copyBytes .proper (.construct Subscriber.lastOnlyQos)
          ([1], ⟨1000, 2000⟩) true) ∧
    ¬ TellsTruth Subscriber.data WritesSerializedMessage (.construct Subscriber.lastOnlyQos)
        ⟨[1], 1, 1⟩ (rmwTakeSerializedMessage .proper (.construct Subscriber.lastOnlyQos)
          ⟨[1], 1, 1⟩ true) ∧
    ¬ TellsTruth Client.responses (WritesResponse copyBytes) .fresh ([1], 7)
        (rmwTakeResponse copyBytes .proper .fresh ([1], 7) true) ∧
    ¬ TellsTruth Service.pending (WritesRequest copyBytes) .fresh ([1], 7)
        (rmwTakeRequest copyBytes .proper .fresh ([1], 7) true) := by
  rw [rmwTake_tellsTruth, rmwTakeWithInfo_tellsTruth, rmwTakeSerializedMessage_tellsTruth,
    rmwTakeResponse_tellsTruth, rmwTakeRequest_tellsTruth]
  decide

end TakeCalls

end RmwEcal
