import RmwEcal.Shared.TypeSupport
import RmwEcal.Transition.Channel

/-!
# Publishers and subscriptions of a topic

Any number of publishers and subscriptions, in any number of processes and in both languages, on one
topic.  A message is serialized when it is published, and deserialized when it is taken; in between
there are only bytes: on their way, where eCAL may lose some, and in the queues of the subscribers.
Meanwhile the processes go on creating type supports, so that the registries are never the same.

For plain types this is a channel for values (`carries`).  So what a subscription has taken are
values that were published, those of every publisher in the order in which it published them, and
none twice (`values_in_order`); and if eCAL loses nothing, none is left out (`values_complete`).
-/

set_option autoImplicit false

namespace RmwEcal

open Transition Qos

namespace Topic

/-- A publisher or a subscription: where it is, and its `type_support_`. -/
structure Member where
  process : ℕ
  typeSupport : MessageTypeSupport

/-- The publishers and the subscriptions, and the processes that they are in. -/
structure Setting where
  /-- The publishers. -/
  publisher : ℕ → Member
  /-- The subscriptions. -/
  subscription : ℕ → Member
  /-- What the subscriptions are created with. -/
  qos : ℕ → EndpointQOS
  /-- The platform of a process. -/
  platform : ℕ → Platform
  /-- The types that a process may create type supports for. -/
  types : ℕ → Language → List MessageMembers

/-- What has been passed to `rmw_publish` or to `rmw_publish_serialized_message`. -/
inductive Published where
  | message (data : List Cell)
  | serialized (message : TakeCalls.RmwSerializedMessage)

/-- What has come out of `rmw_take` or of `rmw_take_serialized_message`. -/
inductive Taken where
  | message (data : List Cell)
  | serialized (message : TakeCalls.RmwSerializedMessage)

end Topic

/-- A topic in use. -/
structure Topic where
  /-- The registries of the processes.  They have no lock: in the code a type support that is
  created while another is at work races with it, and here one comes after the other. -/
  registries : ℕ → Registries
  /-- What is on its way from a publisher to a subscription. -/
  inFlight : ℕ → ℕ → List (List UInt8)
  subscribers : ℕ → Subscriber
  /-- What has been published. -/
  published : ℕ → List Topic.Published
  /-- What has been taken. -/
  taken : ℕ → List Topic.Taken

namespace Topic

/-- What can happen. -/
inductive Action where
  /-- A process creates a serializer. -/
  | createSerializer (process : ℕ) (l : Language) (T : MessageMembers)
  /-- A process creates a deserializer. -/
  | createDeserializer (process : ℕ) (l : Language) (T : MessageMembers)
  /-- `rmw_publish`. -/
  | publish (p : ℕ) (data : List Cell)
  /-- `rmw_publish_serialized_message`. -/
  | publishSerializedMessage (p : ℕ) (message : TakeCalls.RmwSerializedMessage)
  /-- eCAL loses a message on its way. -/
  | lose (p s i : ℕ)
  /-- eCAL calls `OnReceiveData` with the message that is next. -/
  | onReceiveData (p s : ℕ) (time microSeconds : ℤ)
  /-- A callback takes its next step. -/
  | callback (s i : ℕ)
  /-- `rmw_take` or `rmw_take_with_info`, where there is something to take. -/
  | take (s : ℕ) (message : List Cell)
  /-- `rmw_take_serialized_message`. -/
  | takeSerializedMessage (s : ℕ)

/-- eCAL loses a message. -/
def Action.loses : Action → Bool
  | .lose _ _ _ => true
  | _ => false

section Steps

variable (S : Setting)

/-- No message has been published. -/
def fresh : Topic :=
  ⟨fun _ => .empty, fun _ _ => [], fun s => .construct (S.qos s), fun _ => [], fun _ => []⟩

/-- `CPublisher::Send`. -/
def send (t : Topic) (p : ℕ) (bytes : List UInt8) (what : Published) : Topic :=
  { t with
    inFlight := Function.update t.inFlight p fun s => t.inFlight p s ++ [bytes]
    published := Function.update t.published p (t.published p ++ [what]) }

/-- What is on its way from a publisher to a subscription. -/
def setInFlight (t : Topic) (p s : ℕ) (messages : List (List UInt8)) : Topic :=
  { t with inFlight := Function.update t.inFlight p (Function.update (t.inFlight p) s messages) }

/-- A subscriber changes. -/
def setSubscriber (t : Topic) (s : ℕ) (subscriber : Subscriber) : Topic :=
  { t with subscribers := Function.update t.subscribers s subscriber }

/-- Something has been taken. -/
def note (t : Topic) (s : ℕ) (what : Taken) : Topic :=
  { t with taken := Function.update t.taken s (t.taken s ++ [what]) }

/-- One step.  What is undefined has no result. -/
def step (t : Topic) : Action → Option Topic
  | .createSerializer process l T => some { t with
      registries := Function.update t.registries process
        ((t.registries process).createSerializer l T).2 }
  | .createDeserializer process l T => some { t with
      registries := Function.update t.registries process
        ((t.registries process).createDeserializer l T).2 }
  | .publish p data =>
    match (S.publisher p).typeSupport.serialize (S.platform (S.publisher p).process)
      (t.registries (S.publisher p).process) data with
    | .ok bytes => some (t.send p bytes (.message data))
    | .error .undefined => none
    -- nothing is sent
    | .error _ => some t
  | .publishSerializedMessage p message =>
    some (t.send p (bytesOf message) (.serialized message))
  | .lose p s i => some (t.setInFlight p s ((t.inFlight p s).eraseIdx i))
  | .onReceiveData p s time microSeconds =>
    match t.inFlight p s with
    | [] => none
    | buf :: messages => do
      let subscriber ← (t.subscribers s).step (.onReceiveData buf time microSeconds)
      some ((t.setInFlight p s messages).setSubscriber s subscriber)
  | .callback s i => do
    let subscriber ← (t.subscribers s).step (.callback i)
    some (t.setSubscriber s subscriber)
  | .take s message => do
    let (subscriber, latestData) ← (t.subscribers s).popData
    match (S.subscription s).typeSupport.deserialize (S.platform (S.subscription s).process)
      (t.registries (S.subscription s).process) message latestData.data with
    | .ok message => some ((t.setSubscriber s subscriber).note s (.message message))
    | .error .undefined => none
    -- the message is off the queue
    | .error _ => some (t.setSubscriber s subscriber)
  | .takeSerializedMessage s => do
    let (subscriber, data) ← (t.subscribers s).takeLatestSerializedData
    some ((t.setSubscriber s subscriber).note s
      (.serialized ⟨data.data, data.data.length, data.data.length⟩))

/-- The topic at work. -/
def system : System Topic Action := ⟨fresh S, step S⟩

/-! ## What is asked for -/

/-- All types are plain in their languages, and the processes have memory. -/
structure Setting.Plain : Prop where
  /-- Those of the publishers. -/
  publisher : ∀ p, (S.publisher p).typeSupport.Plain (S.types (S.publisher p).process)
  /-- Those of the subscriptions. -/
  subscription : ∀ s, (S.subscription s).typeSupport.Plain (S.types (S.subscription s).process)
  /-- There is enough to take messages. -/
  ample : ∀ s, (S.platform (S.subscription s).process).Ample

/-- Every subscription can hold the value. -/
def Setting.Holds (v : Value) : Prop := ∀ s, (S.subscription s).typeSupport.Holds v

/-- `rmw_serialize` has made this of a value of a plain type, wherever it was called. -/
def Serialized (message : TakeCalls.RmwSerializedMessage) (v : Value) : Prop :=
  ∃ (M : Platform) (all : Language → List MessageMembers) (r : Registries)
    (typeSupport : RosidlMessageTypeSupport) (ts : MessageTypeSupport) (data : List Cell),
    typeSupport.resolve = .ok ts ∧ ts.Plain all ∧ r.Within all ∧ ts.content data = some v ∧
      (rmwSerialize M r data typeSupport).1 = .ok message

/-- What is asked of the steps: type supports are for types of the program, what is published can be
held by all subscriptions, eCAL calls one callback of a subscriber after the other, and messages are
taken into new ones. -/
def Regular (t : Topic) : Action → Prop
  | .createSerializer process l T | .createDeserializer process l T => T ∈ S.types process l
  | .publish p data => ∃ v, (S.publisher p).typeSupport.content data = some v ∧ S.Holds v
  | .publishSerializedMessage _ message => ∃ v, Serialized message v ∧ S.Holds v
  | .onReceiveData _ s _ _ =>
    ∀ callback ∈ (t.subscribers s).callbacks, callback.stage ≠ .enqueueData
  | .take s message => (S.subscription s).typeSupport.Fresh message
  | .lose _ _ _ | .callback _ _ | .takeSerializedMessage _ => True

/-- And eCAL loses nothing. -/
def Lossless (t : Topic) (a : Action) : Prop := Regular S t a ∧ a.loses = false

/-! ## Values -/

/-- What has been published is this value. -/
def Published.Is (p : ℕ) : Published → Value → Prop
  | .message data, v => (S.publisher p).typeSupport.content data = some v
  | .serialized m, v => Serialized m v

/-- What has been taken is. -/
def Taken.Is (s : ℕ) : Taken → Value → Prop
  | .message data, v => (S.subscription s).typeSupport.content data = some v
  | .serialized m, v => bytesOf m = v.wire

end Steps

/-! ## A channel for values -/

/-- The messages of activations that have not queued them yet. -/
def entering (callbacks : List Subscriber.Callback) : List (List UInt8) :=
  (callbacks.filter fun callback => callback.stage = .enqueueData).map
    fun callback => callback.latestData.data

/-- What has arrived at a subscriber and has not been taken. -/
def arrived (s : Subscriber) : List (List UInt8) :=
  s.data.map Subscriber.Data.data ++ entering s.callbacks

@[simp] theorem entering_append (l l' : List Subscriber.Callback) :
    entering (l ++ l') = entering l ++ entering l' := by
  rw [entering, List.filter_append, List.map_append, entering, entering]

@[simp] theorem entering_enqueue (d : Subscriber.Data) (l : List Subscriber.Callback) :
    entering (⟨.enqueueData, d⟩ :: l) = d.data :: entering l := by
  simp [entering]

@[simp] theorem entering_notify (d : Subscriber.Data) (l : List Subscriber.Callback) :
    entering (⟨.notifyWaitSet, d⟩ :: l) = entering l := by
  simp [entering]

@[simp] theorem entering_nil : entering [] = [] := rfl

/-- A topic is a channel for these values. -/
structure Carries (S : Setting) (t : Topic) (c : Channel ℕ ℕ Value) : Prop where
  /-- The same has been published. -/
  published : ∀ p, List.Forall₂ (Published.Is S p) (t.published p) (c.published p)
  /-- The same is on its way, in the plain encoding. -/
  inFlight : ∀ p s, t.inFlight p s = (c.pending p s).map Value.wire
  /-- The same is there to be taken. -/
  arrived : ∀ s, arrived (t.subscribers s) = (c.queued s).map fun x => x.2.wire
  /-- The same has been taken. -/
  taken : ∀ s, List.Forall₂ (Taken.Is S s) (t.taken s) ((c.taken s).map Prod.snd)
  /-- All subscriptions can hold it. -/
  holds : ∀ p, ∀ v ∈ c.published p, S.Holds v
  /-- The registries have come across types of the program only. -/
  within : ∀ process, (t.registries process).Within (S.types process)
  /-- At most one activation of a subscriber has something to queue. -/
  single : ∀ s, (entering (t.subscribers s).callbacks).length ≤ 1

section Carries

variable {S : Setting} {t t' : Topic} {c : Channel ℕ ℕ Value} {p s : ℕ} {v : Value}

theorem Serialized.bytesOf_eq {message : TakeCalls.RmwSerializedMessage}
    (h : Serialized message v) : bytesOf message = v.wire := by
  obtain ⟨M, all, r, typeSupport, ts, data, hts, hplain, hr, hv, hser⟩ := h
  rw [rmwSerialize_plain hts hplain hr hv] at hser
  cases hser
  exact List.take_length

theorem carries_fresh : Carries S (fresh S) .fresh where
  published _ := .nil
  inFlight _ _ := rfl
  arrived _ := rfl
  taken _ := .nil
  holds _ _ hmem := by cases hmem
  within process := Registries.within_empty _
  single _ := Nat.zero_le _

/-- A value is sent. -/
theorem Carries.send (h : Carries S t c) (what : Published) (hwhat : what.Is S p v)
    (hholds : S.Holds v) : ∃ c', c.step (.publish p v) = some c' ∧
      Carries S (t.send p v.wire what) c' := by
  refine ⟨_, rfl, ⟨fun q => ?_, fun q s => ?_, h.arrived, h.taken, fun q => ?_, h.within,
    h.single⟩⟩
  · by_cases hq : q = p
    · subst hq
      simpa [Topic.send] using List.rel_append (h.published q) (.cons hwhat .nil)
    · simpa [Topic.send, hq] using h.published q
  · by_cases hq : q = p
    · subst hq
      simp [Topic.send, h.inFlight]
    · simpa [Topic.send, hq] using h.inFlight q s
  · by_cases hq : q = p
    · subst hq
      intro w hmem
      obtain hmem | rfl : w ∈ c.published q ∨ w = v := by simpa using hmem
      · exact h.holds q w hmem
      · exact hholds
    · simpa [hq] using h.holds q

theorem setInFlight_inFlight (t : Topic) (p q s s' : ℕ) (messages : List (List UInt8)) :
    (t.setInFlight p s messages).inFlight q s' =
      if q = p ∧ s' = s then messages else t.inFlight q s' := by
  by_cases hq : q = p
  · subst hq
    by_cases hs : s' = s
    · subst hs
      simp [setInFlight]
    · simp [setInFlight, hs]
  · simp [setInFlight, hq]

/-- A message is lost. -/
theorem Carries.lose (h : Carries S t c) (p s i : ℕ) : ∃ c', c.step (.lose p s i) = some c' ∧
    Carries S (t.setInFlight p s ((t.inFlight p s).eraseIdx i)) c' := by
  refine ⟨_, rfl, ⟨h.published, fun q s' => ?_, h.arrived, h.taken, h.holds, h.within,
    h.single⟩⟩
  rw [setInFlight_inFlight, Channel.setPending_pending, apply_ite (List.map Value.wire),
    h.inFlight, h.inFlight, List.eraseIdx_map]

/-- A message arrives. -/
theorem Carries.deliver (h : Carries S t c) {buf : List UInt8} {messages : List (List UInt8)}
    (hbuf : t.inFlight p s = buf :: messages) (hnone : entering (t.subscribers s).callbacks = [])
    (time microSeconds : ℤ) : ∃ subscriber c',
      (t.subscribers s).step (.onReceiveData buf time microSeconds) = some subscriber ∧
      c.step (.deliver p s) = some c' ∧
      Carries S ((t.setInFlight p s messages).setSubscriber s subscriber) c' := by
  obtain ⟨v, pending, hpending, rfl, rfl⟩ : ∃ v pending, c.pending p s = v :: pending ∧
      v.wire = buf ∧ pending.map Value.wire = messages := by
    rw [h.inFlight] at hbuf
    obtain ⟨v, pending, hpending, hv, hmessages⟩ := List.map_eq_cons_iff.mp hbuf
    exact ⟨v, pending, hpending, hv, hmessages⟩
  refine ⟨_, { c.setPending p s pending with
    queued := Function.update c.queued s (c.queued s ++ [(p, v)]) }, rfl, ?_, ?_⟩
  · rw [Channel.step, hpending]
  have hentering : entering ((t.subscribers s).callbacks ++
      [⟨.enqueueData, v.wire, time, microSeconds⟩]) = [v.wire] := by
    rw [entering_append, hnone, entering_enqueue, entering_nil, List.nil_append]
  refine ⟨h.published, fun q s' => ?_, fun s' => ?_, h.taken, h.holds, h.within, fun s' => ?_⟩
  · show (t.setInFlight p s _).inFlight q s' = ((c.setPending p s pending).pending q s').map _
    rw [setInFlight_inFlight, Channel.setPending_pending, apply_ite (List.map Value.wire),
      h.inFlight q s']
  · by_cases hs : s' = s
    · subst hs
      have hold := h.arrived s'
      rw [Topic.arrived, hnone, List.append_nil] at hold
      simp only [setSubscriber, Function.update_self, Topic.arrived, hentering, hold,
        List.map_append, List.map_cons, List.map_nil]
    · simpa [setSubscriber, setInFlight, hs] using h.arrived s'
  · by_cases hs : s' = s
    · subst hs
      simp only [setSubscriber, Function.update_self, hentering, List.length_singleton, le_refl]
    · simpa [setSubscriber, setInFlight, hs] using h.single s'

/-- What has arrived is only moved by a callback. -/
theorem arrived_callback {subscriber subscriber' : Subscriber} {i : ℕ}
    (hsingle : (entering subscriber.callbacks).length ≤ 1)
    (hstep : subscriber.step (.callback i) = some subscriber') :
    Topic.arrived subscriber' = Topic.arrived subscriber ∧
      (entering subscriber'.callbacks).length ≤ 1 := by
  obtain ⟨callback, hcallback, hstep⟩ := Option.bind_eq_some_iff.mp hstep
  obtain ⟨l₁, l₂, hlist, -, hset, herase, -⟩ := exists_split hcallback
  obtain ⟨stage, latestData⟩ := callback
  cases stage with
  | enqueueData =>
    cases hstep
    -- it is the only one
    rw [hlist, entering_append, entering_enqueue, List.length_append, List.length_cons] at hsingle
    have h₁ : entering l₁ = [] := List.length_eq_zero_iff.mp (by omega)
    have h₂ : entering l₂ = [] := List.length_eq_zero_iff.mp (by omega)
    have hbefore : entering subscriber.callbacks = [latestData.data] := by
      rw [hlist, entering_append, entering_enqueue, h₁, h₂, List.nil_append]
    have hafter : entering (subscriber.callbacks.set i ⟨.notifyWaitSet, latestData⟩) = [] := by
      rw [hset, entering_append, entering_notify, h₁, h₂, List.nil_append]
    simp only [Topic.arrived, hbefore, hafter, List.map_append, List.map_cons, List.map_nil,
      List.append_nil, List.length_nil]
    exact ⟨trivial, Nat.zero_le _⟩
  | notifyWaitSet =>
    cases hstep
    have hsame : entering (subscriber.callbacks.eraseIdx i) = entering subscriber.callbacks := by
      rw [herase, hlist, entering_append, entering_append, entering_notify]
    simp only [Topic.arrived, hsame]
    exact ⟨trivial, hsingle⟩

/-- A callback takes a step. -/
theorem Carries.callback (h : Carries S t c) {subscriber : Subscriber} {i : ℕ}
    (hstep : (t.subscribers s).step (.callback i) = some subscriber) :
    Carries S (t.setSubscriber s subscriber) c := by
  obtain ⟨harrived, hsingle⟩ := arrived_callback (h.single s) hstep
  refine ⟨h.published, h.inFlight, fun s' => ?_, h.taken, h.holds, h.within, fun s' => ?_⟩
  · by_cases hs : s' = s
    · subst hs
      simpa [setSubscriber, harrived] using h.arrived s'
    · simpa [setSubscriber, hs] using h.arrived s'
  · by_cases hs : s' = s
    · subst hs
      simpa [setSubscriber] using hsingle
    · simpa [setSubscriber, hs] using h.single s'

/-- Something is popped, and noted as what it is. -/
theorem Carries.pop (h : Carries S t c) {subscriber : Subscriber} {d : Subscriber.Data}
    (hpop : (t.subscribers s).popData = some (subscriber, d)) :
    ∃ p v c', (p, v) ∈ c.queued s ∧ d.data = v.wire ∧ c.step (.take s) = some c' ∧
      ∀ what : Taken, what.Is S s v →
        Carries S ((t.setSubscriber s subscriber).note s what) c' := by
  obtain ⟨data, hdata, rfl⟩ : ∃ data, (t.subscribers s).data = d :: data ∧
      subscriber = { t.subscribers s with data := data } := by
    rw [Subscriber.popData] at hpop
    split at hpop
    · cases hpop
    · rename_i hdata
      cases hpop
      exact ⟨_, hdata, rfl⟩
  have harrived := h.arrived s
  rw [Topic.arrived, hdata, List.map_cons, List.cons_append] at harrived
  obtain ⟨⟨p, v⟩, queued, hqueued, hv, hrest⟩ := List.map_eq_cons_iff.mp harrived.symm
  refine ⟨p, v, { c with
    queued := Function.update c.queued s queued
    taken := Function.update c.taken s (c.taken s ++ [(p, v)]) }, ?_, hv.symm, ?_,
    fun what hwhat => ⟨h.published, h.inFlight, fun s' => ?_, fun s' => ?_, h.holds, h.within,
      fun s' => ?_⟩⟩
  · rw [hqueued]
    exact .head _
  · rw [Channel.step, hqueued]
  · by_cases hs : s' = s
    · subst hs
      simpa [setSubscriber, note, Topic.arrived] using hrest.symm
    · simpa [setSubscriber, note, hs] using h.arrived s'
  · by_cases hs : s' = s
    · subst hs
      simpa [setSubscriber, note] using List.rel_append (h.taken s') (.cons hwhat .nil)
    · simpa [setSubscriber, note, hs] using h.taken s'
  · by_cases hs : s' = s
    · subst hs
      simpa [setSubscriber, note] using h.single s'
    · simpa [setSubscriber, note, hs] using h.single s'

/-- Other types are analysed. -/
theorem Carries.setRegistries (h : Carries S t c) {process : ℕ} {r : Registries}
    (hr : r.Within (S.types process)) :
    Carries S { t with registries := Function.update t.registries process r } c := by
  refine ⟨h.published, h.inFlight, h.arrived, h.taken, h.holds, fun process' => ?_, h.single⟩
  by_cases hprocess : process' = process
  · subst hprocess
    simpa using hr
  · simpa [hprocess] using h.within process'

theorem entering_eq_nil {callbacks : List Subscriber.Callback}
    (h : ∀ callback ∈ callbacks, callback.stage ≠ .enqueueData) : entering callbacks = [] := by
  rw [entering, List.filter_eq_nil_iff.mpr fun callback hmem => by simpa using h callback hmem,
    List.map_nil]

/-- **A step of the topic is a step of the channel**, or nothing that it knows of. -/
theorem carries_step {ok : Channel ℕ ℕ Value → Channel.Action ℕ ℕ Value → Prop} (hS : S.Plain)
    (hreach : Channel.system.Reachable ok c) (h : Carries S t c) {a : Action}
    (hok : Regular S t a) (hstep : step S t a = some t') :
    Carries S t' c ∨ ∃ b c', b.loses = a.loses ∧ c.step b = some c' ∧ Carries S t' c' := by
  cases a with
  | createSerializer process l T =>
    cases hstep
    exact .inl (h.setRegistries ((h.within process).createSerializer hok))
  | createDeserializer process l T =>
    cases hstep
    exact .inl (h.setRegistries ((h.within process).createDeserializer hok))
  | publish p data =>
    obtain ⟨v, hv, hholds⟩ := hok
    rw [step, (hS.publisher p).serialize_eq (h.within _) hv] at hstep
    cases hstep
    obtain ⟨c', hc, hcarries⟩ := h.send (.message data) hv hholds
    exact .inr ⟨_, c', rfl, hc, hcarries⟩
  | publishSerializedMessage p message =>
    obtain ⟨v, hv, hholds⟩ := hok
    rw [step, hv.bytesOf_eq] at hstep
    cases hstep
    obtain ⟨c', hc, hcarries⟩ := h.send (.serialized message) hv hholds
    exact .inr ⟨_, c', rfl, hc, hcarries⟩
  | lose p s i =>
    cases hstep
    obtain ⟨c', hc, hcarries⟩ := h.lose p s i
    exact .inr ⟨_, c', rfl, hc, hcarries⟩
  | onReceiveData p s time microSeconds =>
    rw [step] at hstep
    split at hstep
    · cases hstep
    · rename_i buf messages hbuf
      obtain ⟨subscriber, c', hsub, hc, hcarries⟩ :=
        h.deliver hbuf (entering_eq_nil hok) time microSeconds
      rw [hsub] at hstep
      cases hstep
      exact .inr ⟨_, c', rfl, hc, hcarries⟩
  | callback s i =>
    obtain ⟨subscriber, hsub, hstep⟩ := Option.bind_eq_some_iff.mp hstep
    cases hstep
    exact .inl (h.callback hsub)
  | take s message =>
    obtain ⟨⟨subscriber, latestData⟩, hpop, hstep⟩ := Option.bind_eq_some_iff.mp hstep
    obtain ⟨p, v, c', hmem, hdata, hc, hnote⟩ := h.pop hpop
    have hholds : S.Holds v := h.holds p v (Channel.mem_published_of_queued hreach hmem)
    obtain ⟨filled, hrun, hcontent⟩ :=
      (hS.subscription s).deserialize_wire (hS.ample s) (h.within _) (hholds s) hok
    simp only [hdata, hrun] at hstep
    cases hstep
    exact .inr ⟨_, c', rfl, hc, hnote _ hcontent⟩
  | takeSerializedMessage s =>
    obtain ⟨⟨subscriber, data⟩, hpop, hstep⟩ := Option.bind_eq_some_iff.mp hstep
    cases hstep
    obtain ⟨p, v, c', hmem, hdata, hc, hnote⟩ := h.pop hpop
    exact .inr ⟨_, c', rfl, hc, hnote _ (List.take_length.trans hdata)⟩

/-- **A topic is a channel for values**, which loses something only if eCAL does. -/
theorem carries (hS : S.Plain) {ok : Topic → Action → Prop}
    {ok' : Channel.Action ℕ ℕ Value → Prop} (hok : ∀ t a, ok t a → Regular S t a)
    (hok' : ∀ t a b, ok t a → b.loses = a.loses → ok' b) (h : (system S).Reachable ok t) :
    ∃ c, Channel.system.Reachable (fun _ b => ok' b) c ∧ Carries S t c := by
  refine h.simulate carries_fresh fun t c a t' hreach hcarries ha hstep => ?_
  obtain hcarries | ⟨b, c', hb, hc, hcarries⟩ := carries_step hS hreach hcarries (hok t a ha) hstep
  · exact .inl hcarries
  · exact .inr ⟨b, c', hok' t a b ha hb, hc, hcarries⟩

end Carries

/-! ## What is taken -/

section Values

variable {S : Setting} {t : Topic}

/-- **Values arrive as they were sent**: what a subscription has taken are values that have been
published, those of every publisher in the order of their publication and none twice, whatever the
languages, the interleaving of the calls and the callbacks, and the type supports that have been
created in the meantime. -/
theorem values_in_order (hS : S.Plain) (h : (system S).Reachable (Regular S) t) :
    ∃ (values : ℕ → List Value) (sources : ℕ → List (ℕ × Value)),
      (∀ p, List.Forall₂ (Published.Is S p) (t.published p) (values p)) ∧
      (∀ s, List.Forall₂ (Taken.Is S s) (t.taken s) ((sources s).map Prod.snd)) ∧
      ∀ p s, (Channel.ofSender p (sources s)).Sublist (values p) := by
  obtain ⟨c, hreach, hcarries⟩ :=
    @carries _ _ hS _ (fun _ => True) (fun _ _ ha => ha) (fun _ _ _ _ _ => trivial) h
  refine ⟨c.published, c.taken, hcarries.published, hcarries.taken, fun p s => ?_⟩
  have hflow := Channel.flow_sublist hreach p s
  rw [Channel.flow, List.append_assoc] at hflow
  exact (List.sublist_append_left _ _).trans hflow

/-- One publisher of places, in C++, and one subscription to them, in C. -/
def places : Setting where
  publisher _ := ⟨0, cppPlaceSupport⟩
  subscription _ := ⟨1, cPlaceSupport⟩
  qos _ := Subscriber.lastOnlyQos
  platform _ := .generous
  types _ := placeTypes

theorem plain_places : places.Plain :=
  ⟨fun _ => plain_cppPlaceSupport, fun _ => plain_cPlaceSupport, fun _ => Platform.generous_ample⟩

/-- A place is published and taken. -/
theorem reachable_places : ∃ (t : Topic) (message : List Cell),
    (system places).Reachable (Lossless places) t ∧
    t.published 0 = [.message placeA] ∧ t.taken 0 = [.message message] ∧
    t.inFlight 0 0 = [] ∧ arrived (t.subscribers 0) = [] := by
  have hholds : places.Holds placeValue := fun _ => ⟨placeC, content_placeC⟩
  have hfresh : (Registries.empty).Within placeTypes := Registries.within_empty placeTypes
  obtain ⟨message, hrun, -⟩ := plain_cPlaceSupport.deserialize_wire Platform.generous_ample hfresh
    ⟨placeC, content_placeC⟩ fresh_zeros
  have hsent : step places (fresh places) (.publish 0 placeA) =
      some ((fresh places).send 0 placeValue.wire (.message placeA)) := by
    rw [step]
    simp only [places, fresh, plain_cppPlaceSupport.serialize_eq hfresh content_placeA]
  have htaken : ∀ t : Topic, t.registries 1 = .empty → ∀ subscriber info,
      (t.subscribers 0).popData = some (subscriber, ⟨placeValue.wire, info⟩) →
      step places t (.take 0 (zeros 32)) =
        some ((t.setSubscriber 0 subscriber).note 0 (.message message)) := by
    intro t hregistries subscriber info hpop
    simp only [step, hpop, places, hregistries, Option.bind_eq_bind, Option.bind_some, hrun]
  have h₀ : (system places).Reachable (Lossless places) (fresh places) := .init
  have h₁ := h₀.step (show Lossless places _ (.publish 0 placeA) from
    ⟨⟨placeValue, content_placeA, hholds⟩, rfl⟩) hsent
  have h₂ := h₁.step (show Lossless places _ (.onReceiveData 0 0 0 0) from
    ⟨fun _ hmem => absurd hmem List.not_mem_nil, rfl⟩) rfl
  have h₃ := h₂.step (show Lossless places _ (.callback 0 0) from ⟨trivial, rfl⟩) rfl
  have h₄ := h₃.step (show Lossless places _ (.callback 0 0) from ⟨trivial, rfl⟩) rfl
  have h₅ := h₄.step (show Lossless places _ (.take 0 (zeros 32)) from ⟨fresh_zeros, rfl⟩)
    (htaken _ rfl _ _ rfl)
  exact ⟨_, message, h₅, rfl, rfl, rfl, rfl⟩

theorem values_in_order_places : ∃ (t : Topic) (message : List Cell),
    t.published 0 = [.message placeA] ∧ t.taken 0 = [.message message] ∧
    ∃ (values : ℕ → List Value) (sources : ℕ → List (ℕ × Value)),
      (∀ p, List.Forall₂ (Published.Is places p) (t.published p) (values p)) ∧
      (∀ s, List.Forall₂ (Taken.Is places s) (t.taken s) ((sources s).map Prod.snd)) ∧
      ∀ p s, (Channel.ofSender p (sources s)).Sublist (values p) := by
  obtain ⟨t, message, hreach, hpublished, htaken, -⟩ := reachable_places
  exact ⟨t, message, hpublished, htaken,
    values_in_order plain_places (hreach.mono fun _ _ ha => ha.1)⟩

/-- **If eCAL loses nothing, nothing is left out**: a subscription has taken the first values of
every publisher, and all of them once nothing is on its way or waiting. -/
theorem values_complete (hS : S.Plain) (h : (system S).Reachable (Lossless S) t) :
    ∃ (values : ℕ → List Value) (sources : ℕ → List (ℕ × Value)),
      (∀ p, List.Forall₂ (Published.Is S p) (t.published p) (values p)) ∧
      (∀ s, List.Forall₂ (Taken.Is S s) (t.taken s) ((sources s).map Prod.snd)) ∧
      ∀ p s, Channel.ofSender p (sources s) <+: values p ∧
        (t.inFlight p s = [] → arrived (t.subscribers s) = [] →
          Channel.ofSender p (sources s) = values p) := by
  obtain ⟨c, hreach, hcarries⟩ := @carries _ _ hS _ (fun b => b.loses = false)
    (fun _ _ ha => ha.1) (fun _ _ _ ha hb => hb.trans ha.2) h
  refine ⟨c.published, c.taken, hcarries.published, hcarries.taken, fun p s => ?_⟩
  have hflow := Channel.flow_eq (fun _ _ hb => hb) hreach p s
  rw [Channel.flow, List.append_assoc] at hflow
  refine ⟨⟨_, hflow⟩, fun hinFlight harrived => ?_⟩
  have hpending : c.pending p s = [] :=
    List.map_eq_nil_iff.mp ((hcarries.inFlight p s).symm.trans hinFlight)
  have hqueued : c.queued s = [] :=
    List.map_eq_nil_iff.mp ((hcarries.arrived s).symm.trans harrived)
  rwa [hpending, hqueued, Channel.ofSender_nil, List.append_nil, List.append_nil] at hflow

theorem values_complete_places : ∃ (t : Topic) (message : List Cell),
    t.published 0 = [.message placeA] ∧ t.taken 0 = [.message message] ∧
    ∃ (values : ℕ → List Value) (sources : ℕ → List (ℕ × Value)),
      List.Forall₂ (Published.Is places 0) (t.published 0) (values 0) ∧
      List.Forall₂ (Taken.Is places 0) (t.taken 0) ((sources 0).map Prod.snd) ∧
      Channel.ofSender 0 (sources 0) = values 0 := by
  obtain ⟨t, message, hreach, hpublished, htaken, hinFlight, harrived⟩ := reachable_places
  obtain ⟨values, sources, hvalues, hsources, hflow⟩ := values_complete plain_places hreach
  exact ⟨t, message, hpublished, htaken, values, sources, hvalues 0, hsources 0,
    (hflow 0 0).2 hinFlight harrived⟩

end Values

end Topic

end RmwEcal
