import RmwEcal.Shared.Qos
import RmwEcal.Transition.Mailbox

/-!
# Subscribers

A subscriber puts what eCAL delivers on a queue, from which it is taken.  The callback for a message
copies it, queues it under a lock and notifies the wait set; `PopData` and `HasData` each hold the
same lock.

The depth of the history goes to eCAL with the rest of the QoS, and the profile is kept to be
reported.  Neither is looked at again: nothing but a take ever removes a message from the queue, so
the queue holds all messages that have not been taken, however many those are
(`holds_all_untaken`).
-/

set_option autoImplicit false

namespace RmwEcal

open Transition Qos

namespace Subscriber

/-- `Subscriber::MessageInfo`. -/
structure MessageInfo where
  sendTimestamp : ℤ
  receiveTimestamp : ℤ
  deriving DecidableEq, Repr

/-- `Subscriber::Data`. -/
structure Data where
  /-- `data`, `size` bytes of it. -/
  data : List UInt8
  info : MessageInfo
  deriving DecidableEq, Repr

/-- The next thing an activation of `OnReceiveData` does. -/
inductive Stage where
  | enqueueData | notifyWaitSet
  deriving DecidableEq, Repr

/-- An activation of `OnReceiveData`, with its copy of the message. -/
structure Callback where
  /-- The next thing it does. -/
  stage : Stage
  /-- `latest_data`, with the timestamps. -/
  latestData : Data
  deriving DecidableEq, Repr

end Subscriber

/-- A `Subscriber`, and where the threads inside it are. -/
structure Subscriber where
  rosQosProfile : Profile
  /-- What was passed to `SetQOS`. -/
  readerQos : ECalQOS
  /-- Threads in `OnReceiveData`. -/
  callbacks : List Subscriber.Callback
  data : List Subscriber.Data
  deriving DecidableEq, Repr

namespace Subscriber

/-- The constructor. -/
def construct (qos : EndpointQOS) : Subscriber := ⟨qos.rmwQos, qos.ecalQos, [], []⟩

/-- `GetRosQOSProfile`, and so `rmw_subscription_get_actual_qos`. -/
def getRosQOSProfile (s : Subscriber) : Profile := s.rosQosProfile

/-- What eCAL and its threads do. -/
inductive Action where
  /-- eCAL calls `OnReceiveData`, which notes the time and copies the message. -/
  | onReceiveData (buf : List UInt8) (time microSeconds : ℤ)
  /-- A callback takes its next step. -/
  | callback (i : ℕ)
  deriving DecidableEq, Repr

/-- One step. -/
def step (s : Subscriber) : Action → Option Subscriber
  | .onReceiveData buf time microSeconds =>
    some { s with callbacks := s.callbacks ++ [⟨.enqueueData, buf, time, microSeconds⟩] }
  | .callback i => do
    let callback ← s.callbacks[i]?
    match callback.stage with
    | .enqueueData => some { s with
        callbacks := s.callbacks.set i { callback with stage := .notifyWaitSet }
        data := s.data ++ [callback.latestData] }
    -- whether there is a wait set to notify makes no difference to the subscriber
    | .notifyWaitSet => some { s with callbacks := s.callbacks.eraseIdx i }

/-- `HasData`. -/
def hasData (s : Subscriber) : Bool := !s.data.isEmpty

/-- `PopData`, on which all takes rest.  To pop from an empty queue is undefined. -/
def popData (s : Subscriber) : Option (Subscriber × Data) :=
  match s.data with
  | [] => none
  | latestData :: data => some ({ s with data := data }, latestData)

/-- A message that arrives comes to the end of the queue, and nothing else changes the queue. -/
theorem step_data {s s' : Subscriber} {a : Action} (h : s.step a = some s') :
    s.data <+: s'.data ∧ s'.rosQosProfile = s.rosQosProfile := by
  rcases a with ⟨buf, time, microSeconds⟩ | i
  · cases h
    exact ⟨List.prefix_rfl, rfl⟩
  · obtain ⟨⟨stage, latestData⟩, -, h⟩ := Option.bind_eq_some_iff.mp h
    rcases stage with _ | _
    · cases h
      exact ⟨List.prefix_append _ _, rfl⟩
    · cases h
      exact ⟨List.prefix_rfl, rfl⟩

theorem popData_cases {s s' : Subscriber} {d : Data} (h : s.popData = some (s', d)) :
    s.data = d :: s'.data ∧ s'.rosQosProfile = s.rosQosProfile := by
  rcases hdata : s.data with _ | ⟨latestData, data⟩
  · rw [popData, hdata] at h
    cases h
  · rw [popData, hdata] at h
    cases h
    exact ⟨rfl, rfl⟩

/-- The queue of a subscriber. -/
def mailbox (qos : EndpointQOS) : Mailbox Subscriber Action Data where
  init := construct qos
  step := step
  queue := Subscriber.data
  has := hasData
  pop := popData
  queue_init := rfl
  queue_step h := (step_data h).1
  has_eq _ := rfl
  queue_pop h := (popData_cases h).1
  isSome_pop {s} h := by
    obtain ⟨latestData, data, hdata⟩ := List.exists_cons_of_ne_nil h
    rw [popData, hdata]
    rfl

/-! ## The history -/

/-- The profile stays what it was. -/
theorem ledger_rosQosProfile {qos : EndpointQOS} {s : Mailbox.Ledger Subscriber Data}
    (h : (mailbox qos).ledger.Reachable System.any s) :
    s.inner.getRosQOSProfile = qos.rmwQos := by
  refine h.invariant (P := fun s => s.inner.getRosQOSProfile = qos.rmwQos) rfl ?_
  rintro s (b | _) s' hprofile - hstep
  · obtain ⟨inner, hinner, hs'⟩ := Option.bind_eq_some_iff.mp hstep
    cases hs'
    exact (step_data hinner).2.trans hprofile
  · obtain ⟨inner, m, hpop, -, rfl⟩ := Mailbox.take_cases hstep
    exact (popData_cases hpop).2.trans hprofile

/-- **The queue holds all messages that have not been taken**, whatever depth the subscriber
reports: they come to more than the depth as soon as more than that have arrived and not been taken,
and the last ones to arrive are always among them. -/
theorem holds_all_untaken (defaults : Defaults) {profile : Profile} {qos : EndpointQOS}
    (hqos : createSubscriberQOS defaults profile = .ok qos)
    {s : Mailbox.Ledger Subscriber Data} (h : (mailbox qos).ledger.Reachable System.any s) :
    s.inner.getRosQOSProfile.depth = profile.depth ∧
      s.arrived = s.handed ++ s.inner.data ∧
      (s.inner.data.length ≤ profile.depth ↔
        s.arrived.length ≤ s.handed.length + profile.depth) ∧
      ∀ n, s.handed.length + n ≤ s.arrived.length →
        s.arrived.drop (s.arrived.length - n) <:+ s.inner.data := by
  have hbalanced : s.arrived = s.handed ++ s.inner.data := Mailbox.ledger_balanced h
  have hlen : s.arrived.length = s.handed.length + s.inner.data.length := by
    rw [hbalanced, List.length_append]
  refine ⟨?_, hbalanced, by omega, fun n hn => ?_⟩
  · rw [ledger_rosQosProfile h, (createQOS_eq_ok_iff.mp hqos).2.1]
    rfl
  · rw [hbalanced, List.drop_append]
    have hnone : s.handed.drop ((s.handed ++ s.inner.data).length - n) = [] := by
      rw [List.drop_eq_nil_iff, ← hbalanced]
      omega
    rw [hnone, List.nil_append]
    exact List.drop_suffix _ _

/-- A subscription that is to keep the last message. -/
def lastOnly : Profile := { defaultProfile with depth := 1 }

/-- What has become of its profile. -/
def lastOnlyQos : EndpointQOS :=
  ⟨reportedProfile lastOnly ⟨.keepLastHistoryQos, 1, .reliableReliabilityQos⟩,
    ⟨.keepLastHistoryQos, 1, .reliableReliabilityQos⟩, "rt"⟩

/-- The subscription after two messages have arrived. -/
def twoArrivals : Mailbox.Ledger Subscriber Data :=
  have data : List Data := [⟨[1], 0, 0⟩, ⟨[2], 1, 1⟩]
  ⟨⟨lastOnlyQos.rmwQos, lastOnlyQos.ecalQos, [], data⟩, data, []⟩

theorem reachable_twoArrivals :
    (mailbox lastOnlyQos).ledger.Reachable System.any twoArrivals :=
  System.reachable_of_exec
    [.work (.onReceiveData [1] 0 0), .work (.callback 0), .work (.callback 0),
      .work (.onReceiveData [2] 1 1), .work (.callback 0), .work (.callback 0)] rfl

theorem holds_all_untaken_two :
    twoArrivals.inner.getRosQOSProfile.depth = lastOnly.depth ∧
      twoArrivals.arrived = twoArrivals.handed ++ twoArrivals.inner.data ∧
      (twoArrivals.inner.data.length ≤ lastOnly.depth ↔
        twoArrivals.arrived.length ≤ twoArrivals.handed.length + lastOnly.depth) ∧
      ∀ n, twoArrivals.handed.length + n ≤ twoArrivals.arrived.length →
        twoArrivals.arrived.drop (twoArrivals.arrived.length - n) <:+ twoArrivals.inner.data :=
  holds_all_untaken someDefaults rfl reachable_twoArrivals

/-- The depth that is reported does not bound the queue. -/
theorem exceeds_depth :
    createSubscriberQOS someDefaults lastOnly = .ok lastOnlyQos ∧
      (mailbox lastOnlyQos).ledger.Reachable System.any twoArrivals ∧
      twoArrivals.inner.getRosQOSProfile.history = .keepLast ∧
      twoArrivals.inner.getRosQOSProfile.depth = 1 ∧ twoArrivals.inner.data.length = 2 :=
  ⟨rfl, reachable_twoArrivals, rfl, rfl, rfl⟩

end Subscriber

end RmwEcal
