import Mathlib.Data.List.Forall2
import RmwEcal.Shared.Qos

/-!
# What the graph says about endpoints

The profile of an endpoint can be asked for in two ways.  The endpoint itself reports the one it
was created with.  The graph has only what eCAL's monitoring says, and takes it through two more
vocabularies: `getTopicEndpointInfo` from the monitoring message into `TopicEndpointQOS`, and
`toRosQosProfile` from there into the words of rmw.

The two answers never agree (`info_agrees_iff`): what is best effort becomes reliable and the other
way round, every history becomes keep all, and the durability is one constant here and another
there.  Only the depth comes through (`rmwGetInfoByTopic_mismatch`).
-/

set_option autoImplicit false

namespace RmwEcal

open Qos

namespace Graph

/-! ## The monitoring snapshot -/

/-- `QOS_eQOSPolicy_Reliability` of the monitoring message. -/
inductive PbReliability where
  | bestEffortReliabilityQos | reliableReliabilityQos
  deriving DecidableEq, Repr

/-- `QOS_eQOSPolicy_HistoryKind` of the monitoring message. -/
inductive PbHistoryKind where
  | keepLastHistoryQos | keepAllHistoryQos
  deriving DecidableEq, Repr

/-- `QOS` of the monitoring message. -/
structure PbQOS where
  reliability : PbReliability
  history : PbHistoryKind
  historyDepth : ℤ

/-- The fields of a `Topic` of the monitoring message that the graph looks at. -/
structure PbTopic where
  tname : String
  direction : String
  ttype : String
  tqos : PbQOS
  attr : List (String × String)

/-! ## `GetTopicEndpointInfo` -/

/-- `TopicEndpointType`. -/
inductive TopicEndpointType where
  | publisher | subscriber
  deriving DecidableEq, Repr

/-- `TopicEndpointQOSReliability`. -/
inductive TopicEndpointQOSReliability where
  | bestEffort | reliable
  deriving DecidableEq, Repr

/-- `TopicEndpointQOSHistoryKind`. -/
inductive TopicEndpointQOSHistoryKind where
  | keepLast | keepAll
  deriving DecidableEq, Repr

/-- `TopicEndpointQOS`. -/
structure TopicEndpointQOS where
  reliability : TopicEndpointQOSReliability
  historyKind : TopicEndpointQOSHistoryKind
  historyDepth : ℤ

/-- `TopicEndpointInfo`. -/
structure TopicEndpointInfo where
  nodeName : String
  nodeNamespace : String
  type : String
  endpointType : TopicEndpointType
  qosProfile : TopicEndpointQOS

/-- The endpoint type that `GetTopicEndpointInfo` takes a topic for. -/
def PbTopic.endpointType (topic : PbTopic) : TopicEndpointType :=
  if topic.direction = "publisher" then .publisher else .subscriber

/-- `get_attr`. -/
def PbTopic.getAttr (topic : PbTopic) (name : String) : String :=
  ((topic.attr.find? fun entry => entry.1 = name).map Prod.snd).getD ""

/-- The `qos_profile` that the loop of `GetTopicEndpointInfo` fills in. -/
def PbQOS.endpointQOS (tqos : PbQOS) : TopicEndpointQOS where
  reliability := if tqos.reliability = .bestEffortReliabilityQos then .reliable else .bestEffort
  -- both branches are the same in the source
  historyKind := if tqos.history = .keepAllHistoryQos then .keepAll else .keepAll
  historyDepth := tqos.historyDepth

/-- The test that the loop makes on a topic. -/
def PbTopic.isOn (topic : PbTopic) (topicName : String) (endpointType : TopicEndpointType) : Bool :=
  topic.tname = topicName && endpointType = topic.endpointType

/-- The element that the loop adds for a topic. -/
def PbTopic.info (topic : PbTopic) (endpointType : TopicEndpointType) : TopicEndpointInfo :=
  ⟨topic.getAttr "node_name", topic.getAttr "node_namespace", topic.ttype, endpointType,
    topic.tqos.endpointQOS⟩

/-- `GetTopicEndpointInfo`, for the topics in the monitoring snapshot. -/
def getTopicEndpointInfo (topics : List PbTopic) (topicName : String)
    (endpointType : TopicEndpointType) : List TopicEndpointInfo :=
  (topics.filter fun topic => topic.isOn topicName endpointType).map fun topic =>
    topic.info endpointType

/-! ## Into the words of rmw -/

/-- `rmw_endpoint_type_t`, as far as it is used. -/
inductive RmwEndpointType where
  | publisher | subscription
  deriving DecidableEq, Repr

/-- `RMW_GID_STORAGE_SIZE`. -/
def rmwGidStorageSize : ℕ := 24

/-- `rmw_topic_endpoint_info_t`. -/
structure RmwTopicEndpointInfo where
  nodeName : String
  nodeNamespace : String
  topicType : String
  endpointType : RmwEndpointType
  endpointGid : List UInt8
  qosProfile : Profile
  deriving DecidableEq, Repr

/-- `to_ros_endpoint_type`. -/
def toRosEndpointType (endpointType : TopicEndpointType) : RmwEndpointType :=
  if endpointType = .publisher then .publisher else .subscription

/-- `to_ros_policy`. -/
def toRosHistoryPolicy : TopicEndpointQOSHistoryKind → History
  | .keepLast => .keepLast
  | .keepAll => .keepAll

/-- `to_ros_policy`. -/
def toRosReliabilityPolicy : TopicEndpointQOSReliability → Reliability
  | .bestEffort => .bestEffort
  | .reliable => .reliable

/-- An `int32_t` stored in a `size_t`. -/
def sizeOfInt32 (n : ℤ) : ℕ := (n % 18446744073709551616).toNat

/-- `to_ros_qos_profile`. -/
def toRosQosProfile (endpointQos : TopicEndpointQOS) : Profile where
  avoidRosNamespaceConventions := false
  history := toRosHistoryPolicy endpointQos.historyKind
  depth := sizeOfInt32 endpointQos.historyDepth
  reliability := toRosReliabilityPolicy endpointQos.reliability
  deadline := ⟨0, 0⟩
  durability := .transientLocal
  lifespan := ⟨0, 0⟩
  liveliness := .unknown
  livelinessLeaseDuration := ⟨0, 0⟩

/-- The functions of rmw that fill in an entry. -/
inductive Setter where
  | topicType | nodeName | nodeNamespace | endpointType | qosProfile

/-- What is thrown when one of them fails. -/
def Setter.failure : Setter → Exception
  | topicType => .runtimeError "Failed to set topic type"
  | nodeName => .runtimeError "Failed to set node name"
  | nodeNamespace => .runtimeError "Failed to set node namespace"
  | endpointType => .runtimeError "Failed to set endpoint type"
  | qosProfile => .runtimeError "Failed to set qos"

/-- Which calls of rmw return `RMW_RET_OK`: they all depend on the allocator. -/
structure RmwCalls where
  /-- `rmw_topic_endpoint_info_array_init_with_size`. -/
  initWithSize : ℕ → Bool
  /-- The setters, for the entry at an index. -/
  set : ℕ → Setter → Bool

/-- A setter is called for the entry at an index. -/
def RmwCalls.call (rmw : RmwCalls) (index : ℕ) (setter : Setter) : Except Exception Unit :=
  if rmw.set index setter then .ok () else .error setter.failure

/-- The body of the transformation in `transform_to_rmw_topic_endpoint_info_array`. -/
def transformTopic (rmw : RmwCalls) (index : ℕ) (topic : TopicEndpointInfo) :
    Except Exception RmwTopicEndpointInfo := do
  rmw.call index .topicType
  rmw.call index .nodeName
  rmw.call index .nodeNamespace
  rmw.call index .endpointType
  rmw.call index .qosProfile
  .ok ⟨topic.nodeName, topic.nodeNamespace, topic.type, toRosEndpointType topic.endpointType,
    List.replicate rmwGidStorageSize 0, toRosQosProfile topic.qosProfile⟩

/-- `std::transform`, from an index on. -/
def transformTopics (rmw : RmwCalls) :
    ℕ → List TopicEndpointInfo → Except Exception (List RmwTopicEndpointInfo)
  | _, [] => .ok []
  | index, topic :: topics => do
    let entry ← transformTopic rmw index topic
    let entries ← transformTopics rmw (index + 1) topics
    .ok (entry :: entries)

/-- `transform_to_rmw_topic_endpoint_info_array`. -/
def transformToRmwTopicEndpointInfoArray (rmw : RmwCalls) (topicInfo : List TopicEndpointInfo) :
    Except Exception (List RmwTopicEndpointInfo) :=
  if rmw.initWithSize topicInfo.length then transformTopics rmw 0 topicInfo
  else .error (.runtimeError "Failed to initialize rmw_topic_endpoint_info_array_t.")

/-- `rmw_get_publishers_info_by_topic` and `rmw_get_subscriptions_info_by_topic`, for arguments that
are there and of this implementation.  An error is `RMW_RET_ERROR` with the message of the
`std::runtime_error`, the only exception there is (`transform_error`). -/
def rmwGetInfoByTopic (endpointType : TopicEndpointType) (rmw : RmwCalls) (topics : List PbTopic)
    (topicName : String) (noMangle : Bool) : Except Exception (List RmwTopicEndpointInfo) :=
  let mangledTopicName := if noMangle then topicName else mangleTopicName topicName
  transformToRmwTopicEndpointInfoArray rmw
    (getTopicEndpointInfo topics mangledTopicName endpointType)

/-- `rmw_get_publishers_info_by_topic`. -/
def rmwGetPublishersInfoByTopic : RmwCalls → List PbTopic → String → Bool →
    Except Exception (List RmwTopicEndpointInfo) := rmwGetInfoByTopic .publisher

/-- `rmw_get_subscriptions_info_by_topic`. -/
def rmwGetSubscriptionsInfoByTopic : RmwCalls → List PbTopic → String → Bool →
    Except Exception (List RmwTopicEndpointInfo) := rmwGetInfoByTopic .subscriber

section Transform

variable {rmw : RmwCalls}

theorem call_bind_ok {α : Type} {index : ℕ} {setter : Setter} {next : Except Exception α} {a : α}
    (h : (rmw.call index setter >>= fun _ => next) = .ok a) : next = .ok a := by
  rw [RmwCalls.call] at h
  split_ifs at h
  · exact h
  · cases h

theorem call_bind_error {α : Type} {index : ℕ} {setter : Setter} {next : Except Exception α}
    {e : Exception} (h : (rmw.call index setter >>= fun _ => next) = .error e) :
    e = setter.failure ∨ next = .error e := by
  rw [RmwCalls.call] at h
  split_ifs at h
  · exact .inr h
  · cases h
    exact .inl rfl

theorem transformTopic_ok {index : ℕ} {topic : TopicEndpointInfo} {entry : RmwTopicEndpointInfo}
    (h : transformTopic rmw index topic = .ok entry) :
    entry.qosProfile = toRosQosProfile topic.qosProfile := by
  rw [transformTopic] at h
  have hend := call_bind_ok (call_bind_ok (call_bind_ok (call_bind_ok (call_bind_ok h))))
  cases hend
  rfl

/-- One entry for every element, with the translated profile. -/
theorem transformTopics_ok {index : ℕ} {topics : List TopicEndpointInfo}
    {entries : List RmwTopicEndpointInfo} (h : transformTopics rmw index topics = .ok entries) :
    entries.map RmwTopicEndpointInfo.qosProfile =
      topics.map fun topic => toRosQosProfile topic.qosProfile := by
  induction topics generalizing index entries with
  | nil => cases h; rfl
  | cons topic topics ih =>
    rw [transformTopics] at h
    rcases hentry : transformTopic rmw index topic with e | entry
    · rw [hentry] at h
      cases h
    · rcases hrest : transformTopics rmw (index + 1) topics with e | rest
      · rw [hentry, hrest] at h
        cases h
      · rw [hentry, hrest] at h
        cases h
        rw [List.map_cons, List.map_cons, transformTopic_ok hentry, ih hrest]

theorem transform_ok {topicInfo : List TopicEndpointInfo} {entries : List RmwTopicEndpointInfo}
    (h : transformToRmwTopicEndpointInfoArray rmw topicInfo = .ok entries) :
    entries.map RmwTopicEndpointInfo.qosProfile =
      topicInfo.map fun topic => toRosQosProfile topic.qosProfile := by
  rw [transformToRmwTopicEndpointInfoArray] at h
  split_ifs at h
  exact transformTopics_ok h

theorem transformTopic_error {index : ℕ} {topic : TopicEndpointInfo} {e : Exception}
    (h : transformTopic rmw index topic = .error e) : ∃ setter : Setter, e = setter.failure := by
  rw [transformTopic] at h
  rcases call_bind_error h with heq | h
  · exact ⟨_, heq⟩
  rcases call_bind_error h with heq | h
  · exact ⟨_, heq⟩
  rcases call_bind_error h with heq | h
  · exact ⟨_, heq⟩
  rcases call_bind_error h with heq | h
  · exact ⟨_, heq⟩
  rcases call_bind_error h with heq | h
  · exact ⟨_, heq⟩
  · cases h

/-- Only what the callers catch is ever thrown. -/
theorem transform_error {topicInfo : List TopicEndpointInfo} {e : Exception}
    (h : transformToRmwTopicEndpointInfoArray rmw topicInfo = .error e) :
    ∃ what, e = .runtimeError what := by
  have hloop : ∀ topics index, transformTopics rmw index topics = .error e →
      ∃ setter : Setter, e = setter.failure := by
    intro topics
    induction topics with
    | nil => rintro index ⟨⟩
    | cons topic topics ih =>
      intro index hrun
      rw [transformTopics] at hrun
      rcases hentry : transformTopic rmw index topic with e' | entry
      · rw [hentry] at hrun
        cases hrun
        exact transformTopic_error hentry
      · rcases hrest : transformTopics rmw (index + 1) topics with e' | rest
        · rw [hentry, hrest] at hrun
          cases hrun
          exact ih _ hrest
        · rw [hentry, hrest] at hrun
          cases hrun
  rw [transformToRmwTopicEndpointInfoArray] at h
  split_ifs at h
  · obtain ⟨setter, rfl⟩ := hloop _ _ h
    rcases setter with _ | _ | _ | _ | _ <;> exact ⟨_, rfl⟩
  · cases h
    exact ⟨_, rfl⟩

end Transform

/-! ## Endpoints -/

/-- The function that makes the QoS of an endpoint. -/
def TopicEndpointType.createQOS (defaults : Defaults) :
    TopicEndpointType → Profile → Except Exception EndpointQOS
  | .publisher => createPublisherQOS defaults
  | .subscriber => createSubscriberQOS defaults

/-- A publisher or a subscription that could be created. -/
structure Endpoint (defaults : Defaults) where
  /-- Which of the two. -/
  endpointType : TopicEndpointType
  /-- The name it is created with. -/
  topicName : String
  /-- The name of the message type. -/
  typeName : String
  /-- The name of its node. -/
  nodeName : String
  /-- The namespace of its node. -/
  nodeNamespace : String
  /-- The profile it is created with. -/
  profile : Profile
  /-- What has become of it. -/
  qos : EndpointQOS
  /-- The profile was accepted. -/
  created : endpointType.createQOS defaults profile = .ok qos

/-- How the monitoring lists a QoS that was passed to `SetQOS`. -/
def monitoredQOS (ecalQos : ECalQOS) : PbQOS where
  reliability := match ecalQos.reliability with
    | .bestEffortReliabilityQos => .bestEffortReliabilityQos
    | .reliableReliabilityQos => .reliableReliabilityQos
  history := match ecalQos.historyKind with
    | .keepLastHistoryQos => .keepLastHistoryQos
    | .keepAllHistoryQos => .keepAllHistoryQos
  historyDepth := ecalQos.historyKindDepth

namespace Endpoint

variable {defaults : Defaults}

/-- `GetTopicName`, which asks the `CPublisher` or `CSubscriber`: with the prefix that it is created
with. -/
def getTopicName (endpoint : Endpoint defaults) : String :=
  endpoint.qos.topicNamePrefix ++ endpoint.topicName

/-- How the monitoring lists an endpoint. -/
def monitored (endpoint : Endpoint defaults) : PbTopic where
  tname := endpoint.getTopicName
  direction := match endpoint.endpointType with
    | .publisher => "publisher"
    | .subscriber => "subscriber"
  ttype := endpoint.typeName
  tqos := monitoredQOS endpoint.qos.ecalQos
  attr := [("node_name", endpoint.nodeName), ("node_namespace", endpoint.nodeNamespace)]

/-- `rmw_publisher_get_actual_qos` and `rmw_subscription_get_actual_qos`. -/
def actualQos (endpoint : Endpoint defaults) : Profile := endpoint.qos.rmwQos

/-- The endpoints of one type on a topic, by the name that the graph is asked for. -/
def onTopic (endpoints : List (Endpoint defaults)) (endpointType : TopicEndpointType)
    (topicName : String) (noMangle : Bool) : List (Endpoint defaults) :=
  endpoints.filter fun endpoint =>
    (endpoint.monitored.tname = if noMangle then topicName else mangleTopicName topicName) &&
      endpointType = endpoint.endpointType

end Endpoint

/-- A monitoring snapshot that lists these endpoints. -/
def snapshot {defaults : Defaults} (endpoints : List (Endpoint defaults)) : List PbTopic :=
  endpoints.map Endpoint.monitored

/-! ## The two answers -/

section Agreement

variable {defaults : Defaults}

theorem endpointType_monitored (endpoint : Endpoint defaults) :
    endpoint.monitored.endpointType = endpoint.endpointType := by
  rw [PbTopic.endpointType, Endpoint.monitored]
  rcases endpoint.endpointType with _ | _
  · rfl
  · rfl

theorem sizeOfInt32_of_le {n : ℕ} (h : n ≤ maxInt) : sizeOfInt32 n = n := by
  rw [maxInt] at h
  rw [sizeOfInt32]
  omega

/-- The profile that the graph has for an endpoint. -/
def Endpoint.graphQos (endpoint : Endpoint defaults) : Profile :=
  toRosQosProfile endpoint.monitored.tqos.endpointQOS

/-- **Only the depth comes through.**  The reliability is inverted, the history is keep all, and the
durability is another constant. -/
theorem graphQos_mismatch (endpoint : Endpoint defaults) :
    endpoint.graphQos.depth = endpoint.actualQos.depth ∧
      (endpoint.graphQos.history = endpoint.actualQos.history ↔
        endpoint.actualQos.history = .keepAll) ∧
      endpoint.graphQos.reliability ≠ endpoint.actualQos.reliability ∧
      endpoint.graphQos.durability ≠ endpoint.actualQos.durability := by
  have hcreated : ∃ ecalQos, createQOS ecalQos endpoint.profile = .ok endpoint.qos := by
    have h := endpoint.created
    rcases htype : endpoint.endpointType with _ | _
    · rw [htype] at h
      exact ⟨_, h⟩
    · rw [htype] at h
      exact ⟨_, h⟩
  obtain ⟨ecalQos, hcreated⟩ := hcreated
  obtain ⟨hdepth, hreported, hkept, -, -, -⟩ := createQOS_eq_ok_iff.mp hcreated
  rw [Endpoint.actualQos, hreported, Endpoint.graphQos, Endpoint.monitored]
  refine ⟨?_, ?_, ?_, ?_⟩
  · show sizeOfInt32 endpoint.qos.ecalQos.historyKindDepth = endpoint.profile.depth
    rw [hkept, sizeOfInt32_of_le hdepth]
  · rcases hkind : endpoint.qos.ecalQos.historyKind with _ | _
    · simp [toRosQosProfile, PbQOS.endpointQOS, monitoredQOS, reportedProfile, toRosHistoryPolicy,
        toRosHistory, hkind]
    · simp [toRosQosProfile, PbQOS.endpointQOS, monitoredQOS, reportedProfile, toRosHistoryPolicy,
        toRosHistory, hkind]
  · rcases hkind : endpoint.qos.ecalQos.reliability with _ | _
    · simp [toRosQosProfile, PbQOS.endpointQOS, monitoredQOS, reportedProfile,
        toRosReliabilityPolicy, toRosReliability, hkind]
    · simp [toRosQosProfile, PbQOS.endpointQOS, monitoredQOS, reportedProfile,
        toRosReliabilityPolicy, toRosReliability, hkind]
  · simp [toRosQosProfile, reportedProfile]

/-- The graph has one entry for every endpoint of that type on the topic, in their order. -/
theorem rmwGetInfoByTopic_ok {endpoints : List (Endpoint defaults)} {rmw : RmwCalls}
    {endpointType : TopicEndpointType} {topicName : String} {noMangle : Bool}
    {entries : List RmwTopicEndpointInfo}
    (h : rmwGetInfoByTopic endpointType rmw (snapshot endpoints) topicName noMangle =
      .ok entries) :
    entries.map RmwTopicEndpointInfo.qosProfile =
      (Endpoint.onTopic endpoints endpointType topicName noMangle).map Endpoint.graphQos := by
  rw [transform_ok h, getTopicEndpointInfo, snapshot, List.filter_map, List.map_map, List.map_map,
    Endpoint.onTopic]
  have hon : (fun topic : PbTopic => topic.isOn
        (if noMangle then topicName else mangleTopicName topicName) endpointType) ∘
      @Endpoint.monitored defaults = fun endpoint => (endpoint.monitored.tname =
        if noMangle then topicName else mangleTopicName topicName) &&
          endpointType = endpoint.endpointType := by
    funext endpoint
    rw [Function.comp_apply, PbTopic.isOn, endpointType_monitored]
  rw [hon]
  rfl

/-- An entry of the graph and the endpoint it stands for have the same profile, in the fields that
the graph knows. -/
def SameQOS (entry : RmwTopicEndpointInfo) (endpoint : Endpoint defaults) : Prop :=
  entry.qosProfile.reliability = endpoint.actualQos.reliability ∧
    entry.qosProfile.history = endpoint.actualQos.history ∧
    entry.qosProfile.depth = endpoint.actualQos.depth ∧
    entry.qosProfile.durability = endpoint.actualQos.durability

/-- **What the graph says agrees with what the endpoints say exactly if there are none.** -/
theorem info_agrees_iff {endpoints : List (Endpoint defaults)} {rmw : RmwCalls}
    {endpointType : TopicEndpointType} {topicName : String} {noMangle : Bool}
    {entries : List RmwTopicEndpointInfo}
    (h : rmwGetInfoByTopic endpointType rmw (snapshot endpoints) topicName noMangle =
      .ok entries) :
    List.Forall₂ SameQOS entries (Endpoint.onTopic endpoints endpointType topicName noMangle) ↔
      Endpoint.onTopic endpoints endpointType topicName noMangle = [] := by
  have hmap := rmwGetInfoByTopic_ok h
  constructor
  · intro hsame
    rcases hon : Endpoint.onTopic endpoints endpointType topicName noMangle with _ | ⟨endpoint, rest⟩
    · rfl
    · rw [hon] at hmap hsame
      obtain ⟨entry, entries, hentry, -, rfl⟩ := List.forall₂_cons_right_iff.mp hsame
      rw [List.map_cons, List.map_cons, List.cons.injEq] at hmap
      have hreliability := hentry.1
      rw [hmap.1] at hreliability
      exact absurd hreliability (graphQos_mismatch endpoint).2.2.1
  · intro hnone
    rw [hnone, List.map_nil, List.map_eq_nil_iff] at hmap
    rw [hnone, hmap]
    exact .nil

end Agreement

/-- A publisher with the default profile. -/
def talker : Endpoint someDefaults where
  endpointType := .publisher
  topicName := "/chatter"
  typeName := "std_msgs/String"
  nodeName := "talker"
  nodeNamespace := "/"
  profile := defaultProfile
  qos := ⟨reportedProfile defaultProfile ⟨.keepLastHistoryQos, 10, .reliableReliabilityQos⟩,
    ⟨.keepLastHistoryQos, 10, .reliableReliabilityQos⟩, "rt"⟩
  created := rfl

/-- The calls of rmw when there is memory. -/
def allSucceed : RmwCalls := ⟨fun _ => true, fun _ _ => true⟩

/-- What the graph says about the talker. -/
def talkerInfo : RmwTopicEndpointInfo where
  nodeName := "talker"
  nodeNamespace := "/"
  topicType := "std_msgs/String"
  endpointType := .publisher
  endpointGid := List.replicate rmwGidStorageSize 0
  qosProfile :=
    ⟨.keepAll, 10, .bestEffort, .transientLocal, ⟨0, 0⟩, ⟨0, 0⟩, .unknown, ⟨0, 0⟩, false⟩

theorem rmwGetPublishersInfoByTopic_talker :
    rmwGetPublishersInfoByTopic allSucceed (snapshot [talker]) "/chatter" false =
      .ok [talkerInfo] := rfl

theorem info_agrees_iff_talker :
    List.Forall₂ SameQOS [talkerInfo] (Endpoint.onTopic [talker] .publisher "/chatter" false) ↔
      Endpoint.onTopic [talker] .publisher "/chatter" false = [] :=
  info_agrees_iff rmwGetPublishersInfoByTopic_talker

/-- The talker is reliable and keeps the last ten messages, but not in the graph. -/
theorem info_differs :
    rmwGetPublishersInfoByTopic allSucceed (snapshot [talker]) "/chatter" false =
        .ok [talkerInfo] ∧
      Endpoint.onTopic [talker] .publisher "/chatter" false = [talker] ∧
      talker.actualQos = ⟨.keepLast, 10, .reliable, .volatile, ⟨0, 0⟩, ⟨0, 0⟩, .unknown, ⟨0, 0⟩,
        false⟩ ∧
      ¬List.Forall₂ SameQOS [talkerInfo] [talker] := by
  refine ⟨rmwGetPublishersInfoByTopic_talker, rfl, rfl, fun h => ?_⟩
  have hsame := (List.forall₂_cons.mp h).1
  cases hsame.1

end Graph

end RmwEcal
