import RmwEcal.Shared.EndpointInfo
import RmwEcal.Shared.Graph
import RmwEcal.Shared.StringFunctions

/-!
# Listings of the graph

The functions that fill a `rmw_names_and_types_t`: those for the whole graph get what they list out
of the monitoring snapshot, those for one node ask the node.  `rmw_get_node_names` and the
`*_info_by_topic` functions are here as far as they do the same.

All of them initialise the caller's array, or two, and then `std::transform` what they have got into
it, `fillArray`.  What can fail on the way is an initialisation, which is tested, and `new`, which
throws.  That is left open here, once for every place where it can happen (`Allocations`), and so is
what eCAL and protobuf do (`Remote`).

All functions are given arguments that are there and of this implementation.
-/

set_option autoImplicit false

namespace RmwEcal

open Qos

namespace Graph

/-! ## Names -/

/-- The body of `DemangleTopicName` and `DemangleServiceName`. -/
def demangle (namePrefix name : List Char) : List Char :=
  if name.take 3 = namePrefix ++ ['/'] then name.drop 2 else name

/-- `DemangleTopicName`. -/
def demangleTopicName : List Char → List Char := demangle pubNamePrefix.toList

/-- `DemangleServiceName`. -/
def demangleServiceName : List Char → List Char := demangle serviceNamePrefix

theorem demangle_prefixed {a b : Char} (rest : List Char) :
    demangle [a, b] (a :: b :: '/' :: rest) = '/' :: rest := by
  rw [demangle]
  exact if_pos rfl

theorem demangle_of_ne {namePrefix name : List Char} (h : name.head? ≠ namePrefix.head?)
    (hstart : namePrefix ≠ []) : demangle namePrefix name = name := by
  obtain ⟨a, namePrefix, rfl⟩ := List.exists_cons_of_ne_nil hstart
  refine if_neg fun heq => h ?_
  have hhead := congrArg List.head? heq
  rwa [List.head?_take, if_neg (by decide)] at hhead

/-! ## What the snapshot is read for -/

/-- `TopicInfo`, and an entry of `Subscribers` and `Publishers`. -/
structure TopicInfo where
  name : List Char
  type : List Char
  deriving DecidableEq, Repr

/-- `ServiceInfo`, and an entry of `Services` and `Clients`. -/
structure ServiceInfo where
  name : List Char
  requestType : List Char
  responseType : List Char
  deriving DecidableEq, Repr

/-- A `Method` of the monitoring message, as far as it is read. -/
structure PbMethod where
  mname : List Char
  reqType : List Char
  respType : List Char
  deriving DecidableEq, Repr

/-- A `Service` of the monitoring message, as far as it is read. -/
structure PbService where
  sname : List Char
  methods : List PbMethod
  deriving DecidableEq, Repr

/-- The loop of `GetTopics`.  `processed` is `already_processed_topics`. -/
def getTopicsFrom (processed : List (List Char)) : List PbTopic → List TopicInfo
  | [] => []
  | topic :: topics =>
    if topic.tname.toList ∉ processed then
      ⟨topic.tname.toList, topic.ttype.toList⟩ ::
        getTopicsFrom (topic.tname.toList :: processed) topics
    else getTopicsFrom processed topics

/-- `GetTopics`, for the topics in the monitoring snapshot. -/
def getTopics : List PbTopic → List TopicInfo := getTopicsFrom []

/-- The body of the inner loop of `GetServices`. -/
def PbService.info (service : PbService) (method : PbMethod) : ServiceInfo :=
  ⟨service.sname ++ ['/'] ++ method.mname, method.reqType, method.respType⟩

/-- `GetServices`, for the services in the monitoring snapshot. -/
def getServices (services : List PbService) : List ServiceInfo :=
  services.flatMap fun service => service.methods.map service.info

/-! ## What the nodes are asked for -/

/-- What there is after `CServiceClient::Call`. -/
structure CallResult where
  /-- What it has returned. -/
  success : Bool
  /-- The `response` of every element of the vector it has filled. -/
  response : List (List UInt8)
  deriving DecidableEq, Repr

/-- eCAL's calls and protobuf's messages. -/
structure Remote where
  /-- `Call` of a client of some service, for a method and without a timeout. -/
  call : List Char → List Char → CallResult
  /-- What `ParseFromString` returns for a `Subscribers`, and what is in it then. -/
  parseSubscribers : List UInt8 → Bool × List TopicInfo
  /-- For a `Publishers`. -/
  parsePublishers : List UInt8 → Bool × List TopicInfo
  /-- For a `Services`. -/
  parseServices : List UInt8 → Bool × List ServiceInfo
  /-- For a `Clients`. -/
  parseClients : List UInt8 → Bool × List ServiceInfo

/-- The body of the four functions that ask a node.  The results of `Call` and `ParseFromString` are
not looked at; `none` is an index into an empty vector. -/
def queryNode {α : Type} (remote : Remote) (parse : List UInt8 → Bool × List α)
    (method : List Char) (nodeNamespace nodeName : List Char) : Option (List α) :=
  let result := remote.call (buildQueryServiceName nodeNamespace nodeName) method
  result.response[0]?.map fun response => (parse response).2

/-- `GetSubscribers`. -/
def getSubscribers (remote : Remote) : List Char → List Char → Option (List TopicInfo) :=
  queryNode remote remote.parseSubscribers "GetSubscribers".toList

/-- `GetPublishers`. -/
def getPublishers (remote : Remote) : List Char → List Char → Option (List TopicInfo) :=
  queryNode remote remote.parsePublishers "GetPublishers".toList

/-- `GetServices`, of one node. -/
def getNodeServices (remote : Remote) : List Char → List Char → Option (List ServiceInfo) :=
  queryNode remote remote.parseServices "GetServices".toList

/-- `GetClients`. -/
def getClients (remote : Remote) : List Char → List Char → Option (List ServiceInfo) :=
  queryNode remote remote.parseClients "GetClients".toList

/-! ## Filling an array -/

/-- What is thrown while an array is filled. -/
inductive Thrown where
  /-- By the function itself. -/
  | exception (e : Exception)
  /-- `std::bad_alloc`, by `new`. -/
  | badAlloc
  deriving DecidableEq, Repr

/-- What an initialisation returns that fails. -/
inductive ErrorCode where
  | error | badAlloc | invalidArgument
  deriving DecidableEq, Repr

/-- How a function ends. -/
inductive Ending where
  /-- `RMW_RET_OK`. -/
  | ok
  /-- Another return value, and the message that has been set. -/
  | error (ret : ErrorCode) (message : String)
  /-- An exception has left it. -/
  | exception (e : Thrown)
  deriving DecidableEq, Repr

/-- A return value other than `RMW_RET_OK`. -/
def Ending.IsError : Ending → Prop
  | .error _ _ => True
  | .ok | .exception _ => False

theorem Ending.isError_error (ret : ErrorCode) (message : String) :
    (Ending.error ret message).IsError :=
  trivial

/-- What has become of an array of the caller. -/
inductive Written (ε : Type) where
  /-- Nothing. -/
  | nothing
  /-- It has been zeroed, by an initialisation that has failed. -/
  | zeroed
  /-- It has been initialised; `none` is an element that has not been written yet. -/
  | array (elements : List (Option ε))
  deriving DecidableEq, Repr

section Fill

variable {α ε : Type}

/-- `std::transform` into a new array, from an index on: what is in the array when it ends, and
what has been thrown. -/
def transform (f : ℕ → α → Except Thrown ε) :
    ℕ → List α → List (Option ε) × Except Thrown Unit
  | _, [] => ([], .ok ())
  | index, a :: as =>
    match f index a with
    | .error e => (List.replicate (as.length + 1) none, .error e)
    | .ok element => (some element :: (transform f (index + 1) as).1, (transform f (index + 1) as).2)

/-- A step that may fail. -/
def attempt (failure : Option Thrown) (a : α) : Except Thrown α :=
  match failure with
  | none => .ok a
  | some e => .error e

/-- What the `catch` makes of it. -/
def caught : Except Thrown Unit → Ending
  | .ok () => .ok
  | .error (.exception (.runtimeError what)) => .error .error what
  | .error e => .exception e

/-- An array is initialised and filled. -/
def fillArray (init : Option ErrorCode) (message : String) (f : ℕ → α → Except Thrown ε)
    (items : List α) : Written ε × Ending :=
  match init with
  | some ret => (.zeroed, .error ret message)
  | none => (.array (transform f 0 items).1, caught (transform f 0 items).2)

end Fill

/-- An entry of a `rmw_names_and_types_t`. -/
structure Entry where
  name : List Char
  types : List (List Char)
  deriving DecidableEq, Repr

/-- Which allocations succeed in a function that fills a `rmw_names_and_types_t`. -/
structure Allocations where
  /-- `rmw_names_and_types_init`: what it returns if it fails. -/
  init : Option ErrorCode
  /-- `new` for the name at an index, and for the strings that it is made from. -/
  newName : ℕ → Bool
  /-- `rcutils_string_array_init` for its types. -/
  initTypes : ℕ → Bool
  /-- `new` for one of them. -/
  newType : ℕ → ℕ → Bool

/-- What is thrown by the function that is passed to `std::transform`, for so many types. -/
def Allocations.failure (allocs : Allocations) (types index : ℕ) : Option Thrown :=
  if allocs.newName index = false then some .badAlloc
  else if allocs.initTypes index = false then
    some (.exception (.runtimeError "Failed to init types."))
  else if ∃ j < types, allocs.newType index j = false then some .badAlloc
  else none

/-- That function, for a name and its types. -/
def Allocations.entry (allocs : Allocations) (index : ℕ) (name : List Char)
    (types : List (List Char)) : Except Thrown Entry :=
  attempt (allocs.failure types.length index)
    ⟨constructCString name, types.map constructCString⟩

/-- The name that a topic is listed under. -/
def listedTopicName (noDemangle : Bool) (name : List Char) : List Char :=
  if noDemangle then name else demangleTopicName name

/-- With a topic. -/
def Allocations.topicEntry (allocs : Allocations) (noDemangle : Bool) (index : ℕ)
    (topic : TopicInfo) : Except Thrown Entry :=
  allocs.entry index (listedTopicName noDemangle topic.name) [topic.type]

/-- With a service. -/
def Allocations.serviceEntry (allocs : Allocations) (index : ℕ) (service : ServiceInfo) :
    Except Thrown Entry :=
  allocs.entry index (demangleServiceName service.name) [service.requestType, service.responseType]

/-! ## The functions -/

/-- `rmw_get_topic_names_and_types`.  The message is about services in the source, too. -/
def rmwGetTopicNamesAndTypes (allocs : Allocations) (topics : List PbTopic) (noDemangle : Bool) :
    Written Entry × Ending :=
  fillArray allocs.init "Failed to initialize service_names_and_types."
    (allocs.topicEntry noDemangle) (getTopics topics)

/-- `rmw_get_service_names_and_types`. -/
def rmwGetServiceNamesAndTypes (allocs : Allocations) (services : List PbService) :
    Written Entry × Ending :=
  fillArray allocs.init "Failed to initialize service_names_and_types." allocs.serviceEntry
    (getServices services)

/-- `rmw_get_subscriber_names_and_types_by_node`. -/
def rmwGetSubscriberNamesAndTypesByNode (remote : Remote) (allocs : Allocations)
    (nodeName nodeNamespace : List Char) (noDemangle : Bool) : Option (Written Entry × Ending) :=
  (getSubscribers remote nodeNamespace nodeName).map
    (fillArray allocs.init "Failed to initialize topic_names_and_types."
      (allocs.topicEntry noDemangle))

/-- `rmw_get_publisher_names_and_types_by_node`. -/
def rmwGetPublisherNamesAndTypesByNode (remote : Remote) (allocs : Allocations)
    (nodeName nodeNamespace : List Char) (noDemangle : Bool) : Option (Written Entry × Ending) :=
  (getPublishers remote nodeNamespace nodeName).map
    (fillArray allocs.init "Failed to initialize topic_names_and_types."
      (allocs.topicEntry noDemangle))

/-- `rmw_get_service_names_and_types_by_node`. -/
def rmwGetServiceNamesAndTypesByNode (remote : Remote) (allocs : Allocations)
    (nodeName nodeNamespace : List Char) : Option (Written Entry × Ending) :=
  (getNodeServices remote nodeNamespace nodeName).map
    (fillArray allocs.init "Failed to initialize service_names_and_types." allocs.serviceEntry)

/-- `rmw_get_client_names_and_types_by_node`. -/
def rmwGetClientNamesAndTypesByNode (remote : Remote) (allocs : Allocations)
    (nodeName nodeNamespace : List Char) : Option (Written Entry × Ending) :=
  (getClients remote nodeNamespace nodeName).map
    (fillArray allocs.init "Failed to initialize service_names_and_types." allocs.serviceEntry)

/-- What `transform_to_rmw_topic_endpoint_info_array` writes, and what its callers return.  A failed
initialisation is thrown, and caught like the rest. -/
def writeInfo (rmw : RmwCalls) (info : List TopicEndpointInfo) :
    Written RmwTopicEndpointInfo × Ending :=
  fillArray (if rmw.initWithSize info.length then none else some .error)
    "Failed to initialize rmw_topic_endpoint_info_array_t."
    (fun index topic => (transformTopic rmw index topic).mapError .exception) info

/-- `topic_info` in those. -/
def infoByTopic (endpointType : TopicEndpointType) (topics : List PbTopic) (topicName : String)
    (noMangle : Bool) : List TopicEndpointInfo :=
  let mangledTopicName := if noMangle then topicName else mangleTopicName topicName
  getTopicEndpointInfo topics mangledTopicName endpointType

/-- `rmw_get_publishers_info_by_topic` and `rmw_get_subscriptions_info_by_topic`, with what they
write.  It returns and throws what `rmwGetInfoByTopic` does (`writeInfoByTopic_eq`). -/
def writeInfoByTopic (endpointType : TopicEndpointType) (rmw : RmwCalls) (topics : List PbTopic)
    (topicName : String) (noMangle : Bool) : Written RmwTopicEndpointInfo × Ending :=
  writeInfo rmw (infoByTopic endpointType topics topicName noMangle)

/-- Which allocations succeed in `rmw_get_node_names`. -/
structure NodeNamesAllocations where
  /-- `rcutils_string_array_init` for `node_names`. -/
  initNames : Bool
  /-- `rcutils_string_array_init` for `node_namespaces`. -/
  initNamespaces : Bool
  /-- `new` for the name at an index. -/
  newName : ℕ → Bool
  /-- `new` for the namespace. -/
  newNamespace : ℕ → Bool

/-- What `new` throws. -/
def newFailure (success : Bool) : Option Thrown := if success then none else some .badAlloc

/-- `ConstructCString`, if `new` succeeds. -/
def newCString (success : Bool) (value : List Char) : Except Thrown (List Char) :=
  attempt (newFailure success) (constructCString value)

/-- What `rmw_get_node_names` does with `node_names` and `node_namespaces`.  There is no `catch`. -/
def writeNodeNames (allocs : NodeNamesAllocations) (nodes : List NodeInfo) :
    (Written (List Char) × Written (List Char)) × Ending :=
  if allocs.initNames = false then
    ((.zeroed, .nothing), .error .error "Failed to initialize node_names.")
  else if allocs.initNamespaces = false then
    ((.array (List.replicate nodes.length none), .zeroed),
      .error .error "Failed to initialize node_namespaces.")
  else
    let names := transform (fun index node => newCString (allocs.newName index) node.name) 0 nodes
    match names.2 with
    | .error e =>
      ((.array names.1, .array (List.replicate nodes.length none)), .exception e)
    | .ok () =>
      let spaces :=
        transform (fun index node => newCString (allocs.newNamespace index) node.nameSpace) 0 nodes
      ((.array names.1, .array spaces.1),
        match spaces.2 with
        | .error e => .exception e
        | .ok () => .ok)

/-- `rmw_get_node_names`, for the names of the services in the monitoring snapshot.  `none` is an
exception from `GetNodes`. -/
def rmwGetNodeNames (allocs : NodeNamesAllocations) (services : List (List Char)) :
    Option ((Written (List Char) × Written (List Char)) × Ending) :=
  (getNodes services).map (writeNodeNames allocs)

/-! ## What the loop does -/

section Fill

variable {α ε : Type}

/-- What goes wrong first. -/
def firstFailure (failure : ℕ → Option Thrown) (start n : ℕ) : Option Thrown :=
  (List.range' start n).findSome? failure

theorem firstFailure_succ (failure : ℕ → Option Thrown) (start n : ℕ) :
    firstFailure failure start (n + 1) =
      (failure start).or (firstFailure failure (start + 1) n) := by
  rw [firstFailure, List.range'_succ, List.findSome?_cons]
  cases failure start <;> rfl

theorem firstFailure_eq_none_iff {failure : ℕ → Option Thrown} {n : ℕ} :
    firstFailure failure 0 n = none ↔ ∀ i < n, failure i = none := by
  rw [firstFailure, List.findSome?_eq_none_iff, ← List.range_eq_range']
  simp only [List.mem_range]

/-- **The loop ends with the first failure**, and if there is none, it has written everything. -/
theorem transform_eq {f : ℕ → α → Except Thrown ε} {g : α → ε} {failure : ℕ → Option Thrown}
    (hf : ∀ i a, f i a = attempt (failure i) (g a)) (start : ℕ) (items : List α) :
    (transform f start items).2 = attempt (firstFailure failure start items.length) () ∧
      (firstFailure failure start items.length = none →
        (transform f start items).1 = items.map fun a => some (g a)) := by
  induction items generalizing start with
  | nil => exact ⟨rfl, fun _ => rfl⟩
  | cons a items ih =>
    obtain ⟨hending, helements⟩ := ih (start + 1)
    rw [List.length_cons, firstFailure_succ, transform, hf]
    cases failure start with
    | none => exact ⟨hending, fun h => congrArg (some (g a) :: ·) (helements h)⟩
    | some e => exact ⟨rfl, nofun⟩

variable {f : ℕ → α → Except Thrown ε} {g : α → ε} {failure : ℕ → Option Thrown}
  {items : List α}

/-- Everything succeeds. -/
theorem fillArray_ok (hf : ∀ i a, f i a = attempt (failure i) (g a))
    (h : firstFailure failure 0 items.length = none) (message : String) :
    fillArray none message f items = (.array (items.map fun a => some (g a)), .ok) := by
  obtain ⟨hending, helements⟩ := transform_eq hf 0 items
  rw [fillArray, helements h, hending, h]
  rfl

/-- An element fails. -/
theorem fillArray_error (hf : ∀ i a, f i a = attempt (failure i) (g a)) {e : Thrown}
    (h : firstFailure failure 0 items.length = some e) (message : String) :
    ∃ elements, fillArray none message f items = (.array elements, caught (.error e)) := by
  obtain ⟨hending, -⟩ := transform_eq hf 0 items
  rw [h] at hending
  rw [fillArray, hending]
  exact ⟨_, rfl⟩

end Fill

/-! ## What can go wrong at an index -/

/-- What becomes of a topic. -/
def topicElement (noDemangle : Bool) (topic : TopicInfo) : Entry :=
  ⟨constructCString (listedTopicName noDemangle topic.name), [constructCString topic.type]⟩

/-- What becomes of a service. -/
def serviceElement (service : ServiceInfo) : Entry :=
  ⟨constructCString (demangleServiceName service.name),
    [constructCString service.requestType, constructCString service.responseType]⟩

theorem Allocations.topicEntry_eq (allocs : Allocations) (noDemangle : Bool) (index : ℕ)
    (topic : TopicInfo) : allocs.topicEntry noDemangle index topic =
      attempt (allocs.failure 1 index) (topicElement noDemangle topic) :=
  rfl

theorem Allocations.serviceEntry_eq (allocs : Allocations) (index : ℕ) (service : ServiceInfo) :
    allocs.serviceEntry index service =
      attempt (allocs.failure 2 index) (serviceElement service) :=
  rfl

/-- The array is initialised, and so many entries are made. -/
structure Allocations.Succeed (allocs : Allocations) (types n : ℕ) : Prop where
  /-- `rmw_names_and_types_init`. -/
  init : allocs.init = none
  entries : ∀ i < n, allocs.failure types i = none

theorem fillArray_topics {allocs : Allocations} {items : List TopicInfo}
    (h : allocs.Succeed 1 items.length) (noDemangle : Bool) (message : String) :
    fillArray allocs.init message (allocs.topicEntry noDemangle) items =
      (.array ((items.map (topicElement noDemangle)).map some), .ok) := by
  rw [h.init, fillArray_ok (allocs.topicEntry_eq noDemangle)
    (firstFailure_eq_none_iff.mpr h.entries) message, List.map_map]
  rfl

theorem fillArray_services {allocs : Allocations} {items : List ServiceInfo}
    (h : allocs.Succeed 2 items.length) (message : String) :
    fillArray allocs.init message allocs.serviceEntry items =
      (.array ((items.map serviceElement).map some), .ok) := by
  rw [h.init, fillArray_ok allocs.serviceEntry_eq (firstFailure_eq_none_iff.mpr h.entries)
    message, List.map_map]
  rfl

/-- Nothing fails. -/
def enoughMemory : Allocations := ⟨none, fun _ => true, fun _ => true, fun _ _ => true⟩

theorem enoughMemory_failure (types index : ℕ) : enoughMemory.failure types index = none := by
  simp [Allocations.failure, enoughMemory]

theorem enoughMemory_succeed (types n : ℕ) : enoughMemory.Succeed types n :=
  ⟨rfl, fun i _ => enoughMemory_failure types i⟩

/-- A failure is one of `new`, or has been thrown by the function itself. -/
theorem Allocations.failure_cases (allocs : Allocations) {types index : ℕ} {e : Thrown}
    (h : allocs.failure types index = some e) :
    e = .badAlloc ∨ e = .exception (.runtimeError "Failed to init types.") := by
  rw [failure] at h
  split_ifs at h
  · exact .inl (Option.some.inj h).symm
  · exact .inr (Option.some.inj h).symm
  · exact .inl (Option.some.inj h).symm

end Graph

end RmwEcal
