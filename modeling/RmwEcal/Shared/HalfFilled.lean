import RmwEcal.Shared.NamesAndTypes

/-!
# Half filled arrays

When a query of the graph fails, the caller's array should be as it was.  An initialisation that
fails leaves it zeroed, which is the same if it was zero before.  Everything else that can fail does
so after the array has been initialised, and nothing takes that back: the elements in front of the
failure are there, the rest is zero (`fillArray_half`), and the call returns an error, or is left by
`std::bad_alloc`, which is not caught.

So all nine functions are atomic in the same cases, `Harmless`: nothing fails, or the very first
initialisation does.  `rmw_get_node_names` has another one after that.
-/

set_option autoImplicit false

namespace RmwEcal

namespace Graph

/-! ## Failing atomically -/

/-- The array is as it was, given whether it was zero before. -/
def Written.Unchanged {ε : Type} (zeroBefore : Bool) : Written ε → Prop
  | .nothing => True
  | .zeroed => zeroBefore = true
  | .array _ => False

/-- If something fails, the call returns an error and what it writes to is as it was. -/
def FailsAtomically {ω : Type} (succeeds : Prop) (unchanged : ω → Prop)
    (outcome : Option (ω × Ending)) : Prop :=
  ¬ succeeds →
    ∃ written ending, outcome = some (written, ending) ∧ ending.IsError ∧ unchanged written

section Atomic

variable {ω : Type} {succeeds : Prop} {unchanged : ω → Prop}

/-- What has been written to may not fail any more. -/
theorem failsAtomically_written_iff {written : ω} {ending : Ending} (h : ¬ unchanged written) :
    FailsAtomically succeeds unchanged (some (written, ending)) ↔ succeeds := by
  refine ⟨fun hatomic => ?_, fun hsucceeds hfails => absurd hsucceeds hfails⟩
  by_contra hfails
  obtain ⟨written', ending', heq, -, hunchanged⟩ := hatomic hfails
  cases heq
  exact h hunchanged

/-- An error that is returned is a failure, atomic or not. -/
theorem failsAtomically_error_iff (hfails : ¬ succeeds) {written : ω} {ending : Ending}
    (herror : ending.IsError) :
    FailsAtomically succeeds unchanged (some (written, ending)) ↔ unchanged written := by
  refine ⟨fun hatomic => ?_, fun hunchanged _ => ⟨_, _, rfl, herror, hunchanged⟩⟩
  obtain ⟨written', ending', heq, -, hunchanged⟩ := hatomic hfails
  cases heq
  exact hunchanged

end Atomic

section Fill

variable {α ε : Type} {f : ℕ → α → Except Thrown ε} {g : α → ε} {failure : ℕ → Option Thrown}

/-- The loop stops at the failure, and what it has written stays. -/
theorem transform_half (hf : ∀ i a, f i a = attempt (failure i) (g a)) {items : List α}
    {start k : ℕ} {e : Thrown} (hk : k < items.length)
    (hbefore : ∀ i < start + k, start ≤ i → failure i = none)
    (hfail : failure (start + k) = some e) :
    transform f start items =
      ((items.take k).map (fun a => some (g a)) ++ List.replicate (items.length - k) none,
        .error e) := by
  induction items generalizing start k with
  | nil => exact absurd hk (Nat.not_lt_zero _)
  | cons a items ih =>
    rw [transform, hf]
    cases k with
    | zero =>
      rw [Nat.add_zero] at hfail
      rw [hfail]
      rfl
    | succ k =>
      rw [Nat.add_succ, ← Nat.succ_add] at hfail hbefore
      have hrest := ih (Nat.lt_of_succ_lt_succ hk)
        (fun i hi hle => hbefore i hi (Nat.le_of_succ_le hle)) hfail
      rw [hbefore start (by omega) (Nat.le_refl _), hrest, List.length_cons,
        Nat.add_sub_add_right]
      rfl

/-- **What a failure leaves behind**: an array with the elements that came before it. -/
theorem fillArray_half (hf : ∀ i a, f i a = attempt (failure i) (g a)) {message : String}
    {items : List α} {k : ℕ} {e : Thrown} (hk : k < items.length)
    (hbefore : ∀ i < k, failure i = none) (hfail : failure k = some e) :
    fillArray none message f items =
      (.array ((items.take k).map (fun a => some (g a)) ++ List.replicate (items.length - k) none),
        caught (.error e)) := by
  rw [← Nat.zero_add k] at hbefore hfail
  rw [fillArray, transform_half hf hk (fun i hi _ => hbefore i hi) hfail]

end Fill

/-! ## The functions that fill one array -/

section FillArray

variable {α ε : Type} {zeroBefore : Bool} {init : Option ErrorCode} {message : String}
  {f : ℕ → α → Except Thrown ε} {items : List α} {source : Option (List α)}

/-- The first initialisation is the only thing that may fail. -/
theorem fillArray_failsAtomically_iff {succeeds : Prop} (hinit : succeeds → init = none) :
    FailsAtomically succeeds (Written.Unchanged zeroBefore)
        (some (fillArray init message f items)) ↔
      succeeds ∨ (init ≠ none ∧ zeroBefore = true) := by
  cases init with
  | none =>
    have hnone : ¬ ((none : Option ErrorCode) ≠ none ∧ zeroBefore = true) := fun h => h.1 rfl
    exact (failsAtomically_written_iff id).trans (or_iff_left hnone).symm
  | some ret =>
    have hfails : ¬ succeeds := fun h => nomatch hinit h
    have hsome : some ret ≠ none := nofun
    refine (failsAtomically_error_iff hfails (Ending.isError_error ret message)).trans ?_
    exact ((or_iff_right hfails).trans (and_iff_right hsome)).symm

/-- Nothing fails, or nothing but the first initialisation, which zeroes what is zero. -/
def Allocations.Harmless (allocs : Allocations) (zeroBefore : Bool) (types n : ℕ) : Prop :=
  allocs.Succeed types n ∨ (allocs.init ≠ none ∧ zeroBefore = true)

variable {allocs : Allocations} {types : ℕ}

theorem fillEntries_failsAtomically_iff {f : ℕ → α → Except Thrown Entry} :
    FailsAtomically (allocs.Succeed types items.length) (Written.Unchanged zeroBefore)
        (some (fillArray allocs.init message f items)) ↔
      allocs.Harmless zeroBefore types items.length :=
  fillArray_failsAtomically_iff Allocations.Succeed.init

/-- The same, if there is something to fill the array with. -/
theorem fillFrom_failsAtomically_iff {f : ℕ → α → Except Thrown Entry} :
    FailsAtomically (∃ items, source = some items ∧ allocs.Succeed types items.length)
        (Written.Unchanged zeroBefore) (source.map (fillArray allocs.init message f)) ↔
      ∃ items, source = some items ∧ allocs.Harmless zeroBefore types items.length := by
  cases source with
  | none =>
    refine ⟨fun h => ?_, fun ⟨_, heq, _⟩ => nomatch heq⟩
    obtain ⟨_, _, heq, -⟩ := h fun ⟨_, heq, _⟩ => nomatch heq
    cases heq
  | some items =>
    simp only [Option.some.injEq, exists_eq_left', Option.map_some]
    exact fillEntries_failsAtomically_iff

end FillArray

/-! ## Endpoints -/

/-- What becomes of a topic. -/
def infoElement (topic : TopicEndpointInfo) : RmwTopicEndpointInfo :=
  ⟨topic.nodeName, topic.nodeNamespace, topic.type, toRosEndpointType topic.endpointType,
    List.replicate rmwGidStorageSize 0, toRosQosProfile topic.qosProfile⟩

/-- What is thrown for the topic at an index, by the first setter that fails. -/
def RmwCalls.failure (rmw : RmwCalls) (index : ℕ) : Option Thrown :=
  [Setter.topicType, .nodeName, .nodeNamespace, .endpointType, .qosProfile].findSome? fun setter =>
    if rmw.set index setter then none else some (.exception setter.failure)

section InfoByTopic

variable {endpointType : TopicEndpointType} {rmw : RmwCalls} {topics : List PbTopic}
  {topicName : String} {noMangle : Bool}

/-- The loop that has been there before has the same elements, or the same exception. -/
theorem transform_transformTopics (rmw : RmwCalls) (index : ℕ) (info : List TopicEndpointInfo) :
    match transformTopics rmw index info with
    | .ok entries =>
      transform (fun index topic => (transformTopic rmw index topic).mapError Thrown.exception)
        index info = (entries.map some, .ok ())
    | .error e =>
      (transform (fun index topic => (transformTopic rmw index topic).mapError Thrown.exception)
        index info).2 = .error (.exception e) := by
  induction info generalizing index with
  | nil => rfl
  | cons topic info ih =>
    have hrest := ih (index + 1)
    rw [transformTopics, transform]
    cases transformTopic rmw index topic with
    | error e => rfl
    | ok entry =>
      cases hentries : transformTopics rmw (index + 1) info with
      | error e =>
        rw [hentries] at hrest
        exact hrest
      | ok entries =>
        rw [hentries] at hrest
        exact congrArg (fun r => (some entry :: r.1, r.2)) hrest

theorem writeInfo_of_ok {info : List TopicEndpointInfo} {entries : List RmwTopicEndpointInfo}
    (h : transformToRmwTopicEndpointInfoArray rmw info = .ok entries) :
    writeInfo rmw info = (.array (entries.map some), .ok) := by
  rw [transformToRmwTopicEndpointInfoArray] at h
  split_ifs at h with hinit
  have hloop := transform_transformTopics rmw 0 info
  rw [h] at hloop
  rw [writeInfo, if_pos hinit, fillArray, hloop]
  rfl

theorem writeInfo_of_error {info : List TopicEndpointInfo} {e : Exception}
    (h : transformToRmwTopicEndpointInfoArray rmw info = .error e) :
    (writeInfo rmw info).2 = caught (.error (.exception e)) := by
  rw [transformToRmwTopicEndpointInfoArray] at h
  split_ifs at h with hinit
  · have hloop := transform_transformTopics rmw 0 info
    rw [h] at hloop
    rw [writeInfo, if_pos hinit, fillArray, hloop]
  · cases h
    rw [writeInfo, if_neg hinit]
    rfl

/-- **This is `rmwGetInfoByTopic`**, with what is written: what that returns is in the array, and
what it throws is how the call ends. -/
theorem writeInfoByTopic_eq :
    match rmwGetInfoByTopic endpointType rmw topics topicName noMangle with
    | .ok entries => writeInfoByTopic endpointType rmw topics topicName noMangle =
        (.array (entries.map some), .ok)
    | .error e => (writeInfoByTopic endpointType rmw topics topicName noMangle).2 =
        caught (.error (.exception e)) := by
  cases h : rmwGetInfoByTopic endpointType rmw topics topicName noMangle with
  | ok entries => exact writeInfo_of_ok h
  | error e => exact writeInfo_of_error h

/-- The array is initialised, and so many entries are filled in. -/
structure RmwCalls.Succeed (rmw : RmwCalls) (n : ℕ) : Prop where
  /-- `rmw_topic_endpoint_info_array_init_with_size`. -/
  init : rmw.initWithSize n = true
  /-- The setters. -/
  set : ∀ i < n, ∀ setter, rmw.set i setter = true

theorem writeInfo_failsAtomically_iff {zeroBefore : Bool} {info : List TopicEndpointInfo} :
    FailsAtomically (rmw.Succeed info.length) (Written.Unchanged zeroBefore)
        (some (writeInfo rmw info)) ↔
      rmw.Succeed info.length ∨ (rmw.initWithSize info.length = false ∧ zeroBefore = true) := by
  refine (fillArray_failsAtomically_iff fun h => if_pos h.init).trans ?_
  cases rmw.initWithSize info.length <;> simp

end InfoByTopic

/-! ## Node names -/

section NodeNames

variable {allocs : NodeNamesAllocations} {nodes : List NodeInfo}

/-- Both arrays are initialised, and so many names and namespaces are copied. -/
structure NodeNamesAllocations.Succeed (allocs : NodeNamesAllocations) (n : ℕ) : Prop where
  /-- `node_names`. -/
  names : allocs.initNames = true
  /-- `node_namespaces`. -/
  namespaces : allocs.initNamespaces = true
  strings : ∀ i < n, allocs.newName i = true ∧ allocs.newNamespace i = true

/-- Once `node_names` has been initialised, it stays so. -/
theorem writeNodeNames_array (h : allocs.initNames = true) (nodes : List NodeInfo) :
    ∃ names spaces ending, writeNodeNames allocs nodes = ((.array names, spaces), ending) := by
  rw [writeNodeNames, h]
  simp only [Bool.true_eq_false, if_false]
  split_ifs
  · exact ⟨_, _, _, rfl⟩
  · split <;> exact ⟨_, _, _, rfl⟩

theorem writeNodeNames_failsAtomically_iff {zeroBefore : Bool} :
    FailsAtomically (allocs.Succeed nodes.length)
        (fun written => written.1.Unchanged zeroBefore ∧ written.2.Unchanged zeroBefore)
        (some (writeNodeNames allocs nodes)) ↔
      allocs.Succeed nodes.length ∨ (allocs.initNames = false ∧ zeroBefore = true) := by
  cases hinit : allocs.initNames with
  | false =>
    have hfails : ¬ allocs.Succeed nodes.length := fun h => absurd (hinit ▸ h.names) nofun
    have heq : writeNodeNames allocs nodes =
        ((.zeroed, .nothing), .error .error "Failed to initialize node_names.") := if_pos hinit
    rw [heq, failsAtomically_error_iff hfails (Ending.isError_error _ _), or_iff_right hfails,
      and_iff_right rfl]
    exact and_iff_left trivial
  | true =>
    obtain ⟨names, spaces, ending, heq⟩ := writeNodeNames_array hinit nodes
    rw [heq]
    exact (failsAtomically_written_iff fun h => h.1).trans (or_iff_left fun h => nomatch h.1).symm

end NodeNames

/-! ## All nine -/

theorem rmwGetNodeNames_failsAtomically_iff {allocs : NodeNamesAllocations}
    {services : List (List Char)} {zeroBefore : Bool} :
    FailsAtomically (∃ nodes, getNodes services = some nodes ∧ allocs.Succeed nodes.length)
        (fun written => written.1.Unchanged zeroBefore ∧ written.2.Unchanged zeroBefore)
        (rmwGetNodeNames allocs services) ↔
      ∃ nodes, getNodes services = some nodes ∧
        (allocs.Succeed nodes.length ∨ (allocs.initNames = false ∧ zeroBefore = true)) := by
  obtain ⟨nodes, hnodes, -⟩ := exists_getNodes services
  rw [rmwGetNodeNames, hnodes]
  simp only [Option.some.injEq, exists_eq_left', Option.map_some]
  exact writeNodeNames_failsAtomically_iff

/-- **When the queries fail atomically.**  All of them do if nothing fails but the first
initialisation, and none does otherwise. -/
theorem queries_failAtomically_iff (zeroBefore : Bool) (remote : Remote) (allocs : Allocations)
    (nodeNamesAllocs : NodeNamesAllocations) (rmw : RmwCalls) (topics : List PbTopic)
    (services : List PbService) (nodeName nodeNamespace : List Char) (noDemangle : Bool)
    (endpointType : TopicEndpointType) (topicName : String) (noMangle : Bool) :
    (FailsAtomically (allocs.Succeed 1 (getTopics topics).length) (Written.Unchanged zeroBefore)
        (some (rmwGetTopicNamesAndTypes allocs topics noDemangle)) ↔
      allocs.Harmless zeroBefore 1 (getTopics topics).length) ∧
    (FailsAtomically (allocs.Succeed 2 (getServices services).length)
        (Written.Unchanged zeroBefore) (some (rmwGetServiceNamesAndTypes allocs services)) ↔
      allocs.Harmless zeroBefore 2 (getServices services).length) ∧
    (FailsAtomically (∃ subs, getSubscribers remote nodeNamespace nodeName = some subs ∧
          allocs.Succeed 1 subs.length) (Written.Unchanged zeroBefore)
        (rmwGetSubscriberNamesAndTypesByNode remote allocs nodeName nodeNamespace noDemangle) ↔
      ∃ subs, getSubscribers remote nodeNamespace nodeName = some subs ∧
        allocs.Harmless zeroBefore 1 subs.length) ∧
    (FailsAtomically (∃ pubs, getPublishers remote nodeNamespace nodeName = some pubs ∧
          allocs.Succeed 1 pubs.length) (Written.Unchanged zeroBefore)
        (rmwGetPublisherNamesAndTypesByNode remote allocs nodeName nodeNamespace noDemangle) ↔
      ∃ pubs, getPublishers remote nodeNamespace nodeName = some pubs ∧
        allocs.Harmless zeroBefore 1 pubs.length) ∧
    (FailsAtomically (∃ services, getNodeServices remote nodeNamespace nodeName = some services ∧
          allocs.Succeed 2 services.length) (Written.Unchanged zeroBefore)
        (rmwGetServiceNamesAndTypesByNode remote allocs nodeName nodeNamespace) ↔
      ∃ services, getNodeServices remote nodeNamespace nodeName = some services ∧
        allocs.Harmless zeroBefore 2 services.length) ∧
    (FailsAtomically (∃ clients, getClients remote nodeNamespace nodeName = some clients ∧
          allocs.Succeed 2 clients.length) (Written.Unchanged zeroBefore)
        (rmwGetClientNamesAndTypesByNode remote allocs nodeName nodeNamespace) ↔
      ∃ clients, getClients remote nodeNamespace nodeName = some clients ∧
        allocs.Harmless zeroBefore 2 clients.length) ∧
    (FailsAtomically (∃ nodes, getNodes (services.map PbService.sname) = some nodes ∧
          nodeNamesAllocs.Succeed nodes.length)
        (fun written => written.1.Unchanged zeroBefore ∧ written.2.Unchanged zeroBefore)
        (rmwGetNodeNames nodeNamesAllocs (services.map PbService.sname)) ↔
      ∃ nodes, getNodes (services.map PbService.sname) = some nodes ∧
        (nodeNamesAllocs.Succeed nodes.length ∨
          (nodeNamesAllocs.initNames = false ∧ zeroBefore = true))) ∧
    (FailsAtomically (rmw.Succeed (infoByTopic endpointType topics topicName noMangle).length)
        (Written.Unchanged zeroBefore)
        (some (writeInfoByTopic endpointType rmw topics topicName noMangle)) ↔
      rmw.Succeed (infoByTopic endpointType topics topicName noMangle).length ∨
        (rmw.initWithSize (infoByTopic endpointType topics topicName noMangle).length = false ∧
          zeroBefore = true)) :=
  ⟨fillEntries_failsAtomically_iff, fillEntries_failsAtomically_iff, fillFrom_failsAtomically_iff,
    fillFrom_failsAtomically_iff, fillFrom_failsAtomically_iff, fillFrom_failsAtomically_iff,
    rmwGetNodeNames_failsAtomically_iff, writeInfo_failsAtomically_iff⟩

/-- One service, and no memory for its types. -/
theorem rmwGetServiceNamesAndTypes_half :
    ¬ FailsAtomically (Allocations.Succeed { enoughMemory with initTypes := fun _ => false } 2
        (getServices [⟨['r', 's', '/', 'a'], [⟨['S'], ['Q'], ['R']⟩]⟩]).length)
      (Written.Unchanged true)
      (some (rmwGetServiceNamesAndTypes { enoughMemory with initTypes := fun _ => false }
        [⟨['r', 's', '/', 'a'], [⟨['S'], ['Q'], ['R']⟩]⟩])) := by
  intro h
  obtain ⟨written, ending, heq, -, hunchanged⟩ := h fun h => nomatch h.entries 0 (by decide)
  cases heq
  exact hunchanged

end Graph

end RmwEcal
