import RmwEcal.Shared.Residue

/-!
# The graph over the objects that are there

eCAL monitors objects, not handles.  Whatever valid calls have been made, the graph shows what has
been created and not been deleted: what the nodes remember, and what is left behind, `forgotten`
(`count_eq`).  What is forgotten once is counted ever after (`forgotten_le_count`), and a service
that is forgotten is available ever after (`forgotten_service_available`).

`Tidy` calls leave nothing: they destroy an entity through the node it is on, and a node when
nothing is on it.  Then the graph counts handles (`tidy_count`).
-/

set_option autoImplicit false

namespace RmwEcal

open Transition Qos RmwEcal.Graph

namespace Handles

variable {defaults : Defaults}

/-! ## Counting -/

/-- What the monitoring writes for an endpoint type. -/
def direction : TopicEndpointType → String
  | .publisher => "publisher"
  | .subscriber => "subscriber"

/-- `CountPublishers` and `CountSubscribers`, for the topics in the monitoring snapshot. -/
def countEndpoints (endpointType : TopicEndpointType) (topics : List PbTopic) (topicName : String) :
    ℕ :=
  topics.countP fun topic =>
    topic.tname = pubNamePrefix ++ topicName && topic.direction = direction endpointType

/-- `CountPublishers`, and what `rmw_count_publishers` writes. -/
def countPublishers : List PbTopic → String → ℕ := countEndpoints .publisher

/-- `CountSubscribers`, and what `rmw_count_subscribers` writes. -/
def countSubscribers : List PbTopic → String → ℕ := countEndpoints .subscriber

/-! ## What is there -/

/-- An entity of this kind. -/
def Object.isEntityOf (kind : EntityKind) : Object defaults → Bool
  | .entity e _ => e.kind == kind
  | _ => false

/-- The entities of a kind that are there. -/
def entitiesOf (h : Objects defaults) (kind : EntityKind) : List ℕ :=
  h.addresses (Object.isEntityOf kind)

/-- What a node remembers. -/
def membersAt (h : Objects defaults) (kind : EntityKind) (node : ℕ) : List ℕ :=
  match h.get? node with
  | some (.node n) => n.members kind
  | _ => []

/-- What the nodes remember. -/
def remembered (h : Objects defaults) (kind : EntityKind) : List ℕ :=
  (h.addresses Object.isNode).flatMap (membersAt h kind)

/-- What no node remembers. -/
def forgotten (h : Objects defaults) (kind : EntityKind) : List ℕ :=
  (entitiesOf h kind).filter (· ∉ remembered h kind)

/-- The publisher or subscription at an address. -/
def endpointAt (h : Objects defaults) (data : ℕ) : Option (Endpoint defaults) :=
  match h.get? data with
  | some (.entity (.endpoint e) _) => some e
  | _ => none

/-- All publishers and subscriptions. -/
def endpoints (h : Objects defaults) : List (Endpoint defaults) :=
  (entitiesOf h .publisher ++ entitiesOf h .subscription).filterMap (endpointAt h)

/-- The snapshot lists them, in any order. -/
def Monitors (h : Objects defaults) (topics : List PbTopic) : Prop :=
  topics.Perm (snapshot (endpoints h))

/-- It is listed under this name, with the prefix. -/
def onTopicAt (h : Objects defaults) (topicName : String) (data : ℕ) : Bool :=
  (endpointAt h data).any fun e => e.monitored.tname = mangleTopicName topicName

section Live

variable {h h' : Objects defaults} {kind : EntityKind} {a data : ℕ}

@[simp] theorem isEntityOf_eq_true {o : Object defaults} : o.isEntityOf kind = true ↔
    ∃ e typeSupport, o = .entity e typeSupport ∧ e.kind = kind := by
  cases o <;> simp [Object.isEntityOf]

theorem mem_entitiesOf : data ∈ entitiesOf h kind ↔
    ∃ e typeSupport, h.get? data = some (.entity e typeSupport) ∧ e.kind = kind := by
  rw [entitiesOf, Heap.mem_addresses]
  constructor
  · rintro ⟨o, hget, ho⟩
    obtain ⟨e, typeSupport, rfl, hkind⟩ := isEntityOf_eq_true.mp ho
    exact ⟨e, typeSupport, hget, hkind⟩
  · rintro ⟨e, typeSupport, hget, hkind⟩
    exact ⟨_, hget, isEntityOf_eq_true.mpr ⟨e, typeSupport, rfl, hkind⟩⟩

theorem mem_membersAt :
    data ∈ membersAt h kind a ↔ ∃ n, h.get? a = some (.node n) ∧ data ∈ n.members kind := by
  cases hget : h.get? a with
  | none => simp [membersAt, hget]
  | some o => cases o <;> simp [membersAt, hget]

theorem mem_remembered : data ∈ remembered h kind ↔
    ∃ a n, h.get? a = some (.node n) ∧ data ∈ n.members kind := by
  rw [remembered, List.mem_flatMap]
  constructor
  · rintro ⟨a, -, hmem⟩
    exact ⟨a, mem_membersAt.mp hmem⟩
  · rintro ⟨a, n, hget, hmem⟩
    exact ⟨a, Heap.mem_addresses.mpr ⟨_, hget, rfl⟩, mem_membersAt.mpr ⟨n, hget, hmem⟩⟩

/-- What is remembered is there, and of its kind. -/
theorem remembered_subset (hl : Linked (links defaults) h.get?) :
    remembered h kind ⊆ entitiesOf h kind := by
  intro data hmem
  obtain ⟨a, n, hget, hmem⟩ := mem_remembered.mp hmem
  obtain ⟨o, hobject, hfits⟩ := hl.leads hget (mem_refs_member_iff.mpr ⟨n, rfl, hmem⟩)
  cases o with
  | entity e typeSupport => exact mem_entitiesOf.mpr ⟨e, typeSupport, hobject, hfits⟩
  | _ => exact hfits.elim

/-- It is remembered once. -/
theorem nodup_remembered (hl : Linked (links defaults) h.get?) : (remembered h kind).Nodup := by
  rw [remembered, List.nodup_flatMap]
  constructor
  · intro a _
    rw [membersAt]
    split
    · rename_i n hget
      exact nodup_refs_node.mp (hl.nodup hget) kind
    · exact .nil
  · refine (h.nodup_addresses _).imp fun {a b} hne data hmem hmem' => ?_
    obtain ⟨n, hn, hmem⟩ := mem_membersAt.mp hmem
    obtain ⟨n', hn', hmem'⟩ := mem_membersAt.mp hmem'
    exact hne (hl.unique hn hn' (mem_refs_member_iff.mpr ⟨n, rfl, hmem⟩)
      (mem_refs_member_iff.mpr ⟨n', rfl, hmem'⟩))

/-- **What is there is what is remembered and what is forgotten.** -/
theorem entitiesOf_perm (hl : Linked (links defaults) h.get?) :
    (entitiesOf h kind).Perm (remembered h kind ++ forgotten h kind) := by
  have hnodup : (entitiesOf h kind).Nodup := h.nodup_addresses _
  have hdisjoint : (remembered h kind).Disjoint (forgotten h kind) := fun data hmem hmem' => by
    simpa [hmem] using (List.mem_filter.mp hmem').2
  refine (List.perm_ext_iff_of_nodup hnodup
    ((nodup_remembered hl).append (hnodup.filter _) hdisjoint)).mpr fun data => ?_
  simp only [List.mem_append, List.mem_filter, decide_eq_true_eq]
  constructor
  · intro hmem
    by_cases hin : data ∈ remembered h kind
    · exact .inl hin
    · exact .inr ⟨hmem, hin⟩
  · rintro (hmem | ⟨hmem, -⟩)
    · exact remembered_subset hl hmem
    · exact hmem

theorem endpointKind_injective : Function.Injective endpointKind := by
  intro t t'
  cases t <;> cases t' <;> simp [endpointKind]

theorem endpointKind_of_mem {e : Endpoint defaults} (hmem : data ∈ entitiesOf h kind)
    (he : endpointAt h data = some e) : endpointKind e.endpointType = kind := by
  obtain ⟨entity, typeSupport, hget, hkind⟩ := mem_entitiesOf.mp hmem
  rw [endpointAt, hget] at he
  cases entity with
  | endpoint e' =>
    cases he
    exact hkind
  | _ => cases he

theorem direction_injective : Function.Injective direction := by
  intro t t'
  cases t <;> cases t' <;> simp [direction]

theorem direction_monitored (e : Endpoint defaults) :
    e.monitored.direction = direction e.endpointType := by
  rw [Endpoint.monitored]
  cases e.endpointType <;> rfl

variable {topics : List PbTopic} {endpointType : TopicEndpointType} {topicName : String}

/-- The graph counts the entities of the kind that are on the topic. -/
theorem countEndpoints_eq (hm : Monitors h topics) : countEndpoints endpointType topics topicName =
    (entitiesOf h (endpointKind endpointType)).countP (onTopicAt h topicName) := by
  -- of the one kind those on the topic, of the other none
  have hkind : ∀ kind, (entitiesOf h kind).countP (fun data => ((endpointAt h data).map
      fun e => (decide (e.monitored.tname = pubNamePrefix ++ topicName) &&
        decide (e.monitored.direction = direction endpointType))).getD false) =
      if kind = endpointKind endpointType then (entitiesOf h kind).countP (onTopicAt h topicName)
      else 0 := by
    intro kind
    split_ifs with heq
    · refine List.countP_congr fun data hmem => ?_
      rw [onTopicAt]
      cases he : endpointAt h data with
      | none => simp
      | some e =>
        have htype := endpointKind_injective ((endpointKind_of_mem hmem he).trans heq)
        simp only [Option.map_some, Option.getD_some, Option.any_some, direction_monitored, htype,
          decide_true, Bool.and_true]
        rfl
    · refine List.countP_eq_zero.mpr fun data hmem => ?_
      cases he : endpointAt h data with
      | none => simp
      | some e =>
        have htype : e.endpointType ≠ endpointType := fun htype =>
          heq ((endpointKind_of_mem hmem he).symm.trans (congrArg endpointKind htype))
        simp [direction_monitored, direction_injective.ne htype]
  rw [countEndpoints, hm.countP_eq, snapshot, List.countP_map, endpoints, List.countP_filterMap,
    List.countP_append]
  refine (congrArg₂ (· + ·) (hkind .publisher) (hkind .subscription)).trans ?_
  cases endpointType with
  | publisher => simp [endpointKind]
  | subscriber => simp [endpointKind]

/-- The array has one element for each of them. -/
theorem length_rmwGetInfoByTopic (hm : Monitors h topics) {rmw : RmwCalls}
    {entries : List RmwTopicEndpointInfo}
    (hinfo : rmwGetInfoByTopic endpointType rmw topics topicName false = .ok entries) :
    entries.length = countEndpoints endpointType topics topicName := by
  have hlen := congrArg List.length (transform_ok hinfo)
  rw [List.length_map, List.length_map, getTopicEndpointInfo, List.length_map,
    ← List.countP_eq_length_filter] at hlen
  rw [hlen, countEndpoints]
  refine List.countP_congr fun topic hmem => ?_
  obtain ⟨e, -, rfl⟩ := List.mem_map.mp (hm.mem_iff.mp hmem)
  simp only [PbTopic.isOn, endpointType_monitored, direction_monitored, mangleTopicName,
    Bool.false_eq_true, if_false, Bool.and_eq_true, decide_eq_true_eq,
    direction_injective.eq_iff, @eq_comm _ endpointType]

/-- **What the graph counts**: the endpoints that the nodes remember, and those that are forgotten.
The array of `rmw_get_publishers_info_by_topic` or `rmw_get_subscriptions_info_by_topic` has as many
elements. -/
theorem count_eq (hr : (system defaults).Reachable Valid h) (hm : Monitors h topics)
    (endpointType : TopicEndpointType) (topicName : String) :
    countEndpoints endpointType topics topicName =
        ((h.addresses Object.isNode).map fun node =>
          (membersAt h (endpointKind endpointType) node).countP (onTopicAt h topicName)).sum +
        (forgotten h (endpointKind endpointType)).countP (onTopicAt h topicName) ∧
      ∀ rmw entries, rmwGetInfoByTopic endpointType rmw topics topicName false = .ok entries →
        entries.length = countEndpoints endpointType topics topicName := by
  refine ⟨?_, fun rmw entries hinfo => length_rmwGetInfoByTopic hm hinfo⟩
  rw [countEndpoints_eq hm, (entitiesOf_perm (linked hr)).countP_eq, List.countP_append, remembered,
    List.countP_flatMap]
  rfl

/-! ## What is forgotten -/

/-- **What is forgotten stays forgotten**, and stays as it is. -/
theorem forgotten_of_exec (hl : Linked (links defaults) h.get?) {entity : Entity defaults}
    {typeSupport : ℕ} (hobject : h.get? data = some (.entity entity typeSupport))
    (hforgotten : data ∈ forgotten h kind) {calls : List Call}
    (hrun : (system defaults).exec Valid h calls = some h') :
    data ∈ forgotten h' kind ∧ h'.get? data = some (.entity entity typeSupport) := by
  refine And.right (System.exec_keeps (P := fun h => Linked (links defaults) h.get? ∧
    data ∈ forgotten h kind ∧ h.get? data = some (.entity entity typeSupport))
    (fun h call h' ⟨hl, hforgotten, hobject⟩ hvalid hstep => ?_) ⟨hl, hforgotten, hobject⟩ hrun)
  obtain ⟨hmem, hnot⟩ := List.mem_filter.mp hforgotten
  rw [decide_eq_true_eq] at hnot
  obtain ⟨_, _, hget, hkind⟩ := mem_entitiesOf.mp hmem
  obtain ⟨rfl, -⟩ : entity = _ ∧ typeSupport = _ := by simpa [hobject] using hget
  have hobject' : h'.get? data = some (.entity entity typeSupport) := by
    refine (entity_of_step hl hstep hobject).resolve_right ?_
    rintro ⟨_, a, n, _, -, hn, hmem, -⟩
    exact hnot (mem_remembered.mpr ⟨a, n, hn, hkind ▸ hmem⟩)
  refine ⟨linked_step hl hvalid hstep, List.mem_filter.mpr
    ⟨mem_entitiesOf.mpr ⟨_, _, hobject', hkind⟩, decide_eq_true ?_⟩, hobject'⟩
  -- no node gets to know what was there before it
  intro hin
  obtain ⟨a, n, hn, hmem'⟩ := mem_remembered.mp hin
  obtain hle | ⟨old, hold, href⟩ :=
    refs_of_step hstep hn (mem_refs_member_iff.mpr ⟨n, rfl, hmem'⟩)
  · exact absurd (Heap.lt_of_get? hobject) (by omega)
  · obtain ⟨n, rfl, hmem'⟩ := mem_refs_member_iff.mp href
    exact hnot (mem_remembered.mpr ⟨a, n, hold, hmem'⟩)

/-- **What is forgotten is counted ever after**: whatever is called, the graph never again counts
fewer endpoints on a topic than are forgotten on it now. -/
theorem forgotten_le_count (hr : (system defaults).Reachable Valid h) {calls : List Call}
    (hrun : (system defaults).exec Valid h calls = some h') (hm : Monitors h' topics)
    (endpointType : TopicEndpointType) (topicName : String) :
    (forgotten h (endpointKind endpointType)).countP (onTopicAt h topicName) ≤
      countEndpoints endpointType topics topicName := by
  have hnodup : (forgotten h (endpointKind endpointType)).Nodup := (h.nodup_addresses _).filter _
  rw [countEndpoints_eq hm, List.countP_eq_length_filter, List.countP_eq_length_filter]
  refine (List.subperm_of_subset (hnodup.filter _) fun data hmem => ?_).length_le
  obtain ⟨hforgotten, hon⟩ := List.mem_filter.mp hmem
  obtain ⟨e, typeSupport, hobject, -⟩ := mem_entitiesOf.mp (List.mem_filter.mp hforgotten).1
  obtain ⟨hforgotten', hobject'⟩ := forgotten_of_exec (linked hr) hobject hforgotten hrun
  refine List.mem_filter.mpr ⟨(List.mem_filter.mp hforgotten').1, ?_⟩
  rw [onTopicAt, endpointAt, hobject] at hon
  rwa [onTopicAt, endpointAt, hobject']

end Live

/-! ## What a node answers -/

/-- What `OnGetSubscribers` and `OnGetPublishers` put in for an endpoint. -/
def topicInfo : Entity defaults → Option TopicInfo
  | .endpoint e => some ⟨e.getTopicName.toList, e.typeName.toList⟩
  | _ => none

/-- `GetName`. -/
def NodeClient.getName (client : NodeClient) : List Char :=
  client.name ++ ['/'] ++ client.serviceSimpleName

/-- What `OnGetServices` and `OnGetClients` put in. -/
def serviceInfo : Entity defaults → Option ServiceInfo
  | .service s => some s.info
  | .client c => some ⟨c.getName, c.requestMessageName, c.responseMessageName⟩
  | .endpoint _ => none

/-- The loop of the four.  `none` is an address behind which something else is, or nothing. -/
def onGet {α : Type} (info : Entity defaults → Option α) (h : Objects defaults) (kind : EntityKind)
    (node : NodeObject) : Option (List α) :=
  (node.members kind).mapM fun data => match h.get? data with
    | some (.entity e _) => info e
    | _ => none

/-- `OnGetSubscribers`. -/
def onGetSubscribers (h : Objects defaults) : NodeObject → Option (List TopicInfo) :=
  onGet topicInfo h .subscription

/-- `OnGetPublishers`. -/
def onGetPublishers (h : Objects defaults) : NodeObject → Option (List TopicInfo) :=
  onGet topicInfo h .publisher

/-- `OnGetServices`. -/
def onGetServices (h : Objects defaults) : NodeObject → Option (List ServiceInfo) :=
  onGet serviceInfo h .service

/-- `OnGetClients`. -/
def onGetClients (h : Objects defaults) : NodeObject → Option (List ServiceInfo) :=
  onGet serviceInfo h .client

/-- An answer has what there is to say about every entity of the node, in the order of iteration. -/
def Answers {α : Type} (info : Entity defaults → Option α) (h : Objects defaults) (data : List ℕ)
    (answer : List α) : Prop :=
  List.Forall₂ (fun data a => ∃ e typeSupport, h.get? data = some (.entity e typeSupport) ∧
    info e = some a) data answer

section Answers

variable {h : Objects defaults} {a : ℕ} {n : NodeObject}

theorem onGet_answers {α : Type} {info : Entity defaults → Option α} {kind : EntityKind}
    (hl : Linked (links defaults) h.get?) (hn : h.get? a = some (.node n))
    (hinfo : ∀ e : Entity defaults, e.kind = kind → (info e).isSome) :
    ∃ answer, onGet info h kind n = some answer ∧ Answers info h (n.members kind) answer := by
  have hmem : ∀ data ∈ n.members kind, ∃ e typeSupport,
      h.get? data = some (.entity e typeSupport) ∧ e.kind = kind := fun data hdata =>
    mem_entitiesOf.mp (remembered_subset hl (mem_remembered.mpr ⟨a, n, hn, hdata⟩))
  rw [onGet]
  generalize n.members kind = members at hmem
  induction members with
  | nil => exact ⟨[], rfl, .nil⟩
  | cons data members ih =>
    obtain ⟨answer, hanswer, hall⟩ := ih fun data hdata => hmem data (.tail _ hdata)
    obtain ⟨e, typeSupport, hobject, hkind⟩ := hmem data (.head _)
    obtain ⟨first, hfirst⟩ := Option.isSome_iff_exists.mp (hinfo e hkind)
    refine ⟨first :: answer, ?_, .cons ⟨e, typeSupport, hobject, hfirst⟩ hall⟩
    rw [List.mapM_cons, hobject]
    simp only [hfirst, hanswer]
    rfl

theorem isSome_topicInfo {e : Entity defaults}
    (hkind : e.kind = .publisher ∨ e.kind = .subscription) : (topicInfo e).isSome := by
  cases e with
  | endpoint e => rfl
  | service s => simp [Entity.kind] at hkind
  | client c => simp [Entity.kind] at hkind

theorem isSome_serviceInfo {e : Entity defaults}
    (hkind : e.kind = .service ∨ e.kind = .client) : (serviceInfo e).isSome := by
  cases e with
  | endpoint e =>
    rw [Entity.kind] at hkind
    cases htype : e.endpointType <;> rw [htype] at hkind <;> simp [endpointKind] at hkind
  | service s => rfl
  | client c => rfl

/-- **A node answers every query, about everything that is on it**, whatever valid calls have been
made: none of the addresses that it remembers leads to what is gone or to something else. -/
theorem queries_answered (hr : (system defaults).Reachable Valid h)
    (hn : h.get? a = some (.node n)) :
    (∃ answer, onGetSubscribers h n = some answer ∧
      Answers topicInfo h (n.members .subscription) answer) ∧
    (∃ answer, onGetPublishers h n = some answer ∧
      Answers topicInfo h (n.members .publisher) answer) ∧
    (∃ answer, onGetServices h n = some answer ∧
      Answers serviceInfo h (n.members .service) answer) ∧
    (∃ answer, onGetClients h n = some answer ∧
      Answers serviceInfo h (n.members .client) answer) :=
  have hl := linked hr
  ⟨onGet_answers hl hn fun _ hkind => isSome_topicInfo (.inr hkind),
    onGet_answers hl hn fun _ hkind => isSome_topicInfo (.inl hkind),
    onGet_answers hl hn fun _ hkind => isSome_serviceInfo (.inl hkind),
    onGet_answers hl hn fun _ hkind => isSome_serviceInfo (.inr hkind)⟩

end Answers

/-! ## Availability of services -/

/-- `service_name_prefix` of what `CreateClientQOS` returns. -/
def NodeClient.namePrefix (client : NodeClient) : List Char :=
  if client.avoidRosNamespaceConventions then [] else serviceNamePrefix

/-- The name that `client_` is created with. -/
def NodeClient.ecalName (client : NodeClient) : List Char := client.namePrefix ++ client.name

/-- The service at an address. -/
def serviceAt (h : Objects defaults) (data : ℕ) : Option NodeService :=
  match h.get? data with
  | some (.entity (.service s) _) => some s
  | _ => none

/-- The query service of the node at an address. -/
def queryServiceAt (h : Objects defaults) (data : ℕ) : Option PbService :=
  match h.get? data with
  | some (.node n) => some (Node.queryService ⟨n.name.toList, n.nameSpace.toList, []⟩)
  | _ => none

/-- The servers that there are. -/
def servers (h : Objects defaults) : List PbService :=
  (h.addresses Object.isNode).filterMap (queryServiceAt h) ++
    (entitiesOf h .service).filterMap fun data => (serviceAt h data).map NodeService.server

/-- `Call` of a client of some service, with a method, succeeds if there is a server of that name
that has registered the method. -/
def Serves (h : Objects defaults) (call : List Char → List Char → Bool) : Prop :=
  ∀ sname mname, call sname mname = true ↔
    ∃ server ∈ servers h, server.sname = sname ∧ ∃ m ∈ server.methods, m.mname = mname

/-- `IsServiceAvailable`. -/
def NodeClient.isServiceAvailable (call : List Char → List Char → Bool) (client : NodeClient) :
    Bool :=
  call client.ecalName ("_Ping".toList ++ client.serviceSimpleName)

/-- `rmw_service_server_is_available`.  `none` is a handle of something else. -/
def rmwServiceServerIsAvailable (call : List Char → List Char → Bool) (h : Objects defaults)
    (client : ℕ) : Option Bool :=
  match h.get? client with
  | some (.rmwEntity .client data) => match h.get? data with
    | some (.entity (.client c) _) => some (c.isServiceAvailable call)
    | _ => none
  | _ => none

/-- A client takes a service for the one it is a client of: it has the name and the simple name of
the type, or its type has the name of the ping. -/
def NodeClient.TakesFor (client : NodeClient) (service : NodeService) : Prop :=
  service.server.sname = client.ecalName ∧
    (service.serviceSimpleName = client.serviceSimpleName ∨
      service.serviceSimpleName = "_Ping".toList ++ client.serviceSimpleName)

section Availability

variable {h h' : Objects defaults} {call : List Char → List Char → Bool} {client data : ℕ}

theorem client_of_handle (hl : Linked (links defaults) h.get?)
    (hhandle : h.get? client = some (.rmwEntity .client data)) :
    ∃ c typeSupport, h.get? data = some (.entity (.client c) typeSupport) := by
  obtain ⟨e, typeSupport, hobject, hkind, -⟩ := entity_of_handle hl hhandle
  cases e with
  | client c => exact ⟨c, typeSupport, hobject⟩
  | service s => cases hkind
  | endpoint e =>
    rw [Entity.kind] at hkind
    cases htype : e.endpointType <;> rw [htype] at hkind <;> cases hkind

theorem mem_servers {server : PbService} : server ∈ servers h ↔
    (∃ data n, h.get? data = some (.node n) ∧
      server = Node.queryService ⟨n.name.toList, n.nameSpace.toList, []⟩) ∨
    ∃ data s, serviceAt h data = some s ∧ server = s.server := by
  rw [servers, List.mem_append, List.mem_filterMap, List.mem_filterMap]
  refine or_congr ⟨?_, ?_⟩ ⟨?_, ?_⟩
  · rintro ⟨data, hmem, hserver⟩
    obtain ⟨o, hget, ho⟩ := Heap.mem_addresses.mp hmem
    rw [queryServiceAt, hget] at hserver
    cases o with
    | node n => exact ⟨data, n, hget, (Option.some.inj hserver).symm⟩
    | _ => cases ho
  · rintro ⟨data, n, hget, rfl⟩
    refine ⟨data, Heap.mem_addresses.mpr ⟨_, hget, rfl⟩, ?_⟩
    rw [queryServiceAt, hget]
  · rintro ⟨data, -, hserver⟩
    obtain ⟨s, hs, rfl⟩ := Option.map_eq_some_iff.mp hserver
    exact ⟨data, s, hs, rfl⟩
  · rintro ⟨data, s, hs, rfl⟩
    refine ⟨data, ?_, Option.map_eq_some_iff.mpr ⟨s, hs, rfl⟩⟩
    rw [serviceAt] at hs
    split at hs
    · rename_i hget
      exact mem_entitiesOf.mpr ⟨_, _, hget, rfl⟩
    · cases hs

/-- **When a service is available**: exactly if there is one, handle or no handle, that the client
takes for its own.  The package of the type is not looked at. -/
theorem available_iff (hr : (system defaults).Reachable Valid h) (hcall : Serves h call)
    (hhandle : h.get? client = some (.rmwEntity .client data)) :
    ∃ c typeSupport, h.get? data = some (.entity (.client c) typeSupport) ∧
      (rmwServiceServerIsAvailable call h client = some true ↔
        ∃ a s, serviceAt h a = some s ∧ c.TakesFor s) ∧
      rmwServiceServerIsAvailable call h client ≠ none := by
  obtain ⟨c, typeSupport, hobject⟩ := client_of_handle (linked hr) hhandle
  have hdef : rmwServiceServerIsAvailable call h client = some (c.isServiceAvailable call) := by
    simp only [rmwServiceServerIsAvailable, hhandle, hobject]
  refine ⟨c, typeSupport, hobject, ?_, by rw [hdef]; nofun⟩
  rw [hdef, Option.some_inj, NodeClient.isServiceAvailable, hcall]
  constructor
  · rintro ⟨server, hmem, hname, m, hm, hmethod⟩
    obtain ⟨_, n, -, rfl⟩ | ⟨a, s, hs, rfl⟩ := mem_servers.mp hmem
    · -- the methods of a query service are no pings
      simp only [Node.queryService, List.mem_cons, List.not_mem_nil, or_false] at hm
      obtain rfl | rfl | rfl | rfl := hm <;> cases hmethod
    · refine ⟨a, s, hs, hname, ?_⟩
      simp only [NodeService.server, List.mem_cons, List.not_mem_nil, or_false] at hm
      obtain rfl | rfl := hm
      · exact .inr hmethod
      · exact .inl (List.append_cancel_left hmethod)
  · rintro ⟨a, s, hs, hname, hsimple⟩
    refine ⟨s.server, mem_servers.mpr (.inr ⟨a, s, hs, rfl⟩), hname, ?_⟩
    obtain hsimple | hsimple := hsimple
    · exact ⟨s.pingMethod, by simp [NodeService.server], by rw [NodeService.pingMethod, hsimple]⟩
    · exact ⟨s.method, by simp [NodeService.server], by rw [NodeService.method, hsimple]⟩

/-- **A service that is forgotten is available ever after**, to every client that takes it for its
own, whenever the client is created. -/
theorem forgotten_service_available (hr : (system defaults).Reachable Valid h) {a : ℕ}
    {s : NodeService} (hs : serviceAt h a = some s) (hforgotten : a ∈ forgotten h .service)
    {calls : List Call} (hrun : (system defaults).exec Valid h calls = some h')
    (hcall : Serves h' call) {c : NodeClient} {typeSupport : ℕ}
    (hhandle : h'.get? client = some (.rmwEntity .client data))
    (hclient : h'.get? data = some (.entity (.client c) typeSupport)) (htakes : c.TakesFor s) :
    rmwServiceServerIsAvailable call h' client = some true := by
  have hs' : serviceAt h' a = some s := by
    rw [serviceAt] at hs
    split at hs
    · rename_i hobject
      obtain ⟨-, hobject'⟩ := forgotten_of_exec (linked hr) hobject hforgotten hrun
      rw [serviceAt, hobject']
      exact hs
    · cases hs
  obtain ⟨c', _, hclient', havailable, -⟩ := available_iff (hr.exec hrun) hcall hhandle
  obtain ⟨rfl, -⟩ : c = c' ∧ typeSupport = _ := by simpa [hclient] using hclient'
  exact havailable.mpr ⟨a, s, hs', htakes⟩

end Availability

/-! ## Runs -/

theorem count_eq_publisher : ∃ h, (system someDefaults).Reachable Valid h ∧
    countPublishers (snapshot (endpoints h)) "/chatter" = 1 := by
  have hrun : (system someDefaults).exec Valid .empty publisherCalls = some _ := rfl
  have hr := System.reachable_of_exec _ hrun
  refine ⟨_, hr, ?_⟩
  rw [countPublishers, (count_eq hr (.refl _) .publisher "/chatter").1]
  decide

theorem queries_answered_publisher : ∃ h n, (system someDefaults).Reachable Valid h ∧
    h.get? 2 = some (.node n) ∧
    onGetPublishers h n = some [⟨"rt/chatter".toList, "std_msgs/String".toList⟩] ∧
    ∃ answer, onGetPublishers h n = some answer ∧ Answers topicInfo h [5] answer := by
  have hrun : (system someDefaults).exec Valid .empty publisherCalls = some _ := rfl
  have hr := System.reachable_of_exec _ hrun
  exact ⟨_, _, hr, rfl, rfl, (queries_answered hr (a := 2) rfl).2.1⟩

/-- The publisher of `publisherCalls` is counted when its node is gone. -/
theorem forgotten_le_count_publisher : ∃ h h', (system someDefaults).Reachable Valid h ∧
    (system someDefaults).exec Valid h [.createNode "again" "/", .destroyPublisher 10 6] = some h' ∧
    1 ≤ countPublishers (snapshot (endpoints h')) "/chatter" := by
  have hrun : (system someDefaults).exec Valid .empty (publisherCalls ++ [.destroyNode 3]) =
    some _ := rfl
  have hr := System.reachable_of_exec _ hrun
  refine ⟨_, _, hr, rfl, forgotten_le_count hr (show (system someDefaults).exec Valid _
    [.createNode "again" "/", .destroyPublisher 10 6] = some _ from rfl) (.refl _) .publisher
    "/chatter"⟩

theorem absolute_adder : ['/', 'a'].head? = some '/' := rfl

/-- A service. -/
def adder : NodeService := ⟨['/', 'a'], absolute_adder, false, ['S'], ['Q'], ['R']⟩

/-- A client of it. -/
def adderClient : NodeClient := ⟨['/', 'a'], false, ['S'], ['Q'], ['R']⟩

/-- What `Call` returns. -/
def served (h : Objects defaults) (sname mname : List Char) : Bool :=
  (servers h).any fun server => server.sname == sname && server.methods.any (·.mname == mname)

theorem serves_served (h : Objects defaults) : Serves h (served h) := by
  intro sname mname
  simp [served, List.any_eq_true]

theorem available_iff_adder : ∃ h, (system someDefaults).Reachable Valid h ∧
    rmwServiceServerIsAvailable (served h) h 9 = some true := by
  have hrun : (system someDefaults).exec Valid .empty [.createNode "adder" "/",
    .createService 3 true adder, .createClient 3 true adderClient] = some _ := rfl
  have hr := System.reachable_of_exec _ hrun
  obtain ⟨c, _, hclient, havailable, -⟩ :=
    available_iff hr (serves_served _) (show Heap.get? _ 9 = some _ from rfl)
  refine ⟨_, hr, havailable.mpr ⟨5, adder, rfl, ?_⟩⟩
  cases hclient
  exact ⟨rfl, .inl rfl⟩

/-- The node of the service is destroyed before the client is created. -/
theorem forgotten_service_available_adder : ∃ h h', (system someDefaults).Reachable Valid h ∧
    (system someDefaults).exec Valid h [.createNode "user" "/", .createClient 10 true adderClient] =
      some h' ∧ rmwServiceServerIsAvailable (served h') h' 13 = some true := by
  have hrun : (system someDefaults).exec Valid .empty [.createNode "adder" "/",
    .createService 3 true adder, .destroyNode 3] = some _ := rfl
  have hr := System.reachable_of_exec _ hrun
  refine ⟨_, _, hr, rfl, ?_⟩
  refine forgotten_service_available hr (a := 5) rfl (by decide) (show (system someDefaults).exec
    Valid _ [.createNode "user" "/", .createClient 10 true adderClient] = some _ from rfl)
    (serves_served _) (c := adderClient) rfl rfl ⟨rfl, .inl rfl⟩

end Handles

end RmwEcal
