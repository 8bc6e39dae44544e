import Mathlib.Algebra.Order.BigOperators.Group.List
import Mathlib.Data.List.Perm.Basic
import RmwEcal.Shared.NamesAndTypes

/-!
# The two listings of services

For a service there is the name that it was created with and the one that eCAL knows, which may have
a prefix.  `rmw_get_service_names_and_types` has the second from the snapshot, with the name of the
method behind it, and takes the prefix off; `rmw_get_service_names_and_types_by_node` has the first
from the node, and tries to take a prefix off that, too.  As names begin with a slash, there is none
(`serviceElement_server`).

The rest is counting.  The snapshot also has the `_Ping` method of every service and the query
service of every node, `unlisted`.  Without those, the two listings have the same elements, as
often, if a call to a query service reaches the node that is meant.  Nothing keeps two nodes from
having the same namespace and name, though, and then their query services have the same name and the
first response is that of either.  The listings agree whichever it is **exactly if nodes with the
same query service list the same** (`rmwGetServiceNamesAndTypes_agrees_iff`).
-/

set_option autoImplicit false

namespace RmwEcal

namespace Graph

/-! ## Nodes and their services -/

/-- A `Service`, created with an absolute name. -/
structure NodeService where
  name : List Char
  /-- It is absolute. -/
  absolute : name.head? = some '/'
  /-- `avoid_ros_namespace_conventions` of the profile it is created with. -/
  avoidRosNamespaceConventions : Bool
  /-- `GetServiceSimpleName`. -/
  serviceSimpleName : List Char
  /-- `GetRequestMessageName`. -/
  requestMessageName : List Char
  /-- `GetResponseMessageName`. -/
  responseMessageName : List Char

namespace NodeService

/-- `service_name_prefix` of what `CreateServiceQOS` returns. -/
def namePrefix (service : NodeService) : List Char :=
  if service.avoidRosNamespaceConventions then [] else serviceNamePrefix

/-- `GetName`. -/
def getName (service : NodeService) : List Char :=
  service.name ++ ['/'] ++ service.serviceSimpleName

/-- The method of the service. -/
def method (service : NodeService) : PbMethod :=
  ⟨service.serviceSimpleName, service.requestMessageName, service.responseMessageName⟩

/-- The method for pings. -/
def pingMethod (service : NodeService) : PbMethod :=
  ⟨"_Ping".toList ++ service.serviceSimpleName, "Empty".toList, "Empty".toList⟩

/-- What the constructor creates and registers. -/
def server (service : NodeService) : PbService :=
  ⟨service.namePrefix ++ service.name, [service.method, service.pingMethod]⟩

/-- What `OnGetServices` puts into its answer. -/
def info (service : NodeService) : ServiceInfo :=
  ⟨service.getName, service.requestMessageName, service.responseMessageName⟩

end NodeService

/-- A `Node`, with its `services_` in the order of iteration. -/
structure Node where
  name : List Char
  nameSpace : List Char
  services : List NodeService

namespace Node

/-- `query_service_`, with what the constructor registers. -/
def queryService (node : Node) : PbService :=
  ⟨buildQueryServiceName node.nameSpace node.name,
    [⟨"GetSubscribers".toList, "Empty".toList, "Subscribers.pb".toList⟩,
      ⟨"GetPublishers".toList, "Empty".toList, "Publishers.pb".toList⟩,
      ⟨"GetServices".toList, "Empty".toList, "Services.pb".toList⟩,
      ⟨"GetClients".toList, "Empty".toList, "Clients.pb".toList⟩]⟩

/-- All its servers. -/
def servers (node : Node) : List PbService :=
  node.queryService :: node.services.map NodeService.server

/-- `OnGetServices`: what is serialised. -/
def onGetServices (node : Node) : List ServiceInfo := node.services.map NodeService.info

/-- The listing of the node. -/
def listing (node : Node) : List Entry := node.onGetServices.map serviceElement

/-- What is not in it: the query service and the pings. -/
def unlisted (node : Node) : List Entry :=
  (node.queryService.methods.map node.queryService.info).map serviceElement ++
    node.services.map fun service => serviceElement (service.server.info service.pingMethod)

end Node

/-- A snapshot lists every server once, and the methods that it registered. -/
def Lists (snapshot servers : List PbService) : Prop :=
  ∃ listed, snapshot.Perm listed ∧
    List.Forall₂ (fun service server =>
      service.sname = server.sname ∧ service.methods.Perm server.methods) listed servers

/-- Two nodes whose query services have the same name, as those of two nodes with the same namespace
and name have. -/
def SameQueryService (node other : Node) : Prop :=
  node.queryService.sname = other.queryService.sname

instance (node other : Node) : Decidable (SameQueryService node other) :=
  inferInstanceAs (Decidable (_ = _))

/-- The query service of the node is called, and the first response is that of a live node that has
it. -/
def Answered (call : List Char → List Char → CallResult) (serialize : List ServiceInfo → List UInt8)
    (nodes : List Node) (node : Node) : Prop :=
  ∃ other ∈ nodes, SameQueryService node other ∧ ∃ rest,
    call node.queryService.sname "GetServices".toList =
      ⟨true, serialize other.onGetServices :: rest⟩

/-- The node that answers for `node` where `one` answers for all that have the query service of
`common`, and everybody else for itself. -/
def standIn (common one node : Node) : Node := if SameQueryService common node then one else node

/-- The two listings, of which all calls succeed, agree: the global one is, in some order, what all
the nodes list and the entries that are not in their listings. -/
def Agree (remotes : Node → Remote) (allocs : Allocations) (nodeAllocs : Node → Allocations)
    (nodes : List Node) (snapshot : List PbService) : Prop :=
  ∃ (entries : List Entry) (entriesBy : Node → List Entry),
    rmwGetServiceNamesAndTypes allocs snapshot = (.array (entries.map some), .ok) ∧
    (∀ node ∈ nodes, rmwGetServiceNamesAndTypesByNode (remotes node) (nodeAllocs node) node.name
      node.nameSpace = some (.array ((entriesBy node).map some), .ok)) ∧
    entries.Perm (nodes.flatMap entriesBy ++ nodes.flatMap Node.unlisted)

/-! ## One service -/

/-- A prefix is taken off, and nothing else. -/
theorem demangleServiceName_absolute {name : List Char} (h : name.head? = some '/') :
    demangleServiceName (serviceNamePrefix ++ name) = name ∧ demangleServiceName name = name := by
  obtain ⟨rest, rfl⟩ := List.head?_eq_some_iff.mp h
  have hhead : ('/' :: rest).head? ≠ serviceNamePrefix.head? := by
    rw [List.head?_cons]
    decide
  exact ⟨demangle_prefixed rest, demangle_of_ne hhead (by decide)⟩

/-- **The mangled name and the one that was given are listed as the same.** -/
theorem serviceElement_server (service : NodeService) :
    serviceElement (service.server.info service.method) = serviceElement service.info := by
  have hname : service.getName.head? = some '/' := by
    rw [NodeService.getName, List.append_assoc, List.head?_append, service.absolute]
    rfl
  obtain ⟨hmangled, hgiven⟩ := demangleServiceName_absolute hname
  have hserver : demangleServiceName (service.namePrefix ++ service.getName) = service.getName := by
    rw [NodeService.namePrefix]
    split_ifs
    · exact hgiven
    · exact hmangled
  rw [serviceElement, serviceElement, PbService.info, NodeService.server, NodeService.info, hgiven,
    ← hserver]
  simp only [NodeService.getName, NodeService.method, List.append_assoc]

/-! ## All of them -/

/-- The entries that the servers make. -/
def entriesOf (servers : List PbService) : List Entry := (getServices servers).map serviceElement

theorem entriesOf_cons (server : PbService) (servers : List PbService) :
    entriesOf (server :: servers) =
      (server.methods.map server.info).map serviceElement ++ entriesOf servers := by
  rw [entriesOf, getServices, List.flatMap_cons, List.map_append]
  rfl

theorem entriesOf_flatMap {α : Type} (servers : α → List PbService) (as : List α) :
    entriesOf (as.flatMap servers) = as.flatMap fun a => entriesOf (servers a) := by
  rw [entriesOf, getServices, List.flatMap_assoc, List.map_flatMap]
  rfl

/-- The order of the snapshot makes no difference. -/
theorem Lists.entriesOf_perm {snapshot servers : List PbService} (h : Lists snapshot servers) :
    (entriesOf snapshot).Perm (entriesOf servers) := by
  obtain ⟨listed, hperm, hlisted⟩ := h
  refine ((hperm.flatMap_right _).map _).trans ?_
  clear hperm
  induction hlisted with
  | nil => exact .refl _
  | @cons service server listed servers hhead _ ih =>
    obtain ⟨hname, hmethods⟩ := hhead
    have hinfo : service.info = server.info := by
      funext method
      rw [PbService.info, PbService.info, hname]
    have hcons := entriesOf_cons service listed
    rw [hinfo] at hcons
    rw [entriesOf_cons]
    exact (List.Perm.of_eq hcons).trans (.append ((hmethods.map _).map _) ih)

/-- What the servers of a node make is what it lists and the rest. -/
theorem entriesOf_servers_perm (node : Node) :
    (entriesOf node.servers).Perm (node.listing ++ node.unlisted) := by
  -- a service makes two entries, and the first is the one that the node lists
  have hservices : entriesOf (node.services.map NodeService.server) =
      node.services.flatMap fun service => serviceElement service.info ::
        [serviceElement (service.server.info service.pingMethod)] := by
    rw [entriesOf, getServices, List.flatMap_map, List.map_flatMap]
    refine congrArg (fun f => node.services.flatMap f) (funext fun service => ?_)
    rw [← serviceElement_server]
    rfl
  have hperm := List.map_append_flatMap_perm node.services
    (fun service => serviceElement service.info)
    fun service => [serviceElement (service.server.info service.pingMethod)]
  rw [← hservices, ← List.map_eq_flatMap] at hperm
  have hlisting : node.listing = node.services.map fun service => serviceElement service.info :=
    List.map_map
  rw [Node.servers, entriesOf_cons, hlisting, Node.unlisted]
  exact (hperm.symm.append_left _).trans (List.perm_append_comm_assoc _ _ _)

/-- A node is listed as the one that answers. -/
theorem rmwGetServiceNamesAndTypesByNode_eq {remote : Remote}
    {serialize : List ServiceInfo → List UInt8} {allocs : Allocations} {node other : Node}
    {rest : List (List UInt8)}
    (hcall : remote.call node.queryService.sname "GetServices".toList =
      ⟨true, serialize other.onGetServices :: rest⟩)
    (hparse : remote.parseServices (serialize other.onGetServices) = (true, other.onGetServices))
    (hallocs : allocs.Succeed 2 other.services.length) :
    rmwGetServiceNamesAndTypesByNode remote allocs node.name node.nameSpace =
      some (.array (other.listing.map some), .ok) := by
  have hservices : getNodeServices remote node.nameSpace node.name = some other.onGetServices := by
    rw [Node.queryService] at hcall
    rw [getNodeServices, queryNode, hcall]
    exact congrArg some (congrArg Prod.snd hparse)
  have hlen : allocs.Succeed 2 other.onGetServices.length := by
    rw [Node.onGetServices, List.length_map]
    exact hallocs
  rw [rmwGetServiceNamesAndTypesByNode, hservices, Option.map_some, fillArray_services hlen]
  rfl

/-- Two ways to list many things that make the same list, and differ, if at all, in that one lists
`as` where the other lists `bs`: these are the same. -/
theorem perm_of_flatMap_perm {α β : Type} [DecidableEq β] {f g : α → List β} {xs : List α}
    {as bs : List β} (h : (xs.flatMap f).Perm (xs.flatMap g))
    (hcases : ∀ x ∈ xs, f x = as ∧ g x = bs ∨ f x = g x) (hsome : ∃ x ∈ xs, f x = as ∧ g x = bs) :
    as.Perm bs := by
  -- if one of them had something more often, so would the sum have it
  have hle : ∀ {f g : α → List β} {as bs : List β}, (xs.flatMap f).Perm (xs.flatMap g) →
      (∀ x ∈ xs, f x = as ∧ g x = bs ∨ f x = g x) → (∃ x ∈ xs, f x = as ∧ g x = bs) →
      ∀ b, bs.count b ≤ as.count b := by
    intro f g as bs h hcases hsome b
    by_contra hlt
    rw [not_le] at hlt
    have hsum := h.count_eq b
    rw [List.count_flatMap, List.count_flatMap] at hsum
    refine absurd hsum (List.sum_lt_sum _ _ (fun x hmem => ?_) ?_).ne
    · obtain ⟨hf, hg⟩ | heq := hcases x hmem
      · rw [Function.comp_apply, Function.comp_apply, hf, hg]
        exact hlt.le
      · rw [Function.comp_apply, Function.comp_apply, heq]
    · obtain ⟨x, hmem, hf, hg⟩ := hsome
      refine ⟨x, hmem, ?_⟩
      rw [Function.comp_apply, Function.comp_apply, hf, hg]
      exact hlt
  refine List.perm_iff_count.mpr fun b => le_antisymm ?_ (hle h hcases hsome b)
  refine hle h.symm (fun x hmem => ?_) ?_ b
  · exact (hcases x hmem).imp And.symm Eq.symm
  · obtain ⟨x, hmem, hf, hg⟩ := hsome
    exact ⟨x, hmem, hg, hf⟩

theorem standIn_mem {common one node : Node} {nodes : List Node} (hone : one ∈ nodes)
    (hsame : SameQueryService common one) (hnode : node ∈ nodes) :
    standIn common one node ∈ nodes ∧ SameQueryService node (standIn common one node) := by
  rw [standIn]
  split_ifs with h
  · exact ⟨hone, h.symm.trans hsame⟩
  · exact ⟨hnode, rfl⟩

section Agreement

variable {remote : Remote} {serialize : List ServiceInfo → List UInt8} {nodes : List Node}
  {snapshot : List PbService} {allocs : Allocations} {nodeAllocs : Node → Allocations}

/-- The listings agree if whoever answers for a node lists the same. -/
theorem agree_of_perm {remotes : Node → Remote} (answering : Node → Node)
    (hnodes : ∀ node ∈ nodes, rmwGetServiceNamesAndTypesByNode (remotes node) (nodeAllocs node)
      node.name node.nameSpace = some (.array ((answering node).listing.map some), .ok))
    (hsnapshot : Lists snapshot (nodes.flatMap Node.servers))
    (hallocs : allocs.Succeed 2 (getServices snapshot).length)
    (hperm :
      (nodes.flatMap Node.listing).Perm (nodes.flatMap fun node => (answering node).listing)) :
    Agree remotes allocs nodeAllocs nodes snapshot := by
  refine ⟨entriesOf snapshot, fun node => (answering node).listing, fillArray_services hallocs _,
    hnodes, ?_⟩
  refine hsnapshot.entriesOf_perm.trans ?_
  rw [entriesOf_flatMap]
  refine (List.Perm.flatMap_left _ fun node _ => entriesOf_servers_perm node).trans ?_
  exact (List.flatMap_append_perm _ _ _).symm.trans (hperm.append_right _)

/-- And only then. -/
theorem Agree.perm {remotes : Node → Remote} (answering : Node → Node)
    (h : Agree remotes allocs nodeAllocs nodes snapshot)
    (hnodes : ∀ node ∈ nodes, rmwGetServiceNamesAndTypesByNode (remotes node) (nodeAllocs node)
      node.name node.nameSpace = some (.array ((answering node).listing.map some), .ok))
    (hsnapshot : Lists snapshot (nodes.flatMap Node.servers))
    (hallocs : allocs.Succeed 2 (getServices snapshot).length) :
    (nodes.flatMap Node.listing).Perm (nodes.flatMap fun node => (answering node).listing) := by
  obtain ⟨entries, entriesBy, hentries, hby, hperm⟩ := h
  have hsome : Function.Injective (List.map (some : Entry → Option Entry)) :=
    List.map_injective_iff.mpr (Option.some_injective _)
  have hentries' : entries = entriesOf snapshot := by
    rw [rmwGetServiceNamesAndTypes, fillArray_services hallocs] at hentries
    exact (hsome (Written.array.inj (Prod.ext_iff.mp hentries).1)).symm
  have hby' : nodes.flatMap entriesBy = nodes.flatMap fun node => (answering node).listing := by
    refine List.flatMap_congr fun node hmem => ?_
    have heq := Option.some.inj ((hby node hmem).symm.trans (hnodes node hmem))
    exact hsome (Written.array.inj (Prod.ext_iff.mp heq).1)
  rw [hentries', hby'] at hperm
  have hall := hsnapshot.entriesOf_perm
  rw [entriesOf_flatMap] at hall
  have hsplit := hall.trans (List.Perm.flatMap_left _ fun node _ => entriesOf_servers_perm node)
  exact (List.perm_append_right_iff _).mp
    ((List.flatMap_append_perm _ _ _).trans (hsplit.symm.trans hperm))

/-- **When the two listings agree.**  They do whichever nodes answer, exactly if nodes with the same
query service list the same. -/
theorem rmwGetServiceNamesAndTypes_agrees_iff
    (hparse : ∀ node ∈ nodes,
      remote.parseServices (serialize node.onGetServices) = (true, node.onGetServices))
    (hsnapshot : Lists snapshot (nodes.flatMap Node.servers))
    (hallocs : allocs.Succeed 2 (getServices snapshot).length)
    (hnodeAllocs : ∀ node ∈ nodes, ∀ other ∈ nodes, SameQueryService node other →
      (nodeAllocs node).Succeed 2 other.services.length) :
    (∀ calls : Node → List Char → List Char → CallResult,
      (∀ node ∈ nodes, Answered (calls node) serialize nodes node) →
      Agree (fun node => { remote with call := calls node }) allocs nodeAllocs nodes snapshot) ↔
    ∀ node ∈ nodes, ∀ other ∈ nodes, SameQueryService node other →
      node.listing.Perm other.listing := by
  have hby : ∀ (calls : Node → List Char → List Char → CallResult) {node other : Node}
      {rest : List (List UInt8)}, node ∈ nodes → other ∈ nodes → SameQueryService node other →
      calls node node.queryService.sname "GetServices".toList =
        ⟨true, serialize other.onGetServices :: rest⟩ →
      rmwGetServiceNamesAndTypesByNode { remote with call := calls node } (nodeAllocs node)
        node.name node.nameSpace = some (.array (other.listing.map some), .ok) :=
    fun _ _ _ _ hnode hother hsame hcall => rmwGetServiceNamesAndTypesByNode_eq hcall
      (hparse _ hother) (hnodeAllocs _ hnode _ hother hsame)
  constructor
  · intro h a ha b hb hab
    -- one of `a` and `b` answers for both
    have hagree : ∀ one ∈ nodes, SameQueryService a one →
        (nodes.flatMap Node.listing).Perm
          (nodes.flatMap fun node => (standIn a one node).listing) := by
      intro one hone hsame
      let calls : Node → List Char → List Char → CallResult := fun node _ _ =>
        ⟨true, [serialize (standIn a one node).onGetServices]⟩
      have hmem : ∀ node ∈ nodes, standIn a one node ∈ nodes ∧
          SameQueryService node (standIn a one node) :=
        fun node hnode => standIn_mem hone hsame hnode
      have hcalls := h calls fun node hnode =>
        ⟨_, (hmem node hnode).1, (hmem node hnode).2, [], rfl⟩
      exact hcalls.perm (standIn a one) (fun node hnode => hby calls hnode (hmem node hnode).1
        (hmem node hnode).2 rfl) hsnapshot hallocs
    refine perm_of_flatMap_perm ((hagree a ha rfl).symm.trans (hagree b hb hab)) (fun node _ => ?_)
      ⟨a, ha, ?_⟩
    · by_cases hsame : SameQueryService a node
      · exact .inl ⟨by rw [standIn, if_pos hsame], by rw [standIn, if_pos hsame]⟩
      · exact .inr (by rw [standIn, standIn, if_neg hsame, if_neg hsame])
    · have hself : SameQueryService a a := rfl
      exact ⟨by rw [standIn, if_pos hself], by rw [standIn, if_pos hself]⟩
  · intro h calls hcalls
    have hchoice : ∀ node, ∃ other, node ∈ nodes → other ∈ nodes ∧ SameQueryService node other ∧
        ∃ rest, calls node node.queryService.sname "GetServices".toList =
          ⟨true, serialize other.onGetServices :: rest⟩ := by
      intro node
      by_cases hnode : node ∈ nodes
      · obtain ⟨other, hother⟩ := hcalls node hnode
        exact ⟨other, fun _ => hother⟩
      · exact ⟨node, fun h => absurd h hnode⟩
    choose answering hanswering using hchoice
    refine agree_of_perm answering (fun node hnode => ?_) hsnapshot hallocs
      (List.Perm.flatMap_left _ fun node hnode => ?_)
    · obtain ⟨hother, hsame, rest, hcall⟩ := hanswering node hnode
      exact hby calls hnode hother hsame hcall
    · exact h node hnode _ (hanswering node hnode).1 (hanswering node hnode).2.1

end Agreement

/-! ## Nodes with a service -/

/-- The node `/n` with the service `/a`. -/
def someNode : Node :=
  ⟨['n'], ['/'], [⟨['/', 'a'], rfl, false, ['S'], ['Q'], ['R']⟩]⟩

/-- Another with the same name, and no services. -/
def namesake : Node := { someNode with services := [] }

/-- What is serialised. -/
def someSerialize (services : List ServiceInfo) : List UInt8 :=
  if services = someNode.onGetServices then
    [10, 12, 10, 4, 47, 97, 47, 83, 18, 1, 82, 26, 1, 81]
  else []

/-- The node `/n` answers. -/
def someRemote : Remote where
  call serviceName method :=
    if serviceName = someNode.queryService.sname ∧ method = "GetServices".toList then
      ⟨true, [someSerialize someNode.onGetServices]⟩
    else ⟨false, []⟩
  parseSubscribers reply := (reply == [], [])
  parsePublishers reply := (reply == [], [])
  parseServices reply :=
    if reply = someSerialize someNode.onGetServices then (true, someNode.onGetServices)
    else (reply == [], [])
  parseClients reply := (reply == [], [])

/-- All servers, in another order. -/
theorem lists_reverse (servers : List PbService) : Lists servers.reverse servers :=
  ⟨servers, servers.reverse_perm, List.forall₂_same.mpr fun _ _ => ⟨rfl, .refl _⟩⟩

theorem rmwGetServiceNamesAndTypes_agrees_iff_one :
    (∀ calls : Node → List Char → List Char → CallResult,
      (∀ node ∈ [someNode], Answered (calls node) someSerialize [someNode] node) →
      Agree (fun node => { someRemote with call := calls node }) enoughMemory
        (fun _ => enoughMemory) [someNode] someNode.servers.reverse) ↔
    ∀ node ∈ [someNode], ∀ other ∈ [someNode], SameQueryService node other →
      node.listing.Perm other.listing :=
  rmwGetServiceNamesAndTypes_agrees_iff (List.forall_mem_singleton.mpr rfl)
    (lists_reverse someNode.servers) (enoughMemory_succeed _ _)
    fun _ _ _ _ _ => enoughMemory_succeed _ _

/-- A node of the same name that has no services: it is listed with those of the other, and the
listings of the nodes have one entry too many. -/
theorem rmwGetServiceNamesAndTypes_disagrees :
    (∀ node ∈ [someNode, namesake],
      Answered someRemote.call someSerialize [someNode, namesake] node) ∧
    (∀ node ∈ [someNode, namesake],
      someRemote.parseServices (someSerialize node.onGetServices) = (true, node.onGetServices)) ∧
    Lists (someNode.servers ++ namesake.servers) ([someNode, namesake].flatMap Node.servers) ∧
    ¬ Agree (fun _ => someRemote) enoughMemory (fun _ => enoughMemory) [someNode, namesake]
      (someNode.servers ++ namesake.servers) := by
  have hsnapshot : Lists (someNode.servers ++ namesake.servers)
      ([someNode, namesake].flatMap Node.servers) :=
    ⟨_, .refl _, List.forall₂_same.mpr fun _ _ => ⟨rfl, .refl _⟩⟩
  refine ⟨fun node hmem => ?_, ?_, hsnapshot, fun h => ?_⟩
  · obtain rfl | rfl := List.mem_pair.mp hmem
    · exact ⟨someNode, .head _, rfl, [], rfl⟩
    · exact ⟨someNode, .head _, rfl, [], rfl⟩
  · exact List.forall_mem_cons.mpr ⟨rfl, List.forall_mem_singleton.mpr rfl⟩
  · have hnodes : ∀ node ∈ [someNode, namesake],
        rmwGetServiceNamesAndTypesByNode someRemote enoughMemory node.name node.nameSpace =
          some (.array (someNode.listing.map some), .ok) :=
      List.forall_mem_cons.mpr ⟨rfl, List.forall_mem_singleton.mpr rfl⟩
    have hperm := h.perm (fun _ => someNode) hnodes hsnapshot
      (enoughMemory_succeed _ _)
    exact absurd hperm.length_eq (by decide)

end Graph

end RmwEcal
