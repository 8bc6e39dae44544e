import Mathlib.Data.List.Forall2
import RmwEcal.Codec.Text

/-!
# Nodes in the graph

A node announces itself by a service whose name has its namespace and its name in it,
`buildQueryServiceName`, and `getNodes` takes the names of all such services apart again.

The two only fit together for nodes in the root namespace.  `GetNodes` cuts the namespace out of the
service name up to and including the last slash; in the root namespace that slash is the namespace,
in any other it is one too many.
-/

set_option autoImplicit false

namespace RmwEcal

open Codec

namespace Graph

/-! ## Names -/

/-- `service_name_prefix`. -/
def serviceNamePrefix : List Char := ['r', 's']

/-- `private_symbol_prefix`. -/
def privateSymbolPrefix : List Char := ['_']

/-- `node_query_service_prefix`. -/
def nodeQueryServicePrefix : List Char :=
  serviceNamePrefix ++ ['/'] ++ (privateSymbolPrefix ++ ['n', 'o', 'd', 'e'])

/-- `BuildQueryServiceName`. -/
def buildQueryServiceName (nameSpace name : List Char) : List Char :=
  if nameSpace = ['/'] then nodeQueryServicePrefix ++ nameSpace ++ name
  else nodeQueryServicePrefix ++ nameSpace ++ ['/'] ++ name

/-- `NodeInfo`. -/
structure NodeInfo where
  name : List Char
  nameSpace : List Char
  deriving DecidableEq, Repr

/-- The body of the loop in `GetNodes`: the node that a service stands for.  `none` is an exception
from `substr`. -/
def nodeOfService (serviceName : List Char) : Option NodeInfo := do
  let nameBegin := afterLast '/' serviceName
  let name ← substr serviceName nameBegin none
  let nameSpace ← substr serviceName nodeQueryServicePrefix.length
    (some (sizeSub nameBegin nodeQueryServicePrefix.length))
  some ⟨name, nameSpace⟩

/-- `GetNodes`, for the names of the services in the monitoring snapshot. -/
def getNodes : List (List Char) → Option (List NodeInfo)
  | [] => some []
  | serviceName :: services =>
    if nodeQueryServicePrefix.isPrefixOf serviceName then do
      let node ← nodeOfService serviceName
      let nodes ← getNodes services
      some (node :: nodes)
    else getNodes services

/-! ## What `GetNodes` makes of a service -/

/-- A service name with a slash behind the prefix: the name begins after the last one, and the
namespace ends with it. -/
theorem nodeOfService_slash {path name : List Char} (h : '/' ∉ name) :
    nodeOfService (nodeQueryServicePrefix ++ (path ++ '/' :: name)) =
      some ⟨name, path ++ ['/']⟩ := by
  have hafter : afterLast '/' (nodeQueryServicePrefix ++ (path ++ '/' :: name)) =
      (nodeQueryServicePrefix ++ (path ++ ['/'])).length := by
    rw [← List.append_assoc, afterLast_append h]
    simp only [List.length_append, List.length_singleton]
    omega
  have hname : nodeQueryServicePrefix ++ (path ++ '/' :: name) =
      (nodeQueryServicePrefix ++ (path ++ ['/'])) ++ name := by simp
  have hpath : (path ++ '/' :: name).take (path ++ ['/']).length = path ++ ['/'] := by
    rw [show path ++ '/' :: name = (path ++ ['/']) ++ name by simp, List.take_left]
  have hsub : sizeSub (nodeQueryServicePrefix ++ (path ++ ['/'])).length
      nodeQueryServicePrefix.length = (path ++ ['/']).length := by
    rw [List.length_append, sizeSub, if_pos (Nat.le_add_right _ _), Nat.add_sub_cancel_left]
  rw [nodeOfService, hafter, hsub, substr_count, hpath, hname, substr_rest]
  rfl

/-- A service name without one: everything after the slash in the prefix is taken for the name. -/
theorem nodeOfService_no_slash {rest : List Char} (h : '/' ∉ rest) :
    ∃ nameSpace, '/' ∉ nameSpace ∧ nodeOfService (nodeQueryServicePrefix ++ rest) =
      some ⟨privateSymbolPrefix ++ ['n', 'o', 'd', 'e'] ++ rest, nameSpace⟩ := by
  have hsplit : nodeQueryServicePrefix ++ rest =
      serviceNamePrefix ++ '/' :: (privateSymbolPrefix ++ ['n', 'o', 'd', 'e'] ++ rest) := rfl
  have hlast : '/' ∉ privateSymbolPrefix ++ ['n', 'o', 'd', 'e'] ++ rest := by
    simpa [privateSymbolPrefix] using h
  have hafter : afterLast '/' (nodeQueryServicePrefix ++ rest) =
      (serviceNamePrefix ++ ['/']).length := by
    rw [hsplit, afterLast_append hlast]
    rfl
  refine ⟨rest.take (sizeSub (serviceNamePrefix ++ ['/']).length nodeQueryServicePrefix.length),
    fun hmem => h (List.mem_of_mem_take hmem), ?_⟩
  rw [nodeOfService, hafter, substr_count, nodeQueryServicePrefix, List.append_assoc, substr_rest]
  rfl

theorem buildQueryServiceName_root (name : List Char) :
    buildQueryServiceName ['/'] name = nodeQueryServicePrefix ++ '/' :: name := by
  rw [buildQueryServiceName, if_pos rfl, List.append_assoc, List.singleton_append]

theorem buildQueryServiceName_of_ne {nameSpace : List Char} (h : nameSpace ≠ ['/'])
    (name : List Char) : buildQueryServiceName nameSpace name =
      nodeQueryServicePrefix ++ (nameSpace ++ '/' :: name) := by
  rw [buildQueryServiceName, if_neg h, List.append_assoc, List.append_assoc, List.singleton_append]

/-- **Building a service name again from what `GetNodes` has made of it** works for the nodes in the
root namespace only. -/
theorem rebuild_iff {serviceName : List Char} (h : nodeQueryServicePrefix <+: serviceName) :
    ∃ node, nodeOfService serviceName = some node ∧
      (buildQueryServiceName node.nameSpace node.name = serviceName ↔
        ∃ name, '/' ∉ name ∧ serviceName = buildQueryServiceName ['/'] name) := by
  obtain ⟨rest, rfl⟩ := h
  by_cases hrest : '/' ∈ rest
  · obtain ⟨path, name, rfl, hname⟩ := exists_last hrest
    refine ⟨_, nodeOfService_slash hname, ?_⟩
    by_cases hpath : path = []
    · subst hpath
      exact ⟨fun _ => ⟨name, hname, (buildQueryServiceName_root name).symm⟩,
        fun _ => buildQueryServiceName_root name⟩
    · have hne : path ++ ['/'] ≠ ['/'] := by simpa using hpath
      rw [buildQueryServiceName_of_ne hne]
      refine ⟨fun heq => ?_, ?_⟩
      · have hlen := congrArg List.length heq
        simp only [List.length_append, List.length_cons, List.length_nil] at hlen
        omega
      · rintro ⟨name', hname', heq⟩
        rw [buildQueryServiceName_root, List.append_cancel_left_eq] at heq
        obtain ⟨c, path, rfl⟩ := List.exists_cons_of_ne_nil hpath
        obtain ⟨-, rfl⟩ := List.cons.inj heq
        exact absurd (List.mem_append_right _ (.head _)) hname'
  · obtain ⟨nameSpace, hslash, hnode⟩ := nodeOfService_no_slash hrest
    have hne : nameSpace ≠ ['/'] := by
      rintro rfl
      exact hslash (.head _)
    refine ⟨_, hnode, ?_⟩
    rw [buildQueryServiceName_of_ne hne]
    refine ⟨fun heq => ?_, ?_⟩
    · have hlen := congrArg List.length heq
      simp only [List.length_append, List.length_cons] at hlen
      omega
    · rintro ⟨name, -, heq⟩
      rw [buildQueryServiceName_root, List.append_cancel_left_eq] at heq
      exact absurd (heq ▸ .head _) hrest

/-! ## Both ways -/

/-- A namespace: the root, or some tokens with a slash in front of each. -/
def ValidNamespace (nameSpace : List Char) : Prop :=
  nameSpace = ['/'] ∨ ∃ tokens : List (List Char), tokens ≠ [] ∧
    (∀ token ∈ tokens, token ≠ [] ∧ '/' ∉ token) ∧
    nameSpace = tokens.flatMap ('/' :: ·)

/-- A node name. -/
def ValidNodeName (name : List Char) : Prop := name ≠ [] ∧ '/' ∉ name

/-- The services that `GetNodes` takes to be nodes. -/
def queryServices (services : List (List Char)) : List (List Char) :=
  services.filter nodeQueryServicePrefix.isPrefixOf

/-- `GetNodes` reports one node for every query service, in order. -/
theorem getNodes_forall₂ {R : List Char → NodeInfo → Prop}
    (h : ∀ serviceName, nodeQueryServicePrefix <+: serviceName →
      ∃ node, nodeOfService serviceName = some node ∧ R serviceName node)
    (services : List (List Char)) :
    ∃ nodes, getNodes services = some nodes ∧ List.Forall₂ R (queryServices services) nodes := by
  induction services with
  | nil => exact ⟨[], rfl, .nil⟩
  | cons serviceName services ih =>
    obtain ⟨nodes, hnodes, hrel⟩ := ih
    rw [getNodes, queryServices, List.filter_cons]
    split_ifs with hprefix
    · obtain ⟨node, hnode, hR⟩ := h serviceName (List.isPrefixOf_iff_prefix.mp hprefix)
      rw [hnode, hnodes]
      exact ⟨node :: nodes, rfl, .cons hR hrel⟩
    · exact ⟨nodes, hnodes, hrel⟩

/-- It does not throw, and reports one node for each of them. -/
theorem exists_getNodes (services : List (List Char)) :
    ∃ nodes, getNodes services = some nodes ∧ nodes.length = (queryServices services).length := by
  obtain ⟨nodes, hnodes, hrel⟩ := getNodes_forall₂ (R := fun _ _ => True)
    (fun serviceName h => by
      obtain ⟨node, hnode, -⟩ := rebuild_iff h
      exact ⟨node, hnode, trivial⟩) services
  exact ⟨nodes, hnodes, (List.Forall₂.length_eq hrel).symm⟩

/-- **Node names survive exactly in the root namespace.**  A node that announces itself is reported
under its own namespace if that is the root, and a query service can be built again from what is
reported for it if it is that of a node in the root. -/
theorem getNodes_inverts_iff {nameSpace name : List Char} (_hnameSpace : ValidNamespace nameSpace)
    (hname : ValidNodeName name) (services : List (List Char)) :
    (getNodes [buildQueryServiceName nameSpace name] = some [⟨name, nameSpace⟩] ↔
      nameSpace = ['/']) ∧
    ∃ nodes, getNodes services = some nodes ∧
      List.Forall₂ (fun serviceName node =>
        buildQueryServiceName node.nameSpace node.name = serviceName ↔
          ∃ name, '/' ∉ name ∧ serviceName = buildQueryServiceName ['/'] name)
        (queryServices services) nodes := by
  refine ⟨?_, getNodes_forall₂ (fun _ => rebuild_iff) services⟩
  have hprefix :
      nodeQueryServicePrefix.isPrefixOf (buildQueryServiceName nameSpace name) = true := by
    rw [List.isPrefixOf_iff_prefix, buildQueryServiceName]
    split_ifs
    · exact ⟨_, (List.append_assoc ..).symm⟩
    · exact ⟨_, by rw [List.append_assoc, List.append_assoc]⟩
  rw [getNodes, if_pos hprefix]
  by_cases hroot : nameSpace = ['/']
  · subst hroot
    rw [buildQueryServiceName_root, ← List.nil_append ('/' :: name), nodeOfService_slash hname.2]
    exact ⟨fun _ => rfl, fun _ => rfl⟩
  · rw [buildQueryServiceName_of_ne hroot, nodeOfService_slash hname.2]
    -- the reported namespace is longer by a slash
    exact ⟨fun heq => absurd heq (by simp [getNodes]), fun h => absurd h hroot⟩

theorem getNodes_inverts_iff_root :
    (getNodes [buildQueryServiceName ['/'] ['n']] = some [⟨['n'], ['/']⟩] ↔ ['/'] = ['/']) ∧
    ∃ nodes, getNodes [['r', 's', '/', 'x'], buildQueryServiceName ['/', 'a'] ['n']] = some nodes ∧
      List.Forall₂ (fun serviceName node =>
        buildQueryServiceName node.nameSpace node.name = serviceName ↔
          ∃ name, '/' ∉ name ∧ serviceName = buildQueryServiceName ['/'] name)
        (queryServices [['r', 's', '/', 'x'], buildQueryServiceName ['/', 'a'] ['n']]) nodes :=
  getNodes_inverts_iff (.inl rfl) ⟨by decide, by decide⟩
    [['r', 's', '/', 'x'], buildQueryServiceName ['/', 'a'] ['n']]

/-- A node `n` in the namespace `/a` is reported in `/a/`, and queries for that go to
`rs/_node/a//n`. -/
theorem getNodes_keeps_slash :
    ValidNamespace ['/', 'a'] ∧ ValidNodeName ['n'] ∧
      getNodes [buildQueryServiceName ['/', 'a'] ['n']] = some [⟨['n'], ['/', 'a', '/']⟩] ∧
      buildQueryServiceName ['/', 'a', '/'] ['n'] ≠ buildQueryServiceName ['/', 'a'] ['n'] :=
  ⟨.inr ⟨[['a']], by decide, by decide, by decide⟩, by unfold ValidNodeName; decide, by decide,
    by decide⟩

end Graph

end RmwEcal
