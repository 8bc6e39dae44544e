import RmwEcal.Shared.Graph

/-!
# Services that are taken for nodes

`GetNodes` looks for services whose names begin with `rs/_node`, and it does not ask for the slash
that comes next in the name of a query service.  A service of a user is registered as `rs` and its
own name, and there is nothing to keep the first token of that name from beginning with `_node`.

Such a service is reported as a node (`nodes_counted_iff`), with a name and a namespace that are cut
out of the wrong places.
-/

set_option autoImplicit false

namespace RmwEcal

open Codec

namespace Graph

/-! ## Names of services -/

/-- A letter, a digit or an underscore. -/
def isNameChar (c : Char) : Bool := c.isAlphanum || c == '_'

/-- A token of a name: some letters, digits and underscores, and no digit in front. -/
def isToken : List Char → Bool
  | [] => false
  | c :: token => !c.isDigit && isNameChar c && token.all isNameChar

/-- An absolute name of a service. -/
structure ServiceName where
  /-- The first token. -/
  first : List Char
  /-- The other ones. -/
  more : List (List Char)
  /-- All of them are tokens. -/
  valid : (first :: more).all isToken = true

/-- The name, with a slash in front of each token. -/
def ServiceName.text (s : ServiceName) : List Char := (s.first :: s.more).flatMap ('/' :: ·)

/-- The name under which `Service` registers a service. -/
def registeredName (text : List Char) : List Char := serviceNamePrefix ++ text

/-- `_node`, the first token of the name of a query service. -/
def nodeSymbol : List Char := privateSymbolPrefix ++ ['n', 'o', 'd', 'e']

/-- The name of a query service of a node. -/
def isNodeQuery (serviceName : List Char) : Bool :=
  (nodeQueryServicePrefix ++ ['/']).isPrefixOf serviceName

theorem isNodeQuery_iff {serviceName : List Char} :
    isNodeQuery serviceName = true ↔ nodeQueryServicePrefix ++ ['/'] <+: serviceName :=
  List.isPrefixOf_iff_prefix

/-! ## Prefixes of names -/

/-- A prefix without a separator ends before the next one. -/
theorem prefix_of_prefix_append {α : Type} {p s t : List α} (h : p <+: s ++ t)
    (ht : ∀ c ∈ t.head?, c ∉ p) : p <+: s := by
  obtain hp | ⟨q, rfl⟩ := List.prefix_or_prefix_of_prefix h (List.prefix_append s t)
  · exact hp
  · rw [List.prefix_append_right_inj] at h
    cases q with
    | nil => simp
    | cons c q =>
      obtain ⟨r, rfl⟩ := h
      exact absurd (List.mem_append_right s (.head q)) (ht c rfl)

theorem prefix_registeredName_iff (s : ServiceName) :
    nodeQueryServicePrefix <+: registeredName s.text ↔ nodeSymbol <+: s.first := by
  have htext : registeredName s.text =
      serviceNamePrefix ++ ['/'] ++ (s.first ++ s.more.flatMap ('/' :: ·)) := by
    rw [registeredName, ServiceName.text, List.flatMap_cons, List.append_assoc, List.cons_append,
      List.singleton_append]
  rw [htext, nodeQueryServicePrefix, List.prefix_append_right_inj]
  refine ⟨fun h => prefix_of_prefix_append h fun c hc => ?_,
    fun h => h.trans (List.prefix_append _ _)⟩
  -- what comes behind the first token is a slash, if anything does
  cases hmore : s.more with
  | nil => rw [hmore] at hc; cases hc
  | cons token more =>
    rw [hmore] at hc
    cases hc
    decide

/-! ## What is reported -/

/-- What `GetNodes` reports depends on the services with the prefix alone. -/
theorem getNodes_queryServices (services : List (List Char)) :
    getNodes services = getNodes (queryServices services) := by
  induction services with
  | nil => rfl
  | cons serviceName services ih =>
    rw [getNodes, queryServices, List.filter_cons]
    split_ifs with hprefix
    · rw [getNodes, if_pos hprefix, ih]
      rfl
    · exact ih

/-- **A service adds nothing to what is reported if it does not have the prefix.** -/
theorem getNodes_insert_iff (l₁ l₂ : List (List Char)) (serviceName : List Char) :
    getNodes (l₁ ++ serviceName :: l₂) = getNodes (l₁ ++ l₂) ↔
      ¬ nodeQueryServicePrefix <+: serviceName := by
  rw [← List.isPrefixOf_iff_prefix]
  constructor
  · intro heq hprefix
    obtain ⟨nodes, hnodes, hlen⟩ := exists_getNodes (l₁ ++ serviceName :: l₂)
    obtain ⟨nodes', hnodes', hlen'⟩ := exists_getNodes (l₁ ++ l₂)
    rw [hnodes, hnodes', Option.some_inj] at heq
    rw [heq, hlen'] at hlen
    simp only [queryServices, List.filter_append, List.filter_cons, hprefix, if_true,
      List.length_append, List.length_cons] at hlen
    omega
  · intro hprefix
    rw [getNodes_queryServices, getNodes_queryServices (l₁ ++ l₂)]
    simp only [queryServices, List.filter_append, List.filter_cons, hprefix, if_false,
      Bool.false_eq_true]

/-- **There are as many nodes as query services if there is no other service with the prefix.** -/
theorem length_getNodes_iff (services : List (List Char)) :
    (∃ nodes, getNodes services = some nodes ∧ nodes.length = services.countP isNodeQuery) ↔
      ∀ serviceName ∈ services, nodeQueryServicePrefix <+: serviceName →
        isNodeQuery serviceName = true := by
  obtain ⟨nodes, hnodes, hlen⟩ := exists_getNodes services
  have hquery : (queryServices services).filter isNodeQuery = services.filter isNodeQuery := by
    rw [queryServices, List.filter_filter]
    refine List.filter_congr fun serviceName _ => ?_
    rw [Bool.and_eq_left_iff_imp, isNodeQuery_iff, List.isPrefixOf_iff_prefix]
    exact fun h => (List.prefix_append _ _).trans h
  have hall := List.length_filter_eq_length_iff (p := isNodeQuery) (l := queryServices services)
  rw [hquery] at hall
  simp only [hnodes, Option.some_inj, exists_eq_left', hlen, List.countP_eq_length_filter]
  rw [eq_comm, hall]
  simp only [queryServices, List.mem_filter, and_imp, List.isPrefixOf_iff_prefix]

/-- **Services of users are not taken for nodes if their first token does not begin with
`_node`**, and then only are there as many nodes as query services. -/
theorem nodes_counted_iff (s : ServiceName) (_ : ¬ '/' :: (nodeSymbol ++ ['/']) <+: s.text)
    (l₁ l₂ services : List (List Char)) :
    (getNodes (l₁ ++ registeredName s.text :: l₂) = getNodes (l₁ ++ l₂) ↔
      ¬ nodeSymbol <+: s.first) ∧
    ((∃ nodes, getNodes services = some nodes ∧ nodes.length = services.countP isNodeQuery) ↔
      ∀ serviceName ∈ services, nodeQueryServicePrefix <+: serviceName →
        isNodeQuery serviceName = true) := by
  refine ⟨?_, length_getNodes_iff services⟩
  rw [getNodes_insert_iff, prefix_registeredName_iff]

/-- `/stats`. -/
def stats : ServiceName := ⟨['s', 't', 'a', 't', 's'], [], rfl⟩

theorem nodes_counted_iff_stats :
    (getNodes ([] ++ registeredName stats.text :: [buildQueryServiceName ['/'] ['n']]) =
        getNodes ([] ++ [buildQueryServiceName ['/'] ['n']]) ↔
      ¬ nodeSymbol <+: stats.first) ∧
    ((∃ nodes, getNodes [registeredName stats.text] = some nodes ∧
        nodes.length = [registeredName stats.text].countP isNodeQuery) ↔
      ∀ serviceName ∈ [registeredName stats.text], nodeQueryServicePrefix <+: serviceName →
        isNodeQuery serviceName = true) :=
  nodes_counted_iff stats (by decide) [] [buildQueryServiceName ['/'] ['n']]
    [registeredName stats.text]

/-- `/_nodestats`. -/
def nodestats : ServiceName :=
  ⟨['_', 'n', 'o', 'd', 'e', 's', 't', 'a', 't', 's'], [], rfl⟩

/-- **A node that is none.**  The only service is one of a user, and it is reported as a node, whose
namespace is what is left of its name. -/
theorem nodestats_reported :
    ¬ '/' :: (nodeSymbol ++ ['/']) <+: nodestats.text ∧
      getNodes [registeredName nodestats.text] =
        some [⟨nodestats.first, ['s', 't', 'a', 't', 's']⟩] ∧
      [registeredName nodestats.text].countP isNodeQuery = 0 := by
  refine ⟨by decide, rfl, rfl⟩

end Graph

end RmwEcal
