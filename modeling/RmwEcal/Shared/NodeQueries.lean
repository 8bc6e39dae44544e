import RmwEcal.Shared.NamesAndTypes

/-!
# Asking a node

The four functions that ask a node take the first response of a call, whether it has been answered
or not, and what is in the message after parsing it, whether it could be parsed or not.  When nobody
has answered there is no first response.  When there is one, but from a call that has failed or not
a message, what is listed is what happens to be in the message then, and `RMW_RET_OK` is returned
with it, unless the array cannot be filled.

So the functions do what they should if the node answers with a message, and otherwise only by
accident, `Usable`.
-/

set_option autoImplicit false

namespace RmwEcal

namespace Graph

/-- No index outside the vector; and the array is filled with what the node has answered to a call
that has succeeded, or an error is returned. -/
def Survives {α : Type} (result : CallResult) (parse : List UInt8 → Bool × List α)
    (element : α → Entry) (outcome : Option (Written Entry × Ending)) : Prop :=
  ∃ written ending, outcome = some (written, ending) ∧
    ((ending = .ok ∧ result.success = true ∧ ∃ reply items, result.response.head? = some reply ∧
        parse reply = (true, items) ∧ written = .array (items.map fun item => some (element item))) ∨
      ending.IsError)

/-- `new` is the first to fail, so that there is an exception. -/
def Allocations.RunOut (allocs : Allocations) (types n : ℕ) : Prop :=
  allocs.init = none ∧ firstFailure (allocs.failure types) 0 n = some .badAlloc

/-- There is a response.  If the array can be filled, it is one to a call that has succeeded, and a
message; if not, it is because of an initialisation. -/
def Usable {α : Type} (result : CallResult) (parse : List UInt8 → Bool × List α)
    (allocs : Allocations) (types : ℕ) : Prop :=
  ∃ reply, result.response.head? = some reply ∧
    (allocs.Succeed types (parse reply).2.length →
      result.success = true ∧ (parse reply).1 = true) ∧
    ¬ allocs.RunOut types (parse reply).2.length

section QueryNode

variable {α : Type} {remote : Remote} {parse : List UInt8 → Bool × List α}
  {method nodeNamespace nodeName : List Char} {allocs : Allocations} {types : ℕ}
  {element : α → Entry} {f : ℕ → α → Except Thrown Entry} {message : String}

/-- What has been thrown is `std::bad_alloc`, or is caught. -/
theorem Allocations.firstFailure_cases {n : ℕ} {e : Thrown}
    (h : firstFailure (allocs.failure types) 0 n = some e) :
    e = .badAlloc ∨ (caught (.error e)).IsError := by
  obtain ⟨index, -, hindex⟩ := List.exists_of_findSome?_eq_some h
  obtain rfl | rfl := allocs.failure_cases hindex
  · exact .inl rfl
  · exact .inr trivial

variable {result : CallResult} {reply : List UInt8}

/-- What the array is filled with is the answer of the node, if there is one. -/
theorem survives_filled_iff (hreply : result.response.head? = some reply) :
    Survives result parse element
        (some (.array ((parse reply).2.map fun item => some (element item)), .ok)) ↔
      result.success = true ∧ (parse reply).1 = true := by
  constructor
  · rintro ⟨written, ending, heq, ⟨-, hsuccess, reply', items, hreply', hparse, -⟩ | herror⟩
    · obtain rfl := Option.some.inj (hreply.symm.trans hreply')
      exact ⟨hsuccess, congrArg Prod.fst hparse⟩
    · cases heq
      exact herror.elim
  · rintro ⟨hsuccess, hparse⟩
    exact ⟨_, _, rfl, .inl ⟨rfl, hsuccess, reply, _, hreply, Prod.ext hparse rfl, rfl⟩⟩

/-- An exception is neither an answer nor an error. -/
theorem not_survives_exception {written : Written Entry} {e : Thrown} :
    ¬ Survives result parse element (some (written, .exception e)) := by
  rintro ⟨written', ending, heq, ⟨hok, -⟩ | herror⟩
  · cases heq
    cases hok
  · cases heq
    exact herror

/-- A reply to some call, and the array that is made of it. -/
theorem fillArray_survives_iff (hf : ∀ i a, f i a = attempt (allocs.failure types i) (element a))
    (hreply : result.response.head? = some reply) :
    Survives result parse element (some (fillArray allocs.init message f (parse reply).2)) ↔
      (allocs.Succeed types (parse reply).2.length →
        result.success = true ∧ (parse reply).1 = true) ∧
      ¬ allocs.RunOut types (parse reply).2.length := by
  cases hinit : allocs.init with
  | some ret =>
    -- the array cannot be initialised
    refine iff_of_true ⟨_, _, rfl, .inr trivial⟩ ⟨fun h => ?_, fun h => ?_⟩
    · exact nomatch hinit.symm.trans h.init
    · exact nomatch hinit.symm.trans h.1
  | none =>
    cases hfirst : firstFailure (allocs.failure types) 0 (parse reply).2.length with
    | none =>
      have hsucceed : allocs.Succeed types (parse reply).2.length :=
        ⟨hinit, firstFailure_eq_none_iff.mp hfirst⟩
      have hrun : ¬ allocs.RunOut types (parse reply).2.length :=
        fun h => nomatch hfirst.symm.trans h.2
      rw [fillArray_ok hf hfirst message, and_iff_left hrun, survives_filled_iff hreply]
      exact ⟨fun h _ => h, fun h => h hsucceed⟩
    | some e =>
      have hfails : ¬ allocs.Succeed types (parse reply).2.length := fun h =>
        nomatch hfirst.symm.trans (firstFailure_eq_none_iff.mpr h.entries)
      obtain ⟨elements, hfill⟩ := fillArray_error hf hfirst message
      rw [hfill]
      obtain rfl | herror := allocs.firstFailure_cases hfirst
      · exact iff_of_false not_survives_exception fun h => h.2 ⟨hinit, hfirst⟩
      · refine iff_of_true ⟨_, _, rfl, .inr herror⟩ ⟨fun h => absurd h hfails, fun h => ?_⟩
        obtain rfl := Option.some.inj (hfirst.symm.trans h.2)
        exact herror

/-- One of the four functions. -/
theorem queryNode_survives_iff
    (hf : ∀ i a, f i a = attempt (allocs.failure types i) (element a)) :
    Survives (remote.call (buildQueryServiceName nodeNamespace nodeName) method) parse element
        ((queryNode remote parse method nodeNamespace nodeName).map
          (fillArray allocs.init message f)) ↔
      Usable (remote.call (buildQueryServiceName nodeNamespace nodeName) method) parse allocs
        types := by
  rw [queryNode, ← List.head?_eq_getElem?]
  cases hreply :
      (remote.call (buildQueryServiceName nodeNamespace nodeName) method).response.head? with
  | none =>
    refine iff_of_false ?_ ?_
    · rintro ⟨_, _, heq, -⟩
      cases heq
    · rintro ⟨_, heq, -⟩
      exact nomatch hreply.symm.trans heq
  | some reply =>
    refine (fillArray_survives_iff hf hreply).trans ⟨fun h => ⟨reply, hreply, h⟩, ?_⟩
    rintro ⟨reply', hreply', h⟩
    obtain rfl := Option.some.inj (hreply.symm.trans hreply')
    exact h

end QueryNode

/-- **When the queries survive**, whatever node is asked and whatever comes of it. -/
theorem nodeQueries_survive_iff (remote : Remote) (allocs : Allocations)
    (nodeName nodeNamespace : List Char) (noDemangle : Bool) :
    (Survives (remote.call (buildQueryServiceName nodeNamespace nodeName) "GetSubscribers".toList)
        remote.parseSubscribers (topicElement noDemangle)
        (rmwGetSubscriberNamesAndTypesByNode remote allocs nodeName nodeNamespace noDemangle) ↔
      Usable (remote.call (buildQueryServiceName nodeNamespace nodeName) "GetSubscribers".toList)
        remote.parseSubscribers allocs 1) ∧
    (Survives (remote.call (buildQueryServiceName nodeNamespace nodeName) "GetPublishers".toList)
        remote.parsePublishers (topicElement noDemangle)
        (rmwGetPublisherNamesAndTypesByNode remote allocs nodeName nodeNamespace noDemangle) ↔
      Usable (remote.call (buildQueryServiceName nodeNamespace nodeName) "GetPublishers".toList)
        remote.parsePublishers allocs 1) ∧
    (Survives (remote.call (buildQueryServiceName nodeNamespace nodeName) "GetServices".toList)
        remote.parseServices serviceElement
        (rmwGetServiceNamesAndTypesByNode remote allocs nodeName nodeNamespace) ↔
      Usable (remote.call (buildQueryServiceName nodeNamespace nodeName) "GetServices".toList)
        remote.parseServices allocs 2) ∧
    (Survives (remote.call (buildQueryServiceName nodeNamespace nodeName) "GetClients".toList)
        remote.parseClients serviceElement
        (rmwGetClientNamesAndTypesByNode remote allocs nodeName nodeNamespace) ↔
      Usable (remote.call (buildQueryServiceName nodeNamespace nodeName) "GetClients".toList)
        remote.parseClients allocs 2) :=
  ⟨queryNode_survives_iff (allocs.topicEntry_eq noDemangle),
    queryNode_survives_iff (allocs.topicEntry_eq noDemangle),
    queryNode_survives_iff allocs.serviceEntry_eq, queryNode_survives_iff allocs.serviceEntry_eq⟩

/-- All calls end this way, and only the empty message can be parsed. -/
def onlyReply (result : CallResult) : Remote where
  call _ _ := result
  parseSubscribers reply := (reply == [], [])
  parsePublishers reply := (reply == [], [])
  parseServices reply := (reply == [], [])
  parseClients reply := (reply == [], [])

/-- A node that has gone, and one that answers something else: the vector is empty, or an empty
listing is returned as if it were that of the node. -/
theorem nodeQueries_fail :
    ¬ Survives ⟨false, []⟩ (onlyReply ⟨false, []⟩).parseServices serviceElement
        (rmwGetServiceNamesAndTypesByNode (onlyReply ⟨false, []⟩) enoughMemory ['n'] ['/']) ∧
    rmwGetServiceNamesAndTypesByNode (onlyReply ⟨true, [[255]]⟩) enoughMemory ['n'] ['/'] =
      some (.array [], .ok) ∧
    ¬ Survives ⟨true, [[255]]⟩ (onlyReply ⟨true, [[255]]⟩).parseServices serviceElement
        (rmwGetServiceNamesAndTypesByNode (onlyReply ⟨true, [[255]]⟩) enoughMemory ['n'] ['/']) := by
  refine ⟨?_, rfl, ?_⟩
  · rintro ⟨_, _, heq, -⟩
    cases heq
  · rintro ⟨_, _, heq, ⟨-, -, reply, items, hreply, hparse, -⟩ | herror⟩
    · cases hreply
      cases hparse
    · cases heq
      exact herror

end Graph

end RmwEcal
