import RmwEcal.Shared.ServiceListing
import RmwEcal.Transition.Heap

/-!
# Handles, and what is behind them

For a node, a guard condition, a publisher, a subscription, a service or a client, the caller has a
handle, and the handle leads to an object of this implementation.  Here are the functions that
create and destroy them, as far as the objects and their addresses are concerned.

A node remembers the objects that have been created on it, and `Destroy*` deletes an object only if
the node it is given does.  A node has no destructor: when it is deleted, what it remembers stays,
and so does its guard condition, of which only the handle is freed.  A type support is created
before the profile is looked at.

`none` stands for what nothing is known of: an address is followed, or freed, where nothing is or
something else.  `Valid` is what the caller is asked for, to pass handles that have been returned
and not been destroyed.
-/

set_option autoImplicit false

namespace RmwEcal

open Transition Qos RmwEcal.Graph

namespace Handles

/-! ## Objects -/

/-- What can be created on a node. -/
inductive EntityKind where
  | publisher | subscription | service | client
  deriving DecidableEq, Repr

/-- A `Client`. -/
structure NodeClient where
  name : List Char
  /-- `avoid_ros_namespace_conventions` of the profile it is created with. -/
  avoidRosNamespaceConventions : Bool
  /-- `GetServiceSimpleName`. -/
  serviceSimpleName : List Char
  /-- `GetRequestMessageName`. -/
  requestMessageName : List Char
  /-- `GetResponseMessageName`. -/
  responseMessageName : List Char

/-- What has been created on a node. -/
inductive Entity (defaults : Defaults) where
  /-- A `Publisher` or a `Subscriber`. -/
  | endpoint (endpoint : Endpoint defaults)
  /-- A `Service`. -/
  | service (service : NodeService)
  /-- A `Client`. -/
  | client (client : NodeClient)

/-- The kind of an endpoint. -/
def endpointKind : TopicEndpointType → EntityKind
  | .publisher => .publisher
  | .subscriber => .subscription

/-- The kind of an entity. -/
def Entity.kind {defaults : Defaults} : Entity defaults → EntityKind
  | .endpoint e => endpointKind e.endpointType
  | .service _ => .service
  | .client _ => .client

/-- A `Node`. -/
structure NodeObject where
  name : String
  nameSpace : String
  /-- `publishers_`, `subscribers_`, `services_` and `clients_`, in the order of iteration. -/
  members : EntityKind → List ℕ
  guardCondition : ℕ

/-- The node remembers an object. -/
def NodeObject.insert (node : NodeObject) (kind : EntityKind) (data : ℕ) : NodeObject :=
  { node with
    members := Function.update node.members kind (List.insert data (node.members kind)) }

/-- It forgets it. -/
def NodeObject.erase (node : NodeObject) (kind : EntityKind) (data : ℕ) : NodeObject :=
  { node with members := Function.update node.members kind ((node.members kind).erase data) }

/-- An object, of this implementation or of rmw. -/
inductive Object (defaults : Defaults) where
  /-- A `Node`. -/
  | node (node : NodeObject)
  /-- A `GuardCondition`. -/
  | guardCondition
  /-- A `MessageTypeSupport` or a `ServiceTypeSupport`. -/
  | typeSupport
  /-- A `Publisher`, `Subscriber`, `Service` or `Client`, with its `type_support_`. -/
  | entity (entity : Entity defaults) (typeSupport : ℕ)
  /-- A `rmw_node_t`, with its `data`. -/
  | rmwNode (data : ℕ)
  /-- A `rmw_guard_condition_t`, with its `data`. -/
  | rmwGuardCondition (data : ℕ)
  /-- A `rmw_publisher_t`, `rmw_subscription_t`, `rmw_service_t` or `rmw_client_t`, with its
  `data`. -/
  | rmwEntity (kind : EntityKind) (data : ℕ)

/-- The objects of the processes of a domain. -/
abbrev Objects (defaults : Defaults) := Heap (Object defaults)

section Functions

variable {defaults : Defaults}

/-! ## Guard conditions -/

/-- `rmw_create_guard_condition`. -/
def rmwCreateGuardCondition (h : Objects defaults) : Objects defaults × ℕ :=
  let (h, data) := h.alloc .guardCondition
  h.alloc (.rmwGuardCondition data)

/-- `rmw_destroy_guard_condition`. -/
def rmwDestroyGuardCondition (h : Objects defaults) (guardCondition : ℕ) :
    Option (Objects defaults) := do
  let .rmwGuardCondition data ← h.get? guardCondition | none
  let .guardCondition ← h.get? data | none
  let h ← h.delete data
  h.delete guardCondition

/-! ## Nodes -/

/-- `rmw_create_node`. -/
def rmwCreateNode (h : Objects defaults) (name nameSpace : String) : Objects defaults × ℕ :=
  let (h, guardCondition) := rmwCreateGuardCondition h
  let (h, ecalNode) := h.alloc (.node ⟨name, nameSpace, fun _ => [], guardCondition⟩)
  h.alloc (.rmwNode ecalNode)

/-- `rmw_destroy_node`.  The guard condition is not deleted, and neither is anything that was
created on the node. -/
def rmwDestroyNode (h : Objects defaults) (node : ℕ) : Option (Objects defaults) := do
  let .rmwNode data ← h.get? node | none
  let .node ecalNode ← h.get? data | none
  let .rmwGuardCondition _ ← h.get? ecalNode.guardCondition | none
  -- `rmw_guard_condition_free`
  let h ← h.delete ecalNode.guardCondition
  let h ← h.delete data
  h.delete node

/-! ## What is created on a node -/

/-- The functions that create something on a node, with a type support that the factory may not
know.  The second component is the handle, or what has been thrown. -/
def rmwCreateEntity (kind : EntityKind) (h : Objects defaults) (node : ℕ) (supported : Bool)
    (create : NodeObject → Except Exception (Entity defaults)) :
    Option (Objects defaults × Except Exception ℕ) := do
  let .rmwNode data ← h.get? node | none
  if !supported then some (h, .error (.runtimeError "Unsupported type support."))
  else
    let (h, typeSupport) := h.alloc .typeSupport
    let .node ecalNode ← h.get? data | none
    match create ecalNode with
    -- nobody has the type support
    | .error e => some (h, .error e)
    | .ok entity =>
      let (h, ecalEntity) := h.alloc (.entity entity typeSupport)
      let h ← h.write data (.node (ecalNode.insert kind ecalEntity))
      let (h, handle) := h.alloc (.rmwEntity kind ecalEntity)
      some (h, .ok handle)

/-- The QoS and then the endpoint. -/
def createEndpoint (endpointType : TopicEndpointType) (topicName typeName : String)
    (profile : Profile) (node : NodeObject) : Except Exception (Entity defaults) :=
  match hqos : endpointType.createQOS defaults profile with
  | .error e => .error e
  | .ok qos => .ok (.endpoint
      { endpointType, topicName, typeName, nodeName := node.name, nodeNamespace := node.nameSpace,
        profile, qos, created := hqos })

/-- `rmw_create_publisher`. -/
def rmwCreatePublisher (h : Objects defaults) (node : ℕ) (supported : Bool)
    (topicName typeName : String) (profile : Profile) :
    Option (Objects defaults × Except Exception ℕ) :=
  rmwCreateEntity .publisher h node supported (createEndpoint .publisher topicName typeName profile)

/-- `rmw_create_subscription`. -/
def rmwCreateSubscription (h : Objects defaults) (node : ℕ) (supported : Bool)
    (topicName typeName : String) (profile : Profile) :
    Option (Objects defaults × Except Exception ℕ) :=
  rmwCreateEntity .subscription h node supported
    (createEndpoint .subscriber topicName typeName profile)

/-- `rmw_create_service`.  `CreateServiceQOS` accepts every profile. -/
def rmwCreateService (h : Objects defaults) (node : ℕ) (supported : Bool) (service : NodeService) :
    Option (Objects defaults × Except Exception ℕ) :=
  rmwCreateEntity .service h node supported fun _ => .ok (.service service)

/-- `rmw_create_client`.  `CreateClientQOS` accepts every profile. -/
def rmwCreateClient (h : Objects defaults) (node : ℕ) (supported : Bool) (client : NodeClient) :
    Option (Objects defaults × Except Exception ℕ) :=
  rmwCreateEntity .client h node supported fun _ => .ok (.client client)

/-- `delete`, for an entity.  Its destructor deletes the type support. -/
def deleteEntity (h : Objects defaults) (data : ℕ) : Option (Objects defaults) := do
  let .entity _ typeSupport ← h.get? data | none
  let .typeSupport ← h.get? typeSupport | none
  let h ← h.delete typeSupport
  h.delete data

/-- The functions that destroy it, given a node. -/
def rmwDestroyEntity (kind : EntityKind) (h : Objects defaults) (node handle : ℕ) :
    Option (Objects defaults) := do
  let .rmwNode ecalNodeData ← h.get? node | none
  let .rmwEntity handleKind data ← h.get? handle | none
  if handleKind ≠ kind then none
  else
    let .node ecalNode ← h.get? ecalNodeData | none
    if data ∈ ecalNode.members kind then
      let h ← h.write ecalNodeData (.node (ecalNode.erase kind data))
      let h ← deleteEntity h data
      h.delete handle
    -- another node has it, or none; the handle goes all the same
    else h.delete handle

/-- `rmw_destroy_publisher`. -/
def rmwDestroyPublisher : Objects defaults → ℕ → ℕ → Option (Objects defaults) :=
  rmwDestroyEntity .publisher

/-- `rmw_destroy_subscription`. -/
def rmwDestroySubscription : Objects defaults → ℕ → ℕ → Option (Objects defaults) :=
  rmwDestroyEntity .subscription

/-- `rmw_destroy_service`. -/
def rmwDestroyService : Objects defaults → ℕ → ℕ → Option (Objects defaults) :=
  rmwDestroyEntity .service

/-- `rmw_destroy_client`. -/
def rmwDestroyClient : Objects defaults → ℕ → ℕ → Option (Objects defaults) :=
  rmwDestroyEntity .client

/-! ## Everything else -/

/-- Behind the handle is an object of its kind, and what that needs. -/
def follows (h : Objects defaults) (handle : ℕ) : Bool :=
  match h.get? handle with
  | some (.rmwNode data) => match h.get? data with
    | some (.node _) => true
    | _ => false
  | some (.rmwGuardCondition data) => match h.get? data with
    | some .guardCondition => true
    | _ => false
  | some (.rmwEntity kind data) => match h.get? data with
    | some (.entity e typeSupport) => e.kind = kind && match h.get? typeSupport with
      | some .typeSupport => true
      | _ => false
    | _ => false
  | _ => false

/-- Any other function that is given a handle: it follows it to the object and leaves both. -/
def access (h : Objects defaults) (handle : ℕ) : Option (Objects defaults) :=
  if follows h handle then some h else none

end Functions

/-! ## What the functions do -/

section Effects

variable {defaults : Defaults} {h h' : Objects defaults} {kind : EntityKind} {node handle : ℕ}

theorem rmwCreateGuardCondition_get? (h : Objects defaults) :
    (rmwCreateGuardCondition h).1.get? = Function.update
      (Function.update h.get? h.next (some .guardCondition)) (h.next + 1)
      (some (.rmwGuardCondition h.next)) := by
  simp [rmwCreateGuardCondition]

theorem rmwCreateGuardCondition_count (h : Objects defaults) (p : Object defaults → Bool) :
    (rmwCreateGuardCondition h).1.count p =
      h.count p + (p .guardCondition).toNat + (p (.rmwGuardCondition h.next)).toNat := by
  simp [rmwCreateGuardCondition]

theorem rmwCreateNode_get? (h : Objects defaults) (name nameSpace : String) :
    (rmwCreateNode h name nameSpace).1.get? = Function.update
      (Function.update (rmwCreateGuardCondition h).1.get? (h.next + 2)
        (some (.node ⟨name, nameSpace, fun _ => [], h.next + 1⟩))) (h.next + 3)
      (some (.rmwNode (h.next + 2))) := by
  simp [rmwCreateNode, rmwCreateGuardCondition]

theorem rmwCreateNode_count (h : Objects defaults) (name nameSpace : String)
    (p : Object defaults → Bool) : (rmwCreateNode h name nameSpace).1.count p =
      (rmwCreateGuardCondition h).1.count p +
        (p (.node ⟨name, nameSpace, fun _ => [], h.next + 1⟩)).toNat +
        (p (.rmwNode (h.next + 2))).toNat := by
  simp [rmwCreateNode, rmwCreateGuardCondition]

/-- What destroying a guard condition does. -/
inductive DestroysGuardCondition (h : Objects defaults) (guardCondition : ℕ)
    (h' : Objects defaults) : Prop
  | deleted {data : ℕ} (handle : h.get? guardCondition = some (.rmwGuardCondition data))
      (object : h.get? data = some .guardCondition) (next : h'.next = h.next)
      (objects : h'.get? =
        Function.update (Function.update h.get? data none) guardCondition none)
      (count : ∀ p, h'.count p + (p (.rmwGuardCondition data)).toNat +
        (p .guardCondition).toNat = h.count p)

theorem rmwDestroyGuardCondition_cases {guardCondition : ℕ}
    (hstep : rmwDestroyGuardCondition h guardCondition = some h') :
    DestroysGuardCondition h guardCondition h' := by
  rw [rmwDestroyGuardCondition] at hstep
  obtain ⟨o, hhandle, hstep⟩ := Option.bind_eq_some_iff.mp hstep
  cases o with
  | rmwGuardCondition data =>
    obtain ⟨o, hobject, hstep⟩ := Option.bind_eq_some_iff.mp hstep
    cases o with
    | guardCondition =>
      obtain ⟨h₁, hfirst, hstep⟩ := Option.bind_eq_some_iff.mp hstep
      obtain ⟨hnext₁, hget₁, hcount₁⟩ := Heap.delete_of_get? hfirst hobject
      have hne : guardCondition ≠ data := by
        rintro rfl
        rw [hhandle] at hobject
        cases hobject
      obtain ⟨hnext₂, hget₂, hcount₂⟩ := Heap.delete_of_get? hstep
        (by rw [hget₁, Function.update_of_ne hne, hhandle])
      refine .deleted hhandle hobject (hnext₂.trans hnext₁) (by rw [hget₂, hget₁]) fun p => ?_
      rw [← hcount₁ p, ← hcount₂ p]
    | _ => cases hstep
  | _ => cases hstep

/-- What destroying a node does. -/
inductive DestroysNode (h : Objects defaults) (node : ℕ) (h' : Objects defaults) : Prop
  | deleted {data trigger : ℕ} {ecalNode : NodeObject}
      (handle : h.get? node = some (.rmwNode data))
      (object : h.get? data = some (.node ecalNode))
      (guardCondition : h.get? ecalNode.guardCondition = some (.rmwGuardCondition trigger))
      (next : h'.next = h.next)
      (objects : h'.get? = Function.update (Function.update
        (Function.update h.get? ecalNode.guardCondition none) data none) node none)
      (count : ∀ p, h'.count p + (p (.rmwNode data)).toNat + (p (.node ecalNode)).toNat +
        (p (.rmwGuardCondition trigger)).toNat = h.count p)

theorem rmwDestroyNode_cases (hstep : rmwDestroyNode h node = some h') :
    DestroysNode h node h' := by
  rw [rmwDestroyNode] at hstep
  obtain ⟨o, hhandle, hstep⟩ := Option.bind_eq_some_iff.mp hstep
  cases o with
  | rmwNode data =>
    obtain ⟨o, hobject, hstep⟩ := Option.bind_eq_some_iff.mp hstep
    cases o with
    | node ecalNode =>
      obtain ⟨o, hguard, hstep⟩ := Option.bind_eq_some_iff.mp hstep
      cases o with
      | rmwGuardCondition trigger =>
        obtain ⟨h₁, hfirst, hstep⟩ := Option.bind_eq_some_iff.mp hstep
        obtain ⟨h₂, hsecond, hstep⟩ := Option.bind_eq_some_iff.mp hstep
        obtain ⟨hnext₁, hget₁, hcount₁⟩ := Heap.delete_of_get? hfirst hguard
        have hdata : data ≠ ecalNode.guardCondition := by
          intro heq
          rw [heq, hguard] at hobject
          cases hobject
        have hnode : node ≠ ecalNode.guardCondition := by
          intro heq
          rw [heq, hguard] at hhandle
          cases hhandle
        have hnode' : node ≠ data := by
          rintro rfl
          rw [hhandle] at hobject
          cases hobject
        obtain ⟨hnext₂, hget₂, hcount₂⟩ := Heap.delete_of_get? hsecond
          (by rw [hget₁, Function.update_of_ne hdata, hobject])
        obtain ⟨hnext₃, hget₃, hcount₃⟩ := Heap.delete_of_get? hstep
          (by rw [hget₂, hget₁, Function.update_of_ne hnode', Function.update_of_ne hnode, hhandle])
        refine .deleted hhandle hobject hguard (hnext₃.trans (hnext₂.trans hnext₁))
          (by rw [hget₃, hget₂, hget₁]) fun p => ?_
        rw [← hcount₁ p, ← hcount₂ p, ← hcount₃ p]
      | _ => cases hstep
    | _ => cases hstep
  | _ => cases hstep

/-- What creating an entity does, given whether the type support is known. -/
inductive CreatesEntity (kind : EntityKind) (h : Objects defaults) (node : ℕ)
    (create : NodeObject → Except Exception (Entity defaults)) :
    Bool → Objects defaults → Except Exception ℕ → Prop
  | unsupported : CreatesEntity kind h node create false h
      (.error (.runtimeError "Unsupported type support."))
  | refused {data : ℕ} {ecalNode : NodeObject} {e : Exception}
      (handle : h.get? node = some (.rmwNode data))
      (object : h.get? data = some (.node ecalNode)) (thrown : create ecalNode = .error e) :
      CreatesEntity kind h node create true (h.alloc .typeSupport).1 (.error e)
  | created {data : ℕ} {ecalNode : NodeObject} {entity : Entity defaults} {h' : Objects defaults}
      (handle : h.get? node = some (.rmwNode data))
      (object : h.get? data = some (.node ecalNode)) (made : create ecalNode = .ok entity)
      (next : h'.next = h.next + 3)
      (objects : h'.get? = Function.update (Function.update (Function.update
        (Function.update h.get? h.next (some .typeSupport)) (h.next + 1)
        (some (.entity entity h.next))) data (some (.node (ecalNode.insert kind (h.next + 1)))))
        (h.next + 2) (some (.rmwEntity kind (h.next + 1))))
      (count : ∀ p, h'.count p + (p (.node ecalNode)).toNat = h.count p +
        (p .typeSupport).toNat + (p (.entity entity h.next)).toNat +
        (p (.node (ecalNode.insert kind (h.next + 1)))).toNat +
        (p (.rmwEntity kind (h.next + 1))).toNat) :
      CreatesEntity kind h node create true h' (.ok (h.next + 2))

theorem rmwCreateEntity_cases {supported : Bool}
    {create : NodeObject → Except Exception (Entity defaults)} {result : Except Exception ℕ}
    (hstep : rmwCreateEntity kind h node supported create = some (h', result)) :
    CreatesEntity kind h node create supported h' result := by
  rw [rmwCreateEntity] at hstep
  obtain ⟨o, hhandle, hstep⟩ := Option.bind_eq_some_iff.mp hstep
  cases o with
  | rmwNode data =>
    cases supported with
    | false =>
      cases hstep
      exact .unsupported
    | true =>
      obtain ⟨o, hobject, hstep⟩ := Option.bind_eq_some_iff.mp hstep
      cases o with
      | node ecalNode =>
        replace hobject : (h.alloc .typeSupport).1.get? data = some (.node ecalNode) := hobject
        have hdata : data ≠ h.next := by
          rintro rfl
          rw [Heap.get?_alloc, Function.update_self] at hobject
          cases hobject
        rw [Heap.get?_alloc, Function.update_of_ne hdata] at hobject
        cases hmade : create ecalNode with
        | error e =>
          simp only [hmade] at hstep
          cases hstep
          exact .refused hhandle hobject hmade
        | ok entity =>
          simp only [hmade] at hstep
          obtain ⟨h₁, hwrite, hstep⟩ := Option.bind_eq_some_iff.mp hstep
          replace hwrite : ((h.alloc .typeSupport).1.alloc (.entity entity h.next)).1.write data
            (.node (ecalNode.insert kind (h.next + 1))) = some h₁ := hwrite
          have hlt := Nat.lt_succ_of_lt (Heap.lt_of_get? hobject)
          obtain ⟨hnext, hget, hcount⟩ := Heap.write_of_get? hwrite (by
            rw [Heap.get?_alloc, Heap.next_alloc, Function.update_of_ne hlt.ne, Heap.get?_alloc,
              Function.update_of_ne hdata, hobject])
          replace hstep : some ((h₁.alloc (.rmwEntity kind (h.next + 1))).1, Except.ok h₁.next) =
            some (h', result) := hstep
          cases hstep
          rw [Heap.next_alloc, Heap.next_alloc] at hnext
          rw [hnext]
          refine .created hhandle hobject hmade (by rw [Heap.next_alloc, hnext]) ?_ fun p => ?_
          · rw [Heap.get?_alloc, hget, hnext, Heap.get?_alloc, Heap.get?_alloc, Heap.next_alloc]
          · have hp := hcount p
            rw [Heap.count_alloc, Heap.count_alloc] at hp
            rw [Heap.count_alloc]
            omega
      | _ => cases hstep
  | _ => cases hstep

/-- What deleting an entity does. -/
inductive DeletesEntity (h : Objects defaults) (data : ℕ) (h' : Objects defaults) : Prop
  | deleted {typeSupport : ℕ} {entity : Entity defaults}
      (object : h.get? data = some (.entity entity typeSupport))
      (support : h.get? typeSupport = some .typeSupport) (next : h'.next = h.next)
      (objects : h'.get? = Function.update (Function.update h.get? typeSupport none) data none)
      (count : ∀ p, h'.count p + (p (.entity entity typeSupport)).toNat +
        (p .typeSupport).toNat = h.count p)

theorem deleteEntity_cases {data : ℕ} (hstep : deleteEntity h data = some h') :
    DeletesEntity h data h' := by
  rw [deleteEntity] at hstep
  obtain ⟨o, hobject, hstep⟩ := Option.bind_eq_some_iff.mp hstep
  cases o with
  | entity entity typeSupport =>
    obtain ⟨o, hsupport, hstep⟩ := Option.bind_eq_some_iff.mp hstep
    cases o with
    | typeSupport =>
      obtain ⟨h₁, hfirst, hstep⟩ := Option.bind_eq_some_iff.mp hstep
      obtain ⟨hnext₁, hget₁, hcount₁⟩ := Heap.delete_of_get? hfirst hsupport
      have hne : data ≠ typeSupport := by
        rintro rfl
        rw [hobject] at hsupport
        cases hsupport
      obtain ⟨hnext₂, hget₂, hcount₂⟩ := Heap.delete_of_get? hstep
        (by rw [hget₁, Function.update_of_ne hne, hobject])
      refine .deleted hobject hsupport (hnext₂.trans hnext₁) (by rw [hget₂, hget₁]) fun p => ?_
      rw [← hcount₁ p, ← hcount₂ p]
    | _ => cases hstep
  | _ => cases hstep

/-- What destroying an entity does. -/
inductive DestroysEntity (kind : EntityKind) (h : Objects defaults) (node handle : ℕ)
    (h' : Objects defaults) : Prop
  | deleted {nodeData data typeSupport : ℕ} {ecalNode : NodeObject} {entity : Entity defaults}
      (nodeHandle : h.get? node = some (.rmwNode nodeData))
      (entityHandle : h.get? handle = some (.rmwEntity kind data))
      (nodeObject : h.get? nodeData = some (.node ecalNode))
      (mem : data ∈ ecalNode.members kind)
      (object : h.get? data = some (.entity entity typeSupport))
      (support : h.get? typeSupport = some .typeSupport) (next : h'.next = h.next)
      (objects : h'.get? = Function.update (Function.update (Function.update
        (Function.update h.get? nodeData (some (.node (ecalNode.erase kind data)))) typeSupport none)
        data none) handle none)
      (count : ∀ p, h'.count p + (p (.rmwEntity kind data)).toNat +
        (p (.entity entity typeSupport)).toNat + (p .typeSupport).toNat +
        (p (.node ecalNode)).toNat = h.count p + (p (.node (ecalNode.erase kind data))).toNat)
  | kept {nodeData data : ℕ} {ecalNode : NodeObject}
      (nodeHandle : h.get? node = some (.rmwNode nodeData))
      (entityHandle : h.get? handle = some (.rmwEntity kind data))
      (nodeObject : h.get? nodeData = some (.node ecalNode))
      (notMem : data ∉ ecalNode.members kind) (next : h'.next = h.next)
      (objects : h'.get? = Function.update h.get? handle none)
      (count : ∀ p, h'.count p + (p (.rmwEntity kind data)).toNat = h.count p)

theorem rmwDestroyEntity_cases (hstep : rmwDestroyEntity kind h node handle = some h') :
    DestroysEntity kind h node handle h' := by
  rw [rmwDestroyEntity] at hstep
  obtain ⟨o, hnode, hstep⟩ := Option.bind_eq_some_iff.mp hstep
  cases o with
  | rmwNode nodeData =>
    obtain ⟨o, hhandle, hstep⟩ := Option.bind_eq_some_iff.mp hstep
    cases o with
    | rmwEntity handleKind data =>
      by_cases hkind : handleKind = kind
      · subst hkind
        simp only [ne_eq, not_true_eq_false, if_false] at hstep
        obtain ⟨o, hobject, hstep⟩ := Option.bind_eq_some_iff.mp hstep
        cases o with
        | node ecalNode =>
          by_cases hmem : data ∈ ecalNode.members handleKind
          · simp only [if_pos hmem] at hstep
            obtain ⟨h₁, hwrite, hstep⟩ := Option.bind_eq_some_iff.mp hstep
            obtain ⟨hnext₁, hget₁, hcount₁⟩ := Heap.write_of_get? hwrite hobject
            obtain ⟨h₂, hdelete, hstep⟩ := Option.bind_eq_some_iff.mp hstep
            obtain ⟨hentity, hsupport, hnext₂, hget₂, hcount₂⟩ := deleteEntity_cases hdelete
            rename_i typeSupport entity
            -- the node is none of what is deleted, nor is the handle
            have hdata : data ≠ nodeData := by
              rintro rfl
              rw [hget₁, Function.update_self] at hentity
              cases hentity
            have hts : typeSupport ≠ nodeData := by
              rintro rfl
              rw [hget₁, Function.update_self] at hsupport
              cases hsupport
            rw [hget₁, Function.update_of_ne hdata] at hentity
            rw [hget₁, Function.update_of_ne hts] at hsupport
            have hhandle₂ : h₂.get? handle = some (.rmwEntity handleKind data) := by
              have h₁ : handle ≠ data := by
                rintro rfl
                rw [hhandle] at hentity
                cases hentity
              have h₂ : handle ≠ typeSupport := by
                rintro rfl
                rw [hhandle] at hsupport
                cases hsupport
              have h₃ : handle ≠ nodeData := by
                rintro rfl
                rw [hhandle] at hobject
                cases hobject
              rw [hget₂, hget₁, Function.update_of_ne h₁, Function.update_of_ne h₂,
                Function.update_of_ne h₃, hhandle]
            obtain ⟨hnext₃, hget₃, hcount₃⟩ := Heap.delete_of_get? hstep hhandle₂
            refine .deleted hnode hhandle hobject hmem hentity hsupport
              (hnext₃.trans (hnext₂.trans hnext₁)) (by rw [hget₃, hget₂, hget₁]) fun p => ?_
            have hp₁ := hcount₁ p
            have hp₂ := hcount₂ p
            have hp₃ := hcount₃ p
            omega
          · simp only [if_neg hmem] at hstep
            obtain ⟨hnext, hget, hcount⟩ := Heap.delete_of_get? hstep hhandle
            exact .kept hnode hhandle hobject hmem hnext hget hcount
        | _ => cases hstep
      · simp only [ne_eq, hkind, not_false_eq_true, if_true] at hstep
        cases hstep
    | _ => cases hstep
  | _ => cases hstep

end Effects

/-! ## Calls -/

/-- The calls that can be made. -/
inductive Call where
  | createGuardCondition
  | destroyGuardCondition (guardCondition : ℕ)
  | createNode (name nameSpace : String)
  | destroyNode (node : ℕ)
  | createPublisher (node : ℕ) (supported : Bool) (topicName typeName : String) (profile : Profile)
  | createSubscription (node : ℕ) (supported : Bool) (topicName typeName : String)
      (profile : Profile)
  | createService (node : ℕ) (supported : Bool) (service : NodeService)
  | createClient (node : ℕ) (supported : Bool) (client : NodeClient)
  | destroyPublisher (node handle : ℕ)
  | destroySubscription (node handle : ℕ)
  | destroyService (node handle : ℕ)
  | destroyClient (node handle : ℕ)
  | access (handle : ℕ)

variable {defaults : Defaults}

/-- What there is after a call. -/
def step (h : Objects defaults) : Call → Option (Objects defaults)
  | .createGuardCondition => some (rmwCreateGuardCondition h).1
  | .destroyGuardCondition guardCondition => rmwDestroyGuardCondition h guardCondition
  | .createNode name nameSpace => some (rmwCreateNode h name nameSpace).1
  | .destroyNode node => rmwDestroyNode h node
  | .createPublisher node supported topicName typeName profile =>
    (rmwCreatePublisher h node supported topicName typeName profile).map Prod.fst
  | .createSubscription node supported topicName typeName profile =>
    (rmwCreateSubscription h node supported topicName typeName profile).map Prod.fst
  | .createService node supported service =>
    (rmwCreateService h node supported service).map Prod.fst
  | .createClient node supported client => (rmwCreateClient h node supported client).map Prod.fst
  | .destroyPublisher node handle => rmwDestroyPublisher h node handle
  | .destroySubscription node handle => rmwDestroySubscription h node handle
  | .destroyService node handle => rmwDestroyService h node handle
  | .destroyClient node handle => rmwDestroyClient h node handle
  | .access handle => access h handle

/-- What a call creates on a node: the kind, the node, whether the type support is known, and how it
is made. -/
def Call.creation : Call → Option (EntityKind × ℕ × Bool ×
    (NodeObject → Except Exception (Entity defaults)))
  | .createPublisher node supported topicName typeName profile =>
    some (.publisher, node, supported, createEndpoint .publisher topicName typeName profile)
  | .createSubscription node supported topicName typeName profile =>
    some (.subscription, node, supported, createEndpoint .subscriber topicName typeName profile)
  | .createService node supported service =>
    some (.service, node, supported, fun _ => .ok (.service service))
  | .createClient node supported client =>
    some (.client, node, supported, fun _ => .ok (.client client))
  | _ => none

/-- What a call destroys: the kind, the node it is given, and the handle. -/
def Call.destruction : Call → Option (EntityKind × ℕ × ℕ)
  | .destroyPublisher node handle => some (.publisher, node, handle)
  | .destroySubscription node handle => some (.subscription, node, handle)
  | .destroyService node handle => some (.service, node, handle)
  | .destroyClient node handle => some (.client, node, handle)
  | _ => none

/-- Processes that make calls. -/
def system (defaults : Defaults) : System (Objects defaults) Call := ⟨.empty, step⟩

/-! ## What is asked of the caller -/

/-- A handle of a node. -/
def Object.isRmwNode : Object defaults → Bool
  | .rmwNode _ => true
  | _ => false

/-- A handle of a guard condition. -/
def Object.isRmwGuardCondition : Object defaults → Bool
  | .rmwGuardCondition _ => true
  | _ => false

/-- A handle of an entity of this kind. -/
def Object.isRmwEntity (kind : EntityKind) : Object defaults → Bool
  | .rmwEntity handleKind _ => handleKind == kind
  | _ => false

/-- A handle. -/
def Object.isHandle : Object defaults → Bool
  | .rmwNode _ | .rmwGuardCondition _ | .rmwEntity _ _ => true
  | _ => false

/-- A node with this guard condition, which `rmw_node_get_graph_guard_condition` returns. -/
def Object.hasGraphGuardCondition (guardCondition : ℕ) : Object defaults → Bool
  | .node n => n.guardCondition == guardCondition
  | _ => false

/-- The caller passes handles that are there and of the right kind, and does not destroy the guard
condition of a node. -/
def valid (h : Objects defaults) : Call → Bool
  | .createGuardCondition | .createNode _ _ => true
  | .destroyGuardCondition guardCondition =>
    (h.get? guardCondition).any Object.isRmwGuardCondition &&
      h.count (Object.hasGraphGuardCondition guardCondition) == 0
  | .destroyNode node | .createPublisher node _ _ _ _ | .createSubscription node _ _ _ _
  | .createService node _ _ | .createClient node _ _ => (h.get? node).any Object.isRmwNode
  | .destroyPublisher node handle => validDestroy .publisher node handle
  | .destroySubscription node handle => validDestroy .subscription node handle
  | .destroyService node handle => validDestroy .service node handle
  | .destroyClient node handle => validDestroy .client node handle
  | .access handle => (h.get? handle).any Object.isHandle
where
  /-- For the functions that destroy an entity. -/
  validDestroy (kind : EntityKind) (node handle : ℕ) : Bool :=
    (h.get? node).any Object.isRmwNode && (h.get? handle).any (Object.isRmwEntity kind)

/-- The call is valid. -/
abbrev Valid (h : Objects defaults) (call : Call) : Prop := valid h call = true

/-! ## What a step does -/

/-- What a call does, in the words of the functions above. -/
inductive Effect (h : Objects defaults) : Call → Objects defaults → Prop
  | createsGuardCondition : Effect h .createGuardCondition (rmwCreateGuardCondition h).1
  | destroysGuardCondition {guardCondition : ℕ} {h' : Objects defaults}
      (cases : DestroysGuardCondition h guardCondition h') :
      Effect h (.destroyGuardCondition guardCondition) h'
  | createsNode (name nameSpace : String) :
      Effect h (.createNode name nameSpace) (rmwCreateNode h name nameSpace).1
  | destroysNode {node : ℕ} {h' : Objects defaults} (cases : DestroysNode h node h') :
      Effect h (.destroyNode node) h'
  | createsEntity {call : Call} {kind : EntityKind} {node : ℕ} {supported : Bool}
      {create : NodeObject → Except Exception (Entity defaults)} {h' : Objects defaults}
      {result : Except Exception ℕ} (hcall : call.creation = some (kind, node, supported, create))
      (cases : CreatesEntity kind h node create supported h' result) : Effect h call h'
  | destroysEntity {call : Call} {kind : EntityKind} {node handle : ℕ} {h' : Objects defaults}
      (hcall : call.destruction = some (kind, node, handle))
      (cases : DestroysEntity kind h node handle h') : Effect h call h'
  | accesses (handle : ℕ) : Effect h (.access handle) h

theorem createEntity_effect {h h' : Objects defaults} {call : Call} {kind : EntityKind} {node : ℕ}
    {supported : Bool} {create : NodeObject → Except Exception (Entity defaults)}
    (hcall : call.creation = some (kind, node, supported, create))
    (hstep : (rmwCreateEntity kind h node supported create).map Prod.fst = some h') :
    Effect h call h' := by
  obtain ⟨⟨h', result⟩, hcreate, rfl⟩ := Option.map_eq_some_iff.mp hstep
  exact .createsEntity hcall (rmwCreateEntity_cases hcreate)

/-- **What a step is.** -/
theorem step_cases {h h' : Objects defaults} {call : Call} (hstep : step h call = some h') :
    Effect h call h' := by
  cases call with
  | createGuardCondition =>
    cases hstep
    exact .createsGuardCondition
  | destroyGuardCondition guardCondition =>
    exact .destroysGuardCondition (rmwDestroyGuardCondition_cases hstep)
  | createNode name nameSpace =>
    cases hstep
    exact .createsNode name nameSpace
  | destroyNode node => exact .destroysNode (rmwDestroyNode_cases hstep)
  | createPublisher => exact createEntity_effect rfl hstep
  | createSubscription => exact createEntity_effect rfl hstep
  | createService => exact createEntity_effect rfl hstep
  | createClient => exact createEntity_effect rfl hstep
  | destroyPublisher => exact .destroysEntity rfl (rmwDestroyEntity_cases hstep)
  | destroySubscription => exact .destroysEntity rfl (rmwDestroyEntity_cases hstep)
  | destroyService => exact .destroysEntity rfl (rmwDestroyEntity_cases hstep)
  | destroyClient => exact .destroysEntity rfl (rmwDestroyEntity_cases hstep)
  | access handle =>
    obtain ⟨-, heq⟩ := Option.ite_none_right_eq_some.mp hstep
    cases heq
    exact .accesses handle

end Handles

end RmwEcal
