import RmwEcal.Shared.Handles

/-!
# Who owns what

Whatever valid calls are made, in whatever order: no address leads nowhere, and none leads where
another one of its purpose leads, `linked`.  So every valid call finds what it needs, and nothing is
ever freed twice or looked at after it has been freed (`valid_calls_succeed`).
-/

set_option autoImplicit false

namespace RmwEcal

open Transition Qos RmwEcal.Graph

namespace Handles

variable {defaults : Defaults}

/-! ## Links -/

/-- What an object holds an address for. -/
inductive Purpose where
  /-- The node behind its handle. -/
  | node
  /-- `guard_condition` of a node. -/
  | graphGuardCondition
  /-- The guard condition behind its handle. -/
  | guardCondition
  /-- An entity in one of the sets of a node. -/
  | member (kind : EntityKind)
  /-- The entity behind its handle. -/
  | entity (kind : EntityKind)
  /-- `type_support_` of an entity. -/
  | typeSupport
  deriving DecidableEq

/-- The sets of a node. -/
def memberRefs (node : NodeObject) : List (Purpose × ℕ) :=
  [EntityKind.publisher, .subscription, .service, .client].flatMap fun kind =>
    (node.members kind).map fun data => (.member kind, data)

/-- The addresses that an object holds. -/
def Object.refs : Object defaults → List (Purpose × ℕ)
  | .node n => (.graphGuardCondition, n.guardCondition) :: memberRefs n
  | .guardCondition | .typeSupport => []
  | .entity _ support => [(.typeSupport, support)]
  | .rmwNode data => [(.node, data)]
  | .rmwGuardCondition data => [(.guardCondition, data)]
  | .rmwEntity kind data => [(.entity kind, data)]

/-- What is expected there. -/
def Purpose.Fits : Purpose → Object defaults → Prop
  | .node, .node _ => True
  | .graphGuardCondition, .rmwGuardCondition _ => True
  | .guardCondition, .guardCondition => True
  | .member kind, .entity e _ => e.kind = kind
  | .entity kind, .entity e _ => e.kind = kind
  | .typeSupport, .typeSupport => True
  | _, _ => False

/-- Handles, objects and what they need. -/
def links (defaults : Defaults) : Links (Object defaults) Purpose := ⟨Object.refs, Purpose.Fits⟩

theorem mem_memberRefs {node : NodeObject} {k : Purpose} {data : ℕ} :
    (k, data) ∈ memberRefs node ↔ ∃ kind, k = .member kind ∧ data ∈ node.members kind := by
  rw [memberRefs, List.mem_flatMap]
  constructor
  · rintro ⟨kind, -, hmem⟩
    obtain ⟨data', hdata, heq⟩ := List.mem_map.mp hmem
    cases heq
    exact ⟨kind, rfl, hdata⟩
  · rintro ⟨kind, rfl, hdata⟩
    exact ⟨kind, by cases kind <;> simp, List.mem_map.mpr ⟨data, hdata, rfl⟩⟩

@[simp] theorem mem_refs_node {node : NodeObject} {k : Purpose} {data : ℕ} :
    (k, data) ∈ (links defaults).refs (.node node) ↔
      (k = .graphGuardCondition ∧ data = node.guardCondition) ∨
        ∃ kind, k = .member kind ∧ data ∈ node.members kind := by
  show (k, data) ∈ (.graphGuardCondition, node.guardCondition) :: memberRefs node ↔ _
  rw [List.mem_cons, mem_memberRefs, Prod.mk.injEq]

section Refs

variable {k : Purpose} {a data : ℕ} {kind : EntityKind} {e : Entity defaults}

@[simp] theorem refs_guardCondition : (links defaults).refs .guardCondition = [] := rfl

@[simp] theorem refs_typeSupport : (links defaults).refs .typeSupport = [] := rfl

@[simp] theorem refs_entity :
    (links defaults).refs (.entity e data) = [(.typeSupport, data)] := rfl

@[simp] theorem refs_rmwNode : (links defaults).refs (.rmwNode data) = [(.node, data)] := rfl

@[simp] theorem refs_rmwGuardCondition :
    (links defaults).refs (.rmwGuardCondition data) = [(.guardCondition, data)] := rfl

@[simp] theorem refs_rmwEntity :
    (links defaults).refs (.rmwEntity kind data) = [(.entity kind, data)] := rfl

end Refs

theorem nodup_memberRefs {node : NodeObject} :
    (memberRefs node).Nodup ↔ ∀ kind, (node.members kind).Nodup := by
  rw [memberRefs, List.nodup_flatMap]
  constructor
  · rintro ⟨hnodup, -⟩ kind
    exact (hnodup kind (by cases kind <;> simp)).of_map _
  · intro hnodup
    refine ⟨fun kind _ => (hnodup kind).map fun a b heq => congrArg Prod.snd heq, ?_⟩
    have hkinds : [EntityKind.publisher, .subscription, .service, .client].Nodup := by decide
    refine hkinds.imp fun {kind kind'} hne => ?_
    rintro ⟨k, data⟩ hmem hmem'
    obtain ⟨_, -, heq⟩ := List.mem_map.mp hmem
    obtain ⟨_, -, heq'⟩ := List.mem_map.mp hmem'
    cases heq
    cases heq'
    exact hne rfl

@[simp] theorem nodup_refs_node {node : NodeObject} :
    ((links defaults).refs (.node node)).Nodup ↔ ∀ kind, (node.members kind).Nodup := by
  show ((.graphGuardCondition, node.guardCondition) :: memberRefs node).Nodup ↔ _
  rw [List.nodup_cons, nodup_memberRefs, and_iff_right_iff_imp]
  intro _ hmem
  obtain ⟨kind, heq, -⟩ := mem_memberRefs.mp hmem
  cases heq

@[simp] theorem mem_insert_members {node : NodeObject} {kind kind' : EntityKind} {data a : ℕ} :
    a ∈ (node.insert kind data).members kind' ↔
      (a = data ∧ kind' = kind) ∨ a ∈ node.members kind' := by
  by_cases hkind : kind' = kind
  · subst hkind
    simp [NodeObject.insert]
  · simp [NodeObject.insert, hkind]

theorem nodup_insert_members {node : NodeObject} (h : ∀ kind, (node.members kind).Nodup)
    (kind kind' : EntityKind) (data : ℕ) : ((node.insert kind data).members kind').Nodup := by
  by_cases hkind : kind' = kind
  · subst hkind
    simpa [NodeObject.insert] using (h kind').insert
  · simpa [NodeObject.insert, hkind] using h kind'

theorem mem_erase_members {node : NodeObject} (h : ∀ kind, (node.members kind).Nodup)
    {kind kind' : EntityKind} {data a : ℕ} : a ∈ (node.erase kind data).members kind' ↔
      a ∈ node.members kind' ∧ (kind' = kind → a ≠ data) := by
  by_cases hkind : kind' = kind
  · subst hkind
    simp [NodeObject.erase, (h kind').mem_erase_iff, and_comm]
  · simp [NodeObject.erase, hkind]

theorem nodup_erase_members {node : NodeObject} (h : ∀ kind, (node.members kind).Nodup)
    (kind kind' : EntityKind) (data : ℕ) : ((node.erase kind data).members kind').Nodup := by
  by_cases hkind : kind' = kind
  · subst hkind
    simpa [NodeObject.erase] using (h kind').erase data
  · simpa [NodeObject.erase, hkind] using h kind'

/-! ## Every address leads somewhere -/

section Linked

variable {h h' : Objects defaults}

theorem linked_createGuardCondition (hl : Linked (links defaults) h.get?) :
    Linked (links defaults) (rmwCreateGuardCondition h).1.get? := by
  have hnext := h.get?_of_le le_rfl
  have hfirst := hl.add (o := .guardCondition) hnext (by simp) (by simp)
  rw [rmwCreateGuardCondition_get?]
  refine hfirst.add ?_ (fun k b href => ?_) (by simp)
  · rw [Function.update_of_ne (Nat.succ_ne_self _), Heap.get?_of_le (Nat.le_succ _)]
  · obtain ⟨rfl, rfl⟩ : k = .guardCondition ∧ b = h.next := by simpa using href
    exact ⟨⟨_, Function.update_self .., trivial⟩, (hl.unheld_of_none hnext).update (by simp)⟩

theorem linked_createNode (hl : Linked (links defaults) h.get?) (name nameSpace : String) :
    Linked (links defaults) (rmwCreateNode h name nameSpace).1.get? := by
  have hguard := linked_createGuardCondition hl
  have hnext : ∀ a, h.next + 2 ≤ a → (rmwCreateGuardCondition h).1.get? a = none := fun a ha =>
    Heap.get?_of_le (h := (rmwCreateGuardCondition h).1) ha
  have hhandle : (rmwCreateGuardCondition h).1.get? (h.next + 1) =
      some (.rmwGuardCondition h.next) := by
    rw [rmwCreateGuardCondition_get?, Function.update_self]
  have hunheld : Unheld (links defaults) (rmwCreateGuardCondition h).1.get? .graphGuardCondition
      (h.next + 1) := by
    rw [rmwCreateGuardCondition_get?]
    exact ((hl.unheld_of_none (h.get?_of_le (Nat.le_succ _))).update (by simp)).update (by simp)
  have hnode := hguard.add (o := .node ⟨name, nameSpace, fun _ => [], h.next + 1⟩)
    (hnext _ le_rfl) (fun k b href => by
      obtain ⟨rfl, rfl⟩ : k = .graphGuardCondition ∧ b = h.next + 1 := by simpa using href
      exact ⟨⟨_, hhandle, trivial⟩, hunheld⟩) (by simp)
  rw [rmwCreateNode_get?]
  refine hnode.add ?_ (fun k b href => ?_) (by simp)
  · rw [Function.update_of_ne (Nat.succ_ne_self _), hnext _ (Nat.le_succ _)]
  · obtain ⟨rfl, rfl⟩ : k = .node ∧ b = h.next + 2 := by simpa using href
    exact ⟨⟨_, Function.update_self .., trivial⟩,
      (hguard.unheld_of_none (hnext _ le_rfl)).update (by simp)⟩

theorem linked_createsEntity (hl : Linked (links defaults) h.get?) {kind : EntityKind} {node : ℕ}
    {supported : Bool} {create : NodeObject → Except Exception (Entity defaults)}
    {result : Except Exception ℕ} (hkind : ∀ n e, create n = .ok e → e.kind = kind)
    (hcases : CreatesEntity kind h node create supported h' result) :
    Linked (links defaults) h'.get? := by
  have hnone : ∀ n, h.get? (h.next + n) = none := fun n => h.get?_of_le (Nat.le_add_right _ _)
  have hsupport := hl.add (o := .typeSupport) (hnone 0) (by simp) (by simp)
  cases hcases with
  | unsupported => exact hl
  | refused => rwa [Heap.get?_alloc]
  | @created data ecalNode entity _ hhandle hobject hmade _ hobjects _ =>
    have hlt := Heap.lt_of_get? hobject
    have hentity := hsupport.add (a := h.next + 1) (o := .entity entity h.next)
      (by simp [hnone 1]) (fun k b href => by
        obtain ⟨rfl, rfl⟩ : k = .typeSupport ∧ b = h.next := by simpa using href
        exact ⟨⟨_, Function.update_self .., trivial⟩,
          (hl.unheld_of_none (hnone 0)).update (by simp)⟩) (by simp)
    -- nobody has the entity yet
    have hfree : ∀ k, Unheld (links defaults) (Function.update
        (Function.update h.get? h.next (some .typeSupport)) (h.next + 1)
        (some (.entity entity h.next))) k (h.next + 1) := fun k =>
      ((hl.unheld_of_none (hnone 1)).update (by simp)).update (by simp)
    have hat : Function.update (Function.update h.get? h.next (some .typeSupport)) (h.next + 1)
        (some (.entity entity h.next)) data = some (.node ecalNode) := by
      rw [Function.update_of_ne (by omega), Function.update_of_ne (by omega), hobject]
    have hmembers := nodup_refs_node.mp (hl.nodup hobject)
    have hnode := hentity.update (a := data) (o := .node (ecalNode.insert kind (h.next + 1)))
      (fun k b href => by
        obtain ⟨rfl, rfl⟩ | ⟨kind', rfl, hb⟩ := mem_refs_node.mp href
        · exact .inl ⟨_, hat, mem_refs_node.mpr (.inl ⟨rfl, rfl⟩)⟩
        · obtain ⟨rfl, rfl⟩ | hb := mem_insert_members.mp hb
          · exact .inr ⟨⟨_, Function.update_self .., hkind _ _ hmade⟩, hfree _⟩
          · exact .inl ⟨_, hat, mem_refs_node.mpr (.inr ⟨kind', rfl, hb⟩)⟩)
      (fun old hold k hfits => by
        obtain rfl := Option.some.inj (hat.symm.trans hold)
        cases k <;> first | exact hfits.elim | trivial)
      (nodup_refs_node.mpr fun kind' => nodup_insert_members hmembers kind kind' _)
    rw [hobjects]
    refine hnode.add ?_ (fun k b href => ?_) (by simp)
    · rw [Function.update_of_ne (by omega), Function.update_of_ne (by omega),
        Function.update_of_ne (by omega), hnone 2]
    · obtain ⟨rfl, rfl⟩ : k = .entity kind ∧ b = h.next + 1 := by simpa using href
      refine ⟨⟨.entity entity h.next, ?_, hkind _ _ hmade⟩, (hfree _).update (by simp)⟩
      rw [Function.update_of_ne (by omega), Function.update_self]

/-- What is held at the address of an object is held for one of its purposes. -/
theorem purpose_of_held {f : ℕ → Option (Object defaults)} (hl : Linked (links defaults) f)
    {a b : ℕ} {o target : Object defaults} {k : Purpose} (ho : f a = some o)
    (href : (k, b) ∈ (links defaults).refs o) (htarget : f b = some target) : k.Fits target := by
  obtain ⟨target', htarget', hfits⟩ := hl.leads ho href
  obtain rfl := Option.some.inj (htarget.symm.trans htarget')
  exact hfits

theorem linked_destroysGuardCondition (hl : Linked (links defaults) h.get?) {guardCondition : ℕ}
    (huser : ∀ a node, h.get? a = some (.node node) → node.guardCondition ≠ guardCondition)
    (hcases : DestroysGuardCondition h guardCondition h') : Linked (links defaults) h'.get? := by
  obtain ⟨hhandle, hobject, -, hobjects, -⟩ := hcases
  rename_i data
  refine hl.remove [data, guardCondition] (fun a o => ?_) fun a o k b ho ha href => ?_
  · rw [hobjects, update_none_eq_some, update_none_eq_some]
    simp only [List.mem_cons, List.not_mem_nil, or_false]
    tauto
  · simp only [List.mem_cons, List.not_mem_nil, or_false, not_or] at ha ⊢
    constructor
    · rintro rfl
      have hk := purpose_of_held hl ho href hobject
      cases k with
      | guardCondition => exact ha.2 (hl.unique ho hhandle href (by simp))
      | _ => exact hk
    · rintro rfl
      have hk := purpose_of_held hl ho href hhandle
      cases k with
      | graphGuardCondition =>
        cases o with
        | node node =>
          obtain ⟨-, heq⟩ | ⟨_, heq, -⟩ := mem_refs_node.mp href
          · exact huser a node ho heq.symm
          · cases heq
        | _ => simp at href
      | _ => exact hk

theorem linked_destroysNode (hl : Linked (links defaults) h.get?) {node : ℕ}
    (hcases : DestroysNode h node h') : Linked (links defaults) h'.get? := by
  obtain ⟨hhandle, hobject, hguard, -, hobjects, -⟩ := hcases
  rename_i data trigger ecalNode
  refine hl.remove [ecalNode.guardCondition, data, node] (fun a o => ?_)
    fun a o k b ho ha href => ?_
  · rw [hobjects, update_none_eq_some, update_none_eq_some, update_none_eq_some]
    simp only [List.mem_cons, List.not_mem_nil, or_false]
    tauto
  · simp only [List.mem_cons, List.not_mem_nil, or_false, not_or] at ha ⊢
    refine ⟨?_, ?_, ?_⟩
    · rintro rfl
      have hk := purpose_of_held hl ho href hguard
      cases k with
      | graphGuardCondition => exact ha.2.1 (hl.unique ho hobject href (by simp))
      | _ => exact hk
    · rintro rfl
      have hk := purpose_of_held hl ho href hobject
      cases k with
      | node => exact ha.2.2 (hl.unique ho hhandle href (by simp))
      | _ => exact hk
    · rintro rfl
      have hk := purpose_of_held hl ho href hhandle
      cases k <;> exact hk

/-- A handle holds its entity for itself, and a node may have it besides. -/
theorem holder_of_entity {f : ℕ → Option (Object defaults)} (hl : Linked (links defaults) f)
    {a handle data typeSupport : ℕ} {o : Object defaults} {kind : EntityKind} {k : Purpose}
    {entity : Entity defaults} (hhandle : f handle = some (.rmwEntity kind data))
    (hobject : f data = some (.entity entity typeSupport)) (ho : f a = some o)
    (href : (k, data) ∈ (links defaults).refs o) :
    a = handle ∨ ∃ node, o = .node node ∧ data ∈ node.members kind := by
  have hkind : entity.kind = kind :=
    purpose_of_held (k := .entity kind) hl hhandle (by simp) hobject
  have hk := purpose_of_held hl ho href hobject
  cases k with
  | entity kind' =>
    obtain rfl : kind = kind' := hkind.symm.trans hk
    exact .inl (hl.unique ho hhandle href (by simp))
  | member kind' =>
    obtain rfl : kind = kind' := hkind.symm.trans hk
    cases o with
    | node node =>
      obtain ⟨heq, -⟩ | ⟨_, heq, hmem⟩ := mem_refs_node.mp href
      · cases heq
      · cases heq
        exact .inr ⟨node, rfl, hmem⟩
    | _ => simp at href
  | _ => exact hk.elim

theorem linked_erase (hl : Linked (links defaults) h.get?) {nodeData : ℕ} {node : NodeObject}
    (hnode : h.get? nodeData = some (.node node)) (kind : EntityKind) (data : ℕ) :
    Linked (links defaults)
      (Function.update h.get? nodeData (some (.node (node.erase kind data)))) := by
  have hmembers := nodup_refs_node.mp (hl.nodup hnode)
  refine hl.update (fun k b href => .inl ⟨_, hnode, ?_⟩) (fun old hold k hfits => ?_)
    (nodup_refs_node.mpr fun kind' => nodup_erase_members hmembers kind kind' data)
  · obtain ⟨rfl, rfl⟩ | ⟨kind', rfl, hb⟩ := mem_refs_node.mp href
    · exact mem_refs_node.mpr (.inl ⟨rfl, rfl⟩)
    · exact mem_refs_node.mpr (.inr ⟨kind', rfl, ((mem_erase_members hmembers).mp hb).1⟩)
  · obtain rfl := Option.some.inj (hnode.symm.trans hold)
    cases k <;> first | exact hfits.elim | trivial

theorem linked_destroysEntity (hl : Linked (links defaults) h.get?) {kind : EntityKind}
    {node handle : ℕ} (hcases : DestroysEntity kind h node handle h') :
    Linked (links defaults) h'.get? := by
  cases hcases with
  | kept hnode hhandle hobject hmem hnext hobjects hcount =>
    refine hl.remove [handle] (fun a o => ?_) fun a o k b ho ha href => ?_
    · rw [hobjects, update_none_eq_some, List.mem_singleton]
    · rw [List.mem_singleton]
      rintro rfl
      have hk := purpose_of_held hl ho href hhandle
      cases k <;> exact hk
  | @deleted nodeData data typeSupport ecalNode entity hnode hhandle hobject hmem hentity hsupport
      hnext hobjects hcount =>
    have hmembers := nodup_refs_node.mp (hl.nodup hobject)
    have hl₁ := linked_erase hl hobject kind data
    -- all but the node is as before when the node has forgotten the entity
    have hold : ∀ {a o}, h.get? a = some o → (∀ n, o ≠ .node n) → Function.update h.get? nodeData
        (some (.node (ecalNode.erase kind data))) a = some o := by
      rintro a o ho hne
      refine (Function.update_of_ne ?_ ..).trans ho
      rintro rfl
      exact hne _ (Option.some.inj (ho.symm.trans hobject))
    have hhandle₁ := hold hhandle nofun
    have hentity₁ := hold hentity nofun
    have hsupport₁ := hold hsupport nofun
    refine hl₁.remove [typeSupport, data, handle] (fun a o => ?_) fun a o k b ho ha href => ?_
    · rw [hobjects, update_none_eq_some, update_none_eq_some, update_none_eq_some]
      simp only [List.mem_cons, List.not_mem_nil, or_false]
      tauto
    · simp only [List.mem_cons, List.not_mem_nil, or_false, not_or] at ha ⊢
      refine ⟨?_, ?_, ?_⟩
      · rintro rfl
        have hk := purpose_of_held hl₁ ho href hsupport₁
        cases k with
        | typeSupport => exact ha.2.1 (hl₁.unique ho hentity₁ href (by simp))
        | _ => exact hk
      · rintro rfl
        obtain rfl | ⟨n, rfl, hn⟩ := holder_of_entity hl₁ hhandle₁ hentity₁ ho href
        · exact ha.2.2 rfl
        · obtain ⟨rfl, heq⟩ | ⟨hne, ho⟩ := update_some_eq_some.mp ho
          · cases heq
            exact ((mem_erase_members hmembers).mp hn).2 rfl rfl
          · exact hne (hl.unique (k := .member kind) ho hobject
              (mem_refs_node.mpr (.inr ⟨kind, rfl, hn⟩))
              (mem_refs_node.mpr (.inr ⟨kind, rfl, hmem⟩)))
      · rintro rfl
        have hk := purpose_of_held hl₁ ho href hhandle₁
        cases k <;> exact hk

end Linked

/-! ## Valid calls -/

section Valid

variable {h h' : Objects defaults} {call : Call} {kind : EntityKind} {node handle : ℕ}

theorem any_isRmwNode {o : Option (Object defaults)} :
    o.any Object.isRmwNode = true ↔ ∃ data, o = some (.rmwNode data) := by
  cases o with
  | none => simp
  | some o => cases o <;> simp [Object.isRmwNode]

theorem any_isRmwGuardCondition {o : Option (Object defaults)} :
    o.any Object.isRmwGuardCondition = true ↔ ∃ data, o = some (.rmwGuardCondition data) := by
  cases o with
  | none => simp
  | some o => cases o <;> simp [Object.isRmwGuardCondition]

theorem any_isRmwEntity {o : Option (Object defaults)} :
    o.any (Object.isRmwEntity kind) = true ↔ ∃ data, o = some (.rmwEntity kind data) := by
  cases o with
  | none => simp
  | some o => cases o <;> simp [Object.isRmwEntity]

theorem createEndpoint_kind {endpointType : TopicEndpointType} {topicName typeName : String}
    {profile : Profile} {n : NodeObject} {e : Entity defaults}
    (hcreate : createEndpoint endpointType topicName typeName profile n = .ok e) :
    e.kind = endpointKind endpointType := by
  rw [createEndpoint] at hcreate
  split at hcreate
  · cases hcreate
  · cases hcreate
    rfl

/-- A call creates what it is meant to create. -/
theorem creation_kind {supported : Bool} {create : NodeObject → Except Exception (Entity defaults)}
    (hcall : call.creation = some (kind, node, supported, create)) :
    ∀ n e, create n = .ok e → e.kind = kind := by
  intro n e hcreate
  cases call with
  | createPublisher =>
    cases hcall
    exact createEndpoint_kind hcreate
  | createSubscription =>
    cases hcall
    exact createEndpoint_kind hcreate
  | createService =>
    cases hcall
    cases hcreate
    rfl
  | createClient =>
    cases hcall
    cases hcreate
    rfl
  | _ => cases hcall

/-- The guard condition that the caller destroys is none of a node. -/
theorem Valid.not_graph {guardCondition : ℕ}
    (hvalid : Valid h (.destroyGuardCondition guardCondition)) {a : ℕ} {n : NodeObject}
    (hn : h.get? a = some (.node n)) :
    n.guardCondition ≠ guardCondition := by
  have hcount := (Bool.and_eq_true_iff.mp hvalid).2
  have hnone := Heap.count_eq_zero.mp (beq_iff_eq.mp hcount) a _ hn
  simpa [Object.hasGraphGuardCondition] using hnone

theorem linked_step (hl : Linked (links defaults) h.get?) (hvalid : Valid h call)
    (hstep : step h call = some h') : Linked (links defaults) h'.get? := by
  cases step_cases hstep with
  | createsGuardCondition => exact linked_createGuardCondition hl
  | destroysGuardCondition hcases =>
    exact linked_destroysGuardCondition hl (fun _ _ hn => hvalid.not_graph hn) hcases
  | createsNode name nameSpace => exact linked_createNode hl name nameSpace
  | destroysNode hcases => exact linked_destroysNode hl hcases
  | createsEntity hcall hcases => exact linked_createsEntity hl (creation_kind hcall) hcases
  | destroysEntity _ hcases => exact linked_destroysEntity hl hcases
  | accesses => exact hl

/-- **Every address leads where it should**, whatever valid calls have been made. -/
theorem linked (hr : (system defaults).Reachable Valid h) : Linked (links defaults) h.get? :=
  hr.invariant (P := fun h => Linked (links defaults) h.get?) (linked_empty _)
    fun _ _ _ => linked_step

end Valid

section Progress

variable {h : Objects defaults} {kind : EntityKind} {node handle data : ℕ}

/-- What is behind the handle of a guard condition. -/
theorem guardCondition_of_handle (hl : Linked (links defaults) h.get?)
    (hhandle : h.get? handle = some (.rmwGuardCondition data)) :
    h.get? data = some .guardCondition := by
  obtain ⟨o, ho, hfits⟩ := hl.leads (k := .guardCondition) hhandle (List.mem_singleton_self _)
  cases o with
  | guardCondition => exact ho
  | _ => exact hfits.elim

/-- What is behind the handle of a node. -/
theorem node_of_handle (hl : Linked (links defaults) h.get?)
    (hhandle : h.get? handle = some (.rmwNode data)) :
    ∃ n trigger, h.get? data = some (.node n) ∧
      h.get? n.guardCondition = some (.rmwGuardCondition trigger) := by
  obtain ⟨o, ho, hfits⟩ := hl.leads (k := .node) hhandle (List.mem_singleton_self _)
  cases o with
  | node n =>
    obtain ⟨o', ho', hfits'⟩ := hl.leads (k := .graphGuardCondition) ho
      (mem_refs_node.mpr (.inl ⟨rfl, rfl⟩))
    cases o' with
    | rmwGuardCondition trigger => exact ⟨n, trigger, ho, ho'⟩
    | _ => exact hfits'.elim
  | _ => exact hfits.elim

/-- What is behind the handle of an entity. -/
theorem entity_of_handle (hl : Linked (links defaults) h.get?)
    (hhandle : h.get? handle = some (.rmwEntity kind data)) :
    ∃ entity typeSupport, h.get? data = some (.entity entity typeSupport) ∧ entity.kind = kind ∧
      h.get? typeSupport = some .typeSupport := by
  obtain ⟨o, ho, hfits⟩ := hl.leads (k := .entity kind) hhandle (List.mem_singleton_self _)
  cases o with
  | entity entity typeSupport =>
    obtain ⟨o', ho', hfits'⟩ := hl.leads (k := .typeSupport) ho (List.mem_singleton_self _)
    cases o' with
    | typeSupport => exact ⟨entity, typeSupport, ho, hfits, ho'⟩
    | _ => exact hfits'.elim
  | _ => exact hfits.elim

/-- Objects of different kinds are at different addresses. -/
theorem ne_of_get? {a b : ℕ} {o target : Object defaults} (ha : h.get? a = some o)
    (hb : h.get? b = some target) (hne : o ≠ target) : a ≠ b := by
  rintro rfl
  exact hne (Option.some.inj (ha.symm.trans hb))

theorem isSome_rmwDestroyGuardCondition (hl : Linked (links defaults) h.get?)
    (hhandle : h.get? handle = some (.rmwGuardCondition data)) :
    (rmwDestroyGuardCondition h handle).isSome := by
  have hobject := guardCondition_of_handle hl hhandle
  obtain ⟨h₁, hfirst, hget₁⟩ := Heap.exists_delete hobject
  obtain ⟨h₂, hsecond, -⟩ := Heap.exists_delete (h := h₁) (a := handle)
    (by rw [hget₁, Function.update_of_ne (ne_of_get? hhandle hobject nofun), hhandle])
  simp only [rmwDestroyGuardCondition, hhandle, hobject, hfirst, hsecond, Option.bind_eq_bind,
    Option.bind_some, Option.isSome_some]

theorem isSome_rmwDestroyNode (hl : Linked (links defaults) h.get?)
    (hhandle : h.get? node = some (.rmwNode data)) : (rmwDestroyNode h node).isSome := by
  obtain ⟨n, trigger, hobject, hguard⟩ := node_of_handle hl hhandle
  obtain ⟨h₁, hfirst, hget₁⟩ := Heap.exists_delete hguard
  obtain ⟨h₂, hsecond, hget₂⟩ := Heap.exists_delete (h := h₁) (a := data)
    (by rw [hget₁, Function.update_of_ne (ne_of_get? hobject hguard nofun), hobject])
  obtain ⟨h₃, hthird, -⟩ := Heap.exists_delete (h := h₂) (a := node)
    (by rw [hget₂, Function.update_of_ne (ne_of_get? hhandle hobject nofun), hget₁,
      Function.update_of_ne (ne_of_get? hhandle hguard nofun), hhandle])
  simp only [rmwDestroyNode, hhandle, hobject, hguard, hfirst, hsecond, hthird,
    Option.bind_eq_bind, Option.bind_some, Option.isSome_some]

theorem isSome_rmwCreateEntity (hl : Linked (links defaults) h.get?)
    (hhandle : h.get? node = some (.rmwNode data)) (supported : Bool)
    (create : NodeObject → Except Exception (Entity defaults)) :
    (rmwCreateEntity kind h node supported create).isSome := by
  obtain ⟨n, trigger, hobject, -⟩ := node_of_handle hl hhandle
  have hlt := Heap.lt_of_get? hobject
  have hobject₁ : Function.update h.get? h.next (some .typeSupport) data = some (.node n) := by
    rw [Function.update_of_ne hlt.ne, hobject]
  cases supported with
  | false => simp [rmwCreateEntity, hhandle]
  | true =>
    cases hmade : create n with
    | error e => simp [rmwCreateEntity, hhandle, hobject₁, hmade]
    | ok entity =>
      obtain ⟨h₂, hwrite, -⟩ := Heap.exists_write (a := data)
        (h := ((h.alloc .typeSupport).1.alloc (.entity entity h.next)).1)
        (by rw [Heap.get?_alloc, Heap.next_alloc, Function.update_of_ne (by omega),
          Heap.get?_alloc, hobject₁])
        (.node (n.insert kind (h.next + 1)))
      simp [rmwCreateEntity, hhandle, hobject₁, hmade, hwrite]

theorem isSome_rmwDestroyEntity (hl : Linked (links defaults) h.get?) {nodeData : ℕ}
    (hnode : h.get? node = some (.rmwNode nodeData))
    (hhandle : h.get? handle = some (.rmwEntity kind data)) :
    (rmwDestroyEntity kind h node handle).isSome := by
  obtain ⟨n, trigger, hobject, -⟩ := node_of_handle hl hnode
  obtain ⟨entity, typeSupport, hentity, -, hsupport⟩ := entity_of_handle hl hhandle
  by_cases hmem : data ∈ n.members kind
  · obtain ⟨h₁, hwrite, hget₁⟩ := Heap.exists_write hobject (.node (n.erase kind data))
    have hkept : ∀ {a o}, h.get? a = some o → o ≠ .node n → h₁.get? a = some o := fun ha hne => by
      rw [hget₁, Function.update_of_ne (ne_of_get? ha hobject hne), ha]
    have hentity₁ := hkept hentity nofun
    have hsupport₁ := hkept hsupport nofun
    obtain ⟨h₂, hfirst, hget₂⟩ := Heap.exists_delete hsupport₁
    obtain ⟨h₃, hsecond, hget₃⟩ := Heap.exists_delete (h := h₂) (a := data)
      (by rw [hget₂, Function.update_of_ne (ne_of_get? hentity₁ hsupport₁ nofun), hentity₁])
    have hhandle₁ := hkept hhandle nofun
    obtain ⟨h₄, hthird, -⟩ := Heap.exists_delete (h := h₃) (a := handle)
      (by rw [hget₃, Function.update_of_ne (ne_of_get? hhandle₁ hentity₁ nofun), hget₂,
        Function.update_of_ne (ne_of_get? hhandle₁ hsupport₁ nofun), hhandle₁])
    simp [rmwDestroyEntity, deleteEntity, hnode, hhandle, hobject, hmem, hwrite, hentity₁,
      hsupport₁, hfirst, hsecond, hthird]
  · obtain ⟨h₁, hdelete, -⟩ := Heap.exists_delete hhandle
    simp [rmwDestroyEntity, hnode, hhandle, hobject, hmem, hdelete]

theorem follows_of_isHandle (hl : Linked (links defaults) h.get?)
    (hvalid : (h.get? handle).any Object.isHandle = true) : follows h handle = true := by
  cases ho : h.get? handle with
  | none =>
    rw [ho] at hvalid
    cases hvalid
  | some o =>
    cases o with
    | rmwNode data =>
      obtain ⟨n, -, hobject, -⟩ := node_of_handle hl ho
      simp [follows, ho, hobject]
    | rmwGuardCondition data => simp [follows, ho, guardCondition_of_handle hl ho]
    | rmwEntity kind data =>
      obtain ⟨entity, typeSupport, hobject, hkind, hsupport⟩ := entity_of_handle hl ho
      simp [follows, ho, hobject, hkind, hsupport]
    | _ =>
      rw [ho] at hvalid
      cases hvalid

/-- **No call goes wrong**: after whatever valid calls have been made, the next valid call follows
and frees nothing that is not there, or not what it is taken for. -/
theorem valid_calls_succeed (hr : (system defaults).Reachable Valid h) {call : Call}
    (hvalid : Valid h call) : ∃ h', (system defaults).step h call = some h' := by
  have hl := linked hr
  suffices hsome : (step h call).isSome = true from Option.isSome_iff_exists.mp hsome
  have hcreate : ∀ {kind : EntityKind} {node : ℕ} {supported : Bool}
      {create : NodeObject → Except Exception (Entity defaults)},
      (h.get? node).any Object.isRmwNode = true →
      ((rmwCreateEntity kind h node supported create).map Prod.fst).isSome = true := by
    intro kind node supported create hnode
    obtain ⟨data, hhandle⟩ := any_isRmwNode.mp hnode
    rw [Option.isSome_map]
    exact isSome_rmwCreateEntity hl hhandle supported create
  have hdestroy : ∀ {kind : EntityKind} {node handle : ℕ},
      valid.validDestroy h kind node handle = true →
      (rmwDestroyEntity kind h node handle).isSome = true := by
    intro kind node handle hvalid
    obtain ⟨hnode, hhandle⟩ := Bool.and_eq_true_iff.mp hvalid
    obtain ⟨nodeData, hnode⟩ := any_isRmwNode.mp hnode
    obtain ⟨data, hhandle⟩ := any_isRmwEntity.mp hhandle
    exact isSome_rmwDestroyEntity hl hnode hhandle
  cases call with
  | createGuardCondition => rfl
  | destroyGuardCondition guardCondition =>
    obtain ⟨data, hhandle⟩ := any_isRmwGuardCondition.mp (Bool.and_eq_true_iff.mp hvalid).1
    exact isSome_rmwDestroyGuardCondition hl hhandle
  | createNode => rfl
  | destroyNode node =>
    obtain ⟨data, hhandle⟩ := any_isRmwNode.mp hvalid
    exact isSome_rmwDestroyNode hl hhandle
  | createPublisher => exact hcreate hvalid
  | createSubscription => exact hcreate hvalid
  | createService => exact hcreate hvalid
  | createClient => exact hcreate hvalid
  | destroyPublisher => exact hdestroy hvalid
  | destroySubscription => exact hdestroy hvalid
  | destroyService => exact hdestroy hvalid
  | destroyClient => exact hdestroy hvalid
  | access handle =>
    show (if follows h handle then some h else none).isSome = true
    rw [if_pos (follows_of_isHandle hl hvalid)]
    rfl

end Progress

/-- A node, a publisher on it, and then the publisher is destroyed. -/
def publisherCalls : List Call :=
  [.createNode "talker" "/", .createPublisher 3 true "/chatter" "std_msgs/String" defaultProfile]

theorem valid_calls_succeed_publisher : ∃ h h',
    (system someDefaults).exec Valid .empty publisherCalls = some h ∧
      (system someDefaults).step h (.destroyPublisher 3 6) = some h' := by
  have hrun : (system someDefaults).exec Valid .empty publisherCalls = some _ := rfl
  obtain ⟨h', hstep⟩ :=
    @valid_calls_succeed _ _ (System.reachable_of_exec _ hrun) (.destroyPublisher 3 6) rfl
  exact ⟨_, h', hrun, hstep⟩

end Handles

end RmwEcal
