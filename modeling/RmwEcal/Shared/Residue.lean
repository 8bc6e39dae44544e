import RmwEcal.Shared.Ownership

/-!
# What is left behind

That nothing is freed too early is one half; the other is that everything is freed in the end, and
there the books do not balance.  `residue` says what is left by whatever valid calls, and
`deleted_later_iff` which entities can still be deleted: those that a node remembers, as long as
they and the node have handles.  So whatever is on a node when the node is destroyed stays for good
(`left_by_node`).
-/

set_option autoImplicit false

namespace RmwEcal

open Transition Qos RmwEcal.Graph

namespace Handles

variable {defaults : Defaults}

/-! ## The books -/

/-- A `Node`. -/
def Object.isNode : Object defaults → Bool
  | .node _ => true
  | _ => false

/-- A `GuardCondition`. -/
def Object.isGuardCondition : Object defaults → Bool
  | .guardCondition => true
  | _ => false

/-- A `MessageTypeSupport` or a `ServiceTypeSupport`. -/
def Object.isTypeSupport : Object defaults → Bool
  | .typeSupport => true
  | _ => false

/-- A `Publisher`, `Subscriber`, `Service` or `Client`. -/
def Object.isEntity : Object defaults → Bool
  | .entity _ _ => true
  | _ => false

/-- A handle of one of those. -/
def Object.isEntityHandle : Object defaults → Bool
  | .rmwEntity _ _ => true
  | _ => false

/-- The node behind a handle. -/
def nodeOf (h : Objects defaults) (node : ℕ) : Option NodeObject :=
  match h.get? node with
  | some (.rmwNode data) => match h.get? data with
    | some (.node n) => some n
    | _ => none
  | _ => none

/-- A call that destroys a node leaves its guard condition. -/
def abandoned (_ : Objects defaults) : Call → ℕ
  | .destroyNode _ => 1
  | _ => 0

/-- A call that destroys an entity leaves it if the node does not have it. -/
def mislaid (h : Objects defaults) (call : Call) : ℕ :=
  match call.destruction with
  | some (kind, node, handle) => match nodeOf h node, h.get? handle with
    | some n, some (.rmwEntity _ data) => if data ∈ n.members kind then 0 else 1
    | _, _ => 0
  | none => 0

/-- A call that creates an entity leaves the type support if the profile is refused. -/
def refused (h : Objects defaults) (call : Call) : ℕ :=
  match @Call.creation defaults call with
  | some (_, node, true, create) => match nodeOf h node with
    | some n => match create n with
      | .ok _ => 0
      | .error _ => 1
    | none => 0
  | _ => 0

section Balance

variable {h h' : Objects defaults} {call : Call} {kind : EntityKind} {node handle : ℕ}

/-- A call that creates an entity leaves nothing else. -/
theorem losses_of_creation {supported : Bool}
    {create : NodeObject → Except Exception (Entity defaults)}
    (hcall : call.creation = some (kind, node, supported, create)) :
    abandoned h call = 0 ∧ mislaid h call = 0 := by
  cases call <;> first | exact ⟨rfl, rfl⟩ | cases hcall

/-- Nor does one that destroys an entity. -/
theorem losses_of_destruction (hcall : call.destruction = some (kind, node, handle)) :
    abandoned h call = 0 ∧ refused h call = 0 := by
  cases call <;> first | exact ⟨rfl, rfl⟩ | cases hcall

theorem refused_eq {supported : Bool} {create : NodeObject → Except Exception (Entity defaults)}
    {result : Except Exception ℕ}
    (hcall : call.creation = some (kind, node, supported, create))
    (hcases : CreatesEntity kind h node create supported h' result) :
    refused h call + h.count Object.isTypeSupport + h'.count Object.isEntity =
      h'.count Object.isTypeSupport + h.count Object.isEntity := by
  cases hcases with
  | unsupported =>
    rw [refused, hcall]
    show 0 + _ + _ = _
    omega
  | refused hhandle hobject hthrown =>
    rw [refused, hcall, Heap.count_alloc, Heap.count_alloc]
    simp [nodeOf, hhandle, hobject, hthrown, Object.isTypeSupport, Object.isEntity]
    omega
  | created hhandle hobject hmade hnext hobjects hcount =>
    have hsupports := hcount Object.isTypeSupport
    have hentities := hcount Object.isEntity
    simp only [Object.isTypeSupport, Object.isEntity, Bool.toNat_true, Bool.toNat_false,
      Nat.add_zero] at hsupports hentities
    rw [refused, hcall]
    simp [nodeOf, hhandle, hobject, hmade]
    omega

theorem mislaid_eq (hcall : call.destruction = some (kind, node, handle))
    (hcases : DestroysEntity kind h node handle h') :
    mislaid h call + h.count Object.isEntity + h'.count Object.isEntityHandle =
        h'.count Object.isEntity + h.count Object.isEntityHandle ∧
      h'.count Object.isTypeSupport + h.count Object.isEntity =
        h'.count Object.isEntity + h.count Object.isTypeSupport := by
  cases hcases with
  | deleted hnode hhandle hobject hmem _ _ _ _ hcount =>
    have hsupports := hcount Object.isTypeSupport
    have hentities := hcount Object.isEntity
    have hhandles := hcount Object.isEntityHandle
    simp only [Object.isTypeSupport, Object.isEntity, Object.isEntityHandle, Bool.toNat_true,
      Bool.toNat_false, Nat.add_zero] at hsupports hentities hhandles
    rw [mislaid, hcall]
    simp [nodeOf, hnode, hhandle, hobject, hmem]
    omega
  | kept hnode hhandle hobject hmem _ _ hcount =>
    have hsupports := hcount Object.isTypeSupport
    have hentities := hcount Object.isEntity
    have hhandles := hcount Object.isEntityHandle
    simp only [Object.isTypeSupport, Object.isEntity, Object.isEntityHandle, Bool.toNat_true,
      Bool.toNat_false, Nat.add_zero] at hsupports hentities hhandles
    rw [mislaid, hcall]
    simp [nodeOf, hnode, hhandle, hobject, hmem]
    omega

/-- **What a step leaves behind.** -/
theorem step_balance (hstep : step h call = some h') :
    (h'.count Object.isNode + h.count Object.isRmwNode =
      h'.count Object.isRmwNode + h.count Object.isNode) ∧
    (h'.count Object.isGuardCondition + h.count Object.isRmwGuardCondition =
      h'.count Object.isRmwGuardCondition + h.count Object.isGuardCondition +
        abandoned h call) ∧
    (h'.count Object.isEntity + h.count Object.isEntityHandle =
      h'.count Object.isEntityHandle + h.count Object.isEntity + mislaid h call) ∧
    (h'.count Object.isTypeSupport + h.count Object.isEntity =
      h'.count Object.isEntity + h.count Object.isTypeSupport + refused h call) := by
  cases step_cases hstep with
  | createsGuardCondition =>
    simp [rmwCreateGuardCondition_count, Object.isNode, Object.isRmwNode, Object.isGuardCondition,
      Object.isRmwGuardCondition, Object.isEntity, Object.isEntityHandle, Object.isTypeSupport,
      abandoned, mislaid, refused, Call.creation, Call.destruction]
    omega
  | destroysGuardCondition hcases =>
    obtain ⟨-, -, -, -, hcount⟩ := hcases
    simp [← hcount, Object.isNode, Object.isRmwNode, Object.isGuardCondition,
      Object.isRmwGuardCondition, Object.isEntity, Object.isEntityHandle, Object.isTypeSupport,
      abandoned, mislaid, refused, Call.creation, Call.destruction]
    omega
  | createsNode name nameSpace =>
    simp [rmwCreateNode_count, rmwCreateGuardCondition_count, Object.isNode, Object.isRmwNode,
      Object.isGuardCondition, Object.isRmwGuardCondition, Object.isEntity, Object.isEntityHandle,
      Object.isTypeSupport, abandoned, mislaid, refused, Call.creation, Call.destruction]
    omega
  | destroysNode hcases =>
    obtain ⟨-, -, -, -, -, hcount⟩ := hcases
    simp [← hcount, Object.isNode, Object.isRmwNode, Object.isGuardCondition,
      Object.isRmwGuardCondition, Object.isEntity, Object.isEntityHandle, Object.isTypeSupport,
      abandoned, mislaid, refused, Call.creation, Call.destruction]
    omega
  | createsEntity hcall hcases =>
    obtain ⟨habandoned, hmislaid⟩ := losses_of_creation (h := h) hcall
    have hrefused := refused_eq hcall hcases
    rw [habandoned, hmislaid]
    suffices hkept : h'.count Object.isNode = h.count Object.isNode ∧
        h'.count Object.isRmwNode = h.count Object.isRmwNode ∧
        h'.count Object.isGuardCondition = h.count Object.isGuardCondition ∧
        h'.count Object.isRmwGuardCondition = h.count Object.isRmwGuardCondition ∧
        h'.count Object.isEntity + h.count Object.isEntityHandle =
          h'.count Object.isEntityHandle + h.count Object.isEntity by omega
    cases hcases with
    | unsupported => exact ⟨rfl, rfl, rfl, rfl, Nat.add_comm _ _⟩
    | refused =>
      simp [Object.isNode, Object.isRmwNode, Object.isGuardCondition, Object.isRmwGuardCondition,
        Object.isEntity, Object.isEntityHandle, Nat.add_comm]
    | created _ _ _ _ _ hcount =>
      have hnodes := hcount Object.isNode
      have hentities := hcount Object.isEntity
      have hhandles := hcount Object.isEntityHandle
      simp only [Object.isNode, Object.isEntity, Object.isEntityHandle, Bool.toNat_true,
        Bool.toNat_false, Nat.add_zero] at hnodes hentities hhandles
      exact ⟨by omega, hcount Object.isRmwNode, hcount Object.isGuardCondition,
        hcount Object.isRmwGuardCondition, by omega⟩
  | destroysEntity hcall hcases =>
    obtain ⟨habandoned, hrefused⟩ := losses_of_destruction (h := h) hcall
    obtain ⟨hmislaid, hsupports⟩ := mislaid_eq hcall hcases
    rw [habandoned, hrefused]
    suffices hkept : h'.count Object.isNode = h.count Object.isNode ∧
        h'.count Object.isRmwNode = h.count Object.isRmwNode ∧
        h'.count Object.isGuardCondition = h.count Object.isGuardCondition ∧
        h'.count Object.isRmwGuardCondition = h.count Object.isRmwGuardCondition by omega
    cases hcases with
    | deleted _ _ _ _ _ _ _ _ hcount =>
      exact ⟨Nat.add_right_cancel (hcount Object.isNode), hcount Object.isRmwNode,
        hcount Object.isGuardCondition, hcount Object.isRmwGuardCondition⟩
    | kept _ _ _ _ _ _ hcount =>
      exact ⟨hcount Object.isNode, hcount Object.isRmwNode, hcount Object.isGuardCondition,
        hcount Object.isRmwGuardCondition⟩
  | accesses =>
    simp [abandoned, mislaid, refused, Call.creation, Call.destruction, Nat.add_comm]

/-- The call destroys a node. -/
def Call.destroysNode : Call → Bool
  | .destroyNode _ => true
  | _ => false

theorem abandoned_eq (h : Objects defaults) (call : Call) :
    abandoned h call = call.destroysNode.toNat := by cases call <;> rfl

/-- Every node that is destroyed leaves one. -/
theorem total_abandoned {calls : List Call} (hrun : (system defaults).exec Valid h calls = some h') :
    (system defaults).total abandoned h calls = calls.countP Call.destroysNode := by
  induction calls generalizing h with
  | nil => rfl
  | cons call calls ih =>
    rw [System.exec, Option.ite_none_right_eq_some] at hrun
    obtain ⟨h₁, hstep, hrun⟩ := Option.bind_eq_some_iff.mp hrun.2
    rw [System.total, hstep, Option.map_some, Option.getD_some, ih hrun, abandoned_eq,
      List.countP_cons, Heap.ite_eq_toNat, Nat.add_comm]

end Balance

/-- **The books**: for every node there is a handle.  There are as many guard conditions too many as
nodes have been destroyed, as many entities as have been destroyed through a node that did not have
them, and as many type supports as profiles have been refused. -/
theorem residue {calls : List Call} {h : Objects defaults}
    (hrun : (system defaults).exec Valid .empty calls = some h) :
    h.count Object.isNode = h.count Object.isRmwNode ∧
      h.count Object.isGuardCondition =
        h.count Object.isRmwGuardCondition + calls.countP Call.destroysNode ∧
      h.count Object.isEntity =
        h.count Object.isEntityHandle + (system defaults).total mislaid .empty calls ∧
      h.count Object.isTypeSupport =
        h.count Object.isEntity + (system defaults).total refused .empty calls := by
  have hbalance : ∀ {there accounted : Objects defaults → ℕ} {loss : Objects defaults → Call → ℕ},
      (∀ {h call h'}, step h call = some h' →
        there h' + accounted h = accounted h' + there h + loss h call) →
      there h + accounted .empty =
        accounted h + there .empty + (system defaults).total loss .empty calls :=
    fun hstep => System.exec_balance (P := fun _ => True) (fun _ _ _ _ _ _ => trivial)
      (fun _ _ _ _ _ => hstep) trivial hrun
  have hnodes := @hbalance (Heap.count · Object.isNode) (Heap.count · Object.isRmwNode)
    (fun _ _ => 0) fun hstep => (step_balance hstep).1
  have hguards := @hbalance (Heap.count · Object.isGuardCondition)
    (Heap.count · Object.isRmwGuardCondition) abandoned fun hstep => (step_balance hstep).2.1
  have hentities := @hbalance (Heap.count · Object.isEntity) (Heap.count · Object.isEntityHandle)
    mislaid fun hstep => (step_balance hstep).2.2.1
  have hsupports := @hbalance (Heap.count · Object.isTypeSupport) (Heap.count · Object.isEntity)
    refused fun hstep => (step_balance hstep).2.2.2
  rw [total_abandoned hrun] at hguards
  rw [System.total_zero] at hnodes
  exact ⟨hnodes, hguards, hentities, hsupports⟩

/-- Two nodes; the publisher of one is destroyed through the other, then both nodes are. -/
def mislaidCalls : List Call :=
  [.createNode "talker" "/", .createNode "listener" "/",
    .createPublisher 3 true "/chatter" "std_msgs/String" defaultProfile,
    .destroyPublisher 7 10, .destroyNode 3, .destroyNode 7]

theorem residue_mislaid : ∃ h, (system someDefaults).exec Valid .empty mislaidCalls = some h ∧
    h.count Object.isHandle = 0 ∧ h.count Object.isGuardCondition = 2 ∧
    h.count Object.isEntity = 1 ∧ h.count Object.isTypeSupport = 1 := by
  have hrun : (system someDefaults).exec Valid .empty mislaidCalls = some _ := rfl
  obtain ⟨-, hguards, hentities, hsupports⟩ := residue hrun
  exact ⟨_, hrun, rfl, hguards, hentities, hsupports⟩

/-! ## What stays for good -/

section Lost

variable {h h' : Objects defaults} {call : Call} {kind : EntityKind} {a b data : ℕ}
  {o : Object defaults}

theorem mem_refs_entity_iff :
    (.entity kind, b) ∈ (links defaults).refs o ↔ o = .rmwEntity kind b := by
  cases o <;> simp [eq_comm]

theorem mem_refs_node_iff : (.node, b) ∈ (links defaults).refs o ↔ o = .rmwNode b := by
  cases o <;> simp [eq_comm]

theorem mem_refs_member_iff : (.member kind, b) ∈ (links defaults).refs o ↔
    ∃ n, o = .node n ∧ b ∈ n.members kind := by
  cases o <;> simp

theorem erase_subset {n : NodeObject} {kind' : EntityKind} :
    (n.erase kind data).members kind' ⊆ n.members kind' := by
  by_cases hkind : kind' = kind
  · subst hkind
    simpa [NodeObject.erase] using List.erase_subset
  · simp [NodeObject.erase, hkind]

/-- **No step leads to an object that was there already**, unless by an address that was held. -/
theorem refs_of_step (hstep : step h call = some h') {k : Purpose} (ho : h'.get? a = some o)
    (href : (k, b) ∈ (links defaults).refs o) :
    h.next ≤ b ∨ ∃ old, h.get? a = some old ∧ (k, b) ∈ (links defaults).refs old := by
  have hsame : h.get? a = some o →
      h.next ≤ b ∨ ∃ old, h.get? a = some old ∧ (k, b) ∈ (links defaults).refs old :=
    fun ho => .inr ⟨o, ho, href⟩
  have hguard : (rmwCreateGuardCondition h).1.get? a = some o →
      h.next ≤ b ∨ ∃ old, h.get? a = some old ∧ (k, b) ∈ (links defaults).refs old := by
    intro ho
    rw [rmwCreateGuardCondition_get?, update_some_eq_some, update_some_eq_some] at ho
    obtain ⟨-, rfl⟩ | ⟨-, ⟨-, rfl⟩ | ⟨-, ho⟩⟩ := ho
    · obtain ⟨-, rfl⟩ : k = .guardCondition ∧ b = h.next := by simpa using href
      exact .inl le_rfl
    · cases href
    · exact hsame ho
  cases step_cases hstep with
  | createsGuardCondition => exact hguard ho
  | destroysGuardCondition hcases =>
    obtain ⟨-, -, -, hobjects, -⟩ := hcases
    rw [hobjects, update_none_eq_some, update_none_eq_some] at ho
    exact hsame ho.2.2
  | createsNode name nameSpace =>
    rw [rmwCreateNode_get?, update_some_eq_some, update_some_eq_some] at ho
    obtain ⟨-, rfl⟩ | ⟨-, ⟨-, rfl⟩ | ⟨-, ho⟩⟩ := ho
    · obtain ⟨-, rfl⟩ : k = .node ∧ b = h.next + 2 := by simpa using href
      exact .inl (by omega)
    · obtain ⟨-, rfl⟩ : k = .graphGuardCondition ∧ b = h.next + 1 := by simpa using href
      exact .inl (by omega)
    · exact hguard ho
  | destroysNode hcases =>
    obtain ⟨-, -, -, -, hobjects, -⟩ := hcases
    rw [hobjects, update_none_eq_some, update_none_eq_some, update_none_eq_some] at ho
    exact hsame ho.2.2.2
  | createsEntity hcall hcases =>
    cases hcases with
    | unsupported => exact hsame ho
    | refused =>
      rw [Heap.get?_alloc, update_some_eq_some] at ho
      obtain ⟨-, rfl⟩ | ⟨-, ho⟩ := ho
      · cases href
      · exact hsame ho
    | created _ hobject _ _ hobjects _ =>
      rw [hobjects, update_some_eq_some, update_some_eq_some, update_some_eq_some,
        update_some_eq_some] at ho
      obtain ⟨-, rfl⟩ | ⟨-, ⟨rfl, rfl⟩ | ⟨-, ⟨-, rfl⟩ | ⟨-, ⟨-, rfl⟩ | ⟨-, ho⟩⟩⟩⟩ := ho
      · simp only [refs_rmwEntity, List.mem_singleton, Prod.mk.injEq] at href
        exact .inl (by omega)
      · obtain ⟨rfl, rfl⟩ | ⟨kind', rfl, hb⟩ := mem_refs_node.mp href
        · exact .inr ⟨_, hobject, mem_refs_node.mpr (.inl ⟨rfl, rfl⟩)⟩
        · obtain ⟨rfl, -⟩ | hb := mem_insert_members.mp hb
          · exact .inl (Nat.le_succ _)
          · exact .inr ⟨_, hobject, mem_refs_node.mpr (.inr ⟨kind', rfl, hb⟩)⟩
      · simp only [refs_entity, List.mem_singleton, Prod.mk.injEq] at href
        exact .inl (by omega)
      · cases href
      · exact hsame ho
  | destroysEntity hcall hcases =>
    cases hcases with
    | deleted _ _ hobject _ _ _ _ hobjects _ =>
      rw [hobjects, update_none_eq_some, update_none_eq_some, update_none_eq_some,
        update_some_eq_some] at ho
      obtain ⟨-, -, -, ⟨rfl, rfl⟩ | ⟨-, ho⟩⟩ := ho
      · obtain ⟨rfl, rfl⟩ | ⟨kind', rfl, hb⟩ := mem_refs_node.mp href
        · exact .inr ⟨_, hobject, mem_refs_node.mpr (.inl ⟨rfl, rfl⟩)⟩
        · exact .inr ⟨_, hobject, mem_refs_node.mpr (.inr ⟨kind', rfl, erase_subset hb⟩)⟩
      · exact hsame ho
    | kept _ _ _ _ _ hobjects _ =>
      rw [hobjects, update_none_eq_some] at ho
      exact hsame ho.2
  | accesses => exact hsame ho

/-- An entity has a handle, and so has a node that remembers it. -/
def Deletable (h : Objects defaults) (kind : EntityKind) (data : ℕ) : Prop :=
  ∃ node nodeData n handle, h.get? node = some (.rmwNode nodeData) ∧
    h.get? nodeData = some (.node n) ∧ data ∈ n.members kind ∧
    h.get? handle = some (.rmwEntity kind data)

/-- It does not become so. -/
theorem Deletable.of_step (hstep : step h call = some h') (hdata : data < h.next)
    (hd : Deletable h' kind data) : Deletable h kind data := by
  obtain ⟨node, nodeData, n, handle, hnode, hobject, hmem, hhandle⟩ := hd
  obtain hle | ⟨old, hold, href⟩ := refs_of_step hstep hhandle (mem_refs_entity_iff.mpr rfl)
  · omega
  obtain rfl := mem_refs_entity_iff.mp href
  obtain hle | ⟨old, hobject, href⟩ :=
    refs_of_step hstep hobject (mem_refs_member_iff.mpr ⟨n, rfl, hmem⟩)
  · omega
  obtain ⟨n, rfl, hmem⟩ := mem_refs_member_iff.mp href
  obtain hle | ⟨old, hnode, href⟩ := refs_of_step hstep hnode (mem_refs_node_iff.mpr rfl)
  · exact absurd (Heap.lt_of_get? hobject) (by omega)
  obtain rfl := mem_refs_node_iff.mp href
  exact ⟨node, nodeData, n, handle, hnode, hobject, hmem, hold⟩

variable {entity : Entity defaults} {typeSupport : ℕ}

/-- **An entity stays as it is**, or it can be deleted, and is. -/
theorem entity_of_step (hl : Linked (links defaults) h.get?) (hstep : step h call = some h')
    (hobject : h.get? data = some (.entity entity typeSupport)) :
    h'.get? data = some (.entity entity typeSupport) ∨ Deletable h entity.kind data := by
  have hlt := Heap.lt_of_get? hobject
  have hne : ∀ {b target}, h.get? b = some target → target.isEntity = false → data ≠ b := by
    rintro b target hb htarget rfl
    obtain rfl := Option.some.inj (hobject.symm.trans hb)
    cases htarget
  cases step_cases hstep with
  | createsGuardCondition =>
    left
    rw [rmwCreateGuardCondition_get?, Function.update_of_ne (by omega),
      Function.update_of_ne (by omega), hobject]
  | destroysGuardCondition hcases =>
    obtain ⟨hhandle, hguard, -, hobjects, -⟩ := hcases
    left
    rw [hobjects, Function.update_of_ne (hne hhandle rfl), Function.update_of_ne (hne hguard rfl),
      hobject]
  | createsNode name nameSpace =>
    left
    rw [rmwCreateNode_get?, Function.update_of_ne (by omega), Function.update_of_ne (by omega),
      rmwCreateGuardCondition_get?, Function.update_of_ne (by omega),
      Function.update_of_ne (by omega), hobject]
  | destroysNode hcases =>
    obtain ⟨hhandle, hnode, hguard, -, hobjects, -⟩ := hcases
    left
    rw [hobjects, Function.update_of_ne (hne hhandle rfl), Function.update_of_ne (hne hnode rfl),
      Function.update_of_ne (hne hguard rfl), hobject]
  | createsEntity hcall hcases =>
    left
    cases hcases with
    | unsupported => exact hobject
    | refused => rw [Heap.get?_alloc, Function.update_of_ne (by omega), hobject]
    | created _ hnode _ _ hobjects _ =>
      rw [hobjects, Function.update_of_ne (by omega), Function.update_of_ne (hne hnode rfl),
        Function.update_of_ne (by omega), Function.update_of_ne (by omega), hobject]
  | destroysEntity hcall hcases =>
    cases hcases with
    | @deleted nodeData data' typeSupport' n entity' hnode hhandle hn hmem hobject' hsupport _
        hobjects _ =>
      by_cases hdata : data = data'
      · subst hdata
        obtain ⟨_, _, hentity, hkind, -⟩ := entity_of_handle hl hhandle
        obtain ⟨rfl, -⟩ : entity = _ ∧ _ := by simpa [hobject] using hentity
        subst hkind
        exact .inr ⟨_, _, n, _, hnode, hn, hmem, hhandle⟩
      · left
        rw [hobjects, Function.update_of_ne (hne hhandle rfl), Function.update_of_ne hdata,
          Function.update_of_ne (hne hsupport rfl), Function.update_of_ne (hne hn rfl), hobject]
    | kept _ hhandle _ _ _ hobjects _ =>
      left
      rw [hobjects, Function.update_of_ne (hne hhandle rfl), hobject]
  | accesses => exact .inl hobject

/-- The call that destroys an entity. -/
def destroyCall (node handle : ℕ) : EntityKind → Call
  | .publisher => .destroyPublisher node handle
  | .subscription => .destroySubscription node handle
  | .service => .destroyService node handle
  | .client => .destroyClient node handle

@[simp] theorem destruction_destroyCall (node handle : ℕ) (kind : EntityKind) :
    (destroyCall node handle kind).destruction = some (kind, node, handle) := by
  cases kind <;> rfl

theorem valid_destroyCall {node handle nodeData : ℕ}
    (hnode : h.get? node = some (.rmwNode nodeData))
    (hhandle : h.get? handle = some (.rmwEntity kind data)) :
    Valid h (destroyCall node handle kind) := by
  have hvalid : valid.validDestroy h kind node handle = true :=
    Bool.and_eq_true_iff.mpr
      ⟨any_isRmwNode.mpr ⟨_, hnode⟩, any_isRmwEntity.mpr ⟨_, hhandle⟩⟩
  cases kind <;> exact hvalid

/-- What can be deleted is deleted through the node that remembers it. -/
theorem Deletable.destroy (hr : (system defaults).Reachable Valid h) (hd : Deletable h kind data) :
    ∃ node handle h', Valid h (destroyCall node handle kind) ∧
      step h (destroyCall node handle kind) = some h' ∧ h'.get? data = none := by
  obtain ⟨node, nodeData, n, handle, hnode, hobject, hmem, hhandle⟩ := hd
  have hvalid := valid_destroyCall hnode hhandle
  obtain ⟨h', hstep⟩ := valid_calls_succeed hr hvalid
  refine ⟨node, handle, h', hvalid, hstep, ?_⟩
  have hcases : DestroysEntity kind h node handle h' := by
    cases kind <;> exact rmwDestroyEntity_cases hstep
  cases hcases with
  | deleted hnode' hhandle' hobject' _ hentity _ _ hobjects _ =>
    obtain rfl : data = _ := by simpa [hhandle] using hhandle'
    rw [hobjects, Function.update_of_ne (ne_of_get? hentity hhandle (by simp)),
      Function.update_self]
  | kept hnode' hhandle' hobject' hnot _ _ _ =>
    obtain rfl : data = _ := by simpa [hhandle] using hhandle'
    obtain rfl : nodeData = _ := by simpa [hnode] using hnode'
    obtain rfl : n = _ := by simpa [hobject] using hobject'
    exact absurd hmem hnot

/-- What cannot be deleted now can never be. -/
theorem entity_of_exec (hl : Linked (links defaults) h.get?)
    (hobject : h.get? data = some (.entity entity typeSupport))
    (hnot : ¬Deletable h entity.kind data) {calls : List Call}
    (hrun : (system defaults).exec Valid h calls = some h') :
    h'.get? data = some (.entity entity typeSupport) := by
  have hkept := System.exec_keeps (P := fun h => Linked (links defaults) h.get? ∧
    h.get? data = some (.entity entity typeSupport) ∧ ¬Deletable h entity.kind data)
    (fun h call h' ⟨hl, hobject, hnot⟩ hvalid hstep =>
      ⟨linked_step hl hvalid hstep, (entity_of_step hl hstep hobject).resolve_right hnot,
        fun hd => hnot (hd.of_step hstep (Heap.lt_of_get? hobject))⟩)
    ⟨hl, hobject, hnot⟩ hrun
  exact hkept.2.1

/-- **Which entities can still be deleted**: those that have a handle and that a node remembers which
has one, too.  Every other entity is there for good, and stays as it is, whatever is called. -/
theorem deleted_later_iff (hr : (system defaults).Reachable Valid h)
    (hobject : h.get? data = some (.entity entity typeSupport)) :
    ((∃ calls h', (system defaults).exec Valid h calls = some h' ∧ h'.get? data = none) ↔
      Deletable h entity.kind data) ∧
    (¬Deletable h entity.kind data → ∀ calls h', (system defaults).exec Valid h calls = some h' →
      h'.get? data = some (.entity entity typeSupport)) := by
  refine ⟨⟨?_, fun hd => ?_⟩, fun hnot calls h' hrun => entity_of_exec (linked hr) hobject hnot hrun⟩
  · rintro ⟨calls, h', hrun, hnone⟩
    by_contra hnot
    rw [entity_of_exec (linked hr) hobject hnot hrun] at hnone
    cases hnone
  · obtain ⟨node, handle, h', hvalid, hstep, hnone⟩ := hd.destroy hr
    refine ⟨[destroyCall node handle entity.kind], h', ?_, hnone⟩
    show (if _ then (step h _).bind some else none) = some h'
    rw [if_pos hvalid, hstep]
    rfl

/-- **What is on a node when the node is destroyed is there for good**, whether its handle is
destroyed or not, and through whichever node. -/
theorem left_by_node (hr : (system defaults).Reachable Valid h) {node nodeData : ℕ}
    {n : NodeObject} (hhandle : h.get? node = some (.rmwNode nodeData))
    (hnode : h.get? nodeData = some (.node n)) (hmem : data ∈ n.members kind) {calls : List Call}
    (hrun : (system defaults).exec Valid h (.destroyNode node :: calls) = some h') :
    ∃ entity typeSupport, entity.kind = kind ∧ h.get? data = some (.entity entity typeSupport) ∧
      h'.get? data = some (.entity entity typeSupport) := by
  have hl := linked hr
  obtain ⟨o, hobject, hfits⟩ := hl.leads (k := .member kind) hnode
    (mem_refs_node.mpr (.inr ⟨kind, rfl, hmem⟩))
  cases o with
  | entity entity typeSupport =>
    refine ⟨entity, typeSupport, hfits, hobject, ?_⟩
    rw [System.exec, Option.ite_none_right_eq_some] at hrun
    obtain ⟨hvalid, hrun⟩ := hrun
    obtain ⟨h₁, hstep, hrun⟩ := Option.bind_eq_some_iff.mp hrun
    obtain ⟨hhandle', -, hguard, -, hobjects, -⟩ := rmwDestroyNode_cases hstep
    obtain rfl : nodeData = _ := by simpa [hhandle] using hhandle'
    have hobject₁ : h₁.get? data = some (.entity entity typeSupport) := by
      rw [hobjects, Function.update_of_ne (ne_of_get? hobject hhandle (by simp)),
        Function.update_of_ne (ne_of_get? hobject hnode (by simp)),
        Function.update_of_ne (ne_of_get? hobject hguard (by simp)), hobject]
    refine entity_of_exec (linked_step hl hvalid hstep) hobject₁ ?_ hrun
    -- no other node has it
    rintro ⟨_, nodeData', n', _, -, hnode', hmem', -⟩
    rw [hobjects, update_none_eq_some, update_none_eq_some, update_none_eq_some] at hnode'
    obtain ⟨-, hne, -, hnode'⟩ := hnode'
    have hkind : entity.kind = kind := hfits
    rw [hkind] at hmem'
    exact hne (hl.unique hnode' hnode (mem_refs_member_iff.mpr ⟨n', rfl, hmem'⟩)
      (mem_refs_member_iff.mpr ⟨n, rfl, hmem⟩))
  | _ => exact hfits.elim

end Lost

/-- The publisher of `publisherCalls` can be deleted, and is. -/
theorem deleted_later_publisher : ∃ h entity, (system someDefaults).Reachable Valid h ∧
    h.get? 5 = some (.entity entity 4) ∧
    ∃ calls h', (system someDefaults).exec Valid h calls = some h' ∧ h'.get? 5 = none := by
  have hrun : (system someDefaults).exec Valid .empty publisherCalls = some _ := rfl
  have hr := System.reachable_of_exec _ hrun
  exact ⟨_, _, hr, rfl, (deleted_later_iff hr rfl).1.mpr ⟨3, 2, _, 6, rfl, rfl, by decide, rfl⟩⟩

/-- If its node is destroyed first, it stays. -/
theorem left_by_node_publisher : ∃ h h',
    (system someDefaults).exec Valid .empty publisherCalls = some h ∧
      (system someDefaults).exec Valid h [.destroyNode 3, .createNode "again" "/",
        .destroyPublisher 10 6] = some h' ∧
      ∃ entity typeSupport, h'.get? 5 = some (.entity entity typeSupport) := by
  have hrun : (system someDefaults).exec Valid .empty publisherCalls = some _ := rfl
  refine ⟨_, _, hrun, rfl, ?_⟩
  obtain ⟨entity, typeSupport, -, -, hleft⟩ := @left_by_node _ _ _ .publisher 5
    (System.reachable_of_exec _ hrun) 3 2 _ rfl rfl (by decide)
    [.createNode "again" "/", .destroyPublisher 10 6] rfl
  exact ⟨entity, typeSupport, hleft⟩

end Handles

end RmwEcal
