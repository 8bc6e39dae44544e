import RmwEcal.Shared.LiveGraph

/-!
# Callers that clean up

`Tidy` calls destroy an entity through the node that it is on, and a node when nothing is on it.
Then nothing gets lost: every node has its handle, and every entity its node and its handle,
`Owned`.  So the graph counts handles (`tidy_count`), and what the caller has not destroyed it can
still destroy.
-/

set_option autoImplicit false

namespace RmwEcal

open Transition Qos RmwEcal.Graph

namespace Handles

variable {defaults : Defaults}

/-- An entity is destroyed through its node, and a node when it is empty. -/
def tidy (h : Objects defaults) (call : Call) : Bool :=
  mislaid h call == 0 && match call with
    | .destroyNode node => (nodeOf h node).all fun n =>
      [EntityKind.publisher, .subscription, .service, .client].all fun kind =>
        (n.members kind).isEmpty
    | _ => true

/-- The call is valid, and leaves nothing. -/
abbrev Tidy (h : Objects defaults) (call : Call) : Prop := (valid h call && tidy h call) = true

/-- Nothing has been lost. -/
structure Owned (h : Objects defaults) : Prop where
  /-- Every node has its handle. -/
  node : ∀ {a n}, h.get? a = some (.node n) → ∃ handle, h.get? handle = some (.rmwNode a)
  /-- Every entity is on a node. -/
  member : ∀ {data e typeSupport}, h.get? data = some (.entity e typeSupport) →
    ∃ a n, h.get? a = some (.node n) ∧ data ∈ n.members e.kind
  /-- It has its handle. -/
  entity : ∀ {data e typeSupport}, h.get? data = some (.entity e typeSupport) →
    ∃ handle, h.get? handle = some (.rmwEntity e.kind data)

section Owned

variable {h h' : Objects defaults} {call : Call} {kind : EntityKind} {node handle : ℕ}

theorem Tidy.valid (ht : Tidy h call) : Valid h call := (Bool.and_eq_true_iff.mp ht).1

theorem Tidy.mislaid_eq_zero (ht : Tidy h call) : mislaid h call = 0 :=
  beq_iff_eq.mp (Bool.and_eq_true_iff.mp (Bool.and_eq_true_iff.mp ht).2).1

theorem Tidy.members_eq_nil (ht : Tidy h (.destroyNode node)) {nodeData : ℕ} {n : NodeObject}
    (hnode : h.get? node = some (.rmwNode nodeData)) (hn : h.get? nodeData = some (.node n))
    (kind : EntityKind) : n.members kind = [] := by
  have hempty := (Bool.and_eq_true_iff.mp (Bool.and_eq_true_iff.mp ht).2).2
  simp only [nodeOf, hnode, hn, Option.all_some, List.all_cons, List.all_nil, Bool.and_true,
    Bool.and_eq_true, List.isEmpty_iff] at hempty
  obtain ⟨hpublishers, hsubscriptions, hservices, hclients⟩ := hempty
  cases kind <;> assumption

/-- Objects may come and go, as long as the ones that come do not need others. -/
theorem Owned.of_same (ho : Owned h)
    (hback : ∀ {a o}, h'.get? a = some o → o.isNode = true ∨ o.isEntity = true →
      h.get? a = some o)
    (hkept : ∀ {a o}, h.get? a = some o →
      o.isNode = true ∨ o.isRmwNode = true ∨ o.isEntityHandle = true → h'.get? a = some o) :
    Owned h' where
  node hget := by
    obtain ⟨handle, hhandle⟩ := ho.node (hback hget (.inl rfl))
    exact ⟨handle, hkept hhandle (.inr (.inl rfl))⟩
  member hget := by
    obtain ⟨a, n, hn, hmem⟩ := ho.member (hback hget (.inr rfl))
    exact ⟨a, n, hkept hn (.inl rfl), hmem⟩
  entity hget := by
    obtain ⟨handle, hhandle⟩ := ho.entity (hback hget (.inr rfl))
    exact ⟨handle, hkept hhandle (.inr (.inr rfl))⟩

theorem owned_createGuardCondition (ho : Owned h) : Owned (rmwCreateGuardCondition h).1 := by
  refine ho.of_same (fun hget hkind => ?_) fun hget _ => ?_
  · rw [rmwCreateGuardCondition_get?, update_some_eq_some, update_some_eq_some] at hget
    obtain ⟨-, rfl⟩ | ⟨-, ⟨-, rfl⟩ | ⟨-, hget⟩⟩ := hget
    · simp [Object.isNode, Object.isEntity] at hkind
    · simp [Object.isNode, Object.isEntity] at hkind
    · exact hget
  · have hlt := Heap.lt_of_get? hget
    rw [rmwCreateGuardCondition_get?, Function.update_of_ne (by omega),
      Function.update_of_ne (by omega), hget]

theorem owned_destroysGuardCondition (ho : Owned h) {guardCondition : ℕ}
    (hcases : DestroysGuardCondition h guardCondition h') : Owned h' := by
  obtain ⟨hhandle, hobject, -, hobjects, -⟩ := hcases
  refine ho.of_same (fun hget _ => ?_) fun {a o} hget hkind => ?_
  · rw [hobjects, update_none_eq_some, update_none_eq_some] at hget
    exact hget.2.2
  · rw [hobjects, update_none_eq_some, update_none_eq_some]
    refine ⟨?_, ?_, hget⟩
    · rintro rfl
      obtain rfl := Option.some.inj (hhandle.symm.trans hget)
      simp [Object.isNode, Object.isRmwNode, Object.isEntityHandle] at hkind
    · rintro rfl
      obtain rfl := Option.some.inj (hobject.symm.trans hget)
      simp [Object.isNode, Object.isRmwNode, Object.isEntityHandle] at hkind

theorem owned_createNode (ho : Owned h) (name nameSpace : String) :
    Owned (rmwCreateNode h name nameSpace).1 := by
  have hguard := owned_createGuardCondition ho
  have hkept : ∀ {a o}, (rmwCreateGuardCondition h).1.get? a = some o →
      (rmwCreateNode h name nameSpace).1.get? a = some o := by
    intro a o hget
    have hlt := Heap.lt_of_get? hget
    replace hlt : a < h.next + 2 := hlt
    rw [rmwCreateNode_get?, Function.update_of_ne (by omega), Function.update_of_ne (by omega), hget]
  have hback : ∀ {a o}, (rmwCreateNode h name nameSpace).1.get? a = some o → o.isRmwNode = false →
      (a = h.next + 2 ∧ o.isNode = true) ∨ (rmwCreateGuardCondition h).1.get? a = some o := by
    intro a o hget hkind
    rw [rmwCreateNode_get?, update_some_eq_some, update_some_eq_some] at hget
    obtain ⟨-, rfl⟩ | ⟨-, ⟨rfl, rfl⟩ | ⟨-, hget⟩⟩ := hget
    · cases hkind
    · exact .inl ⟨rfl, rfl⟩
    · exact .inr hget
  refine ⟨fun hget => ?_, fun hget => ?_, fun hget => ?_⟩
  · obtain ⟨rfl, -⟩ | hget := hback hget rfl
    · exact ⟨h.next + 3, by rw [rmwCreateNode_get?, Function.update_self]⟩
    · obtain ⟨handle, hhandle⟩ := hguard.node hget
      exact ⟨handle, hkept hhandle⟩
  · obtain ⟨-, hkind⟩ | hget := hback hget rfl
    · cases hkind
    · obtain ⟨a, n, hn, hmem⟩ := hguard.member hget
      exact ⟨a, n, hkept hn, hmem⟩
  · obtain ⟨-, hkind⟩ | hget := hback hget rfl
    · cases hkind
    · obtain ⟨handle, hhandle⟩ := hguard.entity hget
      exact ⟨handle, hkept hhandle⟩

theorem owned_destroysNode (ho : Owned h) (ht : Tidy h (.destroyNode node))
    (hcases : DestroysNode h node h') : Owned h' := by
  obtain ⟨hhandle, hnode, hguard, -, hobjects, -⟩ := hcases
  rename_i nodeData trigger n
  have hback : ∀ {a o}, h'.get? a = some o → a ≠ nodeData ∧ h.get? a = some o := by
    intro a o hget
    rw [hobjects, update_none_eq_some, update_none_eq_some, update_none_eq_some] at hget
    exact ⟨hget.2.1, hget.2.2.2⟩
  have hkept : ∀ {a o}, h.get? a = some o → a ≠ node → a ≠ nodeData →
      o.isRmwGuardCondition = false → h'.get? a = some o := by
    intro a o hget ha hdata hkind
    rw [hobjects, update_none_eq_some, update_none_eq_some, update_none_eq_some]
    refine ⟨ha, hdata, ?_, hget⟩
    rintro rfl
    obtain rfl := Option.some.inj (hguard.symm.trans hget)
    cases hkind
  refine ⟨fun hget => ?_, fun hget => ?_, fun hget => ?_⟩
  · obtain ⟨hne, hget⟩ := hback hget
    obtain ⟨handle, hhandle'⟩ := ho.node hget
    refine ⟨handle, hkept hhandle' ?_ (ne_of_get? hhandle' hnode (by simp)) rfl⟩
    rintro rfl
    obtain rfl : nodeData = _ := by simpa [hhandle] using hhandle'
    exact hne rfl
  · obtain ⟨-, hget⟩ := hback hget
    obtain ⟨a, n', hn', hmem⟩ := ho.member hget
    refine ⟨a, n', hkept hn' (ne_of_get? hn' hhandle (by simp)) ?_ rfl, hmem⟩
    -- there is nothing on the node that goes
    rintro rfl
    obtain rfl : n = n' := by simpa [hnode] using hn'
    rw [ht.members_eq_nil hhandle hnode] at hmem
    cases hmem
  · obtain ⟨-, hget⟩ := hback hget
    obtain ⟨handle, hhandle'⟩ := ho.entity hget
    exact ⟨handle, hkept hhandle' (ne_of_get? hhandle' hhandle (by simp))
      (ne_of_get? hhandle' hnode (by simp)) rfl⟩

theorem owned_createsEntity (ho : Owned h) {supported : Bool}
    {create : NodeObject → Except Exception (Entity defaults)} {result : Except Exception ℕ}
    (hkind : ∀ n e, create n = .ok e → e.kind = kind)
    (hcases : CreatesEntity kind h node create supported h' result) : Owned h' := by
  cases hcases with
  | unsupported => exact ho
  | refused =>
    refine ho.of_same (fun hget hkind => ?_) fun hget _ => ?_
    · rw [Heap.get?_alloc, update_some_eq_some] at hget
      obtain ⟨-, rfl⟩ | ⟨-, hget⟩ := hget
      · simp [Object.isNode, Object.isEntity] at hkind
      · exact hget
    · have hlt := Heap.lt_of_get? hget
      rw [Heap.get?_alloc, Function.update_of_ne (by omega), hget]
  | @created data n e _ hhandle hnode hmade _ hobjects _ =>
    have hdata := Heap.lt_of_get? hnode
    have hnode' : h'.get? data = some (.node (n.insert kind (h.next + 1))) := by
      rw [hobjects, Function.update_of_ne (by omega), Function.update_self]
    have hentity' : h'.get? (h.next + 2) = some (.rmwEntity kind (h.next + 1)) := by
      rw [hobjects, Function.update_self]
    have hkept : ∀ {a o}, h.get? a = some o → a ≠ data → h'.get? a = some o := by
      intro a o hget hne
      have hlt := Heap.lt_of_get? hget
      rw [hobjects, Function.update_of_ne (by omega), Function.update_of_ne hne,
        Function.update_of_ne (by omega), Function.update_of_ne (by omega), hget]
    have hnodes : ∀ {a n'}, h.get? a = some (.node n') →
        ∃ n'', h'.get? a = some (.node n'') ∧ ∀ kind', n'.members kind' ⊆ n''.members kind' := by
      intro a n' hn'
      by_cases ha : a = data
      · subst ha
        obtain rfl : n = n' := by simpa [hnode] using hn'
        exact ⟨_, hnode', fun kind' b hb => mem_insert_members.mpr (.inr hb)⟩
      · exact ⟨n', hkept hn' ha, fun _ _ => id⟩
    have hback : ∀ {a o}, h'.get? a = some o → (a = data ∧ o.isNode = true) ∨
        (a = h.next + 1 ∧ o = .entity e h.next) ∨ (a ≠ data ∧ h.get? a = some o) ∨
        (o.isNode = false ∧ o.isEntity = false) := by
      intro a o hget
      rw [hobjects, update_some_eq_some, update_some_eq_some, update_some_eq_some,
        update_some_eq_some] at hget
      obtain ⟨-, rfl⟩ | ⟨-, ⟨rfl, rfl⟩ | ⟨hne, ⟨rfl, rfl⟩ | ⟨-, ⟨-, rfl⟩ | ⟨-, hget⟩⟩⟩⟩ := hget
      · exact .inr (.inr (.inr ⟨rfl, rfl⟩))
      · exact .inl ⟨rfl, rfl⟩
      · exact .inr (.inl ⟨rfl, rfl⟩)
      · exact .inr (.inr (.inr ⟨rfl, rfl⟩))
      · exact .inr (.inr (.inl ⟨hne, hget⟩))
    refine ⟨fun {a n'} hget => ?_, fun {a e' typeSupport} hget => ?_,
      fun {a e' typeSupport} hget => ?_⟩
    · obtain ⟨rfl, -⟩ | ⟨-, heq⟩ | ⟨-, hget⟩ | ⟨hno, -⟩ := hback hget
      · obtain ⟨handle, hhandle'⟩ := ho.node hnode
        exact ⟨handle, hkept hhandle' (ne_of_get? hhandle' hnode (by simp))⟩
      · cases heq
      · obtain ⟨handle, hhandle'⟩ := ho.node hget
        exact ⟨handle, hkept hhandle' (ne_of_get? hhandle' hnode (by simp))⟩
      · cases hno
    · obtain ⟨-, hno⟩ | ⟨rfl, heq⟩ | ⟨-, hget⟩ | ⟨-, hno⟩ := hback hget
      · cases hno
      · cases heq
        exact ⟨data, _, hnode', mem_insert_members.mpr (.inl ⟨rfl, hkind _ _ hmade⟩)⟩
      · obtain ⟨b, n', hn', hmem⟩ := ho.member hget
        obtain ⟨n'', hn'', hsub⟩ := hnodes hn'
        exact ⟨b, n'', hn'', hsub _ hmem⟩
      · cases hno
    · obtain ⟨-, hno⟩ | ⟨rfl, heq⟩ | ⟨-, hget⟩ | ⟨-, hno⟩ := hback hget
      · cases hno
      · cases heq
        exact ⟨h.next + 2, hkind _ _ hmade ▸ hentity'⟩
      · obtain ⟨handle, hhandle'⟩ := ho.entity hget
        exact ⟨handle, hkept hhandle' (ne_of_get? hhandle' hnode (by simp))⟩
      · cases hno

theorem owned_destroysEntity (ho : Owned h) (hl : Linked (links defaults) h.get?)
    (hcall : call.destruction = some (kind, node, handle)) (ht : Tidy h call)
    (hcases : DestroysEntity kind h node handle h') : Owned h' := by
  cases hcases with
  | @deleted nodeData data typeSupport n e hnodeHandle hhandle hnode hmem hobject hsupport _
      hobjects _ =>
    have hmembers := nodup_refs_node.mp (hl.nodup hnode)
    have hdata := ne_of_get? hobject hnode (by simp)
    have hts := ne_of_get? hsupport hnode (by simp)
    have hhandle' := ne_of_get? hhandle hnode (by simp)
    have hnode' : h'.get? nodeData = some (.node (n.erase kind data)) := by
      rw [hobjects, Function.update_of_ne hhandle'.symm, Function.update_of_ne hdata.symm,
        Function.update_of_ne hts.symm, Function.update_self]
    have hkept : ∀ {a o}, h.get? a = some o → a ≠ nodeData → a ≠ data → a ≠ handle →
        o.isTypeSupport = false → h'.get? a = some o := by
      intro a o hget ha hadata hahandle hkind
      have hats : a ≠ typeSupport := by
        rintro rfl
        obtain rfl := Option.some.inj (hsupport.symm.trans hget)
        cases hkind
      rw [hobjects, Function.update_of_ne hahandle, Function.update_of_ne hadata,
        Function.update_of_ne hats, Function.update_of_ne ha, hget]
    have hback : ∀ {a o}, h'.get? a = some o → a ≠ data ∧
        ((a = nodeData ∧ o.isNode = true) ∨ h.get? a = some o) := by
      intro a o hget
      rw [hobjects, update_none_eq_some, update_none_eq_some, update_none_eq_some,
        update_some_eq_some] at hget
      obtain ⟨-, hne, -, ⟨rfl, rfl⟩ | ⟨-, hget⟩⟩ := hget
      · exact ⟨hne, .inl ⟨rfl, rfl⟩⟩
      · exact ⟨hne, .inr hget⟩
    refine ⟨fun {a n'} hget => ?_, fun {a e' ts} hget => ?_, fun {a e' ts} hget => ?_⟩
    · have hnodeHandle' : ∃ node, h.get? node = some (.rmwNode a) := by
        obtain ⟨-, ⟨rfl, -⟩ | hget⟩ := hback hget
        · exact ho.node hnode
        · exact ho.node hget
      obtain ⟨b, hb⟩ := hnodeHandle'
      exact ⟨b, hkept hb (ne_of_get? hb hnode (by simp)) (ne_of_get? hb hobject (by simp))
        (ne_of_get? hb hhandle (by simp)) rfl⟩
    · obtain ⟨hne, ⟨-, hno⟩ | hget⟩ := hback hget
      · cases hno
      obtain ⟨b, n', hn', hmem'⟩ := ho.member hget
      by_cases hb : b = nodeData
      · subst hb
        obtain rfl : n = n' := by simpa [hnode] using hn'
        exact ⟨b, _, hnode', (mem_erase_members hmembers).mpr ⟨hmem', fun _ => hne⟩⟩
      · exact ⟨b, n', hkept hn' hb (ne_of_get? hn' hobject (by simp))
          (ne_of_get? hn' hhandle (by simp)) rfl, hmem'⟩
    · obtain ⟨hne, ⟨-, hno⟩ | hget⟩ := hback hget
      · cases hno
      obtain ⟨b, hb⟩ := ho.entity hget
      refine ⟨b, hkept hb (ne_of_get? hb hnode (by simp)) (ne_of_get? hb hobject (by simp)) ?_ rfl⟩
      -- the handle that goes leads to what goes
      rintro rfl
      rw [hhandle] at hb
      cases hb
      exact hne rfl
  | kept hnodeHandle hhandle hnode hnot =>
    -- the caller is tidy
    have hnone := ht.mislaid_eq_zero
    rw [mislaid, hcall] at hnone
    simp [nodeOf, hnodeHandle, hhandle, hnode, hnot] at hnone

theorem owned_step (ho : Owned h) (hl : Linked (links defaults) h.get?) (ht : Tidy h call)
    (hstep : step h call = some h') : Owned h' := by
  cases step_cases hstep with
  | createsGuardCondition => exact owned_createGuardCondition ho
  | destroysGuardCondition hcases => exact owned_destroysGuardCondition ho hcases
  | createsNode name nameSpace => exact owned_createNode ho name nameSpace
  | destroysNode hcases => exact owned_destroysNode ho ht hcases
  | createsEntity hcall hcases => exact owned_createsEntity ho (creation_kind hcall) hcases
  | destroysEntity hcall hcases => exact owned_destroysEntity ho hl hcall ht hcases
  | accesses => exact ho

/-- **Nothing gets lost** if all calls are tidy. -/
theorem owned (hr : (system defaults).Reachable Tidy h) : Owned h :=
  hr.invariant_of (Q := fun h => Linked (links defaults) h.get?)
    (fun _ hr => linked (hr.mono fun _ _ => Tidy.valid)) ⟨nofun, nofun, nofun⟩
    fun _ _ _ hl ho => owned_step ho hl

/-! ## The graph counts handles -/

/-- Where the handle of an entity leads. -/
def dataAt (h : Objects defaults) (handle : ℕ) : Option ℕ :=
  match h.get? handle with
  | some (.rmwEntity _ data) => some data
  | _ => none

/-- The handles of a kind. -/
def handlesOf (h : Objects defaults) (kind : EntityKind) : List ℕ :=
  h.addresses (Object.isRmwEntity kind)

theorem mem_handlesOf :
    handle ∈ handlesOf h kind ↔ ∃ data, h.get? handle = some (.rmwEntity kind data) := by
  rw [handlesOf, Heap.mem_addresses]
  constructor
  · rintro ⟨o, hget, ho⟩
    obtain ⟨data, heq⟩ := (any_isRmwEntity (o := some o)).mp ho
    exact ⟨data, hget.trans heq⟩
  · rintro ⟨data, hget⟩
    exact ⟨_, hget, by simp [Object.isRmwEntity]⟩

theorem dataAt_of_handle {data : ℕ} (hhandle : h.get? handle = some (.rmwEntity kind data)) :
    dataAt h handle = some data := by
  rw [dataAt, hhandle]

/-- **Handles and entities are one to one.** -/
theorem Owned.entitiesOf_perm (ho : Owned h) (hl : Linked (links defaults) h.get?) :
    (entitiesOf h kind).Perm ((handlesOf h kind).filterMap (dataAt h)) := by
  have hnodup : ((handlesOf h kind).filterMap (dataAt h)).Nodup := by
    rw [List.Nodup, List.pairwise_filterMap]
    refine (h.nodup_addresses _).pairwise_of_forall_ne fun a ha b hb hne data hdata data' hdata' => ?_
    obtain ⟨d, hd⟩ := mem_handlesOf.mp ha
    obtain ⟨d', hd'⟩ := mem_handlesOf.mp hb
    rw [dataAt_of_handle hd] at hdata
    rw [dataAt_of_handle hd'] at hdata'
    cases hdata
    cases hdata'
    rintro rfl
    exact hne (hl.unique hd hd' (mem_refs_entity_iff.mpr rfl) (mem_refs_entity_iff.mpr rfl))
  refine (List.perm_ext_iff_of_nodup (h.nodup_addresses _) hnodup).mpr fun data => ?_
  rw [List.mem_filterMap]
  constructor
  · intro hmem
    obtain ⟨e, typeSupport, hobject, rfl⟩ := mem_entitiesOf.mp hmem
    obtain ⟨handle, hhandle⟩ := ho.entity hobject
    exact ⟨handle, mem_handlesOf.mpr ⟨data, hhandle⟩, dataAt_of_handle hhandle⟩
  · rintro ⟨handle, hmem, hdata⟩
    obtain ⟨d, hd⟩ := mem_handlesOf.mp hmem
    rw [dataAt_of_handle hd] at hdata
    cases hdata
    obtain ⟨e, typeSupport, hobject, hkind, -⟩ := entity_of_handle hl hd
    exact mem_entitiesOf.mpr ⟨e, typeSupport, hobject, hkind⟩

theorem Owned.forgotten_eq_nil (ho : Owned h) : forgotten h kind = [] := by
  refine List.filter_eq_nil_iff.mpr fun data hmem => ?_
  obtain ⟨e, typeSupport, hobject, rfl⟩ := mem_entitiesOf.mp hmem
  obtain ⟨a, n, hn, hin⟩ := ho.member hobject
  simpa using mem_remembered.mpr ⟨a, n, hn, hin⟩

/-- **With tidy callers the graph is right**: it counts the handles of endpoints on the topic, which
are as many as the nodes list; and every entity can still be deleted. -/
theorem tidy_count (hr : (system defaults).Reachable Tidy h) {topics : List PbTopic}
    (hm : Monitors h topics) (endpointType : TopicEndpointType) (topicName : String) :
    countEndpoints endpointType topics topicName =
        (handlesOf h (endpointKind endpointType)).countP
          (fun handle => (dataAt h handle).any (onTopicAt h topicName)) ∧
      countEndpoints endpointType topics topicName =
        ((h.addresses Object.isNode).map fun node =>
          (membersAt h (endpointKind endpointType) node).countP (onTopicAt h topicName)).sum ∧
      ∀ data e typeSupport, h.get? data = some (.entity e typeSupport) →
        Deletable h e.kind data := by
  have hr' := hr.mono fun _ _ => Tidy.valid
  have ho := owned hr
  refine ⟨?_, ?_, fun data e typeSupport hobject => ?_⟩
  · rw [countEndpoints_eq hm, (ho.entitiesOf_perm (linked hr')).countP_eq, List.countP_filterMap]
    refine List.countP_congr fun handle _ => ?_
    cases dataAt h handle <;> simp
  · rw [(count_eq hr' hm endpointType topicName).1, ho.forgotten_eq_nil]
    rfl
  · obtain ⟨a, n, hn, hmem⟩ := ho.member hobject
    obtain ⟨node, hnode⟩ := ho.node hn
    obtain ⟨handle, hhandle⟩ := ho.entity hobject
    exact ⟨node, a, n, handle, hnode, hn, hmem, hhandle⟩

end Owned

/-! ## A run -/

theorem tidy_count_publisher : ∃ h, (system someDefaults).Reachable Tidy h ∧
    countPublishers (snapshot (endpoints h)) "/chatter" = 1 := by
  have hrun : (system someDefaults).exec Tidy .empty publisherCalls = some _ := rfl
  have hr := System.reachable_of_exec _ hrun
  refine ⟨_, hr, ?_⟩
  rw [countPublishers, (tidy_count hr (.refl _) .publisher "/chatter").1]
  decide

end Handles

end RmwEcal
