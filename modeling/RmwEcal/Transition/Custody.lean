import Mathlib.Data.List.Nodup
import RmwEcal.Transition.Heap

/-!
# What is held, and what is lost

A system uses a heap, and at any moment something in it holds addresses.  A step allocates an object
and holds its address, or it deletes objects whose addresses were held; and addresses may be passed
on, or forgotten (`Effect`).

Then no address is ever held twice, and every one that is held leads somewhere (`Custody.owned`), so
that nothing is deleted twice or looked at when it has been deleted.  What has been forgotten makes
the difference between the objects that are there and the addresses that are held
(`Custody.balance`), and it stays for good (`Custody.lost_forever`).
-/

set_option autoImplicit false

namespace Transition

variable {ο : Type}

namespace Heap

/-- The number of objects. -/
def size (h : Heap ο) : ℕ := h.count fun _ => true

/-- One object after the other is deleted. -/
def deleteAll (h : Heap ο) : List ℕ → Option (Heap ο)
  | [] => some h
  | a :: as => do
    let h ← h.delete a
    h.deleteAll as

section DeleteAll

variable {h h' : Heap ο} {as : List ℕ}

/-- **What deleting one after the other does.** -/
theorem deleteAll_cases (hdelete : h.deleteAll as = some h') : h'.next = h.next ∧
    (∀ b, h'.get? b = if b ∈ as then none else h.get? b) ∧ h'.size + as.length = h.size := by
  induction as generalizing h with
  | nil =>
    cases hdelete
    exact ⟨rfl, fun b => by simp, rfl⟩
  | cons a as ih =>
    obtain ⟨h₁, hfirst, hdelete⟩ := Option.bind_eq_some_iff.mp hdelete
    obtain ⟨o, ho, hnext, hget, hcount⟩ := delete_cases hfirst
    obtain ⟨hnext', hget', hsize⟩ := ih hdelete
    refine ⟨hnext'.trans hnext, fun b => ?_, ?_⟩
    · rw [hget' b, hget]
      by_cases hb : b = a
      · subst hb
        simp
      · simp [hb]
    · have hone : h₁.size + 1 = h.size := hcount fun _ => true
      rw [List.length_cons]
      omega

/-- What is there can be deleted, if no address comes twice. -/
theorem exists_deleteAll (hnodup : as.Nodup) (hthere : ∀ a ∈ as, (h.get? a).isSome) :
    ∃ h', h.deleteAll as = some h' := by
  induction as generalizing h with
  | nil => exact ⟨h, rfl⟩
  | cons a as ih =>
    obtain ⟨hmem, hnodup⟩ := List.nodup_cons.mp hnodup
    obtain ⟨o, ho⟩ := Option.isSome_iff_exists.mp (hthere a (.head _))
    obtain ⟨h₁, hdelete, hget⟩ := exists_delete ho
    obtain ⟨h', hrest⟩ := ih hnodup (h := h₁) fun b hb => by
      rw [hget, Function.update_of_ne (by rintro rfl; exact hmem hb)]
      exact hthere b (.tail _ hb)
    exact ⟨h', Option.bind_eq_some_iff.mpr ⟨h₁, hdelete, hrest⟩⟩

end DeleteAll

end Heap

/-! ## Steps -/

/-- What a step may do to the heap and to the addresses that are held, and how many of them it
forgets. -/
inductive Effect (h : Heap ο) (held : List ℕ) : Heap ο → List ℕ → ℕ → Prop
  /-- An object is allocated. -/
  | creates (o : ο) {held' forgotten : List ℕ}
      (hperm : (h.next :: held).Perm (forgotten ++ held')) :
      Effect h held (h.alloc o).1 held' forgotten.length
  /-- Objects are deleted, or none. -/
  | deletes {h' : Heap ο} {held' freed forgotten : List ℕ} (hdelete : h.deleteAll freed = some h')
      (hperm : held.Perm (freed ++ (forgotten ++ held'))) : Effect h held h' held' forgotten.length

/-- Every address leads somewhere, and is held once. -/
structure Owned (h : Heap ο) (held : List ℕ) : Prop where
  /-- No address is held twice. -/
  nodup : held.Nodup
  /-- It leads somewhere. -/
  there : ∀ a ∈ held, (h.get? a).isSome

section Effect

variable {h h' : Heap ο} {held held' : List ℕ} {n a : ℕ} {o : ο}

theorem owned_empty : Owned (Heap.empty : Heap ο) [] := ⟨.nil, nofun⟩

theorem Owned.lt_next (hown : Owned h held) (ha : a ∈ held) : a < h.next := by
  obtain ⟨o, ho⟩ := Option.isSome_iff_exists.mp (hown.there a ha)
  exact Heap.lt_of_get? ho

/-- A step keeps this up. -/
theorem Owned.effect (hown : Owned h held) (heffect : Effect h held h' held' n) :
    Owned h' held' := by
  cases heffect with
  | creates o hperm =>
    have hnew : h.next ∉ held := fun hmem => Nat.lt_irrefl _ (hown.lt_next hmem)
    have hnodup := hperm.nodup_iff.mp (List.nodup_cons.mpr ⟨hnew, hown.nodup⟩)
    refine ⟨hnodup.of_append_right, fun a ha => ?_⟩
    rw [Heap.get?_alloc]
    obtain rfl | ha := List.mem_cons.mp (hperm.mem_iff.mpr (List.mem_append_right _ ha))
    · rw [Function.update_self]
      rfl
    · rw [Function.update_of_ne (Nat.ne_of_lt (hown.lt_next ha))]
      exact hown.there a ha
  | @deletes _ _ freed forgotten hdelete hperm =>
    obtain ⟨-, hget, -⟩ := Heap.deleteAll_cases hdelete
    have hnodup := hperm.nodup_iff.mp hown.nodup
    refine ⟨hnodup.of_append_right.of_append_right, fun a ha => ?_⟩
    have hkept : a ∈ forgotten ++ held' := List.mem_append_right _ ha
    rw [hget, if_neg fun hfreed => List.disjoint_of_nodup_append hnodup hfreed hkept]
    exact hown.there a (hperm.mem_iff.mpr (List.mem_append_right _ hkept))

/-- **There are more objects than addresses by as many as are forgotten.** -/
theorem Effect.balance (heffect : Effect h held h' held' n) :
    h'.size + held.length = held'.length + h.size + n := by
  cases heffect with
  | creates o hperm =>
    have hlen := hperm.length_eq
    have hsize : (h.alloc o).1.size = h.size + 1 := Heap.count_alloc h o _
    rw [List.length_cons, List.length_append] at hlen
    omega
  | deletes hdelete hperm =>
    obtain ⟨-, -, hsize⟩ := Heap.deleteAll_cases hdelete
    have hlen := hperm.length_eq
    rw [List.length_append, List.length_append] at hlen
    omega

/-- An object is not changed, and it is only deleted when its address is held. -/
theorem Effect.get? (heffect : Effect h held h' held' n) (ho : h.get? a = some o) :
    h'.get? a = some o ∨ (h'.get? a = none ∧ a ∈ held) := by
  cases heffect with
  | creates _ hperm =>
    rw [Heap.get?_alloc, Function.update_of_ne (Nat.ne_of_lt (Heap.lt_of_get? ho))]
    exact .inl ho
  | deletes hdelete hperm =>
    obtain ⟨-, hget, -⟩ := Heap.deleteAll_cases hdelete
    rw [hget]
    split_ifs with hfreed
    · exact .inr ⟨rfl, hperm.mem_iff.mpr (List.mem_append_left _ hfreed)⟩
    · exact .inl ho

/-- What is there and not held stays so. -/
theorem Effect.lost (heffect : Effect h held h' held' n) (ho : h.get? a = some o)
    (ha : a ∉ held) : h'.get? a = some o ∧ a ∉ held' := by
  refine ⟨(heffect.get? ho).resolve_right fun hdeleted => ha hdeleted.2, fun hmem => ha ?_⟩
  cases heffect with
  | creates _ hperm =>
    have hor := List.mem_cons.mp (hperm.mem_iff.mpr (List.mem_append_right _ hmem))
    exact hor.resolve_left (Nat.ne_of_lt (Heap.lt_of_get? ho))
  | deletes _ hperm =>
    exact hperm.mem_iff.mpr (List.mem_append_right _ (List.mem_append_right _ hmem))

end Effect

/-! ## Runs -/

/-- A system, the heap it uses, and the addresses that are held. -/
structure Custody (σ α ο : Type) extends System σ α where
  heap : σ → Heap ο
  /-- What is held. -/
  held : σ → List ℕ
  /-- How many addresses a step forgets. -/
  forgets : σ → α → ℕ
  /-- The heap is empty at the beginning. -/
  heap_init : heap init = .empty
  /-- Nothing is held then. -/
  held_init : held init = []
  /-- What a step does. -/
  effect : ∀ {s a s'}, step s a = some s' →
    Effect (heap s) (held s) (heap s') (held s') (forgets s a)

namespace Custody

variable {σ α : Type} {C : Custody σ α ο} {ok : σ → α → Prop} {s s' : σ} {a : ℕ} {o : ο}

/-- **Every address leads somewhere, and is held once**, throughout. -/
theorem owned (hr : C.toSystem.Reachable ok s) : Owned (C.heap s) (C.held s) := by
  refine hr.invariant (P := fun s => Owned (C.heap s) (C.held s)) ?_
    fun _ _ _ hown _ hstep => hown.effect (C.effect hstep)
  rw [C.heap_init, C.held_init]
  exact owned_empty

/-- **The books**: what there is beyond what is held is what has been forgotten. -/
theorem balance [∀ s a, Decidable (ok s a)] {as : List α}
    (hrun : C.toSystem.exec ok C.init as = some s) :
    (C.heap s).size = (C.held s).length + C.toSystem.total C.forgets C.init as := by
  have hstep : ∀ s a s', True → ok s a → C.step s a = some s' → (C.heap s').size +
      (C.held s).length = (C.held s').length + (C.heap s).size + C.forgets s a :=
    fun _ _ _ _ _ hstep => (C.effect hstep).balance
  have hbalance := System.exec_balance (fun _ _ _ _ _ _ => trivial) hstep trivial hrun
  simpa [C.heap_init, C.held_init, Heap.size] using hbalance

/-- What is forgotten stays for good. -/
theorem lost_forever [∀ s a, Decidable (ok s a)] {as : List α} (ho : (C.heap s).get? a = some o)
    (ha : a ∉ C.held s) (hrun : C.toSystem.exec ok s as = some s') :
    (C.heap s').get? a = some o ∧ a ∉ C.held s' :=
  System.exec_keeps (P := fun s => (C.heap s).get? a = some o ∧ a ∉ C.held s)
    (fun _ _ _ h _ hstep => (C.effect hstep).lost h.1 h.2) ⟨ho, ha⟩ hrun

end Custody

end Transition
