import Mathlib.Data.List.AList
import Mathlib.Logic.Function.Basic
import RmwEcal.Transition.System

/-!
# Objects that lead to each other

A `Heap` is the objects that are there, by address.  An address is given out once: what has been
deleted stays deleted, and to write or to delete where nothing is has no result.

Objects hold addresses of other objects, for this purpose or that; `Links` says which, and what is
expected to be found there.  A heap is `Linked` if everything is found, and no address is held twice
for the same purpose.  Two lemmas cover what a program does: it adds an object, or addresses to one
(`Linked.update`), or takes away objects together with the addresses of them (`Linked.shrink`).

`System.total` adds up what the steps of a run lose, and `exec_balance` is the bookkeeping that goes
with it.
-/

set_option autoImplicit false

namespace Transition

variable {ο κ : Type}

/-! ## Heaps -/

/-- Objects by address. -/
structure Heap (ο : Type) where
  /-- The address of the next object. -/
  next : ℕ
  /-- The objects that are there. -/
  cells : AList fun _ : ℕ => ο
  /-- Their addresses have been given out. -/
  fresh : ∀ a ∈ cells, a < next

namespace Heap

/-- Nothing is there. -/
def empty : Heap ο := ⟨0, ∅, fun a h => absurd h (AList.notMem_empty a)⟩

/-- The object at an address. -/
def get? (h : Heap ο) (a : ℕ) : Option ο := h.cells.lookup a

/-- A new object, and its address. -/
def alloc (h : Heap ο) (o : ο) : Heap ο × ℕ :=
  (⟨h.next + 1, h.cells.insert h.next o, fun a ha => by
    rcases (AList.mem_insert _).mp ha with rfl | ha
    · exact Nat.lt_succ_self _
    · exact Nat.lt_succ_of_lt (h.fresh a ha)⟩, h.next)

/-- Another state of the object at an address. -/
def write (h : Heap ο) (a : ℕ) (o : ο) : Option (Heap ο) :=
  if hmem : a ∈ h.cells then
    some ⟨h.next, h.cells.insert a o, fun b hb => by
      rcases (AList.mem_insert _).mp hb with rfl | hb
      · exact h.fresh b hmem
      · exact h.fresh b hb⟩
  else none

/-- The object at an address is deleted. -/
def delete (h : Heap ο) (a : ℕ) : Option (Heap ο) :=
  if a ∈ h.cells then
    some ⟨h.next, h.cells.erase a, fun b hb => h.fresh b (AList.mem_erase.mp hb).2⟩
  else none

/-- The number of objects of a kind. -/
def count (h : Heap ο) (p : ο → Bool) : ℕ := h.cells.entries.countP fun cell => p cell.2

/-- Where the objects of a kind are. -/
def addresses (h : Heap ο) (p : ο → Bool) : List ℕ :=
  (h.cells.entries.filter fun cell => p cell.2).map Sigma.fst

section Lemmas

variable {h h' : Heap ο} {a : ℕ} {o : ο}

@[simp] theorem get?_empty (a : ℕ) : (empty : Heap ο).get? a = none := AList.lookup_empty a

@[simp] theorem count_empty (p : ο → Bool) : (empty : Heap ο).count p = 0 := rfl

theorem isSome_get? : (h.get? a).isSome ↔ a ∈ h.cells := AList.lookup_isSome

theorem lt_of_get? (hget : h.get? a = some o) : a < h.next :=
  h.fresh a (isSome_get?.mp (by rw [hget]; rfl))

theorem get?_of_le (hle : h.next ≤ a) : h.get? a = none := by
  rw [get?, AList.lookup_eq_none]
  exact fun hmem => Nat.not_lt.mpr hle (h.fresh a hmem)

@[simp] theorem snd_alloc (h : Heap ο) (o : ο) : (h.alloc o).2 = h.next := rfl

@[simp] theorem next_alloc (h : Heap ο) (o : ο) : (h.alloc o).1.next = h.next + 1 := rfl

theorem lookup_insert_eq_update (s : AList fun _ : ℕ => ο) (a : ℕ) (o : ο) :
    (fun b => (s.insert a o).lookup b) = Function.update (fun b => s.lookup b) a (some o) := by
  funext b
  by_cases hb : b = a
  · subst hb
    rw [AList.lookup_insert, Function.update_self]
  · rw [AList.lookup_insert_ne hb, Function.update_of_ne hb]

@[simp] theorem get?_alloc (h : Heap ο) (o : ο) :
    (h.alloc o).1.get? = Function.update h.get? h.next (some o) :=
  lookup_insert_eq_update h.cells h.next o

theorem ite_eq_toNat (b : Bool) : (if b = true then 1 else 0) = b.toNat := by cases b <;> rfl

@[simp] theorem count_alloc (h : Heap ο) (o : ο) (p : ο → Bool) :
    (h.alloc o).1.count p = h.count p + (p o).toNat := by
  have hnew : h.next ∉ h.cells := fun hmem => Nat.lt_irrefl _ (h.fresh _ hmem)
  rw [count, alloc, AList.entries_insert_of_notMem hnew, List.countP_cons, count, ite_eq_toNat]

theorem countP_kerase {s : List (Σ _ : ℕ, ο)} {p : ο → Bool} (hs : s.NodupKeys)
    (hget : s.dlookup a = some o) : s.countP (fun cell => p cell.2) =
      (s.kerase a).countP (fun cell => p cell.2) + (p o).toNat := by
  have hmem : a ∈ s.keys := by
    rw [← List.dlookup_isSome, hget]
    rfl
  obtain ⟨b, l₁, l₂, hl₁, rfl, herase⟩ := List.exists_of_kerase hmem
  obtain rfl : b = o := by
    have hb := List.mem_dlookup hs (a := a) (b := b) (by simp)
    rw [hget] at hb
    exact (Option.some.inj hb).symm
  rw [herase, List.countP_append, List.countP_append, List.countP_cons, ite_eq_toNat,
    Nat.add_assoc]

/-- There is no object of the kind. -/
theorem count_eq_zero {p : ο → Bool} :
    h.count p = 0 ↔ ∀ a o, h.get? a = some o → p o = false := by
  rw [count, List.countP_eq_zero]
  constructor
  · intro hnone a o hget
    simpa using hnone ⟨a, o⟩ (AList.mem_lookup_iff.mp hget)
  · rintro hnone ⟨a, o⟩ hmem
    simpa using hnone a o (AList.mem_lookup_iff.mpr hmem)

@[simp] theorem mem_addresses {p : ο → Bool} :
    a ∈ h.addresses p ↔ ∃ o, h.get? a = some o ∧ p o = true := by
  rw [addresses, List.mem_map]
  constructor
  · rintro ⟨⟨a, o⟩, hmem, rfl⟩
    obtain ⟨hmem, hp⟩ := List.mem_filter.mp hmem
    exact ⟨o, AList.mem_lookup_iff.mpr hmem, hp⟩
  · rintro ⟨o, hget, hp⟩
    exact ⟨⟨a, o⟩, List.mem_filter.mpr ⟨AList.mem_lookup_iff.mp hget, hp⟩, rfl⟩

/-- Every object is in one place. -/
theorem nodup_addresses (h : Heap ο) (p : ο → Bool) : (h.addresses p).Nodup :=
  h.cells.nodupKeys.sublist List.filter_sublist

/-- **What writing does.** -/
theorem write_cases (hwrite : h.write a o = some h') : ∃ old, h.get? a = some old ∧
    h'.next = h.next ∧ h'.get? = Function.update h.get? a (some o) ∧
    ∀ p, h'.count p + (p old).toNat = h.count p + (p o).toNat := by
  rw [write] at hwrite
  split_ifs at hwrite with hmem
  cases hwrite
  obtain ⟨old, hold⟩ := Option.isSome_iff_exists.mp (isSome_get?.mpr hmem)
  refine ⟨old, hold, rfl, lookup_insert_eq_update h.cells a o, fun p => ?_⟩
  rw [count, count, countP_kerase h.cells.nodupKeys hold]
  show ((h.cells.insert a o).entries.countP fun cell => p cell.2) + _ = _
  rw [AList.entries_insert, List.countP_cons, ite_eq_toNat, Nat.add_right_comm]

/-- **What deleting does.** -/
theorem delete_cases (hdelete : h.delete a = some h') : ∃ old, h.get? a = some old ∧
    h'.next = h.next ∧ h'.get? = Function.update h.get? a none ∧
    ∀ p, h'.count p + (p old).toNat = h.count p := by
  rw [delete] at hdelete
  split_ifs at hdelete with hmem
  cases hdelete
  obtain ⟨old, hold⟩ := Option.isSome_iff_exists.mp (isSome_get?.mpr hmem)
  refine ⟨old, hold, rfl, ?_, fun p => (countP_kerase h.cells.nodupKeys hold).symm⟩
  funext b
  by_cases hb : b = a
  · subst hb
    rw [Function.update_self]
    exact AList.lookup_erase b h.cells
  · rw [Function.update_of_ne hb]
    exact AList.lookup_erase_ne hb

/-- The same for an object that is known. -/
theorem delete_of_get? (hdelete : h.delete a = some h') (hget : h.get? a = some o) :
    h'.next = h.next ∧ h'.get? = Function.update h.get? a none ∧
      ∀ p, h'.count p + (p o).toNat = h.count p := by
  obtain ⟨old, hold, hcases⟩ := delete_cases hdelete
  obtain rfl := Option.some.inj (hget.symm.trans hold)
  exact hcases

theorem write_of_get? {old : ο} (hwrite : h.write a o = some h') (hget : h.get? a = some old) :
    h'.next = h.next ∧ h'.get? = Function.update h.get? a (some o) ∧
      ∀ p, h'.count p + (p old).toNat = h.count p + (p o).toNat := by
  obtain ⟨old', hold, hcases⟩ := write_cases hwrite
  obtain rfl := Option.some.inj (hget.symm.trans hold)
  exact hcases

/-- What is there can be written. -/
theorem exists_write {old : ο} (hget : h.get? a = some old) (o : ο) :
    ∃ h', h.write a o = some h' ∧ h'.get? = Function.update h.get? a (some o) := by
  have hsome : ∃ h', h.write a o = some h' := by
    rw [write, dif_pos (isSome_get?.mp (by rw [hget]; rfl))]
    exact ⟨_, rfl⟩
  obtain ⟨h', hwrite⟩ := hsome
  exact ⟨h', hwrite, (write_of_get? hwrite hget).2.1⟩

/-- It can be deleted. -/
theorem exists_delete (hget : h.get? a = some o) :
    ∃ h', h.delete a = some h' ∧ h'.get? = Function.update h.get? a none := by
  have hsome : ∃ h', h.delete a = some h' := by
    rw [delete, if_pos (isSome_get?.mp (by rw [hget]; rfl))]
    exact ⟨_, rfl⟩
  obtain ⟨h', hdelete⟩ := hsome
  exact ⟨h', hdelete, (delete_of_get? hdelete hget).2.1⟩

end Lemmas

end Heap

/-! ## Links -/

/-- Which addresses an object holds, for which purpose, and what is expected there. -/
structure Links (ο κ : Type) where
  /-- The addresses, with the purpose. -/
  refs : ο → List (κ × ℕ)
  /-- What may be at an address held for this purpose. -/
  fits : κ → ο → Prop

/-- Objects lead to each other as they should. -/
structure Linked (L : Links ο κ) (f : ℕ → Option ο) : Prop where
  /-- What an address is held for is there. -/
  leads : ∀ {a o k b}, f a = some o → (k, b) ∈ L.refs o → ∃ target, f b = some target ∧
    L.fits k target
  /-- No address is held by two objects for the same purpose. -/
  unique : ∀ {a o a' o' k b}, f a = some o → f a' = some o' → (k, b) ∈ L.refs o →
    (k, b) ∈ L.refs o' → a = a'
  /-- Nor twice by one. -/
  nodup : ∀ {a o}, f a = some o → (L.refs o).Nodup

/-- No object holds the address for this purpose. -/
def Unheld (L : Links ο κ) (f : ℕ → Option ο) (k : κ) (b : ℕ) : Prop :=
  ∀ a o, f a = some o → (k, b) ∉ L.refs o

section Linked

variable {L : Links ο κ} {f f' : ℕ → Option ο} {k : κ} {a b : ℕ} {o : ο}

theorem update_some_eq_some {o' : ο} : Function.update f a (some o) b = some o' ↔
    (b = a ∧ o = o') ∨ (b ≠ a ∧ f b = some o') := by
  by_cases hb : b = a
  · subst hb
    simp
  · simp [hb]

theorem update_none_eq_some {o' : ο} :
    Function.update f a none b = some o' ↔ b ≠ a ∧ f b = some o' := by
  by_cases hb : b = a
  · subst hb
    simp
  · simp [hb]

theorem linked_empty (L : Links ο κ) : Linked L fun _ => none := ⟨nofun, nofun, nofun⟩

namespace Linked

/-- Where nothing is, nothing leads. -/
theorem unheld_of_none (h : Linked L f) (hb : f b = none) : Unheld L f k b := by
  intro a o ha href
  obtain ⟨target, htarget, -⟩ := h.leads ha href
  rw [hb] at htarget
  cases htarget

/-- **An object is added, or gets addresses added**: what it holds it has held before, or nobody
has. -/
theorem update (h : Linked L f)
    (hrefs : ∀ k b, (k, b) ∈ L.refs o → (∃ old, f a = some old ∧ (k, b) ∈ L.refs old) ∨
      (∃ target, f b = some target ∧ L.fits k target) ∧ Unheld L f k b)
    (hfits : ∀ old, f a = some old → ∀ k, L.fits k old → L.fits k o) (hnodup : (L.refs o).Nodup) :
    Linked L (Function.update f a (some o)) := by
  have hkept : ∀ {b target k}, f b = some target → L.fits k target →
      ∃ target, Function.update f a (some o) b = some target ∧ L.fits k target := by
    intro b target k hb hk
    by_cases heq : b = a
    · subst heq
      exact ⟨o, Function.update_self .., hfits target hb k hk⟩
    · exact ⟨target, by rw [Function.update_of_ne heq, hb], hk⟩
  -- what the object holds now is held by no other
  have hother : ∀ {a' o' k b}, a' ≠ a → f a' = some o' → (k, b) ∈ L.refs o →
      (k, b) ∉ L.refs o' := by
    intro a' o' k b hne ha' href href'
    obtain ⟨old, hold, hrefold⟩ | ⟨-, hunheld⟩ := hrefs k b href
    · exact hne (h.unique ha' hold href' hrefold)
    · exact hunheld a' o' ha' href'
  refine ⟨fun {a' o' k b} ha' href => ?_, fun {a₁ o₁ a₂ o₂ k b} h₁ h₂ href₁ href₂ => ?_,
    fun {a' o'} ha' => ?_⟩
  · obtain ⟨rfl, rfl⟩ | ⟨-, ha'⟩ := update_some_eq_some.mp ha'
    · obtain ⟨old, hold, hrefold⟩ | ⟨⟨target, htarget, hk⟩, -⟩ := hrefs k b href
      · obtain ⟨target, htarget, hk⟩ := h.leads hold hrefold
        exact hkept htarget hk
      · exact hkept htarget hk
    · obtain ⟨target, htarget, hk⟩ := h.leads ha' href
      exact hkept htarget hk
  · obtain ⟨rfl, rfl⟩ | ⟨hne₁, hf₁⟩ := update_some_eq_some.mp h₁
    · obtain ⟨rfl, -⟩ | ⟨hne₂, hf₂⟩ := update_some_eq_some.mp h₂
      · rfl
      · exact absurd href₂ (hother hne₂ hf₂ href₁)
    · obtain ⟨rfl, rfl⟩ | ⟨hne₂, hf₂⟩ := update_some_eq_some.mp h₂
      · exact absurd href₁ (hother hne₁ hf₁ href₂)
      · exact h.unique hf₁ hf₂ href₁ href₂
  · obtain ⟨rfl, rfl⟩ | ⟨-, ha'⟩ := update_some_eq_some.mp ha'
    · exact hnodup
    · exact h.nodup ha'

/-- A new object. -/
theorem add (h : Linked L f) (ha : f a = none)
    (hrefs : ∀ k b, (k, b) ∈ L.refs o → (∃ target, f b = some target ∧ L.fits k target) ∧
      Unheld L f k b) (hnodup : (L.refs o).Nodup) :
    Linked L (Function.update f a (some o)) := by
  refine h.update (fun k b href => .inr (hrefs k b href)) (fun old hold => ?_) hnodup
  rw [ha] at hold
  cases hold

/-- **Objects are taken away**, and with them all the addresses of them. -/
theorem shrink (h : Linked L f)
    (sub : ∀ a o', f' a = some o' → ∃ o, f a = some o ∧ L.refs o' ⊆ L.refs o ∧
      (L.refs o').Nodup ∧ ∀ k, L.fits k o → L.fits k o')
    (kept : ∀ a o' k b, f' a = some o' → (k, b) ∈ L.refs o' → (f' b).isSome) : Linked L f' := by
  refine ⟨fun {a o' k b} hget href => ?_, fun {a o a' o' k b} hget hget' href href' => ?_,
    fun {a o'} hget => ?_⟩
  · obtain ⟨o, hold, hsub, -, -⟩ := sub a o' hget
    obtain ⟨target, htarget, hfits⟩ := h.leads hold (hsub href)
    obtain ⟨target', htarget'⟩ := Option.isSome_iff_exists.mp (kept a o' k b hget href)
    obtain ⟨target₀, htarget₀, -, -, himp⟩ := sub b target' htarget'
    obtain rfl := Option.some.inj (htarget.symm.trans htarget₀)
    exact ⟨target', htarget', himp k hfits⟩
  · obtain ⟨o₁, hget₁, hsub₁, -, -⟩ := sub a o hget
    obtain ⟨o₂, hget₂, hsub₂, -, -⟩ := sub a' o' hget'
    exact h.unique hget₁ hget₂ (hsub₁ href) (hsub₂ href')
  · obtain ⟨o, -, -, hnodup, -⟩ := sub a o' hget
    exact hnodup

/-- Objects whose addresses are held by none of the others. -/
theorem remove (h : Linked L f) (gone : List ℕ)
    (hf' : ∀ a o, f' a = some o ↔ a ∉ gone ∧ f a = some o)
    (hgone : ∀ a o k b, f a = some o → a ∉ gone → (k, b) ∈ L.refs o → b ∉ gone) :
    Linked L f' := by
  refine h.shrink (fun a o hget => ?_) fun a o k b hget href => ?_
  · have hold := ((hf' a o).mp hget).2
    exact ⟨o, hold, List.Subset.refl _, h.nodup hold, fun _ => id⟩
  · obtain ⟨hmem, hold⟩ := (hf' a o).mp hget
    obtain ⟨target, htarget, -⟩ := h.leads hold href
    exact Option.isSome_iff_exists.mpr
      ⟨target, (hf' b target).mpr ⟨hgone a o k b hold hmem href, htarget⟩⟩

end Linked

theorem Unheld.update (h : Unheld L f k b) (ho : (k, b) ∉ L.refs o) :
    Unheld L (Function.update f a (some o)) k b := by
  intro a' o' ha'
  obtain ⟨rfl, rfl⟩ | ⟨-, ha'⟩ := update_some_eq_some.mp ha'
  · exact ho
  · exact h a' o' ha'

end Linked

/-! ## Losses -/

namespace System

variable {σ α : Type} (S : System σ α)

/-- What the steps of a run lose, one after the other. -/
def total (loss : σ → α → ℕ) : σ → List α → ℕ
  | _, [] => 0
  | s, a :: as => loss s a + ((S.step s a).map fun s' => total loss s' as).getD 0

variable {S} {ok : σ → α → Prop}

/-- A step that loses nothing adds nothing. -/
@[simp] theorem total_zero (s : σ) (as : List α) : S.total (fun _ _ => 0) s as = 0 := by
  induction as generalizing s with
  | nil => rfl
  | cons a as ih => cases hstep : S.step s a <;> simp [total, hstep, ih]

/-- **What there is and what is accounted for differ by what has been lost**, if every step sees to
that. -/
theorem exec_balance [∀ s a, Decidable (ok s a)] {there accounted : σ → ℕ} {loss : σ → α → ℕ}
    {P : σ → Prop} (hP : ∀ s a s', P s → ok s a → S.step s a = some s' → P s')
    (hstep : ∀ s a s', P s → ok s a → S.step s a = some s' →
      there s' + accounted s = accounted s' + there s + loss s a)
    {s s' : σ} (hs : P s) {as : List α} (hrun : S.exec ok s as = some s') :
    there s' + accounted s = accounted s' + there s + S.total loss s as := by
  induction as generalizing s with
  | nil =>
    cases hrun
    rw [total]
    omega
  | cons a as ih =>
    rw [exec, Option.ite_none_right_eq_some] at hrun
    obtain ⟨hok, hrun⟩ := hrun
    obtain ⟨s₁, hfirst, hrun⟩ := Option.bind_eq_some_iff.mp hrun
    have hone := hstep s a s₁ hs hok hfirst
    have hrest := ih (hP s a s₁ hs hok hfirst) hrun
    rw [total, hfirst, Option.map_some, Option.getD_some]
    omega

end System

end Transition
