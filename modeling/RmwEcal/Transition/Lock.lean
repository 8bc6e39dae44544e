import Mathlib.Data.List.Basic

/-!
# Locks

Threads are listed with where they are (see `Transition.System`), and where a thread is says whether
it holds a lock.  That a lock excludes is that the threads that hold it are as many as it is taken
(`Held`): one or none.  One thread may stand outside the list (`other`).

A step of one thread is a replacement of one entry of the list, or its removal.
-/

set_option autoImplicit false

namespace Transition

variable {β : Type}

/-- A lock that is taken is held by exactly one thread, and one that is not by none. -/
def Held (holds : β → Bool) (other : Bool) (threads : List β) (locked : Bool) : Prop :=
  threads.countP holds + other.toNat = locked.toNat

section Held

variable {holds : β → Bool} {other locked : Bool} {threads l₁ l₂ : List β} {a b : β}

theorem held_nil : Held holds false [] false := rfl

/-- **Nobody else holds it.** -/
theorem Held.not_holds (h : Held holds true threads locked) (hmem : a ∈ threads) :
    holds a = false := by
  by_contra ha
  have hpos : 0 < threads.countP holds :=
    List.countP_pos_iff.mpr ⟨a, hmem, by simpa using ha⟩
  cases locked <;> simp only [Held, Bool.toNat_true, Bool.toNat_false] at h <;> omega

/-- It is taken if somebody holds it. -/
theorem Held.locked_of_mem (h : Held holds other threads locked) (hmem : a ∈ threads)
    (ha : holds a = true) : locked = true := by
  have hpos : 0 < threads.countP holds := List.countP_pos_iff.mpr ⟨a, hmem, ha⟩
  cases locked
  · simp only [Held, Bool.toNat_false] at h
    omega
  · rfl

theorem Held.locked_of_other (h : Held holds true threads locked) : locked = true := by
  cases locked
  · simp only [Held, Bool.toNat_false, Bool.toNat_true] at h
    omega
  · rfl

/-- Nobody holds it if it is free. -/
theorem Held.not_holds_of_free (h : Held holds other threads false) (hmem : a ∈ threads) :
    holds a = false := by
  by_contra ha
  cases h.locked_of_mem hmem (by simpa using ha)

/-- Somebody holds it if it is taken. -/
theorem Held.exists_holds (h : Held holds false threads true) : ∃ a ∈ threads, holds a = true := by
  refine List.countP_pos_iff.mp ?_
  simp only [Held, Bool.toNat_false, Bool.toNat_true] at h
  omega

/-- A thread moves and keeps the lock, or stays without it. -/
theorem Held.move (h : Held holds other (l₁ ++ a :: l₂) locked) (hab : holds b = holds a) :
    Held holds other (l₁ ++ b :: l₂) locked := by
  simpa only [Held, List.countP_append, List.countP_cons, hab] using h

/-- A thread takes the lock. -/
theorem Held.acquire (h : Held holds other (l₁ ++ a :: l₂) false) (hb : holds b = true) :
    Held holds other (l₁ ++ b :: l₂) true := by
  simp only [Held, List.countP_append, List.countP_cons, Bool.toNat_false, Bool.toNat_true, hb]
    at h ⊢
  simp only [↓reduceIte]
  omega

/-- A thread gives it back. -/
theorem Held.release (h : Held holds other (l₁ ++ a :: l₂) locked) (ha : holds a = true)
    (hb : holds b = false) : Held holds other (l₁ ++ b :: l₂) false := by
  have hlocked : locked = true := h.locked_of_mem (a := a) (by simp) ha
  simp only [Held, hlocked, List.countP_append, List.countP_cons, Bool.toNat_false, Bool.toNat_true,
    ha, hb] at h ⊢
  simp only [↓reduceIte, Bool.false_eq_true] at h ⊢
  omega

/-- A thread ends that does not hold it. -/
theorem Held.leave (h : Held holds other (l₁ ++ a :: l₂) locked) (ha : holds a = false) :
    Held holds other (l₁ ++ l₂) locked := by
  simpa only [Held, List.countP_append, List.countP_cons, ha, Bool.false_eq_true, ↓reduceIte,
    Nat.add_zero] using h

/-- A thread ends and gives it back. -/
theorem Held.release_leave (h : Held holds other (l₁ ++ a :: l₂) locked) (ha : holds a = true) :
    Held holds other (l₁ ++ l₂) false := by
  have hlocked : locked = true := h.locked_of_mem (a := a) (by simp) ha
  simp only [Held, hlocked, List.countP_append, List.countP_cons, Bool.toNat_false, Bool.toNat_true,
    ha] at h ⊢
  simp only [↓reduceIte] at h
  omega

/-- A thread comes that does not hold it. -/
theorem Held.enter (h : Held holds other threads locked) (ha : holds a = false) :
    Held holds other (threads ++ [a]) locked := by
  simpa only [Held, List.countP_append, List.countP_singleton, ha, Bool.false_eq_true, ↓reduceIte,
    Nat.add_zero] using h

/-- The other thread takes it. -/
theorem Held.acquire_other (h : Held holds other threads false) : Held holds true threads true := by
  simp only [Held, Bool.toNat_false, Bool.toNat_true] at h ⊢
  omega

/-- The other thread gives it back. -/
theorem Held.release_other (h : Held holds true threads locked) :
    Held holds false threads false := by
  have hlocked := h.locked_of_other
  simp only [Held, hlocked, Bool.toNat_false, Bool.toNat_true] at h ⊢
  omega

end Held

end Transition
