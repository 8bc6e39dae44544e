import RmwEcal.Transition.System
import Mathlib.Order.WellFounded
import Mathlib.Logic.Function.Basic

/-!
# Threads that lock mutexes

A `Prog` says what a thread does: it locks and unlocks mutexes, it looks at the memory and writes to
it, and where something is left to chance it takes either branch.  Programs are put together with
`do`.  A loop is a label that the program goes to, and so is a function that a thread is started
with.  `Code.system` runs any number of threads, one step of one thread at a time.

Deadlocks are kept off by an order: every mutex has a rank, and a thread locks a mutex only while
all that it holds have lower ranks.  `Orderly` says so of a program, and its rules follow the
program's structure; where a program goes to a label, the label says what is held.  Then no threads
ever wait for one another in a circle (`not_deadlocked`), and as long as not all threads are done
one of them can go on (`exists_step`).
-/

set_option autoImplicit false

namespace Transition

/-! ## Programs -/

/-- What a thread does next, and what it does then.  The memory is `σ`, the mutexes are `μ` and the
labels `κ`. -/
inductive Prog (σ μ κ α : Type) where
  /-- It is done. -/
  | pure (a : α)
  | acquire (m : μ) (next : Prog σ μ κ α)
  | release (m : μ) (next : Prog σ μ κ α)
  /-- It changes the memory and knows what was in it before. -/
  | access (update : σ → σ) (next : σ → Prog σ μ κ α)
  /-- It takes either branch. -/
  | branch (next : Bool → Prog σ μ κ α)
  | jump (k : κ)

namespace Prog

variable {σ μ κ α β : Type}

/-- One program after the other. -/
protected def bind : Prog σ μ κ α → (α → Prog σ μ κ β) → Prog σ μ κ β
  | .pure a, f => f a
  | .acquire m next, f => .acquire m (next.bind f)
  | .release m next, f => .release m (next.bind f)
  | .access update next, f => .access update fun s => (next s).bind f
  | .branch next, f => .branch fun b => (next b).bind f
  | .jump k, _ => .jump k

instance : Monad (Prog σ μ κ) where
  pure := .pure
  bind := .bind

/-- Lock a mutex. -/
def lock (m : μ) : Prog σ μ κ Unit := .acquire m (.pure ())

/-- Unlock a mutex. -/
def unlock (m : μ) : Prog σ μ κ Unit := .release m (.pure ())

/-- Look at the memory. -/
def read (f : σ → α) : Prog σ μ κ α := .access id fun s => .pure (f s)

/-- Write to the memory. -/
def write (update : σ → σ) : Prog σ μ κ Unit := .access update fun _ => .pure ()

/-- Write to the memory and say something about what was there before, all at once. -/
def exchange (f : σ → α) (update : σ → σ) : Prog σ μ κ α := .access update fun s => .pure (f s)

/-- Whatever chance says. -/
def choose : Prog σ μ κ Bool := .branch .pure

/-- Go to a label. -/
def goto (k : κ) : Prog σ μ κ α := .jump k

/-- Do something with a mutex locked. -/
def withLock (m : μ) (body : Prog σ μ κ α) : Prog σ μ κ α := do
  lock m
  let a ← body
  unlock m
  return a

end Prog

/-! ## Threads -/

/-- The programs at the labels, the labels that a thread can be started with, and the memory at the
beginning. -/
structure Code (σ μ κ : Type) where
  /-- What is at a label. -/
  body : κ → Prog σ μ κ Unit
  /-- Whether a thread can be started with it. -/
  start : κ → Bool
  /-- The memory at the beginning. -/
  init : σ

/-- The memory, the owners of the mutexes, and what is still to be done by each thread. -/
structure Threads (σ μ κ : Type) where
  memory : σ
  owner : μ → Option ℕ
  threads : List (Prog σ μ κ Unit)

namespace Code

variable {σ μ κ : Type} [DecidableEq μ] (C : Code σ μ κ)

/-- A step of a thread.  A mutex can be locked when it has no owner. -/
def stepThread (c : Threads σ μ κ) (t : ℕ) (choice : Bool) : Option (Threads σ μ κ) := do
  match ← c.threads[t]? with
  | .pure _ => none
  | .acquire m next =>
    if c.owner m = none then some { c with
      owner := Function.update c.owner m (some t)
      threads := c.threads.set t next }
    else none
  | .release m next =>
    if c.owner m = some t then some { c with
      owner := Function.update c.owner m none
      threads := c.threads.set t next }
    else none
  | .access update next => some { c with
      memory := update c.memory
      threads := c.threads.set t (next c.memory) }
  | .branch next => some { c with threads := c.threads.set t (next choice) }
  | .jump k => some { c with threads := c.threads.set t (C.body k) }

/-- What can happen: a thread is started, or takes a step. -/
inductive Move (κ : Type) where
  | start (k : κ)
  | step (t : ℕ) (choice : Bool)
  deriving DecidableEq, Repr

/-- One step. -/
def step (c : Threads σ μ κ) : Move κ → Option (Threads σ μ κ)
  | .start k =>
    if C.start k = true then some { c with threads := c.threads ++ [.jump k] } else none
  | .step t choice => C.stepThread c t choice

/-- Threads at work. -/
def system : System (Threads σ μ κ) (Move κ) := ⟨⟨C.init, fun _ => none, []⟩, C.step⟩

end Code

namespace Threads

variable {σ μ κ : Type}

/-- The mutex that a thread is going to lock. -/
def wants (c : Threads σ μ κ) (t : ℕ) : Option μ :=
  match c.threads[t]? with
  | some (.acquire m _) => some m
  | _ => none

/-- Some threads each wait for a mutex that one of them has. -/
def Deadlocked (c : Threads σ μ κ) : Prop :=
  ∃ T : Set ℕ, T.Nonempty ∧ ∀ t ∈ T, ∃ m, c.wants t = some m ∧ ∃ t' ∈ T, c.owner m = some t'

end Threads

/-! ## Orders -/

/-- An order of the mutexes, and what is held at the labels. -/
structure LockOrder (μ κ L : Type) where
  /-- The rank of a mutex. -/
  rank : μ → L
  /-- The mutexes that are held when a thread comes to a label. -/
  entry : κ → List μ

namespace LockOrder

variable {σ μ κ L α β : Type} [DecidableEq μ] [Preorder L] (D : LockOrder μ κ L)

/-- A program that begins with these mutexes held keeps to the order, and if it comes to an end, the
result and what is held then are as they should be. -/
def Orderly : List μ → Prog σ μ κ α → (α → List μ → Prop) → Prop
  | held, .pure a, Q => Q a held
  | held, .acquire m next, Q => (∀ h ∈ held, D.rank h < D.rank m) ∧ Orderly (m :: held) next Q
  | held, .release m next, Q => m ∈ held ∧ Orderly (held.erase m) next Q
  | held, .access _ next, Q => ∀ s, Orderly held (next s) Q
  | held, .branch next, Q => ∀ b, Orderly held (next b) Q
  | held, .jump k, _ => held = D.entry k

/-- A program that keeps to the order and gives back what it takes. -/
def Balanced (held : List μ) (p : Prog σ μ κ α) : Prop :=
  D.Orderly held p fun _ held' => held' = held

variable {D} {held : List μ} {p : Prog σ μ κ α} {Q Q' : α → List μ → Prop}

theorem Orderly.mono (h : D.Orderly held p Q) (himp : ∀ a held', Q a held' → Q' a held') :
    D.Orderly held p Q' := by
  induction p generalizing held with
  | pure a => exact himp a held h
  | acquire m next ih => exact ⟨h.1, ih h.2⟩
  | release m next ih => exact ⟨h.1, ih h.2⟩
  | access update next ih => exact fun s => ih s (h s)
  | branch next ih => exact fun b => ih b (h b)
  | jump k => exact h

/-- **One program after the other.** -/
theorem Orderly.bind {f : α → Prog σ μ κ β} {R : β → List μ → Prop} (h : D.Orderly held p Q)
    (hf : ∀ a held', Q a held' → D.Orderly held' (f a) R) : D.Orderly held (p >>= f) R := by
  show D.Orderly held (p.bind f) R
  induction p generalizing held with
  | pure a => exact hf a held h
  | acquire m next ih => exact ⟨h.1, ih h.2⟩
  | release m next ih => exact ⟨h.1, ih h.2⟩
  | access update next ih => exact fun s => ih s (h s)
  | branch next ih => exact fun b => ih b (h b)
  | jump k => exact h

/-- A program that gives back what it takes can come first. -/
theorem Balanced.bind {f : α → Prog σ μ κ β} {R : β → List μ → Prop} (h : D.Balanced held p)
    (hf : ∀ a, D.Orderly held (f a) R) : D.Orderly held (p >>= f) R :=
  Orderly.bind h fun a _ heq => heq ▸ hf a

theorem balanced_pure (a : α) : D.Balanced held (Pure.pure a : Prog σ μ κ α) := rfl

theorem balanced_read (f : σ → α) : D.Balanced held (Prog.read f : Prog σ μ κ α) := fun _ => rfl

theorem balanced_write (update : σ → σ) :
    D.Balanced held (Prog.write update : Prog σ μ κ Unit) := fun _ => rfl

theorem balanced_exchange (f : σ → α) (update : σ → σ) :
    D.Balanced held (Prog.exchange f update : Prog σ μ κ α) := fun _ => rfl

theorem balanced_choose : D.Balanced held (Prog.choose : Prog σ μ κ Bool) := fun _ => rfl

/-- A mutex can be locked while those that are held have lower ranks. -/
theorem orderly_lock {m : μ} (hrank : ∀ h ∈ held, D.rank h < D.rank m) :
    D.Orderly held (Prog.lock m : Prog σ μ κ Unit) fun _ held' => held' = m :: held :=
  ⟨hrank, rfl⟩

/-- The mutex that was locked last can be unlocked. -/
theorem orderly_unlock {m : μ} :
    D.Orderly (m :: held) (Prog.unlock m : Prog σ μ κ Unit) fun _ held' => held' = held :=
  ⟨List.mem_cons_self, List.erase_cons_head ..⟩

/-- **A mutex is locked and unlocked.** -/
theorem Balanced.withLock {m : μ} (h : D.Balanced (m :: held) p)
    (hrank : ∀ h ∈ held, D.rank h < D.rank m) : D.Balanced held (Prog.withLock m p) := by
  refine (orderly_lock hrank).bind ?_
  rintro _ _ rfl
  refine h.bind fun a => orderly_unlock.bind ?_
  rintro _ _ rfl
  rfl

theorem Balanced.forM {f : β → Prog σ μ κ Unit} {l : List β}
    (h : ∀ b ∈ l, D.Balanced held (f b)) : D.Balanced held (l.forM f) := by
  induction l with
  | nil => rfl
  | cons b l ih =>
    obtain ⟨hb, hl⟩ := List.forall_mem_cons.mp h
    exact hb.bind fun _ => ih hl

/-! ## No deadlocks -/

variable (D) (C : Code σ μ κ)

/-- The programs at all labels keep to the order, and give back everything in the end. -/
structure Kept : Prop where
  body : ∀ k, D.Orderly (D.entry k) (C.body k) fun _ held => held = []
  start : ∀ k, C.start k = true → D.entry k = []

/-- What a thread holds is what it owns, and it keeps to the order from here on. -/
def Behaves (owner : μ → Option ℕ) (t : ℕ) (p : Prog σ μ κ Unit) : Prop :=
  ∃ held : List μ, held.Nodup ∧ (∀ m, m ∈ held ↔ owner m = some t) ∧
    D.Orderly held p fun _ held' => held' = []

/-- All threads behave, and nobody else owns a mutex. -/
structure Ordered (c : Threads σ μ κ) : Prop where
  behaves : ∀ t p, c.threads[t]? = some p → D.Behaves c.owner t p
  owned : ∀ m t, c.owner m = some t → t < c.threads.length

variable {D C} {c c' : Threads σ μ κ} {t : ℕ}

/-- A thread goes on, and what the others own stays as it is. -/
theorem Ordered.set (h : D.Ordered c) {owner : μ → Option ℕ} {memory : σ} {p : Prog σ μ κ Unit}
    (ht : t < c.threads.length) (hp : D.Behaves owner t p)
    (howner : ∀ m t', t' ≠ t → (owner m = some t' ↔ c.owner m = some t')) :
    D.Ordered ⟨memory, owner, c.threads.set t p⟩ := by
  refine ⟨fun t' p' hget => ?_, fun m t' howned => ?_⟩
  · by_cases htt : t = t'
    · subst htt
      rw [List.getElem?_set_self ht, Option.some_inj] at hget
      exact hget ▸ hp
    · rw [List.getElem?_set_ne htt] at hget
      obtain ⟨held, hnodup, hheld, hp'⟩ := h.behaves t' p' hget
      exact ⟨held, hnodup, fun m => (hheld m).trans (howner m t' (Ne.symm htt)).symm, hp'⟩
  · rw [List.length_set]
    by_cases htt : t' = t
    · exact htt ▸ ht
    · exact h.owned m t' ((howner m t' htt).mp howned)

theorem Ordered.stepThread (h : D.Ordered c) (hkept : D.Kept C) {choice : Bool}
    (hstep : C.stepThread c t choice = some c') : D.Ordered c' := by
  obtain ⟨p, hget, hstep⟩ := Option.bind_eq_some_iff.mp hstep
  have ht := (List.getElem?_eq_some_iff.mp hget).1
  obtain ⟨held, hnodup, hheld, hp⟩ := h.behaves t p hget
  cases p with
  | pure a => cases hstep
  | acquire m next =>
    rw [Option.ite_none_right_eq_some] at hstep
    obtain ⟨hfree, hstep⟩ := hstep
    cases hstep
    refine h.set ht ⟨m :: held, ?_, fun m' => ?_, hp.2⟩ fun m' t' hne => ?_
    · exact List.nodup_cons.mpr ⟨fun hmem => lt_irrefl _ (hp.1 m hmem), hnodup⟩
    · by_cases hm : m' = m
      · simp [hm]
      · simp [hm, hheld]
    · by_cases hm : m' = m
      · simp [hm, hfree, Ne.symm hne]
      · simp [hm]
  | release m next =>
    rw [Option.ite_none_right_eq_some] at hstep
    obtain ⟨howned, hstep⟩ := hstep
    cases hstep
    refine h.set ht ⟨held.erase m, hnodup.erase m, fun m' => ?_, hp.2⟩ fun m' t' hne => ?_
    · rw [hnodup.mem_erase_iff, hheld]
      by_cases hm : m' = m
      · simp [hm]
      · simp [hm]
    · by_cases hm : m' = m
      · simp [hm, howned, Ne.symm hne]
      · simp [hm]
  | access update next =>
    cases hstep
    exact h.set ht ⟨held, hnodup, hheld, hp _⟩ fun _ _ _ => Iff.rfl
  | branch next =>
    cases hstep
    exact h.set ht ⟨held, hnodup, hheld, hp _⟩ fun _ _ _ => Iff.rfl
  | jump k =>
    cases hstep
    have hentry : held = D.entry k := hp
    exact h.set ht ⟨held, hnodup, hheld, hentry ▸ hkept.body k⟩ fun _ _ _ => Iff.rfl

theorem Ordered.start (h : D.Ordered c) (hkept : D.Kept C) {k : κ} (hk : C.start k = true) :
    D.Ordered { c with threads := c.threads ++ [.jump k] } := by
  refine ⟨fun t p hget => ?_, fun m t howned => ?_⟩
  · rcases Nat.lt_or_ge t c.threads.length with hlt | hge
    · exact h.behaves t p (by rwa [List.getElem?_append_left hlt] at hget)
    · rw [List.getElem?_append_right hge, List.getElem?_singleton,
        Option.ite_none_right_eq_some] at hget
      obtain ⟨hlen, hget⟩ := hget
      cases hget
      refine ⟨[], List.nodup_nil, fun m => iff_of_false List.not_mem_nil fun howned => ?_, ?_⟩
      · have hlt := h.owned m t howned
        omega
      · exact (hkept.start k hk).symm
  · have hlt := h.owned m t howned
    rw [List.length_append]
    exact Nat.lt_add_right _ hlt

theorem ordered_of_reachable (hkept : D.Kept C) (h : C.system.Reachable System.any c) :
    D.Ordered c := by
  refine h.invariant (P := D.Ordered) ⟨fun t p hget => ?_, fun m t howned => ?_⟩ ?_
  · cases hget
  · cases howned
  · rintro c a c' hordered - hstep
    cases a with
    | start k =>
      obtain ⟨hk, hstep⟩ := Option.ite_none_right_eq_some.mp hstep
      cases hstep
      exact hordered.start hkept hk
    | step t choice => exact hordered.stepThread hkept hstep

/-- A thread that waits for a mutex holds only mutexes of lower rank. -/
theorem Ordered.rank_lt (h : D.Ordered c) {m m' : μ} (howned : c.owner m = some t)
    (hwants : c.wants t = some m') : D.rank m < D.rank m' := by
  rw [Threads.wants] at hwants
  split at hwants
  · rename_i next hget
    cases hwants
    obtain ⟨held, -, hheld, hp⟩ := h.behaves t _ hget
    exact hp.1 m ((hheld m).mpr howned)
  · cases hwants

/-- **There is no deadlock.**  Of the mutexes that are waited for, take one of the highest rank: the
thread that holds it waits for one that is higher. -/
theorem not_deadlocked [WellFoundedGT L] (hkept : D.Kept C)
    (h : C.system.Reachable System.any c) : ¬c.Deadlocked := by
  rintro ⟨T, ⟨t₀, ht₀⟩, hwaits⟩
  have hordered := ordered_of_reachable hkept h
  obtain ⟨m₀, hm₀, -⟩ := hwaits t₀ ht₀
  obtain ⟨m, ⟨t, ht, hwants⟩, hmax⟩ :=
    (InvImage.wf D.rank (wellFounded_gt : WellFounded fun l l' : L => l > l')).has_min
      {m | ∃ t ∈ T, c.wants t = some m} ⟨m₀, t₀, ht₀, hm₀⟩
  obtain ⟨_, hwants', t', ht', howned⟩ := hwaits t ht
  cases hwants.symm.trans hwants'
  obtain ⟨m', hm', -⟩ := hwaits t' ht'
  exact hmax m' ⟨t', ht', hm'⟩ (hordered.rank_lt howned hm')

/-- A thread that owns a mutex is not done. -/
theorem Ordered.not_done (h : D.Ordered c) {m : μ} (howned : c.owner m = some t) :
    ∃ p, c.threads[t]? = some p ∧ ∀ a, p ≠ .pure a := by
  have ht := h.owned m t howned
  refine ⟨c.threads[t], List.getElem?_eq_getElem ht, fun a hdone => ?_⟩
  obtain ⟨held, -, hheld, hp⟩ := h.behaves t _ (List.getElem?_eq_getElem ht)
  rw [hdone] at hp
  have hnil : held = [] := hp
  have hmem := (hheld m).mpr howned
  rw [hnil] at hmem
  cases hmem

/-- **As long as a thread is not done, one of them can go on.** -/
theorem exists_step [WellFoundedGT L] (hkept : D.Kept C) (h : C.system.Reachable System.any c)
    {p : Prog σ μ κ Unit} (hget : c.threads[t]? = some p) (hp : ∀ a, p ≠ .pure a) :
    ∃ t choice c', C.stepThread c t choice = some c' := by
  by_contra hnone
  have hordered := ordered_of_reachable hkept h
  refine not_deadlocked hkept h
    ⟨{t | ∃ p, c.threads[t]? = some p ∧ ∀ a, p ≠ .pure a}, ⟨t, p, hget, hp⟩, ?_⟩
  rintro t ⟨p, hget, hp⟩
  cases p with
  | pure a => exact absurd rfl (hp a)
  | acquire m next =>
    refine ⟨m, by rw [Threads.wants, hget], ?_⟩
    cases howner : c.owner m with
    | none => exact absurd ⟨t, true, _, Option.bind_eq_some_iff.mpr ⟨_, hget, if_pos howner⟩⟩ hnone
    | some t' => exact ⟨t', hordered.not_done howner, rfl⟩
  | release m next =>
    obtain ⟨held, -, hheld, hheld', -⟩ := hordered.behaves t _ hget
    have howned := (hheld m).mp hheld'
    exact absurd ⟨t, true, _, Option.bind_eq_some_iff.mpr ⟨_, hget, if_pos howned⟩⟩ hnone
  | access update next =>
    exact absurd ⟨t, true, _, Option.bind_eq_some_iff.mpr ⟨_, hget, rfl⟩⟩ hnone
  | branch next => exact absurd ⟨t, true, _, Option.bind_eq_some_iff.mpr ⟨_, hget, rfl⟩⟩ hnone
  | jump k => exact absurd ⟨t, true, _, Option.bind_eq_some_iff.mpr ⟨_, hget, rfl⟩⟩ hnone

end LockOrder

end Transition
