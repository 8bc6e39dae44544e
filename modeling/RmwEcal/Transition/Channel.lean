import Mathlib.Data.List.Basic
import Mathlib.Logic.Function.Basic
import RmwEcal.Transition.System

/-!
# Messages from some to many

A `Channel` has senders and receivers.  What a sender publishes is on its way to every receiver, in
order; it may be lost on the way, and what arrives queues at the receiver until it is taken.
Senders are not ordered among each other.

For one sender and one receiver, what has been taken, what is queued and what is on its way is what
has been published, in this order and without anything twice, except for what has been lost
(`flow_sublist`); if nothing has been lost, it is all of that (`flow_eq`).

A system that does not know its messages from their encodings, say, can be related to such a
channel state by state: `Reachable.simulate` takes the steps of one to steps of the other, or to
none.
-/

set_option autoImplicit false

namespace Transition

/-! ## Simulation -/

section Simulation

variable {σ τ α β : Type} {C : System σ α} {A : System τ β} {ok : σ → α → Prop}
  {ok' : τ → β → Prop} {R : σ → τ → Prop}

/-- **A run of one system is a run of the other**: related states stay related, where a step of the
first is one of the second or makes no difference to it. -/
theorem System.Reachable.simulate {s : σ} (h : C.Reachable ok s) (hinit : R C.init A.init)
    (hstep : ∀ s t a s', A.Reachable ok' t → R s t → ok s a → C.step s a = some s' →
      R s' t ∨ ∃ b t', ok' t b ∧ A.step t b = some t' ∧ R s' t') :
    ∃ t, A.Reachable ok' t ∧ R s t := by
  induction h with
  | init => exact ⟨A.init, .init, hinit⟩
  | step _ hok hs ih =>
    obtain ⟨t, hreach, hrel⟩ := ih
    obtain hrel | ⟨b, t', hok', ht', hrel⟩ := hstep _ t _ _ hreach hrel hok hs
    · exact ⟨t, hreach, hrel⟩
    · exact ⟨t', hreach.step hok' ht', hrel⟩

end Simulation

/-! ## Channels -/

/-- Messages between senders and receivers. -/
structure Channel (π ς μ : Type) where
  /-- What every sender has published. -/
  published : π → List μ
  /-- What is on its way. -/
  pending : π → ς → List μ
  /-- What has arrived, with its sender. -/
  queued : ς → List (π × μ)
  /-- What has been taken. -/
  taken : ς → List (π × μ)

namespace Channel

variable {π ς μ : Type}

/-- Nothing has been published. -/
def fresh : Channel π ς μ := ⟨fun _ => [], fun _ _ => [], fun _ => [], fun _ => []⟩

/-- What can happen. -/
inductive Action (π ς μ : Type) where
  /-- A sender publishes a message. -/
  | publish (p : π) (m : μ)
  /-- One of the messages on the way is lost. -/
  | lose (p : π) (s : ς) (i : ℕ)
  /-- The first one arrives. -/
  | deliver (p : π) (s : ς)
  /-- A receiver takes the first one of its queue. -/
  | take (s : ς)

/-- A message is lost. -/
def Action.loses : Action π ς μ → Bool
  | .lose _ _ _ => true
  | _ => false

variable [DecidableEq π] [DecidableEq ς]

/-- What is on its way from one to the other. -/
def setPending (c : Channel π ς μ) (p : π) (s : ς) (messages : List μ) : Channel π ς μ :=
  { c with
    pending := Function.update c.pending p (Function.update (c.pending p) s messages) }

/-- One step. -/
def step (c : Channel π ς μ) : Action π ς μ → Option (Channel π ς μ)
  | .publish p m => some { c with
      published := Function.update c.published p (c.published p ++ [m])
      pending := Function.update c.pending p fun s => c.pending p s ++ [m] }
  | .lose p s i => some (c.setPending p s ((c.pending p s).eraseIdx i))
  | .deliver p s => match c.pending p s with
    | [] => none
    | m :: messages => some { c.setPending p s messages with
        queued := Function.update c.queued s (c.queued s ++ [(p, m)]) }
  | .take s => match c.queued s with
    | [] => none
    | x :: queued => some { c with
        queued := Function.update c.queued s queued
        taken := Function.update c.taken s (c.taken s ++ [x]) }

/-- A channel in use. -/
def system : System (Channel π ς μ) (Action π ς μ) := ⟨fresh, step⟩

/-- The messages of one sender. -/
def ofSender (p : π) (messages : List (π × μ)) : List μ :=
  (messages.filter fun x => x.1 = p).map Prod.snd

/-- What has come of the messages of a sender for a receiver. -/
def flow (c : Channel π ς μ) (p : π) (s : ς) : List μ :=
  ofSender p (c.taken s) ++ ofSender p (c.queued s) ++ c.pending p s

section Flow

variable {c c' : Channel π ς μ} {a : Action π ς μ} {p q : π} {s t : ς}

@[simp] theorem ofSender_nil : ofSender p ([] : List (π × μ)) = [] := rfl

@[simp] theorem ofSender_append (l l' : List (π × μ)) :
    ofSender p (l ++ l') = ofSender p l ++ ofSender p l' := by
  rw [ofSender, List.filter_append, List.map_append, ofSender, ofSender]

theorem ofSender_cons_self (m : μ) (l : List (π × μ)) :
    ofSender p ((p, m) :: l) = m :: ofSender p l := by
  simp [ofSender]

theorem ofSender_cons_ne (h : q ≠ p) (m : μ) (l : List (π × μ)) :
    ofSender p ((q, m) :: l) = ofSender p l := by
  simp [ofSender, h]

@[simp] theorem setPending_taken (c : Channel π ς μ) (p : π) (s : ς) (messages : List μ) :
    (c.setPending p s messages).taken = c.taken := rfl

@[simp] theorem setPending_queued (c : Channel π ς μ) (p : π) (s : ς) (messages : List μ) :
    (c.setPending p s messages).queued = c.queued := rfl

theorem setPending_pending (c : Channel π ς μ) (p q : π) (s t : ς) (messages : List μ) :
    (c.setPending p s messages).pending q t =
      if q = p ∧ t = s then messages else c.pending q t := by
  by_cases hq : q = p
  · subst hq
    by_cases ht : t = s
    · subst ht
      simp [setPending]
    · simp [setPending, ht]
  · simp [setPending, hq]

/-- **What a step does to the flow**: what is published is added at the end of both, and otherwise
nothing is lost but by a loss. -/
theorem flow_step (hstep : c.step a = some c') (p : π) (s : ς) :
    (∃ new, c'.published p = c.published p ++ new ∧ c'.flow p s = c.flow p s ++ new) ∨
      (a.loses = true ∧ c'.published p = c.published p ∧ (c'.flow p s).Sublist (c.flow p s)) := by
  cases a with
  | publish q m =>
    cases hstep
    left
    by_cases hq : p = q
    · subst hq
      exact ⟨[m], by simp, by simp [flow]⟩
    · exact ⟨[], by simp [hq], by simp [flow, hq]⟩
  | lose q t i =>
    cases hstep
    refine .inr ⟨rfl, rfl, ?_⟩
    refine List.Sublist.append (.refl _) ?_
    rw [setPending_pending]
    split_ifs with heq
    · obtain ⟨rfl, rfl⟩ := heq
      exact List.eraseIdx_sublist ..
    · exact .refl _
  | deliver q t =>
    rw [step] at hstep
    split at hstep
    · cases hstep
    · rename_i m messages hpending
      cases hstep
      refine .inl ⟨[], (List.append_nil _).symm, ?_⟩
      rw [List.append_nil, flow, flow, setPending_pending]
      by_cases ht : s = t
      · subst ht
        by_cases hq : p = q
        · subst hq
          simp [hpending, ofSender_cons_self]
        · simp [hq, ofSender_cons_ne (Ne.symm hq)]
      · simp [ht]
  | take t =>
    rw [step] at hstep
    split at hstep
    · cases hstep
    · rename_i x queued hqueued
      cases hstep
      refine .inl ⟨[], (List.append_nil _).symm, ?_⟩
      rw [List.append_nil, flow, flow]
      by_cases ht : s = t
      · subst ht
        obtain ⟨q, m⟩ := x
        by_cases hq : q = p
        · subst hq
          simp [hqueued, ofSender_cons_self]
        · simp [hqueued, ofSender_cons_ne hq]
      · simp [ht]

/-- **Nothing is made up, doubled or overtaken**: what has come of the messages is what has been
published, less what has been lost. -/
theorem flow_sublist {ok : Channel π ς μ → Action π ς μ → Prop} (hr : system.Reachable ok c) (p : π)
    (s : ς) : (c.flow p s).Sublist (c.published p) := by
  refine hr.invariant (P := fun c => (c.flow p s).Sublist (c.published p)) (List.Sublist.refl _) ?_
  intro c a c' hsub _ hstep
  obtain ⟨new, hpublished, hflow⟩ | ⟨-, hpublished, hflow⟩ := flow_step hstep p s
  · rw [hpublished, hflow]
    exact hsub.append_right new
  · rw [hpublished]
    exact hflow.trans hsub

/-- **Nothing is lost**, either, if no message is. -/
theorem flow_eq {ok : Channel π ς μ → Action π ς μ → Prop}
    (hok : ∀ c a, ok c a → a.loses = false) (hr : system.Reachable ok c) (p : π) (s : ς) :
    c.flow p s = c.published p := by
  refine hr.invariant (P := fun c => c.flow p s = c.published p) rfl ?_
  intro c a c' heq hkept hstep
  obtain ⟨new, hpublished, hflow⟩ | ⟨hloses, -, -⟩ := flow_step hstep p s
  · rw [hpublished, hflow, heq]
  · rw [hok c a hkept] at hloses
    cases hloses

/-- What is queued has been published. -/
theorem mem_published_of_queued {ok : Channel π ς μ → Action π ς μ → Prop}
    (hr : system.Reachable ok c) {m : μ} (hmem : (p, m) ∈ c.queued s) : m ∈ c.published p := by
  refine (flow_sublist hr p s).subset (List.mem_append_left _ (List.mem_append_right _ ?_))
  exact List.mem_map.mpr ⟨(p, m), List.mem_filter.mpr ⟨hmem, by simp⟩, rfl⟩

end Flow

end Channel

end Transition
