import RmwEcal.Transition.System

/-!
# Queues that are looked at before they are taken from

A `Mailbox` is anything that has a queue in it: some of what happens to it puts messages on the
queue, and `pop` takes the first one off.  With a `Ledger` of what has arrived and what has been
handed out, the books balance at all times, whatever happens (`ledger_balanced`).

A `Taker` is a thread that looks whether there is a message and then takes it.  Each of the two is
atomic, but they are not so together, and nobody keeps a message back for a taker that has seen it.
`takers_safe` says that none ever comes to take from an empty queue if the last message is only
taken while no other taker has seen it; and where it is taken all the same, the other taker has
nothing left to take (`underflow_of_contested`).
-/

set_option autoImplicit false

namespace Transition

variable {σ β μ : Type}

/-- Something with a queue in it. -/
structure Mailbox (σ β μ : Type) where
  /-- The state at the beginning. -/
  init : σ
  /-- What happens to it, apart from messages being taken. -/
  step : σ → β → Option σ
  /-- The queue, first message first. -/
  queue : σ → List μ
  /-- Whether there is a message. -/
  has : σ → Bool
  /-- The first message is taken. -/
  pop : σ → Option (σ × μ)
  /-- It is empty at the beginning. -/
  queue_init : queue init = []
  /-- Messages come in at the end. -/
  queue_step : ∀ {s s' : σ} {b : β}, step s b = some s' → queue s <+: queue s'
  /-- The look at the queue tells whether it is empty. -/
  has_eq : ∀ s : σ, has s = !(queue s).isEmpty
  /-- It is the first one that is taken. -/
  queue_pop : ∀ {s s' : σ} {m : μ}, pop s = some (s', m) → queue s = m :: queue s'
  /-- It can be taken if there is one. -/
  isSome_pop : ∀ {s : σ}, queue s ≠ [] → (pop s).isSome

namespace Mailbox

/-! ## The books -/

/-- A mailbox in use, with what has arrived and what has been handed out. -/
structure Ledger (σ μ : Type) where
  /-- The mailbox. -/
  inner : σ
  /-- All messages that were put on the queue. -/
  arrived : List μ
  /-- All messages that were taken off it. -/
  handed : List μ
  deriving DecidableEq, Repr

/-- What can happen. -/
inductive Action (β : Type) where
  /-- Something that is not a take. -/
  | work (b : β)
  /-- A message is taken. -/
  | take
  deriving DecidableEq, Repr

variable (M : Mailbox σ β μ)

/-- The books of an empty mailbox. -/
def opening : Ledger σ μ := ⟨M.init, [], []⟩

/-- Something that is not a take: the messages at the end are new. -/
def work (s : Ledger σ μ) (b : β) : Option (Ledger σ μ) := do
  let inner ← M.step s.inner b
  some { s with
    inner := inner
    arrived := s.arrived ++ (M.queue inner).drop (M.queue s.inner).length }

/-- A message is taken. -/
def take (s : Ledger σ μ) : Option (Ledger σ μ) := do
  let (inner, m) ← M.pop s.inner
  some { s with inner := inner, handed := s.handed ++ [m] }

/-- A mailbox from which one message after the other is taken. -/
def ledger : System (Ledger σ μ) (Action β) where
  init := M.opening
  step s
    | .work b => M.work s b
    | .take => M.take s

/-- **What has arrived is what has been handed out, and behind it what is on the queue.** -/
def Balanced (s : Ledger σ μ) : Prop := s.arrived = s.handed ++ M.queue s.inner

variable {M}

theorem balanced_opening : M.Balanced M.opening := by
  rw [Balanced, opening, M.queue_init, List.append_nil]

theorem Balanced.work {s s' : Ledger σ μ} (h : M.Balanced s) {b : β} (hstep : M.work s b = some s') :
    M.Balanced s' := by
  obtain ⟨inner, hinner, hs'⟩ := Option.bind_eq_some_iff.mp hstep
  cases hs'
  obtain ⟨new, hnew⟩ := M.queue_step hinner
  rw [Balanced, ← hnew, List.drop_left, h, List.append_assoc]

theorem take_cases {s s' : Ledger σ μ} (hstep : M.take s = some s') : ∃ inner m,
    M.pop s.inner = some (inner, m) ∧ M.queue s.inner = m :: M.queue inner ∧
      s' = { s with inner := inner, handed := s.handed ++ [m] } := by
  obtain ⟨⟨inner, m⟩, hpop, hs'⟩ := Option.bind_eq_some_iff.mp hstep
  cases hs'
  exact ⟨inner, m, hpop, M.queue_pop hpop, rfl⟩

theorem Balanced.take {s s' : Ledger σ μ} (h : M.Balanced s) (hstep : M.take s = some s') :
    M.Balanced s' := by
  obtain ⟨inner, m, -, hqueue, rfl⟩ := take_cases hstep
  rw [Balanced, h, hqueue, List.append_assoc, List.singleton_append]

theorem isSome_take {s : Ledger σ μ} (h : M.queue s.inner ≠ []) : (M.take s).isSome := by
  obtain ⟨⟨inner, m⟩, hpop⟩ := Option.isSome_iff_exists.mp (M.isSome_pop h)
  rw [Mailbox.take, hpop]
  rfl

/-- **The books balance**, whatever is done in whatever order. -/
theorem ledger_balanced {s : Ledger σ μ} (h : M.ledger.Reachable System.any s) : M.Balanced s := by
  refine h.invariant (P := M.Balanced) balanced_opening ?_
  rintro s (b | _) s' hbal - hstep
  · exact hbal.work hstep
  · exact hbal.take hstep

/-! ## Takers -/

/-- How many messages a taker is after. -/
inductive Take where
  /-- One. -/
  | once
  /-- One after the other, until there is none or it has this many. -/
  | upTo (count : ℕ)
  deriving DecidableEq, Repr

/-- The next thing a taker does. -/
inductive Taker where
  /-- It looks whether there is a message. -/
  | check (take : Take)
  /-- It has seen one and takes it. -/
  | pop (take : Take)
  deriving DecidableEq, Repr

/-- It has seen a message and not taken it. -/
def Taker.popping : Taker → Bool
  | check _ => false
  | pop _ => true

/-- What is left to do after the look, given whether there was a message. -/
def Take.afterCheck : Take → (found : Bool) → Option Taker
  | _, false => none
  | once, true => some (.pop .once)
  -- the count is compared after the look
  | upTo 0, true => none
  | upTo (n + 1), true => some (.pop (.upTo n))

/-- What is left to do with a message in hand. -/
def Take.afterPop : Take → Option Taker
  | once => none
  | upTo n => some (.check (.upTo n))

/-- The takers after one of them has moved on or ended. -/
def move (takers : List Taker) (i : ℕ) : Option Taker → List Taker
  | some taker => takers.set i taker
  | none => takers.eraseIdx i

/-- A mailbox and its takers. -/
structure State (σ μ : Type) extends Ledger σ μ where
  /-- The takers that are not done. -/
  takers : List Taker
  /-- One of them has come to take from an empty queue. -/
  underflow : Bool
  deriving DecidableEq, Repr

/-- The steps: of whoever uses the mailbox otherwise, and of the takers. -/
inductive Step (β : Type) where
  /-- Something that is not a take. -/
  | work (b : β)
  /-- A thread sets out to take. -/
  | call (take : Take)
  /-- A taker does its next thing. -/
  | taker (i : ℕ)
  deriving DecidableEq, Repr

variable (M)

/-- A taker does its next thing. -/
def stepTaker (s : State σ μ) (i : ℕ) : Option (State σ μ) := do
  let taker ← s.takers[i]?
  match taker with
  | .check take =>
    some { s with takers := move s.takers i (take.afterCheck (M.has s.inner)) }
  | .pop take =>
    match M.take s.toLedger with
    | some ledger => some { s with toLedger := ledger, takers := move s.takers i take.afterPop }
    | none => some { s with underflow := true }

/-- Any number of takers at one mailbox.  After an underflow nothing is defined. -/
def takers : System (State σ μ) (Step β) where
  init := { M.opening with takers := [], underflow := false }
  step s a :=
    if s.underflow then none
    else match a with
      | .work b => (M.work s.toLedger b).map fun ledger => { s with toLedger := ledger }
      | .call take => some { s with takers := s.takers ++ [.check take] }
      | .taker i => M.stepTaker s i

/-- A taker takes the last message only while no other taker has seen it. -/
def Uncontested (s : State σ μ) : Step β → Prop
  | .taker i => (s.takers[i]?).any Taker.popping = true → (M.queue s.inner).length = 1 →
      s.takers.countP Taker.popping = 1
  | .work _ | .call _ => True

instance (s : State σ μ) : (a : Step β) → Decidable (M.Uncontested s a)
  | .taker i => inferInstanceAs (Decidable ((s.takers[i]?).any Taker.popping = true →
      (M.queue s.inner).length = 1 → s.takers.countP Taker.popping = 1))
  | .work _ => isTrue trivial
  | .call _ => isTrue trivial

/-- Nothing was taken from an empty queue, and the books balance. -/
structure Safe (s : State σ μ) : Prop where
  no_underflow : s.underflow = false
  balanced : M.Balanced s.toLedger

/-- What is kept: a taker that has seen a message will find one. -/
structure Inv (s : State σ μ) : Prop extends M.Safe s where
  available : M.queue s.inner = [] → s.takers.countP Taker.popping = 0

variable {M}

@[simp] theorem Take.afterCheck_false (take : Take) : take.afterCheck false = none := by
  rcases take with _ | _ | _ <;> rfl

@[simp] theorem Take.any_afterPop (take : Take) : take.afterPop.any Taker.popping = false := by
  rcases take with _ | _ <;> rfl

/-- A taker that moves on changes the number of takers that have seen a message by its own part in
it. -/
theorem countP_move {takers : List Taker} {i : ℕ} {taker : Taker} (hget : takers[i]? = some taker)
    (next : Option Taker) :
    (move takers i next).countP Taker.popping + taker.popping.toNat =
      takers.countP Taker.popping + (next.any Taker.popping).toNat := by
  obtain ⟨l₁, l₂, rfl, -, hset, herase, -⟩ := exists_split hget
  rcases next with _ | next
  · rw [move, herase]
    simp only [List.countP_append, List.countP_cons, Option.any_none, Bool.toNat_false]
    rcases taker.popping with _ | _
    · simp
    · simp
      omega
  · rw [move, hset]
    simp only [List.countP_append, List.countP_cons, Option.any_some]
    rcases taker.popping with _ | _ <;> rcases next.popping with _ | _ <;> simp <;> omega

section Step

variable {s s' : State σ μ} {i : ℕ}

theorem takers_step (h : s.underflow = false) (a : Step β) : M.takers.step s a = match a with
    | .work b => (M.work s.toLedger b).map fun ledger => { s with toLedger := ledger }
    | .call take => some { s with takers := s.takers ++ [.check take] }
    | .taker i => M.stepTaker s i :=
  if_neg (by rw [h]; exact Bool.false_ne_true)

/-- The steps of a taker. -/
inductive TakerStep (M : Mailbox σ β μ) (s : State σ μ) (i : ℕ) : State σ μ → Prop
  | check {take : Take} (hget : s.takers[i]? = some (.check take)) : TakerStep M s i { s with
      takers := move s.takers i (take.afterCheck (M.has s.inner)) }
  | pop {take : Take} {inner : σ} {m : μ} (hget : s.takers[i]? = some (.pop take))
      (hqueue : M.queue s.inner = m :: M.queue inner) : TakerStep M s i { s with
      inner := inner
      handed := s.handed ++ [m]
      takers := move s.takers i take.afterPop }
  | underflow {take : Take} (hget : s.takers[i]? = some (.pop take))
      (hqueue : M.queue s.inner = []) : TakerStep M s i { s with underflow := true }

/-- **What a step of a taker is.** -/
theorem stepTaker_cases (h : M.stepTaker s i = some s') : TakerStep M s i s' := by
  obtain ⟨taker, hget, h⟩ := Option.bind_eq_some_iff.mp h
  rcases taker with take | take
  · cases h
    exact .check hget
  · rcases htake : M.take s.toLedger with _ | ledger
    · simp only [htake] at h
      cases h
      refine .underflow hget (by_contra fun hne => ?_)
      have hsome := isSome_take (s := s.toLedger) hne
      rw [htake] at hsome
      cases hsome
    · simp only [htake] at h
      cases h
      obtain ⟨inner, m, -, hqueue, rfl⟩ := take_cases htake
      exact .pop hget hqueue

/-- A taker that has seen a message and finds none. -/
theorem stepTaker_underflow {take : Take} (hget : s.takers[i]? = some (.pop take))
    (hempty : M.queue s.inner = []) : M.stepTaker s i = some { s with underflow := true } := by
  have hpop : M.pop s.inner = none := by
    rcases hpop : M.pop s.inner with _ | ⟨inner, m⟩
    · rfl
    · have hqueue := M.queue_pop hpop
      rw [hempty] at hqueue
      cases hqueue
  simp only [stepTaker, hget, Mailbox.take, hpop, Option.bind_eq_bind, Option.bind_some,
    Option.bind_none]

theorem popping_of_getElem? {taker : Taker} (hget : s.takers[i]? = some taker)
    (hpop : taker.popping = true) : 0 < s.takers.countP Taker.popping :=
  List.countP_pos_iff.mpr ⟨taker, List.mem_of_getElem? hget, hpop⟩

/-- Whatever else happens, messages do not go away. -/
theorem Inv.work (h : M.Inv s) {ledger : Ledger σ μ} {b : β}
    (hstep : M.work s.toLedger b = some ledger) : M.Inv { s with toLedger := ledger } := by
  refine ⟨⟨h.no_underflow, h.balanced.work hstep⟩, fun hempty => h.available ?_⟩
  obtain ⟨inner, hinner, hledger⟩ := Option.bind_eq_some_iff.mp hstep
  cases hledger
  have hprefix := M.queue_step hinner
  rw [show M.queue inner = [] from hempty] at hprefix
  exact List.prefix_nil.mp hprefix

/-- A taker that only takes the last message for itself leaves none of the others without. -/
theorem Inv.taker (h : M.Inv s) (hok : M.Uncontested s (.taker i))
    (hstep : M.stepTaker s i = some s') :
    M.Inv s' := by
  rcases stepTaker_cases hstep with ⟨hget⟩ | ⟨hget, hqueue⟩ | ⟨hget, hqueue⟩
  · rename_i take
    refine ⟨⟨h.no_underflow, h.balanced⟩, fun hempty => ?_⟩
    have hcount := countP_move hget (take.afterCheck (M.has s.inner))
    have hnone := h.available hempty
    have hhas : M.has s.inner = false := by
      rw [M.has_eq, show M.queue s.inner = [] from hempty]
      rfl
    simp only [hhas, Take.afterCheck_false, Option.any_none, Bool.toNat_false] at hcount ⊢
    omega
  · rename_i take inner m
    refine ⟨⟨h.no_underflow, ?_⟩, fun hempty => ?_⟩
    · show s.arrived = (s.handed ++ [m]) ++ M.queue inner
      rw [h.balanced, hqueue, List.append_assoc, List.singleton_append]
    · have hcount := countP_move hget take.afterPop
      have hone := hok (by rw [hget]; rfl) (by
        rw [hqueue, show M.queue inner = [] from hempty]
        rfl)
      rw [Take.any_afterPop, Bool.toNat_false, hone] at hcount
      have hpopping : (Taker.pop take).popping.toNat = 1 := rfl
      show (move s.takers i take.afterPop).countP Taker.popping = 0
      omega
  · have hpos := popping_of_getElem? hget rfl
    have hnone := h.available hqueue
    omega

end Step

/-- **If the last message is only taken while no other taker has seen it, none is ever taken from an
empty queue**, and the messages are handed out once each, in the order they arrived in. -/
theorem takers_safe {s : State σ μ} (h : M.takers.Reachable M.Uncontested s) : M.Safe s := by
  suffices hinv : M.Inv s from hinv.toSafe
  refine h.invariant (P := M.Inv) ⟨⟨rfl, balanced_opening⟩, fun _ => rfl⟩ ?_
  rintro s a s' hinv hok hstep
  rw [takers_step hinv.no_underflow] at hstep
  rcases a with b | take | i
  · obtain ⟨ledger, hwork, rfl⟩ := Option.map_eq_some_iff.mp hstep
    exact hinv.work hwork
  · cases hstep
    refine ⟨⟨hinv.no_underflow, hinv.balanced⟩, fun hempty => ?_⟩
    rw [List.countP_append, hinv.available hempty]
    rfl
  · exact hinv.taker hok hstep

/-- **Where the last message is taken before the eyes of another taker, that one has nothing left to
take**: its next step may be one on an empty queue. -/
theorem underflow_of_contested {s s' : State σ μ} {a : Step β} (hsafe : M.Safe s)
    (hstep : M.takers.step s a = some s') (hcontested : ¬M.Uncontested s a) :
    ∃ j s'', M.takers.step s' (.taker j) = some s'' ∧ s''.underflow = true := by
  rcases a with b | take | i
  · exact absurd trivial hcontested
  · exact absurd trivial hcontested
  rw [takers_step hsafe.no_underflow] at hstep
  simp only [Uncontested, Classical.not_imp] at hcontested
  obtain ⟨hpopping, hlast, hcount⟩ := hcontested
  rcases stepTaker_cases hstep with ⟨hget⟩ | ⟨hget, hqueue⟩ | ⟨hget, hqueue⟩
  · rw [hget] at hpopping
    cases hpopping
  · rename_i take inner m
    have hempty : M.queue inner = [] := by
      rw [hqueue, List.length_cons] at hlast
      exact List.length_eq_zero_iff.mp (by omega)
    have hmove := countP_move hget take.afterPop
    have hpos := popping_of_getElem? hget rfl
    rw [Take.any_afterPop, Bool.toNat_false] at hmove
    have hone : (Taker.pop take).popping.toNat = 1 := rfl
    have hother : 0 < (move s.takers i take.afterPop).countP Taker.popping := by omega
    obtain ⟨taker, hmem, htaker⟩ := List.countP_pos_iff.mp hother
    obtain ⟨j, hj⟩ := List.mem_iff_getElem?.mp hmem
    rcases taker with take' | take'
    · cases htaker
    have hnext := stepTaker_underflow (s := { s with
      inner := inner, handed := s.handed ++ [m], takers := move s.takers i take.afterPop }) hj hempty
    refine ⟨j, _, (takers_step ?_ _).trans hnext, rfl⟩
    exact hsafe.no_underflow
  · rw [hqueue] at hlast
    cases hlast

end Mailbox

end Transition
