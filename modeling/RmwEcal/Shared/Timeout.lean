import RmwEcal.Shared.Wakeup

/-!
# Time-outs and what is reported with them

`rmw_wait` returns `RMW_RET_TIMEOUT` if `Wait` said that time was up, and does not look at the
entities again before it detaches its wait set.  Whether their entries are left in the arrays is
settled one by one afterwards.  In between there is time for something to become ready, which is
then reported by a call that has timed out; a guard condition is even reset.

`return_code_agrees` says when the return code agrees with what is reported: if nothing becomes
ready in that time, which is the only way for a call that has timed out (`disagrees_of_disturbed`).
A call that has not agrees as well, but for a `triggered_count_` that comes round to zero.
-/

set_option autoImplicit false

namespace RmwEcal

open Transition

namespace WaitSet

/-! ## What is reported -/

namespace Phase

/-- Whether time was up, once the thread has left the loop. -/
def timedOut : Phase → Option Bool
  | .unlockCondition timedOut | .detach timedOut _ | .report timedOut _ _ => some timedOut
  | _ => none

/-- What the thread is going to report once it has left the loop. -/
def toReport (entities : List Entity) : Phase → List Entity
  | .unlockCondition _ => entities
  | .detach _ todo => todo
  | .report _ entity todo => entity :: todo
  | _ => []

end Phase

/-- What an entry says about the arrays of a call. -/
def Entry.report? (wait : ℕ) : Entry → Option (Entity × Bool)
  | .reported wait' entity left => if wait' = wait then some (entity, left) else none
  | _ => none

/-- What became of the arrays of a call: for each entity whether the pointer to it was left. -/
def reports (log : List Entry) (wait : ℕ) : List (Entity × Bool) :=
  log.filterMap (Entry.report? wait)

/-- Whether a thread is about to put something on a queue, or to trigger. -/
def Stage.makesReady : Stage → Bool
  | .enqueue | .triggerAttached | .triggerDetached => true
  | _ => false

namespace State

/-- What the thread that has left the loop is going to report. -/
def toReport (s : State) : List Entity := s.phase.toReport s.entities

/-- An entry has been left. -/
def HasLeft (s : State) : Prop := ∃ report ∈ reports s.log s.wait, report.2 = true

/-- An entry has been left, or will be if everything stays as it is. -/
def Found (s : State) : Prop := (∃ e ∈ s.toReport, s.ready e = true) ∨ s.HasLeft

instance (s : State) : Decidable s.HasLeft :=
  inferInstanceAs (Decidable (∃ report ∈ reports s.log s.wait, report.2 = true))

/-- Whether `triggered_count_` of an event is going to come round to zero. -/
def comesRound (s : State) : Entity → Bool
  | .event i => s.triggeredCount i = 255
  | _ => false

/-- Nobody else takes what the thread is going to report. -/
def SoleConsumer (s : State) : Action → Prop
  | .take entity => entity ∉ s.toReport
  | _ => True

/-- The steps that do not make the return code wrong.  Time is not up when something is ready.
After it was, nothing becomes ready that is still to be reported; and if it was not, a
`triggered_count_` does not come round to zero when there is nothing else to report. -/
def Undisturbed (s : State) : Action → Prop
  | .comeBack true => ∀ e ∈ s.entities, s.ready e = false
  | .producer i => ∀ p ∈ s.producers[i]?, p.stage.makesReady = true → p.entity ∈ s.toReport →
      s.phase.timedOut = some false ∧ (s.comesRound p.entity = true →
        (∃ e ∈ s.toReport, e ≠ p.entity ∧ s.ready e = true) ∨ s.HasLeft)
  | _ => True

instance (s : State) : (a : Action) → Decidable (s.SoleConsumer a)
  | .take entity => inferInstanceAs (Decidable (entity ∉ s.toReport))
  | .produce _ | .producer _ | .takeTriggered _ | .rmwWait .. | .wait | .wake | .comeBack _ =>
    isTrue trivial

instance (s : State) : (a : Action) → Decidable (s.Undisturbed a)
  | .comeBack true => inferInstanceAs (Decidable (∀ e ∈ s.entities, s.ready e = false))
  | .producer i => inferInstanceAs (Decidable (∀ p ∈ s.producers[i]?, p.stage.makesReady = true →
      p.entity ∈ s.toReport → s.phase.timedOut = some false ∧ (s.comesRound p.entity = true →
        (∃ e ∈ s.toReport, e ≠ p.entity ∧ s.ready e = true) ∨ s.HasLeft)))
  | .produce _ | .take _ | .takeTriggered _ | .rmwWait .. | .wait | .wake | .comeBack false =>
    isTrue trivial

/-- The return codes agree with what is reported. -/
structure Agrees (s : State) : Prop where
  /-- When a call is going to return, it has reported all it was called with. -/
  complete : ∀ timedOut, s.phase = .detach timedOut [] →
    (reports s.log s.wait).map Prod.fst = s.entities
  /-- A call has returned `RMW_RET_TIMEOUT` if and only if all entries are null. -/
  timedOut : ∀ wait timedOut, .returned wait timedOut ∈ s.log →
    (timedOut = true ↔ ∀ report ∈ reports s.log wait, report.2 = false)

end State

/-! ## Producers -/

/-- What is triggered is ready, unless it comes round to zero. -/
theorem ready_trigger_self (s : State) (ticket : ℕ) {entity : Entity}
    (hentity : entity.firstStage = .lockInternal) :
    (s.trigger ticket entity).ready entity = true ∨ s.comesRound entity = true := by
  cases entity with
  | guardCondition i => exact .inl (by simp [State.trigger, State.ready])
  | event i =>
    by_cases hcount : s.triggeredCount i = 255
    · exact .inr (decide_eq_true hcount)
    · refine .inl ?_
      simp only [State.trigger, State.ready, Function.update_self, decide_eq_true_eq]
      rw [UInt8.lt_iff_toNat_lt, UInt8.toNat_add]
      have hne : (s.triggeredCount i).toNat ≠ 255 := fun h => hcount (UInt8.toNat_inj.mp h)
      have hlt := (s.triggeredCount i).toNat_lt
      show 0 < ((s.triggeredCount i).toNat + 1) % 256
      omega
  | subscriber i | service i | client i => cases hentity

/-- What becomes ready when an entity is triggered. -/
theorem ready_trigger_cases (s : State) (ticket : ℕ) (entity e : Entity) :
    (s.trigger ticket entity).ready e = s.ready e ∨ e = entity ∧
      ((s.trigger ticket entity).ready e = true ∨ s.comesRound e = true) := by
  by_cases he : e = entity
  · subst he
    cases e with
    | guardCondition i => exact .inr ⟨rfl, ready_trigger_self s ticket rfl⟩
    | event i => exact .inr ⟨rfl, ready_trigger_self s ticket rfl⟩
    | subscriber i | service i | client i => exact .inl rfl
  · exact .inl (ready_trigger_of_ne he)

section Producers

variable {s s' : State} {l₁ l₂ : List Producer} {entity : Entity} {ticket : ℕ} {stage : Stage}

/-- **What a producer makes ready.**  Nothing ceases to be ready, unless it comes round to zero. -/
theorem ProducerStep.ready (hstep : ProducerStep s l₁ l₂ entity ticket stage s') (e : Entity) :
    s'.ready e = s.ready e ∨ e = entity ∧ stage.makesReady = true ∧
      (s'.ready e = true ∨ s.comesRound e = true) := by
  cases hstep with
  | enqueue =>
    by_cases he : e = entity
    · subst he
      cases e with
      | guardCondition i => exact .inl rfl
      | event i => exact .inl rfl
      | _ => exact .inr ⟨rfl, rfl, .inl (by simp [State.ready])⟩
    · exact .inl (ready_enqueue he)
  | triggerAttached | triggerDetached =>
    exact (ready_trigger_cases { s with producers := _ } ticket entity e).imp id fun h =>
      ⟨h.1, rfl, h.2⟩
  | notifyLocked | notify => exact .inl (by cases e <;> rfl)
  | unlockInternal =>
    obtain ⟨entries, heq, -⟩ := complete_eq { s with
      producers := l₁ ++ l₂
      internalMutex := Function.update s.internalMutex entity false } ticket entity
    rw [heq]
    exact .inl (by cases e <;> rfl)
  | _ => exact .inl (by cases e <;> rfl)

/-- A producer does not concern itself with what the thread is going to report. -/
theorem ProducerStep.sameCall (hstep : ProducerStep s l₁ l₂ entity ticket stage s') :
    s'.phase.timedOut = s.phase.timedOut ∧ s'.toReport = s.toReport := by
  obtain ⟨-, hentities, hphase⟩ := hstep.frame
  rcases hphase with heq | ⟨hblocked, hwoken⟩
  · rw [State.toReport, State.toReport, heq, hentities]
    exact ⟨rfl, rfl⟩
  · rw [State.toReport, State.toReport, hblocked, hwoken]
    exact ⟨rfl, rfl⟩

/-- Something is still there to be reported, unless it was all there was and comes round to zero. -/
theorem ProducerStep.found (hstep : ProducerStep s l₁ l₂ entity ticket stage s')
    (hround : stage.makesReady = true → entity ∈ s.toReport → s.comesRound entity = true →
      (∃ e ∈ s.toReport, e ≠ entity ∧ s.ready e = true) ∨ s.HasLeft) (h : s.Found) :
    (∃ e ∈ s.toReport, s'.ready e = true) ∨ s.HasLeft := by
  rcases h with ⟨e, hmem, hr⟩ | hhas
  · rcases hstep.ready e with heq | ⟨rfl, hmakes, hr' | hcount⟩
    · exact .inl ⟨e, hmem, heq.trans hr⟩
    · exact .inl ⟨e, hmem, hr'⟩
    · rcases hround hmakes hmem hcount with ⟨e, hmem, hne, hr⟩ | hhas
      · have heq := (hstep.ready e).resolve_right fun hcase => hne hcase.1
        exact .inl ⟨e, hmem, heq.trans hr⟩
      · exact .inr hhas
  · exact .inr hhas

/-- An entry that says nothing about a call of `rmw_wait`. -/
def Entry.IsNote : Entry → Prop
  | .triggered _ _ | .completed _ _ => True
  | .reported _ _ _ | .returned _ _ => False

/-- What a producer puts down is not about a call of `rmw_wait`. -/
theorem ProducerStep.log (hstep : ProducerStep s l₁ l₂ entity ticket stage s') :
    s'.wait = s.wait ∧ ∃ notes, s'.log = s.log ++ notes ∧ ∀ note ∈ notes, note.IsNote := by
  cases hstep with
  | triggerAttached | triggerDetached =>
    cases entity with
    | guardCondition i =>
      refine ⟨rfl, [.triggered i ticket], rfl, ?_⟩
      exact List.forall_mem_singleton.mpr trivial
    | _ => exact ⟨rfl, [], (List.append_nil _).symm, fun _ hmem => by cases hmem⟩
  | unlockInternal =>
    obtain ⟨entries, heq, hentries⟩ := complete_eq { s with
      producers := l₁ ++ l₂
      internalMutex := Function.update s.internalMutex entity false } ticket entity
    rw [heq]
    refine ⟨rfl, entries, rfl, fun entry hmem => ?_⟩
    obtain ⟨i, -, rfl⟩ := hentries entry hmem
    trivial
  | _ => exact ⟨rfl, [], (List.append_nil _).symm, fun _ hmem => by cases hmem⟩

end Producers

/-! ## What is put down of a call -/

theorem reports_append (log entries : List Entry) (wait : ℕ) :
    reports (log ++ entries) wait = reports log wait ++ reports entries wait :=
  List.filterMap_append

theorem reports_notes {notes : List Entry} (hnotes : ∀ note ∈ notes, note.IsNote) (wait : ℕ) :
    reports notes wait = [] := by
  refine List.filterMap_eq_nil_iff.mpr fun note hmem => ?_
  have hnote := hnotes note hmem
  cases note with
  | triggered i ticket => rfl
  | completed i ticket => rfl
  | reported wait entity left => exact hnote.elim
  | returned wait timedOut => exact hnote.elim

/-- What has been put down is in order, and a call that has left the loop is going to return the
right code. -/
structure Settled (s : State) : Prop where
  /-- What has been reported and what is going to be is what the call is about. -/
  complete : (reports s.log s.wait).map Prod.fst ++ s.toReport =
    if s.phase.timedOut.isSome then s.entities else []
  /-- Nothing is known of calls to come. -/
  later : ∀ wait, s.wait < wait → reports s.log wait = []
  /-- Those that have returned were earlier. -/
  earlier : ∀ wait timedOut, .returned wait timedOut ∈ s.log → wait < s.wait
  /-- Time was up if and only if there is nothing to report. -/
  verdict : ∀ timedOut, s.phase.timedOut = some timedOut → (timedOut = true ↔ ¬s.Found)
  /-- It was so for those that have returned. -/
  agrees : ∀ wait timedOut, .returned wait timedOut ∈ s.log →
    (timedOut = true ↔ ∀ report ∈ reports s.log wait, report.2 = false)

/-- To report an entity that is not ready changes nothing. -/
theorem ready_report (s : State) (entity : Entity) : ∃ triggered,
    s.report entity = { s with
      triggered := triggered
      log := s.log ++ [.reported s.wait entity (s.ready entity)] } ∧
    (s.ready entity = true ∨ s.ready entity = false ∧ triggered = s.triggered) := by
  obtain ⟨triggered, heq, htriggered⟩ := report_eq s entity
  refine ⟨triggered, heq, ?_⟩
  cases hready : s.ready entity with
  | true => exact .inl rfl
  | false =>
    refine .inr ⟨rfl, funext fun i => ?_⟩
    rcases htriggered i with hsame | ⟨rfl, hreset⟩
    · exact hsame
    · exact hreset.trans hready.symm

theorem reports_reported (log : List Entry) (wait wait' : ℕ) (entity : Entity) (left : Bool) :
    reports (log ++ [.reported wait entity left]) wait' =
      reports log wait' ++ if wait = wait' then [(entity, left)] else [] := by
  rw [reports_append]
  by_cases hwait : wait = wait'
  · simp [reports, Entry.report?, hwait]
  · simp [reports, Entry.report?, hwait]

theorem reports_returned (log : List Entry) (wait wait' : ℕ) (timedOut : Bool) :
    reports (log ++ [.returned wait timedOut]) wait' = reports log wait' := by
  rw [reports_append]
  exact List.append_nil _

/-- What was going to be reported is reported. -/
theorem found_report {s : State} {timedOut : Bool} {todo : List Entity} {entity : Entity}
    (hphase : s.phase = .report timedOut entity todo) :
    State.Found { s.report entity with phase := .detach timedOut todo } ↔ s.Found := by
  obtain ⟨triggered, heq, hready⟩ := ready_report s entity
  rw [heq]
  show (∃ e ∈ todo, State.ready { s with triggered := triggered } e = true) ∨
    (∃ report ∈ reports (s.log ++ _) s.wait, report.2 = true) ↔ s.Found
  rw [reports_reported, if_pos rfl, State.Found, State.toReport, hphase]
  rcases hready with hready | ⟨hfalse, rfl⟩
  · exact iff_of_true (.inr ⟨_, List.mem_append_right _ List.mem_cons_self, hready⟩)
      (.inl ⟨entity, List.mem_cons_self, hready⟩)
  · show (∃ e ∈ todo, s.ready e = true) ∨ _ ↔ _
    simp [Phase.toReport, State.HasLeft, hfalse]

namespace Settled

variable {s s' : State}

/-- Nothing happens that concerns the call. -/
theorem congr (h : Settled s) (hphase : s'.phase.timedOut = s.phase.timedOut)
    (htodo : s'.toReport = s.toReport)
    (hentities : s.phase.timedOut.isSome → s'.entities = s.entities) (hwait : s'.wait = s.wait)
    (hlog : ∃ notes, s'.log = s.log ++ notes ∧ ∀ note ∈ notes, note.IsNote)
    (hready : s.phase.timedOut.isSome →
      ((∃ e ∈ s.toReport, s'.ready e = true) ∨ s.HasLeft ↔ s.Found)) : Settled s' := by
  obtain ⟨notes, hlog, hnotes⟩ := hlog
  have hreports : ∀ wait, reports s'.log wait = reports s.log wait := fun wait => by
    rw [hlog, reports_append, reports_notes hnotes, List.append_nil]
  have hreturned : ∀ wait timedOut, .returned wait timedOut ∈ s'.log →
      .returned wait timedOut ∈ s.log := fun wait timedOut hmem => by
    rw [hlog, List.mem_append] at hmem
    exact hmem.resolve_right fun hnew => hnotes _ hnew
  refine ⟨?_, fun wait hlt => ?_, fun wait timedOut hmem => ?_, fun timedOut ht => ?_,
    fun wait timedOut hmem => ?_⟩
  · rw [hreports, hwait, htodo, hphase, h.complete]
    split
    · exact (hentities ‹_›).symm
    · rfl
  · rw [hreports]
    exact h.later wait (hwait ▸ hlt)
  · rw [hwait]
    exact h.earlier wait timedOut (hreturned wait timedOut hmem)
  · rw [hphase] at ht
    rw [h.verdict timedOut ht, ← hready (by rw [ht]; rfl), State.Found, State.HasLeft,
      State.HasLeft, hreports, hwait, htodo]
  · rw [hreports]
    exact h.agrees wait timedOut (hreturned wait timedOut hmem)

/-- Nothing happens that concerns the call, and nothing is put down. -/
theorem congr_of_log (h : Settled s) (hphase : s'.phase.timedOut = s.phase.timedOut)
    (htodo : s'.toReport = s.toReport)
    (hentities : s.phase.timedOut.isSome → s'.entities = s.entities) (hwait : s'.wait = s.wait)
    (hlog : s'.log = s.log) (hready : ∀ e ∈ s.toReport, s'.ready e = s.ready e) : Settled s' := by
  refine h.congr hphase htodo hentities hwait ⟨[], ?_, fun _ hmem => by cases hmem⟩ fun _ => ?_
  · rw [hlog, List.append_nil]
  · refine or_congr_left (exists_congr fun e => and_congr_right fun hmem => ?_)
    rw [hready e hmem]

/-- A producer disturbs nothing: what it makes ready was not the only thing to report. -/
theorem producer (h : Settled s) {i : ℕ} {l₁ l₂ : List Producer} {entity : Entity} {ticket : ℕ}
    {stage : Stage} (hok : s.Undisturbed (.producer i))
    (hget : s.producers[i]? = some ⟨entity, ticket, stage⟩)
    (hstep : ProducerStep s l₁ l₂ entity ticket stage s') : Settled s' := by
  obtain ⟨hwait, hlog⟩ := hstep.log
  refine h.congr hstep.sameCall.1 hstep.sameCall.2 (fun _ => hstep.frame.2.1) hwait hlog
    fun hleft => ?_
  by_cases hnews : entity ∈ s.toReport ∧ stage.makesReady = true
  · obtain ⟨hfalse, hround⟩ := hok _ hget hnews.2 hnews.1
    have hfound : s.Found := by
      by_contra hnone
      exact absurd ((h.verdict false hfalse).mpr hnone) Bool.false_ne_true
    exact iff_of_true (hstep.found (fun _ _ => hround) hfound) hfound
  · refine or_congr_left (exists_congr fun e => and_congr_right fun hmem => ?_)
    rw [(hstep.ready e).resolve_right fun hcase => hnews ⟨hcase.1 ▸ hmem, hcase.2.1⟩]

/-- What is taken is not what is going to be reported. -/
theorem take (h : Settled s) {entity : Entity} (hok : s.SoleConsumer (.take entity)) :
    Settled { s with queued := Function.update s.queued entity (s.queued entity - 1) } := by
  refine h.congr_of_log rfl rfl (fun _ => rfl) rfl rfl fun e hmem => ready_enqueue ?_
  rintro rfl
  exact hok hmem

/-- Before the loop is left, nothing has been reported. -/
theorem reports_eq_nil (h : Settled s) (hphase : s.phase.timedOut = none) :
    reports s.log s.wait = [] := by
  have hcomplete := h.complete
  rw [hphase, Option.isSome_none, if_neg Bool.false_ne_true] at hcomplete
  exact List.map_eq_nil_iff.mp (List.append_eq_nil_iff.mp hcomplete).1

/-- The loop is left. -/
theorem leave (h : Settled s) (hphase : s.phase.timedOut = none) {timedOut : Bool}
    (hverdict : timedOut = true ↔ ¬∃ e ∈ s.entities, s.ready e = true) {mutex : Bool} :
    Settled { s with conditionMutex := mutex, phase := .unlockCondition timedOut } := by
  have hnil := h.reports_eq_nil hphase
  refine ⟨?_, h.later, h.earlier, fun timedOut' ht => ?_, h.agrees⟩
  · show (reports s.log s.wait).map Prod.fst ++ s.entities = s.entities
    rw [hnil]
    rfl
  · cases ht
    rw [hverdict, not_iff_not]
    refine (or_iff_left ?_).symm
    rintro ⟨report, hmem, -⟩
    have hmem : report ∈ reports s.log s.wait := hmem
    rw [hnil] at hmem
    cases hmem

/-- An entity is reported. -/
theorem report (h : Settled s) {timedOut : Bool} {todo : List Entity} {entity : Entity}
    (hphase : s.phase = .report timedOut entity todo) :
    Settled { s.report entity with phase := .detach timedOut todo } := by
  have hfound := found_report hphase
  obtain ⟨triggered, heq, -⟩ := ready_report s entity
  rw [heq] at hfound ⊢
  have hreturned : ∀ wait timedOut, .returned wait timedOut ∈
      s.log ++ [.reported s.wait entity (s.ready entity)] → .returned wait timedOut ∈ s.log := by
    intro wait timedOut hmem
    rcases List.mem_append.mp hmem with hmem | hmem
    · exact hmem
    · cases List.mem_singleton.mp hmem
  refine ⟨?_, fun wait hlt => ?_, fun wait t hmem => h.earlier wait t (hreturned wait t hmem),
    fun t ht => ?_, fun wait t hmem => ?_⟩
  · have hcomplete := h.complete
    rw [State.toReport, hphase] at hcomplete
    show (reports (s.log ++ _) s.wait).map Prod.fst ++ todo = s.entities
    rw [reports_reported, if_pos rfl, List.map_append, List.append_assoc]
    exact hcomplete
  · show reports (s.log ++ _) wait = []
    rw [reports_reported, h.later wait hlt, if_neg (Nat.ne_of_lt hlt)]
    rfl
  · cases ht
    rw [h.verdict timedOut (by rw [hphase]; rfl), hfound]
  · show t = true ↔ ∀ report ∈ reports (s.log ++ _) wait, report.2 = false
    have hmem := hreturned wait t hmem
    rw [reports_reported, if_neg (Nat.ne_of_gt (h.earlier wait t hmem)), List.append_nil]
    exact h.agrees wait t hmem

/-- The call returns. -/
theorem finish (h : Settled s) {timedOut : Bool} (hphase : s.phase = .detach timedOut []) :
    Settled { s with
      phase := .idle
      wait := s.wait + 1
      log := s.log ++ [.returned s.wait timedOut] } := by
  refine ⟨?_, fun wait hlt => ?_, fun wait t hmem => ?_, fun _ ht => (by cases ht),
    fun wait t hmem => ?_⟩
  · show (reports (s.log ++ _) (s.wait + 1)).map Prod.fst ++ [] = []
    rw [reports_returned, h.later _ (Nat.lt_succ_self _)]
    rfl
  · show reports (s.log ++ _) wait = []
    rw [reports_returned]
    exact h.later wait (Nat.lt_of_succ_lt hlt)
  · show wait < s.wait + 1
    rcases List.mem_append.mp hmem with hmem | hmem
    · exact Nat.lt_succ_of_lt (h.earlier wait t hmem)
    · cases List.mem_singleton.mp hmem
      exact Nat.lt_succ_self _
  · show t = true ↔ ∀ report ∈ reports (s.log ++ _) wait, report.2 = false
    rw [reports_returned]
    rcases List.mem_append.mp hmem with hmem | hmem
    · exact h.agrees wait t hmem
    · cases List.mem_singleton.mp hmem
      rw [h.verdict timedOut (by rw [hphase]; rfl), State.Found, State.toReport, hphase]
      simp [Phase.toReport, State.HasLeft]

theorem wait (h : Settled s) (hattaching : Attaching s) (hstep : s.stepWait = some s') :
    Settled s' := by
  have hto := hattaching.attachedTo
  have hcases := stepWait_cases hstep
  generalize hphase : s.phase = phase at hto hcases
  cases hcases with
  | takeTriggered | attached | attach | lockCondition | block | next =>
    refine h.congr_of_log ?_ ?_ (fun _ => rfl) rfl rfl fun e hmem => ?_
    · rw [hphase]; rfl
    · rw [State.toReport, State.toReport, hphase]; rfl
    · rw [State.toReport, hphase] at hmem
      cases hmem
  | unlockCondition | detach =>
    refine h.congr_of_log ?_ ?_ (fun _ => rfl) rfl rfl fun e _ => rfl
    · rw [hphase]; rfl
    · rw [State.toReport, State.toReport, hphase]; rfl
  | @found done todo entity hready =>
    refine h.leave (by rw [hphase]; rfl) (iff_of_false Bool.false_ne_true (not_not.mpr ?_))
    exact ⟨entity, by rw [hto.1]; simp, hready⟩
  | finish => exact h.finish hphase
  | report => exact h.report hphase

theorem step (h : Settled s) (hattaching : Attaching s) {a : Action} (hsole : s.SoleConsumer a)
    (hok : s.Undisturbed a) (hstep : s.step a = some s') : Settled s' := by
  cases step_cases hstep with
  | produce => exact h.congr_of_log rfl rfl (fun _ => rfl) rfl rfl fun _ _ => rfl
  | producer _ hget hstep => exact h.producer hok hget hstep
  | take => exact h.take hsole
  | notTriggered => exact h
  | rmwWait hphase =>
    refine h.congr_of_log ?_ ?_ (fun hleft => ?_) rfl rfl fun _ _ => rfl
    · rw [hphase]; rfl
    · rw [State.toReport, State.toReport, hphase]; rfl
    · rw [hphase] at hleft
      cases hleft
  | wait hstep => exact h.wait hattaching hstep
  | takeTriggered hphase | wake hphase | comeBack hphase =>
    refine h.congr_of_log ?_ ?_ (fun _ => rfl) rfl rfl fun _ _ => rfl
    · rw [hphase]; rfl
    · rw [State.toReport, State.toReport, hphase]; rfl
  | timeOut hphase =>
    refine h.leave (by rw [hphase]; rfl) (iff_of_true rfl ?_)
    rintro ⟨e, hmem, hready⟩
    rw [hok e hmem] at hready
    cases hready

end Settled

/-! ## The result -/

/-- **The return code agrees with what is reported**, whatever `rmw_wait` is called with and however
its steps interleave with those of producers, as long as these do not come between `Wait` and the
end of `detach_wait_set` in a way that matters. -/
theorem return_code_agrees {s : State}
    (h : system.Reachable (fun s a => s.SoleConsumer a ∧ s.Undisturbed a) s) : s.Agrees := by
  have hsettled : Settled s := by
    refine h.invariant_of (Q := Attaching) (P := Settled) ?_ ?_ ?_
    · exact fun _ hreachable => attaching_of_reachable hreachable.any
    · refine ⟨rfl, fun _ _ => rfl, fun _ _ hmem => ?_, fun _ ht => ?_, fun _ _ hmem => ?_⟩
      · cases hmem
      · cases ht
      · cases hmem
    · exact fun _ _ _ hattaching hsettled hok hstep => hsettled.step hattaching hok.1 hok.2 hstep
  refine ⟨fun timedOut hphase => ?_, hsettled.agrees⟩
  have hcomplete := hsettled.complete
  rw [State.toReport, hphase] at hcomplete
  simpa [Phase.toReport, Phase.timedOut] using hcomplete

/-- The thread waits for a subscriber and a guard condition: first in vain, then time is not up
before something is there. -/
theorem return_code_agrees_twice : ∃ s : State, reports s.log 0 =
      [(.subscriber 0, false), (.guardCondition 1, false)] ∧
    reports s.log 1 = [(.subscriber 0, true), (.guardCondition 1, true)] ∧ s.Agrees := by
  have h : system.Reachable (fun s a => s.SoleConsumer a ∧ s.Undisturbed a) _ :=
    System.reachable_of_exec
      [.rmwWait [0] [1] [] [] [] true, .wait, .wait, .wait, .wait, .wait, .wait, .wait, .wake,
        .comeBack true, .wait, .wait, .wait, .wait, .wait, .wait,
        .rmwWait [0] [1] [] [] [] true, .wait, .wait, .wait, .wait, .wait, .wait, .wait,
        .produce (.subscriber 0), .producer 0, .producer 0, .producer 0, .producer 0, .producer 0,
        .comeBack false, .wait, .produce (.guardCondition 1), .wait, .producer 0, .producer 0,
        .producer 0, .producer 0, .producer 0, .producer 0, .wait, .wait, .wait, .wait, .wait] rfl
  exact ⟨_, rfl, rfl, return_code_agrees h⟩

/-- **A trigger is consumed by a call that has timed out**: the guard condition is triggered between
`Wait` and `detach_wait_set`. -/
theorem consumed_by_timeout : ∃ s : State, system.Reachable State.SoleConsumer s ∧
    .returned 0 true ∈ s.log ∧ reports s.log 0 = [(.guardCondition 1, true)] ∧
    .completed 1 0 ∈ s.log ∧ s.triggered 1 = false := by
  refine ⟨_, System.reachable_of_exec
    [.rmwWait [] [1] [] [] [] true, .wait, .wait, .wait, .wait, .wait, .wake, .comeBack true,
      .wait, .produce (.guardCondition 1), .producer 0, .producer 0, .producer 0, .producer 0,
      .producer 0, .producer 0, .wait, .wait, .wait] rfl, ?_, rfl, ?_, rfl⟩
  · decide
  · decide

/-! ## What happens otherwise -/

/-- The stages of threads that put something on a queue. -/
def Stage.queues : Stage → Bool
  | .enqueue | .getAttachedWaitSet | .lockCondition | .notifyLocked | .unlockCondition => true
  | _ => false

/-- A thread is where one that makes this entity ready may be. -/
def Producer.Suited (p : Producer) : Prop := p.stage.queues = p.entity.firstStage.queues

theorem suited_of_reachable {s : State} (h : system.Reachable System.any s) :
    ∀ p ∈ s.producers, p.Suited := by
  refine h.invariant (P := fun s => ∀ p ∈ s.producers, p.Suited) ?_ fun s a s' hsuited _ hstep => ?_
  · exact fun _ hmem => (by cases hmem)
  rcases (step_cases hstep).producers with heq | ⟨entity, rfl⟩ | hproducer
  · rw [heq]
    exact hsuited
  · exact List.forall_mem_append.mpr ⟨hsuited, List.forall_mem_singleton.mpr rfl⟩
  · obtain ⟨l₁, l₂, entity, ticket, stage, hl, hcases⟩ := hproducer
    rw [hl] at hsuited
    have hthis : stage.queues = entity.firstStage.queues :=
      hsuited ⟨entity, ticket, stage⟩ (List.mem_append_right _ List.mem_cons_self)
    have hothers : ∀ p ∈ l₁ ++ l₂, p.Suited := fun p hmem =>
      hsuited p (mem_of_mem_remove hmem)
    cases hcases with
    | detached | unlockCondition => exact hothers
    | unlockInternal =>
      obtain ⟨entries, heq, -⟩ := complete_eq { s with
        producers := l₁ ++ l₂
        internalMutex := Function.update s.internalMutex entity false } ticket entity
      rw [heq]
      exact hothers
    | triggerAttached | triggerDetached =>
      rw [trigger_producers]
      exact forall_mem_replace hsuited hthis
    | lockInternal hfree hstage =>
      rcases hstage with ⟨-, rfl⟩ | ⟨-, rfl⟩ <;> exact forall_mem_replace hsuited hthis
    | _ => exact forall_mem_replace hsuited hthis

/-- What a thread is there for is ready afterwards. -/
theorem ProducerStep.ready_of_makesReady {s s' : State} {l₁ l₂ : List Producer} {entity : Entity}
    {ticket : ℕ} {stage : Stage} (hstep : ProducerStep s l₁ l₂ entity ticket stage s')
    (hsuited : Producer.Suited ⟨entity, ticket, stage⟩) (hmakes : stage.makesReady = true)
    (hround : s.comesRound entity = false) : s'.ready entity = true := by
  have htriggered : ∀ s₁ : State, s₁.comesRound entity = false → entity.firstStage = .lockInternal →
      (s₁.trigger ticket entity).ready entity = true := fun s₁ hround hfirst =>
    (ready_trigger_self s₁ ticket hfirst).resolve_right fun hcount => by
      rw [hround] at hcount
      cases hcount
  cases hstep with
  | enqueue =>
    cases entity with
    | guardCondition i | event i => cases hsuited
    | subscriber i | service i | client i => simp [State.ready]
  | triggerAttached | triggerDetached =>
    refine htriggered _ hround ?_
    cases entity with
    | guardCondition i | event i => rfl
    | subscriber i | service i | client i => cases hsuited
  | _ => cases hmakes

/-- What is put down stays there. -/
theorem step_log {s s' : State} {a : Action} (h : s.step a = some s') :
    ∃ entries, s'.log = s.log ++ entries := by
  cases step_cases h with
  | producer _ _ hstep =>
    obtain ⟨-, notes, hlog, -⟩ := hstep.log
    exact ⟨notes, hlog⟩
  | wait hstep =>
    have hcases := stepWait_cases hstep
    generalize s.phase = phase at hcases
    cases hcases with
    | @report timedOut todo entity =>
      obtain ⟨triggered, heq, -⟩ := report_eq s entity
      rw [heq]
      exact ⟨_, rfl⟩
    | finish => exact ⟨_, rfl⟩
    | _ => exact ⟨[], (List.append_nil _).symm⟩
  | _ => exact ⟨[], (List.append_nil _).symm⟩

namespace State

/-- Nothing that is going to be reported ceases to be ready. -/
def Lasting (s : State) : Action → Prop
  | .take entity => entity ∉ s.toReport
  | .producer i => ∀ p ∈ s.producers[i]?, p.stage.makesReady = true → s.comesRound p.entity = false
  | _ => True

/-- A call has timed out and left an entry, or is going to. -/
def LeavesLate (s : State) (wait : ℕ) : Prop :=
  (s.wait = wait ∧ s.phase.timedOut = some true ∧ s.Found) ∨
  (.returned wait true ∈ s.log ∧ ∃ report ∈ reports s.log wait, report.2 = true)

end State

/-- A call that has returned stays as it was. -/
theorem returned_append {log entries : List Entry} {wait : ℕ}
    (h : .returned wait true ∈ log ∧ ∃ report ∈ reports log wait, report.2 = true) :
    .returned wait true ∈ log ++ entries ∧
      ∃ report ∈ reports (log ++ entries) wait, report.2 = true := by
  obtain ⟨hmem, report, hreport, hleft⟩ := h
  refine ⟨List.mem_append_left _ hmem, report, ?_, hleft⟩
  rw [reports_append]
  exact List.mem_append_left _ hreport

theorem State.LeavesLate.wait {s s' : State} {wait : ℕ} (hwait : s.wait = wait)
    (htimedOut : s.phase.timedOut = some true) (hfound : s.Found) (hstep : s.stepWait = some s') :
    s'.LeavesLate wait := by
  have hcases := stepWait_cases hstep
  generalize hphase : s.phase = phase at hcases
  rw [hphase] at htimedOut
  cases hcases with
  | takeTriggered | attached | attach | lockCondition | block | next => cases htimedOut
  | found => cases htimedOut
  | unlockCondition | detach =>
    refine .inl ⟨hwait, htimedOut, ?_⟩
    rw [State.Found, State.toReport, hphase] at hfound
    exact hfound
  | @report _ todo entity =>
    have hfound := (found_report hphase).mpr hfound
    obtain ⟨triggered, heq, -⟩ := report_eq s entity
    rw [heq] at hfound ⊢
    exact .inl ⟨hwait, htimedOut, hfound⟩
  | finish =>
    cases htimedOut
    rw [State.Found, State.toReport, hphase] at hfound
    obtain ⟨e, hmem, -⟩ | ⟨report, hmem, hleft⟩ := hfound
    · cases hmem
    · subst hwait
      refine .inr ⟨List.mem_append_right _ List.mem_cons_self, report, ?_, hleft⟩
      show report ∈ reports (s.log ++ _) s.wait
      rw [reports_returned]
      exact hmem

/-- **What comes too late is not taken back.** -/
theorem State.LeavesLate.step {s s' : State} {wait : ℕ} (h : s.LeavesLate wait) {a : Action}
    (hlasting : s.Lasting a) (hstep : s.step a = some s') : s'.LeavesLate wait := by
  rcases h with ⟨hwait, htimedOut, hfound⟩ | h
  · cases step_cases hstep with
    | produce | notTriggered => exact .inl ⟨hwait, htimedOut, hfound⟩
    | producer _ hget hstep =>
      obtain ⟨hsame, notes, hlog, hnotes⟩ := hstep.log
      have hfound := hstep.found (fun hmakes _ hround => by
        rw [hlasting _ hget hmakes] at hround
        cases hround) hfound
      refine .inl ⟨hsame.trans hwait, hstep.sameCall.1.trans htimedOut, ?_⟩
      rw [State.Found, State.HasLeft, hstep.sameCall.2, hlog, hsame, reports_append,
        reports_notes hnotes, List.append_nil]
      exact hfound
    | take =>
      refine .inl ⟨hwait, htimedOut, hfound.imp_left ?_⟩
      rintro ⟨e, hmem, hready⟩
      refine ⟨e, hmem, (ready_enqueue ?_).trans hready⟩
      rintro rfl
      exact hlasting hmem
    | wait hstep => exact .wait hwait htimedOut hfound hstep
    | takeTriggered hphase | rmwWait hphase | wake hphase | comeBack hphase | timeOut hphase =>
      -- the thread has not left the loop
      rw [hphase] at htimedOut
      cases htimedOut
  · obtain ⟨entries, hlog⟩ := step_log hstep
    refine .inr ?_
    rw [hlog]
    exact returned_append h

/-- Time is up although something is ready, or something becomes ready after it was. -/
theorem leavesLate_of_disturbed {s s' : State} {a : Action} (h : system.Reachable System.any s)
    (htimedOut : s.phase.timedOut ≠ some false) (hlasting : s.Lasting a)
    (hdisturbed : ¬s.Undisturbed a) (hstep : s.step a = some s') : s'.LeavesLate s.wait := by
  cases step_cases hstep with
  | timeOut =>
    obtain ⟨e, hmem, hready⟩ : ∃ e ∈ s.entities, s.ready e = true := by
      simpa [State.Undisturbed] using hdisturbed
    exact .inl ⟨rfl, rfl, .inl ⟨e, hmem, hready⟩⟩
  | @producer i l₁ l₂ entity ticket stage _ _ hget hstep =>
    obtain ⟨hmakes, hmem⟩ : stage.makesReady = true ∧ entity ∈ s.toReport := by
      by_contra hneither
      refine hdisturbed fun p hp hmakes hmem => ?_
      cases hget.symm.trans hp
      exact (hneither ⟨hmakes, hmem⟩).elim
    have hsuited := suited_of_reachable h _ (List.mem_of_getElem? hget)
    have hready := hstep.ready_of_makesReady hsuited hmakes (hlasting _ hget hmakes)
    refine .inl ⟨hstep.log.1, ?_, .inl ⟨entity, ?_, hready⟩⟩
    · rw [hstep.sameCall.1]
      -- nothing is to be reported before the loop is left
      cases hphase : s.phase with
      | unlockCondition timedOut | detach timedOut | report timedOut =>
        cases timedOut with
        | true => rfl
        | false => exact (htimedOut (by rw [hphase]; rfl)).elim
      | _ =>
        rw [State.toReport, hphase] at hmem
        cases hmem
    · rw [hstep.sameCall.2]
      exact hmem
  | _ => exact (hdisturbed trivial).elim

/-- **The return code is wrong if time is up although something is ready, or if something becomes
ready after it was**: whatever happens then, if nobody takes it, the call times out and leaves an
entry. -/
theorem disagrees_of_disturbed {s s' s'' : State} {a : Action}
    (h : system.Reachable System.any s) (htimedOut : s.phase.timedOut ≠ some false)
    (hlasting : s.Lasting a) (hdisturbed : ¬s.Undisturbed a) (hstep : s.step a = some s')
    (hrun : System.Reachable ⟨s', State.step⟩ State.Lasting s'') (hreturned : s''.wait ≠ s.wait) :
    ¬s''.Agrees := by
  have hlate : s''.LeavesLate s.wait := by
    refine hrun.invariant (P := fun t => t.LeavesLate s.wait) ?_ ?_
    · exact leavesLate_of_disturbed h htimedOut hlasting hdisturbed hstep
    · exact fun _ _ _ hlate hlasting hstep => hlate.step hlasting hstep
  intro hagrees
  rcases hlate with ⟨hwait, -, -⟩ | ⟨hmem, report, hreport, hleft⟩
  · exact hreturned hwait
  · have hfalse := (hagrees.timedOut _ _ hmem).mp rfl report hreport
    rw [hleft] at hfalse
    cases hfalse

end WaitSet

end RmwEcal
