import Mathlib.Data.List.Nodup
import RmwEcal.Shared.Correlation

/-!
# Where a request is

Any number of clients and the threads of a service are at work.  A request whose handler has put it
on the queue is there, or with a thread in `TakeRequest`, or it has been taken, and then it can be
found in `current_requests_` until it has been answered (`Offering`).  Once it has been answered, a
thread in `SendResponse` is going to notify the handler, or the handler has come out of the wait
(`Returning`).

So no request is forgotten (`World.Live`), as long as the steps are regular and a notification finds
its handler in the wait: one that comes too early is lost, and the handler with it (see `HandOver`).
-/

set_option autoImplicit false

namespace RmwEcal

open Transition Service

section Whereabouts

variable {Req Res : Type}

/-! ## On the way to the executor -/

namespace Log

variable (log : Log Req Res)

/-- `TakeRequest` has returned this id. -/
def IsTaken (requestId : ℕ) : Prop := ∃ taken ∈ log.taken, taken.requestId = requestId

/-- `SendResponse` has been called with this id. -/
def IsAnswered (requestId : ℕ) : Prop := ∃ answered ∈ log.answered, answered.requestId = requestId

instance (requestId : ℕ) : Decidable (log.IsTaken requestId) :=
  inferInstanceAs (Decidable (∃ taken ∈ log.taken, taken.requestId = requestId))

instance (requestId : ℕ) : Decidable (log.IsAnswered requestId) :=
  inferInstanceAs (Decidable (∃ answered ∈ log.answered, answered.requestId = requestId))

end Log

/-- The requests on the queue and with the threads in `TakeRequest`. -/
def Service.offered (service : Service) : List ℕ := service.pending ++ service.takes.map Take.ref

/-- What handlers put on the queue comes to the executor. -/
structure Offering (log : Log Req Res) (service : Service) : Prop where
  /-- What is on the queue was put there by its handler and has not been taken. -/
  queued : ∀ ref ∈ service.offered, ∃ handler, service.handlers[ref]? = some handler ∧
    handler.phase ≠ .enqueueRequest ∧ ¬ log.IsTaken handler.requestId
  /-- No request is there twice. -/
  nodup : service.offered.Nodup
  /-- It can be found under its id before `TakeRequest` returns it. -/
  inserted : ∀ take ∈ service.takes, take.stage = .deserializeRequest →
    ∀ handler, service.handlers[take.ref]? = some handler →
      (handler.requestId, take.ref) ∈ service.current
  /-- No request is left out. -/
  placed : ∀ ref handler, service.handlers[ref]? = some handler →
    handler.phase ≠ .enqueueRequest → ref ∈ service.offered ∨ log.IsTaken handler.requestId
  /-- A request is not taken before it is put on the queue. -/
  arriving : ∀ (ref : ℕ) (handler : Handler), service.handlers[ref]? = some handler →
    handler.phase = .enqueueRequest → ¬ log.IsTaken handler.requestId
  /-- It can be found under its id until it has been answered. -/
  outstanding : ∀ requestId, log.IsTaken requestId → ¬ log.IsAnswered requestId →
    ∃ ref, (requestId, ref) ∈ service.current

/-- Responses come back from the executor. -/
structure Returning (log : Log Req Res) (consumed : List ℕ) (service : Service) : Prop where
  /-- No two threads in `SendResponse` have the same id. -/
  nodup : (service.sends.map Send.requestId).Nodup
  /-- A thread that has not notified the handler finds it before it comes out of the wait. -/
  notifies : ∀ send ∈ service.sends, send.stage ≠ .eraseCurrent →
    ∀ handler, service.handlers[send.ref]? = some handler → handler.phase.Awaits
  /-- A handler whose request has been answered is going to be notified. -/
  notified : ∀ ref handler, service.handlers[ref]? = some handler → handler.phase.Awaits →
    log.IsAnswered handler.requestId →
    ∃ send ∈ service.sends, send.ref = ref ∧ send.stage ≠ .eraseCurrent
  /-- A handler that has been notified has come out of the wait. -/
  consumed : ∀ ref ∈ consumed, ∀ handler, service.handlers[ref]? = some handler →
    ¬ handler.phase.Awaits

section Service

variable {ts : ServiceTypeSupport Req Res} {log : Log Req Res} {origins consumed : List ℕ}
  {requestIds : ℕ} {service service' : Service} {ref : ℕ} {handler : Handler}

theorem offering_fresh : Offering (⟨[], [], []⟩ : Log Req Res) .fresh where
  queued _ hmem := by cases hmem
  nodup := .nil
  inserted _ hmem := by cases hmem
  placed _ _ hget := by cases hget
  arriving _ _ hget := by cases hget
  outstanding _ htaken := by obtain ⟨_, hmem, -⟩ := htaken; cases hmem

theorem returning_fresh : Returning (⟨[], [], []⟩ : Log Req Res) [] .fresh where
  nodup := .nil
  notifies _ hmem := by cases hmem
  notified _ _ hget := by cases hget
  consumed _ hmem := by cases hmem

/-- What has been answered had been taken. -/
theorem Serving.isTaken (h : Serving ts log origins consumed requestIds service) {requestId : ℕ}
    (hanswered : log.IsAnswered requestId) : log.IsTaken requestId := by
  obtain ⟨answered, hmem, rfl⟩ := hanswered
  exact h.answered answered hmem

/-- A handler that has come out of the wait has its answer. -/
theorem Serving.isAnswered (h : Serving ts log origins consumed requestIds service)
    (hget : service.handlers[ref]? = some handler) (hphase : ¬ handler.phase.Awaits) :
    log.IsAnswered handler.requestId := by
  obtain ⟨answered, hmem, hid, -⟩ := h.ready ref handler hget (.inl hphase)
  exact ⟨answered, hmem, hid⟩

/-- A thread in `SendResponse` has an id that was answered. -/
theorem Serving.sends_isAnswered (h : Serving ts log origins consumed requestIds service)
    {send : Send} (hmem : send ∈ service.sends) : log.IsAnswered send.requestId := by
  obtain ⟨answered, hanswered, hid, -⟩ := h.sends_answered send hmem
  exact ⟨answered, hanswered, hid⟩

/-- An id that was taken is that of a handler. -/
theorem Serving.lt_of_isTaken (h : Serving ts log origins consumed requestIds service)
    {requestId : ℕ} (htaken : log.IsTaken requestId) : requestId < requestIds := by
  obtain ⟨taken, hmem, rfl⟩ := htaken
  obtain ⟨ref, handler, hget, -, hid, -⟩ := h.taken taken hmem
  rw [← hid]
  exact h.ids_lt ref handler hget

/-- **A handler moves**, but not to the queue. -/
theorem Offering.update (h : Offering log service) (handler' : Handler)
    (hget : service.handlers[ref]? = some handler) (hid : handler'.requestId = handler.requestId)
    (hphase : handler'.phase = .enqueueRequest ↔ handler.phase = .enqueueRequest) :
    Offering log (service.update ref handler') := by
  refine ⟨fun ref' hmem => ?_, h.nodup, fun take hmem hstage other hother => ?_,
    fun ref' other hother hne => ?_, fun ref' other hother heq => ?_, h.outstanding⟩
  · obtain ⟨other, hother, hne, hnot⟩ := h.queued ref' hmem
    by_cases heq : ref' = ref
    · subst heq
      obtain rfl := Option.some.inj (hget.symm.trans hother)
      exact ⟨handler', (getElem?_update hget).mpr (.inl ⟨rfl, rfl⟩), mt hphase.mp hne, hid ▸ hnot⟩
    · exact ⟨other, (getElem?_update hget).mpr (.inr ⟨heq, hother⟩), hne, hnot⟩
  · obtain ⟨heq, rfl⟩ | ⟨-, hother⟩ := (getElem?_update hget).mp hother
    · rw [hid]
      exact h.inserted take hmem hstage handler (heq ▸ hget)
    · exact h.inserted take hmem hstage other hother
  · obtain ⟨rfl, rfl⟩ | ⟨-, hother⟩ := (getElem?_update hget).mp hother
    · rw [hid]
      exact h.placed ref' handler hget (mt hphase.mpr hne)
    · exact h.placed ref' other hother hne
  · obtain ⟨rfl, rfl⟩ | ⟨-, hother⟩ := (getElem?_update hget).mp hother
    · rw [hid]
      exact h.arriving ref' handler hget (hphase.mp heq)
    · exact h.arriving ref' other hother heq

/-- **A handler moves**, but not out of the wait. -/
theorem Returning.update (h : Returning log consumed service) (handler' : Handler)
    (hget : service.handlers[ref]? = some handler) (hid : handler'.requestId = handler.requestId)
    (hphase : handler'.phase.Awaits ↔ handler.phase.Awaits) :
    Returning log consumed (service.update ref handler') := by
  refine ⟨h.nodup, fun send hmem hstage other hother => ?_, fun ref' other hother hawaits => ?_,
    fun ref' hmem other hother => ?_⟩
  · obtain ⟨heq, rfl⟩ | ⟨-, hother⟩ := (getElem?_update hget).mp hother
    · exact hphase.mpr (h.notifies send hmem hstage handler (heq ▸ hget))
    · exact h.notifies send hmem hstage other hother
  · obtain ⟨rfl, rfl⟩ | ⟨-, hother⟩ := (getElem?_update hget).mp hother
    · rw [hid]
      exact h.notified ref' handler hget (hphase.mp hawaits)
    · exact h.notified ref' other hother hawaits
  · obtain ⟨rfl, rfl⟩ | ⟨-, hother⟩ := (getElem?_update hget).mp hother
    · exact mt hphase.mp (h.consumed ref' hmem handler hget)
    · exact h.consumed ref' hmem other hother

/-! ### Handlers -/

/-- **A handler puts its request on the queue.** -/
theorem Offering.enqueueRequest (h : Offering log service)
    (hget : service.handlers[ref]? = some handler) (hphase : handler.phase = .enqueueRequest) :
    Offering log { service.update ref { handler with phase := .notifyWaitSet } with
      pending := service.pending ++ [ref] } := by
  have hperm : (service.pending ++ [ref] ++ service.takes.map Take.ref).Perm
      (ref :: service.offered) := by
    rw [List.append_assoc]
    exact List.perm_middle
  -- it has not been there before
  have hnew : ref ∉ service.offered := by
    intro hmem
    obtain ⟨other, hother, hne, -⟩ := h.queued ref hmem
    obtain rfl := Option.some.inj (hget.symm.trans hother)
    exact hne hphase
  have hmoved : (service.update ref { handler with phase := .notifyWaitSet }).handlers[ref]? =
      some { handler with phase := .notifyWaitSet } :=
    (getElem?_update hget).mpr (.inl ⟨rfl, rfl⟩)
  refine ⟨fun ref' hmem => ?_, hperm.nodup_iff.mpr (List.nodup_cons.mpr ⟨hnew, h.nodup⟩),
    fun take hmem hstage other hother => ?_, fun ref' other hother hne => ?_,
    fun ref' other hother heq => ?_, h.outstanding⟩
  · obtain rfl | hmem := List.mem_cons.mp (hperm.mem_iff.mp hmem)
    · exact ⟨_, hmoved, nofun, h.arriving ref' handler hget hphase⟩
    · obtain ⟨other, hother, hrest⟩ := h.queued ref' hmem
      have hne : ref' ≠ ref := fun heq => hnew (heq ▸ hmem)
      exact ⟨other, (getElem?_update hget).mpr (.inr ⟨hne, hother⟩), hrest⟩
  · obtain ⟨heq, rfl⟩ | ⟨-, hother⟩ := (getElem?_update hget).mp hother
    · exact h.inserted take hmem hstage handler (heq ▸ hget)
    · exact h.inserted take hmem hstage other hother
  · obtain ⟨rfl, -⟩ | ⟨-, hother⟩ := (getElem?_update hget).mp hother
    · exact .inl (hperm.mem_iff.mpr List.mem_cons_self)
    · exact (h.placed ref' other hother hne).imp_left fun hmem =>
        hperm.mem_iff.mpr (List.mem_cons_of_mem _ hmem)
  · obtain ⟨-, rfl⟩ | ⟨-, hother⟩ := (getElem?_update hget).mp hother
    · cases heq
    · exact h.arriving ref' other hother heq

theorem Offering.stepHandler {response : Option (List UInt8)} (h : Offering log service)
    (hstep : service.stepHandler ref = some (service', response)) : Offering log service' := by
  obtain ⟨handler, hget, hcases⟩ := stepHandler_cases hstep
  cases hcases with
  | enqueueRequest hphase => exact h.enqueueRequest hget hphase
  | notifyWaitSet hphase | waitForResponse hphase | getResponse hphase =>
    exact h.update _ hget rfl (by simp [hphase])

theorem Returning.stepHandler {response : Option (List UInt8)}
    (h : Returning log consumed service)
    (hstep : service.stepHandler ref = some (service', response)) :
    Returning log consumed service' := by
  obtain ⟨handler, hget, hcases⟩ := stepHandler_cases hstep
  cases hcases with
  | enqueueRequest hphase =>
    have hmoved := h.update { handler with phase := .notifyWaitSet } hget rfl
      (by simp [Phase.Awaits, hphase])
    exact ⟨hmoved.nodup, hmoved.notifies, hmoved.notified, hmoved.consumed⟩
  | notifyWaitSet hphase | waitForResponse hphase | getResponse hphase =>
    exact h.update _ hget rfl (by simp [Phase.Awaits, hphase])

/-- **A call comes.** -/
theorem Offering.onRequest (h : Offering log service)
    (hs : Serving ts log origins consumed requestIds service) (request : List UInt8) :
    Offering log (service.onRequest requestIds request) := by
  refine ⟨fun ref hmem => ?_, h.nodup, fun take hmem hstage other hother => ?_,
    fun ref other hother hne => ?_, fun ref other hother heq htaken => ?_, h.outstanding⟩
  · obtain ⟨other, hother, hrest⟩ := h.queued ref hmem
    exact ⟨other, getElem?_onRequest.mpr (.inr hother), hrest⟩
  · obtain ⟨before, hbefore, -⟩ := h.queued take.ref
      (List.mem_append_right _ (List.mem_map_of_mem hmem))
    obtain ⟨heq, -⟩ | hother := getElem?_onRequest.mp hother
    · exact absurd (List.getElem?_eq_some_iff.mp hbefore).1 (heq ▸ Nat.lt_irrefl _)
    · exact h.inserted take hmem hstage other hother
  · obtain ⟨-, rfl⟩ | hother := getElem?_onRequest.mp hother
    · exact (hne rfl).elim
    · exact h.placed ref other hother hne
  · obtain ⟨-, rfl⟩ | hother := getElem?_onRequest.mp hother
    · exact Nat.lt_irrefl _ (hs.lt_of_isTaken htaken)
    · exact h.arriving ref other hother heq htaken

theorem Returning.onRequest (h : Returning log consumed service)
    (hs : Serving ts log origins consumed requestIds service) (request : List UInt8) :
    Returning log consumed (service.onRequest requestIds request) := by
  refine ⟨h.nodup, fun send hmem hstage other hother => ?_,
    fun ref other hother hawaits hanswered => ?_, fun ref hmem other hother => ?_⟩
  · obtain ⟨-, rfl⟩ | hother := getElem?_onRequest.mp hother
    · exact Phase.awaits_enqueueRequest
    · exact h.notifies send hmem hstage other hother
  · obtain ⟨-, rfl⟩ | hother := getElem?_onRequest.mp hother
    · exact absurd (hs.lt_of_isTaken (hs.isTaken hanswered)) (Nat.lt_irrefl _)
    · exact h.notified ref other hother hawaits hanswered
  · obtain ⟨rfl, -⟩ | hother := getElem?_onRequest.mp hother
    · exact absurd (hs.consumed_lt _ hmem) (Nat.lt_irrefl _)
    · exact h.consumed ref hmem other hother

/-! ### The executor -/

/-- **A thread gets the lock in `TakeRequest`.** -/
theorem Offering.takeRequest (h : Offering log service)
    (hstep : service.takeRequest = some service') : Offering log service' := by
  obtain ⟨ref, pending, hpending, rfl⟩ := takeRequest_cases hstep
  have hperm : (pending ++ (service.takes ++ [(⟨ref, .insertCurrent⟩ : Take)]).map Take.ref).Perm
      service.offered := by
    rw [offered, hpending, List.map_append, ← List.append_assoc]
    exact List.perm_append_comm
  refine ⟨fun ref' hmem => h.queued ref' (hperm.mem_iff.mp hmem), hperm.nodup_iff.mpr h.nodup,
    fun take hmem hstage => ?_, fun ref' other hother hne => ?_, h.arriving, h.outstanding⟩
  · obtain hmem | hmem := List.mem_append.mp hmem
    · exact h.inserted take hmem hstage
    · rw [List.mem_singleton.mp hmem] at hstage
      cases hstage
  · exact (h.placed ref' other hother hne).imp_left hperm.mem_iff.mpr

/-- What `TakeRequest` does to the map: the request can be found, and no other is lost. -/
theorem stepTake_current {i : ℕ} {take : Take} {taken : Option (ℕ × List UInt8)}
    (htake : service.takes[i]? = some take) (hget : service.handlers[take.ref]? = some handler)
    (hstep : service.stepTake i = some (service', taken)) : service.current ⊆ service'.current ∧
      (take.stage = .insertCurrent → ∃ ref, (handler.requestId, ref) ∈ service'.current) := by
  obtain ⟨take', htake', hstep⟩ := Option.bind_eq_some_iff.mp hstep
  obtain rfl := Option.some.inj (htake.symm.trans htake')
  obtain ⟨handler', hderef, hstep⟩ := Option.bind_eq_some_iff.mp hstep
  obtain rfl := Option.some.inj (hget.symm.trans (deref_eq_some hderef).1)
  cases hstage : take.stage with
  | insertCurrent =>
    simp only [hstage] at hstep
    cases hstep
    split
    · next hsome =>
      obtain ⟨ref, hlookup⟩ := Option.isSome_iff_exists.mp hsome
      obtain ⟨l₁, l₂, hl, -⟩ := List.lookup_eq_some_iff.mp hlookup
      exact ⟨List.Subset.refl _, fun _ => ⟨ref, by simp [hl]⟩⟩
    · exact ⟨List.subset_append_left _ _, fun _ => ⟨take.ref, by simp⟩⟩
  | deserializeRequest =>
    simp only [hstage] at hstep
    obtain ⟨data, -, hstep⟩ := Option.bind_eq_some_iff.mp hstep
    cases hstep
    exact ⟨List.Subset.refl _, nofun⟩

/-- **A thread in `TakeRequest` takes its next step**; it may return. -/
theorem Offering.stepTake (h : Offering log service)
    (hs : Serving ts log origins consumed requestIds service) {i client : ℕ} {take : Take}
    {taken : Option (ℕ × List UInt8)} (htake : service.takes[i]? = some take)
    (hget : service.handlers[take.ref]? = some handler)
    (hstep : service.stepTake i = some (service', taken)) :
    Offering { log with
      taken := log.taken ++ taken.toList.map fun t => ⟨t.1, t.2, client, handler.request⟩ }
      service' := by
  obtain ⟨hsubset, hfound⟩ := stepTake_current htake hget hstep
  obtain ⟨l₁, l₂, ref, stage, handler', htake', hl, hget', hcases⟩ := stepTake_cases hstep
  obtain rfl := Option.some.inj (htake.symm.trans htake')
  obtain rfl := Option.some.inj (hget.symm.trans hget')
  cases hcases with
  | @insertCurrent current hcurrent =>
    simp only [Option.toList_none, List.map_nil, List.append_nil]
    have hsame : offered { service with
        takes := l₁ ++ ⟨ref, .deserializeRequest⟩ :: l₂
        current := current } = service.offered := by
      simp [offered, hl]
    have hmem : (handler.requestId, ref) ∈ current := by
      obtain ⟨ref', hmem⟩ := hfound rfl
      obtain hold | heq := hcurrent _ hmem
      · obtain ⟨other, hother, hid⟩ := hs.current _ hold
        rwa [hs.ids_inj ref ref' handler other hget hother hid.symm]
      · rwa [heq] at hmem
    refine ⟨fun ref' hmem' => h.queued ref' (hsame ▸ hmem'), hsame.symm ▸ h.nodup,
      fun take hmem' hstage other hother => ?_, fun ref' other hother hne => ?_, h.arriving,
      fun requestId htaken hnot => ?_⟩
    · have hold : take ∈ service.takes ∨ take = ⟨ref, .deserializeRequest⟩ := by
        rw [hl]
        exact mem_replace hmem'
      obtain hold | rfl := hold
      · exact hsubset (h.inserted take hold hstage other hother)
      · obtain rfl := Option.some.inj (hget.symm.trans hother)
        exact hmem
    · exact (h.placed ref' other hother hne).imp_left (hsame.symm ▸ ·)
    · obtain ⟨ref', hmem'⟩ := h.outstanding requestId htaken hnot
      exact ⟨ref', hsubset hmem'⟩
  | @deserializeRequest data hdata =>
    simp only [Option.toList_some, List.map_cons, List.map_nil]
    have hperm : service.offered.Perm (ref :: (service.pending ++ (l₁ ++ l₂).map Take.ref)) := by
      rw [offered, hl, List.map_append, List.map_cons, List.map_append, ← List.append_assoc,
        ← List.append_assoc]
      exact List.perm_middle
    have hnodup := List.nodup_cons.mp (hperm.nodup_iff.mp h.nodup)
    have hgrown : ∀ requestId, Log.IsTaken { log with taken := log.taken ++
        [⟨handler.requestId, data, client, handler.request⟩] } requestId ↔
          log.IsTaken requestId ∨ handler.requestId = requestId := fun requestId => by
      simp [Log.IsTaken, or_and_right, exists_or]
    refine ⟨fun ref' hmem => ?_, hnodup.2, fun take hmem hstage other hother => ?_,
      fun ref' other hother hne => ?_, fun ref' other hother heq htaken => ?_,
      fun requestId htaken hnot => ?_⟩
    · obtain ⟨other, hother, hne, hnot⟩ :=
        h.queued ref' (hperm.mem_iff.mpr (List.mem_cons_of_mem _ hmem))
      refine ⟨other, hother, hne, fun htaken => ?_⟩
      obtain htaken | hid := (hgrown _).mp htaken
      · exact hnot htaken
      · exact hnodup.1 (hs.ids_inj ref ref' handler other hget hother hid ▸ hmem)
    · exact h.inserted take (hl ▸ mem_of_mem_remove hmem) hstage other hother
    · rw [hgrown]
      obtain hmem | htaken := h.placed ref' other hother hne
      · obtain rfl | hmem := List.mem_cons.mp (hperm.mem_iff.mp hmem)
        · obtain rfl := Option.some.inj (hget.symm.trans hother)
          exact .inr (.inr rfl)
        · exact .inl hmem
      · exact .inr (.inl htaken)
    · obtain htaken | hid := (hgrown _).mp htaken
      · exact h.arriving ref' other hother heq htaken
      · obtain rfl := hs.ids_inj ref ref' handler other hget hother hid
        obtain rfl := Option.some.inj (hget.symm.trans hother)
        obtain ⟨queued, hqueued, hne, -⟩ := h.queued ref (hperm.mem_iff.mpr List.mem_cons_self)
        obtain rfl := Option.some.inj (hget.symm.trans hqueued)
        exact hne heq
    · obtain htaken | rfl := (hgrown _).mp htaken
      · exact h.outstanding requestId htaken hnot
      · exact ⟨ref, h.inserted ⟨ref, .deserializeRequest⟩ (by simp [hl]) rfl handler hget⟩

/-- **A thread calls `SendResponse`** with an id that has not been answered. -/
theorem Returning.sendResponse (h : Returning log consumed service)
    (hs : Serving ts log origins consumed requestIds service) {response : Res} {requestId : ℕ}
    {data : List UInt8} (hnew : ¬ log.IsAnswered requestId)
    (hstep : service.sendResponse data requestId = some service') :
    Returning { log with answered := log.answered ++ [⟨requestId, response⟩] } consumed
      service' := by
  obtain ⟨ref, -, hcurrent, rfl⟩ := sendResponse_cases hstep
  obtain ⟨handler, hget, hid⟩ := hs.current _ hcurrent
  refine ⟨?_, fun send hmem hstage other hother => ?_, fun ref' other hother hawaits hanswered => ?_,
    h.consumed⟩
  · rw [List.map_append, List.nodup_append]
    refine ⟨h.nodup, List.nodup_singleton _, fun id hmem id' hmem' heq => hnew ?_⟩
    obtain ⟨send, hsend, rfl⟩ := List.mem_map.mp hmem
    rw [List.map_singleton, List.mem_singleton] at hmem'
    have hanswered := hs.sends_isAnswered hsend
    rwa [heq, hmem'] at hanswered
  · obtain hmem | hmem := List.mem_append.mp hmem
    · exact h.notifies send hmem hstage other hother
    · rw [List.mem_singleton.mp hmem] at hother
      obtain rfl := Option.some.inj (hget.symm.trans hother)
      refine not_not.mp fun hphase => hnew ?_
      have hanswered := hs.isAnswered hget hphase
      rwa [hid] at hanswered
  · obtain ⟨answered, hmem, heq⟩ := hanswered
    obtain hmem | hmem := List.mem_append.mp hmem
    · obtain ⟨send, hsend, hrest⟩ := h.notified ref' other hother hawaits ⟨answered, hmem, heq⟩
      exact ⟨send, List.mem_append_left _ hsend, hrest⟩
    · rw [List.mem_singleton.mp hmem] at heq
      have hsame := hs.ids_inj ref ref' handler other hget hother (hid.trans heq)
      exact ⟨⟨ref, requestId, data, .assignResponse⟩, by simp, hsame, nofun⟩

section Sends

variable {l₁ l₂ : List Send} {send : Send} (hl : service.sends = l₁ ++ send :: l₂)

include hl

/-- **A response has been put into its request.** -/
theorem Returning.assignResponse (h : Returning log consumed service)
    (hstage : send.stage = .assignResponse) : Returning log consumed { service with
      sends := l₁ ++ { send with stage := .notifyOne } :: l₂ } := by
  refine ⟨?_, fun other hmem hother => ?_, fun ref handler hget hawaits hanswered => ?_,
    h.consumed⟩
  · have hnodup := h.nodup
    rw [hl] at hnodup
    simpa using hnodup
  · obtain hmem | rfl := mem_replace (a := send) hmem
    · exact h.notifies other (hl ▸ hmem) hother
    · exact h.notifies send (by simp [hl]) (by simp [hstage])
  · obtain ⟨other, hmem, rfl, hother⟩ := h.notified ref handler hget hawaits hanswered
    rw [hl] at hmem
    obtain hmem | rfl := mem_replace (a := { send with stage := .notifyOne }) hmem
    · exact ⟨other, hmem, rfl, hother⟩
    · exact ⟨_, List.mem_append_right _ List.mem_cons_self, rfl, nofun⟩

/-- **A handler is notified**, which is in the wait. -/
theorem Returning.notifyOne (h : Returning log consumed service)
    (hs : Serving ts log origins consumed requestIds service)
    (hget : service.handlers[send.ref]? = some handler) :
    Returning log (consumed ++ [send.ref])
      { service.update send.ref { handler with phase := .getResponse } with
        sends := l₁ ++ { send with stage := .eraseCurrent } :: l₂ } := by
  have hnodup := h.nodup
  rw [hl] at hnodup
  -- nobody else is about to notify this handler
  have hothers : ∀ other ∈ l₁ ++ l₂, other.stage ≠ .eraseCurrent → ∀ moved,
      (service.update send.ref { handler with phase := .getResponse }).handlers[other.ref]? =
        some moved → moved.phase.Awaits := by
    intro other hmem hother moved hmoved
    have hold : other ∈ service.sends := hl ▸ mem_of_mem_remove hmem
    obtain ⟨heq, -⟩ | ⟨-, hmoved⟩ := (getElem?_update hget).mp hmoved
    · obtain ⟨handler₁, hget₁, hid₁⟩ := hs.sends other hold
      obtain ⟨handler₂, hget₂, hid₂⟩ := hs.sends send (by simp [hl])
      obtain rfl := Option.some.inj (hget₁.symm.trans (heq ▸ hget₂))
      rw [List.map_append, List.map_cons, List.nodup_middle, List.nodup_cons, ← List.map_append,
        ← hid₂, hid₁] at hnodup
      exact (hnodup.1 (List.mem_map_of_mem hmem)).elim
    · exact h.notifies other hold hother moved hmoved
  refine ⟨by simpa using hnodup, fun other hmem hother moved hmoved => ?_,
    fun ref moved hmoved hawaits hanswered => ?_, fun ref hmem moved hmoved => ?_⟩
  · obtain hmem | rfl | hmem := by simpa only [List.mem_append, List.mem_cons] using hmem
    · exact hothers other (List.mem_append_left _ hmem) hother moved hmoved
    · exact (hother rfl).elim
    · exact hothers other (List.mem_append_right _ hmem) hother moved hmoved
  · obtain ⟨-, rfl⟩ | ⟨hne, hmoved⟩ := (getElem?_update hget).mp hmoved
    · exact (hawaits.1 rfl).elim
    · obtain ⟨other, hmem, rfl, hother⟩ := h.notified ref moved hmoved hawaits hanswered
      rw [hl] at hmem
      obtain hmem | rfl := mem_replace (a := { send with stage := .eraseCurrent }) hmem
      · exact ⟨other, hmem, rfl, hother⟩
      · exact (hne rfl).elim
  · obtain ⟨-, rfl⟩ | ⟨hne, hmoved⟩ := (getElem?_update hget).mp hmoved
    · exact fun hawaits => hawaits.1 rfl
    · obtain hmem | hmem := List.mem_append.mp hmem
      · exact h.consumed ref hmem moved hmoved
      · exact (hne (List.mem_singleton.mp hmem)).elim

/-- **A thread leaves `SendResponse`.** -/
theorem Returning.eraseCurrent (h : Returning log consumed service)
    (hstage : send.stage = .eraseCurrent) (current : List (ℕ × ℕ)) :
    Returning log consumed { service with sends := l₁ ++ l₂, current := current } := by
  refine ⟨?_, fun other hmem => h.notifies other (hl ▸ mem_of_mem_remove hmem),
    fun ref handler hget hawaits hanswered => ?_, h.consumed⟩
  · have hnodup := h.nodup
    rw [hl] at hnodup
    exact hnodup.sublist (((List.sublist_cons_self send l₂).append_left l₁).map _)
  · obtain ⟨other, hmem, href, hother⟩ := h.notified ref handler hget hawaits hanswered
    refine ⟨other, ?_, href, hother⟩
    rw [hl, List.mem_append, List.mem_cons] at hmem
    obtain hmem | rfl | hmem := hmem
    · exact List.mem_append_left _ hmem
    · exact (hother hstage).elim
    · exact List.mem_append_right _ hmem

end Sends

/-- **A thread in `SendResponse` takes its next step**, and finds the handler in the wait if this is
the notification. -/
theorem Returning.stepSend (h : Returning log consumed service)
    (hs : Serving ts log origins consumed requestIds service) {i : ℕ} {send : Send}
    (hsend : service.sends[i]? = some send)
    (hwaiting : send.stage = .notifyOne → ∀ handler, service.handlers[send.ref]? = some handler →
      handler.phase = .waiting)
    (hstep : service.stepSend i = some service') :
    Returning log (if send.stage = .notifyOne then consumed ++ [send.ref] else consumed)
      service' := by
  obtain ⟨l₁, l₂, send', hsend', hl, -, hcases⟩ := stepSend_cases hstep
  obtain rfl := Option.some.inj (hsend.symm.trans hsend')
  generalize hstage : send.stage = stage at hcases hwaiting ⊢
  cases hcases with
  | @assignResponse handler hget _ =>
    rw [if_neg nofun]
    exact (h.update { handler with response := send.response } hget rfl Iff.rfl).assignResponse hl
      hstage
  | notifyOne hget _ hphase =>
    obtain ⟨-, rfl⟩ | ⟨hne, -⟩ := hphase
    · exact h.notifyOne hl hs hget
    · exact (hne (hwaiting rfl _ hget)).elim
  | eraseCurrent => exact h.eraseCurrent hl hstage _

/-- What `SendResponse` does to the map: other requests can still be found. -/
theorem stepSend_current {i : ℕ} {send : Send} (hsend : service.sends[i]? = some send)
    (hstep : service.stepSend i = some service') :
    ∀ requestId ref, (requestId, ref) ∈ service.current → requestId ≠ send.requestId →
      (requestId, ref) ∈ service'.current := by
  intro requestId ref hmem hne
  obtain ⟨send', hsend', hstep⟩ := Option.bind_eq_some_iff.mp hstep
  obtain rfl := Option.some.inj (hsend.symm.trans hsend')
  cases hstage : send.stage with
  | assignResponse | notifyOne =>
    simp only [hstage] at hstep
    obtain ⟨handler, -, hstep⟩ := Option.bind_eq_some_iff.mp hstep
    cases hstep
    exact hmem
  | eraseCurrent =>
    simp only [hstage] at hstep
    cases hstep
    exact List.mem_filter.mpr ⟨hmem, by simpa using hne⟩

theorem Offering.stepSend (h : Offering log service)
    (hs : Serving ts log origins consumed requestIds service) {i : ℕ} {send : Send}
    (hsend : service.sends[i]? = some send) (hstep : service.stepSend i = some service') :
    Offering log service' := by
  have hkept := stepSend_current hsend hstep
  have hanswered := hs.sends_isAnswered (List.mem_of_getElem? hsend)
  obtain ⟨l₁, l₂, send', hsend', hl, -, hcases⟩ := stepSend_cases hstep
  obtain rfl := Option.some.inj (hsend.symm.trans hsend')
  generalize send.stage = stage at hcases
  cases hcases with
  | @assignResponse handler hget _ =>
    have hmoved := h.update { handler with response := send.response } hget rfl Iff.rfl
    exact ⟨hmoved.queued, hmoved.nodup, hmoved.inserted, hmoved.placed, hmoved.arriving,
      hmoved.outstanding⟩
  | @notifyOne handler hget _ phase hphase =>
    have hmoved := h.update { handler with phase := phase } hget rfl (by
      obtain ⟨hwaiting, rfl⟩ | ⟨-, rfl⟩ := hphase
      · simp [hwaiting]
      · exact Iff.rfl)
    exact ⟨hmoved.queued, hmoved.nodup, hmoved.inserted, hmoved.placed, hmoved.arriving,
      hmoved.outstanding⟩
  | eraseCurrent =>
    refine ⟨h.queued, h.nodup, fun take hmem hstage handler hget => ?_, h.placed, h.arriving,
      fun requestId htaken hnot => ?_⟩
    · obtain ⟨other, hother, -, hnot⟩ := h.queued take.ref
        (List.mem_append_right _ (List.mem_map_of_mem hmem))
      obtain rfl := Option.some.inj (hget.symm.trans hother)
      refine hkept _ _ (h.inserted take hmem hstage handler hget) fun heq => hnot ?_
      exact heq ▸ hs.isTaken hanswered
    · obtain ⟨ref, hmem⟩ := h.outstanding requestId htaken hnot
      exact ⟨ref, hkept _ _ hmem fun heq => hnot (heq ▸ hanswered)⟩

end Service

/-! ## The world -/

namespace World

variable (ts : ServiceTypeSupport Req Res) (processOf : ℕ → ℕ)

/-- A thread in `ConsumeResponse` that notifies the handler finds it in the wait. -/
def Noticed (w : World Req Res) : Action Req Res → Prop
  | .send i => ∀ send ∈ w.service.sends[i]?, send.stage = .notifyOne →
      ∀ handler ∈ w.service.handlers[send.ref]?, handler.phase = .waiting
  | _ => True

instance (w : World Req Res) (a : Action Req Res) : Decidable (w.Noticed a) :=
  match a with
  | .send _ => inferInstanceAs (Decidable (∀ _ ∈ _, _ → ∀ _ ∈ _, _))
  | .generateSequenceNumber _ | .generateRequestId | .sendRequest _ _ | .enqueueRequest _ _
  | .onRequest _ | .handler _ | .wake _ | .takeRequest | .take _ | .sendResponse _ _
  | .onResponse _ | .callback _ _ | .takeResponse _ => isTrue trivial

/-- What is asked of the steps. -/
def Prompt (w : World Req Res) (a : Action Req Res) : Prop := w.Regular processOf a ∧ w.Noticed a

instance (w : World Req Res) (a : Action Req Res) : Decidable (w.Prompt processOf a) :=
  inferInstanceAs (Decidable (_ ∧ _))

/-- The invariant. -/
structure Live (w : World Req Res) : Prop where
  /-- Everything comes from somewhere. -/
  inv : Inv ts processOf w
  /-- What handlers put on the queue comes to the executor. -/
  offering : Offering w.log w.service
  /-- Responses come back from there. -/
  returning : Returning w.log w.consumed w.service

section Live

variable {ts} {processOf} {w w' : World Req Res}

/-- **A step keeps the invariant.** -/
theorem Live.step {a : Action Req Res} (h : Live ts processOf w) (hprompt : w.Prompt processOf a)
    (hstep : w.step ts processOf a = some w') : Live ts processOf w' := by
  obtain ⟨hregular, hnoticed⟩ := hprompt
  have hinv := h.inv.step hregular hstep
  have hs := h.inv.serving
  have ho := h.offering
  have hr := h.returning
  cases a with
  | generateSequenceNumber _ | generateRequestId =>
    cases hstep
    exact ⟨hinv, ho, hr⟩
  | sendRequest c request =>
    cases hstep
    exact ⟨hinv, ⟨ho.queued, ho.nodup, ho.inserted, ho.placed, ho.arriving, ho.outstanding⟩,
      ⟨hr.nodup, hr.notifies, hr.notified, hr.consumed⟩⟩
  | enqueueRequest c i =>
    obtain ⟨⟨client, call⟩, -, heq⟩ := Option.bind_eq_some_iff.mp hstep
    cases heq
    exact ⟨hinv, ho, hr⟩
  | onRequest i =>
    obtain ⟨call, -, heq⟩ := Option.bind_eq_some_iff.mp hstep
    cases heq
    have hmod : w.requestIds % 2 ^ 64 = w.requestIds :=
      Nat.mod_eq_of_lt (Nat.lt_trans hregular (by decide))
    rw [hmod] at hinv ⊢
    exact ⟨hinv, ho.onRequest hs call.data, hr.onRequest hs call.data⟩
  | handler ref =>
    obtain ⟨client, -, hstep⟩ := Option.bind_eq_some_iff.mp hstep
    obtain ⟨⟨service, reply⟩, hservice, heq⟩ := Option.bind_eq_some_iff.mp hstep
    cases heq
    exact ⟨hinv, ho.stepHandler hservice, hr.stepHandler hservice⟩
  | wake ref =>
    obtain ⟨service, hservice, -⟩ := Option.bind_eq_some_iff.mp hstep
    obtain ⟨handler, hget, hphase, -⟩ := wake_cases hservice
    exact (hr.consumed ref hregular handler hget (by simp [Phase.Awaits, hphase])).elim
  | takeRequest =>
    obtain ⟨service, hservice, heq⟩ := Option.bind_eq_some_iff.mp hstep
    cases heq
    obtain ⟨ref, pending, -, rfl⟩ := takeRequest_cases hservice
    exact ⟨hinv, ho.takeRequest hservice, ⟨hr.nodup, hr.notifies, hr.notified, hr.consumed⟩⟩
  | take i =>
    obtain ⟨take, htake, hstep⟩ := Option.bind_eq_some_iff.mp hstep
    obtain ⟨handler, hget, hstep⟩ := Option.bind_eq_some_iff.mp hstep
    obtain ⟨client, -, hstep⟩ := Option.bind_eq_some_iff.mp hstep
    obtain ⟨⟨service, taken⟩, hservice, heq⟩ := Option.bind_eq_some_iff.mp hstep
    cases heq
    refine ⟨hinv, ho.stepTake hs htake hget hservice, ?_⟩
    obtain ⟨l₁, l₂, ref, stage, handler, -, -, -, hcases⟩ := stepTake_cases hservice
    cases hcases <;> exact ⟨hr.nodup, hr.notifies, hr.notified, hr.consumed⟩
  | sendResponse response requestId =>
    obtain ⟨service, hservice, heq⟩ := Option.bind_eq_some_iff.mp hstep
    cases heq
    have hnew : ¬ w.log.IsAnswered requestId := fun ⟨answered, hmem, hid⟩ =>
      hregular.2 answered hmem hid
    refine ⟨hinv, ?_, hr.sendResponse hs hnew hservice⟩
    obtain ⟨ref, -, -, rfl⟩ := sendResponse_cases hservice
    refine ⟨ho.queued, ho.nodup, ho.inserted, ho.placed, ho.arriving, fun id htaken hnot => ?_⟩
    refine ho.outstanding id htaken fun ⟨answered, hmem, hid⟩ => hnot ?_
    exact ⟨answered, List.mem_append_left _ hmem, hid⟩
  | send i =>
    obtain ⟨send, hget, hstep⟩ := Option.bind_eq_some_iff.mp hstep
    obtain ⟨service, hservice, heq⟩ := Option.bind_eq_some_iff.mp hstep
    cases heq
    exact ⟨hinv, ho.stepSend hs hget hservice, hr.stepSend hs hget (hnoticed send hget) hservice⟩
  | onResponse i =>
    obtain ⟨reply, -, heq⟩ := Option.bind_eq_some_iff.mp hstep
    cases heq
    exact ⟨hinv, ho, hr⟩
  | callback c i =>
    obtain ⟨⟨client, call⟩, -, heq⟩ := Option.bind_eq_some_iff.mp hstep
    cases heq
    exact ⟨hinv, ho, hr⟩
  | takeResponse c =>
    obtain ⟨⟨client, response⟩, -, heq⟩ := Option.bind_eq_some_iff.mp hstep
    cases heq
    exact ⟨hinv, ho, hr⟩

theorem Live.of_reachable (h : (system ts processOf).Reachable (Prompt processOf) w) :
    Live ts processOf w :=
  h.invariant ⟨inv_fresh, offering_fresh, returning_fresh⟩
    fun _ _ _ hlive hprompt hstep => hlive.step hprompt hstep

/-! ## What it comes to -/

/-- The threads in `SendResponse` that are going to notify a handler. -/
def notifiers (w : World Req Res) (ref : ℕ) : ℕ :=
  w.service.sends.countP fun send => send.ref = ref ∧ send.stage ≠ .eraseCurrent

/-- A request is with the executor. -/
def Executed (w : World Req Res) (handler : Handler) : Prop :=
  w.log.IsTaken handler.requestId ∧ ¬ w.log.IsAnswered handler.requestId

instance (w : World Req Res) (handler : Handler) : Decidable (w.Executed handler) :=
  inferInstanceAs (Decidable (_ ∧ _))

/-- In how many places the request of a handler is: with the handler before it puts it on the queue,
on the queue or with a thread in `TakeRequest`, with the executor, with a thread in `SendResponse`
that is going to notify the handler, and with the handler after it has come out of the wait. -/
def places (w : World Req Res) (ref : ℕ) (handler : Handler) : ℕ :=
  (if handler.phase = .enqueueRequest then 1 else 0) + w.service.offered.count ref +
    (if w.Executed handler then 1 else 0) + w.notifiers ref +
    (if handler.phase.Awaits then 0 else 1)

/-- No request is forgotten, and none is in two places. -/
def AccountedFor (w : World Req Res) : Prop :=
  ∀ ref handler, w.service.handlers[ref]? = some handler → w.places ref handler = 1

/-- Nobody notifies a handler whose request has not been answered. -/
theorem Live.notifiers_eq_zero (h : Live ts processOf w) {ref : ℕ} {handler : Handler}
    (hget : w.service.handlers[ref]? = some handler)
    (hnot : handler.phase.Awaits → ¬ w.log.IsAnswered handler.requestId) : w.notifiers ref = 0 := by
  refine List.countP_eq_zero.mpr fun send hmem hsend => ?_
  obtain ⟨rfl, hstage⟩ : send.ref = ref ∧ send.stage ≠ .eraseCurrent := by simpa using hsend
  obtain ⟨other, hother, hid⟩ := h.inv.serving.sends send hmem
  obtain rfl := Option.some.inj (hget.symm.trans hother)
  refine hnot (h.returning.notifies send hmem hstage handler hget) ?_
  rw [hid]
  exact h.inv.serving.sends_isAnswered hmem

/-- One thread notifies a handler in the wait whose request has been answered. -/
theorem Live.notifiers_eq_one (h : Live ts processOf w) {ref : ℕ} {handler : Handler}
    (hget : w.service.handlers[ref]? = some handler) (hawaits : handler.phase.Awaits)
    (hanswered : w.log.IsAnswered handler.requestId) : w.notifiers ref = 1 := by
  obtain ⟨send, hmem, hsend⟩ := h.returning.notified ref handler hget hawaits hanswered
  have hpos : 0 < w.notifiers ref :=
    List.countP_pos_iff.mpr ⟨send, hmem, by simpa using hsend⟩
  have hle : w.notifiers ref ≤ 1 := calc
    w.notifiers ref ≤ w.service.sends.countP fun send => send.requestId = handler.requestId := by
      refine List.countP_mono_left fun other hother hnotifies => ?_
      obtain ⟨rfl, -⟩ : other.ref = ref ∧ other.stage ≠ .eraseCurrent := by simpa using hnotifies
      obtain ⟨found, hfound, hid⟩ := h.inv.serving.sends other hother
      obtain rfl := Option.some.inj (hget.symm.trans hfound)
      simp [hid]
    _ = (w.service.sends.map Send.requestId).count handler.requestId := by
      rw [List.count, List.countP_map]
      rfl
    _ ≤ 1 := List.nodup_iff_count_le_one.mp h.returning.nodup _
  omega

/-- **Every request is in one place.** -/
theorem Live.accountedFor (h : Live ts processOf w) : w.AccountedFor := by
  intro ref handler hget
  have hs := h.inv.serving
  have hqueued : ref ∈ w.service.offered →
      handler.phase ≠ .enqueueRequest ∧ ¬ w.log.IsTaken handler.requestId := fun hmem => by
    obtain ⟨other, hother, hrest⟩ := h.offering.queued ref hmem
    obtain rfl := Option.some.inj (hget.symm.trans hother)
    exact hrest
  by_cases hawaits : handler.phase.Awaits
  swap
  · -- it has come out of the wait
    have hanswered := hs.isAnswered hget hawaits
    have hnone := List.count_eq_zero_of_not_mem fun hmem =>
      (hqueued hmem).2 (hs.isTaken hanswered)
    have harrived : handler.phase ≠ .enqueueRequest := fun hphase =>
      hawaits (hphase ▸ Phase.awaits_enqueueRequest)
    simp [places, Executed, hanswered, hnone, harrived, hawaits,
      h.notifiers_eq_zero hget hawaits.elim]
  by_cases htaken : w.log.IsTaken handler.requestId
  · have hnone := List.count_eq_zero_of_not_mem fun hmem => (hqueued hmem).2 htaken
    have harrived : handler.phase ≠ .enqueueRequest := fun hphase =>
      h.offering.arriving ref handler hget hphase htaken
    by_cases hanswered : w.log.IsAnswered handler.requestId
    · simp [places, Executed, hanswered, hnone, harrived, hawaits,
        h.notifiers_eq_one hget hawaits hanswered]
    · simp [places, Executed, htaken, hanswered, hnone, harrived, hawaits,
        h.notifiers_eq_zero hget fun _ => hanswered]
  -- the executor has not heard of it
  have hzero := h.notifiers_eq_zero hget fun _ => mt hs.isTaken htaken
  by_cases hphase : handler.phase = .enqueueRequest
  · have hnone := List.count_eq_zero_of_not_mem fun hmem => (hqueued hmem).1 hphase
    simp [places, Executed, htaken, hnone, hphase, hzero, Phase.awaits_enqueueRequest]
  · have hmem := (h.offering.placed ref handler hget hphase).resolve_right htaken
    have hone := List.count_eq_one_of_mem h.offering.nodup hmem
    simp [places, Executed, htaken, hone, hphase, hzero, hawaits]

/-- **A notification that comes too early is lost**, and its handler with it. -/
theorem Live.not_accountedFor (h : Live ts processOf w) {a : Action Req Res}
    (hnoticed : ¬ w.Noticed a) (hstep : w.step ts processOf a = some w') :
    ¬ w'.AccountedFor := by
  cases a with
  | send i =>
    simp only [Noticed, Option.mem_def, not_forall] at hnoticed
    obtain ⟨send, hsend, hstage, handler, hget, hwaiting⟩ := hnoticed
    obtain ⟨_, -, hstep⟩ := Option.bind_eq_some_iff.mp hstep
    obtain ⟨service, hservice, heq⟩ := Option.bind_eq_some_iff.mp hstep
    obtain ⟨hservice', hlog⟩ : w'.service = service ∧ w'.log = w.log := by
      cases heq
      exact ⟨rfl, rfl⟩
    obtain ⟨l₁, l₂, send', hsend', hl, -, hcases⟩ := stepSend_cases hservice
    obtain rfl := Option.some.inj (hsend.symm.trans hsend')
    rw [hstage] at hcases
    cases hcases with
    | @notifyOne handler' hget' _ phase hphase =>
      obtain rfl := Option.some.inj (hget.symm.trans hget')
      obtain ⟨hwait, -⟩ | ⟨-, rfl⟩ := hphase
      · exact (hwaiting hwait).elim
      -- the handler is where it was, and nobody is going to notify it any more
      have hfewer : w.notifiers send.ref = w'.notifiers send.ref + 1 := by
        simp [notifiers, hservice', hl, hstage, Nat.add_assoc]
      have hsame : w'.service.offered = w.service.offered := by rw [hservice']; rfl
      intro haccounted
      have hafter := haccounted send.ref handler (by
        rw [hservice']
        exact (getElem?_update hget).mpr (.inl ⟨rfl, rfl⟩))
      have hbefore := h.accountedFor send.ref handler hget
      have hexecuted : (if w'.Executed handler then 1 else 0) =
          if w.Executed handler then 1 else 0 := if_congr (by simp [Executed, hlog]) rfl rfl
      rw [places, hsame, hexecuted] at hafter
      rw [places] at hbefore
      omega
  | _ => exact (hnoticed trivial).elim

/-- What is with the executor can be found under its id. -/
theorem Live.lookup (h : Live ts processOf w) {ref : ℕ} {handler : Handler}
    (hget : w.service.handlers[ref]? = some handler) (hexecuted : w.Executed handler) :
    w.service.current.lookup handler.requestId = some ref := by
  obtain ⟨ref', hmem⟩ := h.offering.outstanding _ hexecuted.1 hexecuted.2
  obtain ⟨found, hlookup⟩ := Option.isSome_iff_exists.mp
    (List.lookup_isSome_iff.mpr ⟨_, hmem, beq_self_eq_true _⟩)
  obtain ⟨l₁, l₂, hl, -⟩ := List.lookup_eq_some_iff.mp hlookup
  obtain ⟨other, hother, hid⟩ := h.inv.serving.current (handler.requestId, found) (by simp [hl])
  rw [hlookup, h.inv.serving.ids_inj ref found handler other hget hother hid.symm]

end Live

end World

end Whereabouts

end RmwEcal
