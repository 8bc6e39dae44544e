import RmwEcal.Shared.Buffers
import RmwEcal.Shared.Subscriber

/-!
# From `new` to `delete`

With addresses for pointers the program does what it would do if a pointer were the bytes it points
to (`exec_byAddress`), since no address is held twice and every one that is held leads somewhere.

The buffers that nobody holds are the ones that were lost on the way, and `leaked` counts them: by a
type support that throws, by a `Client` that is destroyed with responses on its queue, by messages
that arrive when `~Subscriber` has been through `CleanupData`, and by serialized messages that are
filled again before the application is done with them.  Nothing will ever delete these, and all the
others can be deleted at any time (`deletable_iff`).
-/

set_option autoImplicit false

namespace RmwEcal

open Transition Qos

namespace Buffers

variable {β μ : Type}

/-! ## What is held -/

/-- All the buffers somebody has. -/
def State.held (s : State μ β) : List β := s.holders.flatMap Holder.held

section Holders

variable {holders : List (Holder β)} {h m : Holder β} {i k : ℕ}

/-- What somebody has, and what the others have. -/
theorem exists_others (hh : holders[i]? = some h) : ∃ others : List β,
    (holders.flatMap Holder.held).Perm (h.held ++ others) ∧
      ∀ h', ((holders.set i h').flatMap Holder.held).Perm (h'.held ++ others) := by
  obtain ⟨l₁, l₂, rfl, -, hset, -⟩ := exists_split hh
  have hperm : ∀ h' : Holder β, ((l₁ ++ h' :: l₂).flatMap Holder.held).Perm
      (h'.held ++ (l₁.flatMap Holder.held ++ l₂.flatMap Holder.held)) := fun h' => by
    rw [List.flatMap_append, List.flatMap_cons]
    exact List.perm_append_comm_assoc ..
  exact ⟨_, hperm h, fun h' => (hset h').symm ▸ hperm h'⟩

theorem held_subset (hh : holders[i]? = some h) : h.held ⊆ holders.flatMap Holder.held :=
  fun _ hb => List.mem_flatMap.mpr ⟨h, List.mem_of_getElem? hh, hb⟩

open scoped List in
/-- One of them has some buffers less, or others. -/
theorem perm_set {h' : Holder β} (more less : List β) (hh : holders[i]? = some h)
    (hperm : (more ++ h.held).Perm (less ++ h'.held)) :
    (more ++ holders.flatMap Holder.held).Perm
      (less ++ (holders.set i h').flatMap Holder.held) := by
  obtain ⟨others, hbefore, hafter⟩ := exists_others hh
  calc more ++ holders.flatMap Holder.held
    _ ~ more ++ (h.held ++ others) := hbefore.append_left more
    _ = (more ++ h.held) ++ others := (List.append_assoc ..).symm
    _ ~ (less ++ h'.held) ++ others := hperm.append_right others
    _ = less ++ (h'.held ++ others) := List.append_assoc ..
    _ ~ less ++ (holders.set i h').flatMap Holder.held := ((hafter h').append_left less).symm

/-- One of them is at work. -/
theorem perm_work {w : Work} {out : Outcome β} (hh : holders[i]? = some h)
    (hwork : h.work w = some out) : ∃ forgotten : List β, forgotten.length = h.loses w ∧
      (holders.flatMap Holder.held).Perm
        (out.deletes ++ (forgotten ++ (holders.set i out.holder).flatMap Holder.held)) := by
  obtain ⟨forgotten, hlength, hperm⟩ := Holder.work_held hwork
  rw [← List.append_assoc] at hperm
  refine ⟨forgotten, hlength, ?_⟩
  rw [← List.append_assoc]
  exact perm_set [] (out.deletes ++ forgotten) hh hperm

end Holders

/-! ## One step -/

section Step

variable {s s' : State (Heap (List UInt8)) ℕ} {a : Action}

/-- Somebody gets a buffer that is new. -/
theorem effect_new {heap : Heap (List UInt8)} {holders : List (Holder ℕ)} {h h' : Holder ℕ}
    {i : ℕ} {bytes : List UInt8} (hh : holders[i]? = some h) {forgotten : List ℕ}
    (hperm : (heap.next :: h.held).Perm (forgotten ++ h'.held)) :
    Effect heap (holders.flatMap Holder.held) (heap.alloc bytes).1
      ((holders.set i h').flatMap Holder.held) forgotten.length :=
  .creates bytes (perm_set [heap.next] forgotten hh hperm)

/-- Somebody comes who has none. -/
theorem effect_join {heap : Heap (List UInt8)} {holders : List (Holder ℕ)} {h : Holder ℕ}
    (hheld : h.held = []) :
    Effect heap (holders.flatMap Holder.held) heap ((holders ++ [h]).flatMap Holder.held) 0 := by
  have hsame : (holders ++ [h]).flatMap Holder.held = holders.flatMap Holder.held := by
    rw [List.flatMap_append, List.flatMap_singleton, hheld, List.append_nil]
  rw [hsame]
  exact @Effect.deletes _ heap _ heap _ [] [] rfl (.refl _)

/-- What takes a message and what is filled with it are not the same. -/
theorem ne_of_takeSerialized {holders : List (Holder β)} {h h' m m' : Holder β} {i j k : ℕ}
    {data : β} (hh : holders[i]? = some h) (hm : holders[k]? = some m)
    (htake : h.takeLatestSerializedData j = some (data, h')) (hassign : m.assign data = some m') :
    i ≠ k := by
  rintro rfl
  obtain rfl := Option.some.inj (hh.symm.trans hm)
  cases h with
  | serializedMessage => cases htake
  | _ => cases hassign

/-- **What a step does to the heap and to what is held.** -/
theorem effect_step (hstep : step byAddress s a = some s') :
    Effect s.memory s.held s'.memory s'.held (loses s a) := by
  cases a with
  | construct kind =>
    cases hstep
    exact effect_join rfl
  | initMessage =>
    cases hstep
    exact effect_join rfl
  | saveData i bytes =>
    obtain ⟨h, hh, hstep⟩ := Option.bind_eq_some_iff.mp hstep
    obtain ⟨h', hsave, heq⟩ := Option.bind_eq_some_iff.mp hstep
    cases heq
    obtain ⟨forgotten, hlength, hperm⟩ := Holder.save_held hsave
    rw [loses, hh, Option.map_some, Option.getD_some, ← hlength]
    exact effect_new hh hperm
  | serialize k bytes =>
    obtain ⟨h, hh, hstep⟩ := Option.bind_eq_some_iff.mp hstep
    obtain ⟨h', hassign, heq⟩ := Option.bind_eq_some_iff.mp hstep
    cases heq
    obtain ⟨forgotten, hlength, hperm⟩ := Holder.assign_held hassign
    rw [loses, hh, Option.map_some, Option.getD_some, ← hlength]
    exact effect_new hh hperm
  | takeSerialized i j k =>
    obtain ⟨h, hh, hstep⟩ := Option.bind_eq_some_iff.mp hstep
    obtain ⟨⟨data, h'⟩, htake, hstep⟩ := Option.bind_eq_some_iff.mp hstep
    obtain ⟨m, hm, hstep⟩ := Option.bind_eq_some_iff.mp hstep
    obtain ⟨m', hassign, heq⟩ := Option.bind_eq_some_iff.mp hstep
    cases heq
    obtain ⟨forgotten, hlength, hperm⟩ := Holder.assign_held hassign
    have hm' : (s.holders.set i h')[k]? = some m := by
      rw [List.getElem?_set_ne (ne_of_takeSerialized hh hm htake hassign), hm]
    have hfirst := perm_set [] [data] hh (Holder.takeLatestSerializedData_held htake)
    have hall := hfirst.trans (perm_set [data] forgotten hm' hperm)
    rw [loses, hm, Option.map_some, Option.getD_some, ← hlength]
    exact @Effect.deletes _ s.memory _ s.memory _ [] forgotten rfl hall
  | work i w =>
    obtain ⟨h, hh, hstep⟩ := Option.bind_eq_some_iff.mp hstep
    obtain ⟨out, hwork, hstep⟩ := Option.bind_eq_some_iff.mp hstep
    obtain ⟨bytes, -, hstep⟩ := Option.bind_eq_some_iff.mp hstep
    obtain ⟨memory, hdelete, heq⟩ := Option.bind_eq_some_iff.mp hstep
    cases heq
    obtain ⟨forgotten, hlength, hperm⟩ := perm_work hh hwork
    rw [loses, hh, Option.map_some, Option.getD_some, ← hlength]
    exact .deletes hdelete hperm

end Step

/-! ## Addresses and values -/

/-- The bytes at an address. -/
def bytesAt (heap : Heap (List UInt8)) (a : ℕ) : List UInt8 := (heap.get? a).getD []

/-- What it looks like if the pointers are what they point to. -/
def State.values (s : State (Heap (List UInt8)) ℕ) : State Unit (List UInt8) :=
  ⟨(), s.holders.map (Holder.map (bytesAt s.memory)), s.seen⟩

section Values

variable {s s' : State (Heap (List UInt8)) ℕ} {a : Action} {heap heap' : Heap (List UInt8)}
  {holders : List (Holder ℕ)}

/-- Only what is held matters. -/
theorem map_holders_congr {f g : ℕ → List UInt8}
    (hfg : ∀ a ∈ holders.flatMap Holder.held, f a = g a) :
    holders.map (Holder.map f) = holders.map (Holder.map g) :=
  List.map_congr_left fun h hh =>
    Holder.map_congr fun a ha => hfg a (List.mem_flatMap.mpr ⟨h, hh, ha⟩)

theorem bytesAt_new (hown : Owned heap (holders.flatMap Holder.held)) {bytes : List UInt8} :
    ∀ a ∈ holders.flatMap Holder.held, bytesAt heap a = bytesAt (heap.alloc bytes).1 a := by
  intro a ha
  rw [bytesAt, bytesAt, Heap.get?_alloc, Function.update_of_ne (Nat.ne_of_lt (hown.lt_next ha))]

theorem bytesAt_next {bytes : List UInt8} : bytesAt (heap.alloc bytes).1 heap.next = bytes := by
  rw [bytesAt, Heap.get?_alloc, Function.update_self, Option.getD_some]

theorem mapM_get? {as : List ℕ} (hthere : ∀ a ∈ as, (heap.get? a).isSome) :
    as.mapM heap.get? = some (as.map (bytesAt heap)) := by
  induction as with
  | nil => rfl
  | cons a as ih =>
    obtain ⟨bytes, hbytes⟩ := Option.isSome_iff_exists.mp (hthere a (.head _))
    rw [List.mapM_cons, hbytes, ih fun b hb => hthere b (.tail _ hb), List.map_cons, bytesAt,
      hbytes]
    rfl

/-- Somebody gets a buffer that is new: a function that makes nothing of what is in it does the
same with the address and with the bytes. -/
theorem new_values (hown : Owned s.memory s.held) (i : ℕ) (bytes : List UInt8)
    {receive : ℕ → Holder ℕ → Option (Holder ℕ)}
    {receive' : List UInt8 → Holder (List UInt8) → Option (Holder (List UInt8))}
    (hmap : ∀ f h data, receive' (f data) (Holder.map f h) = (receive data h).map (Holder.map f)) :
    (s.holders[i]?.bind fun h => (receive s.memory.next h).bind fun h =>
        some (⟨(s.memory.alloc bytes).1, s.holders.set i h, s.seen⟩ : State _ _)).map State.values =
      s.values.holders[i]?.bind fun h => (receive' bytes h).bind fun h =>
        some ⟨(), s.values.holders.set i h, s.seen⟩ := by
  have hsame : s.values.holders = s.holders.map (Holder.map (bytesAt (s.memory.alloc bytes).1)) :=
    map_holders_congr (bytesAt_new hown)
  rw [hsame, List.getElem?_map]
  cases s.holders[i]? with
  | none => rfl
  | some h =>
    have hreceive := hmap (bytesAt (s.memory.alloc bytes).1) h s.memory.next
    rw [bytesAt_next] at hreceive
    rw [Option.map_some, Option.bind_some, Option.bind_some, hreceive]
    cases receive s.memory.next h with
    | none => rfl
    | some h' => simp [State.values, List.map_set]

theorem bytesAt_deleteAll {as : List ℕ} {a : ℕ} (hdelete : heap.deleteAll as = some heap')
    (hthere : (heap'.get? a).isSome) : bytesAt heap' a = bytesAt heap a := by
  obtain ⟨-, hget, -⟩ := Heap.deleteAll_cases hdelete
  rw [hget] at hthere
  split_ifs at hthere with ha
  · cases hthere
  · rw [bytesAt, bytesAt, hget, if_neg ha]

/-- What is read and deleted then is there. -/
theorem exists_memory {i : ℕ} {h : Holder ℕ} {w : Work} {out : Outcome ℕ}
    (hown : Owned s.memory s.held) (hh : s.holders[i]? = some h) (hwork : h.work w = some out) :
    ∃ memory, out.reads.mapM s.memory.get? = some (out.reads.map (bytesAt s.memory)) ∧
      s.memory.deleteAll out.deletes = some memory ∧
      Owned memory ((s.holders.set i out.holder).flatMap Holder.held) := by
  obtain ⟨forgotten, -, hperm⟩ := perm_work hh hwork
  have hnodup := (hperm.nodup_iff.mp hown.nodup).of_append_left
  obtain ⟨memory, hdelete⟩ := Heap.exists_deleteAll hnodup fun a ha =>
    hown.there a (hperm.mem_iff.mpr (List.mem_append_left _ ha))
  refine ⟨memory, mapM_get? fun a ha => ?_, hdelete, hown.effect (.deletes hdelete hperm)⟩
  exact hown.there a (held_subset hh (Holder.reads_held hwork ha))

theorem work_values {i : ℕ} {h : Holder ℕ} {w : Work} {out : Outcome ℕ}
    (hown : Owned s.memory s.held) (hh : s.holders[i]? = some h) (hwork : h.work w = some out) :
    ((out.reads.mapM s.memory.get?).bind fun bytes => (s.memory.deleteAll out.deletes).bind
        fun memory => some (⟨memory, s.holders.set i out.holder, s.seen ++ bytes.map (i, ·)⟩ :
          State _ _)).map State.values =
      ((out.map (bytesAt s.memory)).reads.mapM some).bind fun bytes => some ⟨(),
        s.values.holders.set i (out.map (bytesAt s.memory)).holder,
        s.seen ++ bytes.map (i, ·)⟩ := by
  obtain ⟨memory, hreads, hdelete, hown'⟩ := exists_memory hown hh hwork
  rw [hreads, hdelete]
  have hvalues : (out.map (bytesAt s.memory)).reads.mapM some =
      some ((out.map (bytesAt s.memory)).reads.map id) := List.mapM_pure
  have hsame := map_holders_congr fun a ha => bytesAt_deleteAll hdelete (hown'.there a ha)
  rw [hvalues]
  simp [State.values, hsame, List.map_set, Outcome.map]

/-- **A step with addresses is a step with values**, and there is the one if there is the other. -/
theorem step_values (hown : Owned s.memory s.held) (a : Action) :
    (step byAddress s a).map State.values = step byValue s.values a := by
  have hvalues : s.values.holders = s.holders.map (Holder.map (bytesAt s.memory)) := rfl
  cases a with
  | construct kind => simp [step, State.values, Holder.construct, Holder.map]
  | initMessage => simp [step, State.values, Holder.map]
  | saveData i bytes => exact new_values hown i bytes Holder.save_map
  | serialize k bytes => exact new_values hown k bytes Holder.assign_map
  | takeSerialized i j k =>
    show (s.holders[i]?.bind _).map _ = s.values.holders[i]?.bind _
    rw [hvalues, List.getElem?_map]
    cases s.holders[i]? with
    | none => rfl
    | some h =>
      show ((h.takeLatestSerializedData j).bind _).map _ =
        (Holder.takeLatestSerializedData j _).bind _
      rw [Holder.takeLatestSerializedData_map]
      cases h.takeLatestSerializedData j with
      | none => rfl
      | some taken =>
        show (s.holders[k]?.bind _).map _ = s.values.holders[k]?.bind _
        rw [hvalues, List.getElem?_map]
        cases s.holders[k]? with
        | none => rfl
        | some m =>
          show ((m.assign taken.1).bind _).map _ = (Holder.assign _ _).bind _
          rw [Holder.assign_map]
          cases m.assign taken.1 with
          | none => rfl
          | some m' => simp [State.values, List.map_set]
  | work i w =>
    show (s.holders[i]?.bind _).map _ = s.values.holders[i]?.bind _
    rw [hvalues, List.getElem?_map]
    cases hh : s.holders[i]? with
    | none => rfl
    | some h =>
      show ((h.work w).bind _).map _ = (Holder.work _ w).bind _
      rw [Holder.work_map]
      cases hwork : h.work w with
      | none => rfl
      | some out => exact work_values hown hh hwork

end Values

/-! ## Runs -/

/-- Nothing that is held is deleted, and nothing is held twice. -/
def custody : Custody (State (Heap (List UInt8)) ℕ) Action (List UInt8) where
  toSystem := system byAddress
  heap := State.memory
  held := State.held
  forgets := loses
  heap_init := rfl
  held_init := rfl
  effect := effect_step

section Runs

variable {s s' : State (Heap (List UInt8)) ℕ} {as : List Action} {a : ℕ} {bytes : List UInt8}

/-- **The program does with the addresses of its buffers what it would do with the bytes**, in
every run: it does not use or delete a buffer that has been deleted, nothing is read but what was
saved, and what it does is defined if it would be defined for bytes. -/
theorem exec_byAddress (as : List Action) :
    ((system byAddress).exec System.any (system byAddress).init as).map State.values =
      (system byValue).exec System.any (system byValue).init as :=
  System.exec_map (P := fun s => Owned s.memory s.held)
    (fun _ _ _ hown hstep => hown.effect (effect_step hstep)) (fun _ a hown => step_values hown a)
    owned_empty as

/-- **There are as many buffers as are held and were lost on the way**, and what is held are
buffers, each of them once. -/
theorem leaked (hrun : (system byAddress).exec System.any (system byAddress).init as = some s) :
    Owned s.memory s.held ∧
      s.memory.size = s.held.length + (system byAddress).total loses (system byAddress).init as :=
  ⟨custody.owned (System.reachable_of_exec as hrun), custody.balance hrun⟩

/-- A response is queued and its client destroyed, a serialized message is filled twice, a type
support throws, and a message arrives when `~Subscriber` has cleaned up. -/
def lossyRun : List Action :=
  [.construct .subscriber, .construct .client, .initMessage,
    .saveData 0 [1, 2], .work 0 (.enqueueData 0), .saveData 1 [3], .work 1 (.enqueueData 0),
    .work 1 .destroy, .work 0 .popData, .takeSerialized 0 0 2, .serialize 2 [4],
    .saveData 0 [5], .work 0 (.enqueueData 0), .work 0 .popData, .work 0 (.deserialize 0 true),
    .work 0 .cleanupData, .saveData 0 [6]]

theorem leaked_lossyRun : ∃ s,
    (system byAddress).exec System.any (system byAddress).init lossyRun = some s ∧
      s.held = [2] ∧ Owned s.memory s.held ∧ s.memory.size = 1 + 4 := by
  have hrun : (system byAddress).exec System.any (system byAddress).init lossyRun = some _ := rfl
  exact ⟨_, hrun, rfl, leaked hrun⟩

end Runs

/-! ## The queue of a subscriber -/

/-- What is done with values can be done with addresses. -/
theorem exists_reachable {v : State Unit (List UInt8)}
    (hr : (system byValue).Reachable System.any v) :
    ∃ s, (system byAddress).Reachable System.any s ∧ s.values = v := by
  induction hr with
  | init => exact ⟨_, .init, rfl⟩
  | @step v v' a _ hok hstep ih =>
    obtain ⟨s, hr, rfl⟩ := ih
    have hvalues := step_values (custody.owned hr) a
    obtain ⟨s', hs', rfl⟩ := Option.map_eq_some_iff.mp (hvalues.trans hstep)
    exact ⟨s', hr.step hok hs', rfl⟩

/-- The callbacks of a subscriber that are to queue their copy yet. -/
def savedBy (callbacks : List Subscriber.Callback) : List (List UInt8) :=
  (callbacks.filter fun c => c.stage = .enqueueData).map fun c => c.latestData.data

/-- A copy is made, or one is queued, or a callback that has queued its copy ends. -/
theorem savedBy_cases {s s' : Subscriber} {b : Subscriber.Action} (hstep : s.step b = some s') :
    (∃ buf, savedBy s'.callbacks = savedBy s.callbacks ++ [buf] ∧ s'.data = s.data) ∨
      (∃ j d, (savedBy s.callbacks)[j]? = some d.data ∧
        savedBy s'.callbacks = (savedBy s.callbacks).eraseIdx j ∧ s'.data = s.data ++ [d]) ∨
      (savedBy s'.callbacks = savedBy s.callbacks ∧ s'.data = s.data) := by
  cases b with
  | onReceiveData buf time microSeconds =>
    cases hstep
    exact .inl ⟨buf, by simp [savedBy], rfl⟩
  | callback i =>
    obtain ⟨⟨stage, latestData⟩, hget, hstep⟩ := Option.bind_eq_some_iff.mp hstep
    obtain ⟨l₁, l₂, hcallbacks, -, hset, herase, -⟩ := exists_split hget
    cases stage with
    | enqueueData =>
      cases hstep
      refine .inr (.inl ⟨(savedBy l₁).length, latestData, ?_, ?_, rfl⟩)
      · simp [savedBy, hcallbacks]
      · rw [hset]
        simp [savedBy, hcallbacks, List.eraseIdx_append_of_length_le]
    | notifyWaitSet =>
      cases hstep
      refine .inr (.inr ⟨?_, rfl⟩)
      rw [herase]
      simp [savedBy, hcallbacks]

theorem callbacks_popData {s s' : Subscriber} {d : Subscriber.Data}
    (hpop : s.popData = some (s', d)) : s'.callbacks = s.callbacks := by
  cases hdata : s.data with
  | nil =>
    rw [Subscriber.popData, hdata] at hpop
    cases hpop
  | cons latestData data =>
    rw [Subscriber.popData, hdata] at hpop
    cases hpop
    rfl

/-- The buffers of a subscriber, and what has been taken from it. -/
def ofLedger (l : Mailbox.Ledger Subscriber Subscriber.Data) : State Unit (List UInt8) :=
  ⟨(), [.endpoint .subscriber
      ⟨savedBy l.inner.callbacks, l.inner.data.map Subscriber.Data.data, []⟩],
    l.handed.map fun d => (0, d.data)⟩

/-- **A subscriber does with its buffers what it does with messages**, until they are destroyed. -/
theorem exists_reachable_of_ledger {qos : EndpointQOS}
    {l : Mailbox.Ledger Subscriber Subscriber.Data}
    (hr : (Subscriber.mailbox qos).ledger.Reachable System.any l) :
    ∃ s, (system byAddress).Reachable System.any s ∧ s.values = ofLedger l := by
  refine exists_reachable ?_
  induction hr with
  | init => exact .step (a := .construct .subscriber) .init trivial rfl
  | @step l l' a _ _ hstep ih =>
    cases a with
    | work b =>
      obtain ⟨inner, hinner, heq⟩ := Option.bind_eq_some_iff.mp hstep
      cases heq
      obtain ⟨buf, hsaved, hdata⟩ | ⟨j, d, hd, hsaved, hdata⟩ | ⟨hsaved, hdata⟩ :=
        savedBy_cases hinner
      · refine ih.step (a := .saveData 0 buf) trivial ?_
        simp [system, step, byValue, ofLedger, Holder.save, hsaved, hdata]
      · refine ih.step (a := .work 0 (.enqueueData j)) trivial ?_
        simp [system, step, byValue, ofLedger, Holder.work, hd, hsaved, hdata]
      · simpa [ofLedger, hsaved, hdata] using ih
    | take =>
      obtain ⟨inner, d, hpop, -, rfl⟩ := Mailbox.take_cases hstep
      obtain ⟨hdata, -⟩ := Subscriber.popData_cases hpop
      have hpopped : (system byValue).step (ofLedger l) (.work 0 .popData) =
          some ⟨(), [.endpoint .subscriber
            ⟨savedBy l.inner.callbacks, inner.data.map Subscriber.Data.data, [d.data]⟩],
            l.handed.map fun d => (0, d.data)⟩ := by
        simp [system, step, byValue, ofLedger, Holder.work, hdata]
      refine (ih.step trivial hpopped).step (a := .work 0 (.deserialize 0 false)) trivial ?_
      simp [system, step, byValue, ofLedger, Holder.work, callbacks_popData hpop]

/-! ## What can still be deleted -/

/-- There is a way to go on after which the buffer has been deleted. -/
def Deletable (s : State (Heap (List UInt8)) ℕ) (a : ℕ) : Prop :=
  ∃ as s', (system byAddress).exec System.any s as = some s' ∧ s'.memory.get? a = none

section Deletable

variable {s s' : State (Heap (List UInt8)) ℕ} {h : Holder ℕ} {i j a : ℕ} {w : Work}
  {out : Outcome ℕ}

theorem Deletable.step {act : Action} (hlater : Deletable s' a)
    (hstep : step byAddress s act = some s') : Deletable s a := by
  obtain ⟨as, t, hrun, ht⟩ := hlater
  refine ⟨act :: as, t, ?_, ht⟩
  rw [System.exec_any_cons]
  exact Option.bind_eq_some_iff.mpr ⟨s', hstep, hrun⟩

/-- A function can always do its work. -/
theorem exists_work (hown : Owned s.memory s.held) (hh : s.holders[i]? = some h)
    (hwork : h.work w = some out) : ∃ s', step byAddress s (.work i w) = some s' ∧
      Owned s'.memory s'.held ∧ s'.holders = s.holders.set i out.holder ∧
      ∀ a ∈ out.deletes, s'.memory.get? a = none := by
  obtain ⟨memory, hreads, hdelete, hown'⟩ := exists_memory hown hh hwork
  refine ⟨⟨memory, s.holders.set i out.holder, _⟩, Option.bind_eq_some_iff.mpr ⟨h, hh,
    Option.bind_eq_some_iff.mpr ⟨out, hwork, Option.bind_eq_some_iff.mpr ⟨_, hreads,
    Option.bind_eq_some_iff.mpr ⟨memory, hdelete, rfl⟩⟩⟩⟩, hown', rfl, fun a ha => ?_⟩
  obtain ⟨-, hget, -⟩ := Heap.deleteAll_cases hdelete
  rw [hget, if_pos ha]

theorem deletable_of_work (hown : Owned s.memory s.held) (hh : s.holders[i]? = some h)
    (hwork : h.work w = some out) (ha : a ∈ out.deletes) : Deletable s a := by
  obtain ⟨s', hstep, -, -, hgone⟩ := exists_work hown hh hwork
  exact .step ⟨[], s', rfl, hgone a ha⟩ hstep

/-- What has been popped is deleted by the take. -/
theorem deletable_of_popped {kind : Kind} {e : Endpoint ℕ} (hown : Owned s.memory s.held)
    (hh : s.holders[i]? = some (.endpoint kind e)) (ha : a ∈ e.popped) : Deletable s a := by
  obtain ⟨j, hj⟩ := List.mem_iff_getElem?.mp ha
  have hwork : (Holder.endpoint kind e).work (.deserialize j false) =
      some ⟨[a], [a], .endpoint kind { e with popped := e.popped.eraseIdx j }⟩ :=
    Option.bind_eq_some_iff.mpr ⟨a, hj, rfl⟩
  exact deletable_of_work hown hh hwork (.head _)

/-- What is on the queue is popped when everything before it has been. -/
theorem deletable_of_queue {kind : Kind} {saved queue popped : List ℕ}
    (hown : Owned s.memory s.held)
    (hh : s.holders[i]? = some (.endpoint kind ⟨saved, queue, popped⟩)) (ha : a ∈ queue) :
    Deletable s a := by
  induction queue generalizing s popped with
  | nil => cases ha
  | cons data queue ih =>
    obtain ⟨s', hstep, hown', hholders, -⟩ := exists_work (w := .popData) hown hh rfl
    have hh' : s'.holders[i]? = some (.endpoint kind ⟨saved, queue, popped ++ [data]⟩) := by
      rw [hholders, List.getElem?_set_self (List.getElem?_eq_some_iff.mp hh).1]
    refine .step ?_ hstep
    obtain rfl | ha := List.mem_cons.mp ha
    · exact deletable_of_popped hown' hh' (by simp)
    · exact ih hown' hh' ha

/-- **A buffer that somebody has can be deleted.** -/
theorem deletable_of_held (hown : Owned s.memory s.held) (ha : a ∈ s.held) :
    Deletable s a := by
  obtain ⟨h, hh, ha⟩ := List.mem_flatMap.mp ha
  obtain ⟨i, hh⟩ := List.mem_iff_getElem?.mp hh
  cases h with
  | endpoint kind e =>
    obtain ⟨saved, queue, popped⟩ := e
    obtain ha | ha := List.mem_append.mp ha
    · -- the callback queues it first
      obtain ⟨j, hj⟩ := List.mem_iff_getElem?.mp ha
      have hwork : (Holder.endpoint kind ⟨saved, queue, popped⟩).work (.enqueueData j) =
          some ⟨[], [], .endpoint kind ⟨saved.eraseIdx j, queue ++ [a], popped⟩⟩ :=
        Option.bind_eq_some_iff.mpr ⟨a, hj, rfl⟩
      obtain ⟨s', hstep, hown', hholders, -⟩ := exists_work hown hh hwork
      have hh' : s'.holders[i]? =
          some (.endpoint kind ⟨saved.eraseIdx j, queue ++ [a], popped⟩) := by
        rw [hholders, List.getElem?_set_self (List.getElem?_eq_some_iff.mp hh).1]
      exact .step (deletable_of_queue hown' hh' (by simp)) hstep
    · obtain ha | ha := List.mem_append.mp ha
      · exact deletable_of_queue hown hh ha
      · exact deletable_of_popped hown hh ha
  | serializedMessage buffer => exact deletable_of_work (w := .fini) hown hh rfl ha
  | _ => cases ha

/-- **A buffer can be deleted as long as somebody has it**, who is the only one, and never when it
has been lost: it stays, with what is in it. -/
theorem deletable_iff (hr : (system byAddress).Reachable System.any s)
    (ha : (s.memory.get? a).isSome) : Owned s.memory s.held ∧ (Deletable s a ↔ a ∈ s.held) ∧
      (a ∉ s.held → ∀ as s', (system byAddress).exec System.any s as = some s' →
        s'.memory.get? a = s.memory.get? a ∧ a ∉ s'.held) := by
  obtain ⟨bytes, hbytes⟩ := Option.isSome_iff_exists.mp ha
  have hstays : a ∉ s.held → ∀ as s', (system byAddress).exec System.any s as = some s' →
      s'.memory.get? a = some bytes ∧ a ∉ s'.held :=
    fun hlost as s' hrun => custody.lost_forever hbytes hlost hrun
  refine ⟨custody.owned hr, ⟨?_, deletable_of_held (custody.owned hr)⟩, hbytes ▸ hstays⟩
  rintro ⟨as, s', hrun, hgone⟩
  by_contra hlost
  exact Option.some_ne_none bytes ((hstays hlost as s' hrun).1.symm.trans hgone)

theorem deletable_lossyRun : ∃ s,
    (system byAddress).exec System.any (system byAddress).init lossyRun = some s ∧
      Deletable s 2 ∧ ¬ Deletable s 0 := by
  have hrun : (system byAddress).exec System.any (system byAddress).init lossyRun = some _ := rfl
  have hr := System.reachable_of_exec lossyRun hrun
  exact ⟨_, hrun, (deletable_iff hr rfl).2.1.mpr (.head _), fun hlater =>
    absurd ((deletable_iff hr rfl).2.1.mp hlater) (by decide)⟩

end Deletable

end Buffers

end RmwEcal
