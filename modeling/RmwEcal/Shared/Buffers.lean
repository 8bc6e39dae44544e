import Mathlib.Data.List.InsertIdx
import RmwEcal.Transition.Custody

/-!
# The buffers of the messages

A serialized message that arrives is copied into a buffer of its own (`SaveData`, or
`EnqueueResponse` for a response), the pointer to which is queued, popped, and passed to a type
support, whereupon the buffer is deleted; or it is handed over to a serialized message of the
application.  Nothing but these pointers says that the buffer is there.

`step` is what the functions do to the buffers, for any kind of memory.  With the memory of the
program (`byAddress`) a pointer is the address of an object, that may have been deleted; with the
other one (`byValue`) it is the bytes themselves, so that nothing can go wrong with it.  The two do
the same (`exec_byAddress`): no buffer is used when it has been deleted, none is deleted twice, and
what is read is what was saved.

What is not deleted in time stays for good, and `leaked` says how much that is.
-/

set_option autoImplicit false

namespace RmwEcal

open Transition

namespace Buffers

/-! ## Who has buffers -/

/-- What has a queue of buffers. -/
inductive Kind where
  | subscriber | client
  deriving DecidableEq, Repr

/-- The buffers of a `Subscriber` or a `Client`. -/
structure Endpoint (β : Type) where
  /-- Copied by threads in `OnReceiveData` or `OnResponse` that have not queued them yet. -/
  saved : List β
  /-- `data_`, `responses_`. -/
  queue : List β
  /-- Popped by threads that have not done with them yet. -/
  popped : List β
  deriving DecidableEq, Repr

/-- Somebody who has buffers. -/
inductive Holder (β : Type) where
  /-- A `Subscriber` or a `Client`. -/
  | endpoint (kind : Kind) (e : Endpoint β)
  /-- A `Subscriber` whose destructor has been through `CleanupData`, and the number of threads that
  are to queue a buffer yet.  Nobody will look at the queue again. -/
  | destroying (saved : ℕ)
  /-- It has been destroyed. -/
  | destroyed
  /-- An `rmw_serialized_message_t`: its `buffer`, if it is not null. -/
  | serializedMessage (buffer : Option β)
  deriving DecidableEq, Repr

variable {β γ μ : Type}

/-- The constructor of either. -/
def Holder.construct (kind : Kind) : Holder β := .endpoint kind ⟨[], [], []⟩

/-- Its buffers. -/
def Holder.held : Holder β → List β
  | .endpoint _ e => e.saved ++ (e.queue ++ e.popped)
  | .destroying _ => []
  | .destroyed => []
  | .serializedMessage buffer => buffer.toList

/-- The same with other buffers. -/
def Holder.map (f : β → γ) : Holder β → Holder γ
  | .endpoint kind e => .endpoint kind ⟨e.saved.map f, e.queue.map f, e.popped.map f⟩
  | .destroying saved => .destroying saved
  | .destroyed => .destroyed
  | .serializedMessage buffer => .serializedMessage (buffer.map f)

/-! ## What they do with them -/

/-- A function at work on the buffers somebody has.  Where threads are inside, the numbers say which
one it is. -/
inductive Work where
  /-- `EnqueueData`, or the second half of `EnqueueResponse`. -/
  | enqueueData (j : ℕ)
  /-- `PopData`, `PopResponse`. -/
  | popData
  /-- A take goes on with what it has popped: the type support deserializes it, or throws. -/
  | deserialize (j : ℕ) (throws : Bool)
  /-- `~Subscriber`, that is `CleanupData`. -/
  | cleanupData
  /-- The members are destroyed. -/
  | destroy
  /-- `rmw_publish_serialized_message` or `rmw_deserialize`. -/
  | read
  /-- The application is done with a serialized message. -/
  | fini
  deriving DecidableEq, Repr

/-- What comes of it. -/
structure Outcome (β : Type) where
  /-- The buffers that are read. -/
  reads : List β
  /-- Those that are deleted then. -/
  deletes : List β
  /-- What the holder has now. -/
  holder : Holder β
  deriving DecidableEq, Repr

/-- The same with other buffers. -/
def Outcome.map (f : β → γ) (out : Outcome β) : Outcome γ :=
  ⟨out.reads.map f, out.deletes.map f, out.holder.map f⟩

/-- What a function does.  It is undefined to pop from an empty queue, and to destroy what threads
are at work in. -/
def Holder.work : Holder β → Work → Option (Outcome β)
  | .endpoint kind e, .enqueueData j => do
    let data ← e.saved[j]?
    some ⟨[], [], .endpoint kind ⟨e.saved.eraseIdx j, e.queue ++ [data], e.popped⟩⟩
  | .destroying (saved + 1), .enqueueData _ => some ⟨[], [], .destroying saved⟩
  | .endpoint kind ⟨saved, data :: queue, popped⟩, .popData =>
    some ⟨[], [], .endpoint kind ⟨saved, queue, popped ++ [data]⟩⟩
  | .endpoint kind e, .deserialize j throws => do
    let data ← e.popped[j]?
    -- the buffer is deleted by the statement after the one that throws
    some ⟨[data], if throws then [] else [data],
      .endpoint kind { e with popped := e.popped.eraseIdx j }⟩
  | .endpoint .subscriber ⟨saved, queue, []⟩, .cleanupData =>
    some ⟨[], queue, .destroying saved.length⟩
  | .destroying 0, .destroy => some ⟨[], [], .destroyed⟩
  -- a `Client` has no destructor of its own
  | .endpoint .client ⟨[], _, []⟩, .destroy => some ⟨[], [], .destroyed⟩
  | .serializedMessage buffer, .read => some ⟨buffer.toList, [], .serializedMessage buffer⟩
  | .serializedMessage buffer, .fini => some ⟨[], buffer.toList, .serializedMessage none⟩
  | _, _ => none

/-- A buffer that has been filled is the holder's: `SaveData`, or the first half of
`EnqueueResponse`. -/
def Holder.save (data : β) : Holder β → Option (Holder β)
  | .endpoint kind e => some (.endpoint kind { e with saved := e.saved ++ [data] })
  | .destroying saved => some (.destroying (saved + 1))
  | _ => none

/-- `TakeLatestSerializedData` returns what it has popped. -/
def Holder.takeLatestSerializedData (j : ℕ) : Holder β → Option (β × Holder β)
  | .endpoint .subscriber e => do
    let data ← e.popped[j]?
    some (data, .endpoint .subscriber { e with popped := e.popped.eraseIdx j })
  | _ => none

/-- A serialized message gets another `buffer`. -/
def Holder.assign (data : β) : Holder β → Option (Holder β)
  | .serializedMessage _ => some (.serializedMessage (some data))
  | _ => none

/-! ## Memory -/

/-- What pointers are, and what can be done with them. -/
structure Memory (μ β : Type) where
  /-- Nothing is allocated. -/
  init : μ
  /-- `new`, and the bytes are copied there. -/
  new : μ → List UInt8 → μ × β
  /-- What is there. -/
  get? : μ → β → Option (List UInt8)
  /-- `delete` for one after the other. -/
  deleteAll : μ → List β → Option μ

/-- The memory of the program. -/
def byAddress : Memory (Heap (List UInt8)) ℕ :=
  ⟨.empty, Heap.alloc, Heap.get?, Heap.deleteAll⟩

/-- Memory where a pointer is what it points to. -/
def byValue : Memory Unit (List UInt8) :=
  ⟨(), fun _ bytes => ((), bytes), fun _ => some, fun _ _ => some ()⟩

/-! ## Steps -/

/-- Everybody who has buffers. -/
structure State (μ β : Type) where
  /-- Where the buffers are. -/
  memory : μ
  /-- Whose they are. -/
  holders : List (Holder β)
  /-- What has been read, and whose it was. -/
  seen : List (ℕ × List UInt8)

/-- What happens. -/
inductive Action where
  /-- A `Subscriber` or a `Client` is constructed. -/
  | construct (kind : Kind)
  /-- The application gets itself an empty serialized message. -/
  | initMessage
  /-- A message or a response arrives, and is copied. -/
  | saveData (i : ℕ) (bytes : List UInt8)
  /-- `rmw_serialize`, where it copies what has been serialized. -/
  | serialize (k : ℕ) (bytes : List UInt8)
  /-- `rmw_take_serialized_message`, when it has popped. -/
  | takeSerialized (i j k : ℕ)
  /-- Something else happens to somebody's buffers. -/
  | work (i : ℕ) (w : Work)
  deriving DecidableEq, Repr

/-- One step. -/
def step (M : Memory μ β) (s : State μ β) : Action → Option (State μ β)
  | .construct kind => some { s with holders := s.holders ++ [.construct kind] }
  | .initMessage => some { s with holders := s.holders ++ [.serializedMessage none] }
  | .saveData i bytes => do
    let h ← s.holders[i]?
    let (memory, data) := M.new s.memory bytes
    let h ← h.save data
    some ⟨memory, s.holders.set i h, s.seen⟩
  | .serialize k bytes => do
    let h ← s.holders[k]?
    let (memory, data) := M.new s.memory bytes
    let h ← h.assign data
    some ⟨memory, s.holders.set k h, s.seen⟩
  | .takeSerialized i j k => do
    let h ← s.holders[i]?
    let (data, h) ← h.takeLatestSerializedData j
    let m ← s.holders[k]?
    let m ← m.assign data
    some { s with holders := (s.holders.set i h).set k m }
  | .work i w => do
    let h ← s.holders[i]?
    let out ← h.work w
    let bytes ← out.reads.mapM (M.get? s.memory)
    let memory ← M.deleteAll s.memory out.deletes
    some ⟨memory, s.holders.set i out.holder, s.seen ++ bytes.map (i, ·)⟩

/-- The system. -/
def system (M : Memory μ β) : System (State μ β) Action := ⟨⟨M.init, [], []⟩, step M⟩

/-! ## What is lost -/

/-- How many buffers nobody has the address of any more, when a function has been at work. -/
def Holder.loses : Holder β → Work → ℕ
  | _, .deserialize _ throws => throws.toNat
  | .endpoint _ e, .cleanupData => e.saved.length
  | .endpoint _ e, .destroy => e.queue.length
  | _, _ => 0

/-- The same when another buffer is saved or assigned. -/
def Holder.overwrites : Holder β → ℕ
  | .destroying _ => 1
  | .serializedMessage buffer => buffer.toList.length
  | _ => 0

/-- How many a step loses. -/
def loses (s : State μ β) : Action → ℕ
  | .saveData i _ => (s.holders[i]?.map Holder.overwrites).getD 0
  | .serialize k _ => (s.holders[k]?.map Holder.overwrites).getD 0
  | .takeSerialized _ _ k => (s.holders[k]?.map Holder.overwrites).getD 0
  | .work i w => (s.holders[i]?.map fun h => h.loses w).getD 0
  | _ => 0

/-! ## What somebody has -/

section Holder

variable {h h' : Holder β} {w : Work} {out : Outcome β} {data : β} {j : ℕ} {f g : β → γ}

/-- What has been popped is not there any more. -/
theorem held_popped {kind : Kind} {e : Endpoint β} (h : e.popped[j]? = some data) :
    (Holder.endpoint kind e).held.Perm
      (data :: (Holder.endpoint kind { e with popped := e.popped.eraseIdx j }).held) := by
  have hqueue := ((perm_eraseIdx h).append_left e.queue).trans List.perm_middle
  exact (hqueue.append_left e.saved).trans List.perm_middle

/-- **What a function does with the buffers**: those it does not delete or lose are still there. -/
theorem Holder.work_held (hwork : h.work w = some out) : ∃ forgotten : List β,
    forgotten.length = h.loses w ∧
      h.held.Perm (out.deletes ++ (forgotten ++ out.holder.held)) := by
  revert hwork
  fun_cases Holder.work h w <;> intro hwork
  case case1 kind e j =>
    obtain ⟨data, hdata, heq⟩ := Option.bind_eq_some_iff.mp hwork
    cases heq
    refine ⟨[], rfl, ((perm_eraseIdx hdata).append_right _).trans (List.perm_middle.symm.trans ?_)⟩
    refine .append_left _ ?_
    simpa using (@List.perm_middle _ data e.queue e.popped).symm
  case case4 kind e j throws =>
    obtain ⟨data, hdata, heq⟩ := Option.bind_eq_some_iff.mp hwork
    cases heq
    cases throws with
    | true => exact ⟨[data], rfl, held_popped hdata⟩
    | false => exact ⟨[], rfl, held_popped hdata⟩
  all_goals cases hwork
  case case2 => exact ⟨[], rfl, .refl _⟩
  case case3 kind saved data queue popped =>
    refine ⟨[], rfl, .append_left saved ?_⟩
    exact (List.perm_append_singleton data _).symm.trans (by simp)
  case case5 saved queue =>
    refine ⟨saved, rfl, ?_⟩
    simpa [held] using List.perm_append_comm
  case case6 => exact ⟨[], rfl, .refl _⟩
  case case7 queue => exact ⟨queue, rfl, by simp [held]⟩
  case case8 buffer => exact ⟨[], rfl, .refl _⟩
  case case9 buffer => exact ⟨[], rfl, by simp [held]⟩

theorem Holder.reads_held (hwork : h.work w = some out) : out.reads ⊆ h.held := by
  revert hwork
  fun_cases Holder.work h w <;> intro hwork
  case case1 kind e j =>
    obtain ⟨data, -, heq⟩ := Option.bind_eq_some_iff.mp hwork
    cases heq
    exact List.nil_subset _
  case case4 kind e j throws =>
    obtain ⟨data, hdata, heq⟩ := Option.bind_eq_some_iff.mp hwork
    cases heq
    rintro b (_ | ⟨_, ⟨⟩⟩)
    exact (held_popped hdata).mem_iff.mpr (.head _)
  all_goals cases hwork
  case case8 buffer => exact List.Subset.refl _
  all_goals exact List.nil_subset _

/-- A buffer that is saved is there as well. -/
theorem Holder.save_held (hsave : h.save data = some h') : ∃ forgotten : List β,
    forgotten.length = h.overwrites ∧ (data :: h.held).Perm (forgotten ++ h'.held) := by
  revert hsave
  fun_cases Holder.save data h <;> intro hsave <;> cases hsave
  case case1 kind e =>
    refine ⟨[], rfl, ?_⟩
    simpa [held] using List.perm_middle.symm
  case case2 saved => exact ⟨[data], rfl, .refl _⟩

theorem Holder.assign_held (hassign : h.assign data = some h') : ∃ forgotten : List β,
    forgotten.length = h.overwrites ∧ (data :: h.held).Perm (forgotten ++ h'.held) := by
  revert hassign
  fun_cases Holder.assign data h <;> intro hassign <;> cases hassign
  case case1 buffer => exact ⟨buffer.toList, rfl, (List.perm_append_singleton data _).symm⟩

theorem Holder.takeLatestSerializedData_held
    (htake : h.takeLatestSerializedData j = some (data, h')) : h.held.Perm (data :: h'.held) := by
  revert htake
  fun_cases Holder.takeLatestSerializedData j h <;> intro htake
  case case1 e =>
    obtain ⟨data', hdata, heq⟩ := Option.bind_eq_some_iff.mp htake
    cases heq
    exact held_popped hdata
  case case2 => cases htake

/-! ### Other buffers -/

@[simp] theorem Holder.held_map (f : β → γ) (h : Holder β) : (h.map f).held = h.held.map f := by
  cases h with
  | endpoint kind e => simp [map, held]
  | serializedMessage buffer => cases buffer <;> rfl
  | _ => rfl

/-- The buffers somebody has are all there is to see of them. -/
theorem Holder.map_congr (hfg : ∀ b ∈ h.held, f b = g b) : h.map f = h.map g := by
  cases h with
  | endpoint kind e =>
    simp only [held, List.mem_append] at hfg
    simp only [map]
    congr 2 <;> exact List.map_congr_left fun b hb => hfg b (by simp [hb])
  | serializedMessage buffer =>
    cases buffer with
    | none => rfl
    | some b => exact congrArg _ (congrArg some (hfg b (.head _)))
  | _ => rfl

/-- **What a function does is the same for other buffers.** -/
theorem Holder.work_map (f : β → γ) (h : Holder β) (w : Work) :
    (h.map f).work w = (h.work w).map (Outcome.map f) := by
  rcases h with ⟨kind, saved, queue, popped⟩ | saved | _ | buffer
  · cases w with
    | enqueueData j =>
      cases hdata : saved[j]? <;> simp [map, work, Outcome.map, hdata, List.eraseIdx_map]
    | popData => cases queue <;> simp [map, work, Outcome.map]
    | deserialize j throws =>
      cases hdata : popped[j]? <;> cases throws <;>
        simp [map, work, Outcome.map, hdata, List.eraseIdx_map]
    | cleanupData => cases kind <;> cases popped <;> simp [map, work, Outcome.map]
    | destroy =>
      cases kind <;> cases saved <;> cases popped <;> simp [map, work, Outcome.map]
    | _ => rfl
  · cases saved <;> cases w <;> rfl
  · cases w <;> rfl
  · cases buffer <;> cases w <;> rfl

theorem Holder.save_map (f : β → γ) (h : Holder β) (data : β) :
    (h.map f).save (f data) = (h.save data).map (map f) := by
  cases h <;> simp [map, save]

theorem Holder.assign_map (f : β → γ) (h : Holder β) (data : β) :
    (h.map f).assign (f data) = (h.assign data).map (map f) := by
  cases h <;> rfl

theorem Holder.takeLatestSerializedData_map (f : β → γ) (h : Holder β) (j : ℕ) :
    (h.map f).takeLatestSerializedData j =
      (h.takeLatestSerializedData j).map fun taken => (f taken.1, taken.2.map f) := by
  rcases h with ⟨_ | _, saved, queue, popped⟩ | _ | _ | _
  · cases hdata : popped[j]? <;> simp [map, takeLatestSerializedData, hdata, List.eraseIdx_map]
  all_goals rfl

end Holder

end Buffers

end RmwEcal
