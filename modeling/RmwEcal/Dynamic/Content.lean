import RmwEcal.Dynamic.Memory

/-!
# Where members lie, and what a message holds

`RosidlLayout` is what rosidl promises about the offsets in a type description: members in
increasing order, none overlapping the next, all inside the struct.  Padding is allowed anywhere.

`contentMessage` reads the value of a message off its storage.  It is the specification the
serializers and the deserializers are measured against: two messages have the same logical content
when they read the same value, whatever their padding contains.  The one thing the rest of the
development needs about it is that it looks at the struct alone (`contentMessage_local`), and this
is where the layout comes in.
-/

set_option autoImplicit false

namespace RmwEcal

open Codec

variable (abi : Abi)

/-! ## Sizes -/

/-- The distance between two consecutive elements of this type. -/
def TypeId.elemSize : TypeId MessageMembers → ℕ
  | .primitive p => p.sizeof
  | .string => abi.stringSize
  | .message sub => sub.sizeOf
  | .wstring | .wchar => 0

/-- Whether this is `ROS_TYPE_BOOLEAN`, whose sequences are stored differently in C++. -/
def TypeId.isBoolean : TypeId MessageMembers → Bool
  | .primitive .boolean => true
  | _ => false

/-- The size of the object a member is stored in, given the size of an element. -/
def ArrayShape.storageSize (s : ArrayShape) (isBoolean : Bool) (elemSize : ℕ) : ℕ :=
  if s.isArray then
    if s.isStatic then s.arraySize * elemSize
    else if isBoolean then abi.boolVectorSize else abi.vectorSize
  else elemSize

/-- The size of a member inside its struct. -/
def MessageMember.storageSize (m : MessageMember MessageMembers) : ℕ :=
  m.toArrayShape.storageSize abi m.typeId.isBoolean (m.typeId.elemSize abi)

/-! ## Layouts -/

/-- The members lie in this order from `pos` on, without overlap, before `size`. -/
def InOrder : ℕ → List (MessageMember MessageMembers) → ℕ → Prop
  | pos, [], size => pos ≤ size
  | pos, m :: ms, size => pos ≤ m.offset ∧ InOrder (m.offset + m.storageSize abi) ms size

instance decidableInOrder (abi : Abi) :
    ∀ pos ms size, Decidable (InOrder abi pos ms size)
  | pos, [], size => inferInstanceAs (Decidable (pos ≤ size))
  | pos, m :: ms, size =>
    haveI := decidableInOrder abi (m.offset + m.storageSize abi) ms size
    inferInstanceAs
      (Decidable (pos ≤ m.offset ∧ InOrder abi (m.offset + m.storageSize abi) ms size))

/-- The layout of a struct as rosidl generates it, at every depth. -/
inductive RosidlLayout : MessageMembers → Prop
  | mk {T : MessageMembers} (pos : 0 < T.sizeOf) (bounded : T.sizeOf ≤ maxSize)
      (inOrder : InOrder abi 0 T.members T.sizeOf)
      (sub : ∀ S, T.HasMember S → RosidlLayout S) : RosidlLayout T

variable {abi}

theorem RosidlLayout.pos {T : MessageMembers} (h : RosidlLayout abi T) : 0 < T.sizeOf := by
  cases h; assumption

theorem RosidlLayout.bounded {T : MessageMembers} (h : RosidlLayout abi T) :
    T.sizeOf ≤ maxSize := by cases h; assumption

theorem RosidlLayout.inOrder {T : MessageMembers} (h : RosidlLayout abi T) :
    InOrder abi 0 T.members T.sizeOf := by cases h; assumption

theorem RosidlLayout.sub {T S : MessageMembers} (h : RosidlLayout abi T) (hS : T.HasMember S) :
    RosidlLayout abi S := by
  cases h with
  | mk _ _ _ hsub => exact hsub S hS

/-- All members, at every depth, are of the kinds that the serializers support. -/
inductive Supported : MessageMembers → Prop
  | mk {T : MessageMembers}
      (kinds : ∀ m ∈ T.members, m.typeId ≠ .wstring ∧ m.typeId ≠ .wchar)
      (sub : ∀ S, T.HasMember S → Supported S) : Supported T

theorem Supported.kinds {T : MessageMembers} (h : Supported T) {m : MessageMember MessageMembers}
    (hm : m ∈ T.members) : m.typeId ≠ .wstring ∧ m.typeId ≠ .wchar := by
  cases h with
  | mk hkinds _ => exact hkinds m hm

theorem Supported.sub {T S : MessageMembers} (h : Supported T) (hS : T.HasMember S) :
    Supported S := by
  cases h with
  | mk _ hsub => exact hsub S hS

theorem InOrder.le {pos size : ℕ} {ms : List (MessageMember MessageMembers)}
    (h : InOrder abi pos ms size) : pos ≤ size := by
  induction ms generalizing pos with
  | nil => exact h
  | cons m ms ih =>
    have hrest := ih h.2
    have hpos : pos ≤ m.offset := h.1
    omega

theorem InOrder.storageSize_le {pos size : ℕ} {ms : List (MessageMember MessageMembers)}
    (h : InOrder abi pos ms size) {m : MessageMember MessageMembers} (hm : m ∈ ms) :
    m.offset + m.storageSize abi ≤ size := by
  induction ms generalizing pos with
  | nil => cases hm
  | cons m' ms ih =>
    rcases List.mem_cons.mp hm with rfl | hm'
    · exact h.2.le
    · exact ih h.2 hm'

/-! ## Contents -/

variable (abi)

/-- The value of a sequence, given how to read an element of its type. -/
def readSequence (elem : List Cell → Option Value) (elemSize : ℕ) (data : List Cell) :
    Option Value :=
  (abi.readVector elemSize data).bind fun p => (readEach elem elemSize p.1 p.2).map .sequence

/-- The value of a member of any shape, given how to read an element of its type. -/
def readMember (s : ArrayShape) (isBoolean : Bool) (elem : List Cell → Option Value)
    (elemSize : ℕ) (data : List Cell) : Option Value :=
  if s.isArray then
    if s.isStatic then (readEach elem elemSize s.arraySize data).map .array
    else if isBoolean then (abi.readBools data).map .bools
    else readSequence abi elem elemSize data
  else elem data

/-- A number. -/
def readPrimitive (p : Primitive) (data : List Cell) : Option Value :=
  (bytes? p.sizeof data).map .primitive

mutual

/-- What the message at `data` holds. -/
def contentMessage : MessageMembers → List Cell → Option Value
  | .mk _ size ms, data =>
    if size ≤ data.length then (contentMembers ms data).map .message else none

/-- What the members of the struct at `data` hold. -/
def contentMembers : List (MessageMember MessageMembers) → List Cell → Option (List Value)
  | [], _ => some []
  | m :: ms, data =>
    (contentMember m (data.drop m.offset)).bind fun v => (contentMembers ms data).map (v :: ·)

/-- What the member at `data` holds. -/
def contentMember : MessageMember MessageMembers → List Cell → Option Value
  | ⟨s, .primitive p, _⟩, data =>
    readMember abi s (TypeId.primitive p).isBoolean (readPrimitive p) p.sizeof data
  | ⟨s, .string, _⟩, data =>
    readMember abi s false (fun d => (abi.readString d).map .string) abi.stringSize data
  | ⟨s, .message sub, _⟩, data => readMember abi s false (contentMessage sub) sub.sizeOf data
  | ⟨_, .wstring, _⟩, _ | ⟨_, .wchar, _⟩, _ => none

end

/-- The value of one element of a member of this type. -/
def contentElem : TypeId MessageMembers → List Cell → Option Value
  | .primitive p => readPrimitive p
  | .string => fun d => (abi.readString d).map .string
  | .message sub => contentMessage abi sub
  | .wstring | .wchar => fun _ => none

variable {abi}

theorem contentMessage_eq (T : MessageMembers) (data : List Cell) :
    contentMessage abi T data =
      if T.sizeOf ≤ data.length then (contentMembers abi T.members data).map .message
      else none := by
  obtain ⟨name, size, ms⟩ := T
  rw [contentMessage]
  rfl

theorem contentMessage_eq_some {T : MessageMembers} {data : List Cell} {v : Value} :
    contentMessage abi T data = some v ↔
      T.sizeOf ≤ data.length ∧ ∃ vs, contentMembers abi T.members data = some vs ∧
        v = .message vs := by
  rw [contentMessage_eq]
  by_cases h : T.sizeOf ≤ data.length
  · simp [h, eq_comm]
  · simp [h]

theorem contentMembers_cons_eq_some {m : MessageMember MessageMembers}
    {ms : List (MessageMember MessageMembers)} {data : List Cell} {vs : List Value} :
    contentMembers abi (m :: ms) data = some vs ↔
      ∃ v rest, contentMember abi m (data.drop m.offset) = some v ∧
        contentMembers abi ms data = some rest ∧ vs = v :: rest := by
  rw [contentMembers]
  simp only [Option.bind_eq_some_iff, Option.map_eq_some_iff]
  constructor
  · rintro ⟨v, hv, rest, hrest, rfl⟩
    exact ⟨v, rest, hv, hrest, rfl⟩
  · rintro ⟨v, rest, hv, hrest, rfl⟩
    exact ⟨v, hv, rest, hrest, rfl⟩

/-- A member that holds anything is read element by element. -/
theorem contentMember_eq {m : MessageMember MessageMembers} {data : List Cell} {v : Value}
    (h : contentMember abi m data = some v) :
    readMember abi m.toArrayShape m.typeId.isBoolean (contentElem abi m.typeId)
      (m.typeId.elemSize abi) data = some v := by
  obtain ⟨s, _ | _ | _ | _ | _, off⟩ := m
  all_goals first
    | exact h
    | cases h

/-! ## Contents are read from the struct alone -/

theorem bytes?_local (size : ℕ) : LocalTo size (bytes? size) := by
  intro data data' htake
  have hlen : (data.take size).length = (data'.take size).length := by rw [htake]
  rw [List.length_take, List.length_take] at hlen
  rw [bytes?, bytes?, htake]
  by_cases hd : size ≤ data.length
  · rw [if_pos hd, if_pos (by omega)]
  · rw [if_neg hd, if_neg (by omega)]

theorem readPrimitive_local (p : Primitive) : LocalTo p.sizeof (readPrimitive p) :=
  (bytes?_local p.sizeof).comp _

theorem readMember_local {s : ArrayShape} {isBoolean : Bool} {elem : List Cell → Option Value}
    {elemSize : ℕ} (h : LocalTo elemSize elem) :
    LocalTo (s.storageSize abi isBoolean elemSize)
      (readMember abi s isBoolean elem elemSize) := by
  intro data data' htake
  rw [ArrayShape.storageSize] at htake
  rw [readMember, readMember]
  split_ifs at htake ⊢
  · rw [h.readEach s.arraySize data data' htake]
  · rw [abi.readBools_local data data' htake]
  · rw [readSequence, readSequence, abi.readVector_local elemSize data data' htake]
  · exact h data data' htake

theorem contentMembers_local {pos size : ℕ} {ms : List (MessageMember MessageMembers)}
    (hms : InOrder abi pos ms size)
    (hm : ∀ m ∈ ms, LocalTo (m.storageSize abi) (contentMember abi m)) :
    LocalTo size (contentMembers abi ms) := by
  induction ms generalizing pos with
  | nil => intro _ _ _; rfl
  | cons m ms ih =>
    intro data data' htake
    have hend : m.offset + m.storageSize abi ≤ size := hms.2.le
    rw [contentMembers, contentMembers, ih hms.2 (fun m' hm' => hm m' (.tail _ hm')) _ _ htake,
      hm m (.head _) _ _ (drop_take_of_take_eq (take_of_take_eq htake hend))]

theorem contentMember_local_of {m : MessageMember MessageMembers}
    (hsub : ∀ sub, m.typeId = .message sub → LocalTo sub.sizeOf (contentMessage abi sub)) :
    LocalTo (m.storageSize abi) (contentMember abi m) := by
  obtain ⟨s, _ | _ | _ | _ | sub, off⟩ := m
  · exact readMember_local (readPrimitive_local _)
  · exact readMember_local (abi.readString_local.comp _)
  · exact fun _ _ _ => rfl
  · exact fun _ _ _ => rfl
  · exact readMember_local (hsub sub rfl)

theorem contentMessage_local {T : MessageMembers} (h : RosidlLayout abi T) :
    LocalTo T.sizeOf (contentMessage abi T) := by
  induction T using MessageMembers.induction with
  | h T ih =>
    have hmember : ∀ m ∈ T.members, LocalTo (m.storageSize abi) (contentMember abi m) :=
      fun m hm => contentMember_local_of fun sub hsub =>
        ih sub ⟨m, hm, hsub⟩ (h.sub ⟨m, hm, hsub⟩)
    intro data data' htake
    have hlen : (data.take T.sizeOf).length = (data'.take T.sizeOf).length := by rw [htake]
    rw [List.length_take, List.length_take] at hlen
    rw [contentMessage_eq, contentMessage_eq,
      contentMembers_local h.inOrder hmember _ _ htake]
    by_cases hd : T.sizeOf ≤ data.length
    · rw [if_pos hd, if_pos (by omega)]
    · rw [if_neg hd, if_neg (by omega)]

theorem contentMember_local {T : MessageMembers} (h : RosidlLayout abi T)
    {m : MessageMember MessageMembers} (hm : m ∈ T.members) :
    LocalTo (m.storageSize abi) (contentMember abi m) :=
  contentMember_local_of fun _ hsub => contentMessage_local (h.sub ⟨m, hm, hsub⟩)

/-- Members that all lie beyond `pos` do not see what is before it. -/
theorem contentMembers_congr {pos size : ℕ} {ms : List (MessageMember MessageMembers)}
    (hms : InOrder abi pos ms size) {data data' : List Cell}
    (h : data.drop pos = data'.drop pos) :
    contentMembers abi ms data = contentMembers abi ms data' := by
  induction ms generalizing pos with
  | nil => rfl
  | cons m ms ih =>
    have hdrop : ∀ n, pos ≤ n → data.drop n = data'.drop n := fun n hn => by
      have h' := congrArg (List.drop (n - pos)) h
      rwa [List.drop_drop, List.drop_drop, Nat.add_sub_cancel' hn] at h'
    have hoff : pos ≤ m.offset := hms.1
    rw [contentMembers, contentMembers, hdrop m.offset hoff,
      ih hms.2 (hdrop _ (by omega))]

end RmwEcal
