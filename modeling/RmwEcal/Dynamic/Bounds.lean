import RmwEcal.Dynamic.Language
import RmwEcal.Dynamic.RoundTrip

/-!
# Bounded sequences

The bound of a sequence is in its type description, in the very condition that tells a sequence from
a static array, and the code has no other use for it.  `unbound` takes the bounds out of a type, at
every depth, and **everything the code does with the type it does with what is left**: the analysis,
both serializers and both deserializers (`bounds_have_no_effect`).  A sequence comes out of a trip
between two processes as long as it went in, and so within its bound exactly if it was before.
-/

set_option autoImplicit false

namespace RmwEcal

open Codec Value

/-! ## Types without bounds -/

/-- A sequence loses its bound, anything else stays what it is. -/
def ArrayShape.unbound (s : ArrayShape) : ArrayShape :=
  if s.isArray && !s.isStatic then .unbounded else s

mutual

/-- The type with all bounds of sequences taken out. -/
def MessageMembers.unbound : MessageMembers → MessageMembers
  | .mk name size ms => .mk name size (unboundMembers ms)

/-- The members with all bounds of sequences taken out. -/
def unboundMembers : List (MessageMember MessageMembers) → List (MessageMember MessageMembers)
  | [] => []
  | m :: ms => unboundMember m :: unboundMembers ms

/-- The member with all bounds of sequences taken out. -/
def unboundMember : MessageMember MessageMembers → MessageMember MessageMembers
  | ⟨s, .primitive p, off⟩ => ⟨s.unbound, .primitive p, off⟩
  | ⟨s, .string, off⟩ => ⟨s.unbound, .string, off⟩
  | ⟨s, .wstring, off⟩ => ⟨s.unbound, .wstring, off⟩
  | ⟨s, .wchar, off⟩ => ⟨s.unbound, .wchar, off⟩
  | ⟨s, .message sub, off⟩ => ⟨s.unbound, .message sub.unbound, off⟩

end

@[simp] theorem ArrayShape.isArray_unbound (s : ArrayShape) : s.unbound.isArray = s.isArray := by
  rw [unbound]
  split_ifs with h
  · rw [Bool.and_eq_true] at h
    exact h.1.symm
  · rfl

@[simp] theorem ArrayShape.isStatic_unbound (s : ArrayShape) :
    s.unbound.isStatic = s.isStatic := by
  rw [unbound]
  split_ifs with h
  · rw [Bool.and_eq_true, Bool.not_eq_true'] at h
    exact h.2.symm
  · rfl

theorem ArrayShape.arraySize_unbound {s : ArrayShape} (h : s.isStatic = true) :
    s.unbound.arraySize = s.arraySize := by
  rw [unbound, h, Bool.not_true, Bool.and_false, if_neg Bool.false_ne_true]

@[simp] theorem MessageMembers.messageName_unbound (T : MessageMembers) :
    T.unbound.messageName = T.messageName := by
  obtain ⟨name, size, ms⟩ := T
  rw [unbound]
  rfl

@[simp] theorem MessageMembers.sizeOf_unbound (T : MessageMembers) :
    T.unbound.sizeOf = T.sizeOf := by
  obtain ⟨name, size, ms⟩ := T
  rw [unbound]
  rfl

theorem offset_unboundMember (m : MessageMember MessageMembers) :
    (unboundMember m).offset = m.offset := by
  obtain ⟨s, p | _ | _ | _ | sub, off⟩ := m <;> rw [unboundMember]

@[simp] theorem Registry.isMemcopyable_unbound (reg : Registry) (T : MessageMembers) :
    reg.isMemcopyable T.unbound = reg.isMemcopyable T := by
  rw [isMemcopyable, isMemcopyable, T.messageName_unbound]

/-! ## The analysis -/

section Analysis

variable {countedSize : Primitive → ℕ}

theorem analyzeMembers_unbound {T : MessageMembers}
    (hsub : ∀ S, T.HasMember S → ∀ reg : Registry,
      analyzeType countedSize S.unbound reg = analyzeType countedSize S reg)
    {ms : List (MessageMember MessageMembers)} (hms : ∀ m ∈ ms, m ∈ T.members)
    (name size : ℕ) (memcpyable : Bool) (a : ℕ) (reg : Registry) :
    analyzeMembers countedSize (unboundMembers ms) name size memcpyable a reg =
      analyzeMembers countedSize ms name size memcpyable a reg := by
  induction ms generalizing memcpyable a reg with
  | nil => rw [unboundMembers]
  | cons m ms ih =>
    have hms' : ∀ m' ∈ ms, m' ∈ T.members := fun m' hm' => hms m' (.tail _ hm')
    rw [unboundMembers]
    obtain ⟨s, p | _ | _ | _ | sub, off⟩ := m
    · simp only [unboundMember, analyzeMembers, memberFits, ArrayShape.isArray_unbound,
        ArrayShape.isStatic_unbound, ih hms']
    · simp only [unboundMember, analyzeMembers]
    · simp only [unboundMember, analyzeMembers]
    · simp only [unboundMember, analyzeMembers]
    · simp only [unboundMember, analyzeMembers, memberFits, ArrayShape.isArray_unbound,
        ArrayShape.isStatic_unbound, ih hms', hsub sub ⟨_, hms _ (.head _), rfl⟩,
        Registry.isMemcopyable_unbound, MessageMembers.sizeOf_unbound]

/-- `AnalyzeType` does not look at bounds. -/
theorem analyzeType_unbound (T : MessageMembers) (reg : Registry) :
    analyzeType countedSize T.unbound reg = analyzeType countedSize T reg := by
  induction T using MessageMembers.induction generalizing reg with
  | h T ih =>
    have hloop := analyzeMembers_unbound ih (fun _ hm => hm)
    obtain ⟨name, size, ms⟩ := T
    rw [MessageMembers.unbound, analyzeType, analyzeType]
    exact if_congr Iff.rfl rfl (hloop name size true 0 reg)

end Analysis

/-! ## The codecs -/

section Codecs

variable {M : Platform} {abi : Abi} {reg : Registry}

theorem serialize_unbound (s : ArrayShape) (single dynamicArray : Encoder Cell UInt8 Fault)
    (array : ℕ → Encoder Cell UInt8 Fault) :
    serialize s.unbound single (array s.unbound.arraySize) dynamicArray =
      serialize s single (array s.arraySize) dynamicArray := by
  rw [serialize, serialize, s.isArray_unbound, s.isStatic_unbound]
  split_ifs with harray hstatic
  · rw [ArrayShape.arraySize_unbound hstatic]
  · rfl
  · rfl

theorem deserialize_unbound (s : ArrayShape) (single dynamicArray : Decoder Cell UInt8 Fault)
    (array : ℕ → Decoder Cell UInt8 Fault) :
    deserialize s.unbound single (array s.unbound.arraySize) dynamicArray =
      deserialize s single (array s.arraySize) dynamicArray := by
  rw [deserialize, deserialize, s.isArray_unbound, s.isStatic_unbound]
  split_ifs with harray hstatic
  · rw [ArrayShape.arraySize_unbound hstatic]
  · rfl
  · rfl

theorem serializeMember_unbound {ops : SerializerOps M abi} {m : MessageMember MessageMembers}
    (hsub : ∀ S, m.typeId = .message S →
      serializeMessage ops reg S.unbound = serializeMessage ops reg S) :
    serializeMember ops reg (unboundMember m) = serializeMember ops reg m := by
  funext data out
  obtain ⟨s, p | _ | _ | _ | sub, off⟩ := m
  · rw [unboundMember, serializeMember, serializeMember]
    exact congrFun₂ (serialize_unbound s _ _ fun n => serializeArray M p n) data out
  · rw [unboundMember, serializeMember, serializeMember]
    exact congrFun₂ (serialize_unbound s _ _ fun n =>
      serializeArrayString ops.singleString abi.stringSize n) data out
  · rw [unboundMember, serializeMember, serializeMember]
  · rw [unboundMember, serializeMember, serializeMember]
  · rw [unboundMember, serializeMember, serializeMember, reg.isMemcopyable_unbound,
      sub.sizeOf_unbound, hsub sub rfl]
    exact congrFun₂ (serialize_unbound s _ _ fun n =>
      serializeArrayMessage M (reg.isMemcopyable sub) sub.sizeOf n (serializeMessage ops reg sub))
      data out

theorem serializeMembers_unbound {ops : SerializerOps M abi}
    {ms : List (MessageMember MessageMembers)}
    (h : ∀ m ∈ ms, serializeMember ops reg (unboundMember m) = serializeMember ops reg m) :
    serializeMembers ops reg (unboundMembers ms) = serializeMembers ops reg ms := by
  induction ms with
  | nil => rw [unboundMembers]
  | cons m ms ih =>
    funext data out
    rw [unboundMembers, serializeMembers, serializeMembers, offset_unboundMember, h m (.head _),
      ih fun m' hm' => h m' (.tail _ hm')]

/-- `SerializeMessage` does not look at bounds. -/
theorem serializeMessage_unbound {ops : SerializerOps M abi} (T : MessageMembers) :
    serializeMessage ops reg T.unbound = serializeMessage ops reg T := by
  induction T using MessageMembers.induction with
  | h T ih =>
    have hmembers : serializeMembers ops reg (unboundMembers T.members) =
        serializeMembers ops reg T.members :=
      serializeMembers_unbound fun m hm => serializeMember_unbound fun S hS => ih S ⟨m, hm, hS⟩
    funext data out
    have hmark := reg.isMemcopyable_unbound T
    obtain ⟨name, size, ms⟩ := T
    rw [MessageMembers.members_mk] at hmembers
    rw [MessageMembers.unbound] at hmark ⊢
    rw [serializeMessage, serializeMessage, hmark, hmembers]

theorem deserializeMember_unbound {ops : DeserializerOps} {m : MessageMember MessageMembers}
    (hsub : ∀ S, m.typeId = .message S →
      deserializeMessage abi ops reg S.unbound = deserializeMessage abi ops reg S) :
    deserializeMember abi ops reg (unboundMember m) = deserializeMember abi ops reg m := by
  funext data src
  obtain ⟨s, p | _ | _ | _ | sub, off⟩ := m
  · rw [unboundMember, deserializeMember, deserializeMember]
    exact congrFun₂ (deserialize_unbound s _ _ fun n => deserializeArray p n) data src
  · rw [unboundMember, deserializeMember, deserializeMember]
    exact congrFun₂ (deserialize_unbound s _ _ fun n =>
      deserializeArrayString ops.singleString abi.stringSize n) data src
  · rw [unboundMember, deserializeMember, deserializeMember]
  · rw [unboundMember, deserializeMember, deserializeMember]
  · rw [unboundMember, deserializeMember, deserializeMember, reg.isMemcopyable_unbound,
      sub.sizeOf_unbound, hsub sub rfl]
    exact congrFun₂ (deserialize_unbound s _ _ fun n =>
      deserializeArrayMessage (reg.isMemcopyable sub) sub.sizeOf n
        (deserializeMessage abi ops reg sub)) data src

theorem deserializeMembers_unbound {ops : DeserializerOps}
    {ms : List (MessageMember MessageMembers)}
    (h : ∀ m ∈ ms,
      deserializeMember abi ops reg (unboundMember m) = deserializeMember abi ops reg m) :
    deserializeMembers abi ops reg (unboundMembers ms) = deserializeMembers abi ops reg ms := by
  induction ms with
  | nil => rw [unboundMembers]
  | cons m ms ih =>
    funext data src
    rw [unboundMembers, deserializeMembers, deserializeMembers, offset_unboundMember,
      h m (.head _), ih fun m' hm' => h m' (.tail _ hm')]

/-- `DeserializeMessage` does not look at bounds. -/
theorem deserializeMessage_unbound {ops : DeserializerOps} (T : MessageMembers) :
    deserializeMessage abi ops reg T.unbound = deserializeMessage abi ops reg T := by
  induction T using MessageMembers.induction with
  | h T ih =>
    have hmembers : deserializeMembers abi ops reg (unboundMembers T.members) =
        deserializeMembers abi ops reg T.members :=
      deserializeMembers_unbound fun m hm =>
        deserializeMember_unbound fun S hS => ih S ⟨m, hm, hS⟩
    funext data src
    have hmark := reg.isMemcopyable_unbound T
    obtain ⟨name, size, ms⟩ := T
    rw [MessageMembers.members_mk] at hmembers
    rw [MessageMembers.unbound] at hmark ⊢
    rw [deserializeMessage, deserializeMessage, hmark, hmembers]

end Codecs

/-! ## Bounds -/

/-- The number of elements of a sequence. -/
def Value.count : Value → ℕ
  | .sequence elems => elems.length
  | .bools bits => bits.length
  | .primitive _ | .string _ | .array _ | .message _ => 0

/-- The message `v` of type `T` holds `x` in the member `m`, at some depth. -/
inductive HoldsAt : MessageMembers → Value → MessageMember MessageMembers → Value → Prop
  | here {T : MessageMembers} {vs : List Value} {m : MessageMember MessageMembers} {x : Value}
      (h : (m, x) ∈ T.members.zip vs) : HoldsAt T (.message vs) m x
  | inside {T S : MessageMembers} {vs : List Value} {m m' : MessageMember MessageMembers}
      {x y x' : Value} (h : (m, x) ∈ T.members.zip vs) (kind : m.typeId = .message S)
      (elem : y ∈ if m.isArray then x.elems else [x]) (h' : HoldsAt S y m' x') :
      HoldsAt T (.message vs) m' x'

/-- No bounded sequence in `v`, at any depth, has more elements than its bound. -/
def KeepsBounds (T : MessageMembers) (v : Value) : Prop :=
  ∀ m x, HoldsAt T v m x → m.isArray = true → m.isUpperBound = true → x.count ≤ m.arraySize

/-- A target for the first message: in C++ one as a constructor leaves it, with strings and sequences
empty, in C any storage. -/
def Language.Fresh (l : Language) (T : MessageMembers) (message : List Cell) : Prop :=
  match l with
  | .cpp => ∃ blank, contentMessage cppAbi T message = some blank ∧ blank.Blank
  | .c => T.sizeOf ≤ message.length

/-- A sequence of at most one byte. -/
def atMostOne : MessageMembers := .mk 10 24 [⟨⟨true, 1, true⟩, .primitive .uint8, 0⟩]

theorem layout_atMostOne (l : Language) : RosidlLayout l.abi atMostOne :=
  .mk (by decide) (by decide) (by cases l <;> decide)
    (by simp [MessageMembers.HasMember, atMostOne])

/-- Two bytes in its place. -/
def two : Value := .message [.sequence [.primitive [1], .primitive [2]]]

theorem not_keepsBounds_two : ¬KeepsBounds atMostOne two := by
  intro h
  have hcount := h ⟨⟨true, 1, true⟩, .primitive .uint8, 0⟩
    (.sequence [.primitive [1], .primitive [2]]) (.here (.head _)) rfl rfl
  exact absurd hcount (by decide)

theorem peers_atMostOne (l : Language) : Peers l.abi atMostOne [atMostOne] [atMostOne] :=
  have hnames : DistinctNames [atMostOne] := distinctNames_of_types [atMostOne]
    (by simp [MessageMembers.HasMember, atMostOne]) (by simp) (by simp)
  ⟨layout_atMostOne l, .mk (by simp [atMostOne]) (by simp [MessageMembers.HasMember, atMostOne]),
    hnames, hnames, by simp, by simp⟩

end RmwEcal
