import Mathlib.Data.List.Basic

/-!
# Message type descriptions

What the introspection type supports say about a message type, as far as the serializers, the
deserializers and `TypeInfo` look at it: the C and the C++ `MessageMembers` have the same fields,
so one type serves both.

A member's `type_id_` and the `members_` handle behind it are one inductive here: a member is of
message type exactly when there are sub-members to point at, and `GetMembers(member)` is the
pattern match that takes them out.  Type descriptions are therefore finite trees, as message types
are, and `MessageMembers.induction` is the induction over them that everything else uses.
-/

set_option autoImplicit false

namespace RmwEcal

/-- The field types of fixed size, `ROS_TYPE_FLOAT` to `ROS_TYPE_INT64` without the character and
string types of variable or unsupported width. -/
inductive Primitive where
  | float | double | longDouble | char | boolean | byte
  | uint8 | int8 | uint16 | int16 | uint32 | int32 | uint64 | int64
  deriving DecidableEq, Repr

/-- `sizeof` of the type a primitive field is stored in, on a 64-bit platform whose `long double`
takes sixteen bytes. -/
def Primitive.sizeof : Primitive → ℕ
  | float => 4
  | double => 8
  | longDouble => 16
  | char | boolean | byte | uint8 | int8 => 1
  | uint16 | int16 => 2
  | uint32 | int32 => 4
  | uint64 | int64 => 8

theorem Primitive.sizeof_pos (p : Primitive) : 0 < p.sizeof := by cases p <;> decide

/-- `type_id_`, with the sub-members of a `ROS_TYPE_MESSAGE`. -/
inductive TypeId (α : Type) where
  | primitive (p : Primitive)
  | string
  | wstring
  | wchar
  | message (subMembers : α)

/-- The part of a member that says how many elements it has. -/
structure ArrayShape where
  isArray : Bool
  /-- `array_size_`: the length of a static array, the bound of a bounded sequence, else `0`. -/
  arraySize : ℕ
  isUpperBound : Bool
  deriving DecidableEq, Repr

/-- `array_size_ > 0 && !is_upper_bound_`, the test that makes an array member a static array. -/
def ArrayShape.isStatic (s : ArrayShape) : Bool := decide (0 < s.arraySize) && !s.isUpperBound

/-- A member that is no array. -/
def ArrayShape.single : ArrayShape := ⟨false, 0, false⟩

/-- A sequence without a bound. -/
def ArrayShape.unbounded : ArrayShape := ⟨true, 0, false⟩

/-- A `MessageMember`. -/
structure MessageMember (α : Type) extends ArrayShape where
  typeId : TypeId α
  offset : ℕ

/-- A `MessageMembers`: the description of one message type. -/
inductive MessageMembers where
  | mk (messageName : ℕ) (sizeOf : ℕ) (members : List (MessageMember MessageMembers))

namespace MessageMembers

/-- `message_name_`.  Only the pointer is ever compared, so a number stands for it. -/
def messageName : MessageMembers → ℕ
  | mk name _ _ => name

/-- `size_of_`, the size of the struct. -/
def sizeOf : MessageMembers → ℕ
  | mk _ size _ => size

/-- `members_`, `member_count_` of them. -/
def members : MessageMembers → List (MessageMember MessageMembers)
  | mk _ _ ms => ms

@[simp] theorem messageName_mk (n s : ℕ) (ms : List (MessageMember MessageMembers)) :
    (mk n s ms).messageName = n := rfl

@[simp] theorem sizeOf_mk (n s : ℕ) (ms : List (MessageMember MessageMembers)) :
    (mk n s ms).sizeOf = s := rfl

@[simp] theorem members_mk (n s : ℕ) (ms : List (MessageMember MessageMembers)) :
    (mk n s ms).members = ms := rfl

/-- `sub` is the type of some member of `T`. -/
def HasMember (T sub : MessageMembers) : Prop := ∃ m ∈ T.members, m.typeId = .message sub

/-- **Induction over type descriptions**: a property of a message type may be proved assuming it
of the types of its message members. -/
theorem induction {P : MessageMembers → Prop}
    (h : ∀ T : MessageMembers, (∀ sub, T.HasMember sub → P sub) → P T) : ∀ T, P T
  | mk _ _ ms => h _ fun _ ⟨m, hm, hsub⟩ => ofMember ms m hm _ hsub
where
  ofMember : ∀ ms : List (MessageMember MessageMembers), ∀ m ∈ ms, ∀ sub,
      m.typeId = .message sub → P sub
    | ⟨_, .message T, _⟩ :: ms, m, hm, sub, hsub => by
      rcases List.mem_cons.mp hm with rfl | hm
      · cases hsub
        exact induction h T
      · exact ofMember ms m hm sub hsub
    | ⟨_, .primitive _, _⟩ :: ms, m, hm, sub, hsub
    | ⟨_, .string, _⟩ :: ms, m, hm, sub, hsub
    | ⟨_, .wstring, _⟩ :: ms, m, hm, sub, hsub
    | ⟨_, .wchar, _⟩ :: ms, m, hm, sub, hsub => by
      rcases List.mem_cons.mp hm with rfl | hm
      · cases hsub
      · exact ofMember ms m hm sub hsub

end MessageMembers

end RmwEcal
