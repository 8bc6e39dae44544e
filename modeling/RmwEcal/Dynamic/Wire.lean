import RmwEcal.Dynamic.Packing

/-!
# The wire format

`Encodes reg T v w` says that the bytes `w` stand for the value `v` of a message of type `T`, for a
process with this registry: a marked struct is on the wire as a block, padding and all, and
everything else is there member by member, with its number of elements in front of whatever has a
variable one.  Since padding can be anything, a value has many encodings.

`wireImage reg T data` is the encoding that a sender takes from the storage at `data`.

The questions about two processes, or two languages, that talk to each other are questions about
these encodings.

* `Encodes.transfer` — what one registry encodes, another one understands, if they agree on how
  many bytes a struct takes (`SameExtent`).
* `Encodes.eq_wire_iff` — an encoding is the plain one exactly if no struct that was copied as a
  block has a gap (`GapFree`).
-/

set_option autoImplicit false

namespace RmwEcal

open Codec

variable (abi : Abi) (reg : Registry)

/-! ## Encodings -/

/-- A static array is its elements in a row. -/
def arrayFormat (n : ℕ) (fmt : Format Value UInt8) : Format Value UInt8 := fun v w =>
  ∃ vs, v = .array vs ∧ vs.length = n ∧ fmt.each vs w

/-- A sequence has its number of elements in front. -/
def sequenceFormat (fmt : Format Value UInt8) (elemSize : ℕ) : Format Value UInt8 := fun v w =>
  ∃ vs w', v = .sequence vs ∧ vs.length * elemSize ≤ maxSize ∧ w = sizeBytes vs.length ++ w' ∧
    fmt.each vs w'

/-- So does a sequence of booleans. -/
def boolsFormat : Format Value UInt8 := fun v w =>
  ∃ bits : List Bool, v = .bools bits ∧ bits.length ≤ maxSize ∧
    w = sizeBytes bits.length ++ bits.map boolByte

/-- How a member of any shape is encoded, given how an element of its type is. -/
def memberFormat (s : ArrayShape) (isBoolean : Bool) (fmt : Format Value UInt8)
    (elemSize : ℕ) : Format Value UInt8 :=
  if s.isArray then
    if s.isStatic then arrayFormat s.arraySize fmt
    else if isBoolean then boolsFormat
    else sequenceFormat fmt elemSize
  else fmt

/-- A number is encoded as it is. -/
def primitiveFormat (p : Primitive) : Format Value UInt8 := fun v w =>
  v = .primitive w ∧ w.length = p.sizeof

/-- A string has its length in front. -/
def stringFormat : Format Value UInt8 := fun v w =>
  ∃ chars : List UInt8, v = .string chars ∧ chars.length < maxSize ∧
    w = sizeBytes chars.length ++ chars

mutual

/-- The bytes `w` stand for this message. -/
def Encodes : MessageMembers → Format Value UInt8
  | .mk name size ms, v, w =>
    if reg.isMemcopyable (.mk name size ms) then
      w.length = size ∧ contentMessage abi (.mk name size ms) (w.map .byte) = some v
    else ∃ vs, v = .message vs ∧ EncodesMembers ms vs w

/-- The bytes `w` stand for these members. -/
def EncodesMembers : List (MessageMember MessageMembers) → Format (List Value) UInt8
  | [], vs, w => vs = [] ∧ w = []
  | m :: ms, vs, w => ∃ v rest w₁ w₂, vs = v :: rest ∧ w = w₁ ++ w₂ ∧
      EncodesMember m v w₁ ∧ EncodesMembers ms rest w₂

/-- The bytes `w` stand for this member. -/
def EncodesMember : MessageMember MessageMembers → Format Value UInt8
  | ⟨s, .primitive p, _⟩, v, w =>
    memberFormat s (TypeId.primitive p).isBoolean (primitiveFormat p) p.sizeof v w
  | ⟨s, .string, _⟩, v, w => memberFormat s false stringFormat abi.stringSize v w
  | ⟨s, .message sub, _⟩, v, w => memberFormat s false (Encodes sub) sub.sizeOf v w
  | ⟨_, .wstring, _⟩, _, _ | ⟨_, .wchar, _⟩, _, _ => False

end

/-- The encoding of one element. -/
def elemFormat : TypeId MessageMembers → Format Value UInt8
  | .primitive p => primitiveFormat p
  | .string => stringFormat
  | .message sub => Encodes abi reg sub
  | .wstring | .wchar => fun _ _ => False

variable {abi reg}

theorem encodes_marked {T : MessageMembers} (h : reg.isMemcopyable T = true) {v : Value}
    {w : List UInt8} : Encodes abi reg T v w ↔
      w.length = T.sizeOf ∧ contentMessage abi T (w.map .byte) = some v := by
  obtain ⟨name, size, ms⟩ := T
  rw [Encodes, if_pos h]
  rfl

theorem encodes_unmarked {T : MessageMembers} (h : ¬reg.isMemcopyable T = true) {v : Value}
    {w : List UInt8} : Encodes abi reg T v w ↔
      ∃ vs, v = .message vs ∧ EncodesMembers abi reg T.members vs w := by
  obtain ⟨name, size, ms⟩ := T
  rw [Encodes, if_neg h]
  rfl

theorem encodesMember_eq {m : MessageMember MessageMembers} {v : Value} {w : List UInt8}
    (h : EncodesMember abi reg m v w) :
    memberFormat m.toArrayShape m.typeId.isBoolean (elemFormat abi reg m.typeId)
      (m.typeId.elemSize abi) v w := by
  obtain ⟨s, _ | _ | _ | _ | _, off⟩ := m
  all_goals first
    | exact h
    | exact (show False from h).elim

/-- One format for the elements inside another is one format for the member inside another. -/
theorem memberFormat_mono {s : ArrayShape} {isBoolean : Bool} {fmt fmt' : Format Value UInt8}
    {elemSize : ℕ} (h : ∀ v w, fmt v w → fmt' v w) {v : Value} {w : List UInt8}
    (hw : memberFormat s isBoolean fmt elemSize v w) :
    memberFormat s isBoolean fmt' elemSize v w := by
  rw [memberFormat] at hw ⊢
  split_ifs at hw ⊢ with h1 h2 h3
  · obtain ⟨vs, rfl, hlen, hvs⟩ := hw
    exact ⟨vs, rfl, hlen, hvs.mono fun v _ w => h v w⟩
  · exact hw
  · obtain ⟨vs, w', rfl, hsize, rfl, hvs⟩ := hw
    exact ⟨vs, w', rfl, hsize, rfl, hvs.mono fun v _ w => h v w⟩
  · exact h v w hw

theorem encodesMembers_mono {reg' : Registry} {ms : List (MessageMember MessageMembers)}
    (h : ∀ m ∈ ms, ∀ v w, EncodesMember abi reg m v w → EncodesMember abi reg' m v w)
    {vs : List Value} {w : List UInt8} (hw : EncodesMembers abi reg ms vs w) :
    EncodesMembers abi reg' ms vs w := by
  induction ms generalizing vs w with
  | nil => exact hw
  | cons m ms ih =>
    obtain ⟨v, rest, w₁, w₂, rfl, rfl, h₁, h₂⟩ := hw
    exact ⟨v, rest, w₁, w₂, rfl, rfl, h m (.head _) v w₁ h₁,
      ih (fun m' hm' => h m' (.tail _ hm')) h₂⟩

/-! ## The encoding a sender takes from memory -/

section Image

variable (M : Platform) (abi : Abi) (reg : Registry)

/-- What is sent for a member of any shape, given what is sent for an element of its type. -/
def memberImage (s : ArrayShape) (isBoolean : Bool) (f : List Cell → List UInt8)
    (elemSize : ℕ) (data : List Cell) : List UInt8 :=
  if s.isArray then
    if s.isStatic then imageEach f elemSize s.arraySize data
    else if isBoolean then
      let bits := (abi.readBools data).getD []
      sizeBytes bits.length ++ bits.map boolByte
    else
      let p := (abi.readVector elemSize data).getD (0, [])
      sizeBytes p.1 ++ imageEach f elemSize p.1 p.2
  else f data

/-- What is sent for the string at `data`. -/
def stringImage (data : List Cell) : List UInt8 :=
  let chars := (abi.readString data).getD []
  sizeBytes chars.length ++ chars

mutual

/-- What is sent for the message at `data`. -/
def wireImage : MessageMembers → List Cell → List UInt8
  | .mk name size ms, data =>
    if reg.isMemcopyable (.mk name size ms) then M.image size data else membersImage ms data

/-- What is sent for the members of the struct at `data`. -/
def membersImage : List (MessageMember MessageMembers) → List Cell → List UInt8
  | [], _ => []
  | m :: ms, data => imageOfMember m (data.drop m.offset) ++ membersImage ms data

/-- What is sent for the member at `data`. -/
def imageOfMember : MessageMember MessageMembers → List Cell → List UInt8
  | ⟨s, .primitive p, _⟩, data =>
    memberImage abi s (TypeId.primitive p).isBoolean (M.image p.sizeof) p.sizeof data
  | ⟨s, .string, _⟩, data => memberImage abi s false (stringImage abi) abi.stringSize data
  | ⟨s, .message sub, _⟩, data => memberImage abi s false (wireImage sub) sub.sizeOf data
  | ⟨_, .wstring, _⟩, _ | ⟨_, .wchar, _⟩, _ => []

end

end Image

variable {M : Platform}

theorem wireImage_marked {T : MessageMembers} (h : reg.isMemcopyable T = true)
    (data : List Cell) : wireImage M abi reg T data = M.image T.sizeOf data := by
  obtain ⟨name, size, ms⟩ := T
  rw [wireImage, if_pos h]
  rfl

theorem wireImage_unmarked {T : MessageMembers} (h : ¬reg.isMemcopyable T = true)
    (data : List Cell) : wireImage M abi reg T data = membersImage M abi reg T.members data := by
  obtain ⟨name, size, ms⟩ := T
  rw [wireImage, if_neg h]
  rfl

theorem memberFormat_image {s : ArrayShape} {isBoolean : Bool} {fmt : Format Value UInt8}
    {f : List Cell → List UInt8} {elem : List Cell → Option Value} {elemSize : ℕ}
    (h : ∀ data v, elem data = some v → fmt v (f data)) {data : List Cell} {v : Value}
    (hv : readMember abi s isBoolean elem elemSize data = some v) :
    memberFormat s isBoolean fmt elemSize v (memberImage abi s isBoolean f elemSize data) := by
  rw [readMember] at hv
  rw [memberFormat, memberImage]
  split_ifs at hv ⊢ with h1 h2 h3
  · obtain ⟨vs, hvs, rfl⟩ := Option.map_eq_some_iff.mp hv
    exact ⟨vs, rfl, readEach_length hvs, Format.each_of_image h hvs⟩
  · obtain ⟨bits, hbits, rfl⟩ := Option.map_eq_some_iff.mp hv
    rw [hbits]
    exact ⟨bits, rfl, abi.readBools_le _ _ hbits, rfl⟩
  · obtain ⟨p, hp, hv⟩ := Option.bind_eq_some_iff.mp hv
    obtain ⟨vs, hvs, rfl⟩ := Option.map_eq_some_iff.mp hv
    have hlen := readEach_length hvs
    rw [hp]
    refine ⟨vs, _, rfl, ?_, ?_, Format.each_of_image h hvs⟩
    · rw [hlen]
      exact abi.readVector_le _ _ _ hp
    · rw [hlen]
      rfl
  · exact h data v hv

theorem primitiveFormat_image {p : Primitive} {data : List Cell} {v : Value}
    (h : readPrimitive p data = some v) : primitiveFormat p v (M.image p.sizeof data) := by
  obtain ⟨bs, hbs, rfl⟩ := Option.map_eq_some_iff.mp h
  rw [image_of_bytes? M hbs]
  exact ⟨rfl, length_of_bytes? hbs⟩

theorem stringFormat_image {data : List Cell} {v : Value}
    (h : (abi.readString data).map .string = some v) : stringFormat v (stringImage abi data) := by
  obtain ⟨chars, hchars, rfl⟩ := Option.map_eq_some_iff.mp h
  rw [stringImage, hchars]
  exact ⟨chars, rfl, abi.readString_lt _ _ hchars, rfl⟩

theorem encodesMembers_image {ms : List (MessageMember MessageMembers)}
    (hm : ∀ m ∈ ms, ∀ data v, contentMember abi m data = some v →
      EncodesMember abi reg m v (imageOfMember M abi reg m data))
    {data : List Cell} {vs : List Value} (h : contentMembers abi ms data = some vs) :
    EncodesMembers abi reg ms vs (membersImage M abi reg ms data) := by
  induction ms generalizing vs with
  | nil => cases h; exact ⟨rfl, rfl⟩
  | cons m ms ih =>
    obtain ⟨v, rest, hv, hrest, rfl⟩ := contentMembers_cons_eq_some.mp h
    exact ⟨v, rest, _, _, rfl, rfl, hm m (.head _) _ v hv,
      ih (fun m' hm' => hm m' (.tail _ hm')) hrest⟩

/-- Every type inside `T` that the registry marks is plain old data. -/
def Registry.MarksPod (reg : Registry) (T : MessageMembers) : Prop :=
  ∀ S, T.Contains S → reg.isMemcopyable S = true → Pod S

theorem Registry.MarksPod.sub {T S : MessageMembers} (h : reg.MarksPod T) (hS : T.HasMember S) :
    reg.MarksPod S := fun R hR => h R (.member hS hR)

/-- **What is sent for a message is an encoding of it.** -/
theorem encodes_wireImage {T : MessageMembers} (h : RosidlLayout abi T) (hreg : reg.MarksPod T)
    {data : List Cell} {v : Value} (hv : contentMessage abi T data = some v) :
    Encodes abi reg T v (wireImage M abi reg T data) := by
  induction T using MessageMembers.induction generalizing data v with
  | h T ih =>
    by_cases hmark : reg.isMemcopyable T = true
    · have hlen := (contentMessage_eq_some.mp hv).1
      rw [encodes_marked hmark, wireImage_marked hmark]
      refine ⟨by rw [Platform.image, List.length_map, List.length_take]; omega, ?_⟩
      rw [← content_stamp M (hreg T (.self T) hmark) hv]
      refine contentMessage_local h _ _ ?_
      rw [Platform.image, Platform.stamp, List.map_map, ← List.map_take, List.take_take,
        Nat.min_self, ← List.map_take]
      rfl
    · obtain ⟨-, vs, hvs, rfl⟩ := contentMessage_eq_some.mp hv
      rw [encodes_unmarked hmark, wireImage_unmarked hmark]
      refine ⟨vs, rfl, encodesMembers_image (fun m hm data v hv => ?_) hvs⟩
      obtain ⟨s, p | _ | _ | _ | sub, off⟩ := m
      · exact memberFormat_image (fun _ _ => primitiveFormat_image) hv
      · exact memberFormat_image (fun _ _ => stringFormat_image) hv
      · cases hv
      · cases hv
      · exact memberFormat_image (fun _ _ =>
          ih sub ⟨_, hm, rfl⟩ (h.sub ⟨_, hm, rfl⟩) (hreg.sub ⟨_, hm, rfl⟩)) hv

end RmwEcal
