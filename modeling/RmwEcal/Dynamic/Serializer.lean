import RmwEcal.Dynamic.Wire

/-!
# The serializers

`CppSerializer` and `CSerializer` are two copies of one program.  Where they say the same thing, it
is here once: `serialize`, `serializeArrayMessage` and `serializeMessage`, over a `SerializerOps`
that holds the templates the two write differently, for strings and sequences.  Each language then
has its own versions of those, under the names of the source.

**A serializer emits exactly `wireImage`** (`serializeMessage_emits`), for every registry: both
languages follow once their operations are known to do the right thing with a valid string or
sequence, and that is what the laws in `SerializerOps` ask for.
-/

set_option autoImplicit false

namespace RmwEcal

open Codec

/-- A number as a `size_t`. -/
def sizeT (n : ℕ) : ℕ := n % 2 ^ 64

theorem sizeT_of_le {n : ℕ} (h : n ≤ maxSize) : sizeT n = n :=
  Nat.mod_eq_of_lt (lt_of_le_of_lt h (by decide))

/-- Append the next `n` bytes, with `insert` or with `resize` and `memcpy`. -/
def appendBytes (M : Platform) (n : ℕ) : Encoder Cell UInt8 Fault := fun data out =>
  if n ≤ data.length then .ok (out ++ M.image n data) else .error .undefined

/-- `SerializeSingle<array_size_t>` of a number of elements. -/
def serializeArraySize (n : ℕ) (out : List UInt8) : List UInt8 := out ++ sizeBytes n

/-- `SerializeSingle<T>`. -/
def serializeSingle (M : Platform) (p : Primitive) : Encoder Cell UInt8 Fault :=
  appendBytes M p.sizeof

/-- `SerializeArray<T>`. -/
def serializeArray (M : Platform) (p : Primitive) (count : ℕ) : Encoder Cell UInt8 Fault :=
  appendBytes M (sizeT (count * p.sizeof))

/-- `SerializeArray<std::string>`. -/
def serializeArrayString (single : Encoder Cell UInt8 Fault) (stringSize count : ℕ) :
    Encoder Cell UInt8 Fault := single.each stringSize count

section Laws

variable {M : Platform}

theorem appendBytes_emits {n : ℕ} {data : List Cell} (h : n ≤ data.length) :
    (appendBytes M n).Emits data (M.image n data) := fun out => by rw [appendBytes, if_pos h]

theorem image_each (stride n : ℕ) (data : List Cell) :
    imageEach (M.image stride) stride n data = M.image (n * stride) data := by
  induction n generalizing data with
  | zero => rw [imageEach, Nat.zero_mul]; rfl
  | succ n ih => rw [imageEach, ih, Nat.succ_mul, Nat.add_comm, image_add]

theorem imageEach_congr {f g : List Cell → List UInt8} (h : ∀ data, f data = g data)
    (stride n : ℕ) (data : List Cell) : imageEach f stride n data = imageEach g stride n data := by
  rw [show f = g from funext h]

/-- Objects that each have their bytes all have theirs. -/
theorem le_length_of_readEach {read : List Cell → Option Value} {stride n : ℕ}
    (h : ∀ data v, read data = some v → stride ≤ data.length)
    {data : List Cell} {vs : List Value} (hvs : readEach read stride n data = some vs) :
    n * stride ≤ data.length := by
  induction n generalizing data vs with
  | zero => omega
  | succ n ih =>
    obtain ⟨v, rest, hv, hrest, rfl⟩ := readEach_succ_eq_some.mp hvs
    have h1 := h data v hv
    have h2 := ih hrest
    rw [List.length_drop] at h2
    rw [Nat.succ_mul]
    omega

theorem le_length_of_readPrimitive {p : Primitive} {data : List Cell} {v : Value}
    (h : readPrimitive p data = some v) : p.sizeof ≤ data.length := by
  obtain ⟨bs, hbs, -⟩ := Option.map_eq_some_iff.mp h
  exact (bytes?_eq_some.mp hbs).1

/-- The numbers of an array are sent with a single copy. -/
theorem serializeArray_emits {p : Primitive} {n : ℕ} (hn : n * p.sizeof ≤ maxSize)
    {data : List Cell} {vs : List Value}
    (h : readEach (readPrimitive p) p.sizeof n data = some vs) :
    (serializeArray M p n).Emits data (imageEach (M.image p.sizeof) p.sizeof n data) := by
  rw [serializeArray, sizeT_of_le hn, image_each]
  exact appendBytes_emits
    (le_length_of_readEach (fun _ _ => le_length_of_readPrimitive) h)

end Laws

/-- The templates that each language has its own version of, and what they do. -/
structure SerializerOps (M : Platform) (abi : Abi) where
  /-- `SerializeSingle<std::string>`. -/
  singleString : Encoder Cell UInt8 Fault
  /-- `SerializeDynamicArray<T>` of a type of fixed size. -/
  dynamicArray : Primitive → Encoder Cell UInt8 Fault
  /-- `SerializeDynamicArray<std::string>`. -/
  dynamicArrayString : Encoder Cell UInt8 Fault
  /-- `SerializeDynamicArray<ros_message_t>`, given whether the type of the elements is
  memcopyable, its size and its `SerializeMessage`. -/
  dynamicArrayMessage : Bool → ℕ → Encoder Cell UInt8 Fault → Encoder Cell UInt8 Fault
  /-- A string is sent with its length. -/
  singleString_emits : ∀ {data chars}, abi.readString data = some chars →
    singleString.Emits data (sizeBytes chars.length ++ chars)
  /-- A sequence of numbers is sent with their number. -/
  dynamicArray_emits : ∀ {p data n block vs}, p ≠ .boolean →
    abi.readVector p.sizeof data = some (n, block) →
    readEach (readPrimitive p) p.sizeof n block = some vs →
    (dynamicArray p).Emits data (sizeBytes n ++ imageEach (M.image p.sizeof) p.sizeof n block)
  /-- A sequence of booleans is sent with their number. -/
  dynamicArrayBool_emits : ∀ {data bits}, abi.readBools data = some bits →
    (dynamicArray .boolean).Emits data (sizeBytes bits.length ++ bits.map boolByte)
  /-- A sequence of strings is sent with their number. -/
  dynamicArrayString_emits : ∀ {data n block vs},
    abi.readVector abi.stringSize data = some (n, block) →
    readEach (fun d => (abi.readString d).map Value.string) abi.stringSize n block = some vs →
    dynamicArrayString.Emits data
      (sizeBytes n ++ imageEach (stringImage abi) abi.stringSize n block)
  /-- A sequence of messages is sent with their number, as one block or one by one. -/
  dynamicArrayMessage_emits : ∀ {marked size elem data n block vs}
    {read : List Cell → Option Value} {f : List Cell → List UInt8},
    0 < size → (marked = true → ∀ data, f data = M.image size data) →
    (∀ data v, read data = some v → elem.Emits data (f data)) →
    abi.readVector size data = some (n, block) → readEach read size n block = some vs →
    (dynamicArrayMessage marked size elem).Emits data (sizeBytes n ++ imageEach f size n block)

/-! ## What the two serializers share -/

section Shared

variable {M : Platform} {abi : Abi} (ops : SerializerOps M abi) (reg : Registry)

/-- `Serialize<T>`: single, static array or dynamic array. -/
def serialize (s : ArrayShape) (single array dynamicArray : Encoder Cell UInt8 Fault) :
    Encoder Cell UInt8 Fault :=
  if s.isArray then if s.isStatic then array else dynamicArray else single

/-- `SerializeArray<ros_message_t>`. -/
def serializeArrayMessage (M : Platform) (memcopyable : Bool) (memberSize arraySize : ℕ)
    (elem : Encoder Cell UInt8 Fault) : Encoder Cell UInt8 Fault :=
  if memcopyable then appendBytes M (sizeT (memberSize * arraySize))
  else elem.each memberSize arraySize

mutual

/-- `SerializeMessage`. -/
def serializeMessage : MessageMembers → Encoder Cell UInt8 Fault
  | .mk name size ms, data, out =>
    if reg.isMemcopyable (.mk name size ms) then appendBytes M size data out
    else serializeMembers ms data out

/-- The loop of `SerializeMessage` over the members. -/
def serializeMembers : List (MessageMember MessageMembers) → Encoder Cell UInt8 Fault
  | [], _, out => .ok out
  | m :: ms, data, out => do
    let out ← serializeMember m (data.drop m.offset) out
    serializeMembers ms data out

/-- The switch of `SerializeMessage` on the type of a member. -/
def serializeMember : MessageMember MessageMembers → Encoder Cell UInt8 Fault
  | ⟨s, .primitive p, _⟩, data, out =>
    serialize s (serializeSingle M p) (serializeArray M p s.arraySize) (ops.dynamicArray p) data out
  | ⟨s, .string, _⟩, data, out =>
    serialize s ops.singleString (serializeArrayString ops.singleString abi.stringSize s.arraySize)
      ops.dynamicArrayString data out
  | ⟨s, .message sub, _⟩, data, out =>
    serialize s (serializeMessage sub)
      (serializeArrayMessage M (reg.isMemcopyable sub) sub.sizeOf s.arraySize
        (serializeMessage sub))
      (ops.dynamicArrayMessage (reg.isMemcopyable sub) sub.sizeOf (serializeMessage sub)) data out
  | ⟨_, .wstring, _⟩, _, _ | ⟨_, .wchar, _⟩, _, _ =>
    .error (.logicError "Wide character/string serialization is unsupported.")

end

variable {ops reg}

theorem serializeMessage_marked {T : MessageMembers} (h : reg.isMemcopyable T = true)
    (data : List Cell) (out : List UInt8) :
    serializeMessage ops reg T data out = appendBytes M T.sizeOf data out := by
  obtain ⟨name, size, ms⟩ := T
  rw [serializeMessage, if_pos h]
  rfl

theorem serializeMessage_unmarked {T : MessageMembers} (h : ¬reg.isMemcopyable T = true)
    (data : List Cell) (out : List UInt8) :
    serializeMessage ops reg T data out = serializeMembers ops reg T.members data out := by
  obtain ⟨name, size, ms⟩ := T
  rw [serializeMessage, if_neg h]
  rfl

theorem serializeMembers_emits {ms : List (MessageMember MessageMembers)}
    (hm : ∀ m ∈ ms, ∀ data v, contentMember abi m data = some v →
      Encoder.Emits (serializeMember ops reg m) data (imageOfMember M abi reg m data))
    {data : List Cell} {vs : List Value} (h : contentMembers abi ms data = some vs) :
    Encoder.Emits (serializeMembers ops reg ms) data (membersImage M abi reg ms data) := by
  induction ms generalizing vs with
  | nil => exact fun out => by rw [membersImage, List.append_nil]; rfl
  | cons m ms ih =>
    obtain ⟨v, rest, hv, hrest, rfl⟩ := contentMembers_cons_eq_some.mp h
    intro out
    rw [serializeMembers, hm m (.head _) _ v hv out]
    show serializeMembers ops reg ms data (out ++ _) = _
    rw [ih (fun m' hm' => hm m' (.tail _ hm')) hrest, membersImage, List.append_assoc]

/-- A member of any shape is sent as it should be if single elements, static arrays and sequences
are. -/
theorem serialize_emits {s : ArrayShape} {isBoolean : Bool}
    {single array dynamicArray : Encoder Cell UInt8 Fault} {elem : List Cell → Option Value}
    {elemSize : ℕ} {f : List Cell → List UInt8} {data : List Cell} {v : Value}
    (hsingle : ∀ data v, elem data = some v → single.Emits data (f data))
    (harray : s.isArray = true → s.isStatic = true → ∀ vs,
      readEach elem elemSize s.arraySize data = some vs →
      array.Emits data (imageEach f elemSize s.arraySize data))
    (hbools : isBoolean = true → ∀ bits, abi.readBools data = some bits →
      dynamicArray.Emits data (sizeBytes bits.length ++ bits.map boolByte))
    (hdynamic : isBoolean = false → ∀ n block vs, abi.readVector elemSize data = some (n, block) →
      readEach elem elemSize n block = some vs →
      dynamicArray.Emits data (sizeBytes n ++ imageEach f elemSize n block))
    (hv : readMember abi s isBoolean elem elemSize data = some v) :
    (serialize s single array dynamicArray).Emits data
      (memberImage abi s isBoolean f elemSize data) := by
  rw [readMember] at hv
  rw [serialize, memberImage]
  split_ifs at hv ⊢ with h1 h2 h3
  · obtain ⟨vs, hvs, -⟩ := Option.map_eq_some_iff.mp hv
    exact harray h1 h2 vs hvs
  · obtain ⟨bits, hbits, -⟩ := Option.map_eq_some_iff.mp hv
    rw [hbits]
    exact hbools h3 bits hbits
  · obtain ⟨⟨n, block⟩, hp, hv⟩ := Option.bind_eq_some_iff.mp hv
    obtain ⟨vs, hvs, -⟩ := Option.map_eq_some_iff.mp hv
    rw [hp]
    exact hdynamic (by simpa using h3) n block vs hp hvs
  · exact hsingle data v hv

theorem singleString_emits' {data : List Cell} {v : Value}
    (h : (abi.readString data).map Value.string = some v) :
    ops.singleString.Emits data (stringImage abi data) := by
  obtain ⟨chars, hchars, -⟩ := Option.map_eq_some_iff.mp h
  rw [stringImage, hchars]
  exact ops.singleString_emits hchars

/-- A static array is no larger than the limit on objects. -/
theorem RosidlLayout.arraySize_le {T : MessageMembers} (h : RosidlLayout abi T)
    {m : MessageMember MessageMembers} (hm : m ∈ T.members) (harr : m.isArray = true)
    (hstatic : m.isStatic = true) : m.arraySize * m.typeId.elemSize abi ≤ maxSize := by
  have hle := h.inOrder.storageSize_le hm
  rw [MessageMember.storageSize, ArrayShape.storageSize, if_pos harr, if_pos hstatic] at hle
  have hbounded := h.bounded
  omega

/-- **A serializer emits the wire image of the message**, for every registry. -/
theorem serializeMessage_emits {T : MessageMembers} (h : RosidlLayout abi T) {data : List Cell}
    {v : Value} (hv : contentMessage abi T data = some v) :
    Encoder.Emits (serializeMessage ops reg T) data (wireImage M abi reg T data) := by
  induction T using MessageMembers.induction generalizing data v with
  | h T ih =>
    by_cases hmark : reg.isMemcopyable T = true
    · intro out
      rw [serializeMessage_marked hmark, wireImage_marked hmark]
      exact appendBytes_emits (contentMessage_eq_some.mp hv).1 out
    · obtain ⟨-, vs, hvs, -⟩ := contentMessage_eq_some.mp hv
      intro out
      rw [serializeMessage_unmarked hmark, wireImage_unmarked hmark]
      refine serializeMembers_emits (fun m hm data v hv => ?_) hvs out
      have harray := h.arraySize_le hm
      obtain ⟨s, p | _ | _ | _ | sub, off⟩ := m
      · refine serialize_emits (fun d v hd => appendBytes_emits (le_length_of_readPrimitive hd))
          (fun h1 h2 vs => serializeArray_emits (harray h1 h2)) (fun hb bits hbits => ?_)
          (fun hb n block vs hp hvs => ops.dynamicArray_emits ?_ hp hvs) hv
        · cases p <;> first | exact ops.dynamicArrayBool_emits hbits | cases hb
        · rintro rfl
          cases hb
      · exact serialize_emits (fun _ _ => singleString_emits')
          (fun _ _ vs => emits_each fun _ _ => singleString_emits') nofun
          (fun _ n block vs hp hvs => ops.dynamicArrayString_emits hp hvs) hv
      · cases hv
      · cases hv
      · have hsub : T.HasMember sub := ⟨_, hm, rfl⟩
        have hmarked : reg.isMemcopyable sub = true → ∀ data,
            wireImage M abi reg sub data = M.image sub.sizeOf data := wireImage_marked
        refine serialize_emits (fun _ _ => ih sub hsub (h.sub hsub)) (fun h1 h2 vs hvs => ?_) nofun
          (fun _ n block vs hp hvs => ops.dynamicArrayMessage_emits (h.sub hsub).pos hmarked
            (fun _ _ => ih sub hsub (h.sub hsub)) hp hvs) hv
        rw [serializeArrayMessage]
        have hsize : s.arraySize * sub.sizeOf ≤ maxSize := harray h1 h2
        split_ifs with hmark
        · rw [Nat.mul_comm, sizeT_of_le hsize, imageEach_congr (hmarked hmark), image_each]
          exact appendBytes_emits
            (le_length_of_readEach (fun _ _ hd => (contentMessage_eq_some.mp hd).1) hvs)
        · exact emits_each (fun _ _ => ih sub hsub (h.sub hsub)) hvs

end Shared

/-! ## `CppSerializer` -/

namespace CppSerializer

variable (M : Platform)

/-- `SerializeSingle<std::string>`. -/
def serializeSingleString : Encoder Cell UInt8 Fault := fun data out =>
  match stdString? data with
  | some chars => .ok (serializeArraySize chars.length out ++ chars)
  | none => .error .undefined

/-- `SerializeDynamicArray<T>`, given `sizeof(T)` and `SerializeArray<T>`. -/
def serializeDynamicArray (sizeofT : ℕ) (array : ℕ → Encoder Cell UInt8 Fault) :
    Encoder Cell UInt8 Fault := fun data out =>
  match stdVector? data with
  | some storage =>
    let arraySize := storage.length / sizeofT
    array arraySize storage (serializeArraySize arraySize out)
  | none => .error .undefined

/-- `SerializeDynamicArray<bool>`. -/
def serializeDynamicArrayBool : Encoder Cell UInt8 Fault := fun data out =>
  match stdVectorBool? data with
  | some bits => .ok (serializeArraySize bits.length out ++ bits.map boolByte)
  | none => .error .undefined

/-- `SerializeDynamicArray<ros_message_t>`. -/
def serializeDynamicArrayMessage (memcopyable : Bool) (memberSize : ℕ)
    (elem : Encoder Cell UInt8 Fault) : Encoder Cell UInt8 Fault := fun data out =>
  match stdVector? data with
  | some storage =>
    let size := storage.length / memberSize
    let out := serializeArraySize size out
    if memcopyable then appendBytes M storage.length storage out
    else elem.each memberSize size storage out
  | none => .error .undefined

theorem readVector_eq_some {elemSize n : ℕ} {data block : List Cell}
    (h : cppAbi.readVector elemSize data = some (n, block)) :
    stdVector? data = some block ∧ n = block.length / elemSize ∧ n * elemSize = block.length ∧
      block.length ≤ maxSize := by
  obtain ⟨storage, hstorage, hp⟩ := Option.bind_eq_some_iff.mp h
  dsimp only at hp
  split at hp
  · rename_i hle
    cases hp
    exact ⟨hstorage, rfl, hle⟩
  · cases hp

/-- The templates of `CppSerializer`. -/
def ops : SerializerOps M cppAbi where
  singleString := serializeSingleString
  dynamicArray
    | .boolean => serializeDynamicArrayBool
    | p => serializeDynamicArray p.sizeof (serializeArray M p)
  dynamicArrayString := serializeDynamicArray cppAbi.stringSize
    (serializeArrayString serializeSingleString cppAbi.stringSize)
  dynamicArrayMessage := serializeDynamicArrayMessage M
  singleString_emits h out := by
    rw [serializeSingleString, (Option.filter_eq_some_iff.mp h).1]
    dsimp only
    rw [serializeArraySize, List.append_assoc]
  dynamicArray_emits {p data n block vs} hp hvec hvs out := by
    obtain ⟨hblock, hn, hlen, hmax⟩ := readVector_eq_some hvec
    have hrun : (serializeDynamicArray p.sizeof (serializeArray M p)) data out =
        .ok (out ++ (sizeBytes n ++ imageEach (M.image p.sizeof) p.sizeof n block)) := by
      rw [serializeDynamicArray, hblock]
      dsimp only
      rw [← hn, serializeArray_emits (hlen.trans_le hmax) hvs, serializeArraySize,
        List.append_assoc]
    cases p <;> first | exact hrun | exact absurd rfl hp
  dynamicArrayBool_emits h out := by
    dsimp only
    rw [serializeDynamicArrayBool, (Option.filter_eq_some_iff.mp h).1]
    dsimp only
    rw [serializeArraySize, List.append_assoc]
  dynamicArrayString_emits {data n block vs} hvec hvs out := by
    obtain ⟨hblock, hn, -, -⟩ := readVector_eq_some hvec
    have helem : ∀ d v, (cppAbi.readString d).map Value.string = some v →
        Encoder.Emits serializeSingleString d (stringImage cppAbi d) := by
      intro d v hd out
      obtain ⟨chars, hchars, -⟩ := Option.map_eq_some_iff.mp hd
      rw [stringImage, hchars, serializeSingleString, (Option.filter_eq_some_iff.mp hchars).1]
      dsimp only [Option.getD_some]
      rw [serializeArraySize, List.append_assoc]
    rw [serializeDynamicArray, hblock]
    dsimp only
    rw [← hn, serializeArrayString, serializeArraySize, emits_each helem hvs, List.append_assoc]
  dynamicArrayMessage_emits {marked size elem data n block vs read f} _ hmarked helem hvec hvs
      out := by
    obtain ⟨hblock, hn, hlen, -⟩ := readVector_eq_some hvec
    rw [serializeDynamicArrayMessage, hblock]
    dsimp only
    rw [← hn]
    split_ifs with h
    · rw [appendBytes_emits le_rfl, imageEach_congr (hmarked h), image_each, hlen,
        serializeArraySize, List.append_assoc]
    · rw [emits_each helem hvs, serializeArraySize, List.append_assoc]

/-- `CppSerializer::Serialize`, with the registry as it is at the time of the call. -/
def serialize (reg : Registry) (members : MessageMembers) (data : List Cell) :
    Except Fault (List UInt8) := serializeMessage (ops M) reg members data []

end CppSerializer

/-! ## `CSerializer` -/

namespace CSerializer

variable (M : Platform)

/-- `SerializeDynamicArray<T>`, given `SerializeArray<T>`. -/
def serializeDynamicArray (array : ℕ → Encoder Cell UInt8 Fault) : Encoder Cell UInt8 Fault :=
  fun data out =>
    match cSequence? data with
    | some (block, size) => array size block (serializeArraySize size out)
    | none => .error .undefined

/-- `SerializeSingle<std::string>`. -/
def serializeSingleString : Encoder Cell UInt8 Fault :=
  serializeDynamicArray (serializeArray M .char)

/-- `SerializeDynamicArray<ros_message_t>`. -/
def serializeDynamicArrayMessage (memcopyable : Bool) (memberSize : ℕ)
    (elem : Encoder Cell UInt8 Fault) : Encoder Cell UInt8 Fault :=
  serializeDynamicArray fun size => serializeArrayMessage M memcopyable memberSize size elem

theorem readVector_eq_some {elemSize n : ℕ} {data block : List Cell}
    (h : cAbi.readVector elemSize data = some (n, block)) :
    cSequence? data = some (block, n) ∧ n * elemSize ≤ block.length ∧ n * elemSize ≤ maxSize := by
  obtain ⟨⟨block', size⟩, hseq, hp⟩ := Option.bind_eq_some_iff.mp h
  dsimp only at hp
  split at hp
  · rename_i hle
    cases hp
    exact ⟨hseq, hle⟩
  · cases hp

theorem serializeSingleString_emits {data : List Cell} {chars : List UInt8}
    (h : cAbi.readString data = some chars) :
    (serializeSingleString M).Emits data (sizeBytes chars.length ++ chars) := by
  obtain ⟨⟨block, size⟩, hseq, hp⟩ := Option.bind_eq_some_iff.mp h
  dsimp only at hp
  split at hp
  · rename_i hlt
    have hlen := length_of_bytes? hp
    have hsize : size * Primitive.char.sizeof ≤ maxSize := by
      rw [Primitive.sizeof, Nat.mul_one]
      exact hlt.le
    intro out
    rw [serializeSingleString, serializeDynamicArray, hseq]
    dsimp only
    rw [serializeArray, sizeT_of_le hsize, Primitive.sizeof, Nat.mul_one,
      appendBytes_emits (bytes?_eq_some.mp hp).1, image_of_bytes? M hp, serializeArraySize,
      hlen, List.append_assoc]
  · cases hp

/-- The templates of `CSerializer`. -/
def ops : SerializerOps M cAbi where
  singleString := serializeSingleString M
  dynamicArray p := serializeDynamicArray (serializeArray M p)
  dynamicArrayString := serializeDynamicArray
    (serializeArrayString (serializeSingleString M) cAbi.stringSize)
  dynamicArrayMessage := serializeDynamicArrayMessage M
  singleString_emits h := serializeSingleString_emits M h
  dynamicArray_emits {p data n block vs} _ hvec hvs out := by
    obtain ⟨hseq, -, hmax⟩ := readVector_eq_some hvec
    rw [serializeDynamicArray, hseq]
    dsimp only
    rw [serializeArray_emits hmax hvs, serializeArraySize, List.append_assoc]
  dynamicArrayBool_emits {data bits} h out := by
    obtain ⟨⟨block, size⟩, hseq, hp⟩ := Option.bind_eq_some_iff.mp h
    dsimp only at hp
    split at hp
    · rename_i hle
      obtain ⟨bs, hbs, hbits⟩ := Option.bind_eq_some_iff.mp hp
      have hsize : size * Primitive.boolean.sizeof ≤ maxSize := by
        rw [Primitive.sizeof, Nat.mul_one]
        exact hle
      rw [serializeDynamicArray, hseq]
      dsimp only
      rw [serializeArray, sizeT_of_le hsize, Primitive.sizeof, Nat.mul_one,
        appendBytes_emits (bytes?_eq_some.mp hbs).1, image_of_bytes? M hbs, serializeArraySize,
        List.append_assoc, ← mapM_boolOfByte?_eq_some hbits, ← length_mapM_boolOfByte? hbits,
        length_of_bytes? hbs]
    · cases hp
  dynamicArrayString_emits {data n block vs} hvec hvs out := by
    obtain ⟨hseq, -, -⟩ := readVector_eq_some hvec
    have helem : ∀ d v, (cAbi.readString d).map Value.string = some v →
        Encoder.Emits (serializeSingleString M) d (stringImage cAbi d) := by
      intro d v hd
      obtain ⟨chars, hchars, -⟩ := Option.map_eq_some_iff.mp hd
      rw [stringImage, hchars]
      exact serializeSingleString_emits M hchars
    rw [serializeDynamicArray, hseq]
    dsimp only
    rw [serializeArrayString, serializeArraySize, emits_each helem hvs, List.append_assoc]
  dynamicArrayMessage_emits {marked size elem data n block vs read f} _ hmarked helem hvec hvs
      out := by
    obtain ⟨hseq, hlen, hmax⟩ := readVector_eq_some hvec
    rw [serializeDynamicArrayMessage, serializeDynamicArray, hseq]
    dsimp only
    rw [serializeArrayMessage]
    split_ifs with h
    · rw [Nat.mul_comm, sizeT_of_le hmax, appendBytes_emits hlen, imageEach_congr (hmarked h),
        image_each, serializeArraySize, List.append_assoc]
    · rw [emits_each helem hvs, serializeArraySize, List.append_assoc]

/-- `CSerializer::Serialize`, with the registry as it is at the time of the call. -/
def serialize (reg : Registry) (members : MessageMembers) (data : List Cell) :
    Except Fault (List UInt8) := serializeMessage (ops M) reg members data []

end CSerializer

end RmwEcal
