import RmwEcal.Dynamic.Serializer

/-!
# The deserializers

As with the serializers, what `CppDeserializer` and `CDeserializer` have in common is here once,
over a `DeserializerOps` with the templates that they write differently.

A decoder gets the storage of the target and what is left of the input.  The size of the input is
a parameter that both deserializers ignore: the sources compare the cursor with nothing.  Whatever
is read beyond the end of the input, or written beyond the end of an object, makes the run
`Fault.undefined`.  So does a cursor that is moved out of the input.
-/

set_option autoImplicit false

namespace RmwEcal

open Codec

/-- `DeserializeArraySize`: an `array_size_t` off the wire. -/
def deserializeArraySize (src : List UInt8) : Except Fault (ℕ × List UInt8) :=
  if 8 ≤ src.length then .ok (ofLeBytes (src.take 8), src.drop 8) else .error .undefined

/-- `copy_n` or `memcpy` of `n` bytes off the wire. -/
def copyBytes (n : ℕ) : Decoder Cell UInt8 Fault := fun data src =>
  if n ≤ src.length ∧ n ≤ data.length then
    .ok ((src.take n).map .byte ++ data.drop n, src.drop n)
  else .error .undefined

/-- `DeserializeSingle<T>`. -/
def deserializeSingle (p : Primitive) : Decoder Cell UInt8 Fault := copyBytes p.sizeof

/-- `DeserializeArray<T>`. -/
def deserializeArray (p : Primitive) (size : ℕ) : Decoder Cell UInt8 Fault :=
  copyBytes (sizeT (p.sizeof * size))

/-- `DeserializeArray<std::string>`. -/
def deserializeArrayString (single : Decoder Cell UInt8 Fault) (stringSize size : ℕ) :
    Decoder Cell UInt8 Fault := single.each stringSize size

/-- The templates that each language has its own version of. -/
structure DeserializerOps where
  /-- `DeserializeSingle<std::string>`. -/
  singleString : Decoder Cell UInt8 Fault
  /-- `DeserializeDynamicArray<T>` of a type of fixed size. -/
  dynamicArray : Primitive → Decoder Cell UInt8 Fault
  /-- `DeserializeDynamicArray<std::string>`. -/
  dynamicArrayString : Decoder Cell UInt8 Fault
  /-- `DeserializeDynamicArray<ros_message_t>`, given whether the type of the elements is
  memcopyable, its size and its `DeserializeMessage`. -/
  dynamicArrayMessage : Bool → ℕ → Decoder Cell UInt8 Fault → Decoder Cell UInt8 Fault

/-! ## What the two deserializers share -/

section Shared

variable (abi : Abi) (ops : DeserializerOps) (reg : Registry)

/-- `Deserialize<T>`: single, static array or dynamic array. -/
def deserialize (s : ArrayShape) (single array dynamicArray : Decoder Cell UInt8 Fault) :
    Decoder Cell UInt8 Fault :=
  if s.isArray then if s.isStatic then array else dynamicArray else single

/-- `DeserializeArray<ros_message_t>`. -/
def deserializeArrayMessage (memcopyable : Bool) (memberSize arraySize : ℕ)
    (elem : Decoder Cell UInt8 Fault) : Decoder Cell UInt8 Fault :=
  if memcopyable then copyBytes (sizeT (arraySize * memberSize))
  else elem.each memberSize arraySize

mutual

/-- `DeserializeMessage`. -/
def deserializeMessage : MessageMembers → Decoder Cell UInt8 Fault
  | .mk name size ms, data, src =>
    if reg.isMemcopyable (.mk name size ms) then copyBytes size data src
    else if size ≤ data.length then deserializeMembers ms data src
    else .error .undefined

/-- The loop of `DeserializeMessage` over the members. -/
def deserializeMembers : List (MessageMember MessageMembers) → Decoder Cell UInt8 Fault
  | [], data, src => .ok (data, src)
  | m :: ms, data, src => do
    let (data, src) ← Decoder.within (deserializeMember m) m.offset data src
    deserializeMembers ms data src

/-- The switch of `DeserializeMessage` on the type of a member. -/
def deserializeMember : MessageMember MessageMembers → Decoder Cell UInt8 Fault
  | ⟨s, .primitive p, _⟩, data, src =>
    deserialize s (deserializeSingle p) (deserializeArray p s.arraySize) (ops.dynamicArray p)
      data src
  | ⟨s, .string, _⟩, data, src =>
    deserialize s ops.singleString
      (deserializeArrayString ops.singleString abi.stringSize s.arraySize) ops.dynamicArrayString
      data src
  | ⟨s, .message sub, _⟩, data, src =>
    deserialize s (deserializeMessage sub)
      (deserializeArrayMessage (reg.isMemcopyable sub) sub.sizeOf s.arraySize
        (deserializeMessage sub))
      (ops.dynamicArrayMessage (reg.isMemcopyable sub) sub.sizeOf (deserializeMessage sub))
      data src
  | ⟨_, .wstring, _⟩, _, _ | ⟨_, .wchar, _⟩, _, _ =>
    .error (.logicError "Wide character/string deserialization is unsupported.")

end

variable {abi ops reg}

theorem deserializeMessage_marked {T : MessageMembers} (h : reg.isMemcopyable T = true)
    (data : List Cell) (src : List UInt8) :
    deserializeMessage abi ops reg T data src = copyBytes T.sizeOf data src := by
  obtain ⟨name, size, ms⟩ := T
  rw [deserializeMessage, if_pos h]
  rfl

theorem deserializeMessage_unmarked {T : MessageMembers} (h : ¬reg.isMemcopyable T = true)
    {data : List Cell} (hlen : T.sizeOf ≤ data.length) (src : List UInt8) :
    deserializeMessage abi ops reg T data src =
      deserializeMembers abi ops reg T.members data src := by
  obtain ⟨name, size, ms⟩ := T
  rw [deserializeMessage, if_neg h]
  exact if_pos hlen

end Shared

/-! ## `CppDeserializer` -/

namespace CppDeserializer

variable (M : Platform)

/-- The room behind `n` more elements of a string or vector: in the memory that it has, if that is
enough, and otherwise in a larger block, of `bytes` for a capacity. -/
def grow (limit : ℕ) (bytes : ℕ → ℕ) (size spare n : ℕ) : Except Fault ℕ :=
  if n ≤ spare then .ok (spare - n)
  else
    let capacity := M.capacity limit size (size + spare) (size + n)
    if M.allocate (bytes capacity) then .ok (capacity - (size + n)) else .error .allocation

/-- `DeserializeSingle<std::string>`: what is read is appended to the string.  An empty string
leaves the target alone. -/
def deserializeSingleString : Decoder Cell UInt8 Fault := fun data src => do
  if data.length < 32 then .error .undefined
  let (arrSize, src) ← deserializeArraySize src
  if 0 < arrSize then
    match stdString? data with
    | none => .error .undefined
    | some chars =>
      -- the memory, with a terminating zero, is asked for before anything is copied
      let room ← grow M (maxSize - 1) (· + 1) chars.length (spare data) arrSize
      if arrSize ≤ src.length then
        .ok (place 32 (.string (chars ++ src.take arrSize) room
          (inside data && decide (arrSize ≤ spare data))) data, src.drop arrSize)
      else .error .undefined
  else .ok (data, src)

/-- The storage of a vector after `resize` to `n` elements, `fill` being a new one.  If there is no
room for them, the old elements have gone to another block, each of their cells as `relocate`. -/
def resized (sizeofT : ℕ) (fill : List Cell) (relocate : Cell → Cell) (n : ℕ)
    (storage : List Cell) (spare : ℕ) : List Cell :=
  let size := storage.length / sizeofT
  if n ≤ size then storage.take (n * sizeofT)
  else (if (n - size) * sizeofT ≤ spare then storage else storage.map relocate) ++
    (List.replicate (n - size) fill).flatten

/-- `resize`: the storage, and the room behind it. -/
def resize (sizeofT : ℕ) (fill : List Cell) (relocate : Cell → Cell) (n : ℕ)
    (storage : List Cell) (spare : ℕ) : Except Fault (List Cell × ℕ) := do
  let size := storage.length / sizeofT
  let room ← if n ≤ size then .ok (spare + (storage.length - n * sizeofT))
    else grow M maxSize id storage.length spare ((n - size) * sizeofT)
  return (resized sizeofT fill relocate n storage spare, room)

/-- `DeserializeDynamicArray<T>`, given `sizeof(T)`, what `T()` looks like in memory, and
`DeserializeArray<T>`.  A vector of this type moves its elements properly. -/
def deserializeDynamicArray (sizeofT : ℕ) (fill : List Cell)
    (array : ℕ → Decoder Cell UInt8 Fault) : Decoder Cell UInt8 Fault := fun data src =>
  match stdVector? data with
  | none => .error .undefined
  | some storage => do
    let (arrSize, src) ← deserializeArraySize src
    let (storage, room) ← resize M sizeofT fill id arrSize storage (spare data)
    let (storage, src) ← array arrSize storage src
    .ok (place 24 (.vector storage room) data, src)

/-- What a `std::vector<bool>` for `n` bits has room for: whole words of them. -/
def wordBits (n : ℕ) : ℕ := 64 * ((n + 63) / 64)

/-- Whether there is memory for so many bits. -/
def allocateBits (n : ℕ) : Bool := decide (n ≤ maxSize) && M.allocate (wordBits n / 8)

/-- `reserve`: the room behind `size` bits then. -/
def reserve (n size spare : ℕ) : Except Fault ℕ :=
  if n ≤ size + spare then .ok spare
  else if allocateBits M n then .ok (wordBits n - size) else .error .allocation

/-- `n` times `push_back` of the next byte of the input, as a `bool`, onto bits with room for
`spare` more. -/
def pushBack : ℕ → List Bool → ℕ → List UInt8 → Except Fault ((List Bool × ℕ) × List UInt8)
  | 0, bits, spare, src => .ok ((bits, spare), src)
  | _ + 1, _, _, [] => .error .undefined
  | n + 1, bits, 0, b :: src =>
    let capacity := M.capacity maxSize bits.length bits.length (bits.length + 1)
    if allocateBits M capacity then
      pushBack n (bits ++ [b != 0]) (wordBits capacity - (bits.length + 1)) src
    else .error .allocation
  | n + 1, bits, spare + 1, b :: src => pushBack n (bits ++ [b != 0]) spare src

/-- `DeserializeDynamicArray<bool>`: what is read is pushed back onto the vector. -/
def deserializeDynamicArrayBool : Decoder Cell UInt8 Fault := fun data src =>
  match stdVectorBool? data with
  | none => .error .undefined
  | some bits => do
    let (arrSize, src) ← deserializeArraySize src
    let room ← reserve M arrSize bits.length (spare data)
    let ((bits, room), src) ← pushBack M arrSize bits room src
    .ok (place 40 (.vectorBool bits room) data, src)

/-- `DeserializeDynamicArray<ros_message_t>`.  The vector is resized as one of `char`, which moves
the messages as plain bytes. -/
def deserializeDynamicArrayMessage (memcopyable : Bool) (memberSize : ℕ)
    (elem : Decoder Cell UInt8 Fault) : Decoder Cell UInt8 Fault := fun data src =>
  match stdVector? data with
  | none => .error .undefined
  | some storage => do
    let (arrSize, src) ← deserializeArraySize src
    let dataSize := sizeT (arrSize * memberSize)
    let (storage, room) ← resize M 1 [.byte 0] Cell.moved dataSize storage (spare data)
    let (storage, src) ← if memcopyable then copyBytes dataSize storage src
      else elem.each memberSize arrSize storage src
    .ok (place 24 (.vector storage room) data, src)

/-- The templates of `CppDeserializer`. -/
def ops : DeserializerOps where
  singleString := deserializeSingleString M
  dynamicArray
    | .boolean => deserializeDynamicArrayBool M
    | p => deserializeDynamicArray M p.sizeof (zeros p.sizeof) (deserializeArray p)
  dynamicArrayString := deserializeDynamicArray M cppAbi.stringSize (object 32 (.string [] 15 true))
    (deserializeArrayString (deserializeSingleString M) cppAbi.stringSize)
  dynamicArrayMessage := deserializeDynamicArrayMessage M

/-- `CppDeserializer::Deserialize`, with the registry as it is at the time of the call: the target
afterwards and the input that is left. -/
def deserialize (reg : Registry) (members : MessageMembers) (message : List Cell)
    (serializedData : List UInt8) : Except Fault (List Cell × List UInt8) :=
  deserializeMessage cppAbi (ops M) reg members message serializedData

end CppDeserializer

/-! ## `CDeserializer`

It ignores whether the functions of `rosidl_runtime_c` that it calls report success. -/

namespace CDeserializer

variable (M : Platform)

/-- `DeserializeSingle<std::string>`.  The cursor moves on over what there is to be assigned,
whether or not it could be. -/
def deserializeSingleString : Decoder Cell UInt8 Fault := fun data src => do
  if data.length < 24 then .error .undefined
  let (size, src) ← deserializeArraySize src
  if size ≤ src.length then
    .ok (M.runtimeC.stringAssignn (M.runtimeC.stringInit data) (src.take size), src.drop size)
  else .error .undefined

/-- The `data` of the sequence at a pointer, which need not have been initialized. -/
def sequenceData (data : List Cell) : List Cell :=
  match cSequence? data with
  | some (block, _) => block
  | none => []

/-- `DeserializeDynamicArray<T>`, given `sizeof(T)` and what fills the new data block.  A sequence
that gets no elements keeps the data block it had. -/
def deserializeDynamicArray (sizeofT : ℕ) (array : ℕ → Decoder Cell UInt8 Fault) :
    Decoder Cell UInt8 Fault := fun data src => do
  if data.length < 24 then .error .undefined
  let (arrSize, src) ← deserializeArraySize src
  if 0 < arrSize then
    let dataSize := sizeT (arrSize * sizeofT)
    if M.allocate dataSize then
      let (block, src) ← array arrSize (M.fresh dataSize) src
      .ok (place 24 (.sequence block arrSize arrSize) data, src)
    else .error .allocation
  else .ok (place 24 (.sequence (sequenceData data) 0 0) data, src)

/-- The sequence at a pointer with something else in its data block. -/
def replaceData (block : List Cell) (data : List Cell) : List Cell :=
  match head? 24 data with
  | some (.sequence _ size capacity) => place 24 (.sequence block size capacity) data
  | _ => data

/-- `DeserializeDynamicArray<std::string>`.  It goes through the strings that the sequence has after
`rosidl_runtime_c__String__Sequence__init`, which are those it had before if that failed. -/
def deserializeDynamicArrayString : Decoder Cell UInt8 Fault := fun data src => do
  if data.length < 24 then .error .undefined
  let (arrSize, src) ← deserializeArraySize src
  let data := M.runtimeC.stringSequenceInit data arrSize
  if 0 < arrSize then
    match cSequence? data with
    | none => .error .undefined
    | some (block, size) =>
      let (block, src) ←
        deserializeArrayString (deserializeSingleString M) cAbi.stringSize size block src
      .ok (replaceData block data, src)
  else .ok (data, src)

/-- `DeserializeDynamicArray<ros_message_t>`. -/
def deserializeDynamicArrayMessage (memcopyable : Bool) (memberSize : ℕ)
    (elem : Decoder Cell UInt8 Fault) : Decoder Cell UInt8 Fault :=
  deserializeDynamicArray M memberSize fun arrSize =>
    deserializeArrayMessage memcopyable memberSize arrSize elem

/-- The templates of `CDeserializer`. -/
def ops : DeserializerOps where
  singleString := deserializeSingleString M
  dynamicArray p := deserializeDynamicArray M p.sizeof (deserializeArray p)
  dynamicArrayString := deserializeDynamicArrayString M
  dynamicArrayMessage := deserializeDynamicArrayMessage M

/-- `CDeserializer::Deserialize`, with the registry as it is at the time of the call: the target
afterwards and the input that is left. -/
def deserialize (reg : Registry) (members : MessageMembers) (message : List Cell)
    (serializedData : List UInt8) : Except Fault (List Cell × List UInt8) :=
  deserializeMessage cAbi (ops M) reg members message serializedData

end CDeserializer

end RmwEcal
