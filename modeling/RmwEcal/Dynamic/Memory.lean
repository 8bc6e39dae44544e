import RmwEcal.Codec.Basic
import RmwEcal.Codec.LittleEndian
import RmwEcal.Dynamic.Introspection

/-!
# Messages in memory

A message is a struct somewhere in memory, and the serializers go through it by pointer arithmetic
and `memcpy`.  So the model of a message is the storage itself: a list of `Cell`s, one for each
byte, in which a pointer is the list from there on.  A byte of a number or of padding is a
`Cell.byte`.  An object that owns memory elsewhere — a `std::string`, a `std::vector`, a rosidl C
sequence — is its contents in the first of its cells and `Cell.rest` in the others: its size and its
capacity are kept, its pointers are not.  The one pointer that matters is that of a short
`std::string` to its own characters: if such an object is moved as plain bytes, it still points to
where it was.

What a program sees in such storage is a `Value`, and `contentMessage` reads it off.  The two
languages differ in how strings and sequences are stored, and nowhere else; an `Abi` says how.

## What is left to the platform

`Platform` collects what the source leaves open: whether a request for memory is granted, what
fresh memory from `new char[n]` contains, which bytes a `memcpy` sees where an object such as
a `std::string` is stored, how much room the containers ask for when they grow, and the functions of
`rosidl_runtime_c`, of which no more is known than their documentation says.
-/

set_option autoImplicit false

namespace RmwEcal

open Codec

/-! ## Cells -/

/-- One byte of memory. -/
inductive Cell where
  /-- A plain byte: part of a number, of padding, or zeroed memory. -/
  | byte (b : UInt8)
  /-- The first cell of a `std::string` with room for `spare` more characters, which are `inside`
  the object itself as long as there are only a few. -/
  | string (chars : List UInt8) (spare : ℕ) (inside : Bool)
  /-- The first cell of a `std::string` whose characters were inside it when it was moved. -/
  | dangling
  /-- The first cell of a `std::vector<T>` for `T` other than `bool`, with its elements and room for
  `spare` more bytes of them. -/
  | vector (storage : List Cell) (spare : ℕ)
  /-- The first cell of a `std::vector<bool>` with room for `spare` more of them. -/
  | vectorBool (bits : List Bool) (spare : ℕ)
  /-- The first cell of a rosidl C sequence, or of a `rosidl_runtime_c__String`. -/
  | sequence (data : List Cell) (size capacity : ℕ)
  /-- A further cell of an object that is not plain bytes. -/
  | rest

/-- The byte in a cell, if it is one. -/
def Cell.asByte? : Cell → Option UInt8
  | byte b => some b
  | _ => none

/-- A cell of zeroed memory. -/
def Cell.isZero : Cell → Bool
  | byte b => b == 0
  | _ => false

/-- A cell that is moved as plain bytes. -/
def Cell.moved : Cell → Cell
  | string _ _ true => dangling
  | c => c

/-- Pointer differences are signed 64-bit numbers, so no object is larger than this; the size
limits of the standard containers and of the allocators derive from it. -/
def maxSize : ℕ := 2 ^ 63 - 1

/-- How a run ends when it does not return. -/
inductive Fault where
  /-- A `std::logic_error` with its text. -/
  | logicError (what : String)
  /-- A container or `new` refused a request: `std::length_error`, `std::bad_alloc` or
  `std::bad_array_new_length`. -/
  | allocation
  /-- The run read or wrote outside an object or a buffer, moved a pointer out of one, or used
  storage as an object that is not there.  Nothing is known about it from there on. -/
  | undefined
  deriving DecidableEq, Repr

theorem Fault.allocation_ne_undefined : Fault.allocation ≠ .undefined := nofun

/-! ## Objects in storage

The sizes are those of the usual 64-bit ABIs: a `std::string` takes 32 bytes, a `std::vector` 24,
a `std::vector<bool>` 40, and a rosidl C string or sequence (pointer, size, capacity) 24. -/

/-- The cells of an object of `size` bytes with the given first cell. -/
def object (size : ℕ) (head : Cell) : List Cell := head :: List.replicate (size - 1) .rest

theorem length_object {size : ℕ} (h : 0 < size) (head : Cell) :
    (object size head).length = size := by
  rw [object, List.length_cons, List.length_replicate]
  omega

/-- Storage with the object of this first cell at its head. -/
def place (size : ℕ) (head : Cell) (data : List Cell) : List Cell :=
  object size head ++ data.drop size

/-- The first cell of an object of `size` bytes, if there is room for one. -/
def head? (size : ℕ) (data : List Cell) : Option Cell :=
  if size ≤ data.length then data.head? else none

/-- `size` bytes of zeros. -/
def zeroed (size : ℕ) (data : List Cell) : Bool := (data.take size).all Cell.isZero

/-- The cells `resize` adds to a `std::vector<char>`. -/
def zeros (n : ℕ) : List Cell := List.replicate n (.byte 0)

/-- `size` plain bytes. -/
def bytes? (size : ℕ) (data : List Cell) : Option (List UInt8) :=
  if size ≤ data.length then (data.take size).mapM Cell.asByte? else none

theorem mapM_asByte?_eq_some {cells : List Cell} {bs : List UInt8} :
    cells.mapM Cell.asByte? = some bs ↔ cells = bs.map .byte := by
  induction cells generalizing bs with
  | nil => cases bs <;> simp
  | cons c cells ih =>
    cases c with
    | byte b =>
      cases bs with
      | nil => simp [Cell.asByte?, Option.bind_eq_some_iff]
      | cons b' bs =>
        simp only [List.mapM_cons, Cell.asByte?, Option.pure_def, Option.bind_eq_bind,
          Option.bind_some, Option.bind_eq_some_iff, Option.some.injEq, List.cons.injEq,
          List.map_cons, Cell.byte.injEq]
        constructor
        · rintro ⟨bs', hbs', hb, rfl⟩
          exact ⟨hb, ih.mp hbs'⟩
        · rintro ⟨hb, hcells⟩
          exact ⟨bs, ih.mpr hcells, hb, rfl⟩
    | _ => cases bs <;> simp [Cell.asByte?]

theorem bytes?_eq_some {size : ℕ} {data : List Cell} {bs : List UInt8} :
    bytes? size data = some bs ↔ size ≤ data.length ∧ data.take size = bs.map .byte := by
  rw [bytes?]
  split_ifs with h
  · rw [mapM_asByte?_eq_some]
    exact ⟨fun h' => ⟨h, h'⟩, fun h' => h'.2⟩
  · exact ⟨fun h' => (by cases h'), fun h' => absurd h'.1 h⟩

theorem length_of_bytes? {size : ℕ} {data : List Cell} {bs : List UInt8}
    (h : bytes? size data = some bs) : bs.length = size := by
  obtain ⟨hlen, htake⟩ := bytes?_eq_some.mp h
  have h' := congrArg List.length htake
  rw [List.length_take, List.length_map] at h'
  omega

/-- The characters of the `std::string` at `data`.  Zeroed memory passes for an empty string without
any room: that is what `size` and `append` make of it.  Its data pointer is null, though, which a
program sees that asks for `c_str()`. -/
def stdString? (data : List Cell) : Option (List UInt8) :=
  match head? 32 data with
  | some (.string chars _ _) => some chars
  | some (.byte _) => if zeroed 32 data then some [] else none
  | _ => none

/-- The element storage of the `std::vector` at `data`.  Zeroed memory is an empty vector. -/
def stdVector? (data : List Cell) : Option (List Cell) :=
  match head? 24 data with
  | some (.vector storage _) => some storage
  | some (.byte _) => if zeroed 24 data then some [] else none
  | _ => none

/-- The elements of the `std::vector<bool>` at `data`.  Zeroed memory is an empty vector. -/
def stdVectorBool? (data : List Cell) : Option (List Bool) :=
  match head? 40 data with
  | some (.vectorBool bits _) => some bits
  | some (.byte _) => if zeroed 40 data then some [] else none
  | _ => none

/-- How many more elements the string or vector at `data` has room for, those of a `std::vector`
counted in bytes. -/
def spare (data : List Cell) : ℕ :=
  match data with
  | .string _ n _ :: _ | .vector _ n :: _ | .vectorBool _ n :: _ => n
  | _ => 0

/-- Whether the characters of the `std::string` at `data` are in the object. -/
def inside (data : List Cell) : Bool :=
  match data with
  | .string _ _ b :: _ => b
  | _ => false

/-- The data block and the size of the rosidl C sequence or string at `data`. -/
def cSequence? (data : List Cell) : Option (List Cell × ℕ) :=
  match head? 24 data with
  | some (.sequence block size _) => some (block, size)
  | _ => none

section Place

variable {size : ℕ} {data : List Cell}

theorem length_place (hpos : 0 < size) (h : size ≤ data.length) (head : Cell) :
    (place size head data).length = data.length := by
  rw [place, List.length_append, length_object hpos, List.length_drop]
  omega

theorem drop_place (hpos : 0 < size) (head : Cell) :
    (place size head data).drop size = data.drop size := by
  rw [place, List.drop_left' (length_object hpos head)]

theorem place_place (hpos : 0 < size) (head head' : Cell) (data : List Cell) :
    place size head (place size head' data) = place size head data := by
  rw [place, drop_place hpos, place]

theorem head?_place (hpos : 0 < size) (h : size ≤ data.length) (head : Cell) :
    head? size (place size head data) = some head := by
  rw [head?, length_place hpos h, if_pos h]
  rfl

theorem stdString?_place (h : 32 ≤ data.length) (chars : List UInt8) (n : ℕ) (b : Bool) :
    stdString? (place 32 (.string chars n b) data) = some chars := by
  rw [stdString?, head?_place (by decide) h]

theorem stdVector?_place (h : 24 ≤ data.length) (storage : List Cell) (n : ℕ) :
    stdVector? (place 24 (.vector storage n) data) = some storage := by
  rw [stdVector?, head?_place (by decide) h]

theorem stdVectorBool?_place (h : 40 ≤ data.length) (bits : List Bool) (n : ℕ) :
    stdVectorBool? (place 40 (.vectorBool bits n) data) = some bits := by
  rw [stdVectorBool?, head?_place (by decide) h]

theorem cSequence?_place (h : 24 ≤ data.length) (block : List Cell) (n capacity : ℕ) :
    cSequence? (place 24 (.sequence block n capacity) data) = some (block, n) := by
  rw [cSequence?, head?_place (by decide) h]

end Place

/-! ## The platform -/

/-- Requests beyond `maxSize` are refused by the containers and allocators themselves. -/
def allocates (grants : ℕ → Bool) (bytes : ℕ) : Bool := decide (bytes ≤ maxSize) && grants bytes

/-- An empty C string. -/
def emptyString : Cell := .sequence [.byte 0] 0 1

/-- So many empty C strings, one after the other. -/
def emptyStrings (n : ℕ) : List Cell := (List.replicate n (object 24 emptyString)).flatten

/-- The functions of `rosidl_runtime_c` that `CDeserializer` calls, as what they make of the storage
they get a pointer to, with what their documentation says of that. -/
structure RosidlRuntimeC (allocate : ℕ → Bool) where
  /-- `rosidl_runtime_c__String__init`. -/
  stringInit : List Cell → List Cell
  /-- `rosidl_runtime_c__String__assignn`, given the characters that it copies. -/
  stringAssignn : List Cell → List UInt8 → List Cell
  /-- `rosidl_runtime_c__String__Sequence__init`. -/
  stringSequenceInit : List Cell → ℕ → List Cell
  /-- There is an empty string, whatever was there. -/
  stringInit_granted : ∀ data, allocate 1 = true → stringInit data = place 24 emptyString data
  /-- Without memory a string loses its data, and keeps its size. -/
  stringInit_refused : ∀ data block size capacity, allocate 1 = false →
    head? 24 data = some (.sequence block size capacity) →
    stringInit data = place 24 (.sequence [] size capacity) data
  /-- The string has the characters, and a terminating zero for which there has to be memory too. -/
  stringAssignn_granted : ∀ data chars, allocate (chars.length + 1) = true →
    stringAssignn data chars = place 24
      (.sequence (chars.map .byte ++ [.byte 0]) chars.length (chars.length + 1)) data
  /-- Without memory the string stays as it is. -/
  stringAssignn_refused : ∀ data chars, allocate (chars.length + 1) = false →
    stringAssignn data chars = data
  /-- There is a sequence of so many empty strings. -/
  stringSequenceInit_granted : ∀ data n, 0 < n → allocate (n * 24) = true → allocate 1 = true →
    stringSequenceInit data n = place 24 (.sequence (emptyStrings n) n n) data
  /-- No strings take no memory. -/
  stringSequenceInit_zero : ∀ data, stringSequenceInit data 0 = place 24 (.sequence [] 0 0) data
  /-- Without memory the sequence stays as it is. -/
  stringSequenceInit_refused : ∀ data n, 0 < n → (allocate (n * 24) && allocate 1) = false →
    stringSequenceInit data n = data
  /-- A string is initialized in its own cells. -/
  length_stringInit : ∀ data, 24 ≤ data.length → (stringInit data).length = data.length
  /-- A string is initialized in its own cells. -/
  drop_stringInit : ∀ data, 24 ≤ data.length → (stringInit data).drop 24 = data.drop 24

/-- Functions that do what the documentation says. -/
def RosidlRuntimeC.documented (allocate : ℕ → Bool) : RosidlRuntimeC allocate where
  stringInit data :=
    if allocate 1 then place 24 emptyString data
    else match head? 24 data with
      | some (.sequence _ size capacity) => place 24 (.sequence [] size capacity) data
      | _ => zeros 8 ++ data.drop 8
  stringAssignn data chars :=
    if allocate (chars.length + 1) then place 24
      (.sequence (chars.map .byte ++ [.byte 0]) chars.length (chars.length + 1)) data
    else data
  stringSequenceInit data n :=
    if n = 0 then place 24 (.sequence [] 0 0) data
    else if allocate (n * 24) && allocate 1 then place 24 (.sequence (emptyStrings n) n n) data
    else data
  stringInit_granted data h := if_pos h
  stringInit_refused data block size capacity h hdata := by
    rw [if_neg (by rw [h]; decide), hdata]
  stringAssignn_granted data chars h := if_pos h
  stringAssignn_refused data chars h := if_neg (by rw [h]; decide)
  stringSequenceInit_granted data n hn h h' := by
    rw [if_neg hn.ne', h, h']
    rfl
  stringSequenceInit_zero data := rfl
  stringSequenceInit_refused data n hn h := by
    rw [if_neg hn.ne', h]
    rfl
  length_stringInit data h := by
    split_ifs
    · exact length_place (by decide) h _
    · split
      · exact length_place (by decide) h _
      · rw [List.length_append, zeros, List.length_replicate, List.length_drop]
        omega
  drop_stringInit data h := by
    split_ifs
    · exact drop_place (by decide) _
    · split
      · exact drop_place (by decide) _
      · rw [List.drop_append, List.drop_eq_nil_of_le (by rw [zeros, List.length_replicate]; omega),
          List.nil_append, List.drop_drop, zeros, List.length_replicate]

/-- What the source leaves to the platform it runs on. -/
structure Platform where
  /-- Whether a request for so many bytes is granted. -/
  grants : ℕ → Bool
  /-- What fresh memory from `new` contains. -/
  garbage : ℕ → UInt8
  /-- The byte a `memcpy` sees in a cell of an object that is not plain bytes. -/
  representation : Cell → UInt8
  /-- The capacity that a container would like to have, given its size, its capacity and what it
  needs. -/
  growth : ℕ → ℕ → ℕ → ℕ
  /-- The functions of `rosidl_runtime_c`. -/
  runtimeC : RosidlRuntimeC (allocates grants)

namespace Platform

/-- Whether there is memory of so many bytes. -/
def allocate (M : Platform) (bytes : ℕ) : Bool := allocates M.grants bytes

/-- A platform that never runs out of memory. -/
def Ample (M : Platform) : Prop := ∀ n, n ≤ maxSize → M.grants n = true

theorem Ample.allocate {M : Platform} (h : M.Ample) {n : ℕ} (hn : n ≤ maxSize) :
    M.allocate n = true := by
  rw [Platform.allocate, allocates, h n hn, decide_eq_true hn]
  rfl

/-- A platform that grants whatever it is asked for, and whose containers double their capacity. -/
def generous : Platform :=
  ⟨fun _ => true, fun _ => 0, fun _ => 0, fun _ capacity _ => 2 * capacity, .documented _⟩

theorem generous_ample : generous.Ample := fun _ _ => rfl

/-- The byte a `memcpy` sees in a cell. -/
def toByte (M : Platform) : Cell → UInt8
  | .byte b => b
  | c => M.representation c

@[simp] theorem toByte_byte (M : Platform) (b : UInt8) : M.toByte (.byte b) = b := rfl

/-- Storage fresh from `new char[n]`. -/
def fresh (M : Platform) (n : ℕ) : List Cell := (List.range n).map fun i => .byte (M.garbage i)

@[simp] theorem length_fresh (M : Platform) (n : ℕ) : (M.fresh n).length = n := by
  simp [fresh]

/-- The capacity of a container that grows: what it needs, and more if its limit allows that. -/
def capacity (M : Platform) (limit size capacity needed : ℕ) : ℕ :=
  max needed (min (M.growth size capacity needed) limit)

theorem capacity_le {M : Platform} {limit size capacity needed : ℕ} (h : needed ≤ limit) :
    M.capacity limit size capacity needed ≤ limit := max_le h (min_le_right _ _)

end Platform

/-! ## Values -/

/-- What a program sees in a message, in either language. -/
inductive Value where
  /-- A number, as the bytes it is stored in. -/
  | primitive (bytes : List UInt8)
  /-- A string. -/
  | string (chars : List UInt8)
  /-- A sequence of booleans. -/
  | bools (bits : List Bool)
  /-- A static array. -/
  | array (elems : List Value)
  /-- A bounded or unbounded sequence of anything but booleans. -/
  | sequence (elems : List Value)
  /-- A message, field by field. -/
  | message (fields : List Value)

/-- The byte a boolean is stored in. -/
def boolByte (b : Bool) : UInt8 := if b then 1 else 0

/-- A boolean read from the byte it is stored in. -/
def boolOfByte? (b : UInt8) : Option Bool :=
  if b = 0 then some false else if b = 1 then some true else none

theorem boolOfByte?_eq_some {b : UInt8} {x : Bool} (h : boolOfByte? b = some x) :
    b = boolByte x := by
  rw [boolOfByte?] at h
  split_ifs at h with h0 h1
  · cases h; exact h0
  · cases h; exact h1

theorem mapM_boolOfByte?_eq_some {bs : List UInt8} {bits : List Bool}
    (h : bs.mapM boolOfByte? = some bits) : bs = bits.map boolByte := by
  induction bs generalizing bits with
  | nil => cases h; rfl
  | cons b bs ih =>
    rw [List.mapM_cons] at h
    obtain ⟨x, hx, h⟩ := Option.bind_eq_some_iff.mp h
    obtain ⟨xs, hxs, h⟩ := Option.bind_eq_some_iff.mp h
    cases h
    rw [List.map_cons, ← ih hxs, boolOfByte?_eq_some hx]

theorem mapM_boolOfByte?_map (bits : List Bool) :
    (bits.map boolByte).mapM boolOfByte? = some bits := by
  induction bits with
  | nil => rfl
  | cons b bits ih =>
    have hb : boolOfByte? (boolByte b) = some b := by cases b <;> rfl
    rw [List.map_cons, List.mapM_cons, hb, ih]
    rfl

theorem length_mapM_boolOfByte? {bs : List UInt8} {bits : List Bool}
    (h : bs.mapM boolOfByte? = some bits) : bs.length = bits.length := by
  rw [mapM_boolOfByte?_eq_some h, List.length_map]

/-- An `array_size_t` as it stands in memory and on the wire. -/
def sizeBytes (n : ℕ) : List UInt8 := leBytes 8 n

@[simp] theorem length_sizeBytes (n : ℕ) : (sizeBytes n).length = 8 := length_leBytes 8 n

mutual

/-- The plain encoding of a value: numbers as they are, and in front of everything of variable
length its number of elements. -/
def Value.wire : Value → List UInt8
  | .primitive bytes => bytes
  | .string chars => sizeBytes chars.length ++ chars
  | .bools bits => sizeBytes bits.length ++ bits.map boolByte
  | .array elems => wireList elems
  | .sequence elems => sizeBytes elems.length ++ wireList elems
  | .message fields => wireList fields

/-- The plain encodings of a list of values, one after the other. -/
def Value.wireList : List Value → List UInt8
  | [] => []
  | v :: vs => v.wire ++ wireList vs

end

/-! ## How a language stores strings and sequences -/

/-- The object model of a language binding.  The readings are those of *valid* objects: they
respect the size limits of the containers, and a boolean is a `0` or a `1`. -/
structure Abi where
  /-- The size of a string object. -/
  stringSize : ℕ
  /-- The size of a sequence object of anything but booleans. -/
  vectorSize : ℕ
  /-- The size of a sequence of booleans. -/
  boolVectorSize : ℕ
  /-- The characters of the string at a pointer. -/
  readString : List Cell → Option (List UInt8)
  /-- The number of elements of the given size in the sequence at a pointer, and their storage. -/
  readVector : ℕ → List Cell → Option (ℕ × List Cell)
  /-- The elements of the sequence of booleans at a pointer. -/
  readBools : List Cell → Option (List Bool)
  /-- A string is read from its own cells. -/
  readString_local : LocalTo stringSize readString
  /-- A sequence is read from its own cells. -/
  readVector_local : ∀ elemSize, LocalTo vectorSize (readVector elemSize)
  /-- A sequence of booleans is read from its own cells. -/
  readBools_local : LocalTo boolVectorSize readBools
  /-- A string has a size limit. -/
  readString_lt : ∀ data chars, readString data = some chars → chars.length < maxSize
  /-- A sequence has a size limit. -/
  readVector_le : ∀ elemSize data p, readVector elemSize data = some p → p.1 * elemSize ≤ maxSize
  /-- A sequence of booleans has a size limit. -/
  readBools_le : ∀ data bits, readBools data = some bits → bits.length ≤ maxSize

theorem head?_local (size : ℕ) (h : 0 < size) : LocalTo size (head? size) := by
  intro data data' htake
  have hlen : (data.take size).length = (data'.take size).length := by rw [htake]
  rw [List.length_take, List.length_take] at hlen
  have hhead : data.head? = data'.head? := by
    have hne : ∀ l : List Cell, l.head? = (l.take size).head? := fun l => by
      rw [List.head?_take, if_neg (by omega)]
    rw [hne data, hne data', htake]
  rw [head?, head?, hhead]
  by_cases hd : size ≤ data.length
  · rw [if_pos hd, if_pos (by omega)]
  · rw [if_neg hd, if_neg (by omega)]

theorem stdString?_local : LocalTo 32 stdString? := by
  intro data data' htake
  rw [stdString?, stdString?, head?_local 32 (by decide) _ _ htake, zeroed, zeroed, htake]

theorem stdVector?_local : LocalTo 24 stdVector? := by
  intro data data' htake
  rw [stdVector?, stdVector?, head?_local 24 (by decide) _ _ htake, zeroed, zeroed, htake]

theorem stdVectorBool?_local : LocalTo 40 stdVectorBool? := by
  intro data data' htake
  rw [stdVectorBool?, stdVectorBool?, head?_local 40 (by decide) _ _ htake, zeroed, zeroed, htake]

theorem cSequence?_local : LocalTo 24 cSequence? := by
  intro data data' htake
  rw [cSequence?, cSequence?, head?_local 24 (by decide) _ _ htake]

/-- `std::string`, `std::vector<T>` and `std::vector<bool>`. -/
def cppAbi : Abi where
  stringSize := 32
  vectorSize := 24
  boolVectorSize := 40
  readString data := (stdString? data).filter fun chars => decide (chars.length < maxSize)
  readVector elemSize data := (stdVector? data).bind fun storage =>
    let n := storage.length / elemSize
    if n * elemSize = storage.length ∧ storage.length ≤ maxSize then some (n, storage) else none
  readBools data := (stdVectorBool? data).filter fun bits => decide (bits.length ≤ maxSize)
  readString_local := stdString?_local.comp _
  readVector_local _ := stdVector?_local.comp (·.bind _)
  readBools_local := stdVectorBool?_local.comp _
  readString_lt _ _ h := by simpa using (Option.filter_eq_some_iff.mp h).2
  readVector_le elemSize data p h := by
    obtain ⟨storage, -, hp⟩ := Option.bind_eq_some_iff.mp h
    dsimp only at hp
    split at hp
    · rename_i hle
      cases hp
      exact hle.1.trans_le hle.2
    · cases hp
  readBools_le _ _ h := by simpa using (Option.filter_eq_some_iff.mp h).2

/-- `rosidl_runtime_c__String` and the `rosidl_runtime_c__*__Sequence` types. -/
def cAbi : Abi where
  stringSize := 24
  vectorSize := 24
  boolVectorSize := 24
  readString data := (cSequence? data).bind fun (block, size) =>
    if size < maxSize then bytes? size block else none
  readVector elemSize data := (cSequence? data).bind fun (block, size) =>
    if size * elemSize ≤ block.length ∧ size * elemSize ≤ maxSize then some (size, block) else none
  readBools data := (cSequence? data).bind fun (block, size) =>
    if size ≤ maxSize then (bytes? size block).bind fun bs => bs.mapM boolOfByte? else none
  readString_local := cSequence?_local.comp (·.bind _)
  readVector_local _ := cSequence?_local.comp (·.bind _)
  readBools_local := cSequence?_local.comp (·.bind _)
  readString_lt data chars h := by
    obtain ⟨⟨block, size⟩, -, hp⟩ := Option.bind_eq_some_iff.mp h
    dsimp only at hp
    split at hp
    · rw [length_of_bytes? hp]
      assumption
    · cases hp
  readVector_le elemSize data p h := by
    obtain ⟨⟨block, size⟩, -, hp⟩ := Option.bind_eq_some_iff.mp h
    dsimp only at hp
    split at hp
    · rename_i hle
      cases hp
      exact hle.2
    · cases hp
  readBools_le data bits h := by
    obtain ⟨⟨block, size⟩, -, hp⟩ := Option.bind_eq_some_iff.mp h
    dsimp only at hp
    split at hp
    · obtain ⟨bs, hbs, hbits⟩ := Option.bind_eq_some_iff.mp hp
      rw [← length_mapM_boolOfByte? hbits, length_of_bytes? hbs]
      assumption
    · cases hp

end RmwEcal
