import RmwEcal.Dynamic.Language
import RmwEcal.Dynamic.RoundTrip

/-!
# The memory that a decoded sequence gets

The number of elements comes off the wire, unchecked, and is multiplied by the size of an element in
64 bits.  When is the storage that is asked for large enough for what is then written to it?

`FillsExactly` says what should happen for a number of elements: there is no memory, or the elements
are put into storage of exactly as many bytes as they take, and that storage is left in the
sequence.  `std::vector<T>::resize` gets this right, since it multiplies for itself and refuses what
does not fit.  The three places where the product is computed in `size_t` get it right exactly for
those numbers for which the product fits, or leaves a remainder that is refused as well
(`allocation_exact_iff`).
-/

set_option autoImplicit false

namespace RmwEcal

open Codec

/-- A sequence member, as far as the templates that decode it look at its type. -/
inductive SequenceMember where
  /-- Elements of a fixed-size type. -/
  | primitive (p : Primitive)
  /-- Messages, with their size, whether they are copied as a block, and how one is decoded. -/
  | message (memberSize : ℕ) (memcopyable : Bool) (decode : Decoder Cell UInt8 Fault)

namespace SequenceMember

/-- The size of an element. -/
def size : SequenceMember → ℕ
  | primitive p => p.sizeof
  | message memberSize _ _ => memberSize

/-- What the elements are filled with, if the bytes are counted in numbers that do not wrap. -/
def fill : SequenceMember → ℕ → Decoder Cell UInt8 Fault
  | primitive p, n => copyBytes (n * p.sizeof)
  | message memberSize true _, n => copyBytes (n * memberSize)
  | message memberSize false decode, n => decode.each memberSize n

/-- `DeserializeDynamicArray` for this member. -/
def deserialize (l : Language) (M : Platform) : SequenceMember → Decoder Cell UInt8 Fault
  | primitive p => (l.deserializerOps M).dynamicArray p
  | message memberSize memcopyable decode =>
    (l.deserializerOps M).dynamicArrayMessage memcopyable memberSize decode

end SequenceMember

/-- There is a sequence with elements of this size to decode into, with a capacity within the
limits.  In C any storage will do. -/
def Language.Target (l : Language) (size : ℕ) (data : List Cell) : Prop :=
  match l with
  | .cpp => ∃ k storage, cppAbi.readVector size data = some (k, storage) ∧
      storage.length + spare data ≤ maxSize
  | .c => 24 ≤ data.length

/-- The sequence at `data` has `n` elements, in this storage.  A C sequence that gets no elements is
not given storage, and keeps the pointer it had. -/
def Language.Stored (l : Language) (n : ℕ) (storage data : List Cell) : Prop :=
  match l with
  | .cpp => stdVector? data = some storage
  | .c => ∃ block, head? 24 data = some (.sequence block n n) ∧ (0 < n → block = storage)

/-- A run that fills storage of exactly `n * size` bytes with the elements and leaves that in the
sequence.  If filling it fails, then because of the input or of an element, and so does the run. -/
def ExactRun (l : Language) (m : SequenceMember) (n : ℕ) (src : List UInt8)
    (run : Except Fault (List Cell × List UInt8)) : Prop :=
  ∃ storage, storage.length = n * m.size ∧
    (∀ e, m.fill n storage src = .error e → run = .error e) ∧
    (∀ filled rest, m.fill n storage src = .ok (filled, rest) → filled.length = n * m.size ∧
      ∃ data, run = .ok (data, rest) ∧ l.Stored n filled data)

/-- **Decoding `n` elements fails for lack of memory, or is an exact run.** -/
def FillsExactly (l : Language) (m : SequenceMember) (n : ℕ) : Prop :=
  ∀ M data src, l.Target m.size data →
    m.deserialize l M data (sizeBytes n ++ src) = .error .allocation ∨
    ExactRun l m n src (m.deserialize l M data (sizeBytes n ++ src))

/-! ## Filling -/

theorem copyBytes_keepsLength (n : ℕ) : (copyBytes n).KeepsLength := by
  intro data src data' rest h
  rw [copyBytes] at h
  split_ifs at h with hroom
  cases h
  rw [List.length_append, List.length_map, List.length_take, List.length_drop]
  omega

theorem SequenceMember.fill_keepsLength {m : SequenceMember} {n : ℕ}
    (h : ∀ size marked decode, m = .message size marked decode → decode.KeepsLength) :
    (m.fill n).KeepsLength := by
  rcases m with p | ⟨size, _ | _, decode⟩
  · exact copyBytes_keepsLength _
  · exact (h _ _ _ rfl).each size n
  · exact copyBytes_keepsLength _

/-- A run that gets storage of the right size and then goes on as it should is exact. -/
theorem exactRun_of_fill {l : Language} {m : SequenceMember} {n : ℕ}
    {storage : List Cell} (src : List UInt8) (hkeep : (m.fill n).KeepsLength)
    (hlen : storage.length = n * m.size) (put : List Cell → List Cell)
    (hput : ∀ filled, l.Stored n filled (put filled)) :
    ExactRun l m n src (m.fill n storage src >>= fun p => .ok (put p.1, p.2)) := by
  refine ⟨storage, hlen, fun e he => ?_, fun filled rest hok => ?_⟩
  · rw [he]
    rfl
  · refine ⟨(hkeep _ _ _ _ hok).trans hlen, put filled, ?_, hput filled⟩
    rw [hok]
    rfl

/-- `n * size` can be counted in a `size_t`, or what is left of it is more than can be had. -/
def ProductFits (n size : ℕ) : Prop := n * size < 2 ^ 64 ∨ maxSize < n * size % 2 ^ 64

instance (n size : ℕ) : Decidable (ProductFits n size) :=
  inferInstanceAs (Decidable (_ ∨ _))

theorem ProductFits.sizeT_eq {n size : ℕ} (h : ProductFits n size)
    (hle : sizeT (n * size) ≤ maxSize) : sizeT (n * size) = n * size := by
  rcases h with hlt | hgt
  · exact Nat.mod_eq_of_lt hlt
  · exact absurd hle (not_le.mpr hgt)

/-- What does not fit leaves a smaller product, which is not too much to ask for. -/
theorem sizeT_lt_of_not_fits {n size : ℕ} (h : ¬ProductFits n size) :
    sizeT (n * size) < n * size ∧ sizeT (n * size) ≤ maxSize := by
  rw [ProductFits, not_or, not_lt, not_lt] at h
  exact ⟨(Nat.mod_lt _ (by decide)).trans_le h.1, h.2⟩

theorem copyBytes_returns {n : ℕ} {data : List Cell} {src : List UInt8} (hsrc : n ≤ src.length)
    (hdata : n ≤ data.length) : ∃ p, copyBytes n data src = .ok p :=
  ⟨_, if_pos ⟨hsrc, hdata⟩⟩

/-- Elements that are copied cannot be filled in from less than they take. -/
theorem not_exactRun_of_short {l : Language} {m : SequenceMember} {n : ℕ} {src : List UInt8}
    {run : Except Fault (List Cell × List UInt8)} (hfill : m.fill n = copyBytes (n * m.size))
    (hsrc : src.length < n * m.size) {p : List Cell × List UInt8} (hrun : run = .ok p) :
    ¬ExactRun l m n src run := by
  rintro ⟨storage, -, hfails, -⟩
  have hshort : m.fill n storage src = .error .undefined := by
    rw [hfill, copyBytes, if_neg fun h => absurd h.1 (by omega)]
  have hboth := hfails _ hshort
  rw [hrun] at hboth
  cases hboth

/-! ## C++ -/

namespace CppDeserializer

variable {M : Platform} {n : ℕ}

/-- A vector only grows into memory that it has, or that is granted. -/
theorem le_of_grow {size spare room : ℕ} (hspare : size + spare ≤ maxSize)
    (h : grow M maxSize id size spare n = .ok room) : size + n ≤ maxSize := by
  rw [grow] at h
  split_ifs at h with hroom
  · omega
  · have hcapacity : size + n ≤ M.capacity maxSize size (size + spare) (size + n) :=
      le_max_left _ _
    dsimp only at h
    split_ifs at h with hgrant
    rw [Platform.allocate, allocates, Bool.and_eq_true, decide_eq_true_iff] at hgrant
    exact hcapacity.trans hgrant.1

theorem grow_error {limit size spare : ℕ} {bytes : ℕ → ℕ} {e : Fault}
    (h : grow M limit bytes size spare n = .error e) : e = .allocation := by
  rw [grow] at h
  split_ifs at h
  dsimp only at h
  split_ifs at h
  cases h
  rfl

/-- `resize` gives a vector as many elements as it is asked for, or fails. -/
theorem length_resize {size k spare : ℕ} (hpos : 0 < size) {fill storage : List Cell}
    {relocate : Cell → Cell} {p : List Cell × ℕ} (hfill : fill.length = size)
    (hlen : storage.length = k * size) (hspare : storage.length + spare ≤ maxSize)
    (h : resize M size fill relocate n storage spare = .ok p) :
    p.1.length = n * size ∧ n * size ≤ maxSize := by
  have hresized : (resized size fill relocate n storage spare).length = n * size :=
    length_resized hpos hfill hlen
  have hsize : storage.length / size = k := by rw [hlen, Nat.mul_div_cancel k hpos]
  rw [resize] at h
  dsimp only at h
  rw [hsize] at h
  by_cases hnk : n ≤ k
  · rw [if_pos hnk] at h
    cases h
    have hle : n * size ≤ k * size := Nat.mul_le_mul_right size hnk
    exact ⟨hresized, by omega⟩
  · rw [if_neg hnk] at h
    cases hgrow : grow M maxSize id storage.length spare ((n - k) * size) with
    | error e => rw [hgrow] at h; cases h
    | ok room =>
      rw [hgrow] at h
      cases h
      have hle := le_of_grow hspare hgrow
      rw [hlen, ← Nat.add_mul, Nat.add_sub_cancel' (by omega)] at hle
      exact ⟨hresized, hle⟩

theorem resize_error {size spare : ℕ} {fill storage : List Cell} {relocate : Cell → Cell}
    {e : Fault} (h : resize M size fill relocate n storage spare = .error e) : e = .allocation := by
  rw [resize] at h
  dsimp only at h
  split_ifs at h
  · cases h
  · cases hgrow : grow M maxSize id storage.length spare ((n - storage.length / size) * size) with
    | error e' =>
      rw [hgrow] at h
      cases h
      exact grow_error hgrow
    | ok room => rw [hgrow] at h; cases h

theorem stored_place {data : List Cell} (h : 24 ≤ data.length) (room : ℕ) (filled : List Cell) :
    Language.cpp.Stored n filled (place 24 (.vector filled room) data) :=
  stdVector?_place h filled room

/-- **`std::vector<T>::resize` sees to it that the storage is as large as the elements.** -/
theorem fillsExactly_primitive (hn : n < 2 ^ 64) {p : Primitive} (hp : p ≠ .boolean) :
    FillsExactly .cpp (.primitive p) n := by
  rintro M data src ⟨k, storage, hvec, hspare⟩
  obtain ⟨hstorage, -, hlen, -⟩ := CppSerializer.readVector_eq_some hvec
  have hrun : (SequenceMember.primitive p).deserialize .cpp M data (sizeBytes n ++ src) =
      (resize M p.sizeof (zeros p.sizeof) id n storage (spare data) >>= fun block =>
        deserializeArray p n block.1 src >>= fun q =>
          .ok (place 24 (.vector q.1 block.2) data, q.2)) := by
    have htemplate : (deserializeDynamicArray M p.sizeof (zeros p.sizeof) (deserializeArray p))
        data (sizeBytes n ++ src) =
          (resize M p.sizeof (zeros p.sizeof) id n storage (spare data) >>= fun block =>
            deserializeArray p n block.1 src >>= fun q =>
              .ok (place 24 (.vector q.1 block.2) data, q.2)) := by
      rw [deserializeDynamicArray, hstorage]
      dsimp only
      rw [deserializeArraySize_append_of_lt hn]
      rfl
    cases p <;> first | exact htemplate | exact absurd rfl hp
  rw [hrun]
  rcases hresize : resize M p.sizeof (zeros p.sizeof) id n storage (spare data) with e | block
  · exact .inl (by rw [resize_error hresize]; rfl)
  · obtain ⟨hlen', hle⟩ := length_resize p.sizeof_pos List.length_replicate hlen.symm hspare hresize
    have hfill : deserializeArray p n = (SequenceMember.primitive p).fill n := by
      rw [deserializeArray, Nat.mul_comm, sizeT_of_le hle]
      rfl
    refine .inr ?_
    show ExactRun _ _ _ _ (deserializeArray p n block.1 src >>= _)
    rw [hfill]
    exact exactRun_of_fill (m := .primitive p) _ (copyBytes_keepsLength _) hlen'
      (fun filled => place 24 (.vector filled block.2) data)
      (stored_place (le_length_of_stdVector? hstorage) block.2)

/-- A run of `DeserializeDynamicArray<ros_message_t>`. -/
theorem deserialize_message_eq (hn : n < 2 ^ 64) {size : ℕ} {marked : Bool}
    {decode : Decoder Cell UInt8 Fault} {data storage : List Cell}
    (hstorage : stdVector? data = some storage) (src : List UInt8) :
    (SequenceMember.message size marked decode).deserialize .cpp M data (sizeBytes n ++ src) =
      (resize M 1 [.byte 0] Cell.moved (sizeT (n * size)) storage (spare data) >>= fun block =>
        (if marked then copyBytes (sizeT (n * size)) block.1 src
          else decode.each size n block.1 src) >>= fun q =>
          .ok (place 24 (.vector q.1 block.2) data, q.2)) := by
  show deserializeDynamicArrayMessage M marked size decode data (sizeBytes n ++ src) = _
  rw [deserializeDynamicArrayMessage, hstorage]
  dsimp only
  rw [deserializeArraySize_append_of_lt hn]
  cases marked <;> rfl

theorem fillsExactly_message (hn : n < 2 ^ 64) {size : ℕ} (hfits : ProductFits n size)
    (marked : Bool) {decode : Decoder Cell UInt8 Fault} (hdecode : decode.KeepsLength) :
    FillsExactly .cpp (.message size marked decode) n := by
  rintro M data src ⟨k, storage, hvec, hspare⟩
  obtain ⟨hstorage, -⟩ := CppSerializer.readVector_eq_some hvec
  rw [deserialize_message_eq hn hstorage]
  rcases hresize : resize M 1 [.byte 0] Cell.moved (sizeT (n * size)) storage (spare data) with
    e | block
  · exact .inl (by rw [resize_error hresize]; rfl)
  · obtain ⟨hlen', hle⟩ :=
      length_resize one_pos rfl (Nat.mul_one storage.length).symm hspare hresize
    rw [Nat.mul_one] at hlen' hle
    rw [hfits.sizeT_eq hle] at hlen' ⊢
    have hkeep : ((SequenceMember.message size marked decode).fill n).KeepsLength :=
      SequenceMember.fill_keepsLength fun _ _ _ heq => by cases heq; exact hdecode
    refine .inr ?_
    have hexact := exactRun_of_fill (l := .cpp) src hkeep hlen'
      (fun filled => place 24 (.vector filled block.2) data)
      (stored_place (le_length_of_stdVector? hstorage) block.2)
    cases marked with
    | false => exact hexact
    | true => exact hexact

/-- An empty vector is given fewer bytes than the messages take, and the copy is as short. -/
theorem not_fillsExactly_message (hn : n < 2 ^ 64) {size : ℕ} (hfits : ¬ProductFits n size)
    (decode : Decoder Cell UInt8 Fault) : ¬FillsExactly .cpp (.message size true decode) n := by
  obtain ⟨hlt, hle⟩ := sizeT_lt_of_not_fits hfits
  intro h
  have htarget : Language.cpp.Target size (zeros 24) := ⟨0, [], by
    dsimp only [cppAbi]
    rw [show stdVector? (zeros 24) = some [] from rfl, Option.bind_some]
    simp, by decide⟩
  have hrun : ∃ p, (SequenceMember.message size true decode).deserialize .cpp .generous (zeros 24)
      (sizeBytes n ++ List.replicate (sizeT (n * size)) 0) = .ok p := by
    rw [deserialize_message_eq hn rfl]
    have hempty : ([] : List Cell).length = 0 * 1 := rfl
    have hmax : sizeT (n * size) * 1 ≤ maxSize := by rwa [Nat.mul_one]
    obtain ⟨room, hresize⟩ : ∃ room, resize .generous 1 [.byte 0] Cell.moved (sizeT (n * size)) []
        (spare (zeros 24)) = .ok (_, room) := resize_eq Platform.generous_ample one_pos hempty hmax
    obtain ⟨hlen', -⟩ := length_resize one_pos rfl hempty (by decide) hresize
    have hsrc : sizeT (n * size) ≤ (List.replicate (sizeT (n * size)) (0 : UInt8)).length :=
      List.length_replicate.ge
    obtain ⟨q, hq⟩ := copyBytes_returns hsrc (by rw [hlen', Nat.mul_one] : sizeT (n * size) ≤ _)
    refine ⟨(place 24 (.vector q.1 room) (zeros 24), q.2), ?_⟩
    rw [hresize]
    show (copyBytes (sizeT (n * size)) _ _ >>= _) = _
    rw [hq]
    rfl
  obtain ⟨p, hrun⟩ := hrun
  rcases h .generous (zeros 24) (List.replicate (sizeT (n * size)) 0) htarget with herr | hexact
  · rw [hrun] at herr
    cases herr
  · exact not_exactRun_of_short rfl (by rw [List.length_replicate]; exact hlt) hrun hexact

/-- `push_back` puts every element somewhere, or fails. -/
theorem pushBack_eq (bits : List Bool) (room : ℕ) {src : List UInt8} (h : n ≤ src.length) :
    pushBack M n bits room src = .error .allocation ∨ ∃ room',
      pushBack M n bits room src =
        .ok ((bits ++ (src.take n).map (· != 0), room'), src.drop n) := by
  induction n generalizing bits room src with
  | zero => exact .inr ⟨room, by simp [pushBack]⟩
  | succ n ih =>
    rcases src with _ | ⟨b, src⟩
    · cases h
    · have hnext : ∀ room, pushBack M n (bits ++ [b != 0]) room src = .error .allocation ∨ ∃ room',
          pushBack M n (bits ++ [b != 0]) room src =
            .ok ((bits ++ ((b :: src).take (n + 1)).map (· != 0), room'), src.drop n) := by
        intro room
        have hsplit : bits ++ ((b :: src).take (n + 1)).map (· != 0) =
            bits ++ [b != 0] ++ (src.take n).map (· != 0) := by
          rw [List.append_assoc]
          rfl
        rw [hsplit]
        exact ih (bits ++ [b != 0]) room (by simpa using h : n ≤ src.length)
      cases room with
      | zero =>
        rw [pushBack]
        split_ifs
        · exact hnext _
        · exact .inl rfl
      | succ room =>
        rw [pushBack]
        exact hnext room

/-- A `std::vector<bool>` makes room for each boolean as it comes. -/
theorem deserializeDynamicArrayBool_eq (hn : n < 2 ^ 64) {data : List Cell} {bits : List Bool}
    (hbits : stdVectorBool? data = some bits) {src : List UInt8} (hsrc : n ≤ src.length) :
    deserializeDynamicArrayBool M data (sizeBytes n ++ src) = .error .allocation ∨ ∃ room,
      deserializeDynamicArrayBool M data (sizeBytes n ++ src) =
        .ok (place 40 (.vectorBool (bits ++ (src.take n).map (· != 0)) room) data, src.drop n) := by
  rw [deserializeDynamicArrayBool, hbits]
  dsimp only
  rw [deserializeArraySize_append_of_lt hn]
  dsimp only [bind, Except.bind]
  cases hreserve : reserve M n bits.length (spare data) with
  | error e =>
    rw [reserve] at hreserve
    split_ifs at hreserve
    cases hreserve
    exact .inl rfl
  | ok room =>
    dsimp only
    rcases pushBack_eq (M := M) bits room hsrc with hrun | ⟨room', hrun⟩
    · exact .inl (by rw [hrun])
    · exact .inr ⟨room', by rw [hrun]⟩

end CppDeserializer

/-! ## C -/

namespace CDeserializer

variable {M : Platform} {n : ℕ}

/-- A run of `DeserializeDynamicArray`, for elements of a fixed-size type or messages. -/
theorem deserializeDynamicArray_eq (hn : n < 2 ^ 64) {size : ℕ}
    {array : ℕ → Decoder Cell UInt8 Fault} {data : List Cell} (hlen : 24 ≤ data.length)
    (src : List UInt8) :
    deserializeDynamicArray M size array data (sizeBytes n ++ src) =
      if 0 < n then
        if M.allocate (sizeT (n * size)) then
          array n (M.fresh (sizeT (n * size))) src >>= fun q =>
            .ok (place 24 (.sequence q.1 n n) data, q.2)
        else .error .allocation
      else .ok (place 24 (.sequence (sequenceData data) 0 0) data, src) := by
  rw [deserializeDynamicArray, if_neg (not_lt.mpr hlen), deserializeArraySize_append_of_lt hn]
  rfl

theorem stored_place {data : List Cell} (h : 24 ≤ data.length) (filled : List Cell) :
    Language.c.Stored n filled (place 24 (.sequence filled n n) data) :=
  ⟨filled, head?_place (by decide) h _, fun _ => rfl⟩

/-- The two templates of C are one, given what they fill the storage with. -/
theorem fillsExactly_of_template {m : SequenceMember} (hn : n < 2 ^ 64)
    (hfits : ProductFits n m.size) (hkeep : (m.fill n).KeepsLength)
    (array : ℕ → Decoder Cell UInt8 Fault)
    (hrun : ∀ M, m.deserialize .c M = deserializeDynamicArray M m.size array)
    (harray : sizeT (n * m.size) = n * m.size → array n = m.fill n)
    (hnone : n = 0 → ∀ storage src, m.fill n storage src = .ok (storage, src)) :
    FillsExactly .c m n := by
  intro M data src htarget
  have hlen : 24 ≤ data.length := htarget
  rw [hrun, deserializeDynamicArray_eq hn hlen]
  split_ifs with hpos hallocate
  · rw [Platform.allocate, allocates, Bool.and_eq_true, decide_eq_true_iff] at hallocate
    have hsize := hfits.sizeT_eq hallocate.1
    rw [hsize, harray hsize]
    exact .inr (exactRun_of_fill _ hkeep (M.length_fresh _)
      (fun filled => place 24 (.sequence filled n n) data) (stored_place hlen))
  · exact .inl rfl
  · have hzero : n = 0 := by omega
    subst hzero
    have hempty : ([] : List Cell).length = 0 * m.size := (Nat.zero_mul m.size).symm
    have hexact := exactRun_of_fill (l := .c) src hkeep hempty
      (fun _ => place 24 (.sequence (sequenceData data) 0 0) data)
      (fun _ => ⟨_, head?_place (by decide) hlen _, fun h => absurd h (lt_irrefl 0)⟩)
    rw [hnone rfl] at hexact
    exact .inr hexact

theorem copyBytes_zero (data : List Cell) (src : List UInt8) :
    copyBytes 0 data src = .ok (data, src) := by
  rw [copyBytes, if_pos ⟨Nat.zero_le _, Nat.zero_le _⟩]
  rfl

theorem fillsExactly_primitive (hn : n < 2 ^ 64) {p : Primitive}
    (hfits : ProductFits n p.sizeof) : FillsExactly .c (.primitive p) n := by
  refine fillsExactly_of_template hn hfits (copyBytes_keepsLength _) (deserializeArray p)
    (fun _ => rfl) (fun hsize => ?_) fun hzero storage src => ?_
  · rw [deserializeArray, Nat.mul_comm]
    exact congrArg copyBytes hsize
  · subst hzero
    rw [SequenceMember.fill, Nat.zero_mul, copyBytes_zero]

theorem fillsExactly_message (hn : n < 2 ^ 64) {size : ℕ} (hfits : ProductFits n size)
    (marked : Bool) {decode : Decoder Cell UInt8 Fault} (hdecode : decode.KeepsLength) :
    FillsExactly .c (.message size marked decode) n := by
  have hkeep : ((SequenceMember.message size marked decode).fill n).KeepsLength :=
    SequenceMember.fill_keepsLength fun _ _ _ heq => by cases heq; exact hdecode
  refine fillsExactly_of_template hn hfits hkeep
    (fun k => deserializeArrayMessage marked size k decode) (fun _ => rfl) (fun hsize => ?_)
    fun hzero storage src => ?_
  · cases marked with
    | false => rfl
    | true => exact congrArg copyBytes hsize
  · subst hzero
    cases marked with
    | false => rfl
    | true => rw [SequenceMember.fill, Nat.zero_mul, copyBytes_zero]

/-- A sequence is given fewer bytes than its elements take, and the copy is as short. -/
theorem not_fillsExactly_of_template {m : SequenceMember} (hn : n < 2 ^ 64)
    (hfits : ¬ProductFits n m.size) (hfill : m.fill n = copyBytes (n * m.size))
    (array : ℕ → Decoder Cell UInt8 Fault)
    (hrun : ∀ M, m.deserialize .c M = deserializeDynamicArray M m.size array)
    (harray : array n = copyBytes (sizeT (n * m.size))) : ¬FillsExactly .c m n := by
  obtain ⟨hlt, hle⟩ := sizeT_lt_of_not_fits hfits
  intro h
  have hpos : 0 < n := by
    rcases Nat.eq_zero_or_pos n with rfl | hpos
    · exact absurd hlt (by rw [Nat.zero_mul]; exact Nat.not_lt_zero _)
    · exact hpos
  have hsrc : sizeT (n * m.size) ≤ (List.replicate (sizeT (n * m.size)) (0 : UInt8)).length :=
    List.length_replicate.ge
  have hdata : sizeT (n * m.size) ≤ (Platform.generous.fresh (sizeT (n * m.size))).length :=
    (Platform.length_fresh _ _).ge
  obtain ⟨q, hq⟩ := copyBytes_returns hsrc hdata
  have hok : m.deserialize .c .generous (zeros 24)
      (sizeBytes n ++ List.replicate (sizeT (n * m.size)) 0) =
        .ok (place 24 (.sequence q.1 n n) (zeros 24), q.2) := by
    rw [hrun, deserializeDynamicArray_eq hn (by decide), if_pos hpos,
      if_pos (Platform.generous_ample.allocate hle), harray, hq]
    rfl
  rcases h .generous (zeros 24) _ (by decide : 24 ≤ (zeros 24).length) with herr | hexact
  · rw [hok] at herr
    cases herr
  · exact not_exactRun_of_short hfill (by rw [List.length_replicate]; exact hlt) hok hexact

end CDeserializer

/-! ## Both languages -/

theorem deserializeMessage_keepsLength {l : Language} (M : Platform) (reg : Registry)
    {S : MessageMembers} (h : RosidlLayout l.abi S) :
    (deserializeMessage l.abi (l.deserializerOps M) reg S).KeepsLength := by
  cases l with
  | cpp => exact (deserializeMessage_follows CppDeserializer.framed h).keepsLength
  | c => exact (deserializeMessage_follows CDeserializer.framed h).keepsLength

/-- **The storage of a decoded sequence is as large as its elements, exactly for the numbers of
elements whose size in bytes fits or cannot be had.**  A C++ vector of a fixed-size type is always
right, and one of booleans has no storage to outgrow. -/
theorem allocation_exact_iff {n : ℕ} (hn : n < 2 ^ 64) :
    (∀ p, p ≠ .boolean → FillsExactly .cpp (.primitive p) n) ∧
    (∀ M data bits src, stdVectorBool? data = some bits → n ≤ src.length →
      (SequenceMember.primitive .boolean).deserialize .cpp M data (sizeBytes n ++ src) =
          .error .allocation ∨ ∃ room,
        (SequenceMember.primitive .boolean).deserialize .cpp M data (sizeBytes n ++ src) =
          .ok (place 40 (.vectorBool (bits ++ (src.take n).map (· != 0)) room) data,
            src.drop n)) ∧
    (∀ p, FillsExactly .c (.primitive p) n ↔ ProductFits n p.sizeof) ∧
    (∀ l size, (∀ marked decode, Decoder.KeepsLength decode →
      FillsExactly l (.message size marked decode) n) ↔ ProductFits n size) := by
  refine ⟨fun p hp => CppDeserializer.fillsExactly_primitive hn hp,
    fun M data bits src hbits hsrc => CppDeserializer.deserializeDynamicArrayBool_eq hn hbits hsrc,
    fun p => ⟨fun h => ?_, CDeserializer.fillsExactly_primitive hn⟩,
    fun l size => ⟨fun h => ?_, fun hfits marked decode hdecode => ?_⟩⟩
  · by_contra hfits
    refine CDeserializer.not_fillsExactly_of_template (m := .primitive p) hn hfits rfl
      (deserializeArray p) (fun _ => rfl) ?_ h
    rw [deserializeArray, Nat.mul_comm]
    rfl
  · by_contra hfits
    have hcopy := h true (copyBytes size) (copyBytes_keepsLength size)
    cases l with
    | cpp => exact CppDeserializer.not_fillsExactly_message hn hfits _ hcopy
    | c =>
      exact CDeserializer.not_fillsExactly_of_template (m := .message size true (copyBytes size))
        hn hfits rfl (fun k => deserializeArrayMessage true size k (copyBytes size))
        (fun _ => rfl) rfl hcopy
  · cases l with
    | cpp => exact CppDeserializer.fillsExactly_message hn hfits marked hdecode
    | c => exact CDeserializer.fillsExactly_message hn hfits marked hdecode

/-- The decoders of messages are among those that the messages of a sequence may have. -/
theorem fillsExactly_deserializeMessage {l : Language} {M : Platform} {reg : Registry}
    {S : MessageMembers} (h : RosidlLayout l.abi S) {n : ℕ} (hn : n < 2 ^ 64)
    (hfits : ProductFits n S.sizeOf) :
    FillsExactly l (.message S.sizeOf (reg.isMemcopyable S)
      (deserializeMessage l.abi (l.deserializerOps M) reg S)) n := by
  have hkeep := deserializeMessage_keepsLength M reg h
  cases l with
  | cpp => exact CppDeserializer.fillsExactly_message hn hfits _ hkeep
  | c => exact CDeserializer.fillsExactly_message hn hfits _ hkeep

theorem allocation_exact_iff_doubles :
    (∀ p, p ≠ .boolean → FillsExactly .cpp (.primitive p) (2 ^ 61)) ∧
    (∀ M data bits src, stdVectorBool? data = some bits → 2 ^ 61 ≤ src.length →
      (SequenceMember.primitive .boolean).deserialize .cpp M data (sizeBytes (2 ^ 61) ++ src) =
          .error .allocation ∨ ∃ room,
        (SequenceMember.primitive .boolean).deserialize .cpp M data (sizeBytes (2 ^ 61) ++ src) =
          .ok (place 40 (.vectorBool (bits ++ (src.take (2 ^ 61)).map (· != 0)) room) data,
            src.drop (2 ^ 61))) ∧
    (∀ p, FillsExactly .c (.primitive p) (2 ^ 61) ↔ ProductFits (2 ^ 61) p.sizeof) ∧
    (∀ l size, (∀ marked decode, Decoder.KeepsLength decode →
      FillsExactly l (.message size marked decode) (2 ^ 61)) ↔ ProductFits (2 ^ 61) size) :=
  allocation_exact_iff (by decide)

/-- A sequence of doubles. -/
def doubles : MessageMembers := .mk 8 24 [⟨.unbounded, .primitive .double, 0⟩]

/-- A sequence of places, each of 40 bytes. -/
def places : MessageMembers := .mk 9 24 [⟨.unbounded, .message cppPlace, 0⟩]

/-- Eight bytes make C believe in `2 ^ 61` doubles without any storage, and C++ decode a place into
a vector of no bytes, which with a place of its own would have gone well. -/
theorem allocation_wraps :
    ¬FillsExactly .c (.primitive .double) (2 ^ 61) ∧
    CDeserializer.deserialize .generous (registryAfter cCountedSize [doubles]) doubles (zeros 24)
      (sizeBytes (2 ^ 61)) = .ok (object 24 (.sequence [] (2 ^ 61) (2 ^ 61)), []) ∧
    (∃ message', CppDeserializer.deserialize .generous (registryAfter cppCountedSize [places])
      places (zeros 24) (sizeBytes 1 ++ (sizeBytes 1 ++ [65] ++ List.replicate 8 0)) =
        .ok (message', [])) ∧
    CppDeserializer.deserialize .generous (registryAfter cppCountedSize [places]) places (zeros 24)
      (sizeBytes (2 ^ 61) ++ (sizeBytes 1 ++ [65] ++ List.replicate 8 0)) = .error .undefined := by
  refine ⟨CDeserializer.not_fillsExactly_of_template (m := .primitive .double)
    (by decide) (by decide) rfl (deserializeArray .double) (fun _ => rfl) rfl, rfl, ⟨_, rfl⟩,
    rfl⟩

end RmwEcal
