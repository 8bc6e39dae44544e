import RmwEcal.Dynamic.Restoring

/-!
# Strings and sequences in the two languages

The templates that `CppDeserializer` and `CDeserializer` write differently undo the encoding:
`CppDeserializer.restoring` keeps what the target held, `CDeserializer.restoring` does not.  Both
need a platform that does not run out of memory.
-/

set_option autoImplicit false

namespace RmwEcal

open Codec Value

theorem deserializeArraySize_append_of_lt {n : ℕ} (h : n < 2 ^ 64) (rest : List UInt8) :
    deserializeArraySize (sizeBytes n ++ rest) = .ok (n, rest) := by
  have hlen : (sizeBytes n).length = 8 := length_sizeBytes n
  have hlt : n < 256 ^ 8 := h.trans_le (by decide)
  rw [deserializeArraySize, if_pos (by rw [List.length_append]; omega), List.take_left' hlen,
    List.drop_left' hlen, sizeBytes, ofLeBytes_leBytes_of_lt hlt]

theorem deserializeArraySize_append {n : ℕ} (h : n ≤ maxSize) (rest : List UInt8) :
    deserializeArraySize (sizeBytes n ++ rest) = .ok (n, rest) :=
  deserializeArraySize_append_of_lt (lt_of_le_of_lt h (by decide)) rest

theorem le_of_mul_le {n size : ℕ} (hpos : 0 < size) (h : n * size ≤ maxSize) : n ≤ maxSize :=
  (Nat.le_mul_of_pos_right n hpos).trans h

/-! ## C++ -/

namespace CppDeserializer

variable {M : Platform} {ready : List Cell → Prop}

/-- There is memory for what is within the limits. -/
theorem grow_eq (hM : M.Ample) (limit : ℕ) (bytes : ℕ → ℕ) (size spare n : ℕ)
    (h : size + n ≤ limit) (hbytes : ∀ c, c ≤ limit → bytes c ≤ maxSize) :
    ∃ room, grow M limit bytes size spare n = .ok room := by
  rw [grow]
  split_ifs with hroom
  · exact ⟨_, rfl⟩
  · exact ⟨_, if_pos (hM.allocate (hbytes _ (Platform.capacity_le h)))⟩

theorem singleString_restores (hM : M.Ample) {v : Value} {w : List UInt8}
    (hw : stringFormat v w) : Restores (deserializeSingleString M) true ready cppAbi.stringSize
      (fun d => (cppAbi.readString d).map .string) v w := by
  obtain ⟨chars, rfl, hlt, rfl⟩ := hw
  intro data old hlen hold hok rest
  have hlen' : ¬data.length < 32 := not_lt.mpr hlen
  obtain ⟨was, hwas, rfl⟩ := Option.map_eq_some_iff.mp (hold rfl).1
  obtain ⟨hwas, hwaslt⟩ := readString_eq_some.mp hwas
  rw [overlay, if_pos rfl, Value.chars] at hok ⊢
  rw [Storable, List.length_append] at hok
  rw [deserializeSingleString, if_neg hlen', List.append_assoc,
    deserializeArraySize_append hlt.le]
  dsimp only [bind, Except.bind, pure, Except.pure]
  by_cases hchars : 0 < chars.length
  · have hroom : chars.length ≤ (chars ++ rest).length := by rw [List.length_append]; omega
    obtain ⟨room, hgrow⟩ := grow_eq hM (maxSize - 1) (· + 1) was.length (spare data) chars.length
      (by omega) fun c hc => by omega
    rw [if_pos hchars, hwas]
    dsimp only
    rw [hgrow]
    dsimp only
    rw [if_pos hroom, List.take_left, List.drop_left]
    refine ⟨_, rfl, length_place (by decide) hlen _, drop_place (by decide) _, ?_⟩
    refine Option.map_eq_some_iff.mpr
      ⟨_, readString_eq_some.mpr ⟨stdString?_place hlen _ _ _, ?_⟩, rfl⟩
    rwa [List.length_append]
  · have hnil : chars = [] := List.eq_nil_of_length_eq_zero (by omega)
    rw [if_neg hchars, hnil, List.nil_append, List.append_nil]
    exact ⟨data, rfl, rfl, rfl, Option.map_eq_some_iff.mpr
      ⟨was, readString_eq_some.mpr ⟨hwas, hwaslt⟩, rfl⟩⟩

theorem readVector_place {data storage : List Cell} (h : 24 ≤ data.length) {n stride room : ℕ}
    (hpos : 0 < stride) (hlen : storage.length = n * stride) (hsize : n * stride ≤ maxSize) :
    cppAbi.readVector stride (place 24 (.vector storage room) data) = some (n, storage) := by
  have hvalid : n * stride = n * stride ∧ n * stride ≤ maxSize := ⟨rfl, hsize⟩
  dsimp only [cppAbi]
  rw [stdVector?_place h, Option.bind_some, hlen, Nat.mul_div_cancel n hpos]
  exact if_pos hvalid

section Resize

variable {stride m n room : ℕ} {fill storage : List Cell} {relocate : Cell → Cell}

theorem length_resized (hpos : 0 < stride) (hfill : fill.length = stride)
    (hlen : storage.length = m * stride) :
    (resized stride fill relocate n storage room).length = n * stride := by
  rw [resized, hlen, Nat.mul_div_cancel m hpos]
  by_cases hmn : n ≤ m
  · have hle : n * stride ≤ m * stride := Nat.mul_le_mul_right stride hmn
    rw [if_pos hmn, List.length_take]
    omega
  · have hold : (if (n - m) * stride ≤ room then storage else storage.map relocate).length =
        m * stride := by
      split_ifs
      · exact hlen
      · rw [List.length_map, hlen]
    rw [if_neg hmn, List.length_append, hold, length_flatten_replicate, hfill, ← Nat.add_mul]
    congr 1
    omega

/-- A resized vector has its old elements as far as they are still wanted and can still be read, and
then new ones. -/
theorem readEach_resized (hpos : 0 < stride) (hfill : fill.length = stride)
    (hlen : storage.length = m * stride) {read : List Cell → Option Value}
    (hloc : LocalTo stride read) {z : Value} (hz : read fill = some z) {olds : List Value}
    (holds : readEach read stride m storage = some olds)
    (hmoved : storage.length + room < n * stride →
      readEach read stride m (storage.map relocate) = some olds) :
    readEach read stride n (resized stride fill relocate n storage room) =
      some (olds.take n ++ List.replicate (n - olds.length) z) := by
  have holdslen : olds.length = m := readEach_length holds
  rw [resized, hlen, Nat.mul_div_cancel m hpos, holdslen]
  by_cases hmn : n ≤ m
  · rw [if_pos hmn, Nat.sub_eq_zero_of_le hmn, List.replicate_zero, List.append_nil]
    exact readEach_take hloc hmn holds
  · have hsum : m + (n - m) = n := by omega
    have hmul : m * stride + (n - m) * stride = n * stride := by rw [← Nat.add_mul, hsum]
    rw [if_neg hmn, List.take_of_length_le (by omega)]
    have hnew := readEach_replicate (n := n - m) hloc hfill hz
    split_ifs with hroom
    · have hstored := readEach_append hloc holds hlen hnew
      rwa [hsum] at hstored
    · have hstored := readEach_append hloc (hmoved (by omega)) (by rw [List.length_map, hlen]) hnew
      rwa [hsum] at hstored

/-- There is memory for so many elements. -/
theorem resize_eq (hM : M.Ample) (hpos : 0 < stride) (hlen : storage.length = m * stride)
    (hn : n * stride ≤ maxSize) : ∃ room', resize M stride fill relocate n storage room =
      .ok (resized stride fill relocate n storage room, room') := by
  rw [resize, hlen, Nat.mul_div_cancel m hpos]
  dsimp only [bind, Except.bind, pure, Except.pure]
  by_cases hmn : n ≤ m
  · rw [if_pos hmn]
    exact ⟨_, rfl⟩
  · have hmul : m * stride + (n - m) * stride = n * stride := by
      rw [← Nat.add_mul]
      congr 1
      omega
    obtain ⟨room', hgrow⟩ := grow_eq hM maxSize id (m * stride) room ((n - m) * stride)
      (hmul.trans_le hn) fun _ hc => hc
    rw [if_neg hmn, hgrow]
    exact ⟨room', rfl⟩

/-- To resize a vector of `char` by whole messages is to resize a vector of messages. -/
theorem resized_bytes (hpos : 0 < stride) (hlen : storage.length = m * stride) :
    resized 1 [.byte 0] relocate (n * stride) storage room =
      resized stride (zeros stride) relocate n storage room := by
  rw [resized, resized, hlen, Nat.div_one, Nat.mul_div_cancel m hpos, Nat.mul_one]
  by_cases hmn : n ≤ m
  · rw [if_pos (Nat.mul_le_mul_right stride hmn), if_pos hmn]
  · have hgt : m * stride < n * stride := Nat.mul_lt_mul_of_pos_right (by omega) hpos
    rw [if_neg (by omega), if_neg hmn, zeros, List.flatten_replicate_replicate,
      List.flatten_replicate_singleton, Nat.mul_one, Nat.sub_mul n m stride]

theorem resize_bytes (hpos : 0 < stride) (hlen : storage.length = m * stride) :
    resize M 1 [.byte 0] relocate (n * stride) storage room =
      resize M stride (zeros stride) relocate n storage room := by
  rw [resize, resize, resized_bytes hpos hlen, hlen, Nat.div_one, Nat.mul_div_cancel m hpos,
    Nat.mul_one]
  by_cases hmn : n ≤ m
  · rw [if_pos (Nat.mul_le_mul_right stride hmn), if_pos hmn]
  · have hgt : m * stride < n * stride := Nat.mul_lt_mul_of_pos_right (by omega) hpos
    rw [if_neg (by omega), if_neg hmn, Nat.mul_one, Nat.sub_mul n m stride]

end Resize

/-- What the two templates for sequences in C++ come down to. -/
def DecodesVector (M : Platform) (dec : Decoder Cell UInt8 Fault) (stride : ℕ)
    (fill : List Cell) (relocate : Cell → Cell) (n : ℕ) (array : Decoder Cell UInt8 Fault) : Prop :=
  ∀ data storage m rest, stdVector? data = some storage → storage.length = m * stride →
    dec data (sizeBytes n ++ rest) = do
      let (storage, room) ← resize M stride fill relocate n storage (spare data)
      let (storage, src) ← array storage rest
      .ok (place 24 (.vector storage room) data, src)

/-- The elements of a vector get where they are decoded, and are ready there. -/
def ReadyVector (read : List Cell → Option Value) (stride : ℕ) (fill : List Cell)
    (relocate : Cell → Cell) (n : ℕ) (readyEach : List Cell → Prop) (data : List Cell) : Prop :=
  ∀ storage m, stdVector? data = some storage → storage.length = m * stride →
    (storage.length + spare data < n * stride →
      readEach read stride m (storage.map relocate) = readEach read stride m storage) ∧
    readyEach (resized stride fill relocate n storage (spare data))

theorem restores_vector (hM : M.Ample) {dec array : Decoder Cell UInt8 Fault} {stride : ℕ}
    (hpos : 0 < stride) {fill : List Cell} (hfill : fill.length = stride)
    {relocate : Cell → Cell} {read : List Cell → Option Value} (hloc : LocalTo stride read)
    {z : Value} (hblank : z.Blank) (hz : read fill = some z) {vs : List Value} {w : List UInt8}
    (hsize : vs.length * stride ≤ maxSize) {readyEach : List Cell → Prop}
    (hdec : DecodesVector M dec stride fill relocate vs.length array)
    (hready : ∀ data, ready data →
      ReadyVector read stride fill relocate vs.length readyEach data)
    (harray : RestoresEach array true readyEach (vs.length * stride)
      (readEach read stride vs.length) vs w) :
    Restores dec true ready cppAbi.vectorSize (readSequence cppAbi read stride) (.sequence vs)
      (sizeBytes vs.length ++ w) := by
  intro data old hlen hold hok rest
  obtain ⟨hread, hdata⟩ := hold rfl
  obtain ⟨⟨m, storage⟩, hvec, hread⟩ := Option.bind_eq_some_iff.mp hread
  obtain ⟨olds, holds, rfl⟩ := Option.map_eq_some_iff.mp hread
  obtain ⟨hstorage, -, hstoragelen, -⟩ := CppSerializer.readVector_eq_some hvec
  obtain ⟨hmoved, hready1⟩ := hready data hdata storage m hstorage hstoragelen.symm
  obtain ⟨room, hresize⟩ := resize_eq hM hpos hstoragelen.symm hsize
  have hlen1 : (resized stride fill relocate vs.length storage (spare data)).length =
      vs.length * stride := length_resized hpos hfill hstoragelen.symm
  have hread1 := readEach_resized hpos hfill hstoragelen.symm hloc hz holds
    fun hgrows => (hmoved hgrows).trans holds
  rw [overlay, Value.elems] at hok ⊢
  rw [Storable, storableList_iff, ← overlayList_resized hblank, overlayList_eq_mergeList] at hok
  obtain ⟨storage2, hrun, hlen2, -, hread2⟩ :=
    harray _ _ hlen1.ge (fun _ => ⟨hread1, hready1⟩) hok rest
  rw [← overlayList_eq_mergeList, overlayList_resized hblank] at hread2
  refine ⟨place 24 (.vector storage2 room) data, ?_, length_place (by decide) hlen _,
    drop_place (by decide) _, ?_⟩
  · rw [List.append_assoc, hdec data storage m _ hstorage hstoragelen.symm, hresize]
    show (array _ (w ++ rest) >>= fun p => _) = _
    rw [hrun]
    rfl
  · exact Option.bind_eq_some_iff.mpr ⟨(vs.length, storage2),
      readVector_place hlen hpos (hlen2.trans hlen1) hsize,
      Option.map_eq_some_iff.mpr ⟨_, hread2, rfl⟩⟩

/-- A `std::vector<T>` moves its elements as they are. -/
theorem readyVector_id (read : List Cell → Option Value) (stride : ℕ) (fill : List Cell) (n : ℕ)
    (data : List Cell) : ReadyVector read stride fill id n (fun _ => True) data :=
  fun _ _ _ _ => ⟨fun _ => by rw [List.map_id], trivial⟩

theorem decodesVector_dynamicArray {stride n : ℕ} (hn : n ≤ maxSize) {fill : List Cell}
    (array : ℕ → Decoder Cell UInt8 Fault) :
    DecodesVector M (deserializeDynamicArray M stride fill array) stride fill id n (array n) := by
  intro data storage m rest hstorage _
  rw [deserializeDynamicArray, hstorage]
  dsimp only
  rw [deserializeArraySize_append hn]
  rfl

theorem decodesVector_message {stride n : ℕ} (hpos : 0 < stride) (hn : n * stride ≤ maxSize)
    {marked : Bool} {elem : Decoder Cell UInt8 Fault} :
    DecodesVector M (deserializeDynamicArrayMessage M marked stride elem) stride (zeros stride)
      Cell.moved n (if marked then copyBytes (n * stride) else elem.each stride n) := by
  intro data storage m rest hstorage hlen
  rw [deserializeDynamicArrayMessage, hstorage]
  dsimp only
  rw [deserializeArraySize_append (le_of_mul_le hpos hn), ← resize_bytes hpos hlen]
  show (resize M 1 [.byte 0] Cell.moved (sizeT (n * stride)) storage (spare data) >>=
    fun p => _) = _
  rw [sizeT_of_le hn]
  cases marked <;> rfl

/-- There is memory for as many bits as are within the limit. -/
theorem allocateBits_eq (hM : M.Ample) {n : ℕ} (h : n ≤ maxSize) : allocateBits M n = true := by
  have hwords : wordBits n / 8 ≤ maxSize := by
    rw [wordBits]
    rw [maxSize] at h ⊢
    omega
  rw [allocateBits, decide_eq_true h, hM.allocate hwords]
  rfl

theorem reserve_eq (hM : M.Ample) {n : ℕ} (h : n ≤ maxSize) (size spare : ℕ) :
    ∃ room, reserve M n size spare = .ok room := by
  rw [reserve, if_pos (allocateBits_eq hM h)]
  split_ifs
  · exact ⟨_, rfl⟩
  · exact ⟨_, rfl⟩

theorem pushBack_append (hM : M.Ample) (bits : List Bool) :
    ∀ (was : List Bool) (room : ℕ), was.length + bits.length ≤ maxSize → ∀ rest, ∃ room',
      pushBack M bits.length was room (bits.map boolByte ++ rest) =
        .ok ((was ++ bits, room'), rest) := by
  induction bits with
  | nil => exact fun was room _ rest => ⟨room, by rw [List.append_nil]; rfl⟩
  | cons b bits ih =>
    intro was room hlen rest
    rw [List.length_cons] at hlen ⊢
    have hb : (boolByte b != 0) = b := by cases b <;> rfl
    have hnext : (was ++ [b]).length + bits.length ≤ maxSize := by
      rw [List.length_append, List.length_singleton]
      omega
    have hsplit : was ++ b :: bits = was ++ [b] ++ bits := by
      rw [List.append_assoc, List.singleton_append]
    rw [List.map_cons, List.cons_append, hsplit]
    cases room with
    | zero =>
      rw [pushBack]
      rw [if_pos (allocateBits_eq hM (Platform.capacity_le (by omega))), hb]
      exact ih (was ++ [b]) _ hnext rest
    | succ room =>
      rw [pushBack, hb]
      exact ih (was ++ [b]) room hnext rest

theorem dynamicArrayBool_restores (hM : M.Ample) {v : Value} {w : List UInt8}
    (hw : boolsFormat v w) : Restores (deserializeDynamicArrayBool M) true ready
      cppAbi.boolVectorSize (fun d => (cppAbi.readBools d).map .bools) v w := by
  obtain ⟨bits, rfl, hle, rfl⟩ := hw
  intro data old hlen hold hok rest
  obtain ⟨was, hwas, rfl⟩ := Option.map_eq_some_iff.mp (hold rfl).1
  obtain ⟨hwas, -⟩ := readBools_eq_some.mp hwas
  rw [overlay, if_pos rfl, Value.bits] at hok ⊢
  rw [Storable, List.length_append] at hok
  obtain ⟨room, hreserve⟩ := reserve_eq hM hle was.length (spare data)
  obtain ⟨room', hpush⟩ := pushBack_append hM bits was room hok rest
  refine ⟨place 40 (.vectorBool (was ++ bits) room') data, ?_, length_place (by decide) hlen _,
    drop_place (by decide) _, Option.map_eq_some_iff.mpr
      ⟨_, readBools_eq_some.mpr ⟨stdVectorBool?_place hlen _ _, ?_⟩, rfl⟩⟩
  · rw [deserializeDynamicArrayBool, hwas, List.append_assoc]
    dsimp only
    rw [deserializeArraySize_append hle]
    dsimp only [bind, Except.bind]
    rw [hreserve]
    dsimp only
    rw [hpush]
  · rwa [List.length_append]

/-- **The templates of `CppDeserializer` undo the encoding, on top of what the target held.** -/
theorem restoring (hM : M.Ample) : (ops M).Restoring cppAbi true where
  singleString := singleString_restores hM
  dynamicArray {ready p v w} hp hw := by
    obtain ⟨vs, w, rfl, hsize, rfl, hvs⟩ := hw
    have hzero : readPrimitive p (zeros p.sizeof) =
        some (.primitive (List.replicate p.sizeof 0)) := by
      refine Option.map_eq_some_iff.mpr ⟨_, bytes?_eq_some.mpr ⟨?_, ?_⟩, rfl⟩
      · rw [zeros, List.length_replicate]
      · rw [zeros, List.take_of_length_le (by rw [List.length_replicate]), List.map_replicate]
    have hrun : Restores (deserializeDynamicArray M p.sizeof (zeros p.sizeof) (deserializeArray p))
        true ready cppAbi.vectorSize (readSequence cppAbi (readPrimitive p) p.sizeof) _ _ :=
      restores_vector hM (z := .primitive (List.replicate p.sizeof 0))
        p.sizeof_pos List.length_replicate (readPrimitive_local p) (by rw [Blank]; trivial) hzero
        hsize (decodesVector_dynamicArray (le_of_mul_le p.sizeof_pos hsize) (deserializeArray p))
        (fun data _ => readyVector_id _ _ _ _ data) (by
          rw [deserializeArray, Nat.mul_comm, sizeT_of_le hsize]
          exact (literal_primitive p).restoresEach (readPrimitive_local p) hvs)
    cases p <;> first | exact hrun | exact absurd rfl hp
  dynamicArrayBool := dynamicArrayBool_restores hM
  dynamicArrayString {ready v w} hw := by
    obtain ⟨vs, w, rfl, hsize, rfl, hvs⟩ := hw
    have hfill : (object 32 (.string [] 15 true)).length = cppAbi.stringSize := rfl
    refine restores_vector hM (z := .string []) (by decide) hfill
      (cppAbi.readString_local.comp _) (by rw [Blank]) rfl hsize
      (decodesVector_dynamicArray (le_of_mul_le (by decide) hsize) _)
      (fun data _ => readyVector_id _ _ _ _ data) ?_
    exact (restores_each default (cppAbi.readString_local.comp _)
      (fun v _ w hv => singleString_restores hM hv) hvs).of_ready
        fun data _ => readyEach_of_forall (fun _ _ => trivial) _ _ data
  dynamicArrayMessage {marked size elem v w fmt read ready} hpos hloc hzero hlit helem hw := by
    obtain ⟨vs, w, rfl, hsize, rfl, hvs⟩ := hw
    obtain ⟨z, hblank, hz⟩ := hzero rfl
    have harray : RestoresEach (if marked then copyBytes (vs.length * size)
        else elem.each size vs.length) true (ReadyEach ready size vs) (vs.length * size)
        (readEach read size vs.length) vs w := by
      split_ifs with hmark
      · exact (hlit hmark).restoresEach hloc hvs
      · exact restores_each default hloc (fun v _ w hv => helem v w hv) hvs
    refine restores_vector hM hpos List.length_replicate hloc hblank hz hsize
      (decodesVector_message hpos hsize) (fun data hdata storage m hstorage hlen => ?_) harray
    have h := hdata storage hstorage
    rw [hlen, Nat.mul_div_cancel m hpos, Value.elems, resized_bytes hpos hlen] at h
    rwa [hlen]

end CppDeserializer

/-! ## C -/

namespace CDeserializer

variable {M : Platform} {ready : List Cell → Prop}

theorem one_le_maxSize : 1 ≤ maxSize := by decide

theorem readString_place {data block : List Cell} (h : 24 ≤ data.length) {n capacity : ℕ}
    (hn : n < maxSize) : cAbi.readString (place 24 (.sequence block n capacity) data) =
      bytes? n block := by
  dsimp only [cAbi]
  rw [cSequence?_place h, Option.bind_some]
  exact if_pos hn

theorem readBools_place {data block : List Cell} (h : 24 ≤ data.length) {n capacity : ℕ}
    (hn : n ≤ maxSize) : cAbi.readBools (place 24 (.sequence block n capacity) data) =
      (bytes? n block).bind fun bs => bs.mapM boolOfByte? := by
  dsimp only [cAbi]
  rw [cSequence?_place h, Option.bind_some]
  exact if_pos hn

theorem readVector_place {data block : List Cell} (h : 24 ≤ data.length) {n capacity stride : ℕ}
    (hblock : n * stride ≤ block.length) (hsize : n * stride ≤ maxSize) :
    cAbi.readVector stride (place 24 (.sequence block n capacity) data) = some (n, block) := by
  dsimp only [cAbi]
  rw [cSequence?_place h, Option.bind_some]
  exact if_pos ⟨hblock, hsize⟩

theorem length_emptyStrings (n : ℕ) : (emptyStrings n).length = n * 24 := by
  rw [emptyStrings, length_flatten_replicate, length_object (by decide)]

theorem singleString_restores (hM : M.Ample) {v : Value} {w : List UInt8}
    (hw : stringFormat v w) : Restores (deserializeSingleString M) false ready cAbi.stringSize
      (fun d => (cAbi.readString d).map .string) v w := by
  obtain ⟨chars, rfl, hlt, rfl⟩ := hw
  intro data old hlen _ _ rest
  have hlen : 24 ≤ data.length := hlen
  have hroom : chars.length ≤ (chars ++ rest).length := by rw [List.length_append]; omega
  have hlen' : ¬data.length < 24 := not_lt.mpr hlen
  refine ⟨place 24 (.sequence (chars.map .byte ++ [.byte 0]) chars.length (chars.length + 1)) data,
    ?_, length_place (by decide) hlen _, drop_place (by decide) _, ?_⟩
  · rw [deserializeSingleString, if_neg hlen', List.append_assoc,
      deserializeArraySize_append hlt.le]
    dsimp only [bind, Except.bind, pure, Except.pure]
    rw [if_pos hroom, List.take_left, List.drop_left,
      M.runtimeC.stringInit_granted data (hM.allocate one_le_maxSize),
      M.runtimeC.stringAssignn_granted _ chars (hM.allocate (by omega)), place_place (by decide)]
  · rw [overlay_false]
    refine Option.map_eq_some_iff.mpr ⟨chars, ?_, rfl⟩
    rw [readString_place hlen hlt]
    refine bytes?_eq_some.mpr ⟨?_, List.take_left' (List.length_map _)⟩
    rw [List.length_append, List.length_map]
    omega

/-- A sequence with its elements in place holds them. -/
theorem readSequence_place {data block : List Cell} (hlen : 24 ≤ data.length) {n capacity : ℕ}
    {stride : ℕ} (hblock : n * stride ≤ block.length) (hsize : n * stride ≤ maxSize)
    {read : List Cell → Option Value} {vs : List Value}
    (hread : readEach read stride n block = some vs) :
    readSequence cAbi read stride (place 24 (.sequence block n capacity) data) =
      some (.sequence vs) :=
  Option.bind_eq_some_iff.mpr ⟨(n, block), readVector_place hlen hblock hsize,
    Option.map_eq_some_iff.mpr ⟨vs, hread, rfl⟩⟩

/-- A run of `DeserializeDynamicArray` over a number of elements that there is memory for. -/
theorem deserializeDynamicArray_append (hM : M.Ample) {stride n : ℕ} (hpos : 0 < stride)
    (hsize : n * stride ≤ maxSize) {array : ℕ → Decoder Cell UInt8 Fault} {data : List Cell}
    (hlen : 24 ≤ data.length) (rest : List UInt8) :
    deserializeDynamicArray M stride array data (sizeBytes n ++ rest) =
      if 0 < n then do
        let (block, src) ← array n (M.fresh (n * stride)) rest
        .ok (place 24 (.sequence block n n) data, src)
      else .ok (place 24 (.sequence (sequenceData data) 0 0) data, rest) := by
  rw [deserializeDynamicArray, if_neg (not_lt.mpr hlen),
    deserializeArraySize_append (le_of_mul_le hpos hsize)]
  dsimp only [bind, Except.bind, pure, Except.pure]
  rw [sizeT_of_le hsize, if_pos (hM.allocate hsize)]

theorem restores_sequence (hM : M.Ample) {array : ℕ → Decoder Cell UInt8 Fault} {stride : ℕ}
    (hpos : 0 < stride) {fmt : Format Value UInt8} {read : List Cell → Option Value}
    {vs : List Value} {w : List UInt8} (hsize : vs.length * stride ≤ maxSize)
    (hw : fmt.each vs w)
    (harray : RestoresEach (array vs.length) false ready (vs.length * stride)
      (readEach read stride vs.length) vs w) :
    Restores (deserializeDynamicArray M stride array) false ready cAbi.vectorSize
      (readSequence cAbi read stride) (.sequence vs) (sizeBytes vs.length ++ w) := by
  intro data old hlen _ hok rest
  have hlen : 24 ≤ data.length := hlen
  rw [overlay_false] at hok ⊢
  rw [Storable, storableList_iff] at hok
  rw [List.append_assoc, deserializeDynamicArray_append hM hpos hsize hlen]
  split_ifs with hn
  · have hmerge : mergeList (overlay false) default [] vs = vs := by
      rw [← overlayList_eq_mergeList, overlayList_false]
    obtain ⟨block, hrun, hlenb, -, hread⟩ := harray (M.fresh (vs.length * stride)) []
      (M.length_fresh _).ge (fun h => absurd h Bool.false_ne_true) (hmerge.symm ▸ hok) rest
    rw [M.length_fresh] at hlenb
    rw [hmerge] at hread
    refine ⟨place 24 (.sequence block vs.length vs.length) data, ?_,
      length_place (by decide) hlen _, drop_place (by decide) _,
      readSequence_place hlen hlenb.ge hsize hread⟩
    show (array vs.length (M.fresh (vs.length * stride)) (w ++ rest) >>= fun p => _) = _
    rw [hrun]
    rfl
  · obtain rfl : vs = [] := List.eq_nil_of_length_eq_zero (by omega)
    obtain rfl : w = [] := hw
    exact ⟨_, rfl, length_place (by decide) hlen _, drop_place (by decide) _,
      readSequence_place hlen (by omega) (by omega) rfl⟩

theorem dynamicArrayBool_restores (hM : M.Ample) {v : Value} {w : List UInt8}
    (hw : boolsFormat v w) :
    Restores (deserializeDynamicArray M Primitive.boolean.sizeof (deserializeArray .boolean)) false
      ready cAbi.boolVectorSize (fun d => (cAbi.readBools d).map .bools) v w := by
  obtain ⟨bits, rfl, hle, rfl⟩ := hw
  intro data old hlen _ _ rest
  have hlen : 24 ≤ data.length := hlen
  have hsize : bits.length * Primitive.boolean.sizeof ≤ maxSize := by
    rwa [Primitive.sizeof, Nat.mul_one]
  have hread : ∀ block : List Cell, bytes? bits.length block = some (bits.map boolByte) →
      ∀ capacity, (cAbi.readBools
        (place 24 (.sequence block bits.length capacity) data)).map Value.bools =
          some (.bools bits) := by
    intro block hblock capacity
    refine Option.map_eq_some_iff.mpr ⟨bits, ?_, rfl⟩
    rw [readBools_place hlen hle, hblock, Option.bind_some, mapM_boolOfByte?_map]
  rw [overlay_false, List.append_assoc, deserializeDynamicArray_append hM (by decide) hsize hlen]
  split_ifs with hn
  · have hcopy : copyBytes bits.length (M.fresh bits.length) (bits.map boolByte ++ rest) =
        .ok ((bits.map boolByte).map .byte ++ (M.fresh bits.length).drop bits.length, rest) :=
      copyBytes_append (List.length_map _) (M.length_fresh _).ge
    refine ⟨place 24 (.sequence ((bits.map boolByte).map .byte ++
      (M.fresh bits.length).drop bits.length) bits.length bits.length) data, ?_,
      length_place (by decide) hlen _, drop_place (by decide) _, hread _ ?_ _⟩
    · rw [deserializeArray, Nat.mul_comm Primitive.boolean.sizeof, sizeT_of_le hsize,
        Primitive.sizeof, Nat.mul_one, hcopy]
      rfl
    · refine bytes?_eq_some.mpr ⟨?_, List.take_left' ?_⟩
      · rw [List.length_append, List.length_map, List.length_map]
        omega
      · rw [List.length_map, List.length_map]
  · obtain rfl : bits = [] := List.eq_nil_of_length_eq_zero (by omega)
    exact ⟨_, rfl, length_place (by decide) hlen _, drop_place (by decide) _, hread _ rfl _⟩

theorem dynamicArrayString_restores (hM : M.Ample) {v : Value} {w : List UInt8}
    (hw : sequenceFormat stringFormat cAbi.stringSize v w) :
    Restores (deserializeDynamicArrayString M) false ready cAbi.vectorSize
      (readSequence cAbi (fun d => (cAbi.readString d).map .string) cAbi.stringSize) v w := by
  obtain ⟨vs, w, rfl, hsize, rfl, hvs⟩ := hw
  intro data old hlen _ hok rest
  have hlen : 24 ≤ data.length := hlen
  have hlen' : ¬data.length < 24 := not_lt.mpr hlen
  rw [overlay_false] at hok ⊢
  rw [Storable, storableList_iff] at hok
  rw [deserializeDynamicArrayString, if_neg hlen', List.append_assoc,
    deserializeArraySize_append (le_of_mul_le (by decide) hsize)]
  dsimp only [bind, Except.bind, pure, Except.pure]
  by_cases hn : vs.length = 0
  · obtain rfl : vs = [] := List.eq_nil_of_length_eq_zero hn
    obtain rfl : w = [] := hvs
    rw [List.length_nil, if_neg (lt_irrefl 0), M.runtimeC.stringSequenceInit_zero]
    exact ⟨_, rfl, length_place (by decide) hlen _, drop_place (by decide) _,
      readSequence_place hlen (by omega) (by omega) rfl⟩
  · have hpos : 0 < vs.length := Nat.pos_of_ne_zero hn
    have hmerge : mergeList (overlay false) default [] vs = vs := by
      rw [← overlayList_eq_mergeList, overlayList_false]
    have hlenb := length_emptyStrings vs.length
    have helems : RestoresEach ((deserializeSingleString M).each cAbi.stringSize vs.length) false
        ready (vs.length * cAbi.stringSize) (readEach _ cAbi.stringSize vs.length) vs w :=
      (restores_each default (cAbi.readString_local.comp _)
        (fun v _ w hv => singleString_restores hM hv) hvs).of_ready
          fun data _ => readyEach_of_forall (fun _ _ => trivial) cAbi.stringSize vs data
    obtain ⟨block', hrun, hlenb', -, hread⟩ := helems (emptyStrings vs.length) [] hlenb.ge (by simp)
      (hmerge.symm ▸ hok) rest
    rw [hmerge] at hread
    refine ⟨place 24 (.sequence block' vs.length vs.length) data, ?_,
      length_place (by decide) hlen _, drop_place (by decide) _,
      readSequence_place hlen (hlenb'.trans hlenb).ge hsize hread⟩
    rw [if_pos hpos, M.runtimeC.stringSequenceInit_granted data _ hpos (hM.allocate hsize)
      (hM.allocate one_le_maxSize), cSequence?_place hlen]
    dsimp only
    rw [deserializeArrayString, hrun]
    dsimp only
    rw [replaceData, head?_place (by decide) hlen]
    dsimp only
    rw [place_place (by decide)]

theorem dynamicArray_restores (hM : M.Ample) {p : Primitive} {v : Value} {w : List UInt8}
    (hw : sequenceFormat (primitiveFormat p) p.sizeof v w) :
    Restores (deserializeDynamicArray M p.sizeof (deserializeArray p)) false ready cAbi.vectorSize
      (readSequence cAbi (readPrimitive p) p.sizeof) v w := by
  obtain ⟨vs, w, rfl, hsize, rfl, hvs⟩ := hw
  refine restores_sequence hM p.sizeof_pos hsize hvs ?_
  rw [deserializeArray, Nat.mul_comm, sizeT_of_le hsize]
  exact (literal_primitive p).restoresEach (readPrimitive_local p) hvs

theorem dynamicArrayMessage_restores (hM : M.Ample) {marked : Bool} {size : ℕ}
    {elem : Decoder Cell UInt8 Fault} {fmt : Format Value UInt8} {read : List Cell → Option Value}
    (hpos : 0 < size) (hloc : LocalTo size read) (hlit : marked = true → Literal fmt size read)
    {ready' : Value → List Cell → Prop}
    (helem : ∀ v w, fmt v w → Restores elem false (ready' v) size read v w) {v : Value}
    {w : List UInt8} (hw : sequenceFormat fmt size v w) :
    Restores (deserializeDynamicArrayMessage M marked size elem) false ready cAbi.vectorSize
      (readSequence cAbi read size) v w := by
  obtain ⟨vs, w, rfl, hsize, rfl, hvs⟩ := hw
  refine restores_sequence hM hpos hsize hvs ?_
  rw [deserializeArrayMessage, sizeT_of_le hsize]
  split_ifs with hmark
  · exact (hlit hmark).restoresEach hloc hvs
  · exact (restores_each default hloc (fun v _ w hv => helem v w hv) hvs).anyway

/-- **The templates of `CDeserializer` undo the encoding, whatever the target held.** -/
theorem restoring (hM : M.Ample) : (ops M).Restoring cAbi false where
  singleString := singleString_restores hM
  dynamicArray _ := dynamicArray_restores hM
  dynamicArrayBool := dynamicArrayBool_restores hM
  dynamicArrayString := dynamicArrayString_restores hM
  dynamicArrayMessage hpos hloc _ hlit helem hw :=
    dynamicArrayMessage_restores hM hpos hloc hlit helem hw

end CDeserializer

end RmwEcal
