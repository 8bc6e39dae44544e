import RmwEcal.Dynamic.RoundTrip

/-!
# What `CppDeserializer` requires of its target

A settled target is not asked for too much: **if a run over an encoding of `v` returns and leaves
a message that can be read, then its target was settled for `v`** (`settled_of_run`).

Whatever else the run does to a target, it moves cells as plain bytes when a vector of messages has
to grow.  So the statement that goes through the members and elements is `Decoder.Requires`, about
storage that may have been moved so before it is decoded into.
-/

set_option autoImplicit false

namespace RmwEcal

open Codec Value

/-- What may become of cells in the course of a run: they stay, or are moved as plain bytes. -/
def Disturbs (f : Cell → Cell) : Prop :=
  ∀ c, f c = c ∨ ((∃ chars spare inside, c = .string chars spare inside) ∧ f c = .dangling)

theorem disturbs_id : Disturbs id := fun _ => .inl rfl

theorem disturbs_moved : Disturbs Cell.moved := by
  rintro (_ | ⟨chars, spare, _ | _⟩ | _ | _ | _ | _ | _)
  case string.true => exact .inr ⟨⟨chars, spare, true, rfl⟩, rfl⟩
  all_goals exact .inl rfl

theorem Disturbs.eq {f : Cell → Cell} (h : Disturbs f) {c : Cell}
    (hc : ∀ chars spare inside, c ≠ .string chars spare inside) : f c = c := by
  rcases h c with heq | ⟨⟨_, _, _, heq⟩, -⟩
  · exact heq
  · exact absurd heq (hc _ _ _)

/-- What is read survives a disturbance. -/
def Undisturbed {ν : Type} (f : Cell → Cell) (read : List Cell → Option ν) : Prop :=
  ∀ data v, read data = some v → read (data.map f) = some v

/-- The decoder asks that the target still read as before, and was `ready`. -/
abbrev Requires (dec : Decoder Cell UInt8 Fault) (f : Cell → Cell) (ready : List Cell → Prop)
    (size : ℕ) (read : List Cell → Option Value) (v : Value) (w : List UInt8) : Prop :=
  dec.Requires f ready Storable (overlay true) size read v w

/-- The same for values in a row. -/
abbrev RequiresEach (dec : Decoder Cell UInt8 Fault) (f : Cell → Cell) (ready : List Cell → Prop)
    (size : ℕ) (read : List Cell → Option (List Value)) (vs : List Value) (w : List UInt8) : Prop :=
  dec.Requires f ready (∀ v ∈ ·, Storable v) (mergeList (overlay true) default) size read vs w

/-! ## What cannot be disturbed -/

section Undisturbed

variable {ν : Type} {f : Cell → Cell}

theorem Undisturbed.requires {dec : Decoder Cell UInt8 Fault} {ready : List Cell → Prop}
    {ok : ν → Prop} {merge : ν → ν → ν} {size : ℕ} {read : List Cell → Option ν} {v : ν}
    {w : List UInt8} (h : Undisturbed f read) (hready : ∀ data, ready data) :
    dec.Requires f ready ok merge size read v w :=
  fun data old _ _ _ _ hold _ _ _ => ⟨h data old hold, hready _⟩

theorem Undisturbed.map {μ : Type} {read : List Cell → Option ν} (h : Undisturbed f read)
    (g : ν → μ) : Undisturbed f fun data => (read data).map g := by
  intro data v hv
  obtain ⟨x, hx, rfl⟩ := Option.map_eq_some_iff.mp hv
  exact Option.map_eq_some_iff.mpr ⟨x, h data x hx, rfl⟩

theorem Undisturbed.readEach {size : ℕ} {read : List Cell → Option ν} (h : Undisturbed f read)
    (n : ℕ) : Undisturbed f (readEach read size n) := by
  induction n with
  | zero => exact fun _ _ hv => hv
  | succ n ih =>
    intro data vs hvs
    obtain ⟨v, rest, hv, hrest, rfl⟩ := readEach_succ_eq_some.mp hvs
    refine readEach_succ_eq_some.mpr ⟨v, rest, h data v hv, ?_, rfl⟩
    rw [← List.map_drop]
    exact ih _ _ hrest

theorem undisturbed_bytes (hf : Disturbs f) (size : ℕ) : Undisturbed f (bytes? size) := by
  intro data bs hbs
  obtain ⟨hlen, htake⟩ := bytes?_eq_some.mp hbs
  refine bytes?_eq_some.mpr ⟨by rwa [List.length_map], ?_⟩
  rw [← List.map_take, htake, List.map_map]
  exact List.map_congr_left fun b _ => hf.eq nofun

theorem undisturbed_primitive (hf : Disturbs f) (p : Primitive) : Undisturbed f (readPrimitive p) :=
  (undisturbed_bytes hf p.sizeof).map _

theorem head?_map (size : ℕ) (data : List Cell) :
    head? size (data.map f) = (head? size data).map f := by
  rw [head?, head?, List.length_map, List.head?_map]
  split_ifs <;> rfl

/-- An object that is not a string stays where it is. -/
theorem Disturbs.head? (hf : Disturbs f) {size : ℕ} {data : List Cell} {c : Cell}
    (h : head? size data = some c) (hc : ∀ chars spare inside, c ≠ .string chars spare inside) :
    RmwEcal.head? size (data.map f) = some c := by
  rw [head?_map, h, Option.map_some, hf.eq hc]

theorem zeroed_map (hf : Disturbs f) {size : ℕ} {data : List Cell} (h : zeroed size data = true) :
    zeroed size (data.map f) = true := by
  rw [zeroed, List.all_eq_true] at h ⊢
  intro c hc
  rw [← List.map_take] at hc
  obtain ⟨c', hc', rfl⟩ := List.mem_map.mp hc
  have hzero := h c' hc'
  cases c' with
  | byte b => rwa [hf.eq (c := .byte b) (by simp)]
  | _ => cases hzero

theorem undisturbed_stdVector (hf : Disturbs f) : Undisturbed f stdVector? := by
  intro data storage h
  rw [stdVector?] at h ⊢
  split at h
  · rename_i hhead
    rw [hf.head? hhead (by simp)]
    exact h
  · rename_i hhead
    split_ifs at h with hz
    rw [hf.head? hhead (by simp), if_pos (zeroed_map hf hz)]
    exact h
  · cases h

theorem undisturbed_stdVectorBool (hf : Disturbs f) : Undisturbed f stdVectorBool? := by
  intro data bits h
  rw [stdVectorBool?] at h ⊢
  split at h
  · rename_i hhead
    rw [hf.head? hhead (by simp)]
    exact h
  · rename_i hhead
    split_ifs at h with hz
    rw [hf.head? hhead (by simp), if_pos (zeroed_map hf hz)]
    exact h
  · cases h

theorem undisturbed_bools (hf : Disturbs f) :
    Undisturbed f fun data => (cppAbi.readBools data).map Value.bools := by
  refine Undisturbed.map (fun data bits h => ?_) _
  obtain ⟨hbits, hle⟩ := CppDeserializer.readBools_eq_some.mp h
  exact CppDeserializer.readBools_eq_some.mpr ⟨undisturbed_stdVectorBool hf data bits hbits, hle⟩

/-- The elements of a vector are elsewhere. -/
theorem undisturbed_sequence (hf : Disturbs f) (elem : List Cell → Option Value) (elemSize : ℕ) :
    Undisturbed f (readSequence cppAbi elem elemSize) := by
  intro data v h
  obtain ⟨p, hp, hread⟩ := Option.bind_eq_some_iff.mp h
  obtain ⟨storage, hstorage, hvalid⟩ := Option.bind_eq_some_iff.mp hp
  exact Option.bind_eq_some_iff.mpr ⟨p, Option.bind_eq_some_iff.mpr
    ⟨storage, undisturbed_stdVector hf data storage hstorage, hvalid⟩, hread⟩

theorem undisturbed_readMember (hf : Disturbs f) {s : ArrayShape} {isBoolean : Bool}
    {elem : List Cell → Option Value} {elemSize : ℕ} (h : Undisturbed f elem) :
    Undisturbed f (readMember cppAbi s isBoolean elem elemSize) := by
  intro data v hv
  rw [readMember] at hv ⊢
  split_ifs at hv ⊢
  · exact (h.readEach _).map _ data v hv
  · exact undisturbed_bools hf data v hv
  · exact undisturbed_sequence hf elem elemSize data v hv
  · exact h data v hv

theorem undisturbed_members {ms : List (MessageMember MessageMembers)}
    (h : ∀ m ∈ ms, Undisturbed f (contentMember cppAbi m)) :
    Undisturbed f (contentMembers cppAbi ms) := by
  induction ms with
  | nil => exact fun _ _ hvs => hvs
  | cons m ms ih =>
    intro data vs hvs
    obtain ⟨v, rest, hv, hrest, rfl⟩ := contentMembers_cons_eq_some.mp hvs
    refine contentMembers_cons_eq_some.mpr ⟨v, rest, ?_,
      ih (fun m' hm' => h m' (.tail _ hm')) data rest hrest, rfl⟩
    rw [← List.map_drop]
    exact h m (.head _) _ v hv

/-- **Plain old data cannot be disturbed.** -/
theorem undisturbed_of_pod (hf : Disturbs f) {T : MessageMembers} (hpod : Pod T) :
    Undisturbed f (contentMessage cppAbi T) := by
  induction T using MessageMembers.induction with
  | h T ih =>
    have hmember : ∀ m ∈ T.members, Undisturbed f (contentMember cppAbi m) := by
      intro m hm
      have hkind := hpod.kind hm
      obtain ⟨s, p | _ | _ | _ | sub, off⟩ := m
      · exact undisturbed_readMember hf (undisturbed_primitive hf p)
      · exact hkind.elim
      · exact hkind.elim
      · exact hkind.elim
      · exact undisturbed_readMember hf (ih sub ⟨_, hm, rfl⟩ (hpod.sub ⟨_, hm, rfl⟩))
    intro data v hv
    obtain ⟨hlen, vs, hvs, rfl⟩ := contentMessage_eq_some.mp hv
    exact contentMessage_eq_some.mpr ⟨by rwa [List.length_map], vs,
      undisturbed_members hmember data vs hvs, rfl⟩

end Undisturbed

/-! ## Plain old data is settled -/

theorem settled_of_pod {T : MessageMembers} (hpod : Pod T) (v : Value) (data : List Cell) :
    Settled cppAbi T v data := by
  induction T using MessageMembers.induction generalizing v data with
  | h T ih =>
    have hmember : ∀ m ∈ T.members, ∀ v data, SettledMember cppAbi m v data := by
      intro m hm v data
      have hshape := hpod.shape hm
      obtain ⟨s, p | _ | _ | _ | sub, off⟩ := m
      · rw [SettledMember]; trivial
      · rw [SettledMember]; trivial
      · rw [SettledMember]; trivial
      · rw [SettledMember]; trivial
      · have hsub := ih sub ⟨_, hm, rfl⟩ (hpod.sub ⟨_, hm, rfl⟩)
        rw [SettledMember, settledShape]
        split_ifs with h1 h2
        · exact readyEach_of_forall hsub _ _ _
        · exact absurd (hshape h1) h2
        · exact hsub v data
    rw [settled_iff]
    generalize v.elems = vs
    generalize T.members = ms at hmember
    induction ms generalizing vs with
    | nil => trivial
    | cons m ms ihms =>
      exact ⟨hmember m (.head _) _ _, ihms _ fun m' hm' => hmember m' (.tail _ hm')⟩

/-! ## Members of any shape -/

section Shape

variable {f : Cell → Cell}

/-- An array asks for what its elements do. -/
theorem requires_array {dec : Decoder Cell UInt8 Fault} {ready : List Cell → Prop} {size n : ℕ}
    {read : List Cell → Option Value} {vs : List Value} {w : List UInt8}
    (h : RequiresEach dec f ready (n * size) (readEach read size n) vs w) :
    Requires dec f ready (n * size) (fun data => (readEach read size n data).map .array)
      (.array vs) w := by
  intro data old rest data' rest' hlen hold hok hrun hread
  obtain ⟨olds, holds, rfl⟩ := Option.map_eq_some_iff.mp hold
  rw [overlay, Storable, storableList_iff, overlayList_eq_mergeList] at hok
  obtain ⟨hsame, hready⟩ := h data olds rest data' rest' hlen holds hok hrun fun hnone =>
    hread (Option.map_eq_none_iff.mpr hnone)
  exact ⟨Option.map_eq_some_iff.mpr ⟨olds, hsame, rfl⟩, hready⟩

/-- A member of any shape asks for what single elements, static arrays and sequences do. -/
theorem deserialize_requires {s : ArrayShape} {single array dynamicArray : Decoder Cell UInt8 Fault}
    {elem : List Cell → Option Value} {elemSize : ℕ} {ready vector : Value → List Cell → Prop}
    {fmt : Format Value UInt8} {v : Value} {w : List UInt8}
    (hsingle : ∀ v w, fmt v w → Requires single f (ready v) elemSize elem v w)
    (harray : s.isArray = true → s.isStatic = true → ∀ vs w, vs.length = s.arraySize →
      fmt.each vs w → RequiresEach array f (ReadyEach ready elemSize vs) (s.arraySize * elemSize)
        (readEach elem elemSize s.arraySize) vs w)
    (hdynamic : ∀ v w, sequenceFormat fmt elemSize v w →
      Requires dynamicArray f (vector v) cppAbi.vectorSize (readSequence cppAbi elem elemSize) v w)
    (hw : memberFormat s false fmt elemSize v w) :
    Requires (deserialize s single array dynamicArray) f (settledShape s ready vector elemSize v)
      (s.storageSize cppAbi false elemSize) (readMember cppAbi s false elem elemSize) v w := by
  rw [memberFormat] at hw
  rw [deserialize, ArrayShape.storageSize, show readMember cppAbi s false elem elemSize =
    fun data => _ from funext fun data => readMember.eq_1 .., show settledShape s ready vector
      elemSize v = fun data => _ from funext fun data => settledShape.eq_1 ..]
  split_ifs at hw ⊢ with h1 h2 h3
  · obtain ⟨vs, rfl, hlen, hvs⟩ := hw
    rw [Value.elems, List.take_of_length_le hlen.le]
    exact requires_array (harray h1 h2 vs w hlen hvs)
  · cases h3
  · exact hdynamic v w hw
  · exact hsingle v w hw

end Shape

/-! ## Strings -/

namespace CppDeserializer

variable {M : Platform} {f : Cell → Cell}

/-- Nothing is made of a string that is not there. -/
theorem deserializeSingleString_none {data data' : List Cell} {src rest : List UInt8}
    (h : stdString? data = none)
    (hrun : deserializeSingleString M data src = .ok (data', rest)) : stdString? data' = none := by
  rw [deserializeSingleString] at hrun
  split at hrun
  · cases hrun
  · cases hsize : deserializeArraySize src with
    | error e => rw [hsize] at hrun; cases hrun
    | ok p =>
      simp only [hsize, bind, Except.bind, h] at hrun
      split_ifs at hrun
      cases hrun
      exact h

/-- A string stays, or its characters are left behind. -/
theorem stdString?_map (hf : Disturbs f) {data : List Cell} {chars : List UInt8}
    (h : stdString? data = some chars) :
    stdString? (data.map f) = some chars ∨ stdString? (data.map f) = none := by
  rw [stdString?] at h
  split at h
  · rename_i n inside hhead
    cases h
    rcases hf (.string chars n inside) with heq | ⟨-, heq⟩
    · exact .inl (by rw [stdString?, head?_map, hhead, Option.map_some, heq])
    · exact .inr (by rw [stdString?, head?_map, hhead, Option.map_some, heq])
  · rename_i hhead
    split_ifs at h with hz
    cases h
    exact .inl (by rw [stdString?, hf.head? hhead (by simp)]; exact if_pos (zeroed_map hf hz))
  · cases h

/-- If they are left behind, the string cannot be read, and nor can what the run leaves. -/
theorem singleString_requires (hf : Disturbs f) {ready : List Cell → Prop}
    (hready : ∀ data, ready data) (v : Value) (w : List UInt8) :
    Requires (deserializeSingleString M) f ready cppAbi.stringSize
      (fun d => (cppAbi.readString d).map .string) v w := by
  intro data old rest data' rest' _ hold _ hrun hread
  obtain ⟨chars, hchars, rfl⟩ := Option.map_eq_some_iff.mp hold
  obtain ⟨hchars, hlt⟩ := readString_eq_some.mp hchars
  rcases stdString?_map hf hchars with hsame | hnone
  · exact ⟨Option.map_eq_some_iff.mpr ⟨chars, readString_eq_some.mpr ⟨hsame, hlt⟩, rfl⟩, hready _⟩
  · obtain ⟨v', hv'⟩ := Option.ne_none_iff_exists'.mp hread
    obtain ⟨chars', hchars', -⟩ := Option.map_eq_some_iff.mp hv'
    obtain ⟨hleft, -⟩ := readString_eq_some.mp hchars'
    rw [deserializeSingleString_none hnone hrun] at hleft
    cases hleft

/-! ## Vectors of messages -/

section Vector

variable {size m n spare : ℕ} {storage : List Cell}

/-- A vector that has to move its elements does so as plain bytes; otherwise they stay. -/
theorem resized_moved (hpos : 0 < size) (hlen : storage.length = m * size) :
    resized size (zeros size) Cell.moved n storage spare =
      (resized size (zeros size) id n storage spare).map
        (if storage.length + spare < n * size then Cell.moved else id) := by
  have hzeros : (List.replicate (n - m) (zeros size)).flatten.map Cell.moved =
      (List.replicate (n - m) (zeros size)).flatten := by
    rw [zeros, List.flatten_replicate_replicate, List.map_replicate]
    rfl
  rw [resized, resized, hlen, Nat.mul_div_cancel m hpos]
  by_cases hmn : n ≤ m
  · have hle : n * size ≤ m * size := Nat.mul_le_mul_right size hmn
    rw [if_pos hmn, if_pos hmn, if_neg (by omega), List.map_id]
  · have hmul : m * size + (n - m) * size = n * size := by
      rw [← Nat.add_mul]
      congr 1
      omega
    rw [if_neg hmn, if_neg hmn]
    by_cases hroom : (n - m) * size ≤ spare
    · rw [if_pos hroom, if_pos hroom, if_neg (by omega), List.map_id]
    · rw [if_neg hroom, if_neg hroom, if_pos (by omega), List.map_append, hzeros, List.map_id]

theorem take_resized (hpos : 0 < size) (hlen : storage.length = m * size) (hmn : m ≤ n) :
    (resized size (zeros size) id n storage spare).take (m * size) = storage := by
  rw [resized, hlen, Nat.mul_div_cancel m hpos]
  by_cases hnm : n ≤ m
  · rw [if_pos hnm, List.take_take, Nat.min_eq_left (Nat.mul_le_mul_right size hmn),
      List.take_of_length_le hlen.le]
  · rw [if_neg hnm, List.map_id, ite_self, List.take_left' hlen]

/-- The vector can go where it has to go, if what is then in its place could be read before. -/
theorem settledVector_of_read (hpos : 0 < size) (hlen : storage.length = m * size)
    {read : List Cell → Option Value} (hloc : LocalTo size read) {ready : Value → List Cell → Prop}
    {olds vs : List Value} (holds : readEach read size m storage = some olds) {z : Value}
    {data : List Cell} (hstorage : stdVector? data = some storage)
    (hread : readEach read size vs.length
      (resized size (zeros size) Cell.moved vs.length storage (RmwEcal.spare data)) =
        some (olds.take vs.length ++ List.replicate (vs.length - olds.length) z))
    (hready : ReadyEach ready size vs
      (resized size (zeros size) Cell.moved vs.length storage (RmwEcal.spare data))) :
    SettledVector read ready size (.sequence vs) data := by
  intro storage' hstorage'
  obtain rfl : storage' = storage := Option.some.inj (hstorage'.symm.trans hstorage)
  rw [Value.elems, hlen, Nat.mul_div_cancel m hpos, resized_bytes hpos hlen]
  refine ⟨fun hgrows => ?_, hready⟩
  rw [← hlen] at hgrows
  have hmn : m ≤ vs.length := Nat.le_of_mul_le_mul_right (by omega) hpos
  have htake := readEach_take hloc hmn hread
  rw [resized_moved hpos hlen, if_pos hgrows, ← List.map_take, take_resized hpos hlen hmn,
    List.take_of_length_le ((readEach_length holds).trans_le hmn),
    List.take_left' (readEach_length holds)] at htake
  rw [htake, holds]

end Vector

/-- A run that has left a vector of messages has decoded its elements. -/
theorem dynamicArrayMessage_of_ok (hM : M.Ample) {size : ℕ} (hpos : 0 < size)
    {elem : Decoder Cell UInt8 Fault} (hkeep : elem.KeepsLength)
    {read : List Cell → Option Value} {data data' storage : List Cell} {m n : ℕ}
    {src rest : List UInt8} (hlen : 24 ≤ data.length) (hstorage : stdVector? data = some storage)
    (hstoragelen : storage.length = m * size) (hsize : n * size ≤ maxSize)
    (hrun : deserializeDynamicArrayMessage M false size elem data (sizeBytes n ++ src) =
      .ok (data', rest))
    (hread : readSequence cppAbi read size data' ≠ none) :
    ∃ block, elem.each size n
        (resized size (zeros size) Cell.moved n storage (spare data)) src = .ok (block, rest) ∧
      readEach read size n block ≠ none := by
  have hdec : DecodesVector M (deserializeDynamicArrayMessage M false size elem) size (zeros size)
      Cell.moved n (elem.each size n) := decodesVector_message hpos hsize
  obtain ⟨room, hresize⟩ := resize_eq hM hpos hstoragelen hsize
  rw [hdec data storage m _ hstorage hstoragelen, hresize] at hrun
  cases harray : elem.each size n
      (resized size (zeros size) Cell.moved n storage (spare data)) src with
  | error e =>
    simp only [bind, Except.bind, harray] at hrun
    cases hrun
  | ok q =>
    obtain ⟨block, rest⟩ := q
    simp only [bind, Except.bind, harray] at hrun
    cases hrun
    have hblocklen : block.length = n * size :=
      (hkeep.each size n _ _ _ _ harray).trans
        (length_resized hpos List.length_replicate hstoragelen)
    refine ⟨block, rfl, fun hnone => hread ?_⟩
    rw [readSequence, readVector_place hlen hpos hblocklen hsize, Option.bind_some, hnone]
    rfl

/-- **A vector of messages asks for what its elements do, where `resize` has put them.** -/
theorem dynamicArrayMessage_requires (hM : M.Ample) (hf : Disturbs f) {marked : Bool} {size : ℕ}
    (hpos : 0 < size) {elem : Decoder Cell UInt8 Fault} (hkeep : elem.KeepsLength)
    {fmt : Format Value UInt8} {read : List Cell → Option Value} (hloc : LocalTo size read)
    {z : Value} (hblank : z.Blank) (hz : read (zeros size) = some z)
    {ready : Value → List Cell → Prop}
    (hmarked : marked = true → Undisturbed Cell.moved read ∧ ∀ v data, ready v data)
    (hrestores : ∀ v w, fmt v w → Restores elem true (ready v) size read v w)
    (helem : ∀ f, Disturbs f → ∀ v w, fmt v w → Requires elem f (ready v) size read v w)
    {v : Value} {w : List UInt8} (hw : sequenceFormat fmt size v w) :
    Requires (deserializeDynamicArrayMessage M marked size elem) f (SettledVector read ready size v)
      cppAbi.vectorSize (readSequence cppAbi read size) v w := by
  obtain ⟨vs, w, rfl, hsize, rfl, hvs⟩ := hw
  intro data old rest data' rest' hlen hold hok hrun hread
  have hsame := undisturbed_sequence hf read size data old hold
  refine ⟨hsame, ?_⟩
  replace hlen : 24 ≤ (data.map f).length := by rwa [List.length_map]
  generalize data.map f = data at hsame hrun hlen ⊢
  obtain ⟨⟨m, storage⟩, hvec, hreads⟩ := Option.bind_eq_some_iff.mp hsame
  obtain ⟨olds, holds, rfl⟩ := Option.map_eq_some_iff.mp hreads
  obtain ⟨hstorage, -, hstoragelen, -⟩ := CppSerializer.readVector_eq_some hvec
  replace hstoragelen := hstoragelen.symm
  cases marked with
  | true =>
    obtain ⟨hintact, hready⟩ := hmarked rfl
    intro storage' hstorage'
    obtain rfl : storage' = storage := Option.some.inj (hstorage'.symm.trans hstorage)
    rw [hstoragelen, Nat.mul_div_cancel m hpos]
    exact ⟨fun _ => (hintact.readEach m _ _ holds).trans holds.symm,
      readyEach_of_forall hready _ _ _⟩
  | false =>
    rw [List.append_assoc] at hrun
    obtain ⟨block, harray, hblock⟩ := dynamicArrayMessage_of_ok hM hpos hkeep hlen hstorage
      hstoragelen hsize hrun hread
    have hf' : Disturbs
        (if storage.length + spare data < vs.length * size then Cell.moved else id) := by
      split_ifs
      · exact disturbs_moved
      · exact disturbs_id
    have heach := requires_each default hloc hkeep (fun v _ w hv => hrestores v w hv)
      (fun v _ w hv => helem _ hf' v w hv) hvs
    -- the elements as they would be if they had not been moved
    have hwhole : readEach read size vs.length
        (resized size (zeros size) id vs.length storage (spare data)) =
          some (olds.take vs.length ++ List.replicate (vs.length - olds.length) z) :=
      readEach_resized hpos List.length_replicate hstoragelen hloc hz holds
        fun _ => by rw [List.map_id]; exact holds
    rw [overlay, Value.elems, Storable, storableList_iff, ← overlayList_resized hblank,
      overlayList_eq_mergeList] at hok
    rw [resized_moved hpos hstoragelen] at harray
    have hwholelen : (resized size (zeros size) id vs.length storage (spare data)).length =
        vs.length * size := length_resized hpos List.length_replicate hstoragelen
    obtain ⟨hreads', hready⟩ := heach _ _ rest block _ hwholelen.ge hwhole hok harray hblock
    rw [← resized_moved hpos hstoragelen] at hreads' hready
    exact settledVector_of_read hpos hstoragelen hloc holds hstorage hreads' hready

/-! ## Messages -/

section Message

variable {reg : Registry}

theorem singleString_keepsLength : (deserializeSingleString M).KeepsLength :=
  (stringFrame_follows (fun _ => none) fun _ _ => True).keepsLength

/-- A member asks for what the messages in it do. -/
theorem deserializeMember_requires (hM : M.Ample) (hf : Disturbs f) {T : MessageMembers}
    (h : RosidlLayout cppAbi T) (hT : Supported T) (hreg : reg.MarksPod T)
    (helem : ∀ S, T.HasMember S → ∀ f, Disturbs f → ∀ v w, Encodes cppAbi reg S v w →
      Requires (deserializeMessage cppAbi (ops M) reg S) f (Settled cppAbi S v) S.sizeOf
        (contentMessage cppAbi S) v w)
    {m : MessageMember MessageMembers} (hm : m ∈ T.members) {v : Value} {w : List UInt8}
    (hw : EncodesMember cppAbi reg m v w) :
    Requires (deserializeMember cppAbi (ops M) reg m) f (SettledMember cppAbi m v)
      (m.storageSize cppAbi) (contentMember cppAbi m) v w := by
  have harray := h.arraySize_le hm
  obtain ⟨s, p | _ | _ | _ | sub, off⟩ := m
  · exact (undisturbed_readMember hf (undisturbed_primitive hf p)).requires
      fun data => by rw [SettledMember]; trivial
  · have hstring : ∀ v w, Requires (deserializeSingleString M) f (fun _ => True) cppAbi.stringSize
        (fun d => (cppAbi.readString d).map .string) v w :=
      singleString_requires hf fun _ => trivial
    have hmember : Requires (deserializeMember cppAbi (ops M) reg ⟨s, .string, off⟩) f
        (settledShape s (fun _ _ => True) (fun _ _ => True) cppAbi.stringSize v) _ _ v w :=
      deserialize_requires (fun v w _ => hstring v w)
        (fun _ _ vs w hlen hvs => hlen ▸ requires_each default (cppAbi.readString_local.comp _)
          singleString_keepsLength (fun v _ w hv => singleString_restores hM hv)
          (fun v _ w _ => hstring v w) hvs)
        (fun v w _ => (undisturbed_sequence hf _ _).requires fun _ => trivial)
        (show memberFormat s false stringFormat cppAbi.stringSize v w from hw)
    exact hmember.of_ready fun data _ => by rw [SettledMember]; trivial
  · exact (show False from hw).elim
  · exact (show False from hw).elim
  · have hS : T.HasMember sub := ⟨_, hm, rfl⟩
    have hlocal := contentMessage_local (h.sub hS)
    have hkeep : (deserializeMessage cppAbi (ops M) reg sub).KeepsLength :=
      (deserializeMessage_follows framed (h.sub hS)).keepsLength
    have hrestores : ∀ v w, Encodes cppAbi reg sub v w →
        Restores (deserializeMessage cppAbi (ops M) reg sub) true (Settled cppAbi sub v) sub.sizeOf
          (contentMessage cppAbi sub) v w := fun v w hv =>
      deserializeMessage_restores (restoring hM) (h.sub hS) (hreg.sub hS) (fun _ S hS' =>
        contentMessage_zeros ((h.sub hS).contains hS') ((hT.sub hS).contains hS') le_rfl) hv
    have hpod : reg.isMemcopyable sub = true → Pod sub := hreg sub (.member hS (.self sub))
    obtain ⟨z, hblank, hz⟩ := contentMessage_zeros (h.sub hS) (hT.sub hS) le_rfl
    refine deserialize_requires (helem sub hS f hf) (fun _ _ vs w hlen hvs => ?_)
      (fun v w hvs => dynamicArrayMessage_requires hM hf (h.sub hS).pos hkeep hlocal hblank hz
        (fun hmark => ⟨undisturbed_of_pod disturbs_moved (hpod hmark), settled_of_pod (hpod hmark)⟩)
        hrestores (helem sub hS) hvs) hw
    rw [deserializeArrayMessage]
    split_ifs with hmark
    · exact ((undisturbed_of_pod hf (hpod hmark)).readEach _).requires
        fun data => readyEach_of_forall (settled_of_pod (hpod hmark)) _ _ data
    · rw [← hlen]
      exact requires_each default hlocal hkeep (fun v _ w hv => hrestores v w hv)
        (fun v _ w hv => helem sub hS f hf v w hv) hvs

/-- Members in order ask for what each of them does.  As before the induction goes through the
members that are left, from `pos` on, now in storage that has been disturbed there. -/
theorem deserializeMembers_requires {pos size : ℕ} {ms : List (MessageMember MessageMembers)}
    (hms : InOrder cppAbi pos ms size)
    (hloc : ∀ m ∈ ms, LocalTo (m.storageSize cppAbi) (contentMember cppAbi m))
    (hfollows : ∀ m ∈ ms, FollowsFrame M true (deserializeMember cppAbi (ops M) reg m)
      (memberFrame cppAbi (frames M) reg m) (m.storageSize cppAbi) (contentMember cppAbi m)
      (EncodesMember cppAbi reg m))
    (hrestores : ∀ m ∈ ms, ∀ v w, EncodesMember cppAbi reg m v w →
      Restores (deserializeMember cppAbi (ops M) reg m) true (SettledMember cppAbi m v)
        (m.storageSize cppAbi) (contentMember cppAbi m) v w)
    (hm : ∀ m ∈ ms, ∀ v w, EncodesMember cppAbi reg m v w →
      Requires (deserializeMember cppAbi (ops M) reg m) f (SettledMember cppAbi m v)
        (m.storageSize cppAbi) (contentMember cppAbi m) v w)
    {vs olds : List Value} {w rest rest' : List UInt8} (hw : EncodesMembers cppAbi reg ms vs w)
    {whole data data' : List Cell} (hlen : size ≤ data.length)
    (hdata : data.drop pos = (whole.drop pos).map f)
    (hold : contentMembers cppAbi ms whole = some olds)
    (hok : StorableList (overlayList true olds vs))
    (hrun : deserializeMembers cppAbi (ops M) reg ms data (w ++ rest) = .ok (data', rest'))
    (hread : contentMembers cppAbi ms data' ≠ none) :
    contentMembers cppAbi ms data = some olds ∧ SettledMembers cppAbi ms vs data := by
  induction ms generalizing pos vs olds w whole data with
  | nil => exact ⟨hold, trivial⟩
  | cons m ms ih =>
    obtain ⟨v, vs, w₁, w₂, rfl, rfl, h₁, h₂⟩ := hw
    obtain ⟨o, os, ho, hos, rfl⟩ := contentMembers_cons_eq_some.mp hold
    have hend : m.offset + m.storageSize cppAbi ≤ size := hms.2.le
    have hpos : pos ≤ m.offset := hms.1
    have hdrop : ∀ n, pos ≤ n → data.drop n = (whole.drop n).map f := fun n hn => by
      have h := congrArg (List.drop (n - pos)) hdata
      rwa [← List.map_drop, List.drop_drop, List.drop_drop, Nat.add_sub_cancel' hn] at h
    rw [overlayList] at hok
    rw [deserializeMembers, Decoder.within, List.append_assoc] at hrun
    cases hfirst : deserializeMember cppAbi (ops M) reg m (data.drop m.offset)
        (w₁ ++ (w₂ ++ rest)) with
    | error e => rw [hfirst] at hrun; cases hrun
    | ok p =>
      obtain ⟨tail, src⟩ := p
      rw [hfirst] at hrun
      replace hrun : deserializeMembers cppAbi (ops M) reg ms (data.take m.offset ++ tail) src =
          .ok (data', rest') := hrun
      have htail := (hfollows m (.head _)).keepsLength _ _ _ _ hfirst
      rw [List.length_drop] at htail
      have htake : (data.take m.offset).length = m.offset := by rw [List.length_take]; omega
      generalize hdata1 : data.take m.offset ++ tail = data1 at hrun
      have hlen1 : data1.length = data.length := by
        rw [← hdata1, List.length_append, htake, htail]
        omega
      -- what can be read of the first member in the end, could be read when it was done
      obtain ⟨vs', hvs'⟩ := Option.ne_none_iff_exists'.mp hread
      obtain ⟨x, xs, hx, hxs, rfl⟩ := contentMembers_cons_eq_some.mp hvs'
      have hkept := deserializeMembers_take hms.2 (fun m' hm' => hfollows m' (.tail _ hm'))
        (hlen1.symm ▸ hlen) hrun
      have hx1 : contentMember cppAbi m tail = some x := by
        rw [← hx]
        refine (hloc m (.head _) _ _ ?_).symm
        have h := drop_take_of_take_eq hkept
        rwa [← hdata1, List.drop_left' htake] at h
      have hwhole : m.storageSize cppAbi ≤ (whole.drop m.offset).length := by
        have h := congrArg List.length (hdrop m.offset hpos)
        rw [List.length_drop, List.length_map] at h
        omega
      have hfirst' := hfirst
      rw [hdrop m.offset hpos] at hfirst'
      obtain ⟨hread1, hready1⟩ := hm m (.head _) v w₁ h₁ _ o _ tail src hwhole ho hok.1 hfirst'
        (by rw [hx1]; exact Option.some_ne_none x)
      rw [← hdrop m.offset hpos] at hread1 hready1
      -- and it has left the others alone
      obtain ⟨tail', hrun', -, hdrop', -⟩ := hrestores m (.head _) v w₁ h₁ (data.drop m.offset) o
        (by rw [List.length_drop]; omega) (fun _ => ⟨hread1, hready1⟩) hok.1 (w₂ ++ rest)
      rw [hfirst] at hrun'
      cases hrun'
      have hbehind : data1.drop (m.offset + m.storageSize cppAbi) =
          data.drop (m.offset + m.storageSize cppAbi) := by
        rw [← List.drop_drop, ← hdata1, List.drop_left' htake, hdrop', List.drop_drop]
      obtain ⟨hread2, hready2⟩ := ih hms.2 (fun m' hm' => hloc m' (.tail _ hm'))
        (fun m' hm' => hfollows m' (.tail _ hm')) (fun m' hm' => hrestores m' (.tail _ hm'))
        (fun m' hm' => hm m' (.tail _ hm')) h₂ (by omega)
        (hbehind.trans (hdrop _ (by omega))) hos hok.2 hrun
        (by rw [hxs]; exact Option.some_ne_none xs)
      rw [contentMembers_congr hms.2 hbehind] at hread2
      rw [settledMembers_congr hms.2 hbehind] at hready2
      exact ⟨contentMembers_cons_eq_some.mpr ⟨o, os, hread1, hread2, rfl⟩, hready1, hready2⟩

/-- **A run over an encoding of `v` asks its target to be settled for `v`**, for every registry. -/
theorem deserializeMessage_requires (hM : M.Ample) (hf : Disturbs f) {T : MessageMembers}
    (h : RosidlLayout cppAbi T) (hT : Supported T) (hreg : reg.MarksPod T) {v : Value}
    {w : List UInt8} (hw : Encodes cppAbi reg T v w) :
    Requires (deserializeMessage cppAbi (ops M) reg T) f (Settled cppAbi T v) T.sizeOf
      (contentMessage cppAbi T) v w := by
  induction T using MessageMembers.induction generalizing f v w with
  | h T ih =>
    by_cases hmark : reg.isMemcopyable T = true
    · have hpod : Pod T := hreg T (.self T) hmark
      exact (undisturbed_of_pod hf hpod).requires (settled_of_pod hpod v)
    · obtain ⟨vs, rfl, hvs⟩ := (encodes_unmarked hmark).mp hw
      intro data old rest data' rest' hlen hold hok hrun hread
      obtain ⟨-, olds, holds, rfl⟩ := contentMessage_eq_some.mp hold
      obtain ⟨v', hv'⟩ := Option.ne_none_iff_exists'.mp hread
      obtain ⟨-, vs', hvs', -⟩ := contentMessage_eq_some.mp hv'
      have hlen' : T.sizeOf ≤ (data.map f).length := by rwa [List.length_map]
      rw [deserializeMessage_unmarked hmark hlen'] at hrun
      rw [overlay, Storable] at hok
      have hfollows : ∀ S, T.HasMember S → FollowsFrame M true
          (deserializeMessage cppAbi (ops M) reg S)
          (messageFrame cppAbi (frames M) reg S) S.sizeOf (contentMessage cppAbi S)
          (Encodes cppAbi reg S) := fun S hS => deserializeMessage_follows framed (h.sub hS)
      have hrestores : ∀ S, T.HasMember S → ∀ v w, Encodes cppAbi reg S v w →
          Restores (deserializeMessage cppAbi (ops M) reg S) true (Settled cppAbi S v) S.sizeOf
            (contentMessage cppAbi S) v w := fun S hS v w hv =>
        deserializeMessage_restores (restoring hM) (h.sub hS) (hreg.sub hS) (fun _ S' hS' =>
          contentMessage_zeros ((h.sub hS).contains hS') ((hT.sub hS).contains hS') le_rfl) hv
      obtain ⟨hsame, hready⟩ := deserializeMembers_requires h.inOrder
        (fun m hm => contentMember_local h hm)
        (fun m hm => deserializeMember_follows framed h hfollows hm)
        (fun m hm v w => deserializeMember_restores (restoring hM) h hreg
          (fun _ S hS => contentMessage_zeros (h.contains hS) (hT.contains hS) le_rfl) hrestores hm)
        (fun m hm v w => deserializeMember_requires hM hf h hT hreg (fun S hS f hf v w =>
          ih S hS hf (h.sub hS) (hT.sub hS) (hreg.sub hS)) hm) hvs hlen' rfl holds hok hrun
        (by rw [hvs']; exact Option.some_ne_none vs')
      exact ⟨contentMessage_eq_some.mpr ⟨hlen', olds, hsame, rfl⟩, settled_iff.mpr hready⟩

/-- **Only a target that is settled for `v` can still be read once `v` is decoded into it.** -/
theorem settled_of_run (hM : M.Ample) {T : MessageMembers} (h : RosidlLayout cppAbi T)
    (hT : Supported T) (hreg : reg.MarksPod T) {v old : Value} {w rest rest' : List UInt8}
    (hw : Encodes cppAbi reg T v w) {message left : List Cell}
    (hold : contentMessage cppAbi T message = some old) (hroom : (overlay true old v).Storable)
    (hrun : deserialize M reg T message (w ++ rest) = .ok (left, rest'))
    (hread : contentMessage cppAbi T left ≠ none) : Settled cppAbi T v message := by
  obtain ⟨hlen, -⟩ := contentMessage_eq_some.mp hold
  have hready := (deserializeMessage_requires hM disturbs_id h hT hreg hw message old rest left
    rest' hlen hold hroom (by rwa [List.map_id]) hread).2
  rwa [List.map_id] at hready

end Message

end CppDeserializer

end RmwEcal
