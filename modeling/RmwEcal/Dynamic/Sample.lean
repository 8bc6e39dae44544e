import RmwEcal.Dynamic.Extent
import RmwEcal.Dynamic.Framing
import RmwEcal.Dynamic.Templates

/-!
# A message that shows its layout

To see where two registries disagree it takes a message in which padding can be told from the rest.
Here is one for every supported type of the C binding (`exists_sample`): padding is all `2`,
numbers are made of `1`s, strings are empty, and sequences have one element, so that there is a
message of every type inside.
-/

set_option autoImplicit false

namespace RmwEcal

open Codec

/-! ## Visible padding -/

/-- Bytes with no more than this plain encoding and padding that is all `2` in them, all small. -/
structure Visible (plain w : List UInt8) : Prop where
  small : Small w
  avoids : ∀ b ∈ plain, b ≠ 2
  count : w.countP notPad = plain.length

theorem Visible.append {plain₁ plain₂ w₁ w₂ : List UInt8} (h₁ : Visible plain₁ w₁)
    (h₂ : Visible plain₂ w₂) : Visible (plain₁ ++ plain₂) (w₁ ++ w₂) where
  small := List.forall_mem_append.mpr ⟨h₁.small, h₂.small⟩
  avoids := List.forall_mem_append.mpr ⟨h₁.avoids, h₂.avoids⟩
  count := by rw [List.countP_append, List.length_append, h₁.count, h₂.count]

theorem visible_padding (n : ℕ) : Visible [] (List.replicate n 2) where
  small b hb := List.eq_of_mem_replicate hb ▸ UInt8.le_refl 2
  avoids := nofun
  count := by
    rw [List.countP_replicate, if_neg (by decide)]
    rfl

theorem visible_self {w : List UInt8} (h : ∀ b ∈ w, b ≤ 1) : Visible w w where
  small b hb := UInt8.le_trans (h b hb) (by decide)
  avoids b hb := by
    rintro rfl
    exact absurd (h 2 hb) (by decide)
  count := countP_notPad fun b hb => by
    rintro rfl
    exact absurd (h 2 hb) (by decide)

theorem visible_nil : Visible [] [] := visible_self nofun

/-! ## Samples -/

/-- Storage that holds `v`, and holds it visibly in each of these images. -/
structure SampleOf (size : ℕ) (read : List Cell → Option Value)
    (images : (List Cell → List UInt8) → Prop) (data : List Cell) (v : Value) : Prop where
  length : data.length = size
  reads : read data = some v
  visible : ∀ f, images f → ∀ rest, Visible v.wire (f (data ++ rest))

/-- An object at the head of some storage. -/
theorem object_append (head : Cell) (rest : List Cell) :
    object 24 head ++ rest = place 24 head (zeros 24 ++ rest) := rfl

theorem room_object (rest : List Cell) : 24 ≤ (zeros 24 ++ rest).length := by
  rw [List.length_append, zeros, List.length_replicate]
  omega

theorem visible_sizeBytes {n : ℕ} (h : n ≤ 1) : Visible (sizeBytes n) (sizeBytes n) := by
  have hbytes : (sizeBytes n).all (· ≤ 1) = true := by
    rcases Nat.le_one_iff_eq_zero_or_eq_one.mp h with rfl | rfl <;> rfl
  exact visible_self fun b hb => of_decide_eq_true (List.all_eq_true.mp hbytes b hb)

section Member

variable {size : ℕ} {read : List Cell → Option Value} {images : (List Cell → List UInt8) → Prop}
  {data : List Cell} {v : Value}

/-- Copies of a sample in a row. -/
theorem SampleOf.each (h : SampleOf size read images data v) {f : List Cell → List UInt8}
    (hf : images f) (n : ℕ) (rest : List Cell) :
    Visible (Value.wireList (List.replicate n v))
      (imageEach f size n ((List.replicate n data).flatten ++ rest)) := by
  induction n with
  | zero => rw [List.replicate_zero, Value.wireList]; exact visible_nil
  | succ n ih =>
    rw [List.replicate_succ, List.replicate_succ, List.flatten_cons, Value.wireList, imageEach,
      List.append_assoc, List.drop_left' h.length]
    exact (h.visible f hf _).append ih

section Shapes

variable {s : ArrayShape}

/-- A static array has the sample in every place. -/
theorem SampleOf.staticArray (h : SampleOf size read images data v) (hloc : LocalTo size read)
    (harray : s.isArray = true) (hstatic : s.isStatic = true) (isBoolean : Bool) :
    SampleOf (s.storageSize cAbi isBoolean size) (readMember cAbi s isBoolean read size)
      (fun g => ∃ f, images f ∧ g = memberImage cAbi s isBoolean f size)
      (List.replicate s.arraySize data).flatten (.array (List.replicate s.arraySize v)) where
  length := by
    rw [ArrayShape.storageSize, if_pos harray, if_pos hstatic, length_flatten_replicate, h.length]
  reads := by
    rw [readMember, if_pos harray, if_pos hstatic, readEach_replicate hloc h.length h.reads]
    rfl
  visible := by
    rintro g ⟨f, hf, rfl⟩ rest
    rw [memberImage, if_pos harray, if_pos hstatic, Value.wire]
    exact h.each hf s.arraySize rest

/-- A sequence of booleans has none. -/
theorem sampleOf_bools (harray : s.isArray = true) (hstatic : ¬ s.isStatic = true) :
    SampleOf (s.storageSize cAbi true size) (readMember cAbi s true read size)
      (fun g => ∃ f, images f ∧ g = memberImage cAbi s true f size)
      (object 24 (.sequence [] 0 0)) (.bools []) where
  length := by
    rw [ArrayShape.storageSize, if_pos harray, if_neg hstatic]
    rfl
  reads := by
    rw [readMember, if_pos harray, if_neg hstatic]
    rfl
  visible := by
    rintro g ⟨f, -, rfl⟩ rest
    have hbits : cAbi.readBools (object 24 (.sequence [] 0 0) ++ rest) = some [] := by
      rw [object_append, CDeserializer.readBools_place (room_object rest) (Nat.zero_le _)]
      rfl
    rw [memberImage, if_pos harray, if_neg hstatic, if_pos rfl, hbits, Value.wire]
    exact (visible_sizeBytes (Nat.zero_le 1)).append visible_nil

/-- Any other sequence has one sample. -/
theorem SampleOf.sequence (h : SampleOf size read images data v) (hsize : size ≤ maxSize)
    (harray : s.isArray = true) (hstatic : ¬ s.isStatic = true) :
    SampleOf (s.storageSize cAbi false size) (readMember cAbi s false read size)
      (fun g => ∃ f, images f ∧ g = memberImage cAbi s false f size)
      (object 24 (.sequence data 1 1)) (.sequence [v]) := by
  have hvector : ∀ rest, cAbi.readVector size (object 24 (.sequence data 1 1) ++ rest) =
      some (1, data) := fun rest => by
    rw [object_append]
    exact CDeserializer.readVector_place (room_object rest) (by rw [Nat.one_mul, h.length])
      (by rwa [Nat.one_mul])
  refine ⟨?_, ?_, ?_⟩
  · rw [ArrayShape.storageSize, if_pos harray, if_neg hstatic]
    rfl
  · rw [readMember, if_pos harray, if_neg hstatic, if_neg Bool.false_ne_true, readSequence,
      ← List.append_nil (object _ _), hvector, Option.bind_some]
    dsimp only
    rw [readEach, h.reads]
    rfl
  · rintro g ⟨f, hf, rfl⟩ rest
    rw [memberImage, if_pos harray, if_neg hstatic, if_neg Bool.false_ne_true, hvector, Value.wire]
    have hone := h.each hf 1 []
    rw [List.replicate_one, List.replicate_one, List.flatten_cons, List.flatten_nil,
      List.append_nil, List.append_nil] at hone
    exact (visible_sizeBytes le_rfl).append hone

end Shapes

/-- A sample of a member of any shape.  It has the sample of its type for elements. -/
theorem SampleOf.member (h : SampleOf size read images data v) (hloc : LocalTo size read)
    (hsize : size ≤ maxSize) (s : ArrayShape) (isBoolean : Bool) :
    ∃ data' v', SampleOf (s.storageSize cAbi isBoolean size) (readMember cAbi s isBoolean read size)
      (fun g => ∃ f, images f ∧ g = memberImage cAbi s isBoolean f size) data' v' ∧
      (isBoolean = false → s.elemsOf v' ≠ [] ∧ ∀ e ∈ s.elemsOf v', e = v) := by
  by_cases h1 : s.isArray = true
  · by_cases h2 : s.isStatic = true
    · have hpos : s.arraySize ≠ 0 := by
        rw [ArrayShape.isStatic, Bool.and_eq_true, decide_eq_true_iff] at h2
        omega
      refine ⟨_, _, .staticArray h hloc h1 h2 isBoolean, fun _ => ?_⟩
      rw [ArrayShape.elemsOf, if_pos h1]
      exact ⟨fun hnil => hpos (by simpa [Value.elems] using hnil),
        fun e he => List.eq_of_mem_replicate he⟩
    · cases isBoolean with
      | true => exact ⟨_, _, sampleOf_bools h1 h2, fun h => absurd h.symm Bool.false_ne_true⟩
      | false =>
        refine ⟨_, _, .sequence h hsize h1 h2, fun _ => ?_⟩
        rw [ArrayShape.elemsOf, if_pos h1]
        exact ⟨List.cons_ne_nil _ _, fun e he => List.mem_singleton.mp he⟩
  · refine ⟨data, v, ⟨?_, ?_, ?_⟩, fun _ => ?_⟩
    · rw [ArrayShape.storageSize, if_neg h1, h.length]
    · rw [readMember, if_neg h1, h.reads]
    · rintro g ⟨f, hf, rfl⟩ rest
      rw [memberImage, if_neg h1]
      exact h.visible f hf rest
    · rw [ArrayShape.elemsOf, if_neg h1]
      exact ⟨List.cons_ne_nil _ _, fun e he => List.mem_singleton.mp he⟩

end Member

/-! ## Members -/

/-- A block of objects in a row is their blocks in a row. -/
theorem image_mul (M : Platform) (size n : ℕ) (data : List Cell) :
    M.image (n * size) data = imageEach (M.image size) size n data := by
  induction n generalizing data with
  | zero => rw [Nat.zero_mul]; rfl
  | succ n ih => rw [Nat.succ_mul, Nat.add_comm, image_add, ih, imageEach]

/-- The images of a message: what a process sends for it, and the block that it is part of. -/
inductive ImageOfMessage (T : MessageMembers) : (List Cell → List UInt8) → Prop
  | sent (M : Platform) {reg : Registry} (h : reg.MarksPod T) :
      ImageOfMessage T (wireImage M cAbi reg T)
  | block (M : Platform) (h : Pod T) : ImageOfMessage T (M.image T.sizeOf)

/-- The images of a member. -/
inductive ImageOfMember (m : MessageMember MessageMembers) : (List Cell → List UInt8) → Prop
  | sent (M : Platform) {reg : Registry}
      (h : ∀ sub, m.typeId = .message sub → reg.MarksPod sub) :
      ImageOfMember m (imageOfMember M cAbi reg m)
  | block (M : Platform) (shape : m.isArray = true → m.isStatic = true) (kind : m.typeId.IsFixed)
      (h : ∀ sub, m.typeId = .message sub → Pod sub) :
      ImageOfMember m (M.image (m.storageSize cAbi))

/-- A sample of a message, with a message of every type inside. -/
structure SampleMessage (T : MessageMembers) (data : List Cell) (v : Value) : Prop where
  sample : SampleOf T.sizeOf (contentMessage cAbi T) (ImageOfMessage T) data v
  exercises : Exercises T v

/-- A sample of a member. -/
structure SampleMember (m : MessageMember MessageMembers) (data : List Cell) (v : Value) :
    Prop where
  sample : SampleOf (m.storageSize cAbi) (contentMember cAbi m) (ImageOfMember m) data v
  inhabited : ∀ sub, m.typeId = .message sub → m.toArrayShape.elemsOf v ≠ []
  exercises : ∀ sub, m.typeId = .message sub → ∀ e ∈ m.toArrayShape.elemsOf v, Exercises sub e

theorem SampleOf.mono {size : ℕ} {read : List Cell → Option Value}
    {images images' : (List Cell → List UInt8) → Prop} {data : List Cell} {v : Value}
    (h : SampleOf size read images data v) (himages : ∀ f, images' f → images f) :
    SampleOf size read images' data v :=
  ⟨h.length, h.reads, fun f hf => h.visible f (himages f hf)⟩

/-- The block of a member that is no sequence is sent like its elements. -/
theorem image_storageSize (M : Platform) {s : ArrayShape}
    (hs : s.isArray = true → s.isStatic = true) (isBoolean : Bool) (elemSize : ℕ) :
    M.image (s.storageSize cAbi isBoolean elemSize) =
      memberImage cAbi s isBoolean (M.image elemSize) elemSize := by
  funext data
  rw [ArrayShape.storageSize, memberImage]
  split_ifs with h1 h2
  · exact image_mul M elemSize s.arraySize data
  · exact absurd (hs h1) h2
  · exact absurd (hs h1) h2
  · rfl

/-- The sample of a number. -/
theorem sampleOf_primitive (p : Primitive) : SampleOf p.sizeof (readPrimitive p)
    (fun f => ∃ M : Platform, f = M.image p.sizeof) ((List.replicate p.sizeof 1).map .byte)
    (.primitive (List.replicate p.sizeof 1)) := by
  have hlen : ((List.replicate p.sizeof (1 : UInt8)).map Cell.byte).length = p.sizeof := by
    rw [List.length_map, List.length_replicate]
  refine ⟨hlen, Option.map_eq_some_iff.mpr
    ⟨_, bytes?_eq_some.mpr ⟨hlen.ge, List.take_of_length_le hlen.le⟩, rfl⟩, ?_⟩
  rintro _ ⟨M, rfl⟩ rest
  rw [Platform.image, List.take_left' hlen, map_toByte_byte, Value.wire]
  exact visible_self fun b hb => List.eq_of_mem_replicate hb ▸ UInt8.le_refl 1

/-- The sample of a string. -/
theorem sampleOf_string : SampleOf 24 (fun d => (cAbi.readString d).map .string)
    (· = stringImage cAbi) (object 24 (.sequence [] 0 0)) (.string []) := by
  have hread : ∀ rest, cAbi.readString (object 24 (.sequence [] 0 0) ++ rest) = some [] :=
    fun rest => by
      rw [object_append, CDeserializer.readString_place (room_object rest) (by decide)]
      rfl
  refine ⟨rfl, rfl, ?_⟩
  rintro _ rfl rest
  rw [stringImage, hread, Value.wire]
  exact (visible_sizeBytes (Nat.zero_le 1)).append visible_nil

/-- Members of all supported kinds have samples, if the messages inside have. -/
theorem exists_sampleMember {m : MessageMember MessageMembers}
    (hkind : m.typeId ≠ .wstring ∧ m.typeId ≠ .wchar)
    (hsub : ∀ sub, m.typeId = .message sub →
      RosidlLayout cAbi sub ∧ ∃ data v, SampleMessage sub data v) :
    ∃ data v, SampleMember m data v := by
  obtain ⟨s, p | _ | _ | _ | sub, off⟩ := m
  · obtain ⟨data, v, h, -⟩ := (sampleOf_primitive p).member (readPrimitive_local p)
      (by cases p <;> decide) s (TypeId.primitive p).isBoolean
    refine ⟨data, v, h.mono ?_, nofun, nofun⟩
    rintro _ (⟨M, -⟩ | ⟨M, hs, -, -⟩)
    · exact ⟨_, ⟨M, rfl⟩, rfl⟩
    · exact ⟨_, ⟨M, rfl⟩, image_storageSize M hs _ _⟩
  · obtain ⟨data, v, h, -⟩ := sampleOf_string.member (cAbi.readString_local.comp _)
      (by decide) s false
    refine ⟨data, v, h.mono ?_, nofun, nofun⟩
    rintro _ (⟨M, -⟩ | ⟨M, -, hfixed, -⟩)
    · exact ⟨_, rfl, rfl⟩
    · exact (show False from hfixed).elim
  · exact absurd rfl hkind.1
  · exact absurd rfl hkind.2
  · obtain ⟨hlayout, data, v, hsample, hexercises⟩ := hsub sub rfl
    obtain ⟨data, v', h, helems⟩ := hsample.member (contentMessage_local hlayout)
      hlayout.bounded s false
    obtain ⟨hne, heq⟩ := helems rfl
    refine ⟨data, v', h.mono ?_, fun _ _ => hne, fun R hR e he => ?_⟩
    · rintro _ (⟨M, hreg⟩ | ⟨M, hs, -, hpod⟩)
      · exact ⟨_, .sent M (hreg sub rfl), rfl⟩
      · exact ⟨_, .block M (hpod sub rfl), image_storageSize M hs _ _⟩
    · cases hR
      rw [heq e he]
      exact hexercises

/-! ## Messages -/

theorem SampleOf.reads_append {size : ℕ} {read : List Cell → Option Value}
    {images : (List Cell → List UInt8) → Prop} {data : List Cell} {v : Value}
    (h : SampleOf size read images data v) (hloc : LocalTo size read) (rest : List Cell) :
    read (data ++ rest) = some v := by
  rw [← h.reads]
  exact hloc _ _ (by rw [List.take_left' h.length, List.take_of_length_le h.length.le])

/-- Samples of members that lie between `pos` and `size`, with padding in the gaps. -/
structure SampleMembers (pos size : ℕ) (ms : List (MessageMember MessageMembers))
    (data : List Cell) (vs : List Value) : Prop where
  length : data.length = size - pos
  reads : ∀ before, before.length = pos → contentMembers cAbi ms (before ++ data) = some vs
  sent : ∀ (M : Platform) (reg : Registry),
    (∀ m ∈ ms, ∀ sub, m.typeId = .message sub → reg.MarksPod sub) →
    ∀ before rest, before.length = pos →
      Visible (Value.wireList vs) (membersImage M cAbi reg ms (before ++ data ++ rest))
  block : ∀ M : Platform, (∀ m ∈ ms, m.isArray = true → m.isStatic = true) →
    (∀ m ∈ ms, m.typeId.IsFixed) → (∀ m ∈ ms, ∀ sub, m.typeId = .message sub → Pod sub) →
    Visible (Value.wireList vs) (M.image (size - pos) data)
  inhabited : ∀ m v, (m, v) ∈ ms.zip vs → ∀ sub, m.typeId = .message sub →
    m.toArrayShape.elemsOf v ≠ []
  exercises : ∀ m v, (m, v) ∈ ms.zip vs → ∀ sub, m.typeId = .message sub →
    ∀ e ∈ m.toArrayShape.elemsOf v, Exercises sub e

theorem sampleMembers_nil (pos size : ℕ) :
    SampleMembers pos size [] (List.replicate (size - pos) (.byte 2)) [] where
  length := List.length_replicate
  reads _ _ := rfl
  sent M reg _ before rest _ := by
    rw [membersImage, Value.wireList]
    exact visible_nil
  block M _ _ _ := by
    rw [Platform.image, List.take_of_length_le List.length_replicate.le, List.map_replicate,
      Value.wireList]
    exact visible_padding _
  inhabited := nofun
  exercises := nofun

/-- A member more, with the gap in front of it. -/
theorem SampleMembers.cons {pos size : ℕ} {m : MessageMember MessageMembers}
    {ms : List (MessageMember MessageMembers)} (hms : InOrder cAbi pos (m :: ms) size)
    (hloc : LocalTo (m.storageSize cAbi) (contentMember cAbi m)) {first data : List Cell}
    {v : Value} {vs : List Value} (h : SampleMember m first v)
    (h' : SampleMembers (m.offset + m.storageSize cAbi) size ms data vs) :
    SampleMembers pos size (m :: ms)
      (List.replicate (m.offset - pos) (.byte 2) ++ (first ++ data)) (v :: vs) := by
  have hpos : pos ≤ m.offset := hms.1
  have hend : m.offset + m.storageSize cAbi ≤ size := hms.2.le
  have hlen := h.sample.length
  generalize hgap : List.replicate (m.offset - pos) (Cell.byte 2) = gap
  have hgaplen : gap.length = m.offset - pos := by rw [← hgap, List.length_replicate]
  -- where the member begins, and what the other members see
  have hdrop : ∀ before rest : List Cell, before.length = pos →
      (before ++ (gap ++ (first ++ data)) ++ rest).drop m.offset = first ++ (data ++ rest) := by
    intro before rest hbefore
    have heq : before ++ (gap ++ (first ++ data)) ++ rest =
        (before ++ gap) ++ (first ++ (data ++ rest)) := by simp only [List.append_assoc]
    rw [heq, List.drop_left' (by rw [List.length_append]; omega)]
  have hassoc : ∀ before : List Cell,
      before ++ (gap ++ (first ++ data)) = (before ++ gap ++ first) ++ data :=
    fun before => by simp only [List.append_assoc]
  have hbehind : ∀ before : List Cell, before.length = pos →
      (before ++ gap ++ first).length = m.offset + m.storageSize cAbi := fun before hbefore => by
    rw [List.length_append, List.length_append]
    omega
  refine ⟨?_, fun before hbefore => ?_, fun M reg hreg before rest hbefore => ?_,
    fun M hshape hkind hpod => ?_, fun m' v' hmem => ?_, fun m' v' hmem => ?_⟩
  · rw [List.length_append, List.length_append, hgaplen, hlen, h'.length]
    omega
  · refine contentMembers_cons_eq_some.mpr ⟨v, vs, ?_, ?_, rfl⟩
    · rw [← List.append_nil (before ++ _), hdrop before [] hbefore]
      exact h.sample.reads_append hloc _
    · rw [hassoc]
      exact h'.reads _ (hbehind before hbefore)
  · rw [membersImage, hdrop before rest hbefore, hassoc, Value.wireList]
    exact (h.sample.visible _ (.sent M (hreg m (.head _))) _).append
      (h'.sent M reg (fun m' hm' => hreg m' (.tail _ hm')) _ rest (hbehind before hbefore))
  · have hsplit : size - pos = (m.offset - pos) +
        (m.storageSize cAbi + (size - (m.offset + m.storageSize cAbi))) := by omega
    have hpad : M.image (m.offset - pos) (gap ++ (first ++ data)) =
        List.replicate (m.offset - pos) 2 := by
      rw [Platform.image, List.take_left' hgaplen, ← hgap, List.map_replicate]
      rfl
    rw [hsplit, image_add, image_add, hpad, List.drop_left' hgaplen, List.drop_left' hlen,
      Value.wireList]
    exact (visible_padding _).append ((h.sample.visible _
      (.block M (hshape m (.head _)) (hkind m (.head _)) (hpod m (.head _))) data).append
        (h'.block M (fun m' hm' => hshape m' (.tail _ hm')) (fun m' hm' => hkind m' (.tail _ hm'))
          fun m' hm' => hpod m' (.tail _ hm')))
  · rcases List.mem_cons.mp hmem with heq | hmem
    · cases heq
      exact h.inhabited
    · exact h'.inhabited m' v' hmem
  · rcases List.mem_cons.mp hmem with heq | hmem
    · cases heq
      exact h.exercises
    · exact h'.exercises m' v' hmem

theorem exists_sampleMembers {pos size : ℕ} {ms : List (MessageMember MessageMembers)}
    (hms : InOrder cAbi pos ms size)
    (hloc : ∀ m ∈ ms, LocalTo (m.storageSize cAbi) (contentMember cAbi m))
    (hm : ∀ m ∈ ms, ∃ data v, SampleMember m data v) :
    ∃ data vs, SampleMembers pos size ms data vs := by
  induction ms generalizing pos with
  | nil => exact ⟨_, _, sampleMembers_nil pos size⟩
  | cons m ms ih =>
    obtain ⟨first, v, hfirst⟩ := hm m (.head _)
    obtain ⟨data, vs, hrest⟩ := ih hms.2 (fun m' hm' => hloc m' (.tail _ hm'))
      fun m' hm' => hm m' (.tail _ hm')
    exact ⟨_, _, hrest.cons hms (hloc m (.head _)) hfirst⟩

/-- **Every supported type of the C binding has a message that shows its layout.** -/
theorem exists_sampleMessage {T : MessageMembers} (h : RosidlLayout cAbi T) (hT : Supported T) :
    ∃ data v, SampleMessage T data v := by
  induction T using MessageMembers.induction with
  | h T ih =>
    obtain ⟨data, vs, hms⟩ := exists_sampleMembers h.inOrder
      (fun m hm => contentMember_local h hm) fun m hm => exists_sampleMember (hT.kinds hm)
        fun sub hsub => ⟨h.sub ⟨m, hm, hsub⟩, ih sub ⟨m, hm, hsub⟩ (h.sub ⟨m, hm, hsub⟩)
          (hT.sub ⟨m, hm, hsub⟩)⟩
    have hlen : data.length = T.sizeOf := hms.length
    refine ⟨data, .message vs, ⟨hlen, ?_, ?_⟩, .mk hms.inhabited hms.exercises⟩
    · exact contentMessage_eq_some.mpr ⟨hlen.ge, vs, hms.reads [] rfl, rfl⟩
    · have hblock : ∀ M : Platform, Pod T → ∀ rest, Visible (Value.message vs).wire
          (M.image T.sizeOf (data ++ rest)) := by
        intro M hpod rest
        have himage := hms.block M (fun m hm => hpod.shape hm) (fun m hm => hpod.kind hm)
          fun m hm sub hsub => hpod.sub ⟨m, hm, hsub⟩
        rw [Platform.image, List.take_of_length_le hms.length.le] at himage
        rwa [Platform.image, List.take_left' hlen, Value.wire]
      rintro _ (⟨M, hreg⟩ | ⟨M, hpod⟩) rest
      · rename_i reg
        by_cases hmark : reg.isMemcopyable T = true
        · rw [wireImage_marked hmark]
          exact hblock M (hreg T (.self T) hmark) rest
        · rw [wireImage_unmarked hmark, Value.wire]
          exact hms.sent M reg (fun m hm sub hsub => hreg.sub ⟨m, hm, hsub⟩) [] rest rfl
      · exact hblock M hpod rest

end RmwEcal
