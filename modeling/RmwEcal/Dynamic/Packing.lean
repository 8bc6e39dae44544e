import RmwEcal.Dynamic.TypeInfo

/-!
# Structs that are nothing but bytes

A type the registry marks is `Pod`: its struct contains numbers and padding, nothing else.  This
file says what that is good for.

* `length_wire_of_pod` — the plain encoding of such a message has `packedSize` bytes, which is at
  most the size of the struct (`wireSize_le`), with equality exactly when there is no gap.
* `cpp_packed` — there is none in a type that the C++ overload marks.
* `content_stamp` — a block copy of the struct, padding and all, holds the same message.
-/

set_option autoImplicit false

namespace RmwEcal

open Codec

/-! ## Plain old data -/

/-- Whether elements of this type are of fixed size. -/
def TypeId.IsFixed : TypeId MessageMembers → Prop
  | .primitive _ | .message _ => True
  | .string | .wstring | .wchar => False

/-- No string and no sequence at any depth. -/
inductive Pod : MessageMembers → Prop
  | mk {T : MessageMembers} (shape : ∀ m ∈ T.members, m.isArray = true → m.isStatic = true)
      (kind : ∀ m ∈ T.members, m.typeId.IsFixed) (sub : ∀ S, T.HasMember S → Pod S) : Pod T

theorem Pod.shape {T : MessageMembers} (h : Pod T) {m : MessageMember MessageMembers}
    (hm : m ∈ T.members) (harr : m.isArray = true) : m.isStatic = true := by
  cases h with
  | mk hshape _ _ => exact hshape m hm harr

theorem Pod.kind {T : MessageMembers} (h : Pod T) {m : MessageMember MessageMembers}
    (hm : m ∈ T.members) : m.typeId.IsFixed := by
  cases h with
  | mk _ hkind _ => exact hkind m hm

theorem Pod.sub {T S : MessageMembers} (h : Pod T) (hS : T.HasMember S) : Pod S := by
  cases h with
  | mk _ _ hsub => exact hsub S hS

/-- The number of elements of a member that is not a sequence. -/
def ArrayShape.count (s : ArrayShape) : ℕ := if s.isArray then s.arraySize else 1

mutual

/-- The number of bytes that a struct of fixed size takes on the wire, for a process with this
registry. -/
def wireSize (reg : Registry) : MessageMembers → ℕ
  | .mk name size ms =>
    if reg.isMemcopyable (.mk name size ms) then size else wireSizeMembers reg ms

/-- The same for a list of members. -/
def wireSizeMembers (reg : Registry) : List (MessageMember MessageMembers) → ℕ
  | [] => 0
  | m :: ms => wireSizeMember reg m + wireSizeMembers reg ms

/-- The same for one member. -/
def wireSizeMember (reg : Registry) : MessageMember MessageMembers → ℕ
  | ⟨s, .primitive p, _⟩ => s.count * p.sizeof
  | ⟨s, .message sub, _⟩ => s.count * wireSize reg sub
  | ⟨_, .string, _⟩ | ⟨_, .wstring, _⟩ | ⟨_, .wchar, _⟩ => 0

end

/-- The same for one element. -/
def wireSizeElem (reg : Registry) : TypeId MessageMembers → ℕ
  | .primitive p => p.sizeof
  | .message sub => wireSize reg sub
  | .string | .wstring | .wchar => 0

/-- The number of bytes of the numbers in a struct, without the padding between them: nothing is
copied as a block if nothing is marked. -/
abbrev packedSize (T : MessageMembers) : ℕ := wireSize .empty T

section Sizes

variable {reg : Registry}

theorem wireSize_marked {T : MessageMembers} (h : reg.isMemcopyable T = true) :
    wireSize reg T = T.sizeOf := by
  obtain ⟨name, size, ms⟩ := T
  rw [wireSize, if_pos h]
  rfl

theorem wireSize_unmarked {T : MessageMembers} (h : ¬reg.isMemcopyable T = true) :
    wireSize reg T = wireSizeMembers reg T.members := by
  obtain ⟨name, size, ms⟩ := T
  rw [wireSize, if_neg h]
  rfl

theorem not_isMemcopyable_empty (T : MessageMembers) :
    ¬Registry.isMemcopyable .empty T = true := by
  simp [Registry.isMemcopyable, Registry.empty]

theorem packedSize_eq (T : MessageMembers) : packedSize T = wireSizeMembers .empty T.members :=
  wireSize_unmarked (not_isMemcopyable_empty T)

theorem wireSizeMember_eq (m : MessageMember MessageMembers) :
    wireSizeMember reg m = m.toArrayShape.count * wireSizeElem reg m.typeId := by
  obtain ⟨s, _ | _ | _ | _ | _, off⟩ := m <;> rfl

end Sizes

section Fits

variable {abi : Abi} {reg : Registry}

theorem storageSize_of_pod {m : MessageMember MessageMembers}
    (h : m.isArray = true → m.isStatic = true) :
    m.storageSize abi = m.toArrayShape.count * m.typeId.elemSize abi := by
  rw [MessageMember.storageSize, ArrayShape.storageSize, ArrayShape.count]
  split_ifs with h1 h2
  · rfl
  · exact absurd (h h1) h2
  · exact absurd (h h1) h2
  · rw [Nat.one_mul]

theorem count_pos {m : MessageMember MessageMembers} (h : m.isArray = true → m.isStatic = true) :
    0 < m.toArrayShape.count := by
  rw [ArrayShape.count]
  split_ifs with h1
  · have h2 := h h1
    rw [ArrayShape.isStatic, Bool.and_eq_true, decide_eq_true_iff] at h2
    exact h2.1
  · exact Nat.one_pos

theorem wireSizeElem_le {t : TypeId MessageMembers}
    (hsub : ∀ S, t = .message S → wireSize reg S ≤ S.sizeOf) :
    wireSizeElem reg t ≤ t.elemSize abi := by
  rcases t with p | _ | _ | _ | S
  · exact le_rfl
  · exact Nat.zero_le _
  · exact le_rfl
  · exact le_rfl
  · exact hsub S rfl

theorem wireSizeMembers_le {pos size : ℕ} {ms : List (MessageMember MessageMembers)}
    (hms : InOrder abi pos ms size)
    (hle : ∀ m ∈ ms, wireSizeMember reg m ≤ m.storageSize abi) :
    pos + wireSizeMembers reg ms ≤ size := by
  induction ms generalizing pos with
  | nil => exact hms
  | cons m ms ih =>
    have hm := hle m (.head _)
    have hrest := ih hms.2 fun m' hm' => hle m' (.tail _ hm')
    have hpos : pos ≤ m.offset := hms.1
    rw [wireSizeMembers]
    omega

theorem wireSizeMember_le {m : MessageMember MessageMembers}
    (hshape : m.isArray = true → m.isStatic = true)
    (hle : wireSizeElem reg m.typeId ≤ m.typeId.elemSize abi) :
    wireSizeMember reg m ≤ m.storageSize abi := by
  rw [wireSizeMember_eq, storageSize_of_pod hshape]
  exact Nat.mul_le_mul_left _ hle

/-- Plain old data takes at most as much space on the wire as in memory. -/
theorem wireSize_le {T : MessageMembers} (hpod : Pod T) (h : RosidlLayout abi T) :
    wireSize reg T ≤ T.sizeOf := by
  induction T using MessageMembers.induction with
  | h T ih =>
    by_cases hmark : reg.isMemcopyable T = true
    · rw [wireSize_marked hmark]
    · have hmembers : 0 + wireSizeMembers reg T.members ≤ T.sizeOf :=
          wireSizeMembers_le h.inOrder fun m hm =>
        wireSizeMember_le (fun harr => hpod.shape hm harr) (wireSizeElem_le fun S hS =>
          ih S ⟨m, hm, hS⟩ (hpod.sub ⟨m, hm, hS⟩) (h.sub ⟨m, hm, hS⟩))
      rw [wireSize_unmarked hmark]
      omega

/-- If members take as much space on the wire as they have in memory, none of them is preceded by a
gap or has one inside. -/
theorem wireSizeMembers_full {pos size : ℕ} {m : MessageMember MessageMembers}
    {ms : List (MessageMember MessageMembers)} (hms : InOrder abi pos (m :: ms) size)
    (hshape : ∀ m' ∈ m :: ms, m'.isArray = true → m'.isStatic = true)
    (hle : ∀ m' ∈ m :: ms, wireSizeElem reg m'.typeId ≤ m'.typeId.elemSize abi)
    (hfull : pos + wireSizeMembers reg (m :: ms) = size) :
    m.offset = pos ∧ wireSizeElem reg m.typeId = m.typeId.elemSize abi ∧
      m.offset + m.storageSize abi + wireSizeMembers reg ms = size := by
  have hmle := wireSizeMember_le (hshape m (.head _)) (hle m (.head _))
  have hrest : m.offset + m.storageSize abi + wireSizeMembers reg ms ≤ size :=
    wireSizeMembers_le hms.2 fun m' hm' =>
    wireSizeMember_le (hshape m' (.tail _ hm')) (hle m' (.tail _ hm'))
  have hpos : pos ≤ m.offset := hms.1
  rw [wireSizeMembers] at hfull
  have hmfull : wireSizeMember reg m = m.storageSize abi := by omega
  rw [wireSizeMember_eq, storageSize_of_pod (hshape m (.head _))] at hmfull
  exact ⟨by omega, Nat.eq_of_mul_eq_mul_left (count_pos (hshape m (.head _))) hmfull, by omega⟩

end Fits

/-! ## Marked types -/

section Marked

variable {countedSize : Primitive → ℕ} {reg : Registry}

theorem MembersFit.mem {ms : List (MessageMember MessageMembers)} {a size : ℕ}
    (h : MembersFit countedSize reg ms a size) {m : MessageMember MessageMembers} (hm : m ∈ ms) :
    (m.isArray = true → m.isStatic = true) ∧ m.typeId.IsFixed ∧
      ∀ S, m.typeId = .message S → reg.isMemcopyable S = true := by
  induction ms generalizing a with
  | nil => cases hm
  | cons m' ms ih =>
    rcases List.mem_cons.mp hm with rfl | hm'
    · have hfits := h.1
      rw [memberFits, Bool.and_eq_true, Bool.or_eq_true, Bool.not_eq_true'] at hfits
      refine ⟨fun harr => hfits.2.resolve_left (by simp [harr]), ?_⟩
      obtain ⟨s, _ | _ | _ | _ | sub, off⟩ := m
      · exact ⟨trivial, fun _ hS => by cases hS⟩
      · exact (show False from h.2).elim
      · exact (show False from h.2).elim
      · exact (show False from h.2).elim
      · exact ⟨trivial, fun S hS => by cases hS; exact h.2.1⟩
    · obtain ⟨s, _ | _ | _ | _ | sub, off⟩ := m'
      · exact ih h.2 hm'
      · exact (show False from h.2).elim
      · exact (show False from h.2).elim
      · exact (show False from h.2).elim
      · exact ih h.2.2 hm'

variable {types : MessageMembers → Prop}

/-- **A marked type is plain old data**, and so is everything inside it marked. -/
theorem Registry.Sound.pod (hreg : reg.Sound countedSize types)
    (hclosed : ∀ T S, types T → T.HasMember S → types S) {T : MessageMembers} (hT : types T)
    (hmark : reg.isMemcopyable T = true) : Pod T := by
  induction T using MessageMembers.induction with
  | h T ih =>
    have hfit := hreg T hT hmark
    refine .mk (fun m hm => (hfit.mem hm).1) (fun m hm => (hfit.mem hm).2.1) fun S hS => ?_
    obtain ⟨m, hm, hmS⟩ := hS
    exact ih S ⟨m, hm, hmS⟩ (hclosed T S hT ⟨m, hm, hmS⟩) ((hfit.mem hm).2.2 S hmS)

/-- The loop has counted at least as far as the struct extends. -/
theorem MembersFit.reaches {abi : Abi} {ms : List (MessageMember MessageMembers)} {pos a size : ℕ}
    (h : MembersFit countedSize reg ms a size) (hms : InOrder abi pos ms size) : pos ≤ a := by
  cases ms with
  | nil => exact (show pos ≤ size from hms).trans (show a = size from h).ge
  | cons m ms =>
    have hfits := h.1
    rw [memberFits, Bool.and_eq_true, beq_iff_eq] at hfits
    exact hfits.1 ▸ hms.1

end Marked

/-- In C++ the loop counts one element for every member, so members that fit are single elements
and the struct is filled by them. -/
theorem membersFit_packed {abi : Abi} {reg : Registry} {ms : List (MessageMember MessageMembers)}
    {pos a size : ℕ} (h : MembersFit cppCountedSize reg ms a size) (hms : InOrder abi pos ms size)
    (hsub : ∀ m ∈ ms, ∀ S, m.typeId = .message S → packedSize S = S.sizeOf) :
    a + wireSizeMembers .empty ms = size := by
  induction ms generalizing pos a with
  | nil => exact h
  | cons m ms ih =>
    have hmem := h.mem (.head _)
    have hcount := count_pos hmem.1
    have hstorage : m.storageSize abi = _ := storageSize_of_pod hmem.1
    have hoff : m.offset = a := by
      have hfits := h.1
      rw [memberFits, Bool.and_eq_true, beq_iff_eq] at hfits
      exact hfits.1
    -- the rest starts where one element ends, so there is room for one element only
    have key : MembersFit cppCountedSize reg ms (a + wireSizeElem .empty m.typeId) size ∧
        m.typeId.elemSize abi = wireSizeElem .empty m.typeId := by
      have hms' := hsub m (.head _)
      obtain ⟨s, p | _ | _ | _ | sub, off⟩ := m
      · exact ⟨h.2, rfl⟩
      · exact (show False from h.2).elim
      · exact (show False from h.2).elim
      · exact (show False from h.2).elim
      · have heq : packedSize sub = sub.sizeOf := hms' sub rfl
        refine ⟨?_, heq.symm⟩
        show MembersFit cppCountedSize reg ms (a + packedSize sub) size
        rw [heq]
        exact h.2.2
    have hreach := key.1.reaches hms.2
    have hrest := ih key.1 hms.2 fun m' hm' => hsub m' (.tail _ hm')
    rw [hoff, hstorage, key.2] at hreach
    have hone : wireSizeMember .empty m = wireSizeElem .empty m.typeId := by
      rw [wireSizeMember_eq]
      exact Nat.le_antisymm (by omega) (Nat.le_mul_of_pos_left _ hcount)
    rw [wireSizeMembers, hone]
    omega

/-- **A type marked by the C++ overload is packed.** -/
theorem cpp_packed {abi : Abi} {reg : Registry} {types : MessageMembers → Prop}
    (hreg : reg.Sound cppCountedSize types)
    (hclosed : ∀ T S, types T → T.HasMember S → types S) {T : MessageMembers} (hT : types T)
    (h : RosidlLayout abi T) (hmark : reg.isMemcopyable T = true) : packedSize T = T.sizeOf := by
  induction T using MessageMembers.induction with
  | h T ih =>
    have hfit := hreg T hT hmark
    have hmembers := membersFit_packed hfit h.inOrder fun m hm S hS =>
      ih S ⟨m, hm, hS⟩ (hclosed T S hT ⟨m, hm, hS⟩) (h.sub ⟨m, hm, hS⟩)
        ((hfit.mem hm).2.2 S hS)
    rw [packedSize_eq]
    omega

/-! ## What a block copy of the struct puts on the wire -/

/-- The bytes a `memcpy` of the first `size` cells copies. -/
def Platform.image (M : Platform) (size : ℕ) (data : List Cell) : List UInt8 :=
  (data.take size).map M.toByte

theorem map_toByte_byte (M : Platform) (bs : List UInt8) :
    (bs.map Cell.byte).map M.toByte = bs := by
  rw [List.map_map]
  exact List.map_id' bs

theorem image_of_bytes? (M : Platform) {size : ℕ} {data : List Cell} {bs : List UInt8}
    (h : bytes? size data = some bs) : M.image size data = bs := by
  rw [Platform.image, (bytes?_eq_some.mp h).2, map_toByte_byte]

theorem image_add (M : Platform) (m n : ℕ) (data : List Cell) :
    M.image (m + n) data = M.image m data ++ M.image n (data.drop m) := by
  rw [Platform.image, Platform.image, Platform.image, List.take_add, List.map_append]

section Values

variable {abi : Abi} {elem : List Cell → Option Value} {elemSize : ℕ}

/-- A member that is not a sequence is its elements in a row. -/
theorem readMember_of_pod {s : ArrayShape} (hs : s.isArray = true → s.isStatic = true)
    {isBoolean : Bool} {data : List Cell} {v : Value}
    (h : readMember abi s isBoolean elem elemSize data = some v) :
    ∃ vs, readEach elem elemSize s.count data = some vs ∧ v.wire = Value.wireList vs := by
  rw [readMember] at h
  rw [ArrayShape.count]
  split_ifs at h ⊢ with h1 h2 h3
  · obtain ⟨vs, hvs, rfl⟩ := Option.map_eq_some_iff.mp h
    exact ⟨vs, hvs, by rw [Value.wire]⟩
  · exact absurd (hs h1) h2
  · exact absurd (hs h1) h2
  · exact ⟨[v], readEach_succ_eq_some.mpr ⟨v, [], h, rfl, rfl⟩,
      by rw [Value.wireList, Value.wireList, List.append_nil]⟩

theorem length_wireList_readEach {k : ℕ} (h : ∀ data v, elem data = some v → v.wire.length = k)
    {n : ℕ} {data : List Cell} {vs : List Value} (hvs : readEach elem elemSize n data = some vs) :
    (Value.wireList vs).length = n * k := by
  induction n generalizing data vs with
  | zero => cases hvs; rw [Value.wireList, List.length_nil, Nat.zero_mul]
  | succ n ih =>
    obtain ⟨v, rest, hv, hrest, rfl⟩ := readEach_succ_eq_some.mp hvs
    rw [Value.wireList, List.length_append, h _ _ hv, ih hrest, Nat.succ_mul, Nat.add_comm]

end Values

section Wire

variable {abi : Abi}

theorem length_wireList_of_pod {ms : List (MessageMember MessageMembers)}
    (hshape : ∀ m ∈ ms, m.isArray = true → m.isStatic = true)
    (helem : ∀ m ∈ ms, ∀ data v, contentElem abi m.typeId data = some v →
      v.wire.length = wireSizeElem .empty m.typeId)
    {data : List Cell} {vs : List Value} (h : contentMembers abi ms data = some vs) :
    (Value.wireList vs).length = wireSizeMembers .empty ms := by
  induction ms generalizing vs with
  | nil => cases h; rw [Value.wireList, wireSizeMembers]; rfl
  | cons m ms ih =>
    obtain ⟨v, rest, hv, hrest, rfl⟩ := contentMembers_cons_eq_some.mp h
    obtain ⟨ws, hws, hwire⟩ := readMember_of_pod (hshape m (.head _)) (contentMember_eq hv)
    rw [Value.wireList, List.length_append, hwire,
      length_wireList_readEach (helem m (.head _)) hws,
      ih (fun m' hm' => hshape m' (.tail _ hm')) (fun m' hm' => helem m' (.tail _ hm')) hrest,
      wireSizeMembers, wireSizeMember_eq]

/-- **The plain encoding of plain old data has its packed size.** -/
theorem length_wire_of_pod {T : MessageMembers} (hpod : Pod T) {data : List Cell} {v : Value}
    (h : contentMessage abi T data = some v) : v.wire.length = packedSize T := by
  induction T using MessageMembers.induction generalizing data v with
  | h T ih =>
    obtain ⟨-, vs, hvs, rfl⟩ := contentMessage_eq_some.mp h
    rw [Value.wire, packedSize_eq]
    refine length_wireList_of_pod (fun m hm => hpod.shape hm) (fun m hm data v hv => ?_) hvs
    have hkind := hpod.kind hm
    obtain ⟨s, p | _ | _ | _ | sub, off⟩ := m
    · obtain ⟨bs, hbs, rfl⟩ := Option.map_eq_some_iff.mp hv
      rw [Value.wire]
      exact length_of_bytes? hbs
    · exact hkind.elim
    · exact hkind.elim
    · exact hkind.elim
    · exact ih sub ⟨_, hm, rfl⟩ (hpod.sub ⟨_, hm, rfl⟩) hv

end Wire

/-! ## A block copy holds the same message -/

/-- Storage after a block copy through the wire: every cell is the byte the copy saw there. -/
def Platform.stamp (M : Platform) (data : List Cell) : List Cell :=
  data.map fun c => .byte (M.toByte c)

theorem readEach_stamp (M : Platform) {elem : List Cell → Option Value} {elemSize : ℕ}
    (h : ∀ data v, elem data = some v → elem (M.stamp data) = some v) {n : ℕ} {data : List Cell}
    {vs : List Value} (hvs : readEach elem elemSize n data = some vs) :
    readEach elem elemSize n (M.stamp data) = some vs := by
  induction n generalizing data vs with
  | zero => exact hvs
  | succ n ih =>
    obtain ⟨v, rest, hv, hrest, rfl⟩ := readEach_succ_eq_some.mp hvs
    refine readEach_succ_eq_some.mpr ⟨v, rest, h _ _ hv, ?_, rfl⟩
    rw [Platform.stamp, ← List.map_drop]
    exact ih hrest

theorem readMember_stamp {abi : Abi} (M : Platform) (elem : List Cell → Option Value)
    {elemSize : ℕ} (h : ∀ data v, elem data = some v → elem (M.stamp data) = some v)
    {s : ArrayShape} (hs : s.isArray = true → s.isStatic = true) {isBoolean : Bool}
    {data : List Cell} {v : Value} (hv : readMember abi s isBoolean elem elemSize data = some v) :
    readMember abi s isBoolean elem elemSize (M.stamp data) = some v := by
  rw [readMember] at hv ⊢
  split_ifs at hv ⊢ with h1 h2
  · obtain ⟨vs, hvs, rfl⟩ := Option.map_eq_some_iff.mp hv
    rw [readEach_stamp M h hvs, Option.map_some]
  · exact absurd (hs h1) h2
  · exact absurd (hs h1) h2
  · exact h _ _ hv

theorem readPrimitive_stamp (M : Platform) (p : Primitive) {data : List Cell} {v : Value}
    (hv : readPrimitive p data = some v) : readPrimitive p (M.stamp data) = some v := by
  obtain ⟨bs, hbs, rfl⟩ := Option.map_eq_some_iff.mp hv
  obtain ⟨hlen, htake⟩ := bytes?_eq_some.mp hbs
  refine Option.map_eq_some_iff.mpr ⟨bs, bytes?_eq_some.mpr ⟨?_, ?_⟩, rfl⟩
  · rwa [Platform.stamp, List.length_map]
  · rw [Platform.stamp, ← List.map_take, htake, List.map_map]
    rfl

theorem contentMembers_stamp {abi : Abi} (M : Platform) {ms : List (MessageMember MessageMembers)}
    (h : ∀ m ∈ ms, ∀ data v, contentMember abi m data = some v →
      contentMember abi m (M.stamp data) = some v)
    {data : List Cell} {vs : List Value} (hvs : contentMembers abi ms data = some vs) :
    contentMembers abi ms (M.stamp data) = some vs := by
  induction ms generalizing vs with
  | nil => exact hvs
  | cons m ms ih =>
    obtain ⟨v, rest, hv, hrest, rfl⟩ := contentMembers_cons_eq_some.mp hvs
    refine contentMembers_cons_eq_some.mpr ⟨v, rest, ?_,
      ih (fun m' hm' => h m' (.tail _ hm')) hrest, rfl⟩
    rw [Platform.stamp, ← List.map_drop]
    exact h m (.head _) _ v hv

/-- **Copied as a block, plain old data holds the same message.** -/
theorem content_stamp {abi : Abi} (M : Platform) {T : MessageMembers} (hpod : Pod T)
    {data : List Cell} {v : Value} (hv : contentMessage abi T data = some v) :
    contentMessage abi T (M.stamp data) = some v := by
  induction T using MessageMembers.induction generalizing data v with
  | h T ih =>
    obtain ⟨hlen, vs, hvs, rfl⟩ := contentMessage_eq_some.mp hv
    refine contentMessage_eq_some.mpr ⟨by rwa [Platform.stamp, List.length_map], vs, ?_, rfl⟩
    refine contentMembers_stamp M (fun m hm data v hv => ?_) hvs
    have hkind := hpod.kind hm
    have hshape := hpod.shape hm
    obtain ⟨s, p | _ | _ | _ | sub, off⟩ := m
    · exact readMember_stamp M (readPrimitive p)
        (fun _ _ => readPrimitive_stamp M p) hshape hv
    · exact hkind.elim
    · exact hkind.elim
    · exact hkind.elim
    · exact readMember_stamp M (contentMessage abi sub)
        (fun _ _ => ih sub ⟨_, hm, rfl⟩ (hpod.sub ⟨_, hm, rfl⟩)) hshape hv

end RmwEcal
