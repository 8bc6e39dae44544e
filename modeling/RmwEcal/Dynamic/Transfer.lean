import RmwEcal.Dynamic.Overlay

/-!
# One registry's encoding read by another

Which structs are copied as a block depends on what a process happened to analyse before, so the
two ends of a topic need not agree about it.  They still understand each other if they agree on how
many bytes each struct takes, `SameExtent`: a struct that one side copies as a block, and that
takes no fewer bytes when its members are sent one by one, has no gap, and then both ways of
sending it are the same (`encodes_full`).

* `Encodes.transfer` — under `SameExtent`, what one registry encodes the other one understands.
* `sameExtent_of_packed` — the condition holds as soon as whatever is marked is packed, as it is in
  C++.
-/

set_option autoImplicit false

namespace RmwEcal

open Codec

variable {abi : Abi} {reg : Registry}

/-! ## Structs without gaps -/

theorem each_iff_readEach {fmt : Format Value UInt8} {size : ℕ} {read : List Cell → Option Value}
    (hloc : LocalTo size read)
    (h : ∀ v w, fmt v w ↔ w.length = size ∧ read (w.map .byte) = some v) {vs : List Value}
    {w : List UInt8} : fmt.each vs w ↔
      w.length = vs.length * size ∧ readEach read size vs.length (w.map .byte) = some vs := by
  induction vs generalizing w with
  | nil =>
    rw [List.length_nil, Nat.zero_mul]
    exact ⟨fun hw => ⟨by rw [show w = [] from hw]; rfl, rfl⟩,
      fun hw => List.eq_nil_of_length_eq_zero hw.1⟩
  | cons v vs ih =>
    rw [List.length_cons, Nat.succ_mul]
    constructor
    · rintro ⟨w₁, w₂, rfl, h₁, h₂⟩
      obtain ⟨hlen₁, hread₁⟩ := (h v w₁).mp h₁
      obtain ⟨hlen₂, hread₂⟩ := ih.mp h₂
      have hmap : (w₁.map Cell.byte).length = size := by rw [List.length_map, hlen₁]
      rw [List.map_append]
      refine ⟨by rw [List.length_append]; omega,
        readEach_succ_eq_some.mpr ⟨v, vs, ?_, by rw [List.drop_left' hmap, hread₂], rfl⟩⟩
      rw [← hread₁]
      exact hloc _ _ (by rw [List.take_left' hmap, List.take_of_length_le hmap.le])
    · rintro ⟨hlen, hread⟩
      obtain ⟨v', vs', hv, hvs, heq⟩ := readEach_succ_eq_some.mp hread
      cases heq
      refine ⟨w.take size, w.drop size, (List.take_append_drop size w).symm,
        (h v _).mpr ⟨by rw [List.length_take]; omega, ?_⟩,
        ih.mpr ⟨by rw [List.length_drop]; omega, by rw [List.map_drop, hvs]⟩⟩
      rw [← hv, List.map_take]
      exact hloc _ _ (by rw [List.take_take, Nat.min_self])

theorem primitiveFormat_iff (p : Primitive) (v : Value) (w : List UInt8) :
    primitiveFormat p v w ↔ w.length = p.sizeof ∧ readPrimitive p (w.map .byte) = some v := by
  have hbytes : w.length = p.sizeof → bytes? p.sizeof (w.map .byte) = some w := fun hlen =>
    bytes?_eq_some.mpr ⟨by rw [List.length_map, hlen],
      List.take_of_length_le (by rw [List.length_map, hlen])⟩
  constructor
  · rintro ⟨rfl, hlen⟩
    exact ⟨hlen, Option.map_eq_some_iff.mpr ⟨w, hbytes hlen, rfl⟩⟩
  · rintro ⟨hlen, hv⟩
    obtain ⟨bs, hbs, rfl⟩ := Option.map_eq_some_iff.mp hv
    rw [hbytes hlen] at hbs
    cases hbs
    exact ⟨rfl, hlen⟩

/-- A member without gaps is encoded as it is stored. -/
theorem encodesMember_full {m : MessageMember MessageMembers}
    (hshape : m.isArray = true → m.isStatic = true) (hkind : m.typeId.IsFixed)
    (hloc : ∀ sub, m.typeId = .message sub → LocalTo sub.sizeOf (contentMessage abi sub))
    (hsub : ∀ sub, m.typeId = .message sub → ∀ v w, Encodes abi reg sub v w ↔
      w.length = sub.sizeOf ∧ contentMessage abi sub (w.map .byte) = some v)
    {v : Value} {w : List UInt8} : EncodesMember abi reg m v w ↔
      w.length = m.storageSize abi ∧ contentMember abi m (w.map .byte) = some v := by
  -- one argument for numbers and messages, over how an element is encoded and stored
  have key : ∀ (isBoolean : Bool) (fmt : Format Value UInt8) (size : ℕ)
      (read : List Cell → Option Value), LocalTo size read →
      (∀ v w, fmt v w ↔ w.length = size ∧ read (w.map .byte) = some v) →
      (memberFormat m.toArrayShape isBoolean fmt size v w ↔
        w.length = m.toArrayShape.storageSize abi isBoolean size ∧
          readMember abi m.toArrayShape isBoolean read size (w.map .byte) = some v) := by
    intro isBoolean fmt size read hread h
    rw [memberFormat, ArrayShape.storageSize, readMember]
    split_ifs with h1 h2 h3
    · constructor
      · rintro ⟨vs, rfl, hlen, hvs⟩
        obtain ⟨hw, hvs⟩ := (each_iff_readEach hread h).mp hvs
        rw [hlen] at hw hvs
        exact ⟨hw, Option.map_eq_some_iff.mpr ⟨vs, hvs, rfl⟩⟩
      · rintro ⟨hw, hv⟩
        obtain ⟨vs, hvs, rfl⟩ := Option.map_eq_some_iff.mp hv
        have hlen := readEach_length hvs
        refine ⟨vs, rfl, hlen, (each_iff_readEach hread h).mpr ?_⟩
        rw [hlen]
        exact ⟨hw, hvs⟩
    · exact absurd (hshape h1) h2
    · exact absurd (hshape h1) h2
    · exact h v w
  obtain ⟨s, p | _ | _ | _ | sub, off⟩ := m
  · exact key _ _ _ _ (readPrimitive_local p) (primitiveFormat_iff p)
  · exact hkind.elim
  · exact hkind.elim
  · exact hkind.elim
  · exact key _ _ _ _ (hloc sub rfl) (hsub sub rfl)

theorem encodesMembers_full {pos size : ℕ} {ms : List (MessageMember MessageMembers)}
    (hms : InOrder abi pos ms size)
    (hshape : ∀ m ∈ ms, m.isArray = true → m.isStatic = true)
    (hle : ∀ m ∈ ms, wireSizeElem reg m.typeId ≤ m.typeId.elemSize abi)
    (hloc : ∀ m ∈ ms, LocalTo (m.storageSize abi) (contentMember abi m))
    (hm : ∀ m ∈ ms, wireSizeElem reg m.typeId = m.typeId.elemSize abi → ∀ v w,
      EncodesMember abi reg m v w ↔
        w.length = m.storageSize abi ∧ contentMember abi m (w.map .byte) = some v)
    (hfull : pos + wireSizeMembers reg ms = size) {before : List Cell}
    (hbefore : before.length = pos) {vs : List Value} {w : List UInt8} :
    EncodesMembers abi reg ms vs w ↔
      w.length = size - pos ∧ contentMembers abi ms (before ++ w.map .byte) = some vs := by
  induction ms generalizing pos before vs w with
  | nil =>
    rw [wireSizeMembers, Nat.add_zero] at hfull
    rw [EncodesMembers, contentMembers, ← hfull, Nat.sub_self, List.length_eq_zero_iff,
      Option.some.injEq]
    exact ⟨fun h => ⟨h.2, h.1.symm⟩, fun h => ⟨h.2.symm, h.1⟩⟩
  | cons m ms ih =>
    obtain ⟨hoff, helem, hrest⟩ := wireSizeMembers_full hms hshape hle hfull
    have hfirst := hm m (.head _) helem
    have hloc' := hloc m (.head _)
    have hend : m.offset + m.storageSize abi ≤ size := hms.2.le
    have hih : ∀ {before : List Cell}, before.length = m.offset + m.storageSize abi →
        ∀ {vs : List Value} {w : List UInt8}, EncodesMembers abi reg ms vs w ↔
          w.length = size - (m.offset + m.storageSize abi) ∧
            contentMembers abi ms (before ++ w.map .byte) = some vs := fun h => ih hms.2
      (fun m' hm' => hshape m' (.tail _ hm')) (fun m' hm' => hle m' (.tail _ hm'))
      (fun m' hm' => hloc m' (.tail _ hm')) (fun m' hm' => hm m' (.tail _ hm')) hrest h
    have hdrop : ∀ w : List UInt8, (before ++ w.map Cell.byte).drop m.offset = w.map .byte :=
      fun w => List.drop_left' (by rw [hbefore, hoff])
    constructor
    · rintro ⟨v, rest, w₁, w₂, rfl, rfl, h₁, h₂⟩
      obtain ⟨hlen₁, hread₁⟩ := (hfirst _ _).mp h₁
      have hbefore' : (before ++ w₁.map Cell.byte).length = m.offset + m.storageSize abi := by
        rw [List.length_append, List.length_map, hbefore, hlen₁, hoff]
      obtain ⟨hlen₂, hread₂⟩ := (hih hbefore').mp h₂
      refine ⟨by rw [List.length_append]; omega,
        contentMembers_cons_eq_some.mpr ⟨v, rest, ?_, ?_, rfl⟩⟩
      · rw [hdrop, ← hread₁, List.map_append]
        refine hloc' _ _ ?_
        rw [List.take_left' (by rw [List.length_map, hlen₁]),
          List.take_of_length_le (by rw [List.length_map, hlen₁])]
      · rw [List.map_append, ← List.append_assoc, hread₂]
    · rintro ⟨hlen, hread⟩
      obtain ⟨v, rest, hv, hvs, rfl⟩ := contentMembers_cons_eq_some.mp hread
      have hlen₁ : (w.take (m.storageSize abi)).length = m.storageSize abi := by
        rw [List.length_take]
        omega
      have hbefore' : (before ++ (w.take (m.storageSize abi)).map Cell.byte).length =
          m.offset + m.storageSize abi := by
        rw [List.length_append, List.length_map, hbefore, hlen₁, hoff]
      refine ⟨v, rest, w.take (m.storageSize abi), w.drop (m.storageSize abi), rfl,
        (List.take_append_drop _ w).symm, (hfirst _ _).mpr ⟨hlen₁, ?_⟩, (hih hbefore').mpr ⟨?_, ?_⟩⟩
      · rw [← hv, hdrop, List.map_take]
        exact hloc' _ _ (by rw [List.take_take, Nat.min_self])
      · rw [List.length_drop]
        omega
      · rw [List.append_assoc, ← List.map_append, List.take_append_drop, hvs]

/-- **A struct that takes all its bytes on the wire is sent as it is stored**, whether it is copied
as a block or not. -/
theorem encodes_full {T : MessageMembers} (hpod : Pod T) (h : RosidlLayout abi T)
    (hfull : wireSize reg T = T.sizeOf) {v : Value} {w : List UInt8} :
    Encodes abi reg T v w ↔
      w.length = T.sizeOf ∧ contentMessage abi T (w.map .byte) = some v := by
  induction T using MessageMembers.induction generalizing v w with
  | h T ih =>
    by_cases hmark : reg.isMemcopyable T = true
    · exact encodes_marked hmark
    · rw [wireSize_unmarked hmark] at hfull
      have hmembers : ∀ vs, EncodesMembers abi reg T.members vs w ↔ w.length = T.sizeOf - 0 ∧
          contentMembers abi T.members ([] ++ w.map .byte) = some vs := fun vs =>
        encodesMembers_full h.inOrder
        (fun m hm harr => hpod.shape hm harr)
        (fun m hm => wireSizeElem_le fun S hS =>
          wireSize_le (hpod.sub ⟨m, hm, hS⟩) (h.sub ⟨m, hm, hS⟩))
        (fun m hm => contentMember_local h hm)
        (fun m hm helem v w => encodesMember_full (fun harr => hpod.shape hm harr)
          (hpod.kind hm) (fun sub hsub => contentMessage_local (h.sub ⟨m, hm, hsub⟩))
          (fun sub hsub v w => ih sub ⟨m, hm, hsub⟩ (hpod.sub ⟨m, hm, hsub⟩)
            (h.sub ⟨m, hm, hsub⟩) (by rw [hsub] at helem; exact helem)))
        (by rw [Nat.zero_add, hfull]) rfl
      rw [encodes_unmarked hmark, contentMessage_eq_some, List.length_map]
      constructor
      · rintro ⟨vs, rfl, hvs⟩
        obtain ⟨hlen, hcontent⟩ := (hmembers vs).mp hvs
        exact ⟨hlen, hlen.ge, vs, hcontent, rfl⟩
      · rintro ⟨hlen, -, vs, hcontent, rfl⟩
        exact ⟨vs, rfl, (hmembers vs).mpr ⟨hlen, hcontent⟩⟩

/-! ## Two registries -/

/-- Sender and receiver agree on how many bytes a struct takes wherever one of them copies it as a
block. -/
inductive SameExtent (sender receiver : Registry) : MessageMembers → Prop
  | block {T : MessageMembers}
      (marked : sender.isMemcopyable T = true ∨ receiver.isMemcopyable T = true)
      (extent : wireSize sender T = wireSize receiver T) : SameExtent sender receiver T
  | members {T : MessageMembers} (hsender : ¬sender.isMemcopyable T = true)
      (hreceiver : ¬receiver.isMemcopyable T = true)
      (sub : ∀ S, T.HasMember S → SameExtent sender receiver S) : SameExtent sender receiver T

/-- **What one registry encodes the other one understands**, if they agree on extents. -/
theorem Encodes.transfer {sender receiver : Registry} {T : MessageMembers}
    (hsame : SameExtent sender receiver T) (h : RosidlLayout abi T)
    (hsender : sender.MarksPod T) (hreceiver : receiver.MarksPod T) {v : Value} {w : List UInt8}
    (hw : Encodes abi sender T v w) : Encodes abi receiver T v w := by
  induction T using MessageMembers.induction generalizing v w with
  | h T ih =>
    cases hsame with
    | block marked extent =>
      have hpod : Pod T := marked.elim (hsender T (.self T)) (hreceiver T (.self T))
      have hfull : wireSize sender T = T.sizeOf := marked.elim wireSize_marked
        fun hr => extent.trans (wireSize_marked hr)
      exact (encodes_full hpod h (extent ▸ hfull)).mpr ((encodes_full hpod h hfull).mp hw)
    | members hs hr hsub =>
      obtain ⟨vs, rfl, hvs⟩ := (encodes_unmarked hs).mp hw
      refine (encodes_unmarked hr).mpr ⟨vs, rfl, encodesMembers_mono (fun m hm v w hw => ?_) hvs⟩
      obtain ⟨s, p | _ | _ | _ | sub, off⟩ := m
      · exact hw
      · exact hw
      · exact hw
      · exact hw
      · have hmem : T.HasMember sub := ⟨_, hm, rfl⟩
        exact memberFormat_mono (fun v w => ih sub hmem (hsub sub hmem) (h.sub hmem)
          (hsender.sub hmem) (hreceiver.sub hmem)) hw

theorem wireSizeMembers_mono {reg reg' : Registry} {ms : List (MessageMember MessageMembers)}
    (h : ∀ m ∈ ms, wireSizeElem reg m.typeId ≤ wireSizeElem reg' m.typeId) :
    wireSizeMembers reg ms ≤ wireSizeMembers reg' ms := by
  induction ms with
  | nil => rw [wireSizeMembers, wireSizeMembers]
  | cons m ms ih =>
    rw [wireSizeMembers, wireSizeMembers, wireSizeMember_eq, wireSizeMember_eq]
    exact Nat.add_le_add (Nat.mul_le_mul_left _ (h m (.head _)))
      (ih fun m' hm' => h m' (.tail _ hm'))

/-- Copying blocks never makes an encoding shorter. -/
theorem packedSize_le_wireSize {T : MessageMembers} (hpod : Pod T) (h : RosidlLayout abi T) :
    packedSize T ≤ wireSize reg T := by
  induction T using MessageMembers.induction with
  | h T ih =>
    by_cases hmark : reg.isMemcopyable T = true
    · rw [wireSize_marked hmark]
      exact wireSize_le hpod h
    · rw [packedSize_eq, wireSize_unmarked hmark]
      refine wireSizeMembers_mono fun m hm => ?_
      obtain ⟨s, p | _ | _ | _ | sub, off⟩ := m
      · exact le_rfl
      · exact le_rfl
      · exact le_rfl
      · exact le_rfl
      · exact ih sub ⟨_, hm, rfl⟩ (hpod.sub ⟨_, hm, rfl⟩) (h.sub ⟨_, hm, rfl⟩)

/-- Every type inside `T` that the registry marks is packed. -/
def Registry.MarksPacked (reg : Registry) (T : MessageMembers) : Prop :=
  ∀ S, T.Contains S → reg.isMemcopyable S = true → packedSize S = S.sizeOf

theorem Registry.MarksPacked.sub {T S : MessageMembers} (h : reg.MarksPacked T)
    (hS : T.HasMember S) : reg.MarksPacked S := fun R hR => h R (.member hS hR)

/-- **Registries that mark nothing but packed types agree on extents.** -/
theorem sameExtent_of_packed {sender receiver : Registry} {T : MessageMembers}
    (h : RosidlLayout abi T) (hsender : sender.MarksPod T) (hreceiver : receiver.MarksPod T)
    (hspacked : sender.MarksPacked T) (hrpacked : receiver.MarksPacked T) :
    SameExtent sender receiver T := by
  induction T using MessageMembers.induction with
  | h T ih =>
    by_cases hmark : sender.isMemcopyable T = true ∨ receiver.isMemcopyable T = true
    · have hpod : Pod T := hmark.elim (hsender T (.self T)) (hreceiver T (.self T))
      have hpacked : packedSize T = T.sizeOf :=
        hmark.elim (hspacked T (.self T)) (hrpacked T (.self T))
      have hall : ∀ reg : Registry, wireSize reg T = T.sizeOf := fun reg =>
        Nat.le_antisymm (wireSize_le hpod h) (hpacked ▸ packedSize_le_wireSize hpod h)
      exact .block hmark ((hall sender).trans (hall receiver).symm)
    · rw [not_or] at hmark
      exact .members hmark.1 hmark.2 fun S hS => ih S hS (h.sub hS) (hsender.sub hS)
        (hreceiver.sub hS) (hspacked.sub hS) (hrpacked.sub hS)

end RmwEcal
