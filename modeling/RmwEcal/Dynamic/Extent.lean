import RmwEcal.Dynamic.Plain

/-!
# Encodings that two registries share

If the same bytes are an encoding of one value for two registries, must the registries agree on
extents?  Not in general, padding may look like anything.  But they must if the padding can be told
from the rest: if none of the bytes of the plain encoding is `2` and all of the padding is
(`sameExtent_of_shared`).  The argument reads the two encodings from the left.  Where a member ends
in one of them, it also ends in the other, because what comes next starts with a byte of the plain
encoding and not with padding.
-/

set_option autoImplicit false

namespace RmwEcal

open Codec

variable {abi : Abi} {reg : Registry}

/-! ## The plain encoding inside an encoding -/

theorem sublist_readEach {read : List Cell → Option Value} {stride : ℕ}
    (h : ∀ (w : List UInt8) v, read (w.map .byte) = some v → v.wire.Sublist (w.take stride))
    {n : ℕ} {w : List UInt8} {vs : List Value}
    (hvs : readEach read stride n (w.map .byte) = some vs) :
    (Value.wireList vs).Sublist (w.take (n * stride)) := by
  induction n generalizing w vs with
  | zero => cases hvs; rw [Value.wireList]; exact List.nil_sublist _
  | succ n ih =>
    obtain ⟨v, rest, hv, hrest, rfl⟩ := readEach_succ_eq_some.mp hvs
    rw [← List.map_drop] at hrest
    rw [Value.wireList, Nat.succ_mul, Nat.add_comm, List.take_add]
    exact (h w v hv).append (ih hrest)

theorem sublist_members {pos size : ℕ} {ms : List (MessageMember MessageMembers)}
    (hms : InOrder abi pos ms size)
    (hshape : ∀ m ∈ ms, m.isArray = true → m.isStatic = true)
    (helem : ∀ m ∈ ms, ∀ (w : List UInt8) v, contentElem abi m.typeId (w.map .byte) = some v →
      v.wire.Sublist (w.take (m.typeId.elemSize abi)))
    {w : List UInt8} {vs : List Value} (h : contentMembers abi ms (w.map .byte) = some vs) :
    (Value.wireList vs).Sublist ((w.drop pos).take (size - pos)) := by
  induction ms generalizing pos vs with
  | nil => cases h; rw [Value.wireList]; exact List.nil_sublist _
  | cons m ms ih =>
    obtain ⟨v, rest, hv, hrest, rfl⟩ := contentMembers_cons_eq_some.mp h
    have hrest := ih hms.2 (fun m' hm' => hshape m' (.tail _ hm'))
      (fun m' hm' => helem m' (.tail _ hm')) hrest
    rw [← List.map_drop] at hv
    obtain ⟨ws, hws, hwire⟩ := readMember_of_pod (hshape m (.head _)) (contentMember_eq hv)
    have hfirst := sublist_readEach (helem m (.head _)) hws
    rw [← (storageSize_of_pod (hshape m (.head _)) : m.storageSize abi = _)] at hfirst
    have hpos : pos ≤ m.offset := hms.1
    have hend : m.offset + m.storageSize abi ≤ size := hms.2.le
    have hsplit : size - pos = (m.offset - pos) +
        (m.storageSize abi + (size - (m.offset + m.storageSize abi))) := by omega
    have hoff : pos + (m.offset - pos) = m.offset := by omega
    rw [Value.wireList, hwire, hsplit, List.take_add, List.take_add, List.drop_drop, hoff,
      List.drop_drop]
    exact (hfirst.append hrest).trans (List.sublist_append_right _ _)

theorem sublist_of_pod {T : MessageMembers} (hpod : Pod T) (h : RosidlLayout abi T)
    {w : List UInt8} {v : Value} (hv : contentMessage abi T (w.map .byte) = some v) :
    v.wire.Sublist (w.take T.sizeOf) := by
  induction T using MessageMembers.induction generalizing w v with
  | h T ih =>
    obtain ⟨-, vs, hvs, rfl⟩ := contentMessage_eq_some.mp hv
    have hmembers := sublist_members h.inOrder (fun m hm harr => hpod.shape hm harr)
      (fun m hm w v hv => ?_) hvs
    · rwa [List.drop_zero, Nat.sub_zero] at hmembers
    · have hkind := hpod.kind hm
      obtain ⟨s, p | _ | _ | _ | sub, off⟩ := m
      · obtain ⟨bs, hbs, rfl⟩ := Option.map_eq_some_iff.mp hv
        have htake := (bytes?_eq_some.mp hbs).2
        rw [← List.map_take] at htake
        rw [Value.wire, List.map_injective_iff.mpr (fun _ _ => Cell.byte.inj) htake.symm]
        exact .refl _
      · exact hkind.elim
      · exact hkind.elim
      · exact hkind.elim
      · exact ih sub ⟨_, hm, rfl⟩ (hpod.sub ⟨_, hm, rfl⟩) (h.sub ⟨_, hm, rfl⟩) hv

/-- An encoding in this format contains the plain one. -/
def ContainsPlain {ν : Type} (wire : ν → List UInt8) (fmt : Format ν UInt8) : Prop :=
  ∀ v w, fmt v w → (wire v).Sublist w

theorem ContainsPlain.each {fmt : Format Value UInt8} (h : ContainsPlain Value.wire fmt) :
    ContainsPlain Value.wireList fmt.each := by
  intro vs
  induction vs with
  | nil => exact fun w _ => by rw [Value.wireList]; exact List.nil_sublist _
  | cons v vs ih =>
    rintro w ⟨w₁, w₂, rfl, h₁, h₂⟩
    rw [Value.wireList]
    exact (h v w₁ h₁).append (ih w₂ h₂)

theorem containsPlain_member {m : MessageMember MessageMembers}
    (hsub : ∀ sub, m.typeId = .message sub → ContainsPlain Value.wire (Encodes abi reg sub)) :
    ContainsPlain Value.wire (EncodesMember abi reg m) := by
  obtain ⟨s, p | _ | _ | _ | sub, off⟩ := m
  · intro v w hw
    rw [memberFormat_plain (fun _ _ => primitiveFormat_plain p) hw]
  · intro v w hw
    rw [memberFormat_plain (fun _ _ => stringFormat_plain) hw]
  · exact fun _ _ hw => (show False from hw).elim
  · exact fun _ _ hw => (show False from hw).elim
  · intro v w hw
    rw [EncodesMember, memberFormat] at hw
    split_ifs at hw
    · obtain ⟨vs, rfl, -, hvs⟩ := hw
      rw [Value.wire]
      exact (hsub sub rfl).each vs w hvs
    · contradiction
    · obtain ⟨vs, w, rfl, -, rfl, hvs⟩ := hw
      rw [Value.wire]
      exact ((hsub sub rfl).each vs w hvs).append_left _
    · exact hsub sub rfl v w hw

theorem containsPlain_members {ms : List (MessageMember MessageMembers)}
    (hm : ∀ m ∈ ms, ContainsPlain Value.wire (EncodesMember abi reg m)) :
    ContainsPlain Value.wireList (EncodesMembers abi reg ms) := by
  induction ms with
  | nil =>
    rintro vs w ⟨rfl, rfl⟩
    rw [Value.wireList]
  | cons m ms ih =>
    rintro vs w ⟨v, vs, w₁, w₂, rfl, rfl, h₁, h₂⟩
    rw [Value.wireList]
    exact (hm m (.head _) v w₁ h₁).append (ih (fun m' hm' => hm m' (.tail _ hm')) vs w₂ h₂)

theorem containsPlain_encodes {T : MessageMembers} (h : RosidlLayout abi T)
    (hreg : reg.MarksPod T) : ContainsPlain Value.wire (Encodes abi reg T) := by
  induction T using MessageMembers.induction with
  | h T ih =>
    intro v w hw
    by_cases hmark : reg.isMemcopyable T = true
    · obtain ⟨hlen, hv⟩ := (encodes_marked hmark).mp hw
      have hsub := sublist_of_pod (hreg T (.self T) hmark) h hv
      rwa [List.take_of_length_le hlen.le] at hsub
    · obtain ⟨vs, rfl, hvs⟩ := (encodes_unmarked hmark).mp hw
      rw [Value.wire]
      exact containsPlain_members (fun m hm => containsPlain_member fun sub hsub =>
        ih sub ⟨m, hm, hsub⟩ (h.sub ⟨m, hm, hsub⟩) (hreg.sub ⟨m, hm, hsub⟩)) vs w hvs

/-! ## How an encoding begins -/

/-- An encoding in this format begins as the plain one does. -/
def BeginsPlain {ν : Type} (wire : ν → List UInt8) (fmt : Format ν UInt8) : Prop :=
  ∀ v w, fmt v w → w.head? = (wire v).head?

theorem BeginsPlain.each {fmt : Format Value UInt8} (h : BeginsPlain Value.wire fmt) :
    BeginsPlain Value.wireList fmt.each := by
  intro vs
  induction vs with
  | nil => rintro w rfl; rw [Value.wireList]
  | cons v vs ih =>
    rintro w ⟨w₁, w₂, rfl, h₁, h₂⟩
    rw [Value.wireList, List.head?_append, List.head?_append, h v w₁ h₁, ih w₂ h₂]

theorem beginsPlain_member {m : MessageMember MessageMembers}
    (hsub : ∀ sub, m.typeId = .message sub → BeginsPlain Value.wire (Encodes abi reg sub)) :
    BeginsPlain Value.wire (EncodesMember abi reg m) := by
  obtain ⟨s, p | _ | _ | _ | sub, off⟩ := m
  · intro v w hw
    rw [memberFormat_plain (fun _ _ => primitiveFormat_plain p) hw]
  · intro v w hw
    rw [memberFormat_plain (fun _ _ => stringFormat_plain) hw]
  · exact fun _ _ hw => (show False from hw).elim
  · exact fun _ _ hw => (show False from hw).elim
  · intro v w hw
    rw [EncodesMember, memberFormat] at hw
    split_ifs at hw
    · obtain ⟨vs, rfl, -, hvs⟩ := hw
      rw [Value.wire]
      exact (hsub sub rfl).each vs w hvs
    · contradiction
    · obtain ⟨vs, w, rfl, -, rfl, hvs⟩ := hw
      rw [Value.wire, List.head?_append, List.head?_append, (hsub sub rfl).each vs w hvs]
    · exact hsub sub rfl v w hw

theorem beginsPlain_members {ms : List (MessageMember MessageMembers)}
    (hm : ∀ m ∈ ms, BeginsPlain Value.wire (EncodesMember abi reg m)) :
    BeginsPlain Value.wireList (EncodesMembers abi reg ms) := by
  induction ms with
  | nil =>
    rintro vs w ⟨rfl, rfl⟩
    rw [Value.wireList]
  | cons m ms ih =>
    rintro vs w ⟨v, vs, w₁, w₂, rfl, rfl, h₁, h₂⟩
    rw [Value.wireList, List.head?_append, List.head?_append, hm m (.head _) v w₁ h₁,
      ih (fun m' hm' => hm m' (.tail _ hm')) vs w₂ h₂]

/-- Every type inside `T` that the registry marks passes the checks of `AnalyzeType`. -/
def Registry.MarksFit (reg : Registry) (countedSize : Primitive → ℕ) (T : MessageMembers) : Prop :=
  ∀ S, T.Contains S → reg.isMemcopyable S = true → MembersFit countedSize reg S.members 0 S.sizeOf

theorem Registry.MarksFit.sub {countedSize : Primitive → ℕ} {T S : MessageMembers}
    (h : reg.MarksFit countedSize T) (hS : T.HasMember S) : reg.MarksFit countedSize S :=
  fun R hR => h R (.member hS hR)

theorem head?_take {w : List UInt8} {n : ℕ} (hn : 0 < n) : (w.take n).head? = w.head? := by
  rw [List.head?_take, if_neg (by omega)]

/-- The first thing in a marked struct is a number. -/
theorem beginsPlain_marked {countedSize : Primitive → ℕ} {T : MessageMembers}
    (h : RosidlLayout abi T) (hfit : reg.MarksFit countedSize T)
    (hmark : reg.isMemcopyable T = true)
    (hsub : ∀ S, T.HasMember S → BeginsPlain Value.wire (Encodes abi reg S)) :
    BeginsPlain Value.wire (Encodes abi reg T) := by
  intro v w hw
  obtain ⟨hlen, hcontent⟩ := (encodes_marked hmark).mp hw
  obtain ⟨-, vs, hvs, rfl⟩ := contentMessage_eq_some.mp hcontent
  have hmembers := hfit T (.self T) hmark
  have hpos := h.pos
  rw [Value.wire]
  cases hms : T.members with
  | nil =>
    rw [hms] at hmembers
    exact absurd (show 0 = T.sizeOf from hmembers) (by omega)
  | cons m ms =>
    rw [hms] at hmembers hvs
    have hm : m ∈ T.members := hms ▸ .head _
    obtain ⟨v, rest, hv, -, rfl⟩ := contentMembers_cons_eq_some.mp hvs
    obtain ⟨hshape, hkind, hmarks⟩ := hmembers.mem (.head _)
    have hfits := hmembers.1
    rw [memberFits, Bool.and_eq_true, beq_iff_eq] at hfits
    rw [hfits.1, List.drop_zero] at hv
    obtain ⟨ws, hws, hwire⟩ := readMember_of_pod hshape (contentMember_eq hv)
    have hcount := count_pos hshape
    obtain ⟨n, hn⟩ := Nat.exists_eq_succ_of_ne_zero (show m.toArrayShape.count ≠ 0 by omega)
    rw [hn] at hws
    obtain ⟨e, es, he, -, rfl⟩ := readEach_succ_eq_some.mp hws
    -- the first element of the first member begins where the struct does
    have helem : e.wire.head? = w.head? := by
      obtain ⟨s, p | _ | _ | _ | sub, off⟩ := m
      · obtain ⟨bs, hbs, rfl⟩ := Option.map_eq_some_iff.mp he
        have htake := (bytes?_eq_some.mp hbs).2
        rw [← List.map_take] at htake
        rw [Value.wire, List.map_injective_iff.mpr (fun _ _ => Cell.byte.inj) htake.symm,
          head?_take p.sizeof_pos]
      · exact hkind.elim
      · exact hkind.elim
      · exact hkind.elim
      · have hS : T.HasMember sub := ⟨_, hm, rfl⟩
        have hsize : sub.sizeOf ≤ (w.map Cell.byte).length := (contentMessage_eq_some.mp he).1
        rw [List.length_map] at hsize
        have henc : Encodes abi reg sub e (w.take sub.sizeOf) := by
          refine (encodes_marked (hmarks sub rfl)).mpr
            ⟨by rw [List.length_take, Nat.min_eq_left hsize], ?_⟩
          rw [← he, List.map_take]
          exact contentMessage_local (h.sub hS) _ _ (by rw [List.take_take, Nat.min_self])
        rw [← hsub sub hS e _ henc, head?_take (h.sub hS).pos]
    have hsome : w.head?.isSome = true :=
      List.isSome_head?.mpr (List.ne_nil_of_length_pos (by omega))
    rw [Value.wireList, hwire, Value.wireList, List.append_assoc, List.head?_append, helem,
      Option.or_of_isSome hsome]

/-- **An encoding begins as the plain one does**, with no padding in front. -/
theorem beginsPlain_encodes {countedSize : Primitive → ℕ} {T : MessageMembers}
    (h : RosidlLayout abi T) (hfit : reg.MarksFit countedSize T) :
    BeginsPlain Value.wire (Encodes abi reg T) := by
  induction T using MessageMembers.induction with
  | h T ih =>
    have hsub : ∀ S, T.HasMember S → BeginsPlain Value.wire (Encodes abi reg S) :=
      fun S hS => ih S hS (h.sub hS) (hfit.sub hS)
    by_cases hmark : reg.isMemcopyable T = true
    · exact beginsPlain_marked h hfit hmark hsub
    · intro v w hw
      obtain ⟨vs, rfl, hvs⟩ := (encodes_unmarked hmark).mp hw
      rw [Value.wire]
      exact beginsPlain_members (fun m hm => beginsPlain_member fun sub hsub' =>
        hsub sub ⟨m, hm, hsub'⟩) vs w hvs

/-! ## The length of an encoding -/

theorem length_each {fmt : Format Value UInt8} {k : ℕ} (h : ∀ v w, fmt v w → w.length = k)
    {vs : List Value} {w : List UInt8} (hw : fmt.each vs w) : w.length = vs.length * k := by
  induction vs generalizing w with
  | nil => rw [show w = [] from hw, List.length_nil, List.length_nil, Nat.zero_mul]
  | cons v vs ih =>
    obtain ⟨w₁, w₂, rfl, h₁, h₂⟩ := hw
    rw [List.length_append, h v w₁ h₁, ih h₂, List.length_cons, Nat.succ_mul, Nat.add_comm]

theorem length_member {m : MessageMember MessageMembers}
    (hshape : m.isArray = true → m.isStatic = true) (hkind : m.typeId.IsFixed)
    (hsub : ∀ sub, m.typeId = .message sub → ∀ v w, Encodes abi reg sub v w →
      w.length = wireSize reg sub)
    {v : Value} {w : List UInt8} (hw : EncodesMember abi reg m v w) :
    w.length = wireSizeMember reg m := by
  have helem : ∀ v w, elemFormat abi reg m.typeId v w → w.length = wireSizeElem reg m.typeId := by
    obtain ⟨s, p | _ | _ | _ | sub, off⟩ := m
    · exact fun v w hw => hw.2
    · exact hkind.elim
    · exact hkind.elim
    · exact hkind.elim
    · exact hsub sub rfl
  have hw := encodesMember_eq hw
  rw [memberFormat] at hw
  rw [wireSizeMember_eq, ArrayShape.count]
  split_ifs at hw ⊢ with h1 h2
  · obtain ⟨vs, -, hlen, hvs⟩ := hw
    rw [length_each helem hvs, hlen]
  · exact absurd (hshape h1) h2
  · exact absurd (hshape h1) h2
  · rw [helem v w hw, Nat.one_mul]

theorem length_members {ms : List (MessageMember MessageMembers)}
    (hm : ∀ m ∈ ms, ∀ v w, EncodesMember abi reg m v w → w.length = wireSizeMember reg m)
    {vs : List Value} {w : List UInt8} (hw : EncodesMembers abi reg ms vs w) :
    w.length = wireSizeMembers reg ms := by
  induction ms generalizing vs w with
  | nil => rw [hw.2, wireSizeMembers, List.length_nil]
  | cons m ms ih =>
    obtain ⟨v, vs, w₁, w₂, rfl, rfl, h₁, h₂⟩ := hw
    rw [List.length_append, wireSizeMembers, hm m (.head _) v w₁ h₁,
      ih (fun m' hm' => hm m' (.tail _ hm')) h₂]

/-- **Plain old data takes as many bytes as `wireSize` says.** -/
theorem length_of_encodes {T : MessageMembers} (hpod : Pod T) {v : Value} {w : List UInt8}
    (hw : Encodes abi reg T v w) : w.length = wireSize reg T := by
  induction T using MessageMembers.induction generalizing v w with
  | h T ih =>
    by_cases hmark : reg.isMemcopyable T = true
    · rw [wireSize_marked hmark]
      exact ((encodes_marked hmark).mp hw).1
    · obtain ⟨vs, -, hvs⟩ := (encodes_unmarked hmark).mp hw
      rw [wireSize_unmarked hmark]
      exact length_members (fun m hm v w => length_member (fun harr => hpod.shape hm harr)
        (hpod.kind hm) fun sub hsub v w => ih sub ⟨m, hm, hsub⟩ (hpod.sub ⟨m, hm, hsub⟩)) hvs

/-! ## Two encodings read from the left -/

/-- A byte that is not padding, in an encoding whose padding is all `2`. -/
def notPad (b : UInt8) : Bool := b != 2

theorem countP_notPad {w : List UInt8} (h : ∀ b ∈ w, b ≠ 2) : w.countP notPad = w.length :=
  List.countP_eq_length.mpr fun b hb => by simpa [notPad] using h b hb

/-- Where the first of two plain encodings in a row ends is visible, if all padding is `2`. -/
theorem split_eq {plain₁ plain₂ w₁ w₂ u₁ u₂ : List UInt8} (h : w₁ ++ w₂ = u₁ ++ u₂)
    (hw₁ : plain₁.Sublist w₁) (hw₂ : plain₂.Sublist w₂) (hu₁ : plain₁.Sublist u₁)
    (hu₂ : plain₂.Sublist u₂) (hwhead : w₂.head? = plain₂.head?)
    (huhead : u₂.head? = plain₂.head?) (havoid : ∀ b ∈ plain₁ ++ plain₂, b ≠ 2)
    (hcount : (w₁ ++ w₂).countP notPad = (plain₁ ++ plain₂).length) :
    w₁ = u₁ ∧ w₂ = u₂ ∧ w₁.countP notPad = plain₁.length ∧ w₂.countP notPad = plain₂.length := by
  have havoid₁ : ∀ b ∈ plain₁, b ≠ 2 := fun b hb => havoid b (List.mem_append_left _ hb)
  have havoid₂ : ∀ b ∈ plain₂, b ≠ 2 := fun b hb => havoid b (List.mem_append_right _ hb)
  have hcount' : (u₁ ++ u₂).countP notPad = (plain₁ ++ plain₂).length := h ▸ hcount
  have hle := fun {plain w : List UInt8} (hsub : plain.Sublist w) (hav : ∀ b ∈ plain, b ≠ 2) =>
    (countP_notPad hav).symm.trans_le (hsub.countP_le (p := notPad))
  have hw₁' := hle hw₁ havoid₁
  have hw₂' := hle hw₂ havoid₂
  have hu₁' := hle hu₁ havoid₁
  have hu₂' := hle hu₂ havoid₂
  rw [List.countP_append, List.length_append] at hcount hcount'
  -- what one side has more of in front is padding, and padding is not where the rest begins
  have hnil : ∀ (c x : List UInt8), c.countP notPad = 0 → (c ++ x).head? = plain₂.head? →
      c = [] := by
    intro c x hc hhead
    cases c with
    | nil => rfl
    | cons b c =>
      have hb : b ∈ plain₂ := List.mem_of_mem_head? (hhead ▸ rfl)
      have hpad : notPad b = true := by simpa [notPad] using havoid₂ b hb
      rw [List.countP_cons_of_pos hpad] at hc
      omega
  rcases List.append_eq_append_iff.mp h with ⟨c, hu, hw⟩ | ⟨c, hw, hu⟩
  · have hc : c.countP notPad = 0 := by
      rw [hu, List.countP_append] at hcount' hu₁'
      omega
    obtain rfl := hnil c u₂ hc (hw ▸ hwhead)
    rw [List.append_nil] at hu
    rw [List.nil_append] at hw
    exact ⟨hu.symm, hw, by omega, by omega⟩
  · have hc : c.countP notPad = 0 := by
      rw [hw, List.countP_append] at hcount hw₁'
      omega
    obtain rfl := hnil c w₂ hc (hu ▸ huhead)
    rw [List.append_nil] at hw
    rw [List.nil_append] at hu
    exact ⟨hw, hu.symm, by omega, by omega⟩

/-- Bytes that are an encoding of a value in two formats, with no more than the plain encoding and
padding that is all `2` in them. -/
structure Shared {ν : Type} (wire : ν → List UInt8) (fmt fmt' : Format ν UInt8) (v : ν)
    (w : List UInt8) : Prop where
  left : fmt v w
  right : fmt' v w
  avoids : ∀ b ∈ wire v, b ≠ 2
  count : w.countP notPad = (wire v).length

/-- Encodings in this format contain the plain one and begin with it. -/
structure PlainFirst {ν : Type} (wire : ν → List UInt8) (fmt : Format ν UInt8) : Prop where
  contains : ContainsPlain wire fmt
  begins : BeginsPlain wire fmt

theorem PlainFirst.each {fmt : Format Value UInt8} (h : PlainFirst Value.wire fmt) :
    PlainFirst Value.wireList fmt.each := ⟨h.contains.each, h.begins.each⟩

/-- Shared bytes for values in a row begin with shared bytes for the first one. -/
theorem Shared.head {fmt fmt' : Format Value UInt8} (h : PlainFirst Value.wire fmt)
    (h' : PlainFirst Value.wire fmt') {v : Value} {vs : List Value} {w : List UInt8}
    (hw : Shared Value.wireList fmt.each fmt'.each (v :: vs) w) :
    ∃ w₁, Shared Value.wire fmt fmt' v w₁ := by
  obtain ⟨⟨w₁, w₂, rfl, h₁, h₂⟩, ⟨u₁, u₂, heq, hu₁, hu₂⟩, havoid, hcount⟩ := hw
  rw [Value.wireList] at havoid hcount
  obtain ⟨hfirst, -, hcount₁, -⟩ := split_eq heq (h.contains v w₁ h₁)
    (h.each.contains vs w₂ h₂) (h'.contains v u₁ hu₁) (h'.each.contains vs u₂ hu₂)
    (h.each.begins vs w₂ h₂) (h'.each.begins vs u₂ hu₂) havoid hcount
  exact ⟨w₁, h₁, hfirst ▸ hu₁, fun b hb => havoid b (List.mem_append_left _ hb), hcount₁⟩

/-- The elements of an array, or the one there is. -/
def ArrayShape.elemsOf (s : ArrayShape) (v : Value) : List Value :=
  if s.isArray then v.elems else [v]

/-- Shared bytes for a member with messages contain shared bytes for one of the messages. -/
theorem Shared.member {s : ArrayShape} {fmt fmt' : Format Value UInt8} {elemSize : ℕ}
    (h : PlainFirst Value.wire fmt) (h' : PlainFirst Value.wire fmt') {v : Value}
    {w : List UInt8} (hne : s.elemsOf v ≠ [])
    (hw : Shared Value.wire (memberFormat s false fmt elemSize)
      (memberFormat s false fmt' elemSize) v w) :
    ∃ e ∈ s.elemsOf v, ∃ w₁, Shared Value.wire fmt fmt' e w₁ := by
  obtain ⟨hl, hr, havoid, hcount⟩ := hw
  rw [memberFormat] at hl hr
  rw [ArrayShape.elemsOf] at hne ⊢
  by_cases h1 : s.isArray = true
  · simp only [if_pos h1] at hl hr hne ⊢
    by_cases h2 : s.isStatic = true
    · rw [if_pos h2] at hl hr
      obtain ⟨vs, rfl, -, hvs⟩ := hl
      obtain ⟨vs', heq, -, hvs'⟩ := hr
      cases heq
      rw [Value.wire] at havoid hcount
      cases vs with
      | nil => exact absurd rfl hne
      | cons e es => exact ⟨e, .head _, Shared.head h h' ⟨hvs, hvs', havoid, hcount⟩⟩
    · rw [if_neg h2, if_neg (by decide)] at hl hr
      obtain ⟨vs, w, rfl, -, rfl, hvs⟩ := hl
      obtain ⟨vs', w', heq, -, hw', hvs'⟩ := hr
      cases heq
      obtain rfl := List.append_cancel_left hw'
      rw [Value.wire] at havoid hcount
      have havoid₁ : ∀ b ∈ sizeBytes vs.length, b ≠ 2 :=
        fun b hb => havoid b (List.mem_append_left _ hb)
      rw [List.countP_append, countP_notPad havoid₁, List.length_append] at hcount
      cases vs with
      | nil => exact absurd rfl hne
      | cons e es =>
        exact ⟨e, .head _, Shared.head h h' ⟨hvs, hvs',
          fun b hb => havoid b (List.mem_append_right _ hb), by omega⟩⟩
  · simp only [if_neg h1] at hl hr hne ⊢
    exact ⟨v, .head _, w, hl, hr, havoid, hcount⟩

/-- Shared bytes for members contain shared bytes for each of them. -/
theorem Shared.members {reg' : Registry} {ms : List (MessageMember MessageMembers)}
    (h : ∀ m ∈ ms, PlainFirst Value.wire (EncodesMember abi reg m))
    (h' : ∀ m ∈ ms, PlainFirst Value.wire (EncodesMember abi reg' m)) {vs : List Value}
    {w : List UInt8}
    (hw : Shared Value.wireList (EncodesMembers abi reg ms) (EncodesMembers abi reg' ms) vs w)
    {m : MessageMember MessageMembers} (hm : m ∈ ms) :
    ∃ v, (m, v) ∈ ms.zip vs ∧
      ∃ w₁, Shared Value.wire (EncodesMember abi reg m) (EncodesMember abi reg' m) v w₁ := by
  induction ms generalizing vs w with
  | nil => cases hm
  | cons m' ms ih =>
    obtain ⟨⟨v, vs, w₁, w₂, rfl, rfl, h₁, h₂⟩, ⟨v', vs', u₁, u₂, heq, hw', hu₁, hu₂⟩, havoid,
      hcount⟩ := hw
    cases heq
    rw [Value.wireList] at havoid hcount
    have hrest : ∀ m ∈ ms, m ∈ m' :: ms := fun m hm => .tail _ hm
    obtain ⟨hfirst, hsecond, hcount₁, hcount₂⟩ := split_eq hw' ((h m' (.head _)).contains v w₁ h₁)
      (containsPlain_members (fun m hm => (h m (hrest m hm)).contains) vs w₂ h₂)
      ((h' m' (.head _)).contains v u₁ hu₁)
      (containsPlain_members (fun m hm => (h' m (hrest m hm)).contains) vs u₂ hu₂)
      (beginsPlain_members (fun m hm => (h m (hrest m hm)).begins) vs w₂ h₂)
      (beginsPlain_members (fun m hm => (h' m (hrest m hm)).begins) vs u₂ hu₂) havoid hcount
    subst hfirst hsecond
    rcases List.mem_cons.mp hm with rfl | hm'
    · exact ⟨v, .head _, w₁, h₁, hu₁, fun b hb => havoid b (List.mem_append_left _ hb), hcount₁⟩
    · obtain ⟨v', hv', hshared⟩ := ih (fun m hm => h m (hrest m hm))
        (fun m hm => h' m (hrest m hm)) ⟨h₂, hu₂,
          fun b hb => havoid b (List.mem_append_right _ hb), hcount₂⟩ hm'
      exact ⟨v', .tail _ hv', hshared⟩

/-- There is a message of every type at every depth in the value. -/
inductive Exercises : MessageMembers → Value → Prop
  | mk {T : MessageMembers} {vs : List Value}
      (inhabited : ∀ m v, (m, v) ∈ T.members.zip vs → ∀ S, m.typeId = .message S →
        m.toArrayShape.elemsOf v ≠ [])
      (elems : ∀ m v, (m, v) ∈ T.members.zip vs → ∀ S, m.typeId = .message S →
        ∀ e ∈ m.toArrayShape.elemsOf v, Exercises S e) : Exercises T (.message vs)

theorem plainFirst_encodes {countedSize : Primitive → ℕ} {T : MessageMembers}
    (h : RosidlLayout abi T) (hreg : reg.MarksPod T) (hfit : reg.MarksFit countedSize T) :
    PlainFirst Value.wire (Encodes abi reg T) :=
  ⟨containsPlain_encodes h hreg, beginsPlain_encodes h hfit⟩

theorem plainFirst_member {countedSize : Primitive → ℕ} {T : MessageMembers}
    (h : RosidlLayout abi T) (hreg : reg.MarksPod T) (hfit : reg.MarksFit countedSize T)
    {m : MessageMember MessageMembers} (hm : m ∈ T.members) :
    PlainFirst Value.wire (EncodesMember abi reg m) :=
  have hsub := fun sub (hsub : m.typeId = .message sub) =>
    have hS : T.HasMember sub := ⟨m, hm, hsub⟩
    plainFirst_encodes (h.sub hS) (hreg.sub hS) (hfit.sub hS)
  ⟨containsPlain_member fun sub h => (hsub sub h).contains,
    beginsPlain_member fun sub h => (hsub sub h).begins⟩

/-- **Registries that share an encoding with visible padding agree on extents.** -/
theorem sameExtent_of_shared {countedSize : Primitive → ℕ} {sender receiver : Registry}
    {T : MessageMembers} (h : RosidlLayout abi T) (hspod : sender.MarksPod T)
    (hrpod : receiver.MarksPod T) (hsfit : sender.MarksFit countedSize T)
    (hrfit : receiver.MarksFit countedSize T) {v : Value} {w : List UInt8}
    (hw : Shared Value.wire (Encodes abi sender T) (Encodes abi receiver T) v w)
    (hv : Exercises T v) : SameExtent sender receiver T := by
  induction T using MessageMembers.induction generalizing v w with
  | h T ih =>
    by_cases hmark : sender.isMemcopyable T = true ∨ receiver.isMemcopyable T = true
    · have hpod : Pod T := hmark.elim (hspod T (.self T)) (hrpod T (.self T))
      exact .block hmark
        ((length_of_encodes hpod hw.left).symm.trans (length_of_encodes hpod hw.right))
    · rw [not_or] at hmark
      refine .members hmark.1 hmark.2 fun S hS => ?_
      obtain ⟨m, hm, hmS⟩ := hS
      have hmem : T.HasMember S := ⟨m, hm, hmS⟩
      obtain ⟨vs, rfl, hl⟩ := (encodes_unmarked hmark.1).mp hw.left
      obtain ⟨vs', heq, hr⟩ := (encodes_unmarked hmark.2).mp hw.right
      cases heq
      obtain ⟨-, -, havoid, hcount⟩ := hw
      rw [Value.wire] at havoid hcount
      obtain ⟨v, hzip, w₁, hshared⟩ := Shared.members
        (fun m hm => plainFirst_member h hspod hsfit hm)
        (fun m hm => plainFirst_member h hrpod hrfit hm) ⟨hl, hr, havoid, hcount⟩ hm
      cases hv with
      | mk hinhabited helems =>
        have hne := hinhabited m v hzip S hmS
        have hexercises := helems m v hzip S hmS
        obtain ⟨s, _ | _ | _ | _ | sub, off⟩ := m
        all_goals cases hmS
        obtain ⟨e, he, w₂, hshared⟩ := Shared.member
          (plainFirst_encodes (h.sub hmem) (hspod.sub hmem) (hsfit.sub hmem))
          (plainFirst_encodes (h.sub hmem) (hrpod.sub hmem) (hrfit.sub hmem)) hne
          ⟨hshared.left, hshared.right, hshared.avoids, hshared.count⟩
        exact ih S hmem (h.sub hmem) (hspod.sub hmem) (hrpod.sub hmem) (hsfit.sub hmem)
          (hrfit.sub hmem) hshared (hexercises e he)

end RmwEcal
