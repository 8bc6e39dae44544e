import RmwEcal.Dynamic.Transfer

/-!
# When an encoding is the plain one

An encoding differs from the plain encoding of the same value, `Value.wire`, by the padding of the
structs that were copied as a block.  It is therefore never shorter, and **it is the plain one
exactly if no such struct in the value has a gap** (`encodes_eq_wire_iff`).  The plain encoding
knows nothing of languages and registries, which makes it the one to compare them by.
-/

set_option autoImplicit false

namespace RmwEcal

open Codec

variable {abi : Abi} {reg : Registry}

mutual

/-- No struct in the value `v` of a message of type `T` that the registry has copied as a block has
a gap. -/
def GapFree (reg : Registry) : MessageMembers → Value → Prop
  | .mk name size ms, v =>
    if reg.isMemcopyable (.mk name size ms) then packedSize (.mk name size ms) = size
    else GapFreeMembers reg ms v.elems

/-- The same for the values of some members. -/
def GapFreeMembers (reg : Registry) : List (MessageMember MessageMembers) → List Value → Prop
  | m :: ms, v :: vs => GapFreeMember reg m v ∧ GapFreeMembers reg ms vs
  | _, _ => True

/-- The same for the value of a member: of the elements of an array, or of the one there is. -/
def GapFreeMember (reg : Registry) : MessageMember MessageMembers → Value → Prop
  | ⟨s, .message sub, _⟩, v =>
    if s.isArray then ∀ elem ∈ v.elems, GapFree reg sub elem else GapFree reg sub v
  | ⟨_, .primitive _, _⟩, _ | ⟨_, .string, _⟩, _ | ⟨_, .wstring, _⟩, _ | ⟨_, .wchar, _⟩, _ => True

end

/-- An encoding in this format is no shorter than the plain one, and is the plain one if the value
is `G`, which it must be if the lengths are the same. -/
def Pads {ν : Type} (wire : ν → List UInt8) (fmt : Format ν UInt8) (G : ν → Prop) : Prop :=
  ∀ v w, fmt v w → (wire v).length ≤ w.length ∧ (G v → w = wire v) ∧
    (w.length = (wire v).length → G v)

theorem Pads.eq_iff {ν : Type} {wire : ν → List UInt8} {fmt : Format ν UInt8} {G : ν → Prop}
    (h : Pads wire fmt G) {v : ν} {w : List UInt8} (hw : fmt v w) : w = wire v ↔ G v :=
  ⟨fun heq => (h v w hw).2.2 (congrArg List.length heq), (h v w hw).2.1⟩

theorem pads_of_eq {fmt : Format Value UInt8} {G : Value → Prop} (hG : ∀ v, G v)
    (h : ∀ v w, fmt v w → w = v.wire) : Pads Value.wire fmt G := by
  intro v w hw
  obtain rfl := h v w hw
  exact ⟨le_rfl, fun _ => rfl, fun _ => hG v⟩

theorem Pads.each {fmt : Format Value UInt8} {G : Value → Prop} (h : Pads Value.wire fmt G) :
    Pads Value.wireList fmt.each (∀ v ∈ ·, G v) := by
  intro vs
  induction vs with
  | nil =>
    rintro w rfl
    rw [Value.wireList]
    exact ⟨le_rfl, fun _ => rfl, fun _ _ hx => absurd hx List.not_mem_nil⟩
  | cons v vs ih =>
    rintro w ⟨w₁, w₂, rfl, h₁, h₂⟩
    obtain ⟨hle₁, heq₁, hgap₁⟩ := h v w₁ h₁
    obtain ⟨hle₂, heq₂, hgap₂⟩ := ih w₂ h₂
    rw [Value.wireList, List.length_append, List.length_append]
    refine ⟨by omega, fun hG => ?_, fun hlen => ?_⟩
    · rw [heq₁ (hG v (.head _)), heq₂ fun x hx => hG x (.tail _ hx)]
    · have hv := hgap₁ (by omega)
      have hvs := hgap₂ (by omega)
      exact List.forall_mem_cons.mpr ⟨hv, hvs⟩

/-- A member with messages in it differs from the plain encoding by the padding in those. -/
theorem pads_member {s : ArrayShape} {fmt : Format Value UInt8} {elemSize : ℕ} {G : Value → Prop}
    (h : Pads Value.wire fmt G) : Pads Value.wire (memberFormat s false fmt elemSize)
      fun v => if s.isArray then ∀ elem ∈ v.elems, G elem else G v := by
  intro v w hw
  rw [memberFormat] at hw
  by_cases h1 : s.isArray = true
  · rw [if_pos h1] at hw
    simp only [if_pos h1]
    split_ifs at hw with h2 h3
    · obtain ⟨vs, rfl, -, hvs⟩ := hw
      rw [Value.wire]
      exact h.each vs w hvs
    · exact h3.elim
    · obtain ⟨vs, w, rfl, -, rfl, hvs⟩ := hw
      obtain ⟨hle, heq, hgap⟩ := h.each vs w hvs
      rw [Value.wire, List.length_append, List.length_append]
      exact ⟨by omega, fun hG => by rw [heq hG], fun hlen => hgap (by omega)⟩
  · rw [if_neg h1] at hw
    simp only [if_neg h1]
    exact h v w hw

/-- A member without messages in it is encoded plainly. -/
theorem memberFormat_plain {s : ArrayShape} {isBoolean : Bool} {fmt : Format Value UInt8}
    {elemSize : ℕ} (h : ∀ v w, fmt v w → w = v.wire) {v : Value} {w : List UInt8}
    (hw : memberFormat s isBoolean fmt elemSize v w) : w = v.wire := by
  have heach := (pads_of_eq (G := fun _ => True) (fun _ => trivial) h).each
  rw [memberFormat] at hw
  split_ifs at hw with h1 h2 h3
  · obtain ⟨vs, rfl, -, hvs⟩ := hw
    rw [Value.wire]
    exact (heach vs w hvs).2.1 fun _ _ => trivial
  · obtain ⟨bits, rfl, -, rfl⟩ := hw
    rw [Value.wire]
  · obtain ⟨vs, w, rfl, -, rfl, hvs⟩ := hw
    rw [Value.wire, (heach vs w hvs).2.1 fun _ _ => trivial]
  · exact h v w hw

/-- A number is encoded plainly. -/
theorem primitiveFormat_plain (p : Primitive) {v : Value} {w : List UInt8}
    (hw : primitiveFormat p v w) : w = v.wire := by
  obtain ⟨rfl, -⟩ := hw
  rw [Value.wire]

/-- So is a string. -/
theorem stringFormat_plain {v : Value} {w : List UInt8} (hw : stringFormat v w) : w = v.wire := by
  obtain ⟨chars, rfl, -, rfl⟩ := hw
  rw [Value.wire]

theorem pads_members {ms : List (MessageMember MessageMembers)}
    (hsub : ∀ m ∈ ms, ∀ sub, m.typeId = .message sub →
      Pads Value.wire (Encodes abi reg sub) (GapFree reg sub)) :
    Pads Value.wireList (EncodesMembers abi reg ms) (GapFreeMembers reg ms) := by
  induction ms with
  | nil =>
    rintro vs w ⟨rfl, rfl⟩
    rw [Value.wireList, GapFreeMembers]
    · exact ⟨le_rfl, fun _ => rfl, fun _ => trivial⟩
    · rintro m ms v vs ⟨⟩
  | cons m ms ih =>
    have hm : Pads Value.wire (EncodesMember abi reg m) (GapFreeMember reg m) := by
      obtain ⟨s, p | _ | _ | _ | sub, off⟩ := m
      · exact pads_of_eq (fun _ => by rw [GapFreeMember]; trivial) fun _ _ =>
          memberFormat_plain fun _ _ => primitiveFormat_plain p
      · exact pads_of_eq (fun _ => by rw [GapFreeMember]; trivial) fun _ _ =>
          memberFormat_plain fun _ _ => stringFormat_plain
      · exact fun _ _ hw => (show False from hw).elim
      · exact fun _ _ hw => (show False from hw).elim
      · intro v w hw
        rw [GapFreeMember]
        exact pads_member (hsub _ (.head _) sub rfl) v w hw
    rintro vs w ⟨v, vs, w₁, w₂, rfl, rfl, h₁, h₂⟩
    obtain ⟨hle₁, heq₁, hgap₁⟩ := hm v w₁ h₁
    obtain ⟨hle₂, heq₂, hgap₂⟩ := ih (fun m' hm' => hsub m' (.tail _ hm')) vs w₂ h₂
    rw [Value.wireList, GapFreeMembers, List.length_append, List.length_append]
    exact ⟨by omega, fun hG => by rw [heq₁ hG.1, heq₂ hG.2],
      fun hlen => ⟨hgap₁ (by omega), hgap₂ (by omega)⟩⟩

theorem gapFree_unmarked {T : MessageMembers} (h : ¬reg.isMemcopyable T = true) (v : Value) :
    GapFree reg T v ↔ GapFreeMembers reg T.members v.elems := by
  obtain ⟨name, size, ms⟩ := T
  rw [GapFree, if_neg h]
  rfl

theorem gapFree_marked {T : MessageMembers} (h : reg.isMemcopyable T = true) (v : Value) :
    GapFree reg T v ↔ packedSize T = T.sizeOf := by
  obtain ⟨name, size, ms⟩ := T
  rw [GapFree, if_pos h]
  rfl

theorem pads_unmarked {T : MessageMembers} (h : ¬reg.isMemcopyable T = true)
    (hsub : ∀ sub, T.HasMember sub → Pads Value.wire (Encodes abi reg sub) (GapFree reg sub)) :
    Pads Value.wire (Encodes abi reg T) (GapFree reg T) := by
  intro v w hw
  obtain ⟨vs, rfl, hvs⟩ := (encodes_unmarked h).mp hw
  rw [gapFree_unmarked h, Value.wire]
  exact pads_members (fun m hm sub hm' => hsub sub ⟨m, hm, hm'⟩) vs w hvs

theorem Registry.marksPacked_empty (T : MessageMembers) : Registry.MarksPacked .empty T :=
  fun S _ hmark => absurd hmark (not_isMemcopyable_empty S)

/-- If all that is marked is packed, no value has a gap. -/
theorem gapFree_of_packed {T : MessageMembers} (h : reg.MarksPacked T) (v : Value) :
    GapFree reg T v := by
  induction T using MessageMembers.induction generalizing v with
  | h T ih =>
    by_cases hmark : reg.isMemcopyable T = true
    · exact (gapFree_marked hmark v).mpr (h T (.self T) hmark)
    · rw [gapFree_unmarked hmark]
      have hmembers : ∀ ms : List (MessageMember MessageMembers), (∀ m ∈ ms, m ∈ T.members) →
          ∀ vs, GapFreeMembers reg ms vs := by
        intro ms
        induction ms with
        | nil => exact fun _ vs => by rw [GapFreeMembers]; trivial; nofun
        | cons m ms ihms =>
          intro hms vs
          cases vs with
          | nil => rw [GapFreeMembers]; trivial; nofun
          | cons v vs =>
            refine ⟨?_, ihms (fun m' hm' => hms m' (.tail _ hm')) vs⟩
            obtain ⟨s, p | _ | _ | _ | sub, off⟩ := m
            · rw [GapFreeMember]; trivial
            · rw [GapFreeMember]; trivial
            · rw [GapFreeMember]; trivial
            · rw [GapFreeMember]; trivial
            · have hsub : T.HasMember sub := ⟨_, hms _ (.head _), rfl⟩
              rw [GapFreeMember]
              split_ifs
              · exact fun elem _ => ih sub hsub (h.sub hsub) elem
              · exact ih sub hsub (h.sub hsub) v
      exact hmembers T.members (fun _ hm => hm) v.elems

/-- A process that marks nothing encodes plainly. -/
theorem encodes_empty {T : MessageMembers} {v : Value} {w : List UInt8}
    (hw : Encodes abi .empty T v w) : w = v.wire := by
  have h : Pads Value.wire (Encodes abi .empty T) (GapFree .empty T) := by
    clear hw
    induction T using MessageMembers.induction with
    | h T ih => exact pads_unmarked (not_isMemcopyable_empty T) ih
  exact (h v w hw).2.1 (gapFree_of_packed (Registry.marksPacked_empty T) v)

/-- **An encoding has the padding of the copied structs and nothing else over the plain one.** -/
theorem pads_encodes {T : MessageMembers} (h : RosidlLayout abi T) (hreg : reg.MarksPod T) :
    Pads Value.wire (Encodes abi reg T) (GapFree reg T) := by
  induction T using MessageMembers.induction with
  | h T ih =>
    by_cases hmark : reg.isMemcopyable T = true
    · intro v w hw
      have hpod := hreg T (.self T) hmark
      obtain ⟨hlen, hv⟩ := (encodes_marked hmark).mp hw
      have hplain := length_wire_of_pod hpod hv
      have hle : packedSize T ≤ T.sizeOf := wireSize_le hpod h
      rw [gapFree_marked hmark]
      refine ⟨by omega, fun hfull => ?_, fun hlen' => by omega⟩
      exact encodes_empty ((encodes_full hpod h hfull).mpr ⟨hlen, hv⟩)
    · exact pads_unmarked hmark fun sub hsub => ih sub hsub (h.sub hsub) (hreg.sub hsub)

/-- **An encoding is the plain one exactly if no copied struct has a gap.** -/
theorem encodes_eq_wire_iff {T : MessageMembers} (h : RosidlLayout abi T)
    (hreg : reg.MarksPod T) {v : Value} {w : List UInt8} (hw : Encodes abi reg T v w) :
    w = v.wire ↔ GapFree reg T v := (pads_encodes h hreg).eq_iff hw

end RmwEcal
