import RmwEcal.Dynamic.Bounds
import RmwEcal.Dynamic.Refusal

/-!
# Both languages on one topic

rosidl describes an interface once for each language, and a topic may have endpoints of both.  The
two descriptions have offsets and sizes of their own, so the structs differ; what has to be the same
is the bytes between them.

They are, wherever `AnalyzeType` marks nothing but packed structs: then whatever a process has
analysed before, what it sends for a value is the plain encoding of that value
(`Plain.serialize_eq`), and it reads the plain encoding of every value that its language can hold at
all (`Plain.deserialize_wire`).  So which language is at which end makes no difference
(`cross_language_round_trip`).

C++ is plain without further conditions.  C is where no member at any depth is a `char`, the one
kind whose size its `AnalyzeType` gets wrong (`plain_of_charFree`).
-/

set_option autoImplicit false

namespace RmwEcal

open Codec Value

/-! ## Plain types -/

/-- In a language, registries mark nothing but packed structs inside this type, whatever types with
names of their own a program has and whichever of them it has analysed. -/
def Language.Plain (l : Language) (T : MessageMembers) : Prop :=
  ∀ all calls : List MessageMembers, DistinctNames all → calls ⊆ all → T ∈ all →
    (registryAfter l.countedSize calls).MarksPacked T

/-- The type is counted with the sizes that its numbers have, at every depth. -/
def CountsRight (countedSize : Primitive → ℕ) (T : MessageMembers) : Prop :=
  ∀ S, T.Contains S → ∀ m ∈ S.members, ∀ p, m.typeId = .primitive p → countedSize p = p.sizeof

/-- No member at any depth is a `char`. -/
def CharFree (T : MessageMembers) : Prop :=
  ∀ S, T.Contains S → ∀ m ∈ S.members, m.typeId ≠ .primitive .char

theorem CharFree.countsRight {T : MessageMembers} (h : CharFree T) :
    CountsRight cCountedSize T := by
  intro S hS m hm p hp
  cases p with
  | char => exact absurd hp (h S hS m hm)
  | _ => rfl

theorem countsRight_cpp (T : MessageMembers) : CountsRight cppCountedSize T :=
  fun _ _ _ _ _ _ => rfl

/-- Members counted with their sizes fit as they do in C++. -/
theorem MembersFit.cpp {countedSize : Primitive → ℕ} {reg : Registry}
    {ms : List (MessageMember MessageMembers)} {a size : ℕ}
    (h : MembersFit countedSize reg ms a size)
    (hright : ∀ m ∈ ms, ∀ p, m.typeId = .primitive p → countedSize p = p.sizeof) :
    MembersFit cppCountedSize reg ms a size := by
  induction ms generalizing a with
  | nil => exact h
  | cons m ms ih =>
    have hrest : ∀ m' ∈ ms, ∀ p, m'.typeId = .primitive p → countedSize p = p.sizeof :=
      fun m' hm' => hright m' (.tail _ hm')
    obtain ⟨s, p | _ | _ | _ | sub, off⟩ := m
    · have hp : countedSize p = cppCountedSize p := hright _ (.head _) p rfl
      refine ⟨h.1, ?_⟩
      show MembersFit cppCountedSize reg ms (a + cppCountedSize p) size
      rw [← hp]
      exact ih h.2 hrest
    · exact (show False from h.2).elim
    · exact (show False from h.2).elim
    · exact (show False from h.2).elim
    · exact ⟨h.1, h.2.1, ih h.2.2 hrest⟩

/-- **A marked type that is counted with the right sizes is packed.** -/
theorem packed_of_countsRight {abi : Abi} {countedSize : Primitive → ℕ} {reg : Registry}
    {types : MessageMembers → Prop} (hreg : reg.Sound countedSize types)
    (hclosed : ∀ T S, types T → T.HasMember S → types S) {T : MessageMembers} (hT : types T)
    (h : RosidlLayout abi T) (hright : CountsRight countedSize T)
    (hmark : reg.isMemcopyable T = true) : packedSize T = T.sizeOf := by
  induction T using MessageMembers.induction with
  | h T ih =>
    have hfit := (hreg T hT hmark).cpp (hright T (.self T))
    have hmembers := membersFit_packed hfit h.inOrder fun m hm S hS =>
      ih S ⟨m, hm, hS⟩ (hclosed T S hT ⟨m, hm, hS⟩) (h.sub ⟨m, hm, hS⟩)
        (fun R hR => hright R (.member ⟨m, hm, hS⟩ hR)) ((hfit.mem hm).2.2 S hS)
    rw [packedSize_eq]
    omega

theorem CountsRight.contains {countedSize : Primitive → ℕ} {T S : MessageMembers}
    (h : CountsRight countedSize T) (hS : T.Contains S) : CountsRight countedSize S := by
  induction hS with
  | self T => exact h
  | member hm _ ih => exact ih fun R hR => h R (.member hm hR)

theorem plain_of_countsRight {l : Language} {T : MessageMembers} (h : RosidlLayout l.abi T)
    (hright : CountsRight l.countedSize T) : l.Plain T := by
  intro all calls hall hcalls hT S hS
  exact packed_of_countsRight (registryAfter_sound l.countedSize hall hcalls)
    (fun _ _ => Mentioned.member) ⟨T, hT, hS⟩ (h.contains hS) (hright.contains hS)

/-- C++ is always plain. -/
theorem plain_cpp {T : MessageMembers} (h : RosidlLayout cppAbi T) : Language.cpp.Plain T :=
  plain_of_countsRight h (countsRight_cpp T)

/-- **C is plain where there is no `char`.** -/
theorem plain_of_charFree {T : MessageMembers} (h : RosidlLayout cAbi T) (hfree : CharFree T) :
    Language.c.Plain T :=
  plain_of_countsRight h hfree.countsRight

/-! ## What plain types are on the wire -/

section Wire

variable {l : Language} {T : MessageMembers} {M : Platform} {all calls : List MessageMembers}
  {v : Value}

/-- A language can hold a value as a message of this type. -/
def Language.Holds (l : Language) (T : MessageMembers) (v : Value) : Prop :=
  ∃ data, contentMessage l.abi T data = some v

/-- What is needed to speak of a type in a program: rosidl has laid it out, its kinds are supported,
and the types of the program, it among them, have names of their own. -/
structure Language.Known (l : Language) (T : MessageMembers) (all : List MessageMembers) :
    Prop where
  layout : RosidlLayout l.abi T
  supported : Supported T
  names : DistinctNames all
  mem : T ∈ all

/-- An encoding of a value of a plain type is the plain one. -/
theorem Language.Plain.eq_wire (hplain : l.Plain T) (h : l.Known T all) (hcalls : calls ⊆ all)
    {w : List UInt8} (hw : Encodes l.abi (registryAfter l.countedSize calls) T v w) :
    w = v.wire :=
  (encodes_eq_wire_iff h.layout (registryAfter_marksPod h.names hcalls h.mem) hw).mpr
    (gapFree_of_packed (hplain all calls h.names hcalls h.mem) v)

/-- **A plain type is sent in the plain encoding**, whatever the process has analysed. -/
theorem Language.Plain.serialize_eq (hplain : l.Plain T) (h : l.Known T all)
    (hcalls : calls ⊆ all) {data : List Cell} (hv : contentMessage l.abi T data = some v) :
    l.serialize M (registryAfter l.countedSize calls) T data = .ok v.wire := by
  rw [Language.serialize_eq h.layout hv, hplain.eq_wire h hcalls
    (encodes_wireImage h.layout (registryAfter_marksPod h.names hcalls h.mem) hv)]

/-- The plain encoding of a value that the language can hold encodes it. -/
theorem Language.Plain.encodes_wire (hplain : l.Plain T) (h : l.Known T all) (hcalls : calls ⊆ all)
    (hv : l.Holds T v) : Encodes l.abi (registryAfter l.countedSize calls) T v v.wire := by
  obtain ⟨data, hv⟩ := hv
  have hpod : (registryAfter l.countedSize calls).MarksPod T :=
    registryAfter_marksPod h.names hcalls h.mem
  have hw := encodes_wireImage (M := .generous) h.layout hpod hv
  rwa [hplain.eq_wire h hcalls hw] at hw

/-- **The plain encoding of a value that the language can hold is read as this value**, to its end,
whatever the process has analysed. -/
theorem Language.Plain.deserialize_wire (hM : M.Ample) (hplain : l.Plain T) (h : l.Known T all)
    (hcalls : calls ⊆ all) (hv : l.Holds T v) {fresh : List Cell} (hfresh : l.Fresh T fresh)
    (rest : List UInt8) :
    ∃ message', l.deserialize M (registryAfter l.countedSize calls) T fresh (v.wire ++ rest) =
        .ok (message', rest) ∧ contentMessage l.abi T message' = some v := by
  have hpod : (registryAfter l.countedSize calls).MarksPod T :=
    registryAfter_marksPod h.names hcalls h.mem
  have hw := hplain.encodes_wire h hcalls hv
  cases l with
  | cpp =>
    obtain ⟨blank, hread, hblank⟩ := hfresh
    have hkeep := overlay_of_blank true hblank v
    obtain ⟨message', hrun, hread'⟩ := CppDeserializer.deserialize_encoded hM h.layout h.supported
      hpod hw hread (settled_of_blank h.layout h.supported hread hblank v)
      (by rw [hkeep]; exact hw.storable hpod) rest
    exact ⟨message', hrun, hkeep ▸ hread'⟩
  | c => exact CDeserializer.deserialize_encoded hM h.layout hpod hw hfresh rest

end Wire

/-! ## Any language to any language -/

/-- **A message survives the trip between processes of any two languages** in which its type is
plain, whatever the processes have analysed before: the receiver reads exactly the bytes that were
sent, and the value that was sent, if its language can hold it. -/
theorem cross_language_round_trip {ls lr : Language} {Ms Mr : Platform} (hMr : Mr.Ample)
    {Ts Tr : MessageMembers} {alls allr callss callsr : List MessageMembers}
    (hs : ls.Known Ts alls) (hr : lr.Known Tr allr) (hplains : ls.Plain Ts)
    (hplainr : lr.Plain Tr) (hcallss : callss ⊆ alls) (hcallsr : callsr ⊆ allr)
    {message fresh : List Cell} {v : Value} (hv : contentMessage ls.abi Ts message = some v)
    (hholds : lr.Holds Tr v) (hfresh : lr.Fresh Tr fresh) :
    ∃ w, ls.serialize Ms (registryAfter ls.countedSize callss) Ts message = .ok w ∧
      ∀ rest, ∃ message',
        lr.deserialize Mr (registryAfter lr.countedSize callsr) Tr fresh (w ++ rest) =
          .ok (message', rest) ∧
        contentMessage lr.abi Tr message' = some v :=
  ⟨v.wire, hplains.serialize_eq hs hcallss hv,
    fun rest => hplainr.deserialize_wire hMr hr hcallsr hholds hfresh rest⟩

/-- The C description of `cppPlace`. -/
def cPlace : MessageMembers := .mk 2 32 [⟨.single, .string, 0⟩, ⟨.single, .message point, 24⟩]

theorem layout_cPlace : RosidlLayout cAbi cPlace :=
  .mk (by decide) (by decide) (by decide)
    (by simpa [MessageMembers.HasMember, cPlace] using layout_point)

theorem supported_cPlace : Supported cPlace :=
  .mk (by simp [cPlace]) (by simpa [MessageMembers.HasMember, cPlace] using supported_point)

theorem charFree_point : CharFree point := by
  intro S hS
  cases hS with
  | self => simp [point]
  | member hm _ => simp [MessageMembers.HasMember, point] at hm

theorem charFree_cPlace : CharFree cPlace := by
  intro S hS
  cases hS with
  | self => simp [cPlace]
  | @member _ R _ hm hS =>
    obtain rfl : point = R := by simpa [MessageMembers.HasMember, cPlace] using hm
    exact charFree_point S hS

theorem known_cppPlace : Language.cpp.Known cppPlace [point, cppPlace] :=
  ⟨layout_cppPlace, supported_cppPlace, peers_cppPlace.sender_names, by simp⟩

theorem known_cPlace : Language.c.Known cPlace [point, cPlace] :=
  ⟨layout_cPlace, supported_cPlace, distinctNames_of_types [point, cPlace]
    (by simp [MessageMembers.HasMember, point, cPlace]) (by simp [point, cPlace]) (by simp),
    by simp⟩

/-- The message `("A", 1.0, 2.0)` in C. -/
def placeC : List Cell :=
  object 24 (.sequence [.byte 65, .byte 0] 1 2) ++ [0, 0, 128, 63, 0, 0, 0, 64].map .byte

/-- A C process that has not come across points reads what a C++ process sends that has. -/
theorem cross_language_round_trip_place :
    ∃ w, Language.cpp.serialize .generous (registryAfter cppCountedSize [point, cppPlace]) cppPlace
        placeA = .ok w ∧
      ∀ rest, ∃ message',
        Language.c.deserialize .generous (registryAfter cCountedSize [cPlace]) cPlace
          (zeros 32) (w ++ rest) = .ok (message', rest) ∧
        contentMessage cAbi cPlace message' = some (.message [.string [65],
          .message [.primitive [0, 0, 128, 63], .primitive [0, 0, 0, 64]]]) :=
  cross_language_round_trip Platform.generous_ample known_cppPlace known_cPlace
    (plain_cpp layout_cppPlace) (plain_of_charFree layout_cPlace charFree_cPlace) (by simp)
    (by simp) rfl ⟨placeC, rfl⟩ (show cPlace.sizeOf ≤ (zeros 32).length by decide)

end RmwEcal
