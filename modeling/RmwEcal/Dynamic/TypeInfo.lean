import Mathlib.Data.Finset.Basic
import RmwEcal.Dynamic.Content

/-!
# Which types may be copied as a block

`TypeInfo` keeps, for every translation unit that includes it, a set of types it has analysed and a
set of types whose structs may be `memcpy`ed to and from the wire.  `analyzeType` is both overloads
of `AnalyzeType`: they are the same code but for one line, the size a `char` member is counted
with, so the table of sizes is a parameter (`cppCountedSize` and `cCountedSize`).

A registry remembers what earlier calls put into it, for any types at all, and a call on a type
with a string member returns before the member types behind the string have been looked at.  What
can still be said of every registry a program can get into is `registryAfter_sound`: a type that is
marked has the struct that `AnalyzeType` checks for, and so do the types of its message members.
From that and a rosidl layout follows what the fast path needs:

* a marked type is *plain old data*, `Pod`: no string and no sequence at any depth;
* in C++ it is also *packed*: its numbers fill the struct without a gap (`cpp_packed`).

In C the second is not true, see `cCountedSize`.
-/

set_option autoImplicit false

namespace RmwEcal

/-- The static sets `analyzed_types_` and `memcopyable_types_` of one translation unit. -/
@[ext]
structure Registry where
  analyzedTypes : Finset ℕ
  memcopyableTypes : Finset ℕ

namespace Registry

/-- The sets before the first call. -/
def empty : Registry := ⟨∅, ∅⟩

/-- `SetAnalyzed`. -/
def setAnalyzed (reg : Registry) (name : ℕ) : Registry :=
  { reg with analyzedTypes := insert name reg.analyzedTypes }

/-- `AlreadyAnalyzed`. -/
def alreadyAnalyzed (reg : Registry) (name : ℕ) : Bool := decide (name ∈ reg.analyzedTypes)

/-- `SetMemcopyable`. -/
def setMemcopyable (reg : Registry) (name : ℕ) : Registry :=
  { reg with memcopyableTypes := insert name reg.memcopyableTypes }

/-- `IsMemcopyable`. -/
def isMemcopyable (reg : Registry) (T : MessageMembers) : Bool :=
  decide (T.messageName ∈ reg.memcopyableTypes)

/-- `reg'` marks every type that `reg` marks. -/
def MarksMore (reg reg' : Registry) : Prop := reg.memcopyableTypes ⊆ reg'.memcopyableTypes

theorem MarksMore.rfl {reg : Registry} : reg.MarksMore reg := Finset.Subset.refl _

theorem MarksMore.trans {a b c : Registry} (h : a.MarksMore b) (h' : b.MarksMore c) :
    a.MarksMore c := Finset.Subset.trans h h'

theorem marksMore_setAnalyzed (reg : Registry) (name : ℕ) :
    reg.MarksMore (reg.setAnalyzed name) := Finset.Subset.refl _

theorem MarksMore.isMemcopyable {reg reg' : Registry} (h : reg.MarksMore reg')
    {T : MessageMembers} (hT : reg.isMemcopyable T = true) : reg'.isMemcopyable T = true :=
  decide_eq_true (h (of_decide_eq_true hT))

end Registry

/-! ## `AnalyzeType` -/

/-- The sizes the C++ overload counts: `sizeof` of the field type. -/
def cppCountedSize : Primitive → ℕ := Primitive.sizeof

/-- The sizes the C overload counts.  The label of `ROS_TYPE_CHAR` falls through to that of
`ROS_TYPE_FLOAT`, so a `char` is counted with the size of a `float`. -/
def cCountedSize : Primitive → ℕ
  | .char => Primitive.float.sizeof
  | p => p.sizeof

/-- The tests made on a member before its type is looked at: nothing may be skipped before it, and
an array has to be a static one. -/
def memberFits (m : MessageMember MessageMembers) (actualDataSize : ℕ) : Bool :=
  m.offset == actualDataSize && (!m.isArray || m.isStatic)

mutual

/-- `AnalyzeType`.  The sets keep what was put into them when it throws. -/
def analyzeType (countedSize : Primitive → ℕ) :
    MessageMembers → Registry → Except Fault Unit × Registry
  | .mk name size ms, reg =>
    if reg.alreadyAnalyzed name then (.ok (), reg)
    else analyzeMembers countedSize ms name size true 0 reg

/-- The loop over the members, and what follows it. -/
def analyzeMembers (countedSize : Primitive → ℕ) :
    List (MessageMember MessageMembers) → (name structSize : ℕ) → (memcpyable : Bool) →
      (actualDataSize : ℕ) → Registry → Except Fault Unit × Registry
  | [], name, structSize, memcpyable, actualDataSize, reg =>
    let reg := reg.setAnalyzed name
    if actualDataSize == structSize && memcpyable then (.ok (), reg.setMemcopyable name)
    else (.ok (), reg)
  | m :: ms, name, structSize, memcpyable, actualDataSize, reg =>
    let memcpyable := memcpyable && memberFits m actualDataSize
    match m with
    -- the early return: neither set learns anything about this type
    | ⟨_, .string, _⟩ => (.ok (), reg)
    | ⟨_, .primitive p, _⟩ =>
      analyzeMembers countedSize ms name structSize memcpyable (actualDataSize + countedSize p) reg
    | ⟨_, .message sub, _⟩ =>
      match analyzeType countedSize sub reg with
      | (.error e, reg) => (.error e, reg)
      | (.ok (), reg) =>
        if reg.isMemcopyable sub then
          analyzeMembers countedSize ms name structSize memcpyable (actualDataSize + sub.sizeOf) reg
        else analyzeMembers countedSize ms name structSize false actualDataSize reg
    | ⟨_, .wstring, _⟩ | ⟨_, .wchar, _⟩ =>
      (.error (.logicError "Wide character/string serialization is unsupported."), reg)

end

/-- The registry a program is left with after these calls of `AnalyzeType`, whichever of them
threw. -/
def registryAfter (countedSize : Primitive → ℕ) (calls : List MessageMembers) : Registry :=
  calls.foldl (fun reg T => (analyzeType countedSize T reg).2) .empty

/-! ## The types of a program -/

/-- `S` is `T` or the type of a member at some depth of `T`. -/
inductive MessageMembers.Contains : MessageMembers → MessageMembers → Prop
  | self (T : MessageMembers) : Contains T T
  | member {T S R : MessageMembers} (h : T.HasMember S) (h' : Contains S R) : Contains T R

/-- The types that the calls are about, at any depth, can be told apart by their
`message_name_`. -/
def DistinctNames (calls : List MessageMembers) : Prop :=
  ∀ A ∈ calls, ∀ B ∈ calls, ∀ S T, A.Contains S → B.Contains T →
    S.messageName = T.messageName → S = T

theorem MessageMembers.Contains.mem {types : List MessageMembers}
    (hclosed : ∀ S ∈ types, ∀ R, S.HasMember R → R ∈ types) {T S : MessageMembers}
    (h : T.Contains S) (hT : T ∈ types) : S ∈ types := by
  induction h with
  | self T => exact hT
  | member hm _ ih => exact ih (hclosed _ hT _ hm)

/-- Types with names of their own, and with them the types of their members. -/
theorem distinctNames_of_types (types : List MessageMembers) {calls : List MessageMembers}
    (hclosed : ∀ S ∈ types, ∀ R, S.HasMember R → R ∈ types)
    (hnames : ∀ S ∈ types, ∀ R ∈ types, S.messageName = R.messageName → S = R)
    (h : ∀ T ∈ calls, T ∈ types) : DistinctNames calls :=
  fun A hA B hB S R hS hR => hnames S (hS.mem hclosed (h A hA)) R (hR.mem hclosed (h B hB))

/-! ## What the marks mean -/

/-- The member loop of `AnalyzeType` gets from `actualDataSize` to the end of the struct with
`memcpyable` set. -/
def MembersFit (countedSize : Primitive → ℕ) (reg : Registry) :
    List (MessageMember MessageMembers) → (actualDataSize structSize : ℕ) → Prop
  | [], actualDataSize, structSize => actualDataSize = structSize
  | m :: ms, actualDataSize, structSize =>
    memberFits m actualDataSize = true ∧
      match m.typeId with
      | .primitive p => MembersFit countedSize reg ms (actualDataSize + countedSize p) structSize
      | .message sub => reg.isMemcopyable sub = true ∧
          MembersFit countedSize reg ms (actualDataSize + sub.sizeOf) structSize
      | .string | .wstring | .wchar => False

theorem MembersFit.mono {countedSize : Primitive → ℕ} {reg reg' : Registry}
    (hreg : reg.MarksMore reg') {ms : List (MessageMember MessageMembers)} {a size : ℕ}
    (h : MembersFit countedSize reg ms a size) : MembersFit countedSize reg' ms a size := by
  induction ms generalizing a with
  | nil => exact h
  | cons m ms ih =>
    obtain ⟨s, _ | _ | _ | _ | sub, off⟩ := m
    · exact ⟨h.1, ih h.2⟩
    · exact (show False from h.2).elim
    · exact (show False from h.2).elim
    · exact (show False from h.2).elim
    · exact ⟨h.1, hreg.isMemcopyable h.2.1, ih h.2.2⟩

/-- A marked type passes the checks of `AnalyzeType`, for a program with these types. -/
def Registry.Sound (reg : Registry) (countedSize : Primitive → ℕ) (types : MessageMembers → Prop) :
    Prop :=
  ∀ T, types T → reg.isMemcopyable T = true → MembersFit countedSize reg T.members 0 T.sizeOf

section Soundness

variable {countedSize : Primitive → ℕ} {types : MessageMembers → Prop}

theorem Registry.Sound.setAnalyzed {reg : Registry} (h : reg.Sound countedSize types)
    (name : ℕ) : (reg.setAnalyzed name).Sound countedSize types :=
  fun T hT hmark => (h T hT hmark).mono (reg.marksMore_setAnalyzed name)

theorem Registry.Sound.setMemcopyable {reg : Registry} (h : reg.Sound countedSize types)
    {T : MessageMembers} (hdistinct : ∀ S, types S → S.messageName = T.messageName → S = T)
    (hT : MembersFit countedSize (reg.setMemcopyable T.messageName) T.members 0 T.sizeOf) :
    (reg.setMemcopyable T.messageName).Sound countedSize types := by
  intro S hS hmark
  have hmem : S.messageName ∈ insert T.messageName reg.memcopyableTypes := of_decide_eq_true hmark
  rcases Finset.mem_insert.mp hmem with heq | hold
  · rw [hdistinct S hS heq]
    exact hT
  · exact (h S hS (decide_eq_true hold)).mono (Finset.subset_insert _ _)

/-- The loop keeps a sound registry sound.  `hfit` is the loop invariant: if `memcpyable` is still
set, the members already passed fit, so that the type fits as soon as the remaining ones do. -/
theorem analyzeMembers_sound {T : MessageMembers}
    (hdistinct : ∀ S, types S → S.messageName = T.messageName → S = T)
    (hsub : ∀ S, T.HasMember S → ∀ reg : Registry, reg.Sound countedSize types →
      reg.MarksMore (analyzeType countedSize S reg).2 ∧
        (analyzeType countedSize S reg).2.Sound countedSize types)
    {ms : List (MessageMember MessageMembers)} (hms : ∀ m ∈ ms, m ∈ T.members)
    (memcpyable : Bool) (a : ℕ) {reg : Registry} (hreg : reg.Sound countedSize types)
    (hfit : memcpyable = true → ∀ reg', reg.MarksMore reg' →
      MembersFit countedSize reg' ms a T.sizeOf →
      MembersFit countedSize reg' T.members 0 T.sizeOf) :
    reg.MarksMore
        (analyzeMembers countedSize ms T.messageName T.sizeOf memcpyable a reg).2 ∧
      (analyzeMembers countedSize ms T.messageName T.sizeOf memcpyable a reg).2.Sound
        countedSize types := by
  induction ms generalizing memcpyable a reg with
  | nil =>
    rw [analyzeMembers]
    split
    · rename_i h
      rw [Bool.and_eq_true, beq_iff_eq] at h
      have hmore : reg.MarksMore ((reg.setAnalyzed T.messageName).setMemcopyable T.messageName) :=
        Finset.subset_insert _ _
      exact ⟨hmore, (hreg.setAnalyzed _).setMemcopyable hdistinct (hfit h.2 _ hmore h.1)⟩
    · exact ⟨.rfl, hreg.setAnalyzed _⟩
  | cons m ms ih =>
    have hms' : ∀ m' ∈ ms, m' ∈ T.members := fun m' hm' => hms m' (.tail _ hm')
    obtain ⟨s, p | _ | _ | _ | sub, off⟩ := m
    · rw [analyzeMembers]
      refine ih hms' _ _ hreg fun hmem reg' hmore hrest => ?_
      rw [Bool.and_eq_true] at hmem
      exact hfit hmem.1 reg' hmore ⟨hmem.2, hrest⟩
    · rw [analyzeMembers]
      exact ⟨.rfl, hreg⟩
    · rw [analyzeMembers]
      exact ⟨.rfl, hreg⟩
    · rw [analyzeMembers]
      exact ⟨.rfl, hreg⟩
    · have hS := hsub sub ⟨_, hms _ (.head _), rfl⟩ reg hreg
      rw [analyzeMembers]
      rcases hrun : analyzeType countedSize sub reg with ⟨_ | _, reg1⟩
      · rw [hrun] at hS
        exact hS
      · rw [hrun] at hS
        obtain ⟨hmore1, hsound1⟩ := hS
        simp only
        split
        · rename_i hmark
          have := ih hms' (memcpyable && memberFits ⟨s, .message sub, off⟩ a) (a + sub.sizeOf)
            hsound1 (fun hmem reg' hmore hrest => by
              rw [Bool.and_eq_true] at hmem
              exact hfit hmem.1 reg' (hmore1.trans hmore)
                ⟨hmem.2, hmore.isMemcopyable hmark, hrest⟩)
          exact ⟨hmore1.trans this.1, this.2⟩
        · have := ih hms' false a hsound1 (fun hmem => by cases hmem)
          exact ⟨hmore1.trans this.1, this.2⟩

/-- `AnalyzeType` marks more types and keeps a sound registry sound. -/
theorem analyzeType_sound (hclosed : ∀ T S, types T → T.HasMember S → types S)
    (hdistinct : ∀ S T, types S → types T → S.messageName = T.messageName → S = T)
    {T : MessageMembers} (hT : types T) {reg : Registry} (hreg : reg.Sound countedSize types) :
    reg.MarksMore (analyzeType countedSize T reg).2 ∧
      (analyzeType countedSize T reg).2.Sound countedSize types := by
  induction T using MessageMembers.induction generalizing reg with
  | h T ih =>
    have hloop := analyzeMembers_sound (T := T) (fun S hS => hdistinct S T hS hT)
      (fun S hS reg hreg => ih S hS (hclosed T S hT hS) hreg) (fun _ h => h) true 0 hreg
      (fun _ _ _ h => h)
    obtain ⟨name, size, ms⟩ := T
    rw [analyzeType]
    split
    · exact ⟨.rfl, hreg⟩
    · exact hloop

end Soundness

theorem MessageMembers.Contains.trans_member {T S R : MessageMembers} (h : T.Contains S)
    (h' : S.HasMember R) : T.Contains R := by
  induction h with
  | self T => exact .member h' (.self R)
  | member hm _ ih => exact .member hm (ih h')

/-- The types that the calls are about, at any depth. -/
def Mentioned (calls : List MessageMembers) (T : MessageMembers) : Prop :=
  ∃ A ∈ calls, A.Contains T

theorem Mentioned.member {calls : List MessageMembers} {T S : MessageMembers}
    (h : Mentioned calls T) (hS : T.HasMember S) : Mentioned calls S := by
  obtain ⟨A, hA, hAT⟩ := h
  exact ⟨A, hA, hAT.trans_member hS⟩

theorem DistinctNames.eq {calls : List MessageMembers} (h : DistinctNames calls)
    {S T : MessageMembers} (hS : Mentioned calls S) (hT : Mentioned calls T)
    (heq : S.messageName = T.messageName) : S = T := by
  obtain ⟨A, hA, hAS⟩ := hS
  obtain ⟨B, hB, hBT⟩ := hT
  exact h A hA B hB S T hAS hBT heq

/-- **What every call of `AnalyzeType` keeps holds of every registry a program can get into**, if it
holds when nothing is known. -/
theorem registryAfter_induction {P : Registry → Prop} {countedSize : Primitive → ℕ}
    {calls : List MessageMembers} (hempty : P .empty)
    (hstep : ∀ T ∈ calls, ∀ reg, P reg → P (analyzeType countedSize T reg).2) :
    P (registryAfter countedSize calls) := by
  have hfold : ∀ (l : List MessageMembers) (reg : Registry), (∀ T ∈ l, T ∈ calls) → P reg →
      P (l.foldl (fun reg T => (analyzeType countedSize T reg).2) reg) := by
    intro l
    induction l with
    | nil => exact fun _ _ hreg => hreg
    | cons T l ih =>
      exact fun reg hl hreg => ih _ (fun S hS => hl S (.tail _ hS)) (hstep T (hl T (.head _)) _ hreg)
  exact hfold calls .empty (fun _ h => h) hempty

/-- **Every registry a program can get into is sound**, for all the types of the program. -/
theorem registryAfter_sound (countedSize : Primitive → ℕ) {all calls : List MessageMembers}
    (h : DistinctNames all) (hcalls : calls ⊆ all) :
    (registryAfter countedSize calls).Sound countedSize (Mentioned all) := by
  refine registryAfter_induction (P := fun reg => reg.Sound countedSize (Mentioned all))
    (fun T _ hmark => ?_) fun T hT reg hreg =>
    (analyzeType_sound (fun _ _ => Mentioned.member) (fun _ _ => h.eq) ?_ hreg).2
  · simp [Registry.isMemcopyable, Registry.empty] at hmark
  · exact ⟨T, hcalls hT, .self T⟩

end RmwEcal
