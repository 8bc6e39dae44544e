import RmwEcal.Dynamic.RoundTrip

/-!
# The `memcpy` fast path of C++

`CppSerializer` copies a struct as a block when `AnalyzeType` has marked its type.  Two questions
are answered here, for every registry a program can get into.

* **Can the fast path be seen?**  No: the bytes are those of a process that never takes it
  (`fast_path_invisible`).
* **Is it taken whenever it could be?**  `Memcopyable` is what a type has to be for the block to be
  its encoding: numbers and static arrays of them that fill the struct, at every depth.  The loop of
  `AnalyzeType` asks the same of every member, except that it adds the size of one element where the
  member is an array.  Both are `Dense`, for two notions of how wide a member is, and so a
  memcopyable type is marked exactly if it has no array of two or more elements
  (`analyzeType_decides_iff`).
-/

set_option autoImplicit false

namespace RmwEcal

open Codec Value

/-! ## The fast path cannot be seen -/

/-- **The fast path is invisible.**  What is sent is the plain encoding, which is also what a
process sends that has marked nothing and so takes the branch nowhere. -/
theorem fast_path_invisible (M : Platform) {T : MessageMembers} {calls : List MessageMembers}
    (h : RosidlLayout cppAbi T) (hnames : DistinctNames (T :: calls)) {data : List Cell} {v : Value}
    (hv : contentMessage cppAbi T data = some v) :
    CppSerializer.serialize M (registryAfter cppCountedSize calls) T data =
        CppSerializer.serialize M .empty T data ∧
      CppSerializer.serialize M (registryAfter cppCountedSize calls) T data = .ok v.wire := by
  have hplain : ∀ reg : Registry, reg.MarksPod T → reg.MarksPacked T →
      CppSerializer.serialize M reg T data = .ok v.wire := by
    intro reg hpod hpacked
    rw [CppSerializer.serialize_eq h hv,
      (encodes_eq_wire_iff h hpod (encodes_wireImage h hpod hv)).mpr (gapFree_of_packed hpacked v)]
  have hmarked := hplain _ (registryAfter_marksPod hnames (List.subset_cons_self _ _) (.head _))
    (registryAfter_marksPacked hnames (List.subset_cons_self _ _) (.head _) h)
  have hempty := hplain .empty (fun S _ hmark => absurd hmark (not_isMemcopyable_empty S))
    (Registry.marksPacked_empty T)
  exact ⟨hmarked.trans hempty.symm, hmarked⟩

/-- A place holds a point, which the process has come across before. -/
theorem fast_path_invisible_place :
    CppSerializer.serialize .generous (registryAfter cppCountedSize [point, cppPlace]) cppPlace
          placeA = CppSerializer.serialize .generous .empty cppPlace placeA ∧
      CppSerializer.serialize .generous (registryAfter cppCountedSize [point, cppPlace]) cppPlace
          placeA = .ok (Value.message [.string [65],
            .message [.primitive [0, 0, 128, 63], .primitive [0, 0, 0, 64]]]).wire :=
  fast_path_invisible .generous layout_cppPlace
    (distinctNames_of_types [point, cppPlace]
      (by simp [MessageMembers.HasMember, point, cppPlace]) (by simp [point, cppPlace]) (by simp))
    rfl

/-! ## Types that fill their struct -/

/-- Members of these widths follow each other from `pos` to `size`, in order and without a gap. -/
def Fills (width : MessageMember MessageMembers → ℕ) :
    (pos : ℕ) → List (MessageMember MessageMembers) → (size : ℕ) → Prop
  | pos, [], size => pos = size
  | pos, m :: ms, size => m.offset = pos ∧ Fills width (pos + width m) ms size

/-- No string and no sequence, and no gap between members of these widths, at any depth. -/
inductive Dense (width : MessageMember MessageMembers → ℕ) : MessageMembers → Prop
  | mk {T : MessageMembers} (shape : ∀ m ∈ T.members, m.isArray = true → m.isStatic = true)
      (kind : ∀ m ∈ T.members, m.typeId.IsFixed) (fill : Fills width 0 T.members T.sizeOf)
      (sub : ∀ S, T.HasMember S → Dense width S) : Dense width T

/-- **The types whose struct is their encoding**: an array is as wide as all its elements. -/
abbrev Memcopyable (abi : Abi) : MessageMembers → Prop := Dense (MessageMember.storageSize abi)

/-- What the loop of `AnalyzeType` adds for a member that is neither string nor unsupported. -/
def countedWidth (countedSize : Primitive → ℕ) (m : MessageMember MessageMembers) : ℕ :=
  match m.typeId with
  | .primitive p => countedSize p
  | .message sub => sub.sizeOf
  | .string | .wstring | .wchar => 0

/-- No static array of two or more elements, at any depth. -/
def SingleElements (T : MessageMembers) : Prop :=
  ∀ S, T.Contains S → ∀ m ∈ S.members, m.toArrayShape.count ≤ 1

section Dense

variable {width : MessageMember MessageMembers → ℕ} {T S : MessageMembers}

theorem Dense.pod (h : Dense width T) : Pod T := by
  induction h with
  | mk shape kind _ _ ih => exact .mk shape kind ih

theorem Dense.fill (h : Dense width T) : Fills width 0 T.members T.sizeOf := by
  rcases h with ⟨_, _, hfill, _⟩
  exact hfill

theorem Dense.sub (h : Dense width T) (hS : T.HasMember S) : Dense width S := by
  rcases h with ⟨_, _, _, hsub⟩
  exact hsub S hS

theorem SingleElements.sub (h : SingleElements T) (hS : T.HasMember S) : SingleElements S :=
  fun _ hR => h _ (.member hS hR)

end Dense

/-! ## What `AnalyzeType` decides -/

section Verdict

variable {countedSize : Primitive → ℕ} {types : MessageMembers → Prop} {T : MessageMembers}

theorem MembersFit.fills {reg : Registry} {ms : List (MessageMember MessageMembers)} {a size : ℕ}
    (h : MembersFit countedSize reg ms a size) : Fills (countedWidth countedSize) a ms size := by
  induction ms generalizing a with
  | nil => exact h
  | cons m ms ih =>
    have hoff : m.offset = a := by
      have hfits := h.1
      rw [memberFits, Bool.and_eq_true, beq_iff_eq] at hfits
      exact hfits.1
    obtain ⟨s, p | _ | _ | _ | sub, off⟩ := m
    · exact ⟨hoff, ih h.2⟩
    · exact (show False from h.2).elim
    · exact (show False from h.2).elim
    · exact (show False from h.2).elim
    · exact ⟨hoff, ih h.2.2⟩

/-- A marked type passes the checks of `AnalyzeType` at every depth. -/
theorem Registry.Sound.dense {reg : Registry} (hreg : reg.Sound countedSize types)
    (hclosed : ∀ T S, types T → T.HasMember S → types S) (hT : types T)
    (hmark : reg.isMemcopyable T = true) : Dense (countedWidth countedSize) T := by
  induction T using MessageMembers.induction with
  | h T ih =>
    have hfit := hreg T hT hmark
    refine .mk (fun m hm => (hfit.mem hm).1) (fun m hm => (hfit.mem hm).2.1) hfit.fills ?_
    rintro S ⟨m, hm, hmS⟩
    exact ih S ⟨m, hm, hmS⟩ (hclosed T S hT ⟨m, hm, hmS⟩) ((hfit.mem hm).2.2 S hmS)

/-- A type that has been analysed and passes the checks is marked, for a program with these
types. -/
def Registry.Complete (reg : Registry) (countedSize : Primitive → ℕ)
    (types : MessageMembers → Prop) : Prop :=
  ∀ T, types T → reg.alreadyAnalyzed T.messageName = true → Dense (countedWidth countedSize) T →
    reg.isMemcopyable T = true

/-- The verdict on `T` is added to a complete registry, with the mark if `T` deserves it. -/
theorem Registry.Complete.decide {reg reg' : Registry} (h : reg.Complete countedSize types)
    (hdistinct : ∀ S, types S → S.messageName = T.messageName → S = T)
    (hanalyzed : reg'.analyzedTypes = insert T.messageName reg.analyzedTypes)
    (hmore : reg.MarksMore reg')
    (hmark : Dense (countedWidth countedSize) T → reg'.isMemcopyable T = true) :
    reg'.Complete countedSize types := by
  intro S hS hmem hdense
  rw [Registry.alreadyAnalyzed, hanalyzed, decide_eq_true_iff, Finset.mem_insert] at hmem
  rcases hmem with heq | hold
  · rw [hdistinct S hS heq] at hdense ⊢
    exact hmark hdense
  · exact hmore.isMemcopyable (h S hS (decide_eq_true hold) hdense)

/-- What a run of `AnalyzeType` on `T` owes a complete registry: to leave it complete, and to mark
`T` if `T` passes the checks. -/
def Decides (countedSize : Primitive → ℕ) (types : MessageMembers → Prop) (T : MessageMembers)
    (run : Except Fault Unit × Registry) : Prop :=
  run.2.Complete countedSize types ∧
    (Dense (countedWidth countedSize) T → run.1 = .ok () ∧ run.2.isMemcopyable T = true)

/-- The loop decides.  `hfit` is the loop invariant: if the type passes the checks, then
`memcpyable` is still set and the remaining members start at the counted size. -/
theorem analyzeMembers_decides (hdistinct : ∀ S, types S → S.messageName = T.messageName → S = T)
    (hsub : ∀ S, T.HasMember S → ∀ reg : Registry, reg.Complete countedSize types →
      Decides countedSize types S (analyzeType countedSize S reg))
    {ms : List (MessageMember MessageMembers)} (hms : ∀ m ∈ ms, m ∈ T.members)
    (memcpyable : Bool) (a : ℕ) {reg : Registry} (hreg : reg.Complete countedSize types)
    (hfit : Dense (countedWidth countedSize) T →
      memcpyable = true ∧ Fills (countedWidth countedSize) a ms T.sizeOf) :
    Decides countedSize types T
      (analyzeMembers countedSize ms T.messageName T.sizeOf memcpyable a reg) := by
  induction ms generalizing memcpyable a reg with
  | nil =>
    rw [analyzeMembers]
    split
    · have hmark : ((reg.setAnalyzed T.messageName).setMemcopyable T.messageName).isMemcopyable T =
          true := decide_eq_true (Finset.mem_insert_self _ _)
      exact ⟨hreg.decide hdistinct rfl (Finset.subset_insert _ _) fun _ => hmark,
        fun _ => ⟨rfl, hmark⟩⟩
    · rename_i hno
      have hnot : ¬Dense (countedWidth countedSize) T := by
        intro hdense
        obtain ⟨hmem, hend⟩ := hfit hdense
        exact hno (by rw [hmem, Bool.and_true, beq_iff_eq]; exact hend)
      exact ⟨hreg.decide hdistinct rfl .rfl fun hdense => absurd hdense hnot,
        fun hdense => absurd hdense hnot⟩
  | cons m ms ih =>
    have hms' : ∀ m' ∈ ms, m' ∈ T.members := fun m' hm' => hms m' (.tail _ hm')
    have hm : m ∈ T.members := hms m (.head _)
    have hrest : Dense (countedWidth countedSize) T →
        (memcpyable && memberFits m a) = true ∧
          Fills (countedWidth countedSize) (a + countedWidth countedSize m) ms T.sizeOf := by
      intro hdense
      obtain ⟨hmem, hoff, hfill⟩ := hfit hdense
      refine ⟨?_, hfill⟩
      simp only [hmem, memberFits, hoff, Bool.true_and, beq_self_eq_true, Bool.or_eq_true,
        Bool.not_eq_true']
      by_cases harr : m.isArray = true
      · exact .inr (hdense.pod.shape hm harr)
      · exact .inl (Bool.eq_false_iff.mpr harr)
    obtain ⟨s, p | _ | _ | _ | sub, off⟩ := m
    · rw [analyzeMembers]
      exact ih hms' _ _ hreg hrest
    · rw [analyzeMembers]
      exact ⟨hreg, fun hdense => (hdense.pod.kind hm).elim⟩
    · rw [analyzeMembers]
      exact ⟨hreg, fun hdense => (hdense.pod.kind hm).elim⟩
    · rw [analyzeMembers]
      exact ⟨hreg, fun hdense => (hdense.pod.kind hm).elim⟩
    · have hS : T.HasMember sub := ⟨_, hm, rfl⟩
      have hrun := hsub sub hS reg hreg
      rw [analyzeMembers]
      rcases hrunEq : analyzeType countedSize sub reg with ⟨_ | _, reg₁⟩
      · rw [hrunEq] at hrun
        exact ⟨hrun.1, fun hdense => by cases (hrun.2 (hdense.sub hS)).1⟩
      · rw [hrunEq] at hrun
        simp only
        split
        · exact ih hms' _ _ hrun.1 hrest
        · rename_i hno
          exact ih hms' _ _ hrun.1 fun hdense => absurd (hrun.2 (hdense.sub hS)).2 hno

/-- `AnalyzeType` decides. -/
theorem analyzeType_decides (hclosed : ∀ T S, types T → T.HasMember S → types S)
    (hdistinct : ∀ S T, types S → types T → S.messageName = T.messageName → S = T)
    (hT : types T) {reg : Registry} (hreg : reg.Complete countedSize types) :
    Decides countedSize types T (analyzeType countedSize T reg) := by
  induction T using MessageMembers.induction generalizing reg with
  | h T ih =>
    have hloop := analyzeMembers_decides (T := T) (fun S hS => hdistinct S T hS hT)
      (fun S hS reg hreg => ih S hS (hclosed T S hT hS) hreg) (fun _ hm => hm) true 0 hreg
      fun hdense => ⟨rfl, hdense.fill⟩
    obtain ⟨name, size, ms⟩ := T
    rw [analyzeType]
    split
    · rename_i hanalyzed
      exact ⟨hreg, fun hdense => ⟨rfl, hreg _ hT hanalyzed hdense⟩⟩
    · exact hloop

/-- **After `AnalyzeType` a type is marked exactly if it passes the checks at every depth**,
whatever was analysed before. -/
theorem isMemcopyable_analyzeType_iff {calls : List MessageMembers}
    (hnames : DistinctNames (T :: calls)) :
    (analyzeType countedSize T (registryAfter countedSize calls)).2.isMemcopyable T = true ↔
      Dense (countedWidth countedSize) T := by
  have hT : Mentioned (T :: calls) T := ⟨T, .head _, .self T⟩
  have hcomplete :
      (registryAfter countedSize calls).Complete countedSize (Mentioned (T :: calls)) := by
    refine registryAfter_induction
      (P := fun reg => reg.Complete countedSize (Mentioned (T :: calls))) ?_ fun S hS reg hreg =>
      (analyzeType_decides (fun _ _ => Mentioned.member) (fun _ _ => hnames.eq)
        ⟨S, .tail _ hS, .self S⟩ hreg).1
    intro S _ hanalyzed _
    simp [Registry.alreadyAnalyzed, Registry.empty] at hanalyzed
  constructor
  · exact (analyzeType_sound (fun _ _ => Mentioned.member) (fun _ _ => hnames.eq) hT
      (registryAfter_sound countedSize hnames (List.subset_cons_self _ _))).2.dense
      (fun _ _ => Mentioned.member) hT
  · exact fun hdense => ((analyzeType_decides (fun _ _ => Mentioned.member)
      (fun _ _ => hnames.eq) hT hcomplete).2 hdense).2

end Verdict

/-! ## What it should decide -/

section Widths

variable {abi : Abi}

theorem countedWidth_eq_elemSize (abi : Abi) {m : MessageMember MessageMembers}
    (h : m.typeId.IsFixed) : countedWidth cppCountedSize m = m.typeId.elemSize abi := by
  obtain ⟨s, p | _ | _ | _ | sub, off⟩ := m
  · rfl
  · exact h.elim
  · exact h.elim
  · exact h.elim
  · rfl

theorem Fills.congr {width width' : MessageMember MessageMembers → ℕ} {pos size : ℕ}
    {ms : List (MessageMember MessageMembers)} (h : ∀ m ∈ ms, width m = width' m)
    (hms : Fills width pos ms size) : Fills width' pos ms size := by
  induction ms generalizing pos with
  | nil => exact hms
  | cons m ms ih =>
    refine ⟨hms.1, ih (fun m' hm' => h m' (.tail _ hm')) ?_⟩
    rw [← h m (.head _)]
    exact hms.2

/-- A counted width that leads from member to member cannot be smaller than the real one. -/
theorem Fills.storageSize_le {width : MessageMember MessageMembers → ℕ} {pos a size : ℕ}
    {ms : List (MessageMember MessageMembers)} (hms : Fills width a ms size)
    (h : InOrder abi pos ms size) {m : MessageMember MessageMembers} (hm : m ∈ ms) :
    m.storageSize abi ≤ width m := by
  induction ms generalizing pos a with
  | nil => cases hm
  | cons m' ms ih =>
    rcases List.mem_cons.mp hm with rfl | hm
    · have hreach : m.offset + m.storageSize abi ≤ a + width m := by
        rcases ms with _ | ⟨m', ms⟩
        · have hend : a + width m = size := hms.2
          exact hend ▸ h.2
        · have hnext : m'.offset = a + width m := hms.2.1
          exact hnext ▸ h.2.1
      have hoff : m.offset = a := hms.1
      omega
    · exact ih hms.2 h.2 hm

theorem RosidlLayout.elemSize_pos {T : MessageMembers} (h : RosidlLayout abi T)
    {m : MessageMember MessageMembers} (hm : m ∈ T.members) (hkind : m.typeId.IsFixed) :
    0 < m.typeId.elemSize abi := by
  obtain ⟨s, p | _ | _ | _ | sub, off⟩ := m
  · exact p.sizeof_pos
  · exact hkind.elim
  · exact hkind.elim
  · exact hkind.elim
  · exact (h.sub ⟨_, hm, rfl⟩).pos

/-- **What passes the checks is memcopyable and has no array of two or more elements.** -/
theorem dense_counted_iff {T : MessageMembers} (h : RosidlLayout abi T) :
    Dense (countedWidth cppCountedSize) T ↔ Memcopyable abi T ∧ SingleElements T := by
  induction T using MessageMembers.induction with
  | h T ih =>
    constructor
    · intro hdense
      have hwidth : ∀ m ∈ T.members, m.toArrayShape.count ≤ 1 ∧
          countedWidth cppCountedSize m = m.storageSize abi := by
        intro m hm
        have hle := hdense.fill.storageSize_le h.inOrder hm
        have hpos : 0 < m.toArrayShape.count := count_pos fun harr => hdense.pod.shape hm harr
        rw [storageSize_of_pod (fun harr => hdense.pod.shape hm harr),
          countedWidth_eq_elemSize abi (hdense.pod.kind hm)] at hle ⊢
        have hone : m.toArrayShape.count * m.typeId.elemSize abi ≤ 1 * m.typeId.elemSize abi := by
          rwa [Nat.one_mul]
        have hcount := Nat.le_of_mul_le_mul_right hone (h.elemSize_pos hm (hdense.pod.kind hm))
        exact ⟨hcount, by rw [Nat.le_antisymm hcount hpos, Nat.one_mul]⟩
      refine ⟨.mk (fun m hm => hdense.pod.shape hm) (fun m hm => hdense.pod.kind hm)
        (hdense.fill.congr fun m hm => (hwidth m hm).2)
        fun S hS => ((ih S hS (h.sub hS)).mp (hdense.sub hS)).1, ?_⟩
      rintro S (_ | ⟨hS, hR⟩) m hm
      · exact (hwidth m hm).1
      · exact ((ih _ hS (h.sub hS)).mp (hdense.sub hS)).2 _ hR m hm
    · rintro ⟨hdense, hsingle⟩
      refine .mk (fun m hm => hdense.pod.shape hm) (fun m hm => hdense.pod.kind hm)
        (hdense.fill.congr fun m hm => ?_)
        fun S hS => (ih S hS (h.sub hS)).mpr ⟨hdense.sub hS, hsingle.sub hS⟩
      have hpos : 0 < m.toArrayShape.count := count_pos fun harr => hdense.pod.shape hm harr
      rw [storageSize_of_pod (fun harr => hdense.pod.shape hm harr),
        countedWidth_eq_elemSize abi (hdense.pod.kind hm),
        Nat.le_antisymm (hsingle T (.self T) m hm) hpos, Nat.one_mul]

end Widths

/-- **`AnalyzeType` is right about a type exactly if it is not memcopyable or has no array of two or
more elements.** -/
theorem analyzeType_decides_iff {T : MessageMembers} {calls : List MessageMembers}
    (h : RosidlLayout cppAbi T) (hnames : DistinctNames (T :: calls)) :
    ((analyzeType cppCountedSize T (registryAfter cppCountedSize calls)).2.isMemcopyable T = true ↔
        Memcopyable cppAbi T) ↔ (Memcopyable cppAbi T → SingleElements T) := by
  rw [isMemcopyable_analyzeType_iff hnames, dense_counted_iff h]
  exact ⟨fun heq hmem => (heq.mpr hmem).2,
    fun hsingle => ⟨And.left, fun hmem => ⟨hmem, hsingle hmem⟩⟩⟩

/-- Two floats in a static array. -/
def pair : MessageMembers := .mk 5 8 [⟨⟨true, 2, false⟩, .primitive .float, 0⟩]

theorem layout_pair {abi : Abi} : RosidlLayout abi pair :=
  .mk (by decide) (by decide) ⟨le_rfl, le_rfl⟩ (by simp [MessageMembers.HasMember, pair])

theorem supported_pair : Supported pair :=
  .mk (by simp [pair]) (by simp [MessageMembers.HasMember, pair])

theorem distinctNames_pair : DistinctNames [pair] :=
  distinctNames_of_types [pair] (by simp [MessageMembers.HasMember, pair]) (by simp) (by simp)

theorem memcopyable_pair {abi : Abi} : Memcopyable abi pair :=
  .mk (by simp [pair, ArrayShape.isStatic]) (by simp [pair, TypeId.IsFixed]) ⟨rfl, rfl⟩
    (by simp [MessageMembers.HasMember, pair])

theorem analyzeType_decides_iff_pair :
    ((analyzeType cppCountedSize pair (registryAfter cppCountedSize [])).2.isMemcopyable pair =
        true ↔ Memcopyable cppAbi pair) ↔ (Memcopyable cppAbi pair → SingleElements pair) :=
  analyzeType_decides_iff layout_pair distinctNames_pair

/-- The two floats fill the struct, but the loop counts one of them. -/
theorem analyzeType_misses_pair :
    RosidlLayout cppAbi pair ∧ Supported pair ∧ DistinctNames [pair] ∧
      ¬((analyzeType cppCountedSize pair (registryAfter cppCountedSize [])).2.isMemcopyable pair =
        true ↔ Memcopyable cppAbi pair) := by
  refine ⟨layout_pair, supported_pair, distinctNames_pair, fun h => ?_⟩
  have hunmarked : (analyzeType cppCountedSize pair
      (registryAfter cppCountedSize [])).2.isMemcopyable pair = false := rfl
  rw [h.mpr memcopyable_pair] at hunmarked
  cases hunmarked

end RmwEcal
