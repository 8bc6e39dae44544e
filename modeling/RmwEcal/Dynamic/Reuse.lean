import RmwEcal.Dynamic.Requirements

/-!
# Decoding into a used message

A subscriber may take into a message that still holds what an earlier take has left there, or the
defaults of its constructor.  C++ keeps strings and sequences of booleans and appends to them, so
that two messages end up equal **exactly if they agreed on those before** (`overlay_eq_iff`): on all
of them that the decoded value has, those inside the elements of reused sequences included.  And
they end up as messages at all only if no short string among those elements has to move
(`Settled`).

C forgets all of that.  The only thing in a target that it looks at is how many strings there are in
a sequence of strings, and only if there is no memory for as many as the bytes announce
(`messageFrame_of_counts`).
-/

set_option autoImplicit false

namespace RmwEcal

open Codec Value

namespace Value

mutual

/-- Where the value `v` has a string or a sequence of booleans, two targets hold the same. -/
def SameResidue : Value → Value → Value → Prop
  | _, _, .primitive _ => True
  | old, old', .string _ => old.chars = old'.chars
  | old, old', .bools _ => old.bits = old'.bits
  | old, old', .array vs | old, old', .sequence vs | old, old', .message vs =>
    SameResidueList old.elems old'.elems vs

/-- The same for values in a row.  Elements that a target did not have yet are empty. -/
def SameResidueList : List Value → List Value → List Value → Prop
  | _, _, [] => True
  | olds, olds', v :: vs =>
    SameResidue (olds.headD default) (olds'.headD default) v ∧
      SameResidueList olds.tail olds'.tail vs

end

mutual

/-- **What is decoded on top of two targets is equal exactly if they left the same residue.** -/
theorem overlay_eq_iff : ∀ old old' v : Value,
    overlay true old v = overlay true old' v ↔ SameResidue old old' v
  | _, _, .primitive _ => by rw [overlay, overlay, SameResidue]; simp
  | old, old', .string chars => by
    rw [overlay, overlay, SameResidue, if_pos rfl, if_pos rfl, Value.string.injEq,
      List.append_left_inj]
  | old, old', .bools bits => by
    rw [overlay, overlay, SameResidue, if_pos rfl, if_pos rfl, Value.bools.injEq,
      List.append_left_inj]
  | old, old', .array vs => by
    rw [overlay, overlay, SameResidue, Value.array.injEq, overlayList_eq_iff]
  | old, old', .sequence vs => by
    rw [overlay, overlay, SameResidue, Value.sequence.injEq, overlayList_eq_iff]
  | old, old', .message vs => by
    rw [overlay, overlay, SameResidue, Value.message.injEq, overlayList_eq_iff]

theorem overlayList_eq_iff : ∀ olds olds' vs : List Value,
    overlayList true olds vs = overlayList true olds' vs ↔ SameResidueList olds olds' vs
  | _, _, [] => by rw [overlayList, overlayList, SameResidueList]; simp
  | olds, olds', v :: vs => by
    rw [overlayList, overlayList, SameResidueList, List.cons.injEq,
      overlay_eq_iff (olds.headD default) (olds'.headD default) v,
      overlayList_eq_iff olds.tail olds'.tail vs]

end

end Value

/-! ## What C looks at -/

mutual

/-- Two targets hold equally many strings wherever the type has a sequence of strings that is not
inside another sequence. -/
def SameCounts : MessageMembers → Value → Value → Prop
  | .mk _ _ ms, old, old' => SameCountsMembers ms old.elems old'.elems

/-- The same for the members of a struct. -/
def SameCountsMembers : List (MessageMember MessageMembers) → List Value → List Value → Prop
  | [], _, _ => True
  | m :: ms, olds, olds' =>
    SameCountsMember m (olds.headD default) (olds'.headD default) ∧
      SameCountsMembers ms olds.tail olds'.tail

/-- The same for a member. -/
def SameCountsMember : MessageMember MessageMembers → Value → Value → Prop
  | ⟨s, .message sub, _⟩, old, old' =>
    if s.isArray then
      s.isStatic = true → ∀ i, SameCounts sub (old.elems.getD i default) (old'.elems.getD i default)
    else SameCounts sub old old'
  | ⟨s, .string, _⟩, old, old' =>
    s.isArray = true → s.isStatic = false → old.elems.length = old'.elems.length
  | ⟨_, .primitive _, _⟩, _, _ | ⟨_, .wstring, _⟩, _, _ | ⟨_, .wchar, _⟩, _, _ => True

end

theorem sameCounts_iff {T : MessageMembers} {old old' : Value} :
    SameCounts T old old' ↔ SameCountsMembers T.members old.elems old'.elems := by
  obtain ⟨name, size, ms⟩ := T
  rw [SameCounts]
  rfl

namespace CDeserializer

variable {M : Platform} {reg : Registry} {data data' : List Cell}

theorem copied_congr {ν : Type} {size : ℕ} {read : List Cell → Option ν} (h : size ≤ data.length)
    (h' : size ≤ data'.length) : copied size read data = copied size read data' := by
  funext w e
  rw [copied, Grammar.fixed, Grammar.fixed, eq_true h, eq_true h']

theorem stringFrame_congr (h : 24 ≤ data.length) (h' : 24 ≤ data'.length) :
    stringFrame data = stringFrame data' := by
  funext w e
  rw [stringFrame, stringFrame, eq_true h, eq_true h']
  rfl

theorem sized_congr {ν : Type} {body : ℕ → Grammar Cell UInt8 ν}
    (h : ∀ n, body n data = body n data') : sized body data = sized body data' := by
  funext w e
  simp only [sized, h]

theorem sequenceFrame_congr {ν : Type} {wrap : List ν → Value} {sizeofT : ℕ}
    {elems : ℕ → Grammar Cell UInt8 (List ν)} (h : 24 ≤ data.length) (h' : 24 ≤ data'.length) :
    sequenceFrame M wrap sizeofT elems data = sequenceFrame M wrap sizeofT elems data' := by
  funext w e
  rw [sequenceFrame, sequenceFrame, eq_true h, eq_true h', sized_congr]
  intro n
  split_ifs <;> rfl

/-- There is room for each of the elements that there is room for. -/
theorem le_length_drop {size n i : ℕ} (hi : i < n) (h : n * size ≤ data.length) :
    size ≤ (data.drop (i * size)).length := by
  have hle := Nat.mul_le_mul_right size (Nat.succ_le_of_lt hi)
  rw [Nat.succ_mul] at hle
  rw [List.length_drop]
  omega

/-- Strings in a row are read alike into any strings. -/
theorem strings_congr {n : ℕ} (h : n * cAbi.stringSize ≤ data.length)
    (h' : n * cAbi.stringSize ≤ data'.length) :
    stringFrame.each cAbi.stringSize n data = stringFrame.each cAbi.stringSize n data' := by
  refine Grammar.each_congr fun i hi => stringFrame_congr ?_ ?_
  · exact le_length_drop hi h
  · exact le_length_drop hi h'

/-- What sequence of strings `rosidl_runtime_c__String__Sequence__init` leaves is decided by the
number of strings asked for, and, if there is no memory for them, by the number of those that were
there. -/
theorem stringSequenceFrame_congr {n : ℕ} {block block' : List Cell}
    (h : cAbi.readVector cAbi.stringSize data = some (n, block))
    (h' : cAbi.readVector cAbi.stringSize data' = some (n, block')) :
    stringSequenceFrame M data = stringSequenceFrame M data' := by
  obtain ⟨hblock, hlen, -⟩ := CSerializer.readVector_eq_some h
  obtain ⟨hblock', hlen', -⟩ := CSerializer.readVector_eq_some h'
  obtain ⟨_, hhead⟩ := cSequence?_eq_some hblock
  obtain ⟨_, hhead'⟩ := cSequence?_eq_some hblock'
  have hroom := le_length_of_head? hhead
  have hroom' := le_length_of_head? hhead'
  funext w e
  rw [stringSequenceFrame, stringSequenceFrame, eq_true hroom, eq_true hroom', sized_congr]
  intro k
  split_ifs with hk
  · rfl
  · funext w e
    have hpos : 0 < k := Nat.pos_of_ne_zero hk
    cases hgrant : (allocates M.grants (k * 24) && allocates M.grants 1) with
    | true =>
      have hgrant' := Bool.and_eq_true_iff.mp hgrant
      simp only [M.runtimeC.stringSequenceInit_granted _ k hpos hgrant'.1 hgrant'.2,
        cSequence?_place hroom, cSequence?_place hroom']
    | false =>
      simp only [M.runtimeC.stringSequenceInit_refused _ k hpos hgrant, hblock, hblock',
        Option.some.injEq, exists_eq_left', Grammar.map, strings_congr hlen hlen']

/-- A member of any shape is read alike into two targets if its elements and sequences are. -/
theorem shapeFrame_congr {s : ArrayShape} {isBoolean : Bool} {elemSize : ℕ}
    {single dynamicArray : Grammar Cell UInt8 Value} {array : Grammar Cell UInt8 (List Value)}
    (hlen : s.storageSize cAbi isBoolean elemSize ≤ data.length)
    (hlen' : s.storageSize cAbi isBoolean elemSize ≤ data'.length)
    (hsingle : s.isArray = false → elemSize ≤ data.length → elemSize ≤ data'.length →
      single data = single data')
    (harray : s.isArray = true → s.isStatic = true → s.arraySize * elemSize ≤ data.length →
      s.arraySize * elemSize ≤ data'.length → array data = array data')
    (hdynamic : s.isArray = true → s.isStatic = false → 24 ≤ data.length → 24 ≤ data'.length →
      dynamicArray data = dynamicArray data') :
    shapeFrame s single array dynamicArray data = shapeFrame s single array dynamicArray data' := by
  rw [ArrayShape.storageSize] at hlen hlen'
  rw [shapeFrame]
  split_ifs at hlen hlen' ⊢ with h1 h2
  · exact Grammar.map_congr (harray h1 h2 hlen hlen')
  · exact hdynamic h1 (by simpa using h2) hlen hlen'
  · exact hdynamic h1 (by simpa using h2) hlen hlen'
  · exact hsingle (by simpa using h1) hlen hlen'

/-- What is read of a sequence of strings. -/
theorem readVector_of_member {s : ArrayShape} {off : ℕ} (h1 : s.isArray = true)
    (h2 : s.isStatic = false) {old : Value}
    (hold : contentMember cAbi ⟨s, .string, off⟩ data = some old) :
    ∃ block, cAbi.readVector cAbi.stringSize data = some (old.elems.length, block) := by
  rw [contentMember, readMember, if_pos h1, if_neg (by rw [h2]; decide), if_neg Bool.false_ne_true] at hold
  obtain ⟨⟨n, block⟩, hvec, hread⟩ := Option.bind_eq_some_iff.mp hold
  obtain ⟨vs, hvs, rfl⟩ := Option.map_eq_some_iff.mp hread
  rw [Value.elems, readEach_length hvs]
  exact ⟨block, hvec⟩

/-- A member is read alike into two targets if the messages in it are. -/
theorem memberFrame_of_counts {T : MessageMembers} {m : MessageMember MessageMembers}
    (hm : m ∈ T.members)
    (ih : ∀ S, T.HasMember S → ∀ {data data' old old'}, contentMessage cAbi S data = some old →
      contentMessage cAbi S data' = some old' → SameCounts S old old' →
        messageFrame cAbi (frames M) reg S data = messageFrame cAbi (frames M) reg S data')
    (hlen : m.storageSize cAbi ≤ data.length) (hlen' : m.storageSize cAbi ≤ data'.length)
    {old old' : Value} (hold : contentMember cAbi m data = some old)
    (hold' : contentMember cAbi m data' = some old') (hc : SameCountsMember m old old') :
    memberFrame cAbi (frames M) reg m data = memberFrame cAbi (frames M) reg m data' := by
  obtain ⟨s, p | _ | _ | _ | sub, off⟩ := m
  · refine shapeFrame_congr hlen hlen' (fun _ => copied_congr) (fun _ _ h h' => ?_)
      fun _ _ h h' => ?_
    · rw [each_copied (readPrimitive_local p)]
      exact copied_congr h h'
    · have hdynamic : ∀ elems : ℕ → Grammar Cell UInt8 (List Value),
          sequenceFrame M .sequence p.sizeof elems data =
            sequenceFrame M .sequence p.sizeof elems data' := fun _ => sequenceFrame_congr h h'
      cases p <;> first | exact hdynamic _ | exact sequenceFrame_congr h h'
  · refine shapeFrame_congr hlen hlen' (fun _ => stringFrame_congr) (fun _ _ => strings_congr)
      fun h1 h2 _ _ => ?_
    obtain ⟨block, hvec⟩ := readVector_of_member h1 h2 hold
    obtain ⟨block', hvec'⟩ := readVector_of_member h1 h2 hold'
    rw [SameCountsMember] at hc
    rw [← hc h1 h2] at hvec'
    exact stringSequenceFrame_congr hvec hvec'
  · rfl
  · rfl
  · rw [SameCountsMember] at hc
    rw [contentMember, readMember] at hold hold'
    refine shapeFrame_congr hlen hlen' (fun h1 _ _ => ?_) (fun h1 h2 _ _ => ?_)
      fun _ _ => sequenceFrame_congr
    · rw [h1] at hc hold hold'
      exact ih sub ⟨_, hm, rfl⟩ hold hold' hc
    · rw [if_pos h1] at hc hold hold'
      rw [if_pos h2] at hold hold'
      obtain ⟨vs, hvs, rfl⟩ := Option.map_eq_some_iff.mp hold
      obtain ⟨vs', hvs', rfl⟩ := Option.map_eq_some_iff.mp hold'
      exact Grammar.each_congr fun i hi => ih sub ⟨_, hm, rfl⟩
        (readEach_getD hvs default hi) (readEach_getD hvs' default hi) (hc h2 i)

theorem membersFrame_of_counts {ms : List (MessageMember MessageMembers)}
    (hm : ∀ m ∈ ms, ∀ {old old'}, contentMember cAbi m (data.drop m.offset) = some old →
      contentMember cAbi m (data'.drop m.offset) = some old' → SameCountsMember m old old' →
        memberFrame cAbi (frames M) reg m (data.drop m.offset) =
          memberFrame cAbi (frames M) reg m (data'.drop m.offset))
    {olds olds' : List Value} (holds : contentMembers cAbi ms data = some olds)
    (holds' : contentMembers cAbi ms data' = some olds') (hc : SameCountsMembers ms olds olds') :
    membersFrame cAbi (frames M) reg ms data = membersFrame cAbi (frames M) reg ms data' := by
  induction ms generalizing olds olds' with
  | nil => rfl
  | cons m ms ih =>
    obtain ⟨v, vs, hv, hvs, rfl⟩ := contentMembers_cons_eq_some.mp holds
    obtain ⟨v', vs', hv', hvs', rfl⟩ := contentMembers_cons_eq_some.mp holds'
    rw [membersFrame_cons]
    exact Grammar.andThen_congr (hm m (.head _) hv hv' hc.1)
      (ih (fun m' hm' => hm m' (.tail _ hm')) hvs hvs' hc.2)

/-- **The only thing in a target that C looks at is how many strings there are in its sequences of
strings.** -/
theorem messageFrame_of_counts {T : MessageMembers} (h : RosidlLayout cAbi T)
    {old old' : Value} (hold : contentMessage cAbi T data = some old)
    (hold' : contentMessage cAbi T data' = some old') (hc : SameCounts T old old') :
    messageFrame cAbi (frames M) reg T data = messageFrame cAbi (frames M) reg T data' := by
  induction T using MessageMembers.induction generalizing data data' old old' with
  | h T ih =>
    obtain ⟨hlen, olds, holds, rfl⟩ := contentMessage_eq_some.mp hold
    obtain ⟨hlen', olds', holds', rfl⟩ := contentMessage_eq_some.mp hold'
    by_cases hmark : reg.isMemcopyable T = true
    · rw [messageFrame_marked hmark]
      exact copied_congr hlen hlen'
    · have hmembers : membersFrame cAbi (frames M) reg T.members data =
          membersFrame cAbi (frames M) reg T.members data' := by
        refine membersFrame_of_counts (fun m hm _ _ hv hv' hcm => ?_) holds holds'
          (sameCounts_iff.mp hc)
        have hend := h.inOrder.storageSize_le hm
        exact memberFrame_of_counts hm (fun S hS _ _ _ _ => ih S hS (h.sub hS))
          (by rw [List.length_drop]; omega) (by rw [List.length_drop]; omega) hv hv' hcm
      rw [messageFrame_unmarked hmark]
      funext w e
      dsimp only
      rw [eq_true hlen, eq_true hlen', Grammar.map_congr hmembers]

end CDeserializer

/-! ## Decoding into two targets -/

/-- The run returns, and leaves a message that holds `x`. -/
def Returns (abi : Abi) (T : MessageMembers) (run : Except Fault (List Cell × List UInt8))
    (x : Value) : Prop :=
  ∃ left rest, run = .ok (left, rest) ∧ contentMessage abi T left = some x

/-- The bytes begin with a frame that says `x` when it is read into the target. -/
def CDeserializer.Says (M : Platform) (reg : Registry) (T : MessageMembers) (target : List Cell)
    (src : List UInt8) (x : Value) : Prop :=
  ∃ w rest, src = w ++ rest ∧
    messageFrame cAbi (CDeserializer.frames M) reg T target w (some (some x))

/-- **What a run in C leaves is what the bytes say.** -/
theorem CDeserializer.returns_iff {M : Platform} (hM : M.Ample) {reg : Registry}
    {T : MessageMembers} (h : RosidlLayout cAbi T) (target : List Cell) (src : List UInt8)
    (x : Value) : Returns cAbi T (CDeserializer.deserialize M reg T target src) x ↔
      CDeserializer.Says M reg T target src x :=
  (deserializeMessage_follows CDeserializer.framed h).leaves_iff
    (messageFrame_unique CDeserializer.framed T) ⟨rfl, hM⟩ target src x

/-- Bytes say the same for targets with the same numbers of strings. -/
theorem CDeserializer.says_congr {M : Platform} {reg : Registry} {T : MessageMembers}
    (h : RosidlLayout cAbi T) {target target' : List Cell} {old old' : Value}
    (hold : contentMessage cAbi T target = some old)
    (hold' : contentMessage cAbi T target' = some old') (hc : SameCounts T old old')
    {src : List UInt8} {x : Value} : Says M reg T target src x ↔ Says M reg T target' src x := by
  rw [Says, Says, messageFrame_of_counts h hold hold' hc]

/-- What a run in C++ leaves, if the target is settled, and only then. -/
theorem CppDeserializer.returns_iff {Ms Mr : Platform} (hMr : Mr.Ample) {T : MessageMembers}
    {sender receiver : List MessageMembers} (h : Peers cppAbi T sender receiver)
    {message target : List Cell} {v old : Value} (hv : contentMessage cppAbi T message = some v)
    (hold : contentMessage cppAbi T target = some old) (hroom : (overlay true old v).Storable)
    (x : Value) :
    Returns cppAbi T
        (CppDeserializer.deserialize Mr (registryAfter cppCountedSize receiver) T target
        (wireImage Ms cppAbi (registryAfter cppCountedSize sender) T message)) x ↔
      x = overlay true old v ∧ Settled cppAbi T v target := by
  have hw := h.encodes (M := Ms) h.cpp_sameExtent hv
  have hruns : Settled cppAbi T v target → ∃ left, CppDeserializer.deserialize Mr
      (registryAfter cppCountedSize receiver) T target
        (wireImage Ms cppAbi (registryAfter cppCountedSize sender) T message) = .ok (left, []) ∧
      contentMessage cppAbi T left = some (overlay true old v) := fun hsettled => by
    obtain ⟨left, hrun, hread⟩ := CppDeserializer.deserialize_encoded hMr h.layout h.supported
      h.receiver_marksPod hw hold hsettled hroom []
    exact ⟨left, by rwa [List.append_nil] at hrun, hread⟩
  constructor
  · rintro ⟨left, rest, hrun, hread⟩
    have hsettled : Settled cppAbi T v target := CppDeserializer.settled_of_run hMr h.layout
      h.supported h.receiver_marksPod hw hold hroom
      ((congrArg (CppDeserializer.deserialize Mr _ T target) (List.append_nil _)).trans hrun)
      (by rw [hread]; exact Option.some_ne_none x)
    obtain ⟨left', hrun', hread'⟩ := hruns hsettled
    obtain rfl : left = left' := congrArg Prod.fst (Except.ok.inj (hrun.symm.trans hrun'))
    exact ⟨Option.some.inj (hread.symm.trans hread'), hsettled⟩
  · rintro ⟨rfl, hsettled⟩
    obtain ⟨left, hrun, hread⟩ := hruns hsettled
    exact ⟨left, [], hrun, hread⟩

/-- A sequence of messages with a string, as C++ lays it out. -/
def cppTexts : MessageMembers := .mk 11 24 [⟨.unbounded, .message cppText, 0⟩]

/-- One element has no room for another one behind it and moves, and its short string does not. -/
example : CppDeserializer.deserialize .generous (registryAfter cppCountedSize [cppTexts]) cppTexts
    (object 24 (.vector (object 32 (.string [97] 14 true)) 0))
    (sizeBytes 2 ++ (sizeBytes 1 ++ [98]) ++ (sizeBytes 1 ++ [98])) = .error .undefined := rfl

theorem peers_cppText : Peers cppAbi cppText [cppText] [cppText] :=
  have hnames : DistinctNames [cppText] := distinctNames_of_types [cppText]
    (by simp [MessageMembers.HasMember, cppText]) (by simp) (by simp)
  ⟨layout_cppText, supported_cppText, hnames, hnames, by simp, by simp⟩

theorem peers_cText : Peers cAbi cText [cText] [cText] :=
  have hnames : DistinctNames [cText] := distinctNames_of_types [cText]
    (by simp [MessageMembers.HasMember, cText]) (by simp) (by simp)
  ⟨layout_cText, supported_cText, hnames, hnames, by simp, by simp⟩

/-- The string `"b"` in a C message. -/
def cTextB : List Cell := object 24 (.sequence [.byte 98, .byte 0] 1 2)

end RmwEcal
