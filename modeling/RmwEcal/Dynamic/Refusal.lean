import RmwEcal.Dynamic.Language
import RmwEcal.Dynamic.RoundTrip

/-!
# Types that are refused up front

The constructors of the serializers and the deserializers call `AnalyzeType`, which throws when it
comes to a wide string or a wide character.  It does not come to all of them: a string ends the walk
over the members of its type, and whatever is behind it is never looked at.

* `Exposed` says which wide members the walk comes to, and `analyze_verdict` that a constructor
  throws exactly if there is one, for every registry a program can get into.
* The encoders and decoders walk over all members.  That they never throw on a `Supported` type, on
  no storage and no input, is `serializeMessage_failsIn` and `deserializeMessage_failsIn`.
* Both together are `refusedUpFront_iff`.
-/

set_option autoImplicit false

namespace RmwEcal

open Codec Value

namespace Language

/-- A target that `v` can be decoded into.  In C++ it has to hold a message already, and with it no
more than memory can hold, and none of its vectors of messages may have to move what cannot be
moved. -/
def Room (l : Language) (T : MessageMembers) (message : List Cell) (v : Value) : Prop :=
  match l with
  | cpp => ∃ old, contentMessage cppAbi T message = some old ∧ Settled cppAbi T v message ∧
      (overlay true old v).Storable
  | c => T.sizeOf ≤ message.length

end Language

/-! ## What the walk of `AnalyzeType` comes to -/

/-- Among these members, or inside one of them, is a wide one that no string stands before: neither
here nor in the message types that have to be entered to get to it. -/
inductive Exposed : List (MessageMember MessageMembers) → Prop
  | wide {m : MessageMember MessageMembers} {ms : List (MessageMember MessageMembers)}
      (kind : m.typeId = .wstring ∨ m.typeId = .wchar) : Exposed (m :: ms)
  | inside {m : MessageMember MessageMembers} {ms : List (MessageMember MessageMembers)}
      {S : MessageMembers} (kind : m.typeId = .message S) (h : Exposed S.members) :
      Exposed (m :: ms)
  | later {m : MessageMember MessageMembers} {ms : List (MessageMember MessageMembers)}
      (kind : m.typeId ≠ .string) (h : Exposed ms) : Exposed (m :: ms)

theorem not_exposed_nil : ¬Exposed [] := by rintro ⟨⟩

theorem exposed_cons_iff {m : MessageMember MessageMembers}
    {ms : List (MessageMember MessageMembers)} : Exposed (m :: ms) ↔
      (m.typeId = .wstring ∨ m.typeId = .wchar) ∨
        (∃ S, m.typeId = .message S ∧ Exposed S.members) ∨ (m.typeId ≠ .string ∧ Exposed ms) := by
  constructor
  · rintro (hkind | ⟨hkind, h⟩ | ⟨hkind, h⟩)
    · exact .inl hkind
    · exact .inr (.inl ⟨_, hkind, h⟩)
    · exact .inr (.inr ⟨hkind, h⟩)
  · rintro (hkind | ⟨S, hkind, h⟩ | ⟨hkind, h⟩)
    · exact .wide hkind
    · exact .inside hkind h
    · exact .later hkind h

/-- A wide member that the walk comes to is in a type that has one. -/
theorem Exposed.not_supported {ms : List (MessageMember MessageMembers)} (h : Exposed ms)
    {T : MessageMembers} (hms : ∀ m ∈ ms, m ∈ T.members) : ¬Supported T := by
  intro hT
  induction h generalizing T with
  | wide kind => exact kind.elim (hT.kinds (hms _ (.head _))).1 (hT.kinds (hms _ (.head _))).2
  | inside kind _ ih => exact ih (fun _ hm => hm) (hT.sub ⟨_, hms _ (.head _), kind⟩)
  | later _ _ ih => exact ih (fun m hm => hms m (.tail _ hm)) hT

/-- In a type without wide members the walk comes to none. -/
theorem Supported.not_exposed {T : MessageMembers} (h : Supported T) : ¬Exposed T.members :=
  fun hexposed => hexposed.not_supported (fun _ hm => hm) h

/-! ## The verdict of `AnalyzeType` -/

/-- What a constructor throws. -/
def unsupportedKind : Fault := .logicError "Wide character/string serialization is unsupported."

section Verdict

variable {countedSize : Primitive → ℕ} {types : MessageMembers → Prop} {T : MessageMembers}

/-- No type that counts as analysed has an exposed wide member, for a program with these types. -/
def Registry.Cleared (reg : Registry) (types : MessageMembers → Prop) : Prop :=
  ∀ T, types T → reg.alreadyAnalyzed T.messageName = true → ¬Exposed T.members

/-- What a run of `AnalyzeType` on `T` owes a cleared registry: to leave it cleared, and to throw
exactly if `T` has an exposed wide member. -/
def Refuses (types : MessageMembers → Prop) (T : MessageMembers)
    (run : Except Fault Unit × Registry) : Prop :=
  run.2.Cleared types ∧
    ((run.1 = .ok () ∧ ¬Exposed T.members) ∨ (run.1 = .error unsupportedKind ∧ Exposed T.members))

theorem Registry.Cleared.setAnalyzed {reg : Registry} (h : reg.Cleared types)
    (hdistinct : ∀ S, types S → S.messageName = T.messageName → S = T)
    (hT : ¬Exposed T.members) : (reg.setAnalyzed T.messageName).Cleared types := by
  intro S hS hmem
  rw [Registry.alreadyAnalyzed, Registry.setAnalyzed, decide_eq_true_iff,
    Finset.mem_insert] at hmem
  rcases hmem with heq | hold
  · rwa [hdistinct S hS heq]
  · exact h S hS (decide_eq_true hold)

/-- The loop refuses.  `hrest` is the loop invariant: what has been passed is neither a string nor
wide, so that an exposed member can only be further on. -/
theorem analyzeMembers_refuses (hdistinct : ∀ S, types S → S.messageName = T.messageName → S = T)
    (hsub : ∀ S, T.HasMember S → ∀ reg : Registry, reg.Cleared types →
      Refuses types S (analyzeType countedSize S reg))
    {ms : List (MessageMember MessageMembers)} (hms : ∀ m ∈ ms, m ∈ T.members)
    (memcpyable : Bool) (a : ℕ) {reg : Registry} (hreg : reg.Cleared types)
    (hrest : Exposed T.members ↔ Exposed ms) :
    Refuses types T
      (analyzeMembers countedSize ms T.messageName T.sizeOf memcpyable a reg) := by
  induction ms generalizing memcpyable a reg with
  | nil =>
    have hT : ¬Exposed T.members := fun h => not_exposed_nil (hrest.mp h)
    have hleft := hreg.setAnalyzed hdistinct hT
    rw [analyzeMembers]
    split
    · exact ⟨hleft, .inl ⟨rfl, hT⟩⟩
    · exact ⟨hleft, .inl ⟨rfl, hT⟩⟩
  | cons m ms ih =>
    have hms' : ∀ m' ∈ ms, m' ∈ T.members := fun m' hm' => hms m' (.tail _ hm')
    rw [exposed_cons_iff] at hrest
    obtain ⟨s, p | _ | _ | _ | sub, off⟩ := m
    · rw [analyzeMembers]
      exact ih hms' _ _ hreg (by simpa using hrest)
    · rw [analyzeMembers]
      exact ⟨hreg, .inl ⟨rfl, by simpa using hrest⟩⟩
    · rw [analyzeMembers]
      exact ⟨hreg, .inr ⟨rfl, by simpa using hrest⟩⟩
    · rw [analyzeMembers]
      exact ⟨hreg, .inr ⟨rfl, by simpa using hrest⟩⟩
    · have hrun := hsub sub ⟨_, hms _ (.head _), rfl⟩ reg hreg
      rw [analyzeMembers]
      rcases hrunEq : analyzeType countedSize sub reg with ⟨_ | _, reg₁⟩
      · rw [hrunEq] at hrun
        obtain ⟨hleft, ⟨hok, -⟩ | ⟨herr, hexposed⟩⟩ := hrun
        · cases hok
        · cases herr
          exact ⟨hleft, .inr ⟨rfl, hrest.mpr (.inr (.inl ⟨sub, rfl, hexposed⟩))⟩⟩
      · rw [hrunEq] at hrun
        obtain ⟨hleft, ⟨-, hclear⟩ | ⟨herr, -⟩⟩ := hrun
        · have hnext : Exposed T.members ↔ Exposed ms := by simpa [hclear] using hrest
          simp only
          split
          · exact ih hms' _ _ hleft hnext
          · exact ih hms' _ _ hleft hnext
        · cases herr

/-- `AnalyzeType` refuses. -/
theorem analyzeType_refuses (hclosed : ∀ T S, types T → T.HasMember S → types S)
    (hdistinct : ∀ S T, types S → types T → S.messageName = T.messageName → S = T)
    (hT : types T) {reg : Registry} (hreg : reg.Cleared types) :
    Refuses types T (analyzeType countedSize T reg) := by
  induction T using MessageMembers.induction generalizing reg with
  | h T ih =>
    have hloop := analyzeMembers_refuses (T := T) (fun S hS => hdistinct S T hS hT)
      (fun S hS reg hreg => ih S hS (hclosed T S hT hS) hreg) (fun _ hm => hm) true 0 hreg Iff.rfl
    obtain ⟨name, size, ms⟩ := T
    rw [analyzeType]
    split
    · rename_i hanalyzed
      exact ⟨hreg, .inl ⟨rfl, hreg _ hT hanalyzed⟩⟩
    · exact hloop

/-- **A constructor throws exactly if the walk comes to a wide member**, whatever was analysed
before. -/
theorem analyze_verdict (countedSize : Primitive → ℕ) {calls : List MessageMembers}
    (hnames : DistinctNames (T :: calls)) :
    ((analyzeType countedSize T (registryAfter countedSize calls)).1 = .ok () ∧
        ¬Exposed T.members) ∨
      ((analyzeType countedSize T (registryAfter countedSize calls)).1 = .error unsupportedKind ∧
        Exposed T.members) := by
  have hcleared : (registryAfter countedSize calls).Cleared (Mentioned (T :: calls)) := by
    refine registryAfter_induction (P := fun reg => reg.Cleared (Mentioned (T :: calls))) ?_
      fun S hS reg hreg => (analyzeType_refuses (fun _ _ => Mentioned.member)
        (fun _ _ => hnames.eq) ⟨S, .tail _ hS, .self S⟩ hreg).1
    intro S _ hanalyzed
    simp [Registry.alreadyAnalyzed, Registry.empty] at hanalyzed
  exact (analyzeType_refuses (fun _ _ => Mentioned.member) (fun _ _ => hnames.eq)
    ⟨T, .head _, .self T⟩ hcleared).2

end Verdict

/-! ## What the encoders and decoders never throw -/

/-- An error other than the refusal of a type: memory ran out, or the behaviour is undefined. -/
def Fault.NotRefusal (e : Fault) : Prop := ∀ what, e ≠ .logicError what

theorem notRefusal_undefined : Fault.undefined.NotRefusal := by rintro _ ⟨⟩

theorem notRefusal_allocation : Fault.allocation.NotRefusal := by rintro _ ⟨⟩

section Encoders

variable {M : Platform} {abi : Abi} {ops : SerializerOps M abi} {reg : Registry}

/-- The templates of a serializer never refuse. -/
structure SerializerOps.NeverRefuse (ops : SerializerOps M abi) : Prop where
  singleString : ops.singleString.FailsIn Fault.NotRefusal
  dynamicArray : ∀ p, (ops.dynamicArray p).FailsIn Fault.NotRefusal
  dynamicArrayString : ops.dynamicArrayString.FailsIn Fault.NotRefusal
  dynamicArrayMessage : ∀ {marked size elem}, elem.FailsIn Fault.NotRefusal →
    (ops.dynamicArrayMessage marked size elem).FailsIn Fault.NotRefusal

theorem appendBytes_failsIn (n : ℕ) : (appendBytes M n).FailsIn Fault.NotRefusal := by
  intro data out e he
  rw [appendBytes] at he
  split at he
  · cases he
  · cases he
    exact notRefusal_undefined

theorem serializeArrayMessage_failsIn {elem : Encoder Cell UInt8 Fault}
    (h : elem.FailsIn Fault.NotRefusal) (marked : Bool) (size n : ℕ) :
    (serializeArrayMessage M marked size n elem).FailsIn Fault.NotRefusal := by
  intro data out e he
  rw [serializeArrayMessage] at he
  split at he
  · exact appendBytes_failsIn _ data out e he
  · exact h.each size n data out e he

theorem serialize_failsIn {s : ArrayShape} {single array dynamicArray : Encoder Cell UInt8 Fault}
    (hsingle : single.FailsIn Fault.NotRefusal) (harray : array.FailsIn Fault.NotRefusal)
    (hdynamic : dynamicArray.FailsIn Fault.NotRefusal) :
    (serialize s single array dynamicArray).FailsIn Fault.NotRefusal := by
  rw [serialize]
  split_ifs
  · exact harray
  · exact hdynamic
  · exact hsingle

theorem serializeMembers_failsIn {ms : List (MessageMember MessageMembers)}
    (h : ∀ m ∈ ms, Encoder.FailsIn (serializeMember ops reg m) Fault.NotRefusal) :
    Encoder.FailsIn (serializeMembers ops reg ms) Fault.NotRefusal := by
  induction ms with
  | nil =>
    intro data out e he
    cases he
  | cons m ms ih =>
    intro data out e
    rw [serializeMembers]
    exact error_of_bind (h m (.head _) _ out) fun out' _ =>
      ih (fun m' hm' => h m' (.tail _ hm')) data out' e

/-- **No storage makes a serializer refuse a supported type.** -/
theorem serializeMessage_failsIn (hops : ops.NeverRefuse) {T : MessageMembers} (h : Supported T) :
    Encoder.FailsIn (serializeMessage ops reg T) Fault.NotRefusal := by
  induction T using MessageMembers.induction with
  | h T ih =>
    have hmember : ∀ m ∈ T.members,
        Encoder.FailsIn (serializeMember ops reg m) Fault.NotRefusal := by
      rintro ⟨s, p | _ | _ | _ | sub, off⟩ hm
      · exact serialize_failsIn (appendBytes_failsIn _) (appendBytes_failsIn _)
          (hops.dynamicArray p)
      · exact serialize_failsIn hops.singleString (hops.singleString.each _ _)
          hops.dynamicArrayString
      · exact absurd rfl (h.kinds hm).1
      · exact absurd rfl (h.kinds hm).2
      · have hsub := ih sub ⟨_, hm, rfl⟩ (h.sub ⟨_, hm, rfl⟩)
        exact serialize_failsIn hsub (serializeArrayMessage_failsIn hsub _ _ _)
          (hops.dynamicArrayMessage hsub)
    intro data out e he
    by_cases hmark : reg.isMemcopyable T = true
    · rw [serializeMessage_marked hmark] at he
      exact appendBytes_failsIn _ data out e he
    · rw [serializeMessage_unmarked hmark] at he
      exact serializeMembers_failsIn hmember data out e he

end Encoders

theorem CppSerializer.serializeSingleString_failsIn :
    Encoder.FailsIn CppSerializer.serializeSingleString Fault.NotRefusal := by
  intro data out e he
  rw [CppSerializer.serializeSingleString] at he
  split at he
  · cases he
  · cases he
    exact notRefusal_undefined

theorem CppSerializer.serializeDynamicArray_failsIn {size : ℕ}
    {array : ℕ → Encoder Cell UInt8 Fault} (h : ∀ n, (array n).FailsIn Fault.NotRefusal) :
    Encoder.FailsIn (CppSerializer.serializeDynamicArray size array) Fault.NotRefusal := by
  intro data out e he
  rw [CppSerializer.serializeDynamicArray] at he
  split at he
  · exact h _ _ _ e he
  · cases he
    exact notRefusal_undefined

theorem CppSerializer.neverRefuse (M : Platform) : (CppSerializer.ops M).NeverRefuse where
  singleString := serializeSingleString_failsIn
  dynamicArray p := by
    have hfixed : Encoder.FailsIn
        (CppSerializer.serializeDynamicArray p.sizeof (serializeArray M p)) Fault.NotRefusal :=
      serializeDynamicArray_failsIn fun _ => appendBytes_failsIn _
    have hbool : Encoder.FailsIn serializeDynamicArrayBool Fault.NotRefusal := by
      intro data out e he
      rw [serializeDynamicArrayBool] at he
      split at he
      · cases he
      · cases he
        exact notRefusal_undefined
    cases p <;> first | exact hbool | exact hfixed
  dynamicArrayString :=
    serializeDynamicArray_failsIn fun _ => serializeSingleString_failsIn.each _ _
  dynamicArrayMessage {marked size elem} helem := by
    intro data out e he
    have hrun : serializeDynamicArrayMessage M marked size elem data out = .error e := he
    rw [serializeDynamicArrayMessage] at hrun
    split at hrun
    · dsimp only at hrun
      split at hrun
      · exact appendBytes_failsIn _ _ _ e hrun
      · exact helem.each _ _ _ _ e hrun
    · cases hrun
      exact notRefusal_undefined

theorem CSerializer.serializeDynamicArray_failsIn {array : ℕ → Encoder Cell UInt8 Fault}
    (h : ∀ n, (array n).FailsIn Fault.NotRefusal) :
    Encoder.FailsIn (CSerializer.serializeDynamicArray array) Fault.NotRefusal := by
  intro data out e he
  rw [CSerializer.serializeDynamicArray] at he
  split at he
  · exact h _ _ _ e he
  · cases he
    exact notRefusal_undefined

theorem CSerializer.neverRefuse (M : Platform) : (CSerializer.ops M).NeverRefuse where
  singleString := serializeDynamicArray_failsIn fun _ => appendBytes_failsIn _
  dynamicArray _ := serializeDynamicArray_failsIn fun _ => appendBytes_failsIn _
  dynamicArrayString := serializeDynamicArray_failsIn fun _ =>
    (serializeDynamicArray_failsIn fun _ => appendBytes_failsIn _).each _ _
  dynamicArrayMessage helem :=
    serializeDynamicArray_failsIn fun _ => serializeArrayMessage_failsIn helem _ _ _

section Decoders

variable {M : Platform} {abi : Abi} {ops : DeserializerOps} {reg : Registry}

/-- The templates of a deserializer never refuse. -/
structure DeserializerOps.NeverRefuse (ops : DeserializerOps) : Prop where
  singleString : ops.singleString.FailsIn Fault.NotRefusal
  dynamicArray : ∀ p, (ops.dynamicArray p).FailsIn Fault.NotRefusal
  dynamicArrayString : ops.dynamicArrayString.FailsIn Fault.NotRefusal
  dynamicArrayMessage : ∀ {marked size elem}, elem.FailsIn Fault.NotRefusal →
    (ops.dynamicArrayMessage marked size elem).FailsIn Fault.NotRefusal

theorem deserializeArraySize_failsIn (src : List UInt8) (e : Fault)
    (he : deserializeArraySize src = .error e) : e.NotRefusal := by
  rw [deserializeArraySize] at he
  split at he
  · cases he
  · cases he
    exact notRefusal_undefined

theorem copyBytes_failsIn (n : ℕ) : (copyBytes n).FailsIn Fault.NotRefusal := by
  intro data src e he
  rw [copyBytes] at he
  split at he
  · cases he
  · cases he
    exact notRefusal_undefined

theorem deserializeArrayMessage_failsIn {elem : Decoder Cell UInt8 Fault}
    (h : elem.FailsIn Fault.NotRefusal) (marked : Bool) (size n : ℕ) :
    (deserializeArrayMessage marked size n elem).FailsIn Fault.NotRefusal := by
  intro data src e he
  rw [deserializeArrayMessage] at he
  split at he
  · exact copyBytes_failsIn _ data src e he
  · exact h.each size n data src e he

theorem deserialize_failsIn {s : ArrayShape} {single array dynamicArray : Decoder Cell UInt8 Fault}
    (hsingle : single.FailsIn Fault.NotRefusal) (harray : array.FailsIn Fault.NotRefusal)
    (hdynamic : dynamicArray.FailsIn Fault.NotRefusal) :
    (deserialize s single array dynamicArray).FailsIn Fault.NotRefusal := by
  rw [deserialize]
  split_ifs
  · exact harray
  · exact hdynamic
  · exact hsingle

theorem deserializeMembers_failsIn {ms : List (MessageMember MessageMembers)}
    (h : ∀ m ∈ ms, Decoder.FailsIn (deserializeMember abi ops reg m) Fault.NotRefusal) :
    Decoder.FailsIn (deserializeMembers abi ops reg ms) Fault.NotRefusal := by
  induction ms with
  | nil =>
    intro data src e he
    cases he
  | cons m ms ih =>
    intro data src e
    rw [deserializeMembers]
    exact error_of_bind ((h m (.head _)).within _ data src) fun p _ =>
      ih (fun m' hm' => h m' (.tail _ hm')) p.1 p.2 e

/-- **No target and no input makes a deserializer refuse a supported type.** -/
theorem deserializeMessage_failsIn (hops : ops.NeverRefuse) {T : MessageMembers}
    (h : Supported T) : Decoder.FailsIn (deserializeMessage abi ops reg T) Fault.NotRefusal := by
  induction T using MessageMembers.induction with
  | h T ih =>
    have hmember : ∀ m ∈ T.members,
        Decoder.FailsIn (deserializeMember abi ops reg m) Fault.NotRefusal := by
      rintro ⟨s, p | _ | _ | _ | sub, off⟩ hm
      · exact deserialize_failsIn (copyBytes_failsIn _) (copyBytes_failsIn _)
          (hops.dynamicArray p)
      · exact deserialize_failsIn hops.singleString (hops.singleString.each _ _)
          hops.dynamicArrayString
      · exact absurd rfl (h.kinds hm).1
      · exact absurd rfl (h.kinds hm).2
      · have hsub := ih sub ⟨_, hm, rfl⟩ (h.sub ⟨_, hm, rfl⟩)
        exact deserialize_failsIn hsub (deserializeArrayMessage_failsIn hsub _ _ _)
          (hops.dynamicArrayMessage hsub)
    intro data src e he
    by_cases hmark : reg.isMemcopyable T = true
    · rw [deserializeMessage_marked hmark] at he
      exact copyBytes_failsIn _ data src e he
    · obtain ⟨name, size, ms⟩ := T
      rw [deserializeMessage, if_neg hmark] at he
      split at he
      · exact deserializeMembers_failsIn hmember data src e he
      · cases he
        exact notRefusal_undefined

end Decoders

namespace CppDeserializer

variable {M : Platform}

theorem grow_failsIn {limit size spare n : ℕ} {bytes : ℕ → ℕ} (e : Fault)
    (he : grow M limit bytes size spare n = .error e) : e.NotRefusal := by
  rw [grow] at he
  split at he
  · cases he
  · dsimp only at he
    split at he
    · cases he
    · cases he
      exact notRefusal_allocation

theorem deserializeSingleString_failsIn :
    Decoder.FailsIn (deserializeSingleString M) Fault.NotRefusal := by
  intro data src e he
  rw [deserializeSingleString] at he
  split at he
  · cases he
    exact notRefusal_undefined
  refine error_of_bind (deserializeArraySize_failsIn src) (fun p _ hrest => ?_) he
  dsimp only at hrest
  split at hrest
  · split at hrest
    · cases hrest
      exact notRefusal_undefined
    · refine error_of_bind grow_failsIn (fun room _ hrest => ?_) hrest
      split at hrest
      · cases hrest
      · cases hrest
        exact notRefusal_undefined
  · cases hrest

theorem resize_failsIn {sizeofT n spare : ℕ} {fill storage : List Cell} {relocate : Cell → Cell}
    (e : Fault) (he : resize M sizeofT fill relocate n storage spare = .error e) :
    e.NotRefusal := by
  rw [resize] at he
  dsimp only at he
  split at he
  · cases he
  · exact error_of_bind grow_failsIn (fun room _ hrest => by cases hrest) he

theorem deserializeDynamicArray_failsIn {sizeofT : ℕ} {fill : List Cell}
    {array : ℕ → Decoder Cell UInt8 Fault} (h : ∀ n, (array n).FailsIn Fault.NotRefusal) :
    Decoder.FailsIn (deserializeDynamicArray M sizeofT fill array) Fault.NotRefusal := by
  intro data src e he
  rw [deserializeDynamicArray] at he
  split at he
  · cases he
    exact notRefusal_undefined
  · refine error_of_bind (deserializeArraySize_failsIn src) (fun p _ hrest => ?_) he
    refine error_of_bind resize_failsIn (fun block _ hrest => ?_) hrest
    exact error_of_bind (h _ _ _) (fun _ _ hrest => by cases hrest) hrest

theorem reserve_failsIn {n size spare : ℕ} (e : Fault) (he : reserve M n size spare = .error e) :
    e.NotRefusal := by
  rw [reserve] at he
  split_ifs at he
  cases he
  exact notRefusal_allocation

theorem pushBack_failsIn (n : ℕ) (bits : List Bool) (room : ℕ) (src : List UInt8) (e : Fault)
    (he : pushBack M n bits room src = .error e) : e.NotRefusal := by
  induction n generalizing bits room src with
  | zero => cases he
  | succ n ih =>
    rcases src with _ | ⟨b, src⟩
    · cases room <;> cases he <;> exact notRefusal_undefined
    · cases room with
      | zero =>
        rw [pushBack] at he
        split at he
        · exact ih _ _ _ he
        · cases he
          exact notRefusal_allocation
      | succ room =>
        rw [pushBack] at he
        exact ih _ _ _ he

theorem deserializeDynamicArrayBool_failsIn :
    Decoder.FailsIn (deserializeDynamicArrayBool M) Fault.NotRefusal := by
  intro data src e he
  rw [deserializeDynamicArrayBool] at he
  split at he
  · cases he
    exact notRefusal_undefined
  · refine error_of_bind (deserializeArraySize_failsIn src) (fun p _ hrest => ?_) he
    refine error_of_bind reserve_failsIn (fun room _ hrest => ?_) hrest
    exact error_of_bind (pushBack_failsIn _ _ _ _) (fun _ _ hrest => by cases hrest) hrest

theorem deserializeDynamicArrayMessage_failsIn {marked : Bool} {size : ℕ}
    {elem : Decoder Cell UInt8 Fault} (h : elem.FailsIn Fault.NotRefusal) :
    Decoder.FailsIn (deserializeDynamicArrayMessage M marked size elem) Fault.NotRefusal := by
  intro data src e he
  rw [deserializeDynamicArrayMessage] at he
  split at he
  · cases he
    exact notRefusal_undefined
  · refine error_of_bind (deserializeArraySize_failsIn src) (fun p _ hrest => ?_) he
    refine error_of_bind resize_failsIn (fun block _ hrest => ?_) hrest
    dsimp only at hrest
    split at hrest
    · exact error_of_bind (copyBytes_failsIn _ _ _) (fun _ _ hrest => by cases hrest) hrest
    · exact error_of_bind (h.each _ _ _ _) (fun _ _ hrest => by cases hrest) hrest

theorem neverRefuse (M : Platform) : (ops M).NeverRefuse where
  singleString := deserializeSingleString_failsIn
  dynamicArray p := by
    have hfixed : Decoder.FailsIn
        (deserializeDynamicArray M p.sizeof (zeros p.sizeof) (deserializeArray p))
        Fault.NotRefusal := deserializeDynamicArray_failsIn fun _ => copyBytes_failsIn _
    have hbool : Decoder.FailsIn (deserializeDynamicArrayBool M) Fault.NotRefusal :=
      deserializeDynamicArrayBool_failsIn
    cases p <;> first | exact hbool | exact hfixed
  dynamicArrayString :=
    deserializeDynamicArray_failsIn fun _ => deserializeSingleString_failsIn.each _ _
  dynamicArrayMessage := deserializeDynamicArrayMessage_failsIn

end CppDeserializer

namespace CDeserializer

variable {M : Platform}

theorem deserializeSingleString_failsIn :
    Decoder.FailsIn (deserializeSingleString M) Fault.NotRefusal := by
  intro data src e he
  rw [deserializeSingleString] at he
  split at he
  · cases he
    exact notRefusal_undefined
  refine error_of_bind (deserializeArraySize_failsIn src) (fun p _ hrest => ?_) he
  dsimp only at hrest
  split at hrest
  · cases hrest
  · cases hrest
    exact notRefusal_undefined

theorem deserializeDynamicArray_failsIn {sizeofT : ℕ} {array : ℕ → Decoder Cell UInt8 Fault}
    (h : ∀ n, (array n).FailsIn Fault.NotRefusal) :
    Decoder.FailsIn (deserializeDynamicArray M sizeofT array) Fault.NotRefusal := by
  intro data src e he
  rw [deserializeDynamicArray] at he
  split at he
  · cases he
    exact notRefusal_undefined
  refine error_of_bind (deserializeArraySize_failsIn src) (fun p _ hrest => ?_) he
  dsimp only at hrest
  split_ifs at hrest
  · exact error_of_bind (h _ _ _) (fun _ _ hrest => by cases hrest) hrest
  · cases hrest
    exact notRefusal_allocation

theorem deserializeDynamicArrayString_failsIn :
    Decoder.FailsIn (deserializeDynamicArrayString M) Fault.NotRefusal := by
  intro data src e he
  rw [deserializeDynamicArrayString] at he
  split at he
  · cases he
    exact notRefusal_undefined
  refine error_of_bind (deserializeArraySize_failsIn src) (fun p _ hrest => ?_) he
  dsimp only at hrest
  split_ifs at hrest
  split at hrest
  · cases hrest
    exact notRefusal_undefined
  · exact error_of_bind (deserializeSingleString_failsIn.each _ _ _ _)
      (fun _ _ hrest => by cases hrest) hrest

theorem neverRefuse (M : Platform) : (ops M).NeverRefuse where
  singleString := deserializeSingleString_failsIn
  dynamicArray _ := deserializeDynamicArray_failsIn fun _ => copyBytes_failsIn _
  dynamicArrayString := deserializeDynamicArrayString_failsIn
  dynamicArrayMessage {marked size _} helem :=
    deserializeDynamicArray_failsIn fun n => deserializeArrayMessage_failsIn helem marked size n

end CDeserializer

namespace Language

variable {l : Language} {M : Platform} {reg : Registry} {T : MessageMembers}

theorem serialize_ne_logicError (h : Supported T) (data : List Cell) (what : String) :
    l.serialize M reg T data ≠ .error (.logicError what) := by
  intro he
  cases l with
  | cpp => exact serializeMessage_failsIn (CppSerializer.neverRefuse M) h data [] _ he what rfl
  | c => exact serializeMessage_failsIn (CSerializer.neverRefuse M) h data [] _ he what rfl

theorem deserialize_ne_logicError (h : Supported T) (message : List Cell) (src : List UInt8)
    (what : String) : l.deserialize M reg T message src ≠ .error (.logicError what) := by
  intro he
  cases l with
  | cpp =>
    exact deserializeMessage_failsIn (CppDeserializer.neverRefuse M) h message src _ he what rfl
  | c => exact deserializeMessage_failsIn (CDeserializer.neverRefuse M) h message src _ he what rfl

theorem serialize_eq (h : RosidlLayout l.abi T) {data : List Cell} {v : Value}
    (hv : contentMessage l.abi T data = some v) :
    l.serialize M reg T data = .ok (wireImage M l.abi reg T data) := by
  cases l with
  | cpp => exact CppSerializer.serialize_eq h hv
  | c => exact CSerializer.serialize_eq h hv

/-- What a process sends, another one of the same language reads to its end, if they agree on
extents, as they always do in C++. -/
theorem deserialize_serialize {Ms Mr : Platform} (hMr : Mr.Ample)
    {sender receiver : List MessageMembers} (h : Peers l.abi T sender receiver)
    (hsame : l = .c → SameExtent (registryAfter l.countedSize sender)
      (registryAfter l.countedSize receiver) T)
    {data message : List Cell} {v : Value} (hv : contentMessage l.abi T data = some v)
    (hroom : l.Room T message v) (rest : List UInt8) :
    ∃ message', l.deserialize Mr (registryAfter l.countedSize receiver) T message
      (wireImage Ms l.abi (registryAfter l.countedSize sender) T data ++ rest) =
        .ok (message', rest) := by
  cases l with
  | cpp =>
    obtain ⟨old, hold, hsettled, hstorable⟩ := hroom
    obtain ⟨message', hrun, -⟩ := CppDeserializer.deserialize_encoded hMr h.layout h.supported
      h.receiver_marksPod (h.encodes h.cpp_sameExtent hv) hold hsettled hstorable rest
    exact ⟨message', hrun⟩
  | c =>
    obtain ⟨message', hrun, -⟩ := CDeserializer.deserialize_encoded hMr h.layout
      h.receiver_marksPod (h.encodes (hsame rfl) hv) hroom rest
    exact ⟨message', hrun⟩

end Language

/-! ## Refused up front -/

/-- `T` is refused when a serializer or a deserializer for it is constructed, or not at all.  The
processes may have come across other types before and after. -/
structure RefusedUpFront (l : Language) (T : MessageMembers) : Prop where
  /-- A constructed serializer refuses no storage, and serializes every value. -/
  serialize : ∀ before after, DistinctNames (before ++ T :: after) →
    (l.constructSerializer (registryAfter l.countedSize before) T).1 = .ok () → ∀ M data,
      (∀ what, l.serialize M (registryAfter l.countedSize (before ++ T :: after)) T data ≠
        .error (.logicError what)) ∧
      (∀ v, contentMessage l.abi T data = some v → ∃ w,
        l.serialize M (registryAfter l.countedSize (before ++ T :: after)) T data = .ok w)
  /-- A constructed deserializer refuses no input, and decodes what a serializer has made. -/
  deserialize : ∀ before after, DistinctNames (before ++ T :: after) →
    (l.constructDeserializer (registryAfter l.countedSize before) T).1 = .ok () → ∀ M message,
      (∀ src what, l.deserialize M (registryAfter l.countedSize (before ++ T :: after)) T message
        src ≠ .error (.logicError what)) ∧
      (∀ sender Ms data v w rest, DistinctNames sender → T ∈ sender → M.Ample →
        (l = .c → SameExtent (registryAfter l.countedSize sender)
          (registryAfter l.countedSize (before ++ T :: after)) T) →
        contentMessage l.abi T data = some v →
        l.serialize Ms (registryAfter l.countedSize sender) T data = .ok w →
        l.Room T message v → ∃ message',
          l.deserialize M (registryAfter l.countedSize (before ++ T :: after)) T message
            (w ++ rest) = .ok (message', rest))
  /-- A wide member, wherever it is, is enough for the constructors to throw. -/
  construct : ¬Supported T → ∀ before, DistinctNames (T :: before) →
    (l.constructSerializer (registryAfter l.countedSize before) T).1 = .error unsupportedKind ∧
      (l.constructDeserializer (registryAfter l.countedSize before) T).1 = .error unsupportedKind

theorem DistinctNames.mono {calls calls' : List MessageMembers} (h : DistinctNames calls)
    (hsub : calls' ⊆ calls) : DistinctNames calls' :=
  fun A hA B hB => h A (hsub hA) B (hsub hB)

/-- **A type is refused up front exactly if it has no wide member at all, or one that no string
stands before.** -/
theorem refusedUpFront_iff {l : Language} {T : MessageMembers} (h : RosidlLayout l.abi T)
    (hnames : DistinctNames [T]) : RefusedUpFront l T ↔ Supported T ∨ Exposed T.members := by
  have hverdict : ∀ before, DistinctNames (T :: before) →
      (analyzeType l.countedSize T (registryAfter l.countedSize before)).1 = .ok () →
      ¬Exposed T.members := by
    intro before hbefore hok
    rcases analyze_verdict l.countedSize hbefore with ⟨-, hclear⟩ | ⟨herr, -⟩
    · exact hclear
    · rw [hok] at herr
      cases herr
  constructor
  · intro hfront
    by_contra hneither
    rw [not_or] at hneither
    have hthrows := (hfront.construct hneither.1 [] hnames).1
    rcases analyze_verdict l.countedSize hnames with ⟨hok, -⟩ | ⟨-, hexposed⟩
    · rw [l.constructSerializer_eq, hok] at hthrows
      cases hthrows
    · exact hneither.2 hexposed
  · intro hT
    have hsupported : ∀ before after, DistinctNames (before ++ T :: after) →
        (analyzeType l.countedSize T (registryAfter l.countedSize before)).1 = .ok () →
        Supported T := by
      intro before after hall hok
      exact hT.resolve_right (hverdict before (hall.mono (by grind)) hok)
    refine ⟨fun before after hall hok M data => ?_, fun before after hall hok M message => ?_,
      fun hno before hbefore => ?_⟩
    · rw [l.constructSerializer_eq] at hok
      exact ⟨Language.serialize_ne_logicError (hsupported before after hall hok) data,
        fun v hv => ⟨_, Language.serialize_eq h hv⟩⟩
    · rw [l.constructDeserializer_eq] at hok
      have hsupp := hsupported before after hall hok
      refine ⟨Language.deserialize_ne_logicError hsupp message, ?_⟩
      intro sender Ms data v w rest hsender hmem hM hsame hv hser hroom
      obtain rfl := Except.ok.inj ((Language.serialize_eq h hv).symm.trans hser)
      exact Language.deserialize_serialize hM
        ⟨h, hsupp, hsender, hall, hmem, by simp⟩ hsame hv hroom rest
    · rw [l.constructSerializer_eq, l.constructDeserializer_eq]
      rcases analyze_verdict l.countedSize hbefore with ⟨-, hclear⟩ | ⟨herr, -⟩
      · exact absurd (hT.resolve_left hno) hclear
      · exact ⟨herr, herr⟩

/-- A supported type is not refused. -/
theorem construct_of_supported {l : Language} {T : MessageMembers} {calls : List MessageMembers}
    (h : Supported T) (hnames : DistinctNames (T :: calls)) :
    (l.constructSerializer (registryAfter l.countedSize calls) T).1 = .ok () ∧
      (l.constructDeserializer (registryAfter l.countedSize calls) T).1 = .ok () := by
  rw [l.constructSerializer_eq, l.constructDeserializer_eq]
  rcases analyze_verdict l.countedSize hnames with ⟨hok, -⟩ | ⟨-, hexposed⟩
  · exact ⟨hok, hok⟩
  · exact absurd hexposed h.not_exposed

/-- A string, and behind it a wide string. -/
def mixedText : MessageMembers := .mk 6 64 [⟨.single, .string, 0⟩, ⟨.single, .wstring, 32⟩]

/-- The same the other way round. -/
def wideText : MessageMembers := .mk 7 64 [⟨.single, .wstring, 0⟩, ⟨.single, .string, 32⟩]

theorem layout_mixedText (l : Language) : RosidlLayout l.abi mixedText :=
  .mk (by decide) (by decide) (by cases l <;> decide)
    (by simp [MessageMembers.HasMember, mixedText])

theorem layout_wideText (l : Language) : RosidlLayout l.abi wideText :=
  .mk (by decide) (by decide) (by cases l <;> decide)
    (by simp [MessageMembers.HasMember, wideText])

theorem distinctNames_mixedText : DistinctNames [mixedText] :=
  distinctNames_of_types [mixedText] (by simp [MessageMembers.HasMember, mixedText])
    (by simp) (by simp)

theorem distinctNames_wideText : DistinctNames [wideText] :=
  distinctNames_of_types [wideText] (by simp [MessageMembers.HasMember, wideText])
    (by simp) (by simp)

theorem refusedUpFront_iff_wideText :
    RefusedUpFront .c wideText ↔ Supported wideText ∨ Exposed wideText.members :=
  refusedUpFront_iff (layout_wideText .c) distinctNames_wideText

/-- An empty C++ string, and room for a wide one. -/
def mixedTextCpp : List Cell := object 32 (.string [] 15 true) ++ zeros 32

/-- An empty C string, and room for a wide one. -/
def mixedTextC : List Cell := object 24 (.sequence [.byte 0] 0 1) ++ zeros 40

/-- The string ends the analysis before it comes to the wide string, so that the type is taken for
a supported one until a message is published or taken. -/
theorem mixedText_not_refused :
    (∀ l : Language, RosidlLayout l.abi mixedText ∧
      (l.constructSerializer .empty mixedText).1 = .ok () ∧
      (l.constructDeserializer .empty mixedText).1 = .ok () ∧ ¬RefusedUpFront l mixedText) ∧
    DistinctNames [mixedText] ∧
    CppSerializer.serialize .generous (registryAfter cppCountedSize [mixedText]) mixedText
      mixedTextCpp = .error (.logicError "Wide character/string serialization is unsupported.") ∧
    CDeserializer.deserialize .generous (registryAfter cCountedSize [mixedText]) mixedText
      mixedTextC (sizeBytes 0) =
        .error (.logicError "Wide character/string deserialization is unsupported.") := by
  have hthrows : CppSerializer.serialize .generous (registryAfter cppCountedSize [mixedText])
      mixedText mixedTextCpp =
        .error (.logicError "Wide character/string serialization is unsupported.") := rfl
  have hthrows' : CDeserializer.deserialize .generous (registryAfter cCountedSize [mixedText])
      mixedText mixedTextC (sizeBytes 0) =
        .error (.logicError "Wide character/string deserialization is unsupported.") := rfl
  refine ⟨fun l => ⟨layout_mixedText l, by cases l <;> rfl, by cases l <;> rfl, fun h => ?_⟩,
    distinctNames_mixedText, hthrows, hthrows'⟩
  cases l with
  | cpp =>
    exact (h.serialize [] [] distinctNames_mixedText rfl .generous mixedTextCpp).1 _ hthrows
  | c =>
    exact (h.deserialize [] [] distinctNames_mixedText rfl .generous mixedTextC).1 _ _ hthrows'

end RmwEcal
