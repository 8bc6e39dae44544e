import RmwEcal.Dynamic.UniqueReading
import RmwEcal.Shared.TakeCalls

/-!
# Type supports in a process

A process has four registries, for the serializers and the deserializers of either language, and
every type support that is created, for whatever type, adds to two of them; so does every call of
`rmw_serialize` and `rmw_deserialize` to one.  A message is serialized with what is in the registry
at that time.

For plain types this makes no difference.  A message is published in the plain encoding of its
value, and `rmw_serialize` makes the same bytes of it, in every process and at any time; and whoever
is given them gets the value back (`serialized_paths_agree`).  So messages that are passed on, from
process to process, stay what they are (`forwarded`).
-/

set_option autoImplicit false

namespace RmwEcal

/-! ## Registries -/

/-- The registries of a process. -/
structure Registries where
  /-- Of `CppSerializer` and `CSerializer`. -/
  serializer : Language → Registry
  /-- Of `CppDeserializer` and `CDeserializer`. -/
  deserializer : Language → Registry

namespace Registries

/-- Nothing has been analysed. -/
def empty : Registries := ⟨fun _ => .empty, fun _ => .empty⟩

/-- `CreateSerializer`, for the members of a type. -/
def createSerializer (r : Registries) (l : Language) (T : MessageMembers) :
    Except Fault Unit × Registries :=
  let (result, reg) := l.constructSerializer (r.serializer l) T
  (result, { r with serializer := Function.update r.serializer l reg })

/-- `CreateDeserializer`. -/
def createDeserializer (r : Registries) (l : Language) (T : MessageMembers) :
    Except Fault Unit × Registries :=
  let (result, reg) := l.constructDeserializer (r.deserializer l) T
  (result, { r with deserializer := Function.update r.deserializer l reg })

/-- Only these types have been analysed. -/
structure Within (r : Registries) (all : Language → List MessageMembers) : Prop where
  serializer : ∀ l, ∃ calls ⊆ all l, r.serializer l = registryAfter l.countedSize calls
  deserializer : ∀ l, ∃ calls ⊆ all l, r.deserializer l = registryAfter l.countedSize calls

variable {r : Registries} {all : Language → List MessageMembers} {l : Language}
  {T : MessageMembers}

theorem within_empty (all : Language → List MessageMembers) : empty.Within all :=
  ⟨fun _ => ⟨[], List.nil_subset _, rfl⟩, fun _ => ⟨[], List.nil_subset _, rfl⟩⟩

theorem registryAfter_concat (countedSize : Primitive → ℕ) (calls : List MessageMembers)
    (T : MessageMembers) : registryAfter countedSize (calls ++ [T]) =
      (analyzeType countedSize T (registryAfter countedSize calls)).2 := by
  rw [registryAfter, List.foldl_append]
  rfl

/-- One more type does not change that. -/
theorem Within.createSerializer (h : r.Within all) (hT : T ∈ all l) :
    (r.createSerializer l T).2.Within all := by
  refine ⟨fun l' => ?_, h.deserializer⟩
  by_cases hl : l' = l
  · subst hl
    obtain ⟨calls, hsub, hreg⟩ := h.serializer l'
    refine ⟨calls ++ [T], List.append_subset.mpr ⟨hsub, by simpa using hT⟩, ?_⟩
    rw [registryAfter_concat, ← hreg, ← l'.constructSerializer_eq]
    exact Function.update_self ..
  · obtain ⟨calls, hsub, hreg⟩ := h.serializer l'
    exact ⟨calls, hsub, (Function.update_of_ne hl ..).trans hreg⟩

theorem Within.createDeserializer (h : r.Within all) (hT : T ∈ all l) :
    (r.createDeserializer l T).2.Within all := by
  refine ⟨h.serializer, fun l' => ?_⟩
  by_cases hl : l' = l
  · subst hl
    obtain ⟨calls, hsub, hreg⟩ := h.deserializer l'
    refine ⟨calls ++ [T], List.append_subset.mpr ⟨hsub, by simpa using hT⟩, ?_⟩
    rw [registryAfter_concat, ← hreg, ← l'.constructDeserializer_eq]
    exact Function.update_self ..
  · obtain ⟨calls, hsub, hreg⟩ := h.deserializer l'
    exact ⟨calls, hsub, (Function.update_of_ne hl ..).trans hreg⟩

end Registries

/-! ## Type supports -/

/-- What is thrown. -/
inductive Failure where
  /-- By a factory. -/
  | exception (e : Exception)
  /-- By a serializer or a deserializer, or it is undefined. -/
  | fault (f : Fault)

/-- `rosidl_message_type_support_t`: what `get_message_typesupport_handle` finds for the identifiers
of the two introspections. -/
structure RosidlMessageTypeSupport where
  /-- For `rosidl_typesupport_introspection_cpp`. -/
  cpp : Option MessageMembers
  /-- For `rosidl_typesupport_introspection_c`. -/
  c : Option MessageMembers

/-- `CppMessageTypeSupport` or `CMessageTypeSupport`. -/
structure MessageTypeSupport where
  /-- Which of the two. -/
  language : Language
  /-- The members of `type_support_`. -/
  members : MessageMembers

/-- The choice that all factories make. -/
def RosidlMessageTypeSupport.resolve (typeSupport : RosidlMessageTypeSupport) :
    Except Failure MessageTypeSupport :=
  match typeSupport.cpp with
  | some members => .ok ⟨.cpp, members⟩
  | none => match typeSupport.c with
    | some members => .ok ⟨.c, members⟩
    | none => .error (.exception (.runtimeError "Unsupported type support."))

/-- `CustomTypeSupportFactory::Create`: a serializer first, then a deserializer. -/
def CustomTypeSupportFactory.create (r : Registries) (typeSupport : RosidlMessageTypeSupport) :
    Except Failure MessageTypeSupport × Registries :=
  match typeSupport.resolve with
  | .error e => (.error e, r)
  | .ok ts => match r.createSerializer ts.language ts.members with
    | (.error f, r) => (.error (.fault f), r)
    | (.ok (), r) => match r.createDeserializer ts.language ts.members with
      | (.error f, r) => (.error (.fault f), r)
      | (.ok (), r) => (.ok ts, r)

namespace MessageTypeSupport

/-- `Serialize`. -/
def serialize (M : Platform) (r : Registries) (ts : MessageTypeSupport) (data : List Cell) :
    Except Fault (List UInt8) :=
  ts.language.serialize M (r.serializer ts.language) ts.members data

/-- `Deserialize`.  What is behind the encoding is not looked at. -/
def deserialize (M : Platform) (r : Registries) (ts : MessageTypeSupport) (message : List Cell)
    (serializedData : List UInt8) : Except Fault (List Cell) :=
  (ts.language.deserialize M (r.deserializer ts.language) ts.members message serializedData).map
    Prod.fst

/-- The type is plain in its language and one of the types of the program. -/
structure Plain (ts : MessageTypeSupport) (all : Language → List MessageMembers) : Prop where
  known : ts.language.Known ts.members (all ts.language)
  plain : ts.language.Plain ts.members

/-- What a message holds. -/
def content (ts : MessageTypeSupport) (data : List Cell) : Option Value :=
  contentMessage ts.language.abi ts.members data

/-- There is a message that holds the value. -/
def Holds (ts : MessageTypeSupport) : Value → Prop := ts.language.Holds ts.members

/-- A message that has just been constructed, with strings and sequences empty. -/
def Fresh (ts : MessageTypeSupport) : List Cell → Prop := ts.language.Fresh ts.members

section Plain

variable {ts : MessageTypeSupport} {all : Language → List MessageMembers} {M : Platform}
  {r : Registries} {v : Value} {data : List Cell}

/-- **A plain type is serialized in the plain encoding**, at any time. -/
theorem Plain.serialize_eq (h : ts.Plain all) (hr : r.Within all) (hv : ts.content data = some v) :
    ts.serialize M r data = .ok v.wire := by
  obtain ⟨calls, hcalls, hreg⟩ := hr.serializer ts.language
  rw [serialize, hreg, h.plain.serialize_eq h.known hcalls hv]

/-- **The plain encoding is read as the value.** -/
theorem Plain.deserialize_wire (h : ts.Plain all) (hM : M.Ample) (hr : r.Within all)
    (hv : ts.Holds v) (hdata : ts.Fresh data) :
    ∃ message, ts.deserialize M r data v.wire = .ok message ∧ ts.content message = some v := by
  obtain ⟨calls, hcalls, hreg⟩ := hr.deserializer ts.language
  obtain ⟨message, hrun, hcontent⟩ := h.plain.deserialize_wire hM h.known hcalls hv hdata []
  refine ⟨message, ?_, hcontent⟩
  rw [deserialize, hreg, ← List.append_nil v.wire, hrun]
  rfl

/-- The encodings of different values differ. -/
theorem Plain.wire_inj (h : ts.Plain all) {v' : Value} (hv : ts.Holds v) (hv' : ts.Holds v')
    (heq : v.wire = v'.wire) : v = v' :=
  (h.plain.wire_inj h.known hv hv' (congrArg (· ++ []) heq)).1

theorem Plain.construct (h : ts.Plain all) (hr : r.Within all) :
    (r.createSerializer ts.language ts.members).1 = .ok () ∧
      (r.createDeserializer ts.language ts.members).1 = .ok () := by
  have hok : ∀ calls ⊆ all ts.language, DistinctNames (ts.members :: calls) := fun calls hcalls =>
    h.known.names.mono (List.cons_subset.mpr ⟨h.known.mem, hcalls⟩)
  obtain ⟨calls, hcalls, hreg⟩ := hr.serializer ts.language
  obtain ⟨calls', hcalls', hreg'⟩ := hr.deserializer ts.language
  rw [Registries.createSerializer, Registries.createDeserializer, hreg, hreg']
  exact ⟨(construct_of_supported h.known.supported (hok calls hcalls)).1,
    (construct_of_supported h.known.supported (hok calls' hcalls')).2⟩

end Plain

end MessageTypeSupport

/-! ## `rmw_serialize` and `rmw_deserialize` -/

open TakeCalls (RmwSerializedMessage)

/-- `rmw_serialize`, for arguments that are there. -/
def rmwSerialize (M : Platform) (r : Registries) (rosMessage : List Cell)
    (typeSupport : RosidlMessageTypeSupport) : Except Failure RmwSerializedMessage × Registries :=
  match typeSupport.resolve with
  | .error e => (.error e, r)
  | .ok ts => match r.createSerializer ts.language ts.members with
    | (.error f, r) => (.error (.fault f), r)
    | (.ok (), r) => match ts.serialize M r rosMessage with
      | .error f => (.error (.fault f), r)
      | .ok bytes => (.ok ⟨bytes, bytes.length, bytes.length⟩, r)

/-- What the length of a serialized message says there is in its buffer. -/
def bytesOf (serializedMessage : RmwSerializedMessage) : List UInt8 :=
  serializedMessage.buffer.take serializedMessage.bufferLength

/-- `rmw_deserialize`. -/
def rmwDeserialize (M : Platform) (r : Registries) (serializedMessage : RmwSerializedMessage)
    (typeSupport : RosidlMessageTypeSupport) (rosMessage : List Cell) :
    Except Failure (List Cell) × Registries :=
  match typeSupport.resolve with
  | .error e => (.error e, r)
  | .ok ts => match r.createDeserializer ts.language ts.members with
    | (.error f, r) => (.error (.fault f), r)
    | (.ok (), r) => match ts.deserialize M r rosMessage (bytesOf serializedMessage) with
      | .error f => (.error (.fault f), r)
      | .ok message => (.ok message, r)

/-- A process that passes messages on. -/
structure Forwarder where
  /-- Where it runs. -/
  platform : Platform
  registries : Registries
  /-- What it takes the messages for. -/
  typeSupport : RosidlMessageTypeSupport
  /-- The message that it fills. -/
  rosMessage : List Cell

/-- `rmw_deserialize`, and `rmw_serialize` of what comes out. -/
def Forwarder.forward (f : Forwarder) (serializedMessage : RmwSerializedMessage) :
    Except Failure RmwSerializedMessage :=
  match rmwDeserialize f.platform f.registries serializedMessage f.typeSupport f.rosMessage with
  | (.error e, _) => .error e
  | (.ok rosMessage, r) => (rmwSerialize f.platform r rosMessage f.typeSupport).1

/-- One process after the other passes a message on. -/
def forwardThrough (fs : List Forwarder) (serializedMessage : RmwSerializedMessage) :
    Except Failure RmwSerializedMessage :=
  fs.foldlM (fun serializedMessage f => f.forward serializedMessage) serializedMessage

section Agree

variable {all all' : Language → List MessageMembers} {M M' : Platform} {r r' : Registries}
  {typeSupport typeSupport' : RosidlMessageTypeSupport} {ts ts' : MessageTypeSupport} {v : Value}
  {data fresh : List Cell}

theorem rmwSerialize_plain (hts : typeSupport.resolve = .ok ts) (h : ts.Plain all)
    (hr : r.Within all) (hv : ts.content data = some v) :
    (rmwSerialize M r data typeSupport).1 = .ok ⟨v.wire, v.wire.length, v.wire.length⟩ := by
  have hok := (h.construct hr).1
  have hwithin := hr.createSerializer h.known.mem
  rw [rmwSerialize, hts]
  cases hcreate : r.createSerializer ts.language ts.members with
  | mk result r₁ =>
    rw [hcreate] at hok hwithin
    cases hok
    simp only [hcreate, h.serialize_eq hwithin hv]

theorem rmwDeserialize_plain (hts : typeSupport.resolve = .ok ts) (h : ts.Plain all)
    (hM : M.Ample) (hr : r.Within all) (hv : ts.Holds v) (hfresh : ts.Fresh fresh) :
    ∃ message, (rmwDeserialize M r ⟨v.wire, v.wire.length, v.wire.length⟩ typeSupport fresh).1 =
        .ok message ∧ ts.content message = some v := by
  have hok := (h.construct hr).2
  have hwithin := hr.createDeserializer h.known.mem
  rw [rmwDeserialize, hts]
  cases hcreate : r.createDeserializer ts.language ts.members with
  | mk result r₁ =>
    rw [hcreate] at hok hwithin
    cases hok
    replace hwithin : r₁.Within all := hwithin
    obtain ⟨message, hrun, hcontent⟩ := h.deserialize_wire hM hwithin hv hfresh
    refine ⟨message, ?_, hcontent⟩
    simp only [hcreate, bytesOf, List.take_length, hrun]

/-- **The way over serialized messages is the same as the direct one**: for a value of plain types,
`rmw_serialize` in one process makes the bytes that another one publishes, at whatever time and with
whatever analysed before; and both `rmw_deserialize` and a take make the value of them. -/
theorem serialized_paths_agree (hts : typeSupport.resolve = .ok ts)
    (hts' : typeSupport'.resolve = .ok ts') (h : ts.Plain all) (h' : ts'.Plain all')
    (hr : r.Within all) (hr' : r'.Within all') (hM' : M'.Ample) (hv : ts.content data = some v)
    (hholds : ts'.Holds v) (hfresh : ts'.Fresh fresh) :
    ∃ message, (rmwSerialize M r data typeSupport).1 = .ok message ∧
      ts.serialize M r data = .ok (bytesOf message) ∧
      (∀ data', ts'.content data' = some v →
        (rmwSerialize M' r' data' typeSupport').1 = .ok message ∧
        ts'.serialize M' r' data' = .ok (bytesOf message)) ∧
      (∃ filled, (rmwDeserialize M' r' message typeSupport' fresh).1 = .ok filled ∧
        ts'.content filled = some v) ∧
      ∃ filled, ts'.deserialize M' r' fresh (bytesOf message) = .ok filled ∧
        ts'.content filled = some v := by
  refine ⟨⟨v.wire, v.wire.length, v.wire.length⟩, rmwSerialize_plain hts h hr hv, ?_,
    fun data' hv' => ⟨rmwSerialize_plain hts' h' hr' hv', ?_⟩,
    rmwDeserialize_plain hts' h' hM' hr' hholds hfresh, ?_⟩
  · rw [bytesOf, List.take_length, h.serialize_eq hr hv]
  · rw [bytesOf, List.take_length, h'.serialize_eq hr' hv']
  · rw [bytesOf, List.take_length]
    exact h'.deserialize_wire hM' hr' hholds hfresh

theorem rmwDeserialize_registries (hts : typeSupport.resolve = .ok ts)
    (serializedMessage : RmwSerializedMessage) :
    (rmwDeserialize M r serializedMessage typeSupport fresh).2 =
      (r.createDeserializer ts.language ts.members).2 := by
  rw [rmwDeserialize, hts]
  dsimp only
  split
  · rename_i heq
    rw [heq]
  · rename_i heq
    rw [heq]
    split <;> rfl

/-- The type is plain for a process, in which there is room for the value. -/
def Forwarder.Ready (f : Forwarder) (v : Value) : Prop :=
  ∃ (ts : MessageTypeSupport) (all : Language → List MessageMembers),
    f.typeSupport.resolve = .ok ts ∧ ts.Plain all ∧ f.registries.Within all ∧ f.platform.Ample ∧
      ts.Holds v ∧ ts.Fresh f.rosMessage

/-- A process passes a message on as it is. -/
theorem Forwarder.Ready.forward {f : Forwarder} (h : f.Ready v) :
    f.forward ⟨v.wire, v.wire.length, v.wire.length⟩ =
      .ok ⟨v.wire, v.wire.length, v.wire.length⟩ := by
  obtain ⟨ts, all, hts, hplain, hr, hM, hholds, hfresh⟩ := h
  obtain ⟨message, hrun, hcontent⟩ := rmwDeserialize_plain hts hplain hM hr hholds hfresh
  have hregistries : (rmwDeserialize f.platform f.registries
      ⟨v.wire, v.wire.length, v.wire.length⟩ f.typeSupport f.rosMessage).2 =
        (f.registries.createDeserializer ts.language ts.members).2 :=
    rmwDeserialize_registries hts _
  rw [Forwarder.forward]
  cases hdeser : rmwDeserialize f.platform f.registries ⟨v.wire, v.wire.length, v.wire.length⟩
    f.typeSupport f.rosMessage with
  | mk result r' =>
    rw [hdeser] at hrun hregistries
    cases hrun
    have hwithin : r'.Within all := by
      rw [show r' = _ from hregistries]
      exact hr.createDeserializer hplain.known.mem
    exact rmwSerialize_plain hts hplain hwithin hcontent

/-- **A message is passed on unchanged**, through however many processes, of whichever languages and
whatever they have analysed before: the bytes that leave the last one are those of the first one. -/
theorem forwarded (hts : typeSupport.resolve = .ok ts) (h : ts.Plain all) (hr : r.Within all)
    (hv : ts.content data = some v) {fs : List Forwarder} (hfs : ∀ f ∈ fs, f.Ready v) :
    ∃ message, (rmwSerialize M r data typeSupport).1 = .ok message ∧
      forwardThrough fs message = .ok message := by
  refine ⟨_, rmwSerialize_plain hts h hr hv, ?_⟩
  induction fs with
  | nil => rfl
  | cons f fs ih =>
    rw [forwardThrough, List.foldlM_cons, (hfs f (.head _)).forward]
    exact ih fun f' hf' => hfs f' (.tail _ hf')

end Agree

/-! ## Places in both languages -/

/-- The types of a program with places. -/
def placeTypes : Language → List MessageMembers
  | .cpp => [point, cppPlace]
  | .c => [point, cPlace]

/-- Places in C++. -/
def cppPlaceSupport : MessageTypeSupport := ⟨.cpp, cppPlace⟩

/-- Places in C. -/
def cPlaceSupport : MessageTypeSupport := ⟨.c, cPlace⟩

theorem plain_cppPlaceSupport : cppPlaceSupport.Plain placeTypes :=
  ⟨known_cppPlace, plain_cpp layout_cppPlace⟩

theorem plain_cPlaceSupport : cPlaceSupport.Plain placeTypes :=
  ⟨known_cPlace, plain_of_charFree layout_cPlace charFree_cPlace⟩

/-- The value `("A", 1.0, 2.0)`. -/
def placeValue : Value :=
  .message [.string [65], .message [.primitive [0, 0, 128, 63], .primitive [0, 0, 0, 64]]]

theorem content_placeA : cppPlaceSupport.content placeA = some placeValue := rfl

theorem content_placeC : cPlaceSupport.content placeC = some placeValue := rfl

theorem fresh_zeros : cPlaceSupport.Fresh (zeros 32) :=
  show cPlace.sizeOf ≤ (zeros 32).length by decide

/-- A C++ process that has come across points, and a C process that has come across nothing. -/
theorem serialized_paths_agree_place : ∃ message,
    (rmwSerialize .generous (Registries.empty.createSerializer .cpp point).2 placeA
      ⟨some cppPlace, none⟩).1 = .ok message ∧
    ∃ filled, (rmwDeserialize .generous .empty message ⟨none, some cPlace⟩ (zeros 32)).1 =
      .ok filled ∧ cPlaceSupport.content filled = some placeValue := by
  have hwithin : (Registries.empty.createSerializer .cpp point).2.Within placeTypes :=
    (Registries.within_empty placeTypes).createSerializer (by simp [placeTypes])
  obtain ⟨message, hser, -, -, hdeser, -⟩ := serialized_paths_agree (M := .generous)
    (show RosidlMessageTypeSupport.resolve ⟨some cppPlace, none⟩ = .ok cppPlaceSupport from rfl)
    (show RosidlMessageTypeSupport.resolve ⟨none, some cPlace⟩ = .ok cPlaceSupport from rfl)
    plain_cppPlaceSupport plain_cPlaceSupport hwithin (Registries.within_empty placeTypes)
    Platform.generous_ample content_placeA ⟨placeC, content_placeC⟩ fresh_zeros
  exact ⟨message, hser, hdeser⟩

/-- From C++ to C, and on. -/
theorem forwarded_place : ∃ message,
    (rmwSerialize .generous .empty placeA ⟨some cppPlace, none⟩).1 = .ok message ∧
    forwardThrough [⟨.generous, .empty, ⟨none, some cPlace⟩, zeros 32⟩,
      ⟨.generous, (Registries.empty.createSerializer .c point).2, ⟨none, some cPlace⟩, zeros 32⟩]
      message = .ok message := by
  have hready : ∀ r : Registries, r.Within placeTypes →
      Forwarder.Ready ⟨.generous, r, ⟨none, some cPlace⟩, zeros 32⟩ placeValue := fun r hr =>
    ⟨cPlaceSupport, placeTypes, rfl, plain_cPlaceSupport, hr, Platform.generous_ample,
      ⟨placeC, content_placeC⟩, fresh_zeros⟩
  have hempty : Registries.empty.Within placeTypes := Registries.within_empty placeTypes
  refine forwarded (show RosidlMessageTypeSupport.resolve ⟨some cppPlace, none⟩ =
    .ok cppPlaceSupport from rfl) plain_cppPlaceSupport hempty content_placeA fun f hf => ?_
  obtain rfl | rfl : f = ⟨.generous, .empty, ⟨none, some cPlace⟩, zeros 32⟩ ∨
      f = ⟨.generous, (Registries.empty.createSerializer .c point).2, ⟨none, some cPlace⟩,
        zeros 32⟩ := by simpa using hf
  · exact hready _ hempty
  · exact hready _ (hempty.createSerializer (by simp [placeTypes]))

end RmwEcal
