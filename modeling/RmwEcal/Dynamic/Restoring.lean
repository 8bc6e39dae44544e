import RmwEcal.Dynamic.Settled

/-!
# The deserializers undo the encoding

**Fed with an encoding of `v`, a deserializer turns a message that holds `old` into one that holds
`Value.overlay keep old v`, and leaves what follows the encoding unread**
(`deserializeMessage_restores`).  In C++ `keep` is `true`, since strings are appended and booleans
pushed back, and the target has to be `Settled`; in C it is `false`, and the target need not even be
readable.

The theorem is over `DeserializerOps.Restoring`, the same statement about each of the templates
that the two languages write differently.
-/

set_option autoImplicit false

namespace RmwEcal

open Codec Value

/-- The decoder turns a target that holds `old` into one that holds `overlay keep old v`. -/
abbrev Restores (dec : Decoder Cell UInt8 Fault) (keep : Bool) (ready : List Cell → Prop)
    (size : ℕ) (read : List Cell → Option Value) (v : Value) (w : List UInt8) : Prop :=
  dec.Restores keep ready Storable (overlay keep) size read v w

/-- The same for values in a row. -/
abbrev RestoresEach (dec : Decoder Cell UInt8 Fault) (keep : Bool) (ready : List Cell → Prop)
    (size : ℕ) (read : List Cell → Option (List Value)) (vs : List Value) (w : List UInt8) : Prop :=
  dec.Restores keep ready (∀ v ∈ ·, Storable v) (mergeList (overlay keep) default) size read vs w

/-! ## Plain bytes -/

/-- The encoding of a value is what it is stored as. -/
def Literal (fmt : Format Value UInt8) (size : ℕ) (read : List Cell → Option Value) : Prop :=
  ∀ v w, fmt v w → v.Flat ∧ w.length = size ∧ read (w.map .byte) = some v

theorem literal_primitive (p : Primitive) :
    Literal (primitiveFormat p) p.sizeof (readPrimitive p) := by
  rintro v w ⟨rfl, hlen⟩
  refine ⟨by rw [Flat]; trivial, hlen, Option.map_eq_some_iff.mpr ⟨w, ?_, rfl⟩⟩
  refine bytes?_eq_some.mpr ⟨by rw [List.length_map]; omega, ?_⟩
  rw [List.take_of_length_le (by rw [List.length_map]; omega)]

theorem literal_marked {abi : Abi} {reg : Registry} {T : MessageMembers}
    (h : reg.isMemcopyable T = true) (hpod : Pod T) :
    Literal (Encodes abi reg T) T.sizeOf (contentMessage abi T) := by
  intro v w hw
  obtain ⟨hlen, hv⟩ := (encodes_marked h).mp hw
  exact ⟨flat_of_pod hpod hv, hlen, hv⟩

theorem Literal.each {fmt : Format Value UInt8} {size : ℕ} {read : List Cell → Option Value}
    (h : Literal fmt size read) (hloc : LocalTo size read) {vs : List Value} {w : List UInt8}
    (hw : fmt.each vs w) : FlatList vs ∧ w.length = vs.length * size ∧
      readEach read size vs.length (w.map .byte) = some vs := by
  induction vs generalizing w with
  | nil =>
    cases hw
    exact ⟨flatList_iff.mpr fun _ hx => absurd hx List.not_mem_nil, by simp, rfl⟩
  | cons v vs ih =>
    obtain ⟨w₁, w₂, rfl, h₁, h₂⟩ := hw
    obtain ⟨hflat, hlen, hread⟩ := h v w₁ h₁
    obtain ⟨hflats, hlens, hreads⟩ := ih h₂
    have hlen' : (w₁.map Cell.byte).length = size := by rw [List.length_map, hlen]
    refine ⟨⟨hflat, hflats⟩, ?_, readEach_succ_eq_some.mpr ⟨v, vs, ?_, ?_, rfl⟩⟩
    · rw [List.length_append, List.length_cons, hlen, hlens, Nat.succ_mul, Nat.add_comm]
    · rw [← hread, List.map_append]
      exact hloc _ _ (by rw [List.take_left' hlen', List.take_of_length_le hlen'.le])
    · rw [List.map_append, List.drop_left' hlen', hreads]

theorem copyBytes_append {n : ℕ} {data : List Cell} {w rest : List UInt8} (hw : w.length = n)
    (hn : n ≤ data.length) :
    copyBytes n data (w ++ rest) = .ok (w.map .byte ++ data.drop n, rest) := by
  have hlen : n ≤ (w ++ rest).length := by rw [List.length_append]; omega
  rw [copyBytes, if_pos ⟨hlen, hn⟩, List.take_left' hw, List.drop_left' hw]

/-- Copied bytes are read as what they were a copy of. -/
theorem copyBytes_restores {ν : Type} {keep : Bool} {ready : List Cell → Prop} {ok : ν → Prop}
    {merge : ν → ν → ν} {n : ℕ} {read : List Cell → Option ν} (hloc : LocalTo n read) {v : ν}
    {w : List UInt8} (hw : w.length = n) (hread : read (w.map .byte) = some v)
    (hmerge : ∀ old, merge old v = v) :
    (copyBytes n).Restores keep ready ok merge n read v w := by
  intro data old hlen _ _ rest
  have hlen' : (w.map Cell.byte).length = n := by rw [List.length_map, hw]
  refine ⟨_, copyBytes_append hw hlen, ?_, List.drop_left' hlen', ?_⟩
  · rw [List.length_append, List.length_drop, hlen']
    omega
  · rw [hmerge, ← hread]
    exact hloc _ _ (by rw [List.take_left' hlen', List.take_of_length_le hlen'.le])

theorem Literal.restores {fmt : Format Value UInt8} {size : ℕ} {read : List Cell → Option Value}
    (h : Literal fmt size read) (hloc : LocalTo size read) {keep : Bool}
    {ready : List Cell → Prop} {v : Value} {w : List UInt8} (hw : fmt v w) :
    Restores (copyBytes size) keep ready size read v w := by
  obtain ⟨hflat, hlen, hread⟩ := h v w hw
  exact copyBytes_restores hloc hlen hread fun old => overlay_of_flat keep hflat old

theorem Literal.restoresEach {fmt : Format Value UInt8} {size : ℕ}
    {read : List Cell → Option Value} (h : Literal fmt size read) (hloc : LocalTo size read)
    {keep : Bool} {ready : List Cell → Prop} {vs : List Value} {w : List UInt8}
    (hw : fmt.each vs w) :
    RestoresEach (copyBytes (vs.length * size)) keep ready (vs.length * size)
      (readEach read size vs.length) vs w := by
  obtain ⟨hflat, hlen, hread⟩ := h.each hloc hw
  refine copyBytes_restores (hloc.readEach vs.length) hlen hread fun olds => ?_
  rw [← overlayList_eq_mergeList, overlayList_of_flat keep hflat]

/-! ## Arrays -/

/-- Elements restored in a row are an array restored. -/
theorem restores_array {dec : Decoder Cell UInt8 Fault} {keep : Bool} {ready : List Cell → Prop}
    {size n : ℕ} {read : List Cell → Option Value} {vs : List Value} {w : List UInt8}
    (h : RestoresEach dec keep ready (n * size) (readEach read size n) vs w) :
    Restores dec keep ready (n * size) (fun data => (readEach read size n data).map .array)
      (.array vs) w := by
  intro data old hlen hold hok rest
  have holds : keep = true → readEach read size n data = some old.elems ∧ ready data := fun hk => by
    obtain ⟨hread, hready⟩ := hold hk
    obtain ⟨olds, holds, rfl⟩ := Option.map_eq_some_iff.mp hread
    exact ⟨holds, hready⟩
  rw [overlay, Storable, storableList_iff, overlayList_eq_mergeList] at hok
  obtain ⟨data', hdec, hlen', hdrop, hread⟩ := h data old.elems hlen holds hok rest
  refine ⟨data', hdec, hlen', hdrop, Option.map_eq_some_iff.mpr ⟨_, hread, ?_⟩⟩
  rw [overlay, overlayList_eq_mergeList]

/-! ## The templates that the languages write differently -/

/-- The templates undo the encoding.  Only those for sequences of messages ask anything of the
target. -/
structure DeserializerOps.Restoring (ops : DeserializerOps) (abi : Abi) (keep : Bool) : Prop where
  singleString : ∀ {ready v w}, stringFormat v w → Restores ops.singleString keep ready
    abi.stringSize (fun d => (abi.readString d).map .string) v w
  dynamicArray : ∀ {ready p v w}, p ≠ .boolean → sequenceFormat (primitiveFormat p) p.sizeof v w →
    Restores (ops.dynamicArray p) keep ready abi.vectorSize
      (readSequence abi (readPrimitive p) p.sizeof) v w
  dynamicArrayBool : ∀ {ready v w}, boolsFormat v w →
    Restores (ops.dynamicArray .boolean) keep ready abi.boolVectorSize
      (fun d => (abi.readBools d).map .bools) v w
  dynamicArrayString : ∀ {ready v w}, sequenceFormat stringFormat abi.stringSize v w →
    Restores ops.dynamicArrayString keep ready abi.vectorSize
      (readSequence abi (fun d => (abi.readString d).map .string) abi.stringSize) v w
  dynamicArrayMessage : ∀ {marked size elem v w} {fmt : Format Value UInt8}
    {read : List Cell → Option Value} {ready : Value → List Cell → Prop}, 0 < size →
    LocalTo size read → (keep = true → ∃ z, z.Blank ∧ read (zeros size) = some z) →
    (marked = true → Literal fmt size read) →
    (∀ v w, fmt v w → Restores elem keep (ready v) size read v w) → sequenceFormat fmt size v w →
    Restores (ops.dynamicArrayMessage marked size elem) keep (SettledVector read ready size v)
      abi.vectorSize (readSequence abi read size) v w

/-! ## Messages -/

section Message

variable {abi : Abi} {ops : DeserializerOps} {reg : Registry} {keep : Bool}

/-- A member of any shape is restored if single elements, static arrays and sequences are. -/
theorem deserialize_restores {s : ArrayShape} {isBoolean : Bool}
    {single array dynamicArray : Decoder Cell UInt8 Fault} {elem : List Cell → Option Value}
    {elemSize : ℕ} {ready vector : Value → List Cell → Prop} {fmt : Format Value UInt8} {v : Value}
    {w : List UInt8} (hsingle : ∀ v w, fmt v w → Restores single keep (ready v) elemSize elem v w)
    (harray : s.isArray = true → s.isStatic = true → ∀ vs w, vs.length = s.arraySize →
      fmt.each vs w → RestoresEach array keep (ReadyEach ready elemSize vs) (s.arraySize * elemSize)
        (readEach elem elemSize s.arraySize) vs w)
    (hbools : isBoolean = true → ∀ v w, boolsFormat v w → Restores dynamicArray keep (vector v)
      abi.boolVectorSize (fun d => (abi.readBools d).map .bools) v w)
    (hdynamic : isBoolean = false → ∀ v w, sequenceFormat fmt elemSize v w →
      Restores dynamicArray keep (vector v) abi.vectorSize (readSequence abi elem elemSize) v w)
    (hw : memberFormat s isBoolean fmt elemSize v w) :
    Restores (deserialize s single array dynamicArray) keep
      (settledShape s ready vector elemSize v) (s.storageSize abi isBoolean elemSize)
      (readMember abi s isBoolean elem elemSize) v w := by
  rw [memberFormat] at hw
  rw [deserialize, ArrayShape.storageSize, show readMember abi s isBoolean elem elemSize =
    fun data => _ from funext fun data => readMember.eq_1 .., show settledShape s ready vector
      elemSize v = fun data => _ from funext fun data => settledShape.eq_1 ..]
  split_ifs at hw ⊢ with h1 h2 h3
  · obtain ⟨vs, rfl, hlen, hvs⟩ := hw
    rw [Value.elems, List.take_of_length_le hlen.le]
    exact restores_array (harray h1 h2 vs w hlen hvs)
  · exact hbools h3 v w hw
  · exact hdynamic (by simpa using h3) v w hw
  · exact hsingle v w hw

/-- Members in order are restored one after the other.  The induction goes through the members that
are left, from `pos` on; what lies before `pos` is not touched any more. -/
theorem deserializeMembers_restores {pos size : ℕ} {ms : List (MessageMember MessageMembers)}
    (hms : InOrder abi pos ms size)
    (hloc : ∀ m ∈ ms, LocalTo (m.storageSize abi) (contentMember abi m))
    (hm : ∀ m ∈ ms, ∀ v w, EncodesMember abi reg m v w →
      Restores (deserializeMember abi ops reg m) keep (SettledMember abi m v) (m.storageSize abi)
        (contentMember abi m) v w)
    {vs : List Value} {w : List UInt8} (hw : EncodesMembers abi reg ms vs w) {data : List Cell}
    {olds : List Value} (hlen : size ≤ data.length)
    (hold : keep = true → contentMembers abi ms data = some olds ∧ SettledMembers abi ms vs data)
    (hok : StorableList (overlayList keep olds vs)) (rest : List UInt8) :
    ∃ data', deserializeMembers abi ops reg ms data (w ++ rest) = .ok (data', rest) ∧
      data'.length = data.length ∧ data'.drop size = data.drop size ∧
      data'.take pos = data.take pos ∧
      contentMembers abi ms data' = some (overlayList keep olds vs) := by
  induction ms generalizing pos vs w data olds with
  | nil =>
    obtain ⟨rfl, rfl⟩ := hw
    exact ⟨data, rfl, rfl, rfl, rfl, by rw [contentMembers, overlayList]⟩
  | cons m ms ih =>
    obtain ⟨v, vs, w₁, w₂, rfl, rfl, h₁, h₂⟩ := hw
    have hend : m.offset + m.storageSize abi ≤ size := hms.2.le
    have hpos : pos ≤ m.offset := hms.1
    rw [overlayList] at hok
    -- the first member
    have hold1 : keep = true → contentMember abi m (data.drop m.offset) =
        some (olds.headD default) ∧ SettledMember abi m v (data.drop m.offset) := fun hk => by
      obtain ⟨hread, hready, -⟩ := hold hk
      obtain ⟨o, os, ho, -, rfl⟩ := contentMembers_cons_eq_some.mp hread
      exact ⟨ho, hready⟩
    obtain ⟨tail, hdec, hlen1, hdrop1, hread1⟩ := hm m (.head _) v w₁ h₁ (data.drop m.offset) _
      (by rw [List.length_drop]; omega) hold1 hok.1 (w₂ ++ rest)
    rw [List.length_drop] at hlen1
    have htake : (data.take m.offset).length = m.offset := by rw [List.length_take]; omega
    generalize hdata1 : data.take m.offset ++ tail = data1
    have hlen2 : data1.length = data.length := by
      rw [← hdata1, List.length_append, htake, hlen1]
      omega
    have hbehind : data1.drop (m.offset + m.storageSize abi) =
        data.drop (m.offset + m.storageSize abi) := by
      rw [← List.drop_drop, ← hdata1, List.drop_left' htake, hdrop1, List.drop_drop]
    -- the other members, which the first one has not touched
    have hold2 : keep = true → contentMembers abi ms data1 = some olds.tail ∧
        SettledMembers abi ms vs data1 := fun hk => by
      obtain ⟨hread, -, hready⟩ := hold hk
      obtain ⟨o, os, -, hos, rfl⟩ := contentMembers_cons_eq_some.mp hread
      rw [contentMembers_congr hms.2 hbehind, settledMembers_congr hms.2 hbehind]
      exact ⟨hos, hready⟩
    obtain ⟨data2, hdec2, hlen3, hdrop2, htake2, hread2⟩ := ih hms.2
      (fun m' hm' => hloc m' (.tail _ hm')) (fun m' hm' => hm m' (.tail _ hm')) h₂
      (by omega) hold2 hok.2
    have hkeep : ∀ n ≤ m.offset + m.storageSize abi, data2.take n = data1.take n :=
      fun n hn => take_of_take_eq htake2 hn
    refine ⟨data2, ?_, by omega, ?_, ?_, ?_⟩
    · rw [deserializeMembers, Decoder.within, List.append_assoc, hdec]
      show deserializeMembers abi ops reg ms (data.take m.offset ++ tail) (w₂ ++ rest) = _
      rw [hdata1, hdec2]
    · have h := congrArg (List.drop (size - (m.offset + m.storageSize abi))) hbehind
      rw [List.drop_drop, List.drop_drop, Nat.add_sub_cancel' hend] at h
      rw [hdrop2, h]
    · rw [hkeep pos (by omega), ← hdata1, List.take_append_of_le_length (by omega),
        List.take_take, Nat.min_eq_left hpos]
    · rw [overlayList]
      refine contentMembers_cons_eq_some.mpr ⟨_, _, ?_, hread2, rfl⟩
      rw [← hread1]
      refine hloc m (.head _) _ _ ?_
      have h := drop_take_of_take_eq (hkeep _ le_rfl)
      rwa [← hdata1, List.drop_left' htake] at h

/-- In zeroed memory, every supported message is there, and blank. -/
def ZeroIsBlank (abi : Abi) (T : MessageMembers) : Prop :=
  ∃ z, z.Blank ∧ contentMessage abi T (zeros T.sizeOf) = some z

/-- A member of a message is restored if the messages in it are. -/
theorem deserializeMember_restores (hops : ops.Restoring abi keep) {T : MessageMembers}
    (h : RosidlLayout abi T) (hreg : reg.MarksPod T)
    (hzero : keep = true → ∀ S, T.Contains S → ZeroIsBlank abi S)
    (helem : ∀ S, T.HasMember S → ∀ v w, Encodes abi reg S v w →
      Restores (deserializeMessage abi ops reg S) keep (Settled abi S v) S.sizeOf
        (contentMessage abi S) v w)
    {m : MessageMember MessageMembers} (hm : m ∈ T.members) {v : Value} {w : List UInt8}
    (hw : EncodesMember abi reg m v w) :
    Restores (deserializeMember abi ops reg m) keep (SettledMember abi m v) (m.storageSize abi)
      (contentMember abi m) v w := by
  have harray := h.arraySize_le hm
  obtain ⟨s, p | _ | _ | _ | sub, off⟩ := m
  · refine (deserialize_restores (fun v w => (literal_primitive p).restores
      (readPrimitive_local p)) (fun h1 h2 vs w hlen hvs => ?_) (fun hb v w hvs => ?_)
      (fun hb v w hvs => hops.dynamicArray ?_ hvs) hw).of_ready
        fun data _ => settledShape_true s p.sizeof v data
    · have hsize : s.arraySize * p.sizeof ≤ maxSize := harray h1 h2
      rw [deserializeArray, Nat.mul_comm, sizeT_of_le hsize, ← hlen]
      exact (literal_primitive p).restoresEach (readPrimitive_local p) hvs
    · cases p <;> first | exact hops.dynamicArrayBool hvs | cases hb
    · rintro rfl
      cases hb
  · exact (deserialize_restores (fun v w hvs => hops.singleString hvs)
      (fun h1 h2 vs w hlen hvs => hlen ▸ restores_each default
        (abi.readString_local.comp _) (fun v _ w hv => hops.singleString hv) hvs)
      (fun hb => by cases hb) (fun _ v w hvs => hops.dynamicArrayString hvs)
      (show memberFormat s false stringFormat abi.stringSize v w from hw)).of_ready
        fun data _ => settledShape_true s abi.stringSize v data
  · exact (show False from hw).elim
  · exact (show False from hw).elim
  · have hsub : T.HasMember sub := ⟨_, hm, rfl⟩
    have hlocal := contentMessage_local (h.sub hsub)
    have hlit : reg.isMemcopyable sub = true →
        Literal (Encodes abi reg sub) sub.sizeOf (contentMessage abi sub) := fun hmark =>
      literal_marked hmark (hreg sub (.member hsub (.self sub)) hmark)
    refine deserialize_restores (helem sub hsub) (fun h1 h2 vs w hlen hvs => ?_) nofun
      (fun _ v w hvs => hops.dynamicArrayMessage (h.sub hsub).pos hlocal
        (fun hk => hzero hk sub (.member hsub (.self sub))) hlit (helem sub hsub) hvs) hw
    have hsize : s.arraySize * sub.sizeOf ≤ maxSize := harray h1 h2
    rw [deserializeArrayMessage]
    split_ifs with hmark
    · rw [sizeT_of_le hsize, ← hlen]
      exact (hlit hmark).restoresEach hlocal hvs
    · rw [← hlen]
      exact restores_each default hlocal (fun v _ w hv => helem sub hsub v w hv) hvs

/-- **A deserializer undoes the encoding**, for every registry and into every target. -/
theorem deserializeMessage_restores (hops : ops.Restoring abi keep) {T : MessageMembers}
    (h : RosidlLayout abi T) (hreg : reg.MarksPod T)
    (hzero : keep = true → ∀ S, T.Contains S → ZeroIsBlank abi S) {v : Value} {w : List UInt8}
    (hw : Encodes abi reg T v w) :
    Restores (deserializeMessage abi ops reg T) keep (Settled abi T v) T.sizeOf
      (contentMessage abi T) v w := by
  induction T using MessageMembers.induction generalizing v w with
  | h T ih =>
    intro data old hlen hold hok rest
    by_cases hmark : reg.isMemcopyable T = true
    · rw [deserializeMessage_marked hmark]
      exact (literal_marked hmark (hreg T (.self T) hmark)).restores (contentMessage_local h) hw
        data old hlen hold hok rest
    · obtain ⟨vs, rfl, hvs⟩ := (encodes_unmarked hmark).mp hw
      have helem : ∀ S, T.HasMember S → ∀ v w, Encodes abi reg S v w →
          Restores (deserializeMessage abi ops reg S) keep (Settled abi S v) S.sizeOf
            (contentMessage abi S) v w :=
        fun S hS v w hv => ih S hS (h.sub hS) (hreg.sub hS)
          (fun hk S' hS' => hzero hk S' (.member hS hS')) hv
      rw [overlay, Storable] at hok
      have hold' : keep = true → contentMembers abi T.members data = some old.elems ∧
          SettledMembers abi T.members vs data := fun hk => by
        obtain ⟨hread, hready⟩ := hold hk
        obtain ⟨-, olds, holds, rfl⟩ := contentMessage_eq_some.mp hread
        exact ⟨holds, settled_iff.mp hready⟩
      obtain ⟨data', hdec, hlen', hdrop, -, hread⟩ := deserializeMembers_restores h.inOrder
        (fun m hm => contentMember_local h hm)
        (fun m hm v w hv => deserializeMember_restores hops h hreg hzero helem hm hv) hvs hlen
        hold' hok rest
      refine ⟨data', ?_, hlen', hdrop, contentMessage_eq_some.mpr ⟨by omega, _, hread, ?_⟩⟩
      · rw [deserializeMessage_unmarked hmark hlen, hdec]
      · rw [overlay]

end Message

end RmwEcal
