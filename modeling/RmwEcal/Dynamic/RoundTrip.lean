import RmwEcal.Dynamic.Sample
import RmwEcal.Dynamic.TemplateFrames

/-!
# Messages between processes

Here the serializers, the deserializers and the registries of two processes come together.  A
registry is `registryAfter` of the types that were analysed in its translation unit, whatever else
was analysed before or after the type at hand.
-/

set_option autoImplicit false

namespace RmwEcal

open Codec Value

/-! ## What is known of any registry -/

section Registries

variable {countedSize : Primitive → ℕ} {all calls : List MessageMembers} {T : MessageMembers}

theorem registryAfter_marksPod (h : DistinctNames all) (hcalls : calls ⊆ all) (hT : T ∈ all) :
    (registryAfter countedSize calls).MarksPod T := fun _ hS =>
  (registryAfter_sound countedSize h hcalls).pod (fun _ _ => Mentioned.member) ⟨T, hT, hS⟩

theorem registryAfter_marksFit (h : DistinctNames all) (hcalls : calls ⊆ all) (hT : T ∈ all) :
    (registryAfter countedSize calls).MarksFit countedSize T :=
  fun S hS hmark => registryAfter_sound countedSize h hcalls S ⟨T, hT, hS⟩ hmark

theorem RosidlLayout.contains {abi : Abi} {S : MessageMembers} (h : RosidlLayout abi T)
    (hS : T.Contains S) : RosidlLayout abi S := by
  induction hS with
  | self T => exact h
  | member hm _ ih => exact ih (h.sub hm)

theorem Supported.contains {S : MessageMembers} (h : Supported T) (hS : T.Contains S) :
    Supported S := by
  induction hS with
  | self T => exact h
  | member hm _ ih => exact ih (h.sub hm)

theorem registryAfter_marksPacked {abi : Abi} (h : DistinctNames all) (hcalls : calls ⊆ all)
    (hT : T ∈ all) (hlayout : RosidlLayout abi T) :
    (registryAfter cppCountedSize calls).MarksPacked T := fun _ hS =>
  cpp_packed (registryAfter_sound cppCountedSize h hcalls) (fun _ _ => Mentioned.member)
    ⟨T, hT, hS⟩ (hlayout.contains hS)

end Registries

/-! ## Encoded values are within the limits -/

theorem storable_of_each {fmt : Format Value UInt8} (h : ∀ v w, fmt v w → v.Storable)
    {vs : List Value} {w : List UInt8} (hw : fmt.each vs w) : StorableList vs := by
  induction vs generalizing w with
  | nil => exact storableList_iff.mpr fun _ hx => absurd hx List.not_mem_nil
  | cons v vs ih =>
    obtain ⟨w₁, w₂, -, h₁, h₂⟩ := hw
    exact ⟨h v w₁ h₁, ih h₂⟩

theorem storable_of_memberFormat {s : ArrayShape} {isBoolean : Bool}
    {fmt : Format Value UInt8} {elemSize : ℕ} (h : ∀ v w, fmt v w → v.Storable) {v : Value}
    {w : List UInt8} (hw : memberFormat s isBoolean fmt elemSize v w) : v.Storable := by
  rw [memberFormat] at hw
  split_ifs at hw
  · obtain ⟨vs, rfl, -, hvs⟩ := hw
    exact storable_of_each h hvs
  · obtain ⟨bits, rfl, hle, -⟩ := hw
    exact hle
  · obtain ⟨vs, w', rfl, -, -, hvs⟩ := hw
    exact storable_of_each h hvs
  · exact h v w hw

mutual

theorem Value.Flat.storable : ∀ {v : Value}, v.Flat → v.Storable
  | .primitive _, _ => by rw [Storable]; trivial
  | .array vs, h => FlatList.storable (show FlatList vs from h)
  | .message vs, h => FlatList.storable (show FlatList vs from h)

theorem Value.FlatList.storable : ∀ {vs : List Value}, FlatList vs → StorableList vs
  | [], _ => storableList_iff.mpr fun _ hx => absurd hx List.not_mem_nil
  | _ :: _, h => ⟨h.1.storable, FlatList.storable h.2⟩

end

/-- What has an encoding respects the size limits. -/
theorem Encodes.storable {abi : Abi} {reg : Registry} {T : MessageMembers}
    (hreg : reg.MarksPod T) {v : Value} {w : List UInt8} (hw : Encodes abi reg T v w) :
    v.Storable := by
  induction T using MessageMembers.induction generalizing v w with
  | h T ih =>
    by_cases hmark : reg.isMemcopyable T = true
    · exact (flat_of_pod (hreg T (.self T) hmark) ((encodes_marked hmark).mp hw).2).storable
    · obtain ⟨vs, rfl, hvs⟩ := (encodes_unmarked hmark).mp hw
      have hmembers : ∀ ms : List (MessageMember MessageMembers), (∀ m ∈ ms, m ∈ T.members) →
          ∀ vs w, EncodesMembers abi reg ms vs w → StorableList vs := by
        intro ms
        induction ms with
        | nil =>
          rintro - vs w ⟨rfl, -⟩
          exact storableList_iff.mpr fun _ hx => absurd hx List.not_mem_nil
        | cons m ms ihms =>
          rintro hms vs w ⟨v, vs, w₁, w₂, rfl, -, h₁, h₂⟩
          refine ⟨?_, ihms (fun m' hm' => hms m' (.tail _ hm')) vs w₂ h₂⟩
          obtain ⟨s, p | _ | _ | _ | sub, off⟩ := m
          · exact storable_of_memberFormat (fun v w ⟨hv, _⟩ => by rw [hv, Storable]; trivial) h₁
          · exact storable_of_memberFormat
              (fun v w ⟨chars, hv, hlt, _⟩ => by rw [hv, Storable]; exact hlt) h₁
          · exact (show False from h₁).elim
          · exact (show False from h₁).elim
          · have hsub : T.HasMember sub := ⟨_, hms _ (.head _), rfl⟩
            exact storable_of_memberFormat (fun v w => ih sub hsub (hreg.sub hsub)) h₁
      exact hmembers T.members (fun _ hm => hm) vs w hvs

/-! ## One process -/

section OneProcess

variable {M : Platform} {reg : Registry} {T : MessageMembers}

theorem CppSerializer.serialize_eq (h : RosidlLayout cppAbi T) {data : List Cell} {v : Value}
    (hv : contentMessage cppAbi T data = some v) :
    CppSerializer.serialize M reg T data = .ok (wireImage M cppAbi reg T data) :=
  serializeMessage_emits h hv []

theorem CSerializer.serialize_eq (h : RosidlLayout cAbi T) {data : List Cell} {v : Value}
    (hv : contentMessage cAbi T data = some v) :
    CSerializer.serialize M reg T data = .ok (wireImage M cAbi reg T data) :=
  serializeMessage_emits h hv []

/-- `CppDeserializer` puts what is encoded on top of what is there, if nothing of that gets lost. -/
theorem CppDeserializer.deserialize_encoded (hM : M.Ample) (h : RosidlLayout cppAbi T)
    (hT : Supported T) (hreg : reg.MarksPod T) {v old : Value} {w : List UInt8}
    (hw : Encodes cppAbi reg T v w) {message : List Cell}
    (hold : contentMessage cppAbi T message = some old) (hsettled : Settled cppAbi T v message)
    (hroom : (overlay true old v).Storable) (rest : List UInt8) :
    ∃ message', CppDeserializer.deserialize M reg T message (w ++ rest) = .ok (message', rest) ∧
      contentMessage cppAbi T message' = some (overlay true old v) := by
  obtain ⟨message', hrun, -, -, hread⟩ := deserializeMessage_restores
    (CppDeserializer.restoring hM) h hreg (fun _ S hS => CppDeserializer.contentMessage_zeros
      (h.contains hS) (hT.contains hS) le_rfl) hw message old (contentMessage_eq_some.mp hold).1
    (fun _ => ⟨hold, hsettled⟩) hroom rest
  exact ⟨message', hrun, hread⟩

/-- `CDeserializer` puts what is encoded in the place of what is there. -/
theorem CDeserializer.deserialize_encoded (hM : M.Ample) (h : RosidlLayout cAbi T)
    (hreg : reg.MarksPod T) {v : Value} {w : List UInt8} (hw : Encodes cAbi reg T v w)
    {message : List Cell} (hlen : T.sizeOf ≤ message.length) (rest : List UInt8) :
    ∃ message', CDeserializer.deserialize M reg T message (w ++ rest) = .ok (message', rest) ∧
      contentMessage cAbi T message' = some v := by
  obtain ⟨message', hrun, -, -, hread⟩ := deserializeMessage_restores
    (CDeserializer.restoring hM) h hreg nofun hw message v hlen nofun
    (by rw [overlay_false]; exact hw.storable hreg) rest
  rw [overlay_false] at hread
  exact ⟨message', hrun, hread⟩

end OneProcess

/-! ## Two processes -/

/-- Two processes of one language that have both analysed `T`, each after and before whatever else
it may have analysed. -/
structure Peers (abi : Abi) (T : MessageMembers) (sender receiver : List MessageMembers) :
    Prop where
  layout : RosidlLayout abi T
  supported : Supported T
  sender_names : DistinctNames sender
  receiver_names : DistinctNames receiver
  sender_mem : T ∈ sender
  receiver_mem : T ∈ receiver

section Peers

variable {abi : Abi} {T : MessageMembers} {sender receiver : List MessageMembers} {M : Platform}
  {countedSize : Primitive → ℕ} {message : List Cell} {v : Value}

theorem Peers.sender_marksPod (h : Peers abi T sender receiver) :
    (registryAfter countedSize sender).MarksPod T :=
  registryAfter_marksPod h.sender_names (List.Subset.refl _) h.sender_mem

theorem Peers.receiver_marksPod (h : Peers abi T sender receiver) :
    (registryAfter countedSize receiver).MarksPod T :=
  registryAfter_marksPod h.receiver_names (List.Subset.refl _) h.receiver_mem

/-- What one sends, the other understands, if they agree on extents. -/
theorem Peers.encodes (h : Peers abi T sender receiver)
    (hsame : SameExtent (registryAfter countedSize sender) (registryAfter countedSize receiver) T)
    (hv : contentMessage abi T message = some v) :
    Encodes abi (registryAfter countedSize receiver) T v
      (wireImage M abi (registryAfter countedSize sender) T message) :=
  (encodes_wireImage h.layout h.sender_marksPod hv).transfer hsame h.layout h.sender_marksPod
    h.receiver_marksPod

/-- Two C++ processes do agree. -/
theorem Peers.cpp_sameExtent (h : Peers cppAbi T sender receiver) :
    SameExtent (registryAfter cppCountedSize sender) (registryAfter cppCountedSize receiver) T :=
  sameExtent_of_packed h.layout h.sender_marksPod h.receiver_marksPod
    (registryAfter_marksPacked h.sender_names (List.Subset.refl _) h.sender_mem h.layout)
    (registryAfter_marksPacked h.receiver_names (List.Subset.refl _) h.receiver_mem h.layout)

end Peers

/-! ## C++ to C++ -/

/-- What has been sent is read into a fresh message, to its end. -/
theorem Peers.decodes_fresh {Ms Mr : Platform} (hMr : Mr.Ample) {T : MessageMembers}
    {sender receiver : List MessageMembers} (h : Peers cppAbi T sender receiver)
    {message fresh : List Cell} {v blank : Value} (hv : contentMessage cppAbi T message = some v)
    (hfresh : contentMessage cppAbi T fresh = some blank) (hblank : blank.Blank)
    (rest : List UInt8) :
    ∃ message', CppDeserializer.deserialize Mr (registryAfter cppCountedSize receiver) T fresh
        (wireImage Ms cppAbi (registryAfter cppCountedSize sender) T message ++ rest) =
          .ok (message', rest) ∧
      contentMessage cppAbi T message' = some v := by
  have hw := h.encodes (M := Ms) h.cpp_sameExtent hv
  have hkeep := overlay_of_blank true hblank v
  obtain ⟨message', hrun, hread⟩ := CppDeserializer.deserialize_encoded hMr h.layout h.supported
    h.receiver_marksPod hw hfresh (settled_of_blank h.layout h.supported hfresh hblank v)
    (by rw [hkeep]; exact hw.storable h.receiver_marksPod) rest
  exact ⟨message', hrun, hkeep ▸ hread⟩

/-- **A C++ message survives the trip to another process**, whatever either of them has analysed
before, and the receiver reads exactly the bytes that were sent. -/
theorem cpp_round_trip {Ms Mr : Platform} (hMr : Mr.Ample) {T : MessageMembers}
    {sender receiver : List MessageMembers} (h : Peers cppAbi T sender receiver)
    {message fresh : List Cell} {v blank : Value} (hv : contentMessage cppAbi T message = some v)
    (hfresh : contentMessage cppAbi T fresh = some blank) (hblank : blank.Blank) :
    ∃ w, CppSerializer.serialize Ms (registryAfter cppCountedSize sender) T message = .ok w ∧
      ∀ rest, ∃ message',
        CppDeserializer.deserialize Mr (registryAfter cppCountedSize receiver) T fresh
          (w ++ rest) = .ok (message', rest) ∧
        contentMessage cppAbi T message' = some v :=
  ⟨_, CppSerializer.serialize_eq h.layout hv,
    fun rest => h.decodes_fresh hMr hv hfresh hblank rest⟩

/-- Two floats, which C++ copies as a block if it has analysed the type. -/
def point : MessageMembers :=
  .mk 1 8 [⟨.single, .primitive .float, 0⟩, ⟨.single, .primitive .float, 4⟩]

/-- A string and a point.  Because of the string, analysing this type says nothing about points. -/
def cppPlace : MessageMembers := .mk 2 40 [⟨.single, .string, 0⟩, ⟨.single, .message point, 32⟩]

theorem layout_point {abi : Abi} : RosidlLayout abi point :=
  .mk (by decide) (by decide) ⟨le_rfl, le_rfl, le_rfl⟩ (by simp [MessageMembers.HasMember, point])

theorem layout_cppPlace : RosidlLayout cppAbi cppPlace :=
  .mk (by decide) (by decide) (by decide)
    (by simpa [MessageMembers.HasMember, cppPlace] using layout_point)

theorem supported_point : Supported point :=
  .mk (by simp [point]) (by simp [MessageMembers.HasMember, point])

theorem supported_cppPlace : Supported cppPlace :=
  .mk (by simp [cppPlace]) (by simpa [MessageMembers.HasMember, cppPlace] using supported_point)

/-- The sender has come across points before, the receiver has not. -/
theorem peers_cppPlace : Peers cppAbi cppPlace [point, cppPlace] [cppPlace] :=
  have hnames : ∀ calls, (∀ T ∈ calls, T ∈ [point, cppPlace]) → DistinctNames calls := fun _ =>
    distinctNames_of_types _ (by simp [MessageMembers.HasMember, point, cppPlace])
      (by simp [point, cppPlace])
  ⟨layout_cppPlace, supported_cppPlace, hnames _ (by simp), hnames _ (by simp), by simp, by simp⟩

/-- The message `("A", 1.0, 2.0)`. -/
def placeA : List Cell := object 32 (.string [65] 14 true) ++ [0, 0, 128, 63, 0, 0, 0, 64].map .byte

theorem cpp_round_trip_place :
    ∃ w, CppSerializer.serialize .generous (registryAfter cppCountedSize [point, cppPlace])
        cppPlace placeA = .ok w ∧
      ∀ rest, ∃ message',
        CppDeserializer.deserialize .generous (registryAfter cppCountedSize [cppPlace]) cppPlace
          (zeros 40) (w ++ rest) = .ok (message', rest) ∧
        contentMessage cppAbi cppPlace message' = some (.message [.string [65],
          .message [.primitive [0, 0, 128, 63], .primitive [0, 0, 0, 64]]]) :=
  have hfresh : contentMessage cppAbi cppPlace (zeros 40) = some (.message [.string [],
      .message [.primitive [0, 0, 0, 0], .primitive [0, 0, 0, 0]]]) := rfl
  cpp_round_trip Platform.generous_ample peers_cppPlace rfl hfresh (by simp [Blank, BlankList])

/-! ## C and C++ -/

/-- **C and C++ put the same bytes on the wire exactly if no struct in the value that the C side
has marked has a gap.**  The two descriptions need only be good for the same value. -/
theorem c_wire_eq_cpp_wire_iff {Mc Mp : Platform} {Tc Tp : MessageMembers}
    (hc : RosidlLayout cAbi Tc) (hp : RosidlLayout cppAbi Tp)
    {callsC callsP : List MessageMembers} (hcallsC : DistinctNames callsC)
    (hcallsP : DistinctNames callsP) (hTc : Tc ∈ callsC) (hTp : Tp ∈ callsP)
    {messageC messageP : List Cell} {v : Value} (hvc : contentMessage cAbi Tc messageC = some v)
    (hvp : contentMessage cppAbi Tp messageP = some v) :
    ∃ wc wp, CSerializer.serialize Mc (registryAfter cCountedSize callsC) Tc messageC = .ok wc ∧
      CppSerializer.serialize Mp (registryAfter cppCountedSize callsP) Tp messageP = .ok wp ∧
      (wc = wp ↔ GapFree (registryAfter cCountedSize callsC) Tc v) := by
  have hcpod : (registryAfter cCountedSize callsC).MarksPod Tc :=
    registryAfter_marksPod hcallsC (List.Subset.refl _) hTc
  have hppod : (registryAfter cppCountedSize callsP).MarksPod Tp :=
    registryAfter_marksPod hcallsP (List.Subset.refl _) hTp
  have hwp := (encodes_eq_wire_iff hp hppod (encodes_wireImage (M := Mp) hp hppod hvp)).mpr
    (gapFree_of_packed (registryAfter_marksPacked hcallsP (List.Subset.refl _) hTp hp) v)
  refine ⟨_, _, CSerializer.serialize_eq hc hvc, CppSerializer.serialize_eq hp hvp, ?_⟩
  rw [hwp]
  exact encodes_eq_wire_iff hc hcpod (encodes_wireImage hc hcpod hvc)

/-- A letter and a number, with a gap between them. -/
def letter : MessageMembers :=
  .mk 3 8 [⟨.single, .primitive .char, 0⟩, ⟨.single, .primitive .float, 4⟩]

theorem layout_letter {abi : Abi} : RosidlLayout abi letter :=
  .mk (by decide) (by decide) ⟨le_rfl, (by decide : 1 ≤ 4), le_rfl⟩
    (by simp [MessageMembers.HasMember, letter])

theorem supported_letter : Supported letter :=
  .mk (by simp [letter]) (by simp [MessageMembers.HasMember, letter])

theorem distinctNames_letter : DistinctNames [letter] :=
  distinctNames_of_types [letter] (by simp [MessageMembers.HasMember, letter])
    (by simp) (by simp)

/-- The message `('c', 1.0)`. -/
def letterC : List Cell := [99, 7, 7, 7, 0, 0, 128, 63].map .byte

theorem c_wire_eq_cpp_wire_iff_letter :
    ∃ wc wp,
      CSerializer.serialize .generous (registryAfter cCountedSize [letter]) letter letterC =
        .ok wc ∧
      CppSerializer.serialize .generous (registryAfter cppCountedSize [letter]) letter letterC =
        .ok wp ∧
      (wc = wp ↔ GapFree (registryAfter cCountedSize [letter]) letter
        (.message [.primitive [99], .primitive [0, 0, 128, 63]])) :=
  c_wire_eq_cpp_wire_iff layout_letter layout_letter distinctNames_letter distinctNames_letter
    (by simp) (by simp) rfl rfl

/-- Counted with four bytes, the letter in front of the number leaves no gap for C to see. -/
theorem c_wire_ne_cpp_wire :
    RosidlLayout cAbi letter ∧ RosidlLayout cppAbi letter ∧ Supported letter ∧
      DistinctNames [letter] ∧ contentMessage cAbi letter letterC =
        contentMessage cppAbi letter letterC ∧
      CSerializer.serialize .generous (registryAfter cCountedSize [letter]) letter letterC =
        .ok [99, 7, 7, 7, 0, 0, 128, 63] ∧
      CppSerializer.serialize .generous (registryAfter cppCountedSize [letter]) letter letterC =
        .ok [99, 0, 0, 128, 63] :=
  ⟨layout_letter, layout_letter, supported_letter, distinctNames_letter, rfl, rfl, rfl⟩

/-! ## C to C -/

/-- **A C message survives the trip to another process exactly if the two processes agree on how
many bytes the structs in it take.** -/
theorem c_round_trip_iff {Ms Mr : Platform} (hMr : Mr.Ample) {T : MessageMembers}
    {sender receiver : List MessageMembers} (h : Peers cAbi T sender receiver) :
    (∀ message v, contentMessage cAbi T message = some v →
      ∃ w, CSerializer.serialize Ms (registryAfter cCountedSize sender) T message = .ok w ∧
        ∀ target rest, T.sizeOf ≤ target.length → ∃ message',
          CDeserializer.deserialize Mr (registryAfter cCountedSize receiver) T target
            (w ++ rest) = .ok (message', rest) ∧
          contentMessage cAbi T message' = some v) ↔
      SameExtent (registryAfter cCountedSize sender) (registryAfter cCountedSize receiver) T := by
  constructor
  · intro htrip
    obtain ⟨data, v, hsample⟩ := exists_sampleMessage h.layout h.supported
    have hv := hsample.sample.reads
    obtain ⟨w, hser, hdeser⟩ := htrip data v hv
    obtain rfl := Except.ok.inj ((CSerializer.serialize_eq h.layout hv).symm.trans hser)
    have hpod : (registryAfter cCountedSize sender).MarksPod T := h.sender_marksPod
    have hvisible := hsample.sample.visible _ (.sent Ms hpod) []
    rw [List.append_nil] at hvisible
    -- what the receiver has made of it is what it has read, since all size fields are small
    obtain ⟨message', hrun, hread⟩ := hdeser (zeros T.sizeOf) [] List.length_replicate.ge
    obtain ⟨w', r, hw', -, -, -, -, hleaves⟩ :=
      (deserializeMessage_follows CDeserializer.framed h.layout).returned hrun
    rw [List.append_nil, List.append_nil] at hw'
    subst hw'
    exact sameExtent_of_shared h.layout h.sender_marksPod h.receiver_marksPod
      (registryAfter_marksFit h.sender_names (List.Subset.refl _) h.sender_mem)
      (registryAfter_marksFit h.receiver_names (List.Subset.refl _) h.receiver_mem)
      ⟨encodes_wireImage h.layout h.sender_marksPod hv, hleaves.1 v hread rfl hMr hvisible.small,
        hvisible.avoids, hvisible.count⟩ hsample.exercises
  · intro hsame message v hv
    exact ⟨_, CSerializer.serialize_eq h.layout hv, fun target rest hlen =>
      CDeserializer.deserialize_encoded hMr h.layout h.receiver_marksPod (h.encodes hsame hv) hlen
        rest⟩

/-- A string and a letter. -/
def cNote : MessageMembers := .mk 4 32 [⟨.single, .string, 0⟩, ⟨.single, .message letter, 24⟩]

theorem layout_cNote : RosidlLayout cAbi cNote :=
  .mk (by decide) (by decide) (by decide)
    (by simpa [MessageMembers.HasMember, cNote] using layout_letter)

theorem supported_cNote : Supported cNote :=
  .mk (by simp [cNote]) (by simpa [MessageMembers.HasMember, cNote] using supported_letter)

theorem peers_cNote {sender receiver : List MessageMembers} (hs : ∀ T ∈ sender, T ∈ [letter, cNote])
    (hr : ∀ T ∈ receiver, T ∈ [letter, cNote]) (hTs : cNote ∈ sender) (hTr : cNote ∈ receiver) :
    Peers cAbi cNote sender receiver :=
  have hnames : ∀ calls, (∀ T ∈ calls, T ∈ [letter, cNote]) → DistinctNames calls := fun _ =>
    distinctNames_of_types _ (by simp [MessageMembers.HasMember, letter, cNote])
      (by simp [letter, cNote])
  ⟨layout_cNote, supported_cNote, hnames _ hs, hnames _ hr, hTs, hTr⟩

/-- The message `("", ('c', 1.0))`. -/
def noteC : List Cell := object 24 (.sequence [.byte 0] 0 1) ++ letterC

theorem c_round_trip_iff_note :
    (∀ message v, contentMessage cAbi cNote message = some v →
      ∃ w, CSerializer.serialize .generous (registryAfter cCountedSize [cNote]) cNote message =
          .ok w ∧
        ∀ target rest, cNote.sizeOf ≤ target.length → ∃ message',
          CDeserializer.deserialize .generous (registryAfter cCountedSize [letter, cNote]) cNote
            target (w ++ rest) = .ok (message', rest) ∧
          contentMessage cAbi cNote message' = some v) ↔
      SameExtent (registryAfter cCountedSize [cNote]) (registryAfter cCountedSize [letter, cNote])
        cNote :=
  c_round_trip_iff Platform.generous_ample
    (peers_cNote (by simp) (by simp) (by simp) (by simp))

/-- A sender that has come across letters before copies the gap along; a receiver that has not
takes it for a part of the number. -/
theorem c_round_trip_fails :
    Peers cAbi cNote [letter, cNote] [cNote] ∧
      contentMessage cAbi cNote noteC = some (.message [.string [],
        .message [.primitive [99], .primitive [0, 0, 128, 63]]]) ∧
      CSerializer.serialize .generous (registryAfter cCountedSize [letter, cNote]) cNote noteC =
        .ok (sizeBytes 0 ++ [99, 7, 7, 7, 0, 0, 128, 63]) ∧
      ∃ message', CDeserializer.deserialize .generous (registryAfter cCountedSize [cNote]) cNote
          noteC (sizeBytes 0 ++ [99, 7, 7, 7, 0, 0, 128, 63]) = .ok (message', [0, 128, 63]) ∧
        contentMessage cAbi cNote message' = some (.message [.string [],
          .message [.primitive [99], .primitive [7, 7, 7, 0]]]) :=
  ⟨peers_cNote (by simp) (by simp) (by simp) (by simp), rfl, rfl, _, rfl, rfl⟩

end RmwEcal
