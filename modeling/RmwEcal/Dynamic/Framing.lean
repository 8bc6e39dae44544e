import RmwEcal.Codec.Framing
import RmwEcal.Dynamic.Transfer
import RmwEcal.Dynamic.Deserializer

/-!
# What the deserializers read

`messageFrame reg T` is the grammar of what a deserializer reads for a message of type `T`: numbers,
blocks for the marked structs, and in front of everything of variable length a number of elements,
followed by so many of them.  A frame may end early, where the memory for what a size field
announces is refused, or where a member of an unsupported kind is reached.

**A deserializer follows this grammar from any storage** (`deserializeMessage_follows`), so that it
stays inside its input exactly when that begins with a frame.  Where it keeps nothing of its target,
in C, the frame also says what it leaves there.  As before the theorem is over what the two
languages write differently, here `DeserializerOps.Framed`.
-/

set_option autoImplicit false

namespace RmwEcal

open Codec

/-! ## What is left behind -/

/-- Bytes so small that no size field made of them announces more than there is memory for. -/
def Small (w : List UInt8) : Prop := ∀ b ∈ w, b ≤ 2

/-- A decoder that keeps nothing of its target leaves what the bytes it has read stand for, as long
as memory lasts. -/
def leaves {ν : Type} (M : Platform) (keep : Bool) (fmt : Format ν UInt8) : Format ν UInt8 :=
  fun v w => keep = false → M.Ample → Small w → fmt v w

/-- A decoder that keeps nothing of its target, and does not run out of memory. -/
def Overwrites (M : Platform) (keep : Bool) : Prop := keep = false ∧ M.Ample

/-- The decoder reads what the grammar says, and leaves what it has read. -/
abbrev FollowsFrame {ν : Type} (M : Platform) (keep : Bool) (dec : Decoder Cell UInt8 Fault)
    (g : Grammar Cell UInt8 ν) (size : ℕ) (read : List Cell → Option ν)
    (fmt : Format ν UInt8) : Prop :=
  dec.Follows .undefined g size read (leaves M keep fmt) (Overwrites M keep)

section Leaves

variable {M : Platform} {keep : Bool}

theorem Small.left {w₁ w₂ : List UInt8} (h : Small (w₁ ++ w₂)) : Small w₁ :=
  fun b hb => h b (List.mem_append_left _ hb)

theorem Small.right {w₁ w₂ : List UInt8} (h : Small (w₁ ++ w₂)) : Small w₂ :=
  fun b hb => h b (List.mem_append_right _ hb)

theorem leaves_each {fmt : Format Value UInt8} {vs : List Value} {w : List UInt8}
    (h : Format.each (leaves M keep fmt) vs w) : leaves M keep fmt.each vs w := by
  intro hk hM
  induction vs generalizing w with
  | nil => exact fun _ => h
  | cons v vs ih =>
    intro hsmall
    obtain ⟨w₁, w₂, rfl, h₁, h₂⟩ := h
    exact ⟨w₁, w₂, rfl, h₁ hk hM hsmall.left, ih h₂ hsmall.right⟩

end Leaves

/-! ## The grammar of a message -/

/-- The grammars of the templates that each language has its own version of. -/
structure TemplateGrammars where
  /-- Of a string. -/
  singleString : Grammar Cell UInt8 Value
  /-- Of a sequence of a type of fixed size. -/
  dynamicArray : Primitive → Grammar Cell UInt8 Value
  /-- Of a sequence of strings. -/
  dynamicArrayString : Grammar Cell UInt8 Value
  /-- Of a sequence of messages, given whether they are copied as a block, their size, how they are
  read and their grammar. -/
  dynamicArrayMessage : Bool → ℕ → (List Cell → Option Value) → Grammar Cell UInt8 Value →
    Grammar Cell UInt8 Value

/-- The grammar of plain bytes that are copied, and read as they are. -/
def copied {ν : Type} (size : ℕ) (read : List Cell → Option ν) : Grammar Cell UInt8 ν :=
  .fixed size fun w => read (w.map .byte)

section Frames

variable (abi : Abi) (tg : TemplateGrammars) (reg : Registry)

/-- The grammar of a member of any shape. -/
def shapeFrame (s : ArrayShape) (single : Grammar Cell UInt8 Value)
    (array : Grammar Cell UInt8 (List Value)) (dynamicArray : Grammar Cell UInt8 Value) :
    Grammar Cell UInt8 Value :=
  if s.isArray then if s.isStatic then array.map (Option.map .array) else dynamicArray else single

mutual

/-- The grammar of a message. -/
def messageFrame : MessageMembers → Grammar Cell UInt8 Value
  | .mk name size ms, data, w, e =>
    if reg.isMemcopyable (.mk name size ms) then
      copied size (contentMessage abi (.mk name size ms)) data w e
    else size ≤ data.length ∧ Grammar.map (Option.map .message) (membersFrame ms) data w e

/-- The grammar of some members. -/
def membersFrame : List (MessageMember MessageMembers) → Grammar Cell UInt8 (List Value)
  | [], _, w, e => w = [] ∧ e = some (some [])
  | m :: ms, data, w, e =>
    Grammar.andThen consReading (Grammar.within (memberFrame m) m.offset) (membersFrame ms) data w e

/-- The grammar of a member. -/
def memberFrame : MessageMember MessageMembers → Grammar Cell UInt8 Value
  | ⟨s, .primitive p, _⟩, data, w, e =>
    shapeFrame s (copied p.sizeof (readPrimitive p))
      (Grammar.each (copied p.sizeof (readPrimitive p)) p.sizeof s.arraySize) (tg.dynamicArray p)
      data w e
  | ⟨s, .string, _⟩, data, w, e =>
    shapeFrame s tg.singleString (tg.singleString.each abi.stringSize s.arraySize)
      tg.dynamicArrayString data w e
  | ⟨s, .message sub, _⟩, data, w, e =>
    shapeFrame s (messageFrame sub) (Grammar.each (messageFrame sub) sub.sizeOf s.arraySize)
      (tg.dynamicArrayMessage (reg.isMemcopyable sub) sub.sizeOf (contentMessage abi sub)
        (messageFrame sub)) data w e
  -- unsupported, which is reported before anything is read
  | ⟨_, .wstring, _⟩, _, w, e | ⟨_, .wchar, _⟩, _, w, e => w = [] ∧ e = none

end

variable {abi tg reg}

theorem messageFrame_marked {T : MessageMembers} (h : reg.isMemcopyable T = true) :
    messageFrame abi tg reg T = copied T.sizeOf (contentMessage abi T) := by
  obtain ⟨name, size, ms⟩ := T
  funext data w e
  rw [messageFrame, if_pos h]
  rfl

theorem messageFrame_unmarked {T : MessageMembers} (h : ¬reg.isMemcopyable T = true) :
    messageFrame abi tg reg T = fun data w e => T.sizeOf ≤ data.length ∧
      Grammar.map (Option.map .message) (membersFrame abi tg reg T.members) data w e := by
  obtain ⟨name, size, ms⟩ := T
  funext data w e
  rw [messageFrame, if_neg h]
  rfl

theorem membersFrame_cons (m : MessageMember MessageMembers)
    (ms : List (MessageMember MessageMembers)) : membersFrame abi tg reg (m :: ms) =
      Grammar.andThen consReading (Grammar.within (memberFrame abi tg reg m) m.offset)
        (membersFrame abi tg reg ms) := by
  funext data w e
  rw [membersFrame]

/-- Members that all lie beyond `pos` do not see what is before it. -/
theorem membersFrame_congr {pos size : ℕ} {ms : List (MessageMember MessageMembers)}
    (hms : InOrder abi pos ms size) {data data' : List Cell} (h : data.drop pos = data'.drop pos)
    (w : List UInt8) (e : Option (Option (List Value))) :
    membersFrame abi tg reg ms data w e ↔ membersFrame abi tg reg ms data' w e := by
  induction ms generalizing pos w e with
  | nil => exact Iff.rfl
  | cons m ms ih =>
    have hdrop : ∀ n, pos ≤ n → data.drop n = data'.drop n := fun n hn => by
      have h' := congrArg (List.drop (n - pos)) h
      rwa [List.drop_drop, List.drop_drop, Nat.add_sub_cancel' hn] at h'
    have hoff : pos ≤ m.offset := hms.1
    have hrest := ih hms.2 (hdrop (m.offset + m.storageSize abi) (by omega))
    simp only [membersFrame_cons, Grammar.andThen, Grammar.within, hdrop m.offset hoff, hrest]

end Frames

/-! ## The laws of the templates -/

/-- The templates follow their grammars. -/
structure DeserializerOps.Framed (ops : DeserializerOps) (M : Platform) (abi : Abi) (keep : Bool)
    (tg : TemplateGrammars) : Prop where
  singleString_unique : tg.singleString.Unique
  singleString : FollowsFrame M keep ops.singleString tg.singleString abi.stringSize
    (fun d => (abi.readString d).map .string) stringFormat
  dynamicArray_unique : ∀ p, (tg.dynamicArray p).Unique
  dynamicArray : ∀ {p}, p ≠ .boolean →
    FollowsFrame M keep (ops.dynamicArray p) (tg.dynamicArray p) abi.vectorSize
      (readSequence abi (readPrimitive p) p.sizeof) (sequenceFormat (primitiveFormat p) p.sizeof)
  dynamicArrayBool : FollowsFrame M keep (ops.dynamicArray .boolean) (tg.dynamicArray .boolean)
    abi.boolVectorSize (fun d => (abi.readBools d).map .bools) boolsFormat
  dynamicArrayString_unique : tg.dynamicArrayString.Unique
  dynamicArrayString : FollowsFrame M keep ops.dynamicArrayString tg.dynamicArrayString
    abi.vectorSize (readSequence abi (fun d => (abi.readString d).map .string) abi.stringSize)
    (sequenceFormat stringFormat abi.stringSize)
  dynamicArrayMessage_unique : ∀ {marked size read g}, g.Unique →
    (tg.dynamicArrayMessage marked size read g).Unique
  dynamicArrayMessage : ∀ {marked size elem g} {read : List Cell → Option Value}
    {fmt : Format Value UInt8}, 0 < size → LocalTo size read → g.Unique →
    FollowsFrame M keep elem g size read fmt →
    (marked = true → ∀ v w, fmt v w ↔ w.length = size ∧ read (w.map .byte) = some v) →
    FollowsFrame M keep (ops.dynamicArrayMessage marked size elem)
      (tg.dynamicArrayMessage marked size read g) abi.vectorSize (readSequence abi read size)
      (sequenceFormat fmt size)

/-! ## Copied bytes -/

theorem copyBytes_outcome {ν : Type} {n : ℕ} {value : List UInt8 → Option ν}
    {post : List Cell → List UInt8 → Option ν → Prop} {data : List Cell} {src : List UInt8}
    (hpost : ∀ w, w.length = n → post (w.map .byte ++ data.drop n) w (value w)) :
    Outcome .undefined (.fixed n value) n post data src (copyBytes n data src) := by
  rw [copyBytes]
  split_ifs with h
  · have hlen : (src.take n).length = n := by rw [List.length_take]; omega
    have hlen' : ((src.take n).map Cell.byte).length = n := by rw [List.length_map, hlen]
    refine .returned (List.take_append_drop n src).symm ⟨h.2, hlen, rfl⟩ h.2 ?_
      (List.drop_left' hlen') (hpost _ hlen)
    rw [List.length_append, hlen', List.length_drop]
    omega
  · refine .wrong fun w rest e hsrc hw => h ⟨?_, hw.1⟩
    have hlen : w.length = n := hw.2.1
    rw [hsrc, List.length_append]
    omega

theorem copyBytes_follows {ν : Type} {n : ℕ} {read : List Cell → Option ν}
    (hloc : LocalTo n read) {fmt : Format ν UInt8}
    (hfmt : ∀ v w, w.length = n → read (w.map .byte) = some v → fmt v w) (overwrites : Prop) :
    (copyBytes n).Follows .undefined (copied n read) n read fmt overwrites := by
  intro data src
  refine copyBytes_outcome fun w hlen => ?_
  have hlen' : (w.map Cell.byte).length = n := by rw [List.length_map, hlen]
  have hread : read (w.map .byte ++ data.drop n) = read (w.map .byte) :=
    hloc _ _ (by rw [List.take_left' hlen', List.take_of_length_le hlen'.le])
  exact ⟨fun v hv => hfmt v w hlen (hread.symm.trans hv), fun _ => hread⟩

/-- What is read element by element from copied bytes. -/
theorem each_copied {n size : ℕ} {read : List Cell → Option Value} (hloc : LocalTo size read) :
    (copied size read).each size n = copied (n * size) (readEach read size n) := by
  have hread : ∀ (n : ℕ) (w : List UInt8),
      readEach (fun w => read ((w.take size).map .byte)) size n w =
        readEach read size n (w.map .byte) := by
    intro n
    induction n with
    | zero => exact fun w => rfl
    | succ n ih =>
      intro w
      have hfirst : read ((w.take size).map .byte) = read (w.map .byte) :=
        hloc _ _ (by rw [List.map_take, List.take_take, Nat.min_self])
      have hrest := ih (w.drop size)
      rw [List.map_drop] at hrest
      exact congrArg₂ consReading hfirst hrest
  rw [copied, Grammar.each_fixed, copied]
  exact congrArg _ (funext (hread n))

/-- Elements whose encoding is what they are stored as, copied together. -/
theorem copyBytes_follows_each {n size : ℕ} {read : List Cell → Option Value}
    (hloc : LocalTo size read) {fmt : Format Value UInt8}
    (hfmt : ∀ v w, fmt v w ↔ w.length = size ∧ read (w.map .byte) = some v) (overwrites : Prop) :
    (copyBytes (n * size)).Follows .undefined ((copied size read).each size n) (n * size)
      (readEach read size n) fmt.each overwrites := by
  rw [each_copied hloc]
  refine copyBytes_follows (hloc.readEach n) (fun vs w hlen hvs => ?_) overwrites
  have hn := readEach_length hvs
  exact (each_iff_readEach hloc hfmt).mpr (by rw [hn]; exact ⟨hlen, hvs⟩)

/-! ## Messages -/

section Message

variable {M : Platform} {abi : Abi} {ops : DeserializerOps} {reg : Registry} {keep : Bool}
  {tg : TemplateGrammars}

theorem Follows.leaves {ν : Type} {dec : Decoder Cell UInt8 Fault} {g : Grammar Cell UInt8 ν}
    {size : ℕ} {read : List Cell → Option ν} {fmt : Format ν UInt8}
    (h : dec.Follows .undefined g size read fmt (Overwrites M keep)) :
    FollowsFrame M keep dec g size read fmt :=
  h.imp fun _ _ _ h => ⟨fun v hv _ _ _ => h.1 v hv, h.2⟩

theorem FollowsFrame.each {dec : Decoder Cell UInt8 Fault} {g : Grammar Cell UInt8 Value}
    {size : ℕ} {read : List Cell → Option Value} {fmt : Format Value UInt8}
    (h : FollowsFrame M keep dec g size read fmt) (hunique : g.Unique) (hloc : LocalTo size read)
    (n : ℕ) : FollowsFrame M keep (dec.each size n) (g.each size n) (n * size)
      (readEach read size n) fmt.each :=
  (Decoder.Follows.each hunique hloc h n).imp fun _ _ _ h =>
    ⟨fun vs hvs => leaves_each (h.1 vs hvs), h.2⟩

theorem shapeFrame_unique {s : ArrayShape} {single dynamicArray : Grammar Cell UInt8 Value}
    {array : Grammar Cell UInt8 (List Value)} (hsingle : single.Unique) (harray : array.Unique)
    (hdynamic : dynamicArray.Unique) : (shapeFrame s single array dynamicArray).Unique := by
  rw [shapeFrame]
  split_ifs
  · exact harray.map
  · exact hdynamic
  · exact hsingle

/-- Nothing more is read. -/
def refused {ν : Type} : Grammar Cell UInt8 ν := fun _ w e => w = [] ∧ e = none

theorem unique_refused {ν : Type} : (refused : Grammar Cell UInt8 ν).Unique := by
  rintro data w rest e w' rest' e' ⟨rfl, rfl⟩ ⟨rfl, rfl⟩ -
  exact ⟨rfl, rfl⟩

theorem unique_and {ν : Type} {P : List Cell → Prop} {g : Grammar Cell UInt8 ν} (h : g.Unique) :
    Grammar.Unique fun data w e => P data ∧ g data w e :=
  fun data w rest e w' rest' e' hw hw' => h data w rest e w' rest' e' hw.2 hw'.2

theorem memberFrame_unique (hops : ops.Framed M abi keep tg) {m : MessageMember MessageMembers}
    (hsub : ∀ sub, m.typeId = .message sub → (messageFrame abi tg reg sub).Unique) :
    (memberFrame abi tg reg m).Unique := by
  obtain ⟨s, p | _ | _ | _ | sub, off⟩ := m
  · exact shapeFrame_unique (Grammar.unique_fixed _ _) ((Grammar.unique_fixed _ _).each _ _)
      (hops.dynamicArray_unique p)
  · exact shapeFrame_unique hops.singleString_unique (hops.singleString_unique.each _ _)
      hops.dynamicArrayString_unique
  · exact unique_refused
  · exact unique_refused
  · exact shapeFrame_unique (hsub sub rfl) ((hsub sub rfl).each _ _)
      (hops.dynamicArrayMessage_unique (hsub sub rfl))

theorem membersFrame_unique {ms : List (MessageMember MessageMembers)}
    (hm : ∀ m ∈ ms, (memberFrame abi tg reg m).Unique) : (membersFrame abi tg reg ms).Unique := by
  induction ms with
  | nil =>
    rintro data w rest e w' rest' e' ⟨rfl, rfl⟩ ⟨rfl, rfl⟩ -
    exact ⟨rfl, rfl⟩
  | cons m ms ih =>
    rw [membersFrame_cons]
    exact ((hm m (.head _)).within _).andThen (ih fun m' hm' => hm m' (.tail _ hm'))

/-- **No input has two readings.** -/
theorem messageFrame_unique (hops : ops.Framed M abi keep tg) (T : MessageMembers) :
    (messageFrame abi tg reg T).Unique := by
  induction T using MessageMembers.induction with
  | h T ih =>
    by_cases hmark : reg.isMemcopyable T = true
    · rw [messageFrame_marked hmark]
      exact Grammar.unique_fixed _ _
    · rw [messageFrame_unmarked hmark]
      exact unique_and (membersFrame_unique fun m hm =>
        memberFrame_unique hops fun sub hsub => ih sub ⟨m, hm, hsub⟩).map

/-- A member of any shape follows its grammar if single elements, static arrays and sequences do. -/
theorem shapeFrame_follows {s : ArrayShape} {isBoolean : Bool}
    {single array dynamicArray : Decoder Cell UInt8 Fault}
    {gsingle gdynamic : Grammar Cell UInt8 Value} {garray : Grammar Cell UInt8 (List Value)}
    {elem : List Cell → Option Value} {elemSize : ℕ} (fmt : Format Value UInt8)
    (hsingle : FollowsFrame M keep single gsingle elemSize elem fmt)
    (harray : s.isArray = true → s.isStatic = true → FollowsFrame M keep array garray
      (s.arraySize * elemSize) (readEach elem elemSize s.arraySize) fmt.each)
    (hbools : isBoolean = true → FollowsFrame M keep dynamicArray gdynamic abi.boolVectorSize
      (fun d => (abi.readBools d).map .bools) boolsFormat)
    (hdynamic : isBoolean = false → FollowsFrame M keep dynamicArray gdynamic abi.vectorSize
      (readSequence abi elem elemSize) (sequenceFormat fmt elemSize)) :
    FollowsFrame M keep (deserialize s single array dynamicArray)
      (shapeFrame s gsingle garray gdynamic) (s.storageSize abi isBoolean elemSize)
      (readMember abi s isBoolean elem elemSize) (memberFormat s isBoolean fmt elemSize) := by
  intro data src
  rw [deserialize, shapeFrame, ArrayShape.storageSize, memberFormat,
    show readMember abi s isBoolean elem elemSize = fun data => _ from
      funext fun data => readMember.eq_1 ..]
  split_ifs with h1 h2 h3
  · refine (harray h1 h2 data src).map fun data' w r _ hleaves =>
      ⟨fun v hv hk hM hsmall => ?_, fun hover => congrArg _ (hleaves.2 hover)⟩
    obtain ⟨vs, hvs, rfl⟩ := Option.map_eq_some_iff.mp hv
    exact ⟨vs, rfl, readEach_length hvs, hleaves.1 vs hvs hk hM hsmall⟩
  · exact hbools h3 data src
  · exact hdynamic (by simpa using h3) data src
  · exact hsingle data src

/-- A run over members from `pos` on leaves alone what lies before. -/
theorem deserializeMembers_take {pos size : ℕ} {ms : List (MessageMember MessageMembers)}
    (hms : InOrder abi pos ms size)
    (hm : ∀ m ∈ ms, FollowsFrame M keep (deserializeMember abi ops reg m)
      (memberFrame abi tg reg m) (m.storageSize abi) (contentMember abi m)
      (EncodesMember abi reg m))
    {data data' : List Cell} {src rest : List UInt8} (hlen : size ≤ data.length)
    (hrun : deserializeMembers abi ops reg ms data src = .ok (data', rest)) :
    data'.take pos = data.take pos := by
  induction ms generalizing pos data src with
  | nil => cases hrun; rfl
  | cons m ms ih =>
    have hend : m.offset + m.storageSize abi ≤ size := hms.2.le
    have hpos : pos ≤ m.offset := hms.1
    rw [deserializeMembers, Decoder.within] at hrun
    cases hfirst : deserializeMember abi ops reg m (data.drop m.offset) src with
    | error e => rw [hfirst] at hrun; cases hrun
    | ok p =>
      obtain ⟨tail, src'⟩ := p
      rw [hfirst] at hrun
      obtain ⟨w, r, -, -, -, hlen', -⟩ := (hm m (.head _)).returned hfirst
      rw [List.length_drop] at hlen'
      have hrest := ih hms.2 (fun m' hm' => hm m' (.tail _ hm'))
        (show size ≤ (data.take m.offset ++ tail).length by
          rw [List.length_append, List.length_take, hlen']
          omega) hrun
      rw [take_of_take_eq hrest (by omega : pos ≤ _),
        List.take_append_of_le_length (by rw [List.length_take]; omega), List.take_take,
        Nat.min_eq_left hpos]

/-- What is left of a first member and of the others is left of all of them. -/
theorem Leaves.members {m : MessageMember MessageMembers}
    {ms : List (MessageMember MessageMembers)} {data : List Cell} {w u : List UInt8}
    {r : Option Value} {rs : Option (List Value)}
    (h : Leaves (contentMember abi m) (leaves M keep (EncodesMember abi reg m)) (Overwrites M keep)
      (data.drop m.offset) w r)
    (h' : Leaves (contentMembers abi ms) (leaves M keep (EncodesMembers abi reg ms))
      (Overwrites M keep) data u rs) :
    Leaves (contentMembers abi (m :: ms)) (leaves M keep (EncodesMembers abi reg (m :: ms)))
      (Overwrites M keep) data (w ++ u) (consReading r rs) := by
  refine ⟨fun vs hvs hk hM hsmall => ?_, fun hover => ?_⟩
  · obtain ⟨v, rest, hv, hrest, rfl⟩ := contentMembers_cons_eq_some.mp hvs
    exact ⟨v, rest, w, u, rfl, rfl, h.1 v hv hk hM hsmall.left,
      h'.1 rest hrest hk hM hsmall.right⟩
  · rw [contentMembers, h.2 hover, h'.2 hover]
    rfl

/-- Members in order follow their grammar.  What the first of them has left behind is still there
when the others are done. -/
theorem deserializeMembers_follows {pos size : ℕ} {ms : List (MessageMember MessageMembers)}
    (hms : InOrder abi pos ms size)
    (hloc : ∀ m ∈ ms, LocalTo (m.storageSize abi) (contentMember abi m))
    (hunique : ∀ m ∈ ms, (memberFrame abi tg reg m).Unique)
    (hm : ∀ m ∈ ms, FollowsFrame M keep (deserializeMember abi ops reg m)
      (memberFrame abi tg reg m) (m.storageSize abi) (contentMember abi m)
      (EncodesMember abi reg m))
    {data : List Cell} (hlen : size ≤ data.length) (src : List UInt8) :
    Outcome .undefined (membersFrame abi tg reg ms) size
      (Leaves (contentMembers abi ms) (leaves M keep (EncodesMembers abi reg ms))
        (Overwrites M keep)) data src (deserializeMembers abi ops reg ms data src) := by
  induction ms generalizing pos data src with
  | nil =>
    exact .returned (w := []) rfl ⟨rfl, rfl⟩ hlen rfl rfl
      ⟨fun vs hvs _ _ _ => by cases hvs; exact ⟨rfl, rfl⟩, fun _ => rfl⟩
  | cons m ms ih =>
    have hend : m.offset + m.storageSize abi ≤ size := hms.2.le
    have hfirst := (hm m (.head _) (data.drop m.offset) src).within (by omega)
    rw [membersFrame_cons]
    refine Outcome.andThen ((hunique m (.head _)).within _) hfirst
      fun data' w rest r _ hlen' hdrop hleaves => ?_
    have hm' : ∀ m' ∈ ms, m' ∈ m :: ms := fun m' hm' => .tail _ hm'
    have hout := ih hms.2 (fun m h => hloc m (hm' m h)) (fun m h => hunique m (hm' m h))
      (fun m h => hm m (hm' m h)) (show size ≤ data'.length by omega) rest
    have htake : ∀ data'' rest',
        deserializeMembers abi ops reg ms data' rest = .ok (data'', rest') →
          data''.take (m.offset + m.storageSize abi) = data'.take (m.offset + m.storageSize abi) :=
      fun _ _ => deserializeMembers_take hms.2 (fun m h => hm m (hm' m h)) (hlen'.symm ▸ hlen)
    generalize deserializeMembers abi ops reg ms data' rest = r' at hout htake
    cases hout with
    | @returned data'' u rest' rs hsrc hreads hroom hlen'' hdrop' hleaves' =>
      have hbehind := congrArg (List.drop (size - (m.offset + m.storageSize abi))) hdrop
      rw [List.drop_drop, List.drop_drop, Nat.add_sub_cancel' hend] at hbehind
      refine .returned hsrc ((membersFrame_congr hms.2 hdrop _ _).mp hreads) hlen (by omega)
        (hdrop'.trans hbehind) (Leaves.members (hleaves.congr ?_) hleaves')
      exact hloc m (.head _) _ _ (drop_take_of_take_eq (htake data'' rest' rfl))
    | refused hsrc hreads hne =>
      exact .refused hsrc ((membersFrame_congr hms.2 hdrop _ _).mp hreads) hne
    | wrong hreads =>
      exact .wrong fun u rest' e hsrc hu =>
        hreads u rest' e hsrc ((membersFrame_congr hms.2 hdrop _ _).mpr hu)

theorem deserializeMember_follows (hops : ops.Framed M abi keep tg) {T : MessageMembers}
    (h : RosidlLayout abi T)
    (hsub : ∀ sub, T.HasMember sub → FollowsFrame M keep (deserializeMessage abi ops reg sub)
      (messageFrame abi tg reg sub) sub.sizeOf (contentMessage abi sub) (Encodes abi reg sub))
    {m : MessageMember MessageMembers} (hm : m ∈ T.members) :
    FollowsFrame M keep (deserializeMember abi ops reg m) (memberFrame abi tg reg m)
      (m.storageSize abi) (contentMember abi m) (EncodesMember abi reg m) := by
  have harray := h.arraySize_le hm
  obtain ⟨s, p | _ | _ | _ | sub, off⟩ := m
  · refine shapeFrame_follows (primitiveFormat p) ?_ (fun h1 h2 => ?_) (fun hb => ?_)
      (fun hb => hops.dynamicArray ?_)
    · exact Follows.leaves (copyBytes_follows (readPrimitive_local p) (fun v w hlen hv =>
        (primitiveFormat_iff p v w).mpr ⟨hlen, hv⟩) _)
    · have hsize : s.arraySize * p.sizeof ≤ maxSize := harray h1 h2
      rw [deserializeArray, Nat.mul_comm p.sizeof, sizeT_of_le hsize]
      exact Follows.leaves
        (copyBytes_follows_each (readPrimitive_local p) (primitiveFormat_iff p) _)
    · cases p <;> first | exact hops.dynamicArrayBool | cases hb
    · rintro rfl
      cases hb
  · exact shapeFrame_follows _ hops.singleString (fun _ _ => hops.singleString.each
      hops.singleString_unique (abi.readString_local.comp _) _) nofun fun _ =>
        hops.dynamicArrayString
  · exact fun data src => .refused (w := []) rfl ⟨rfl, rfl⟩ nofun
  · exact fun data src => .refused (w := []) rfl ⟨rfl, rfl⟩ nofun
  · have hS : T.HasMember sub := ⟨_, hm, rfl⟩
    have hunique : (messageFrame abi tg reg sub).Unique := messageFrame_unique hops sub
    have hloc := contentMessage_local (h.sub hS)
    have hmarked : reg.isMemcopyable sub = true → ∀ v w, Encodes abi reg sub v w ↔
        w.length = sub.sizeOf ∧ contentMessage abi sub (w.map .byte) = some v :=
      fun hmark v w => encodes_marked hmark
    refine shapeFrame_follows _ (hsub sub hS) (fun h1 h2 => ?_) nofun fun _ =>
      hops.dynamicArrayMessage (h.sub hS).pos hloc hunique (hsub sub hS) hmarked
    have hsize : s.arraySize * sub.sizeOf ≤ maxSize := harray h1 h2
    rw [deserializeArrayMessage]
    split_ifs with hmark
    · rw [sizeT_of_le hsize, messageFrame_marked hmark]
      exact Follows.leaves (copyBytes_follows_each hloc (hmarked hmark) _)
    · exact (hsub sub hS).each hunique hloc _

/-- **A deserializer reads what the grammar of its message type says**, for every registry and
from every storage. -/
theorem deserializeMessage_follows (hops : ops.Framed M abi keep tg) {T : MessageMembers}
    (h : RosidlLayout abi T) : FollowsFrame M keep (deserializeMessage abi ops reg T)
      (messageFrame abi tg reg T) T.sizeOf (contentMessage abi T) (Encodes abi reg T) := by
  induction T using MessageMembers.induction with
  | h T ih =>
    intro data src
    by_cases hmark : reg.isMemcopyable T = true
    · rw [deserializeMessage_marked hmark, messageFrame_marked hmark]
      exact Follows.leaves (copyBytes_follows (contentMessage_local h) (fun v w hlen hv =>
        (encodes_marked hmark).mpr ⟨hlen, hv⟩) _) data src
    · rw [messageFrame_unmarked hmark]
      by_cases hlen : T.sizeOf ≤ data.length
      · rw [deserializeMessage_unmarked hmark hlen]
        have hmembers := deserializeMembers_follows h.inOrder
          (fun m hm => contentMember_local h hm)
          (fun m hm => memberFrame_unique hops fun sub _ => messageFrame_unique hops sub)
          (fun m hm => deserializeMember_follows hops h (fun sub hsub => ih sub hsub (h.sub hsub))
            hm) hlen src
        generalize deserializeMembers abi ops reg T.members data src = r at hmembers
        have hout : Outcome .undefined
            (Grammar.map (Option.map .message) (membersFrame abi tg reg T.members)) T.sizeOf
            (Leaves (contentMessage abi T) (leaves M keep (Encodes abi reg T)) (Overwrites M keep))
            data src r := by
          refine hmembers.map fun data' w r hlen' hleaves =>
            ⟨fun v hv hk hM hsmall => ?_, fun hover => ?_⟩
          · obtain ⟨-, vs, hvs, rfl⟩ := contentMessage_eq_some.mp hv
            exact (encodes_unmarked hmark).mpr ⟨vs, rfl, hleaves.1 vs hvs hk hM hsmall⟩
          · rw [contentMessage_eq, if_pos (by omega), hleaves.2 hover]
        cases hout with
        | returned hsrc hreads hroom hlen' hdrop hleaves =>
          exact .returned hsrc ⟨hlen, hreads⟩ hroom hlen' hdrop hleaves
        | refused hsrc hreads hne => exact .refused hsrc ⟨hlen, hreads⟩ hne
        | wrong hreads => exact .wrong fun w rest e hsrc hw => hreads w rest e hsrc hw.2
      · have hrun : deserializeMessage abi ops reg T data src = .error .undefined := by
          obtain ⟨name, size, ms⟩ := T
          rw [deserializeMessage, if_neg hmark]
          exact if_neg hlen
        rw [hrun]
        exact .wrong fun w rest e _ hw => hlen hw.1

end Message

end RmwEcal
