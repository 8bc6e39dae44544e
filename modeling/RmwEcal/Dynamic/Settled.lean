import RmwEcal.Dynamic.Deserializer
import RmwEcal.Dynamic.Overlay

/-!
# Targets that `CppDeserializer` can decode into

A vector of messages is resized as a vector of `char`.  If it outgrows its memory, its elements move
to another block as plain bytes, and the short strings among them do not survive that.  So a target
is only `Settled` for a value if no vector of messages in it has to move elements that cannot be
moved.

A target whose sequences are all empty is settled for every value (`settled_of_blank`), and so is
zeroed memory, as which the new elements of a vector begin.
-/

set_option autoImplicit false

namespace RmwEcal

open Codec Value

/-! ## Settled targets -/

/-- The elements of the vector of messages at `data` can go where `resize` puts them for `v`, and
are ready there for what is decoded into them. -/
def SettledVector (read : List Cell → Option Value) (ready : Value → List Cell → Prop) (size : ℕ)
    (v : Value) (data : List Cell) : Prop :=
  ∀ storage, stdVector? data = some storage →
    (storage.length + spare data < v.elems.length * size →
      readEach read size (storage.length / size) (storage.map Cell.moved) =
        readEach read size (storage.length / size) storage) ∧
    ReadyEach ready size v.elems
      (CppDeserializer.resized 1 [.byte 0] Cell.moved (v.elems.length * size) storage (spare data))

/-- A member of any shape is ready if its elements are. -/
def settledShape (s : ArrayShape) (ready vector : Value → List Cell → Prop) (elemSize : ℕ)
    (v : Value) (data : List Cell) : Prop :=
  if s.isArray then
    if s.isStatic then ReadyEach ready elemSize (v.elems.take s.arraySize) data else vector v data
  else ready v data

section

variable (abi : Abi)

mutual

/-- **Nothing in the message at `data` gets lost when `v` is decoded into it.** -/
def Settled : MessageMembers → Value → List Cell → Prop
  | .mk _ _ ms, v, data => SettledMembers ms v.elems data

/-- The same for the members of the struct at `data`. -/
def SettledMembers : List (MessageMember MessageMembers) → List Value → List Cell → Prop
  | [], _, _ => True
  | m :: ms, vs, data =>
    SettledMember m (vs.headD default) (data.drop m.offset) ∧ SettledMembers ms vs.tail data

/-- The same for the member at `data`. -/
def SettledMember : MessageMember MessageMembers → Value → List Cell → Prop
  | ⟨s, .message sub, _⟩, v, data =>
    settledShape s (Settled sub)
      (SettledVector (contentMessage abi sub) (Settled sub) sub.sizeOf) sub.sizeOf v data
  | ⟨_, .primitive _, _⟩, _, _ | ⟨_, .string, _⟩, _, _ | ⟨_, .wstring, _⟩, _, _
  | ⟨_, .wchar, _⟩, _, _ => True

end

end

theorem readyEach_of_forall {ready : Value → List Cell → Prop} (h : ∀ v data, ready v data)
    (size : ℕ) (vs : List Value) (data : List Cell) : ReadyEach ready size vs data := by
  induction vs generalizing data with
  | nil => trivial
  | cons v vs ih => exact ⟨h v data, ih _⟩

/-- Members without messages are settled. -/
theorem settledShape_true (s : ArrayShape) (elemSize : ℕ) (v : Value) (data : List Cell) :
    settledShape s (fun _ _ => True) (fun _ _ => True) elemSize v data := by
  rw [settledShape]
  split_ifs
  exact readyEach_of_forall (fun _ _ => trivial) _ _ _

section

variable {abi : Abi}

theorem settled_iff {T : MessageMembers} {v : Value} {data : List Cell} :
    Settled abi T v data ↔ SettledMembers abi T.members v.elems data := by
  obtain ⟨name, size, ms⟩ := T
  rw [Settled]
  rfl

/-- Members that all lie beyond `pos` do not see what is before it. -/
theorem settledMembers_congr {pos size : ℕ}
    {ms : List (MessageMember MessageMembers)} (hms : InOrder abi pos ms size)
    {data data' : List Cell} (h : data.drop pos = data'.drop pos) (vs : List Value) :
    SettledMembers abi ms vs data ↔ SettledMembers abi ms vs data' := by
  induction ms generalizing pos vs with
  | nil => exact Iff.rfl
  | cons m ms ih =>
    have hdrop : ∀ n, pos ≤ n → data.drop n = data'.drop n := fun n hn => by
      have h' := congrArg (List.drop (n - pos)) h
      rwa [List.drop_drop, List.drop_drop, Nat.add_sub_cancel' hn] at h'
    have hoff : pos ≤ m.offset := hms.1
    rw [SettledMembers, SettledMembers, hdrop m.offset hoff, ih hms.2 (hdrop _ (by omega))]

end

namespace CppDeserializer

theorem readString_eq_some {data : List Cell} {chars : List UInt8} :
    cppAbi.readString data = some chars ↔
      stdString? data = some chars ∧ chars.length < maxSize := by
  rw [show cppAbi.readString data = (stdString? data).filter fun chars =>
    decide (chars.length < maxSize) from rfl, Option.filter_eq_some_iff, decide_eq_true_iff]

theorem readBools_eq_some {data : List Cell} {bits : List Bool} :
    cppAbi.readBools data = some bits ↔
      stdVectorBool? data = some bits ∧ bits.length ≤ maxSize := by
  rw [show cppAbi.readBools data = (stdVectorBool? data).filter fun bits =>
    decide (bits.length ≤ maxSize) from rfl, Option.filter_eq_some_iff, decide_eq_true_iff]

/-! ## Zeroed memory -/

theorem drop_zeros (m n : ℕ) : (zeros n).drop m = zeros (n - m) := by
  rw [zeros, List.drop_replicate, zeros]

theorem head?_zeros {size n : ℕ} (hpos : 0 < size) (h : size ≤ n) :
    head? size (zeros n) = some (.byte 0) := by
  obtain ⟨n, rfl⟩ := Nat.exists_eq_succ_of_ne_zero (show n ≠ 0 by omega)
  rw [head?, if_pos (by rwa [zeros, List.length_replicate]), zeros, List.replicate_succ]
  rfl

theorem zeroed_zeros (size n : ℕ) : zeroed size (zeros n) = true := by
  rw [zeroed, zeros, List.take_replicate, List.all_eq_true]
  intro c hc
  rw [List.eq_of_mem_replicate hc]
  rfl

theorem readEach_zeros {size : ℕ} {read : List Cell → Option Value}
    (h : ∀ n, size ≤ n → ∃ z : Value, z.Blank ∧ read (zeros n) = some z) {k n : ℕ}
    (hn : k * size ≤ n) :
    ∃ zs, BlankList zs ∧ readEach read size k (zeros n) = some zs := by
  induction k generalizing n with
  | zero => exact ⟨[], blankList_nil, rfl⟩
  | succ k ih =>
    rw [Nat.succ_mul] at hn
    obtain ⟨z, hz, hread⟩ := h n (by omega)
    obtain ⟨zs, hzs, hreads⟩ := ih (n := n - size) (by omega)
    exact ⟨z :: zs, ⟨hz, hzs⟩,
      readEach_succ_eq_some.mpr ⟨z, zs, hread, by rw [drop_zeros, hreads], rfl⟩⟩

theorem readMember_zeros {s : ArrayShape} {isBoolean : Bool} (elem : List Cell → Option Value)
    {elemSize : ℕ} (h : ∀ n, elemSize ≤ n → ∃ z : Value, z.Blank ∧ elem (zeros n) = some z)
    {n : ℕ} (hn : s.storageSize cppAbi isBoolean elemSize ≤ n) :
    ∃ z : Value, z.Blank ∧ readMember cppAbi s isBoolean elem elemSize (zeros n) = some z := by
  rw [ArrayShape.storageSize] at hn
  rw [readMember]
  split_ifs at hn ⊢
  · obtain ⟨zs, hzs, hread⟩ := readEach_zeros h hn
    exact ⟨.array zs, hzs, by rw [hread]; rfl⟩
  · refine ⟨.bools [], by rw [Blank], ?_⟩
    have hvec : stdVectorBool? (zeros n) = some [] := by
      rw [stdVectorBool?, head?_zeros (show 0 < 40 by decide) hn]
      exact if_pos (zeroed_zeros 40 n)
    rw [readBools_eq_some.mpr ⟨hvec, Nat.zero_le _⟩]
    rfl
  · refine ⟨.sequence [], by rw [Blank], ?_⟩
    have hvec : stdVector? (zeros n) = some [] := by
      rw [stdVector?, head?_zeros (show 0 < 24 by decide) hn]
      exact if_pos (zeroed_zeros 24 n)
    have hread : cppAbi.readVector elemSize (zeros n) = some (0, []) := by
      dsimp only [cppAbi]
      rw [hvec, Option.bind_some, List.length_nil, Nat.zero_div, Nat.zero_mul]
      exact if_pos ⟨rfl, Nat.zero_le _⟩
    rw [readSequence, hread]
    rfl
  · exact h n hn

theorem readPrimitive_zeros (p : Primitive) {n : ℕ} (hn : p.sizeof ≤ n) :
    ∃ z : Value, z.Blank ∧ readPrimitive p (zeros n) = some z := by
  refine ⟨.primitive (List.replicate p.sizeof 0), by rw [Blank]; trivial,
    Option.map_eq_some_iff.mpr ⟨_, bytes?_eq_some.mpr ⟨?_, ?_⟩, rfl⟩⟩
  · rwa [zeros, List.length_replicate]
  · rw [zeros, List.take_replicate, Nat.min_eq_left hn, List.map_replicate]

theorem contentMembers_zeros {n : ℕ} {ms : List (MessageMember MessageMembers)}
    (h : ∀ m ∈ ms, ∃ z : Value, z.Blank ∧
      contentMember cppAbi m (zeros (n - m.offset)) = some z) :
    ∃ zs, BlankList zs ∧ contentMembers cppAbi ms (zeros n) = some zs := by
  induction ms with
  | nil => exact ⟨[], blankList_nil, rfl⟩
  | cons m ms ih =>
    obtain ⟨z, hz, hread⟩ := h m (.head _)
    obtain ⟨zs, hzs, hreads⟩ := ih fun m' hm' => h m' (.tail _ hm')
    exact ⟨z :: zs, ⟨hz, hzs⟩,
      contentMembers_cons_eq_some.mpr ⟨z, zs, by rw [drop_zeros, hread], hreads, rfl⟩⟩

/-- **In zeroed memory every supported message is there, and blank.** -/
theorem contentMessage_zeros {T : MessageMembers} (h : RosidlLayout cppAbi T) (hT : Supported T)
    {n : ℕ} (hn : T.sizeOf ≤ n) :
    ∃ z : Value, z.Blank ∧ contentMessage cppAbi T (zeros n) = some z := by
  induction T using MessageMembers.induction generalizing n with
  | h T ih =>
    have hmember : ∀ m ∈ T.members, ∃ z : Value, z.Blank ∧
        contentMember cppAbi m (zeros (n - m.offset)) = some z := by
      intro m hm
      have hend := h.inOrder.storageSize_le hm
      have hkind := hT.kinds hm
      have hroom : m.storageSize cppAbi ≤ n - m.offset := by omega
      obtain ⟨s, p | _ | _ | _ | sub, off⟩ := m
      · exact readMember_zeros _ (fun k => readPrimitive_zeros p) hroom
      · refine readMember_zeros (fun d => (cppAbi.readString d).map Value.string)
          (fun k hk => ⟨.string [], by rw [Blank], ?_⟩) hroom
        have hstring : stdString? (zeros k) = some [] := by
          rw [stdString?, head?_zeros (show 0 < 32 by decide) hk]
          exact if_pos (zeroed_zeros 32 k)
        rw [readString_eq_some.mpr ⟨hstring, by decide⟩]
        rfl
      · exact absurd rfl hkind.1
      · exact absurd rfl hkind.2
      · exact readMember_zeros (contentMessage cppAbi sub) (fun k =>
          ih sub ⟨_, hm, rfl⟩ (h.sub ⟨_, hm, rfl⟩) (hT.sub ⟨_, hm, rfl⟩)) hroom
    obtain ⟨zs, hzs, hreads⟩ := contentMembers_zeros hmember
    exact ⟨.message zs, hzs, contentMessage_eq_some.mpr
      ⟨by rwa [zeros, List.length_replicate], zs, hreads, rfl⟩⟩

end CppDeserializer

/-! ## Blank targets are settled -/

theorem resized_nil (relocate : Cell → Cell) (n spare : ℕ) :
    CppDeserializer.resized 1 [.byte 0] relocate n [] spare = zeros n := by
  have hempty : (if (n - 0) * 1 ≤ spare then [] else List.map relocate []) = [] := ite_self []
  rw [CppDeserializer.resized, List.length_nil, Nat.zero_div, List.take_nil, hempty,
    List.nil_append, List.flatten_replicate_singleton, Nat.sub_zero, zeros]
  split_ifs with hn
  · rw [Nat.le_zero.mp hn, List.replicate_zero]
  · rfl

theorem readyEach_zeros {ready : Value → List Cell → Prop} {size : ℕ}
    (h : ∀ v n, size ≤ n → ready v (zeros n)) {vs : List Value} {n : ℕ}
    (hn : vs.length * size ≤ n) : ReadyEach ready size vs (zeros n) := by
  induction vs generalizing n with
  | nil => trivial
  | cons v vs ih =>
    rw [List.length_cons, Nat.succ_mul] at hn
    refine ⟨h v n (by omega), ?_⟩
    rw [CppDeserializer.drop_zeros]
    exact ih (by omega)

theorem readyEach_of_blank {ready : Value → List Cell → Prop} {read : List Cell → Option Value}
    (h : ∀ v data z, read data = some z → z.Blank → ready v data) {size n : ℕ} {vs zs : List Value}
    {data : List Cell} (hn : vs.length ≤ n) (hread : readEach read size n data = some zs)
    (hblank : BlankList zs) : ReadyEach ready size vs data := by
  induction vs generalizing n zs data with
  | nil => trivial
  | cons v vs ih =>
    rw [List.length_cons] at hn
    obtain ⟨n, rfl⟩ := Nat.exists_eq_succ_of_ne_zero (show n ≠ 0 by omega)
    obtain ⟨z, zs, hz, hrest, rfl⟩ := readEach_succ_eq_some.mp hread
    exact ⟨h v data z hz hblank.1, ih (by omega) hrest hblank.2⟩

/-- A vector without elements has none to move. -/
theorem settledVector_of_empty {read : List Cell → Option Value}
    {ready : Value → List Cell → Prop} {size : ℕ} (h : ∀ v n, size ≤ n → ready v (zeros n))
    {data : List Cell} (hdata : stdVector? data = some []) (v : Value) :
    SettledVector read ready size v data := by
  intro storage hstorage
  obtain rfl : [] = storage := Option.some.inj (hdata.symm.trans hstorage)
  refine ⟨fun _ => rfl, ?_⟩
  rw [resized_nil]
  exact readyEach_zeros h le_rfl

theorem stdVector?_of_blank {elem : List Cell → Option Value} {elemSize : ℕ} {data : List Cell}
    {z : Value} (hread : readSequence cppAbi elem elemSize data = some z) (hz : z.Blank) :
    stdVector? data = some [] := by
  obtain ⟨⟨n, storage⟩, hvector, hread⟩ := Option.bind_eq_some_iff.mp hread
  obtain ⟨vs, hvs, rfl⟩ := Option.map_eq_some_iff.mp hread
  obtain ⟨hstorage, -, hlen, -⟩ := CppSerializer.readVector_eq_some hvector
  rw [Blank] at hz
  have hn : vs.length = n := readEach_length hvs
  rw [← hn, hz, List.length_nil, Nat.zero_mul] at hlen
  rw [hstorage, List.eq_nil_of_length_eq_zero hlen.symm]

/-- **A target whose strings and sequences are all empty is settled**, whatever is decoded. -/
theorem settled_of_blank {T : MessageMembers} (h : RosidlLayout cppAbi T) (hT : Supported T)
    {data : List Cell} {z : Value} (hread : contentMessage cppAbi T data = some z) (hz : z.Blank)
    (v : Value) : Settled cppAbi T v data := by
  induction T using MessageMembers.induction generalizing data z v with
  | h T ih =>
    have hmember : ∀ m ∈ T.members, ∀ v data z, contentMember cppAbi m data = some z → z.Blank →
        SettledMember cppAbi m v data := by
      intro m hm v data z hread hz
      obtain ⟨s, p | _ | _ | _ | sub, off⟩ := m
      · rw [SettledMember]; trivial
      · rw [SettledMember]; trivial
      · rw [SettledMember]; trivial
      · rw [SettledMember]; trivial
      · have hsub : T.HasMember sub := ⟨_, hm, rfl⟩
        have hzeros : ∀ v n, sub.sizeOf ≤ n → Settled cppAbi sub v (zeros n) := fun v n hn => by
          obtain ⟨z, hz, hread⟩ :=
            CppDeserializer.contentMessage_zeros (h.sub hsub) (hT.sub hsub) hn
          exact ih sub hsub (h.sub hsub) (hT.sub hsub) hread hz v
        rw [contentMember, readMember] at hread
        rw [SettledMember, settledShape]
        split_ifs at hread ⊢
        · obtain ⟨zs, hzs, rfl⟩ := Option.map_eq_some_iff.mp hread
          refine readyEach_of_blank (fun v data z hread hz =>
            ih sub hsub (h.sub hsub) (hT.sub hsub) hread hz v) ?_ hzs hz.elems_blank
          rw [List.length_take]
          exact Nat.min_le_left _ _
        · contradiction
        · exact settledVector_of_empty hzeros (stdVector?_of_blank hread hz) v
        · exact ih sub hsub (h.sub hsub) (hT.sub hsub) hread hz v
    obtain ⟨-, zs, hzs, rfl⟩ := contentMessage_eq_some.mp hread
    have hblank : BlankList zs := hz.elems_blank
    clear hread hz
    rw [settled_iff]
    generalize v.elems = vs
    generalize T.members = ms at hmember hzs
    induction ms generalizing vs zs with
    | nil => trivial
    | cons m ms ihms =>
      obtain ⟨z, zs, hz, hrest, rfl⟩ := contentMembers_cons_eq_some.mp hzs
      exact ⟨hmember m (.head _) _ _ z hz hblank.1,
        ihms zs hblank.2 _ (fun m' hm' => hmember m' (.tail _ hm')) hrest⟩

end RmwEcal
