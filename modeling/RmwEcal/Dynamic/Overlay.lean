import RmwEcal.Dynamic.Wire

/-!
# What decoding leaves of the target

Decoding does not write a message into fresh memory but into one that is already there.
`Value.overlay keep old v` is what a target that held `old` holds after `v` was decoded into it:
with `keep` set, strings and sequences of booleans are appended to what was there, at every depth;
otherwise nothing of `old` survives.  Two kinds of targets are harmless anyway.

* A `Blank` target, all of whose strings and sequences are empty, ends up holding `v`.
* A `Flat` value, without strings and sequences, overwrites whatever was there.
-/

set_option autoImplicit false

namespace RmwEcal

open Codec

namespace Value

instance : Inhabited Value := ⟨.primitive []⟩

/-- The characters of a string. -/
def chars : Value → List UInt8
  | .string chars => chars
  | _ => []

/-- The elements of a sequence of booleans. -/
def bits : Value → List Bool
  | .bools bits => bits
  | _ => []

/-- The elements or fields of a value that has any. -/
def elems : Value → List Value
  | .array elems | .sequence elems | .message elems => elems
  | _ => []

mutual

/-- What a target that held `old` holds after `v` has been decoded into it. -/
def overlay (keep : Bool) : Value → Value → Value
  | _, .primitive bytes => .primitive bytes
  | old, .string chars => .string ((if keep then old.chars else []) ++ chars)
  | old, .bools bits => .bools ((if keep then old.bits else []) ++ bits)
  | old, .array vs => .array (overlayList keep old.elems vs)
  | old, .sequence vs => .sequence (overlayList keep old.elems vs)
  | old, .message vs => .message (overlayList keep old.elems vs)

/-- The same for values in a row.  Elements that the target did not have yet are empty. -/
def overlayList (keep : Bool) : List Value → List Value → List Value
  | _, [] => []
  | olds, v :: vs => overlay keep (olds.headD default) v :: overlayList keep olds.tail vs

/-- The strings and sequences of booleans in a value are within their size limits. -/
def Storable : Value → Prop
  | .primitive _ => True
  | .string chars => chars.length < maxSize
  | .bools bits => bits.length ≤ maxSize
  | .array vs | .sequence vs | .message vs => StorableList vs

/-- The same for values in a row. -/
def StorableList : List Value → Prop
  | [] => True
  | v :: vs => v.Storable ∧ StorableList vs

/-- All strings and sequences are empty, as in a freshly constructed message. -/
def Blank : Value → Prop
  | .primitive _ => True
  | .string chars => chars = []
  | .bools bits => bits = []
  | .sequence vs => vs = []
  | .array vs | .message vs => BlankList vs

/-- The same for values in a row. -/
def BlankList : List Value → Prop
  | [] => True
  | v :: vs => v.Blank ∧ BlankList vs

/-- There is neither a string nor a sequence in a value. -/
def Flat : Value → Prop
  | .primitive _ => True
  | .string _ | .bools _ | .sequence _ => False
  | .array vs | .message vs => FlatList vs

/-- The same for values in a row. -/
def FlatList : List Value → Prop
  | [] => True
  | v :: vs => v.Flat ∧ FlatList vs

end

theorem storableList_iff {vs : List Value} : StorableList vs ↔ ∀ v ∈ vs, v.Storable := by
  induction vs with
  | nil => simp [StorableList]
  | cons v vs ih => simp [StorableList, ih]

theorem blankList_iff {vs : List Value} : BlankList vs ↔ ∀ v ∈ vs, v.Blank := by
  induction vs with
  | nil => simp [BlankList]
  | cons v vs ih => simp [BlankList, ih]

theorem flatList_iff {vs : List Value} : FlatList vs ↔ ∀ v ∈ vs, v.Flat := by
  induction vs with
  | nil => simp [FlatList]
  | cons v vs ih => simp [FlatList, ih]

theorem overlayList_eq_mergeList (keep : Bool) (olds vs : List Value) :
    overlayList keep olds vs = mergeList (overlay keep) default olds vs := by
  induction vs generalizing olds with
  | nil => rfl
  | cons v vs ih => rw [overlayList, mergeList, ih]

/-! ## Blank targets -/

theorem blank_default : Blank default := by
  rw [show (default : Value) = .primitive [] from rfl, Blank]
  trivial

theorem Blank.chars_eq {z : Value} (h : z.Blank) : z.chars = [] := by
  cases z <;> first | rfl | exact h

theorem Blank.bits_eq {z : Value} (h : z.Blank) : z.bits = [] := by
  cases z <;> first | rfl | exact h

theorem flatList_nil : FlatList [] := by
  rw [FlatList]
  trivial

theorem blankList_nil : BlankList [] := by
  rw [BlankList]
  trivial

theorem Blank.elems_blank {z : Value} (h : z.Blank) : BlankList z.elems := by
  cases z with
  | primitive _ | string _ | bools _ => exact blankList_nil
  | sequence vs =>
    rw [Blank] at h
    rw [elems, h]
    exact blankList_nil
  | array vs | message vs => exact h

theorem BlankList.headD {zs : List Value} (h : BlankList zs) : (zs.headD default).Blank := by
  cases zs with
  | nil => exact blank_default
  | cons z zs => exact h.1

theorem BlankList.tail {zs : List Value} (h : BlankList zs) : BlankList zs.tail := by
  cases zs with
  | nil => exact h
  | cons z zs => exact h.2

mutual

/-- **A blank target ends up holding what was decoded.** -/
theorem overlay_of_blank (keep : Bool) : ∀ {z : Value}, z.Blank → ∀ v, overlay keep z v = v
  | _, _, .primitive _ => by rw [overlay]
  | _, h, .string _ => by rw [overlay, h.chars_eq, ite_self, List.nil_append]
  | _, h, .bools _ => by rw [overlay, h.bits_eq, ite_self, List.nil_append]
  | _, h, .array vs => by rw [overlay, overlayList_of_blank keep h.elems_blank vs]
  | _, h, .sequence vs => by rw [overlay, overlayList_of_blank keep h.elems_blank vs]
  | _, h, .message vs => by rw [overlay, overlayList_of_blank keep h.elems_blank vs]

theorem overlayList_of_blank (keep : Bool) :
    ∀ {zs : List Value}, BlankList zs → ∀ vs, overlayList keep zs vs = vs
  | _, _, [] => by rw [overlayList]
  | _, h, v :: vs => by
    rw [overlayList, overlay_of_blank keep h.headD v, overlayList_of_blank keep h.tail vs]

end

mutual

/-- **A decoder that keeps nothing overwrites its target.** -/
theorem overlay_false : ∀ old v : Value, overlay false old v = v
  | _, .primitive _ => by rw [overlay]
  | _, .string _ => by rw [overlay]; rfl
  | _, .bools _ => by rw [overlay]; rfl
  | old, .array vs => by rw [overlay, overlayList_false old.elems vs]
  | old, .sequence vs => by rw [overlay, overlayList_false old.elems vs]
  | old, .message vs => by rw [overlay, overlayList_false old.elems vs]

theorem overlayList_false : ∀ olds vs : List Value, overlayList false olds vs = vs
  | _, [] => by rw [overlayList]
  | olds, v :: vs => by
    rw [overlayList, overlay_false (olds.headD default) v, overlayList_false olds.tail vs]

end

/-! ## Flat values -/

mutual

/-- **A value without strings and sequences overwrites its target.** -/
theorem overlay_of_flat (keep : Bool) : ∀ {v : Value}, v.Flat → ∀ old, overlay keep old v = v
  | .primitive _, _, _ => by rw [overlay]
  | .array vs, h, old => by
    rw [overlay, overlayList_of_flat keep (show FlatList vs from h) old.elems]
  | .message vs, h, old => by
    rw [overlay, overlayList_of_flat keep (show FlatList vs from h) old.elems]

theorem overlayList_of_flat (keep : Bool) :
    ∀ {vs : List Value}, FlatList vs → ∀ olds, overlayList keep olds vs = vs
  | [], _, _ => by rw [overlayList]
  | v :: vs, h, olds => by
    rw [overlayList, overlay_of_flat keep h.1, overlayList_of_flat keep h.2]

end

/-! ## Resized sequences -/

/-- Elements that are blank because a sequence was resized leave no trace. -/
theorem overlayList_resized {z : Value} (h : z.Blank) (keep : Bool) (olds vs : List Value) :
    overlayList keep
        (olds.take vs.length ++ List.replicate (vs.length - olds.length) z) vs =
      overlayList keep olds vs := by
  induction vs generalizing olds with
  | nil => rw [overlayList, overlayList]
  | cons v vs ih =>
    cases olds with
    | nil =>
      have hblank : ∀ n, BlankList (List.replicate n z) := fun n =>
        blankList_iff.mpr fun x hx => List.eq_of_mem_replicate hx ▸ h
      rw [List.take_nil, List.nil_append, overlayList_of_blank keep (hblank _),
        overlayList_of_blank keep blankList_nil]
    | cons old olds =>
      rw [overlayList, overlayList, List.length_cons, List.length_cons, List.take_succ_cons,
        List.cons_append, List.headD_cons, List.tail_cons, Nat.add_sub_add_right, ih]
      rfl

end Value

/-! ## Plain old data is flat -/

section Pod

variable {abi : Abi}

theorem flatList_readEach {elem : List Cell → Option Value} {elemSize : ℕ}
    (h : ∀ data v, elem data = some v → v.Flat) {n : ℕ} {data : List Cell} {vs : List Value}
    (hvs : readEach elem elemSize n data = some vs) : Value.FlatList vs := by
  induction n generalizing data vs with
  | zero =>
    cases hvs
    exact Value.flatList_nil
  | succ n ih =>
    obtain ⟨v, rest, hv, hrest, rfl⟩ := readEach_succ_eq_some.mp hvs
    exact ⟨h _ _ hv, ih hrest⟩

theorem flat_readMember {elem : List Cell → Option Value} {elemSize : ℕ}
    (h : ∀ data v, elem data = some v → v.Flat) {s : ArrayShape}
    (hs : s.isArray = true → s.isStatic = true) {isBoolean : Bool} {data : List Cell} {v : Value}
    (hv : readMember abi s isBoolean elem elemSize data = some v) : v.Flat := by
  rw [readMember] at hv
  split_ifs at hv with h1 h2
  · obtain ⟨vs, hvs, rfl⟩ := Option.map_eq_some_iff.mp hv
    exact flatList_readEach h hvs
  · exact absurd (hs h1) h2
  · exact absurd (hs h1) h2
  · exact h _ _ hv

theorem flatList_contentMembers {ms : List (MessageMember MessageMembers)} {data : List Cell}
    (h : ∀ m ∈ ms, ∀ data v, contentMember abi m data = some v → v.Flat) {vs : List Value}
    (hvs : contentMembers abi ms data = some vs) : Value.FlatList vs := by
  induction ms generalizing vs with
  | nil =>
    cases hvs
    exact Value.flatList_nil
  | cons m ms ih =>
    obtain ⟨v, rest, hv, hrest, rfl⟩ := contentMembers_cons_eq_some.mp hvs
    exact ⟨h m (.head _) _ v hv, ih (fun m' hm' => h m' (.tail _ hm')) hrest⟩

/-- **There is neither a string nor a sequence in plain old data.** -/
theorem flat_of_pod {T : MessageMembers} (hpod : Pod T) {data : List Cell} {v : Value}
    (hv : contentMessage abi T data = some v) : v.Flat := by
  induction T using MessageMembers.induction generalizing data v with
  | h T ih =>
    obtain ⟨-, vs, hvs, rfl⟩ := contentMessage_eq_some.mp hv
    refine flatList_contentMembers (fun m hm data v hv => ?_) hvs
    refine flat_readMember (fun data v hv => ?_) (fun h => hpod.shape hm h) (contentMember_eq hv)
    have hkind := hpod.kind hm
    obtain ⟨s, p | _ | _ | _ | sub, off⟩ := m
    · obtain ⟨bs, -, rfl⟩ := Option.map_eq_some_iff.mp hv
      rw [Value.Flat]
      trivial
    · exact hkind.elim
    · exact hkind.elim
    · exact hkind.elim
    · exact ih sub ⟨_, hm, rfl⟩ (hpod.sub ⟨_, hm, rfl⟩) hv

end Pod

end RmwEcal
