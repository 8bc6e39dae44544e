import RmwEcal.Codec.PrefixFree
import RmwEcal.Dynamic.Interop

/-!
# What bytes can stand for

The wire format says neither of which type a message is nor how long it is.  For a given type it
need not: whatever a process has analysed, and in both languages, no encoding of a message begins
with an encoding of another one (`prefixFree_encodes`).  So from the bytes of a message, whatever
follows them, one can tell the message and where it ends (`serialize_prefix_free`); for plain types
it does not matter who has sent them (`Plain.wire_inj`).
-/

set_option autoImplicit false

namespace RmwEcal

open Codec

section Encodings

variable {abi : Abi} {reg : Registry}

theorem sizeBytes_inj {m n : ℕ} (hm : m ≤ maxSize) (hn : n ≤ maxSize)
    (h : sizeBytes m = sizeBytes n) : m = n := by
  have hlt : ∀ {k}, k ≤ maxSize → k < 256 ^ 8 := fun hk => lt_of_le_of_lt hk (by decide)
  rw [← ofLeBytes_leBytes_of_lt (hlt hm), ← ofLeBytes_leBytes_of_lt (hlt hn)]
  exact congrArg ofLeBytes h

theorem boolByte_injective : Function.Injective boolByte := by
  rintro (_ | _) (_ | _) h
  all_goals first
    | rfl
    | cases h

theorem prefixFree_primitive (p : Primitive) : (primitiveFormat p).PrefixFree :=
  Format.prefixFree_of_length (fun _ _ h => h.2) fun _ _ _ h h' => h.1.trans h'.1.symm

theorem prefixFree_string : stringFormat.PrefixFree := by
  have hcounted := (Format.prefixFree_symbol (@Function.injective_id UInt8)).counted
    (· ≤ maxSize) length_sizeBytes fun _ _ => sizeBytes_inj
  have hnamed := hcounted.map Value.string
  rintro v v' w w' rest rest' ⟨chars, rfl, hlt, rfl⟩ ⟨chars', rfl, hlt', rfl⟩ heq
  exact hnamed ⟨chars, rfl, hlt.le, chars, rfl, by simpa using Format.each_symbol id chars⟩
    ⟨chars', rfl, hlt'.le, chars', rfl, by simpa using Format.each_symbol id chars'⟩ heq

theorem prefixFree_bools : boolsFormat.PrefixFree := by
  have hcounted := (Format.prefixFree_symbol boolByte_injective).counted (· ≤ maxSize)
    length_sizeBytes fun _ _ => sizeBytes_inj
  have hnamed := hcounted.map Value.bools
  rintro v v' w w' rest rest' ⟨bits, rfl, hle, rfl⟩ ⟨bits', rfl, hle', rfl⟩ heq
  exact hnamed ⟨bits, rfl, hle, _, rfl, Format.each_symbol boolByte bits⟩
    ⟨bits', rfl, hle', _, rfl, Format.each_symbol boolByte bits'⟩ heq

/-- What an element is told by, a member of any shape is. -/
theorem prefixFree_member {s : ArrayShape} {isBoolean : Bool} {fmt : Format Value UInt8}
    {elemSize : ℕ} (hpos : 0 < elemSize) (h : fmt.PrefixFree) :
    (memberFormat s isBoolean fmt elemSize).PrefixFree := by
  rintro v v' w w' rest rest' hw hw' heq
  rw [memberFormat] at hw hw'
  split_ifs at hw hw' with h1 h2 h3
  · obtain ⟨vs, rfl, hlen, hvs⟩ := hw
    obtain ⟨vs', rfl, hlen', hvs'⟩ := hw'
    exact (h.each s.arraySize).map Value.array ⟨vs, rfl, hlen, hvs⟩ ⟨vs', rfl, hlen', hvs'⟩ heq
  · exact prefixFree_bools hw hw' heq
  · have hcounted := h.counted (· ≤ maxSize) length_sizeBytes fun _ _ => sizeBytes_inj
    have hcount : ∀ n, n * elemSize ≤ maxSize → n ≤ maxSize := fun n hn =>
      (Nat.le_mul_of_pos_right n hpos).trans hn
    obtain ⟨vs, b, rfl, hle, rfl, hvs⟩ := hw
    obtain ⟨vs', b', rfl, hle', rfl, hvs'⟩ := hw'
    exact hcounted.map Value.sequence ⟨vs, rfl, hcount _ hle, b, rfl, hvs⟩
      ⟨vs', rfl, hcount _ hle', b', rfl, hvs'⟩ heq
  · exact h hw hw' heq

theorem prefixFree_members {ms : List (MessageMember MessageMembers)}
    (h : ∀ m ∈ ms, (EncodesMember abi reg m).PrefixFree) :
    (EncodesMembers abi reg ms).PrefixFree := by
  induction ms with
  | nil =>
    rintro vs vs' w w' rest rest' ⟨rfl, rfl⟩ ⟨rfl, rfl⟩ -
    exact ⟨rfl, rfl⟩
  | cons m ms ih => exact (h m (.head _)).append (ih fun m' hm' => h m' (.tail _ hm'))

/-- **No encoding of a message begins with an encoding of another one**, whatever is marked. -/
theorem prefixFree_encodes {l : Language} {T : MessageMembers} (h : RosidlLayout l.abi T) :
    (Encodes l.abi reg T).PrefixFree := by
  induction T using MessageMembers.induction with
  | h T ih =>
    rintro v v' w w' rest rest' hw hw' heq
    by_cases hmark : reg.isMemcopyable T = true
    · -- a block is as long as the struct, and holds what it holds
      rw [encodes_marked hmark] at hw hw'
      obtain ⟨rfl, -⟩ := List.append_inj heq (hw.1.trans hw'.1.symm)
      exact ⟨Option.some_inj.mp (hw.2.symm.trans hw'.2), rfl⟩
    · have hmembers : (EncodesMembers l.abi reg T.members).PrefixFree := by
        refine prefixFree_members fun m hm => ?_
        obtain ⟨s, p | _ | _ | _ | sub, off⟩ := m
        · exact prefixFree_member p.sizeof_pos (prefixFree_primitive p)
        · exact prefixFree_member (by cases l <;> decide) prefixFree_string
        · exact fun _ _ _ _ _ _ hw => hw.elim
        · exact fun _ _ _ _ _ _ hw => hw.elim
        · have hlayout : RosidlLayout l.abi sub := h.sub ⟨_, hm, rfl⟩
          exact prefixFree_member hlayout.pos (ih sub ⟨_, hm, rfl⟩ hlayout)
      rw [encodes_unmarked hmark] at hw hw'
      exact hmembers.map Value.message hw hw' heq

end Encodings

section Senders

variable {l : Language} {T : MessageMembers} {M : Platform} {all calls : List MessageMembers}
  {v v' : Value} {rest rest' : List UInt8}

/-- **From the bytes of a message one can tell the message**, and where it ends: if what a process
sends for two messages of a type can be continued to the same bytes, the messages hold the same. -/
theorem serialize_prefix_free (h : l.Known T all) (hcalls : calls ⊆ all) {data data' : List Cell}
    (hv : contentMessage l.abi T data = some v) (hv' : contentMessage l.abi T data' = some v') :
    ∃ w w', l.serialize M (registryAfter l.countedSize calls) T data = .ok w ∧
      l.serialize M (registryAfter l.countedSize calls) T data' = .ok w' ∧
      ∀ rest rest', w ++ rest = w' ++ rest' → v = v' ∧ w = w' ∧ rest = rest' := by
  have hpod : (registryAfter l.countedSize calls).MarksPod T :=
    registryAfter_marksPod h.names hcalls h.mem
  refine ⟨_, _, Language.serialize_eq h.layout hv, Language.serialize_eq h.layout hv',
    fun rest rest' heq => ?_⟩
  obtain ⟨rfl, hw⟩ := prefixFree_encodes h.layout (encodes_wireImage h.layout hpod hv)
    (encodes_wireImage h.layout hpod hv') heq
  rw [hw] at heq
  exact ⟨rfl, hw, List.append_cancel_left heq⟩

/-- The message `("AA", 1.0, 2.0)`. -/
def placeAA : List Cell :=
  object 32 (.string [65, 65] 13 true) ++ [0, 0, 128, 63, 0, 0, 0, 64].map .byte

/-- Two places with different names, whatever follows them. -/
theorem serialize_prefix_free_place : ∃ w w',
    Language.cpp.serialize .generous (registryAfter cppCountedSize [point]) cppPlace placeA =
      .ok w ∧
    Language.cpp.serialize .generous (registryAfter cppCountedSize [point]) cppPlace placeAA =
      .ok w' ∧
    ∀ rest rest', w ++ rest ≠ w' ++ rest' := by
  obtain ⟨w, w', hw, hw', hunique⟩ := serialize_prefix_free (M := .generous) known_cppPlace
    (show [point] ⊆ [point, cppPlace] by simp) (show contentMessage cppAbi cppPlace placeA = some
      (.message [.string [65], .message [.primitive [0, 0, 128, 63], .primitive [0, 0, 0, 64]]])
      from rfl)
    (show contentMessage cppAbi cppPlace placeAA = some
      (.message [.string [65, 65],
        .message [.primitive [0, 0, 128, 63], .primitive [0, 0, 0, 64]]]) from rfl)
  refine ⟨w, w', hw, hw', fun rest rest' heq => ?_⟩
  cases (hunique rest rest' heq).1

/-- The plain encodings of the values of a plain type are told apart. -/
theorem Language.Plain.wire_inj (hplain : l.Plain T) (h : l.Known T all) (hv : l.Holds T v)
    (hv' : l.Holds T v') (heq : v.wire ++ rest = v'.wire ++ rest') : v = v' ∧ rest = rest' := by
  obtain ⟨rfl, -⟩ := prefixFree_encodes h.layout (hplain.encodes_wire h (List.nil_subset _) hv)
    (hplain.encodes_wire h (List.nil_subset _) hv') heq
  exact ⟨rfl, List.append_cancel_left heq⟩

end Senders

end RmwEcal
