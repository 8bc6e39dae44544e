import Mathlib.Logic.Function.Iterate
import Mathlib.Data.Int.Notation
import Mathlib.Data.Nat.Notation

/-!
# Iterators over arrays of rmw

`ros_array_iterator.hpp` has one iterator for three kinds of array: a template that is a pointer
into `data`, a specialisation with an index into the two arrays of a `rmw_names_and_types_t`, and
one that is a pointer into `info_array`.

What the library does with them is `std::transform`, and for that `Begin`, `++` and `*` are enough;
those are right.  The rest of the operations of a random access iterator is not: the pointers are
subtracted the wrong way round, the template goes through one pointer too many for `[]`, and the
index is ignored there and ends before the last element.
-/

set_option autoImplicit false

namespace RmwEcal

/-! ## Random access iterators -/

/-- An array as its iterators see it. -/
structure RandomAccess (Iter Diff Place : Type) where
  /-- `Begin`. -/
  beginIter : Iter
  /-- `End`. -/
  endIter : Iter
  /-- `operator++`. -/
  next : Iter → Iter
  /-- `operator+`. -/
  add : Iter → Diff → Iter
  /-- `operator-`, for two iterators. -/
  sub : Iter → Iter → Diff
  /-- `operator*`: the place that is designated. -/
  deref : Iter → Place
  /-- `operator[]`. -/
  subscript : Iter → Diff → Place

namespace RandomAccess

variable {Iter Diff Place : Type}

/-- The iterator that has been advanced so many times. -/
def iter (a : RandomAccess Iter Diff Place) (i : ℕ) : Iter := a.next^[i] a.beginIter

theorem iter_succ (a : RandomAccess Iter Diff Place) (i : ℕ) : a.iter (i + 1) = a.next (a.iter i) :=
  Function.iterate_succ_apply' a.next i a.beginIter

/-- The end is reached after as many steps as there are elements, and every element is passed. -/
structure Traverses (a : RandomAccess Iter Diff Place) (element : ℕ → Place) (n : ℕ) : Prop where
  /-- The end is reached. -/
  reaches : a.iter n = a.endIter
  /-- It is not reached before. -/
  not_before : ∀ i < n, a.iter i ≠ a.endIter
  /-- What is passed, in order. -/
  visits : ∀ i < n, a.deref (a.iter i) = element i

/-- Differences are what has been added. -/
structure Measures (a : RandomAccess Iter Diff Place) (ofNat : ℕ → Diff) (n : ℕ) : Prop where
  /-- From any position to any later one. -/
  add_sub : ∀ i k, i + k ≤ n → a.sub (a.add (a.iter i) (ofNat k)) (a.iter i) = ofNat k
  /-- From the beginning to the end. -/
  length : a.sub a.endIter a.beginIter = ofNat n

/-- A subscript designates what is that far away. -/
def Subscripts (a : RandomAccess Iter Diff Place) (ofNat : ℕ → Diff) (n : ℕ) : Prop :=
  ∀ i k, i + k < n → a.subscript (a.iter i) (ofNat k) = a.deref (a.add (a.iter i) (ofNat k))

/-- The laws of a random access iterator. -/
structure Lawful (a : RandomAccess Iter Diff Place) (element : ℕ → Place) (ofNat : ℕ → Diff)
    (n : ℕ) : Prop extends a.Traverses element n, a.Measures ofNat n where
  /-- Subscripts are right. -/
  subscripts : a.Subscripts ofNat n

end RandomAccess

namespace RosArray

/-! ## The three iterators -/

/-- What a pointer into an array leads to. -/
inductive Place where
  /-- The element at an index. -/
  | element (index : ℤ)
  /-- What the element at an index points to.  No `operator[]` can return that where an element is
  asked for: the one that says so is in a template, nothing calls it, and for the arrays of rcutils
  it would not compile. -/
  | pointee (index : ℤ)
  deriving DecidableEq, Repr

/-- An iterator that has a pointer, `current_`: how far it is from the first element.  `subscript`
is its `operator[]`. -/
def pointerIterator (subscript : ℤ → ℤ → Place) (size : UInt64) : RandomAccess ℤ ℤ Place where
  beginIter := 0
  endIter := size.toNat
  next current := current + 1
  add current offset := current + offset
  -- `other.current_ - current_`
  sub current other := other - current
  deref := .element
  subscript := subscript

/-- `iterator<ROS_ARRAY_T>`: `operator[]` is `*(current_[index])`. -/
def iterator : UInt64 → RandomAccess ℤ ℤ Place :=
  pointerIterator fun current index => .pointee (current + index)

/-- `iterator<rmw_topic_endpoint_info_array_t>`: `operator[]` is `current_[index]`. -/
def endpointInfoIterator : UInt64 → RandomAccess ℤ ℤ Place :=
  pointerIterator fun current index => .element (current + index)

/-- `iterator<rmw_names_and_types_t>`, that has an index, `index_`.  A place is one in `names.data`
and one in `types`. -/
def namesAndTypesIterator (size : UInt64) : RandomAccess UInt64 UInt64 (UInt64 × UInt64) where
  beginIter := 0
  endIter := size - 1
  next index := index + 1
  add index offset := index + offset
  sub index other := index - other
  deref index := (index, index)
  -- `arr_.names.data[index]` and `arr_.types[index]`, whatever `index_` is
  subscript _ index := (index, index)

/-- The kinds of array. -/
inductive Kind where
  | rcutils | namesAndTypes | endpointInfo
  deriving DecidableEq, Repr

/-- The iterators over an array of some kind and size obey the laws. -/
def IsLawful : Kind → UInt64 → Prop
  | .rcutils, size => (iterator size).Lawful (fun i => .element i) Int.ofNat size.toNat
  | .namesAndTypes, size => (namesAndTypesIterator size).Lawful
      (fun i => (UInt64.ofNat i, UInt64.ofNat i)) UInt64.ofNat size.toNat
  | .endpointInfo, size =>
      (endpointInfoIterator size).Lawful (fun i => .element i) Int.ofNat size.toNat

/-! ## Pointers -/

section Pointer

variable {subscript : ℤ → ℤ → Place} {size : UInt64}

theorem pointerIterator_iter (i : ℕ) : (pointerIterator subscript size).iter i = (i : ℤ) := by
  induction i with
  | zero => rfl
  | succ i ih =>
    rw [RandomAccess.iter_succ, ih]
    rfl

/-- Going through the elements works. -/
theorem pointerIterator_traverses :
    (pointerIterator subscript size).Traverses (fun i => .element i) size.toNat where
  reaches := pointerIterator_iter _
  not_before i hi := by
    rw [pointerIterator_iter]
    exact fun h => absurd (Int.ofNat_inj.mp h) (Nat.ne_of_lt hi)
  visits i _ := by
    rw [pointerIterator_iter]
    rfl

/-- All differences have the wrong sign. -/
theorem pointerIterator_sub (i k : ℕ) : (pointerIterator subscript size).sub
      ((pointerIterator subscript size).add ((pointerIterator subscript size).iter i) (k : ℤ))
      ((pointerIterator subscript size).iter i) = -(k : ℤ) := by
  rw [pointerIterator_iter]
  simp only [pointerIterator]
  omega

/-- So there is only one that is right. -/
theorem pointerIterator_measures_iff :
    (pointerIterator subscript size).Measures Int.ofNat size.toNat ↔ size.toNat = 0 := by
  refine ⟨fun h => ?_, fun h => ⟨fun i k hk => ?_, ?_⟩⟩
  · have hlength : (0 : ℤ) - size.toNat = size.toNat := h.length
    omega
  · obtain rfl : k = 0 := by omega
    exact pointerIterator_sub i 0
  · rw [h]
    simp only [pointerIterator, h]
    rfl

/-- `current_[index]` is right. -/
theorem endpointInfoIterator_subscripts (n : ℕ) :
    (endpointInfoIterator size).Subscripts Int.ofNat n :=
  fun _ _ _ => rfl

/-- What an element points to is not an element. -/
theorem iterator_subscripts_iff (n : ℕ) : (iterator size).Subscripts Int.ofNat n ↔ n = 0 := by
  refine ⟨fun h => Nat.eq_zero_of_not_pos fun hpos => ?_, ?_⟩
  · cases h 0 0 hpos
  · rintro rfl i k hk
    exact absurd hk (Nat.not_lt_zero _)

end Pointer

/-! ## Indices -/

section Index

variable {size : UInt64}

theorem namesAndTypesIterator_iter (i : ℕ) :
    (namesAndTypesIterator size).iter i = UInt64.ofNat i := by
  induction i with
  | zero => rfl
  | succ i ih =>
    rw [RandomAccess.iter_succ, ih, UInt64.ofNat_add]
    rfl

/-- The end is one element too early, or as far away as can be if there is none. -/
theorem namesAndTypesIterator_not_reaches :
    (namesAndTypesIterator size).iter size.toNat ≠ (namesAndTypesIterator size).endIter := by
  rw [namesAndTypesIterator_iter, UInt64.ofNat_toNat]
  intro h
  have hone : (1 : UInt64) = 0 := UInt64.left_eq_add.mp (UInt64.sub_eq_iff_eq_add.mp h.symm)
  exact absurd hone (by decide)

end Index

/-- **The laws hold for empty arrays, of the kinds that have pointers.**  For those, going through
the elements always works; for the others, not even that. -/
theorem isLawful_iff (kind : Kind) (size : UInt64) :
    IsLawful kind size ↔ kind ≠ .namesAndTypes ∧ size.toNat = 0 := by
  cases kind with
  | rcutils =>
    refine ⟨fun h => ⟨nofun, pointerIterator_measures_iff.mp h.toMeasures⟩, fun h => ?_⟩
    exact ⟨pointerIterator_traverses, pointerIterator_measures_iff.mpr h.2,
      (iterator_subscripts_iff _).mpr h.2⟩
  | namesAndTypes =>
    exact ⟨fun h => absurd h.reaches namesAndTypesIterator_not_reaches, fun h => absurd rfl h.1⟩
  | endpointInfo =>
    refine ⟨fun h => ⟨nofun, pointerIterator_measures_iff.mp h.toMeasures⟩, fun h => ?_⟩
    exact ⟨pointerIterator_traverses, pointerIterator_measures_iff.mpr h.2,
      endpointInfoIterator_subscripts _⟩

/-- One element: the difference is minus one, and the end is the beginning. -/
theorem isLawful_fails : ¬ IsLawful .rcutils 1 ∧ ¬ IsLawful .namesAndTypes 1 ∧
    ¬ IsLawful .endpointInfo 1 := by
  refine ⟨fun h => ?_, fun h => ?_, fun h => ?_⟩
  · cases h.length
  · exact h.not_before 0 (by decide) rfl
  · cases h.length

end RosArray

end RmwEcal
