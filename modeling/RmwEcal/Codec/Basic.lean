import Mathlib.Data.List.Basic

/-!
# Encoders and decoders over raw storage

An encoder walks over a piece of storage and appends to an output; a decoder walks over a piece of
storage it may change and consumes an input.  Storage is a list of cells and a pointer is the list
of cells from there on, so that `data.drop off` is "`off` cells further".  The cells, the symbols
on the wire and the errors are arbitrary types.

The file is a small calculus for proving that a decoder undoes an encoder.

* `Encoder.Emits enc data w` — from this storage the encoder appends exactly `w`.
* `Format` — which outputs stand for which values.  A format may allow several: padding, for one,
  is copied along and read by nobody.
* `Decoder.Restores dec keep ready ok merge size read v w` — fed with `w`, the decoder turns storage
  that reads `old` and is `ready` into storage that reads `merge old v`, touches nothing beyond its
  first `size` cells, and leaves what follows `w` unread.  When `keep` is `false` the old storage
  does not matter, and need not read anything.  `ok` says which values there is room for.
* `Decoder.Requires` — the converse: a run over `w` that leaves something readable, in storage whose
  cells may have been disturbed before, has found it readable as ever, and `ready`.

All of them compose over objects in a row: `emits_each`, `Format.each`, `restores_each` and
`requires_each`.
-/

set_option autoImplicit false

namespace Codec

variable {κ β ε ν : Type}

/-- A routine that appends to an output what it finds at the head of `data`. -/
abbrev Encoder (κ β ε : Type) := List κ → List β → Except ε (List β)

/-- A routine that consumes an input and changes the storage at the head of `data`. -/
abbrev Decoder (κ β ε : Type) := List κ → List β → Except ε (List κ × List β)

/-! ## Objects in a row -/

/-- `n` objects of `stride` cells, one after the other. -/
def Encoder.each (enc : Encoder κ β ε) (stride : ℕ) : ℕ → Encoder κ β ε
  | 0, _, out => .ok out
  | n + 1, data, out => do
    let out ← enc data out
    Encoder.each enc stride n (data.drop stride) out

/-- Run a decoder `off` cells further into the storage. -/
def Decoder.within (dec : Decoder κ β ε) (off : ℕ) : Decoder κ β ε := fun data src => do
  let (tail, src) ← dec (data.drop off) src
  return (data.take off ++ tail, src)

/-- `n` objects of `stride` cells, one after the other. -/
def Decoder.each (dec : Decoder κ β ε) (stride : ℕ) : ℕ → Decoder κ β ε
  | 0, data, src => .ok (data, src)
  | n + 1, data, src => do
    let (data, src) ← dec data src
    (Decoder.each dec stride n).within stride data src

/-- The readings of `n` objects of `stride` cells, one after the other. -/
def readEach (read : List κ → Option ν) (stride : ℕ) : ℕ → List κ → Option (List ν)
  | 0, _ => some []
  | n + 1, data => (read data).bind fun v =>
      (readEach read stride n (data.drop stride)).map fun vs => v :: vs

theorem readEach_succ_eq_some {read : List κ → Option ν} {stride n : ℕ} {data : List κ}
    {vs : List ν} : readEach read stride (n + 1) data = some vs ↔
      ∃ v rest, read data = some v ∧ readEach read stride n (data.drop stride) = some rest ∧
        vs = v :: rest := by
  simp only [readEach, Option.bind_eq_some_iff, Option.map_eq_some_iff]
  constructor
  · rintro ⟨v, hv, rest, hrest, rfl⟩
    exact ⟨v, rest, hv, hrest, rfl⟩
  · rintro ⟨v, rest, hv, hrest, rfl⟩
    exact ⟨v, hv, rest, hrest, rfl⟩

theorem readEach_length {read : List κ → Option ν} {stride n : ℕ} {data : List κ} {vs : List ν}
    (h : readEach read stride n data = some vs) : vs.length = n := by
  induction n generalizing data vs with
  | zero => cases h; rfl
  | succ n ih =>
    obtain ⟨v, rest, -, hrest, rfl⟩ := readEach_succ_eq_some.mp h
    rw [List.length_cons, ih hrest]

theorem readEach_getD {read : List κ → Option ν} {stride n : ℕ} {data : List κ} {vs : List ν}
    (h : readEach read stride n data = some vs) (d : ν) {i : ℕ} (hi : i < n) :
    read (data.drop (i * stride)) = some (vs.getD i d) := by
  induction n generalizing data vs i with
  | zero => cases hi
  | succ n ih =>
    obtain ⟨v, rest, hv, hrest, rfl⟩ := readEach_succ_eq_some.mp h
    cases i with
    | zero =>
      rw [Nat.zero_mul]
      exact hv
    | succ i =>
      rw [Nat.succ_mul, Nat.add_comm, ← List.drop_drop, List.getD_cons_succ]
      exact ih hrest (by omega)

/-! ## Readings that look at a bounded piece of storage -/

/-- `read` looks at no more than the first `size` cells. -/
def LocalTo (size : ℕ) (read : List κ → Option ν) : Prop :=
  ∀ data data' : List κ, data.take size = data'.take size → read data = read data'

theorem take_of_take_eq {data data' : List κ} {m n : ℕ} (h : data.take n = data'.take n)
    (hmn : m ≤ n) : data.take m = data'.take m := by
  have h' := congrArg (List.take m) h
  rwa [List.take_take, List.take_take, Nat.min_eq_left hmn] at h'

theorem drop_take_of_take_eq {data data' : List κ} {m n : ℕ}
    (h : data.take (m + n) = data'.take (m + n)) :
    (data.drop m).take n = (data'.drop m).take n := by
  have hn : n = m + n - m := by omega
  rw [hn, ← List.drop_take, ← List.drop_take, h]

theorem LocalTo.comp {μ : Type} {size : ℕ} {read : List κ → Option ν} (h : LocalTo size read)
    (f : Option ν → Option μ) : LocalTo size fun data => f (read data) :=
  fun _ _ htake => congrArg f (h _ _ htake)

theorem LocalTo.readEach {size : ℕ} {read : List κ → Option ν} (h : LocalTo size read) (n : ℕ) :
    LocalTo (n * size) (readEach read size n) := by
  induction n with
  | zero => intro _ _ _; rfl
  | succ n ih =>
    intro data data' htake
    rw [Nat.succ_mul, Nat.add_comm] at htake
    simp only [Codec.readEach]
    rw [h data data' (take_of_take_eq htake (Nat.le_add_right _ _)),
      ih _ _ (drop_take_of_take_eq htake)]

theorem readEach_append {size m n : ℕ} {read : List κ → Option ν} (hloc : LocalTo size read)
    {data data' : List κ} {vs vs' : List ν} (h : readEach read size m data = some vs)
    (hlen : data.length = m * size) (h' : readEach read size n data' = some vs') :
    readEach read size (m + n) (data ++ data') = some (vs ++ vs') := by
  induction m generalizing data vs with
  | zero =>
    cases h
    rw [Nat.zero_mul] at hlen
    rwa [Nat.zero_add, List.eq_nil_of_length_eq_zero hlen]
  | succ m ih =>
    obtain ⟨v, rest, hv, hrest, rfl⟩ := readEach_succ_eq_some.mp h
    rw [Nat.succ_mul] at hlen
    rw [Nat.succ_add]
    refine readEach_succ_eq_some.mpr ⟨v, rest ++ vs', ?_, ?_, rfl⟩
    · rw [← hv]
      exact hloc _ _ (List.take_append_of_le_length (by omega))
    · rw [List.drop_append_of_le_length (by omega)]
      exact ih hrest (by rw [List.length_drop]; omega)

theorem readEach_take {size m n : ℕ} {read : List κ → Option ν} (hloc : LocalTo size read)
    (hmn : m ≤ n) {data : List κ} {vs : List ν} (h : readEach read size n data = some vs) :
    readEach read size m (data.take (m * size)) = some (vs.take m) := by
  have hle : readEach read size m data = some (vs.take m) := by
    induction m generalizing n data vs with
    | zero => rfl
    | succ m ih =>
      obtain ⟨n, rfl⟩ := Nat.exists_eq_succ_of_ne_zero (show n ≠ 0 by omega)
      obtain ⟨v, rest, hv, hrest, rfl⟩ := readEach_succ_eq_some.mp h
      exact readEach_succ_eq_some.mpr ⟨v, rest.take m, hv, ih (by omega) hrest, rfl⟩
  rw [← hle]
  exact hloc.readEach m _ _ (by rw [List.take_take, Nat.min_self])

theorem length_flatten_replicate (n : ℕ) (fill : List κ) :
    (List.replicate n fill).flatten.length = n * fill.length := by
  rw [List.length_flatten, List.map_replicate, List.sum_replicate_nat]

theorem readEach_replicate {size n : ℕ} {read : List κ → Option ν} (hloc : LocalTo size read)
    {fill : List κ} (hlen : fill.length = size) {z : ν} (hz : read fill = some z) :
    readEach read size n (List.replicate n fill).flatten = some (List.replicate n z) := by
  induction n with
  | zero => rfl
  | succ n ih =>
    rw [List.replicate_succ, List.flatten_cons]
    refine readEach_succ_eq_some.mpr ⟨z, _, ?_, ?_, rfl⟩
    · rw [← hz]
      exact hloc _ _ (by rw [← hlen, List.take_left, List.take_length])
    · rw [List.drop_left' hlen, ih]

/-! ## How runs fail -/

/-- A run of the encoder that fails does so with one of these errors. -/
def Encoder.FailsIn (enc : Encoder κ β ε) (E : ε → Prop) : Prop :=
  ∀ data out e, enc data out = .error e → E e

/-- A run of the decoder that fails does so with one of these errors. -/
def Decoder.FailsIn (dec : Decoder κ β ε) (E : ε → Prop) : Prop :=
  ∀ data src e, dec data src = .error e → E e

/-- What fails in a row of steps is the first step or the rest. -/
theorem error_of_bind {α γ : Type} {E : ε → Prop} {x : Except ε α} {f : α → Except ε γ} {e : ε}
    (hx : ∀ e, x = .error e → E e) (hf : ∀ a, x = .ok a → f a = .error e → E e)
    (h : (x >>= f) = .error e) : E e := by
  rcases x with e' | a
  · exact hx e (by cases h; rfl)
  · exact hf a rfl h

theorem Encoder.FailsIn.each {enc : Encoder κ β ε} {E : ε → Prop} (h : enc.FailsIn E)
    (stride n : ℕ) : (enc.each stride n).FailsIn E := by
  induction n with
  | zero =>
    intro data out e he
    cases he
  | succ n ih => exact fun data out e => error_of_bind (h data out) fun out' _ => ih _ out' e

theorem Decoder.FailsIn.within {dec : Decoder κ β ε} {E : ε → Prop} (h : dec.FailsIn E)
    (off : ℕ) : (dec.within off).FailsIn E :=
  fun data src _ => error_of_bind (h (data.drop off) src) fun _ _ he => by cases he

theorem Decoder.FailsIn.each {dec : Decoder κ β ε} {E : ε → Prop} (h : dec.FailsIn E)
    (stride n : ℕ) : (dec.each stride n).FailsIn E := by
  induction n with
  | zero =>
    intro data src e he
    cases he
  | succ n ih =>
    exact fun data src e => error_of_bind (h data src) fun p _ => ih.within stride p.1 p.2 e

/-! ## How much storage is left -/

/-- A decoder that leaves storage as long as it is. -/
def Decoder.KeepsLength (dec : Decoder κ β ε) : Prop :=
  ∀ data src data' rest, dec data src = .ok (data', rest) → data'.length = data.length

theorem Decoder.KeepsLength.within {dec : Decoder κ β ε} (h : dec.KeepsLength) (off : ℕ) :
    (dec.within off).KeepsLength := by
  intro data src data' rest hrun
  rcases hdec : dec (data.drop off) src with e | ⟨tail, src'⟩
  · simp only [Decoder.within, hdec] at hrun
    cases hrun
  · have hlen := h _ _ _ _ hdec
    simp only [Decoder.within, hdec] at hrun
    cases hrun
    rw [List.length_append, List.length_take, hlen, List.length_drop]
    omega

theorem Decoder.KeepsLength.each {dec : Decoder κ β ε} (h : dec.KeepsLength) (stride n : ℕ) :
    (dec.each stride n).KeepsLength := by
  induction n with
  | zero =>
    intro data src data' rest hrun
    cases hrun
    rfl
  | succ n ih =>
    intro data src data' rest hrun
    rw [Decoder.each] at hrun
    rcases hdec : dec data src with e | ⟨data₁, src₁⟩
    · rw [hdec] at hrun
      cases hrun
    · rw [hdec] at hrun
      exact (ih.within stride data₁ src₁ data' rest hrun).trans (h data src data₁ src₁ hdec)

/-! ## Emitting -/

/-- From `data` the encoder appends exactly `w`. -/
def Encoder.Emits (enc : Encoder κ β ε) (data : List κ) (w : List β) : Prop :=
  ∀ out, enc data out = .ok (out ++ w)

/-- What is emitted from `n` objects of `stride` cells, one after the other. -/
def imageEach (f : List κ → List β) (stride : ℕ) : ℕ → List κ → List β
  | 0, _ => []
  | n + 1, data => f data ++ imageEach f stride n (data.drop stride)

/-- **Objects in a row are emitted one after the other.** -/
theorem emits_each {enc : Encoder κ β ε} {read : List κ → Option ν} {f : List κ → List β}
    (h : ∀ data v, read data = some v → enc.Emits data (f data)) {stride n : ℕ} {data : List κ}
    {vs : List ν} (hvs : readEach read stride n data = some vs) :
    (enc.each stride n).Emits data (imageEach f stride n data) := by
  induction n generalizing data vs with
  | zero => exact fun out => by rw [imageEach, List.append_nil]; rfl
  | succ n ih =>
    obtain ⟨v, rest, hv, hrest, rfl⟩ := readEach_succ_eq_some.mp hvs
    intro out
    show (enc data out >>= fun out => enc.each stride n (data.drop stride) out) = _
    rw [h data v hv out]
    show enc.each stride n (data.drop stride) (out ++ f data) = _
    rw [ih hrest, imageEach, List.append_assoc]

/-! ## Formats -/

/-- Which outputs stand for which values. -/
abbrev Format (ν β : Type) := ν → List β → Prop

/-- Values in a row, one after the other. -/
def Format.each (fmt : Format ν β) : Format (List ν) β
  | [], w => w = []
  | v :: vs, w => ∃ w₁ w₂, w = w₁ ++ w₂ ∧ fmt v w₁ ∧ Format.each fmt vs w₂

theorem Format.each.mono {fmt fmt' : Format ν β} {vs : List ν} {w : List β}
    (h : ∀ v ∈ vs, ∀ w, fmt v w → fmt' v w) (hw : Format.each fmt vs w) :
    Format.each fmt' vs w := by
  induction vs generalizing w with
  | nil => exact hw
  | cons v vs ih =>
    obtain ⟨w₁, w₂, rfl, h₁, h₂⟩ := hw
    exact ⟨w₁, w₂, rfl, h v (.head _) w₁ h₁, ih (fun v' hv' => h v' (.tail _ hv')) h₂⟩

/-- Objects in a row, emitted in a format, are in that format one after the other. -/
theorem Format.each_of_image {fmt : Format ν β} {read : List κ → Option ν}
    {f : List κ → List β} (h : ∀ data v, read data = some v → fmt v (f data)) {stride n : ℕ}
    {data : List κ} {vs : List ν} (hvs : readEach read stride n data = some vs) :
    Format.each fmt vs (imageEach f stride n data) := by
  induction n generalizing data vs with
  | zero => cases hvs; rfl
  | succ n ih =>
    obtain ⟨v, rest, hv, hrest, rfl⟩ := readEach_succ_eq_some.mp hvs
    exact ⟨_, _, rfl, h data v hv, ih hrest⟩

/-! ## Restoring -/

/-- How a list of old readings and a list of new ones combine, position by position; where there
is no old reading, `d` stands in for it. -/
def mergeList (merge : ν → ν → ν) (d : ν) : List ν → List ν → List ν
  | _, [] => []
  | olds, v :: vs => merge (olds.headD d) v :: mergeList merge d olds.tail vs

/-- Each of the objects in a row is ready for its value. -/
def ReadyEach (ready : ν → List κ → Prop) (stride : ℕ) : List ν → List κ → Prop
  | [], _ => True
  | v :: vs, data => ready v data ∧ ReadyEach ready stride vs (data.drop stride)

/-- Fed with `w`, the decoder makes storage that reads `old` read `merge old v`, if there is room
for that.  It looks at the old storage only if `keep` is set, and that has to be `ready` then. -/
def Decoder.Restores (dec : Decoder κ β ε) (keep : Bool) (ready : List κ → Prop) (ok : ν → Prop)
    (merge : ν → ν → ν) (size : ℕ) (read : List κ → Option ν) (v : ν) (w : List β) : Prop :=
  ∀ data old, size ≤ data.length → (keep = true → read data = some old ∧ ready data) →
    ok (merge old v) → ∀ rest, ∃ data', dec data (w ++ rest) = .ok (data', rest) ∧
      data'.length = data.length ∧ data'.drop size = data.drop size ∧
      read data' = some (merge old v)

/-- Less may be asked of the storage than is known. -/
theorem Decoder.Restores.of_ready {dec : Decoder κ β ε} {keep : Bool} {ready ready' : List κ → Prop}
    {ok : ν → Prop} {merge : ν → ν → ν} {size : ℕ} {read : List κ → Option ν} {v : ν} {w : List β}
    (h : dec.Restores keep ready ok merge size read v w)
    (hready : ∀ data, ready' data → ready data) :
    dec.Restores keep ready' ok merge size read v w :=
  fun data old hlen hold => h data old hlen fun hk => ⟨(hold hk).1, hready data (hold hk).2⟩

/-- Nothing is asked of storage that is not looked at. -/
theorem Decoder.Restores.anyway {dec : Decoder κ β ε} {ready ready' : List κ → Prop} {ok : ν → Prop}
    {merge : ν → ν → ν} {size : ℕ} {read : List κ → Option ν} {v : ν} {w : List β}
    (h : dec.Restores false ready ok merge size read v w) :
    dec.Restores false ready' ok merge size read v w :=
  fun data old hlen _ => h data old hlen nofun

theorem Decoder.Restores.each_succ {dec : Decoder κ β ε} {keep : Bool} {ready : ν → List κ → Prop}
    {ok : ν → Prop} {merge : ν → ν → ν} {d : ν} {size n : ℕ} {read : List κ → Option ν} {v : ν}
    {vs : List ν} {w w' : List β} (hloc : LocalTo size read)
    (h : dec.Restores keep (ready v) ok merge size read v w)
    (h' : (dec.each size n).Restores keep (ReadyEach ready size vs) (∀ v ∈ ·, ok v)
      (mergeList merge d) (n * size) (readEach read size n) vs w') :
    (dec.each size (n + 1)).Restores keep (ReadyEach ready size (v :: vs)) (∀ v ∈ ·, ok v)
      (mergeList merge d) ((n + 1) * size) (readEach read size (n + 1)) (v :: vs) (w ++ w') := by
  intro data olds hlen hold hok rest
  rw [Nat.succ_mul] at hlen
  -- the first object, and the reading it had before
  have hold1 : keep = true → read data = some (olds.headD d) ∧ ready v data := by
    intro hk
    obtain ⟨hread, hready, -⟩ := hold hk
    obtain ⟨o, os, ho, -, rfl⟩ := readEach_succ_eq_some.mp hread
    exact ⟨ho, hready⟩
  obtain ⟨data1, hdec, hlen1, hdrop1, hread1⟩ :=
    h data _ (by omega) hold1 (hok _ (.head _)) (w' ++ rest)
  -- the rest of them, which the first decoder has not touched
  have hold2 : keep = true → readEach read size n (data1.drop size) = some olds.tail ∧
      ReadyEach ready size vs (data1.drop size) := by
    intro hk
    obtain ⟨hread, -, hready⟩ := hold hk
    obtain ⟨o, os, -, hos, rfl⟩ := readEach_succ_eq_some.mp hread
    rw [hdrop1]
    exact ⟨hos, hready⟩
  obtain ⟨data2, hdec2, hlen2, hdrop2, hread2⟩ := h' (data1.drop size) _
    (by rw [List.length_drop]; omega) hold2 (fun x hx => hok x (.tail _ hx)) rest
  have htake : (data1.take size).length = size := by rw [List.length_take]; omega
  refine ⟨data1.take size ++ data2, ?_, ?_, ?_, ?_⟩
  · show (dec data (w ++ w' ++ rest) >>= fun p => (dec.each size n).within size p.1 p.2) = _
    rw [List.append_assoc, hdec]
    show (dec.each size n (data1.drop size) (w' ++ rest) >>= fun p =>
      pure (data1.take size ++ p.1, p.2)) = _
    rw [hdec2]
    rfl
  · rw [List.length_append, htake, hlen2, List.length_drop]
    omega
  · rw [Nat.succ_mul, Nat.add_comm, ← List.drop_drop, List.drop_left' htake, hdrop2, hdrop1,
      List.drop_drop]
  · refine readEach_succ_eq_some.mpr ⟨merge (olds.headD d) v, mergeList merge d olds.tail vs,
      ?_, ?_, rfl⟩
    · rw [← hread1]
      exact hloc _ _ (by rw [List.take_append_of_le_length (by omega), List.take_take,
        Nat.min_self])
    · rw [List.drop_left' htake, hread2]

/-- **Objects in a row are restored one after the other.** -/
theorem restores_each {dec : Decoder κ β ε} {keep : Bool} {ready : ν → List κ → Prop}
    {ok : ν → Prop} {merge : ν → ν → ν} (d : ν) {size : ℕ} {read : List κ → Option ν}
    (hloc : LocalTo size read) {fmt : Format ν β} {vs : List ν} {w : List β}
    (h : ∀ v ∈ vs, ∀ w, fmt v w → dec.Restores keep (ready v) ok merge size read v w)
    (hw : Format.each fmt vs w) :
    (dec.each size vs.length).Restores keep (ReadyEach ready size vs) (∀ v ∈ ·, ok v)
      (mergeList merge d) (vs.length * size) (readEach read size vs.length) vs w := by
  induction vs generalizing w with
  | nil =>
    cases hw
    exact fun data olds _ _ _ rest => ⟨data, rfl, rfl, rfl, rfl⟩
  | cons v vs ih =>
    obtain ⟨w₁, w₂, rfl, h₁, h₂⟩ := hw
    exact (h v (.head _) w₁ h₁).each_succ hloc (ih (fun v' hv' => h v' (.tail _ hv')) h₂)

/-! ## Requiring -/

/-- What a decoder asks of its storage.  Take storage that read `old`, in which every cell has
become what `disturb` makes of it.  If a run that is fed with `w` leaves there anything that can be
read, then the storage still read `old`, and was `ready`. -/
def Decoder.Requires (dec : Decoder κ β ε) (disturb : κ → κ) (ready : List κ → Prop) (ok : ν → Prop)
    (merge : ν → ν → ν) (size : ℕ) (read : List κ → Option ν) (v : ν) (w : List β) : Prop :=
  ∀ data old rest data' rest', size ≤ data.length → read data = some old → ok (merge old v) →
    dec (data.map disturb) (w ++ rest) = .ok (data', rest') → read data' ≠ none →
      read (data.map disturb) = some old ∧ ready (data.map disturb)

/-- Less may be concluded than is asked for. -/
theorem Decoder.Requires.of_ready {dec : Decoder κ β ε} {disturb : κ → κ}
    {ready ready' : List κ → Prop} {ok : ν → Prop} {merge : ν → ν → ν} {size : ℕ}
    {read : List κ → Option ν} {v : ν} {w : List β}
    (h : dec.Requires disturb ready ok merge size read v w)
    (hready : ∀ data, ready data → ready' data) :
    dec.Requires disturb ready' ok merge size read v w := fun _ _ _ _ _ hlen hold hok hrun hread =>
  (h _ _ _ _ _ hlen hold hok hrun hread).imp_right (hready _)

theorem Decoder.Requires.each_succ {dec : Decoder κ β ε} {disturb : κ → κ}
    {ready : ν → List κ → Prop} {ok : ν → Prop} {merge : ν → ν → ν} {d : ν} {size n : ℕ}
    {read : List κ → Option ν} {v : ν} {vs : List ν} {w w' : List β} (hloc : LocalTo size read)
    (hkeep : dec.KeepsLength) (hrestores : dec.Restores true (ready v) ok merge size read v w)
    (h : dec.Requires disturb (ready v) ok merge size read v w)
    (h' : (dec.each size n).Requires disturb (ReadyEach ready size vs) (∀ v ∈ ·, ok v)
      (mergeList merge d) (n * size) (readEach read size n) vs w') :
    (dec.each size (n + 1)).Requires disturb (ReadyEach ready size (v :: vs)) (∀ v ∈ ·, ok v)
      (mergeList merge d) ((n + 1) * size) (readEach read size (n + 1)) (v :: vs) (w ++ w') := by
  intro data olds rest data' rest' hlen hold hok hrun hread
  rw [Nat.succ_mul] at hlen
  obtain ⟨o, os, ho, hos, rfl⟩ := readEach_succ_eq_some.mp hold
  have hlen' : size ≤ (data.map disturb).length := by rw [List.length_map]; omega
  rw [List.append_assoc] at hrun
  rw [Decoder.each] at hrun
  cases hfirst : dec (data.map disturb) (w ++ (w' ++ rest)) with
  | error e => rw [hfirst] at hrun; cases hrun
  | ok p =>
    obtain ⟨data1, src⟩ := p
    rw [hfirst] at hrun
    cases hsecond : dec.each size n (data1.drop size) src with
    | error e =>
      simp only [Decoder.within, hsecond, bind, Except.bind] at hrun
      cases hrun
    | ok q =>
      obtain ⟨tail, rest1⟩ := q
      simp only [Decoder.within, hsecond, bind, Except.bind] at hrun
      cases hrun
      have htake : (data1.take size).length = size := by
        rw [List.length_take, hkeep _ _ _ _ hfirst]
        omega
      -- both parts are readable in the end, and so the first one was when it was done
      obtain ⟨vs', hvs'⟩ := Option.ne_none_iff_exists'.mp hread
      obtain ⟨x, xs, hx, hxs, rfl⟩ := readEach_succ_eq_some.mp hvs'
      rw [List.drop_left' htake] at hxs
      have hx1 : read data1 = some x := by
        rw [← hx]
        exact hloc _ _ (List.take_left' htake).symm
      obtain ⟨hread1, hready1⟩ := h data o _ data1 src (by omega) ho (hok _ (.head _)) hfirst
        (by rw [hx1]; exact Option.some_ne_none x)
      -- it has read its own input and left the cells of the others alone
      obtain ⟨data2, hrun2, -, hdrop2, -⟩ := hrestores (data.map disturb) o hlen'
        (fun _ => ⟨hread1, hready1⟩) (hok _ (.head _)) (w' ++ rest)
      rw [hfirst] at hrun2
      cases hrun2
      rw [hdrop2, ← List.map_drop] at hsecond
      obtain ⟨hread', hready'⟩ := h' (data.drop size) os rest tail rest'
        (by rw [List.length_drop]; omega) hos (fun x hx => hok x (.tail _ hx)) hsecond
        (by rw [hxs]; exact Option.some_ne_none xs)
      rw [List.map_drop] at hread' hready'
      exact ⟨readEach_succ_eq_some.mpr ⟨o, os, hread1, hread', rfl⟩, hready1, hready'⟩

/-- **Objects in a row ask for what each of them does.** -/
theorem requires_each {dec : Decoder κ β ε} {disturb : κ → κ} {ready : ν → List κ → Prop}
    {ok : ν → Prop} {merge : ν → ν → ν} (d : ν) {size : ℕ} {read : List κ → Option ν}
    (hloc : LocalTo size read) (hkeep : dec.KeepsLength) {fmt : Format ν β} {vs : List ν}
    {w : List β}
    (hrestores : ∀ v ∈ vs, ∀ w, fmt v w → dec.Restores true (ready v) ok merge size read v w)
    (h : ∀ v ∈ vs, ∀ w, fmt v w → dec.Requires disturb (ready v) ok merge size read v w)
    (hw : Format.each fmt vs w) :
    (dec.each size vs.length).Requires disturb (ReadyEach ready size vs) (∀ v ∈ ·, ok v)
      (mergeList merge d) (vs.length * size) (readEach read size vs.length) vs w := by
  induction vs generalizing w with
  | nil => exact fun data olds _ _ _ _ hold _ _ _ => ⟨hold, trivial⟩
  | cons v vs ih =>
    obtain ⟨w₁, w₂, rfl, h₁, h₂⟩ := hw
    have htail : ∀ v' ∈ vs, v' ∈ v :: vs := fun v' hv' => .tail _ hv'
    exact (h v (.head _) w₁ h₁).each_succ hloc hkeep (hrestores v (.head _) w₁ h₁)
      (ih (fun v' hv' => hrestores v' (htail v' hv')) (fun v' hv' => h v' (htail v' hv')) h₂)

end Codec
