import RmwEcal.Dynamic.Framing
import RmwEcal.Dynamic.Templates

/-!
# The grammars of strings and sequences in the two languages

A string or a sequence is a size field and what it announces, `sized`.  What follows the field
depends on the memory that is asked for, and with it in C++ on what the target already holds.
-/

set_option autoImplicit false

namespace RmwEcal

open Codec Value

/-! ## Size fields -/

section SizeField

variable {ν : Type}

/-- A size field, and then what it announces. -/
def sized (body : ℕ → Grammar Cell UInt8 ν) : Grammar Cell UInt8 ν := fun data w e =>
  ∃ field w', w = field ++ w' ∧ field.length = 8 ∧ body (ofLeBytes field) data w' e

/-- So many bytes, which say something. -/
def payload (n : ℕ) (value : List UInt8 → Option ν) : Grammar Cell UInt8 ν := fun _ w e =>
  w.length = n ∧ e = some (value w)

theorem unique_payload (n : ℕ) (value : List UInt8 → Option ν) : (payload n value).Unique := by
  rintro data w rest e w' rest' e' ⟨hlen, rfl⟩ ⟨hlen', rfl⟩ h
  obtain ⟨rfl, -⟩ := List.append_inj h (hlen.trans hlen'.symm)
  exact ⟨rfl, rfl⟩

theorem unique_sized {body : ℕ → Grammar Cell UInt8 ν} (h : ∀ n, (body n).Unique) :
    (sized body).Unique := by
  rintro data w rest e w' rest' e' ⟨field, x, rfl, hlen, hx⟩ ⟨field', x', rfl, hlen', hx'⟩ heq
  rw [List.append_assoc, List.append_assoc] at heq
  obtain ⟨rfl, heq'⟩ := List.append_inj heq (hlen.trans hlen'.symm)
  obtain ⟨rfl, rfl⟩ := h _ data x rest e x' rest' e' hx hx' heq'
  exact ⟨rfl, rfl⟩

/-- A grammar that first looks at what the target holds. -/
theorem unique_exists {μ : Type} {look : List Cell → Option μ} {g : μ → Grammar Cell UInt8 ν}
    (h : ∀ x, (g x).Unique) :
    Grammar.Unique fun data w e => ∃ x, look data = some x ∧ g x data w e := by
  rintro data w rest e w' rest' e' ⟨x, hx, hw⟩ ⟨x', hx', hw'⟩ heq
  obtain rfl : x = x' := Option.some.inj (hx.symm.trans hx')
  exact h x data w rest e w' rest' e' hw hw' heq

/-- A grammar for other storage than the one at hand. -/
theorem unique_elsewhere {g : Grammar Cell UInt8 ν} (h : g.Unique) (block : List Cell) :
    Grammar.Unique fun (_ : List Cell) => g block := fun _ => h block

variable {post : List Cell → List UInt8 → Option ν → Prop} {size : ℕ} {data : List Cell}
  {src : List UInt8}

/-- **A size field is read first, then what follows it.** -/
theorem outcome_sized {body : ℕ → Grammar Cell UInt8 ν}
    (next : ℕ → List UInt8 → Except Fault (List Cell × List UInt8))
    (h : ∀ field rest, src = field ++ rest → field.length = 8 →
      Outcome .undefined (body (ofLeBytes field)) size (fun data w r => post data (field ++ w) r)
        data rest (next (ofLeBytes field) rest)) :
    Outcome .undefined (sized body) size post data src
      (deserializeArraySize src >>= fun p => next p.1 p.2) := by
  rw [deserializeArraySize]
  by_cases hlen : 8 ≤ src.length
  · rw [if_pos hlen]
    have hsplit : src = src.take 8 ++ src.drop 8 := (List.take_append_drop 8 src).symm
    have hfield : (src.take 8).length = 8 := by rw [List.length_take]; omega
    have hout := h (src.take 8) (src.drop 8) hsplit hfield
    show Outcome _ _ _ _ _ _ (next (ofLeBytes (src.take 8)) (src.drop 8))
    generalize next (ofLeBytes (src.take 8)) (src.drop 8) = r at hout
    cases hout with
    | @returned data' w rest r hsrc hreads hroom hlen' hdrop hpost =>
      exact .returned (by rw [List.append_assoc, ← hsrc, ← hsplit])
        ⟨src.take 8, w, rfl, hfield, hreads⟩ hroom hlen' hdrop hpost
    | @refused w rest e hsrc hreads hne =>
      exact .refused (by rw [List.append_assoc, ← hsrc, ← hsplit])
        ⟨src.take 8, w, rfl, hfield, hreads⟩ hne
    | wrong hreads =>
      refine .wrong fun w rest e hsrc hw => ?_
      obtain ⟨field, w', rfl, hfield', hw'⟩ := hw
      rw [List.append_assoc] at hsrc
      have htake : src.take 8 = field := by rw [hsrc, List.take_left' hfield']
      have hdrop : src.drop 8 = w' ++ rest := by rw [hsrc, List.drop_left' hfield']
      exact hreads w' rest e hdrop (htake ▸ hw')
  · rw [if_neg hlen]
    refine .wrong fun w rest e hsrc hw => ?_
    obtain ⟨field, w', rfl, hfield, -⟩ := hw
    rw [hsrc, List.length_append, List.length_append, hfield] at hlen
    omega

/-- A run over the storage of a sequence is a run over the sequence. -/
theorem outcome_put {μ : Type} {say : Option μ → Option ν} {g : Grammar Cell UInt8 μ} {size' : ℕ}
    {post' : List Cell → List UInt8 → Option μ → Prop} {block : List Cell}
    {r : Except Fault (List Cell × List UInt8)} (put : List Cell → List Cell)
    (h : Outcome .undefined g size' post' block src r) (hroom : size ≤ data.length)
    (hlen : ∀ block', (put block').length = data.length)
    (hdrop : ∀ block', (put block').drop size = data.drop size)
    (hpost : ∀ block' w r, size' ≤ block.length → block'.length = block.length →
      post' block' w r → post (put block') w (say r)) :
    Outcome .undefined (fun _ => g.map say block) size post data src
      (r >>= fun p => .ok (put p.1, p.2)) := by
  cases h with
  | returned hsrc hreads hroom' hlen' _ hleaves =>
    exact .returned hsrc ⟨_, hreads, rfl⟩ hroom (hlen _) (hdrop _)
      (hpost _ _ _ hroom' hlen' hleaves)
  | refused hsrc hreads hne => exact .refused hsrc ⟨_, hreads, rfl⟩ hne
  | wrong hreads =>
    refine .wrong fun w rest e hsrc hw => ?_
    obtain ⟨e', hw, -⟩ := hw
    exact hreads w rest e' hsrc hw

/-- A decoder that first looks at what the target holds. -/
theorem outcome_exists {μ : Type} (look : List Cell → Option μ) {g : μ → Grammar Cell UInt8 ν}
    {r : Except Fault (List Cell × List UInt8)}
    (hnone : look data = none → r = .error .undefined)
    (hsome : ∀ x, look data = some x → Outcome .undefined (g x) size post data src r) :
    Outcome .undefined (fun data w e => ∃ x, look data = some x ∧ g x data w e) size post data
      src r := by
  cases hlook : look data with
  | none =>
    rw [hnone hlook]
    refine .wrong fun w rest e _ hw => ?_
    obtain ⟨x, hx, -⟩ := hw
    rw [hlook] at hx
    cases hx
  | some x =>
    have hg : ∀ w e, g x data w e → ∃ x, look data = some x ∧ g x data w e :=
      fun w e hw => ⟨x, hlook, hw⟩
    cases hsome x hlook with
    | returned hsrc hreads hroom hlen hdrop hpost =>
      exact .returned hsrc (hg _ _ hreads) hroom hlen hdrop hpost
    | refused hsrc hreads hne => exact .refused hsrc (hg _ _ hreads) hne
    | wrong hreads =>
      refine .wrong fun w rest e hsrc hw => ?_
      obtain ⟨x', hx', hw⟩ := hw
      obtain rfl : x = x' := Option.some.inj (hlook.symm.trans hx')
      exact hreads w rest e hsrc hw

/-- A decoder that first needs the cells of the object at hand. -/
theorem outcome_room {g : Grammar Cell UInt8 ν} {room : ℕ}
    {next : Except Fault (List Cell × List UInt8)}
    (h : room ≤ data.length → Outcome .undefined g size post data src next) :
    Outcome .undefined (fun data w e => room ≤ data.length ∧ g data w e) size post data src
      (if data.length < room then .error .undefined else next) := by
  by_cases hroom : room ≤ data.length
  · rw [if_neg (not_lt.mpr hroom)]
    cases h hroom with
    | returned hsrc hreads hroom' hlen hdrop hpost =>
      exact .returned hsrc ⟨hroom, hreads⟩ hroom' hlen hdrop hpost
    | refused hsrc hreads hne => exact .refused hsrc ⟨hroom, hreads⟩ hne
    | wrong hreads => exact .wrong fun w rest e hsrc hw => hreads w rest e hsrc hw.2
  · rw [if_pos (not_le.mp hroom)]
    exact .wrong fun w rest e _ hw => hroom hw.1

/-- A byte, and what follows it. -/
theorem outcome_cons {g : Grammar Cell UInt8 ν} {b : UInt8}
    {r : Except Fault (List Cell × List UInt8)}
    (h : Outcome .undefined g size (fun data w r => post data (b :: w) r) data src r) :
    Outcome .undefined (fun data w e => ∃ b w', w = b :: w' ∧ g data w' e) size post data (b :: src)
      r := by
  cases h with
  | returned hsrc hreads hroom hlen hdrop hleaves =>
    exact .returned (by rw [hsrc, List.cons_append]) ⟨b, _, rfl, hreads⟩ hroom hlen hdrop hleaves
  | refused hsrc hreads hne =>
    exact .refused (by rw [hsrc, List.cons_append]) ⟨b, _, rfl, hreads⟩ hne
  | wrong hreads =>
    refine .wrong fun w rest e hsrc hw => ?_
    obtain ⟨b', w', rfl, hw'⟩ := hw
    cases hsrc
    exact hreads w' rest e rfl hw'

/-- A decoder that gives up. -/
theorem outcome_refused {e : Fault} (he : e ≠ .undefined) :
    Outcome .undefined refused size post data src (.error e) :=
  .refused (w := []) rfl ⟨rfl, rfl⟩ he

end SizeField

theorem le_length_of_head? {size : ℕ} {data : List Cell} {c : Cell}
    (h : head? size data = some c) : size ≤ data.length := by
  rw [head?] at h
  split_ifs at h with hlen
  · exact hlen

/-! ## C++ -/

namespace CppDeserializer

variable (M : Platform)

/-- There is room for `n` more elements, or there is memory for more room. -/
def HasRoom (limit : ℕ) (bytes : ℕ → ℕ) (size spare n : ℕ) : Prop :=
  n ≤ spare ∨ M.allocate (bytes (M.capacity limit size (size + spare) (size + n))) = true

instance (limit : ℕ) (bytes : ℕ → ℕ) (size spare n : ℕ) :
    Decidable (HasRoom M limit bytes size spare n) := inferInstanceAs (Decidable (_ ∨ _))

/-- What an object holds, and how much more it has room for. -/
def withSpare {α : Type} (look : List Cell → Option α) (data : List Cell) : Option (α × ℕ) :=
  (look data).map fun x => (x, spare data)

/-- Bytes that add something to what is there. -/
def added (n : ℕ) : Grammar Cell UInt8 Value := payload n fun _ => none

/-- The grammar of `DeserializeSingle<std::string>`. -/
def stringFrame : Grammar Cell UInt8 Value := fun data w e =>
  32 ≤ data.length ∧ sized (fun n => if n = 0 then added 0 else
    fun data w e => ∃ p, withSpare stdString? data = some p ∧
      (if HasRoom M (maxSize - 1) (· + 1) p.1.length p.2 n then added n else refused) data w e)
        data w e

/-- The grammar of `DeserializeDynamicArray<T>`. -/
def vectorFrame (sizeofT : ℕ) (fill : List Cell) (relocate : Cell → Cell) (count : ℕ → ℕ)
    (elems : ℕ → Grammar Cell UInt8 (List Value)) : Grammar Cell UInt8 Value := fun data w e =>
  ∃ p, withSpare stdVector? data = some p ∧ sized (fun n =>
    if HasRoom M maxSize id p.1.length p.2 ((count n - p.1.length / sizeofT) * sizeofT) then
      fun _ => (elems n).map (fun _ => none) (resized sizeofT fill relocate (count n) p.1 p.2)
    else refused) data w e

/-- The grammar of a number of `push_back`s onto a vector of `size` with room for `room` more. -/
def pushBackFrame : ℕ → (size room : ℕ) → Grammar Cell UInt8 Value
  | 0, _, _ => added 0
  | n + 1, size, 0 => fun data w e => ∃ b w', w = b :: w' ∧
      (if allocateBits M (M.capacity maxSize size size (size + 1)) then
        pushBackFrame n (size + 1)
          (wordBits (M.capacity maxSize size size (size + 1)) - (size + 1))
      else refused) data w' e
  | n + 1, size, room + 1 => fun data w e => ∃ b w', w = b :: w' ∧
      pushBackFrame n (size + 1) room data w' e

/-- The grammar of `DeserializeDynamicArray<bool>`. -/
def vectorBoolFrame : Grammar Cell UInt8 Value := fun data w e =>
  ∃ p, withSpare stdVectorBool? data = some p ∧ sized (fun n =>
    match reserve M n p.1.length p.2 with
    | .ok room => pushBackFrame M n p.1.length room
    | .error _ => refused) data w e

/-- The grammars of `CppDeserializer`.  What they leave depends on what was there, so that they say
nothing of it. -/
def frames : TemplateGrammars where
  singleString := stringFrame M
  dynamicArray
    | .boolean => vectorBoolFrame M
    | p => vectorFrame M p.sizeof (zeros p.sizeof) id id fun n =>
        copied (sizeT (p.sizeof * n)) (readEach (readPrimitive p) p.sizeof n)
  dynamicArrayString := vectorFrame M cppAbi.stringSize (object 32 (.string [] 15 true)) id id
    ((stringFrame M).each cppAbi.stringSize)
  dynamicArrayMessage marked size read g :=
    vectorFrame M 1 [.byte 0] Cell.moved (fun n => sizeT (n * size)) fun n =>
      if marked then copied (sizeT (n * size)) (readEach read size n) else g.each size n

variable {M}

theorem unique_stringFrame : (stringFrame M).Unique := by
  refine unique_and (unique_sized fun n => ?_)
  split_ifs
  · exact unique_payload 0 _
  · refine unique_exists fun p => ?_
    split_ifs
    · exact unique_payload n _
    · exact unique_refused

theorem unique_vectorFrame {sizeofT : ℕ} {fill : List Cell} {relocate : Cell → Cell}
    {count : ℕ → ℕ} {elems : ℕ → Grammar Cell UInt8 (List Value)} (h : ∀ n, (elems n).Unique) :
    (vectorFrame M sizeofT fill relocate count elems).Unique := by
  refine unique_exists fun p => unique_sized fun n => ?_
  split_ifs
  · exact unique_elsewhere (h n).map _
  · exact unique_refused

/-- A byte, and what follows it. -/
theorem unique_cons {g : Grammar Cell UInt8 Value} (h : g.Unique) :
    Grammar.Unique fun data w e => ∃ b w', w = b :: w' ∧ g data w' e := by
  rintro data w rest e w' rest' e' ⟨b, x, rfl, hx⟩ ⟨b', x', rfl, hx'⟩ heq
  obtain ⟨rfl, heq'⟩ := List.cons.inj heq
  obtain ⟨rfl, rfl⟩ := h data x rest e x' rest' e' hx hx' heq'
  exact ⟨rfl, rfl⟩

theorem unique_pushBackFrame (n : ℕ) : ∀ size room, (pushBackFrame M n size room).Unique := by
  induction n with
  | zero => exact fun _ _ => unique_payload 0 _
  | succ n ih =>
    intro size room
    cases room with
    | zero =>
      refine unique_cons ?_
      split_ifs
      · exact ih _ _
      · exact unique_refused
    | succ room => exact unique_cons (ih _ _)

theorem unique_vectorBoolFrame : (vectorBoolFrame M).Unique := by
  refine unique_exists fun p => unique_sized fun n => ?_
  split
  · exact unique_pushBackFrame n _ _
  · exact unique_refused

/-- What a decoder leaves does not matter where it keeps what was there. -/
theorem leaves_keep {ν : Type} {read : List Cell → Option ν} {fmt : Format ν UInt8}
    {data : List Cell} {w : List UInt8} {r : Option ν} :
    Leaves read (leaves M true fmt) (Overwrites M true) data w r := ⟨fun _ _ => nofun, nofun⟩

theorem withSpare_eq_some {α : Type} {look : List Cell → Option α} {data : List Cell} {p : α × ℕ} :
    withSpare look data = some p ↔ look data = some p.1 ∧ spare data = p.2 := by
  rw [withSpare, Option.map_eq_some_iff]
  constructor
  · rintro ⟨x, hx, rfl⟩
    exact ⟨hx, rfl⟩
  · rintro ⟨hx, hspare⟩
    exact ⟨p.1, hx, by rw [hspare]⟩

theorem withSpare_eq_none {α : Type} {look : List Cell → Option α} {data : List Cell}
    (h : withSpare look data = none) : look data = none := Option.map_eq_none_iff.mp h

theorem grow_of_hasRoom {limit size spare n : ℕ} {bytes : ℕ → ℕ}
    (h : HasRoom M limit bytes size spare n) :
    ∃ room, grow M limit bytes size spare n = .ok room := by
  rw [grow]
  by_cases hn : n ≤ spare
  · exact ⟨_, if_pos hn⟩
  · rw [if_neg hn]
    exact ⟨_, if_pos (h.resolve_left hn)⟩

theorem grow_of_not_hasRoom {limit size spare n : ℕ} {bytes : ℕ → ℕ}
    (h : ¬HasRoom M limit bytes size spare n) :
    grow M limit bytes size spare n = .error .allocation := by
  rw [HasRoom, not_or] at h
  rw [grow, if_neg h.1]
  exact if_neg h.2

theorem le_length_of_stdVector? {data storage : List Cell} (h : stdVector? data = some storage) :
    24 ≤ data.length := by
  rw [stdVector?] at h
  split at h
  · exact le_length_of_head? (by assumption)
  · exact le_length_of_head? (by assumption)
  · cases h

theorem le_length_of_stdVectorBool? {data : List Cell} {bits : List Bool}
    (h : stdVectorBool? data = some bits) : 40 ≤ data.length := by
  rw [stdVectorBool?] at h
  split at h
  · exact le_length_of_head? (by assumption)
  · exact le_length_of_head? (by assumption)
  · cases h

/-- What `DeserializeSingle<std::string>` does once it knows the number of characters. -/
def appendString (M : Platform) (data : List Cell) (n : ℕ) (src : List UInt8) :
    Except Fault (List Cell × List UInt8) :=
  if 0 < n then
    match stdString? data with
    | none => .error .undefined
    | some chars =>
      grow M (maxSize - 1) (· + 1) chars.length (spare data) n >>= fun room =>
        if n ≤ src.length then
          .ok (place 32 (.string (chars ++ src.take n) room
            (inside data && decide (n ≤ spare data))) data, src.drop n)
        else .error .undefined
  else .ok (data, src)

theorem stringFrame_follows (read : List Cell → Option Value) (fmt : Format Value UInt8) :
    FollowsFrame M true (deserializeSingleString M) (stringFrame M) cppAbi.stringSize read fmt := by
  intro data src
  rw [deserializeSingleString]
  refine outcome_room fun hroom => outcome_sized (appendString M data) fun field rest _ _ => ?_
  rw [appendString]
  generalize ofLeBytes field = n
  by_cases hn : n = 0
  · subst hn
    rw [if_neg (lt_irrefl 0), if_pos rfl]
    exact .returned (w := []) rfl ⟨rfl, rfl⟩ hroom rfl rfl leaves_keep
  · rw [if_pos (Nat.pos_of_ne_zero hn), if_neg hn]
    refine outcome_exists _ (fun hnone => by rw [withSpare_eq_none hnone]) fun p hp => ?_
    obtain ⟨hchars, hspare⟩ := withSpare_eq_some.mp hp
    rw [hchars, ← hspare]
    dsimp only
    by_cases hgrows : HasRoom M (maxSize - 1) (· + 1) p.1.length (spare data) n
    · obtain ⟨room, hgrow⟩ := grow_of_hasRoom hgrows
      rw [if_pos hgrows, hgrow]
      show Outcome _ _ _ _ _ _ (if n ≤ rest.length then _ else _)
      split_ifs with hlen
      · exact .returned (List.take_append_drop n rest).symm
          ⟨by rw [List.length_take]; omega, rfl⟩ hroom (length_place (by decide) hroom _)
          (drop_place (by decide) _) leaves_keep
      · refine .wrong fun w rest' e hsrc hw => hlen ?_
        rw [hsrc, List.length_append, hw.1]
        omega
    · rw [if_neg hgrows, grow_of_not_hasRoom hgrows]
      exact outcome_refused Fault.allocation_ne_undefined

section Resize

variable {sizeofT n spare : ℕ} {storage : List Cell}

theorem resize_of_hasRoom (h : HasRoom M maxSize id storage.length spare
      ((n - storage.length / sizeofT) * sizeofT)) (fill : List Cell) (relocate : Cell → Cell) :
    ∃ room, resize M sizeofT fill relocate n storage spare =
      .ok (resized sizeofT fill relocate n storage spare, room) := by
  rw [resize]
  by_cases hn : n ≤ storage.length / sizeofT
  · rw [if_pos hn]
    exact ⟨_, rfl⟩
  · obtain ⟨room, hgrow⟩ := grow_of_hasRoom h
    rw [if_neg hn, hgrow]
    exact ⟨room, rfl⟩

theorem resize_of_not_hasRoom (h : ¬HasRoom M maxSize id storage.length spare
      ((n - storage.length / sizeofT) * sizeofT)) (fill : List Cell) (relocate : Cell → Cell) :
    resize M sizeofT fill relocate n storage spare = .error .allocation := by
  have hn : ¬n ≤ storage.length / sizeofT := fun hn => h (.inl (by
    rw [Nat.sub_eq_zero_of_le hn, Nat.zero_mul]
    exact Nat.zero_le _))
  rw [resize, if_neg hn, grow_of_not_hasRoom h]
  rfl

end Resize

/-- A vector follows its grammar if its elements do. -/
theorem vectorFrame_outcome {sizeofT : ℕ} {fill : List Cell} {relocate : Cell → Cell}
    {count : ℕ → ℕ} {elems : ℕ → Grammar Cell UInt8 (List Value)}
    {array : ℕ → Decoder Cell UInt8 Fault} {size : ℕ → ℕ}
    (h : ∀ n block src, Outcome .undefined (elems n) (size n) (fun _ _ _ => True) block src
      (array n block src))
    {post : List Cell → List UInt8 → Option Value → Prop} (hpost : ∀ data w r, post data w r)
    {data : List Cell} {src : List UInt8} {r : Except Fault (List Cell × List UInt8)}
    (hnone : stdVector? data = none → r = .error .undefined)
    (hsome : ∀ storage, stdVector? data = some storage →
      r = deserializeArraySize src >>= fun p =>
        resize M sizeofT fill relocate (count p.1) storage (spare data) >>= fun block =>
          array p.1 block.1 p.2 >>= fun q => .ok (place 24 (.vector q.1 block.2) data, q.2)) :
    Outcome .undefined (vectorFrame M sizeofT fill relocate count elems) cppAbi.vectorSize post data
      src r := by
  refine outcome_exists _ (fun h => hnone (withSpare_eq_none h)) fun p hp => ?_
  obtain ⟨hstorage, hspare⟩ := withSpare_eq_some.mp hp
  rw [hsome p.1 hstorage, ← hspare]
  have hroom : 24 ≤ data.length := le_length_of_stdVector? hstorage
  refine outcome_sized (fun n src => resize M sizeofT fill relocate (count n) p.1 (spare data) >>=
    fun block => array n block.1 src >>= fun q => .ok (place 24 (.vector q.1 block.2) data, q.2))
    fun field rest _ _ => ?_
  generalize ofLeBytes field = n
  by_cases hgrows : HasRoom M maxSize id p.1.length (spare data)
      ((count n - p.1.length / sizeofT) * sizeofT)
  · obtain ⟨room, hresize⟩ := resize_of_hasRoom hgrows fill relocate
    rw [if_pos hgrows, hresize]
    exact outcome_put (fun block => place 24 (.vector block room) data) (h n _ rest) hroom
      (fun _ => length_place (by decide) hroom _) (fun _ => drop_place (by decide) _)
      fun _ _ _ _ _ _ => hpost _ _ _
  · rw [if_neg hgrows, resize_of_not_hasRoom hgrows fill relocate]
    exact outcome_refused Fault.allocation_ne_undefined

theorem pushBackFrame_outcome {post : List Cell → List UInt8 → Option Value → Prop}
    (hpost : ∀ data w r, post data w r) {data : List Cell} (hroom : 40 ≤ data.length) (n : ℕ) :
    ∀ (bits : List Bool) (room : ℕ) (src : List UInt8),
      Outcome .undefined (pushBackFrame M n bits.length room) cppAbi.boolVectorSize post data src
        (pushBack M n bits room src >>= fun p =>
          .ok (place 40 (.vectorBool p.1.1 p.1.2) data, p.2)) := by
  induction n with
  | zero =>
    exact fun bits room src => .returned (w := []) rfl ⟨rfl, rfl⟩ hroom
      (length_place (by decide) hroom _) (drop_place (by decide) _) (hpost _ _ _)
  | succ n ih =>
    intro bits room src
    cases src with
    | nil =>
      refine .wrong fun w rest e hsrc hw => ?_
      cases room with
      | zero =>
        obtain ⟨b, w', rfl, -⟩ := hw
        cases hsrc
      | succ room =>
        obtain ⟨b, w', rfl, -⟩ := hw
        cases hsrc
    | cons b src =>
      have hlen : (bits ++ [b != 0]).length = bits.length + 1 := List.length_append
      cases room with
      | zero =>
        rw [pushBack]
        refine outcome_cons ?_
        by_cases hgrant : allocateBits M
            (M.capacity maxSize bits.length bits.length (bits.length + 1)) = true
        · rw [if_pos hgrant, if_pos hgrant, ← hlen]
          exact (ih _ _ src).imp fun _ _ _ _ => hpost _ _ _
        · rw [if_neg hgrant, if_neg hgrant]
          exact outcome_refused Fault.allocation_ne_undefined
      | succ room =>
        rw [pushBack]
        refine outcome_cons ?_
        rw [← hlen]
        exact (ih _ _ src).imp fun _ _ _ _ => hpost _ _ _

theorem vectorBoolFrame_follows {read : List Cell → Option Value} {fmt : Format Value UInt8} :
    FollowsFrame M true (deserializeDynamicArrayBool M) (vectorBoolFrame M) cppAbi.boolVectorSize
      read fmt := by
  intro data src
  refine outcome_exists _
    (fun hnone => by rw [deserializeDynamicArrayBool, withSpare_eq_none hnone]) fun p hp => ?_
  obtain ⟨hbits, hspare⟩ := withSpare_eq_some.mp hp
  rw [deserializeDynamicArrayBool, hbits, hspare]
  have hroom : 40 ≤ data.length := le_length_of_stdVectorBool? hbits
  refine outcome_sized (fun n src => reserve M n p.1.length p.2 >>= fun room =>
    pushBack M n p.1 room src >>= fun q => .ok (place 40 (.vectorBool q.1.1 q.1.2) data, q.2))
    fun field rest _ _ => ?_
  generalize ofLeBytes field = n
  cases hreserve : reserve M n p.1.length p.2 with
  | ok room => exact pushBackFrame_outcome (fun _ _ _ => leaves_keep) hroom n p.1 room rest
  | error e =>
    refine outcome_refused ?_
    rw [reserve] at hreserve
    split_ifs at hreserve
    cases hreserve
    exact Fault.allocation_ne_undefined

theorem dynamicArray_follows {sizeofT : ℕ} {fill : List Cell}
    {elems : ℕ → Grammar Cell UInt8 (List Value)} {array : ℕ → Decoder Cell UInt8 Fault}
    {size : ℕ → ℕ}
    (h : ∀ n block src, Outcome .undefined (elems n) (size n) (fun _ _ _ => True) block src
      (array n block src))
    {read : List Cell → Option Value} {fmt : Format Value UInt8} :
    FollowsFrame M true (deserializeDynamicArray M sizeofT fill array)
      (vectorFrame M sizeofT fill id id elems) cppAbi.vectorSize read fmt :=
  fun data src => vectorFrame_outcome h (fun _ _ _ => leaves_keep)
    (fun hnone => by rw [deserializeDynamicArray, hnone])
    fun storage hstorage => by rw [deserializeDynamicArray, hstorage]; rfl

theorem dynamicArrayMessage_follows {marked : Bool} {size : ℕ} {elem : Decoder Cell UInt8 Fault}
    {g : Grammar Cell UInt8 Value} {elemRead : List Cell → Option Value}
    {elemFmt : Format Value UInt8} (hunique : g.Unique) (hloc : LocalTo size elemRead)
    (helem : FollowsFrame M true elem g size elemRead elemFmt)
    {read : List Cell → Option Value} {fmt : Format Value UInt8} :
    FollowsFrame M true (deserializeDynamicArrayMessage M marked size elem)
      (vectorFrame M 1 [.byte 0] Cell.moved (fun n => sizeT (n * size)) fun n =>
        if marked then copied (sizeT (n * size)) (readEach elemRead size n) else g.each size n)
      cppAbi.vectorSize read fmt := by
  have harray : ∀ n block src, Outcome .undefined
      (if marked then copied (sizeT (n * size)) (readEach elemRead size n) else g.each size n)
      (if marked then sizeT (n * size) else n * size) (fun _ _ _ => True) block src
      ((if marked then copyBytes (sizeT (n * size)) else elem.each size n) block src) := by
    intro n block src
    split_ifs
    · exact copyBytes_outcome fun _ _ => trivial
    · exact (helem.each hunique hloc n block src).imp fun _ _ _ _ => trivial
  intro data src
  refine vectorFrame_outcome harray (fun _ _ _ => leaves_keep)
    (fun hnone => by rw [deserializeDynamicArrayMessage, hnone]) fun storage hstorage => ?_
  rw [deserializeDynamicArrayMessage, hstorage]
  cases marked <;> rfl

/-- **The templates of `CppDeserializer` follow their grammars.** -/
theorem framed : (ops M).Framed M cppAbi true (frames M) where
  singleString_unique := unique_stringFrame
  singleString := stringFrame_follows _ _
  dynamicArray_unique p := by
    have h : (vectorFrame M p.sizeof (zeros p.sizeof) id id fun n =>
        copied (sizeT (p.sizeof * n)) (readEach (readPrimitive p) p.sizeof n)).Unique :=
      unique_vectorFrame fun n => Grammar.unique_fixed _ _
    cases p <;> first | exact h | exact unique_vectorBoolFrame
  dynamicArray {p} hp := by
    have hcopy : ∀ n block src, Outcome .undefined
        (copied (sizeT (p.sizeof * n)) (readEach (readPrimitive p) p.sizeof n))
        (sizeT (p.sizeof * n)) (fun _ _ _ => True) block src (deserializeArray p n block src) :=
      fun n block src => copyBytes_outcome fun _ _ => trivial
    cases p <;> first | exact dynamicArray_follows hcopy | exact absurd rfl hp
  dynamicArrayBool := vectorBoolFrame_follows
  dynamicArrayString_unique := unique_vectorFrame fun n => unique_stringFrame.each _ n
  dynamicArrayString := dynamicArray_follows fun n block src =>
    ((stringFrame_follows (fun _ => none) fun _ _ => True).each unique_stringFrame
      (fun _ _ _ => rfl) n block src).imp fun _ _ _ _ => trivial
  dynamicArrayMessage_unique h := unique_vectorFrame fun n => by
    split_ifs
    · exact Grammar.unique_fixed _ _
    · exact h.each _ n
  dynamicArrayMessage _ hloc hunique helem _ := dynamicArrayMessage_follows hunique hloc helem

end CppDeserializer

/-! ## C -/

/-- A size field of small bytes announces little. -/
theorem Small.ofLeBytes_le {w : List UInt8} (h : Small w) :
    255 * ofLeBytes w + 2 ≤ 2 * 256 ^ w.length := by
  induction w with
  | nil => decide
  | cons b w ih =>
    have hb : b.toNat ≤ 2 := UInt8.le_iff_toNat_le.mp (h b (.head _))
    have hw := ih fun b hb => h b (.tail _ hb)
    rw [ofLeBytes, List.length_cons, pow_succ]
    omega

/-- What is announced by a field of small bytes, there is memory for. -/
theorem Small.announced_le {field : List UInt8} (h : Small field) (hlen : field.length = 8) :
    ofLeBytes field * 24 ≤ maxSize := by
  have hle := h.ofLeBytes_le
  rw [hlen] at hle
  rw [maxSize]
  omega

theorem sizeBytes_ofLeBytes {field : List UInt8} (hlen : field.length = 8) :
    sizeBytes (ofLeBytes field) = field := by
  rw [sizeBytes, ← hlen, leBytes_ofLeBytes]

namespace CDeserializer

variable (M : Platform)

/-- The grammar of `DeserializeSingle<std::string>`.  A string that there is no room for in memory
is read, and remains empty. -/
def stringFrame : Grammar Cell UInt8 Value := fun data w e =>
  24 ≤ data.length ∧ sized (fun n => payload n fun w =>
    some (.string (if w.length < maxSize then w else []))) data w e

/-- What a sequence of so many bytes says, given what its elements say together.  If the number
wraps around, nothing can be read from it. -/
def sequenceReading {ν : Type} (wrap : List ν → Value) (bytes : ℕ) (r : Option (List ν)) :
    Option Value := if bytes ≤ maxSize then r.map wrap else none

/-- The grammar of `DeserializeDynamicArray<T>` and of `DeserializeDynamicArray<ros_message_t>`. -/
def sequenceFrame {ν : Type} (wrap : List ν → Value) (sizeofT : ℕ)
    (elems : ℕ → Grammar Cell UInt8 (List ν)) : Grammar Cell UInt8 Value := fun data w e =>
  24 ≤ data.length ∧
    sized (fun n => if n = 0 then payload 0 fun _ => some (wrap [])
      else if M.allocate (sizeT (n * sizeofT)) then
        fun _ => (elems n).map (sequenceReading wrap (n * sizeofT)) (M.fresh (sizeT (n * sizeofT)))
      else refused) data w e

/-- The grammar of `DeserializeDynamicArray<std::string>`. -/
def stringSequenceFrame : Grammar Cell UInt8 Value := fun data w e =>
  24 ≤ data.length ∧
    sized (fun n => if n = 0 then payload 0 fun _ => some (.sequence [])
      else fun data w e => ∃ p, cSequence? (M.runtimeC.stringSequenceInit data n) = some p ∧
        (stringFrame.each cAbi.stringSize p.2).map
          (sequenceReading .sequence (p.2 * cAbi.stringSize)) p.1 w e) data w e

/-- What is read of so many booleans in a row. -/
def readBits (n : ℕ) (block : List Cell) : Option (List Bool) :=
  (bytes? n block).bind fun bs => bs.mapM boolOfByte?

/-- The grammars of `CDeserializer`. -/
def frames : TemplateGrammars where
  singleString := stringFrame
  dynamicArray
    | .boolean => sequenceFrame M .bools Primitive.boolean.sizeof fun n =>
        copied (sizeT (Primitive.boolean.sizeof * n)) (readBits n)
    | p => sequenceFrame M .sequence p.sizeof fun n =>
        copied (sizeT (p.sizeof * n)) (readEach (readPrimitive p) p.sizeof n)
  dynamicArrayString := stringSequenceFrame M
  dynamicArrayMessage marked size read g := sequenceFrame M .sequence size fun n =>
    if marked then copied (sizeT (n * size)) (readEach read size n) else g.each size n

variable {M}

theorem unique_stringFrame : stringFrame.Unique :=
  unique_and (unique_sized fun n => unique_payload n _)

theorem unique_sequenceFrame {ν : Type} {wrap : List ν → Value} {sizeofT : ℕ}
    {elems : ℕ → Grammar Cell UInt8 (List ν)} (h : ∀ n, (elems n).Unique) :
    (sequenceFrame M wrap sizeofT elems).Unique := by
  refine unique_and (unique_sized fun n => ?_)
  split_ifs
  · exact unique_payload 0 _
  · exact unique_elsewhere (h n).map _
  · exact unique_refused

theorem unique_stringSequenceFrame : (stringSequenceFrame M).Unique := by
  refine unique_and (unique_sized fun n => ?_)
  split_ifs
  · exact unique_payload 0 _
  · exact unique_exists fun p => unique_elsewhere (unique_stringFrame.each _ p.2).map p.1

section RuntimeC

variable {data : List Cell}

theorem length_stringAssignn (h : 24 ≤ data.length) (chars : List UInt8) :
    (M.runtimeC.stringAssignn data chars).length = data.length := by
  cases hgrant : allocates M.grants (chars.length + 1) with
  | true =>
    rw [M.runtimeC.stringAssignn_granted data chars hgrant]
    exact length_place (by decide) h _
  | false => rw [M.runtimeC.stringAssignn_refused data chars hgrant]

theorem drop_stringAssignn (data : List Cell) (chars : List UInt8) :
    (M.runtimeC.stringAssignn data chars).drop 24 = data.drop 24 := by
  cases hgrant : allocates M.grants (chars.length + 1) with
  | true =>
    rw [M.runtimeC.stringAssignn_granted data chars hgrant]
    exact drop_place (by decide) _
  | false => rw [M.runtimeC.stringAssignn_refused data chars hgrant]

/-- A sequence is initialized in its own cells, or not at all. -/
theorem stringSequenceInit_cases (M : Platform) (data : List Cell) (n : ℕ) :
    M.runtimeC.stringSequenceInit data n = place 24 (.sequence (emptyStrings n) n n) data ∨
      M.runtimeC.stringSequenceInit data n = data := by
  rcases Nat.eq_zero_or_pos n with rfl | hn
  · exact .inl (M.runtimeC.stringSequenceInit_zero data)
  · cases hgrant : (allocates M.grants (n * 24) && allocates M.grants 1) with
    | true =>
      rw [Bool.and_eq_true] at hgrant
      exact .inl (M.runtimeC.stringSequenceInit_granted data n hn hgrant.1 hgrant.2)
    | false => exact .inr (M.runtimeC.stringSequenceInit_refused data n hn hgrant)

theorem length_stringSequenceInit (h : 24 ≤ data.length) (n : ℕ) :
    (M.runtimeC.stringSequenceInit data n).length = data.length := by
  rcases stringSequenceInit_cases M data n with h' | h' <;> rw [h']
  exact length_place (by decide) h _

theorem drop_stringSequenceInit (data : List Cell) (n : ℕ) :
    (M.runtimeC.stringSequenceInit data n).drop 24 = data.drop 24 := by
  rcases stringSequenceInit_cases M data n with h' | h' <;> rw [h']
  exact drop_place (by decide) _

end RuntimeC

/-- What is read of a string that has been assigned to. -/
theorem readString_assigned (hM : M.Ample) {data : List Cell} (hroom : 24 ≤ data.length)
    (chars : List UInt8) :
    cAbi.readString (M.runtimeC.stringAssignn (M.runtimeC.stringInit data) chars) =
      some (if chars.length < maxSize then chars else []) := by
  have hinit : M.runtimeC.stringInit data = place 24 emptyString data :=
    M.runtimeC.stringInit_granted data (hM.allocate one_le_maxSize)
  by_cases hlt : chars.length < maxSize
  · rw [M.runtimeC.stringAssignn_granted _ chars (hM.allocate hlt), hinit,
      place_place (by decide), readString_place hroom hlt, if_pos hlt]
    refine bytes?_eq_some.mpr ⟨?_, List.take_left' (List.length_map _)⟩
    rw [List.length_append, List.length_map]
    omega
  · have hno : allocates M.grants (chars.length + 1) = false := by
      rw [allocates, decide_eq_false (by omega), Bool.false_and]
    rw [M.runtimeC.stringAssignn_refused _ chars hno, hinit, emptyString,
      readString_place hroom (by decide), if_neg hlt]
    rfl

theorem singleString_follows : FollowsFrame M false (deserializeSingleString M) stringFrame
    cAbi.stringSize (fun d => (cAbi.readString d).map .string) stringFormat := by
  intro data src
  rw [deserializeSingleString]
  refine outcome_room fun hroom => outcome_sized (fun n src =>
    if n ≤ src.length then
      .ok (M.runtimeC.stringAssignn (M.runtimeC.stringInit data) (src.take n), src.drop n)
    else .error .undefined) fun field rest _ hfield => ?_
  have hinit := M.runtimeC.length_stringInit data hroom
  by_cases hlen : ofLeBytes field ≤ rest.length
  · have htake : (rest.take (ofLeBytes field)).length = ofLeBytes field := by
      rw [List.length_take, Nat.min_eq_left hlen]
    rw [if_pos hlen]
    refine .returned (List.take_append_drop _ rest).symm ⟨htake, rfl⟩ hroom
      ((length_stringAssignn (hinit.symm ▸ hroom) _).trans hinit)
      ((drop_stringAssignn _ _).trans (M.runtimeC.drop_stringInit data hroom))
      ⟨fun v hv _ hM hsmall => ?_, fun hover => congrArg _ (readString_assigned hover.2 hroom _)⟩
    have hfits := hsmall.left.announced_le hfield
    have hlt : (rest.take (ofLeBytes field)).length < maxSize := by
      rw [htake]
      rw [maxSize] at hfits ⊢
      omega
    obtain ⟨chars, hchars, rfl⟩ := Option.map_eq_some_iff.mp hv
    rw [readString_assigned hM hroom, if_pos hlt] at hchars
    cases hchars
    exact ⟨_, rfl, hlt, by rw [htake, sizeBytes_ofLeBytes hfield]⟩
  · rw [if_neg hlen]
    refine .wrong fun w rest' e hsrc hw => hlen ?_
    rw [hsrc, List.length_append, hw.1]
    omega

/-- **A sequence follows its grammar if its elements do.**  Where their number of bytes wraps
around, nothing but what is read of the input matters of them. -/
theorem deserializeDynamicArray_follows {ν : Type} {wrap : List ν → Value} {stride : ℕ}
    {elems : ℕ → Grammar Cell UInt8 (List ν)} {array : ℕ → Decoder Cell UInt8 Fault} (size : ℕ → ℕ)
    (elemsRead : ℕ → List Cell → Option (List ν)) (elemsFmt : Format (List ν) UInt8)
    (h : ∀ n, n * stride ≤ maxSize →
      FollowsFrame M false (array n) (elems n) (size n) (elemsRead n) elemsFmt)
    (hwrapped : ∀ n block src, Outcome .undefined (elems n) (size n) (fun _ _ _ => True) block src
      (array n block src))
    {read : List Cell → Option Value} {fmt : Format Value UInt8}
    (hread : ∀ {data block n}, 24 ≤ data.length → sizeT (n * stride) ≤ block.length →
      read (place 24 (.sequence block n n) data) =
        sequenceReading wrap (n * stride) (elemsRead n block))
    (hnil : ∀ block, elemsRead 0 block = some []) (hfmtNil : elemsFmt [] [])
    (hfmt : ∀ {n block vs w}, n * stride ≤ maxSize → elemsRead n block = some vs →
      elemsFmt vs w → fmt (wrap vs) (sizeBytes n ++ w)) :
    FollowsFrame M false (deserializeDynamicArray M stride array)
      (sequenceFrame M wrap stride elems) 24 read fmt := by
  intro data src
  rw [deserializeDynamicArray]
  refine outcome_room fun hroom => outcome_sized (fun n src => if 0 < n then
      if M.allocate (sizeT (n * stride)) then
        array n (M.fresh (sizeT (n * stride))) src >>= fun p =>
          .ok (place 24 (.sequence p.1 n n) data, p.2)
      else .error .allocation
    else .ok (place 24 (.sequence (sequenceData data) 0 0) data, src))
    fun field rest _ hfield => ?_
  have hsize := sizeBytes_ofLeBytes hfield
  generalize ofLeBytes field = n at hsize
  subst hsize
  by_cases hn : n = 0
  · subst hn
    have hnone : 0 * stride ≤ maxSize := by omega
    have hempty : read (place 24 (.sequence (sequenceData data) 0 0) data) = some (wrap []) := by
      rw [hread hroom (by rw [Nat.zero_mul]; exact Nat.zero_le _), sequenceReading, if_pos hnone,
        hnil]
      rfl
    rw [if_neg (lt_irrefl 0), if_pos rfl]
    refine .returned (w := []) rfl ⟨rfl, rfl⟩ hroom (length_place (by decide) hroom _)
      (drop_place (by decide) _) ⟨fun v hv _ _ _ => ?_, fun _ => hempty⟩
    rw [hempty] at hv
    cases hv
    exact hfmt hnone (hnil []) hfmtNil
  · rw [if_pos (Nat.pos_of_ne_zero hn), if_neg hn]
    split_ifs
    · have hput : ∀ block, (place 24 (.sequence block n n) data).length = data.length :=
        fun _ => length_place (by decide) hroom _
      have hread' : ∀ block : List Cell, block.length = (M.fresh (sizeT (n * stride))).length →
          read (place 24 (.sequence block n n) data) =
            sequenceReading wrap (n * stride) (elemsRead n block) :=
        fun block hlen => hread hroom (by rw [hlen, M.length_fresh])
      by_cases hfits : n * stride ≤ maxSize
      · refine outcome_put (fun block => place 24 (.sequence block n n) data) (h n hfits _ rest)
          hroom hput (fun _ => drop_place (by decide) _)
          fun block w r _ hlen hleaves => ⟨fun v hv _ hM hsmall => ?_, fun hover => ?_⟩
        · rw [hread' block hlen, sequenceReading, if_pos hfits] at hv
          obtain ⟨vs, hvs, rfl⟩ := Option.map_eq_some_iff.mp hv
          exact hfmt hfits hvs (hleaves.1 vs hvs rfl hM hsmall.right)
        · rw [hread' block hlen, hleaves.2 hover]
      · refine outcome_put (fun block => place 24 (.sequence block n n) data) (hwrapped n _ rest)
          hroom hput (fun _ => drop_place (by decide) _)
          fun block w r _ hlen _ => ⟨fun v hv => ?_, fun _ => ?_⟩
        · rw [hread' block hlen, sequenceReading, if_neg hfits] at hv
          cases hv
        · rw [hread' block hlen, sequenceReading, sequenceReading, if_neg hfits, if_neg hfits]
    · exact outcome_refused Fault.allocation_ne_undefined

/-- What is read of a sequence with its elements in their data block. -/
theorem readSequence_placed {elem : List Cell → Option Value} {stride : ℕ} {data block : List Cell}
    {n : ℕ} (hroom : 24 ≤ data.length) (hblock : sizeT (n * stride) ≤ block.length) :
    readSequence cAbi elem stride (place 24 (.sequence block n n) data) =
      sequenceReading .sequence (n * stride) (readEach elem stride n block) := by
  rw [sequenceReading]
  split_ifs with hfits
  · rw [sizeT_of_le hfits] at hblock
    rw [readSequence, readVector_place hroom hblock hfits]
    rfl
  · rw [readSequence]
    dsimp only [cAbi]
    rw [cSequence?_place hroom, Option.bind_some, if_neg fun h => hfits h.2]
    rfl

/-- A sequence of messages, or of numbers that are not booleans. -/
theorem elements_follow {stride : ℕ} {elems : ℕ → Grammar Cell UInt8 (List Value)}
    {array : ℕ → Decoder Cell UInt8 Fault} (size : ℕ → ℕ) {elem : List Cell → Option Value}
    {fmt : Format Value UInt8}
    (h : ∀ n, n * stride ≤ maxSize →
      FollowsFrame M false (array n) (elems n) (size n) (readEach elem stride n) fmt.each)
    (hwrapped : ∀ n block src, Outcome .undefined (elems n) (size n) (fun _ _ _ => True) block src
      (array n block src)) :
    FollowsFrame M false (deserializeDynamicArray M stride array)
      (sequenceFrame M .sequence stride elems) cAbi.vectorSize (readSequence cAbi elem stride)
      (sequenceFormat fmt stride) :=
  deserializeDynamicArray_follows size (readEach elem stride) fmt.each h hwrapped
    readSequence_placed (fun _ => rfl) rfl
    fun {n _ vs w} hfits hvs hw => by
      have hn := readEach_length hvs
      exact ⟨vs, w, rfl, hn.symm ▸ hfits, by rw [hn], hw⟩

/-- Elements that are copied as a block, if their number of bytes does not wrap around. -/
theorem copied_follow {stride : ℕ} {elem : List Cell → Option Value} (hloc : LocalTo stride elem)
    {fmt : Format Value UInt8}
    (hfmt : ∀ v w, fmt v w ↔ w.length = stride ∧ elem (w.map .byte) = some v) {n : ℕ}
    (hfits : n * stride ≤ maxSize) :
    FollowsFrame M false (copyBytes (sizeT (n * stride)))
      (copied (sizeT (n * stride)) (readEach elem stride n)) (sizeT (n * stride))
      (readEach elem stride n) fmt.each := by
  have hcopy := copyBytes_follows_each (n := n) hloc hfmt (Overwrites M false)
  rw [each_copied hloc] at hcopy
  rw [sizeT_of_le hfits]
  exact Follows.leaves hcopy

theorem dynamicArray_follows (p : Primitive) :
    FollowsFrame M false (deserializeDynamicArray M p.sizeof (deserializeArray p))
      (sequenceFrame M .sequence p.sizeof fun n =>
        copied (sizeT (p.sizeof * n)) (readEach (readPrimitive p) p.sizeof n)) cAbi.vectorSize
      (readSequence cAbi (readPrimitive p) p.sizeof)
      (sequenceFormat (primitiveFormat p) p.sizeof) :=
  elements_follow (fun n => sizeT (p.sizeof * n))
    (fun n hfits => by
      rw [deserializeArray, Nat.mul_comm p.sizeof]
      exact copied_follow (readPrimitive_local p) (primitiveFormat_iff p) hfits)
    fun n block src => copyBytes_outcome fun _ _ => trivial

theorem readBits_local (n : ℕ) : LocalTo n (readBits n) := (bytes?_local n).comp (·.bind _)

theorem dynamicArrayBool_follows :
    FollowsFrame M false
      (deserializeDynamicArray M Primitive.boolean.sizeof (deserializeArray .boolean))
      (sequenceFrame M .bools Primitive.boolean.sizeof fun n =>
        copied (sizeT (Primitive.boolean.sizeof * n)) (readBits n)) cAbi.boolVectorSize
      (fun d => (cAbi.readBools d).map .bools) boolsFormat := by
  refine deserializeDynamicArray_follows (fun n => sizeT (Primitive.boolean.sizeof * n)) readBits
    (fun bits w => w = bits.map boolByte) (fun n hfits => ?_)
    (fun n block src => copyBytes_outcome fun _ _ => trivial)
    (fun {data block n} hroom _ => ?_) (fun _ => rfl) rfl fun {n block bits w} hfits hbits hw => ?_
  · rw [Primitive.sizeof, Nat.mul_one] at hfits
    show FollowsFrame M false (copyBytes (sizeT (Primitive.boolean.sizeof * n))) _ _ _ _
    rw [Primitive.sizeof, Nat.one_mul, sizeT_of_le hfits]
    refine Follows.leaves (copyBytes_follows (readBits_local n) (fun bits w hlen hbits => ?_) _)
    obtain ⟨bs, hbs, hbits⟩ := Option.bind_eq_some_iff.mp hbits
    have htake := (bytes?_eq_some.mp hbs).2
    rw [← List.map_take, List.take_of_length_le hlen.le] at htake
    rw [List.map_injective_iff.mpr (fun _ _ => Cell.byte.inj) htake, mapM_boolOfByte?_eq_some hbits]
  · rw [sequenceReading, Primitive.sizeof, Nat.mul_one]
    split_ifs with hfits
    · rw [readBools_place hroom hfits]
      rfl
    · dsimp only [cAbi]
      rw [cSequence?_place hroom, Option.bind_some, if_neg hfits]
      rfl
  · rw [Primitive.sizeof, Nat.mul_one] at hfits
    obtain ⟨bs, hbs, hbits⟩ := Option.bind_eq_some_iff.mp hbits
    have hn : bits.length = n := by rw [← length_mapM_boolOfByte? hbits, length_of_bytes? hbs]
    exact ⟨bits, rfl, hn.symm ▸ hfits, by rw [hn, hw]⟩

/-- Messages, copied as a block or one by one. -/
theorem dynamicArrayMessage_follows {marked : Bool} {size : ℕ} {elem : Decoder Cell UInt8 Fault}
    {g : Grammar Cell UInt8 Value} {read : List Cell → Option Value} {fmt : Format Value UInt8}
    (hloc : LocalTo size read) (hunique : g.Unique)
    (helem : FollowsFrame M false elem g size read fmt)
    (hmarked : marked = true → ∀ v w, fmt v w ↔ w.length = size ∧ read (w.map .byte) = some v) :
    FollowsFrame M false (deserializeDynamicArrayMessage M marked size elem)
      (sequenceFrame M .sequence size fun n =>
        if marked then copied (sizeT (n * size)) (readEach read size n) else g.each size n)
      cAbi.vectorSize (readSequence cAbi read size) (sequenceFormat fmt size) := by
  refine elements_follow (fun n => if marked then sizeT (n * size) else n * size)
    (fun n hfits => ?_) fun n block src => ?_
  · rw [deserializeArrayMessage]
    split_ifs with hmark
    · exact copied_follow hloc (hmarked hmark) hfits
    · exact helem.each hunique hloc n
  · rw [deserializeArrayMessage]
    split_ifs
    · exact copyBytes_outcome fun _ _ => trivial
    · exact (helem.each hunique hloc n block src).imp fun _ _ _ _ => trivial

theorem cSequence?_eq_some {data block : List Cell} {n : ℕ}
    (h : cSequence? data = some (block, n)) :
    ∃ capacity, head? 24 data = some (.sequence block n capacity) := by
  rw [cSequence?] at h
  split at h
  · cases h
    exact ⟨_, by assumption⟩
  · cases h

theorem replaceData_eq {data block : List Cell} {n capacity : ℕ}
    (h : head? 24 data = some (.sequence block n capacity)) (block' : List Cell) :
    replaceData block' data = place 24 (.sequence block' n capacity) data := by
  rw [replaceData, h]

/-- What `DeserializeDynamicArray<std::string>` does once it knows the number of elements. -/
def deserializeStrings (M : Platform) (data : List Cell) (n : ℕ) (src : List UInt8) :
    Except Fault (List Cell × List UInt8) :=
  if 0 < n then
    match cSequence? (M.runtimeC.stringSequenceInit data n) with
    | none => .error .undefined
    | some (block, size) =>
      deserializeArrayString (deserializeSingleString M) cAbi.stringSize size block src >>=
        fun p => .ok (replaceData p.1 (M.runtimeC.stringSequenceInit data n), p.2)
  else .ok (M.runtimeC.stringSequenceInit data n, src)

/-- What is read of a sequence of strings that are in their data block. -/
theorem readStrings_placed {elem : List Cell → Option Value} {data block : List Cell}
    {n capacity : ℕ} (hroom : 24 ≤ data.length) (hblock : n * cAbi.stringSize ≤ block.length) :
    readSequence cAbi elem cAbi.stringSize (place 24 (.sequence block n capacity) data) =
      sequenceReading .sequence (n * cAbi.stringSize) (readEach elem cAbi.stringSize n block) := by
  rw [sequenceReading]
  split_ifs with hfits
  · rw [readSequence, readVector_place hroom hblock hfits]
    rfl
  · rw [readSequence]
    dsimp only [cAbi] at hfits ⊢
    rw [cSequence?_place hroom, Option.bind_some, if_neg fun h => hfits h.2]
    rfl

theorem stringSequence_follows : FollowsFrame M false (deserializeDynamicArrayString M)
    (stringSequenceFrame M) cAbi.vectorSize
    (readSequence cAbi (fun d => (cAbi.readString d).map .string) cAbi.stringSize)
    (sequenceFormat stringFormat cAbi.stringSize) := by
  intro data src
  rw [deserializeDynamicArrayString]
  refine outcome_room fun hroom => outcome_sized (deserializeStrings M data)
    fun field rest _ hfield => ?_
  rw [deserializeStrings]
  have hfits := fun hsmall : Small field => hsmall.announced_le hfield
  have hsize := sizeBytes_ofLeBytes hfield
  generalize ofLeBytes field = n at hfits hsize
  subst hsize
  by_cases hn : n = 0
  · subst hn
    have hempty : readSequence cAbi (fun d => (cAbi.readString d).map .string) cAbi.stringSize
        (place 24 (.sequence [] 0 0) data) = some (.sequence []) :=
      readStrings_placed hroom (Nat.zero_le _)
    rw [if_neg (lt_irrefl 0), if_pos rfl, M.runtimeC.stringSequenceInit_zero]
    refine .returned (w := []) rfl ⟨rfl, rfl⟩ hroom (length_place (by decide) hroom _)
      (drop_place (by decide) _) ⟨fun v hv _ _ _ => ?_, fun _ => hempty⟩
    rw [hempty] at hv
    cases hv
    exact ⟨[], [], rfl, Nat.zero_le _, rfl, rfl⟩
  · rw [if_pos (Nat.pos_of_ne_zero hn), if_neg hn]
    refine outcome_exists (fun data => cSequence? (M.runtimeC.stringSequenceInit data n))
      (fun hnone => by rw [hnone]) fun p hp => ?_
    have hlen := length_stringSequenceInit (M := M) hroom n
    have hroom' : 24 ≤ (M.runtimeC.stringSequenceInit data n).length := hlen.symm ▸ hroom
    obtain ⟨capacity, hhead⟩ := cSequence?_eq_some hp
    have hputs := replaceData_eq hhead
    rw [hp]
    refine outcome_put (fun block => replaceData block (M.runtimeC.stringSequenceInit data n))
      (singleString_follows.each unique_stringFrame (cAbi.readString_local.comp _) p.2 p.1 rest)
      hroom (fun block => by rw [hputs, length_place (by decide) hroom', hlen])
      (fun block => by
        rw [hputs]
        exact (drop_place (by decide) _).trans (drop_stringSequenceInit data n))
      fun block w r hblock hlen' hleaves => ⟨fun v hv _ hM hsmall => ?_, fun hover => ?_⟩
    · -- memory has been granted, so these are the strings of the new sequence
      have hn' : n = p.2 := by
        rw [M.runtimeC.stringSequenceInit_granted data n (Nat.pos_of_ne_zero hn)
          (hM.allocate (hfits hsmall.left)) (hM.allocate one_le_maxSize),
          cSequence?_place hroom] at hp
        cases hp
        rfl
      have hfits' : p.2 * cAbi.stringSize ≤ maxSize := hn' ▸ hfits hsmall.left
      rw [hputs, readStrings_placed hroom' (hlen'.symm ▸ hblock), sequenceReading,
        if_pos hfits'] at hv
      obtain ⟨vs, hvs, rfl⟩ := Option.map_eq_some_iff.mp hv
      have hlen'' := readEach_length hvs
      exact ⟨vs, w, rfl, hlen''.symm ▸ hfits', by rw [hlen'', hn'],
        hleaves.1 vs hvs rfl hM hsmall.right⟩
    · rw [hputs, readStrings_placed hroom' (hlen'.symm ▸ hblock), hleaves.2 hover]

/-- **The templates of `CDeserializer` follow their grammars**, and as long as memory lasts they
leave what they have read. -/
theorem framed : (ops M).Framed M cAbi false (frames M) where
  singleString_unique := unique_stringFrame
  singleString := singleString_follows
  dynamicArray_unique p := by
    have h : (sequenceFrame M .sequence p.sizeof fun n =>
        copied (sizeT (p.sizeof * n)) (readEach (readPrimitive p) p.sizeof n)).Unique :=
      unique_sequenceFrame fun n => Grammar.unique_fixed _ _
    cases p <;> first | exact h | exact unique_sequenceFrame fun n => Grammar.unique_fixed _ _
  dynamicArray {p} hp := by
    have h := dynamicArray_follows (M := M) p
    cases p <;> first | exact h | exact absurd rfl hp
  dynamicArrayBool := dynamicArrayBool_follows
  dynamicArrayString_unique := unique_stringSequenceFrame
  dynamicArrayString := stringSequence_follows
  dynamicArrayMessage_unique h := unique_sequenceFrame fun n => by
    split_ifs
    · exact Grammar.unique_fixed _ _
    · exact h.each _ n
  dynamicArrayMessage _ hloc hunique helem hmarked :=
    dynamicArrayMessage_follows hloc hunique helem hmarked

end CDeserializer

/-! ## Bytes from anywhere -/

/-- A message with a string, as C++ lays it out. -/
def cppText : MessageMembers := .mk 1 32 [⟨.single, .string, 0⟩]

/-- A message with a string, as C lays it out. -/
def cText : MessageMembers := .mk 1 24 [⟨.single, .string, 0⟩]

theorem layout_cppText : RosidlLayout cppAbi cppText :=
  .mk (by decide) (by decide) (by decide) (by simp [MessageMembers.HasMember, cppText])

theorem layout_cText : RosidlLayout cAbi cText :=
  .mk (by decide) (by decide) (by decide) (by simp [MessageMembers.HasMember, cText])

theorem supported_cppText : Supported cppText :=
  .mk (by simp [cppText]) (by simp [MessageMembers.HasMember, cppText])

theorem supported_cText : Supported cText :=
  .mk (by simp [cText]) (by simp [MessageMembers.HasMember, cText])

/-- The empty string, as a constructor leaves it in a C++ message. -/
def cppTextEmpty : List Cell := object 32 (.string [] 15 true)

/-- The empty string, as a constructor leaves it in a C message. -/
def cTextEmpty : List Cell := object 24 (.sequence [.byte 0] 0 1)

end RmwEcal
