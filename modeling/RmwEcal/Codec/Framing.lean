import RmwEcal.Codec.Basic

/-!
# What a decoder reads

A `Grammar` says which inputs a decoder can be fed with: `g data w (some r)` if a run from storage
`data` reads exactly `w` and returns, and `w` says that the storage then reads `r`;
`g data w none` if it reads `w` and then gives up in an orderly way.  The decoder `Follows` the
grammar if every run either does one of the two, or ends in the error `bad` and no prefix of its
input is in the grammar.

A grammar is only of use if no input has two readings, which is what `Grammar.Unique` says, and
which makes grammars compose: `Grammar.each` is objects in a row, and `Follows.each` the rule for
it.  On the way the rules keep track of what the decoder leaves in the storage: it touches nothing
beyond its own cells, and what they hold afterwards is encoded, in a given format, by what was read;
where the old storage does not show through, it is what the grammar says.
-/

set_option autoImplicit false

namespace Codec

variable {κ β ε μ ν ξ : Type}

/-- Which inputs are read from which storage, and what is left there by those that are read to the
end: something, or nothing that can be read. -/
abbrev Grammar (κ β ν : Type) := List κ → List β → Option (Option ν) → Prop

/-- `size` symbols for `size` cells. -/
def Grammar.fixed (size : ℕ) (value : List β → Option ν) : Grammar κ β ν := fun data w e =>
  size ≤ data.length ∧ w.length = size ∧ e = some (value w)

/-- One thing after another: the second is only read if the first was read to the end. -/
def Grammar.andThen (join : Option μ → Option ν → Option ξ) (g : Grammar κ β μ)
    (g' : Grammar κ β ν) : Grammar κ β ξ := fun data w e =>
  (∃ w₁ w₂ r e', w = w₁ ++ w₂ ∧ g data w₁ (some r) ∧ g' data w₂ e' ∧ e = e'.map (join r)) ∨
    (e = none ∧ g data w none)

/-- Something `off` cells further. -/
def Grammar.within (g : Grammar κ β ν) (off : ℕ) : Grammar κ β ν := fun data => g (data.drop off)

/-- The same input, which says something else. -/
def Grammar.map (say : Option μ → Option ν) (g : Grammar κ β μ) : Grammar κ β ν := fun data w e =>
  ∃ e', g data w e' ∧ e = e'.map say

/-- What a first object and the others read together. -/
def consReading (r : Option ν) (rs : Option (List ν)) : Option (List ν) :=
  r.bind fun v => rs.map fun vs => v :: vs

/-- `n` objects of `stride` cells, one after the other. -/
def Grammar.each (g : Grammar κ β ν) (stride : ℕ) : ℕ → Grammar κ β (List ν)
  | 0 => fun _ w e => w = [] ∧ e = some (some [])
  | n + 1 => Grammar.andThen consReading g ((Grammar.each g stride n).within stride)

/-- No input has two readings. -/
def Grammar.Unique (g : Grammar κ β ν) : Prop :=
  ∀ data w rest e w' rest' e', g data w e → g data w' e' → w ++ rest = w' ++ rest' →
    w = w' ∧ e = e'

theorem Grammar.unique_fixed (size : ℕ) (value : List β → Option ν) :
    (Grammar.fixed size value : Grammar κ β ν).Unique := by
  rintro data w rest e w' rest' e' ⟨-, hlen, rfl⟩ ⟨-, hlen', rfl⟩ h
  obtain ⟨rfl, -⟩ := List.append_inj h (hlen.trans hlen'.symm)
  exact ⟨rfl, rfl⟩

theorem Grammar.Unique.within {g : Grammar κ β ν} (h : g.Unique) (off : ℕ) :
    (g.within off).Unique := fun data => h (data.drop off)

theorem Grammar.Unique.map {say : Option μ → Option ν} {g : Grammar κ β μ} (h : g.Unique) :
    (g.map say).Unique := by
  rintro data w rest e w' rest' e' ⟨c, hw, rfl⟩ ⟨c', hw', rfl⟩ heq
  obtain ⟨rfl, rfl⟩ := h data w rest c w' rest' c' hw hw' heq
  exact ⟨rfl, rfl⟩

theorem Grammar.Unique.andThen {join : Option μ → Option ν → Option ξ} {g : Grammar κ β μ}
    {g' : Grammar κ β ν} (h : g.Unique) (h' : g'.Unique) : (g.andThen join g').Unique := by
  rintro data w rest e w' rest' e' (⟨w₁, w₂, r, c, rfl, hw₁, hw₂, rfl⟩ | ⟨rfl, hw⟩)
    (⟨u₁, u₂, r', c', rfl, hu₁, hu₂, rfl⟩ | ⟨rfl, hu⟩) heq
  · rw [List.append_assoc, List.append_assoc] at heq
    obtain ⟨rfl, hr⟩ := h data w₁ _ _ u₁ _ _ hw₁ hu₁ heq
    cases hr
    obtain ⟨rfl, rfl⟩ := h' data w₂ rest c u₂ rest' c' hw₂ hu₂ (List.append_cancel_left heq)
    exact ⟨rfl, rfl⟩
  · rw [List.append_assoc] at heq
    cases (h data w₁ _ _ w' _ none hw₁ hu heq).2
  · rw [List.append_assoc] at heq
    cases (h data w _ none u₁ _ _ hw hu₁ heq).2
  · exact ⟨(h data w _ none w' _ none hw hu heq).1, rfl⟩

theorem Grammar.Unique.each {g : Grammar κ β ν} (h : g.Unique) (stride n : ℕ) :
    (g.each stride n).Unique := by
  induction n with
  | zero =>
    rintro data w rest e w' rest' e' ⟨rfl, rfl⟩ ⟨rfl, rfl⟩ -
    exact ⟨rfl, rfl⟩
  | succ n ih => exact h.andThen (ih.within stride)

theorem Grammar.map_congr {say : Option μ → Option ν} {g : Grammar κ β μ} {data data' : List κ}
    (h : g data = g data') : g.map say data = g.map say data' := by
  funext w e
  simp only [Grammar.map, h]

theorem Grammar.andThen_congr {join : Option μ → Option ν → Option ξ} {g : Grammar κ β μ}
    {g' : Grammar κ β ν} {data data' : List κ} (h : g data = g data') (h' : g' data = g' data') :
    g.andThen join g' data = g.andThen join g' data' := by
  funext w e
  simp only [Grammar.andThen, h, h']

/-- Objects in a row are read alike from storage where each of them is. -/
theorem Grammar.each_congr {g : Grammar κ β ν} {stride n : ℕ} {data data' : List κ}
    (h : ∀ i < n, g (data.drop (i * stride)) = g (data'.drop (i * stride))) :
    g.each stride n data = g.each stride n data' := by
  induction n generalizing data data' with
  | zero => rfl
  | succ n ih =>
    have hfirst := h 0 (by omega)
    rw [Nat.zero_mul, List.drop_zero, List.drop_zero] at hfirst
    refine Grammar.andThen_congr hfirst (ih fun i hi => ?_)
    have hnext := h (i + 1) (by omega)
    rwa [Nat.succ_mul, Nat.add_comm, ← List.drop_drop, ← List.drop_drop] at hnext

/-- How a run of a decoder ends: it returns, it gives up, or it goes wrong.  `post` is about the
storage it leaves, the input it has read, and what the grammar says of that. -/
inductive Outcome (bad : ε) (g : Grammar κ β ν) (size : ℕ)
    (post : List κ → List β → Option ν → Prop) (data : List κ) (src : List β) :
    Except ε (List κ × List β) → Prop
  | returned {data' : List κ} {w rest : List β} {r : Option ν} (src_eq : src = w ++ rest)
      (reads : g data w (some r)) (room : size ≤ data.length) (length : data'.length = data.length)
      (drop : data'.drop size = data.drop size) (leaves : post data' w r) :
      Outcome bad g size post data src (.ok (data', rest))
  | refused {w rest : List β} {e : ε} (src_eq : src = w ++ rest) (reads : g data w none)
      (error : e ≠ bad) : Outcome bad g size post data src (.error e)
  | wrong (reads : ∀ w rest e, src = w ++ rest → ¬g data w e) :
      Outcome bad g size post data src (.error bad)

/-- Storage that holds what was read, in a format; and if that is all there is to see there, what
the grammar says. -/
def Leaves (read : List κ → Option ν) (fmt : Format ν β) (overwrites : Prop) (data : List κ)
    (w : List β) (r : Option ν) : Prop :=
  (∀ v, read data = some v → fmt v w) ∧ (overwrites → read data = r)

/-- Every run of the decoder reads what the grammar says. -/
def Decoder.Follows (dec : Decoder κ β ε) (bad : ε) (g : Grammar κ β ν) (size : ℕ)
    (read : List κ → Option ν) (fmt : Format ν β) (overwrites : Prop) : Prop :=
  ∀ data src, Outcome bad g size (Leaves read fmt overwrites) data src (dec data src)

section Follows

variable {dec : Decoder κ β ε} {bad : ε} {g : Grammar κ β ν} {size : ℕ} {read : List κ → Option ν}
  {fmt : Format ν β} {overwrites : Prop}

/-- **A decoder that follows a grammar goes wrong exactly on what is not in the grammar.** -/
theorem Decoder.Follows.ne_bad_iff (h : dec.Follows bad g size read fmt overwrites) (data : List κ)
    (src : List β) : dec data src ≠ .error bad ↔ ∃ w rest e, src = w ++ rest ∧ g data w e := by
  have hrun := h data src
  constructor
  · intro hne
    generalize dec data src = r at hrun hne
    cases hrun with
    | returned hsrc hreads => exact ⟨_, _, _, hsrc, hreads⟩
    | refused hsrc hreads => exact ⟨_, _, _, hsrc, hreads⟩
    | wrong => exact absurd rfl hne
  · rintro ⟨w, rest, e, hsrc, hw⟩ heq
    rw [heq] at hrun
    cases hrun with
    | refused _ _ hne => exact hne rfl
    | wrong hreads => exact hreads w rest e hsrc hw

/-- What a decoder that follows a grammar has read on a run that returns. -/
theorem Decoder.Follows.returned (h : dec.Follows bad g size read fmt overwrites)
    {data data' : List κ} {src rest : List β} (hrun : dec data src = .ok (data', rest)) :
    ∃ w r, src = w ++ rest ∧ g data w (some r) ∧ size ≤ data.length ∧
      data'.length = data.length ∧ data'.drop size = data.drop size ∧
      Leaves read fmt overwrites data' w r := by
  have hout := h data src
  rw [hrun] at hout
  cases hout with
  | returned hsrc hreads hroom hlen hdrop hpost =>
    exact ⟨_, _, hsrc, hreads, hroom, hlen, hdrop, hpost⟩

theorem Decoder.Follows.keepsLength (h : dec.Follows bad g size read fmt overwrites) :
    dec.KeepsLength := by
  intro data src data' rest hrun
  obtain ⟨-, -, -, -, -, hlen, -⟩ := h.returned hrun
  exact hlen

/-- **Where the old storage does not show through, the grammar says what a run leaves.** -/
theorem Decoder.Follows.leaves_iff (h : dec.Follows bad g size read fmt overwrites)
    (hunique : g.Unique) (hover : overwrites) (data : List κ) (src : List β) (v : ν) :
    (∃ data' rest, dec data src = .ok (data', rest) ∧ read data' = some v) ↔
      ∃ w rest, src = w ++ rest ∧ g data w (some (some v)) := by
  constructor
  · rintro ⟨data', rest, hrun, hread⟩
    obtain ⟨w, r, hsrc, hreads, -, -, -, hleaves⟩ := h.returned hrun
    have hr : some v = r := hread.symm.trans (hleaves.2 hover)
    exact ⟨w, rest, hsrc, hr.symm ▸ hreads⟩
  · rintro ⟨w, rest, hsrc, hw⟩
    have hrun := h data src
    generalize dec data src = r at hrun
    cases hrun with
    | returned hsrc' hreads _ _ _ hpost =>
      cases (hunique data _ _ _ _ _ _ hw hreads (hsrc.symm.trans hsrc')).2
      exact ⟨_, _, rfl, hpost.2 hover⟩
    | refused hsrc' hreads =>
      cases (hunique data _ _ _ _ _ _ hw hreads (hsrc.symm.trans hsrc')).2
    | wrong hreads => exact absurd hw (hreads w rest _ hsrc)

end Follows

/-- The same run, and what else can be said of it. -/
theorem Outcome.map {bad : ε} {say : Option μ → Option ν} {g : Grammar κ β μ} {size : ℕ}
    {post : List κ → List β → Option μ → Prop} {post' : List κ → List β → Option ν → Prop}
    {data : List κ} {src : List β} {r : Except ε (List κ × List β)}
    (h : Outcome bad g size post data src r)
    (hpost : ∀ data' w r, data'.length = data.length → post data' w r → post' data' w (say r)) :
    Outcome bad (g.map say) size post' data src r := by
  cases h with
  | returned hsrc hreads hroom hlen hdrop h =>
    exact .returned hsrc ⟨_, hreads, rfl⟩ hroom hlen hdrop (hpost _ _ _ hlen h)
  | refused hsrc hreads hne => exact .refused hsrc ⟨_, hreads, rfl⟩ hne
  | wrong hreads =>
    refine .wrong fun w rest e hsrc hw => ?_
    obtain ⟨e', hw, -⟩ := hw
    exact hreads w rest e' hsrc hw

/-- Less may be said of what a run leaves. -/
theorem Outcome.imp {bad : ε} {g : Grammar κ β ν} {size : ℕ}
    {post post' : List κ → List β → Option ν → Prop} {data : List κ} {src : List β}
    {r : Except ε (List κ × List β)} (h : Outcome bad g size post data src r)
    (himp : ∀ data w r, post data w r → post' data w r) : Outcome bad g size post' data src r := by
  cases h with
  | returned hsrc hreads hroom hlen hdrop h =>
    exact .returned hsrc hreads hroom hlen hdrop (himp _ _ _ h)
  | refused hsrc hreads hne => exact .refused hsrc hreads hne
  | wrong hreads => exact .wrong hreads

theorem Decoder.Follows.imp {dec : Decoder κ β ε} {bad : ε} {g : Grammar κ β ν} {size : ℕ}
    {read read' : List κ → Option ν} {fmt fmt' : Format ν β} {overwrites overwrites' : Prop}
    (h : dec.Follows bad g size read fmt overwrites)
    (himp : ∀ data w r, Leaves read fmt overwrites data w r →
      Leaves read' fmt' overwrites' data w r) :
    dec.Follows bad g size read' fmt' overwrites' := fun data src => (h data src).imp himp

/-- **One thing after another**: if the first run returns, the second one goes on with the rest of
the input and with storage that has not changed beyond the first. -/
theorem Outcome.andThen {bad : ε} {join : Option μ → Option ν → Option ξ} {g : Grammar κ β μ}
    {g' : Grammar κ β ν} {size size' : ℕ} {post : List κ → List β → Option μ → Prop}
    {post' : List κ → List β → Option ξ → Prop} (hunique : g.Unique) {data : List κ}
    {src : List β} {r : Except ε (List κ × List β)}
    {next : List κ → List β → Except ε (List κ × List β)}
    (h : Outcome bad g size post data src r)
    (hnext : ∀ data' w rest r, size ≤ data.length → data'.length = data.length →
      data'.drop size = data.drop size → post data' w r →
      Outcome bad g' size' (fun data'' u r' => post' data'' (w ++ u) (join r r')) data rest
        (next data' rest)) :
    Outcome bad (g.andThen join g') size' post' data src (r >>= fun p => next p.1 p.2) := by
  cases h with
  | @returned data' w rest r hsrc hreads hroom hlen hdrop hpost =>
    have hout := hnext data' w rest r hroom hlen hdrop hpost
    show Outcome _ _ _ _ _ _ (next data' rest)
    generalize next data' rest = r' at hout
    cases hout with
    | @returned data'' u rest' r' hsrc' hreads' hroom' hlen' hdrop' hpost' =>
      exact .returned (by rw [hsrc, hsrc', List.append_assoc])
        (.inl ⟨w, u, r, some r', rfl, hreads, hreads', rfl⟩) hroom' hlen' hdrop' hpost'
    | @refused u rest' e hsrc' hreads' hne =>
      exact .refused (by rw [hsrc, hsrc', List.append_assoc])
        (.inl ⟨w, u, r, none, rfl, hreads, hreads', rfl⟩) hne
    | wrong hreads' =>
      refine .wrong fun x rest' e hx hgx => ?_
      rcases hgx with ⟨u₁, u₂, r₁, e', rfl, hu₁, hu₂, -⟩ | ⟨rfl, hgx⟩
      · have heq : u₁ ++ (u₂ ++ rest') = w ++ rest := by rw [← hsrc, hx, List.append_assoc]
        obtain ⟨rfl, -⟩ := hunique data u₁ _ _ w _ _ hu₁ hreads heq
        exact hreads' u₂ rest' e' (List.append_cancel_left heq).symm hu₂
      · cases (hunique data x _ none w _ _ hgx hreads (hx.symm.trans hsrc)).2
  | refused hsrc hreads hne => exact .refused hsrc (.inr ⟨rfl, hreads⟩) hne
  | wrong hreads =>
    refine .wrong fun u rest e hu hgu => ?_
    rcases hgu with ⟨u₁, u₂, r₁, e', rfl, hu₁, hu₂, -⟩ | ⟨rfl, hgu⟩
    · exact hreads u₁ (u₂ ++ rest) _ (by rw [hu, List.append_assoc]) hu₁
    · exact hreads u rest _ hu hgu

/-- The same run, `off` cells further. -/
theorem Outcome.within {bad : ε} {g : Grammar κ β ν} {size off : ℕ}
    {post : List κ → List β → Option ν → Prop} {data : List κ} {src : List β}
    {r : Except ε (List κ × List β)} (hoff : off ≤ data.length)
    (h : Outcome bad g size post (data.drop off) src r) :
    Outcome bad (g.within off) (off + size) (fun data w r => post (data.drop off) w r) data src
      (r >>= fun p => pure (data.take off ++ p.1, p.2)) := by
  have htake : (data.take off).length = off := by rw [List.length_take]; omega
  cases h with
  | @returned tail w rest r hsrc hreads hroom hlen hdrop hpost =>
    rw [List.length_drop] at hroom hlen
    refine .returned hsrc hreads (by omega) ?_ ?_ ?_
    · rw [List.length_append, htake, hlen]
      omega
    · rw [← List.drop_drop, List.drop_left' htake, hdrop, List.drop_drop]
    · rwa [List.drop_left' htake]
  | refused hsrc hreads hne => exact .refused hsrc hreads hne
  | wrong hreads => exact .wrong hreads

theorem readEach_succ {read : List κ → Option ν} {stride n : ℕ} (data : List κ) :
    readEach read stride (n + 1) data =
      consReading (read data) (readEach read stride n (data.drop stride)) := rfl

/-- What is left of objects in a row is left of the first and of the others. -/
theorem Leaves.cons {read : List κ → Option ν} {fmt : Format ν β} {overwrites : Prop} {size n : ℕ}
    {data : List κ} {w u : List β} {r : Option ν} {rs : Option (List ν)}
    (h : Leaves read fmt overwrites data w r)
    (h' : Leaves (readEach read size n) fmt.each overwrites (data.drop size) u rs) :
    Leaves (readEach read size (n + 1)) fmt.each overwrites data (w ++ u) (consReading r rs) := by
  refine ⟨fun vs hvs => ?_, fun hover => ?_⟩
  · obtain ⟨v, rest, hv, hrest, rfl⟩ := readEach_succ_eq_some.mp hvs
    exact ⟨w, u, rfl, h.1 v hv, h'.1 rest hrest⟩
  · rw [readEach_succ, h.2 hover, h'.2 hover]

/-- What a reading looks at decides what is left. -/
theorem Leaves.congr {read : List κ → Option ν} {fmt : Format ν β} {overwrites : Prop}
    {data data' : List κ} {w : List β} {r : Option ν} (h : Leaves read fmt overwrites data w r)
    (hread : read data' = read data) : Leaves read fmt overwrites data' w r := by
  rwa [Leaves, hread]

/-- **Objects in a row.** -/
theorem Decoder.Follows.each {dec : Decoder κ β ε} {bad : ε} {g : Grammar κ β ν} {size : ℕ}
    {read : List κ → Option ν} {fmt : Format ν β} {overwrites : Prop} (hunique : g.Unique)
    (hloc : LocalTo size read) (h : dec.Follows bad g size read fmt overwrites) (n : ℕ) :
    (dec.each size n).Follows bad (g.each size n) (n * size) (readEach read size n) fmt.each
      overwrites := by
  induction n with
  | zero =>
    intro data src
    exact .returned (w := []) rfl ⟨rfl, rfl⟩ (by omega) rfl rfl
      ⟨fun vs hvs => by cases hvs; rfl, fun _ => rfl⟩
  | succ n ih =>
    intro data src
    refine Outcome.andThen hunique (h data src) fun data' w rest r hroom hlen hdrop hpost => ?_
    have hout := ih (data.drop size) rest
    show Outcome _ _ _ _ _ _
      (dec.each size n (data'.drop size) rest >>= fun p => pure (data'.take size ++ p.1, p.2))
    rw [hdrop]
    generalize dec.each size n (data.drop size) rest = r' at hout
    cases hout with
    | @returned tail u rest' rs hsrc hreads hroom' hlen' hdrop' hpost' =>
      have htake : (data'.take size).length = size := by rw [List.length_take]; omega
      rw [List.length_drop] at hroom' hlen'
      refine .returned hsrc hreads (by rw [Nat.succ_mul]; omega) ?_ ?_ (Leaves.cons ?_ ?_)
      · rw [List.length_append, htake, hlen']
        omega
      · rw [Nat.succ_mul, Nat.add_comm, ← List.drop_drop, List.drop_left' htake, hdrop',
          List.drop_drop]
      · exact hpost.congr (hloc _ _ (List.take_left' htake))
      · rwa [List.drop_left' htake]
    | refused hsrc hreads hne => exact .refused hsrc hreads hne
    | wrong hreads => exact .wrong hreads

/-- Objects of fixed size in a row are one object of fixed size. -/
theorem Grammar.each_fixed (size : ℕ) (value : List β → Option ν) (n : ℕ) :
    ((Grammar.fixed size value).each size n : Grammar κ β (List ν)) =
      Grammar.fixed (n * size) (readEach (fun w => value (w.take size)) size n) := by
  funext data w e
  refine propext ?_
  induction n generalizing data w e with
  | zero =>
    rw [Grammar.each, Grammar.fixed, Nat.zero_mul, List.length_eq_zero_iff]
    exact ⟨fun h => ⟨Nat.zero_le _, h⟩, fun h => h.2⟩
  | succ n ih =>
    rw [Grammar.each, Grammar.andThen, Grammar.within, Grammar.fixed, Nat.succ_mul]
    constructor
    · rintro (⟨w₁, w₂, r, e', rfl, ⟨hroom, hlen, hr⟩, hw₂, rfl⟩ | ⟨-, -, -, hnone⟩)
      · obtain ⟨hroom', hlen', rfl⟩ := (ih _ _ _).mp hw₂
        cases hr
        rw [List.length_drop] at hroom'
        refine ⟨by omega, by rw [List.length_append]; omega, ?_⟩
        rw [readEach_succ, List.take_left' hlen, List.drop_left' hlen]
        rfl
      · cases hnone
    · rintro ⟨hroom, hlen, rfl⟩
      refine .inl ⟨w.take size, w.drop size, value (w.take size), _,
        (List.take_append_drop size w).symm, ⟨by omega, by rw [List.length_take]; omega, rfl⟩,
        (ih _ _ _).mpr ⟨?_, ?_, rfl⟩, rfl⟩
      · rw [List.length_drop]
        omega
      · rw [List.length_drop]
        omega

end Codec
