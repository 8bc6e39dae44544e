import RmwEcal.Shared.TakeCalls

/-!
# Taking a sequence

`rmw_take_sequence` takes up to `count` messages in one call.  The caller passes two sequences, one
for the messages and one for what is known about each of them, and either says how many entries it
has room for and how many are in use.

The loop takes messages with `TakeLatestData`, which drops the info, and it counts in `*taken`.  So
the messages arrive where they should (`takeLoop_filled`), but nothing is ever written to the second
sequence, nor to the size of either: `fills_both_iff` says that these have to be right beforehand.
-/

set_option autoImplicit false

namespace RmwEcal

namespace TakeCalls

variable {α μ : Type}

/-! ## Sequences -/

/-- `rmw_message_sequence_t` and `rmw_message_info_sequence_t`. -/
structure RmwSequence (α : Type) where
  /-- What is behind `data`. -/
  data : List α
  size : ℕ
  capacity : ℕ
  /-- There is room for as many entries as the capacity says. -/
  length_data : data.length = capacity
  deriving DecidableEq, Repr

/-- `data[i]` is written. -/
def RmwSequence.write (sequence : RmwSequence α) (i : ℕ) (a : α) : RmwSequence α :=
  { sequence with
    data := sequence.data.set i a
    length_data := by rw [List.length_set, sequence.length_data] }

/-! ## The call -/

/-- What `rmw_take_sequence` leaves behind. -/
structure SequenceOutcome (μ : Type) where
  subscriber : Subscriber
  /-- `message_sequence`. -/
  messages : RmwSequence μ
  /-- `message_info_sequence`. -/
  infos : RmwSequence RmwMessageInfo
  /-- `*taken`. -/
  taken : ℕ
  /-- What is returned, unless an exception passes through. -/
  ret : Option RmwRet
  deriving DecidableEq, Repr

/-- What the loop works on: the subscriber, `message_sequence` and `*taken`; and whether it has come
to its end without an exception. -/
structure Loop (μ : Type) where
  subscriber : Subscriber
  /-- `message_sequence`. -/
  messages : RmwSequence μ
  /-- `*taken`. -/
  taken : ℕ
  /-- Whether nothing was thrown. -/
  returned : Bool

/-- The loop of `rmw_take_sequence`, for at most so many rounds. -/
def takeLoop (deserialize : Deserialize μ) (count : ℕ) :
    ℕ → Subscriber → RmwSequence μ → ℕ → Option (Loop μ)
  | rounds, s, messages, taken =>
    if s.hasData && taken != count then
      match rounds with
      | 0 => none
      | rounds + 1 => do
        let message ← messages.data[taken]?
        let (s, message, returned) ← s.takeLatestData deserialize message
        match returned with
        | some () => takeLoop deserialize count rounds s (messages.write taken message) (taken + 1)
        | none => some ⟨s, messages.write taken message, taken, false⟩
    else some ⟨s, messages, taken, true⟩

/-- The arguments that `rmw_take_sequence` checks. -/
def takeSequenceArguments : List Argument :=
  [.subscription, .messageSequence, .messageInfoSequence, .taken]

/-- `rmw_take_sequence`. -/
def rmwTakeSequence (deserialize : Deserialize μ) (call : Call) (s : Subscriber) (count : ℕ)
    (messages : RmwSequence μ) (infos : RmwSequence RmwMessageInfo) (taken : ℕ) :
    Option (SequenceOutcome μ) :=
  match call.check takeSequenceArguments with
  | .ok =>
    match RmwEcal.rmwTakeSequence count messages.capacity infos.capacity with
    | .error _ => some ⟨s, messages, infos, taken, some .invalidArgument⟩
    | .ok _ => do
      let ⟨s, messages, taken, returned⟩ ← takeLoop deserialize count count s messages 0
      some ⟨s, messages, infos, taken, if returned then some .ok else none⟩
  | refused => some ⟨s, messages, infos, taken, some refused⟩

/-! ## What the loop does -/

/-- Messages have been filled, one after the other, from `first` on; the rest of the sequence is
what it was. -/
structure Filled (deserialize : Deserialize μ) (queue : List Subscriber.Data) (first n : ℕ)
    (before after : RmwSequence μ) : Prop where
  /-- The size is what it was. -/
  size : after.size = before.size
  /-- The oldest messages of the queue, in order. -/
  filled : ∀ i < n, ∃ item message message', queue[i]? = some item ∧
    before.data[first + i]? = some message ∧ deserialize item.data message = .ok message' ∧
    after.data[first + i]? = some message'
  /-- What is outside is left alone. -/
  others : ∀ j, j < first ∨ first + n ≤ j → after.data[j]? = before.data[j]?

/-- The deserialization of one of the first messages throws. -/
def Throws (deserialize : Deserialize μ) (queue : List Subscriber.Data) (first n : ℕ)
    (messages : RmwSequence μ) : Prop :=
  ∃ i < n, ∃ item message left, queue[i]? = some item ∧
    messages.data[first + i]? = some message ∧ deserialize item.data message = .error left

section Loop

variable {deserialize : Deserialize μ} {messages after : RmwSequence μ}
  {queue : List Subscriber.Data} {item : Subscriber.Data} {message message' : μ} {first n : ℕ}

theorem filled_zero : Filled deserialize queue first 0 messages messages where
  size := rfl
  filled _ h := absurd h (Nat.not_lt_zero _)
  others _ _ := rfl

theorem getElem?_write {i j : ℕ} (hget : messages.data[i]? = some message) :
    (messages.write i message').data[j]? =
      if j = i then some message' else messages.data[j]? := by
  have hlt := (List.getElem?_eq_some_iff.mp hget).1
  rw [RmwSequence.write, List.getElem?_set]
  by_cases h : i = j
  · rw [if_pos h, if_pos hlt, if_pos h.symm]
  · rw [if_neg h, if_neg (Ne.symm h)]

/-- One message more at the front. -/
theorem Filled.cons (hget : messages.data[first]? = some message)
    (hok : deserialize item.data message = .ok message')
    (h : Filled deserialize queue (first + 1) n (messages.write first message') after) :
    Filled deserialize (item :: queue) first (n + 1) messages after where
  size := h.size
  filled i hi := by
    cases i with
    | zero =>
      refine ⟨item, message, message', rfl, hget, hok, ?_⟩
      rw [Nat.add_zero, h.others first (.inl (Nat.lt_succ_self _)), getElem?_write hget, if_pos rfl]
    | succ i =>
      obtain ⟨item', m, m', hitem, hm, hok', hm'⟩ := h.filled i (by omega)
      rw [show first + 1 + i = first + (i + 1) by omega] at hm hm'
      rw [getElem?_write hget, if_neg (by omega)] at hm
      exact ⟨item', m, m', hitem, hm, hok', hm'⟩
  others j hj := by
    rw [h.others j (by omega), getElem?_write hget, if_neg (by omega)]

theorem Throws.cons (hget : messages.data[first]? = some message)
    (h : Throws deserialize queue (first + 1) n (messages.write first message')) :
    Throws deserialize (item :: queue) first (n + 1) messages := by
  obtain ⟨i, hi, item', m, left, hitem, hm, herror⟩ := h
  rw [show first + 1 + i = first + (i + 1) by omega, getElem?_write hget, if_neg (by omega)] at hm
  exact ⟨i + 1, by omega, item', m, left, hitem, hm, herror⟩

/-- Where the loop stops. -/
theorem takeLoop_of_stop {count : ℕ} {s : Subscriber} {taken : ℕ}
    (hstop : s.data = [] ∨ taken = count) (rounds : ℕ) :
    takeLoop deserialize count rounds s messages taken = some ⟨s, messages, taken, true⟩ := by
  have hcond : (s.hasData && taken != count) = false := by
    obtain h | h := hstop <;> simp [Subscriber.hasData, h]
  cases rounds <;> simp [takeLoop, hcond]

/-- One round of it. -/
theorem takeLoop_succ {count rounds taken : ℕ} {s : Subscriber} {data : List Subscriber.Data}
    (hdata : s.data = item :: data) (hcount : taken ≠ count)
    (hget : messages.data[taken]? = some message) :
    takeLoop deserialize count (rounds + 1) s messages taken =
      match deserialize item.data message with
      | .ok message' => takeLoop deserialize count rounds { s with data := data }
          (messages.write taken message') (taken + 1)
      | .error left => some ⟨{ s with data := data }, messages.write taken left, taken, false⟩ := by
  conv_lhs => rw [takeLoop]
  cases hdeserialize : deserialize item.data message with
  | ok message' | error left =>
    simp [Subscriber.hasData, Subscriber.takeLatestData, Subscriber.takeLatestDataWithInfo,
      Subscriber.popData, hdata, hcount, hget, Deserialize.thenReturn, hdeserialize]

/-- **What the loop does**: it ends, and unless it is left by an exception it has filled as many
messages as there were or as were asked for, and has taken just these off the queue. -/
theorem takeLoop_filled (deserialize : Deserialize μ) {count rounds : ℕ} (s : Subscriber)
    {taken : ℕ}
    (hrounds : count ≤ taken + rounds) (htaken : taken ≤ count)
    (hcapacity : count ≤ messages.capacity) :
    ∃ out, takeLoop deserialize count rounds s messages taken = some out ∧
      (out.returned = true ∧ out.taken = taken + min (count - taken) s.data.length ∧
          out.subscriber.data = s.data.drop (min (count - taken) s.data.length) ∧
          Filled deserialize s.data taken (min (count - taken) s.data.length) messages
            out.messages ∨
        out.returned = false ∧
          Throws deserialize s.data taken (min (count - taken) s.data.length) messages) := by
  induction rounds generalizing s messages taken with
  | zero =>
    have hmin : min (count - taken) s.data.length = 0 := by omega
    refine ⟨_, takeLoop_of_stop (.inr (by omega)) 0, .inl ?_⟩
    rw [hmin]
    exact ⟨rfl, rfl, rfl, filled_zero⟩
  | succ rounds ih =>
    by_cases hstop : s.data = [] ∨ taken = count
    · have hmin : min (count - taken) s.data.length = 0 := by
        obtain h | h := hstop <;> simp [h]
      refine ⟨_, takeLoop_of_stop hstop (rounds + 1), .inl ?_⟩
      rw [hmin]
      exact ⟨rfl, rfl, rfl, filled_zero⟩
    rw [not_or] at hstop
    obtain ⟨item, data, hdata⟩ := List.exists_cons_of_ne_nil hstop.1
    have hcount := hstop.2
    -- another round
    have hlt : taken < messages.data.length := by
      rw [messages.length_data]
      omega
    obtain ⟨message, hget⟩ : ∃ message, messages.data[taken]? = some message :=
      ⟨_, List.getElem?_eq_getElem hlt⟩
    have hmin : min (count - taken) s.data.length =
        min (count - (taken + 1)) data.length + 1 := by
      rw [hdata, List.length_cons]
      omega
    rw [hmin, hdata]
    cases hdeserialize : deserialize item.data message with
    | error left =>
      refine ⟨⟨{ s with data := data }, messages.write taken left, taken, false⟩, ?_,
        .inr ⟨rfl, 0, Nat.succ_pos _, item, message, left, rfl, hget, hdeserialize⟩⟩
      rw [takeLoop_succ hdata hcount hget, hdeserialize]
    | ok message' =>
      have hnext : count ≤ taken + 1 + rounds := by omega
      have hbelow : taken + 1 ≤ count := by omega
      obtain ⟨out, hout, hcase⟩ := @ih (messages.write taken message') { s with data := data }
        (taken + 1) hnext hbelow hcapacity
      refine ⟨out, ?_, ?_⟩
      · rw [takeLoop_succ hdata hcount hget, hdeserialize]
        exact hout
      · obtain ⟨hreturned, hn, hqueue, hfilled⟩ | ⟨hreturned, hthrows⟩ := hcase
        · refine .inl ⟨hreturned, ?_, ?_, hfilled.cons hget hdeserialize⟩
          · rw [hn, Nat.add_assoc, Nat.add_comm 1]
          · rw [hqueue, List.drop_succ_cons]
        · exact .inr ⟨hreturned, hthrows.cons hget⟩

/-- What was filled was filled without an exception. -/
theorem Filled.not_throws (h : Filled deserialize queue first n messages after) :
    ¬ Throws deserialize queue first n messages := by
  rintro ⟨i, hi, item, message, left, hitem, hmessage, herror⟩
  obtain ⟨item', m, m', hitem', hm, hok, -⟩ := h.filled i hi
  obtain rfl : item = item' := Option.some_inj.mp (hitem.symm.trans hitem')
  obtain rfl : message = m := Option.some_inj.mp (hmessage.symm.trans hm)
  rw [hok] at herror
  cases herror

end Loop

/-! ## What is left to the caller -/

/-- Both sequences hold what was taken, and say how much that is. -/
structure FillsBoth (deserialize : Deserialize μ) (count : ℕ) (s : Subscriber)
    (messages : RmwSequence μ) (o : SequenceOutcome μ) : Prop where
  /-- As many messages as there were, or as were asked for. -/
  taken : o.taken = min count s.data.length
  /-- The oldest ones, in order. -/
  messages : ∀ i < o.taken, ∃ item message message', s.data[i]? = some item ∧
    messages.data[i]? = some message ∧ deserialize item.data message = .ok message' ∧
    o.messages.data[i]? = some message'
  /-- What is known about them. -/
  infos : ∀ i < o.taken, ∃ item, s.data[i]? = some item ∧
    o.infos.data[i]? = some (inNanoseconds item.info)
  /-- The size of the first sequence. -/
  messages_size : o.messages.size = o.taken
  /-- The size of the second one. -/
  infos_size : o.infos.size = o.taken
  /-- The rest is left on the queue. -/
  queue : o.subscriber.data = s.data.drop o.taken

section Sequence

variable {deserialize : Deserialize μ} {call : Call} {s : Subscriber} {count taken : ℕ}
  {messages : RmwSequence μ} {infos : RmwSequence RmwMessageInfo}

/-- **What the call does**, if it is not refused.  Unless an exception passes through, it takes as
many messages as it should, in order; neither size is changed, nor anything in the second
sequence. -/
theorem rmwTakeSequence_cases (deserialize : Deserialize μ) (s : Subscriber) (taken : ℕ)
    (hcall : call.check takeSequenceArguments = .ok)
    (hmessages : count ≤ messages.capacity) (hinfos : count ≤ infos.capacity) :
    ∃ o, rmwTakeSequence deserialize call s count messages infos taken = some o ∧
      o.infos = infos ∧
      (o.ret = some .ok ∧ o.taken = min count s.data.length ∧
          o.subscriber.data = s.data.drop o.taken ∧
          Filled deserialize s.data 0 o.taken messages o.messages ∨
        o.ret = none ∧ Throws deserialize s.data 0 (min count s.data.length) messages) := by
  obtain ⟨⟨t, messages', taken', returned⟩, hloop, hcase⟩ :=
    takeLoop_filled deserialize s (by omega : count ≤ 0 + count) (Nat.zero_le count) hmessages
  rw [Nat.sub_zero, Nat.zero_add] at hcase
  refine ⟨⟨t, messages', infos, taken', if returned then some .ok else none⟩, ?_, rfl, ?_⟩
  · simp only [rmwTakeSequence, hcall, RmwEcal.rmwTakeSequence, if_neg (Nat.not_lt.mpr hmessages),
      if_neg (Nat.not_lt.mpr hinfos), hloop, Option.bind_eq_bind, Option.bind_some]
  · obtain ⟨rfl, rfl, hqueue, hfilled⟩ | ⟨rfl, hthrows⟩ := hcase
    · exact .inl ⟨rfl, rfl, hqueue, hfilled⟩
    · exact .inr ⟨rfl, hthrows⟩

/-- **Both sequences hold what was taken if the caller has seen to it**: the sizes are what they
should be before the call, and so are the infos.  Otherwise only an exception keeps the call from
returning something else. -/
theorem fills_both_iff (hcall : call.check takeSequenceArguments = .ok)
    (hmessages : count ≤ messages.capacity) (hinfos : count ≤ infos.capacity) :
    (∃ o, rmwTakeSequence deserialize call s count messages infos taken = some o ∧
        (o.ret = some .ok → FillsBoth deserialize count s messages o)) ↔
      Throws deserialize s.data 0 (min count s.data.length) messages ∨
        messages.size = min count s.data.length ∧ infos.size = min count s.data.length ∧
          ∀ i < min count s.data.length, ∃ item, s.data[i]? = some item ∧
            infos.data[i]? = some (inNanoseconds item.info) := by
  obtain ⟨o, ho, rfl, hcase⟩ :=
    rmwTakeSequence_cases deserialize s taken hcall hmessages hinfos
  rw [ho]
  constructor
  · rintro ⟨o', ho', h⟩
    obtain rfl := Option.some_inj.mp ho'
    obtain ⟨hret, htaken, -, hfilled⟩ | ⟨-, hthrows⟩ := hcase
    · obtain ⟨-, -, hinfo, hsize, hsize', -⟩ := h hret
      rw [htaken] at hinfo hsize hsize'
      exact .inr ⟨hfilled.size.symm.trans hsize, hsize', hinfo⟩
    · exact .inl hthrows
  · intro h
    refine ⟨o, rfl, fun hret => ?_⟩
    obtain ⟨-, htaken, hqueue, hfilled⟩ | ⟨hnone, -⟩ := hcase
    · obtain ⟨hsize, hsize', hinfo⟩ := h.resolve_left (htaken ▸ hfilled.not_throws)
      refine ⟨htaken, fun i hi => ?_, htaken ▸ hinfo, hfilled.size.trans (hsize.trans htaken.symm),
        hsize'.trans htaken.symm, hqueue⟩
      simpa only [Nat.zero_add] using hfilled.filled i hi
    · rw [hnone] at hret
      cases hret

end Sequence

/-- Two messages and room for two. -/
def twoMessages : RmwSequence (List UInt8) := ⟨[[], []], 2, 2, rfl⟩

/-- Their infos, as they should be. -/
def twoInfos : RmwSequence RmwMessageInfo := ⟨[⟨0, 0⟩, ⟨1000, 1000⟩], 2, 2, rfl⟩

theorem fills_both_iff_two :
    (∃ o, rmwTakeSequence copyBytes .proper Subscriber.twoArrivals.inner 2 twoMessages twoInfos 0 =
          some o ∧
        (o.ret = some .ok →
          FillsBoth copyBytes 2 Subscriber.twoArrivals.inner twoMessages o)) ↔
      Throws copyBytes Subscriber.twoArrivals.inner.data 0 2 twoMessages ∨
        twoMessages.size = 2 ∧ twoInfos.size = 2 ∧
          ∀ i < 2, ∃ item, Subscriber.twoArrivals.inner.data[i]? = some item ∧
            twoInfos.data[i]? = some (inNanoseconds item.info) :=
  fills_both_iff rfl (Nat.le_refl 2) (Nat.le_refl 2)

/-- No entry is in use. -/
def unusedMessages : RmwSequence (List UInt8) := ⟨[[], []], 0, 2, rfl⟩

/-- Nor here. -/
def unusedInfos : RmwSequence RmwMessageInfo := ⟨[⟨0, 0⟩, ⟨0, 0⟩], 0, 2, rfl⟩

/-- **Two messages in two sequences that say they are empty**, and nothing about them. -/
theorem fills_both_fails :
    (∃ o, rmwTakeSequence copyBytes .proper Subscriber.twoArrivals.inner 2 unusedMessages
          unusedInfos 0 = some o ∧ o.ret = some .ok ∧ o.taken = 2 ∧ o.messages.data = [[1], [2]] ∧
        o.messages.size = 0 ∧ o.infos = unusedInfos) ∧
      ¬ ∃ o, rmwTakeSequence copyBytes .proper Subscriber.twoArrivals.inner 2 unusedMessages
          unusedInfos 0 = some o ∧
        (o.ret = some .ok →
          FillsBoth copyBytes 2 Subscriber.twoArrivals.inner unusedMessages o) := by
  refine ⟨⟨_, rfl, rfl, rfl, rfl, rfl, rfl⟩, ?_⟩
  rintro ⟨o, ho, h⟩
  cases ho
  have hsize := (h rfl).messages_size
  cases hsize

end TakeCalls

end RmwEcal
