import RmwEcal.Codec.Text
import RmwEcal.Shared.Service

/-!
# The trailer

Requests and responses travel with a sequence number behind the serialized data.  It is put there in
two places, `Client::EnqueueRequest` and `Service::OnRequest`, and both sides take a string apart
again with `GetSequenceDataSize` and `GetSequenceNumber`.

Neither looks whether there is a trailer.  The model has no result where the source reads beyond a
string; here the sizes are those of the source, which wrap around, and the reads are shown to be in
bounds where the model has a result, and only there (`getSequenceNumber_eq_bytesAt`,
`payload_eq_bytesAt`).

`framing_total_iff` is then about whatever eCAL delivers: strings with a trailer are taken apart as
they were put together, and no others, for none are turned away.
-/

set_option autoImplicit false

namespace RmwEcal

open Codec

/-! ## Sizes and reads -/

/-- `GetSequenceDataSize`, with the difference a `size_t` makes of it. -/
def wrappedDataSize (sequence : List UInt8) : ℕ := sizeSub sequence.length 8

/-- The `count` bytes from `pos` on, if all of them are part of the string. -/
def bytesAt (sequence : List UInt8) (pos count : ℕ) : Option (List UInt8) :=
  if pos + count ≤ sequence.length then some ((sequence.drop pos).take count) else none

/-- **The read of the number** is in bounds where the model has one. -/
theorem getSequenceNumber_eq_bytesAt (sequence : List UInt8) :
    getSequenceNumber sequence =
      (bytesAt sequence (wrappedDataSize sequence) 8).map ofLeBytes := by
  rw [getSequenceNumber, getSequenceDataSize, bytesAt, wrappedDataSize, sizeSub]
  by_cases h : 8 ≤ sequence.length
  · have htake : (sequence.drop (sequence.length - 8)).take 8 =
        sequence.drop (sequence.length - 8) :=
      List.take_of_length_le (by rw [List.length_drop]; omega)
    rw [if_pos h, if_pos h, if_pos (by omega), htake]
    rfl
  · rw [if_neg h, if_neg h, if_neg (by omega)]
    rfl

/-- **So is that of the data**, which starts at the front. -/
theorem payload_eq_bytesAt (sequence : List UInt8) :
    (getSequenceDataSize sequence).map sequence.take =
      bytesAt sequence 0 (wrappedDataSize sequence) := by
  rw [getSequenceDataSize, bytesAt, wrappedDataSize, sizeSub]
  by_cases h : 8 ≤ sequence.length
  · rw [if_pos h, if_pos h, if_pos (by omega)]
    rfl
  · rw [if_neg h, if_neg h, if_neg (by omega)]
    rfl

/-! ## Strings with a trailer -/

/-- A string is some data and, behind it, the bytes of a number, in one way only, and the two
functions find both. -/
structure Splits (sequence payload : List UInt8) (n : ℕ) : Prop where
  /-- It is put together from the two. -/
  append : sequence = payload ++ sequenceBytes n
  /-- It cannot be put together from anything else. -/
  unique : ∀ payload' n', n' < 2 ^ 64 → sequence = payload' ++ sequenceBytes n' →
    payload' = payload ∧ n' = n
  /-- The difference does not wrap around. -/
  size : wrappedDataSize sequence = payload.length
  /-- The data is in the string. -/
  payload : bytesAt sequence 0 (wrappedDataSize sequence) = some payload
  /-- So is the number. -/
  number : (bytesAt sequence (wrappedDataSize sequence) 8).map ofLeBytes = some n

/-- What either side sends has a trailer. -/
theorem splits_append (payload : List UInt8) {n : ℕ} (h : n < 2 ^ 64) :
    Splits (payload ++ sequenceBytes n) payload n where
  append := rfl
  unique _ _ h' heq := by
    obtain ⟨rfl, rfl⟩ := (append_leBytes_inj h h').mp heq
    exact ⟨rfl, rfl⟩
  size := by
    rw [wrappedDataSize, sizeSub, List.length_append, length_sequenceBytes, if_pos (by omega),
      Nat.add_sub_cancel]
  payload := by
    rw [← payload_eq_bytesAt, getSequenceDataSize_append, Option.map_some, List.take_left]
  number := by
    rw [← getSequenceNumber_eq_bytesAt, getSequenceNumber_append h]

theorem exists_splits_iff {sequence : List UInt8} :
    (∃ payload n, Splits sequence payload n) ↔ 8 ≤ sequence.length := by
  constructor
  · rintro ⟨payload, n, h⟩
    rw [h.append, List.length_append, length_sequenceBytes]
    omega
  · intro h
    have hlen : (sequence.drop (sequence.length - 8)).length = 8 := by
      rw [List.length_drop]
      omega
    have hlt := ofLeBytes_lt (sequence.drop (sequence.length - 8))
    have hbytes := leBytes_ofLeBytes (sequence.drop (sequence.length - 8))
    rw [hlen] at hlt hbytes
    have hsplits := splits_append (sequence.take (sequence.length - 8)) hlt
    rw [sequenceBytes, hbytes, List.take_append_drop] at hsplits
    exact ⟨_, _, hsplits⟩

section Splits

variable {sequence payload : List UInt8} {n : ℕ}

theorem Splits.number_eq (h : Splits sequence payload n) :
    getSequenceNumber sequence = some n := by
  rw [getSequenceNumber_eq_bytesAt, h.number]

theorem Splits.dataSize_eq (h : Splits sequence payload n) :
    getSequenceDataSize sequence = some payload.length := by
  rw [h.append, getSequenceDataSize_append]

theorem Splits.take_length (h : Splits sequence payload n) :
    sequence.take payload.length = payload := by
  rw [h.append, List.take_left]

end Splits

/-! ## What is delivered -/

/-- An activation of `Client::OnResponse` takes a response apart and queues it, or turns it away. -/
def Client.Framed (response : List UInt8) : Prop :=
  ∀ (c : Client) (i : ℕ), c.callbacks[i]? = some ⟨.enqueueResponse, response⟩ →
    ∃ c', c.stepCallback i = some (c', none) ∧ c'.requests = c.requests ∧
      ((∃ payload n, Splits response payload n ∧
          c'.responses = c.responses ++ [⟨n, payload⟩]) ∨
        c'.responses = c.responses)

/-- An activation of `Service::OnRequest` queues a request that is taken apart, for the executor and
for the reply, or turns it away. -/
def Service.Framed (request : List UInt8) : Prop :=
  ∀ (s : Service) (ref : ℕ) (handler : Service.Handler), s.handlers[ref]? = some handler →
    handler.request = request → handler.phase = .enqueueRequest →
    ∃ s', s.stepHandler ref = some (s', none) ∧ s'.current = s.current ∧
      ((∃ payload n, Splits request payload n ∧ s'.pending = s.pending ++ [ref] ∧
          handler.getRequest = some payload ∧ handler.getSequenceNumber = some n ∧
          ∀ response, Service.reply request response = some (response ++ sequenceBytes n)) ∨
        s'.pending = s.pending)

theorem Client.framed_iff {response : List UInt8} :
    Client.Framed response ↔ 8 ≤ response.length := by
  constructor
  · intro h
    obtain ⟨c', hstep, -⟩ := h (Client.fresh.onResponse response) 0 rfl
    obtain ⟨l₁, l₂, stage, response', hget, -, hcase⟩ := Client.stepCallback_cases hstep
    cases hget
    cases hcase with
    | enqueueResponse hsize =>
      rw [getSequenceDataSize, Option.ite_none_right_eq_some] at hsize
      exact hsize.1
  · intro h c i hget
    obtain ⟨payload, n, hsplits⟩ := exists_splits_iff.mpr h
    refine ⟨{ c.advance i .notifyWaitSet with responses := c.responses ++ [⟨n, payload⟩] }, ?_, rfl,
      .inl ⟨payload, n, hsplits, rfl⟩⟩
    simp only [Client.stepCallback, hget, Option.bind_eq_bind, Option.bind_some,
      hsplits.dataSize_eq, hsplits.number_eq, hsplits.take_length]

theorem Service.framed_iff {request : List UInt8} :
    Service.Framed request ↔ 8 ≤ request.length := by
  constructor
  · intro h
    obtain ⟨s', hstep, -, hcase⟩ := h (Service.fresh.onRequest 0 request) 0 _ rfl rfl rfl
    obtain ⟨payload, n, hsplits, -⟩ | hpending := hcase
    · exact exists_splits_iff.mp ⟨payload, n, hsplits⟩
    · -- the request is in the queue, whatever it is
      cases hstep
      cases hpending
  · intro h s ref handler hget hrequest hphase
    obtain ⟨payload, n, hsplits⟩ := exists_splits_iff.mpr h
    refine ⟨{ s.update ref { handler with phase := .notifyWaitSet } with
      pending := s.pending ++ [ref] }, ?_, rfl,
      .inl ⟨payload, n, hsplits, rfl, ?_, ?_, fun response => ?_⟩⟩
    · simp only [Service.stepHandler, hget, hphase, Option.bind_eq_bind, Option.bind_some]
    · rw [Service.Request.getRequest, hrequest, hsplits.dataSize_eq, Option.bind_eq_bind,
        Option.bind_some, hsplits.take_length]
    · rw [Service.Request.getSequenceNumber, hrequest, hsplits.number_eq]
    · rw [Service.reply, hsplits.number_eq, Option.map_some]

/-- **A response, or a request, is taken apart if it is long enough**, and it is not turned away
otherwise. -/
theorem framing_total_iff (sequence : List UInt8) :
    (Client.Framed sequence ↔ 8 ≤ sequence.length) ∧
      (Service.Framed sequence ↔ 8 ≤ sequence.length) :=
  ⟨Client.framed_iff, Service.framed_iff⟩

/-- **A call that failed leaves an empty reply, and a foreign client sends a bare request.**  The
size of the data wraps around.  The client reads the number outside the reply before it gets to
`new`, which throws; the service queues the request and reads outside it when it is taken and when
it is answered. -/
theorem framing_underflows :
    wrappedDataSize [] = 2 ^ 64 - 8 ∧ bytesAt [] (wrappedDataSize []) 8 = none ∧
      (Client.fresh.onResponse []).stepCallback 0 = none ∧ ¬ Client.Framed [] ∧
      ((Service.fresh.onRequest 0 [1]).stepHandler 0).map (fun out => out.1.pending) = some [0] ∧
      (Service.Request.construct [1] 0).getRequest = none ∧ Service.reply [1] [] = none ∧
      ¬ Service.Framed [1] := by
  refine ⟨rfl, rfl, rfl, fun h => ?_, rfl, rfl, rfl, fun h => ?_⟩
  · have hlen := Client.framed_iff.mp h
    exact absurd hlen (by decide)
  · have hlen := Service.framed_iff.mp h
    exact absurd hlen (by decide)

end RmwEcal
