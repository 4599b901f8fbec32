import NodeHealth.Proofs.Wire.Stream

/-!
# Writing frames to a sink that may stop

A sink that is written to takes what its script says, and at some point it may stop: an amount
is zero, or it fails when the amounts are used up. `Sink.stop?` finds that point. A frame that
ends before it is taken as a whole and flushed once, whatever the amounts are; of any other frame
exactly the bytes up to that point are taken, and nothing is flushed. The next frame begins anew
with its own first byte, so that what a sink has taken is whole frames and beginnings of frames,
in the order of the calls.

-/

namespace NodeHealth

/-- A frame is its payload behind a length, which takes one byte at least. -/
theorem Frame.encode_eq_append {framing : Framing} {payload frame : Bytes}
    (h : encode framing payload = .ok frame) : ∃ head, head ≠ [] ∧ frame = head ++ payload := by
  cases framing with
  | varint =>
      obtain ⟨init, last, hlength, _⟩ := Varint.encode_eq (UInt64.ofNat payload.length)
      simp only [encode, hlength] at h
      cases h
      exact ⟨init ++ [last], by simp, rfl⟩
  | fixed32 =>
      simp only [encode] at h
      split at h
      · cases h
      · cases h
        exact ⟨_, by simp [littleEndian], rfl⟩

/-- Only a payload whose length has no prefix cannot be framed. -/
theorem Frame.long_of_encode {framing : Framing} {payload : Bytes} {error : WireError}
    (h : encode framing payload = .error error) :
    framing = .fixed32 ∧ maxFixedLength < payload.length := by
  cases framing with
  | varint =>
      obtain ⟨init, last, hlength, _⟩ := Varint.encode_eq (UInt64.ofNat payload.length)
      simp only [encode, hlength] at h
      cases h
  | fixed32 =>
      simp only [encode] at h
      split at h
      · rename_i hlong
        exact ⟨rfl, hlong⟩
      · cases h

namespace Sink

variable {sink : Sink} {bytes : Bytes} {count : Nat} {failure : IoFailure}

/-! ## Where a sink stops -/

/-- How a sink stops whose amounts are used up. An interruption stops nothing. -/
def lasting? (failure : Option IoFailure) : Option IoFailure :=
  failure.bind fun failure => if failure.cause = .interrupted then none else some failure

/-- After how many bytes the amounts stop, and why. -/
def stopAfter? (failure : Option IoFailure) : List Nat → Option (Nat × IoFailure)
  | [] => (lasting? failure).map (0, ·)
  | 0 :: _ => some (0, .ofSystem .writeZero)
  | amount :: amounts =>
      (stopAfter? failure amounts).map fun (count, failure) => (amount + count, failure)

/-- After how many bytes a sink stops, and why, if it does. -/
def stop? (sink : Sink) : Option (Nat × IoFailure) :=
  stopAfter? sink.failure sink.accepts

/-- A sink takes all of some bytes before it stops. -/
def Bears (sink : Sink) (bytes : Bytes) : Prop :=
  ∀ count failure, sink.stop? = some (count, failure) → bytes.length ≤ count

theorem stopAfter?_pos {amount : Nat} (h : 0 < amount) (failure : Option IoFailure)
    (amounts : List Nat) :
    stopAfter? failure (amount :: amounts) =
      (stopAfter? failure amounts).map fun (count, failure) => (amount + count, failure) := by
  obtain ⟨more, rfl⟩ := Nat.exists_eq_succ_of_ne_zero h.ne'
  rfl

/-! ## Writing some bytes -/

/-- What comes of writing some bytes: how it ends, and which of them the sink took. Of the rest
of the sink only its script changes. -/
inductive Writes (sink : Sink) (bytes : Bytes) : Except WireError Unit × Sink → Prop
  | all (accepts : List Nat) (failure : Option IoFailure) (h : sink.Bears bytes) :
      Writes sink bytes
        (.ok (), { sink with accepts, failure, written := sink.written ++ bytes })
  | part (accepts : List Nat) (left : Option IoFailure) {count : Nat} {failure : IoFailure}
      (hstop : sink.stop? = some (count, failure)) (hshort : count < bytes.length) :
      Writes sink bytes
        (.error (.io failure),
          { sink with accepts, failure := left, written := sink.written ++ bytes.take count })

/-- One more amount comes first, and does not take all. -/
theorem Writes.more {amount : Nat} {amounts : List Nat} {outcome : Except WireError Unit × Sink}
    (hpos : 0 < amount) (hshort : amount < bytes.length)
    (h : Writes { sink with accepts := amounts, written := sink.written ++ bytes.take amount }
      (bytes.drop amount) outcome) :
    Writes { sink with accepts := amount :: amounts } bytes outcome := by
  have hstops : ({ sink with accepts := amount :: amounts } : Sink).stop? =
      ({ sink with accepts := amounts } : Sink).stop?.map
        fun (count, failure) => (amount + count, failure) :=
    stopAfter?_pos hpos sink.failure amounts
  cases h with
  | all accepts failure h =>
      have hbears : ({ sink with accepts := amount :: amounts } : Sink).Bears bytes := by
        intro count failure hstop
        rw [hstops, Option.map_eq_some_iff] at hstop
        obtain ⟨⟨rest, failure⟩, hrest, heq⟩ := hstop
        cases heq
        have hle := h rest failure hrest
        rw [List.length_drop] at hle
        omega
      have hwhole := Writes.all accepts failure hbears
      simpa only [List.append_assoc, List.take_append_drop] using hwhole
  | @part accepts left count failure hstop hlt =>
      rw [List.length_drop] at hlt
      have hlater : ({ sink with accepts := amount :: amounts } : Sink).stop? =
          some (amount + count, failure) := by
        rw [hstops]
        exact Option.map_eq_some_iff.mpr ⟨(count, failure), hstop, rfl⟩
      have hshort : amount + count < bytes.length := by omega
      have hpart := Writes.part accepts left hlater hshort
      simpa only [List.append_assoc, List.take_add] using hpart

theorem writes_rest (sink : Sink) (hbytes : bytes ≠ []) :
    Writes { sink with accepts := [] } bytes (writeRest { sink with accepts := [] } bytes) := by
  obtain ⟨byte, bytes, rfl⟩ := List.exists_cons_of_ne_nil hbytes
  cases hfailure : sink.failure with
  | none =>
      have hbears : ({ sink with accepts := [] } : Sink).Bears (byte :: bytes) := by
        intro count failure hstop
        simp [stop?, stopAfter?, lasting?, hfailure] at hstop
      have hall := Writes.all [] none hbears
      simpa [writeRest, hfailure] using hall
  | some failure =>
      by_cases hcause : failure.cause = .interrupted
      · have hbears : ({ sink with accepts := [] } : Sink).Bears (byte :: bytes) := by
          intro count failure hstop
          simp [stop?, stopAfter?, lasting?, hfailure, hcause] at hstop
        have hall := Writes.all [] none hbears
        simpa [writeRest, hfailure, hcause] using hall
      · have hstop : ({ sink with accepts := [] } : Sink).stop? = some (0, failure) := by
          simp [stop?, stopAfter?, lasting?, hfailure, hcause]
        have hshort : 0 < (byte :: bytes).length := Nat.zero_lt_succ _
        have hpart := Writes.part [] none hstop hshort
        simpa [writeRest, hfailure, hcause] using hpart

/-- Writing goes on amount by amount. -/
theorem writes_go (amounts : List Nat) :
    ∀ {sink : Sink} {bytes : Bytes}, bytes ≠ [] →
      Writes { sink with accepts := amounts } bytes (writeAll.go amounts sink bytes) := by
  induction amounts with
  | nil =>
      intro sink bytes hbytes
      have hrest := writes_rest sink hbytes
      obtain ⟨byte, bytes, rfl⟩ := List.exists_cons_of_ne_nil hbytes
      exact hrest
  | cons amount amounts ih =>
      intro sink bytes hbytes
      have hlength := List.length_pos_iff.mpr hbytes
      obtain ⟨byte, tail, hcons⟩ := List.exists_cons_of_ne_nil hbytes
      obtain hzero | hpos := Nat.eq_zero_or_pos amount
      · subst hzero
        have hstop : ({ sink with accepts := 0 :: amounts } : Sink).stop? =
            some (0, .ofSystem .writeZero) := rfl
        have hpart := Writes.part amounts sink.failure hstop hlength
        subst hcons
        simpa [writeAll.go] using hpart
      · have hgo : writeAll.go (amount :: amounts) sink bytes =
            writeAll.go amounts { sink with written := sink.written ++ bytes.take amount }
              (bytes.drop amount) := by
          obtain ⟨more, rfl⟩ := Nat.exists_eq_succ_of_ne_zero hpos.ne'
          subst hcons
          rfl
        rw [hgo]
        by_cases hall : bytes.length ≤ amount
        · have hbears : ({ sink with accepts := amount :: amounts } : Sink).Bears bytes := by
            intro count failure hstop
            rw [stop?, stopAfter?_pos hpos, Option.map_eq_some_iff] at hstop
            obtain ⟨⟨rest, failure⟩, _, heq⟩ := hstop
            cases heq
            omega
          have hwhole := Writes.all amounts sink.failure hbears
          rw [List.drop_of_length_le hall, List.take_of_length_le hall]
          cases amounts <;> exact hwhole
        · have hleft : bytes.drop amount ≠ [] := by
            rw [ne_eq, List.drop_eq_nil_iff]
            exact hall
          have hrest := @ih { sink with written := sink.written ++ bytes.take amount } _ hleft
          exact Writes.more hpos (Nat.lt_of_not_le hall) hrest

/-- Writing some bytes ends where the sink stops, if that is within them. -/
theorem writes_writeAll (sink : Sink) (hbytes : bytes ≠ []) :
    sink.Writes bytes (sink.writeAll bytes) :=
  writes_go sink.accepts hbytes

/-! ## Writing a frame -/

/-- What comes of writing a frame: the result, the bytes that the sink took, and how often it was
flushed. -/
inductive Outcome (framing : Framing) (payload : Bytes) (sink : Sink) :
    Except WireError Unit → Bytes → Nat → Prop
  | whole {frame : Bytes} (hframe : Frame.encode framing payload = .ok frame)
      (hbears : sink.Bears frame) (hflush : sink.flushFailure = none) :
      Outcome framing payload sink (.ok ()) frame 1
  | unflushed {frame : Bytes} {failure : IoFailure}
      (hframe : Frame.encode framing payload = .ok frame) (hbears : sink.Bears frame)
      (hflush : sink.flushFailure = some failure) :
      Outcome framing payload sink (.error (.io failure)) frame 1
  | cut {frame : Bytes} {count : Nat} {failure : IoFailure}
      (hframe : Frame.encode framing payload = .ok frame)
      (hstop : sink.stop? = some (count, failure)) (hshort : count < frame.length) :
      Outcome framing payload sink (.error (.io failure)) (frame.take count) 0
  | unframed {error : WireError} (hframe : Frame.encode framing payload = .error error)
      (hlong : framing = .fixed32 ∧ Frame.maxFixedLength < payload.length) :
      Outcome framing payload sink (.error error) [] 0

/-- One call of many: what was to be written, the sink before it, the result, and the sink
after it. -/
structure Call where
  payload : Bytes
  before : Sink
  result : Except WireError Unit
  after : Sink

/-- The bytes that the sink took. -/
def Call.taken (call : Call) : Bytes :=
  call.after.written.drop call.before.written.length

/-- How often the sink was flushed. -/
def Call.flushes (call : Call) : Nat :=
  call.after.flushes - call.before.flushes

/-- What the sink took is behind what it had taken before, and it is what the result says. -/
structure Call.Exact (framing : Framing) (call : Call) : Prop where
  outcome : Outcome framing call.payload call.before call.result call.taken call.flushes
  appended : call.after.written = call.before.written ++ call.taken
  counted : call.after.flushes = call.before.flushes + call.flushes

theorem Call.exact_of_outcome {framing : Framing} {call : Call} {taken : Bytes} {flushes : Nat}
    (happended : call.after.written = call.before.written ++ taken)
    (hcounted : call.after.flushes = call.before.flushes + flushes)
    (h : Outcome framing call.payload call.before call.result taken flushes) :
    call.Exact framing := by
  have htaken : call.taken = taken := by
    rw [Call.taken, happended, List.drop_left]
  have hflushes : call.flushes = flushes := by
    rw [Call.flushes, hcounted, Nat.add_sub_cancel_left]
  exact ⟨by rwa [htaken, hflushes], by rwa [htaken], by rwa [hflushes]⟩

/-- The call that writes one frame. -/
def call (sink : Sink) (framing : Framing) (payload : Bytes) : Call where
  payload := payload
  before := sink
  result := (sink.writeFrame framing payload).1
  after := (sink.writeFrame framing payload).2

theorem call_exact (sink : Sink) (framing : Framing) (payload : Bytes) :
    (sink.call framing payload).Exact framing := by
  cases hframe : Frame.encode framing payload with
  | error error =>
      have hcall : sink.call framing payload = ⟨payload, sink, .error error, sink⟩ := by
        simp [call, writeFrame, hframe]
      rw [hcall]
      exact Call.exact_of_outcome (List.append_nil _).symm rfl
        (.unframed hframe (Frame.long_of_encode hframe))
  | ok frame =>
      obtain ⟨head, hhead, hsplit⟩ := Frame.encode_eq_append hframe
      have hwrites := writes_writeAll sink (by simp [hsplit, hhead] : frame ≠ [])
      simp only [call, writeFrame, hframe]
      generalize sink.writeAll frame = outcome at hwrites
      cases hwrites with
      | part _ _ hstop hshort =>
          exact Call.exact_of_outcome rfl rfl (.cut hframe hstop hshort)
      | all _ _ hbears =>
          cases hflush : sink.flushFailure with
          | none =>
              simp only [flush]
              exact Call.exact_of_outcome rfl rfl (.whole hframe hbears hflush)
          | some failure =>
              simp only [flush]
              exact Call.exact_of_outcome rfl rfl (.unflushed hframe hbears hflush)

/-! ## Writing one frame after the other -/

/-- The calls that write one frame after the other. -/
def calls (framing : Framing) : List Bytes → Sink → List Call
  | [], _ => []
  | payload :: payloads, sink =>
      sink.call framing payload :: calls framing payloads (sink.call framing payload).after

theorem calls_exact (framing : Framing) (payloads : List Bytes) :
    ∀ {sink : Sink}, ∀ call ∈ calls framing payloads sink, call.Exact framing := by
  induction payloads with
  | nil => exact fun _ hmem => nomatch hmem
  | cons payload payloads ih =>
      intro sink call hmem
      obtain rfl | hmem := List.mem_cons.mp hmem
      · exact call_exact sink framing payload
      · exact ih call hmem

/-- The calls are those that `writeFrames` makes. -/
theorem writeFrames_eq_calls (framing : Framing) (payloads : List Bytes) :
    ∀ {sink : Sink}, (calls framing payloads sink).map Call.payload = payloads ∧
      (calls framing payloads sink).map Call.result = (writeFrames framing payloads sink).1 ∧
      (writeFrames framing payloads sink).2.written =
        sink.written ++ (calls framing payloads sink).flatMap Call.taken := by
  induction payloads with
  | nil => exact ⟨rfl, rfl, (List.append_nil _).symm⟩
  | cons payload payloads ih =>
      intro sink
      obtain ⟨hpayloads, hresults, hwritten⟩ := @ih (sink.call framing payload).after
      refine ⟨?_, ?_, ?_⟩
      · rw [calls, List.map_cons, hpayloads]
        rfl
      · rw [calls, List.map_cons, hresults]
        rfl
      · have hafter : (writeFrames framing (payload :: payloads) sink).2 =
            (writeFrames framing payloads (sink.call framing payload).after).2 := rfl
        have happended : (sink.call framing payload).after.written =
            sink.written ++ (sink.call framing payload).taken :=
          (call_exact sink framing payload).appended
        rw [hafter, hwritten, happended, calls, List.flatMap_cons, List.append_assoc]

theorem take_calls (framing : Framing) (payloads : List Bytes) :
    ∀ {sink : Sink} (count : Nat),
      (calls framing payloads sink).take count = calls framing (payloads.take count) sink := by
  induction payloads with
  | nil =>
      intro sink count
      rw [List.take_nil, calls, List.take_nil]
  | cons payload payloads ih =>
      intro sink count
      cases count with
      | zero => rfl
      | succ count => rw [calls, List.take_succ_cons, ih, List.take_succ_cons, calls]

/-- Every call that writes a frame takes it as a whole and flushes once, or takes the part of it
before the point at which the sink stops and flushes nothing; its result says which. After any
number of calls the sink has taken what they took, in their order, each beginning with the first
byte of its frame. -/
theorem writes_frames_or_beginnings (framing : Framing) (payloads : List Bytes) (sink : Sink) :
    (∀ payload frame, Frame.encode framing payload = .ok frame →
      ∃ head, head ≠ [] ∧ frame = head ++ payload) ∧
    (calls framing payloads sink).map Call.payload = payloads ∧
    (calls framing payloads sink).map Call.result = (writeFrames framing payloads sink).1 ∧
    (∀ call ∈ calls framing payloads sink, call.Exact framing) ∧
    ∀ count, (writeFrames framing (payloads.take count) sink).2.written =
      sink.written ++ ((calls framing payloads sink).take count).flatMap Call.taken := by
  obtain ⟨hpayloads, hresults, _⟩ := @writeFrames_eq_calls framing payloads sink
  refine ⟨fun _ _ => Frame.encode_eq_append, hpayloads, hresults, calls_exact framing payloads,
    ?_⟩
  intro count
  rw [take_calls]
  exact (writeFrames_eq_calls framing (payloads.take count)).2.2

/-- A frame that is cut by a write that takes nothing, and the next one as a whole. -/
example : (calls .varint [[8, 1], [7]] { accepts := [2, 0] }).map Call.taken =
    [[2, 8], [1, 7]] := by
  decide

end Sink

end NodeHealth
