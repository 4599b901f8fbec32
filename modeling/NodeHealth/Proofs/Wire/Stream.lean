import NodeHealth.Proofs.Wire.Reader
import NodeHealth.Proofs.Wire.Varint
import NodeHealth.Wire.Stream

/-!
# Scripted streams: reading is parsing, and writing is undone by reading

A source that fails only by interruptions after which the reader goes on is read as the plain
sequence of its bytes is parsed, whatever the chunks and pauses are, and no byte beyond those
that `Frame.parse` counts is taken. Frames that were written in pieces of any size are read
back in any chunks.

## Implementation notes

The loop of a source is followed for any piecewise feeding function. Its invariant is that the
reader is hungry: fed with nothing, it stays as it is. The end of the source needs that, since
it is met without feeding, and so does an interruption.

-/

namespace NodeHealth

/-- The length prefix at the front of a byte sequence is not complete. -/
def Frame.InLength : Framing → Bytes → Prop
  | .varint, bytes => Varint.decode bytes = .ok none
  | .fixed32, bytes => bytes.length < fixedPrefixLength

/-- As long as the prefix is not complete, the reader stands inside it. -/
theorem Frame.InLength.reader {framing : Framing} {bytes : Bytes} (h : InLength framing bytes)
    {limit : Nat} {next : Reader} (hfeed : (Reader.start framing limit).feed bytes = .more next) :
    next.inLength = true := by
  cases framing with
  | varint =>
      have hdecode : Varint.decodeFrom 0 0 Varint.maxLength bytes = .ok none := h
      rw [decodeFrom_eq_feed bytes rfl (by decide)] at hdecode
      simp only [Reader.start, Reader.feed] at hfeed
      cases hnumber : VarintReader.feed ⟨0, 0⟩ bytes with
      | more number =>
          rw [hnumber] at hfeed
          cases hfeed
          rfl
      | done result rest =>
          rw [hnumber] at hdecode
          cases result <;> cases hdecode
  | fixed32 =>
      have hshort : bytes.length < fixedPrefixLength - ([] : Bytes).length := h
      simp only [Reader.start, Reader.feed, if_pos hshort] at hfeed
      cases hfeed
      rfl

namespace Source

/-! ## Reading -/

/-- Every failure that a source meets is an interruption, and the reader goes on after one in a
payload as it does in a prefix. -/
def IsSteady (source : Source) (retries : Bool := true) : Prop :=
  ∀ failure, Event.failure failure ∈ source → failure.cause = .interrupted ∧ retries = true

/-- Every failure that a source meets is an interruption, and the first length prefix is not
complete at that point unless the reader goes on in a payload as well. -/
def IsSteadyFor (framing : Framing) (retries : Bool) (source : Source) : Prop :=
  ∀ before failure after, source = before ++ .failure failure :: after →
    failure.cause = .interrupted ∧ (retries = true ∨ Frame.InLength framing (unread before))

theorem IsSteady.isSteadyFor {source : Source} {retries : Bool} (h : source.IsSteady retries)
    (framing : Framing) : source.IsSteadyFor framing retries := by
  rintro before failure after rfl
  obtain ⟨hcause, hretries⟩ := h failure (by simp)
  exact ⟨hcause, .inl hretries⟩

/-- A reader that wants more after some bytes stays as it is when it is fed with nothing. -/
theorem hungry_of_feed {state value : Type} {feed : state → Bytes → Frame.Progress state value}
    (hfeed : Frame.Piecewise feed) {reader next : state} {bytes : Bytes}
    (h : feed reader bytes = .more next) : feed next [] = .more next := by
  have happend := hfeed.append reader bytes []
  rw [List.append_nil, h] at happend
  exact happend.symm

theorem hungry_start (framing : Framing) (limit : Nat) :
    (Frame.Reader.start framing limit).feed [] = .more (.start framing limit) := by
  cases framing <;> rfl

section Loop
variable {state value : Type} {feed : state → Bytes → Frame.Progress state value}
  {retries : state → Bool} {reader : state} {rest : Source}

/-- Every failure that a reader meets in a source is an interruption after which it goes on. -/
def GoesOn (feed : state → Bytes → Frame.Progress state value) (retries : state → Bool)
    (reader : state) (source : Source) : Prop :=
  ∀ before failure after next, source = before ++ .failure failure :: after →
    feed reader (unread before) = .more next → failure.cause = .interrupted ∧ retries next = true

theorem GoesOn.pending (h : GoesOn feed retries reader (.pending :: rest)) :
    GoesOn feed retries reader rest := by
  rintro before failure after next rfl
  exact h (.pending :: before) failure after next rfl

theorem GoesOn.failure {failure : IoFailure}
    (h : GoesOn feed retries reader (.failure failure :: rest)) :
    GoesOn feed retries reader rest := by
  rintro before other after next rfl
  exact h (.failure failure :: before) other after next rfl

theorem GoesOn.data (hfeed : Frame.Piecewise feed) {bytes : Bytes} {middle : state}
    (hchunk : feed reader bytes = .more middle)
    (h : GoesOn feed retries reader (.data bytes :: rest)) :
    GoesOn feed retries middle rest := by
  rintro before failure after next rfl hnext
  refine h (.data bytes :: before) failure after next rfl ?_
  rw [unread, hfeed.append, hchunk]
  exact hnext

/-- What reading a source comes to, and what it leaves, once it is known what feeding all its
bytes comes to. No failure is left that was not there. -/
def Comes (source : Source) : Frame.Progress state value → Except WireError value × Source → Prop
  | .more _, outcome => outcome = (.error .closed, [])
  | .done result left, outcome =>
      outcome.1 = result ∧ outcome.2.unread = left ∧
        ∀ failure, Event.failure failure ∈ outcome.2 → Event.failure failure ∈ source

theorem Comes.cons {progress : Frame.Progress state value}
    {outcome : Except WireError value × Source} (h : Comes rest progress outcome)
    (event : Event) : Comes (event :: rest) progress outcome := by
  cases progress with
  | more next => exact h
  | done result left =>
      obtain ⟨hresult, hleft, hfailures⟩ := h
      exact ⟨hresult, hleft, fun failure hmem => List.mem_cons_of_mem _ (hfailures failure hmem)⟩

/-- The loop over a source comes to what feeding all its bytes at once comes to, as long as the
reader goes on after every failure. -/
theorem read_eq (hfeed : Frame.Piecewise feed) (source : Source) :
    ∀ {reader : state}, feed reader [] = .more reader → GoesOn feed retries reader source →
      Comes source (feed reader source.unread) (source.read feed retries reader) := by
  induction source with
  | nil =>
      intro reader hhungry _
      simp only [unread, hhungry]
      rfl
  | cons event rest ih =>
      intro reader hhungry hgoes
      cases event with
      | pending => exact (ih hhungry hgoes.pending).cons _
      | failure failure =>
          simp only [unread, read, if_pos (hgoes [] failure rest reader rfl hhungry)]
          exact (ih hhungry hgoes.failure).cons _
      | data bytes =>
          simp only [unread, read, hfeed.append]
          cases hchunk : feed reader bytes with
          | more next =>
              exact (ih (hungry_of_feed hfeed hchunk) (hgoes.data hfeed hchunk)).cons _
          | done result left =>
              refine ⟨rfl, rfl, fun failure hmem => ?_⟩
              rcases List.mem_cons.mp hmem with heq | hmem
              · cases heq
              · exact List.mem_cons_of_mem _ hmem

end Loop

/-- Where reading a frame ends: what is left is behind the bytes taken, and has no failures that
were not there. -/
theorem readFrame_spec {framing : Framing} {retries : Bool} {source : Source}
    (hsteady : source.IsSteadyFor framing retries) (limit : Nat) :
    ∃ taken left,
      source.readFrame framing limit retries =
          ((Frame.parse framing limit source.unread).result, left) ∧
        source.unread = taken ++ left.unread ∧
        taken.length = (Frame.parse framing limit source.unread).taken ∧
        ∀ failure, Event.failure failure ∈ left → Event.failure failure ∈ source := by
  have hgoes : GoesOn Frame.Reader.feed (fun reader => reader.inLength || retries)
      (.start framing limit) source := by
    intro before failure after next hsource hnext
    obtain ⟨hcause, hwhere⟩ := hsteady before failure after hsource
    refine ⟨hcause, ?_⟩
    rcases hwhere with hretries | hlength
    · simp [hretries]
    · simp [hlength.reader hnext]
  have hread := read_eq Frame.Reader.piecewise source (hungry_start framing limit) hgoes
  rw [Frame.parse_eq_feed]
  cases hfeed : (Frame.Reader.start framing limit).feed source.unread with
  | more next =>
      rw [hfeed] at hread
      refine ⟨source.unread, [], hread, by simp [unread], rfl, ?_⟩
      intro failure hmem
      cases hmem
  | done result rest =>
      rw [hfeed] at hread
      obtain ⟨hresult, hleft, hfailures⟩ := hread
      obtain ⟨front, hbytes, _⟩ := Frame.Reader.feed_taken hfeed
      refine ⟨front, _, Prod.ext hresult rfl, ?_, ?_, hfailures⟩
      · exact hbytes.trans (congrArg (front ++ ·) hleft.symm)
      · simp [Frame.Progress.reading, hbytes]

/-- Reading a frame from a source depends on nothing but its bytes: it gives the result of
parsing them, and takes exactly the bytes that parsing counts. Interruptions inside the length
prefix make no difference, and with `retries` none does. -/
theorem readFrame_eq_parse (framing : Framing) (limit : Nat) (source : Source) (retries : Bool)
    (hsteady : source.IsSteadyFor framing retries) :
    ∃ taken left,
      source.readFrame framing limit retries =
          ((Frame.parse framing limit source.unread).result, left) ∧
        source.unread = taken ++ left.unread ∧
        taken.length = (Frame.parse framing limit source.unread).taken := by
  obtain ⟨taken, left, hread, hbytes, hlen, _⟩ := readFrame_spec hsteady limit
  exact ⟨taken, left, hread, hbytes, hlen⟩

/-- A frame in pieces, with an interruption inside its prefix, and a byte behind it. -/
def inPieces : Source :=
  [.data [2, 0], .failure ⟨.interrupted, "interrupted"⟩, .data [0, 0, 8], .pending, .data [1, 0xEE]]

/-- The frame is read and what follows it is left, although an interruption of its payload would
be a failure. -/
theorem readFrame_in_pieces :
    inPieces.IsSteadyFor .fixed32 false ∧
      ∃ taken left, inPieces.readFrame .fixed32 64 false = (.ok [8, 1], left) ∧
        inPieces.unread = taken ++ left.unread ∧ taken.length = 6 := by
  have hsteady : inPieces.IsSteadyFor .fixed32 false := by
    intro before failure after hsource
    rcases before with _ | ⟨_, _ | ⟨_, _ | ⟨_, _ | ⟨_, _ | ⟨_, before⟩⟩⟩⟩⟩ <;>
      simp only [inPieces, List.nil_append, List.cons_append, List.cons.injEq, reduceCtorEq,
        false_and, and_false, Event.failure.injEq, List.nil_eq, List.append_eq_nil_iff] at hsource
    obtain ⟨rfl, rfl, _⟩ := hsource
    have hshort : ([2, 0] : Bytes).length < Frame.fixedPrefixLength := by decide
    exact ⟨rfl, .inr hshort⟩
  exact ⟨hsteady, readFrame_eq_parse .fixed32 64 inPieces false hsteady⟩

end Source

namespace Sink

/-! ## Writing -/

/-- A sink that takes something at every write and never fails. -/
structure IsWilling (sink : Sink) : Prop where
  accepts : ∀ amount ∈ sink.accepts, 0 < amount
  failure : sink.failure = none
  flushFailure : sink.flushFailure = none

theorem writeAll_go_of_willing (amounts : List Nat) (hpos : ∀ amount ∈ amounts, 0 < amount) :
    ∀ (sink : Sink) (bytes : Bytes), sink.failure = none → sink.flushFailure = none →
      ∃ after, writeAll.go amounts sink bytes = (.ok (), after) ∧ after.IsWilling ∧
        after.written = sink.written ++ bytes := by
  induction amounts with
  | nil =>
      intro sink bytes hfailure hflush
      cases bytes with
      | nil => exact ⟨_, rfl, ⟨by simp, hfailure, hflush⟩, by simp⟩
      | cons byte bytes =>
          refine ⟨{ sink with accepts := [], written := sink.written ++ byte :: bytes }, ?_,
            ⟨by simp, hfailure, hflush⟩, rfl⟩
          simp [writeAll.go, writeRest, hfailure]
  | cons amount amounts ih =>
      intro sink bytes hfailure hflush
      cases bytes with
      | nil =>
          exact ⟨{ sink with accepts := amount :: amounts }, rfl, ⟨hpos, hfailure, hflush⟩,
            by simp⟩
      | cons byte bytes =>
          obtain ⟨more, rfl⟩ : ∃ more, amount = more + 1 :=
            ⟨amount - 1, by have := hpos amount (by simp); omega⟩
          obtain ⟨after, hgo, hwilling, hwritten⟩ :=
            ih (fun a ha => hpos a (by simp [ha]))
              { sink with written := sink.written ++ (byte :: bytes).take (more + 1) }
              ((byte :: bytes).drop (more + 1)) hfailure hflush
          refine ⟨after, hgo, hwilling, ?_⟩
          rw [hwritten, List.append_assoc, List.take_append_drop]

/-- A willing sink takes a whole frame and stays willing. -/
theorem writeFrame_of_willing {framing : Framing} {payload frame : Bytes} {sink : Sink}
    (hwilling : sink.IsWilling) (hencode : Frame.encode framing payload = .ok frame) :
    ∃ after, sink.writeFrame framing payload = (.ok (), after) ∧ after.IsWilling ∧
      after.written = sink.written ++ frame := by
  obtain ⟨after, hgo, hafter, hwritten⟩ :=
    writeAll_go_of_willing sink.accepts hwilling.accepts sink frame hwilling.failure
      hwilling.flushFailure
  refine ⟨{ after with flushes := after.flushes + 1 }, ?_,
    ⟨hafter.accepts, hafter.failure, hafter.flushFailure⟩, hwritten⟩
  simp [writeFrame, hencode, writeAll, hgo, flush, hafter.flushFailure]

/-- Write one frame after the other; the results of the writes come first. -/
def writeFrames (framing : Framing) :
    List Bytes → Sink → List (Except WireError Unit) × Sink
  | [], sink => ([], sink)
  | payload :: payloads, sink =>
      let (result, sink) := sink.writeFrame framing payload
      let (results, sink) := writeFrames framing payloads sink
      (result :: results, sink)

end Sink

/-! ## Round trip -/

namespace Frame

/-- The longest payload that a framing has a prefix for. -/
def maxLength : Framing → Nat
  | .varint => UInt64.size - 1
  | .fixed32 => maxFixedLength

/-- Every payload that has a prefix has a frame, which parses to it whatever follows. -/
theorem parse_encode_append {framing : Framing} {limit : Nat} {payload : Bytes}
    (hrange : payload.length ≤ maxLength framing) (hlimit : payload.length ≤ limit) :
    ∃ frame, encode framing payload = .ok frame ∧
      ∀ rest, parse framing limit (frame ++ rest) = ⟨.ok payload, frame.length⟩ := by
  have hword : payload.length < UInt64.size := by
    cases framing <;> simp only [maxLength, maxFixedLength, UInt64.size] at hrange ⊢ <;> omega
  have hlength : (UInt64.ofNat payload.length).toNat = payload.length :=
    UInt64.toNat_ofNat_of_lt' hword
  have hbody : ∀ used rest,
      parseBody limit (UInt64.ofNat payload.length) used (payload ++ rest) =
        ⟨.ok payload, used + payload.length⟩ := by
    intro used rest
    by_cases hempty : payload = []
    · subst hempty
      simp [parseBody]
    · have hpos := List.length_pos_iff.mpr hempty
      have hne : UInt64.ofNat payload.length ≠ 0 := by
        intro hzero
        rw [hzero] at hlength
        simp only [UInt64.toNat_zero] at hlength
        omega
      have hfits : ¬limit < payload.length := by omega
      simp [parseBody, hne, hlength, hfits]
  cases framing with
  | varint =>
      obtain ⟨init, last, hencode, _⟩ := Varint.encode_eq (UInt64.ofNat payload.length)
      refine ⟨init ++ [last] ++ payload, ?_, ?_⟩
      · simp only [encode, hencode]
        rfl
      · intro rest
        have hlen : (init ++ [last] ++ payload).length =
            (init ++ [last]).length + payload.length := List.length_append
        simp only [parse, List.append_assoc (init ++ [last]),
          Varint.decode_encode_append hencode, List.drop_left, hbody]
        rw [hlen]
  | fixed32 =>
      have hfixed : ¬maxFixedLength < payload.length := by simpa [maxLength] using hrange
      have hfour : (littleEndian (UInt32.ofNat payload.length)).length = fixedPrefixLength := rfl
      have hvalue : ofLittleEndian (littleEndian (UInt32.ofNat payload.length)) =
          payload.length := by
        rw [ofLittleEndian_littleEndian]
        apply UInt32.toNat_ofNat_of_lt'
        simp only [maxFixedLength] at hfixed
        simp only [UInt32.size]
        omega
      refine ⟨littleEndian (UInt32.ofNat payload.length) ++ payload, ?_, ?_⟩
      · simp only [encode, if_neg hfixed]
      · intro rest
        have hlong : ¬(littleEndian (UInt32.ofNat payload.length) ++ (payload ++ rest)).length <
            fixedPrefixLength := by
          rw [List.length_append]
          omega
        simp only [parse]
        rw [List.append_assoc, if_neg hlong, List.take_left' hfour, List.drop_left' hfour, hvalue,
          hbody, List.length_append, hfour]

end Frame

namespace Source

/-- Read one frame after the other, `count` of them; the results of the reads come first. -/
def readFrames (framing : Framing) (limit : Nat) (retries : Bool := true) :
    (count : Nat) → Source → List (Except WireError Bytes) × Source
  | 0, source => ([], source)
  | count + 1, source =>
      let (result, source) := source.readFrame framing limit retries
      let (results, source) := readFrames framing limit retries count source
      (result :: results, source)

end Source

/-- Frames that were written one after the other are read back in order. -/
theorem readFrames_of_writeFrames (framing : Framing) (limit : Nat) (payloads : List Bytes)
    (hlimit : ∀ payload ∈ payloads, payload.length ≤ limit)
    (hrange : ∀ payload ∈ payloads, payload.length ≤ Frame.maxLength framing) :
    ∀ {sink : Sink}, sink.IsWilling →
      ∃ frames after,
        Sink.writeFrames framing payloads sink = (payloads.map fun _ => .ok (), after) ∧
        after.written = sink.written ++ frames ∧
        ∀ (retries : Bool) (source : Source), source.IsSteady retries → source.unread = frames →
          ∃ left,
            source.readFrames framing limit retries payloads.length =
                (payloads.map .ok, left) ∧
              left.unread = [] ∧ left.IsSteady retries := by
  induction payloads with
  | nil =>
      intro sink _
      exact ⟨[], sink, rfl, by simp,
        fun _ source hsteady hbytes => ⟨source, rfl, hbytes, hsteady⟩⟩
  | cons payload payloads ih =>
      intro sink hwilling
      obtain ⟨frame, hencode, hparse⟩ :=
        Frame.parse_encode_append (hrange payload (by simp)) (hlimit payload (by simp))
      obtain ⟨middle, hwrite, hmiddle, hwritten⟩ := Sink.writeFrame_of_willing hwilling hencode
      obtain ⟨frames, after, hwrites, hafter, hreads⟩ :=
        ih (fun p hp => hlimit p (by simp [hp])) (fun p hp => hrange p (by simp [hp])) hmiddle
      refine ⟨frame ++ frames, after, ?_, ?_, ?_⟩
      · simp only [Sink.writeFrames, hwrite, hwrites, List.map_cons]
      · rw [hafter, hwritten, List.append_assoc]
      · intro retries source hsteady hbytes
        obtain ⟨taken, left, hread, hsplit, hlen, hfailures⟩ :=
          Source.readFrame_spec (hsteady.isSteadyFor framing) limit
        rw [hbytes, hparse] at hread hlen
        rw [hbytes] at hsplit
        have hrest : frames = left.unread := List.append_inj_right hsplit hlen.symm
        have hleft : left.IsSteady retries :=
          fun failure hmem => hsteady failure (hfailures failure hmem)
        obtain ⟨final, hfinal, hnone, hstill⟩ := hreads retries left hleft hrest.symm
        refine ⟨final, ?_, hnone, hstill⟩
        simp only [Source.readFrames, List.length_cons, hread, hfinal, List.map_cons]

/-- Payloads that are written in pieces of any size and read back in any chunks come out as
they went in, and then the stream is closed with nothing left. -/
theorem frames_round_trip (framing : Framing) (limit : UInt64) (payloads : List Bytes)
    (hlimit : ∀ payload ∈ payloads, payload.length ≤ limit.toNat)
    (hfixed : framing = .fixed32 → ∀ payload ∈ payloads, payload.length < 2 ^ 32)
    (amounts : List Nat) (hamounts : ∀ amount ∈ amounts, 0 < amount) :
    ∃ written, Sink.writeFrames framing payloads { accepts := amounts } =
        (payloads.map fun _ => .ok (), written) ∧
      ∀ (retries : Bool) (source : Source), source.IsSteady retries →
        source.unread = written.written →
        ∃ left final,
          source.readFrames framing limit.toNat retries payloads.length =
            (payloads.map .ok, left) ∧
          left.unread = [] ∧
          left.readFrame framing limit.toNat retries = (.error .closed, final) ∧
          final.unread = [] := by
  have hrange : ∀ payload ∈ payloads, payload.length ≤ Frame.maxLength framing := by
    intro payload hmem
    cases framing with
    | varint =>
        have hpayload := hlimit payload hmem
        have hword := limit.toNat_lt
        simp only [Frame.maxLength, UInt64.size]
        omega
    | fixed32 =>
        have hpayload := hfixed rfl payload hmem
        simp only [Frame.maxLength, Frame.maxFixedLength]
        omega
  obtain ⟨frames, written, hwrites, hwritten, hreads⟩ :=
    readFrames_of_writeFrames framing limit.toNat payloads hlimit hrange
      (⟨hamounts, rfl, rfl⟩ : Sink.IsWilling { accepts := amounts })
  refine ⟨written, hwrites, ?_⟩
  intro retries source hsteady hbytes
  obtain ⟨left, hread, hleft, hstill⟩ :=
    hreads retries source hsteady (by rw [hbytes, hwritten]; rfl)
  obtain ⟨taken, final, hclosed, hsplit, _, _⟩ :=
    Source.readFrame_spec (hstill.isSteadyFor framing) limit.toNat
  have hempty : Frame.parse framing limit.toNat left.unread = ⟨.error .closed, 0⟩ := by
    rw [hleft]
    cases framing <;> rfl
  rw [hempty] at hclosed
  rw [hleft] at hsplit
  exact ⟨left, final, hread, hleft, hclosed, (List.append_eq_nil_iff.mp hsplit.symm).2⟩

/-- Two payloads, one of them empty. -/
def twoPayloads : List Bytes := [[10, 0], []]

/-- They are written byte by byte at first, and read back however the prefixes are cut. -/
theorem frames_round_trip_fixed :
    (∀ payload ∈ twoPayloads, payload.length ≤ (256 : UInt64).toNat) ∧
      (∀ payload ∈ twoPayloads, payload.length < 2 ^ 32) ∧ (∀ amount ∈ [1, 1, 3], 0 < amount) ∧
      ∃ written, Sink.writeFrames .fixed32 twoPayloads { accepts := [1, 1, 3] } =
          ([.ok (), .ok ()], written) ∧
        ∀ (retries : Bool) (source : Source), source.IsSteady retries →
          source.unread = written.written →
          ∃ left final, source.readFrames .fixed32 256 retries 2 = ([.ok [10, 0], .ok []], left) ∧
            left.unread = [] ∧ left.readFrame .fixed32 256 retries = (.error .closed, final) ∧
            final.unread = [] := by
  have hlimit : ∀ payload ∈ twoPayloads, payload.length ≤ (256 : UInt64).toNat := by decide
  have hfixed : ∀ payload ∈ twoPayloads, payload.length < 2 ^ 32 := by decide
  have hamounts : ∀ amount ∈ [1, 1, 3], 0 < amount := by decide
  exact ⟨hlimit, hfixed, hamounts,
    frames_round_trip .fixed32 256 twoPayloads hlimit (fun _ => hfixed) [1, 1, 3] hamounts⟩

end NodeHealth
