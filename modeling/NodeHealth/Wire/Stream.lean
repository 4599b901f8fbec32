import NodeHealth.Wire.Reader

/-!
# Scripted streams

A `Source` delivers bytes in scripted chunks, with pauses and failures between them, and
then ends; a `Sink` takes scripted amounts of what is written to it. `Source.readFrame` and
`Sink.writeFrame` are reading and writing one frame over them.

An interrupted operation is tried again, with a choice for the payload of a frame, and a
stream that ends inside what is being read is reported as closed.
-/

namespace NodeHealth

namespace Source

/-- What a source does next. -/
inductive Event
  /-- These bytes are there. -/
  | data (bytes : Bytes)
  /-- Nothing is there yet. -/
  | pending
  /-- The read that meets this fails once. -/
  | failure (failure : IoFailure)
  deriving DecidableEq, Repr

end Source

/-- A source is what it has still to do, after which it ends. -/
abbrev Source := List Source.Event

namespace Source

/-- The data bytes that are still unread, in order. -/
def unread : Source → Bytes
  | [] => []
  | .data bytes :: rest => bytes ++ unread rest
  | _ :: rest => unread rest

/-- How a failure of the stream is reported by a read. -/
def readError (failure : IoFailure) : WireError :=
  if failure.cause = .unexpectedEof then .closed else .io failure

/-- Feed a reader from a source until it is done, the source fails, or it ends. A reader that
is interrupted where it `retries` goes on. -/
def read {state value : Type} (feed : state → Bytes → Frame.Progress state value)
    (retries : state → Bool) (reader : state) : Source → Except WireError value × Source
  | [] => (.error .closed, [])
  | .pending :: rest => read feed retries reader rest
  | .failure failure :: rest =>
      if failure.cause = .interrupted ∧ retries reader then read feed retries reader rest
      else (.error (readError failure), rest)
  | .data bytes :: rest =>
      match feed reader bytes with
      | .more reader => read feed retries reader rest
      | .done result left => (result, .data left :: rest)

/-- Read a varint. -/
def readVarint (source : Source) : Except WireError UInt64 × Source :=
  read Frame.VarintReader.feed (fun _ => true) {} source

/-- Read one frame of at most `limit` payload bytes. The length prefix is read on when it is
interrupted; whether the payload is too depends on who reads it. -/
def readFrame (framing : Framing) (limit : Nat) (source : Source) (retries : Bool := true) :
    Except WireError Bytes × Source :=
  read Frame.Reader.feed (fun reader => reader.inLength || retries) (.start framing limit) source

end Source

/-- A destination that takes at most the `accepts` amounts at its next writes, then fails
once if there is a `failure`, and then takes everything. With a `flushFailure` every flush
fails. `written` is all it took, `flushes` counts the calls. -/
structure Sink where
  accepts : List Nat := []
  failure : Option IoFailure := none
  flushFailure : Option IoFailure := none
  written : Bytes := []
  flushes : Nat := 0
  deriving DecidableEq, Repr

namespace Sink

/-- Write to a sink whose scripted amounts are used up. -/
def writeRest (sink : Sink) (bytes : Bytes) : Except WireError Unit × Sink :=
  match bytes, sink.failure with
  | [], _ => (.ok (), sink)
  | _, none => (.ok (), { sink with written := sink.written ++ bytes })
  | _, some failure =>
      let sink := { sink with failure := none }
      if failure.cause = .interrupted then
        (.ok (), { sink with written := sink.written ++ bytes })
      else (.error (.io failure), sink)

/-- Write all of `bytes`, as many at a time as the sink takes; a write that takes none
fails. -/
def writeAll (sink : Sink) (bytes : Bytes) : Except WireError Unit × Sink :=
  go sink.accepts sink bytes
where
  /-- Write against the amounts that are left. -/
  go : List Nat → Sink → Bytes → Except WireError Unit × Sink
    | amounts, sink, [] => (.ok (), { sink with accepts := amounts })
    | [], sink, bytes => writeRest { sink with accepts := [] } bytes
    | 0 :: amounts, sink, _ =>
        (.error (.io (.ofSystem .writeZero)), { sink with accepts := amounts })
    | amount :: amounts, sink, bytes =>
        go amounts { sink with written := sink.written ++ bytes.take amount } (bytes.drop amount)

/-- Flush what was written. -/
def flush (sink : Sink) : Except WireError Unit × Sink :=
  let sink := { sink with flushes := sink.flushes + 1 }
  match sink.flushFailure with
  | some failure => (.error (.io failure), sink)
  | none => (.ok (), sink)

/-- Write one frame and flush it. -/
def writeFrame (framing : Framing) (payload : Bytes) (sink : Sink) :
    Except WireError Unit × Sink :=
  match Frame.encode framing payload with
  | .error error => (.error error, sink)
  | .ok frame =>
      match sink.writeAll frame with
      | (.ok (), sink) => sink.flush
      | (.error error, sink) => (.error error, sink)

end Sink

end NodeHealth
