import NodeHealth.Net.Network
import NodeHealth.Wire.Reader

/-!
# Sessions

A session is a connection on which frames of one kind are sent and received, with a bound on
the length of what is received and counters of both. Receiving and sending may have to wait;
`receive` and `deliver` then say so and are called again when something has changed.
-/

namespace NodeHealth

/-- Why a conversation over a connection failed. -/
inductive ConnectionError
  | io (failure : IoFailure)
  | protocol (error : WireError)
  | closed
  | timeout
  deriving DecidableEq, Repr

/-- The wording of a connection error. -/
def ConnectionError.message : ConnectionError → String
  | io failure => "IO error: " ++ failure.text
  | protocol error => "Protocol error: " ++ error.message
  | closed => "Connection closed"
  | timeout => "Connection timeout"

/-- The connection error for a cause that the system reports. -/
def ConnectionError.ofCause (cause : IoCause) : ConnectionError :=
  .io (.ofSystem cause)

/-- What somebody who waits for data has found. -/
inductive Readiness
  /-- At least one byte is there. -/
  | readable
  /-- Nothing came in time. -/
  | idle
  /-- The other end has hung up. -/
  | closed
  deriving DecidableEq, Repr

/-- Frames and bytes sent and received. Bytes sent count length prefixes, bytes received do
not. -/
structure SessionStats where
  framesSent : UInt64 := 0
  framesReceived : UInt64 := 0
  bytesSent : UInt64 := 0
  bytesReceived : UInt64 := 0
  deriving DecidableEq, Repr

/-- A framed conversation at one end of a connection. -/
structure Session where
  link : LinkId
  side : Side
  framing : Framing
  /-- Longest payload that is received. -/
  limit : Nat
  /-- Deadline of a single send, in milliseconds. -/
  sendTimeoutMs : Option Nat := none
  /-- The bytes to write, which are put together here for every send. -/
  writeBuffer : Bytes := []
  stats : SessionStats := {}
  deriving DecidableEq, Repr

/-- How far an operation that may have to wait has come. -/
inductive Poll (waiting result : Type)
  /-- Nothing changed since the last time. -/
  | blocked
  /-- Something changed, but the operation still waits. -/
  | advanced (state : waiting)
  | done (result : result)
  deriving Repr

namespace Session

/-! ## Receiving -/

/-- A reader at the start of the next frame. -/
def reader (session : Session) : Frame.Reader :=
  .start session.framing session.limit

/-- How an error of the wire format is reported by a session. -/
def receiveError : WireError → ConnectionError
  | .closed => .closed
  | error => .protocol error

/-- The session after a frame was received. -/
def countReceived (session : Session) (payload : Bytes) : Session :=
  let stats := session.stats
  { session with
    stats :=
      { stats with
        framesReceived := stats.framesReceived + 1
        bytesReceived := stats.bytesReceived + UInt64.ofNat payload.length } }

/-- The result of receiving, counted if it is a frame. -/
def received (session : Session) (net : Net) :
    Except WireError Bytes → Net × Session × Except ConnectionError Bytes
  | .ok payload => (net, session.countReceived payload, .ok payload)
  | .error error => (net, session, .error (receiveError error))

/-- Go on receiving a frame with what has arrived. -/
def receive (session : Session) (net : Net) (reader : Frame.Reader) :
    Poll (Net × Frame.Reader) (Net × Session × Except ConnectionError Bytes) :=
  match (net.link session.link).arrival session.side with
  | .nothing => .blocked
  | .ended => .done (session.received net (.error .closed))
  | .failed cause =>
      .done (session.received (net.changeLink session.link (·.report session.side))
        (.error (.io (.ofSystem cause))))
  | .bytes unread =>
      match reader.feed unread with
      | .more reader =>
          .advanced (net.changeLink session.link (·.take session.side unread.length), reader)
      | .done result rest =>
          let taken := unread.length - rest.length
          .done (session.received (net.changeLink session.link (·.take session.side taken))
            result)

/-! ## Sending -/

/-- A frame that is being sent: its length, and the bytes that are still to be written. -/
structure Sending where
  length : Nat
  rest : Bytes
  deriving DecidableEq, Repr

/-- Empty the write buffer. -/
def clear (session : Session) : Session :=
  { session with writeBuffer := [] }

/-- Append the frame of a payload to what the write buffer holds. -/
def pack (session : Session) (payload : Bytes) : Except WireError Unit × Session :=
  let (result, buffer) := Frame.write session.framing payload ⟨session.writeBuffer, none⟩
  (result, { session with writeBuffer := buffer.content })

/-- All that the write buffer holds is to be written. -/
def unwritten (session : Session) : Sending :=
  ⟨session.writeBuffer.length, session.writeBuffer⟩

/-- Begin to send a payload: its frame takes the place of what was in the write buffer. -/
def prepare (session : Session) (payload : Bytes) : Except ConnectionError Sending × Session :=
  match session.clear.pack payload with
  | (.ok (), session) => (.ok session.unwritten, session)
  | (.error error, session) => (.error (.protocol error), session)

/-- The session with a frame in its write buffer, and nothing else. -/
def holding (session : Session) (frame : Bytes) : Session :=
  { session with writeBuffer := frame }

/-- Whatever was sent before, exactly the frame is to be written. -/
theorem prepare_of_encode {session : Session} {payload frame : Bytes}
    (h : Frame.encode session.framing payload = .ok frame) :
    session.prepare payload = (.ok ⟨frame.length, frame⟩, session.holding frame) := by
  have hwrite := Frame.write_of_encode h []
  rw [List.nil_append] at hwrite
  simp [prepare, pack, clear, hwrite, unwritten, holding]

/-- A payload that has no frame is refused. -/
theorem prepare_of_error {session : Session} {payload : Bytes} {error : WireError}
    (h : Frame.encode session.framing payload = .error error) :
    session.prepare payload = (.error (.protocol error), session.holding []) := by
  simp [prepare, pack, clear, Frame.write_of_error h, holding]

/-- Preparing a frame changes nothing of the session but its write buffer. -/
theorem eq_holding_of_prepare {session later : Session} {payload : Bytes}
    {result : Except ConnectionError Sending} (h : session.prepare payload = (result, later)) :
    later = session.holding later.writeBuffer := by
  cases hencode : Frame.encode session.framing payload with
  | ok frame =>
      rw [prepare_of_encode hencode] at h
      cases h
      rfl
  | error error =>
      rw [prepare_of_error hencode] at h
      cases h
      rfl

/-- The session after a frame was sent. -/
def countSent (session : Session) (length : Nat) : Session :=
  let stats := session.stats
  { session with
    stats :=
      { stats with
        framesSent := stats.framesSent + 1
        bytesSent := stats.bytesSent + UInt64.ofNat length } }

/-- Go on writing a frame as far as there is room. -/
def deliver (session : Session) (net : Net) (sending : Sending) :
    Poll (Net × Sending) (Net × Session × Except ConnectionError Unit) :=
  let (delivery, link) := (net.link session.link).write session.side sending.rest
  let written := net.changeLink session.link fun _ => link
  match delivery with
  | .failed cause => .done (written, session, .error (.ofCause cause))
  | .wrote count =>
      if sending.rest.length ≤ count then
        .done (written, session.countSent sending.length, .ok ())
      else if count = 0 then .blocked
      else .advanced (written, { sending with rest := sending.rest.drop count })

/-- When a send that begins now has to be over. -/
def sendDeadline (session : Session) (now : Nat) : Option Nat :=
  session.sendTimeoutMs.map (now + ·)

/-! ## Waiting and closing -/

/-- What a failure says to somebody who waits for data: an interruption only that nothing has
come so far. -/
def readinessOfFailure : IoCause → Except ConnectionError Readiness
  | .interrupted => .ok .idle
  | cause => .error (.ofCause cause)

/-- Whether data has arrived or the other end has hung up, without taking anything; `none`
if neither is known yet. -/
def readiness? (session : Session) (net : Net) :
    Option (Net × Except ConnectionError Readiness) :=
  match (net.link session.link).arrival session.side with
  | .bytes _ => some (net, .ok .readable)
  | .ended => some (net, .ok .closed)
  | .failed cause =>
      some (net.changeLink session.link (·.report session.side), readinessOfFailure cause)
  | .nothing => none

/-- Tell the other end that no more bytes come, and let go of the connection. -/
def close (session : Session) (net : Net) : Net :=
  net.changeLink session.link fun link => (link.finish session.side).close session.side

/-- Let go of the connection. -/
def drop (session : Session) (net : Net) : Net :=
  net.changeLink session.link (·.close session.side)

theorem readinessOfFailure_of_ne {cause : IoCause} (h : cause ≠ .interrupted) :
    readinessOfFailure cause = .error (.ofCause cause) := by
  cases cause <;> first | rfl | exact absurd rfl h

/-! ## What stays -/

/-- A later state of a session that was opened: only its counters and its write buffer are
not what they were. -/
structure Continues (opened session : Session) : Prop where
  link : session.link = opened.link
  side : session.side = opened.side
  framing : session.framing = opened.framing
  limit : session.limit = opened.limit
  sendTimeoutMs : session.sendTimeoutMs = opened.sendTimeoutMs

theorem Continues.refl (session : Session) : session.Continues session :=
  ⟨rfl, rfl, rfl, rfl, rfl⟩

theorem Continues.trans {first second third : Session} (h : first.Continues second)
    (h' : second.Continues third) : first.Continues third where
  link := h'.link.trans h.link
  side := h'.side.trans h.side
  framing := h'.framing.trans h.framing
  limit := h'.limit.trans h.limit
  sendTimeoutMs := h'.sendTimeoutMs.trans h.sendTimeoutMs

theorem continues_holding (session : Session) (frame : Bytes) :
    session.Continues (session.holding frame) :=
  ⟨rfl, rfl, rfl, rfl, rfl⟩

theorem continues_countSent (session : Session) (length : Nat) :
    session.Continues (session.countSent length) :=
  ⟨rfl, rfl, rfl, rfl, rfl⟩

theorem continues_countReceived (session : Session) (payload : Bytes) :
    session.Continues (session.countReceived payload) :=
  ⟨rfl, rfl, rfl, rfl, rfl⟩

end Session

end NodeHealth
