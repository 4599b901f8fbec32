import NodeHealth.Message.Health
import NodeHealth.Net.Dial

/-!
# Probing a health server

A probe connects to a health server, sends an empty request, waits for the reply and
reports the status in it. Connecting, sending and receiving have the same time each.
-/

namespace NodeHealth

/-- What a probe found: the status number of the reply, if there is one, and how long it
took, in milliseconds. -/
structure ProbeReport where
  statusNumber : Option UInt64
  elapsedMs : Nat
  deriving DecidableEq, Repr

namespace ProbeReport

/-- The status that was reported, if it is a known one. -/
def status? (report : ProbeReport) : Option ServingStatus :=
  report.statusNumber.bind ServingStatus.ofNumber?

/-- Whether the node serves. -/
def isServing (report : ProbeReport) : Bool :=
  report.status? = some .serving

/-- The status in words. -/
def describe (report : ProbeReport) : String :=
  match report.status?, report.statusNumber with
  | some status, _ => status.name
  | none, some number => "UNKNOWN(" ++ toString number.toNat ++ ")"
  | none, none => "UNKNOWN"

end ProbeReport

/-- Where a probe stands. -/
inductive ProbePhase
  /-- It has not run yet. -/
  | starting
  | dialling (dial : Dial)
  | sending (session : Session) (sending : Session.Sending) (deadline : Option Instant)
  | awaiting (session : Session) (reader : Frame.Reader) (deadline : Instant)
  | finished (result : Except ConnectionError ProbeReport)

/-- A probe of a health server. -/
structure Probe where
  host : String
  port : UInt16
  timeoutMs : Nat
  /-- When the probe was started. -/
  started : Instant := 0
  phase : ProbePhase := .starting

namespace Probe

/-- Longest reply that is accepted. -/
def maxReplyLength : Nat := 64

/-- The probe is in a phase. -/
def enter (probe : Probe) (phase : ProbePhase) : Probe :=
  { probe with phase }

/-- The probe has failed. -/
def fail (probe : Probe) (error : ConnectionError) : Probe :=
  probe.enter (.finished (.error error))

/-- Begin to connect. -/
def attempt (probe : Probe) (now : Instant) (net : Net) : Net × Probe :=
  let (dial, net) := Dial.start net probe.host probe.port (now + probe.timeoutMs)
  (net, { probe with started := now }.enter (.dialling dial))

/-- Begin to send the request on a new connection. -/
def ask (probe : Probe) (now : Instant) (net : Net) (link : LinkId) : Net × Probe :=
  let session : Session :=
    { link, side := .dialler, framing := .varint, limit := maxReplyLength
      sendTimeoutMs := some probe.timeoutMs }
  match ({} : HealthRequest).encode with
  | .error error => (session.drop net, probe.fail (.protocol error))
  | .ok payload =>
      match session.prepare payload with
      | (.ok sending, session) =>
          (net, probe.enter (.sending session sending (session.sendDeadline now)))
      | (.error error, session) => (session.drop net, probe.fail error)

/-- A reply has been received. -/
def finish (probe : Probe) (now : Instant) (net : Net) (session : Session) (payload : Bytes) :
    Net × Probe :=
  let report : ProbeReport := ⟨HealthResponse.statusNumber? payload, now - probe.started⟩
  (session.close net, probe.enter (.finished (.ok report)))

/-- Run the probe up to the next point at which it may have to wait; `none` if it waits or
is finished. -/
def step (probe : Probe) (now : Instant) (net : Net) : Option (Net × Probe) :=
  match probe.phase with
  | .starting => some (probe.attempt now net)
  | .dialling dial =>
      match dial.outcome? now net with
      | some (net, .ok link) => some (probe.ask now net link)
      | some (net, .error error) => some (net, probe.fail error)
      | none => none
  | .sending session sending deadline =>
      match session.deliver net sending with
      | .done (net, session, .ok ()) =>
          some (net, probe.enter (.awaiting session session.reader (now + probe.timeoutMs)))
      | .done (net, session, .error error) => some (session.drop net, probe.fail error)
      | .advanced (net, sending) =>
          some (net, probe.enter (.sending session sending deadline))
      | .blocked =>
          if deadline.any (· ≤ now) then some (session.drop net, probe.fail .timeout) else none
  | .awaiting session reader deadline =>
      match session.receive net reader with
      | .done (net, session, .ok payload) => some (probe.finish now net session payload)
      | .done (net, session, .error error) => some (session.drop net, probe.fail error)
      | .advanced (net, reader) =>
          some (net, probe.enter (.awaiting session reader deadline))
      | .blocked =>
          if deadline ≤ now then some (session.drop net, probe.fail .timeout) else none
  | .finished _ => none

/-- When the probe goes on even if nothing happens. -/
def wake? (probe : Probe) : Option Instant :=
  match probe.phase with
  | .dialling dial => some dial.deadline
  | .sending _ _ deadline => deadline
  | .awaiting _ _ deadline => some deadline
  | _ => none

/-- The result of the probe, once it is finished. -/
def result? (probe : Probe) : Option (Except ConnectionError ProbeReport) :=
  match probe.phase with
  | .finished result => some result
  | _ => none

end Probe

end NodeHealth
