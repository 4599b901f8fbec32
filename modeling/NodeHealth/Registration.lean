import NodeHealth.Config.Basic
import NodeHealth.Message.Registration
import NodeHealth.Net.Dial

/-!
# Registration

A registrar announces the node to a registration server: it connects, sends one request,
waits a while for a response, and closes the connection. The server may stay silent; only a
failure to connect or to send is an error. Nothing is tried twice.
-/

namespace NodeHealth

/-- Why a registration could not be sent. -/
inductive RegistrationError
  | encode (error : WireError)
  | connection (error : ConnectionError)
  | notConfigured
  deriving DecidableEq, Repr

/-- The wording of a registration error. -/
def RegistrationError.message : RegistrationError → String
  | encode error => "Encoding failed: " ++ error.message
  | connection error => "Connection error: " ++ error.message
  | notConfigured => "Registration server address not configured"

/-- What the registration server said, if anything. -/
inductive RegistrationOutcome
  | accepted
  | rejected (message : Option String)
  | noResponse
  deriving DecidableEq, Repr

/-- What a payload that was received says. -/
def RegistrationOutcome.ofPayload (payload : Bytes) : RegistrationOutcome :=
  match RegisterResponse.decode? payload with
  | some ⟨true, _⟩ => .accepted
  | some ⟨false, message⟩ => .rejected message
  | none => .noResponse

/-- The request to send, and where to send it. -/
structure Registrar where
  request : RegisterRequest
  config : RegistrationConfig
  deriving DecidableEq, Repr

namespace Registrar

/-- The registrar of a node whose health server has the given configuration. -/
def ofServer (server : ServerConfig) : Registrar :=
  ⟨.amf server.advertisedIp server.port, server.registration⟩

/-- Whether registering is wanted and it is known where. -/
def isReady (registrar : Registrar) : Bool :=
  registrar.config.enable && registrar.config.target?.isSome

end Registrar

/-- Where a registration stands. -/
inductive RegistrationPhase
  /-- It has not run yet. -/
  | starting
  | dialling (dial : Dial) (payload : Bytes)
  | sending (session : Session) (sending : Session.Sending) (deadline : Option Instant)
  | awaiting (session : Session) (reader : Frame.Reader) (deadline : Instant)
  | finished (result : Except RegistrationError RegistrationOutcome)

/-- A registration under way. -/
structure Registration where
  registrar : Registrar
  phase : RegistrationPhase := .starting

namespace Registration

/-- Longest response that is accepted. -/
def maxResponseLength : Nat := 128

/-- The time for each of connecting, sending and receiving. -/
def timeoutMs (registration : Registration) : Nat :=
  registration.registrar.config.timeoutMs.toNat

/-- The registration is in a phase. -/
def enter (registration : Registration) (phase : RegistrationPhase) : Registration :=
  { registration with phase }

/-- The registration has ended. -/
def finish (registration : Registration)
    (result : Except RegistrationError RegistrationOutcome) : Registration :=
  registration.enter (.finished result)

/-- Encode the request and begin to connect. -/
def attempt (registration : Registration) (now : Instant) (net : Net) : Net × Registration :=
  let registrar := registration.registrar
  match registrar.request.encode with
  | .error error => (net, registration.finish (.error (.encode error)))
  | .ok payload =>
      match registrar.config.target? with
      | none => (net, registration.finish (.error .notConfigured))
      | some (host, port) =>
          let (dial, net) := Dial.start net host port (now + registration.timeoutMs)
          (net, registration.enter (.dialling dial payload))

/-- Begin to send the request on a new connection. -/
def announce (registration : Registration) (now : Instant) (net : Net) (payload : Bytes)
    (link : LinkId) : Net × Registration :=
  let session : Session :=
    { link, side := .dialler, framing := .varint, limit := maxResponseLength
      sendTimeoutMs := some registration.timeoutMs }
  match session.prepare payload with
  | (.ok sending, session) =>
      (net, registration.enter (.sending session sending (session.sendDeadline now)))
  | (.error error, session) =>
      (session.close net, registration.finish (.error (.connection error)))

/-- The connection is closed with a result. -/
def close (registration : Registration) (net : Net) (session : Session)
    (result : Except RegistrationError RegistrationOutcome) : Net × Registration :=
  (session.close net, registration.finish result)

/-- Run the registration up to the next point at which it may have to wait; `none` if it
waits or has ended. -/
def step (registration : Registration) (now : Instant) (net : Net) :
    Option (Net × Registration) :=
  match registration.phase with
  | .starting => some (registration.attempt now net)
  | .dialling dial payload =>
      match dial.outcome? now net with
      | some (net, .ok link) => some (registration.announce now net payload link)
      | some (net, .error error) => some (net, registration.finish (.error (.connection error)))
      | none => none
  | .sending session sending deadline =>
      match session.deliver net sending with
      | .done (net, session, .ok ()) =>
          some (net, registration.enter
            (.awaiting session session.reader (now + registration.timeoutMs)))
      | .done (net, session, .error error) =>
          some (registration.close net session (.error (.connection error)))
      | .advanced (net, sending) =>
          some (net, registration.enter (.sending session sending deadline))
      | .blocked =>
          if deadline.any (· ≤ now) then
            some (registration.close net session (.error (.connection .timeout)))
          else none
  | .awaiting session reader deadline =>
      match session.receive net reader with
      | .done (net, session, .ok payload) =>
          some (registration.close net session (.ok (.ofPayload payload)))
      | .done (net, session, .error _) =>
          some (registration.close net session (.ok .noResponse))
      | .advanced (net, reader) =>
          some (net, registration.enter (.awaiting session reader deadline))
      | .blocked =>
          if deadline ≤ now then some (registration.close net session (.ok .noResponse))
          else none
  | .finished _ => none

/-- When the registration goes on even if nothing happens. -/
def wake? (registration : Registration) : Option Instant :=
  match registration.phase with
  | .dialling dial _ => some dial.deadline
  | .sending _ _ deadline => deadline
  | .awaiting _ _ deadline => some deadline
  | _ => none

/-- The result of the registration, once it has ended. -/
def result? (registration : Registration) :
    Option (Except RegistrationError RegistrationOutcome) :=
  match registration.phase with
  | .finished result => some result
  | _ => none

end Registration

end NodeHealth
