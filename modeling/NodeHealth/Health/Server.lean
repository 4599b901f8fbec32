import NodeHealth.Config.Basic
import NodeHealth.Message.Health
import NodeHealth.Net.Dial

/-!
# The health server

The server listens, takes connections one at a time in the order in which they came, waits
a while for a request whose content does not matter, answers that the node serves, and
closes the connection. `step` is the loop that does this in the background: it runs from one
point at which it may have to wait to the next.
-/

namespace NodeHealth

/-- Why the health server does not start. -/
inductive HealthError
  | alreadyRunning
  | config (error : ConfigError)
  /-- Nobody can listen at the address. -/
  | bindFailed (address : SocketAddress) (cause : IoCause)
  deriving DecidableEq, Repr

/-- The wording of an error of the health server. -/
def HealthError.message : HealthError → String
  | alreadyRunning => "Server already running"
  | config error => "Config error: " ++ error.message
  | bindFailed address cause =>
      "Bind failed: Failed to bind to " ++ address.toText ++ ": " ++ cause.systemText

/-- Where the loop of the health server stands. -/
inductive AcceptPhase
  /-- It has not run yet. -/
  | starting
  /-- It waits for a connection or for the signal to stop. -/
  | accepting
  /-- It waits for a request until the deadline. -/
  | reading (session : Session) (reader : Frame.Reader) (deadline : Instant)
  | replying (session : Session) (sending : Session.Sending)
  deriving DecidableEq, Repr

/-- The loop of the health server. -/
structure AcceptLoop where
  listener : ListenerId
  phase : AcceptPhase
  deriving DecidableEq, Repr

/-- The signal by which a server tells its loop to stop. -/
inductive StopSignal
  /-- There is no loop to tell. -/
  | absent
  | ready
  /-- It was given. A connection that waits at that very moment may still be taken first,
  or not. -/
  | given (takesOne : Bool)
  deriving DecidableEq, Repr

/-- The health server. -/
structure HealthServer where
  config : ServerConfig
  /-- Cleared to end the loop. -/
  running : Bool := false
  /-- The address at which the server listens. -/
  address : Option SocketAddress := none
  signal : StopSignal := .absent
  /-- The server holds on to its loop. -/
  attached : Bool := false
  /-- The loop, as long as there is one. -/
  loop : Option AcceptLoop := none
  /-- Why accepting failed since the server was opened, each time that it was reported, the last
  one first. -/
  reported : List IoCause := []
  deriving DecidableEq, Repr

/-- Whether a failure passes by itself, so that it is not reported. -/
def IoCause.isTransient : IoCause → Bool
  | interrupted => true
  | wouldBlock => true
  | _ => false

namespace HealthServer

/-- Longest request that is read. -/
def maxRequestLength : Nat := 64

/-- The name of this part of the program. -/
def name : String := "health server"

/-- Whether the server listens. -/
def isListening (server : HealthServer) : Bool :=
  server.attached && server.running

/-! ## Starting and stopping -/

/-- Listen, and begin to take connections. A server that is not enabled does neither. -/
def start (server : HealthServer) (net : Net) :
    Except HealthError Unit × Net × HealthServer :=
  if server.attached then (.error .alreadyRunning, net, server)
  else if ¬server.config.enable then (.ok (), net, server)
  else
    match server.config.bindAddress with
    | .error error => (.error (.config error), net, server)
    | .ok address =>
        match net.listen address with
        | .error cause => (.error (.bindFailed address cause), net, server)
        | .ok (listener, net) =>
            (.ok (), net,
              { server with
                running := true
                address := net.addressOf? listener
                signal := .ready
                attached := true
                loop := some ⟨listener, .starting⟩ })

/-- Tell the loop to stop; the server is closed once there is no loop left. -/
def requestStop (server : HealthServer) (takesOne : Bool) : HealthServer :=
  if server.attached then
    { server with running := false, signal := .given takesOne, attached := false }
  else server

/-- Whether the server waits for its loop to end. -/
def isStopping (server : HealthServer) : Bool :=
  !server.attached && server.loop.isSome

/-- The server after its loop has ended. -/
def finishStop (server : HealthServer) : HealthServer :=
  if server.attached then server
  else { server with address := none, signal := .absent, reported := [] }

/-- The loop is left alone, with nobody to tell it to stop; it stops when it looks. -/
def forsake (server : HealthServer) (takesOne : Bool) : HealthServer :=
  { server with signal := .given takesOne, attached := false }

/-! ## The loop -/

/-- The loop ends; whoever still waits to be accepted is turned away. -/
def finishLoop (server : HealthServer) (net : Net) (loop : AcceptLoop) : Net × HealthServer :=
  (net.closeListener loop.listener, { server with loop := none })

/-- The loop is in a phase. -/
def enter (server : HealthServer) (loop : AcceptLoop) (phase : AcceptPhase) : HealthServer :=
  { server with loop := some { loop with phase } }

/-- Begin the loop anew, or end it if the flag is cleared. -/
def resume (server : HealthServer) (net : Net) (loop : AcceptLoop) : Net × HealthServer :=
  if server.running then (net, server.enter loop .accepting) else server.finishLoop net loop

/-- Begin to wait for a request on a connection that was taken. -/
def greet (server : HealthServer) (now : Instant) (loop : AcceptLoop) (link : LinkId) :
    HealthServer :=
  let session : Session :=
    { link, side := .acceptor, framing := .varint, limit := maxRequestLength }
  server.enter loop
    (.reading session session.reader (now + server.config.readTimeoutMs.toNat))

/-- Begin to answer. -/
def reply (server : HealthServer) (net : Net) (loop : AcceptLoop) (session : Session) :
    Net × HealthServer :=
  match session.prepare HealthResponse.serving.encode with
  | (.ok sending, session) => (net, server.enter loop (.replying session sending))
  | (.error _, session) => server.resume (session.close net) loop

/-- Report that accepting failed. -/
def report (server : HealthServer) (cause : IoCause) : HealthServer :=
  { server with reported := cause :: server.reported }

/-- Go on behind an attempt to accept. A failure ends the loop if the flag is cleared, and is
reported unless it passes by itself. -/
def accepted (server : HealthServer) (now : Instant) (net : Net) (loop : AcceptLoop) :
    Except IoCause LinkId → Net × HealthServer
  | .ok link => (net, server.greet now loop link)
  | .error cause =>
      if ¬server.running then server.finishLoop net loop
      else if cause.isTransient then (net, server)
      else (net, server.report cause)

/-- Take a connection, or end the loop if it is told to stop. -/
def acceptOrStop (server : HealthServer) (now : Instant) (net : Net) (loop : AcceptLoop) :
    Option (Net × HealthServer) :=
  match server.signal with
  | .given false => some (server.finishLoop net loop)
  | .given true =>
      match net.reception? loop.listener with
      | some (net, result) => some (server.accepted now net loop result)
      | none => some (server.finishLoop net loop)
  | _ =>
      (net.reception? loop.listener).map fun (net, result) =>
        server.accepted now net loop result

/-- Run the loop up to the next point at which it may have to wait; `none` if it waits. -/
def step (server : HealthServer) (now : Instant) (net : Net) : Option (Net × HealthServer) :=
  match server.loop with
  | none => none
  | some loop =>
      match loop.phase with
      | .starting => some (server.resume net loop)
      | .accepting => server.acceptOrStop now net loop
      | .reading session reader deadline =>
          match session.receive net reader with
          | .done (net, session, _) => some (server.reply net loop session)
          | .advanced (net, reader) =>
              some (net, server.enter loop (.reading session reader deadline))
          | .blocked =>
              if deadline ≤ now then some (server.reply net loop session) else none
      | .replying session sending =>
          match session.deliver net sending with
          | .done (net, session, _) => some (server.resume (session.close net) loop)
          | .advanced (net, sending) => some (net, server.enter loop (.replying session sending))
          | .blocked => none

/-- When the loop goes on even if nothing happens. -/
def wake? (server : HealthServer) : Option Instant :=
  match server.loop with
  | some { phase := .reading _ _ deadline, .. } => some deadline
  | _ => none

end HealthServer

end NodeHealth
