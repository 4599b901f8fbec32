import NodeHealth.Backoff
import NodeHealth.Config.Basic
import NodeHealth.Message.Health
import NodeHealth.Message.NodeType
import NodeHealth.Net.Dial

/-!
# The cnode client

The client dials the cnode server, announces its node type, and answers every request on the
connection with the same reply. A connection that fails or ends is dialled again after a
delay that doubles. Stopping it is cooperative: the client looks at its flag whenever it
begins an attempt, waits for a request, or has slept for a second. `step` is the loop that
does all this in the background: it runs from one point at which it may have to wait to the
next.
-/

namespace NodeHealth

/-- What the client is doing, as it is shown to others. -/
inductive ClientState
  | stopped
  | connecting
  | identifying
  | serving
  deriving DecidableEq, Repr

/-- The name of a client state. -/
def ClientState.name : ClientState → String
  | stopped => "Stopped"
  | connecting => "Connecting"
  | identifying => "Identifying"
  | serving => "Serving"

/-- Why the client does not start. -/
inductive ClientError
  | alreadyRunning
  deriving DecidableEq, Repr

/-- The wording of an error of the client. -/
def ClientError.message : ClientError → String
  | alreadyRunning => "Client already running"

/-- Where the loop of the client stands. -/
inductive ClientPhase
  /-- It has not run yet. -/
  | starting
  | dialling (dial : Dial)
  | identifying (session : Session) (sending : Session.Sending) (deadline : Option Instant)
  /-- It waits for a request until the deadline, and then looks at its flag. -/
  | polling (session : Session) (deadline : Instant)
  | receiving (session : Session) (reader : Frame.Reader)
  | replying (session : Session) (sending : Session.Sending) (deadline : Option Instant)
  /-- It sleeps before the next attempt, for so many seconds, of which the first is over at
  an instant. -/
  | resting (seconds : Nat) (wake : Instant)
  deriving DecidableEq, Repr

/-- The loop of the client: the delays to come, and where it stands. -/
structure ClientLoop where
  backoff : Backoff
  phase : ClientPhase
  deriving DecidableEq, Repr

/-- The cnode client. -/
structure CnodeClient where
  config : CnodeConfig
  /-- Cleared to end the loop. -/
  running : Bool := false
  state : ClientState := .stopped
  /-- The client holds on to its loop. -/
  attached : Bool := false
  /-- The loop, as long as there is one. -/
  loop : Option ClientLoop := none
  deriving DecidableEq, Repr

namespace CnodeClient

/-- Longest request that is accepted. -/
def maxRequestLength : Nat := 256

/-- Length of one tick of sleep between attempts, in milliseconds. -/
def tickMs : Nat := 1000

/-- The name of this part of the program. -/
def name : String := "cnode client"

/-- Whether the client runs. -/
def isRunning (client : CnodeClient) : Bool :=
  client.attached && client.running

/-! ## Starting and stopping -/

/-- Begin the loop. A client that is not enabled or has no server address does nothing. -/
def start (client : CnodeClient) : Except ClientError Unit × CnodeClient :=
  if client.attached then (.error .alreadyRunning, client)
  else if client.config.target?.isNone then (.ok (), client)
  else
    let backoff :=
      Backoff.ofLimits client.config.initialBackoffSecs client.config.maxBackoffSecs
    (.ok (), { client with running := true, attached := true, loop := some ⟨backoff, .starting⟩ })

/-- Clear the flag; the client is stopped once there is no loop left. -/
def requestStop (client : CnodeClient) : CnodeClient :=
  if client.attached then { client with running := false, attached := false } else client

/-- Whether the client waits for its loop to end. -/
def isStopping (client : CnodeClient) : Bool :=
  !client.attached && client.loop.isSome

/-! ## The loop -/

/-- The loop ends. -/
def finishLoop (client : CnodeClient) : CnodeClient :=
  { client with state := .stopped, loop := none }

/-- The loop is in a phase. -/
def enter (client : CnodeClient) (loop : ClientLoop) (phase : ClientPhase) : CnodeClient :=
  { client with loop := some { loop with phase } }

/-- An attempt or a session has ended: sleep, unless the flag is cleared. -/
def retreat (client : CnodeClient) (now : Instant) (loop : ClientLoop) : CnodeClient :=
  if client.running then
    { client with state := .connecting }.enter loop
      (.resting loop.backoff.current.toNat (now + tickMs))
  else client.finishLoop

/-- A session ends. -/
def hangUp (client : CnodeClient) (now : Instant) (net : Net) (loop : ClientLoop)
    (session : Session) : Net × CnodeClient :=
  (session.close net, client.retreat now loop)

/-- Begin an attempt, unless the flag is cleared. -/
def attempt (client : CnodeClient) (now : Instant) (net : Net) (loop : ClientLoop) :
    Net × CnodeClient :=
  if ¬client.running then (net, client.finishLoop)
  else
    match client.config.target? with
    | none => (net, client.finishLoop)
    | some (host, port) =>
        let (dial, net) :=
          Dial.start net host port (now + client.config.connectTimeoutMs.toNat)
        (net, { client with state := .connecting }.enter loop (.dialling dial))

/-- Begin to announce the node type on a new connection. -/
def identify (client : CnodeClient) (now : Instant) (net : Net) (loop : ClientLoop)
    (link : LinkId) : Net × CnodeClient :=
  let session : Session :=
    { link, side := .dialler, framing := .fixed32, limit := maxRequestLength
      sendTimeoutMs := some client.config.connectTimeoutMs.toNat }
  let client := { client with state := .identifying }
  match Identity.amf.encode with
  | .error _ => client.hangUp now net loop session
  | .ok payload =>
      match session.prepare payload with
      | (.ok sending, session) =>
          (net, client.enter loop (.identifying session sending (session.sendDeadline now)))
      | (.error _, session) => client.hangUp now net loop session

/-- Wait for a request, unless the flag is cleared. -/
def poll (client : CnodeClient) (now : Instant) (net : Net) (loop : ClientLoop)
    (session : Session) : Net × CnodeClient :=
  if client.running then
    (net, client.enter loop (.polling session (now + client.config.pollIntervalMs.toNat)))
  else client.hangUp now net loop session

/-- Begin to answer a request. -/
def reply (client : CnodeClient) (now : Instant) (net : Net) (loop : ClientLoop)
    (session : Session) : Net × CnodeClient :=
  match session.prepare HealthResponse.serving.encode with
  | (.ok sending, session) =>
      (net, client.enter loop (.replying session sending (session.sendDeadline now)))
  | (.error _, session) => client.hangUp now net loop session

/-- A second of sleep is over: sleep on, or begin the next attempt with a longer delay
behind it. -/
def tick (client : CnodeClient) (now : Instant) (net : Net) (loop : ClientLoop)
    (seconds : Nat) : Net × CnodeClient :=
  if client.running ∧ 1 < seconds then
    (net, client.enter loop (.resting (seconds - 1) (now + tickMs)))
  else client.attempt now net { loop with backoff := loop.backoff.advance }

/-- Whether a deadline has passed. -/
def isOver (deadline : Option Instant) (now : Instant) : Bool :=
  deadline.any (· ≤ now)

/-- Run the loop up to the next point at which it may have to wait; `none` if it waits. -/
def step (client : CnodeClient) (now : Instant) (net : Net) : Option (Net × CnodeClient) :=
  match client.loop with
  | none => none
  | some loop =>
      match loop.phase with
      | .starting => some (client.attempt now net loop)
      | .dialling dial =>
          match dial.outcome? now net with
          | some (net, .ok link) => some (client.identify now net loop link)
          | some (net, .error _) => some (net, client.retreat now loop)
          | none => none
      | .identifying session sending deadline =>
          match session.deliver net sending with
          | .done (net, session, .ok ()) =>
              some ({ client with state := .serving }.poll now net loop session)
          | .done (net, session, .error _) => some (client.hangUp now net loop session)
          | .advanced (net, sending) =>
              some (net, client.enter loop (.identifying session sending deadline))
          | .blocked =>
              if isOver deadline now then some (client.hangUp now net loop session) else none
      | .polling session deadline =>
          match session.readiness? net with
          | some (net, .ok .readable) =>
              some (net, client.enter loop (.receiving session session.reader))
          | some (net, .ok .idle) => some (client.poll now net loop session)
          | some (net, _) => some (client.hangUp now net loop session)
          | none => if deadline ≤ now then some (client.poll now net loop session) else none
      | .receiving session reader =>
          match session.receive net reader with
          | .done (net, session, .ok _) => some (client.reply now net loop session)
          | .done (net, session, .error _) => some (client.hangUp now net loop session)
          | .advanced (net, reader) =>
              some (net, client.enter loop (.receiving session reader))
          | .blocked => none
      | .replying session sending deadline =>
          match session.deliver net sending with
          | .done (net, session, .ok ()) => some (client.poll now net loop session)
          | .done (net, session, .error _) => some (client.hangUp now net loop session)
          | .advanced (net, sending) =>
              some (net, client.enter loop (.replying session sending deadline))
          | .blocked =>
              if isOver deadline now then some (client.hangUp now net loop session) else none
      | .resting seconds wake =>
          if wake ≤ now then some (client.tick now net loop seconds) else none

/-- When the loop goes on even if nothing happens. -/
def wake? (client : CnodeClient) : Option Instant :=
  match client.loop with
  | none => none
  | some loop =>
      match loop.phase with
      | .dialling dial => some dial.deadline
      | .identifying _ _ deadline => deadline
      | .polling _ deadline => some deadline
      | .replying _ _ deadline => deadline
      | .resting _ wake => some wake
      | _ => none

end CnodeClient

end NodeHealth
