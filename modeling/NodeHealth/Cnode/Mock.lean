import NodeHealth.Cnode.Client

/-!
# A cnode server for tests

The server side of the cnode protocol: accept a client, expect that it announces the right
node type, send it requests with pauses between them, and insist on the right reply to each.
`MockRun` serves one session or one after the other.
-/

namespace NodeHealth

/-- Why a session with a client failed. -/
inductive MockError
  | connection (error : ConnectionError)
  | encode (error : WireError)
  | wrongNodeType (found : Option UInt64)
  | wrongStatus (found : Option UInt64)
  deriving DecidableEq, Repr

/-- The wording of a number that may be missing. -/
def optionText : Option UInt64 → String
  | some number => "Some(" ++ toString number.toNat ++ ")"
  | none => "None"

/-- The wording of an error of a session. -/
def MockError.message : MockError → String
  | connection error => "Connection error: " ++ error.message
  | encode error => "Encoding failed: " ++ error.message
  | wrongNodeType found => "Wrong node type " ++ optionText found ++ ", expected 13 (AMF)"
  | wrongStatus found => "Wrong status " ++ optionText found ++ ", expected 1 (SERVING)"

/-- Why serving a client failed: it could not be accepted, or the session with it failed. -/
inductive ServeError
  | accept (failure : IoFailure)
  | session (error : MockError)
  deriving DecidableEq, Repr

/-- The wording of an error of serving a client. -/
def ServeError.message : ServeError → String
  | accept failure => "Accept failed: " ++ failure.text
  | session error => error.message

/-- What a session is made of. -/
structure MockOptions where
  /-- Pause between requests, in milliseconds. -/
  intervalMs : Nat := 2000
  /-- Number of requests; with 0 the session goes on until the client hangs up. -/
  count : Nat := 3
  /-- Serve another client after each session. -/
  keepAccepting : Bool := false
  /-- Deadline of every read and write, in milliseconds. -/
  timeoutMs : Nat := 10000
  deriving DecidableEq, Repr

/-- The largest number of requests. -/
def MockOptions.maxCount : Nat := 4294967295

/-- The number of requests after which a session ends by itself. -/
def MockOptions.limit (options : MockOptions) : Nat :=
  if options.count = 0 then maxCount else options.count

/-- Where a session stands; `done` counts the requests that were answered. -/
inductive MockPhase
  /-- It waits for a client. -/
  | accepting
  | identifying (session : Session) (reader : Frame.Reader) (deadline : Instant)
  | pausing (session : Session) (done : Nat) (wake : Instant)
  | requesting (session : Session) (sending : Session.Sending) (deadline : Option Instant)
      (done : Nat)
  | awaiting (session : Session) (reader : Frame.Reader) (deadline : Instant) (done : Nat)
  | finished (result : Except MockError Nat)
  /-- No client could be accepted. -/
  | turnedAway (failure : IoFailure)

/-- A session with one client. -/
structure MockSession where
  listener : ListenerId
  options : MockOptions
  phase : MockPhase := .accepting

namespace MockSession

/-- The session is in a phase. -/
def enter (mock : MockSession) (phase : MockPhase) : MockSession :=
  { mock with phase }

/-- The session ends. -/
def finish (mock : MockSession) (net : Net) (session : Session)
    (result : Except MockError Nat) : Net × MockSession :=
  (session.close net, mock.enter (.finished result))

/-- Begin with a client that was accepted. -/
def greet (mock : MockSession) (now : Instant) (link : LinkId) : MockSession :=
  let session : Session :=
    { link, side := .acceptor, framing := .fixed32, limit := CnodeClient.maxRequestLength
      sendTimeoutMs := some mock.options.timeoutMs }
  mock.enter (.identifying session session.reader (now + mock.options.timeoutMs))

/-- Go on behind an attempt to accept a client. -/
def accepted (mock : MockSession) (now : Instant) : Except IoCause LinkId → MockSession
  | .ok link => mock.greet now link
  | .error cause => mock.enter (.turnedAway (.ofSystem cause))

/-- Begin to send a request. -/
def request (mock : MockSession) (now : Instant) (net : Net) (session : Session) (done : Nat) :
    Net × MockSession :=
  match ({} : HealthRequest).encode with
  | .error error => mock.finish net session (.error (.encode error))
  | .ok payload =>
      match session.prepare payload with
      | (.ok sending, session) =>
          (net, mock.enter (.requesting session sending (session.sendDeadline now) done))
      | (.error error, session) => mock.finish net session (.error (.connection error))

/-- Go on after `done` requests: end, pause, or send the first request. -/
def proceed (mock : MockSession) (now : Instant) (net : Net) (session : Session) (done : Nat) :
    Net × MockSession :=
  if mock.options.limit ≤ done then mock.finish net session (.ok done)
  else if 0 < done then
    (net, mock.enter (.pausing session done (now + mock.options.intervalMs)))
  else mock.request now net session done

/-- A failure after `done` requests. Without a set number of requests a client ends the
session by hanging up. -/
def resultOfFailure (options : MockOptions) (done : Nat) (error : ConnectionError) :
    Except MockError Nat :=
  let hungUp : Bool := match error with
    | .closed => true
    | .io _ => true
    | _ => false
  if options.count = 0 ∧ 0 < done ∧ hungUp then .ok done else .error (.connection error)

/-- The session fails after `done` requests. -/
def fail (mock : MockSession) (net : Net) (session : Session) (done : Nat)
    (error : ConnectionError) : Net × MockSession :=
  mock.finish net session (resultOfFailure mock.options done error)

/-- Check what the client announces. -/
def checkIdentity (mock : MockSession) (now : Instant) (net : Net) (session : Session)
    (payload : Bytes) : Net × MockSession :=
  let nodeType := (Identity.decode? payload).map Identity.nodeType
  if nodeType = some NodeType.amf then mock.proceed now net session 0
  else mock.finish net session (.error (.wrongNodeType nodeType))

/-- Check a reply. -/
def checkReply (mock : MockSession) (now : Instant) (net : Net) (session : Session)
    (done : Nat) (payload : Bytes) : Net × MockSession :=
  let status := HealthResponse.statusNumber? payload
  if status.bind ServingStatus.ofNumber? = some .serving then
    mock.proceed now net session (done + 1)
  else mock.finish net session (.error (.wrongStatus status))

/-- Run the session up to the next point at which it may have to wait; `none` if it waits or
has ended. -/
def step (mock : MockSession) (now : Instant) (net : Net) : Option (Net × MockSession) :=
  match mock.phase with
  | .accepting =>
      (net.reception? mock.listener).map fun (net, result) => (net, mock.accepted now result)
  | .identifying session reader deadline =>
      match session.receive net reader with
      | .done (net, session, .ok payload) => some (mock.checkIdentity now net session payload)
      | .done (net, session, .error error) =>
          some (mock.finish net session (.error (.connection error)))
      | .advanced (net, reader) => some (net, mock.enter (.identifying session reader deadline))
      | .blocked =>
          if deadline ≤ now then
            some (mock.finish net session (.error (.connection .timeout)))
          else none
  | .pausing session done wake =>
      if wake ≤ now then some (mock.request now net session done) else none
  | .requesting session sending deadline done =>
      match session.deliver net sending with
      | .done (net, session, .ok ()) =>
          some (net, mock.enter
            (.awaiting session session.reader (now + mock.options.timeoutMs) done))
      | .done (net, session, .error error) => some (mock.fail net session done error)
      | .advanced (net, sending) =>
          some (net, mock.enter (.requesting session sending deadline done))
      | .blocked =>
          if deadline.any (· ≤ now) then some (mock.fail net session done .timeout) else none
  | .awaiting session reader deadline done =>
      match session.receive net reader with
      | .done (net, session, .ok payload) => some (mock.checkReply now net session done payload)
      | .done (net, session, .error error) => some (mock.fail net session done error)
      | .advanced (net, reader) =>
          some (net, mock.enter (.awaiting session reader deadline done))
      | .blocked =>
          if deadline ≤ now then some (mock.fail net session done .timeout) else none
  | .finished _ => none
  | .turnedAway _ => none

/-- When the session goes on even if nothing happens. -/
def wake? (mock : MockSession) : Option Instant :=
  match mock.phase with
  | .identifying _ _ deadline => some deadline
  | .pausing _ _ wake => some wake
  | .requesting _ _ deadline _ => deadline
  | .awaiting _ _ deadline _ => some deadline
  | _ => none

/-- The result of the session, once it has ended: the number of requests that were
answered. -/
def result? (mock : MockSession) : Option (Except ServeError Nat) :=
  match mock.phase with
  | .finished result => some (result.mapError .session)
  | .turnedAway failure => some (.error (.accept failure))
  | _ => none

end MockSession

/-- Sessions one after the other. -/
structure MockRun where
  session : MockSession
  /-- Whether all sessions so far have passed. -/
  allPassed : Bool := true
  /-- Whether the last session has ended. -/
  isOver : Bool := false

namespace MockRun

/-- Run the sessions up to the next point at which they may have to wait. -/
def step (run : MockRun) (now : Instant) (net : Net) : Option (Net × MockRun) :=
  if run.isOver then none
  else
    match run.session.result? with
    | none => (run.session.step now net).map fun (net, session) => (net, { run with session })
    | some result =>
        let run := { run with allPassed := run.allPassed && result.isOk }
        if run.session.options.keepAccepting then
          some (net, { run with session := { run.session with phase := .accepting } })
        else some (net, { run with isOver := true })

/-- When the sessions go on even if nothing happens. -/
def wake? (run : MockRun) : Option Instant :=
  run.session.wake?

/-- Whether all sessions have passed, once the last one has ended. -/
def result? (run : MockRun) : Option Bool :=
  if run.isOver then some run.allPassed else none

end MockRun

end NodeHealth
