import NodeHealth.Net.Dial
import NodeHealth.Session

/-!
# Calls of a session

Whoever uses a session asks it to receive a frame, to send one, or to wait until there is
something to receive. A request begins as a call, which goes on whenever something has
changed and is given up when its time is over.
-/

namespace NodeHealth.Session

/-- What is asked of a session. Times are in milliseconds. -/
inductive Request
  | receive (timeout : Option Nat)
  | send (payload : Bytes)
  | waitReadable (timeout : Nat)
  deriving DecidableEq, Repr

/-- A request that is being carried out, and when it is given up. -/
inductive Call
  | receive (reader : Frame.Reader) (deadline : Option Instant)
  | send (sending : Sending) (deadline : Option Instant)
  | waitReadable (deadline : Instant)
  deriving DecidableEq, Repr

/-- How a request ends. -/
inductive Answer
  | received (result : Except ConnectionError Bytes)
  | sent (result : Except ConnectionError Unit)
  | readiness (result : Except ConnectionError Readiness)

/-- A request that fails. -/
def Request.failed (request : Request) (error : ConnectionError) : Answer :=
  match request with
  | receive _ => .received (.error error)
  | send _ => .sent (.error error)
  | waitReadable _ => .readiness (.error error)

/-- Begin a request; a payload that cannot be framed is refused at once. -/
def call (session : Session) (now : Instant) : Request → Except Answer Call × Session
  | .receive timeout => (.ok (.receive session.reader (timeout.map (now + ·))), session)
  | .send payload =>
      match session.prepare payload with
      | (.ok sending, session) => (.ok (.send sending (session.sendDeadline now)), session)
      | (.error error, session) => (.error (.sent (.error error)), session)
  | .waitReadable timeout => (.ok (.waitReadable (now + timeout)), session)

/-- When a call is given up. -/
def Call.deadline? : Call → Option Instant
  | receive _ deadline => deadline
  | send _ deadline => deadline
  | waitReadable deadline => some deadline

/-- How a call ends when its time is over. -/
def Call.expired : Call → Answer
  | receive _ _ => .received (.error .timeout)
  | send _ _ => .sent (.error .timeout)
  | waitReadable _ => .readiness (.ok .idle)

/-- Go on with a call, whether or not its time is over. -/
def proceed (session : Session) (net : Net) :
    Call → Poll (Net × Call) (Net × Session × Answer)
  | .receive reader deadline =>
      match session.receive net reader with
      | .done (net, session, result) => .done (net, session, .received result)
      | .advanced (net, reader) => .advanced (net, .receive reader deadline)
      | .blocked => .blocked
  | .send sending deadline =>
      match session.deliver net sending with
      | .done (net, session, result) => .done (net, session, .sent result)
      | .advanced (net, sending) => .advanced (net, .send sending deadline)
      | .blocked => .blocked
  | .waitReadable _ =>
      match session.readiness? net with
      | some (net, result) => .done (net, session, .readiness result)
      | none => .blocked

/-- Go on with a call, or give it up if it can go no further and its time is over. -/
def poll (session : Session) (now : Instant) (net : Net) (call : Call) :
    Poll (Net × Call) (Net × Session × Answer) :=
  match session.proceed net call with
  | .blocked =>
      if call.deadline?.any (· ≤ now) then .done (net, session, call.expired) else .blocked
  | progress => progress

end NodeHealth.Session
