import NodeHealth.Session.Call
import NodeHealth.World

/-!
# Scripts for a test bench

The parts of the program are tried against peers that follow a script. A script is a list of
steps, each of which has an answer; a step that has to wait is described by a `Wait`.
-/

namespace NodeHealth

/-- The end of a connection that a script holds. -/
structure Peer where
  link : LinkId
  side : Side
  deriving DecidableEq, Repr

/-- How the scripted listener meets attempts to connect. -/
inductive ListenMode
  | accepts
  | refuses
  | ignores
  deriving DecidableEq, Repr

/-- What a peer connects to, or a probe probes. -/
inductive Target
  | listener
  | health
  | mock
  deriving DecidableEq, Repr

/-- How reading at a peer ended. -/
inductive ReadEnd
  | full
  | closed
  | timeout
  deriving DecidableEq, Repr

/-- What a background call tells when it is asked for its result. -/
inductive CallKind
  | reports
  /-- Only that it has ended. -/
  | detached
  deriving DecidableEq, Repr

/-- A member of a group that is to be made. -/
inductive MemberConfig
  | health (config : ServerConfig)
  | cnode (config : CnodeConfig)

/-- A step of a script. Times are in milliseconds, `within` limits a wait. -/
inductive BenchStep
  | listen (mode : ListenMode)
  | accept (peer : String) (within : Nat)
  | connect (target : Target) (peer : String)
  | write (peer : String) (bytes : Bytes)
  | shutdown (peer : String)
  | hangUp (peer : String)
  | reset (peer : String)
  | read (peer : String) (count : Nat) (within : Nat)
  | drain (peer : String) (within : Nat)
  | sleep (duration : Nat)
  | result (within : Nat)
  | session (peer : String) (framing : Framing) (limit : Nat) (sendTimeoutMs : Option Nat)
      (narrow : Bool)
  | receive
  | receiveWithin (timeout : Nat)
  | send (payload : Bytes)
  | waitReadable (timeout : Nat)
  | stats
  | closeSession
  | dial (timeout : Nat)
  | resolve (host : String) (port : UInt16)
  | makeHealth (config : ServerConfig)
  | openHealth
  | closeHealth
  | healthStatus
  | makeCnode (config : CnodeConfig) (target : Target)
  | startCnode
  | stopCnode
  | cnodeState
  | makeGroup (members : List MemberConfig)
  | startAll
  | stopAll
  | members
  | makeRegistrar (config : ServerConfig)
  | register
  | sendRegistration
  | probe (target : Target) (timeout : Nat)
  | makeMock (atListener : Bool)
  | serveMock (options : MockOptions)
  | runMock (options : MockOptions)

/-- The result of a background call. -/
inductive CallResult
  | registration (result : Except RegistrationError RegistrationOutcome)
  | probe (result : Except ConnectionError ProbeReport)
  | mockSession (result : Except MockError Nat)
  | mockRun (passed : Bool)
  | finished

/-- What a step answers. -/
inductive BenchAnswer
  | ok
  /-- The step would wait for ever. -/
  | hang
  | accepted (accepted : Bool)
  | connected (connected : Bool)
  | bytes (bytes : Bytes) (ending : ReadEnd)
  | pending
  | result (result : CallResult)
  | payload (result : Except ConnectionError Bytes)
  | sent (result : Except ConnectionError Unit)
  | readiness (result : Except ConnectionError Readiness)
  | stats (stats : SessionStats)
  | dialled (result : Except ConnectionError Unit)
  | resolved (result : Except IoFailure SocketAddress)
  | opened (result : Except HealthError Unit)
  | healthStatus (listening : Bool) (address : Option SocketAddress) (name : String)
  | started (result : Except ClientError Unit)
  | cnodeState (state : ClientState) (running : Bool)
  | groupStarted (failure : Option SidecarError)
  | members (members : List (String × Bool))
  | request (request : RegisterRequest)
  | spawned (spawned : Bool)
  | bound (result : Except IoCause Unit)

/-- The answer of a session as the answer of a step. -/
def BenchAnswer.ofSession : Session.Answer → BenchAnswer
  | .received outcome => .payload outcome
  | .sent outcome => .sent outcome
  | .readiness outcome => .readiness outcome

/-- What a step waits for. -/
inductive Wait
  | sleep (wake : Instant)
  | accept (peer : String) (deadline : Instant)
  | read (peer : Peer) (missing : Option Nat) (got : Bytes) (deadline : Instant)
  | result (deadline : Instant)
  | call (request : Session.Request) (call : Session.Call)
  | dial (dial : Dial)
  | closeHealth
  | stopCnode
  | group (answer : BenchAnswer)

end NodeHealth
