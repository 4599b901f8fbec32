import NodeHealth.Session

/-!
# Dialling

An attempt to connect to a host that is given up at a deadline, whether the host is still
being looked up then or has not answered.
-/

namespace NodeHealth

/-- Virtual time, in milliseconds. -/
abbrev Instant := Nat

/-- The address of a host and a port, for a way to look up hosts that are not addresses. -/
def resolve (lookup : String → Except IoFailure (List IpAddress)) (host : String)
    (port : UInt16) : Except IoFailure SocketAddress :=
  match IpAddress.parse? host with
  | some ip => .ok ⟨ip, port⟩
  | none => firstAddress host port (lookup host)

/-- An attempt to connect, and when it is given up. -/
structure Dial where
  attempt : AttemptId
  deadline : Instant
  deriving DecidableEq, Repr

namespace Dial

/-- Begin to connect. -/
def start (net : Net) (host : String) (port : UInt16) (deadline : Instant) : Dial × Net :=
  let (attempt, net) := net.seek host port
  (⟨attempt, deadline⟩, net)

/-- The outcome of an attempt, once there is one: the connection, or why there is none. -/
def outcome? (dial : Dial) (now : Instant) (net : Net) :
    Option (Net × Except ConnectionError LinkId) :=
  match net.attempt dial.attempt with
  | .connected link => some (net, .ok link)
  | .failed cause => some (net, .error (.ofCause cause))
  | .unresolved failure => some (net, .error (.io failure))
  | .abandoned => some (net, .error .timeout)
  | .resolving _ _ | .waiting _ =>
      if dial.deadline ≤ now then some (net.abandon dial.attempt, .error .timeout) else none

end Dial

end NodeHealth
