import NodeHealth.Cnode.Client
import NodeHealth.Health.Server

/-!
# Sidecars

A health server or a cnode client, started and stopped in the same way, and groups of them.
A group is started in order; if one fails, those before it are stopped again, the last one
first, before the error is reported. A group is stopped from its end, one after the other.
-/

namespace NodeHealth

/-- A part of the program that runs until it is stopped. -/
inductive Sidecar
  | health (server : HealthServer)
  | cnode (client : CnodeClient)
  deriving DecidableEq, Repr

/-- Why a sidecar does not start. -/
inductive SidecarError
  | health (error : HealthError)
  | cnode (error : ClientError)
  deriving DecidableEq, Repr

/-- The wording of an error of a sidecar. -/
def SidecarError.message : SidecarError → String
  | health error => "Health server: " ++ error.message
  | cnode error => "Cnode client: " ++ error.message

namespace Sidecar

/-- The name of a sidecar. -/
def name : Sidecar → String
  | health _ => HealthServer.name
  | cnode _ => CnodeClient.name

/-- Whether a sidecar runs. -/
def isRunning : Sidecar → Bool
  | health server => server.isListening
  | cnode client => client.isRunning

/-- The address at which a sidecar listens, if it does. -/
def address? : Sidecar → Option SocketAddress
  | health server => server.address
  | cnode _ => none

/-- Start a sidecar. -/
def start (sidecar : Sidecar) (net : Net) : Except SidecarError Unit × Net × Sidecar :=
  match sidecar with
  | health server =>
      let (result, net, server) := server.start net
      (result.mapError .health, net, .health server)
  | cnode client =>
      let (result, client) := client.start
      (result.mapError .cnode, net, .cnode client)

/-- Tell a sidecar to stop. A connection that waits at a health server at that very moment may
still be taken first, or not. -/
def requestStop (takesOne : Bool) : Sidecar → Sidecar
  | health server => .health (server.requestStop takesOne)
  | cnode client => .cnode client.requestStop

/-- Whether a sidecar was told to stop and has not stopped yet. -/
def isStopping : Sidecar → Bool
  | health server => server.isStopping
  | cnode client => client.isStopping

/-- A sidecar that has stopped. -/
def finishStop : Sidecar → Sidecar
  | health server => .health server.finishStop
  | cnode client => .cnode client

/-- A sidecar is left alone, with nobody to stop it. -/
def forsake (takesOne : Bool) : Sidecar → Sidecar
  | health server => .health (server.forsake takesOne)
  | cnode client => .cnode client

/-- Run a sidecar up to the next point at which it may have to wait; `none` if it waits. -/
def step (sidecar : Sidecar) (now : Instant) (net : Net) : Option (Net × Sidecar) :=
  match sidecar with
  | health server => (server.step now net).map fun (net, server) => (net, .health server)
  | cnode client => (client.step now net).map fun (net, client) => (net, .cnode client)

/-- When a sidecar goes on even if nothing happens. -/
def wake? : Sidecar → Option Instant
  | health server => server.wake?
  | cnode client => client.wake?

end Sidecar

/-- A call on a member of a group. -/
inductive LifecycleCall
  | start (index : Nat)
  | stop (index : Nat)
  deriving DecidableEq, Repr

/-- The earlier of two instants, of which either may be missing. -/
def earliest : Option Instant → Option Instant → Option Instant
  | some a, some b => some (min a b)
  | some a, none => some a
  | none, b => b

/-- Sidecars that are started and stopped together. -/
structure SidecarGroup where
  members : List Sidecar := []
  /-- The members that are still to be stopped, in this order. -/
  toStop : List Nat := []
  /-- The first of them was told so. -/
  told : Bool := false
  /-- All calls on members, in the order in which they were made. -/
  calls : List LifecycleCall := []
  deriving DecidableEq, Repr

namespace SidecarGroup

/-- What became of starting members: the network and the members, the calls that were made, and
the position of the member that failed, with its error. -/
structure Launch where
  net : Net
  members : List Sidecar
  calls : List LifecycleCall := []
  failure : Option (Nat × SidecarError) := none

/-- Start members in order until one fails; `index` is the position of the first of them. -/
def startMembers (net : Net) (index : Nat) : List Sidecar → Launch
  | [] => { net, members := [] }
  | member :: rest =>
      match member.start net with
      | (.error error, net, member) =>
          { net
            members := member :: rest
            calls := [.start index]
            failure := some (index, error) }
      | (.ok (), net, member) =>
          let launch := startMembers net (index + 1) rest
          { launch with
            members := member :: launch.members
            calls := .start index :: launch.calls }

/-- Start the members in order. If one fails, those before it are still to be stopped. -/
def startAll (group : SidecarGroup) (net : Net) :
    Option SidecarError × Net × SidecarGroup :=
  let launch := startMembers net 0 group.members
  let group := { group with members := launch.members, calls := group.calls ++ launch.calls }
  match launch.failure with
  | none => (none, launch.net, group)
  | some (index, error) =>
      (some error, launch.net,
        { group with toStop := (List.range index).reverse, told := false })

/-- Begin to stop all members, the last one first. -/
def stopAll (group : SidecarGroup) : SidecarGroup :=
  { group with toStop := (List.range group.members.length).reverse, told := false }

/-- Whether a member is still to be stopped. -/
def isStopping (group : SidecarGroup) : Bool :=
  !group.toStop.isEmpty

/-- Go on stopping members: tell the next one, or leave one that has stopped. -/
def advanceStop (group : SidecarGroup) (takesOne : Bool) : Option SidecarGroup :=
  match group.toStop with
  | [] => none
  | index :: rest =>
      if ¬group.told then
        some { group with
          members := group.members.modify index (Sidecar.requestStop takesOne)
          told := true
          calls := group.calls ++ [.stop index] }
      else if (group.members[index]?).any Sidecar.isStopping then none
      else
        some { group with
          members := group.members.modify index Sidecar.finishStop
          toStop := rest
          told := false }

/-- Run the first member that can go on. -/
def stepMembers (now : Instant) (net : Net) : List Sidecar → Option (Net × List Sidecar)
  | [] => none
  | member :: rest =>
      match member.step now net with
      | some (net, member) => some (net, member :: rest)
      | none => (stepMembers now net rest).map fun (net, rest) => (net, member :: rest)

/-- Run the group up to the next point at which it may have to wait; `none` if it waits. A member
that is told to stop may still take a connection first if it `takesOne`. -/
def step (group : SidecarGroup) (takesOne : Bool) (now : Instant) (net : Net) :
    Option (Net × SidecarGroup) :=
  match group.advanceStop takesOne with
  | some group => some (net, group)
  | none =>
      (stepMembers now net group.members).map fun (net, members) => (net, { group with members })

/-- When the group goes on even if nothing happens. -/
def wake? (group : SidecarGroup) : Option Instant :=
  group.members.foldr (fun member rest => earliest member.wake? rest) none

end SidecarGroup

end NodeHealth
