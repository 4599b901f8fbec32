import NodeHealth.Bench.Script

/-!
# The test bench

A bench holds a world, a listener and connections that a script acts on, and at most one
each of the program's parts.
-/

namespace NodeHealth

/-- A bench. -/
structure Bench where
  world : World := {}
  listener : Option ListenerId := none
  peers : List (String × Peer) := []
  session : Option Session := none
  health : Option TaskId := none
  /-- The last address at which the health server listened. -/
  healthAddress : Option SocketAddress := none
  cnode : Option TaskId := none
  group : Option TaskId := none
  registrar : Option Registrar := none
  mock : Option ListenerId := none
  call : Option (TaskId × CallKind) := none

namespace Bench

/-- The address of the scripted listener. -/
def listenerAddress : SocketAddress := ⟨.loopback, 40000⟩

/-- After so many milliseconds a step is taken to wait for ever. -/
def patience : Nat := 36000000

/-- How many unread bytes a peer holds if the link is narrow. -/
def narrowRoom : Nat := 65536

/-! ## Parts of a bench -/

/-- Change the network. -/
def changeNet (bench : Bench) (change : Net → Net) : Bench :=
  { bench with world := bench.world.changeNet change }

/-- Give a name to the end of a connection. -/
def namePeer (bench : Bench) (name : String) (peer : Peer) : Bench :=
  { bench with peers := (name, peer) :: bench.peers }

/-- The end of a connection by its name, if it is open. -/
def openPeer? (bench : Bench) (name : String) : Option Peer :=
  (bench.peers.lookup name).filter fun peer =>
    ((bench.world.net.link peer.link).endAt peer.side).held

/-- Let something happen at the end of a connection. -/
def atPeer (bench : Bench) (name : String) (event : LinkId → Side → Net.Event) : Bench :=
  match bench.openPeer? name with
  | some peer => bench.changeNet (·.apply (event peer.link peer.side))
  | none => bench

/-- Begin a task. -/
def spawn (bench : Bench) (task : Task) : TaskId × Bench :=
  let (id, world) := bench.world.spawn task
  (id, { bench with world })

/-- Replace a task. -/
def setTask (bench : Bench) (id : TaskId) (task : Task) : Bench :=
  { bench with world := bench.world.setTask id task }

/-- The health server and its number. -/
def health? (bench : Bench) : Option (TaskId × HealthServer) := do
  let id ← bench.health
  match bench.world.task? id with
  | some (.health server) => some (id, server)
  | _ => none

/-- The cnode client and its number. -/
def cnode? (bench : Bench) : Option (TaskId × CnodeClient) := do
  let id ← bench.cnode
  match bench.world.task? id with
  | some (.cnode client) => some (id, client)
  | _ => none

/-- The group and its number. -/
def group? (bench : Bench) : Option (TaskId × SidecarGroup) := do
  let id ← bench.group
  match bench.world.task? id with
  | some (.group members) => some (id, members)
  | _ => none

/-- The address that a target stands for; a health server is looked for on the machine
itself, wherever it listens. -/
def address? (bench : Bench) : Target → Option SocketAddress
  | .listener => some listenerAddress
  | .health => bench.healthAddress.map fun address => ⟨.loopback, address.port⟩
  | .mock => bench.mock.bind bench.world.net.addressOf?

/-- How a bench reports why serving a client failed. Its listeners never fail. -/
def reported : ServeError → MockError
  | .accept failure => .connection (.io failure)
  | .session error => error

/-- The result of a background call, once it has ended. -/
def callResult? : Task → Option CallResult
  | .registration registration => registration.result?.map .registration
  | .probe probe => probe.result?.map .probe
  | .mockSession session =>
      session.result?.map fun result => .mockSession (result.mapError reported)
  | .mockRun run => run.result?.map .mockRun
  | _ => none

/-- Begin a background call. -/
def beginCall (bench : Bench) (task : Task) (kind : CallKind) : Bench :=
  let (id, bench) := bench.spawn task
  { bench with call := some (id, kind) }

end Bench

end NodeHealth
