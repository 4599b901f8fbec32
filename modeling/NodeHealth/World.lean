import NodeHealth.Cnode.Mock
import NodeHealth.Health.Probe
import NodeHealth.Registration
import NodeHealth.Sidecar

/-!
# Running together

A `World` is a clock, a network and the tasks that run on it in the background. `settle` lets
everything happen that needs no time to pass; when nothing can, the clock jumps to the next
instant at which a task goes on by itself.
-/

namespace NodeHealth

/-- Something that runs in the background. -/
inductive Task
  | health (server : HealthServer)
  | cnode (client : CnodeClient)
  | group (group : SidecarGroup)
  | registration (registration : Registration)
  | probe (probe : Probe)
  | mockSession (session : MockSession)
  | mockRun (run : MockRun)

namespace Task

/-- Run a task up to the next point at which it may have to wait; `none` if it waits. -/
def step (task : Task) (now : Instant) (net : Net) : Option (Net × Task) :=
  match task with
  | health server => (server.step now net).map fun (net, server) => (net, health server)
  | cnode client => (client.step now net).map fun (net, client) => (net, cnode client)
  | group members =>
      -- Either choice is a run of the group; here a member that is told to stop takes nobody.
      (members.step false now net).map fun (net, members) => (net, group members)
  | registration r => (r.step now net).map fun (net, r) => (net, registration r)
  | probe p => (p.step now net).map fun (net, p) => (net, probe p)
  | mockSession session =>
      (session.step now net).map fun (net, session) => (net, mockSession session)
  | mockRun run => (run.step now net).map fun (net, run) => (net, mockRun run)

/-- When a task goes on even if nothing happens. -/
def wake? : Task → Option Instant
  | health server => server.wake?
  | cnode client => client.wake?
  | group members => members.wake?
  | registration r => r.wake?
  | probe p => p.wake?
  | mockSession session => session.wake?
  | mockRun run => run.wake?

end Task

/-- The number of a task. -/
abbrev TaskId := Nat

/-- The failure that the system reports for a host of which it knows nothing. -/
def IoFailure.unknownHost : IoFailure :=
  ⟨.other, "failed to lookup address information: Name or service not known"⟩

/-- A clock, a network and the tasks that run on it. -/
structure World where
  now : Instant := 0
  net : Net := {}
  tasks : List Task := []
  /-- How hosts that are not addresses are looked up; `none` if that is done elsewhere. -/
  lookup : Option (String → Except IoFailure (List IpAddress)) :=
    some fun _ => .error .unknownHost

namespace World

/-- A task by its number. -/
def task? (world : World) (id : TaskId) : Option Task :=
  world.tasks[id]?

/-- Begin a task. -/
def spawn (world : World) (task : Task) : TaskId × World :=
  (world.tasks.length, { world with tasks := world.tasks ++ [task] })

/-- Replace a task. -/
def setTask (world : World) (id : TaskId) (task : Task) : World :=
  { world with tasks := world.tasks.set id task }

/-- Change the network. -/
def changeNet (world : World) (change : Net → Net) : World :=
  { world with net := change world.net }

/-- Run the first of some tasks that can go on. -/
def stepTasks (now : Instant) (net : Net) : List Task → Option (Net × List Task)
  | [] => none
  | task :: rest =>
      match task.step now net with
      | some (net, task) => some (net, task :: rest)
      | none => (stepTasks now net rest).map fun (net, rest) => (net, task :: rest)

/-- Look up the host of the first attempt that waits for that. -/
def resolve? (world : World) : Option World := do
  let lookup ← world.lookup
  let attempt ← world.net.attempts.findIdx? fun attempt => attempt.host?.isSome
  let host ← (world.net.attempt attempt).host?
  return world.changeNet (·.apply (.resolve attempt (lookup host)))

/-- Look up a host, or run one task up to the next point at which it may have to wait; `none`
if no host is to be looked up and all tasks wait. -/
def step (world : World) : Option World :=
  match world.resolve? with
  | some world => some world
  | none =>
      (stepTasks world.now world.net world.tasks).map fun (net, tasks) => { world with net, tasks }

/-- Let everything happen that needs no time, in at most `limit` steps. -/
def settleWithin : (limit : Nat) → World → World
  | 0, world => world
  | limit + 1, world =>
      match world.step with
      | some world => settleWithin limit world
      | none => world

/-- More steps than anything that needs no time takes. -/
def settleLimit : Nat := 10000000

/-- Let everything happen that needs no time. -/
def settle (world : World) : World :=
  settleWithin settleLimit world

/-- The next instant at which a task goes on by itself. -/
def wake? (world : World) : Option Instant :=
  world.tasks.foldr (fun task rest => earliest task.wake? rest) none

/-- Set the clock. -/
def advanceTo (world : World) (instant : Instant) : World :=
  { world with now := max world.now instant }

end World

end NodeHealth
