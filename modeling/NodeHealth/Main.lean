import NodeHealth.CommandLine.Program
import NodeHealth.Net.Outlet
import Std.Async.DNS
import Std.Async.Signal
import Std.Async.TCP
import Std.Async.Timer
import Std.Sync.Channel

/-!
# The program on a machine

`main` runs a `Program` on real files, a real clock and real sockets. What the program decides
is in `Program.step`; here the bytes that arrive are told to its network, the bytes that it
writes are sent, and its attempts and listeners are carried out.

## Implementation notes

Everything that happens outside is put into one channel, from which it is taken in order.
Whether an address can be listened at is found out before anything is printed: the program is
launched again with the knowledge that an address is unusable.
-/

namespace NodeHealth.Machine

open Std.Async

/-- A socket that is connected. -/
abbrev Socket := TCP.Socket.Client

/-- Something that happened outside the program. -/
inductive Happening
  /-- Time may have passed. -/
  | tick
  | event (event : Net.Event)
  | accepted (listener : ListenerId) (socket : Socket)
  | established (attempt : AttemptId) (socket : Socket)
  | interrupted

instance : Inhabited Happening := ⟨.tick⟩

/-- The happenings that are still to be told to the program. -/
abbrev Happenings := Std.Channel Happening

/-! ## Addresses and failures -/

/-- An address in the form in which sockets want it. -/
def socketAddress (address : SocketAddress) : Std.Net.SocketAddress :=
  match address.ip with
  | .v4 a b c d => .v4 ⟨.ofParts a b c d, address.port⟩
  | .v6 groups => .v6 ⟨⟨groups⟩, address.port⟩

/-- The cause of a failure that the system reports. -/
def causeOf : IO.Error → IoCause
  | .resourceBusy .. => .addressInUse
  | .unsupportedOperation .. => .addressNotAvailable
  | .resourceVanished .. => .connectionReset
  | .noSuchThing .. => .connectionRefused
  | .inappropriateType .. => .isADirectory
  | .noFileOrDirectory .. => .notFound
  | .alreadyExists .. => .alreadyExists
  | .interrupted .. => .interrupted
  | _ => .other

/-! ## Files -/

/-- What lies at a path, if anything. -/
def readNode (path : String) : IO (Option FileNode) := do
  try
    return some (.file (← IO.FS.readBinFile path).toList)
  catch error =>
    match causeOf error with
    | .notFound => return none
    | .isADirectory => return some .directory
    | _ => throw error

/-- A tree with all that lies along a path. -/
def readPath (tree : FileTree) (path : String) : IO FileTree := do
  let mut tree := tree
  let mut front := ""
  for part in path.splitOn "/" do
    front := front ++ part
    match tree.resolve front with
    | .ok place =>
        if (tree.node? place).isNone then
          if let some node ← readNode front then tree := tree.put place node
    | .error _ => pure ()
    front := front ++ "/"
  return tree

/-- Write what a program has changed at a place that it was given the path of. -/
def writePath (before after : FileTree) (path : String) : IO Unit := do
  match after.read path with
  | .ok content =>
      if (before.read path).toOption ≠ some content then
        let parent := "/".intercalate (path.splitOn "/").dropLast
        if parent ≠ "" then IO.FS.createDirAll parent
        IO.FS.writeBinFile path ⟨content.toArray⟩
  | .error _ => pure ()

/-! ## Sockets -/

/-- Tell the program of something. -/
def tell (happenings : Happenings) (happening : Happening) : IO Unit := do
  discard <| happenings.send happening

/-- Tell the program of all bytes that arrive at a socket. -/
def receiveAll (happenings : Happenings) (socket : Socket) (link : LinkId) (side : Side) :
    Async Unit := do
  try
    repeat
      match ← socket.recv? 65536 with
      | some bytes => tell happenings (.event (.write link side bytes.toList))
      | none => break
    tell happenings (.event (.finish link side))
  catch _ => tell happenings (.event (.abort link side))

/-- Send bytes, and then that there are no more if so. -/
def sendAll (happenings : Happenings) (socket : Socket) (outlet : Outlet) (bytes : Bytes)
    (ending : Bool) : Async Unit := do
  try
    if bytes ≠ [] then socket.send ⟨bytes.toArray⟩
    if ending then socket.shutdown
  catch _ => tell happenings (.event (.abort outlet.link outlet.side.other))

/-- Accept connections as they come. -/
def acceptAll (happenings : Happenings) (server : TCP.Socket.Server) (listener : ListenerId) :
    Async Unit := do
  repeat
    tell happenings (.accepted listener (← server.accept))

/-- Carry out an attempt to connect. -/
def connect (happenings : Happenings) (attempt : AttemptId) (target : SocketAddress) :
    Async Unit := do
  try
    let socket ← TCP.Socket.Client.mk
    socket.connect (socketAddress target)
    tell happenings (.established attempt socket)
  catch error => tell happenings (.event (.refuse attempt (causeOf error)))

/-- An address in the form in which a program wants it. -/
def ipAddress : Std.Net.IPAddr → IpAddress
  | .v4 address => .v4 address.octets[0] address.octets[1] address.octets[2] address.octets[3]
  | .v6 address => .v6 address.segments

/-- Look up the addresses of a host. -/
def lookUp (happenings : Happenings) (attempt : AttemptId) (host : String) (port : UInt16) :
    Async Unit := do
  try
    let addresses ← DNS.getAddrInfo host (toString port.toNat)
    tell happenings (.event (.resolve attempt (.ok (addresses.toList.map ipAddress))))
  catch _ => tell happenings (.event (.resolve attempt (.error .unknownHost)))

/-- Listen at an address. -/
def listen (address : SocketAddress) : IO TCP.Socket.Server := do
  let server ← TCP.Socket.Server.mk
  server.bind (socketAddress address)
  server.listen 16
  return server

/-- A port at which nobody listens. -/
def freePort : IO Nat := do
  let server ← listen ⟨.loopback, 0⟩
  return (← server.getSockName).port.toNat

/-! ## Running -/

/-- A program, and what of it has been carried out. -/
structure Run where
  program : Program
  happenings : Happenings
  sockets : List (Outlet × Socket) := []
  /-- The attempts for which all has been begun that they wait for. -/
  begun : List Attempt := []
  /-- Number of bytes of the output that have been printed. -/
  printed : Nat := 0
  /-- What is being sent. -/
  sending : List (AsyncTask Unit) := []

/-- Launch a program and listen where it wants to; at most `limit` addresses turn out to be
unusable. -/
def launch (begin : Net → Program) : (limit : Nat) → Net → IO (Program × List TCP.Socket.Server)
  | 0, net => return (begin net, [])
  | limit + 1, net => do
      let program := begin net
      let mut servers := []
      for listener in program.world.net.listeners do
        try
          servers := servers ++ [← listen listener.address]
        catch error =>
          let unusable := net.unusable ++ [(listener.address, causeOf error)]
          return ← launch begin limit { net with unusable }
      return (program, servers)

/-- Change the network of a program. -/
def Run.changeNet (run : Run) (change : Net → Net) : Run :=
  { run with
    program := { run.program with world := run.program.world.changeNet change } }

/-- Begin to receive at a socket. -/
def Run.attach (run : Run) (socket : Socket) (link : LinkId) (side : Side) : IO Run := do
  discard <| Async.toIO (receiveAll run.happenings socket link side.other)
  return { run with sockets := run.sockets ++ [({ link, side }, socket)] }

/-- Take note of something that happened. -/
def Run.notice (run : Run) : Happening → IO Run
  | .tick => return run
  | .event event => return run.changeNet (·.apply event)
  | .interrupted => return { run with program := run.program.interrupt }
  | .accepted listener socket => do
      let net := run.program.world.net
      if (net.listener? listener).any Listener.isOpen then
        (run.changeNet (·.apply (.connect listener))).attach socket net.links.length .acceptor
      else return run
  | .established attempt socket => do
      let net := run.program.world.net
      if (net.attempt attempt).isWaiting then
        (run.changeNet (·.apply (.establish attempt))).attach socket net.links.length .dialler
      else return run

/-- Print what is new. -/
def Run.print (run : Run) : IO Run := do
  let output := run.program.output.toUTF8
  (← IO.getStdout).write (output.extract run.printed output.size)
  (← IO.getStdout).flush
  return { run with printed := output.size }

/-- Send what was written, and begin the attempts that were made. -/
def Run.carryOut (run : Run) : IO Run := do
  let net := run.program.world.net
  let mut sending := []
  for task in run.sending do
    unless ← IO.hasFinished task do sending := sending ++ [task]
  for (outlet, socket) in run.sockets do
    let bytes := outlet.due net
    let ending := outlet.isEnding net
    if bytes ≠ [] ∨ ending then
      sending := sending ++
        [← Async.toIO (sendAll run.happenings socket outlet bytes ending)]
  for (attempt, id) in net.attempts.zipIdx do
    if run.begun[id]? ≠ some attempt then
      match attempt with
      | .resolving host port => discard <| Async.toIO (lookUp run.happenings id host port)
      | .waiting target => discard <| Async.toIO (connect run.happenings id target)
      | _ => pure ()
  return { run with
    sending
    sockets := run.sockets.map fun (outlet, socket) => (outlet.caughtUp net, socket)
    begun := net.attempts }

/-- The longest wait without a look at the clock, in milliseconds. -/
def maxSleep : Nat := 1000000000

/-- Wait until something happens, or until an instant. -/
def Run.await (run : Run) (now : Instant) (wake? : Option Instant) : IO Happening := do
  let duration := (wake?.map fun wake => min (wake - now) maxSleep).getD maxSleep
  let passes ← Async.block (Selector.sleep (.ofNat duration))
  Async.block (Selectable.one
    #[.case run.happenings.recvSelector pure, .case passes fun _ => pure Happening.tick])

/-- Let a program do all that it can. -/
partial def settle (program : Program) : Program :=
  match program.step with
  | some program => settle program
  | none => program

/-- Run a program to its end. -/
partial def Run.toEnd (run : Run) (started : Nat) : IO Program := do
  let now := (← IO.monoMsNow) - started
  let world := run.program.world.advanceTo now
  let run := { run with program := settle { run.program with world } }
  let run ← run.print
  let run ← run.carryOut
  if run.program.code?.isSome then
    for task in run.sending do
      discard <| IO.wait task
    return run.program
  else
    let happening ← run.await now run.program.world.wake?
    (← run.notice happening).toEnd started

/-- The directory of the user's settings, if there is one. -/
def userDirectory : IO (Option String) := do
  match ← IO.getEnv "XDG_CONFIG_HOME" with
  | some path => if path.startsWith "/" then return some path
  | none => pure ()
  return ((← IO.getEnv "HOME").bind nonEmpty?).map (· ++ "/.config")

/-- The variables that are set. -/
def readEnvironment : IO Environment := do
  let entries ← Variable.all.filterMapM fun v => do
    return (← IO.getEnv v.name).map (v.name, ·)
  return .ofList entries

end NodeHealth.Machine

open NodeHealth NodeHealth.Machine in
/-- Run the program with the given arguments. -/
def main (arguments : List String) : IO UInt32 := do
  let environment ← readEnvironment
  let directory ← userDirectory
  let paths := match Arguments.parse arguments with
    | .ok invocation => Program.pathsOf invocation directory
    | .error _ => []
  let files ← paths.foldlM readPath {}
  let net : Net := { isWhole := false, nextPort := ← freePort }
  let happenings ← Std.Channel.new
  let begin := fun net =>
    Program.launch arguments environment files directory { net, lookup := none }
  let (program, servers) ← launch begin 2 net
  for (server, listener) in servers.zipIdx do
    discard <| Std.Async.Async.toIO (acceptAll happenings server listener)
  let interruption ← (← Std.Async.Signal.Waiter.mk .sigint false).wait
  discard <| IO.mapTask (fun _ => tell happenings .interrupted) interruption
  try
    for path in paths do
      writePath files program.files path
  catch error =>
    IO.eprint (errorText ("IO error: " ++ toString error) [toString error])
    return 1
  let program ← ({ program, happenings } : Run).toEnd (← IO.monoMsNow)
  IO.eprint program.errors
  return UInt32.ofNat (program.code?.getD 1)
