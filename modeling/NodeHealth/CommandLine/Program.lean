import NodeHealth.CommandLine.Arguments
import NodeHealth.Config.Environment
import NodeHealth.Config.File
import NodeHealth.World

/-!
# The program

The whole program as it runs: what it has printed, the files it has written, the world in
which its parts run, and what it waits for. `Program.launch` begins it, `Program.step` lets
it go on, and `Program.interrupt` asks it to stop.
-/

namespace NodeHealth

/-! ## Errors as they are printed -/

/-- The chain of causes behind a wire error. -/
def WireError.causes : WireError → List String
  | io failure => [failure.text]
  | _ => []

/-- The chain of causes behind a connection error. -/
def ConnectionError.causes : ConnectionError → List String
  | io failure => [failure.text]
  | protocol error => error.message :: error.causes
  | _ => []

/-- The chain of causes behind a configuration error. -/
def ConfigError.causes : ConfigError → List String
  | io failure => [failure.text]
  | parse => ["invalid document"]
  | unwritable => ["out-of-range value for u64 type"]
  | _ => []

/-- The chain of causes behind an error of the health server. -/
def HealthError.causes : HealthError → List String
  | config error => error.message :: error.causes
  | _ => []

/-- The chain of causes behind an error of a sidecar. -/
def SidecarError.causes : SidecarError → List String
  | health error => error.message :: error.causes
  | cnode error => [error.message]

/-- The causes of an error, numbered if there are several. -/
def causeLines (causes : List String) : List String :=
  match causes with
  | [cause] => ["    " ++ cause]
  | causes => causes.zipIdx.map fun (cause, index) => "    " ++ toString index ++ ": " ++ cause

/-- An error with its causes, as the program prints it. -/
def errorText (message : String) (causes : List String) : String :=
  let lines :=
    ("Error: " ++ message) :: if causes = [] then [] else "" :: "Caused by:" :: causeLines causes
  String.join (lines.map (· ++ "\n"))

/-! ## The program -/

/-- What the program waits for. -/
inductive ProgramPhase
  | exited (code : Nat)
  /-- A probe of a health server. -/
  | probing (probe : TaskId) (host : String) (port : UInt16)
  /-- The interruption, while the sidecars run. -/
  | running (group : TaskId)
  /-- The sidecars that stop. -/
  | stopping (group : TaskId)
  /-- The end of the mock sessions, or the interruption. -/
  | serving (run : TaskId)
  deriving DecidableEq, Repr

/-- The program as it runs. -/
structure Program where
  output : String := ""
  errors : String := ""
  files : FileTree := {}
  world : World := {}
  phase : ProgramPhase

namespace Program

/-- The name and version of the program. -/
def versionLine : String := "amf-sidecar 0.1.0"

/-- Print a line. -/
def print (program : Program) (line : String) : Program :=
  { program with output := program.output ++ line ++ "\n" }

/-- The program ends. -/
def exit (program : Program) (code : Nat) : Program :=
  { program with phase := .exited code }

/-- The program ends with an error. -/
def fail (program : Program) (message : String) (causes : List String) : Program :=
  { program with errors := program.errors ++ errorText message causes }.exit 1

/-- The exit code, once the program has ended. -/
def code? (program : Program) : Option Nat :=
  match program.phase with
  | .exited code => some code
  | _ => none

/-! ## Beginning -/

/-- Show or write a configuration. -/
def config (program : Program) (config : Config) (generate : Bool) (output : Option String) :
    Program :=
  match generate, output with
  | true, none =>
      match Config.sample.print with
      | .ok text => (program.print text).exit 0
      | .error _ => (program.print "").exit 0
  | true, some path =>
      let text := match Config.sample.print with
        | .ok text => text
        | .error _ => ""
      match program.files.write path (Utf8.encode text) with
      | .ok files =>
          ({ program with files }.print ("Configuration written to: " ++ path)).exit 0
      | .error cause => program.fail cause.systemText []
  | false, some path =>
      match config.save program.files path with
      | (.ok (), files) =>
          ({ program with files }.print ("Configuration written to: " ++ path)).exit 0
      | (.error error, files) => { program with files }.fail error.message error.causes
  | false, none =>
      match config.print with
      | .ok text => (program.print text).exit 0
      | .error _ => program.fail "out-of-range value for u64 type" []

/-- Begin a probe. -/
def probe (program : Program) (host : String) (port : UInt16) (timeoutMs : UInt64) : Program :=
  let task := Task.probe { host, port, timeoutMs := timeoutMs.toNat }
  let (id, world) := program.world.spawn task
  { program with world, phase := .probing id host port }

/-- Start the sidecars, and register if that is wanted. Nothing is left to run if a sidecar
fails. -/
def run (program : Program) (config : Config) : Program :=
  let group : SidecarGroup :=
    { members := [.health { config := config.server }, .cnode { config := config.cnode }] }
  let (failure, net, group) := group.startAll program.world.net
  let (id, world) := { program.world with net }.spawn (.group group)
  match failure with
  | some error => { program with world }.fail error.message error.causes
  | none =>
      let registrar := Registrar.ofServer config.server
      let world :=
        if registrar.isReady then (world.spawn (.registration { registrar })).2 else world
      { program with world, phase := .running id }.print
        "AMF sidecars running. Press Ctrl+C to stop."

/-- A number of seconds in words. -/
def secondsText (seconds : UInt64) : String :=
  if seconds = 0 then "0ns" else toString seconds.toNat ++ "s"

/-- Begin to serve mock sessions. -/
def mockCnode (program : Program) (port : UInt16) (intervalSecs : UInt64) (count : UInt32)
    (keepAccepting : Bool) : Program :=
  match program.world.net.listen ⟨.unspecified, port⟩ with
  | .error cause => program.fail cause.systemText []
  | .ok (listener, net) =>
      let options : MockOptions :=
        { intervalMs := 1000 * intervalSecs.toNat, count := count.toNat, keepAccepting }
      let task := Task.mockRun { session := { listener, options } }
      let (id, world) := { program.world with net }.spawn task
      let address := ((net.addressOf? listener).map SocketAddress.toText).getD ""
      { program with world, phase := .serving id }.print
        ("Mock cnode listening on " ++ address ++ " (" ++ toString count.toNat ++
          " checks every " ++ secondsText intervalSecs ++ ")")

/-- The configuration that a call works with: from the file that it names, which has to be
readable, or from a usual place; and the environment over it. -/
def loadConfig (invocation : Invocation) (files : FileTree) (environment : Environment)
    (userDirectory : Option String) : Except ConfigError Config :=
  let loaded := match invocation.configPath with
    | some path => Config.load files path
    | none => .ok ((Config.loadDefault files userDirectory).toOption.getD {})
  loaded.map (·.overlay environment)

/-- Carry out a call. -/
def invoke (program : Program) (invocation : Invocation) (environment : Environment)
    (userDirectory : Option String) : Program :=
  match loadConfig invocation program.files environment userDirectory with
  | .error error => program.fail error.message error.causes
  | .ok config =>
      match invocation.command with
      | .run => program.run config
      | .config generate output => program.config config generate output
      | .probe host port timeoutMs => program.probe host port timeoutMs
      | .mockCnode port intervalSecs count keepAccepting =>
          program.mockCnode port intervalSecs count keepAccepting

/-- The paths that a call may look at or write to. -/
def pathsOf (invocation : Invocation) (userDirectory : Option String) : List String :=
  let sources := match invocation.configPath with
    | some path => [path]
    | none => Config.searchPaths userDirectory
  match invocation.command with
  | .config _ (some path) => sources ++ [path]
  | _ => sources

/-- Begin the program. -/
def launch (arguments : List String) (environment : Environment) (files : FileTree)
    (userDirectory : Option String) (world : World) : Program :=
  let program : Program := { files, world, phase := .exited 0 }
  match Arguments.parse arguments with
  | .ok invocation => program.invoke invocation environment userDirectory
  | .error .help => (program.print Arguments.helpText).exit 0
  | .error .version => (program.print versionLine).exit 0
  | .error .usage => { program with errors := program.errors ++ Arguments.usageText }.exit 2

/-! ## Going on -/

/-- A probe has ended. -/
def finishProbe (program : Program) (host : String) (port : UInt16) :
    Except ConnectionError ProbeReport → Program
  | .error error => program.fail error.message error.causes
  | .ok report =>
      let target := host ++ ":" ++ toString port.toNat
      let program := program.print
        (target ++ " status=" ++ report.describe ++ " (" ++ toString report.elapsedMs ++ " ms)")
      if report.isServing then program.exit 0
      else program.fail (target ++ " is not serving") []

/-- What the program does once what it waits for has happened; `none` if it has not, or if
the program has ended. -/
def resume? (program : Program) : Option Program :=
  match program.phase with
  | .exited _ => none
  | .running _ => none
  | .probing id host port =>
      match program.world.task? id with
      | some (.probe probe) => probe.result?.map (program.finishProbe host port)
      | _ => none
  | .stopping id =>
      match program.world.task? id with
      | some (.group group) => if group.isStopping then none else some (program.exit 0)
      | _ => none
  | .serving id =>
      match program.world.task? id with
      | some (.mockRun run) =>
          run.result?.map fun passed =>
            if passed then (program.print "PASS").exit 0 else program.fail "FAIL" []
      | _ => none

/-- Run the program up to the next point at which it may have to wait; `none` if it
waits. -/
def step (program : Program) : Option Program :=
  match program.resume? with
  | some program => some program
  | none =>
      if program.code?.isSome then none
      else program.world.step.map fun world => { program with world }

/-- Ask the program to stop. -/
def interrupt (program : Program) : Program :=
  match program.phase with
  | .running id =>
      match program.world.task? id with
      | some (.group group) =>
          { program with
            world := program.world.setTask id (.group group.stopAll)
            phase := .stopping id }.print "\nShutting down..."
      | _ => program
  | .serving _ => (program.print "\nInterrupted").exit 0
  | _ => program

end Program

end NodeHealth
