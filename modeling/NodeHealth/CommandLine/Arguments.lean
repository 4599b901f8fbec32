import NodeHealth.Cnode.Mock
import NodeHealth.Config.Basic

/-!
# Command line arguments

The arguments are read from left to right. Before a subcommand and behind it the options of
the program as a whole may be given, each at most once in either place; behind it also the
options of the subcommand. A value follows its option as the next argument, behind `=`, or,
for an option of one letter, at once; letters can be joined. Behind `--` there are no
options. The first thing that is wrong, or asks for help, decides.
-/

namespace NodeHealth

/-- What the program is to do. -/
inductive Command
  | run
  | config (generate : Bool) (output : Option String)
  | probe (host : String) (port : UInt16) (timeoutMs : UInt64)
  | mockCnode (port : UInt16) (intervalSecs : UInt64) (count : UInt32) (keepAccepting : Bool)
  deriving DecidableEq, Repr

/-- A call of the program. -/
structure Invocation where
  configPath : Option String := none
  verbose : Bool := false
  command : Command
  deriving DecidableEq, Repr

namespace Arguments

/-- Why reading arguments ends without a call of the program. -/
inductive Stop
  | help
  | version
  | usage
  deriving DecidableEq, Repr

/-- The options that there are. -/
inductive Key
  | help
  | version
  | config
  | verbose
  | generate
  | output
  | port
  | timeout
  | interval
  | count
  | loop
  deriving DecidableEq, Repr

/-- Where an argument stands: before any subcommand, or behind one. -/
inductive Level
  | top
  | run
  | config
  | probe
  | mockCnode
  deriving DecidableEq, Repr

/-- The subcommand of a name. -/
def Level.ofName? (name : String) : Option Level :=
  match name with
  | "run" => some run
  | "config" => some config
  | "probe" => some probe
  | "mock-cnode" => some mockCnode
  | _ => none

/-- Whether an option is followed by a value. -/
def Key.takesValue : Key → Bool
  | config | output | port | timeout | interval | count => true
  | help | version | verbose | generate | loop => false

/-- The options at a level: the long name, and the letter if there is one. -/
def Level.options (level : Level) : List (String × Option Char × Key) :=
  let common : List (String × Option Char × Key) :=
    [("help", some 'h', .help), ("config", some 'c', .config), ("verbose", some 'v', .verbose)]
  common ++
    match level with
    | .top => [("version", some 'V', .version)]
    | .run => []
    | .config => [("generate", none, .generate), ("output", some 'o', .output)]
    | .probe => [("port", some 'p', .port), ("timeout-ms", none, .timeout)]
    | .mockCnode =>
        [("port", some 'p', .port), ("interval", some 'i', .interval),
          ("count", some 'n', .count), ("loop", none, .loop)]

/-- The option of a long name. -/
def Level.long? (level : Level) (name : String) : Option Key :=
  (level.options.find? fun option => option.1 = name).map fun option => option.2.2

/-- The option of a letter. -/
def Level.letter? (level : Level) (letter : Char) : Option Key :=
  (level.options.find? fun option => option.2.1 = some letter).map fun option => option.2.2

/-- What has been given at a level. -/
structure Settings where
  config : Option String := none
  verbose : Bool := false
  generate : Bool := false
  output : Option String := none
  host : Option String := none
  port : Option UInt16 := none
  timeoutMs : Option UInt64 := none
  intervalSecs : Option UInt64 := none
  count : Option UInt32 := none
  keepAccepting : Bool := false
  deriving DecidableEq, Repr

/-! ## Values -/

/-- A number with an optional sign. -/
def signed? (text : String) : Option Int :=
  match text.toList with
  | '-' :: digits => (Text.decimal? digits).map fun value => -(value : Int)
  | '+' :: digits => (Text.decimal? digits).map Int.ofNat
  | digits => (Text.decimal? digits).map Int.ofNat

/-- A number below a bound, which may have a sign. -/
def bounded? (bound : Nat) (text : String) : Option Nat :=
  match signed? text with
  | some value => if 0 ≤ value ∧ value < bound then some value.toNat else none
  | none => none

/-- A number of 64 bits, which may have a plus sign. -/
def word? (text : String) : Option UInt64 :=
  if text.toList.head? = some '-' then none
  else (bounded? UInt64.size text).map UInt64.ofNat

/-- A path, which is not empty. -/
def path? (text : String) : Option String :=
  nonEmpty? text

/-- Give a value to what has none yet. -/
def once {α : Type} (old value : Option α) : Except Stop (Option α) :=
  match old, value with
  | none, some value => .ok (some value)
  | _, _ => .error .usage

/-- Set a switch that is not set yet. -/
def switchOnce (old : Bool) : Except Stop Bool :=
  if old then .error .usage else .ok true

/-- Take an option, with its value if it has one. -/
def Settings.take (settings : Settings) (key : Key) (value : String) : Except Stop Settings := do
  match key with
  | .help => .error .help
  | .version => .error .version
  | .config => return { settings with config := ← once settings.config (path? value) }
  | .verbose => return { settings with verbose := ← switchOnce settings.verbose }
  | .generate => return { settings with generate := ← switchOnce settings.generate }
  | .output => return { settings with output := ← once settings.output (path? value) }
  | .port =>
      let port := (bounded? UInt16.size value).map UInt16.ofNat
      return { settings with port := ← once settings.port port }
  | .timeout => return { settings with timeoutMs := ← once settings.timeoutMs (word? value) }
  | .interval =>
      return { settings with intervalSecs := ← once settings.intervalSecs (word? value) }
  | .count =>
      let count := (bounded? UInt32.size value).map UInt32.ofNat
      return { settings with count := ← once settings.count count }
  | .loop => return { settings with keepAccepting := ← switchOnce settings.keepAccepting }

/-- Take an argument that is no option. -/
def Settings.takePlain (settings : Settings) (level : Level) (value : String) :
    Except Stop Settings := do
  match level with
  | .probe => return { settings with host := ← once settings.host (some value) }
  | _ => .error .usage

/-! ## Scanning -/

/-- Whether an argument can be a value: it does not look like an option. -/
def isValue (argument : String) : Bool :=
  match argument.toList with
  | '-' :: _ :: _ => false
  | _ => true

/-- Take joined letters. The last of them may be an option whose value is the next
argument; it is returned. -/
def takeLetters (level : Level) (settings : Settings) :
    List Char → Except Stop (Settings × Option Key)
  | [] => .ok (settings, none)
  | letter :: rest =>
      match level.letter? letter with
      | none => .error .usage
      | some key =>
          if key.takesValue then
            match rest with
            | [] => .ok (settings, some key)
            | '=' :: value => do
                return (← settings.take key (String.ofList value), none)
            | value => do return (← settings.take key (String.ofList value), none)
          else do
            takeLetters level (← settings.take key "") rest

/-- Take a long option. If its value is the next argument, it is returned. -/
def takeLong (level : Level) (settings : Settings) (text : List Char) :
    Except Stop (Settings × Option Key) :=
  match level.long? (String.ofList (text.takeWhile (· ≠ '='))) with
  | none => .error .usage
  | some key =>
      match text.dropWhile (· ≠ '='), key.takesValue with
      | '=' :: value, true => do return (← settings.take key (String.ofList value), none)
      | _ :: _, _ => .error .usage
      | [], true => .ok (settings, some key)
      | [], false => do return (← settings.take key "", none)

/-- Take an argument that looks like an option. -/
def takeOption (level : Level) (settings : Settings) (argument : String) :
    Except Stop (Settings × Option Key) :=
  match argument.toList with
  | '-' :: '-' :: text => takeLong level settings text
  | '-' :: letters => takeLetters level settings letters
  | _ => .error .usage

/-- Take all arguments behind a subcommand. Once `plain` is set there are no more options. -/
def scan (level : Level) (plain : Bool) (settings : Settings) :
    List String → Except Stop Settings
  | [] => .ok settings
  | argument :: rest =>
      if plain ∨ isValue argument then do
        scan level plain (← settings.takePlain level argument) rest
      else if argument = "--" then scan level true settings rest
      else
        match takeOption level settings argument with
        | .error stop => .error stop
        | .ok (settings, none) => scan level plain settings rest
        | .ok (settings, some key) =>
            match rest with
            | value :: rest =>
                if isValue value then do scan level plain (← settings.take key value) rest
                else .error .usage
            | [] => .error .usage

/-- The command of a subcommand with its settings. -/
def Settings.command (settings : Settings) : Level → Option Command
  | .top => none
  | .run => some .run
  | .config => some (.config settings.generate settings.output)
  | .probe =>
      some (.probe (settings.host.getD IpAddress.loopback.toText)
        (settings.port.getD defaultHealthPort) (settings.timeoutMs.getD 2000))
  | .mockCnode =>
      some (.mockCnode (settings.port.getD defaultCnodePort) (settings.intervalSecs.getD 2)
        (settings.count.getD 3) settings.keepAccepting)

/-- Read what follows the name of a subcommand. An option of the program that is given on
both sides of it counts as given behind it. -/
def parseCommand (outer : Settings) (level : Level) (arguments : List String) :
    Except Stop Invocation := do
  let settings ← scan level false {} arguments
  match settings.command level with
  | some command =>
      return ⟨settings.config.or outer.config, settings.verbose || outer.verbose, command⟩
  | none => .error .usage

/-- The arguments of the subcommand that explains others: at most one name of one. -/
def parseHelp (arguments : List String) : Stop :=
  match arguments with
  | [] => .help
  | [name] => if name = "help" ∨ (Level.ofName? name).isSome then .help else .usage
  | _ => .usage

/-- Read the arguments before a subcommand, and then the subcommand. -/
def parseFrom (settings : Settings) : List String → Except Stop Invocation
  | [] => .error .usage
  | argument :: rest =>
      if isValue argument then
        match Level.ofName? argument with
        | some level => parseCommand settings level rest
        | none => .error (if argument = "help" then parseHelp rest else .usage)
      else if argument = "--" then .error .usage
      else
        match takeOption .top settings argument with
        | .error stop => .error stop
        | .ok (settings, none) => parseFrom settings rest
        | .ok (settings, some key) =>
            match rest with
            | value :: rest =>
                if isValue value then do parseFrom (← settings.take key value) rest
                else .error .usage
            | [] => .error .usage

/-- What is printed to whom asks for help. -/
def helpText : String :=
  "\n".intercalate
    ["Health server, registration and cnode client for an AMF node", "",
      "Usage: amf-sidecar [OPTIONS] <COMMAND>", "",
      "Commands:",
      "  run                     Run the sidecars until Ctrl+C",
      "  config                  Show the configuration, with the environment over it",
      "      --generate          Take a sample configuration instead",
      "      -o, --output PATH   Write to this path",
      "  probe [HOST]            Send one health check and print the status",
      "      -p, --port PORT     Port of the health server [default: 50051]",
      "      --timeout-ms MS     Time for each of connecting, sending, receiving [default: 2000]",
      "  mock-cnode              Play the cnode server against a client",
      "      -p, --port PORT     Port to listen on [default: 9090]",
      "      -i, --interval SECS Pause between health checks [default: 2]",
      "      -n, --count COUNT   Health checks in a session, 0 for no end [default: 3]",
      "      --loop              Serve one session after the other",
      "  help [COMMAND]          Print this text", "",
      "Options:",
      "  -c, --config PATH       Configuration file",
      "  -v, --verbose           Log in detail",
      "  -h, --help              Print this text",
      "  -V, --version           Print the version"]

/-- What is printed to whom gives arguments that cannot be read. -/
def usageText : String :=
  "error: these arguments cannot be read\n\n" ++
    "Usage: amf-sidecar [OPTIONS] <COMMAND>\n\n" ++
    "For more information, try '--help'.\n"

/-- Read all arguments. -/
def parse (arguments : List String) : Except Stop Invocation :=
  parseFrom {} arguments

end Arguments

end NodeHealth
