import NodeHealth.Bytes
import NodeHealth.IoFailure
import NodeHealth.Net.Address

/-!
# Configuration

One structure per table of the configuration file, with the defaults of its fields, and
what the parts of the program derive from them. Ports are words of 16 bits, times and
delays words of 64 bits.
-/

namespace NodeHealth

/-- Settings of the program as a whole. -/
structure GeneralConfig where
  /-- Log in detail. -/
  verbose : Bool := false
  /-- An explicit choice of what is logged. -/
  logFilter : Option String := none
  deriving DecidableEq, Repr

/-- The part of the program that a table is about runs unless told otherwise. -/
def defaultEnable : Bool := true

/-- The address on which the health server listens unless told otherwise. -/
def defaultBindAddr : String := "0.0.0.0"

/-- The port on which the health server listens unless told otherwise. -/
def defaultHealthPort : UInt16 := 50051

/-- The port of the cnode server unless told otherwise. -/
def defaultCnodePort : UInt16 := 9090

/-- How long the health server waits for a request unless told otherwise, in milliseconds. -/
def defaultReadTimeoutMs : UInt64 := 500

/-- The deadline of anything else unless told otherwise, in milliseconds. -/
def defaultIoTimeoutMs : UInt64 := 5000

/-- The first reconnect delay unless told otherwise, in seconds. -/
def defaultInitialBackoffSecs : UInt64 := 1

/-- The longest reconnect delay unless told otherwise, in seconds. -/
def defaultMaxBackoffSecs : UInt64 := 30

/-- Settings of the registration. -/
structure RegistrationConfig where
  /-- Register once the node is operational. -/
  enable : Bool := false
  /-- Address of the registration server. -/
  serverIp : Option String := none
  /-- Port of the registration server. -/
  serverPort : Option UInt16 := none
  /-- Deadline for dialling, sending and receiving, in milliseconds. -/
  timeoutMs : UInt64 := defaultIoTimeoutMs
  deriving DecidableEq, Repr

/-- Settings of the health server and of the registration. -/
structure ServerConfig where
  /-- Run the health server at all. -/
  enable : Bool := defaultEnable
  /-- Address on which the server listens. -/
  bindAddr : String := defaultBindAddr
  /-- Address that is registered, if it is another one. -/
  advertiseIp : Option String := none
  /-- Port on which the server listens. -/
  port : UInt16 := defaultHealthPort
  /-- How long to wait for a request before answering anyway, in milliseconds. -/
  readTimeoutMs : UInt64 := defaultReadTimeoutMs
  registration : RegistrationConfig := {}
  deriving DecidableEq, Repr

/-- Settings of the cnode client. -/
structure CnodeConfig where
  /-- Run the client, if it has a server address. -/
  enable : Bool := defaultEnable
  /-- Address of the cnode server. -/
  serverIp : Option String := none
  /-- Port of the cnode server. -/
  serverPort : UInt16 := defaultCnodePort
  /-- Deadline for dialling and sending, in milliseconds. -/
  connectTimeoutMs : UInt64 := defaultIoTimeoutMs
  /-- Longest wait for data before the stop flag is looked at, in milliseconds. -/
  pollIntervalMs : UInt64 := defaultIoTimeoutMs
  /-- First reconnect delay, in seconds. -/
  initialBackoffSecs : UInt64 := defaultInitialBackoffSecs
  /-- Longest reconnect delay, in seconds. -/
  maxBackoffSecs : UInt64 := defaultMaxBackoffSecs
  deriving DecidableEq, Repr

/-- The whole configuration. -/
structure Config where
  general : GeneralConfig := {}
  server : ServerConfig := {}
  cnode : CnodeConfig := {}
  deriving DecidableEq, Repr

/-- Why a configuration cannot be read, written or used. -/
inductive ConfigError
  | io (failure : IoFailure)
  /-- The file is no document, or not one of the expected form. -/
  | parse
  /-- A number is too large for a file. -/
  | unwritable
  | notFound (path : String)
  | invalidAddress (text : String)
  deriving DecidableEq, Repr

namespace ConfigError

/-- The wording of a configuration error. -/
def message : ConfigError → String
  | io failure => "IO error: " ++ failure.text
  | parse => "Parse error: invalid document"
  | unwritable => "Serialize error: out-of-range value for u64 type"
  | notFound path => "Config file not found: " ++ path
  | invalidAddress text => "Invalid address: " ++ text

end ConfigError

/-- The wording of a value that may be missing or empty: present only if there is
something. -/
def nonEmpty? (text : String) : Option String :=
  if text = "" then none else some text

theorem nonEmpty?_eq_some_iff {text address : String} :
    nonEmpty? text = some address ↔ text ≠ "" ∧ address = text := by
  rw [nonEmpty?]
  split <;> simp_all [eq_comm]

namespace ServerConfig

/-- The address on which the health server listens. -/
def bindAddress (config : ServerConfig) : Except ConfigError SocketAddress :=
  match IpAddress.parse? config.bindAddr with
  | some ip => .ok ⟨ip, config.port⟩
  | none => .error (.invalidAddress config.bindAddr)

/-- The address that is registered. -/
def advertisedIp (config : ServerConfig) : String :=
  (config.advertiseIp.bind nonEmpty?).getD config.bindAddr

theorem advertisedIp_of_some {config : ServerConfig} {ip : String}
    (h : config.advertiseIp = some ip) (hip : ip ≠ "") : config.advertisedIp = ip := by
  simp [advertisedIp, h, nonEmpty?, hip]

theorem advertisedIp_of_none {config : ServerConfig}
    (h : config.advertiseIp = none ∨ config.advertiseIp = some "") :
    config.advertisedIp = config.bindAddr := by
  rcases h with h | h <;> simp [advertisedIp, h, nonEmpty?]

end ServerConfig

/-- Host and port of the registration server, if both are set. -/
def RegistrationConfig.target? (config : RegistrationConfig) : Option (String × UInt16) := do
  let ip ← config.serverIp.bind nonEmpty?
  let port ← config.serverPort
  if port = 0 then none else return (ip, port)

theorem RegistrationConfig.target?_eq_some_iff {config : RegistrationConfig} {host : String}
    {port : UInt16} : config.target? = some (host, port) ↔
      config.serverIp = some host ∧ host ≠ "" ∧ config.serverPort = some port ∧ port ≠ 0 := by
  simp only [target?, bind, Option.bind_eq_some_iff, nonEmpty?_eq_some_iff]
  constructor
  · rintro ⟨_, ⟨ip, hip, hne, rfl⟩, found, hport, h⟩
    split at h
    · cases h
    · cases h
      exact ⟨hip, hne, hport, ‹_›⟩
  · rintro ⟨hip, hne, hport, hzero⟩
    exact ⟨host, ⟨host, hip, hne, rfl⟩, port, hport, by rw [if_neg hzero]; rfl⟩

/-- Host and port of the cnode server, if the client is to run. -/
def CnodeConfig.target? (config : CnodeConfig) : Option (String × UInt16) := do
  if ¬config.enable then none
  let ip ← config.serverIp.bind nonEmpty?
  return (ip, config.serverPort)

end NodeHealth
