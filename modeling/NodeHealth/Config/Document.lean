import NodeHealth.Config.Basic
import NodeHealth.Toml.Document
import NodeHealth.Toml.Section

/-!
# Configurations as documents

A configuration is written as four sections, in which fields without a value are left out,
and read from a document in which any field and any table may be missing and further keys
do not matter. A table may also be given as an array of its fields in their order, in which
only fields with a default may be left out at the end.
-/

namespace NodeHealth

open Toml (Value Entries Scalar Section)

/-! ## Reading -/

/-- The fields of a table, by name or by position. -/
inductive FieldSource
  | named (entries : Entries)
  | listed (values : List Value)

/-- A field of a table: its name, and its position where fields are listed. -/
structure Field where
  name : String
  position : Nat

namespace FieldSource

/-- The fields that a value gives. The tables of repeated headers are a list, and a date has
no field that a table asks for. -/
def ofValue? : Value → Option FieldSource
  | .table _ entries => some (.named entries)
  | .array values => some (.listed values)
  | .tables elements => some (.listed (elements.map (.table .headed)))
  | .dateTime _ => some (.named [])
  | _ => none

/-- The value of a field, if it is given. -/
def find? (source : FieldSource) (field : Field) : Option Value :=
  match source with
  | named entries => entries.find? field.name
  | listed values => values[field.position]?

/-- A field that has a default. -/
def get? {α : Type} (source : FieldSource) (field : Field) (read : Value → Option α)
    (default : α) : Option α :=
  match source.find? field with
  | some value => read value
  | none => some default

/-- A field that may have no value, but cannot be left out of a list. -/
def getOption? {α : Type} (source : FieldSource) (field : Field) (read : Value → Option α) :
    Option (Option α) :=
  match source.find? field, source with
  | some value, _ => (read value).map some
  | none, named _ => some none
  | none, listed _ => none

end FieldSource

namespace Read

/-- A truth value. -/
def bool? : Value → Option Bool
  | .boolean value => some value
  | _ => none

/-- A text. -/
def string? : Value → Option String
  | .string text => some text
  | _ => none

/-- A number of 16 bits. -/
def port? : Value → Option UInt16
  | .integer value =>
      if 0 ≤ value ∧ value < UInt16.size then some (UInt16.ofNat value.toNat) else none
  | _ => none

/-- A number of 64 bits. -/
def word? : Value → Option UInt64
  | .integer value =>
      if 0 ≤ value ∧ value < UInt64.size then some (UInt64.ofNat value.toNat) else none
  | _ => none

end Read

/-! Each field that may be missing names its own default here, and a table that is missing has
the default of its structure. -/

/-- Read the general settings. -/
def GeneralConfig.ofValue? (value : Value) : Option GeneralConfig := do
  let source ← FieldSource.ofValue? value
  return {
    verbose := ← source.get? ⟨"verbose", 0⟩ Read.bool? false
    logFilter := ← source.getOption? ⟨"log_filter", 1⟩ Read.string? }

/-- Read the settings of the registration. -/
def RegistrationConfig.ofValue? (value : Value) : Option RegistrationConfig := do
  let source ← FieldSource.ofValue? value
  return {
    enable := ← source.get? ⟨"enable", 0⟩ Read.bool? false
    serverIp := ← source.getOption? ⟨"server_ip", 1⟩ Read.string?
    serverPort := ← source.getOption? ⟨"server_port", 2⟩ Read.port?
    timeoutMs := ← source.get? ⟨"timeout_ms", 3⟩ Read.word? defaultIoTimeoutMs }

/-- Read the settings of the health server. -/
def ServerConfig.ofValue? (value : Value) : Option ServerConfig := do
  let source ← FieldSource.ofValue? value
  return {
    enable := ← source.get? ⟨"enable", 0⟩ Read.bool? defaultEnable
    bindAddr := ← source.get? ⟨"bind_addr", 1⟩ Read.string? defaultBindAddr
    advertiseIp := ← source.getOption? ⟨"advertise_ip", 2⟩ Read.string?
    port := ← source.get? ⟨"port", 3⟩ Read.port? defaultHealthPort
    readTimeoutMs := ← source.get? ⟨"read_timeout_ms", 4⟩ Read.word? defaultReadTimeoutMs
    registration := ← source.get? ⟨"registration", 5⟩ RegistrationConfig.ofValue? {} }

/-- Read the settings of the cnode client. -/
def CnodeConfig.ofValue? (value : Value) : Option CnodeConfig := do
  let source ← FieldSource.ofValue? value
  return {
    enable := ← source.get? ⟨"enable", 0⟩ Read.bool? defaultEnable
    serverIp := ← source.getOption? ⟨"server_ip", 1⟩ Read.string?
    serverPort := ← source.get? ⟨"server_port", 2⟩ Read.port? defaultCnodePort
    connectTimeoutMs := ← source.get? ⟨"connect_timeout_ms", 3⟩ Read.word? defaultIoTimeoutMs
    pollIntervalMs := ← source.get? ⟨"poll_interval_ms", 4⟩ Read.word? defaultIoTimeoutMs
    initialBackoffSecs :=
      ← source.get? ⟨"initial_backoff_secs", 5⟩ Read.word? defaultInitialBackoffSecs
    maxBackoffSecs :=
      ← source.get? ⟨"max_backoff_secs", 6⟩ Read.word? defaultMaxBackoffSecs }

/-- Read a configuration from a document. -/
def Config.ofDocument? (document : Entries) : Option Config := do
  let source := FieldSource.named document
  return {
    general := ← source.get? ⟨"general", 0⟩ GeneralConfig.ofValue? {}
    server := ← source.get? ⟨"server", 1⟩ ServerConfig.ofValue? {}
    cnode := ← source.get? ⟨"cnode", 2⟩ CnodeConfig.ofValue? {} }

/-- The configuration that a text stands for. -/
def Config.parse (text : String) : Except ConfigError Config :=
  match (Toml.parse? text).bind Config.ofDocument? with
  | some config => .ok config
  | none => .error .parse

/-! ## Writing -/

namespace Write

/-- A field that is always written. -/
def field (name : String) (value : Scalar) : List (String × Scalar) :=
  [(name, value)]

/-- A field that is written if it has a value. -/
def optional {α : Type} (name : String) (toScalar : α → Scalar) :
    Option α → List (String × Scalar)
  | some value => [(name, toScalar value)]
  | none => []

/-- A port as a value. -/
def port (value : UInt16) : Scalar :=
  .integer value.toNat

/-- A number of 64 bits as a value. -/
def word (value : UInt64) : Scalar :=
  .integer value.toNat

end Write

section

open Write

/-- The general settings, key by key. -/
def GeneralConfig.entries (config : GeneralConfig) : List (String × Scalar) :=
  field "verbose" (.boolean config.verbose) ++
    optional "log_filter" .string config.logFilter

/-- The settings of the health server, key by key. Those of the registration have a section
of their own. -/
def ServerConfig.entries (config : ServerConfig) : List (String × Scalar) :=
  field "enable" (.boolean config.enable) ++
    field "bind_addr" (.string config.bindAddr) ++
    optional "advertise_ip" .string config.advertiseIp ++
    field "port" (Write.port config.port) ++
    field "read_timeout_ms" (Write.word config.readTimeoutMs)

/-- The settings of the registration, key by key. -/
def RegistrationConfig.entries (config : RegistrationConfig) : List (String × Scalar) :=
  field "enable" (.boolean config.enable) ++
    optional "server_ip" .string config.serverIp ++
    optional "server_port" Write.port config.serverPort ++
    field "timeout_ms" (Write.word config.timeoutMs)

/-- The settings of the cnode client, key by key. -/
def CnodeConfig.entries (config : CnodeConfig) : List (String × Scalar) :=
  field "enable" (.boolean config.enable) ++
    optional "server_ip" .string config.serverIp ++
    field "server_port" (Write.port config.serverPort) ++
    field "connect_timeout_ms" (Write.word config.connectTimeoutMs) ++
    field "poll_interval_ms" (Write.word config.pollIntervalMs) ++
    field "initial_backoff_secs" (Write.word config.initialBackoffSecs) ++
    field "max_backoff_secs" (Write.word config.maxBackoffSecs)

end

namespace Config

/-- The fields whose values might be too large for a document. -/
def words (config : Config) : List UInt64 :=
  [config.server.readTimeoutMs, config.server.registration.timeoutMs,
    config.cnode.connectTimeoutMs, config.cnode.pollIntervalMs,
    config.cnode.initialBackoffSecs, config.cnode.maxBackoffSecs]

/-- The sections of a configuration, one after the other. -/
def sections (config : Config) : List Section :=
  [⟨["general"], config.general.entries⟩,
    ⟨["server"], config.server.entries⟩,
    ⟨["server", "registration"], config.server.registration.entries⟩,
    ⟨["cnode"], config.cnode.entries⟩]

/-- The text of a configuration, unless a number in it is too large for a document. -/
def print (config : Config) : Except ConfigError String :=
  if config.words.any fun word => Toml.Number.maxInteger < word.toNat then .error .unwritable
  else .ok (String.ofList (Section.writeAll config.sections))

/-- A configuration in which every optional part is filled in. -/
def sample : Config where
  server :=
    { advertiseIp := some "10.0.0.1"
      registration :=
        { enable := true
          serverIp := some "10.0.0.100"
          serverPort := some 50052 } }
  cnode := { serverIp := some "10.0.0.200" }

end Config

end NodeHealth
