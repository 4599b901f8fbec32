import NodeHealth.Config.Document
import NodeHealth.Proofs.Toml.Path

/-!
# Tables in which fields are missing

A field that is missing from its table is read as the default that the reader of the table
names, and a table that is missing is read as the default of its structure. Either way the field
has the same value, so that `without` says for each table which settings are read from it.

-/

namespace NodeHealth

open Toml (Value Entries IsBareKey Scalar Section TableForm)

/-! ## Written fields -/

namespace Write

variable {name : String} {α : Type} {toScalar : α → Scalar} {value : Option α}
  {P : String × Scalar → Prop}

@[simp] theorem forall_mem_field {scalar : Scalar} :
    (∀ entry ∈ field name scalar, P entry) ↔ P (name, scalar) := by
  simp [field]

@[simp] theorem forall_mem_optional :
    (∀ entry ∈ optional name toScalar value, P entry) ↔
      ∀ x, value = some x → P (name, toScalar x) := by
  cases value <;> simp [optional]

theorem fits_port (value : UInt16) : (port value).Fits := by
  have hlt := value.toNat_lt
  simp only [port, Scalar.Fits, Toml.Number.maxInteger]
  omega

theorem fits_word {value : UInt64} (h : value.toNat ≤ Toml.Number.maxInteger) :
    (word value).Fits := by
  simp only [word, Scalar.Fits]
  omega

@[simp] theorem port?_port (value : UInt16) : Read.port? (port value).toValue = some value := by
  have hlt : value.toNat < UInt16.size := value.toNat_lt
  simp only [port, Scalar.toValue, Read.port?]
  rw [if_pos (by omega)]
  simp

@[simp] theorem word?_word (value : UInt64) : Read.word? (word value).toValue = some value := by
  have hlt : value.toNat < UInt64.size := value.toNat_lt
  simp only [word, Scalar.toValue, Read.word?]
  rw [if_pos (by omega)]
  simp

theorem bool?_boolean (value : Bool) : Read.bool? (Scalar.boolean value).toValue = some value :=
  rfl

theorem string?_string (text : String) : Read.string? (Scalar.string text).toValue = some text :=
  rfl

@[simp] theorem lookup_field (key name : String) (scalar : Scalar) :
    (field name scalar).lookup key = if key = name then some scalar else none := by
  by_cases h : key = name
  · simp [field, h]
  · have hne : (key == name) = false := by simp [h]
    simp [field, List.lookup_cons, h, hne]

@[simp] theorem lookup_optional (key name : String) (toScalar : α → Scalar) (value : Option α) :
    (optional name toScalar value).lookup key =
      if key = name then value.map toScalar else none := by
  cases value with
  | none => simp [optional]
  | some x =>
      rw [optional, ← field, lookup_field]
      rfl

theorem keys_field (name : String) (scalar : Scalar) :
    ((field name scalar).map Prod.fst).Sublist [name] :=
  List.Sublist.refl [name]

theorem keys_optional (name : String) (toScalar : α → Scalar) (value : Option α) :
    ((optional name toScalar value).map Prod.fst).Sublist [name] := by
  cases value with
  | none => exact List.nil_sublist [name]
  | some x => exact List.Sublist.refl [name]

end Write

/-! ## Fields that are there -/

/-- A reader goes on with what it has read so far. -/
theorem bind_of_some {α β : Type} {first : Option α} {others : α → Option β} {a : α} {b : β}
    (h : first = some a) (h' : others a = some b) : (first >>= others) = some b :=
  Option.bind_eq_some_iff.mpr ⟨a, h, h'⟩

/-- The fields with these names are in a table as they are in another, save those that are
gone. -/
def Holds (gone : String → Prop) [DecidablePred gone] (names : List String)
    (old : List (String × Scalar)) (entries : Entries) : Prop :=
  ∀ name ∈ names, entries.find? name =
    if gone name then none else (old.lookup name).map Scalar.toValue

/-- A table is there and holds the fields that are not gone, or it is `absent` itself. -/
def Found (absent : Prop) (gone : String → Prop) [DecidablePred gone] (names : List String)
    (old : List (String × Scalar)) (found : Option Value) : Prop :=
  (∃ form entries, found = some (.table form entries) ∧ Holds gone names old entries) ∨
    found = none ∧ absent

section

variable {α : Type} {absent : Prop} {gone : String → Prop} [DecidablePred gone]
  {names : List String} {old : List (String × Scalar)} {entries : Entries}
  {read : Value → Option α}

/-- A field with a default is read as its value, or as the default if it is gone. -/
theorem Holds.get? (h : Holds gone names old entries) (field : Field) {scalar : Scalar}
    {value : α} (hname : field.name ∈ names) (hold : old.lookup field.name = some scalar)
    (hread : read scalar.toValue = some value) (default : α) :
    (FieldSource.named entries).get? field read default =
      some (if gone field.name then default else value) := by
  rw [FieldSource.get?, FieldSource.find?, h field.name hname, hold]
  by_cases hgone : gone field.name
  · rw [if_pos hgone, if_pos hgone]
  · rw [if_neg hgone, if_neg hgone]
    exact hread

/-- A field that may have no value is read as it is, or as none if it is gone. -/
theorem Holds.getOption? (h : Holds gone names old entries) (field : Field)
    {toScalar : α → Scalar} {value : Option α} (hname : field.name ∈ names)
    (hold : old.lookup field.name = value.map toScalar)
    (hread : ∀ x, read (toScalar x).toValue = some x) :
    (FieldSource.named entries).getOption? field read =
      some (if gone field.name then none else value) := by
  rw [FieldSource.getOption?.eq_def, FieldSource.find?, h field.name hname, hold]
  by_cases hgone : gone field.name
  · rw [if_pos hgone, if_pos hgone]
  · rw [if_neg hgone, if_neg hgone]
    cases value with
    | none => rfl
    | some x => exact congrArg (Option.map some) (hread x)

/-- A table is read with what it holds, or has its default if it is not there. -/
theorem Found.get? (field : Field) {value default : α}
    (h : Found absent gone names old (entries.find? field.name))
    (hread : ∀ form inner, entries.find? field.name = some (.table form inner) →
      Holds gone names old inner → read (.table form inner) = some value)
    (hdefault : absent → default = value) :
    (FieldSource.named entries).get? field read default = some value := by
  rw [FieldSource.get?, FieldSource.find?]
  obtain ⟨form, inner, hfound, hholds⟩ | ⟨hfound, habsent⟩ := h
  · rw [hfound]
    exact hread form inner hfound hholds
  · rw [hfound, hdefault habsent]

end

/-! ## General settings -/

namespace GeneralConfig

variable {gone : String → Prop} [DecidablePred gone]

/-- The names of the fields. -/
def fieldNames : List String := ["verbose", "log_filter"]

theorem entries_wellFormed (config : GeneralConfig) :
    ∀ entry ∈ config.entries, IsBareKey entry.1 ∧ entry.2.Fits := by
  simp only [entries, List.forall_mem_append, Write.forall_mem_field, Write.forall_mem_optional]
  exact ⟨⟨by decide, trivial⟩, fun _ _ => ⟨by decide, trivial⟩⟩

theorem keys_sublist (config : GeneralConfig) :
    (config.entries.map Prod.fst).Sublist fieldNames := by
  simp only [entries, List.map_append]
  exact (Write.keys_field _ _).append (Write.keys_optional _ _ _)

/-- The settings with the fields that are gone taken from others. -/
def without (gone : String → Prop) [DecidablePred gone] (config default : GeneralConfig) :
    GeneralConfig where
  verbose := if gone "verbose" then default.verbose else config.verbose
  logFilter := if gone "log_filter" then default.logFilter else config.logFilter

theorem without_all (h : ∀ name, gone name) (config default : GeneralConfig) :
    default = config.without gone default := by
  simp [without, h]

theorem ofValue?_holds {config : GeneralConfig} {entries : Entries}
    (h : Holds gone fieldNames config.entries entries) (form : TableForm) :
    GeneralConfig.ofValue? (.table form entries) = some (config.without gone {}) := by
  have hverbose : config.entries.lookup "verbose" = some (.boolean config.verbose) := by
    simp [GeneralConfig.entries, List.lookup_append]
  have hlogFilter : config.entries.lookup "log_filter" = config.logFilter.map .string := by
    simp [GeneralConfig.entries, List.lookup_append]
  rw [GeneralConfig.ofValue?]
  refine bind_of_some (a := .named entries) rfl ?_
  refine bind_of_some (h.get? ⟨"verbose", 0⟩ (by decide) hverbose (Write.bool?_boolean _) _) ?_
  exact bind_of_some (h.getOption? ⟨"log_filter", 1⟩ (by decide) hlogFilter
    Write.string?_string) rfl

end GeneralConfig

/-! ## Registration -/

namespace RegistrationConfig

variable {gone : String → Prop} [DecidablePred gone]

/-- The names of the fields. -/
def fieldNames : List String := ["enable", "server_ip", "server_port", "timeout_ms"]

theorem entries_wellFormed {config : RegistrationConfig}
    (h : config.timeoutMs.toNat ≤ Toml.Number.maxInteger) :
    ∀ entry ∈ config.entries, IsBareKey entry.1 ∧ entry.2.Fits := by
  simp only [entries, List.forall_mem_append, Write.forall_mem_field, Write.forall_mem_optional]
  refine ⟨⟨⟨⟨by decide, trivial⟩, fun _ _ => ⟨by decide, trivial⟩⟩, fun _ _ => ⟨by decide, ?_⟩⟩,
    by decide, ?_⟩
  · exact Write.fits_port _
  · exact Write.fits_word h

theorem keys_sublist (config : RegistrationConfig) :
    (config.entries.map Prod.fst).Sublist fieldNames := by
  simp only [entries, List.map_append]
  exact (((Write.keys_field _ _).append (Write.keys_optional _ _ _)).append
    (Write.keys_optional _ _ _)).append (Write.keys_field _ _)

/-- The settings with the fields that are gone taken from others. -/
def without (gone : String → Prop) [DecidablePred gone] (config default : RegistrationConfig) :
    RegistrationConfig where
  enable := if gone "enable" then default.enable else config.enable
  serverIp := if gone "server_ip" then default.serverIp else config.serverIp
  serverPort := if gone "server_port" then default.serverPort else config.serverPort
  timeoutMs := if gone "timeout_ms" then default.timeoutMs else config.timeoutMs

theorem without_all (h : ∀ name, gone name) (config default : RegistrationConfig) :
    default = config.without gone default := by
  simp [without, h]

theorem ofValue?_holds {config : RegistrationConfig} {entries : Entries}
    (h : Holds gone fieldNames config.entries entries) (form : TableForm) :
    RegistrationConfig.ofValue? (.table form entries) = some (config.without gone {}) := by
  have henable : config.entries.lookup "enable" = some (.boolean config.enable) := by
    simp [RegistrationConfig.entries, List.lookup_append]
  have hserverIp : config.entries.lookup "server_ip" = config.serverIp.map .string := by
    simp [RegistrationConfig.entries, List.lookup_append]
  have hserverPort : config.entries.lookup "server_port" = config.serverPort.map Write.port := by
    simp [RegistrationConfig.entries, List.lookup_append]
  have htimeout : config.entries.lookup "timeout_ms" = some (Write.word config.timeoutMs) := by
    simp [RegistrationConfig.entries, List.lookup_append]
  rw [RegistrationConfig.ofValue?]
  refine bind_of_some (a := .named entries) rfl ?_
  refine bind_of_some (h.get? ⟨"enable", 0⟩ (by decide) henable (Write.bool?_boolean _) _) ?_
  refine bind_of_some (h.getOption? ⟨"server_ip", 1⟩ (by decide) hserverIp Write.string?_string) ?_
  refine bind_of_some (h.getOption? ⟨"server_port", 2⟩ (by decide) hserverPort Write.port?_port) ?_
  exact bind_of_some (h.get? ⟨"timeout_ms", 3⟩ (by decide) htimeout (Write.word?_word _) _) rfl

end RegistrationConfig

/-! ## Health server -/

namespace ServerConfig

variable {absent' : Prop} {gone gone' : String → Prop} [DecidablePred gone]
  [DecidablePred gone']

/-- The names of the fields, without the table of the registration. -/
def fieldNames : List String :=
  ["enable", "bind_addr", "advertise_ip", "port", "read_timeout_ms"]

theorem entries_wellFormed {config : ServerConfig}
    (h : config.readTimeoutMs.toNat ≤ Toml.Number.maxInteger) :
    ∀ entry ∈ config.entries, IsBareKey entry.1 ∧ entry.2.Fits := by
  simp only [entries, List.forall_mem_append, Write.forall_mem_field, Write.forall_mem_optional]
  refine ⟨⟨⟨⟨⟨by decide, trivial⟩, by decide, trivial⟩, fun _ _ => ⟨by decide, trivial⟩⟩,
    by decide, ?_⟩, by decide, ?_⟩
  · exact Write.fits_port _
  · exact Write.fits_word h

theorem keys_sublist (config : ServerConfig) :
    (config.entries.map Prod.fst).Sublist fieldNames := by
  simp only [entries, List.map_append]
  exact ((((Write.keys_field _ _).append (Write.keys_field _ _)).append
    (Write.keys_optional _ _ _)).append (Write.keys_field _ _)).append (Write.keys_field _ _)

theorem registration_not_mem (config : ServerConfig) :
    "registration" ∉ config.entries.map Prod.fst :=
  fun hmem => absurd (config.keys_sublist.subset hmem) (by decide)

/-- The settings with the fields that are gone, and those that are gone in the registration,
taken from others. -/
def without (gone gone' : String → Prop) [DecidablePred gone] [DecidablePred gone']
    (config default : ServerConfig) : ServerConfig where
  enable := if gone "enable" then default.enable else config.enable
  bindAddr := if gone "bind_addr" then default.bindAddr else config.bindAddr
  advertiseIp := if gone "advertise_ip" then default.advertiseIp else config.advertiseIp
  port := if gone "port" then default.port else config.port
  readTimeoutMs := if gone "read_timeout_ms" then default.readTimeoutMs else config.readTimeoutMs
  registration := config.registration.without gone' default.registration

theorem without_all (h : ∀ name, gone name) (h' : ∀ name, gone' name)
    (config default : ServerConfig) : default = config.without gone gone' default := by
  simp [without, h, ← RegistrationConfig.without_all h']

theorem ofValue?_holds {config : ServerConfig} {entries : Entries}
    (h : Holds gone fieldNames config.entries entries)
    (h' : Found absent' gone' RegistrationConfig.fieldNames config.registration.entries
      (entries.find? "registration")) (habsent : absent' → ∀ name, gone' name)
    (form : TableForm) :
    ServerConfig.ofValue? (.table form entries) = some (config.without gone gone' {}) := by
  have henable : config.entries.lookup "enable" = some (.boolean config.enable) := by
    simp [ServerConfig.entries, List.lookup_append]
  have hbindAddr : config.entries.lookup "bind_addr" = some (.string config.bindAddr) := by
    simp [ServerConfig.entries, List.lookup_append]
  have hadvertiseIp :
      config.entries.lookup "advertise_ip" = config.advertiseIp.map .string := by
    simp [ServerConfig.entries, List.lookup_append]
  have hport : config.entries.lookup "port" = some (Write.port config.port) := by
    simp [ServerConfig.entries, List.lookup_append]
  have hreadTimeout :
      config.entries.lookup "read_timeout_ms" = some (Write.word config.readTimeoutMs) := by
    simp [ServerConfig.entries, List.lookup_append]
  rw [ServerConfig.ofValue?]
  refine bind_of_some (a := .named entries) rfl ?_
  refine bind_of_some (h.get? ⟨"enable", 0⟩ (by decide) henable (Write.bool?_boolean _) _) ?_
  refine bind_of_some (h.get? ⟨"bind_addr", 1⟩ (by decide) hbindAddr (Write.string?_string _) _) ?_
  refine bind_of_some (h.getOption? ⟨"advertise_ip", 2⟩ (by decide) hadvertiseIp
    Write.string?_string) ?_
  refine bind_of_some (h.get? ⟨"port", 3⟩ (by decide) hport (Write.port?_port _) _) ?_
  refine bind_of_some (h.get? ⟨"read_timeout_ms", 4⟩ (by decide) hreadTimeout
    (Write.word?_word _) _) ?_
  have hregistration := h'.get? ⟨"registration", 5⟩
    (fun form _ _ hholds => RegistrationConfig.ofValue?_holds hholds form)
    (fun habsent' => RegistrationConfig.without_all (habsent habsent') _ _)
  exact bind_of_some hregistration rfl

end ServerConfig

/-! ## Cnode client -/

namespace CnodeConfig

variable {gone : String → Prop} [DecidablePred gone]

/-- The names of the fields. -/
def fieldNames : List String :=
  ["enable", "server_ip", "server_port", "connect_timeout_ms", "poll_interval_ms",
    "initial_backoff_secs", "max_backoff_secs"]

theorem entries_wellFormed {config : CnodeConfig}
    (hconnect : config.connectTimeoutMs.toNat ≤ Toml.Number.maxInteger)
    (hpoll : config.pollIntervalMs.toNat ≤ Toml.Number.maxInteger)
    (hinitial : config.initialBackoffSecs.toNat ≤ Toml.Number.maxInteger)
    (hmax : config.maxBackoffSecs.toNat ≤ Toml.Number.maxInteger) :
    ∀ entry ∈ config.entries, IsBareKey entry.1 ∧ entry.2.Fits := by
  simp only [entries, List.forall_mem_append, Write.forall_mem_field, Write.forall_mem_optional]
  refine ⟨⟨⟨⟨⟨⟨⟨by decide, trivial⟩, fun _ _ => ⟨by decide, trivial⟩⟩, by decide, ?_⟩,
    by decide, ?_⟩, by decide, ?_⟩, by decide, ?_⟩, by decide, ?_⟩
  · exact Write.fits_port _
  · exact Write.fits_word hconnect
  · exact Write.fits_word hpoll
  · exact Write.fits_word hinitial
  · exact Write.fits_word hmax

theorem keys_sublist (config : CnodeConfig) :
    (config.entries.map Prod.fst).Sublist fieldNames := by
  simp only [entries, List.map_append]
  exact ((((((Write.keys_field _ _).append (Write.keys_optional _ _ _)).append
    (Write.keys_field _ _)).append (Write.keys_field _ _)).append (Write.keys_field _ _)).append
    (Write.keys_field _ _)).append (Write.keys_field _ _)

/-- The settings with the fields that are gone taken from others. -/
def without (gone : String → Prop) [DecidablePred gone] (config default : CnodeConfig) :
    CnodeConfig where
  enable := if gone "enable" then default.enable else config.enable
  serverIp := if gone "server_ip" then default.serverIp else config.serverIp
  serverPort := if gone "server_port" then default.serverPort else config.serverPort
  connectTimeoutMs :=
    if gone "connect_timeout_ms" then default.connectTimeoutMs else config.connectTimeoutMs
  pollIntervalMs :=
    if gone "poll_interval_ms" then default.pollIntervalMs else config.pollIntervalMs
  initialBackoffSecs :=
    if gone "initial_backoff_secs" then default.initialBackoffSecs
    else config.initialBackoffSecs
  maxBackoffSecs :=
    if gone "max_backoff_secs" then default.maxBackoffSecs else config.maxBackoffSecs

theorem without_all (h : ∀ name, gone name) (config default : CnodeConfig) :
    default = config.without gone default := by
  simp [without, h]

theorem ofValue?_holds {config : CnodeConfig} {entries : Entries}
    (h : Holds gone fieldNames config.entries entries) (form : TableForm) :
    CnodeConfig.ofValue? (.table form entries) = some (config.without gone {}) := by
  have henable : config.entries.lookup "enable" = some (.boolean config.enable) := by
    simp [CnodeConfig.entries, List.lookup_append]
  have hserverIp : config.entries.lookup "server_ip" = config.serverIp.map .string := by
    simp [CnodeConfig.entries, List.lookup_append]
  have hserverPort :
      config.entries.lookup "server_port" = some (Write.port config.serverPort) := by
    simp [CnodeConfig.entries, List.lookup_append]
  have hconnect :
      config.entries.lookup "connect_timeout_ms" = some (Write.word config.connectTimeoutMs) := by
    simp [CnodeConfig.entries, List.lookup_append]
  have hpoll :
      config.entries.lookup "poll_interval_ms" = some (Write.word config.pollIntervalMs) := by
    simp [CnodeConfig.entries, List.lookup_append]
  have hinitial : config.entries.lookup "initial_backoff_secs" =
      some (Write.word config.initialBackoffSecs) := by
    simp [CnodeConfig.entries, List.lookup_append]
  have hmax :
      config.entries.lookup "max_backoff_secs" = some (Write.word config.maxBackoffSecs) := by
    simp [CnodeConfig.entries, List.lookup_append]
  rw [CnodeConfig.ofValue?]
  refine bind_of_some (a := .named entries) rfl ?_
  refine bind_of_some (h.get? ⟨"enable", 0⟩ (by decide) henable (Write.bool?_boolean _) _) ?_
  refine bind_of_some (h.getOption? ⟨"server_ip", 1⟩ (by decide) hserverIp Write.string?_string) ?_
  refine bind_of_some (h.get? ⟨"server_port", 2⟩ (by decide) hserverPort (Write.port?_port _) _) ?_
  refine bind_of_some (h.get? ⟨"connect_timeout_ms", 3⟩ (by decide) hconnect
    (Write.word?_word _) _) ?_
  refine bind_of_some (h.get? ⟨"poll_interval_ms", 4⟩ (by decide) hpoll (Write.word?_word _) _) ?_
  refine bind_of_some (h.get? ⟨"initial_backoff_secs", 5⟩ (by decide) hinitial
    (Write.word?_word _) _) ?_
  exact bind_of_some (h.get? ⟨"max_backoff_secs", 6⟩ (by decide) hmax (Write.word?_word _) _) rfl

end CnodeConfig

end NodeHealth
