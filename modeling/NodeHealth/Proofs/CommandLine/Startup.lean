import NodeHealth.CommandLine.Program
import NodeHealth.Proofs.Net.Others

/-!
# What the program registers when it starts

The program starts its health server and its client and then registers the node. The request
is made from the configuration, and whether and where the health server listens is decided
elsewhere: the two agree exactly if the health server is enabled and its port is not left
open.

## Implementation notes

A registration is triggered by beginning its task, which has not run yet: what is said of the
health server holds at that moment.

-/

namespace NodeHealth

/-- The address at which the health server listens in a network, if it can listen there. -/
def ServerConfig.givenAddress? (config : ServerConfig) (net : Net) : Option SocketAddress :=
  config.bindAddress.toOption.bind fun address => (net.place address).toOption

/-- The port at which the server listens is the one that is configured, unless that is left
open. -/
theorem ServerConfig.port_of_given {config : ServerConfig} {net : Net} {given : SocketAddress}
    (h : config.givenAddress? net = some given) : given.port = config.port ↔ config.port ≠ 0 := by
  obtain ⟨address, haddress, hplace⟩ := Option.bind_eq_some_iff.mp h
  have hport : address.port = config.port := by
    unfold bindAddress at haddress
    split at haddress
    · cases haddress
      rfl
    · cases haddress
  obtain ⟨wanted, hwanted, rfl⟩ : ∃ wanted, net.place address = .ok wanted ∧ wanted = given := by
    cases hfound : net.place address with
    | error cause => simp [hfound, Except.toOption] at hplace
    | ok wanted => exact ⟨wanted, rfl, by simpa [hfound, Except.toOption] using hplace⟩
  obtain ⟨_, _, hgiven, hfixed⟩ := Net.place_eq_ok hwanted
  constructor
  · exact fun hsame => hsame ▸ hgiven
  · intro hclosed
    rw [hfixed (hport ▸ hclosed), hport]

namespace HealthServer

/-- The server takes connections at an open listener with this port. -/
structure ListensAt (server : HealthServer) (net : Net) (port : UInt16) : Prop where
  listening : server.isListening = true
  bound : ∃ loop listener, server.loop = some loop ∧
    net.listener? loop.listener = some listener ∧ listener.isOpen = true ∧
    server.address = some listener.address ∧ listener.address.port = port

/-- The server takes connections at the address that a configuration was given in a network. -/
def ListensAsGiven (server : HealthServer) (config : ServerConfig) (before net : Net) : Prop :=
  ∃ given, config.givenAddress? before = some given ∧ server.address = some given ∧
    server.ListensAt net given.port

variable {server : HealthServer} {net later : Net} {config : ServerConfig}

/-- A server listens on one port. -/
theorem ListensAt.unique {port other : UInt16} (h : server.ListensAt net port)
    (h' : server.ListensAt net other) : port = other := by
  obtain ⟨_, listener, _, _, _, haddress, hport⟩ := h.bound
  obtain ⟨_, listener', _, _, _, haddress', hport'⟩ := h'.bound
  have hsame : listener.address = listener'.address :=
    Option.some.inj (haddress.symm.trans haddress')
  rw [← hport, ← hport', hsame]

/-- A new server that starts listens exactly if it is enabled. -/
theorem start_fresh (h : start { config } net = (.ok (), later, server)) :
    server.isListening = config.enable ∧
      (config.enable = true → server.ListensAsGiven config net later) := by
  simp only [start, Bool.false_eq_true, if_false] at h
  split at h
  · rename_i henable
    rw [Bool.not_eq_true] at henable
    cases h
    exact ⟨henable.symm, fun henabled => by cases henable.symm.trans henabled⟩
  · rename_i henable
    rw [Classical.not_not] at henable
    split at h
    · cases h
    · rename_i address haddress
      split at h
      · cases h
      · rename_i listener net' hlisten
        cases h
        obtain ⟨given, nextPort, hplace, rfl, rfl⟩ := Net.listen_eq_ok hlisten
        refine ⟨henable.symm, fun _ => ⟨given, ?_, ?_, rfl, _, _, rfl,
          List.getElem?_concat_length, rfl, ?_, rfl⟩⟩
        · simp [ServerConfig.givenAddress?, haddress, hplace, Except.toOption]
        · simp [Net.addressOf?, Net.listener?]
        · simp [Net.addressOf?, Net.listener?]

end HealthServer

/-- A new client always starts. -/
theorem CnodeClient.start_fresh (config : CnodeConfig) :
    ∃ client, start { config } = (.ok (), client) := by
  simp only [start, Bool.false_eq_true, if_false]
  split <;> exact ⟨_, rfl⟩

theorem Sidecar.start_health {server next : HealthServer} {net later : Net}
    (h : server.start net = (.ok (), later, next)) :
    start (.health server) net = (.ok (), later, .health next) := by
  simp only [start, h]
  rfl

theorem Sidecar.start_health_failed {server next : HealthServer} {net later : Net}
    {error : HealthError} (h : server.start net = (.error error, later, next)) :
    start (.health server) net = (.error (.health error), later, .health next) := by
  simp only [start, h]
  rfl

theorem Sidecar.start_cnode {client next : CnodeClient} (net : Net)
    (h : client.start = (.ok (), next)) :
    start (.cnode client) net = (.ok (), net, .cnode next) := by
  simp only [start, h]
  rfl

namespace Config

/-- The sidecars of a configuration, as they are made. -/
def sidecars (config : Config) : SidecarGroup :=
  { members := [.health { config := config.server }, .cnode { config := config.cnode }] }

variable {config : Config} {net later : Net} {server : HealthServer}

theorem startAll_of_ok
    (h : HealthServer.start { config := config.server } net = (.ok (), later, server)) :
    ∃ group client, config.sidecars.startAll net = (none, later, group) ∧
      group.members = [.health server, .cnode client] := by
  obtain ⟨client, hclient⟩ := CnodeClient.start_fresh config.cnode
  refine ⟨⟨[.health server, .cnode client], [], false, [.start 0, .start 1]⟩, client, ?_, rfl⟩
  simp [sidecars, SidecarGroup.startAll, SidecarGroup.startMembers, Sidecar.start_health h,
    Sidecar.start_cnode later hclient]

theorem startAll_of_error {error : HealthError}
    (h : HealthServer.start { config := config.server } net = (.error error, later, server)) :
    ∃ group, config.sidecars.startAll net = (some (.health error), later, group) := by
  refine ⟨⟨[.health server, .cnode { config := config.cnode }], [], false, [.start 0]⟩, ?_⟩
  simp [sidecars, SidecarGroup.startAll, SidecarGroup.startMembers, Sidecar.start_health_failed h]

/-- A configuration with a registration server. -/
def registering (enable : Bool) (port : UInt16) : Config :=
  { server := {
      enable
      port
      registration :=
        { enable := true, serverIp := some "127.0.0.1", serverPort := some 50052 } } }

end Config

namespace Program

variable {program later : Program} {config : Config} {registration : Registration}

/-- What has become of the sidecars, and what the program goes on with, once it has tried to
start them. -/
inductive Started (program : Program) (config : Config) (later : Program) : Prop
  | failed {group : SidecarGroup} (hphase : later.phase = .exited 1)
      (htasks : later.world.tasks = program.world.tasks ++ [.group group])
  | running {group : SidecarGroup} {server : HealthServer} {client : CnodeClient}
      (hphase : later.phase = .running program.world.tasks.length)
      (htasks : later.world.tasks = program.world.tasks ++ .group group ::
        if (Registrar.ofServer config.server).isReady then
          [.registration { registrar := .ofServer config.server }] else [])
      (hmembers : group.members = [.health server, .cnode client])
      (hserver : HealthServer.start { config := config.server } program.world.net =
        (.ok (), later.world.net, server))

theorem started_run (program : Program) (config : Config) :
    program.Started config (program.run config) := by
  cases hserver : HealthServer.start { config := config.server } program.world.net with
  | mk result rest =>
      obtain ⟨net, server⟩ := rest
      cases result with
      | error error =>
          obtain ⟨group, hall⟩ := Config.startAll_of_error hserver
          rw [Config.sidecars] at hall
          refine @Started.failed _ _ _ group ?_ ?_ <;> simp only [run, hall] <;> rfl
      | ok done =>
          obtain ⟨group, client, hall, hmembers⟩ := Config.startAll_of_ok hserver
          rw [Config.sidecars] at hall
          refine @Started.running _ _ _ group _ _ ?_ ?_ hmembers (hserver.trans ?_) <;>
            by_cases hready : (Registrar.ofServer config.server).isReady = true <;>
            simp [run, hall, hready, World.spawn, print]

/-! ## What is registered -/

/-- The later program has begun a registration that was not there before. -/
def Triggers (program later : Program) (registration : Registration) : Prop :=
  ∃ id, program.world.task? id = none ∧ later.world.task? id = some (.registration registration)

/-- A health server of the program, which runs. -/
def Runs (program : Program) (server : HealthServer) : Prop :=
  ∃ id group, program.phase = .running id ∧ program.world.task? id = some (.group group) ∧
    .health server ∈ group.members

/-- If starting the program triggers a registration, its health server listens on the port that
is registered. -/
def RegistersWhatListens (program : Program) (config : Config) : Prop :=
  ∀ registration, program.Triggers (program.run config) registration →
    ∃ server, (program.run config).Runs server ∧
      server.ListensAt (program.run config).world.net registration.registrar.request.port

/-- A program that runs has one health server, the one that was started. -/
theorem runs_of_members {group : SidecarGroup} {server : HealthServer} {client : CnodeClient}
    {id : TaskId} (hphase : later.phase = .running id)
    (hgroup : later.world.task? id = some (.group group))
    (hmembers : group.members = [.health server, .cnode client]) (other : HealthServer) :
    later.Runs other ↔ other = server := by
  constructor
  · rintro ⟨found, members, hfound, htask, hmem⟩
    cases hphase.symm.trans hfound
    cases hgroup.symm.trans htask
    simpa [hmembers] using hmem
  · rintro rfl
    exact ⟨id, group, hphase, hgroup, by simp [hmembers]⟩

theorem Started.triggers (h : program.Started config later)
    (htriggers : program.Triggers later registration) :
    registration = { registrar := .ofServer config.server } ∧
      (Registrar.ofServer config.server).isReady = true ∧
      later.phase = .running program.world.tasks.length ∧
      ∃ server, (∀ other, later.Runs other ↔ other = server) ∧
        HealthServer.start { config := config.server } program.world.net =
          (.ok (), later.world.net, server) := by
  obtain ⟨id, hnew, htask⟩ := htriggers
  have hid : program.world.tasks.length ≤ id := List.getElem?_eq_none_iff.mp hnew
  cases h with
  | failed hphase htasks =>
      rw [World.task?, htasks, List.getElem?_append_right hid] at htask
      cases hposition : id - program.world.tasks.length <;> simp [hposition] at htask
  | @running group server client hphase htasks hmembers hserver =>
      have hgroup : later.world.task? program.world.tasks.length = some (.group group) := by
        simp [World.task?, htasks]
      rw [World.task?, htasks, List.getElem?_append_right hid] at htask
      cases hposition : id - program.world.tasks.length with
      | zero => simp [hposition] at htask
      | succ position =>
          split at htask
          · rename_i hready
            rw [hposition, List.getElem?_cons_succ] at htask
            have hregistration := List.mem_of_getElem? htask
            rw [List.mem_singleton] at hregistration
            cases hregistration
            exact ⟨rfl, hready, hphase, server, runs_of_members hphase hgroup hmembers, hserver⟩
          · simp [hposition] at htask

/-- A registration is triggered exactly if the sidecars have started and it is wanted and known
where. -/
theorem Started.triggers_iff (h : program.Started config later) :
    (∃ registration, program.Triggers later registration) ↔
      (∃ id, later.phase = .running id) ∧ (Registrar.ofServer config.server).isReady = true := by
  constructor
  · rintro ⟨registration, htriggers⟩
    obtain ⟨_, hready, hphase, _⟩ := h.triggers htriggers
    exact ⟨⟨_, hphase⟩, hready⟩
  · rintro ⟨⟨id, hrunning⟩, hready⟩
    cases h with
    | failed hphase => cases hphase.symm.trans hrunning
    | running _ htasks =>
        refine ⟨{ registrar := .ofServer config.server }, program.world.tasks.length + 1, ?_, ?_⟩
        · simp [World.task?]
        · simp [World.task?, htasks, hready]

/-- What is registered is what listens exactly if the health server is enabled and its port is
not left open. -/
theorem registersWhatListens_iff (program : Program) (config : Config) :
    program.RegistersWhatListens config ↔
      ((∃ registration, program.Triggers (program.run config) registration) →
        config.server.enable = true ∧ config.server.port ≠ 0) := by
  have hstarted := started_run program config
  constructor
  · rintro hwhat ⟨registration, htriggers⟩
    obtain ⟨other, hother, hregistered⟩ := hwhat registration htriggers
    obtain ⟨rfl, _, _, server, hruns, hserver⟩ := hstarted.triggers htriggers
    obtain ⟨hlistening, hlistens⟩ := HealthServer.start_fresh hserver
    obtain rfl := (hruns other).mp hother
    have henable : config.server.enable = true := hlistening.symm.trans hregistered.listening
    obtain ⟨given, hgiven, _, hgivenAt⟩ := hlistens henable
    exact ⟨henable, (ServerConfig.port_of_given hgiven).mp (hgivenAt.unique hregistered)⟩
  · intro hfixed registration htriggers
    obtain ⟨henable, hport⟩ := hfixed ⟨registration, htriggers⟩
    obtain ⟨rfl, _, _, server, hruns, hserver⟩ := hstarted.triggers htriggers
    obtain ⟨_, hlistens⟩ := HealthServer.start_fresh hserver
    obtain ⟨given, hgiven, _, hgivenAt⟩ := hlistens henable
    rw [(ServerConfig.port_of_given hgiven).mpr hport] at hgivenAt
    exact ⟨server, (hruns server).mpr rfl, hgivenAt⟩

/-- What is registered is what the configuration says. When the registration is triggered the
health server of the program listens exactly if it is enabled, at the port of the configuration
or at a free one if that is 0; so what is registered is what listens exactly if the health
server is enabled and its port is not left open. -/
theorem registers_what_listens (program : Program) (config : Config) :
    ((∃ registration, program.Triggers (program.run config) registration) ↔
        (∃ id, (program.run config).phase = .running id) ∧
          config.server.registration.enable = true ∧
          config.server.registration.target? ≠ none) ∧
      (∀ registration, program.Triggers (program.run config) registration →
        registration.registrar.request =
            ⟨NodeType.amf, config.server.advertisedIp, config.server.port⟩ ∧
          ∃ server, (∀ other, (program.run config).Runs other ↔ other = server) ∧
            server.isListening = config.server.enable ∧
            (config.server.enable = true →
              server.ListensAsGiven config.server program.world.net
                (program.run config).world.net)) ∧
      (program.RegistersWhatListens config ↔
        ((∃ registration, program.Triggers (program.run config) registration) →
          config.server.enable = true ∧ config.server.port ≠ 0)) := by
  have hstarted := started_run program config
  refine ⟨?_, fun registration htriggers => ?_, registersWhatListens_iff program config⟩
  · rw [hstarted.triggers_iff]
    simp [Registrar.isReady, Registrar.ofServer, Option.isSome_iff_ne_none]
  · obtain ⟨rfl, _, _, server, hruns, hserver⟩ := hstarted.triggers htriggers
    obtain ⟨hlistening, hlistens⟩ := HealthServer.start_fresh hserver
    exact ⟨rfl, server, hruns, hlistening, hlistens⟩

/-- A health server on its usual port. -/
theorem registers_what_listens_at_usual_port :
    (∃ registration, Triggers { phase := .exited 0 }
        (run { phase := .exited 0 } (.registering true defaultHealthPort)) registration) ∧
      RegistersWhatListens { phase := .exited 0 } (.registering true defaultHealthPort) := by
  obtain ⟨htriggers, _, hwhat⟩ := registers_what_listens { phase := .exited 0 }
    (.registering true defaultHealthPort)
  exact ⟨htriggers.mpr ⟨⟨0, rfl⟩, rfl, by decide⟩, hwhat.mpr fun _ => ⟨rfl, by decide⟩⟩

/-- A program whose health server is not enabled registers a port at which it does not listen,
and one whose health server listens at any free port registers port 0. -/
theorem registers_without_listening :
    ¬RegistersWhatListens { phase := .exited 0 } (.registering false defaultHealthPort) ∧
      ¬RegistersWhatListens { phase := .exited 0 } (.registering true 0) := by
  constructor <;> intro hwhat <;> have hfixed := (registersWhatListens_iff _ _).mp hwhat
  · cases (hfixed ((started_run _ _).triggers_iff.mpr ⟨⟨0, rfl⟩, rfl⟩)).1
  · exact (hfixed ((started_run _ _).triggers_iff.mpr ⟨⟨0, rfl⟩, rfl⟩)).2 rfl

end Program

end NodeHealth
