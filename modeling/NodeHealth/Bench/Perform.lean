import NodeHealth.Bench.Waiting

/-!
# Performing a script

`Bench.perform` carries out one step: what the step does at once, then what it waits for,
and then everything that needs no time.
-/

namespace NodeHealth.Bench

/-- What a step comes to before anything else happens: its answer, or what it waits for. -/
inductive Start
  | answer (answer : BenchAnswer) (bench : Bench)
  | wait (wait : Wait) (bench : Bench)

/-! ## Peers -/

/-- Give the scripted listener a mode; connections that were not accepted are reset. -/
def listen (bench : Bench) (mode : ListenMode) : Bench :=
  let net := match bench.listener with
    | some id => bench.world.net.closeListener id
    | none => bench.world.net
  let reception? : Option Reception := match mode with
    | .accepts => some .accepts
    | .ignores => some .ignores
    | .refuses => none
  let bench := { bench with world := { bench.world with net }, listener := none }
  match reception? with
  | none => bench
  | some reception =>
      match net.listen listenerAddress reception with
      | .ok (id, net) => { bench with world := { bench.world with net }, listener := some id }
      | .error _ => bench

/-- Connect a peer to an address. -/
def connect (bench : Bench) (address : Option SocketAddress) (name : String) : Start :=
  let net := bench.world.net
  let listener := address.bind fun address => net.listeners.findIdx? (·.hears address)
  match listener with
  | some id =>
      let (link, net) := net.enqueue id
      let bench := { bench with world := { bench.world with net } }
      .answer (.connected true) (bench.namePeer name ⟨link, .dialler⟩)
  | none => .answer (.connected false) bench

/-- Begin to read at a peer. -/
def beginRead (bench : Bench) (name : String) (missing : Option Nat) (within : Nat) : Start :=
  match bench.openPeer? name with
  | some peer => .wait (.read peer missing [] (bench.world.now + within)) bench
  | none => .answer (.bytes [] .closed) bench

/-! ## Sessions -/

/-- Open a connection with a session at one end and a peer at the other. -/
def openSession (bench : Bench) (name : String) (framing : Framing) (limit : Nat)
    (sendTimeoutMs : Option Nat) (narrow : Bool) : Bench :=
  let bench := match bench.session with
    | some session => bench.changeNet session.drop
    | none => bench
  let room := if narrow then some narrowRoom else none
  let (link, net) := bench.world.net.addLink { dialler := { room } }
  let session : Session := { link, side := .acceptor, framing, limit, sendTimeoutMs }
  { bench with world := { bench.world with net }, session := some session }.namePeer name
    ⟨link, .dialler⟩

/-- Ask something of the session. -/
def beginRequest (bench : Bench) (request : Session.Request) : Start :=
  match bench.session with
  | some session =>
      let (call, session) := session.call bench.world.now request
      let bench := { bench with session := some session }
      match call with
      | .ok call => .wait (.call request call) bench
      | .error answer => .answer (.ofSession answer) bench
  | none => .answer (.ofSession (request.failed .closed)) bench

/-- Dial the scripted listener. -/
def beginDial (bench : Bench) (timeout : Nat) : Start :=
  let (attempt, net) := bench.world.net.dial listenerAddress
  .wait (.dial ⟨attempt, bench.world.now + timeout⟩)
    { bench with world := { bench.world with net } }

/-! ## Servers and clients -/

/-- Start the health server. -/
def openHealth (bench : Bench) : Start :=
  match bench.health? with
  | none => .answer .ok bench
  | some (id, server) =>
      let (result, net, server) := server.start bench.world.net
      let bench := { bench with world := { bench.world with net } }.setTask id (.health server)
      .answer (.opened result) { bench with healthAddress := server.address.or bench.healthAddress }

/-- Begin to close the health server. -/
def beginCloseHealth (bench : Bench) : Start :=
  match bench.health? with
  | none => .answer .ok bench
  | some (id, server) =>
      if server.attached then
        .wait .closeHealth (bench.setTask id (.health (server.requestStop false)))
      else .answer .ok bench

/-- Start the cnode client. -/
def startCnode (bench : Bench) : Start :=
  match bench.cnode? with
  | none => .answer .ok bench
  | some (id, client) =>
      let (result, client) := client.start
      .answer (.started result) (bench.setTask id (.cnode client))

/-- Begin to stop the cnode client. -/
def beginStopCnode (bench : Bench) : Start :=
  match bench.cnode? with
  | none => .answer .ok bench
  | some (id, client) =>
      if client.attached then .wait .stopCnode (bench.setTask id (.cnode client.requestStop))
      else .answer .ok bench

/-- Make a cnode client, aimed at a target if that is the mock server. -/
def makeCnode (bench : Bench) (config : CnodeConfig) (target : Target) : Bench :=
  let config := match target, bench.address? .mock with
    | .mock, some address =>
        { config with serverIp := some address.ip.toText, serverPort := address.port }
    | _, _ => config
  let (id, bench) := bench.spawn (.cnode { config })
  { bench with cnode := some id }

/-- Make a health server. The former one is left alone. -/
def makeHealth (bench : Bench) (config : ServerConfig) : Bench :=
  let bench := match bench.health? with
    | some (id, server) => bench.setTask id (.health (server.forsake false))
    | none => bench
  let (id, bench) := bench.spawn (.health { config })
  { bench with health := some id }

/-- Make a group. The members of the former one are left alone. -/
def makeGroup (bench : Bench) (members : List MemberConfig) : Bench :=
  let bench := match bench.group? with
    | some (id, group) =>
        let members := group.members.map (Sidecar.forsake false)
        bench.setTask id (.group { group with members })
    | none => bench
  let members := members.map fun
    | .health config => Sidecar.health { config }
    | .cnode config => Sidecar.cnode { config }
  let (id, bench) := bench.spawn (.group { members })
  { bench with group := some id }

/-- Start the group; if that fails, wait until it is stopped again. -/
def beginStartAll (bench : Bench) : Start :=
  match bench.group? with
  | none => .answer .ok bench
  | some (id, members) =>
      let (failure, net, members) := members.startAll bench.world.net
      let bench := { bench with world := { bench.world with net } }.setTask id (.group members)
      if members.isStopping then .wait (.group (.groupStarted failure)) bench
      else .answer (.groupStarted failure) bench

/-- Begin to stop the group. -/
def beginStopAll (bench : Bench) : Start :=
  match bench.group? with
  | none => .answer .ok bench
  | some (id, members) => .wait (.group .ok) (bench.setTask id (.group members.stopAll))

/-- Make a mock cnode server. -/
def makeMock (bench : Bench) (atListener : Bool) : Start :=
  let port := if atListener then listenerAddress.port else 0
  match bench.world.net.listen ⟨.loopback, port⟩ with
  | .ok (id, net) =>
      .answer (.bound (.ok ()))
        { bench with world := { bench.world with net }, mock := some id }
  | .error cause => .answer (.bound (.error cause)) bench

/-- Begin a probe. -/
def beginProbe (bench : Bench) (target : Target) (timeoutMs : Nat) : Bench :=
  let port := ((bench.address? target).map SocketAddress.port).getD 0
  bench.beginCall (.probe { host := IpAddress.loopback.toText, port, timeoutMs }) .reports

/-- Begin a registration, if there is a registrar. -/
def beginRegistration (bench : Bench) (kind : CallKind) : Bench :=
  match bench.registrar with
  | some registrar => bench.beginCall (.registration { registrar }) kind
  | none => bench

/-- Begin a registration in the background, if that is wanted. -/
def sendRegistration (bench : Bench) : Start :=
  if bench.registrar.any Registrar.isReady then
    .answer (.spawned true) (bench.beginRegistration .detached)
  else .answer (.spawned false) bench

/-! ## Steps -/

/-- Begin a step. -/
def start (bench : Bench) (step : BenchStep) : Start :=
  let now := bench.world.now
  match step with
  | .listen mode => .answer .ok (bench.listen mode)
  | .accept name within => .wait (.accept name (now + within)) bench
  | .connect target name => bench.connect (bench.address? target) name
  | .write name bytes => .answer .ok (bench.atPeer name (.write · · bytes))
  | .shutdown name => .answer .ok (bench.atPeer name .finish)
  | .hangUp name => .answer .ok (bench.atPeer name .hangUp)
  | .reset name => .answer .ok (bench.atPeer name .abort)
  | .read name count within => bench.beginRead name (some count) within
  | .drain name within => bench.beginRead name none within
  | .sleep duration => .wait (.sleep (now + duration)) bench
  | .result within => .wait (.result (now + within)) bench
  | .session name framing limit sendTimeoutMs narrow =>
      .answer .ok (bench.openSession name framing limit sendTimeoutMs narrow)
  | .receive => bench.beginRequest (.receive none)
  | .receiveWithin timeout => bench.beginRequest (.receive (some timeout))
  | .send payload => bench.beginRequest (.send payload)
  | .waitReadable timeout => bench.beginRequest (.waitReadable timeout)
  | .stats => .answer (.stats ((bench.session.map Session.stats).getD {})) bench
  | .closeSession =>
      match bench.session with
      | some session => .answer .ok { bench.changeNet session.close with session := none }
      | none => .answer .ok bench
  | .dial timeout => bench.beginDial timeout
  | .resolve host port =>
      let lookup := bench.world.lookup.getD fun _ => .error .unknownHost
      .answer (.resolved (resolve lookup host port)) bench
  | .makeHealth config => .answer .ok (bench.makeHealth config)
  | .openHealth => bench.openHealth
  | .closeHealth => bench.beginCloseHealth
  | .healthStatus =>
      match bench.health? with
      | some (_, server) =>
          .answer (.healthStatus server.isListening server.address HealthServer.name) bench
      | none => .answer (.healthStatus false none HealthServer.name) bench
  | .makeCnode config target => .answer .ok (bench.makeCnode config target)
  | .startCnode => bench.startCnode
  | .stopCnode => bench.beginStopCnode
  | .cnodeState =>
      match bench.cnode? with
      | some (_, client) => .answer (.cnodeState client.state client.isRunning) bench
      | none => .answer (.cnodeState .stopped false) bench
  | .makeGroup members => .answer .ok (bench.makeGroup members)
  | .startAll => bench.beginStartAll
  | .stopAll => bench.beginStopAll
  | .members =>
      let members := (bench.group?.map fun (_, members) => members.members).getD []
      .answer (.members (members.map fun member => (member.name, member.isRunning))) bench
  | .makeRegistrar config =>
      let registrar := Registrar.ofServer config
      .answer (.request registrar.request) { bench with registrar := some registrar }
  | .register => .answer .ok (bench.beginRegistration .reports)
  | .sendRegistration => bench.sendRegistration
  | .probe target timeout => .answer .ok (bench.beginProbe target timeout)
  | .makeMock atListener => bench.makeMock atListener
  | .serveMock options =>
      match bench.mock with
      | some listener =>
          .answer .ok (bench.beginCall (.mockSession { listener, options }) .reports)
      | none => .answer .ok bench
  | .runMock options =>
      match bench.mock with
      | some listener =>
          .answer .ok (bench.beginCall (.mockRun { session := { listener, options } }) .reports)
      | none => .answer .ok bench

/-- Carry out a step, and let everything happen afterwards that needs no time. -/
def perform (bench : Bench) (step : BenchStep) : BenchAnswer × Bench :=
  let (answer, bench) := match bench.start step with
    | .answer answer bench => (answer, bench)
    | .wait wait bench => bench.await wait
  (answer, bench.settle)

end NodeHealth.Bench
