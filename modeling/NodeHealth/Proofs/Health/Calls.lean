import NodeHealth.Proofs.Health.Closing

/-!
# Opening and closing the health server

A `HealthServerRun` is a health server over all its calls, in any order, while others do what
they like. Between two calls the server listens or is as it was made; while it listens it
serves, and otherwise nobody is heard at an address at which it listened. Together with what the
calls do this is `HealthServerRun.calls_consistent`.

## Implementation notes

A call that opens the server is one change; a call that closes it lasts until its loop is over,
and no other call is made before it returns. The record of an open server is begun anew with
every listener, and while the server has no loop it holds nothing. `HealthServerRun.Stage` says
which of these a run is in.

-/

namespace NodeHealth

/-- Nothing is held. -/
def Net.Holdings.nothing : Net.Holdings where
  ends := fun _ _ => False
  attempts := fun _ => False
  listeners := fun _ => False

/-- A health server among others, with the listeners that it had and their addresses, the last
one first. -/
structure HealthServerRun extends Service where
  places : List (ListenerId × SocketAddress) := []

namespace HealthServerRun

/-- A call that closes the server has not returned yet. -/
def Closes (run : HealthServerRun) : Prop :=
  ∃ takesOne, run.server.signal = .given takesOne

/-- A call that opens the server. A new listener begins a new record. -/
def opens (run : HealthServerRun) : Except HealthError Unit × HealthServerRun :=
  match run.server.start run.net with
  | (result, net, server) =>
      if run.server.attached = false ∧ server.attached = true then
        (result,
          { now := run.now, net, server
            opened := run.now
            listener := run.net.listeners.length
            places := server.address.toList.map (run.net.listeners.length, ·) ++ run.places })
      else (result, { run with net, server })

/-- One change of a run. -/
inductive Move (run : HealthServerRun) : HealthServerRun → Prop
  | step {net : Net} {server : HealthServer}
      (hstep : run.server.step run.now run.net = some (net, server)) :
      Move run { run with toService := run.after net server }
  | others {net : Net} (hloop : run.server.loop ≠ none)
      (hforeign : run.net.Foreign run.holdings net) :
      Move run { run with toService := (run.joined net).noted }
  /-- Others act while the server has no loop. -/
  | away {net : Net} (hloop : run.server.loop = none)
      (hforeign : run.net.Foreign .nothing net) : Move run { run with net }
  | wait {now : Instant} (hwaits : run.Waits) (hnow : run.now ≤ now)
      (hwake : ∀ wake, run.server.wake? = some wake → now ≤ wake) :
      Move run { run with now }
  | opens (hcloses : ¬run.Closes) : Move run run.opens.2
  | close (takesOne : Bool) (hcloses : ¬run.Closes) :
      Move run { run with server := run.server.requestStop takesOne }
  | returns (hcloses : run.Closes) (hloop : run.server.loop = none) :
      Move run { run with server := run.server.finishStop }

/-- A run that is reached from a new server in any network. -/
inductive Reachable (config : ServerConfig) : HealthServerRun → Prop
  | begin (now : Instant) (net : Net) :
      Reachable config { now, net, server := { config }, opened := now, listener := 0 }
  | move {run later : HealthServerRun} (h : Reachable config run) (hmove : run.Move later) :
      Reachable config later

/-- Where a run is in the life of its server. -/
inductive Stage (config : ServerConfig) (run : HealthServerRun) : Prop
  | shut (hserver : run.server = { config })
  | listening (hservice : run.toService.Reachable) (hconfig : run.server.config = config)
  | closing {first : Service} {steps : Nat}
      (hclosing : first.Closing (fun _ => True) steps run.toService)
      (hloop : run.server.loop ≠ none) (hconfig : run.server.config = config)
  | ended (hdismissed : run.server.Dismissed) (hloop : run.server.loop = none)
      (hconfig : run.server.config = config)

variable {config : ServerConfig} {run later : HealthServerRun}

/-! ## Opening -/

theorem opens_of_start {result : Except HealthError Unit}
    (h : run.server.start run.net = (result, run.net, run.server)) :
    run.opens = (result, run) := by
  simp only [opens, h]
  rw [if_neg (fun hnow => by simp [hnow.1] at hnow)]

theorem opens_of_listening {net : Net} {server : HealthServer} {address : SocketAddress}
    (h : run.server.start run.net = (.ok (), net, server))
    (hbefore : run.server.attached = false) (hafter : server.attached = true)
    (haddress : server.address = some address) :
    run.opens = (.ok (),
      { now := run.now, net, server
        opened := run.now
        listener := run.net.listeners.length
        places := (run.net.listeners.length, address) :: run.places }) := by
  simp only [opens, h, haddress]
  rw [if_pos ⟨hbefore, hafter⟩]
  rfl

/-- A call that opens the server leaves all as it is, or the server has a new listener. -/
theorem opens_cases (run : HealthServerRun) :
    run.server.Opens run.net run.opens.1 run.net run.server ∧
        run.opens.2 = run ∨
      ∃ net server address, run.server.Opens run.net (.ok ()) net server ∧
        run.server.start run.net = (.ok (), net, server) ∧
        run.server.attached = false ∧ server.isListening = true ∧
        server.address = some address ∧
        run.opens = (.ok (),
          { now := run.now, net, server
            opened := run.now
            listener := run.net.listeners.length
            places := (run.net.listeners.length, address) :: run.places }) := by
  have hopens := HealthServer.opens_start run.server run.net
  obtain ⟨⟨result, net, server⟩, hstart⟩ : ∃ started, run.server.start run.net = started :=
    ⟨_, rfl⟩
  rw [hstart] at hopens
  simp only at hopens
  cases hopens with
  | listens hattached henable haddress hlisten =>
      obtain ⟨listener, hlistener, _⟩ := Net.receives_listen hlisten
      have hbound : Net.addressOf? _ _ = some listener.address :=
        congrArg (Option.map Listener.address) hlistener
      exact .inr ⟨_, _, listener.address, .listens hattached henable haddress hlisten, hstart,
        hattached, rfl, hbound, opens_of_listening hstart hattached rfl hbound⟩
  | alreadyRunning hattached =>
      rw [opens_of_start hstart]
      exact .inl ⟨.alreadyRunning hattached, rfl⟩
  | disabled hattached henable =>
      rw [opens_of_start hstart]
      exact .inl ⟨.disabled hattached henable, rfl⟩
  | misconfigured hattached henable haddress =>
      rw [opens_of_start hstart]
      exact .inl ⟨.misconfigured hattached henable haddress, rfl⟩
  | refused hattached henable haddress hlisten =>
      rw [opens_of_start hstart]
      exact .inl ⟨.refused hattached henable haddress hlisten, rfl⟩

/-! ## The stages of a run -/

theorem stage_step (h : run.Stage config) {net : Net} {server : HealthServer}
    (hstep : run.server.step run.now run.net = some (net, server)) :
    Stage config { run with toService := run.after net server } := by
  have hpending := HealthServer.loop_of_step hstep
  have hkeeps : run.server.Fits → server.config = run.server.config := by
    intro hfits
    have hserver := congrArg HealthServer.config (HealthServer.turn_of_step hfits hstep).keeps
    exact hserver
  have hserver := Service.server_after run.toService net server
  cases h with
  | shut hfresh =>
      rw [hfresh] at hpending
      exact absurd rfl hpending
  | listening hservice hconfig =>
      refine .listening (.move hservice (.step hstep) trivial) ?_
      exact (congrArg _ hserver).trans ((hkeeps hservice.sound.fits).trans hconfig)
  | closing hclosing _ hconfig =>
      have hlater := hclosing.step hstep trivial
      have hsame : (run.after net server).server.config = config :=
        (congrArg _ hserver).trans ((hkeeps hclosing.keeps.2.1).trans hconfig)
      by_cases hloop : (run.after net server).server.loop = none
      · exact .ended hlater.keeps.1 hloop hsame
      · exact .closing hlater hloop hsame
  | ended _ hloop => exact absurd hloop hpending

/-- Between calls, a server without a loop is as it was made. -/
theorem Stage.fresh (h : run.Stage config) (hattached : run.server.attached = false)
    (hcloses : ¬run.Closes) : run.server = { config } := by
  cases h with
  | shut hfresh => exact hfresh
  | listening hservice => cases hattached.symm.trans hservice.sound.attached
  | closing hclosing => exact absurd hclosing.keeps.1.signal hcloses
  | ended hdismissed => exact absurd hdismissed.signal hcloses

theorem stage_opens (h : run.Stage config) (hcloses : ¬run.Closes) :
    run.opens.2.Stage config := by
  rcases run.opens_cases with ⟨_, hsame⟩ | ⟨net, server, address, hopens, hstart, hattached,
    hlistening, _, hlater⟩
  · rw [hsame]
    exact h
  · rw [hlater]
    have hconfig : server.config = config := by
      rw [h.fresh hattached hcloses] at hopens
      cases hopens <;> rfl
    exact .listening (.begin run.now hstart hlistening trivial) hconfig

theorem stage_close (h : run.Stage config) (takesOne : Bool) (hcloses : ¬run.Closes) :
    Stage config { run with server := run.server.requestStop takesOne } := by
  cases h with
  | shut hfresh => exact .shut (by rw [hfresh]; rfl)
  | listening hservice hconfig =>
      have hclosing := Service.Closing.call takesOne hservice
      obtain ⟨_, hloop, _⟩ := hservice.sound.loop
      have hrequest : run.server.requestStop takesOne = { run.server with
          running := false, signal := .given takesOne, attached := false } := by
        simp only [HealthServer.requestStop, hservice.sound.attached, if_true]
      refine .closing hclosing ?_ ?_
      · rw [hrequest]
        simp [hloop]
      · rw [hrequest]
        exact hconfig
  | closing hclosing => exact absurd hclosing.keeps.1.signal hcloses
  | ended hdismissed => exact absurd hdismissed.signal hcloses

theorem Move.stage (h : run.Stage config) (hmove : run.Move later) : later.Stage config := by
  cases hmove with
  | step hstep => exact stage_step h hstep
  | others hloop hforeign =>
      cases h with
      | shut hfresh =>
          rw [hfresh] at hloop
          exact absurd rfl hloop
      | listening hservice hconfig =>
          exact .listening (.move hservice (.others hforeign) trivial) hconfig
      | closing hclosing _ hconfig =>
          exact .closing (hclosing.others hloop hforeign trivial) hloop hconfig
      | ended _ hnone => exact absurd hnone hloop
  | away hloop _ =>
      cases h with
      | shut hfresh => exact .shut hfresh
      | listening hservice =>
          obtain ⟨_, hsome, _⟩ := hservice.sound.loop
          cases hloop.symm.trans hsome
      | closing _ hpending => exact absurd hloop hpending
      | ended hdismissed _ hconfig => exact .ended hdismissed hloop hconfig
  | wait hwaits hnow hwake =>
      cases h with
      | shut hfresh => exact .shut hfresh
      | listening hservice hconfig =>
          exact .listening (.move hservice (.wait hwaits hnow hwake) trivial) hconfig
      | closing hclosing hloop hconfig =>
          exact .closing (hclosing.wait hloop hwaits hnow hwake trivial) hloop hconfig
      | ended hdismissed hloop hconfig => exact .ended hdismissed hloop hconfig
  | opens hcloses => exact stage_opens h hcloses
  | close takesOne hcloses => exact stage_close h takesOne hcloses
  | returns hcloses hloop =>
      obtain ⟨takesOne, hgiven⟩ := hcloses
      cases h with
      | shut hfresh => exact .shut (by rw [hfresh]; rfl)
      | listening hservice => cases hgiven.symm.trans hservice.sound.signal
      | closing _ hpending => exact absurd hloop hpending
      | ended hdismissed _ hconfig => exact .shut (hconfig ▸ hdismissed.finishStop hloop)

theorem Reachable.stage (h : run.Reachable config) : run.Stage config := by
  induction h with
  | begin now net => exact .shut rfl
  | move _ hmove ih => exact hmove.stage ih

/-! ## The addresses of a run -/

/-- All listeners that the server had are closed but for the one that its loop has, and the
address that it shows is among theirs. -/
structure Kept (run : HealthServerRun) : Prop where
  closed : ∀ place ∈ run.places, run.net.Closed place.1 ∨
    place.1 = run.listener ∧ run.server.loop ≠ none
  isLocal : ∀ place ∈ run.places, run.net.isWhole = true → place.2.ip.isLocal = true
  address : ∀ address, run.server.address = some address →
    (run.listener, address) ∈ run.places

/-- Whatever opens no listener again leaves a run in order. -/
theorem Kept.of_deafens (h : run.Kept) {net : Net} (hdeafens : run.net.Deafens net)
    (hendures : run.net.Endures net) (hnet : later.net = net)
    (hlistener : later.listener = run.listener) (hplaces : later.places = run.places)
    (haddress : later.server.address = run.server.address)
    (hloop : run.server.loop ≠ none → later.server.loop = none →
      net.Closed run.listener) : later.Kept where
  closed := by
    rw [hplaces, hnet, hlistener]
    intro place hplace
    rcases h.closed place hplace with hclosed | ⟨hcurrent, hpending⟩
    · exact .inl (hclosed.stays hdeafens hendures)
    · by_cases hnone : later.server.loop = none
      · exact .inl (hcurrent ▸ hloop hpending hnone)
      · exact .inr ⟨hcurrent, hnone⟩
  isLocal := by
    rw [hplaces, hnet, hendures.isWhole]
    exact h.isLocal
  address := by
    rw [hplaces, haddress, hlistener]
    exact h.address

theorem kept_step (h : run.Kept) (hstage : run.Stage config) {net : Net}
    {server : HealthServer}
    (hstep : run.server.step run.now run.net = some (net, server)) :
    Kept { run with toService := run.after net server } := by
  have hpending := HealthServer.loop_of_step hstep
  have hserver := Service.server_after run.toService net server
  have hnet := Service.net_after run.toService net server
  have hlistener := (Service.listener_after run.toService net server).1
  have hcase : run.server.Turn run.now run.net net server ∧
      ((run.after net server).server.loop = none → net.Closed run.listener) := by
    cases hstage with
    | shut hfresh =>
        rw [hfresh] at hpending
        exact absurd rfl hpending
    | listening hservice =>
        have hturn := HealthServer.turn_of_step hservice.sound.fits hstep
        refine ⟨hturn, fun hnone => ?_⟩
        obtain ⟨_, hloop, _⟩ := (hservice.sound.turn hturn).loop
        cases hnone.symm.trans hloop
    | closing hclosing =>
        refine ⟨hclosing.turn hstep, fun hnone => ?_⟩
        obtain ⟨listener, hfound, hclosed, _⟩ := ((hclosing.step hstep trivial).over hnone).deaf
        rw [hnet, hlistener] at hfound
        exact ⟨listener, hfound, hclosed⟩
    | ended _ hnone => exact absurd hnone hpending
  obtain ⟨hturn, hclosed⟩ := hcase
  refine h.of_deafens hturn.deafens hturn.endures hnet hlistener rfl ?_ (fun _ => hclosed)
  have haddress := congrArg HealthServer.address hturn.keeps
  exact (congrArg _ hserver).trans haddress

theorem kept_opens (h : run.Kept) (hstage : run.Stage config)
    (hcloses : ¬run.Closes) : run.opens.2.Kept := by
  rcases run.opens_cases with ⟨_, hsame⟩ | ⟨net, server, address, hopens, _, hattached, _,
    haddress, hlater⟩
  · rw [hsame]
    exact h
  · rw [congrArg Prod.snd hlater]
    have hfresh := hstage.fresh hattached hcloses
    cases hopens with
    | disabled =>
        rw [hfresh] at haddress
        cases haddress
    | listens _ _ _ hlisten =>
        have hid := Net.id_of_listen hlisten
        subst hid
        constructor
        case closed =>
          intro place hplace
          rcases List.mem_cons.mp hplace with rfl | hbefore
          · exact .inr ⟨rfl, nofun⟩
          · rcases h.closed place hbefore with hclosed | ⟨_, hpending⟩
            · exact .inl (hclosed.stays (Net.deafens_listen hlisten) (Net.endures_listen hlisten))
            · exact absurd (congrArg HealthServer.loop hfresh) hpending
        case isLocal =>
          intro place hplace hwhole
          rcases List.mem_cons.mp hplace with rfl | hbefore
          · exact Net.isLocal_of_listen hlisten haddress hwhole
          · exact h.isLocal place hbefore ((Net.endures_listen hlisten).isWhole ▸ hwhole)
        case address =>
          intro other hother
          cases haddress.symm.trans hother
          exact List.mem_cons_self

theorem Move.kept (h : run.Kept) (hstage : run.Stage config) (hmove : run.Move later) :
    later.Kept := by
  cases hmove with
  | step hstep => exact kept_step h hstage hstep
  | others hloop hforeign =>
      exact h.of_deafens hforeign.deafens hforeign.endures rfl rfl rfl rfl
        (fun hpending hnone => absurd hnone hpending)
  | away hloop hforeign =>
      exact h.of_deafens hforeign.deafens hforeign.endures rfl rfl rfl rfl
        (fun hpending => absurd hloop hpending)
  | wait => exact ⟨h.closed, h.isLocal, h.address⟩
  | opens hcloses => exact kept_opens h hstage hcloses
  | close takesOne _ =>
      unfold HealthServer.requestStop
      split
      · exact ⟨h.closed, h.isLocal, h.address⟩
      · exact h
  | returns _ hloop =>
      unfold HealthServer.finishStop
      split
      · exact h
      · exact ⟨h.closed, h.isLocal, nofun⟩

theorem Reachable.kept (h : run.Reachable config) : run.Kept := by
  induction h with
  | begin now net => exact ⟨nofun, nofun, nofun⟩
  | move hrun hmove ih => exact hmove.kept ih hrun.stage

/-! ## All calls -/

/-- A run whose server listens: whoever dials the address gets a connection that joins the
line, and the line is served. -/
structure Serves (run : HealthServerRun) : Prop where
  loop : run.server.loop ≠ none
  dial : ∀ address, run.server.address = some address →
    (run.net.dial address).2.attempt (run.net.dial address).1 =
        .connected run.net.links.length ∧
      run.net.links.length ∈ (run.net.dial address).2.queue run.listener
  service : run.toService.Reachable
  inTurn : run.InTurn
  settles : ∃ last, run.Settles last

/-- What calls come to that are made now. -/
structure Answers (config : ServerConfig) (run : HealthServerRun) : Prop where
  alreadyRunning : run.opens.1 = .error .alreadyRunning ↔ run.server.isListening = true
  /-- A call that fails changes nothing. -/
  fails : ∀ error, run.opens.1 = .error error → run.opens.2 = run
  disabled : run.server.isListening = false → config.enable = false →
    run.opens = (.ok (), run)
  invalid : run.server.isListening = false → config.enable = true →
    ∀ error, config.bindAddress = .error error → run.opens.1 = .error (.config error)
  refused : run.server.isListening = false → config.enable = true →
    ∀ address cause, config.bindAddress = .ok address →
      run.net.listen address = .error cause →
        run.opens.1 = .error (.bindFailed address cause)
  /-- Whatever came before, a call succeeds if the address is free. -/
  listens : run.server.isListening = false → config.enable = true →
    ∀ address listener net, config.bindAddress = .ok address →
      run.net.listen address = .ok (listener, net) →
        run.opens.1 = .ok () ∧ run.opens.2.net = net ∧
          run.opens.2.server.isListening = true
  /-- A call that closes a server that does not listen returns at once and changes nothing. -/
  closed : run.server.isListening = false → ∀ takesOne,
    run.server.requestStop takesOne = run.server ∧ run.server.isStopping = false ∧
      run.server.finishStop = run.server

/-- What holds of a run at any time. -/
structure Consistent (config : ServerConfig) (run : HealthServerRun) : Prop where
  listening_iff : run.server.isListening = true ↔ run.server.address ≠ none ∧
    run.server.signal = .ready ∧ run.server.attached = true
  serves : run.server.isListening = true → run.Serves
  places : ∀ address, run.server.address = some address →
    (run.listener, address) ∈ run.places
  /-- Between calls, a server that does not listen is as it was made. -/
  fresh : run.server.isListening = false → ¬run.Closes → run.server = { config }
  answers : ¬run.Closes → run.Answers config
  /-- Whoever dials an address at which the server listened is refused, or on a part of a
  machine left to others, if nobody else is heard there. -/
  refuses : run.server.isListening = false → ¬run.Closes → ∀ place ∈ run.places,
    (∀ id listener, run.net.listener? id = some listener →
      listener.hears place.2 = true → ∃ other ∈ run.places, other.1 = id) →
    run.net.answer place.2 =
      (if run.net.isWhole = true then .failed .connectionRefused else .waiting place.2,
        run.net)

theorem Stage.listening_iff (h : run.Stage config) :
    run.server.isListening = true ↔ run.server.address ≠ none ∧
      run.server.signal = .ready ∧ run.server.attached = true := by
  cases h with
  | shut hfresh => simp [hfresh, HealthServer.isListening]
  | listening hservice =>
      have hsound := hservice.sound
      obtain ⟨_, _, _, haddress, _⟩ := hsound.listens
      simp [HealthServer.isListening, hsound.attached, hsound.running, hsound.signal, haddress]
  | closing hclosing => simp [HealthServer.isListening, hclosing.keeps.1.attached]
  | ended hdismissed => simp [HealthServer.isListening, hdismissed.attached]

theorem Stage.serves (h : run.Stage config) (hlistening : run.server.isListening = true) :
    run.Serves := by
  have hattached := (h.listening_iff.mp hlistening).2.2
  cases h with
  | shut hfresh =>
      rw [hfresh] at hattached
      cases hattached
  | listening hservice =>
      obtain ⟨_, hloop, _⟩ := hservice.sound.loop
      obtain ⟨listener, hreceives, hbound⟩ := hservice.receives
      refine ⟨by simp [hloop], fun address haddress => ?_, hservice, hservice.sound.inTurn,
        hservice.sound.settles⟩
      cases hbound.symm.trans haddress
      exact hreceives.dial
  | closing hclosing => cases hattached.symm.trans hclosing.keeps.1.attached
  | ended hdismissed => cases hattached.symm.trans hdismissed.attached

theorem Stage.fresh_of_not_listening (h : run.Stage config)
    (hlistening : run.server.isListening = false) (hcloses : ¬run.Closes) :
    run.server = { config } := by
  refine h.fresh (Bool.eq_false_iff.mpr fun hattached => ?_) hcloses
  cases h with
  | shut hfresh =>
      rw [hfresh] at hattached
      cases hattached
  | listening hservice =>
      simp [HealthServer.isListening, hattached, hservice.sound.running] at hlistening
  | closing hclosing => exact hcloses hclosing.keeps.1.signal
  | ended hdismissed => exact hcloses hdismissed.signal

theorem Stage.answers (h : run.Stage config) (hcloses : ¬run.Closes) :
    run.Answers config := by
  have hfresh := fun hlistening => h.fresh_of_not_listening hlistening hcloses
  constructor
  case alreadyRunning =>
    constructor
    · intro hresult
      rcases run.opens_cases with ⟨hopens, _⟩ | ⟨_, _, _, _, _, _, _, _, hlater⟩
      · rw [hresult] at hopens
        cases hopens with
        | alreadyRunning hattached =>
            apply Classical.byContradiction
            intro hlistening
            rw [hfresh (Bool.eq_false_iff.mpr hlistening)] at hattached
            cases hattached
      · rw [hlater] at hresult
        cases hresult
    · intro hlistening
      refine congrArg Prod.fst (opens_of_start ?_)
      unfold HealthServer.start
      rw [if_pos (h.listening_iff.mp hlistening).2.2]
  case fails =>
    intro error herror
    rcases run.opens_cases with ⟨_, hsame⟩ | ⟨_, _, _, _, _, _, _, _, hlater⟩
    · exact hsame
    · rw [hlater] at herror
      cases herror
  case disabled =>
    intro hlistening henable
    apply opens_of_start
    rw [hfresh hlistening]
    simp [HealthServer.start, henable]
  case invalid =>
    intro hlistening henable error haddress
    refine congrArg Prod.fst (opens_of_start ?_)
    rw [hfresh hlistening]
    simp [HealthServer.start, henable, haddress]
  case refused =>
    intro hlistening henable address cause haddress hlisten
    refine congrArg Prod.fst (opens_of_start ?_)
    rw [hfresh hlistening]
    simp [HealthServer.start, henable, haddress, hlisten]
  case listens =>
    intro hlistening henable address listener net haddress hlisten
    simp [opens, hfresh hlistening, HealthServer.start, henable, haddress, hlisten,
      HealthServer.isListening]
  case closed =>
    intro hlistening takesOne
    rw [hfresh hlistening]
    exact ⟨rfl, rfl, rfl⟩

theorem Reachable.refuses (h : run.Reachable config)
    (hlistening : run.server.isListening = false) (hcloses : ¬run.Closes)
    {place : ListenerId × SocketAddress} (hplace : place ∈ run.places)
    (halone : ∀ id listener, run.net.listener? id = some listener →
      listener.hears place.2 = true → ∃ other ∈ run.places, other.1 = id) :
    run.net.answer place.2 =
      (if run.net.isWhole = true then .failed .connectionRefused else .waiting place.2,
        run.net) := by
  have hfresh := h.stage.fresh_of_not_listening hlistening hcloses
  have hanswer := @Net.answer_unheard run.net place.2 ?_
  · rw [hanswer]
    by_cases hwhole : run.net.isWhole = true
    · rw [if_pos ⟨hwhole, h.kept.isLocal place hplace hwhole⟩, if_pos hwhole]
    · rw [if_neg (fun hboth => hwhole hboth.1), if_neg hwhole]
  · intro id listener hlistener
    refine Bool.eq_false_iff.mpr fun hhears => ?_
    obtain ⟨other, hother, rfl⟩ := halone id listener hlistener hhears
    rcases h.kept.closed other hother with ⟨found, hfound, hclosed⟩ | ⟨_, hpending⟩
    · cases hlistener.symm.trans hfound
      simp [Listener.hears, hclosed] at hhears
    · exact hpending (congrArg HealthServer.loop hfresh)

/-- Whatever calls are made in whatever order, whatever becomes of them and whatever others do:
the server listens exactly if it has an address, a way to be told to stop and a loop that is its
own, and then it serves; otherwise it is as it was made as soon as the last call has returned. A
call that opens it fails because it listens already exactly if it does, and a call that fails
changes nothing. Nobody is heard at an address at which it listened, until it is opened again. -/
theorem calls_consistent (h : run.Reachable config) : run.Consistent config where
  listening_iff := h.stage.listening_iff
  serves := h.stage.serves
  places := h.kept.address
  fresh := h.stage.fresh_of_not_listening
  answers := h.stage.answers
  refuses := fun hlistening hcloses _ => h.refuses hlistening hcloses

theorem not_closes (h : run.server.signal = .absent) : ¬run.Closes := by
  rintro ⟨_, hgiven⟩
  cases h.symm.trans hgiven

theorem Reachable.of_opens (h : run.Reachable config) (hsignal : run.server.signal = .absent)
    (hlater : run.opens.2 = later) : later.Reachable config :=
  hlater ▸ .move h (.opens (not_closes hsignal))

/-- Somebody else is at the address when the server is first opened. Later it is opened, closed
while a connection waits, and could be opened again. -/
theorem calls_consistent_of_conflict : ∃ (config : ServerConfig) (first last : HealthServerRun),
    first.Reachable config ∧
      first.opens = (.error (.bindFailed ⟨.loopback, 4000⟩ .addressInUse), first) ∧
      last.Reachable config ∧ last.server = { config } ∧
      last.places = [(1, ⟨.loopback, 4000⟩)] ∧
      last.net.answer ⟨.loopback, 4000⟩ = (.failed .connectionRefused, last.net) ∧
      (last.net.link 0).acceptor.written = [] ∧ last.opens.1 = .ok () ∧
      last.opens.2.Serves := by
  have hbegin : Reachable { bindAddr := "127.0.0.1", port := 4000 } _ :=
    .begin 0 { listeners := [{ address := ⟨.loopback, 4000⟩ }] }
  have haway : Reachable _ _ :=
    .move hbegin (.away rfl (@Net.Foreign.unlisten _ _ 0 id fun _ _ _ _ => id))
  have hopened : Reachable _
      { now := 0
        net := { listeners := [{ address := ⟨.loopback, 4000⟩, isOpen := false },
          { address := ⟨.loopback, 4000⟩ }] }
        server :=
          { config := { bindAddr := "127.0.0.1", port := 4000 }
            running := true
            address := some ⟨.loopback, 4000⟩
            signal := .ready
            attached := true
            loop := some ⟨1, .starting⟩ }
        opened := 0
        listener := 1
        places := [(1, ⟨.loopback, 4000⟩)] } :=
    haway.of_opens rfl (congrArg Prod.snd (opens_of_listening rfl rfl rfl rfl))
  have hcomes : Reachable _ _ :=
    .move hopened (.others (fun h => by cases h) (.act (.connect 1) trivial))
  have hcall := Reachable.move hcomes (.close false fun ⟨_, hgiven⟩ => by cases hgiven)
  have hover := Reachable.move hcall (.step rfl)
  have hlast := Reachable.move hover (.returns ⟨false, rfl⟩ rfl)
  have hconsistent := calls_consistent hlast
  have hagain := (hconsistent.answers (not_closes rfl)).listens rfl rfl
    ⟨.loopback, 4000⟩ _ _ rfl rfl
  refine ⟨_, _, _, hbegin, opens_of_start rfl, hlast,
    hconsistent.fresh rfl (not_closes rfl), rfl, ?_, rfl, hagain.1,
    (calls_consistent (hlast.of_opens rfl rfl)).serves hagain.2.2⟩
  refine hconsistent.refuses rfl (not_closes rfl) (1, ⟨.loopback, 4000⟩)
    (List.mem_singleton_self _) ?_
  intro id listener hlistener hhears
  match id with
  | 0 =>
      cases hlistener
      cases hhears
  | 1 => exact ⟨_, List.mem_singleton_self _, rfl⟩
  | id + 2 => cases hlistener

end HealthServerRun

end NodeHealth
