import NodeHealth.Proofs.Health.Conversation

/-!
# The listener of the health server

A health server leaves all listeners alone but its own, from which it takes connections and
which it closes in the end. As long as nobody tells it to stop, whoever dials its address gets
a connection that joins its line.

-/

namespace NodeHealth

namespace HealthServer

variable {now : Instant} {net later : Net} {server next : HealthServer}

theorem Turn.deafens (h : Turn now net server later next) : net.Deafens later := by
  cases h with
  | closed => exact Net.deafens_closeListener _ net
  | dismissed => exact Net.deafens_closeListener _ net
  | accepted _ _ haccept => exact (Net.accepts_of_reception haccept).deafens
  | stumbled _ _ hfails => exact (Net.accepts_of_reception hfails).deafens
  | barred _ _ hfails =>
      have haccepts := Net.accepts_of_reception hfails
      exact haccepts.deafens.trans (Net.deafens_closeListener _ _) haccepts.endures.listeners
  | @retired _ visit _ _ link =>
      exact Net.deafens_closeListener _ (net.changeLink visit.link fun _ => link.leave .acceptor)
  | _ => exact .of_same rfl

theorem Turn.endures (h : Turn now net server later next) : net.Endures later := by
  cases h with
  | closed => exact Net.endures_closeListener _ net
  | dismissed => exact Net.endures_closeListener _ net
  | accepted _ _ haccept => exact (Net.accepts_of_reception haccept).endures
  | stumbled _ _ hfails => exact (Net.accepts_of_reception hfails).endures
  | barred _ _ hfails =>
      exact (Net.accepts_of_reception hfails).endures.trans (Net.endures_closeListener _ _)
  | @retired _ visit _ _ link =>
      obtain ⟨hlisteners, hwhole⟩ := Net.endures_closeListener _
        (net.changeLink visit.link fun _ => link.leave .acceptor)
      exact ⟨hlisteners, hwhole⟩
  | _ => exact .of_same rfl rfl

/-- A turn that does not end the loop changes no connection but the one that was taken. -/
theorem Turn.elsewhere (h : Turn now net server later next) (hnext : next.loop ≠ none)
    {id : LinkId} (hother : ∀ visit, server.session? = some visit → visit.link ≠ id) :
    later.link id = net.link id := by
  have hvisiting : ∀ {loop visit} {change : Link → Link}, server.loop = some loop →
      loop.phase.session? = some visit →
      (net.changeLink visit.link change).link id = net.link id := by
    intro loop visit change hloop hphase
    exact Net.link_changeLink_of_ne _ _ (hother visit ((session?_of_loop hloop).trans hphase))
  cases h with
  | opened => rfl
  | closed => exact absurd rfl hnext
  | dismissed => exact absurd rfl hnext
  | accepted _ _ haccept => rw [Net.link, (Net.accepts_of_reception haccept).links, Net.link]
  | stumbled _ _ hfails => rw [Net.link, (Net.accepts_of_reception hfails).links, Net.link]
  | barred => exact absurd rfl hnext
  | more hloop => exact hvisiting hloop rfl
  | heard hloop => exact hvisiting hloop rfl
  | misheard hloop => exact hvisiting hloop rfl
  | ended => rfl
  | failed hloop => exact hvisiting hloop rfl
  | expired => rfl
  | wrote hloop => exact hvisiting hloop rfl
  | answered hloop => exact hvisiting hloop rfl
  | retired => exact absurd rfl hnext

/-- A turn that does not end the loop leaves all attempts to connect alone. -/
theorem Turn.attempts (h : Turn now net server later next) (hnext : next.loop ≠ none) :
    later.attempts = net.attempts := by
  cases h with
  | closed => exact absurd rfl hnext
  | dismissed => exact absurd rfl hnext
  | retired => exact absurd rfl hnext
  | barred => exact absurd rfl hnext
  | accepted _ _ haccept => exact (Net.accepts_of_reception haccept).attempts
  | stumbled _ _ hfails => exact (Net.accepts_of_reception hfails).attempts
  | _ => rfl

/-- What comes of a call that opens a server: the result, with the network and the server
after it. -/
inductive Opens (server : HealthServer) (net : Net) :
    Except HealthError Unit → Net → HealthServer → Prop
  | alreadyRunning (hattached : server.attached = true) :
      Opens server net (.error .alreadyRunning) net server
  | disabled (hattached : server.attached = false) (henable : server.config.enable = false) :
      Opens server net (.ok ()) net server
  | misconfigured {error : ConfigError} (hattached : server.attached = false)
      (henable : server.config.enable = true)
      (haddress : server.config.bindAddress = .error error) :
      Opens server net (.error (.config error)) net server
  | refused {address : SocketAddress} {cause : IoCause} (hattached : server.attached = false)
      (henable : server.config.enable = true) (haddress : server.config.bindAddress = .ok address)
      (hlisten : net.listen address = .error cause) :
      Opens server net (.error (.bindFailed address cause)) net server
  | listens {address : SocketAddress} {listener : ListenerId} {later : Net}
      (hattached : server.attached = false) (henable : server.config.enable = true)
      (haddress : server.config.bindAddress = .ok address)
      (hlisten : net.listen address = .ok (listener, later)) :
      Opens server net (.ok ()) later
        { server with
          running := true
          address := later.addressOf? listener
          signal := .ready
          attached := true
          loop := some ⟨listener, .starting⟩ }

theorem opens_start (server : HealthServer) (net : Net) :
    Opens server net (server.start net).1 (server.start net).2.1 (server.start net).2.2 := by
  unfold start
  split
  · rename_i hattached
    exact .alreadyRunning hattached
  · rename_i hattached
    rw [Bool.not_eq_true] at hattached
    split
    · rename_i henable
      rw [Bool.not_eq_true] at henable
      exact .disabled hattached henable
    · rename_i henable
      rw [Classical.not_not] at henable
      split
      · rename_i haddress
        exact .misconfigured hattached henable haddress
      · rename_i haddress
        split
        · rename_i hlisten
          exact .refused hattached henable haddress hlisten
        · rename_i hlisten
          exact .listens hattached henable haddress hlisten

/-- A server that listens behind a call that succeeds has a new listener. -/
theorem listen_of_start (hstart : server.start net = (.ok (), later, next))
    (hopen : next.isListening = true) :
    ∃ address, net.listen address = .ok (net.listeners.length, later) := by
  have hopens := opens_start server net
  simp only [hstart] at hopens
  cases hopens with
  | disabled hattached => simp [isListening, hattached] at hopen
  | @listens address listener _ _ _ _ hlisten =>
      refine ⟨address, ?_⟩
      rwa [Net.id_of_listen hlisten] at hlisten

/-- A turn that does not end the loop leaves a listener open. -/
theorem Turn.receives (h : Turn now net server later next) (hnext : next.loop ≠ none)
    {id : ListenerId} {listener : Listener} (hreceives : net.Receives id listener) :
    ∃ found, later.Receives id found := by
  cases h with
  | closed => exact absurd rfl hnext
  | dismissed => exact absurd rfl hnext
  | retired => exact absurd rfl hnext
  | barred => exact absurd rfl hnext
  | accepted _ _ haccept => exact (Net.accepts_of_reception haccept).receives hreceives
  | stumbled _ _ hfails => exact (Net.accepts_of_reception hfails).receives hreceives
  | _ => exact ⟨listener, hreceives.of_same rfl⟩

end HealthServer

namespace Service

variable {scene later : Service}

theorem listener_after (scene : Service) (net : Net) (server : HealthServer) :
    (scene.after net server).listener = scene.listener ∧
      (scene.after net server).now = scene.now := by
  unfold after
  split <;> exact ⟨rfl, rfl⟩

theorem opened_after (scene : Service) (net : Net) (server : HealthServer) :
    (scene.after net server).opened = scene.opened := by
  unfold after
  split <;> rfl

theorem Sound.loop_after (h : scene.Sound) {net : Net} {server : HealthServer}
    (hturn : scene.server.Turn scene.now scene.net net server) : server.loop ≠ none := by
  obtain ⟨_, hloop, _⟩ := (h.turn hturn).loop
  rw [server_after] at hloop
  simp [hloop]

/-- Attempts on the address of an open server lead to its listener. -/
theorem Reachable.receives (h : scene.Reachable) : ∃ listener,
    scene.net.Receives scene.listener listener ∧
      scene.server.address = some listener.address := by
  suffices hreceives : ∃ listener, scene.net.Receives scene.listener listener by
    obtain ⟨listener, hreceives⟩ := hreceives
    obtain ⟨found, hfound, _, haddress, _⟩ := h.sound.listens
    cases hreceives.found.symm.trans hfound
    exact ⟨listener, hreceives, haddress⟩
  induction h with
  | begin now hstart hopen _ =>
      obtain ⟨_, hlisten⟩ := HealthServer.listen_of_start hstart hopen
      exact Net.receives_listen hlisten
  | @move scene later hscene hmove _ ih =>
      obtain ⟨listener, hreceives⟩ := ih
      have hsound := hscene.reachable.sound
      cases hmove with
      | @step net server hstep =>
          have hturn := HealthServer.turn_of_step hsound.fits hstep
          rw [net_after, (listener_after scene net server).1]
          exact hturn.receives (hsound.loop_after hturn) hreceives
      | others hforeign =>
          exact hreceives.joins hforeign.deafens (hforeign.joins rfl hreceives.found)
      | wait => exact ⟨listener, hreceives⟩

/-- Attempts that lead to the listener of an open server go on leading there. -/
theorem Sound.reaches (h : scene.Sound) (hlater : later.Sound)
    (hlistener : later.listener = scene.listener)
    (haddress : later.server.address = scene.server.address)
    (hdeafens : scene.net.Deafens later.net) {target : SocketAddress}
    (hreaches : scene.net.Reaches target scene.listener) :
    later.net.Reaches target later.listener := by
  obtain ⟨before, hbefore, hopen, hown, _⟩ := h.listens
  obtain ⟨found, hfound, hstays, hsame, _⟩ := hlater.listens
  have hheard : before.hears target = true := by
    obtain ⟨hid, hhears, _⟩ := List.findIdx?_eq_some_iff_getElem.mp hreaches
    obtain ⟨_, rfl⟩ := List.getElem?_eq_some_iff.mp hbefore
    exact hhears
  have hhears : found.hears target = true := by
    have hwhere : found.address = before.address :=
      Option.some.inj (hsame.symm.trans (haddress.trans hown))
    simpa only [Listener.hears, hwhere, hstays, hopen] using hheard
  rw [hlistener] at hfound ⊢
  exact hreaches.of_deafens hdeafens hfound hhears

end Service

end NodeHealth
