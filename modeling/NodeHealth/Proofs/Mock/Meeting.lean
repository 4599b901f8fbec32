import NodeHealth.Proofs.Cnode.Schedule
import NodeHealth.Proofs.Mock.Turn
import NodeHealth.Proofs.Net.Acts

/-!
# A client and a mock server

A `Meeting` is a scene of the cnode client in which a mock server listens. Both run on the
same network and at the same time, among others who may do anything but at what the two hold.
A meeting remembers which connection of the client the server is busy with, and since when.
`Meeting.Sound` is the bookkeeping: no connection waits twice at the listener, and the one
that the server is busy with does not wait there any more.

## Implementation notes

The steps of the two come in any order, and time passes only while both wait. A connection
counts as one that the server is busy with on behalf of the client only if the client was on
it, and not told to stop, when the server took it; a call that stops the client later ends
that, although the server goes on.

-/

namespace NodeHealth

/-- The connection that the client is on, or about to be. -/
def Scene.connection? (scene : Scene) : Option LinkId :=
  match scene.client.session? with
  | some session => some session.link
  | none => scene.client.dialled?.bind fun attempt =>
      match scene.net.attempt attempt with
      | .connected link => some link
      | _ => none

/-- A connection of the client that the server is busy with, and when it took it. -/
structure Sitting where
  link : LinkId
  begun : Instant
  deriving DecidableEq

/-- A client and a mock server among others. -/
structure Meeting extends Scene where
  run : MockRun
  sitting : Option Sitting := none

namespace Meeting

/-- The connections that wait for the server. -/
def queue (scene : Meeting) : List LinkId :=
  scene.net.queue scene.run.session.listener

/-- What the two hold: the client's ends of its connections and its attempts, the listener,
and the server's ends of the connections that wait there and of the one it is busy with. -/
def holdings (scene : Meeting) : Net.Holdings where
  ends := fun link side =>
    match side with
    | .dialler => scene.Owns link
    | .acceptor => link ∈ scene.queue ∨
        ∃ session, scene.run.session? = some session ∧ session.link = link
  attempts := (· ∈ scene.attempts)
  listeners := (· = scene.run.session.listener)

/-- The meeting after a step of the server. -/
def served (scene : Meeting) (net : Net) (run : MockRun) : Meeting :=
  { scene with
    net, run
    sitting :=
      match run.session? with
      | none => none
      | some session =>
          if scene.run.session?.isSome then scene.sitting
          else if scene.client.running ∧ scene.connection? = some session.link then
            some ⟨session.link, scene.now⟩
          else none }

/-- Neither of the two can go on now. -/
def Waits (scene : Meeting) : Prop :=
  scene.toScene.Waits ∧ scene.run.step scene.now scene.net = none

/-- A step of the client or of the server. -/
inductive Step (scene : Meeting) : Meeting → Prop
  | client {net : Net} {client : CnodeClient}
      (h : scene.client.step scene.now scene.net = some (net, client)) :
      Step scene { scene with toScene := scene.toScene.after net client }
  | server {net : Net} {run : MockRun}
      (h : scene.run.step scene.now scene.net = some (net, run)) :
      Step scene (scene.served net run)

/-- One change of a meeting. -/
inductive Move (scene : Meeting) : Meeting → Prop
  | step {later : Meeting} (h : scene.Step later) : Move scene later
  | others {net : Net} (h : scene.net.Foreign scene.holdings net) :
      Move scene { scene with net }
  | wait {now : Instant} (hwaits : scene.Waits) (hnow : scene.now ≤ now)
      (hclient : ∀ wake, scene.client.wake? = some wake → now ≤ wake)
      (hserver : ∀ wake, scene.run.wake? = some wake → now ≤ wake) : Move scene { scene with now }
  | start (h : scene.client.isStopping = false) :
      Move scene { scene with client := scene.client.start.2 }
  | stop : Move scene { scene with client := scene.client.requestStop, sitting := none }
  /-- The server is asked for further sessions after its last one. -/
  | serve (h : scene.run.isOver = true) (options : MockOptions) :
      Move scene { scene with
        run := { session := { listener := scene.run.session.listener, options } }
        sitting := none }

/-- A meeting that is reached after a server began to listen where a client may run already. -/
inductive Reachable : Meeting → Prop
  | begin {scene : Scene} {address : SocketAddress} {listener : ListenerId} {net : Net}
      (hscene : scene.Reachable) (hlisten : scene.net.listen address = .ok (listener, net))
      (options : MockOptions) :
      Reachable { toScene := { scene with net }, run := { session := { listener, options } } }
  | move {scene later : Meeting} (hscene : Reachable scene) (hmove : scene.Move later) :
      Reachable later

end Meeting

/-! ## The connection that the client is on -/

namespace Scene

variable {scene : Scene} {link : LinkId}

theorem connection?_eq_some : scene.connection? = some link ↔ scene.Current link := by
  unfold connection?
  cases hsession : scene.client.session? with
  | some session =>
      have hdialled := CnodeClient.dialled?_of_session hsession
      simp [Current, hsession, hdialled]
  | none =>
      cases hdialled : scene.client.dialled? with
      | none => simp [Current, hsession, hdialled]
      | some attempt => cases hattempt : scene.net.attempt attempt <;>
          simp [Current, hsession, hdialled, hattempt]

/-- Whoever has no part in the client's attempts and adds no connection leaves it sound. -/
theorem Sound.of_attempts (h : scene.Sound) {net : Net}
    (hattempts : net.attempts = scene.net.attempts)
    (hlinks : net.links.length = scene.net.links.length) : Sound { scene with net } := by
  have hattempt : ∀ attempt, net.attempt attempt = scene.net.attempt attempt := fun attempt => by
    simp only [Net.attempt, hattempts]
  have howns : ∀ {link}, Owns { scene with net } link → scene.Owns link := by
    rintro link ⟨attempt, hmem, hconnected⟩
    exact ⟨attempt, hmem, (hattempt attempt).symm.trans hconnected⟩
  constructor
  case fits => exact h.fits
  case attempts => exact fun attempt hmem => hattempts ▸ h.attempts attempt hmem
  case links => exact fun hlink => hlinks ▸ h.links (howns hlink)
  case dialled => exact h.dialled
  case waiting =>
    intro attempt hmem hwaiting
    exact h.waiting hmem (hattempt attempt ▸ hwaiting)
  case session =>
    intro session hsession
    obtain ⟨attempt, hmem, hconnected⟩ := h.session hsession
    exact ⟨attempt, hmem, (hattempt attempt).trans hconnected⟩

theorem Sound.owns (h : scene.Sound) (hcurrent : scene.Current link) : scene.Owns link := by
  rcases hcurrent with ⟨session, hsession, rfl⟩ | ⟨attempt, hdialled, hconnected⟩
  · exact h.session hsession
  · exact ⟨attempt, h.dialled hdialled, hconnected⟩

end Scene

/-! ## The listener -/

namespace Net

variable {net later : Net} {id : ListenerId} {listener : Listener}

/-- A queue stays, or one new connection comes last. -/
theorem Joins.queue_cases (h : net.Joins later id listener)
    (hlistener : net.listener? id = some listener) :
    later.queue id = net.queue id ∨
      later.queue id = net.queue id ++ [net.links.length] ∧
        later.links = net.links ++ [({} : Link)] := by
  rw [queue_of_listener hlistener]
  cases h with
  | stays hstays => exact .inl (queue_of_listener hstays)
  | joins hjoins hlinks => exact .inr ⟨queue_of_listener hjoins, hlinks⟩
  | hinders hhinders => exact .inl (by rw [queue_of_listener hhinders])

/-- Being in line does not change for a connection that was there before. -/
theorem Joins.mem_queue (h : net.Joins later id listener)
    (hlistener : net.listener? id = some listener) {link : LinkId}
    (hlink : link < net.links.length) : link ∈ later.queue id ↔ link ∈ net.queue id := by
  rcases h.queue_cases hlistener with hsame | ⟨hsame, _⟩
  · rw [hsame]
  · rw [hsame, List.mem_append, List.mem_singleton, or_iff_left (Nat.ne_of_lt hlink)]

/-- Whoever was not in line before is on a new connection. -/
theorem Joins.new_of_mem (h : net.Joins later id listener)
    (hlistener : net.listener? id = some listener) {link : LinkId}
    (hlink : link ∈ later.queue id) :
    link ∈ net.queue id ∨ link < later.links.length ∧ later.link link = {} := by
  rcases h.queue_cases hlistener with hsame | ⟨hsame, hadded⟩
  · exact .inl (hsame ▸ hlink)
  · rw [hsame, List.mem_append, List.mem_singleton] at hlink
    rcases hlink with hold | rfl
    · exact .inl hold
    · exact .inr (by simp [Net.link, hadded])

/-- Nobody who joins the line is in it already. -/
theorem Joins.nodup_queue (h : net.Joins later id listener)
    (hlistener : net.listener? id = some listener) (hnodup : (net.queue id).Nodup)
    (hknown : ∀ link ∈ net.queue id, link < net.links.length) : (later.queue id).Nodup := by
  rcases h.queue_cases hlistener with hsame | ⟨hsame, _⟩
  · rw [hsame]
    exact hnodup
  · rw [hsame, List.nodup_append]
    refine ⟨hnodup, by simp, ?_⟩
    intro link hlink new hnew
    rw [List.mem_singleton.mp hnew]
    exact Nat.ne_of_lt (hknown link hlink)

end Net

/-- A server in no session does not wait while a connection is in line, unless it is done. -/
theorem MockRun.step_of_queue {run : MockRun} {now : Instant} {net : Net}
    (hover : run.isOver = false) (hsession : run.session? = none)
    (hqueue : net.queue run.session.listener ≠ []) : run.step now net ≠ none := by
  cases hphase : run.session.phase with
  | accepting =>
      have hreception : net.reception? run.session.listener ≠ none := fun hnone =>
        Net.accept?_of_queue hqueue (Net.reception?_eq_none hnone).2
      simpa [step, hover, MockSession.result?, MockSession.step, hphase] using hreception
  | finished result =>
      simp only [step, hover, MockSession.result?, hphase]
      cases run.session.options.keepAccepting <;> simp
  | turnedAway failure =>
      simp only [step, hover, MockSession.result?, hphase]
      cases run.session.options.keepAccepting <;> simp
  | _ => simp [session?, MockSession.session?, hphase, MockPhase.session?] at hsession

namespace Meeting

variable {scene later : Meeting}

/-! ## Bookkeeping -/

/-- The client is sound, no connection waits twice, and the one that the server is busy with
does not wait. -/
structure Sound (scene : Meeting) : Prop where
  client : scene.toScene.Sound
  listens : ∃ listener, scene.net.Receives scene.run.session.listener listener
  queue : ∀ link ∈ scene.queue, link < scene.net.links.length
  nodup : scene.queue.Nodup
  session : ∀ session, scene.run.session? = some session →
    session.link < scene.net.links.length ∧ session.link ∉ scene.queue
  ended : scene.run.isOver = true → scene.run.session? = none

/-- Nobody but the server takes connections from the listener. -/
theorem Sound.joins (h : scene.Sound) {next : Scene} (hnext : next.Sound)
    (sitting : Option Sitting) (hdeafens : scene.net.Deafens next.net)
    (hjoins : ∀ {listener}, scene.net.listener? scene.run.session.listener = some listener →
      scene.net.Joins next.net scene.run.session.listener listener)
    (hlinks : scene.net.links.length ≤ next.net.links.length) :
    Sound { toScene := next, run := scene.run, sitting } := by
  obtain ⟨listener, hreceives⟩ := h.listens
  have hlistener := hreceives.found
  have hjoins := hjoins hlistener
  refine ⟨hnext, hreceives.joins hdeafens hjoins, fun link hlink => ?_,
    hjoins.nodup_queue hlistener h.nodup h.queue, fun session hsession => ?_, h.ended⟩
  · rcases hjoins.new_of_mem hlistener hlink with hold | ⟨hnew, _⟩
    · exact Nat.lt_of_lt_of_le (h.queue link hold) hlinks
    · exact hnew
  · obtain ⟨hlength, hgone⟩ := h.session session hsession
    exact ⟨Nat.lt_of_lt_of_le hlength hlinks,
      fun hlink => hgone ((hjoins.mem_queue hlistener hlength).mp hlink)⟩

/-- A turn of the client takes no connection from a listener. -/
theorem joins_of_turn {now : Instant} {net next : Net} {client client' : CnodeClient}
    (hturn : client.Turn now net next client') {id : ListenerId} {listener : Listener}
    (hlistener : net.listener? id = some listener) : net.Joins next id listener := by
  rcases hturn.net_cases with ⟨rfl, _⟩ | ⟨session, change, _, rfl, _⟩ |
    ⟨host, port, _, rfl, _⟩ | ⟨attempt, _, _, rfl, _⟩
  · exact .stays hlistener
  · exact .stays hlistener
  · exact Net.joins_seek hlistener host port
  · exact .stays hlistener

theorem deafens_of_turn {now : Instant} {net next : Net} {client client' : CnodeClient}
    (hturn : client.Turn now net next client') : net.Deafens next := by
  rcases hturn.net_cases with ⟨rfl, _⟩ | ⟨session, change, _, rfl, _⟩ |
    ⟨host, port, _, rfl, _⟩ | ⟨attempt, _, _, rfl, _⟩
  · exact .of_same rfl
  · exact .of_same rfl
  · exact Net.deafens_seek net host port
  · exact .of_same rfl

/-- What spares the two spares the client. -/
theorem foreign_client {net : Net} (h : scene.net.Foreign scene.holdings net) :
    scene.net.Foreign scene.toScene.holdings net := by
  refine h.mono ?_ id ?_
  · rintro link side ⟨rfl, howns⟩
    exact howns
  · exact False.elim

theorem queue_served {net : Net} {run : MockRun}
    (hqueue : net.queue scene.run.session.listener = scene.net.queue scene.run.session.listener)
    (hlistener : run.session.listener = scene.run.session.listener) :
    (scene.served net run).queue = scene.queue := by
  change net.queue run.session.listener = scene.net.queue scene.run.session.listener
  rw [hlistener, hqueue]

/-- A server that leaves the line as it is leaves the meeting sound. -/
theorem Sound.of_queue (h : scene.Sound) {net : Net} {run : MockRun}
    (hattempts : net.attempts = scene.net.attempts)
    (hlinks : net.links.length = scene.net.links.length)
    (hqueue : (scene.served net run).queue = scene.queue)
    (hlistens : ∃ listener, net.Receives run.session.listener listener)
    (hsession : ∀ visit, run.session? = some visit →
      ∃ session, scene.run.session? = some session ∧ session.link = visit.link)
    (hended : run.isOver = true → run.session? = none) : (scene.served net run).Sound := by
  refine ⟨h.client.of_attempts hattempts hlinks, hlistens, ?_, ?_, ?_, hended⟩
  · intro link hlink
    change link < net.links.length
    rw [hlinks]
    exact h.queue link (hqueue ▸ hlink)
  · rw [hqueue]
    exact h.nodup
  · intro visit hvisit
    obtain ⟨session, hbefore, hsame⟩ := hsession visit hvisit
    change visit.link < net.links.length ∧ visit.link ∉ (scene.served net run).queue
    rw [hqueue, hlinks, ← hsame]
    exact h.session session hbefore

/-- The connection that is taken leaves the line. -/
theorem Sound.greeted (h : scene.Sound) {link : LinkId} {net : Net}
    (hreception : scene.net.reception? scene.run.session.listener = some (net, .ok link))
    (hover : scene.run.isOver = false) :
    (scene.served net
      { scene.run with session := scene.run.session.greet scene.now link }).Sound := by
  obtain ⟨listener, hreceives⟩ := h.listens
  obtain ⟨hqueue, hlinks, hattempts, hlistens⟩ :=
    Net.accept?_cases (Net.reception?_eq_ok hreception).2
  have hqueue : scene.queue = link :: net.queue scene.run.session.listener := hqueue
  have hnodup := h.nodup
  rw [hqueue, List.nodup_cons] at hnodup
  have hknown : ∀ waiting ∈ scene.queue, waiting < net.links.length := by
    rw [hlinks]
    exact h.queue
  refine ⟨h.client.of_attempts hattempts (by rw [hlinks]), hlistens hreceives, ?_, hnodup.2, ?_,
    ?_⟩
  · exact fun waiting hwaiting => hknown waiting (hqueue ▸ List.mem_cons_of_mem _ hwaiting)
  · intro session hsession
    cases hsession
    exact ⟨hknown link (hqueue ▸ List.mem_cons_self), hnodup.1⟩
  · intro hlast
    cases hover.symm.trans hlast

theorem Sound.served (h : scene.Sound) {net : Net} {run : MockRun}
    (hstep : scene.run.step scene.now scene.net = some (net, run)) :
    (scene.served net run).Sound := by
  rcases MockRun.step_cases hstep with ⟨_, hover, link, haccept, rfl⟩ |
    ⟨session, hsession, hover, _, hadvances⟩ | ⟨_, hline, hnone, hlistener⟩
  · exact h.greeted haccept hover
  · have honly : scene.net.Only session.link net := hadvances.only
    have hlistener : run.session.listener = scene.run.session.listener := hadvances.listener
    obtain ⟨listener, hreceives⟩ := h.listens
    refine h.of_queue honly.attempts honly.links (queue_served (honly.queue _) hlistener)
      ⟨listener, ?_⟩ ?_ ?_
    · rw [hlistener]
      exact hreceives.of_same honly.listeners
    · exact fun visit hvisit => ⟨session, hsession, (hadvances.session visit hvisit).symm⟩
    · intro hlast
      cases hover.symm.trans hlast
  · obtain ⟨listener, hreceives⟩ := h.listens
    refine h.of_queue hline.attempts (congrArg List.length hline.links)
      (queue_served hline.queue hlistener) ?_ (fun visit hvisit => ?_) fun _ => hnone
    · rw [hlistener]
      exact hline.receives hreceives
    · cases hnone.symm.trans hvisit

theorem Sound.stepped (h : scene.Sound) (hstep : scene.Step later) : later.Sound := by
  cases hstep with
  | client hstep =>
      have hmove : scene.toScene.Move _ := .step hstep
      have hturn := CnodeClient.turn_of_step h.client.fits hstep
      exact h.joins (hmove.sound h.client) _ (deafens_of_turn hturn) (joins_of_turn hturn)
        (hmove.extends h.client).links
  | server hstep => exact h.served hstep

theorem Move.sound (h : scene.Sound) (hmove : scene.Move later) : later.Sound := by
  have hsame : ∀ {next : Scene} (sitting : Option Sitting), next.net = scene.net →
      scene.toScene.Move next → Sound { toScene := next, run := scene.run, sitting } :=
    fun sitting hnet hmove =>
      h.joins (hmove.sound h.client) sitting (.of_same (by rw [hnet]))
        (fun hlistener => .stays (by rw [hnet]; exact hlistener)) (Nat.le_of_eq (by rw [hnet]))
  cases hmove with
  | step hstep => exact h.stepped hstep
  | others hforeign =>
      have hmove : scene.toScene.Move _ := .others (foreign_client hforeign)
      exact h.joins (hmove.sound h.client) _ hforeign.deafens (hforeign.joins rfl)
        hforeign.evolves.links
  | wait hwaits hnow hclient _ => exact hsame _ rfl (.wait hwaits.1 hnow hclient)
  | start hstopping => exact hsame _ rfl (.start hstopping)
  | stop => exact hsame _ rfl .stop
  | serve =>
      exact ⟨h.client, h.listens, h.queue, h.nodup, fun session hsession => (by cases hsession),
        fun _ => rfl⟩

/-- Nobody waits yet at a listener that is new. -/
theorem sound_begin {scene : Scene} {address : SocketAddress} {listener : ListenerId} {net : Net}
    (hscene : scene.Sound) (hlisten : scene.net.listen address = .ok (listener, net))
    (options : MockOptions) :
    Sound { toScene := { scene with net }, run := { session := { listener, options } } } := by
  have hmove : scene.Move { scene with net } := .others (.listen hlisten)
  have hqueue : net.queue listener = [] := Net.queue_of_listen hlisten
  refine ⟨hmove.sound hscene, Net.receives_listen hlisten, ?_, ?_,
    fun session hsession => (by cases hsession), fun _ => rfl⟩
  · simp [queue, hqueue]
  · simp [queue, hqueue]

theorem Reachable.sound (h : scene.Reachable) : scene.Sound := by
  induction h with
  | begin hscene hlisten options => exact sound_begin hscene.sound hlisten options
  | move _ hmove ih => exact hmove.sound ih

end Meeting

end NodeHealth
