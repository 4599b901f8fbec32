import NodeHealth.Proofs.Probe.Standing

/-!
# Runs of a probe

A `ProbeRun` is one probe of an open server, from its beginning to the last point at which it
has no result yet, among others who may do anything but at what the two hold. Runs go on
by steps of the server, by steps of the probe, by what others do, and by the passing of time
while both wait. `ProbeRun.Sound` is what holds of every one that is reached: one condition for
each phase of the probe, on the connection, on where the server stands with it, and on the
times.

## Implementation notes

For the server the probe is one more of its peers, so that the service in a run of a probe is
one that is reached in runs of the server, and all that holds of those holds here. The step with
which the probe comes to its result is not part of its run: what it finds is read off the last
point of the run.

-/

namespace NodeHealth

/-- The attempt whose answer a probe waits for. -/
def Probe.dialled? (probe : Probe) : Option AttemptId :=
  match probe.phase with
  | .dialling dial => some dial.attempt
  | _ => none

/-- What a probe has written on its connection, if it has one. -/
def Probe.written (probe : Probe) : Bytes :=
  match probe.phase with
  | .awaiting _ _ _ => request
  | _ => []

/-- One probe of an open server, among others. -/
structure ProbeRun extends Service where
  probe : Probe
  /-- When the probe began. -/
  begun : Instant
  /-- When the request was sent. -/
  sent : Option Instant := none
  /-- How many steps the probe has taken. -/
  steps : Nat := 0

namespace ProbeRun

/-- The connection that the probe has, or is about to have. -/
def connection? (run : ProbeRun) : Option LinkId :=
  match run.probe.phase with
  | .dialling dial =>
      match run.net.attempt dial.attempt with
      | .connected link => some link
      | _ => none
  | .sending session _ _ => some session.link
  | .awaiting session _ _ => some session.link
  | _ => none

/-- What the two hold: the server its ends of its connections and its listener, the probe its
attempt and its end of its connection. -/
def holdings (run : ProbeRun) : Net.Holdings where
  ends := fun link side => run.toService.holdings.ends link side ∨
    side = .dialler ∧ run.connection? = some link
  attempts := (run.probe.dialled? = some ·)
  listeners := (· = run.listener)

/-- The run after a step of the server. -/
def attended (run : ProbeRun) (net : Net) (server : HealthServer) : ProbeRun :=
  { run with toService := run.toService.after net server }

/-- The run after others did something. -/
def beside (run : ProbeRun) (net : Net) : ProbeRun :=
  { run with toService := (run.toService.joined net).noted }

/-- The run after a step of the probe. -/
def probed (run : ProbeRun) (net : Net) (probe : Probe) : ProbeRun :=
  { run.beside net with
    probe
    sent := match probe.phase with
      | .awaiting _ _ _ => run.sent.or (some run.now)
      | _ => run.sent
    steps := run.steps + 1 }

/-- Neither of the two can go on now. -/
def Waits (run : ProbeRun) : Prop :=
  run.toService.Waits ∧ run.probe.step run.now run.net = none

/-- One change of a run in which the probe comes to no result. -/
inductive Move (run : ProbeRun) : ProbeRun → Prop
  | server {net : Net} {server : HealthServer}
      (h : run.server.step run.now run.net = some (net, server)) :
      Move run (run.attended net server)
  | probe {net : Net} {probe : Probe}
      (h : run.probe.step run.now run.net = some (net, probe))
      (hresult : probe.result? = none) : Move run (run.probed net probe)
  | others {net : Net} (h : run.net.Foreign run.holdings net) :
      Move run (run.beside net)
  | wait {now : Instant} (hwaits : run.Waits) (hnow : run.now ≤ now)
      (hserver : ∀ wake, run.server.wake? = some wake → now ≤ wake)
      (hprobe : ∀ wake, run.probe.wake? = some wake → now ≤ wake) :
      Move run { run with now }

/-- A run that is reached from a new probe of a server that may have been open for long,
if the server and the probe are given some time and the address of the probe leads to the
server. -/
inductive Reachable : ProbeRun → Prop
  | begin {service : Service} {host : String} {port : UInt16} {ip : IpAddress}
      {timeoutMs : Nat} (hservice : service.Reachable) (htimeout : 0 < service.timeout)
      (hpatience : 0 < timeoutMs) (hhost : IpAddress.parse? host = some ip)
      (hreaches : service.net.Reaches ⟨ip, port⟩ service.listener) :
      Reachable { toService := service, probe := { host, port, timeoutMs }, begun := service.now }
  | move {run later : ProbeRun} (hrun : Reachable run) (hmove : run.Move later) :
      Reachable later

/-- The address of a server leads to it. -/
theorem Reachable.at_address {service : Service} {host : String} {port : UInt16}
    {ip : IpAddress} {timeoutMs : Nat} (hservice : service.Reachable)
    (htimeout : 0 < service.timeout) (hpatience : 0 < timeoutMs)
    (hhost : IpAddress.parse? host = some ip)
    (haddress : service.server.address = some ⟨ip, port⟩) :
    Reachable
      { toService := service, probe := { host, port, timeoutMs }, begun := service.now } := by
  obtain ⟨listener, hreceives, hsame⟩ := hservice.receives
  have hreaches := hreceives.reaches
  rw [← Option.some.inj (haddress.symm.trans hsame)] at hreaches
  exact .begin hservice htimeout hpatience hhost hreaches

/-! ## What holds of every run -/

/-- The probe is still at the instant at which it began. -/
structure Hurries (run : ProbeRun) (steps : Nat) : Prop where
  now : run.now = run.begun
  sent : run.sent = none
  steps : run.steps = steps

/-- The probe has sent its request, and nothing of the reply has come. -/
structure Awaits (run : ProbeRun) (reader : Frame.Reader) (limit : Instant) : Prop where
  sent : run.sent = some run.begun
  steps : run.steps = 3
  reader : reader = .start .varint Probe.maxReplyLength
  due : limit = run.begun + run.probe.timeoutMs
  since : run.begun ≤ run.now
  early : run.now ≤ limit

/-- The steps and the times of a probe in a phase. -/
def Paced (run : ProbeRun) : ProbePhase → Prop
  | .starting => run.Hurries 0
  | .dialling _ => run.Hurries 1
  | .sending _ sending _ => run.Hurries 2 ∧ sending.rest = Probe.request
  | .awaiting _ reader deadline => run.Awaits reader deadline
  | .finished _ => False

/-- Where the probe and the server are with each other. -/
inductive Meets (run : ProbeRun) : Prop
  /-- The probe has not run yet, but it knows the way. -/
  | apart {ip : IpAddress} (hphase : run.probe.phase = .starting)
      (hhost : IpAddress.parse? run.probe.host = some ip)
      (hreaches : run.net.Reaches ⟨ip, run.probe.port⟩ run.listener) : Meets run
  | joined {link : LinkId} {standing : Standing} (hlink : run.connection? = some link)
      (hnumber : ∀ attempt, run.probe.dialled? = some attempt →
        attempt < run.net.attempts.length)
      (hstarted : run.probe.started = run.begun)
      (hdeals : run.toService.Deals link run.begun run.probe.written standing) :
      Meets run

/-- What holds of every run that is reached. -/
structure Sound (run : ProbeRun) : Prop where
  service : run.toService.Reachable
  timeout : 0 < run.timeout
  patience : 0 < run.probe.timeoutMs
  fits : run.probe.Fits
  opened : run.opened ≤ run.begun
  paced : run.Paced run.probe.phase
  meets : run.Meets

variable {run later : ProbeRun} {net : Net}

theorem attempt_of_connection {attempt : AttemptId} {link : LinkId}
    (hdialled : run.probe.dialled? = some attempt) (hlink : run.connection? = some link) :
    run.net.attempt attempt = .connected link := by
  cases hphase : run.probe.phase with
  | dialling dial =>
      simp only [Probe.dialled?, hphase, Option.some.injEq] at hdialled
      simp only [connection?, hphase, hdialled] at hlink
      split at hlink
      · rename_i hattempt
        cases hlink
        exact hattempt
      · cases hlink
  | _ => simp [Probe.dialled?, hphase] at hdialled

/-- What a probe that dials has for an answer. -/
theorem Sound.dials (h : run.Sound) {dial : Dial}
    (hphase : run.probe.phase = .dialling dial) : ∃ link standing,
      run.net.attempt dial.attempt = .connected link ∧
        run.probe.started = run.begun ∧
        run.toService.Deals link run.begun [] standing := by
  cases h.meets with
  | apart hstarting => cases hphase.symm.trans hstarting
  | @joined link standing hlink _ hstarted hdeals =>
      simp only [Probe.written, hphase] at hdeals
      have hdialled : run.probe.dialled? = some dial.attempt := by
        simp only [Probe.dialled?, hphase]
      exact ⟨link, standing, attempt_of_connection hdialled hlink, hstarted, hdeals⟩

theorem Sound.sends (h : run.Sound) {session : Session} {sending : Session.Sending}
    {deadline : Option Instant} (hphase : run.probe.phase = .sending session sending deadline) :
    ∃ standing, run.probe.started = run.begun ∧
      run.toService.Deals session.link run.begun [] standing := by
  cases h.meets with
  | apart hstarting => cases hphase.symm.trans hstarting
  | joined hlink _ hstarted hdeals =>
      simp only [Probe.written, hphase] at hdeals
      simp only [connection?, hphase] at hlink
      cases hlink
      exact ⟨_, hstarted, hdeals⟩

theorem Sound.awaits (h : run.Sound) {session : Session} {reader : Frame.Reader}
    {deadline : Instant} (hphase : run.probe.phase = .awaiting session reader deadline) :
    run.Awaits reader deadline ∧ ∃ standing, run.probe.started = run.begun ∧
      run.toService.Deals session.link run.begun Probe.request standing := by
  have hpaced := h.paced
  rw [hphase] at hpaced
  refine ⟨hpaced, ?_⟩
  cases h.meets with
  | apart hstarting => cases hphase.symm.trans hstarting
  | joined hlink _ hstarted hdeals =>
      simp only [Probe.written, hphase] at hdeals
      simp only [connection?, hphase] at hlink
      cases hlink
      exact ⟨_, hstarted, hdeals⟩

/-- The times of the probe do not depend on what happens at an instant. -/
theorem Paced.transfer {phase : ProbePhase} (h : run.Paced phase) {service : Service}
    (hnow : service.now = run.now) : Paced { run with toService := service } phase := by
  cases phase with
  | starting => exact ⟨hnow.trans h.now, h.sent, h.steps⟩
  | dialling dial => exact ⟨hnow.trans h.now, h.sent, h.steps⟩
  | sending session sending deadline =>
      obtain ⟨hhurries, hrest⟩ := h
      exact ⟨⟨hnow.trans hhurries.now, hhurries.sent, hhurries.steps⟩, hrest⟩
  | awaiting session reader deadline =>
      have h : run.Awaits reader deadline := h
      refine ⟨h.sent, h.steps, h.reader, h.due, ?_, ?_⟩
      · exact Nat.le_trans h.since (Nat.le_of_eq hnow.symm)
      · exact Nat.le_trans (Nat.le_of_eq hnow) h.early
  | finished result => exact h

/-- The connection of the probe hangs on what became of its attempt. -/
theorem connection?_of_attempt {service : Service}
    (h : ∀ attempt, run.probe.dialled? = some attempt →
      service.net.attempt attempt = run.net.attempt attempt) :
    connection? { run with toService := service } = run.connection? := by
  cases hphase : run.probe.phase with
  | dialling dial =>
      have hsame := h dial.attempt (by simp only [Probe.dialled?, hphase])
      simp only [connection?, hphase, hsame]
  | _ => simp only [connection?, hphase]

/-! ## What the server and others do -/

theorem Sound.attended (h : run.Sound) {server : HealthServer}
    (hstep : run.server.step run.now run.net = some (net, server)) :
    (run.attended net server).Sound := by
  have hsound := h.service.sound
  have hturn := HealthServer.turn_of_step hsound.fits hstep
  have hkeeps := hturn.keeps
  obtain ⟨hlistener, hnow⟩ := Service.listener_after run.toService net server
  have hnet := Service.net_after run.toService net server
  have hserver := Service.server_after run.toService net server
  have hservice : (run.toService.after net server).Reachable :=
    .move h.service (.step hstep) trivial
  have hattempts : (run.toService.after net server).net.attempts = run.net.attempts := by
    rw [hnet]
    exact hturn.attempts (hsound.loop_after hturn)
  refine ⟨hservice, ?_, h.patience, h.fits, ?_, h.paced.transfer hnow, ?_⟩
  · have htimeout : (run.toService.after net server).timeout = run.timeout := by
      rw [Service.timeout, hserver, hkeeps, Service.timeout]
    exact htimeout ▸ h.timeout
  · exact Nat.le_trans (Nat.le_of_eq (Service.opened_after _ _ _)) h.opened
  · cases h.meets with
    | apart hphase hhost hreaches =>
        refine .apart hphase hhost (hsound.reaches hservice.sound hlistener ?_ ?_ hreaches)
        · rw [hserver, hkeeps]
        · rw [hnet]
          exact hturn.deafens
    | joined hlink hnumber hstarted hdeals =>
        obtain ⟨next, hnext⟩ := hdeals.turn hsound h.timeout hturn
        refine .joined ?_ ?_ hstarted hnext
        · refine (connection?_of_attempt fun attempt _ => ?_).trans hlink
          rw [Net.attempt, hattempts, Net.attempt]
        · intro attempt hdialled
          exact Nat.lt_of_lt_of_le (hnumber attempt hdialled)
            (Nat.le_of_eq (congrArg List.length hattempts.symm))

/-- For the server a probe is one of the others. -/
theorem Sound.beside_reachable (h : run.Sound)
    (hforeign : run.net.Foreign run.toService.holdings net) :
    (run.beside net).toService.Reachable :=
  .move h.service (.others hforeign) trivial

theorem Sound.beside (h : run.Sound) (hforeign : run.net.Foreign run.holdings net) :
    (run.beside net).Sound := by
  have hless : run.net.Foreign run.toService.holdings net :=
    hforeign.mono .inl (fun hnone => hnone.elim) id
  have hservice := h.beside_reachable hless
  refine ⟨hservice, h.timeout, h.patience, h.fits, h.opened, h.paced.transfer rfl, ?_⟩
  cases h.meets with
  | apart hphase hhost hreaches =>
      exact .apart hphase hhost
        (h.service.sound.reaches hservice.sound rfl rfl hforeign.deafens hreaches)
  | @joined link standing hlink hnumber hstarted hdeals =>
      refine .joined ?_ ?_ hstarted (hdeals.others ?_)
      · refine (connection?_of_attempt fun attempt hdialled => ?_).trans hlink
        rcases hforeign.evolves.attempt hdialled (hnumber attempt hdialled) with
          hsame | ⟨hwaiting, _⟩
        · exact hsame
        · rw [attempt_of_connection hdialled hlink] at hwaiting
          cases hwaiting
      · intro attempt hdialled
        exact Nat.lt_of_lt_of_le (hnumber attempt hdialled) hforeign.evolves.attempts
      · -- Both ends of the connection are held.
        refine (hforeign.acts (hdeals.stands.exists_link h.service.sound)).eq ?_
        obtain ⟨guest, hguest, rfl⟩ := hdeals.stands.mem_guests
        rintro (_ | _) hfree
        · exact hfree (.inr ⟨rfl, hlink⟩)
        · exact hfree (.inl ⟨rfl, guest, hguest, rfl⟩)

/-! ## What the probe does -/

/-- There is room for the request. -/
theorem Sound.writes (h : run.Sound) {session : Session} {sending : Session.Sending}
    {deadline : Option Instant} (hphase : run.probe.phase = .sending session sending deadline)
    {delivery : Link.Delivery} {link : Link}
    (hwrite : (run.net.link session.link).write .dialler sending.rest = (delivery, link)) :
    delivery = .wrote sending.rest.length ∧ ∃ standing,
      run.toService.Deals session.link run.begun [] standing ∧
        link = standing.link Probe.request := by
  obtain ⟨standing, _, hdeals⟩ := h.sends hphase
  have hpaced := h.paced
  rw [hphase] at hpaced
  rw [hdeals.link, hpaced.2, hdeals.allows.write] at hwrite
  cases hwrite
  exact ⟨congrArg _ (congrArg _ hpaced.2.symm), standing, hdeals, rfl⟩

/-- What the probe finds while it waits: the answer, once the server has closed the connection,
and nothing before. -/
inductive Finds (run : ProbeRun) (link : LinkId) : Link.Arrival → Prop
  | answer (hdeals : run.toService.Deals link run.begun Probe.request .served) :
      Finds run link (.bytes HealthServer.answer)
  | nothing {standing : Standing}
      (hdeals : run.toService.Deals link run.begun Probe.request standing)
      (hunserved : standing ≠ .served) : Finds run link .nothing

theorem Sound.finds (h : run.Sound) {session : Session} {reader : Frame.Reader}
    {deadline : Instant} (hphase : run.probe.phase = .awaiting session reader deadline)
    {arrival : Link.Arrival}
    (harrival : (run.net.link session.link).arrival .dialler = arrival) :
    run.Finds session.link arrival := by
  obtain ⟨_, standing, _, hdeals⟩ := h.awaits hphase
  rw [hdeals.link] at harrival
  subst harrival
  cases standing with
  | waiting => exact .nothing hdeals nofun
  | reading => exact .nothing hdeals nofun
  | replying => exact .nothing hdeals nofun
  | served => exact .answer hdeals

theorem Sound.dialled (h : run.Sound) (hphase : run.probe.phase = .starting) :
    (run.probed (run.net.seek run.probe.host run.probe.port).2
      ({ run.probe with started := run.now }.enter (.dialling
        ⟨(run.net.seek run.probe.host run.probe.port).1,
          run.now + run.probe.timeoutMs⟩))).Sound := by
  have hhurries : run.Hurries 0 := by
    have hpaced := h.paced
    rwa [hphase] at hpaced
  obtain ⟨hnow, hsent, hsteps⟩ := hhurries
  cases h.meets with
  | joined hlink => simp [connection?, hphase] at hlink
  | @apart ip _ hhost hreaches =>
      rw [Net.seek_of_parse hhost]
      obtain ⟨hattempt, hdeals⟩ := h.service.dialled hreaches
      have hdial := Net.dialled_dial run.net ⟨ip, run.probe.port⟩
      refine ⟨h.beside_reachable (.dial _), h.timeout, h.patience, nofun, h.opened,
        ⟨hnow, hsent, congrArg (· + 1) hsteps⟩, ?_⟩
      refine @Meets.joined _ run.net.links.length .waiting ?_ ?_ hnow (hnow ▸ hdeals)
      · change (match (run.net.dial ⟨ip, run.probe.port⟩).2.attempt
            (run.net.dial ⟨ip, run.probe.port⟩).1 with
          | .connected link => some link
          | _ => none) = _
        rw [hattempt]
      · rintro _ ⟨⟩
        change (run.net.dial ⟨ip, run.probe.port⟩).1 <
          (run.net.dial ⟨ip, run.probe.port⟩).2.attempts.length
        rw [hdial.number, hdial.attempts]
        exact Nat.lt_succ_self _

theorem Sound.connected (h : run.Sound) {dial : Dial} {link : LinkId}
    (hphase : run.probe.phase = .dialling dial)
    (hattempt : run.net.attempt dial.attempt = .connected link) (hfits : Probe.Fits
      (run.probe.enter (.sending ((run.probe.session link).holding Probe.request)
        ⟨Probe.request.length, Probe.request⟩
        (some (run.now + run.probe.timeoutMs))))) :
    (run.probed run.net
      (run.probe.enter (.sending ((run.probe.session link).holding Probe.request)
        ⟨Probe.request.length, Probe.request⟩
        (some (run.now + run.probe.timeoutMs))))).Sound := by
  have hhurries : run.Hurries 1 := by
    have hpaced := h.paced
    rwa [hphase] at hpaced
  obtain ⟨hnow, hsent, hsteps⟩ := hhurries
  obtain ⟨_, standing, hsame, hstarted, hdeals⟩ := h.dials hphase
  cases hattempt.symm.trans hsame
  refine ⟨h.beside_reachable (.refl _ _), h.timeout, h.patience, hfits, h.opened,
    ⟨⟨hnow, hsent, congrArg (· + 1) hsteps⟩, rfl⟩, ?_⟩
  exact .joined rfl nofun hstarted (hdeals.others rfl)

theorem Sound.asked (h : run.Sound) {session : Session} {sending : Session.Sending}
    {deadline : Option Instant} {count : Nat} {link : Link}
    (hphase : run.probe.phase = .sending session sending deadline)
    (hwrite : (run.net.link session.link).write .dialler sending.rest = (.wrote count, link))
    (hfits : Probe.Fits (run.probe.enter (.awaiting (session.countSent sending.length)
      (.start .varint Probe.maxReplyLength) (run.now + run.probe.timeoutMs)))) :
    (run.probed (run.net.changeLink session.link fun _ => link)
      (run.probe.enter (.awaiting (session.countSent sending.length)
        (.start .varint Probe.maxReplyLength)
        (run.now + run.probe.timeoutMs)))).Sound := by
  have hpaced : run.Hurries 2 ∧ sending.rest = Probe.request := by
    have hpaced := h.paced
    rwa [hphase] at hpaced
  obtain ⟨⟨hnow, hsent, hsteps⟩, hrest⟩ := hpaced
  obtain ⟨_, hstarted, _⟩ := h.sends hphase
  obtain ⟨_, standing, hdeals, rfl⟩ := h.writes hphase hwrite
  have hlinks := hdeals.stands.exists_link h.service.sound
  -- For the server this is a peer that writes.
  have hforeign : run.net.Foreign run.toService.holdings
      (run.net.changeLink session.link fun _ => standing.link Probe.request) := by
    have hsame : run.net.apply (.write session.link .dialler Probe.request) =
        run.net.changeLink session.link fun _ => standing.link Probe.request := by
      simp only [Net.apply, Net.changeLink, hdeals.link, hdeals.allows.write]
    rw [← hsame]
    exact .act _ fun hends => by cases hends.1
  refine ⟨h.beside_reachable hforeign, h.timeout, h.patience, hfits, h.opened, ?_, ?_⟩
  · refine ⟨?_, congrArg (· + 1) hsteps, rfl, ?_, Nat.le_of_eq hnow.symm, Nat.le_add_right _ _⟩
    · change run.sent.or (some run.now) = some run.begun
      rw [hsent, hnow]
      rfl
    · exact congrArg (· + run.probe.timeoutMs) hnow
  · refine .joined rfl (fun _ hdialled => by cases hdialled) hstarted (hdeals.asked ?_)
    exact Net.link_changeLink _ _ _ hlinks

/-- A step of the probe that comes to no result. -/
theorem Sound.probed (h : run.Sound) {next : Probe}
    (hstep : run.probe.step run.now run.net = some (net, next))
    (hresult : next.result? = none) : (run.probed net next).Sound := by
  have hturn := Probe.turn_of_step h.fits hstep
  have hfits := hturn.fits h.fits
  cases hturn with
  | dial hphase => exact h.dialled hphase
  | connected hphase hattempt => exact h.connected hphase hattempt hfits
  | sent hphase hwrite => exact h.asked hphase hwrite hfits
  | wrote hphase hwrite _ hpart =>
      obtain ⟨hall, _⟩ := h.writes hphase hwrite
      cases hall
      exact absurd hpart (Nat.lt_irrefl _)
  | more hphase harrival hfeed =>
      cases h.finds hphase harrival with
      | answer =>
          cases (h.awaits hphase).1.reader
          cases Probe.feed_answer.symm.trans hfeed
  | _ => cases hresult

/-- Both wait only if the probe has sent its request and the server has not taken the
connection yet. -/
theorem Sound.waiting (h : run.Sound) (hwaits : run.Waits) :
    ∃ session reader deadline, run.probe.phase = .awaiting session reader deadline ∧
      run.now < deadline ∧
      run.toService.Deals session.link run.begun Probe.request .waiting := by
  obtain ⟨hserver, hprobe⟩ := hwaits
  cases Probe.waits_of_step h.fits hprobe with
  | dialling hphase hattempt =>
      obtain ⟨_, _, hconnected, _⟩ := h.dials hphase
      rw [hconnected] at hattempt
      cases hattempt
  | sending hphase hwrite hpart =>
      obtain ⟨hall, _⟩ := h.writes hphase hwrite
      rw [Link.Delivery.wrote.injEq] at hall
      exact absurd hall (Nat.ne_of_lt hpart)
  | @awaiting session reader deadline hphase harrival hdeadline =>
      cases h.finds hphase harrival with
      | nothing hdeals hunserved =>
          rcases hdeals.waits h.service.sound hserver with rfl | rfl
          · exact ⟨session, reader, deadline, hphase, hdeadline, hdeals⟩
          · exact absurd rfl hunserved
  | finished hphase =>
      have hpaced := h.paced
      rw [hphase] at hpaced
      exact hpaced.elim

theorem Sound.wait (h : run.Sound) (hwaits : run.Waits) {now : Instant}
    (hnow : run.now ≤ now)
    (hserver : ∀ wake, run.server.wake? = some wake → now ≤ wake)
    (hprobe : ∀ wake, run.probe.wake? = some wake → now ≤ wake) :
    Sound { run with now } := by
  obtain ⟨session, reader, deadline, hphase, _, hdeals⟩ := h.waiting hwaits
  obtain ⟨hawaits, _, hstarted, _⟩ := h.awaits hphase
  refine ⟨.move h.service (.wait hwaits.1 hnow hserver) trivial, h.timeout, h.patience, h.fits,
    h.opened, ?_, ?_⟩
  · change Paced { run with now } run.probe.phase
    rw [hphase]
    refine ⟨hawaits.sent, hawaits.steps, hawaits.reader, hawaits.due,
      Nat.le_trans hawaits.since hnow, hprobe deadline ?_⟩
    simp only [Probe.wake?, hphase]
  · refine @Meets.joined _ session.link .waiting ?_ ?_ hstarted ?_
    · simp only [connection?, hphase]
    · intro attempt hdialled
      simp [Probe.dialled?, hphase] at hdialled
    · simp only [Probe.written, hphase]
      exact hdeals.wait now

theorem Sound.move (h : run.Sound) (hmove : run.Move later) : later.Sound := by
  cases hmove with
  | server hstep => exact h.attended hstep
  | probe hstep hresult => exact h.probed hstep hresult
  | others hforeign => exact h.beside hforeign
  | wait hwaits hnow hserver hprobe => exact h.wait hwaits hnow hserver hprobe

theorem Reachable.sound (h : run.Reachable) : run.Sound := by
  induction h with
  | begin hservice htimeout hpatience hhost hreaches =>
      exact ⟨hservice, htimeout, hpatience, nofun, hservice.prompt.opened, ⟨rfl, rfl, rfl⟩,
        .apart rfl hhost hreaches⟩
  | move _ hmove ih => exact ih.move hmove

end ProbeRun

end NodeHealth
