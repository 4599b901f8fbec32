import NodeHealth.Proofs.Cnode.Turn
import NodeHealth.Proofs.Net.Others

/-!
# Runs of the cnode client

A `Scene` is a client, the network it shares with others, and the time. Scenes change by
steps of the client, by what others do, by the passing of time while the client waits, and by
calls that start and stop the client. The connections that a client has had are those that
its attempts led to, and `Scene.Sound` is what holds of them in every scene that is reached.

## Implementation notes

A scene remembers the attempts that the client made, which the client itself forgets. Time
passes only while the client waits, and never beyond the moment at which it would go on by
itself, so that what happens between two moments is ordered but takes no time. Others may
act between any two steps.

-/

namespace NodeHealth

/-- The attempt that the client waits for. -/
def CnodeClient.dialled? (client : CnodeClient) : Option AttemptId :=
  client.loop.bind fun loop =>
    match loop.phase with
    | .dialling dial => some dial.attempt
    | _ => none

/-- A client among others. -/
structure Scene where
  now : Instant
  net : Net
  client : CnodeClient
  /-- The attempts that the client has made. -/
  attempts : List AttemptId := []

namespace Scene

/-- Whether an attempt of the client led to a connection. -/
def Owns (scene : Scene) (link : LinkId) : Prop :=
  ∃ attempt ∈ scene.attempts, scene.net.attempt attempt = .connected link

/-- What the client holds: its ends of its connections, and its attempts. -/
def holdings (scene : Scene) : Net.Holdings where
  ends := fun link side => side = .dialler ∧ scene.Owns link
  attempts := (· ∈ scene.attempts)
  listeners := fun _ => False

/-- The scene after a step of the client. -/
def after (scene : Scene) (net : Net) (client : CnodeClient) : Scene :=
  { scene with net, client, attempts := client.dialled?.toList ++ scene.attempts }

/-- The client cannot go on now. -/
def Waits (scene : Scene) : Prop :=
  scene.client.step scene.now scene.net = none

/-- One change of a scene. -/
inductive Move (scene : Scene) : Scene → Prop
  | step {net : Net} {client : CnodeClient}
      (h : scene.client.step scene.now scene.net = some (net, client)) :
      Move scene (scene.after net client)
  | others {net : Net} (h : scene.net.Foreign scene.holdings net) : Move scene { scene with net }
  | wait {now : Instant} (hwaits : scene.Waits) (hnow : scene.now ≤ now)
      (hwake : ∀ wake, scene.client.wake? = some wake → now ≤ wake) : Move scene { scene with now }
  /-- A client that waits for its loop to end is not called. -/
  | start (h : scene.client.isStopping = false) :
      Move scene { scene with client := scene.client.start.2 }
  | stop : Move scene { scene with client := scene.client.requestStop }

/-- A scene that is reached from a new client in any network, through scenes that all meet a
condition. -/
inductive Within (holds : Scene → Prop) : Scene → Prop
  | begin (now : Instant) (net : Net) (config : CnodeConfig)
      (h : holds { now, net, client := { config } }) :
      Within holds { now, net, client := { config } }
  | move {scene later : Scene} (hscene : Within holds scene) (hmove : scene.Move later)
      (h : holds later) : Within holds later

/-- A scene that is reached from a new client in any network. -/
def Reachable (scene : Scene) : Prop :=
  scene.Within fun _ => True

theorem Within.reachable {holds : Scene → Prop} {scene : Scene} (h : scene.Within holds) :
    scene.Reachable := by
  induction h with
  | begin now net config _ => exact .begin now net config trivial
  | move _ hmove _ ih => exact .move ih hmove trivial

theorem Within.holds {holds : Scene → Prop} {scene : Scene} (h : scene.Within holds) :
    holds scene := by
  cases h <;> assumption

/-- The client runs on until it waits. -/
inductive Settles : Scene → Scene → Prop
  | waits {scene : Scene} (h : scene.Waits) : Settles scene scene
  | step {scene last : Scene} {net : Net} {client : CnodeClient}
      (h : scene.client.step scene.now scene.net = some (net, client))
      (hrest : Settles (scene.after net client) last) : Settles scene last

end Scene

/-! ## What a turn does to the network -/

namespace CnodeClient

variable {now : Instant} {net later : Net} {client next : CnodeClient}

theorem dialled?_retreat (client : CnodeClient) (now : Instant) (loop : ClientLoop) :
    (client.retreat now loop).dialled? = none := by
  rcases retreat_cases client now loop with ⟨_, heq⟩ | ⟨_, heq⟩ <;> rw [heq] <;> rfl

theorem dialled?_of_loop {backoff : Backoff} {dial : Dial}
    (hloop : client.loop = some ⟨backoff, .dialling dial⟩) :
    client.dialled? = some dial.attempt := by
  simp [dialled?, hloop]

theorem session?_of_hearing {loop : ClientLoop} {session : Session}
    (hloop : client.loop = some loop)
    (hphase : (∃ deadline, loop.phase = .polling session deadline) ∨
      ∃ reader, loop.phase = .receiving session reader) : client.session? = some session := by
  rw [session?_of_loop hloop]
  rcases hphase with ⟨_, hphase⟩ | ⟨_, hphase⟩ <;> rw [hphase] <;> rfl

theorem session?_of_outgoing {backoff : Backoff} {message : Outgoing} {session : Session}
    {sending : Session.Sending} {deadline : Option Instant}
    (hloop : client.loop = some ⟨backoff, message.phase session sending deadline⟩) :
    client.session? = some session := by
  rw [session?_of_loop hloop, ClientPhase.session?_outgoing]

theorem loop_of_dialled {attempt : AttemptId} (h : client.dialled? = some attempt) :
    ∃ backoff dial, client.loop = some ⟨backoff, .dialling dial⟩ ∧ dial.attempt = attempt := by
  cases hloop : client.loop with
  | none => simp [dialled?, hloop] at h
  | some loop =>
      obtain ⟨backoff, phase⟩ := loop
      cases phase <;> simp [dialled?, hloop] at h
      exact ⟨backoff, _, rfl, h⟩

theorem dialled?_of_session {session : Session} (h : client.session? = some session) :
    client.dialled? = none := by
  cases hloop : client.loop with
  | none => simp [dialled?, hloop]
  | some loop =>
      rw [session?_of_loop hloop] at h
      cases hphase : loop.phase <;> simp [hphase, ClientPhase.session?] at h <;>
        simp [dialled?, hloop, hphase]

theorem dialled?_of_begins {loop : ClientLoop} {backoff : Backoff}
    (hloop : client.loop = some loop) (hbegins : Begins now client.running loop backoff) :
    client.dialled? = none := by
  cases hbegins <;> simp [dialled?, hloop]

/-- A turn changes the connection of the session, makes an attempt, gives up the one that it
waits for, or does nothing in the network. -/
theorem Turn.net_cases (h : Turn now net client later next) :
    (later = net ∧ next.dialled? = none ∧
        ∀ attempt, client.dialled? = some attempt → (net.attempt attempt).isWaiting = false) ∨
      (∃ session change, client.session? = some session ∧
        later = net.changeLink session.link change ∧ next.dialled? = none) ∨
      (∃ host port, client.dialled? = none ∧ later = (net.seek host port).2 ∧
        next.dialled? = some (net.seek host port).1) ∨
      ∃ attempt, client.dialled? = some attempt ∧ (net.attempt attempt).isWaiting = true ∧
        later = net.abandon attempt ∧ next.dialled? = none := by
  have hquiet : client.dialled? = none →
      ∀ attempt, client.dialled? = some attempt → (net.attempt attempt).isWaiting = false := by
    intro hnone attempt hdialled
    rw [hnone] at hdialled
    cases hdialled
  cases h with
  | quit hloop hbegins =>
      exact .inl ⟨rfl, rfl, hquiet (dialled?_of_begins hloop hbegins)⟩
  | @dial _ _ host port hloop hbegins =>
      exact .inr (.inr (.inl ⟨host, port, dialled?_of_begins hloop hbegins, rfl, rfl⟩))
  | doze hloop => exact .inl ⟨rfl, rfl, hquiet (by simp [dialled?, hloop])⟩
  | refused hloop hattempt =>
      refine .inl ⟨rfl, dialled?_retreat _ _ _, fun attempt hdialled => ?_⟩
      cases hdialled.symm.trans (dialled?_of_loop hloop)
      rcases hattempt with ⟨_, hrefused⟩ | habandoned
      · exact Attempt.isWaiting_of_refusal hrefused
      · rw [habandoned]
        rfl
  | expired hloop hattempt =>
      exact .inr (.inr (.inr
        ⟨_, dialled?_of_loop hloop, hattempt, rfl, dialled?_retreat _ _ _⟩))
  | connected hloop hattempt =>
      refine .inl ⟨rfl, rfl, fun attempt hdialled => ?_⟩
      cases hdialled.symm.trans (dialled?_of_loop hloop)
      rw [hattempt]
      rfl
  | @wrote _ message _ _ _ _ _ hloop =>
      refine .inr (.inl ⟨_, _, session?_of_outgoing hloop, rfl, ?_⟩)
      cases message <;> rfl
  | sent hloop => exact .inr (.inl ⟨_, _, session?_of_outgoing hloop, rfl, rfl⟩)
  | parted hloop => exact .inr (.inl ⟨_, _, session?_of_outgoing hloop, rfl, rfl⟩)
  | unsent hloop =>
      exact .inr (.inl ⟨_, _, session?_of_outgoing hloop, rfl, dialled?_retreat _ _ _⟩)
  | late hloop =>
      exact .inr (.inl ⟨_, _, session?_of_outgoing hloop, rfl, dialled?_retreat _ _ _⟩)
  | readable hloop =>
      exact .inl ⟨rfl, rfl, hquiet (dialled?_of_session (session?_of_loop hloop))⟩
  | idle hloop => exact .inl ⟨rfl, rfl, hquiet (dialled?_of_session (session?_of_loop hloop))⟩
  | interrupted hloop => exact .inr (.inl ⟨_, _, session?_of_loop hloop, rfl, rfl⟩)
  | dismissed hloop => exact .inr (.inl ⟨_, _, session?_of_loop hloop, rfl, rfl⟩)
  | ended hloop hphase =>
      exact .inr (.inl ⟨_, _, session?_of_hearing hloop hphase, rfl, dialled?_retreat _ _ _⟩)
  | failed hloop hphase =>
      exact .inr (.inl ⟨_, _, session?_of_hearing hloop hphase, rfl, dialled?_retreat _ _ _⟩)
  | more hloop => exact .inr (.inl ⟨_, _, session?_of_loop hloop, rfl, rfl⟩)
  | request hloop => exact .inr (.inl ⟨_, _, session?_of_loop hloop, rfl, rfl⟩)
  | rejected hloop =>
      exact .inr (.inl ⟨_, _, session?_of_loop hloop, rfl, dialled?_retreat _ _ _⟩)

/-- A client whose attempt led to a connection announces itself there. -/
theorem Turn.of_connected (h : Turn now net client later next) {backoff : Backoff} {dial : Dial}
    {link : LinkId} (hloop : client.loop = some ⟨backoff, .dialling dial⟩)
    (hattempt : net.attempt dial.attempt = .connected link) :
    later = net ∧ ∃ deadline, next.loop = some ⟨backoff,
      Outgoing.identity.phase ((client.session link).holding Outgoing.identity.frame)
        ⟨6, Outgoing.identity.frame⟩ deadline⟩ := by
  cases h with
  | connected hdial hconnected =>
      cases hloop.symm.trans hdial
      cases hattempt.symm.trans hconnected
      exact ⟨rfl, _, rfl⟩
  | quit hother hbegins => cases hbegins <;> cases hloop.symm.trans hother
  | dial hother hbegins => cases hbegins <;> cases hloop.symm.trans hother
  | refused hdial hfailed =>
      cases hloop.symm.trans hdial
      rw [hattempt] at hfailed
      rcases hfailed with ⟨_, hfailed⟩ | hfailed <;> cases hfailed
  | expired hdial hwaiting =>
      cases hloop.symm.trans hdial
      rw [hattempt] at hwaiting
      cases hwaiting
  | @wrote _ message _ _ _ _ _ hother => cases message <;> cases hloop.symm.trans hother
  | @sent _ message _ _ _ _ _ hother => cases message <;> cases hloop.symm.trans hother
  | @parted _ message _ _ _ _ _ hother => cases message <;> cases hloop.symm.trans hother
  | @unsent _ message _ _ _ _ _ hother => cases message <;> cases hloop.symm.trans hother
  | @late _ message _ _ _ _ hother => cases message <;> cases hloop.symm.trans hother
  | ended hother hphase =>
      cases hloop.symm.trans hother
      rcases hphase with ⟨_, hphase⟩ | ⟨_, hphase⟩ <;> cases hphase
  | failed hother hphase =>
      cases hloop.symm.trans hother
      rcases hphase with ⟨_, hphase⟩ | ⟨_, hphase⟩ <;> cases hphase
  | doze hother => cases hloop.symm.trans hother
  | readable hother => cases hloop.symm.trans hother
  | idle hother => cases hloop.symm.trans hother
  | interrupted hother => cases hloop.symm.trans hother
  | dismissed hother => cases hloop.symm.trans hother
  | more hother => cases hloop.symm.trans hother
  | request hother => cases hloop.symm.trans hother
  | rejected hother => cases hloop.symm.trans hother

/-- A connection that the client waits for after a turn is the last and new. -/
theorem Turn.fresh_of_dialled (h : Turn now net client later next) {attempt : AttemptId}
    {link : LinkId} (hdialled : next.dialled? = some attempt)
    (hconnected : later.attempt attempt = .connected link) :
    link = net.links.length ∧ later.link link = {} := by
  have hnone : next.dialled? ≠ none := by simp [hdialled]
  rcases h.net_cases with ⟨_, hidle, _⟩ | ⟨_, _, _, _, hidle⟩ | ⟨host, port, _, rfl, hnext⟩ |
    ⟨_, _, _, _, hidle⟩
  · exact absurd hidle hnone
  · exact absurd hidle hnone
  · cases hnext.symm.trans hdialled
    obtain ⟨hlast, _, hnew⟩ := (net.dialled_seek host port).connected hconnected
    exact ⟨hlast, hnew⟩
  · exact absurd hidle hnone

/-- After a turn the client is in no session, in the one it was in, or in one on the
connection that it waited for. -/
theorem Turn.session_cases (h : Turn now net client later next) {session : Session}
    (hsession : next.session? = some session) :
    (∃ before, client.session? = some before ∧ before.link = session.link) ∨
      ∃ attempt, client.dialled? = some attempt ∧
        net.attempt attempt = .connected session.link := by
  have hnone : ∀ {loop}, next = client.retreat now loop → False := by
    rintro loop rfl
    rw [session?_retreat] at hsession
    cases hsession
  cases h with
  | quit => cases hsession
  | dial => cases hsession
  | doze => cases hsession
  | refused => exact (hnone rfl).elim
  | expired => exact (hnone rfl).elim
  | connected hloop hattempt =>
      cases hsession
      exact .inr ⟨_, dialled?_of_loop hloop, hattempt⟩
  | wrote hloop =>
      rw [session?_of_loop rfl, ClientPhase.session?_outgoing] at hsession
      cases hsession
      exact .inl ⟨_, session?_of_outgoing hloop, rfl⟩
  | sent hloop =>
      cases hsession
      exact .inl ⟨_, session?_of_outgoing hloop, rfl⟩
  | parted => cases hsession
  | unsent => exact (hnone rfl).elim
  | late => exact (hnone rfl).elim
  | readable hloop =>
      cases hsession
      exact .inl ⟨_, session?_of_loop hloop, rfl⟩
  | idle hloop =>
      cases hsession
      exact .inl ⟨_, session?_of_loop hloop, rfl⟩
  | interrupted hloop =>
      cases hsession
      exact .inl ⟨_, session?_of_loop hloop, rfl⟩
  | dismissed => cases hsession
  | ended => exact (hnone rfl).elim
  | failed => exact (hnone rfl).elim
  | more hloop =>
      cases hsession
      exact .inl ⟨_, session?_of_loop hloop, rfl⟩
  | request hloop =>
      cases hsession
      exact .inl ⟨_, session?_of_loop hloop, rfl⟩
  | rejected => exact (hnone rfl).elim

end CnodeClient

/-! ## What holds of all connections of the client -/

namespace Scene

/-- A connection that comes with a change of the scene: nobody has used it, and the client
waits for it. -/
structure Adds (scene later : Scene) (link : LinkId) : Prop where
  added : scene.net.links.length ≤ link
  exists_later : link < later.net.links.length
  unused : later.net.link link = {}
  dialled : ∃ attempt, later.client.dialled? = some attempt ∧
    later.net.attempt attempt = .connected link

/-- What a change of the scene does to the connections of the client: those that there were
stay, and all others are added. -/
structure Extends (scene later : Scene) : Prop where
  links : scene.net.links.length ≤ later.net.links.length
  attempts : ∀ attempt ∈ later.attempts, attempt < later.net.attempts.length
  keeps : ∀ {link}, scene.Owns link → later.Owns link
  owns : ∀ {link}, later.Owns link → scene.Owns link ∨ scene.Adds later link

/-- The attempts and connections of the client exist, it waits for the only attempt of its own
that nobody has answered, and its session is on a connection of its own. -/
structure Sound (scene : Scene) : Prop where
  fits : scene.client.Fits
  attempts : ∀ attempt ∈ scene.attempts, attempt < scene.net.attempts.length
  links : ∀ {link}, scene.Owns link → link < scene.net.links.length
  dialled : ∀ {attempt}, scene.client.dialled? = some attempt → attempt ∈ scene.attempts
  waiting : ∀ {attempt}, attempt ∈ scene.attempts →
    (scene.net.attempt attempt).isWaiting = true → scene.client.dialled? = some attempt
  session : ∀ {session}, scene.client.session? = some session → scene.Owns session.link

variable {scene later : Scene}

/-- What a turn makes of the connection of the session. -/
theorem Sound.link_changeLink (hscene : scene.Sound) {session : Session}
    (hsession : scene.client.session? = some session) (change : Link → Link) :
    (scene.net.changeLink session.link change).link session.link =
      change (scene.net.link session.link) :=
  Net.link_changeLink _ _ change (hscene.links (hscene.session hsession))

theorem Extends.links_of_owns (h : scene.Extends later) (hscene : scene.Sound) {link : LinkId}
    (hlink : later.Owns link) : link < later.net.links.length := by
  rcases h.owns hlink with hold | hadded
  · exact Nat.lt_of_lt_of_le (hscene.links hold) h.links
  · exact hadded.exists_later

/-- Attempts keep their outcomes, up to those that were waited for and led nowhere. -/
theorem extends_of_settled (hscene : scene.Sound) (hsame : later.attempts = scene.attempts)
    (hlinks : scene.net.links.length ≤ later.net.links.length)
    (hattempts : scene.net.attempts.length ≤ later.net.attempts.length)
    (h : ∀ attempt ∈ scene.attempts,
      later.net.attempt attempt = scene.net.attempt attempt ∨
        (scene.net.attempt attempt).isWaiting = true ∧
          ∀ link, later.net.attempt attempt = .connected link → scene.Adds later link) :
    scene.Extends later where
  links := hlinks
  attempts := by
    rw [hsame]
    exact fun attempt hmem => Nat.lt_of_lt_of_le (hscene.attempts attempt hmem) hattempts
  keeps := by
    rintro link ⟨attempt, hmem, hconnected⟩
    rcases h attempt hmem with hkept | ⟨hwaiting, _⟩
    · exact ⟨attempt, hsame ▸ hmem, hkept.trans hconnected⟩
    · rw [hconnected] at hwaiting
      cases hwaiting
  owns := by
    rintro link ⟨attempt, hmem, hconnected⟩
    rw [hsame] at hmem
    rcases h attempt hmem with hkept | ⟨_, hnew⟩
    · exact .inl ⟨attempt, hmem, hkept.symm.trans hconnected⟩
    · exact .inr (hnew link hconnected)

theorem extends_of_foreign {net : Net} (hscene : scene.Sound)
    (h : scene.net.Foreign scene.holdings net) : scene.Extends { scene with net } := by
  have hevolves := h.evolves
  refine extends_of_settled hscene rfl hevolves.links hevolves.attempts fun attempt hmem => ?_
  rcases hevolves.attempt hmem (hscene.attempts attempt hmem) with hsame | ⟨hwaiting, hanswers⟩
  · exact .inl hsame
  · refine .inr ⟨hwaiting, fun link hlink => ?_⟩
    obtain ⟨rfl, hlength, hfresh⟩ := hanswers.links_of_connected hlink
    exact ⟨Nat.le_refl _, hlength, hfresh, attempt, hscene.waiting hmem hwaiting, hlink⟩

theorem after_attempts {net : Net} {client : CnodeClient} (h : client.dialled? = none) :
    (scene.after net client).attempts = scene.attempts := by
  simp [after, h]

theorem abandoned_of_sound (hscene : scene.Sound) {attempt : AttemptId}
    (hdialled : scene.client.dialled? = some attempt) :
    (scene.net.abandon attempt).attempt attempt = .abandoned := by
  have hlt := hscene.attempts attempt (hscene.dialled hdialled)
  simp [Net.attempt, Net.abandon, Net.settleAttempt, hlt]

theorem extends_of_turn {net : Net} {client : CnodeClient} (hscene : scene.Sound)
    (h : scene.client.Turn scene.now scene.net net client) :
    scene.Extends (scene.after net client) := by
  rcases h.net_cases with ⟨rfl, hnone, _⟩ | ⟨session, change, _, rfl, hnone⟩ |
    ⟨host, port, _, rfl, hdialled⟩ | ⟨dialled, hdialled, hwaiting, rfl, hnone⟩
  · exact extends_of_settled hscene (after_attempts hnone) (Nat.le_refl _) (Nat.le_refl _)
      (fun _ _ => .inl rfl)
  · exact extends_of_settled hscene (after_attempts hnone)
      (Nat.le_of_eq (Net.length_changeLink _ _ _).symm) (Nat.le_refl _) (fun _ _ => .inl rfl)
  · have hdial := scene.net.dialled_seek host port
    have hattempts : (scene.after (scene.net.seek host port).2 client).attempts =
        (scene.net.seek host port).1 :: scene.attempts := by
      simp [after, hdialled]
    constructor
    case links => exact hdial.links
    case attempts =>
      rw [hattempts]
      intro attempt hmem
      show attempt < (scene.net.seek host port).2.attempts.length
      rw [hdial.attempts]
      rcases List.mem_cons.mp hmem with rfl | hmem
      · exact Nat.lt_succ_of_le (Nat.le_of_eq hdial.number)
      · exact Nat.lt_succ_of_lt (hscene.attempts attempt hmem)
    case keeps =>
      rintro link ⟨attempt, hmem, hconnected⟩
      refine ⟨attempt, hattempts ▸ List.mem_cons_of_mem _ hmem, ?_⟩
      exact (hdial.attempt (hscene.attempts attempt hmem)).trans hconnected
    case owns =>
      rintro link ⟨attempt, hmem, hconnected⟩
      rw [hattempts] at hmem
      rcases List.mem_cons.mp hmem with rfl | hmem
      · obtain ⟨rfl, hlength, hnew⟩ := hdial.connected hconnected
        exact .inr ⟨Nat.le_refl _, hlength, hnew, _, hdialled, hconnected⟩
      · exact .inl ⟨attempt, hmem,
          (hdial.attempt (hscene.attempts attempt hmem)).symm.trans hconnected⟩
  · refine extends_of_settled hscene (after_attempts hnone) (Nat.le_refl _)
      (Nat.le_of_eq (List.length_set).symm) (fun attempt _ => ?_)
    by_cases hsame : dialled = attempt
    · subst hsame
      refine .inr ⟨hwaiting, fun link hlink => ?_⟩
      cases (abandoned_of_sound hscene hdialled).symm.trans hlink
    · exact .inl (Net.attempt_abandon_of_ne _ hsame)

/-- A turn leaves no attempt unanswered but one that it has just made. -/
theorem waiting_of_turn {net : Net} {client : CnodeClient} (hscene : scene.Sound)
    (h : scene.client.Turn scene.now scene.net net client) {attempt : AttemptId}
    (hmem : attempt ∈ (scene.after net client).attempts)
    (hwaiting : (net.attempt attempt).isWaiting = true) : client.dialled? = some attempt := by
  rcases h.net_cases with ⟨rfl, hnone, hanswered⟩ | ⟨session, change, hsession, rfl, hnone⟩ |
    ⟨host, port, hidle, rfl, hdialled⟩ | ⟨dialled, hdialled, _, rfl, hnone⟩
  · rw [after_attempts hnone] at hmem
    have hbefore := hscene.waiting hmem hwaiting
    rw [hanswered attempt hbefore] at hwaiting
    cases hwaiting
  · rw [after_attempts hnone] at hmem
    have hbefore := hscene.waiting hmem hwaiting
    rw [CnodeClient.dialled?_of_session hsession] at hbefore
    cases hbefore
  · rw [after, hdialled] at hmem
    rcases List.mem_cons.mp hmem with rfl | hmem
    · exact hdialled
    · rw [(scene.net.dialled_seek host port).attempt (hscene.attempts attempt hmem)] at hwaiting
      have hbefore := hscene.waiting hmem hwaiting
      rw [hidle] at hbefore
      cases hbefore
  · rw [after_attempts hnone] at hmem
    by_cases hsame : dialled = attempt
    · subst hsame
      rw [abandoned_of_sound hscene hdialled] at hwaiting
      cases hwaiting
    · rw [Net.attempt_abandon_of_ne _ hsame] at hwaiting
      cases hdialled.symm.trans (hscene.waiting hmem hwaiting)
      exact absurd rfl hsame

/-- Starting and stopping change nothing of what the client is about to do in the network. -/
theorem start_cases (client : CnodeClient) :
    client.start.2 = client ∨ client.attached = false ∧ client.config.target? ≠ none ∧
      client.start.2 =
        { client with
          running := true
          attached := true
          loop := some ⟨.ofLimits client.config.initialBackoffSecs client.config.maxBackoffSecs,
            .starting⟩ } := by
  unfold CnodeClient.start
  split
  · exact .inl rfl
  · rename_i hattached
    split
    · exact .inl rfl
    · rename_i htarget
      refine .inr ⟨by simpa using hattached, fun hnone => htarget (by simp [hnone]), rfl⟩

theorem stop_cases (client : CnodeClient) :
    client.requestStop = client ∨ client.attached = true ∧
      client.requestStop = { client with running := false, attached := false } := by
  unfold CnodeClient.requestStop
  split
  · rename_i hattached
    exact .inr ⟨hattached, rfl⟩
  · exact .inl rfl

/-- The moves, with what a step does to the client and the network spelled out. -/
theorem Move.cases (hscene : scene.Sound) (h : scene.Move later) :
    (∃ net client, scene.client.Turn scene.now scene.net net client ∧
        later = scene.after net client) ∨
      (∃ net, scene.net.Foreign scene.holdings net ∧ later = { scene with net }) ∨
      (∃ now, scene.Waits ∧ scene.now ≤ now ∧
        (∀ wake, scene.client.wake? = some wake → now ≤ wake) ∧ later = { scene with now }) ∨
      (scene.client.attached = false ∧ scene.client.loop = none ∧
        scene.client.config.target? ≠ none ∧
        later = { scene with
          client := { scene.client with
            running := true
            attached := true
            loop := some ⟨.ofLimits scene.client.config.initialBackoffSecs
              scene.client.config.maxBackoffSecs, .starting⟩ } }) ∨
      (scene.client.attached = true ∧
        later = { scene with
          client := { scene.client with running := false, attached := false } }) ∨
      later = scene := by
  cases h with
  | step h => exact .inl ⟨_, _, CnodeClient.turn_of_step hscene.fits h, rfl⟩
  | others h => exact .inr (.inl ⟨_, h, rfl⟩)
  | wait hwaits hnow hwake => exact .inr (.inr (.inl ⟨_, hwaits, hnow, hwake, rfl⟩))
  | start h =>
      rcases start_cases scene.client with hsame | ⟨hattached, htarget, hstart⟩
      · exact .inr (.inr (.inr (.inr (.inr (by rw [hsame])))))
      · have hloop : scene.client.loop = none := by
          simpa [CnodeClient.isStopping, hattached] using h
        exact .inr (.inr (.inr (.inl ⟨hattached, hloop, htarget, by rw [hstart]⟩)))
  | stop =>
      rcases stop_cases scene.client with hsame | ⟨hattached, hstop⟩
      · exact .inr (.inr (.inr (.inr (.inr (by rw [hsame])))))
      · exact .inr (.inr (.inr (.inr (.inl ⟨hattached, by rw [hstop]⟩))))

theorem Move.extends (hscene : scene.Sound) (h : scene.Move later) : scene.Extends later := by
  have hsame : ∀ now client, scene.Extends { scene with now, client } := fun now client =>
    extends_of_settled hscene rfl (Nat.le_refl _) (Nat.le_refl _) (fun _ _ => .inl rfl)
  rcases h.cases hscene with ⟨net, client, hturn, rfl⟩ | ⟨net, hforeign, rfl⟩ |
    ⟨now, _, _, _, rfl⟩ | ⟨_, _, _, rfl⟩ | ⟨_, rfl⟩ | rfl
  · exact extends_of_turn hscene hturn
  · exact extends_of_foreign hscene hforeign
  · exact hsame now _
  · exact hsame _ _
  · exact hsame _ _
  · exact hsame _ _

theorem Move.sound (hscene : scene.Sound) (h : scene.Move later) : later.Sound := by
  have hextends := h.extends hscene
  have hlinks : ∀ {link}, later.Owns link → link < later.net.links.length :=
    fun hlink => hextends.links_of_owns hscene hlink
  rcases h.cases hscene with ⟨net, client, hturn, rfl⟩ | ⟨net, hforeign, rfl⟩ |
    ⟨now, _, _, _, rfl⟩ | ⟨_, hloop, _, rfl⟩ | ⟨_, rfl⟩ | rfl
  · constructor
    case fits => exact hturn.fits hscene.fits
    case attempts => exact hextends.attempts
    case links => exact hlinks
    case dialled =>
      intro attempt hdialled
      have hdialled : client.dialled? = some attempt := hdialled
      simp [after, hdialled]
    case waiting => exact fun hmem hwaiting => waiting_of_turn hscene hturn hmem hwaiting
    case session =>
      intro session hsession
      rcases hturn.session_cases hsession with ⟨before, hbefore, hlink⟩ |
        ⟨attempt, hattempt, hconnected⟩
      · exact hextends.keeps (hlink ▸ hscene.session hbefore)
      · exact hextends.keeps ⟨attempt, hscene.dialled hattempt, hconnected⟩
  · refine ⟨hscene.fits, hextends.attempts, hlinks, hscene.dialled, ?_,
      fun hsession => hextends.keeps (hscene.session hsession)⟩
    intro attempt hmem hwaiting
    rcases hforeign.evolves.attempt hmem (hscene.attempts attempt hmem) with hsame |
      ⟨hbefore, _⟩
    · exact hscene.waiting hmem (hsame ▸ hwaiting)
    · exact hscene.waiting hmem hbefore
  · exact ⟨hscene.fits, hscene.attempts, hscene.links, hscene.dialled, hscene.waiting,
      hscene.session⟩
  · refine ⟨CnodeClient.fits_of_none rfl, hscene.attempts, hscene.links,
      fun hdialled => (by cases hdialled), ?_, fun hsession => (by cases hsession)⟩
    intro attempt hmem hwaiting
    have hbefore := hscene.waiting hmem hwaiting
    simp [CnodeClient.dialled?, hloop] at hbefore
  · exact ⟨hscene.fits, hscene.attempts, hscene.links, hscene.dialled, hscene.waiting,
      hscene.session⟩
  · exact hscene

theorem sound_begin (now : Instant) (net : Net) (config : CnodeConfig) :
    Sound { now, net, client := { config } } where
  fits := CnodeClient.fits_of_none rfl
  attempts := by simp
  links := by
    rintro link ⟨attempt, hmem, _⟩
    cases hmem
  dialled := fun hdialled => by cases hdialled
  waiting := fun hmem => by cases hmem
  session := fun hsession => by cases hsession

theorem Reachable.sound (h : scene.Reachable) : scene.Sound := by
  induction h with
  | begin now net config _ => exact sound_begin now net config
  | move _ hmove _ ih => exact hmove.sound ih

/-- What holds of the client and the time alone, and is kept by every turn, by waiting, and by
starting and stopping, holds in every scene that is reached. Only a client with a target and
without a loop is started. -/
theorem Reachable.invariant (holds : Instant → CnodeClient → Prop) (h : scene.Reachable)
    (hbegin : ∀ now config, holds now { config })
    (hturn : ∀ {now net later client next}, CnodeClient.Turn now net client later next →
      holds now client → holds now next)
    (hwait : ∀ {now later client}, now ≤ later → holds now client → holds later client)
    (hstart : ∀ {now client}, client.loop = none → client.config.target? ≠ none →
      holds now client → holds now
      { client with
        running := true
        attached := true
        loop := some ⟨.ofLimits client.config.initialBackoffSecs client.config.maxBackoffSecs,
          .starting⟩ })
    (hstop : ∀ {now client}, holds now client →
      holds now { client with running := false, attached := false }) :
    holds scene.now scene.client := by
  induction h with
  | begin now net config _ => exact hbegin now config
  | move hscene hmove _ ih =>
      rcases hmove.cases (Reachable.sound hscene) with ⟨net, client, hnext, rfl⟩ |
        ⟨net, _, rfl⟩ | ⟨now, _, hnow, _, rfl⟩ | ⟨_, hloop, htarget, rfl⟩ | ⟨_, rfl⟩ | rfl
      · exact hturn hnext ih
      · exact ih
      · exact hwait hnow ih
      · exact hstart hloop htarget ih
      · exact hstop ih
      · exact ih

/-! ## What happens on one connection -/

/-- A turn of a client in no session, or in a session on another connection, leaves a
connection alone. -/
theorem link_of_turn {net : Net} {client : CnodeClient}
    (h : scene.client.Turn scene.now scene.net net client) {link : LinkId}
    (hlink : link < scene.net.links.length)
    (hother : ∀ session, scene.client.session? = some session → session.link ≠ link) :
    net.link link = scene.net.link link := by
  rcases h.net_cases with ⟨rfl, _⟩ | ⟨session, change, hsession, rfl, _⟩ |
    ⟨host, port, _, rfl, _⟩ | ⟨dialled, _, _, rfl, _⟩
  · rfl
  · exact Net.link_changeLink_of_ne _ _ (hother session hsession)
  · exact (scene.net.dialled_seek host port).link hlink
  · rfl

/-- Others change a connection of the client beside it. -/
theorem beside_of_foreign {net : Net} (hscene : scene.Sound)
    (h : scene.net.Foreign scene.holdings net) {link : LinkId} (hlink : scene.Owns link) :
    (scene.net.link link).Beside .dialler (net.link link) :=
  h.evolves.beside ⟨rfl, hlink⟩ (hscene.links hlink)

end Scene

end NodeHealth
