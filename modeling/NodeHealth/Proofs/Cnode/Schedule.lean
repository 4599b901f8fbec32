import NodeHealth.Proofs.Backoff
import NodeHealth.Proofs.Cnode.Answers

/-!
# The schedule of the cnode client's attempts

A client that is not stopped never gives up. Between the end of an attempt and the beginning
of the next one it sleeps exactly for the delay that its limits set, which depends on the
number of attempts since it was started and on nothing else; and while it sleeps it holds no
connection.

## Implementation notes

An attempt lasts from the dial to the end of the session that it leads to, if it leads to one,
so that its end does not depend on how far it came. `Scene.Logged` writes the attempts down
while a scene changes: one begins with a step of a client that is due, and ends with the step
after which the client is in no attempt. The log begins anew when the client is started.

-/

namespace NodeHealth

/-- When an attempt began, and when it ended if it has. -/
structure Trip where
  begun : Instant
  ended : Option Instant := none
  deriving DecidableEq, Repr

/-- The last attempt ends, if it has not ended before. -/
def Trip.finish (now : Instant) : List Trip → List Trip
  | ⟨begun, none⟩ :: past => ⟨begun, some now⟩ :: past
  | trips => trips

/-- The phase belongs to an attempt. -/
def ClientPhase.isTrying : ClientPhase → Bool
  | starting => false
  | resting _ _ => false
  | _ => true

/-- The next step begins an attempt, unless the flag is cleared. -/
def ClientPhase.isDue : ClientPhase → Bool
  | starting => true
  | resting seconds _ => seconds ≤ 1
  | _ => false

theorem ClientPhase.isDue_of_trying {phase : ClientPhase} (h : phase.isTrying = true) :
    phase.isDue = false := by
  cases phase <;> first | rfl | cases h

/-- The time between the end of an attempt with `count` attempts before it and the next one. -/
def CnodeConfig.delayMs (config : CnodeConfig) (count : Nat) : Nat :=
  CnodeClient.tickMs * Backoff.delay config.initialBackoffSecs config.maxBackoffSecs count

/-- Each attempt in a log, the last one first, began a delay after the end of the one before. -/
def CnodeConfig.Spaced (config : CnodeConfig) : List Trip → Prop
  | later :: earlier :: past =>
      (∃ ended, earlier.ended = some ended ∧ later.begun = ended + config.delayMs past.length) ∧
        config.Spaced (earlier :: past)
  | _ => True

namespace CnodeClient

/-- The client is in an attempt. -/
def isTrying (client : CnodeClient) : Bool :=
  client.loop.any fun loop => loop.phase.isTrying

/-- The next step of the client begins an attempt. -/
def isDue (client : CnodeClient) : Bool :=
  client.running && client.loop.any fun loop => loop.phase.isDue

/-- The delays of the client from its first attempt on. -/
def schedule (client : CnodeClient) : Backoff :=
  .ofLimits client.config.initialBackoffSecs client.config.maxBackoffSecs

/-- The log after a step of the client. -/
def logged (client next : CnodeClient) (now : Instant) (trips : List Trip) : List Trip :=
  let trips := if client.isDue then ⟨now, none⟩ :: trips else trips
  if next.isTrying then trips else Trip.finish now trips

/-- Where a client that was not stopped stands in its log. -/
inductive Paced (now : Instant) (client : CnodeClient) : List Trip → Prop
  | starting (hloop : client.loop = some ⟨client.schedule.after 0, .starting⟩) :
      Paced now client []
  | trying {begun : Instant} {past : List Trip} {phase : ClientPhase}
      (hloop : client.loop = some ⟨client.schedule.after past.length, phase⟩)
      (hphase : phase.isTrying = true) (hspaced : client.config.Spaced (⟨begun, none⟩ :: past)) :
      Paced now client (⟨begun, none⟩ :: past)
  /-- The seconds that are left end with the delay. -/
  | resting {begun ended : Instant} {past : List Trip} {seconds : Nat} {wake : Instant}
      (hloop : client.loop = some ⟨client.schedule.after past.length, .resting seconds wake⟩)
      (hseconds : 1 ≤ seconds) (hwake : now ≤ wake)
      (hrest : wake + tickMs * (seconds - 1) = ended + client.config.delayMs past.length)
      (hspaced : client.config.Spaced (⟨begun, some ended⟩ :: past)) :
      Paced now client (⟨begun, some ended⟩ :: past)

variable {now : Instant} {net later : Net} {client next : CnodeClient} {trips : List Trip}

theorem isTrying_of_loop {loop : ClientLoop} (hloop : client.loop = some loop) :
    client.isTrying = loop.phase.isTrying := by
  simp [isTrying, hloop]

theorem isDue_of_loop {loop : ClientLoop} (hloop : client.loop = some loop)
    (hrunning : client.running = true) : client.isDue = loop.phase.isDue := by
  simp [isDue, hloop, hrunning]

theorem isDue_of_begins {loop : ClientLoop} {backoff : Backoff}
    (h : Begins now client.running loop backoff) (hrunning : client.running = true) :
    loop.phase.isDue = true := by
  cases h with
  | first => rfl
  | again _ _ hlast => exact decide_eq_true (hlast hrunning)

/-- Whether an attempt has ended makes no difference to when it began. -/
theorem spaced_finish {config : CnodeConfig} {begun : Instant} {past : List Trip}
    (h : config.Spaced (⟨begun, none⟩ :: past)) (ended : Instant) :
    config.Spaced (⟨begun, some ended⟩ :: past) := by
  cases past with
  | nil => trivial
  | cons earlier past => exact h

theorem isTrying_outgoing (message : Outgoing) (session : Session) (sending : Session.Sending)
    (deadline : Option Instant) : (message.phase session sending deadline).isTrying = true := by
  cases message <;> rfl

/-- A turn of a client that runs begins an attempt, sleeps on, or goes on with an attempt; and
an attempt goes on behind it, or the sleep after it begins. -/
theorem Turn.pace_cases (h : Turn now net client later next) (hrunning : client.running = true)
    (htarget : client.config.target? ≠ none) :
    (∃ loop backoff dial, client.loop = some loop ∧ Begins now true loop backoff ∧
        next.loop = some ⟨backoff, .dialling dial⟩) ∨
      (∃ backoff seconds wake, client.loop = some ⟨backoff, .resting seconds wake⟩ ∧
        wake ≤ now ∧ 1 < seconds ∧
        next.loop = some ⟨backoff, .resting (seconds - 1) (now + tickMs)⟩) ∨
      ∃ backoff phase, client.loop = some ⟨backoff, phase⟩ ∧ phase.isTrying = true ∧
        ((∃ phase', next.loop = some ⟨backoff, phase'⟩ ∧ phase'.isTrying = true) ∨
          next.loop = some ⟨backoff, .resting backoff.current.toNat (now + tickMs)⟩) := by
  have hretreat : ∀ loop, (client.retreat now loop).loop =
      some ⟨loop.backoff, .resting loop.backoff.current.toNat (now + tickMs)⟩ := by
    intro loop
    rw [retreat_of_running hrunning]
  have hhearing : ∀ {loop : ClientLoop} {session : Session},
      ((∃ deadline, loop.phase = .polling session deadline) ∨
        ∃ reader, loop.phase = .receiving session reader) → loop.phase.isTrying = true := by
    rintro loop session (⟨_, hphase⟩ | ⟨_, hphase⟩) <;> rw [hphase] <;> rfl
  cases h with
  | quit _ _ hquit =>
      rcases hquit with hstopped | hnone
      · rw [hrunning] at hstopped
        cases hstopped
      · exact absurd hnone htarget
  | dial hloop hbegins => exact .inl ⟨_, _, _, hloop, hrunning ▸ hbegins, rfl⟩
  | doze hloop hwake _ hmore => exact .inr (.inl ⟨_, _, _, hloop, hwake, hmore, rfl⟩)
  | refused hloop => exact .inr (.inr ⟨_, _, hloop, rfl, .inr (hretreat _)⟩)
  | expired hloop => exact .inr (.inr ⟨_, _, hloop, rfl, .inr (hretreat _)⟩)
  | connected hloop => exact .inr (.inr ⟨_, _, hloop, rfl, .inl ⟨_, rfl, rfl⟩⟩)
  | wrote hloop =>
      exact .inr (.inr ⟨_, _, hloop, isTrying_outgoing _ _ _ _,
        .inl ⟨_, rfl, isTrying_outgoing _ _ _ _⟩⟩)
  | sent hloop =>
      exact .inr (.inr ⟨_, _, hloop, isTrying_outgoing _ _ _ _, .inl ⟨_, rfl, rfl⟩⟩)
  | parted _ _ _ hstopped =>
      rw [hrunning] at hstopped
      cases hstopped
  | unsent hloop =>
      exact .inr (.inr ⟨_, _, hloop, isTrying_outgoing _ _ _ _, .inr (hretreat _)⟩)
  | late hloop =>
      exact .inr (.inr ⟨_, _, hloop, isTrying_outgoing _ _ _ _, .inr (hretreat _)⟩)
  | readable hloop => exact .inr (.inr ⟨_, _, hloop, rfl, .inl ⟨_, rfl, rfl⟩⟩)
  | idle hloop => exact .inr (.inr ⟨_, _, hloop, rfl, .inl ⟨_, rfl, rfl⟩⟩)
  | interrupted hloop => exact .inr (.inr ⟨_, _, hloop, rfl, .inl ⟨_, rfl, rfl⟩⟩)
  | dismissed _ _ _ hstopped =>
      rw [hrunning] at hstopped
      cases hstopped
  | ended hloop hphase =>
      exact .inr (.inr ⟨_, _, hloop, hhearing hphase, .inr (hretreat _)⟩)
  | failed hloop hphase =>
      exact .inr (.inr ⟨_, _, hloop, hhearing hphase, .inr (hretreat _)⟩)
  | more hloop => exact .inr (.inr ⟨_, _, hloop, rfl, .inl ⟨_, rfl, rfl⟩⟩)
  | request hloop => exact .inr (.inr ⟨_, _, hloop, rfl, .inl ⟨_, rfl, rfl⟩⟩)
  | rejected hloop => exact .inr (.inr ⟨_, _, hloop, rfl, .inr (hretreat _)⟩)

/-- What is left of a sleep is its seconds behind the one that is running. -/
theorem sleep_eq (now : Nat) {seconds : Nat} (h : 1 ≤ seconds) :
    now + tickMs + tickMs * (seconds - 1) = now + tickMs * seconds := by
  rw [Nat.add_assoc, Nat.add_comm tickMs, ← Nat.mul_succ, Nat.succ_eq_add_one,
    Nat.sub_add_cancel h]

/-- At the end of a sleep no more than one second is left. -/
theorem sleep_over {now wake seconds : Nat} (h : wake + tickMs * (seconds - 1) = now)
    (hwake : now ≤ wake) : seconds ≤ 1 := by
  have hleft : tickMs * (seconds - 1) = 0 := by omega
  have hzero : seconds - 1 = 0 := (Nat.mul_eq_zero.mp hleft).resolve_left (by decide)
  omega

/-- An attempt that begins now begins on time. -/
theorem Paced.begins (h : Paced now client trips) {loop : ClientLoop} {backoff : Backoff}
    (hloop : client.loop = some loop) (hbegins : Begins now true loop backoff) :
    loop.phase.isDue = true ∧ backoff = client.schedule.after trips.length ∧
      client.config.Spaced (⟨now, none⟩ :: trips) := by
  cases h with
  | starting hphase =>
      cases hphase.symm.trans hloop
      cases hbegins
      exact ⟨rfl, rfl, trivial⟩
  | trying hphase htrying =>
      cases hphase.symm.trans hloop
      cases hbegins <;> cases htrying
  | @resting begun ended past seconds wake hphase hseconds hwake hrest hspaced =>
      cases hphase.symm.trans hloop
      cases hbegins with
      | again _ hover hlast =>
          have hone : seconds = 1 := Nat.le_antisymm (hlast rfl) hseconds
          subst hone
          have hnow : now = wake := Nat.le_antisymm hwake hover
          subst hnow
          exact ⟨rfl, rfl, ⟨ended, rfl, hrest⟩, hspaced⟩

/-- The sleep after an attempt ends with the delay. -/
theorem paced_of_resting {begun : Instant} {past : List Trip}
    (hspaced : client.config.Spaced (⟨begun, none⟩ :: past)) (hconfig : next.config = client.config)
    (hnext : next.loop = some ⟨client.schedule.after past.length,
      .resting (client.schedule.after past.length).current.toNat (now + tickMs)⟩) :
    Paced now next (⟨begun, some now⟩ :: past) := by
  have hcurrent : (client.schedule.after past.length).current.toNat =
      Backoff.delay client.config.initialBackoffSecs client.config.maxBackoffSecs past.length :=
    Backoff.toNat_current_after _ _ _
  have hpos := Backoff.one_le_delay client.config.initialBackoffSecs client.config.maxBackoffSecs
    past.length
  rw [hcurrent] at hnext
  have hschedule : next.schedule = client.schedule := by rw [schedule, schedule, hconfig]
  refine .resting (hschedule ▸ hnext) hpos (Nat.le_add_right _ _) ?_
    (hconfig ▸ spaced_finish hspaced now)
  rw [hconfig]
  exact sleep_eq now hpos

/-- A turn of a client that runs keeps its place in the log. -/
theorem Turn.paced (h : Turn now net client later next) (hrunning : client.running = true)
    (htarget : client.config.target? ≠ none) (hpaced : Paced now client trips) :
    Paced now next (client.logged next now trips) := by
  obtain ⟨hconfig, _, _⟩ := h.keeps
  have hschedule : next.schedule = client.schedule := by rw [schedule, schedule, hconfig]
  rcases h.pace_cases hrunning htarget with ⟨loop, backoff, dial, hloop, hbegins, hnext⟩ |
    ⟨backoff, seconds, wake, hloop, hwake, hmore, hnext⟩ |
    ⟨backoff, phase, hloop, hphase, hnext⟩
  · obtain ⟨hdue, rfl, hspaced⟩ := hpaced.begins hloop hbegins
    rw [← isDue_of_loop hloop hrunning] at hdue
    have htrying : next.isTrying = true := isTrying_of_loop hnext
    rw [logged, hdue, htrying]
    exact .trying (hschedule ▸ hnext) rfl (hconfig ▸ hspaced)
  · have htrying : next.isTrying = false := isTrying_of_loop hnext
    have hdue : client.isDue = false := by
      rw [isDue_of_loop hloop hrunning]
      simpa [ClientPhase.isDue] using hmore
    rw [logged, hdue, htrying]
    cases hpaced with
    | starting hsame => cases hsame.symm.trans hloop
    | trying hsame htrying =>
        cases hsame.symm.trans hloop
        cases htrying
    | resting hsame hseconds hbefore hrest hspaced =>
        cases hsame.symm.trans hloop
        have hnow : now = wake := Nat.le_antisymm hbefore hwake
        subst hnow
        have hleft := Nat.le_sub_one_of_lt hmore
        refine .resting (hschedule ▸ hnext) hleft (Nat.le_add_right _ _) ?_ (hconfig ▸ hspaced)
        rw [hconfig, ← hrest]
        exact sleep_eq now hleft
  · have hdue : client.isDue = false := by
      rw [isDue_of_loop hloop hrunning]
      exact ClientPhase.isDue_of_trying hphase
    cases hpaced with
    | starting hsame =>
        cases hsame.symm.trans hloop
        cases hphase
    | resting hsame =>
        cases hsame.symm.trans hloop
        cases hphase
    | trying hsame htrying hspaced =>
        cases hsame.symm.trans hloop
        rcases hnext with ⟨phase', hnext, hphase'⟩ | hnext
        · have htrying : next.isTrying = true := (isTrying_of_loop hnext).trans hphase'
          rw [logged, hdue, htrying]
          exact .trying (hschedule ▸ hnext) hphase' (hconfig ▸ hspaced)
        · have htrying : next.isTrying = false := isTrying_of_loop hnext
          rw [logged, hdue, htrying]
          exact paced_of_resting hspaced hconfig hnext

/-! ## Attempts in the network -/

/-- A step of a client that is due makes an attempt on its target. -/
theorem Turn.attempts (h : Turn now net client later next) (hdue : client.isDue = true)
    (htarget : client.config.target? ≠ none) :
    ∃ host port, client.config.target? = some (host, port) ∧ later = (net.seek host port).2 ∧
      next.dialled? = some (net.seek host port).1 := by
  have hnot : ∀ {loop : ClientLoop}, client.loop = some loop → loop.phase.isDue = false →
      False := by
    intro loop hloop hphase
    simp [isDue, hloop, hphase] at hdue
  cases h with
  | quit _ _ hquit =>
      rcases hquit with hstopped | hnone
      · simp [isDue, hstopped] at hdue
      · exact absurd hnone htarget
  | dial _ _ _ htarget => exact ⟨_, _, htarget, rfl, rfl⟩
  | doze hloop _ _ hmore =>
      exact (hnot hloop (by simpa [ClientPhase.isDue] using hmore)).elim
  | refused hloop => exact (hnot hloop rfl).elim
  | expired hloop => exact (hnot hloop rfl).elim
  | connected hloop => exact (hnot hloop rfl).elim
  | wrote hloop =>
      exact (hnot hloop (ClientPhase.isDue_of_trying (isTrying_outgoing _ _ _ _))).elim
  | sent hloop =>
      exact (hnot hloop (ClientPhase.isDue_of_trying (isTrying_outgoing _ _ _ _))).elim
  | parted hloop =>
      exact (hnot hloop (ClientPhase.isDue_of_trying (isTrying_outgoing _ _ _ _))).elim
  | unsent hloop =>
      exact (hnot hloop (ClientPhase.isDue_of_trying (isTrying_outgoing _ _ _ _))).elim
  | late hloop =>
      exact (hnot hloop (ClientPhase.isDue_of_trying (isTrying_outgoing _ _ _ _))).elim
  | readable hloop => exact (hnot hloop rfl).elim
  | idle hloop => exact (hnot hloop rfl).elim
  | interrupted hloop => exact (hnot hloop rfl).elim
  | dismissed hloop => exact (hnot hloop rfl).elim
  | ended hloop hphase =>
      rcases hphase with ⟨_, hphase⟩ | ⟨_, hphase⟩ <;>
        exact (hnot hloop (by rw [hphase]; rfl)).elim
  | failed hloop hphase =>
      rcases hphase with ⟨_, hphase⟩ | ⟨_, hphase⟩ <;>
        exact (hnot hloop (by rw [hphase]; rfl)).elim
  | more hloop => exact (hnot hloop rfl).elim
  | request hloop => exact (hnot hloop rfl).elim
  | rejected hloop => exact (hnot hloop rfl).elim

/-- A step of any other client makes no attempt. -/
theorem Turn.attempts_of_not_due (h : Turn now net client later next)
    (hdue : client.isDue = false) : later.attempts.length = net.attempts.length := by
  cases h with
  | dial hloop hbegins hrunning =>
      rw [isDue_of_loop hloop hrunning, isDue_of_begins hbegins hrunning] at hdue
      cases hdue
  | expired => exact List.length_set
  | _ => rfl

/-- A turn stays in its session, or leaves its connection for good. -/
theorem Turn.stays_or_leaves (h : Turn now net client later next) {session : Session}
    (hsession : client.session? = some session) :
    (∃ after, next.session? = some after ∧ after.link = session.link) ∨
      ∃ change : Link → Link,
        later = net.changeLink session.link fun link => (change link).leave .dialler := by
  have hidle : ∀ {loop : ClientLoop}, client.loop = some loop → loop.phase.session? = none →
      False := by
    intro loop hloop hphase
    cases hphase.symm.trans ((session?_of_loop hloop).symm.trans hsession)
  have hbegins : ∀ {loop backoff}, client.loop = some loop →
      Begins now client.running loop backoff → False := by
    intro loop backoff hloop hbegins
    cases hbegins <;> exact hidle hloop rfl
  cases h with
  | quit hloop h => exact (hbegins hloop h).elim
  | dial hloop h => exact (hbegins hloop h).elim
  | doze hloop => exact (hidle hloop rfl).elim
  | refused hloop => exact (hidle hloop rfl).elim
  | expired hloop => exact (hidle hloop rfl).elim
  | connected hloop => exact (hidle hloop rfl).elim
  | wrote hloop =>
      cases hsession.symm.trans (session?_of_outgoing hloop)
      exact .inl ⟨session, session?_of_outgoing rfl, rfl⟩
  | sent hloop =>
      cases hsession.symm.trans (session?_of_outgoing hloop)
      exact .inl ⟨_, rfl, rfl⟩
  | @parted _ _ _ _ _ _ link hloop =>
      cases hsession.symm.trans (session?_of_outgoing hloop)
      exact .inr ⟨fun _ => link, rfl⟩
  | @unsent _ _ _ _ _ _ link hloop =>
      cases hsession.symm.trans (session?_of_outgoing hloop)
      exact .inr ⟨fun _ => link, rfl⟩
  | late hloop =>
      cases hsession.symm.trans (session?_of_outgoing hloop)
      exact .inr ⟨id, rfl⟩
  | readable hloop =>
      cases hsession.symm.trans (session?_of_loop hloop)
      exact .inl ⟨_, rfl, rfl⟩
  | idle hloop =>
      cases hsession.symm.trans (session?_of_loop hloop)
      exact .inl ⟨_, rfl, rfl⟩
  | interrupted hloop =>
      cases hsession.symm.trans (session?_of_loop hloop)
      exact .inl ⟨_, rfl, rfl⟩
  | dismissed hloop =>
      cases hsession.symm.trans (session?_of_loop hloop)
      exact .inr ⟨id, rfl⟩
  | ended hloop hphase =>
      cases hsession.symm.trans (session?_of_hearing hloop hphase)
      exact .inr ⟨id, rfl⟩
  | failed hloop hphase =>
      cases hsession.symm.trans (session?_of_hearing hloop hphase)
      exact .inr ⟨(·.report .dialler), rfl⟩
  | more hloop =>
      cases hsession.symm.trans (session?_of_loop hloop)
      exact .inl ⟨_, rfl, rfl⟩
  | request hloop =>
      cases hsession.symm.trans (session?_of_loop hloop)
      exact .inl ⟨_, rfl, rfl⟩
  | @rejected _ _ _ unread rest _ hloop =>
      cases hsession.symm.trans (session?_of_loop hloop)
      exact .inr ⟨(·.take .dialler (unread.length - rest.length)), rfl⟩

end CnodeClient

theorem Link.held_leave (link : Link) (side : Side) :
    ((link.leave side).endAt side).held = false := by
  unfold leave close
  split
  · cases side <;> rfl
  · cases side <;> rfl

namespace Scene

variable {scene later : Scene} {trips : List Trip}

/-! ## The log of a client -/

/-- A scene that is reached from a new client in any network, with the attempts since the
client was started last, the last one first. -/
inductive Logged : Scene → List Trip → Prop
  | begin (now : Instant) (net : Net) (config : CnodeConfig) :
      Logged { now, net, client := { config } } []
  | step {scene : Scene} {trips : List Trip} {net : Net} {client : CnodeClient}
      (hscene : Logged scene trips)
      (h : scene.client.step scene.now scene.net = some (net, client)) :
      Logged (scene.after net client) (scene.client.logged client scene.now trips)
  | others {scene : Scene} {trips : List Trip} {net : Net} (hscene : Logged scene trips)
      (h : scene.net.Foreign scene.holdings net) : Logged { scene with net } trips
  | wait {scene : Scene} {trips : List Trip} {now : Instant} (hscene : Logged scene trips)
      (hwaits : scene.Waits) (hnow : scene.now ≤ now)
      (hwake : ∀ wake, scene.client.wake? = some wake → now ≤ wake) :
      Logged { scene with now } trips
  | start {scene : Scene} {trips : List Trip} (hscene : Logged scene trips)
      (h : scene.client.isStopping = false) :
      Logged { scene with client := scene.client.start.2 }
        (if scene.client.attached then trips else [])
  | stop {scene : Scene} {trips : List Trip} (hscene : Logged scene trips) :
      Logged { scene with client := scene.client.requestStop } trips

theorem Logged.reachable (h : scene.Logged trips) : scene.Reachable := by
  induction h with
  | begin now net config => exact .begin now net config trivial
  | step _ h ih => exact .move ih (.step h) trivial
  | others _ h ih => exact .move ih (.others h) trivial
  | wait _ hwaits hnow hwake ih => exact .move ih (.wait hwaits hnow hwake) trivial
  | start _ h ih => exact .move ih (.start h) trivial
  | stop _ ih => exact .move ih .stop trivial

/-- Every scene that is reached has a log. -/
theorem Reachable.logged (h : scene.Reachable) : ∃ trips, scene.Logged trips := by
  induction h with
  | begin now net config => exact ⟨_, .begin now net config⟩
  | move _ hmove _ ih =>
      obtain ⟨trips, hlogged⟩ := ih
      cases hmove with
      | step h => exact ⟨_, .step hlogged h⟩
      | others h => exact ⟨_, .others hlogged h⟩
      | wait hwaits hnow hwake => exact ⟨_, .wait hlogged hwaits hnow hwake⟩
      | start h => exact ⟨_, .start hlogged h⟩
      | stop => exact ⟨_, .stop hlogged⟩

/-- A client that was started and not stopped has a target, and its place in the log. -/
structure Persists (scene : Scene) (trips : List Trip) : Prop where
  running : scene.client.running = true
  target : scene.client.config.target? ≠ none
  paced : scene.client.Paced scene.now trips

theorem Logged.persists (h : scene.Logged trips) (hattached : scene.client.attached = true) :
    scene.Persists trips := by
  induction h with
  | begin => cases hattached
  | step hlogged h ih =>
      have hturn := CnodeClient.turn_of_step hlogged.reachable.sound.fits h
      obtain ⟨hconfig, hrunning, hheld⟩ := hturn.keeps
      have hbefore := ih (hheld.symm.trans hattached)
      exact ⟨hrunning.trans hbefore.running, hconfig ▸ hbefore.target,
        hturn.paced hbefore.running hbefore.target hbefore.paced⟩
  | others _ _ ih =>
      have hbefore := ih hattached
      exact ⟨hbefore.running, hbefore.target, hbefore.paced⟩
  | wait _ _ _ hwake ih =>
      have hbefore := ih hattached
      refine ⟨hbefore.running, hbefore.target, ?_⟩
      cases hbefore.paced with
      | starting hloop => exact .starting hloop
      | trying hloop hphase hspaced => exact .trying hloop hphase hspaced
      | resting hloop hseconds _ hrest hspaced =>
          exact .resting hloop hseconds (hwake _ (by simp [CnodeClient.wake?, hloop])) hrest hspaced
  | @start scene trips hlogged hidle ih =>
      rcases start_cases scene.client with hsame | ⟨hnew, htarget, hstart⟩
      · rw [hsame] at hattached ⊢
        rw [if_pos hattached]
        exact ih hattached
      · rw [if_neg (by simp [hnew]), hstart]
        exact ⟨rfl, htarget, .starting rfl⟩
  | @stop scene trips hlogged ih =>
      rcases stop_cases scene.client with hsame | ⟨_, hstop⟩
      · rw [hsame] at hattached ⊢
        exact ih hattached
      · rw [hstop] at hattached
        cases hattached

/-! ## The connections that the client holds -/

/-- The client holds no connection but the current one. -/
theorem Reachable.current_of_held (h : scene.Reachable) {link : LinkId} (hlink : scene.Owns link)
    (hheld : (scene.net.link link).dialler.held = true) : scene.Current link := by
  induction h with
  | begin =>
      obtain ⟨_, hmem, _⟩ := hlink
      cases hmem
  | @move scene later hscene hmove _ ih =>
      have hsound := Reachable.sound hscene
      rcases (hmove.extends hsound).owns hlink with hold | hadded
      · rcases hmove.cases hsound with ⟨net, client, hturn, rfl⟩ | ⟨net, hforeign, rfl⟩ |
          ⟨now, _, _, _, rfl⟩ | ⟨_, hloop, _, rfl⟩ | ⟨_, rfl⟩ | rfl
        · by_cases hcurrent : scene.Current link
          · rcases hcurrent with ⟨session, hsession, rfl⟩ | ⟨attempt, hdialled, hconnected⟩
            · rcases hturn.stays_or_leaves hsession with hstays | ⟨change, rfl⟩
              · exact .inl hstays
              · have hleft : ((scene.net.changeLink session.link fun link =>
                    (change link).leave .dialler).link session.link).dialler.held = false := by
                  rw [hsound.link_changeLink hsession]
                  exact Link.held_leave _ .dialler
                cases hleft.symm.trans hheld
            · exact .inl (session_of_connected hturn hdialled hconnected).2
          · have hsame : net.link link = scene.net.link link :=
              link_of_turn hturn (hsound.links hold)
                (fun session hsession hlink => hcurrent (.inl ⟨session, hsession, hlink⟩))
            exact absurd (ih hold (hsame ▸ hheld)) hcurrent
        · have hbeside := beside_of_foreign hsound hforeign hold
          exact (current_of_foreign hsound hforeign hold).mpr (ih hold (hbeside.held ▸ hheld))
        · exact ih hold hheld
        · exact absurd (ih hold hheld) (not_current_of_none (CnodeClient.session?_of_none hloop)
            (by simp [CnodeClient.dialled?, hloop]))
        · exact ih hold hheld
        · exact ih hold hheld
      · exact .inr hadded.dialled

theorem Current.trying {link : LinkId} (h : scene.Current link) :
    scene.client.isTrying = true := by
  rcases h with ⟨session, hsession, _⟩ | ⟨attempt, hdialled, _⟩
  · cases hloop : scene.client.loop with
    | none => cases (CnodeClient.session?_of_none hloop).symm.trans hsession
    | some loop =>
        rw [CnodeClient.session?_of_loop hloop] at hsession
        rw [CnodeClient.isTrying_of_loop hloop]
        cases hphase : loop.phase <;> first | rfl | (rw [hphase] at hsession; cases hsession)
  · obtain ⟨_, _, hloop, _⟩ := CnodeClient.loop_of_dialled hdialled
    exact CnodeClient.isTrying_of_loop hloop

/-- At any time there is at most one current connection. -/
theorem Current.unique {link other : LinkId} (h : scene.Current link)
    (h' : scene.Current other) : link = other := by
  rcases h with ⟨session, hsession, rfl⟩ | ⟨attempt, hdialled, hconnected⟩
  · rcases h' with ⟨_, hsession', rfl⟩ | ⟨_, hdialled, _⟩
    · cases hsession.symm.trans hsession'
      rfl
    · cases (CnodeClient.dialled?_of_session hsession).symm.trans hdialled
  · rcases h' with ⟨_, hsession, _⟩ | ⟨_, hdialled', hconnected'⟩
    · cases (CnodeClient.dialled?_of_session hsession).symm.trans hdialled
    · cases hdialled.symm.trans hdialled'
      cases hconnected.symm.trans hconnected'
      rfl

/-! ## The schedule -/

/-- Neighbours in a log that is spaced. -/
theorem spaced_neighbours {config : CnodeConfig} {before past : List Trip} {last earlier : Trip}
    (h : config.Spaced (before ++ last :: earlier :: past)) :
    ∃ ended, earlier.ended = some ended ∧
      last.begun = ended + config.delayMs past.length := by
  induction before with
  | nil => exact h.1
  | cons trip before ih =>
      apply ih
      cases before with
      | nil => exact h.2
      | cons _ _ => exact h.2

/-- Where a client stands between two attempts, or before the first one: it is due at once, or
it goes on by itself until the delay is over, and is due then. -/
structure BetweenAttempts (scene : Scene) (due : Instant) : Prop where
  early : scene.now ≤ due
  wakes : scene.Waits → ∃ wake, scene.client.wake? = some wake ∧ scene.now < wake ∧ wake ≤ due
  due : scene.now = due → scene.client.isDue = true ∧ ¬scene.Waits

theorem Persists.resting {begun ended : Instant} {past : List Trip}
    (h : scene.Persists (⟨begun, some ended⟩ :: past)) :
    scene.BetweenAttempts (ended + scene.client.config.delayMs past.length) := by
  cases h.paced with
  | @resting _ _ _ seconds wake hloop hseconds hwake hrest hspaced =>
      have hdue : wake ≤ ended + scene.client.config.delayMs past.length :=
        hrest ▸ Nat.le_add_right _ _
      constructor
      case early => exact Nat.le_trans hwake hdue
      case wakes =>
        intro hwaits
        refine ⟨wake, by simp [CnodeClient.wake?, hloop], Nat.lt_of_not_le fun hover => ?_, hdue⟩
        simp [Waits, CnodeClient.step, hloop, hover] at hwaits
      case due =>
        intro hnow
        have hover : wake ≤ scene.now := hnow ▸ hdue
        have hlast : seconds ≤ 1 := CnodeClient.sleep_over (hrest.trans hnow.symm) hwake
        refine ⟨?_, fun hwaits => ?_⟩
        · rw [CnodeClient.isDue_of_loop hloop h.running]
          exact decide_eq_true hlast
        · simp [Waits, CnodeClient.step, hloop, hover] at hwaits

theorem Persists.first (h : scene.Persists []) :
    scene.client.isDue = true ∧ ¬scene.Waits := by
  cases h.paced with
  | starting hloop =>
      refine ⟨CnodeClient.isDue_of_loop hloop h.running, fun hwaits => ?_⟩
      simp [Waits, CnodeClient.step, hloop] at hwaits

/-- A client that was started and not stopped never gives up. Each attempt begins exactly one
delay after the end of the one before, where the delays depend only on the number of attempts
since the client was started; until then the client goes on by itself, and then it does not
wait. What begins an attempt is that the target is dialled, or looked up if it is a name. The
client holds a connection only during an attempt, and never two of them. -/
theorem reconnect_schedule (h : scene.Reachable) :
    (∃ trips, scene.Logged trips) ∧
      (∀ trips, scene.Logged trips → scene.client.attached = true →
        scene.client.isRunning = true ∧ scene.client.loop ≠ none ∧
        (∀ {before past last earlier}, trips = before ++ last :: earlier :: past →
          ∃ ended, earlier.ended = some ended ∧
            last.begun = ended + scene.client.config.delayMs past.length) ∧
        (scene.client.isTrying = true → ∃ begun past, trips = ⟨begun, none⟩ :: past) ∧
        (scene.client.isTrying = false →
          (trips = [] ∧ scene.client.isDue = true ∧ ¬scene.Waits) ∨
            ∃ begun ended past, trips = ⟨begun, some ended⟩ :: past ∧
              scene.BetweenAttempts (ended + scene.client.config.delayMs past.length)) ∧
        ∀ {net client}, scene.client.step scene.now scene.net = some (net, client) →
          if scene.client.isDue then
            ∃ host port, scene.client.config.target? = some (host, port) ∧
              net = (scene.net.seek host port).2 ∧
              client.dialled? = some (scene.net.seek host port).1
          else net.attempts.length = scene.net.attempts.length) ∧
      (∀ {link}, scene.Owns link → (scene.net.link link).dialler.held = true →
        scene.client.isTrying = true) ∧
      ∀ {link other}, scene.Owns link → (scene.net.link link).dialler.held = true →
        scene.Owns other → (scene.net.link other).dialler.held = true → link = other := by
  refine ⟨h.logged, ?_, ?_, ?_⟩
  · intro trips hlogged hattached
    have hpersists := hlogged.persists hattached
    refine ⟨by simp [CnodeClient.isRunning, hattached, hpersists.running], ?_, ?_, ?_, ?_, ?_⟩
    · cases hpersists.paced with
      | starting hloop => simp [hloop]
      | trying hloop => simp [hloop]
      | resting hloop => simp [hloop]
    · rintro before past last earlier rfl
      refine @spaced_neighbours _ before _ _ _ ?_
      generalize hsame : before ++ last :: earlier :: past = trips at hpersists
      cases hpersists.paced with
      | starting => simp at hsame
      | trying _ _ hspaced => exact hspaced
      | resting _ _ _ _ hspaced => exact hspaced
    · intro htrying
      cases hpersists.paced with
      | starting hloop => cases (CnodeClient.isTrying_of_loop hloop).symm.trans htrying
      | trying => exact ⟨_, _, rfl⟩
      | resting hloop => cases (CnodeClient.isTrying_of_loop hloop).symm.trans htrying
    · intro htrying
      cases hpersists.paced with
      | starting => exact .inl ⟨rfl, hpersists.first⟩
      | trying hloop hphase =>
          cases ((CnodeClient.isTrying_of_loop hloop).trans hphase).symm.trans htrying
      | resting => exact .inr ⟨_, _, _, rfl, hpersists.resting⟩
    · intro net client hstep
      have hturn := CnodeClient.turn_of_step h.sound.fits hstep
      split
      · rename_i hdue
        exact hturn.attempts hdue hpersists.target
      · rename_i hdue
        exact hturn.attempts_of_not_due (by simpa using hdue)
  · exact fun hlink hheld => (h.current_of_held hlink hheld).trying
  · exact fun hlink hheld hother hheld' =>
      (h.current_of_held hlink hheld).unique (h.current_of_held hother hheld')

/-- A client that has made so many attempts on an address at which nobody listens. -/
def unheard (now : Instant) (made : Nat) (current : UInt64) (phase : ClientPhase) : Scene :=
  { now
    net := { attempts := List.replicate made (.failed .connectionRefused) }
    client :=
      { config := { serverIp := some "127.0.0.1", serverPort := 4000 }
        running := true
        state := .connecting
        attached := true
        loop := some ⟨⟨30, current⟩, phase⟩ }
    attempts := (List.range made).reverse }

/-- It dials at once, after one second, and after two more. -/
theorem reconnect_schedule_of_refusals : ∃ scene : Scene,
    scene.Reachable ∧ scene.Logged [⟨3000, none⟩, ⟨1000, some 1000⟩, ⟨0, some 0⟩] ∧
      scene.client.attached = true ∧
      (3000 : Nat) = 1000 + scene.client.config.delayMs 1 ∧ scene.client.isRunning = true := by
  have hstart : Logged _ [] := .start (.begin 0 {} (unheard 0 0 1 .starting).client.config) rfl
  have hdial : Logged (unheard 0 1 1 (.dialling ⟨0, 5000⟩)) [⟨0, none⟩] := .step hstart rfl
  have hrefused : Logged (unheard 0 1 1 (.resting 1 1000)) [⟨0, some 0⟩] := .step hdial rfl
  have hwait : Logged (unheard 1000 1 1 (.resting 1 1000)) [⟨0, some 0⟩] :=
    .wait hrefused rfl (by decide) (by rintro wake h; cases h; decide)
  have hagain : Logged (unheard 1000 2 2 (.dialling ⟨1, 6000⟩)) [⟨1000, none⟩, ⟨0, some 0⟩] :=
    .step hwait rfl
  have hrefused' : Logged (unheard 1000 2 2 (.resting 2 2000)) [⟨1000, some 1000⟩, ⟨0, some 0⟩] :=
    .step hagain rfl
  have hwait' : Logged (unheard 2000 2 2 (.resting 2 2000)) [⟨1000, some 1000⟩, ⟨0, some 0⟩] :=
    .wait hrefused' rfl (by decide) (by rintro wake h; cases h; decide)
  have hdoze : Logged (unheard 2000 2 2 (.resting 1 3000)) [⟨1000, some 1000⟩, ⟨0, some 0⟩] :=
    .step hwait' rfl
  have hwait'' : Logged (unheard 3000 2 2 (.resting 1 3000)) [⟨1000, some 1000⟩, ⟨0, some 0⟩] :=
    .wait hdoze rfl (by decide) (by rintro wake h; cases h; decide)
  have hthird : Logged (unheard 3000 3 4 (.dialling ⟨2, 8000⟩))
      [⟨3000, none⟩, ⟨1000, some 1000⟩, ⟨0, some 0⟩] := .step hwait'' rfl
  obtain ⟨_, hschedule, _⟩ := reconnect_schedule hthird.reachable
  obtain ⟨hrunning, _, hdelay, _⟩ := hschedule _ hthird rfl
  obtain ⟨ended, hended, hbegun⟩ := @hdelay [] _ _ _ rfl
  cases hended
  exact ⟨_, hthird.reachable, hthird, rfl, hbegun, hrunning⟩

end Scene

end NodeHealth
