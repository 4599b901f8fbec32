import NodeHealth.Proofs.Cnode.Answers
import NodeHealth.Proofs.Cnode.Schedule
import NodeHealth.Proofs.Registration.Turn

/-!
# Runs of a registration

A `RegistrationRun` is one registration from its beginning, the network that it shares with
others, and the time. Runs go on by steps of the registration, by what others do, and by the
passing of time while the registration waits. `RegistrationRun.Sound` is what holds of every one
that is reached: one condition for each phase, on the attempt, the connection and the times.

## Implementation notes

A run remembers what the registration forgets: the attempts that it made, which are those
that its steps added to the network, and when it first was seen sending and awaiting. Time
passes as it does for a client, up to the next deadline and only in a phase that waits.

-/

namespace NodeHealth

/-- The one frame that a registration may write; there is none if the request is too long. -/
def Registrar.frame (registrar : Registrar) : Bytes :=
  match registrar.request.encode.bind (Frame.encode .varint) with
  | .ok frame => frame
  | .error _ => []

theorem Registrar.frame_of_encode {registrar : Registrar} {payload frame : Bytes}
    (hpayload : registrar.request.encode = .ok payload)
    (hframe : Frame.encode .varint payload = .ok frame) : registrar.frame = frame := by
  simp [Registrar.frame, hpayload, Except.bind, hframe]

theorem Registrar.frame_ne_nil {registrar : Registrar} {payload : Bytes}
    (hpayload : registrar.request.encode = .ok payload) : registrar.frame ≠ [] := by
  obtain ⟨frame, hframe, hne⟩ := Frame.encode_varint payload
  rwa [frame_of_encode hpayload hframe]

theorem Link.finished_wrote {link later : Link} {bytes : Bytes} {count : Nat}
    (h : link.write .dialler bytes = (.wrote count, later)) :
    later.dialler.finished = link.dialler.finished := by
  obtain ⟨rfl, _⟩ := write_wrote_eq h
  rfl

/-- More bytes than any response has with its length. -/
def Registration.maxFrameLength : Nat :=
  Varint.maxLength + Registration.maxResponseLength

/-- One registration among others. -/
structure RegistrationRun where
  now : Instant
  net : Net
  /-- The configuration of the health server that is to be registered. -/
  server : ServerConfig
  registration : Registration
  /-- When the registration began. -/
  begun : Instant
  /-- The attempts to connect that the registration has made. -/
  attempts : List AttemptId := []
  /-- When there was a connection. -/
  connected : Option Instant := none
  /-- When the request was sent. -/
  sent : Option Instant := none
  /-- How many steps the registration has taken. -/
  steps : Nat := 0

namespace RegistrationRun

/-- A registration that has not run yet. -/
def start (now : Instant) (net : Net) (server : ServerConfig) : RegistrationRun :=
  { now, net, server, registration := { registrar := .ofServer server }, begun := now }

/-- The request, and where to send it. -/
def registrar (run : RegistrationRun) : Registrar :=
  run.registration.registrar

/-- The time for each of connecting, sending and receiving. -/
def timeout (run : RegistrationRun) : Nat :=
  run.registration.timeoutMs

/-- Whether an attempt of the registration led to a connection. -/
def Owns (run : RegistrationRun) (link : LinkId) : Prop :=
  ∃ attempt ∈ run.attempts, run.net.attempt attempt = .connected link

/-- What the registration holds: its ends of its connections, and its attempts. -/
def holdings (run : RegistrationRun) : Net.Holdings where
  ends := fun link side => side = .dialler ∧ run.Owns link
  attempts := (· ∈ run.attempts)
  listeners := fun _ => False

/-- The run after a step of the registration. -/
def after (run : RegistrationRun) (net : Net) (registration : Registration) : RegistrationRun :=
  { run with
    net, registration
    attempts := List.range' run.net.attempts.length
      (net.attempts.length - run.net.attempts.length) ++ run.attempts
    connected := match registration.phase with
      | .sending _ _ _ => run.connected.or (some run.now)
      | _ => run.connected
    sent := match registration.phase with
      | .awaiting _ _ _ => run.sent.or (some run.now)
      | _ => run.sent
    steps := run.steps + 1 }

/-- The registration cannot go on now. -/
def Waits (run : RegistrationRun) : Prop :=
  run.registration.step run.now run.net = none

/-- One change of a run. -/
inductive Move (run : RegistrationRun) : RegistrationRun → Prop
  | step {net : Net} {registration : Registration}
      (h : run.registration.step run.now run.net = some (net, registration)) :
      Move run (run.after net registration)
  | others {net : Net} (h : run.net.Foreign run.holdings net) :
      Move run { run with net }
  | wait {now : Instant} (hwaits : run.Waits) (hnow : run.now ≤ now)
      (hwake : ∀ wake, run.registration.wake? = some wake → now ≤ wake) :
      Move run { run with now }

/-- A run that is reached from a new registration in any network. -/
inductive Reachable : RegistrationRun → Prop
  | begin (now : Instant) (net : Net) (server : ServerConfig) : Reachable (start now net server)
  | move {run later : RegistrationRun} (hrun : Reachable run) (hmove : run.Move later) :
      Reachable later

/-! ## What holds in each phase -/

/-- The registration has done nothing yet. -/
structure Prepares (run : RegistrationRun) : Prop where
  attempts : run.attempts = []
  connected : run.connected = none
  sent : run.sent = none
  now : run.now = run.begun

/-- The registration waits for the answer to its only attempt. -/
structure Dials (run : RegistrationRun) (dial : Dial) (payload : Bytes) : Prop where
  ready : run.registrar.Sendable
  payload : run.registrar.request.encode = .ok payload
  attempts : run.attempts = [dial.attempt]
  connected : run.connected = none
  sent : run.sent = none
  number : dial.attempt < run.net.attempts.length
  pending : run.net.attempt dial.attempt ≠ .abandoned
  fresh : ∀ {link}, run.net.attempt dial.attempt = .connected link →
    link < run.net.links.length ∧ (run.net.link link).dialler.written = [] ∧
      (run.net.link link).dialler.taken = 0 ∧ (run.net.link link).dialler.finished = false
  deadline : dial.deadline = run.begun + run.timeout
  now : run.now ≤ dial.deadline

/-- The only attempt of the registration led to a connection. -/
structure Has (run : RegistrationRun) (link : LinkId) : Prop where
  ready : run.registrar.Sendable
  attempt : ∃ attempt, run.attempts = [attempt] ∧ attempt < run.net.attempts.length ∧
    run.net.attempt attempt = .connected link
  exists_link : link < run.net.links.length

/-- The registration has written a part of its frame, and the rest is to be written. -/
structure Sends (run : RegistrationRun) (session : Session) (sending : Session.Sending)
    (deadline : Option Instant) : Prop extends run.Has session.link where
  sent : run.sent = none
  written : (run.net.link session.link).dialler.written ++ sending.rest =
    run.registrar.frame
  rest : sending.rest ≠ []
  taken : (run.net.link session.link).dialler.taken = 0
  unfinished : (run.net.link session.link).dialler.finished = false
  deadline : ∃ connected, run.connected = some connected ∧
    connected ≤ run.begun + run.timeout ∧ deadline = some (connected + run.timeout) ∧
    run.now ≤ connected + run.timeout

/-- The registration has written its frame, and what it has read is no complete response. -/
structure Awaits (run : RegistrationRun) (session : Session) (reader : Frame.Reader)
    (deadline : Instant) : Prop extends run.Has session.link where
  written : (run.net.link session.link).dialler.written = run.registrar.frame
  taken : (run.net.link session.link).dialler.taken ≤
    (run.net.link session.link).acceptor.written.length
  reader : (Frame.Reader.start .varint Registration.maxResponseLength).feed
    (run.net.link session.link).read = .more reader
  deadline : ∃ sent, run.sent = some sent ∧ sent ≤ run.begun + 2 * run.timeout ∧
    deadline = sent + run.timeout ∧ run.now ≤ deadline

/-- The registration is over, and it has closed what it had. -/
structure Ended (run : RegistrationRun) : Prop where
  ready : run.attempts ≠ [] → run.registrar.Sendable
  single : run.attempts.length ≤ 1
  settled : ∀ attempt ∈ run.attempts, attempt < run.net.attempts.length ∧
    (run.net.attempt attempt).isWaiting = false
  closed : ∀ {link}, run.Owns link → link < run.net.links.length ∧
    (run.net.link link).dialler.held = false ∧
    (run.net.link link).dialler.written <+: run.registrar.frame
  sent : run.sent ≠ none ↔
    ∃ link, run.Owns link ∧ (run.net.link link).dialler.written = run.registrar.frame

/-- What holds in a phase. -/
def Stage (run : RegistrationRun) : RegistrationPhase → Prop
  | .starting => run.Prepares
  | .dialling dial payload => run.Dials dial payload
  | .sending session sending deadline => run.Sends session sending deadline
  | .awaiting session reader deadline => run.Awaits session reader deadline
  | .finished _ => run.Ended

/-- A bound of the number of steps that are left. -/
def price (run : RegistrationRun) : Nat :=
  match run.registration.phase with
  | .starting => run.registrar.frame.length + Registration.maxFrameLength + 2
  | .dialling _ _ => run.registrar.frame.length + Registration.maxFrameLength + 1
  | .sending _ sending _ => sending.rest.length + Registration.maxFrameLength
  | .awaiting session _ _ =>
      Registration.maxFrameLength - (run.net.link session.link).dialler.taken
  | .finished _ => 0

/-- What holds of every run that is reached. -/
structure Sound (run : RegistrationRun) : Prop where
  registrar : run.registrar = .ofServer run.server
  fits : run.registration.Fits
  stage : run.Stage run.registration.phase
  steps : run.steps + run.price ≤
    run.registrar.frame.length + Registration.maxFrameLength + 2

variable {run later : RegistrationRun} {net : Net} {next : Registration}

theorem Has.owns_iff {link other : LinkId} (h : run.Has link) :
    run.Owns other ↔ other = link := by
  obtain ⟨attempt, hattempts, _, hconnected⟩ := h.attempt
  simp only [Owns, hattempts, List.mem_singleton, exists_eq_left, hconnected,
    Attempt.connected.injEq]
  exact eq_comm

theorem Has.owns {link : LinkId} (h : run.Has link) : run.Owns link :=
  h.owns_iff.mpr rfl

/-- What a reader has taken of a response is less than the longest one has. -/
theorem Awaits.taken_lt {session : Session} {reader : Frame.Reader} {deadline : Instant}
    (h : run.Awaits session reader deadline) :
    (run.net.link session.link).dialler.taken < Registration.maxFrameLength := by
  have hlength := Frame.Reader.length_of_more h.reader
  rwa [Link.read, List.length_take, Nat.min_eq_left h.taken] at hlength

/-! ## Steps of the registration -/

theorem attempts_after (hattempts : net.attempts.length = run.net.attempts.length)
    (next : Registration) : (run.after net next).attempts = run.attempts := by
  simp [after, hattempts]

theorem Has.link_after {link : LinkId} (h : run.Has link) (change : Link → Link)
    (next : Registration) :
    (run.after (run.net.changeLink link change) next).net.link link =
      change (run.net.link link) :=
  Net.link_changeLink run.net link change h.exists_link

/-- A registration that has no connection when it ends. -/
theorem ended_of_unconnected (hsent : run.sent = none)
    {result : Except RegistrationError RegistrationOutcome}
    (hready : run.attempts ≠ [] → run.registrar.Sendable)
    (hattempts : net.attempts.length = run.net.attempts.length)
    (hsingle : run.attempts.length ≤ 1)
    (hnowhere : ∀ attempt ∈ run.attempts, attempt < run.net.attempts.length ∧
      (net.attempt attempt).isWaiting = false ∧ ∀ link, net.attempt attempt ≠ .connected link) :
    (run.after net (run.registration.finish result)).Ended := by
  have hsame := attempts_after hattempts (run.registration.finish result)
  have hnone : ∀ link, ¬(run.after net (run.registration.finish result)).Owns link := by
    rintro link ⟨attempt, hattempt, hconnected⟩
    rw [hsame] at hattempt
    exact (hnowhere attempt hattempt).2.2 link hconnected
  refine ⟨by rwa [hsame], by rwa [hsame], fun attempt hattempt => ?_,
    fun howns => absurd howns (hnone _), ?_⟩
  · rw [hsame] at hattempt
    obtain ⟨hlt, hwaiting, _⟩ := hnowhere attempt hattempt
    exact ⟨hattempts ▸ hlt, hwaiting⟩
  · refine ⟨fun h => absurd hsent h, ?_⟩
    rintro ⟨link, howns, _⟩
    exact absurd howns (hnone link)

/-- What is written at the end of a connection is a part of the frame, and all of it if the
request counts as sent. -/
structure Tells (run : RegistrationRun) (link : LinkId) : Prop where
  part : (run.net.link link).dialler.written <+: run.registrar.frame
  sent : run.sent ≠ none ↔ (run.net.link link).dialler.written = run.registrar.frame

theorem Sends.tells {session : Session} {sending : Session.Sending} {deadline : Option Instant}
    (h : run.Sends session sending deadline) : run.Tells session.link where
  part := ⟨sending.rest, h.written⟩
  sent := by
    refine ⟨fun hsent => absurd h.sent hsent, fun hall => ?_⟩
    have hwritten := h.written
    rw [← hall, List.append_right_eq_self] at hwritten
    exact absurd hwritten h.rest

theorem Awaits.tells {session : Session} {reader : Frame.Reader} {deadline : Instant}
    (h : run.Awaits session reader deadline) : run.Tells session.link where
  part := h.written ▸ List.prefix_refl _
  sent := by
    obtain ⟨sent, hsent, _⟩ := h.deadline
    exact ⟨fun _ => h.written, fun _ => by simp [hsent]⟩

/-- A registration that leaves its connection when it ends. -/
theorem Has.ended {link : LinkId} (h : run.Has link) (htells : run.Tells link)
    {change : Link → Link} {result : Except RegistrationError RegistrationOutcome}
    (hheld : (change (run.net.link link)).dialler.held = false)
    (hwritten : (change (run.net.link link)).dialler.written =
      (run.net.link link).dialler.written) :
    (run.after (run.net.changeLink link change)
      (run.registration.finish result)).Ended := by
  have hsame : (run.after (run.net.changeLink link change)
      (run.registration.finish result)).attempts = run.attempts :=
    attempts_after rfl (run.registration.finish result)
  have hlink := h.link_after change (run.registration.finish result)
  have howns : ∀ {other}, (run.after (run.net.changeLink link change)
      (run.registration.finish result)).Owns other → other = link := by
    rintro other ⟨attempt, hattempt, hconnected⟩
    rw [hsame] at hattempt
    exact h.owns_iff.mp ⟨attempt, hattempt, hconnected⟩
  obtain ⟨attempt, hattempts, hlt, hconnected⟩ := h.attempt
  refine ⟨fun _ => h.ready, by simp [hsame, hattempts], fun other hother => ?_,
    fun hother => ?_, ?_⟩
  · rw [hsame, hattempts, List.mem_singleton] at hother
    subst hother
    refine ⟨hlt, ?_⟩
    show (run.net.attempt other).isWaiting = false
    rw [hconnected]
    rfl
  · cases howns hother
    refine ⟨?_, ?_, ?_⟩
    · show link < (run.net.changeLink link change).links.length
      rw [Net.length_changeLink]
      exact h.exists_link
    · rw [hlink]
      exact hheld
    · rw [hlink, hwritten]
      exact htells.part
  · show run.sent ≠ none ↔ _
    rw [htells.sent, ← hwritten, ← hlink]
    constructor
    · intro hall
      refine ⟨link, ⟨attempt, ?_, hconnected⟩, hall⟩
      rw [hsame, hattempts]
      exact List.mem_singleton_self attempt
    · rintro ⟨other, hother, hall⟩
      cases howns hother
      exact hall

/-- The connection stays what the attempt led to when it is written to or read from. -/
theorem Has.after {link : LinkId} (h : run.Has link) {id : LinkId} {change : Link → Link}
    (hregistrar : next.registrar = run.registrar) :
    (run.after (run.net.changeLink id change) next).Has link := by
  obtain ⟨attempt, hattempts, hlt, hconnected⟩ := h.attempt
  refine ⟨?_, ⟨attempt, ?_, hlt, hconnected⟩, ?_⟩
  · show next.registrar.Sendable
    rw [hregistrar]
    exact h.ready
  · exact (attempts_after rfl next).trans hattempts
  · show link < (run.net.changeLink id change).links.length
    rw [Net.length_changeLink]
    exact h.exists_link

theorem Sound.prepares (h : run.Sound) (hphase : run.registration.phase = .starting) :
    run.Prepares := by
  have hstage := h.stage
  rwa [hphase] at hstage

theorem Sound.dials (h : run.Sound) {dial : Dial} {payload : Bytes}
    (hphase : run.registration.phase = .dialling dial payload) : run.Dials dial payload := by
  have hstage := h.stage
  rwa [hphase] at hstage

theorem Sound.sends (h : run.Sound) {session : Session} {sending : Session.Sending}
    {deadline : Option Instant}
    (hphase : run.registration.phase = .sending session sending deadline) :
    run.Sends session sending deadline := by
  have hstage := h.stage
  rwa [hphase] at hstage

theorem Sound.awaits (h : run.Sound) {session : Session} {reader : Frame.Reader}
    {deadline : Instant}
    (hphase : run.registration.phase = .awaiting session reader deadline) :
    run.Awaits session reader deadline := by
  have hstage := h.stage
  rwa [hphase] at hstage

theorem Sound.ended (h : run.Sound)
    {result : Except RegistrationError RegistrationOutcome}
    (hphase : run.registration.phase = .finished result) : run.Ended := by
  have hstage := h.stage
  rwa [hphase] at hstage

theorem Prepares.ended (h : run.Prepares)
    {result : Except RegistrationError RegistrationOutcome} :
    (run.after run.net (run.registration.finish result)).Ended :=
  ended_of_unconnected h.sent (by simp [h.attempts]) rfl (by simp [h.attempts])
    (by simp [h.attempts])

theorem Prepares.dials (h : run.Prepares) {payload : Bytes} {host : String} {port : UInt16}
    (hready : run.registrar.Sendable)
    (hpayload : run.registrar.request.encode = .ok payload) :
    (run.after (run.net.seek host port).2 (run.registration.enter (.dialling
      ⟨(run.net.seek host port).1, run.now + run.timeout⟩ payload))).Dials
      ⟨(run.net.seek host port).1, run.now + run.timeout⟩ payload := by
  have hdialled := Net.dialled_seek run.net host port
  refine ⟨hready, hpayload, ?_, h.connected, h.sent, ?_, Net.attempt_seek_ne_abandoned _ _ _, ?_,
    ?_, Nat.le_add_right _ _⟩
  · simp [after, h.attempts, hdialled.attempts, hdialled.number]
  · show (run.net.seek host port).1 < (run.net.seek host port).2.attempts.length
    rw [hdialled.attempts, hdialled.number]
    exact Nat.lt_succ_self _
  · intro link hlink
    obtain ⟨_, hexists, hnew⟩ := hdialled.connected hlink
    refine ⟨hexists, ?_⟩
    show ((run.net.seek host port).2.link link).dialler.written = [] ∧ _
    exact hnew ▸ ⟨rfl, rfl, rfl⟩
  · rw [h.now]
    rfl

/-- An attempt that led nowhere. -/
theorem Dials.ended {dial : Dial} {payload : Bytes} (h : run.Dials dial payload)
    (hattempts : net.attempts.length = run.net.attempts.length)
    (hwaiting : (net.attempt dial.attempt).isWaiting = false)
    (hnowhere : ∀ link, net.attempt dial.attempt ≠ .connected link)
    {result : Except RegistrationError RegistrationOutcome} :
    (run.after net (run.registration.finish result)).Ended := by
  refine ended_of_unconnected h.sent (fun _ => h.ready) hattempts (by simp [h.attempts])
    fun attempt hattempt => ?_
  rw [h.attempts, List.mem_singleton] at hattempt
  exact hattempt ▸ ⟨h.number, hwaiting, hnowhere⟩

theorem Dials.sends {dial : Dial} {payload frame : Bytes} {link : LinkId}
    (h : run.Dials dial payload)
    (hattempt : run.net.attempt dial.attempt = .connected link)
    (hframe : Frame.encode .varint payload = .ok frame) :
    (run.after run.net (run.registration.enter
      (.sending ((run.registration.session link).holding frame) ⟨frame.length, frame⟩
        (some (run.now + run.timeout))))).Sends
      ((run.registration.session link).holding frame) ⟨frame.length, frame⟩
      (some (run.now + run.timeout)) := by
  obtain ⟨hexists, hwritten, htaken, hfinished⟩ := h.fresh hattempt
  have hall := Registrar.frame_of_encode h.payload hframe
  have hnow := h.now
  rw [h.deadline] at hnow
  refine ⟨⟨h.ready, ⟨dial.attempt, (attempts_after rfl _).trans h.attempts, h.number, hattempt⟩,
    hexists⟩, h.sent, ?_, ?_, htaken, hfinished, run.now, ?_, hnow, rfl,
    Nat.le_add_right _ _⟩
  · show (run.net.link link).dialler.written ++ frame = run.registrar.frame
    rw [hwritten, hall]
    rfl
  · rw [← hall]
    exact Registrar.frame_ne_nil h.payload
  · show run.connected.or (some run.now) = some run.now
    rw [h.connected]
    rfl

theorem Sends.wrote {session : Session} {sending : Session.Sending} {deadline : Option Instant}
    (h : run.Sends session sending deadline) {count : Nat} {link : Link}
    (hwrite : (run.net.link session.link).write .dialler sending.rest = (.wrote count, link))
    (hpart : count < sending.rest.length) :
    (run.after (run.net.changeLink session.link fun _ => link)
      (run.registration.enter (.sending session
        { sending with rest := sending.rest.drop count } deadline))).Sends session
      { sending with rest := sending.rest.drop count } deadline := by
  obtain ⟨hwritten, htaken, _⟩ := Link.write_wrote hwrite
  obtain ⟨connected, hconnected, hbegun, hdeadline, hnow⟩ := h.deadline
  refine ⟨h.toHas.after rfl, h.sent, ?_, ?_, ?_, ?_, connected, ?_, hbegun, hdeadline, hnow⟩
  · rw [h.toHas.link_after, hwritten, List.append_assoc, List.take_append_drop, h.written]
    rfl
  · rw [Ne, List.drop_eq_nil_iff, Nat.not_le]
    exact hpart
  · rw [h.toHas.link_after, htaken, h.taken]
  · rw [h.toHas.link_after, Link.finished_wrote hwrite, h.unfinished]
  · show run.connected.or (some run.now) = some connected
    rw [hconnected]
    rfl

theorem Sends.awaits {session : Session} {sending : Session.Sending} {deadline : Option Instant}
    (h : run.Sends session sending deadline) {count : Nat} {link : Link}
    (hwrite : (run.net.link session.link).write .dialler sending.rest = (.wrote count, link))
    (hall : sending.rest.length ≤ count) :
    (run.after (run.net.changeLink session.link fun _ => link)
      (run.registration.enter (.awaiting (session.countSent sending.length)
        (.start .varint Registration.maxResponseLength) (run.now + run.timeout)))).Awaits
      (session.countSent sending.length) (.start .varint Registration.maxResponseLength)
      (run.now + run.timeout) := by
  obtain ⟨hwritten, htaken, _⟩ := Link.write_wrote hwrite
  have hlink := Net.link_changeLink run.net session.link (fun _ => link) h.exists_link
  have hnone : link.dialler.taken = 0 := htaken.trans h.taken
  obtain ⟨connected, _, hbegun, _, hnow⟩ := h.deadline
  refine ⟨h.toHas.after rfl, ?_, ?_, ?_, run.now, ?_, second_deadline hbegun hnow, rfl,
    Nat.le_add_right _ _⟩
  · show ((run.net.changeLink session.link fun _ => link).link session.link).dialler.written =
      run.registrar.frame
    rw [hlink, hwritten, List.take_of_length_le hall, h.written]
  · show ((run.net.changeLink session.link fun _ => link).link session.link).dialler.taken ≤
      ((run.net.changeLink session.link fun _ => link).link
        session.link).acceptor.written.length
    rw [hlink, hnone]
    exact Nat.zero_le _
  · show Frame.Reader.feed _
      ((run.net.changeLink session.link fun _ => link).link session.link).read = _
    rw [hlink, Link.read, hnone]
    rfl
  · show run.sent.or (some run.now) = some run.now
    rw [h.sent]
    rfl

theorem Awaits.more {session : Session} {reader next : Frame.Reader} {deadline : Instant}
    (h : run.Awaits session reader deadline) {unread : Bytes}
    (harrival : (run.net.link session.link).arrival .dialler = .bytes unread)
    (hfeed : reader.feed unread = .more next) :
    (run.after (run.net.changeLink session.link (·.take .dialler unread.length))
      (run.registration.enter (.awaiting session next deadline))).Awaits session next
      deadline := by
  have hunread : (run.net.link session.link).acceptor.written.drop
      (run.net.link session.link).dialler.taken = unread := Link.unread_of_arrival harrival
  have hlength := congrArg List.length hunread
  have htaken := h.taken
  rw [List.length_drop] at hlength
  obtain ⟨sent, hsent, hbegun, hdeadline, hnow⟩ := h.deadline
  refine ⟨h.toHas.after rfl, ?_, ?_, ?_, sent, ?_, hbegun, hdeadline, hnow⟩
  · rw [h.toHas.link_after]
    exact h.written
  · rw [h.toHas.link_after]
    show (run.net.link session.link).dialler.taken + unread.length ≤
      (run.net.link session.link).acceptor.written.length
    omega
  · rw [h.toHas.link_after, Link.read_take harrival, List.take_length,
      Frame.Reader.feed_append, h.reader]
    exact hfeed
  · show run.sent.or (some run.now) = some sent
    rw [hsent]
    rfl

/-- After a turn the condition of the next phase holds. -/
theorem Sound.stage_after (h : run.Sound)
    (hturn : run.registration.Turn run.now run.net net next) :
    (run.after net next).Stage next.phase := by
  have hheld : ∀ link : Link, (link.leave .dialler).dialler.held = false :=
    fun link => Link.held_leave link .dialler
  have hwritten : ∀ link : Link, (link.leave .dialler).dialler.written = link.dialler.written :=
    fun link => (Link.alike_leave link).written
  cases hturn with
  | unfit hphase => exact (h.prepares hphase).ended
  | untargeted hphase => exact (h.prepares hphase).ended
  | dial hphase hencode htarget =>
      refine (h.prepares hphase).dials ⟨RegisterRequest.short_of_encode hencode, ?_⟩ hencode
      rw [RegistrationRun.registrar, htarget]
      nofun
  | refused hphase hattempt =>
      refine (h.dials hphase).ended rfl (Attempt.isWaiting_of_refusal hattempt) ?_
      intro link hconnected
      rw [hconnected] at hattempt
      cases hattempt
  | abandoned hphase hattempt => exact absurd hattempt (h.dials hphase).pending
  | @expired dial _ hphase =>
      have hgone : (run.net.abandon dial.attempt).attempt dial.attempt = .abandoned := by
        simp [Net.attempt, Net.abandon, Net.settleAttempt, (h.dials hphase).number]
      exact (h.dials hphase).ended (by simp [Net.abandon, Net.settleAttempt])
        (by rw [hgone]; rfl) (by simp [hgone])
  | connected hphase hattempt hframe => exact (h.dials hphase).sends hattempt hframe
  | wrote hphase hwrite hcount hpart => exact (h.sends hphase).wrote hwrite hpart
  | sent hphase hwrite hall => exact (h.sends hphase).awaits hwrite hall
  | unsent hphase hwrite =>
      have hsends := h.sends hphase
      exact hsends.ended hsends.tells (hheld _)
        ((hwritten _).trans (Link.write_failed hwrite).1.written)
  | late hphase =>
      have hsends := h.sends hphase
      exact hsends.ended hsends.tells (hheld _) (hwritten _)
  | more hphase harrival hfeed => exact (h.awaits hphase).more harrival hfeed
  | answered hphase =>
      have hawaits := h.awaits hphase
      exact hawaits.ended hawaits.tells (hheld _) (hwritten _)
  | malformed hphase =>
      have hawaits := h.awaits hphase
      exact hawaits.ended hawaits.tells (hheld _) (hwritten _)
  | ended hphase =>
      have hawaits := h.awaits hphase
      exact hawaits.ended hawaits.tells (hheld _) (hwritten _)
  | failed hphase =>
      have hawaits := h.awaits hphase
      exact hawaits.ended hawaits.tells (hheld _) (hwritten _)
  | silent hphase =>
      have hawaits := h.awaits hphase
      exact hawaits.ended hawaits.tells (hheld _) (hwritten _)

theorem price_of_starting (hphase : run.registration.phase = .starting) :
    run.price = run.registrar.frame.length + Registration.maxFrameLength + 2 := by
  rw [price, hphase]

theorem price_of_dialling {dial : Dial} {payload : Bytes}
    (hphase : run.registration.phase = .dialling dial payload) :
    run.price = run.registrar.frame.length + Registration.maxFrameLength + 1 := by
  rw [price, hphase]

theorem price_of_sending {session : Session} {sending : Session.Sending}
    {deadline : Option Instant}
    (hphase : run.registration.phase = .sending session sending deadline) :
    run.price = sending.rest.length + Registration.maxFrameLength := by
  rw [price, hphase]

theorem price_of_awaiting {session : Session} {reader : Frame.Reader} {deadline : Instant}
    (hphase : run.registration.phase = .awaiting session reader deadline) :
    run.price =
      Registration.maxFrameLength - (run.net.link session.link).dialler.taken := by
  rw [price, hphase]

/-- Until it is over, a registration has steps left. -/
theorem Sound.price_pos (h : run.Sound)
    (hphase : ∀ result, run.registration.phase ≠ .finished result) : 0 < run.price := by
  cases hcase : run.registration.phase with
  | starting => rw [price_of_starting hcase]; exact Nat.succ_pos _
  | dialling dial payload => rw [price_of_dialling hcase]; exact Nat.succ_pos _
  | sending session sending deadline =>
      rw [price_of_sending hcase]
      exact Nat.add_pos_right _ (by decide)
  | awaiting session reader deadline =>
      rw [price_of_awaiting hcase]
      exact Nat.sub_pos_of_lt (h.awaits hcase).taken_lt
  | finished result => exact absurd hcase (hphase result)

/-- A turn costs something. -/
theorem Sound.price_after (h : run.Sound)
    (hturn : run.registration.Turn run.now run.net net next) :
    (run.after net next).price < run.price := by
  have hover : ∀ {net result}, (∀ result, run.registration.phase ≠ .finished result) →
      (run.after net (run.registration.finish result)).price < run.price :=
    fun hphase => h.price_pos hphase
  cases hturn with
  | dial hphase =>
      rw [price_of_starting hphase, price_of_dialling rfl]
      exact Nat.lt_succ_self _
  | connected hphase hattempt hframe =>
      have hall := Registrar.frame_of_encode (h.dials hphase).payload hframe
      rw [price_of_dialling hphase, price_of_sending rfl, hall]
      exact Nat.lt_succ_self _
  | wrote hphase _ hcount hpart =>
      rw [price_of_sending hphase, price_of_sending rfl, List.length_drop]
      omega
  | sent hphase =>
      have hpos := List.length_pos_iff.mpr (h.sends hphase).rest
      rw [price_of_sending hphase, price_of_awaiting rfl]
      omega
  | more hphase harrival =>
      have hpos := List.length_pos_iff.mpr (Link.arrival_bytes harrival)
      have hlt := (h.awaits hphase).taken_lt
      rw [price_of_awaiting hphase, price_of_awaiting rfl, (h.awaits hphase).toHas.link_after]
      show _ - ((run.net.link _).dialler.taken + _) < _
      omega
  | unfit hphase => exact hover (by simp [hphase])
  | untargeted hphase => exact hover (by simp [hphase])
  | refused hphase => exact hover (by simp [hphase])
  | abandoned hphase => exact hover (by simp [hphase])
  | expired hphase => exact hover (by simp [hphase])
  | unsent hphase => exact hover (by simp [hphase])
  | late hphase => exact hover (by simp [hphase])
  | answered hphase => exact hover (by simp [hphase])
  | malformed hphase => exact hover (by simp [hphase])
  | ended hphase => exact hover (by simp [hphase])
  | failed hphase => exact hover (by simp [hphase])
  | silent hphase => exact hover (by simp [hphase])

theorem Sound.turn (h : run.Sound)
    (hturn : run.registration.Turn run.now run.net net next) :
    (run.after net next).Sound := by
  have hregistrar : (run.after net next).registrar = run.registrar := hturn.registrar
  have hprice := h.price_after hturn
  have hsteps := h.steps
  refine ⟨hregistrar.trans h.registrar, hturn.fits h.fits, h.stage_after hturn, ?_⟩
  rw [hregistrar]
  show run.steps + 1 + _ ≤ _
  omega

/-! ## What others do -/

/-- An attempt of the registration that was answered stays so. -/
theorem attempt_others (hnet : run.net.Evolves run.holdings net) {attempt : AttemptId}
    (hattempt : attempt ∈ run.attempts) (hlt : attempt < run.net.attempts.length)
    (hwaiting : (run.net.attempt attempt).isWaiting = false) :
    net.attempt attempt = run.net.attempt attempt := by
  rcases hnet.attempt hattempt hlt with hsame | ⟨hopen, _⟩
  · exact hsame
  · rw [hwaiting] at hopen
    cases hopen

theorem Has.others {link : LinkId} (h : run.Has link)
    (hnet : run.net.Evolves run.holdings net) :
    ({ run with net } : RegistrationRun).Has link ∧
      (run.net.link link).Beside .dialler (net.link link) := by
  obtain ⟨attempt, hattempts, hlt, hconnected⟩ := h.attempt
  have hsame : net.attempt attempt = run.net.attempt attempt :=
    attempt_others hnet (by simp [hattempts]) hlt (by rw [hconnected]; rfl)
  have hlt' := Nat.lt_of_lt_of_le hlt hnet.attempts
  exact ⟨⟨h.ready, ⟨attempt, hattempts, hlt', hsame.trans hconnected⟩,
    Nat.lt_of_lt_of_le h.exists_link hnet.links⟩, hnet.beside ⟨rfl, h.owns⟩ h.exists_link⟩

theorem Dials.others {dial : Dial} {payload : Bytes} (h : run.Dials dial payload)
    (hnet : run.net.Evolves run.holdings net) :
    ({ run with net } : RegistrationRun).Dials dial payload := by
  have hmem : dial.attempt ∈ run.attempts := by simp [h.attempts]
  have hnumber := Nat.lt_of_lt_of_le h.number hnet.attempts
  rcases hnet.attempt hmem h.number with hsame | ⟨_, hanswers⟩
  · refine { h with number := hnumber, pending := hsame ▸ h.pending, fresh := ?_ }
    intro link hconnected
    have hconnected' : run.net.attempt dial.attempt = .connected link :=
      hsame.symm.trans hconnected
    obtain ⟨hlt, hwritten, htaken, hfinished⟩ := h.fresh hconnected'
    have hbeside := hnet.beside (show run.holdings.ends link .dialler from
      ⟨rfl, dial.attempt, hmem, hconnected'⟩) hlt
    exact ⟨Nat.lt_of_lt_of_le hlt hnet.links, hbeside.written.trans hwritten,
      hbeside.taken.trans htaken, hbeside.finished.trans hfinished⟩
  · refine { h with number := hnumber, pending := hanswers.ne_abandoned, fresh := ?_ }
    intro link hconnected
    obtain ⟨rfl, hexists, hlink⟩ := hanswers.links_of_connected hconnected
    refine ⟨hexists, ?_⟩
    show (net.link run.net.links.length).dialler.written = [] ∧ _
    exact hlink ▸ ⟨rfl, rfl, rfl⟩

theorem Sends.others {session : Session} {sending : Session.Sending} {deadline : Option Instant}
    (h : run.Sends session sending deadline) (hnet : run.net.Evolves run.holdings net) :
    ({ run with net } : RegistrationRun).Sends session sending deadline := by
  obtain ⟨hhas, hbeside⟩ := h.toHas.others hnet
  refine { h with
    toHas := hhas, written := ?_, taken := hbeside.taken.trans h.taken
    unfinished := hbeside.finished.trans h.unfinished }
  exact (congrArg (· ++ sending.rest) hbeside.written).trans h.written

theorem Awaits.others {session : Session} {reader : Frame.Reader} {deadline : Instant}
    (h : run.Awaits session reader deadline)
    (hnet : run.net.Evolves run.holdings net) :
    ({ run with net } : RegistrationRun).Awaits session reader deadline := by
  obtain ⟨hhas, hbeside⟩ := h.toHas.others hnet
  have htaken : (net.link session.link).dialler.taken =
      (run.net.link session.link).dialler.taken := hbeside.taken
  have hgrows : (run.net.link session.link).acceptor.written <+:
      (net.link session.link).acceptor.written := hbeside.grows
  have hread : (net.link session.link).read = (run.net.link session.link).read := by
    obtain ⟨more, hmore⟩ := hgrows
    rw [Link.read, htaken, ← hmore, List.take_append_of_le_length h.taken, Link.read]
  refine { h with
    toHas := hhas, written := hbeside.written.trans h.written, taken := ?_, reader := ?_ }
  · show (net.link session.link).dialler.taken ≤ (net.link session.link).acceptor.written.length
    rw [htaken]
    exact Nat.le_trans h.taken hgrows.length_le
  · show Frame.Reader.feed _ (net.link session.link).read = _
    rw [hread]
    exact h.reader

theorem Ended.others (h : run.Ended) (hnet : run.net.Evolves run.holdings net) :
    ({ run with net } : RegistrationRun).Ended := by
  have hsame : ∀ attempt ∈ run.attempts, net.attempt attempt = run.net.attempt attempt :=
    fun attempt hattempt =>
      attempt_others hnet hattempt (h.settled attempt hattempt).1 (h.settled attempt hattempt).2
  have howns : ∀ {link}, ({ run with net } : RegistrationRun).Owns link ↔ run.Owns link := by
    intro link
    constructor
    · rintro ⟨attempt, hattempt, hconnected⟩
      exact ⟨attempt, hattempt, (hsame attempt hattempt).symm.trans hconnected⟩
    · rintro ⟨attempt, hattempt, hconnected⟩
      exact ⟨attempt, hattempt, (hsame attempt hattempt).trans hconnected⟩
  have hbeside : ∀ {link}, run.Owns link →
      (run.net.link link).Beside .dialler (net.link link) :=
    fun hlink => hnet.beside ⟨rfl, hlink⟩ (h.closed hlink).1
  refine ⟨h.ready, h.single, fun attempt hattempt => ?_, fun hlink => ?_, h.sent.trans ?_⟩
  · obtain ⟨hlt, hwaiting⟩ := h.settled attempt hattempt
    refine ⟨Nat.lt_of_lt_of_le hlt hnet.attempts, ?_⟩
    show (net.attempt attempt).isWaiting = false
    rw [hsame attempt hattempt]
    exact hwaiting
  · obtain ⟨hlt, hheld, hpart⟩ := h.closed (howns.mp hlink)
    have hwritten := (hbeside (howns.mp hlink)).written
    refine ⟨Nat.lt_of_lt_of_le hlt hnet.links,
      (hbeside (howns.mp hlink)).held.trans hheld, ?_⟩
    exact (congrArg (· <+: run.registrar.frame) hwritten).mpr hpart
  · constructor
    · rintro ⟨link, hlink, hall⟩
      exact ⟨link, howns.mpr hlink, (hbeside hlink).written.trans hall⟩
    · rintro ⟨link, hlink, hall⟩
      exact ⟨link, howns.mp hlink, (hbeside (howns.mp hlink)).written.symm.trans hall⟩

theorem Sound.others (h : run.Sound) (hforeign : run.net.Foreign run.holdings net) :
    ({ run with net } : RegistrationRun).Sound := by
  have hnet := hforeign.evolves
  have hstage : ({ run with net } : RegistrationRun).Stage run.registration.phase := by
    cases hphase : run.registration.phase with
    | starting =>
        obtain ⟨hattempts, hconnected, hsent, hnow⟩ := h.prepares hphase
        exact ⟨hattempts, hconnected, hsent, hnow⟩
    | dialling dial payload => exact (h.dials hphase).others hnet
    | sending session sending deadline => exact (h.sends hphase).others hnet
    | awaiting session reader deadline => exact (h.awaits hphase).others hnet
    | finished result => exact (h.ended hphase).others hnet
  have hprice : ({ run with net } : RegistrationRun).price = run.price := by
    cases hphase : run.registration.phase with
    | awaiting session reader deadline =>
        have htaken := ((h.awaits hphase).toHas.others hnet).2.taken
        have hlater : ({ run with net } : RegistrationRun).price =
            Registration.maxFrameLength - (net.link session.link).dialler.taken :=
          price_of_awaiting hphase
        rw [hlater, price_of_awaiting hphase]
        exact congrArg (Registration.maxFrameLength - ·) htaken
    | _ => simp only [price, hphase, RegistrationRun.registrar]
  exact ⟨h.registrar, h.fits, hstage, hprice ▸ h.steps⟩

/-! ## The passing of time -/

theorem Sound.wait (h : run.Sound) (hwaits : run.Waits) {now : Instant}
    (hwake : ∀ wake, run.registration.wake? = some wake → now ≤ wake) :
    ({ run with now } : RegistrationRun).Sound := by
  have hstage : ({ run with now } : RegistrationRun).Stage run.registration.phase := by
    cases hphase : run.registration.phase with
    | starting => simp [Waits, Registration.step, hphase] at hwaits
    | dialling dial payload =>
        have hnow : now ≤ dial.deadline := hwake _ (by simp [Registration.wake?, hphase])
        exact { h.dials hphase with now := hnow }
    | sending session sending deadline =>
        have hsends := h.sends hphase
        obtain ⟨connected, hconnected, hbegun, rfl, _⟩ := hsends.deadline
        have hnow : now ≤ connected + run.timeout :=
          hwake _ (by simp [Registration.wake?, hphase])
        exact { hsends with
          toHas := ⟨hsends.ready, hsends.attempt, hsends.exists_link⟩
          deadline := ⟨connected, hconnected, hbegun, rfl, hnow⟩ }
    | awaiting session reader deadline =>
        have hawaits := h.awaits hphase
        obtain ⟨sent, hsent, hbegun, hdeadline, _⟩ := hawaits.deadline
        have hnow : now ≤ deadline := hwake _ (by simp [Registration.wake?, hphase])
        exact { hawaits with
          toHas := ⟨hawaits.ready, hawaits.attempt, hawaits.exists_link⟩
          deadline := ⟨sent, hsent, hbegun, hdeadline, hnow⟩ }
    | finished result =>
        obtain ⟨hready, hsingle, hsettled, hclosed, hsent⟩ := h.ended hphase
        exact ⟨hready, hsingle, hsettled, hclosed, hsent⟩
  exact ⟨h.registrar, h.fits, hstage, h.steps⟩

/-! ## Every run that is reached -/

theorem sound_start (now : Instant) (net : Net) (server : ServerConfig) :
    (start now net server).Sound where
  registrar := rfl
  fits := nofun
  stage := ⟨rfl, rfl, rfl, rfl⟩
  steps := Nat.le_of_eq (Nat.zero_add _)

theorem Reachable.sound (h : run.Reachable) : run.Sound := by
  induction h with
  | begin now net server => exact sound_start now net server
  | move _ hmove ih =>
      cases hmove with
      | step h => exact ih.turn (Registration.turn_of_step ih.fits h)
      | others h => exact ih.others h
      | wait hwaits _ hwake => exact ih.wait hwaits hwake

end RegistrationRun

end NodeHealth
