import NodeHealth.Cnode.Client
import NodeHealth.Proofs.Net.Dial

/-!
# The turns of the cnode client

The loop of the client goes from one point at which it may have to wait to the next.
`CnodeClient.Turn` lists everything that can happen between two of them, with what the client
saw in the network and what it left there, and `turn_of_step` says that the list is complete.

## Implementation notes

Sending the announcement and sending a reply differ in the bytes and in what comes before
them only, so that both are one kind of turn, told apart by `Outgoing`. The functions of the
client that a turn goes through are gone from its result, except the two that end a session,
which look at the flag of the client.

-/

namespace NodeHealth

/-- The two messages that the client sends. -/
inductive Outgoing
  | identity
  | reply
  deriving DecidableEq, Repr

namespace Outgoing

/-- The frame of a message: its length, field 1, and its value. -/
def frame : Outgoing → Bytes
  | identity => [2, 0, 0, 0, 0x08, 13]
  | reply => [2, 0, 0, 0, 0x08, 1]

/-- The payload of a message. -/
def payload : Outgoing → Bytes
  | identity => [0x08, 13]
  | reply => [0x08, 1]

theorem length_frame (message : Outgoing) : message.frame.length = 6 := by
  cases message <;> rfl

/-- The phase in which a message is being sent. -/
def phase (message : Outgoing) (session : Session) (sending : Session.Sending)
    (deadline : Option Instant) : ClientPhase :=
  match message with
  | identity => .identifying session sending deadline
  | reply => .replying session sending deadline

/-- What the client shows once a message is sent. -/
def shown (message : Outgoing) (state : ClientState) : ClientState :=
  match message with
  | identity => .serving
  | reply => state

end Outgoing

namespace ClientPhase

/-- The session that the client is in. -/
def session? : ClientPhase → Option Session
  | identifying session _ _ => some session
  | polling session _ => some session
  | receiving session _ => some session
  | replying session _ _ => some session
  | starting => none
  | dialling _ => none
  | resting _ _ => none

@[simp]
theorem session?_outgoing (message : Outgoing) (session : Session) (sending : Session.Sending)
    (deadline : Option Instant) : (message.phase session sending deadline).session? = session := by
  cases message <;> rfl

end ClientPhase

/-- Both halves of ending a session: no more bytes come, and nobody holds the end. -/
def Link.leave (link : Link) (side : Side) : Link :=
  (link.finish side).close side

/-- Two changes of one connection are one. -/
theorem Net.changeLink_changeLink (net : Net) (id : LinkId) (first second : Link → Link) :
    (net.changeLink id first).changeLink id second =
      net.changeLink id fun link => second (first link) := by
  by_cases h : id < net.links.length
  · have hsecond := Net.link_changeLink net id first h
    simp only [Net.changeLink, List.set_set] at hsecond ⊢
    rw [hsecond]
  · have hlength : net.links.length ≤ id := Nat.le_of_not_lt h
    simp [Net.changeLink, List.set_eq_of_length_le, hlength]

namespace CnodeClient

/-- The session that the client opens on a connection. -/
def session (client : CnodeClient) (link : LinkId) : Session :=
  { link, side := .dialler, framing := .fixed32, limit := maxRequestLength
    sendTimeoutMs := some client.config.connectTimeoutMs.toNat }

/-- The session that the client is in. -/
def session? (client : CnodeClient) : Option Session :=
  client.loop.bind fun loop => loop.phase.session?

/-- The session that the client is in, if any, is one that it opened. -/
def Fits (client : CnodeClient) : Prop :=
  ∀ session, client.session? = some session →
    (client.session session.link).Continues session

theorem session?_of_loop {client : CnodeClient} {loop : ClientLoop}
    (hloop : client.loop = some loop) : client.session? = loop.phase.session? := by
  simp [session?, hloop]

theorem session?_of_none {client : CnodeClient} (hloop : client.loop = none) :
    client.session? = none := by
  simp [session?, hloop]

/-- The loop is where an attempt begins: at its start, or behind the last second of sleep,
after which the delays to come are longer. -/
inductive Begins (now : Instant) (running : Bool) : ClientLoop → Backoff → Prop
  | first (backoff : Backoff) : Begins now running ⟨backoff, .starting⟩ backoff
  | again (backoff : Backoff) {seconds : Nat} {wake : Instant} (hwake : wake ≤ now)
      (hlast : running = true → seconds ≤ 1) :
      Begins now running ⟨backoff, .resting seconds wake⟩ backoff.advance

/-- Everything that the client can do from one point at which it may have to wait to the
next, with the network and the client after it. -/
inductive Turn (now : Instant) (net : Net) (client : CnodeClient) : Net → CnodeClient → Prop
  /-- The flag is cleared before an attempt. -/
  | quit {loop : ClientLoop} {backoff : Backoff} (hloop : client.loop = some loop)
      (hbegins : Begins now client.running loop backoff)
      (hquit : client.running = false ∨ client.config.target? = none) :
      Turn now net client net client.finishLoop
  /-- An attempt begins. -/
  | dial {loop : ClientLoop} {backoff : Backoff} {host : String} {port : UInt16}
      (hloop : client.loop = some loop) (hbegins : Begins now client.running loop backoff)
      (hrunning : client.running = true)
      (htarget : client.config.target? = some (host, port)) :
      Turn now net client (net.seek host port).2
        { client with
          state := .connecting
          loop := some ⟨backoff, .dialling
            ⟨(net.seek host port).1, now + client.config.connectTimeoutMs.toNat⟩⟩ }
  /-- A second of sleep is over, and more follow. -/
  | doze {backoff : Backoff} {seconds : Nat} {wake : Instant}
      (hloop : client.loop = some ⟨backoff, .resting seconds wake⟩) (hwake : wake ≤ now)
      (hrunning : client.running = true) (hmore : 1 < seconds) :
      Turn now net client net
        { client with loop := some ⟨backoff, .resting (seconds - 1) (now + tickMs)⟩ }
  /-- The attempt has failed. -/
  | refused {backoff : Backoff} {dial : Dial}
      (hloop : client.loop = some ⟨backoff, .dialling dial⟩)
      (hattempt : (∃ failure, (net.attempt dial.attempt).refusal? = some failure) ∨
        net.attempt dial.attempt = .abandoned) :
      Turn now net client net (client.retreat now ⟨backoff, .dialling dial⟩)
  /-- The attempt is given up. -/
  | expired {backoff : Backoff} {dial : Dial}
      (hloop : client.loop = some ⟨backoff, .dialling dial⟩)
      (hattempt : (net.attempt dial.attempt).isWaiting = true)
      (hdeadline : dial.deadline ≤ now) :
      Turn now net client (net.abandon dial.attempt)
        (client.retreat now ⟨backoff, .dialling dial⟩)
  /-- There is a connection, on which the client announces itself. -/
  | connected {backoff : Backoff} {dial : Dial} {link : LinkId}
      (hloop : client.loop = some ⟨backoff, .dialling dial⟩)
      (hattempt : net.attempt dial.attempt = .connected link) :
      Turn now net client net
        { client with
          state := .identifying
          loop := some ⟨backoff,
            Outgoing.identity.phase ((client.session link).holding Outgoing.identity.frame)
              ⟨6, Outgoing.identity.frame⟩
              (some (now + client.config.connectTimeoutMs.toNat))⟩ }
  /-- A part of a message is written. -/
  | wrote {backoff : Backoff} {message : Outgoing} {session : Session}
      {sending : Session.Sending} {deadline : Option Instant} {count : Nat} {link : Link}
      (hloop : client.loop = some ⟨backoff, message.phase session sending deadline⟩)
      (hwrite : (net.link session.link).write .dialler sending.rest = (.wrote count, link))
      (hcount : 0 < count) (hpart : count < sending.rest.length) :
      Turn now net client (net.changeLink session.link fun _ => link)
        { client with
          loop := some ⟨backoff, message.phase session
            { sending with rest := sending.rest.drop count } deadline⟩ }
  /-- A message is written, and the client waits for a request. -/
  | sent {backoff : Backoff} {message : Outgoing} {session : Session}
      {sending : Session.Sending} {deadline : Option Instant} {count : Nat} {link : Link}
      (hloop : client.loop = some ⟨backoff, message.phase session sending deadline⟩)
      (hwrite : (net.link session.link).write .dialler sending.rest = (.wrote count, link))
      (hall : sending.rest.length ≤ count) (hrunning : client.running = true) :
      Turn now net client (net.changeLink session.link fun _ => link)
        { client with
          state := message.shown client.state
          loop := some ⟨backoff, .polling (session.countSent sending.length)
            (now + client.config.pollIntervalMs.toNat)⟩ }
  /-- A message is written, and the flag is cleared. -/
  | parted {backoff : Backoff} {message : Outgoing} {session : Session}
      {sending : Session.Sending} {deadline : Option Instant} {count : Nat} {link : Link}
      (hloop : client.loop = some ⟨backoff, message.phase session sending deadline⟩)
      (hwrite : (net.link session.link).write .dialler sending.rest = (.wrote count, link))
      (hall : sending.rest.length ≤ count) (hrunning : client.running = false) :
      Turn now net client (net.changeLink session.link fun _ => link.leave .dialler)
        client.finishLoop
  /-- A message cannot be written. -/
  | unsent {backoff : Backoff} {message : Outgoing} {session : Session}
      {sending : Session.Sending} {deadline : Option Instant} {cause : IoCause} {link : Link}
      (hloop : client.loop = some ⟨backoff, message.phase session sending deadline⟩)
      (hwrite : (net.link session.link).write .dialler sending.rest = (.failed cause, link)) :
      Turn now net client (net.changeLink session.link fun _ => link.leave .dialler)
        (client.retreat now ⟨backoff, message.phase session sending deadline⟩)
  /-- There is no room for a message for too long. -/
  | late {backoff : Backoff} {message : Outgoing} {session : Session}
      {sending : Session.Sending} {deadline : Option Instant} {link : Link}
      (hloop : client.loop = some ⟨backoff, message.phase session sending deadline⟩)
      (hwrite : (net.link session.link).write .dialler sending.rest = (.wrote 0, link))
      (hpart : 0 < sending.rest.length) (hdeadline : isOver deadline now = true) :
      Turn now net client (net.changeLink session.link (·.leave .dialler))
        (client.retreat now ⟨backoff, message.phase session sending deadline⟩)
  /-- The first bytes of a request are there. -/
  | readable {backoff : Backoff} {session : Session} {deadline : Instant} {unread : Bytes}
      (hloop : client.loop = some ⟨backoff, .polling session deadline⟩)
      (harrival : (net.link session.link).arrival .dialler = .bytes unread) :
      Turn now net client net
        { client with
          loop := some ⟨backoff, .receiving session (.start .fixed32 maxRequestLength)⟩ }
  /-- Nothing has come, and the client waits again. -/
  | idle {backoff : Backoff} {session : Session} {deadline : Instant}
      (hloop : client.loop = some ⟨backoff, .polling session deadline⟩)
      (harrival : (net.link session.link).arrival .dialler = .nothing)
      (hdeadline : deadline ≤ now) (hrunning : client.running = true) :
      Turn now net client net
        { client with
          loop := some ⟨backoff, .polling session (now + client.config.pollIntervalMs.toNat)⟩ }
  /-- Looking for data was interrupted, and the client waits again. -/
  | interrupted {backoff : Backoff} {session : Session} {deadline : Instant}
      (hloop : client.loop = some ⟨backoff, .polling session deadline⟩)
      (harrival : (net.link session.link).arrival .dialler = .failed .interrupted)
      (hrunning : client.running = true) :
      Turn now net client (net.changeLink session.link (·.report .dialler))
        { client with
          loop := some ⟨backoff, .polling session (now + client.config.pollIntervalMs.toNat)⟩ }
  /-- Nothing has come, and the flag is cleared. -/
  | dismissed {backoff : Backoff} {session : Session} {deadline : Instant}
      (hloop : client.loop = some ⟨backoff, .polling session deadline⟩)
      (harrival : (net.link session.link).arrival .dialler = .nothing)
      (hdeadline : deadline ≤ now) (hrunning : client.running = false) :
      Turn now net client (net.changeLink session.link (·.leave .dialler)) client.finishLoop
  /-- The other end has hung up, between two requests or within one. -/
  | ended {loop : ClientLoop} {session : Session} (hloop : client.loop = some loop)
      (hphase : (∃ deadline, loop.phase = .polling session deadline) ∨
        ∃ reader, loop.phase = .receiving session reader)
      (harrival : (net.link session.link).arrival .dialler = .ended) :
      Turn now net client (net.changeLink session.link (·.leave .dialler))
        (client.retreat now loop)
  /-- The connection has failed, between two requests or within one. Between two requests an
  interruption is no failure, unless the flag is cleared. -/
  | failed {loop : ClientLoop} {session : Session} {cause : IoCause}
      (hloop : client.loop = some loop)
      (hphase : (∃ deadline, loop.phase = .polling session deadline) ∨
        ∃ reader, loop.phase = .receiving session reader)
      (harrival : (net.link session.link).arrival .dialler = .failed cause)
      (hcause : cause = .interrupted → client.running = true →
        ∃ reader, loop.phase = .receiving session reader) :
      Turn now net client
        (net.changeLink session.link fun link => (link.report .dialler).leave .dialler)
        (client.retreat now loop)
  /-- All that has arrived belongs to a request that is not complete. -/
  | more {backoff : Backoff} {session : Session} {reader next : Frame.Reader} {unread : Bytes}
      (hloop : client.loop = some ⟨backoff, .receiving session reader⟩)
      (harrival : (net.link session.link).arrival .dialler = .bytes unread)
      (hfeed : reader.feed unread = .more next) :
      Turn now net client (net.changeLink session.link (·.take .dialler unread.length))
        { client with loop := some ⟨backoff, .receiving session next⟩ }
  /-- A request is complete, and the client answers it. -/
  | request {backoff : Backoff} {session : Session} {reader : Frame.Reader}
      {unread payload rest : Bytes}
      (hloop : client.loop = some ⟨backoff, .receiving session reader⟩)
      (harrival : (net.link session.link).arrival .dialler = .bytes unread)
      (hfeed : reader.feed unread = .done (.ok payload) rest) :
      Turn now net client
        (net.changeLink session.link (·.take .dialler (unread.length - rest.length)))
        { client with
          loop := some ⟨backoff,
            Outgoing.reply.phase
              ((session.countReceived payload).holding Outgoing.reply.frame)
              ⟨6, Outgoing.reply.frame⟩
              (some (now + client.config.connectTimeoutMs.toNat))⟩ }
  /-- A request is none that the client accepts. -/
  | rejected {backoff : Backoff} {session : Session} {reader : Frame.Reader} {unread rest : Bytes}
      {error : WireError} (hloop : client.loop = some ⟨backoff, .receiving session reader⟩)
      (harrival : (net.link session.link).arrival .dialler = .bytes unread)
      (hfeed : reader.feed unread = .done (.error error) rest) :
      Turn now net client
        (net.changeLink session.link fun link =>
          (link.take .dialler (unread.length - rest.length)).leave .dialler)
        (client.retreat now ⟨backoff, .receiving session reader⟩)

/-! ## The list is complete -/

variable {now : Instant} {net later : Net} {client next : CnodeClient}

theorem retreat_of_running (h : client.running = true) (loop : ClientLoop) :
    client.retreat now loop =
      { client with
        state := .connecting
        loop := some ⟨loop.backoff, .resting loop.backoff.current.toNat (now + tickMs)⟩ } := by
  simp only [retreat, h, if_true]
  rfl

theorem retreat_of_stopped (h : client.running = false) (loop : ClientLoop) :
    client.retreat now loop = client.finishLoop := by
  simp [retreat, h]

/-- Both messages are frames of six bytes. -/
theorem prepare_eq (message : Outgoing) {session : Session} (h : session.framing = .fixed32) :
    session.prepare message.payload =
      (.ok ⟨6, message.frame⟩, session.holding message.frame) := by
  have hencode : Frame.encode session.framing message.payload = .ok message.frame := by
    rw [h]
    cases message <;> rfl
  have hlength : message.frame.length = 6 := by cases message <;> rfl
  rw [Session.prepare_of_encode hencode, hlength]

theorem identify_eq (client : CnodeClient) (now : Instant) (net : Net) (loop : ClientLoop)
    (link : LinkId) :
    client.identify now net loop link =
      (net, { client with
        state := .identifying
        loop := some ⟨loop.backoff,
          Outgoing.identity.phase ((client.session link).holding Outgoing.identity.frame)
            ⟨6, Outgoing.identity.frame⟩
            (some (now + client.config.connectTimeoutMs.toNat))⟩ }) := by
  have hprepare := prepare_eq .identity (show (client.session link).framing = .fixed32 from rfl)
  have hencode : Identity.amf.encode = .ok Outgoing.identity.payload := rfl
  unfold session at hprepare
  simp only [identify, hencode, hprepare]
  rfl

theorem reply_eq {session : Session}
    (h : (client.session session.link).Continues session)
    (loop : ClientLoop) :
    client.reply now net loop session =
      (net, { client with
        loop := some ⟨loop.backoff, Outgoing.reply.phase (session.holding Outgoing.reply.frame)
          ⟨6, Outgoing.reply.frame⟩ (some (now + client.config.connectTimeoutMs.toNat))⟩ }) := by
  have hprepare : session.prepare HealthResponse.serving.encode =
      (.ok ⟨6, Outgoing.reply.frame⟩, session.holding Outgoing.reply.frame) :=
    prepare_eq .reply h.framing
  have hdeadline : (session.holding Outgoing.reply.frame).sendDeadline now =
      some (now + client.config.connectTimeoutMs.toNat) :=
    congrArg (Option.map (now + ·)) h.sendTimeoutMs
  simp only [reply, hprepare, hdeadline]
  rfl

theorem hangUp_eq {session : Session}
    (h : (client.session session.link).Continues session)
    (loop : ClientLoop) :
    client.hangUp now net loop session =
      (net.changeLink session.link (·.leave .dialler), client.retreat now loop) := by
  have hside : session.side = .dialler := h.side
  simp only [hangUp, Session.close, hside]
  rfl

theorem poll_of_running (h : client.running = true) (loop : ClientLoop) (session : Session) :
    client.poll now net loop session =
      (net, { client with
        loop := some ⟨loop.backoff, .polling session
          (now + client.config.pollIntervalMs.toNat)⟩ }) := by
  unfold poll
  rw [if_pos h]
  rfl

theorem poll_of_stopped (h : client.running = false) (loop : ClientLoop) {session : Session}
    (hsession : (client.session session.link).Continues session) :
    client.poll now net loop session =
      (net.changeLink session.link (·.leave .dialler), client.finishLoop) := by
  simp only [poll, h, hangUp_eq hsession, retreat_of_stopped h]
  rfl

/-- An attempt that begins is a turn. -/
theorem turn_of_attempt {loop : ClientLoop} {backoff : Backoff} (hloop : client.loop = some loop)
    (hbegins : Begins now client.running loop backoff)
    (h : client.attempt now net { loop with backoff } = (later, next)) :
    Turn now net client later next := by
  simp only [attempt] at h
  split at h
  · rename_i hstopped
    cases h
    exact .quit hloop hbegins (.inl (by simpa using hstopped))
  · rename_i hrunning
    simp only [Decidable.not_not] at hrunning
    split at h
    · rename_i htarget
      cases h
      exact .quit hloop hbegins (.inr htarget)
    · rename_i htarget
      cases h
      exact .dial hloop hbegins hrunning htarget

/-- The step of a client that sends a message, whichever it is. -/
theorem step_outgoing {backoff : Backoff} {message : Outgoing} {session : Session}
    {sending : Session.Sending} {deadline : Option Instant}
    (hloop : client.loop = some ⟨backoff, message.phase session sending deadline⟩) :
    client.step now net =
      let loop : ClientLoop := ⟨backoff, message.phase session sending deadline⟩
      match session.deliver net sending with
      | .done (net, session, .ok ()) =>
          some ({ client with state := message.shown client.state }.poll now net loop session)
      | .done (net, session, .error _) => some (client.hangUp now net loop session)
      | .advanced (net, sending) =>
          some (net, client.enter loop (message.phase session sending deadline))
      | .blocked =>
          if isOver deadline now then some (client.hangUp now net loop session) else none := by
  cases message <;> simp only [step, hloop] <;> rfl

theorem turn_of_outgoing {backoff : Backoff} {message : Outgoing} {session : Session}
    {sending : Session.Sending} {deadline : Option Instant}
    (hloop : client.loop = some ⟨backoff, message.phase session sending deadline⟩)
    (hsession : (client.session session.link).Continues session)
    (h : client.step now net = some (later, next)) : Turn now net client later next := by
  have hside : session.side = .dialler := hsession.side
  rw [step_outgoing hloop] at h
  cases hwrite : (net.link session.link).write .dialler sending.rest with
  | mk delivery link =>
      simp only [Session.deliver, hside, hwrite] at h
      cases delivery with
      | failed cause =>
          simp only [hangUp_eq hsession, Net.changeLink_changeLink] at h
          cases h
          exact .unsent hloop hwrite
      | wrote count =>
          by_cases hall : sending.rest.length ≤ count
          · have hcounted : (client.session (session.countSent sending.length).link).Continues
                (session.countSent sending.length) :=
              hsession.trans (session.continues_countSent sending.length)
            simp only [if_pos hall] at h
            by_cases hrunning : client.running = true
            · have hshown : { client with state := message.shown client.state }.running = true :=
                hrunning
              rw [poll_of_running hshown] at h
              cases h
              exact .sent hloop hwrite hall hrunning
            · simp only [Bool.not_eq_true] at hrunning
              have hshown : { client with state := message.shown client.state }.running = false :=
                hrunning
              have hlink : (session.countSent sending.length).link = session.link := rfl
              rw [poll_of_stopped hshown _ hcounted, hlink, Net.changeLink_changeLink] at h
              cases h
              exact .parted hloop hwrite hall hrunning
          · simp only [if_neg hall] at h
            by_cases hcount : count = 0
            · subst hcount
              simp only [if_true] at h
              split at h
              · rename_i hdeadline
                simp only [hangUp_eq hsession] at h
                cases h
                exact .late hloop hwrite (by omega) hdeadline
              · cases h
            · simp only [if_neg hcount] at h
              cases h
              exact .wrote hloop hwrite (by omega) (by omega)

theorem turn_of_polling {backoff : Backoff} {session : Session} {deadline : Instant}
    (hloop : client.loop = some ⟨backoff, .polling session deadline⟩)
    (hsession : (client.session session.link).Continues session)
    (h : client.step now net = some (later, next)) : Turn now net client later next := by
  have hside : session.side = .dialler := hsession.side
  have hreader : session.reader = .start .fixed32 maxRequestLength := by
    rw [Session.reader, hsession.framing, hsession.limit]
    rfl
  simp only [step, hloop, Session.readiness?, hside] at h
  cases harrival : (net.link session.link).arrival .dialler with
  | bytes unread =>
      simp only [harrival, hreader] at h
      cases h
      exact .readable hloop harrival
  | ended =>
      simp only [harrival, hangUp_eq hsession] at h
      cases h
      exact .ended hloop (.inl ⟨deadline, rfl⟩) harrival
  | failed cause =>
      by_cases hcause : cause = .interrupted
      · subst hcause
        simp only [harrival, Session.readinessOfFailure] at h
        by_cases hrunning : client.running = true
        · rw [poll_of_running hrunning] at h
          cases h
          exact .interrupted hloop harrival hrunning
        · simp only [Bool.not_eq_true] at hrunning
          rw [poll_of_stopped hrunning _ hsession, Net.changeLink_changeLink] at h
          cases h
          rw [← retreat_of_stopped hrunning ⟨backoff, .polling session deadline⟩]
          exact .failed hloop (.inl ⟨deadline, rfl⟩) harrival
            fun _ hrunning' => absurd (hrunning.symm.trans hrunning') Bool.false_ne_true
      · simp only [harrival, Session.readinessOfFailure_of_ne hcause, hangUp_eq hsession,
          Net.changeLink_changeLink] at h
        cases h
        exact .failed hloop (.inl ⟨deadline, rfl⟩) harrival fun heq => absurd heq hcause
  | nothing =>
      simp only [harrival] at h
      split at h
      · rename_i hdeadline
        by_cases hrunning : client.running = true
        · rw [poll_of_running hrunning] at h
          cases h
          exact .idle hloop harrival hdeadline hrunning
        · simp only [Bool.not_eq_true] at hrunning
          rw [poll_of_stopped hrunning _ hsession] at h
          cases h
          exact .dismissed hloop harrival hdeadline hrunning
      · cases h

theorem turn_of_receiving {backoff : Backoff} {session : Session} {reader : Frame.Reader}
    (hloop : client.loop = some ⟨backoff, .receiving session reader⟩)
    (hsession : (client.session session.link).Continues session)
    (h : client.step now net = some (later, next)) : Turn now net client later next := by
  have hside : session.side = .dialler := hsession.side
  simp only [step, hloop, Session.receive, hside] at h
  cases harrival : (net.link session.link).arrival .dialler with
  | nothing => simp [harrival] at h
  | ended =>
      simp only [harrival, Session.received, hangUp_eq hsession] at h
      cases h
      exact .ended hloop (.inr ⟨reader, rfl⟩) harrival
  | failed cause =>
      simp only [harrival, Session.received, hangUp_eq hsession, Net.changeLink_changeLink] at h
      cases h
      exact .failed hloop (.inr ⟨reader, rfl⟩) harrival fun _ _ => ⟨reader, rfl⟩
  | bytes unread =>
      cases hfeed : reader.feed unread with
      | more following =>
          simp only [harrival, hfeed] at h
          cases h
          exact .more hloop harrival hfeed
      | done result rest =>
          cases result with
          | error error =>
              simp only [harrival, hfeed, Session.received, hangUp_eq hsession,
                Net.changeLink_changeLink] at h
              cases h
              exact .rejected hloop harrival hfeed
          | ok payload =>
              have hcounted : (client.session (session.countReceived payload).link).Continues
                  (session.countReceived payload) :=
                hsession.trans (session.continues_countReceived payload)
              simp only [harrival, hfeed, Session.received, reply_eq hcounted] at h
              cases h
              exact .request hloop harrival hfeed

theorem turn_of_dialling {backoff : Backoff} {dial : Dial}
    (hloop : client.loop = some ⟨backoff, .dialling dial⟩)
    (h : client.step now net = some (later, next)) : Turn now net client later next := by
  simp only [step, hloop] at h
  cases dial.stands now net with
  | connected hattempt houtcome =>
      simp only [houtcome, identify_eq] at h
      cases h
      exact .connected hloop hattempt
  | refused hattempt houtcome =>
      simp only [houtcome] at h
      cases h
      exact .refused hloop (.inl ⟨_, hattempt⟩)
  | abandoned hattempt houtcome =>
      simp only [houtcome] at h
      cases h
      exact .refused hloop (.inr hattempt)
  | expired hattempt hdeadline houtcome =>
      simp only [houtcome] at h
      cases h
      exact .expired hloop hattempt hdeadline
  | waits hattempt hdeadline houtcome => simp [houtcome] at h

theorem turn_of_resting {backoff : Backoff} {seconds : Nat} {wake : Instant}
    (hloop : client.loop = some ⟨backoff, .resting seconds wake⟩)
    (h : client.step now net = some (later, next)) : Turn now net client later next := by
  simp only [step, hloop] at h
  split at h
  · rename_i hwake
    by_cases hmore : client.running = true ∧ 1 < seconds
    · simp only [tick, if_pos hmore] at h
      cases h
      exact .doze hloop hwake hmore.1 hmore.2
    · simp only [tick, if_neg hmore, Option.some.injEq] at h
      refine turn_of_attempt hloop (.again backoff hwake ?_) h
      intro hrunning
      exact Nat.le_of_not_lt fun hsecs => hmore ⟨hrunning, hsecs⟩
  · cases h

/-- Every step of a client is a turn. -/
theorem turn_of_step (hfits : client.Fits) (h : client.step now net = some (later, next)) :
    Turn now net client later next := by
  cases hloop : client.loop with
  | none => simp [step, hloop] at h
  | some loop =>
      obtain ⟨backoff, phase⟩ := loop
      cases phase with
      | starting =>
          simp only [step, hloop, Option.some.injEq] at h
          exact turn_of_attempt hloop (.first backoff) h
      | dialling dial => exact turn_of_dialling hloop h
      | identifying session sending deadline =>
          have hphase : client.loop =
              some ⟨backoff, Outgoing.identity.phase session sending deadline⟩ := hloop
          exact turn_of_outgoing hphase (hfits session (session?_of_loop hloop)) h
      | polling session deadline =>
          exact turn_of_polling hloop (hfits session (session?_of_loop hloop)) h
      | receiving session reader =>
          exact turn_of_receiving hloop (hfits session (session?_of_loop hloop)) h
      | replying session sending deadline =>
          have hphase : client.loop =
              some ⟨backoff, Outgoing.reply.phase session sending deadline⟩ := hloop
          exact turn_of_outgoing hphase (hfits session (session?_of_loop hloop)) h
      | resting seconds wake => exact turn_of_resting hloop h

/-! ## What every turn keeps -/

/-- After an attempt or a session the client sleeps, or its loop is over. -/
theorem retreat_cases (client : CnodeClient) (now : Instant) (loop : ClientLoop) :
    (client.running = true ∧ client.retreat now loop =
      { client with
        state := .connecting
        loop := some ⟨loop.backoff, .resting loop.backoff.current.toNat (now + tickMs)⟩ }) ∨
      client.running = false ∧ client.retreat now loop = client.finishLoop := by
  by_cases hrunning : client.running = true
  · exact .inl ⟨hrunning, retreat_of_running hrunning loop⟩
  · rw [Bool.not_eq_true] at hrunning
    exact .inr ⟨hrunning, retreat_of_stopped hrunning loop⟩

/-- The configuration stays, and the flag is not the loop's to change. -/
theorem Turn.keeps (h : Turn now net client later next) :
    next.config = client.config ∧ next.running = client.running ∧
      next.attached = client.attached := by
  have hretreat : ∀ loop, (client.retreat now loop).config = client.config ∧
      (client.retreat now loop).running = client.running ∧
      (client.retreat now loop).attached = client.attached := by
    intro loop
    rcases retreat_cases client now loop with ⟨_, heq⟩ | ⟨_, heq⟩ <;> rw [heq] <;>
      exact ⟨rfl, rfl, rfl⟩
  cases h <;> first | exact hretreat _ | exact ⟨rfl, rfl, rfl⟩

theorem session?_retreat (client : CnodeClient) (now : Instant) (loop : ClientLoop) :
    (client.retreat now loop).session? = none := by
  rcases retreat_cases client now loop with ⟨_, heq⟩ | ⟨_, heq⟩ <;> rw [heq] <;> rfl

theorem fits_of_none (h : client.session? = none) : client.Fits := by
  intro session hsession
  rw [h] at hsession
  cases hsession

theorem fits_of_some {session : Session} (hsession : client.session? = some session)
    (h : (client.session session.link).Continues session) :
    client.Fits := by
  intro found hfound
  rw [hsession] at hfound
  cases hfound
  exact h

/-- A turn goes on in the session that there was, or in one that the client opens. -/
theorem Turn.fits (h : Turn now net client later next) (hfits : client.Fits) : next.Fits := by
  cases h with
  | quit => exact fits_of_none rfl
  | dial => exact fits_of_none rfl
  | doze => exact fits_of_none rfl
  | refused => exact fits_of_none (session?_retreat _ _ _)
  | expired => exact fits_of_none (session?_retreat _ _ _)
  | connected => exact fits_of_some rfl (Session.continues_holding _ _)
  | @wrote backoff message session sending deadline count link hloop =>
      have hsession : client.session? = some session := by
        rw [session?_of_loop hloop, ClientPhase.session?_outgoing]
      refine fits_of_some ?_ (hfits session hsession)
      rw [session?_of_loop rfl, ClientPhase.session?_outgoing]
  | @sent backoff message session sending deadline count link hloop =>
      have hsession : client.session? = some session := by
        rw [session?_of_loop hloop, ClientPhase.session?_outgoing]
      exact fits_of_some rfl
        ((hfits session hsession).trans (session.continues_countSent sending.length))
  | parted => exact fits_of_none rfl
  | unsent => exact fits_of_none (session?_retreat _ _ _)
  | late => exact fits_of_none (session?_retreat _ _ _)
  | readable hloop =>
      exact fits_of_some rfl (hfits _ (session?_of_loop hloop))
  | idle hloop => exact fits_of_some rfl (hfits _ (session?_of_loop hloop))
  | interrupted hloop => exact fits_of_some rfl (hfits _ (session?_of_loop hloop))
  | dismissed => exact fits_of_none rfl
  | ended => exact fits_of_none (session?_retreat _ _ _)
  | failed => exact fits_of_none (session?_retreat _ _ _)
  | more hloop => exact fits_of_some rfl (hfits _ (session?_of_loop hloop))
  | @request backoff session reader unread payload rest hloop =>
      have hcounted := (hfits _ (session?_of_loop hloop)).trans
        (session.continues_countReceived payload)
      exact fits_of_some rfl (hcounted.trans (Session.continues_holding _ _))
  | rejected => exact fits_of_none (session?_retreat _ _ _)

/-! ## Waiting -/

/-- Why the client has nothing to do until something else happens or time passes. -/
inductive Waits (now : Instant) (net : Net) (client : CnodeClient) : Prop
  | idle (hloop : client.loop = none)
  | dialling {backoff : Backoff} {dial : Dial}
      (hloop : client.loop = some ⟨backoff, .dialling dial⟩)
      (hattempt : (net.attempt dial.attempt).isWaiting = true)
      (hdeadline : now < dial.deadline)
  /-- There is no room for a message. -/
  | outgoing {backoff : Backoff} {message : Outgoing} {session : Session}
      {sending : Session.Sending} {deadline : Option Instant} {link : Link}
      (hloop : client.loop = some ⟨backoff, message.phase session sending deadline⟩)
      (hwrite : (net.link session.link).write .dialler sending.rest = (.wrote 0, link))
      (hpart : 0 < sending.rest.length) (hdeadline : isOver deadline now = false)
  | polling {backoff : Backoff} {session : Session} {deadline : Instant}
      (hloop : client.loop = some ⟨backoff, .polling session deadline⟩)
      (harrival : (net.link session.link).arrival .dialler = .nothing) (hdeadline : now < deadline)
  | receiving {backoff : Backoff} {session : Session} {reader : Frame.Reader}
      (hloop : client.loop = some ⟨backoff, .receiving session reader⟩)
      (harrival : (net.link session.link).arrival .dialler = .nothing)
  | resting {backoff : Backoff} {seconds : Nat} {wake : Instant}
      (hloop : client.loop = some ⟨backoff, .resting seconds wake⟩) (hwake : now < wake)

theorem waits_outgoing {backoff : Backoff} {message : Outgoing} {session : Session}
    {sending : Session.Sending} {deadline : Option Instant}
    (hloop : client.loop = some ⟨backoff, message.phase session sending deadline⟩)
    (hside : session.side = .dialler) (h : client.step now net = none) : Waits now net client := by
  rw [step_outgoing hloop] at h
  cases hwrite : (net.link session.link).write .dialler sending.rest with
  | mk delivery link =>
      simp only [Session.deliver, hside, hwrite] at h
      cases delivery with
      | failed cause => simp at h
      | wrote count =>
          by_cases hall : sending.rest.length ≤ count
          · simp [if_pos hall] at h
          · by_cases hcount : count = 0
            · subst hcount
              simp only [if_neg hall, if_true] at h
              split at h
              · cases h
              · rename_i hover
                rw [Bool.not_eq_true] at hover
                exact .outgoing hloop hwrite (by omega) hover
            · simp [if_neg hall, if_neg hcount] at h

/-- A client that cannot step has one of these reasons to wait. -/
theorem waits_of_step (hfits : client.Fits) (h : client.step now net = none) :
    Waits now net client := by
  cases hloop : client.loop with
  | none => exact .idle hloop
  | some loop =>
      obtain ⟨backoff, phase⟩ := loop
      have hdialler : ∀ session, phase.session? = some session → session.side = .dialler := by
        intro session hsession
        exact (hfits session ((session?_of_loop hloop).trans hsession)).side
      cases phase with
      | starting => simp [step, hloop] at h
      | dialling dial =>
          cases dial.stands now net with
          | waits hattempt hdeadline _ => exact .dialling hloop hattempt hdeadline
          | connected _ houtcome => simp [step, hloop, houtcome] at h
          | refused _ houtcome => simp [step, hloop, houtcome] at h
          | abandoned _ houtcome => simp [step, hloop, houtcome] at h
          | expired _ _ houtcome => simp [step, hloop, houtcome] at h
      | identifying session sending deadline =>
          have hphase : client.loop =
              some ⟨backoff, Outgoing.identity.phase session sending deadline⟩ := hloop
          exact waits_outgoing hphase (hdialler session rfl) h
      | polling session deadline =>
          have hside := hdialler session rfl
          cases harrival : (net.link session.link).arrival .dialler with
          | nothing =>
              refine .polling hloop harrival (Nat.lt_of_not_le fun hdeadline => ?_)
              simp [step, hloop, Session.readiness?, hside, harrival, hdeadline] at h
          | bytes unread => simp [step, hloop, Session.readiness?, hside, harrival] at h
          | ended => simp [step, hloop, Session.readiness?, hside, harrival] at h
          | failed cause =>
              by_cases hcause : cause = .interrupted
              · simp [step, hloop, Session.readiness?, hside, harrival, hcause,
                  Session.readinessOfFailure] at h
              · simp [step, hloop, Session.readiness?, hside, harrival,
                  Session.readinessOfFailure_of_ne hcause] at h
      | receiving session reader =>
          have hside := hdialler session rfl
          cases harrival : (net.link session.link).arrival .dialler with
          | nothing => exact .receiving hloop harrival
          | bytes unread =>
              cases hfeed : reader.feed unread with
              | more following => simp [step, hloop, Session.receive, hside, harrival, hfeed] at h
              | done result rest =>
                  cases result <;>
                    simp [step, hloop, Session.receive, Session.received, hside, harrival,
                      hfeed] at h
          | ended => simp [step, hloop, Session.receive, Session.received, hside, harrival] at h
          | failed cause =>
              simp [step, hloop, Session.receive, Session.received, hside, harrival] at h
      | replying session sending deadline =>
          have hphase : client.loop =
              some ⟨backoff, Outgoing.reply.phase session sending deadline⟩ := hloop
          exact waits_outgoing hphase (hdialler session rfl) h
      | resting seconds wake =>
          refine .resting hloop (Nat.lt_of_not_le fun hwake => ?_)
          simp [step, hloop, hwake] at h

end CnodeClient

end NodeHealth
