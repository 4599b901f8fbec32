import NodeHealth.Health.Server
import NodeHealth.Proofs.Cnode.Turn

/-!
# The turns of the health server

The loop of the server goes from one point at which it may have to wait to the next.
`HealthServer.Turn` lists everything that can happen between two of them, and `turn_of_step`
says that the list is complete.

## Implementation notes

A request is over when its frame is complete or refused, when the bytes end, when the
connection fails, or when the deadline has passed. All of these lead to the answer, so that
they differ only in what is taken from the connection before it.

Accepting may fail as often as others let it. As long as the flag is set this changes nothing
but what the server reports, and nothing waits for that.

-/

namespace NodeHealth

/-- The session that the loop of a health server is in. -/
def AcceptPhase.session? : AcceptPhase → Option Session
  | starting => none
  | accepting => none
  | reading session _ _ => some session
  | replying session _ => some session

/-- Whether nothing remains to be done for bytes that were to be written. -/
def Link.Delivery.Ends (bytes : Bytes) : Link.Delivery → Prop
  | wrote count => bytes.length ≤ count
  | failed _ => True

namespace HealthServer

/-- The frame with which every connection is answered: its length, field 1, and its value. -/
def answer : Bytes := [2, 0x08, 1]

/-- The session that a server opens on a connection. -/
def session (link : LinkId) : Session :=
  { link, side := .acceptor, framing := .varint, limit := maxRequestLength }

/-- The session that the server is in. -/
def session? (server : HealthServer) : Option Session :=
  server.loop.bind fun loop => loop.phase.session?

/-- The session that the server is in, if any, is one that it opened. -/
def Fits (server : HealthServer) : Prop :=
  ∀ visit, server.session? = some visit → (session visit.link).Continues visit

/-- The phase in which the answer is being written. -/
def answering (visit : Session) (rest : Bytes) : AcceptPhase :=
  .replying (visit.holding answer) ⟨answer.length, rest⟩

theorem session?_of_loop {server : HealthServer} {loop : AcceptLoop}
    (hloop : server.loop = some loop) : server.session? = loop.phase.session? := by
  simp [session?, hloop]

/-- Everything that the server can do from one point at which it may have to wait to the
next, with the network and the server after it. -/
inductive Turn (now : Instant) (net : Net) (server : HealthServer) : Net → HealthServer → Prop
  | opened {listener : ListenerId} (hloop : server.loop = some ⟨listener, .starting⟩)
      (hrunning : server.running = true) :
      Turn now net server net { server with loop := some ⟨listener, .accepting⟩ }
  /-- The flag is cleared before the loop takes connections. -/
  | closed {listener : ListenerId} (hloop : server.loop = some ⟨listener, .starting⟩)
      (hrunning : server.running = false) :
      Turn now net server (net.closeListener listener) { server with loop := none }
  /-- The loop is told to stop. -/
  | dismissed {listener : ListenerId} {takesOne : Bool}
      (hloop : server.loop = some ⟨listener, .accepting⟩)
      (hsignal : server.signal = .given takesOne)
      (hnone : takesOne = true → net.reception? listener = none) :
      Turn now net server (net.closeListener listener) { server with loop := none }
  /-- The connection that has waited longest is taken. -/
  | accepted {listener : ListenerId} {link : LinkId} {later : Net}
      (hloop : server.loop = some ⟨listener, .accepting⟩)
      (hsignal : server.signal ≠ .given false)
      (haccept : net.reception? listener = some (later, .ok link)) :
      Turn now net server later
        { server with
          loop := some ⟨listener, .reading (session link) (.start .varint maxRequestLength)
            (now + server.config.readTimeoutMs.toNat)⟩ }
  /-- Accepting fails, which is reported unless the failure passes by itself. -/
  | stumbled {listener : ListenerId} {cause : IoCause} {later : Net} {reported : List IoCause}
      (hloop : server.loop = some ⟨listener, .accepting⟩)
      (hsignal : server.signal ≠ .given false)
      (hfails : net.reception? listener = some (later, .error cause))
      (hrunning : server.running = true)
      (hreported : reported =
        if cause.isTransient then server.reported else cause :: server.reported) :
      Turn now net server later { server with reported }
  /-- Accepting fails, and the flag is cleared. -/
  | barred {listener : ListenerId} {cause : IoCause} {later : Net}
      (hloop : server.loop = some ⟨listener, .accepting⟩)
      (hsignal : server.signal ≠ .given false)
      (hfails : net.reception? listener = some (later, .error cause))
      (hrunning : server.running = false) :
      Turn now net server (later.closeListener listener) { server with loop := none }
  /-- All that has arrived belongs to a request that is not complete. -/
  | more {listener : ListenerId} {visit : Session} {reader next : Frame.Reader}
      {deadline : Instant} {unread : Bytes}
      (hloop : server.loop = some ⟨listener, .reading visit reader deadline⟩)
      (harrival : (net.link visit.link).arrival .acceptor = .bytes unread)
      (hfeed : reader.feed unread = .more next) :
      Turn now net server (net.changeLink visit.link (·.take .acceptor unread.length))
        { server with loop := some ⟨listener, .reading visit next deadline⟩ }
  /-- The request is complete. -/
  | heard {listener : ListenerId} {visit : Session} {reader : Frame.Reader}
      {deadline : Instant} {unread payload rest : Bytes}
      (hloop : server.loop = some ⟨listener, .reading visit reader deadline⟩)
      (harrival : (net.link visit.link).arrival .acceptor = .bytes unread)
      (hfeed : reader.feed unread = .done (.ok payload) rest) :
      Turn now net server
        (net.changeLink visit.link (·.take .acceptor (unread.length - rest.length)))
        { server with
          loop := some ⟨listener, answering (visit.countReceived payload) answer⟩ }
  /-- The request is none that the server understands. -/
  | misheard {listener : ListenerId} {visit : Session} {reader : Frame.Reader}
      {deadline : Instant} {unread rest : Bytes} {error : WireError}
      (hloop : server.loop = some ⟨listener, .reading visit reader deadline⟩)
      (harrival : (net.link visit.link).arrival .acceptor = .bytes unread)
      (hfeed : reader.feed unread = .done (.error error) rest) :
      Turn now net server
        (net.changeLink visit.link (·.take .acceptor (unread.length - rest.length)))
        { server with loop := some ⟨listener, answering visit answer⟩ }
  /-- The bytes end within the request. -/
  | ended {listener : ListenerId} {visit : Session} {reader : Frame.Reader}
      {deadline : Instant}
      (hloop : server.loop = some ⟨listener, .reading visit reader deadline⟩)
      (harrival : (net.link visit.link).arrival .acceptor = .ended) :
      Turn now net server net { server with loop := some ⟨listener, answering visit answer⟩ }
  /-- The connection fails within the request. -/
  | failed {listener : ListenerId} {visit : Session} {reader : Frame.Reader}
      {deadline : Instant} {cause : IoCause}
      (hloop : server.loop = some ⟨listener, .reading visit reader deadline⟩)
      (harrival : (net.link visit.link).arrival .acceptor = .failed cause) :
      Turn now net server (net.changeLink visit.link (·.report .acceptor))
        { server with loop := some ⟨listener, answering visit answer⟩ }
  /-- The request did not come in time. -/
  | expired {listener : ListenerId} {visit : Session} {reader : Frame.Reader}
      {deadline : Instant}
      (hloop : server.loop = some ⟨listener, .reading visit reader deadline⟩)
      (harrival : (net.link visit.link).arrival .acceptor = .nothing)
      (hdeadline : deadline ≤ now) :
      Turn now net server net { server with loop := some ⟨listener, answering visit answer⟩ }
  /-- A part of the answer is written. -/
  | wrote {listener : ListenerId} {visit : Session} {sending : Session.Sending} {count : Nat}
      {link : Link} (hloop : server.loop = some ⟨listener, .replying visit sending⟩)
      (hwrite : (net.link visit.link).write .acceptor sending.rest = (.wrote count, link))
      (hcount : 0 < count) (hpart : count < sending.rest.length) :
      Turn now net server (net.changeLink visit.link fun _ => link)
        { server with
          loop := some ⟨listener, .replying visit
            { sending with rest := sending.rest.drop count }⟩ }
  /-- The answer is written or cannot be written, and the connection is closed. -/
  | answered {listener : ListenerId} {visit : Session} {sending : Session.Sending}
      {delivery : Link.Delivery} {link : Link}
      (hloop : server.loop = some ⟨listener, .replying visit sending⟩)
      (hwrite : (net.link visit.link).write .acceptor sending.rest = (delivery, link))
      (hends : delivery.Ends sending.rest) (hrunning : server.running = true) :
      Turn now net server (net.changeLink visit.link fun _ => link.leave .acceptor)
        { server with loop := some ⟨listener, .accepting⟩ }
  /-- The same, and the flag is cleared. -/
  | retired {listener : ListenerId} {visit : Session} {sending : Session.Sending}
      {delivery : Link.Delivery} {link : Link}
      (hloop : server.loop = some ⟨listener, .replying visit sending⟩)
      (hwrite : (net.link visit.link).write .acceptor sending.rest = (delivery, link))
      (hends : delivery.Ends sending.rest) (hrunning : server.running = false) :
      Turn now net server
        ((net.changeLink visit.link fun _ => link.leave .acceptor).closeListener listener)
        { server with loop := none }

/-! ## The list is complete -/

variable {now : Instant} {net later : Net} {server next : HealthServer}

theorem resume_of_running (h : server.running = true) (loop : AcceptLoop) :
    server.resume net loop =
      (net, { server with loop := some ⟨loop.listener, .accepting⟩ }) := by
  unfold resume
  rw [if_pos h]
  rfl

theorem resume_of_stopped (h : server.running = false) (loop : AcceptLoop) :
    server.resume net loop =
      (net.closeListener loop.listener, { server with loop := none }) := by
  unfold resume
  rw [if_neg (by simp [h])]
  rfl

theorem prepare_answer {visit : Session} (h : visit.framing = .varint) :
    visit.prepare HealthResponse.serving.encode =
      (.ok ⟨answer.length, answer⟩, visit.holding answer) := by
  refine Session.prepare_of_encode ?_
  rw [h]
  rfl

theorem reply_eq {visit : Session} (h : visit.framing = .varint) (loop : AcceptLoop) :
    server.reply net loop visit =
      (net, { server with loop := some ⟨loop.listener, answering visit answer⟩ }) := by
  simp only [reply, prepare_answer h]
  rfl

theorem turn_of_starting {listener : ListenerId}
    (hloop : server.loop = some ⟨listener, .starting⟩)
    (h : server.step now net = some (later, next)) : Turn now net server later next := by
  simp only [step, hloop, Option.some.injEq] at h
  by_cases hrunning : server.running = true
  · rw [resume_of_running hrunning] at h
    cases h
    exact .opened hloop hrunning
  · rw [Bool.not_eq_true] at hrunning
    rw [resume_of_stopped hrunning] at h
    cases h
    exact .closed hloop hrunning

theorem accepted_of_running (h : server.running = true) (loop : AcceptLoop) (cause : IoCause) :
    server.accepted now net loop (.error cause) =
      (net, { server with
        reported := if cause.isTransient then server.reported else cause :: server.reported }) := by
  have hflag : ¬¬server.running = true := by simp [h]
  simp only [accepted, if_neg hflag]
  split <;> rfl

theorem accepted_of_stopped (h : server.running = false) (loop : AcceptLoop) (cause : IoCause) :
    server.accepted now net loop (.error cause) =
      (net.closeListener loop.listener, { server with loop := none }) := by
  simp only [accepted, h, Bool.false_eq_true, not_false_eq_true, if_true, finishLoop]

theorem turn_of_reception {listener : ListenerId} {result : Except IoCause LinkId} {taken : Net}
    (hloop : server.loop = some ⟨listener, .accepting⟩) (hsignal : server.signal ≠ .given false)
    (hreception : net.reception? listener = some (taken, result))
    (h : server.accepted now taken ⟨listener, .accepting⟩ result = (later, next)) :
    Turn now net server later next := by
  cases result with
  | ok link =>
      cases h
      exact .accepted hloop hsignal hreception
  | error cause =>
      by_cases hrunning : server.running = true
      · rw [accepted_of_running hrunning] at h
        cases h
        exact .stumbled hloop hsignal hreception hrunning rfl
      · rw [Bool.not_eq_true] at hrunning
        rw [accepted_of_stopped hrunning] at h
        cases h
        exact .barred hloop hsignal hreception hrunning

theorem turn_of_accepting {listener : ListenerId}
    (hloop : server.loop = some ⟨listener, .accepting⟩)
    (h : server.step now net = some (later, next)) : Turn now net server later next := by
  simp only [step, hloop, acceptOrStop] at h
  split at h
  · rename_i hsignal
    cases h
    exact .dismissed hloop hsignal (fun htakes => by cases htakes)
  · rename_i hsignal
    cases hreception : net.reception? listener with
    | none =>
        simp only [hreception] at h
        cases h
        exact .dismissed hloop hsignal (fun _ => hreception)
    | some outcome =>
        simp only [hreception, Option.some.injEq] at h
        exact turn_of_reception hloop (by simp [hsignal]) hreception h
  · rename_i hsignal _
    obtain ⟨outcome, hreception, hnext⟩ := Option.map_eq_some_iff.mp h
    exact turn_of_reception hloop hsignal hreception hnext

theorem turn_of_reading {listener : ListenerId} {visit : Session} {reader : Frame.Reader}
    {deadline : Instant} (hloop : server.loop = some ⟨listener, .reading visit reader deadline⟩)
    (hvisit : (session visit.link).Continues visit)
    (h : server.step now net = some (later, next)) : Turn now net server later next := by
  have hside : visit.side = .acceptor := hvisit.side
  have hframing : visit.framing = .varint := hvisit.framing
  simp only [step, hloop, Session.receive, hside] at h
  cases harrival : (net.link visit.link).arrival .acceptor with
  | nothing =>
      simp only [harrival] at h
      split at h
      · rename_i hdeadline
        rw [reply_eq hframing] at h
        cases h
        exact .expired hloop harrival hdeadline
      · cases h
  | ended =>
      simp only [harrival, Session.received, reply_eq hframing] at h
      cases h
      exact .ended hloop harrival
  | failed cause =>
      simp only [harrival, Session.received, reply_eq hframing] at h
      cases h
      exact .failed hloop harrival
  | bytes unread =>
      cases hfeed : reader.feed unread with
      | more following =>
          simp only [harrival, hfeed] at h
          cases h
          exact .more hloop harrival hfeed
      | done result rest =>
          cases result with
          | error error =>
              simp only [harrival, hfeed, Session.received, reply_eq hframing] at h
              cases h
              exact .misheard hloop harrival hfeed
          | ok payload =>
              have hcounted : (visit.countReceived payload).framing = .varint := hframing
              simp only [harrival, hfeed, Session.received, reply_eq hcounted] at h
              cases h
              exact .heard hloop harrival hfeed

/-- What the loop does behind an answer that is over. -/
theorem turn_of_answered {listener : ListenerId} {visit : Session} {sending : Session.Sending}
    {delivery : Link.Delivery} {link : Link}
    (hloop : server.loop = some ⟨listener, .replying visit sending⟩)
    (hwrite : (net.link visit.link).write .acceptor sending.rest = (delivery, link))
    (hends : delivery.Ends sending.rest)
    (h : server.resume (net.changeLink visit.link fun _ => link.leave .acceptor)
      ⟨listener, .replying visit sending⟩ = (later, next)) : Turn now net server later next := by
  by_cases hrunning : server.running = true
  · rw [resume_of_running hrunning] at h
    cases h
    exact .answered hloop hwrite hends hrunning
  · rw [Bool.not_eq_true] at hrunning
    rw [resume_of_stopped hrunning] at h
    cases h
    exact .retired hloop hwrite hends hrunning

theorem close_eq {visit : Session} (h : visit.side = .acceptor) (net : Net) :
    visit.close net = net.changeLink visit.link (·.leave .acceptor) := by
  simp only [Session.close, h]
  rfl

theorem turn_of_replying {listener : ListenerId} {visit : Session} {sending : Session.Sending}
    (hloop : server.loop = some ⟨listener, .replying visit sending⟩)
    (hvisit : (session visit.link).Continues visit)
    (h : server.step now net = some (later, next)) : Turn now net server later next := by
  have hside : visit.side = .acceptor := hvisit.side
  simp only [step, hloop] at h
  cases hwrite : (net.link visit.link).write .acceptor sending.rest with
  | mk delivery link =>
      simp only [Session.deliver, hside, hwrite] at h
      cases delivery with
      | failed cause =>
          simp only [close_eq hside, Net.changeLink_changeLink, Option.some.injEq] at h
          exact turn_of_answered hloop hwrite trivial h
      | wrote count =>
          by_cases hall : sending.rest.length ≤ count
          · have hcounted : (visit.countSent sending.length).side = .acceptor := hside
            have hlink : (visit.countSent sending.length).link = visit.link := rfl
            simp only [if_pos hall, close_eq hcounted, hlink, Net.changeLink_changeLink,
              Option.some.injEq] at h
            exact turn_of_answered hloop hwrite hall h
          · simp only [if_neg hall] at h
            by_cases hcount : count = 0
            · simp [if_pos hcount] at h
            · simp only [if_neg hcount] at h
              cases h
              exact .wrote hloop hwrite (by omega) (by omega)

/-- Every step of a server is a turn. -/
theorem turn_of_step (hfits : server.Fits) (h : server.step now net = some (later, next)) :
    Turn now net server later next := by
  cases hloop : server.loop with
  | none => simp [step, hloop] at h
  | some loop =>
      obtain ⟨listener, phase⟩ := loop
      cases phase with
      | starting => exact turn_of_starting hloop h
      | accepting => exact turn_of_accepting hloop h
      | reading visit reader deadline =>
          exact turn_of_reading hloop (hfits visit (session?_of_loop hloop)) h
      | replying visit sending =>
          exact turn_of_replying hloop (hfits visit (session?_of_loop hloop)) h

/-! ## The list of turns is exact -/

/-- An answer that is over is delivered, whether it was written or not. -/
theorem deliver_of_ends {visit : Session} {sending : Session.Sending}
    {delivery : Link.Delivery} {link : Link} (hside : visit.side = .acceptor)
    (hwrite : (net.link visit.link).write .acceptor sending.rest = (delivery, link))
    (hends : delivery.Ends sending.rest) :
    ∃ session result, session.side = .acceptor ∧ session.link = visit.link ∧
      visit.deliver net sending =
        .done (net.changeLink visit.link fun _ => link, session, result) := by
  cases delivery with
  | wrote count =>
      have hall : sending.rest.length ≤ count := hends
      refine ⟨visit.countSent sending.length, .ok (), hside, rfl, ?_⟩
      simp only [Session.deliver, hside, hwrite, if_pos hall]
  | failed cause =>
      refine ⟨visit, .error (.ofCause cause), hside, rfl, ?_⟩
      simp only [Session.deliver, hside, hwrite]

theorem step_of_reception {listener : ListenerId} {result : Except IoCause LinkId} {taken : Net}
    (hloop : server.loop = some ⟨listener, .accepting⟩) (hsignal : server.signal ≠ .given false)
    (hreception : net.reception? listener = some (taken, result)) :
    server.step now net = some (server.accepted now taken ⟨listener, .accepting⟩ result) := by
  simp only [step, hloop, acceptOrStop]
  split
  · rename_i hgiven
    exact absurd hgiven hsignal
  · simp only [hreception]
  · simp only [hreception, Option.map_some]

/-- Every turn is a step. -/
theorem Turn.step (h : Turn now net server later next) (hfits : server.Fits) :
    server.step now net = some (later, next) := by
  have hsession : ∀ {listener phase visit}, server.loop = some ⟨listener, phase⟩ →
      phase.session? = some visit → visit.side = .acceptor ∧ visit.framing = .varint := by
    intro listener phase visit hloop hphase
    have hvisit := hfits visit ((session?_of_loop hloop).trans hphase)
    exact ⟨hvisit.side, hvisit.framing⟩
  cases h with
  | opened hloop hrunning => simp only [HealthServer.step, hloop, resume_of_running hrunning]
  | closed hloop hstopped => simp only [HealthServer.step, hloop, resume_of_stopped hstopped]
  | @dismissed _ takesOne hloop hsignal hnone =>
      cases takesOne with
      | false => simp only [HealthServer.step, hloop, acceptOrStop, hsignal, finishLoop]
      | true =>
          simp only [HealthServer.step, hloop, acceptOrStop, hsignal, hnone rfl, finishLoop]
  | accepted hloop hsignal haccept => exact step_of_reception hloop hsignal haccept
  | stumbled hloop hsignal hfails hrunning hreported =>
      rw [step_of_reception hloop hsignal hfails, accepted_of_running hrunning, hreported]
  | barred hloop hsignal hfails hstopped =>
      rw [step_of_reception hloop hsignal hfails, accepted_of_stopped hstopped]
  | more hloop harrival hfeed =>
      obtain ⟨hside, _⟩ := hsession hloop rfl
      simp only [HealthServer.step, hloop, Session.receive, hside, harrival, hfeed]
      rfl
  | @heard _ visit _ _ _ payload _ hloop harrival hfeed =>
      obtain ⟨hside, hframing⟩ := hsession hloop rfl
      have hcounted : (visit.countReceived payload).framing = .varint := hframing
      simp only [HealthServer.step, hloop, Session.receive, hside, harrival, hfeed,
        Session.received, reply_eq hcounted]
  | misheard hloop harrival hfeed =>
      obtain ⟨hside, hframing⟩ := hsession hloop rfl
      simp only [HealthServer.step, hloop, Session.receive, hside, harrival, hfeed,
        Session.received, reply_eq hframing]
  | ended hloop harrival =>
      obtain ⟨hside, hframing⟩ := hsession hloop rfl
      simp only [HealthServer.step, hloop, Session.receive, hside, harrival, Session.received,
        reply_eq hframing]
  | failed hloop harrival =>
      obtain ⟨hside, hframing⟩ := hsession hloop rfl
      simp only [HealthServer.step, hloop, Session.receive, hside, harrival, Session.received,
        reply_eq hframing]
  | expired hloop harrival hdeadline =>
      obtain ⟨hside, hframing⟩ := hsession hloop rfl
      simp only [HealthServer.step, hloop, Session.receive, hside, harrival, if_pos hdeadline,
        reply_eq hframing]
  | wrote hloop hwrite hcount hpart =>
      obtain ⟨hside, _⟩ := hsession hloop rfl
      simp only [HealthServer.step, hloop, Session.deliver, hside, hwrite,
        if_neg (Nat.not_le_of_lt hpart), if_neg (Nat.ne_of_gt hcount)]
      rfl
  | answered hloop hwrite hends hrunning =>
      obtain ⟨hside, _⟩ := hsession hloop rfl
      obtain ⟨closing, result, hclosing, hlink, hdeliver⟩ := deliver_of_ends hside hwrite hends
      simp only [HealthServer.step, hloop, hdeliver, close_eq hclosing, hlink,
        Net.changeLink_changeLink, resume_of_running hrunning]
  | retired hloop hwrite hends hstopped =>
      obtain ⟨hside, _⟩ := hsession hloop rfl
      obtain ⟨closing, result, hclosing, hlink, hdeliver⟩ := deliver_of_ends hside hwrite hends
      simp only [HealthServer.step, hloop, hdeliver, close_eq hclosing, hlink,
        Net.changeLink_changeLink, resume_of_stopped hstopped]

theorem loop_of_step (h : server.step now net = some (later, next)) : server.loop ≠ none := by
  intro hnone
  simp [step, hnone] at h

/-! ## What every turn keeps -/

/-- A turn changes nothing of the server but its loop and what it reports. -/
theorem Turn.keeps (h : Turn now net server later next) :
    next = { server with loop := next.loop, reported := next.reported } := by
  cases h <;> rfl

/-- A server reports no failure that passes by itself. -/
theorem Turn.reports (h : Turn now net server later next)
    (hserver : ∀ cause ∈ server.reported, cause.isTransient = false) :
    ∀ cause ∈ next.reported, cause.isTransient = false := by
  cases h with
  | @stumbled _ cause _ _ _ _ _ _ hreported =>
      rw [hreported]
      split
      · exact hserver
      · rename_i hlasting
        intro found hfound
        rcases List.mem_cons.mp hfound with rfl | hbefore
        · simpa using hlasting
        · exact hserver found hbefore
  | _ => exact hserver

theorem fits_of_none (h : server.session? = none) : server.Fits := by
  intro visit hvisit
  rw [h] at hvisit
  cases hvisit

theorem fits_of_some {visit : Session} (hvisit : server.session? = some visit)
    (h : (session visit.link).Continues visit) : server.Fits := by
  intro found hfound
  rw [hvisit] at hfound
  cases hfound
  exact h

/-- A turn goes on in the session that there was, or in one that the server opens. -/
theorem Turn.fits (h : Turn now net server later next) (hfits : server.Fits) : next.Fits := by
  have hanswering : ∀ {visit : Session} {listener : ListenerId},
      (session visit.link).Continues visit → Fits { server with
        loop := some ⟨listener, answering visit answer⟩ } := fun hvisit =>
    fits_of_some rfl (hvisit.trans (Session.continues_holding _ _))
  have hvisit : ∀ {loop visit}, server.loop = some loop → loop.phase.session? = some visit →
      (session visit.link).Continues visit := fun hloop hphase =>
    hfits _ ((session?_of_loop hloop).trans hphase)
  cases h with
  | opened => exact fits_of_none rfl
  | closed => exact fits_of_none rfl
  | dismissed => exact fits_of_none rfl
  | accepted => exact fits_of_some rfl (.refl _)
  | stumbled hloop => exact fits_of_none (session?_of_loop hloop)
  | barred => exact fits_of_none rfl
  | more hloop => exact fits_of_some rfl (hvisit hloop rfl)
  | heard hloop =>
      exact hanswering ((hvisit hloop rfl).trans (Session.continues_countReceived _ _))
  | misheard hloop => exact hanswering (hvisit hloop rfl)
  | ended hloop => exact hanswering (hvisit hloop rfl)
  | failed hloop => exact hanswering (hvisit hloop rfl)
  | expired hloop => exact hanswering (hvisit hloop rfl)
  | wrote hloop => exact fits_of_some rfl (hvisit hloop rfl)
  | answered => exact fits_of_none rfl
  | retired => exact fits_of_none rfl

/-! ## Waiting -/

/-- Why the server has nothing to do until something else happens or time passes. -/
inductive Waits (now : Instant) (net : Net) (server : HealthServer) : Prop
  | idle (hloop : server.loop = none)
  /-- No connection waits, and nobody has told the loop to stop. -/
  | accepting {listener : ListenerId} (hloop : server.loop = some ⟨listener, .accepting⟩)
      (hsignal : server.signal = .absent ∨ server.signal = .ready)
      (hreception : net.reception? listener = none)
  | reading {listener : ListenerId} {visit : Session} {reader : Frame.Reader}
      {deadline : Instant}
      (hloop : server.loop = some ⟨listener, .reading visit reader deadline⟩)
      (harrival : (net.link visit.link).arrival .acceptor = .nothing)
      (hdeadline : now < deadline)
  /-- There is no room for the answer. -/
  | replying {listener : ListenerId} {visit : Session} {sending : Session.Sending} {link : Link}
      (hloop : server.loop = some ⟨listener, .replying visit sending⟩)
      (hwrite : (net.link visit.link).write .acceptor sending.rest = (.wrote 0, link))
      (hpart : 0 < sending.rest.length)

/-- A server that waits has nothing to do at this instant. -/
theorem Waits.lt_wake (h : Waits now net server) {wake : Instant}
    (hwake : server.wake? = some wake) : now < wake := by
  cases h with
  | idle hloop => simp [wake?, hloop] at hwake
  | accepting hloop => simp [wake?, hloop] at hwake
  | reading hloop _ hdeadline =>
      simp only [wake?, hloop, Option.some.injEq] at hwake
      exact hwake ▸ hdeadline
  | replying hloop => simp [wake?, hloop] at hwake

theorem waits_of_accepting {listener : ListenerId}
    (hloop : server.loop = some ⟨listener, .accepting⟩) (h : server.step now net = none) :
    Waits now net server := by
  simp only [step, hloop, acceptOrStop] at h
  cases hsignal : server.signal with
  | absent => exact .accepting hloop (.inl hsignal) (by simpa [hsignal] using h)
  | ready => exact .accepting hloop (.inr hsignal) (by simpa [hsignal] using h)
  | given takesOne =>
      cases takesOne with
      | false => simp [hsignal] at h
      | true => cases hreception : net.reception? listener <;> simp [hsignal, hreception] at h

theorem waits_of_reading {listener : ListenerId} {visit : Session} {reader : Frame.Reader}
    {deadline : Instant} (hloop : server.loop = some ⟨listener, .reading visit reader deadline⟩)
    (hside : visit.side = .acceptor) (h : server.step now net = none) :
    Waits now net server := by
  simp only [step, hloop, Session.receive, hside] at h
  cases harrival : (net.link visit.link).arrival .acceptor with
  | nothing =>
      refine .reading hloop harrival (Nat.lt_of_not_le fun hdeadline => ?_)
      simp [harrival, hdeadline] at h
  | ended => simp [harrival, Session.received] at h
  | failed cause => simp [harrival, Session.received] at h
  | bytes unread =>
      cases hfeed : reader.feed unread with
      | more following => simp [harrival, hfeed] at h
      | done result rest => cases result <;> simp [harrival, hfeed, Session.received] at h

theorem waits_of_replying {listener : ListenerId} {visit : Session} {sending : Session.Sending}
    (hloop : server.loop = some ⟨listener, .replying visit sending⟩)
    (hside : visit.side = .acceptor) (h : server.step now net = none) :
    Waits now net server := by
  simp only [step, hloop] at h
  cases hwrite : (net.link visit.link).write .acceptor sending.rest with
  | mk delivery link =>
      simp only [Session.deliver, hside, hwrite] at h
      cases delivery with
      | failed cause => simp at h
      | wrote count =>
          by_cases hall : sending.rest.length ≤ count
          · simp [if_pos hall] at h
          · by_cases hcount : count = 0
            · subst hcount
              exact .replying hloop hwrite (by omega)
            · simp [if_neg hall, if_neg hcount] at h

/-- A server that cannot step has one of these reasons to wait. -/
theorem waits_of_step (hfits : server.Fits) (h : server.step now net = none) :
    Waits now net server := by
  cases hloop : server.loop with
  | none => exact .idle hloop
  | some loop =>
      obtain ⟨listener, phase⟩ := loop
      have hacceptor : ∀ visit, phase.session? = some visit → visit.side = .acceptor := by
        intro visit hvisit
        exact (hfits visit ((session?_of_loop hloop).trans hvisit)).side
      cases phase with
      | starting => simp [step, hloop] at h
      | accepting => exact waits_of_accepting hloop h
      | reading visit reader deadline => exact waits_of_reading hloop (hacceptor visit rfl) h
      | replying visit sending => exact waits_of_replying hloop (hacceptor visit rfl) h

end HealthServer

end NodeHealth
