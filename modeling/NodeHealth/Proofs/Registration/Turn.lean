import NodeHealth.Proofs.Cnode.Turn
import NodeHealth.Proofs.Message.Request
import NodeHealth.Proofs.Net.Dial
import NodeHealth.Registration

/-!
# The turns of a registration

A registration goes from one point at which it may have to wait to the next.
`Registration.Turn` lists everything that can happen between two of them, with what the
registration saw in the network and what it left there, and `turn_of_step` says that the list
is complete.
-/

namespace NodeHealth

/-- The session that a registration is in. -/
def RegistrationPhase.session? : RegistrationPhase → Option Session
  | starting => none
  | dialling _ _ => none
  | sending session _ _ => some session
  | awaiting session _ _ => some session
  | finished _ => none

/-- Every payload has a frame behind a length of its own. -/
theorem Frame.encode_varint (payload : Bytes) :
    ∃ frame, encode .varint payload = .ok frame ∧ frame ≠ [] := by
  obtain ⟨init, last, hlength, _⟩ := Varint.encode_eq (UInt64.ofNat payload.length)
  refine ⟨init ++ [last] ++ payload, ?_, by simp⟩
  simp only [encode, hlength, bind, Except.bind, pure, Except.pure]

/-- The request is short enough, and it is known where to send it. -/
structure Registrar.Sendable (registrar : Registrar) : Prop where
  short : registrar.request.encodedLength ≤ RegisterRequest.maxLength
  target : registrar.config.target? ≠ none

namespace Registration

/-- The session that the registration opens on a connection. -/
def session (registration : Registration) (link : LinkId) : Session :=
  { link, side := .dialler, framing := .varint, limit := maxResponseLength
    sendTimeoutMs := some registration.timeoutMs }

/-- The session of the registration, if it is in one, is one that it opened. -/
def Fits (registration : Registration) : Prop :=
  ∀ session, registration.phase.session? = some session →
    (registration.session session.link).Continues session

/-- Everything that a registration can do from one point at which it may have to wait to the
next, with the network and the registration after it. -/
inductive Turn (now : Instant) (net : Net) (registration : Registration) :
    Net → Registration → Prop
  /-- The request is too long. -/
  | unfit {error : WireError} (hphase : registration.phase = .starting)
      (hencode : registration.registrar.request.encode = .error error) :
      Turn now net registration net (registration.finish (.error (.encode error)))
  | untargeted {payload : Bytes} (hphase : registration.phase = .starting)
      (hencode : registration.registrar.request.encode = .ok payload)
      (htarget : registration.registrar.config.target? = none) :
      Turn now net registration net (registration.finish (.error .notConfigured))
  /-- The attempt to connect begins. -/
  | dial {payload : Bytes} {host : String} {port : UInt16}
      (hphase : registration.phase = .starting)
      (hencode : registration.registrar.request.encode = .ok payload)
      (htarget : registration.registrar.config.target? = some (host, port)) :
      Turn now net registration (net.seek host port).2
        (registration.enter (.dialling
          ⟨(net.seek host port).1, now + registration.timeoutMs⟩ payload))
  /-- The attempt was refused. -/
  | refused {dial : Dial} {payload : Bytes} {failure : IoFailure}
      (hphase : registration.phase = .dialling dial payload)
      (hattempt : (net.attempt dial.attempt).refusal? = some failure) :
      Turn now net registration net
        (registration.finish (.error (.connection (.io failure))))
  /-- The attempt was given up by somebody. -/
  | abandoned {dial : Dial} {payload : Bytes}
      (hphase : registration.phase = .dialling dial payload)
      (hattempt : net.attempt dial.attempt = .abandoned) :
      Turn now net registration net (registration.finish (.error (.connection .timeout)))
  /-- Nobody has answered in time, and the attempt is given up. -/
  | expired {dial : Dial} {payload : Bytes}
      (hphase : registration.phase = .dialling dial payload)
      (hattempt : (net.attempt dial.attempt).isWaiting = true)
      (hdeadline : dial.deadline ≤ now) :
      Turn now net registration (net.abandon dial.attempt)
        (registration.finish (.error (.connection .timeout)))
  /-- There is a connection, on which the request is to be sent. -/
  | connected {dial : Dial} {payload frame : Bytes} {link : LinkId}
      (hphase : registration.phase = .dialling dial payload)
      (hattempt : net.attempt dial.attempt = .connected link)
      (hframe : Frame.encode .varint payload = .ok frame) :
      Turn now net registration net
        (registration.enter (.sending ((registration.session link).holding frame)
          ⟨frame.length, frame⟩ (some (now + registration.timeoutMs))))
  /-- A part of the request is written. -/
  | wrote {session : Session} {sending : Session.Sending} {deadline : Option Instant}
      {count : Nat} {link : Link}
      (hphase : registration.phase = .sending session sending deadline)
      (hwrite : (net.link session.link).write .dialler sending.rest = (.wrote count, link))
      (hcount : 0 < count) (hpart : count < sending.rest.length) :
      Turn now net registration (net.changeLink session.link fun _ => link)
        (registration.enter (.sending session
          { sending with rest := sending.rest.drop count } deadline))
  /-- The request is written. -/
  | sent {session : Session} {sending : Session.Sending} {deadline : Option Instant}
      {count : Nat} {link : Link}
      (hphase : registration.phase = .sending session sending deadline)
      (hwrite : (net.link session.link).write .dialler sending.rest = (.wrote count, link))
      (hall : sending.rest.length ≤ count) :
      Turn now net registration (net.changeLink session.link fun _ => link)
        (registration.enter (.awaiting (session.countSent sending.length)
          (.start .varint maxResponseLength) (now + registration.timeoutMs)))
  /-- The request cannot be written. -/
  | unsent {session : Session} {sending : Session.Sending} {deadline : Option Instant}
      {cause : IoCause} {link : Link}
      (hphase : registration.phase = .sending session sending deadline)
      (hwrite : (net.link session.link).write .dialler sending.rest = (.failed cause, link)) :
      Turn now net registration (net.changeLink session.link fun _ => link.leave .dialler)
        (registration.finish (.error (.connection (.ofCause cause))))
  /-- There is no room for the request for too long. -/
  | late {session : Session} {sending : Session.Sending} {deadline : Instant} {link : Link}
      (hphase : registration.phase = .sending session sending (some deadline))
      (hwrite : (net.link session.link).write .dialler sending.rest = (.wrote 0, link))
      (hpart : 0 < sending.rest.length) (hdeadline : deadline ≤ now) :
      Turn now net registration (net.changeLink session.link (·.leave .dialler))
        (registration.finish (.error (.connection .timeout)))
  /-- All that has arrived belongs to a response that is not complete. -/
  | more {session : Session} {reader next : Frame.Reader} {deadline : Instant} {unread : Bytes}
      (hphase : registration.phase = .awaiting session reader deadline)
      (harrival : (net.link session.link).arrival .dialler = .bytes unread)
      (hfeed : reader.feed unread = .more next) :
      Turn now net registration (net.changeLink session.link (·.take .dialler unread.length))
        (registration.enter (.awaiting session next deadline))
  /-- A response is complete. -/
  | answered {session : Session} {reader : Frame.Reader} {deadline : Instant}
      {unread payload rest : Bytes}
      (hphase : registration.phase = .awaiting session reader deadline)
      (harrival : (net.link session.link).arrival .dialler = .bytes unread)
      (hfeed : reader.feed unread = .done (.ok payload) rest) :
      Turn now net registration
        (net.changeLink session.link fun link =>
          (link.take .dialler (unread.length - rest.length)).leave .dialler)
        (registration.finish (.ok (.ofPayload payload)))
  /-- What has arrived is no response. -/
  | malformed {session : Session} {reader : Frame.Reader} {deadline : Instant}
      {unread rest : Bytes} {error : WireError}
      (hphase : registration.phase = .awaiting session reader deadline)
      (harrival : (net.link session.link).arrival .dialler = .bytes unread)
      (hfeed : reader.feed unread = .done (.error error) rest) :
      Turn now net registration
        (net.changeLink session.link fun link =>
          (link.take .dialler (unread.length - rest.length)).leave .dialler)
        (registration.finish (.ok .noResponse))
  /-- The other end has hung up. -/
  | ended {session : Session} {reader : Frame.Reader} {deadline : Instant}
      (hphase : registration.phase = .awaiting session reader deadline)
      (harrival : (net.link session.link).arrival .dialler = .ended) :
      Turn now net registration (net.changeLink session.link (·.leave .dialler))
        (registration.finish (.ok .noResponse))
  /-- The connection has failed. -/
  | failed {session : Session} {reader : Frame.Reader} {deadline : Instant} {cause : IoCause}
      (hphase : registration.phase = .awaiting session reader deadline)
      (harrival : (net.link session.link).arrival .dialler = .failed cause) :
      Turn now net registration
        (net.changeLink session.link fun link => (link.report .dialler).leave .dialler)
        (registration.finish (.ok .noResponse))
  /-- Nothing more has come in time. -/
  | silent {session : Session} {reader : Frame.Reader} {deadline : Instant}
      (hphase : registration.phase = .awaiting session reader deadline)
      (harrival : (net.link session.link).arrival .dialler = .nothing)
      (hdeadline : deadline ≤ now) :
      Turn now net registration (net.changeLink session.link (·.leave .dialler))
        (registration.finish (.ok .noResponse))

variable {now : Instant} {net later : Net} {registration next : Registration}

/-! ## The list of turns is complete -/

theorem side_of_fits (hfits : registration.Fits) {session : Session}
    (hsession : registration.phase.session? = some session) : session.side = .dialler :=
  (hfits session hsession).side

theorem close_eq {session : Session} (hside : session.side = .dialler) (net : Net)
    (result : Except RegistrationError RegistrationOutcome) :
    registration.close net session result =
      (net.changeLink session.link (·.leave .dialler), registration.finish result) := by
  rw [close, Session.close, hside]
  rfl

theorem turn_of_starting (hphase : registration.phase = .starting)
    (h : registration.step now net = some (later, next)) :
    Turn now net registration later next := by
  simp only [step, hphase, Option.some.injEq, attempt] at h
  cases hencode : registration.registrar.request.encode with
  | error error =>
      simp only [hencode] at h
      cases h
      exact .unfit hphase hencode
  | ok payload =>
      cases htarget : registration.registrar.config.target? with
      | none =>
          simp only [hencode, htarget] at h
          cases h
          exact .untargeted hphase hencode htarget
      | some target =>
          obtain ⟨host, port⟩ := target
          simp only [hencode, htarget] at h
          cases h
          exact .dial hphase hencode htarget

theorem turn_of_dialling {dial : Dial} {payload : Bytes}
    (hphase : registration.phase = .dialling dial payload)
    (h : registration.step now net = some (later, next)) :
    Turn now net registration later next := by
  simp only [step, hphase] at h
  cases dial.stands now net with
  | @connected link hattempt houtcome =>
      obtain ⟨frame, hframe, _⟩ := Frame.encode_varint payload
      have hprepare : (registration.session link).prepare payload =
          (.ok ⟨frame.length, frame⟩, (registration.session link).holding frame) :=
        Session.prepare_of_encode hframe
      unfold session at hprepare
      simp only [houtcome, announce, hprepare] at h
      cases h
      exact .connected hphase hattempt hframe
  | refused hattempt houtcome =>
      simp only [houtcome] at h
      cases h
      exact .refused hphase hattempt
  | abandoned hattempt houtcome =>
      simp only [houtcome] at h
      cases h
      exact .abandoned hphase hattempt
  | expired hattempt hdeadline houtcome =>
      simp only [houtcome] at h
      cases h
      exact .expired hphase hattempt hdeadline
  | waits hattempt hdeadline houtcome => simp [houtcome] at h

theorem turn_of_sending {session : Session} {sending : Session.Sending}
    {deadline : Option Instant} (hphase : registration.phase = .sending session sending deadline)
    (hfits : registration.Fits) (h : registration.step now net = some (later, next)) :
    Turn now net registration later next := by
  have hsession := hfits session (by rw [hphase]; rfl)
  have hside : session.side = .dialler := hsession.side
  have hreader : ∀ length, (session.countSent length).reader =
      .start .varint maxResponseLength := by
    intro length
    show Frame.Reader.start session.framing session.limit = _
    rw [hsession.framing, hsession.limit]
    rfl
  simp only [step, hphase] at h
  cases hwrite : (net.link session.link).write .dialler sending.rest with
  | mk delivery link =>
      cases delivery with
      | failed cause =>
          simp only [Session.deliver, hside, hwrite, close_eq hside,
            Net.changeLink_changeLink] at h
          cases h
          exact .unsent hphase hwrite
      | wrote count =>
          by_cases hall : sending.rest.length ≤ count
          · simp only [Session.deliver, hside, hwrite, if_pos hall, hreader] at h
            cases h
            exact .sent hphase hwrite hall
          · by_cases hcount : count = 0
            · subst hcount
              simp only [Session.deliver, hside, hwrite, if_neg hall, if_true] at h
              cases deadline with
              | none => simp at h
              | some deadline =>
                  by_cases hdeadline : deadline ≤ now
                  · simp only [Option.any_some, hdeadline, decide_true, if_true,
                      close_eq hside] at h
                    cases h
                    exact .late hphase hwrite (Nat.lt_of_not_le hall) hdeadline
                  · simp [hdeadline] at h
            · simp only [Session.deliver, hside, hwrite, if_neg hall, if_neg hcount] at h
              cases h
              exact .wrote hphase hwrite (Nat.pos_of_ne_zero hcount) (Nat.lt_of_not_le hall)

theorem turn_of_awaiting {session : Session} {reader : Frame.Reader} {deadline : Instant}
    (hphase : registration.phase = .awaiting session reader deadline)
    (hfits : registration.Fits) (h : registration.step now net = some (later, next)) :
    Turn now net registration later next := by
  have hside := side_of_fits hfits (by rw [hphase]; rfl : _ = some session)
  simp only [step, hphase, Session.receive, hside] at h
  cases harrival : (net.link session.link).arrival .dialler with
  | nothing =>
      by_cases hdeadline : deadline ≤ now
      · simp only [harrival, if_pos hdeadline, close_eq hside] at h
        cases h
        exact .silent hphase harrival hdeadline
      · simp [harrival, hdeadline] at h
  | ended =>
      simp only [harrival, Session.received, close_eq hside] at h
      cases h
      exact .ended hphase harrival
  | failed cause =>
      simp only [harrival, Session.received, close_eq hside, Net.changeLink_changeLink] at h
      cases h
      exact .failed hphase harrival
  | bytes unread =>
      cases hfeed : reader.feed unread with
      | more following =>
          simp only [harrival, hfeed] at h
          cases h
          exact .more hphase harrival hfeed
      | done result rest =>
          cases result with
          | error error =>
              simp only [harrival, hfeed, Session.received, close_eq hside,
                Net.changeLink_changeLink] at h
              cases h
              exact .malformed hphase harrival hfeed
          | ok payload =>
              have hcounted : (session.countReceived payload).side = .dialler := hside
              simp only [harrival, hfeed, Session.received, close_eq hcounted] at h
              cases h
              rw [show (session.countReceived payload).link = session.link from rfl,
                Net.changeLink_changeLink]
              exact .answered hphase harrival hfeed

/-- Every step of a registration is a turn. -/
theorem turn_of_step (hfits : registration.Fits)
    (h : registration.step now net = some (later, next)) :
    Turn now net registration later next := by
  cases hphase : registration.phase with
  | starting => exact turn_of_starting hphase h
  | dialling dial payload => exact turn_of_dialling hphase h
  | sending session sending deadline => exact turn_of_sending hphase hfits h
  | awaiting session reader deadline => exact turn_of_awaiting hphase hfits h
  | finished result => simp [step, hphase] at h

/-- A turn leaves the request and its destination alone. -/
theorem Turn.registrar (h : Turn now net registration later next) :
    next.registrar = registration.registrar := by
  cases h <;> rfl

theorem Turn.fits (h : Turn now net registration later next) (hfits : registration.Fits) :
    next.Fits := by
  have hkeeps : ∀ {session later : Session} {phase : RegistrationPhase},
      registration.phase.session? = some session → phase.session? = some later →
        session.Continues later → (registration.enter phase).Fits := by
    intro session later phase hsession hphase hlater other hother
    cases hphase.symm.trans hother
    rw [hlater.link]
    exact (hfits session hsession).trans hlater
  cases h with
  | connected => exact fun _ h => by cases h; exact Session.continues_holding _ _
  | wrote hphase => exact hkeeps (by rw [hphase]; rfl) rfl (.refl _)
  | sent hphase =>
      exact hkeeps (by rw [hphase]; rfl) rfl (Session.continues_countSent _ _)
  | more hphase => exact hkeeps (by rw [hphase]; rfl) rfl (.refl _)
  | _ => exact nofun

/-! ## Where a registration waits -/

theorem not_waits_of_starting (hphase : registration.phase = .starting) :
    registration.step now net ≠ none := by
  simp [step, hphase]

theorem waits_of_dialling {dial : Dial} {payload : Bytes}
    (hphase : registration.phase = .dialling dial payload)
    (h : registration.step now net = none) : now < dial.deadline := by
  simp only [step, hphase] at h
  cases dial.stands now net with
  | waits _ hdeadline _ => exact hdeadline
  | connected _ houtcome => simp [houtcome] at h
  | refused _ houtcome => simp [houtcome] at h
  | abandoned _ houtcome => simp [houtcome] at h
  | expired _ _ houtcome => simp [houtcome] at h

theorem waits_of_sending {session : Session} {sending : Session.Sending} {deadline : Instant}
    (hphase : registration.phase = .sending session sending (some deadline))
    (h : registration.step now net = none) : now < deadline := by
  apply Nat.lt_of_not_le
  intro hdeadline
  simp only [step, hphase] at h
  split at h
  · cases h
  · cases h
  · cases h
  · simp [hdeadline] at h

theorem waits_of_awaiting {session : Session} {reader : Frame.Reader} {deadline : Instant}
    (hphase : registration.phase = .awaiting session reader deadline)
    (hfits : registration.Fits) (h : registration.step now net = none) :
    (net.link session.link).arrival .dialler = .nothing ∧ now < deadline := by
  have hside := side_of_fits hfits (by rw [hphase]; rfl : _ = some session)
  simp only [step, hphase, Session.receive, hside] at h
  cases harrival : (net.link session.link).arrival .dialler with
  | nothing =>
      by_cases hdeadline : deadline ≤ now
      · simp [harrival, hdeadline] at h
      · exact ⟨rfl, Nat.lt_of_not_le hdeadline⟩
  | ended => simp [harrival, Session.received] at h
  | failed cause => simp [harrival, Session.received] at h
  | bytes unread =>
      cases hfeed : reader.feed unread with
      | more following => simp [harrival, hfeed] at h
      | done result rest =>
          cases result <;> simp [harrival, hfeed, Session.received] at h

end Registration

end NodeHealth
