import NodeHealth.Health.Probe
import NodeHealth.Proofs.Cnode.Turn
import NodeHealth.Proofs.Net.Dial

/-!
# The turns of a probe

A probe goes from one point at which it may have to wait to the next. `Probe.Turn` lists
everything that can happen between two of them, with what the probe saw in the network and
what it left there, and `turn_of_step` says that the list is complete.

## Implementation notes

A probe fails in one way for each thing that can go wrong: the attempt is refused or given
up, the request cannot be written, the reply is no frame, the connection ends or fails, and
nothing comes in time. Which of them can happen depends on the
other end, so that they are told apart here and ruled out where that end is known.

-/

namespace NodeHealth

/-- The session that a probe is in. -/
def ProbePhase.session? : ProbePhase → Option Session
  | starting => none
  | dialling _ => none
  | sending session _ _ => some session
  | awaiting session _ _ => some session
  | finished _ => none

namespace Probe

/-- The frame of the request: its length, field 1, and the length of an empty name. -/
def request : Bytes := [2, 0x0A, 0]

/-- The session that a probe opens on a connection. -/
def session (probe : Probe) (link : LinkId) : Session :=
  { link, side := .dialler, framing := .varint, limit := maxReplyLength
    sendTimeoutMs := some probe.timeoutMs }

/-- The session of the probe, if it is in one, is one that it opened. -/
def Fits (probe : Probe) : Prop :=
  ∀ session, probe.phase.session? = some session →
    (probe.session session.link).Continues session

/-- Everything that a probe can do from one point at which it may have to wait to the next,
with the network and the probe after it. -/
inductive Turn (now : Instant) (net : Net) (probe : Probe) : Net → Probe → Prop
  /-- The attempt to connect begins. -/
  | dial (hphase : probe.phase = .starting) :
      Turn now net probe (net.seek probe.host probe.port).2
        ({ probe with started := now }.enter (.dialling
          ⟨(net.seek probe.host probe.port).1, now + probe.timeoutMs⟩))
  /-- The attempt was refused. -/
  | refused {dial : Dial} {failure : IoFailure} (hphase : probe.phase = .dialling dial)
      (hattempt : (net.attempt dial.attempt).refusal? = some failure) :
      Turn now net probe net (probe.fail (.io failure))
  /-- The attempt was given up by somebody. -/
  | abandoned {dial : Dial} (hphase : probe.phase = .dialling dial)
      (hattempt : net.attempt dial.attempt = .abandoned) :
      Turn now net probe net (probe.fail .timeout)
  /-- Nobody has answered in time, and the attempt is given up. -/
  | expired {dial : Dial} (hphase : probe.phase = .dialling dial)
      (hattempt : (net.attempt dial.attempt).isWaiting = true)
      (hdeadline : dial.deadline ≤ now) :
      Turn now net probe (net.abandon dial.attempt) (probe.fail .timeout)
  /-- There is a connection, on which the request is to be sent. -/
  | connected {dial : Dial} {link : LinkId} (hphase : probe.phase = .dialling dial)
      (hattempt : net.attempt dial.attempt = .connected link) :
      Turn now net probe net
        (probe.enter (.sending ((probe.session link).holding request) ⟨request.length, request⟩
          (some (now + probe.timeoutMs))))
  /-- A part of the request is written. -/
  | wrote {session : Session} {sending : Session.Sending} {deadline : Option Instant}
      {count : Nat} {link : Link} (hphase : probe.phase = .sending session sending deadline)
      (hwrite : (net.link session.link).write .dialler sending.rest = (.wrote count, link))
      (hcount : 0 < count) (hpart : count < sending.rest.length) :
      Turn now net probe (net.changeLink session.link fun _ => link)
        (probe.enter (.sending session { sending with rest := sending.rest.drop count } deadline))
  /-- The request is written. -/
  | sent {session : Session} {sending : Session.Sending} {deadline : Option Instant}
      {count : Nat} {link : Link} (hphase : probe.phase = .sending session sending deadline)
      (hwrite : (net.link session.link).write .dialler sending.rest = (.wrote count, link))
      (hall : sending.rest.length ≤ count) :
      Turn now net probe (net.changeLink session.link fun _ => link)
        (probe.enter (.awaiting (session.countSent sending.length)
          (.start .varint maxReplyLength) (now + probe.timeoutMs)))
  /-- The request cannot be written. -/
  | unsent {session : Session} {sending : Session.Sending} {deadline : Option Instant}
      {cause : IoCause} {link : Link} (hphase : probe.phase = .sending session sending deadline)
      (hwrite : (net.link session.link).write .dialler sending.rest = (.failed cause, link)) :
      Turn now net probe (net.changeLink session.link fun _ => link.close .dialler)
        (probe.fail (.ofCause cause))
  /-- There is no room for the request for too long. -/
  | late {session : Session} {sending : Session.Sending} {deadline : Option Instant}
      {link : Link} (hphase : probe.phase = .sending session sending deadline)
      (hwrite : (net.link session.link).write .dialler sending.rest = (.wrote 0, link))
      (hpart : 0 < sending.rest.length) (hdeadline : deadline.any (· ≤ now) = true) :
      Turn now net probe (net.changeLink session.link (·.close .dialler)) (probe.fail .timeout)
  /-- All that has arrived belongs to a reply that is not complete. -/
  | more {session : Session} {reader next : Frame.Reader} {deadline : Instant} {unread : Bytes}
      (hphase : probe.phase = .awaiting session reader deadline)
      (harrival : (net.link session.link).arrival .dialler = .bytes unread)
      (hfeed : reader.feed unread = .more next) :
      Turn now net probe (net.changeLink session.link (·.take .dialler unread.length))
        (probe.enter (.awaiting session next deadline))
  /-- The reply is complete. -/
  | answered {session : Session} {reader : Frame.Reader} {deadline : Instant}
      {unread payload rest : Bytes} (hphase : probe.phase = .awaiting session reader deadline)
      (harrival : (net.link session.link).arrival .dialler = .bytes unread)
      (hfeed : reader.feed unread = .done (.ok payload) rest) :
      Turn now net probe
        (net.changeLink session.link fun link =>
          (link.take .dialler (unread.length - rest.length)).leave .dialler)
        (probe.enter (.finished (.ok
          ⟨HealthResponse.statusNumber? payload, now - probe.started⟩)))
  /-- What has arrived is no reply. -/
  | malformed {session : Session} {reader : Frame.Reader} {deadline : Instant}
      {unread rest : Bytes} {error : WireError}
      (hphase : probe.phase = .awaiting session reader deadline)
      (harrival : (net.link session.link).arrival .dialler = .bytes unread)
      (hfeed : reader.feed unread = .done (.error error) rest) :
      Turn now net probe
        (net.changeLink session.link fun link =>
          (link.take .dialler (unread.length - rest.length)).close .dialler)
        (probe.fail (Session.receiveError error))
  /-- The other end has hung up. -/
  | ended {session : Session} {reader : Frame.Reader} {deadline : Instant}
      (hphase : probe.phase = .awaiting session reader deadline)
      (harrival : (net.link session.link).arrival .dialler = .ended) :
      Turn now net probe (net.changeLink session.link (·.close .dialler)) (probe.fail .closed)
  /-- The connection has failed. -/
  | failed {session : Session} {reader : Frame.Reader} {deadline : Instant} {cause : IoCause}
      (hphase : probe.phase = .awaiting session reader deadline)
      (harrival : (net.link session.link).arrival .dialler = .failed cause) :
      Turn now net probe
        (net.changeLink session.link fun link => (link.report .dialler).close .dialler)
        (probe.fail (Session.receiveError (.io (.ofSystem cause))))
  /-- Nothing more has come in time. -/
  | silent {session : Session} {reader : Frame.Reader} {deadline : Instant}
      (hphase : probe.phase = .awaiting session reader deadline)
      (harrival : (net.link session.link).arrival .dialler = .nothing)
      (hdeadline : deadline ≤ now) :
      Turn now net probe (net.changeLink session.link (·.close .dialler)) (probe.fail .timeout)

variable {now : Instant} {net later : Net} {probe next : Probe}

/-! ## The list is complete -/

theorem side_of_fits (hfits : probe.Fits) {session : Session}
    (hsession : probe.phase.session? = some session) : session.side = .dialler :=
  (hfits session hsession).side

theorem drop_eq {session : Session} (hside : session.side = .dialler) (net : Net) :
    session.drop net = net.changeLink session.link (·.close .dialler) := by
  rw [Session.drop, hside]

theorem finish_eq {session : Session} (hside : session.side = .dialler) (now : Instant)
    (net : Net) (payload : Bytes) :
    probe.finish now net session payload =
      (net.changeLink session.link (·.leave .dialler),
        probe.enter (.finished (.ok
          ⟨HealthResponse.statusNumber? payload, now - probe.started⟩))) := by
  rw [finish, Session.close, hside]
  rfl

/-- The request is short enough to be sent. -/
theorem ask_eq (probe : Probe) (now : Instant) (net : Net) (link : LinkId) :
    probe.ask now net link =
      (net, probe.enter (.sending ((probe.session link).holding request)
        ⟨request.length, request⟩ (some (now + probe.timeoutMs)))) := by
  have hencode : ({} : HealthRequest).encode = .ok [0x0A, 0] := rfl
  have hprepare : (probe.session link).prepare [0x0A, 0] =
      (.ok ⟨request.length, request⟩, (probe.session link).holding request) :=
    Session.prepare_of_encode rfl
  unfold session at hprepare
  simp only [ask, hencode, hprepare]
  rfl

theorem turn_of_starting (hphase : probe.phase = .starting)
    (h : probe.step now net = some (later, next)) : Turn now net probe later next := by
  simp only [step, hphase] at h
  cases h
  exact .dial hphase

theorem turn_of_dialling {dial : Dial} (hphase : probe.phase = .dialling dial)
    (h : probe.step now net = some (later, next)) : Turn now net probe later next := by
  simp only [step, hphase] at h
  cases dial.stands now net with
  | connected hattempt houtcome =>
      simp only [houtcome, ask_eq] at h
      cases h
      exact .connected hphase hattempt
  | refused hattempt houtcome =>
      simp only [houtcome] at h
      cases h
      exact .refused hphase hattempt
  | abandoned hattempt houtcome =>
      simp only [houtcome] at h
      cases h
      exact .abandoned hphase hattempt
  | expired hattempt hdeadline houtcome =>
      simp only [houtcome] at h
      cases h
      exact .expired hphase hattempt hdeadline
  | waits hattempt hdeadline houtcome => simp [houtcome] at h

theorem turn_of_sending {session : Session} {sending : Session.Sending}
    {deadline : Option Instant} (hphase : probe.phase = .sending session sending deadline)
    (hfits : probe.Fits) (h : probe.step now net = some (later, next)) :
    Turn now net probe later next := by
  have hsession := hfits session (by rw [hphase]; rfl)
  have hside := side_of_fits hfits (by rw [hphase]; rfl : _ = some session)
  have hreader : ∀ length, (session.countSent length).reader =
      .start .varint maxReplyLength := by
    intro length
    show Frame.Reader.start session.framing session.limit = _
    rw [hsession.framing, hsession.limit]
    rfl
  simp only [step, hphase] at h
  cases hwrite : (net.link session.link).write .dialler sending.rest with
  | mk delivery link =>
      cases delivery with
      | failed cause =>
          simp only [Session.deliver, hside, hwrite, drop_eq hside,
            Net.changeLink_changeLink] at h
          cases h
          exact .unsent hphase hwrite
      | wrote count =>
          by_cases hall : sending.rest.length ≤ count
          · simp only [Session.deliver, hside, hwrite, if_pos hall, hreader] at h
            cases h
            exact .sent hphase hwrite hall
          · by_cases hcount : count = 0
            · subst hcount
              simp only [Session.deliver, hside, hwrite, if_neg hall, if_true] at h
              split at h
              · rename_i hdeadline
                rw [drop_eq hside] at h
                cases h
                exact .late hphase hwrite (Nat.lt_of_not_le hall) hdeadline
              · cases h
            · simp only [Session.deliver, hside, hwrite, if_neg hall, if_neg hcount] at h
              cases h
              exact .wrote hphase hwrite (Nat.pos_of_ne_zero hcount) (Nat.lt_of_not_le hall)

theorem turn_of_awaiting {session : Session} {reader : Frame.Reader} {deadline : Instant}
    (hphase : probe.phase = .awaiting session reader deadline) (hfits : probe.Fits)
    (h : probe.step now net = some (later, next)) : Turn now net probe later next := by
  have hside := side_of_fits hfits (by rw [hphase]; rfl : _ = some session)
  simp only [step, hphase, Session.receive, hside] at h
  cases harrival : (net.link session.link).arrival .dialler with
  | nothing =>
      by_cases hdeadline : deadline ≤ now
      · simp only [harrival, if_pos hdeadline, drop_eq hside] at h
        cases h
        exact .silent hphase harrival hdeadline
      · simp [harrival, hdeadline] at h
  | ended =>
      simp only [harrival, Session.received, drop_eq hside] at h
      cases h
      exact .ended hphase harrival
  | failed cause =>
      simp only [harrival, Session.received, drop_eq hside, Net.changeLink_changeLink] at h
      cases h
      exact .failed hphase harrival
  | bytes unread =>
      cases hfeed : reader.feed unread with
      | more following =>
          simp only [harrival, hfeed] at h
          cases h
          exact .more hphase harrival hfeed
      | done result rest =>
          cases result with
          | error error =>
              simp only [harrival, hfeed, Session.received, drop_eq hside,
                Net.changeLink_changeLink] at h
              cases h
              exact .malformed hphase harrival hfeed
          | ok payload =>
              have hcounted : (session.countReceived payload).side = .dialler := hside
              have hlink : (session.countReceived payload).link = session.link := rfl
              simp only [harrival, hfeed, Session.received, finish_eq hcounted, hlink,
                Net.changeLink_changeLink] at h
              cases h
              exact .answered hphase harrival hfeed

/-- Every step of a probe is a turn. -/
theorem turn_of_step (hfits : probe.Fits) (h : probe.step now net = some (later, next)) :
    Turn now net probe later next := by
  cases hphase : probe.phase with
  | starting => exact turn_of_starting hphase h
  | dialling dial => exact turn_of_dialling hphase h
  | sending session sending deadline => exact turn_of_sending hphase hfits h
  | awaiting session reader deadline => exact turn_of_awaiting hphase hfits h
  | finished result => simp [step, hphase] at h

/-! ## What every turn keeps -/

/-- A turn leaves the destination and the time for it alone. -/
theorem Turn.timeoutMs (h : Turn now net probe later next) : next.timeoutMs = probe.timeoutMs := by
  cases h <;> rfl

theorem Turn.fits (h : Turn now net probe later next) (hfits : probe.Fits) : next.Fits := by
  have hkeeps : ∀ {session later : Session} {phase : ProbePhase},
      probe.phase.session? = some session → phase.session? = some later →
        session.Continues later → (probe.enter phase).Fits := by
    intro session later phase hsession hphase hlater other hother
    cases hphase.symm.trans hother
    rw [hlater.link]
    exact (hfits session hsession).trans hlater
  cases h with
  | connected => exact fun _ h => by cases h; exact Session.continues_holding _ _
  | wrote hphase => exact hkeeps (by rw [hphase]; rfl) rfl (.refl _)
  | sent hphase =>
      exact hkeeps (by rw [hphase]; rfl) rfl (Session.continues_countSent _ _)
  | more hphase => exact hkeeps (by rw [hphase]; rfl) rfl (.refl _)
  | _ => exact nofun

/-! ## Where a probe waits -/

/-- Why a probe has nothing to do until something else happens or time passes. -/
inductive Waits (now : Instant) (net : Net) (probe : Probe) : Prop
  | dialling {dial : Dial} (hphase : probe.phase = .dialling dial)
      (hattempt : (net.attempt dial.attempt).isWaiting = true) (hdeadline : now < dial.deadline)
  /-- There is no room for the request. -/
  | sending {session : Session} {sending : Session.Sending} {deadline : Option Instant}
      {link : Link} (hphase : probe.phase = .sending session sending deadline)
      (hwrite : (net.link session.link).write .dialler sending.rest = (.wrote 0, link))
      (hpart : 0 < sending.rest.length)
  | awaiting {session : Session} {reader : Frame.Reader} {deadline : Instant}
      (hphase : probe.phase = .awaiting session reader deadline)
      (harrival : (net.link session.link).arrival .dialler = .nothing) (hdeadline : now < deadline)
  | finished {result : Except ConnectionError ProbeReport}
      (hphase : probe.phase = .finished result)

theorem waits_of_dialling {dial : Dial} (hphase : probe.phase = .dialling dial)
    (h : probe.step now net = none) : Waits now net probe := by
  simp only [step, hphase] at h
  cases dial.stands now net with
  | waits hattempt hdeadline _ => exact .dialling hphase hattempt hdeadline
  | connected _ houtcome => simp [houtcome] at h
  | refused _ houtcome => simp [houtcome] at h
  | abandoned _ houtcome => simp [houtcome] at h
  | expired _ _ houtcome => simp [houtcome] at h

theorem waits_of_sending {session : Session} {sending : Session.Sending}
    {deadline : Option Instant} (hphase : probe.phase = .sending session sending deadline)
    (hfits : probe.Fits) (h : probe.step now net = none) : Waits now net probe := by
  have hside := side_of_fits hfits (by rw [hphase]; rfl : _ = some session)
  simp only [step, hphase] at h
  cases hwrite : (net.link session.link).write .dialler sending.rest with
  | mk delivery link =>
      simp only [Session.deliver, hside, hwrite] at h
      cases delivery with
      | failed cause => simp at h
      | wrote count =>
          by_cases hall : sending.rest.length ≤ count
          · simp [if_pos hall] at h
          · by_cases hcount : count = 0
            · subst hcount
              exact .sending hphase hwrite (Nat.lt_of_not_le hall)
            · simp [if_neg hall, if_neg hcount] at h

theorem waits_of_awaiting {session : Session} {reader : Frame.Reader} {deadline : Instant}
    (hphase : probe.phase = .awaiting session reader deadline) (hfits : probe.Fits)
    (h : probe.step now net = none) : Waits now net probe := by
  have hside := side_of_fits hfits (by rw [hphase]; rfl : _ = some session)
  simp only [step, hphase, Session.receive, hside] at h
  cases harrival : (net.link session.link).arrival .dialler with
  | nothing =>
      by_cases hdeadline : deadline ≤ now
      · simp [harrival, hdeadline] at h
      · exact .awaiting hphase harrival (Nat.lt_of_not_le hdeadline)
  | ended => simp [harrival, Session.received] at h
  | failed cause => simp [harrival, Session.received] at h
  | bytes unread =>
      cases hfeed : reader.feed unread with
      | more following => simp [harrival, hfeed] at h
      | done result rest => cases result <;> simp [harrival, hfeed, Session.received] at h

/-- A probe that cannot step has one of these reasons to wait. -/
theorem waits_of_step (hfits : probe.Fits) (h : probe.step now net = none) :
    Waits now net probe := by
  cases hphase : probe.phase with
  | starting => simp [step, hphase] at h
  | dialling dial => exact waits_of_dialling hphase h
  | sending session sending deadline => exact waits_of_sending hphase hfits h
  | awaiting session reader deadline => exact waits_of_awaiting hphase hfits h
  | finished result => exact .finished hphase

end Probe

end NodeHealth
