import NodeHealth.Proofs.Mock.Stages

/-!
# Sessions of the mock server among others

`MockSession.Turn` lists everything that a session of the mock server can do from one point at
which it may have to wait to the next, whatever the client does. An `Interview` is a server
that serves one client after the other, the network that it shares with others, and the time.
`Interview.Sound` is the bookkeeping: a connection that waits has not been touched by the
server, and the one that it has taken does not wait any more.

## Implementation notes

The server waits for the announcement and for a reply in the same way, and differs only in
what it expects and in what it says if that does not come. `MockSession.Awaited` is that
difference, so that both are one turn.

-/

namespace NodeHealth

namespace MockSession

/-- What the server waits for: the announcement, or the reply to a request behind so many that
were answered. -/
inductive Awaited
  | identity
  | reply (done : Nat)

namespace Awaited

/-- The phase in which it is waited for. -/
def phase (awaited : Awaited) (session : Session) (reader : Frame.Reader)
    (deadline : Instant) : MockPhase :=
  match awaited with
  | identity => .identifying session reader deadline
  | reply done => .awaiting session reader deadline done

/-- The number that has to come in field 1. -/
def number : Awaited → UInt64
  | identity => 13
  | reply _ => 1

/-- What is said of another number, or of none. -/
def complaint : Awaited → Option UInt64 → MockError
  | identity => .wrongNodeType
  | reply _ => .wrongStatus

/-- The number of requests that were answered before. -/
def done : Awaited → Nat
  | identity => 0
  | reply done => done

/-- The number of requests that were sent, which are answered if the right number comes. -/
def asked : Awaited → Nat
  | identity => 0
  | reply done => done + 1

theorem session?_phase (awaited : Awaited) (session : Session) (reader : Frame.Reader)
    (deadline : Instant) : (awaited.phase session reader deadline).session? = some session := by
  cases awaited <;> rfl

end Awaited

theorem Awaited.asked_sub_one (awaited : Awaited) : awaited.asked - 1 = awaited.done := by
  cases awaited <;> rfl

/-- Everything that a session can do from one point at which it may have to wait to the next,
with the network and the session after it. -/
inductive Turn (now : Instant) (net : Net) (mock : MockSession) : Net × MockSession → Prop
  /-- The connection that has waited longest is taken. -/
  | accepted {link : LinkId} {later : Net} (hphase : mock.phase = .accepting)
      (haccept : net.reception? mock.listener = some (later, .ok link)) :
      Turn now net mock (later, mock.greet now link)
  /-- No connection can be taken. -/
  | turnedAway {cause : IoCause} {later : Net} (hphase : mock.phase = .accepting)
      (hfails : net.reception? mock.listener = some (later, .error cause)) :
      Turn now net mock (later, mock.enter (.turnedAway (.ofSystem cause)))
  /-- All that has arrived belongs to a frame that is not complete. -/
  | more {awaited : Awaited} {session : Session} {reader next : Frame.Reader}
      {deadline : Instant} {unread : Bytes}
      (hphase : mock.phase = awaited.phase session reader deadline)
      (harrival : (net.link session.link).arrival .acceptor = .bytes unread)
      (hfeed : reader.feed unread = .more next) :
      Turn now net mock (net.changeLink session.link (·.take .acceptor unread.length),
        mock.enter (awaited.phase session next deadline))
  /-- The frame is complete and right. -/
  | right {awaited : Awaited} {session : Session} {reader : Frame.Reader}
      {deadline : Instant} {unread payload rest : Bytes}
      (hphase : mock.phase = awaited.phase session reader deadline)
      (harrival : (net.link session.link).arrival .acceptor = .bytes unread)
      (hfeed : reader.feed unread = .done (.ok payload) rest)
      (hnumber : leadingNumber? payload = some awaited.number) :
      Turn now net mock (mock.proceed now
        (net.changeLink session.link (·.take .acceptor (unread.length - rest.length)))
        (session.countReceived payload) awaited.asked)
  /-- The frame is complete and wrong. -/
  | wrong {awaited : Awaited} {session : Session} {reader : Frame.Reader}
      {deadline : Instant} {unread payload rest : Bytes}
      (hphase : mock.phase = awaited.phase session reader deadline)
      (harrival : (net.link session.link).arrival .acceptor = .bytes unread)
      (hfeed : reader.feed unread = .done (.ok payload) rest)
      (hnumber : leadingNumber? payload ≠ some awaited.number) :
      Turn now net mock
        (net.changeLink session.link fun link =>
          (link.take .acceptor (unread.length - rest.length)).leave .acceptor,
        mock.enter (.finished (.error (awaited.complaint (leadingNumber? payload)))))
  /-- The frame is refused for its length. -/
  | refused {awaited : Awaited} {session : Session} {reader : Frame.Reader}
      {deadline : Instant} {unread rest : Bytes} {error : WireError}
      (hphase : mock.phase = awaited.phase session reader deadline)
      (harrival : (net.link session.link).arrival .acceptor = .bytes unread)
      (hfeed : reader.feed unread = .done (.error error) rest) :
      Turn now net mock
        (net.changeLink session.link fun link =>
          (link.take .acceptor (unread.length - rest.length)).leave .acceptor,
        mock.enter (.finished
          (resultOfFailure mock.options awaited.done (Session.receiveError error))))
  /-- The client has hung up. -/
  | ended {awaited : Awaited} {session : Session} {reader : Frame.Reader}
      {deadline : Instant} (hphase : mock.phase = awaited.phase session reader deadline)
      (harrival : (net.link session.link).arrival .acceptor = .ended) :
      Turn now net mock (net.changeLink session.link (·.leave .acceptor),
        mock.enter (.finished (resultOfFailure mock.options awaited.done .closed)))
  /-- The connection has failed. -/
  | failed {awaited : Awaited} {session : Session} {reader : Frame.Reader}
      {deadline : Instant} {cause : IoCause}
      (hphase : mock.phase = awaited.phase session reader deadline)
      (harrival : (net.link session.link).arrival .acceptor = .failed cause) :
      Turn now net mock
        (net.changeLink session.link fun link => (link.report .acceptor).leave .acceptor,
        mock.enter (.finished (resultOfFailure mock.options awaited.done
          (.protocol (.io (.ofSystem cause))))))
  /-- Nothing more has come in time. -/
  | late {awaited : Awaited} {session : Session} {reader : Frame.Reader}
      {deadline : Instant} (hphase : mock.phase = awaited.phase session reader deadline)
      (harrival : (net.link session.link).arrival .acceptor = .nothing)
      (hdeadline : deadline ≤ now) :
      Turn now net mock (net.changeLink session.link (·.leave .acceptor),
        mock.enter (.finished (resultOfFailure mock.options awaited.done .timeout)))
  /-- The pause before the next request is over. -/
  | resumed {session : Session} {done : Nat} {wake : Instant}
      (hphase : mock.phase = .pausing session done wake) (hwake : wake ≤ now) :
      Turn now net mock (net, mock.enter
        (.requesting (session.holding question) ⟨6, question⟩ (session.sendDeadline now) done))
  /-- A part of the request is written. -/
  | wrote {session : Session} {sending : Session.Sending} {deadline : Option Instant}
      {done count : Nat} {link : Link}
      (hphase : mock.phase = .requesting session sending deadline done)
      (hwrite : (net.link session.link).write .acceptor sending.rest = (.wrote count, link))
      (hpart : count < sending.rest.length) (hcount : 0 < count) :
      Turn now net mock (net.changeLink session.link fun _ => link,
        mock.enter (.requesting session
          { sending with rest := sending.rest.drop count } deadline done))
  /-- The request is written. -/
  | sent {session : Session} {sending : Session.Sending} {deadline : Option Instant}
      {done count : Nat} {link : Link}
      (hphase : mock.phase = .requesting session sending deadline done)
      (hwrite : (net.link session.link).write .acceptor sending.rest = (.wrote count, link))
      (hall : sending.rest.length ≤ count) :
      Turn now net mock (net.changeLink session.link fun _ => link,
        mock.enter (.awaiting (session.countSent sending.length) reader
          (now + mock.options.timeoutMs) done))
  /-- The request cannot be written. -/
  | unsent {session : Session} {sending : Session.Sending} {deadline : Option Instant}
      {done : Nat} {cause : IoCause} {link : Link}
      (hphase : mock.phase = .requesting session sending deadline done)
      (hwrite : (net.link session.link).write .acceptor sending.rest = (.failed cause, link)) :
      Turn now net mock (net.changeLink session.link fun _ => link.leave .acceptor,
        mock.enter (.finished (resultOfFailure mock.options done (.ofCause cause))))
  /-- There is no room for the request for too long. -/
  | stuck {session : Session} {sending : Session.Sending} {deadline : Instant} {done : Nat}
      (hphase : mock.phase = .requesting session sending (some deadline) done)
      (hdeadline : deadline ≤ now) (hpart : 0 < sending.rest.length)
      (hfull : (net.link session.link).writable .acceptor sending.rest.length = 0) :
      Turn now net mock (net.changeLink session.link (·.leave .acceptor),
        mock.enter (.finished (resultOfFailure mock.options done .timeout)))

variable {now : Instant} {net : Net} {mock : MockSession} {session : Session}
  {result : Net × MockSession}

/-! ## The list of turns is complete -/

/-- The session of the server, if it is in one, is one that it opened. -/
def Fits (mock : MockSession) : Prop :=
  ∀ session, mock.session? = some session → mock.Has session.link session

theorem wake?_of_awaited {awaited : Awaited} {reader : Frame.Reader} {deadline : Instant}
    (h : mock.phase = awaited.phase session reader deadline) : mock.wake? = some deadline := by
  cases awaited <;> simp only [wake?, h, Awaited.phase]

theorem session_of_awaited {awaited : Awaited} {visit : Session} {reader : Frame.Reader}
    {deadline : Instant} (h : mock.phase = awaited.phase visit reader deadline)
    (hsession : mock.session? = some session) : visit = session := by
  rw [session?, h, Awaited.session?_phase] at hsession
  exact Option.some.inj hsession

theorem session_of_requesting {visit : Session} {sending : Session.Sending}
    {deadline : Option Instant} {done : Nat}
    (h : mock.phase = .requesting visit sending deadline done)
    (hsession : mock.session? = some session) : visit = session := by
  rw [session?, h] at hsession
  exact Option.some.inj hsession

theorem mapError_session_inj {outcome other : Except MockError Nat}
    (h : outcome.mapError ServeError.session = other.mapError .session) : outcome = other := by
  cases outcome <;> cases other <;> cases h <;> rfl

/-- A session that has ended did so with a client, or there was none. -/
theorem phase_cases_of_result {outcome : Except ServeError Nat}
    (h : mock.result? = some outcome) :
    (∃ result, mock.phase = .finished result ∧ outcome = result.mapError .session) ∨
      ∃ failure, mock.phase = .turnedAway failure ∧ outcome = .error (.accept failure) := by
  unfold result? at h
  cases hphase : mock.phase with
  | finished result =>
      simp only [hphase, Option.some.injEq] at h
      exact .inl ⟨result, rfl, h.symm⟩
  | turnedAway failure =>
      simp only [hphase, Option.some.injEq] at h
      exact .inr ⟨failure, rfl, h.symm⟩
  | _ => simp [hphase] at h

theorem phase_of_result {outcome : Except MockError Nat}
    (h : mock.result? = some (outcome.mapError .session)) : mock.phase = .finished outcome := by
  rcases phase_cases_of_result h with ⟨found, hphase, hsame⟩ | ⟨_, _, hsame⟩
  · rw [hphase, mapError_session_inj hsame]
  · cases outcome <;> cases hsame

/-- Go on with a frame that was waited for. -/
def check (mock : MockSession) (now : Instant) (net : Net) (session : Session)
    (awaited : Awaited) (payload : Bytes) : Net × MockSession :=
  if leadingNumber? payload = some awaited.number then mock.proceed now net session awaited.asked
  else mock.finish net session (.error (awaited.complaint (leadingNumber? payload)))

theorem checkIdentity_eq (mock : MockSession) (now : Instant) (net : Net) (session : Session)
    (payload : Bytes) :
    mock.checkIdentity now net session payload = mock.check now net session .identity payload := by
  have hnumber : (Identity.decode? payload).map Identity.nodeType = leadingNumber? payload := by
    simp [Identity.decode?, Option.map_map, Function.comp_def]
  simp only [checkIdentity, hnumber]
  rfl

theorem ofNumber?_eq_serving (status : Option UInt64) :
    status.bind ServingStatus.ofNumber? = some .serving ↔ status = some 1 := by
  cases status with
  | none => simp
  | some number =>
      simp only [Option.bind_some, ServingStatus.ofNumber?, Option.some.injEq]
      by_cases hone : number = 1
      · simp [hone]
      · by_cases htwo : number = 2 <;> simp [hone, htwo]

theorem checkReply_eq (mock : MockSession) (now : Instant) (net : Net) (session : Session)
    (done : Nat) (payload : Bytes) :
    mock.checkReply now net session done payload =
      mock.check now net session (.reply done) payload := by
  simp only [checkReply, HealthResponse.statusNumber?, ofNumber?_eq_serving]
  rfl

/-- Without a request that was answered, every failure is an error. -/
theorem resultOfFailure_zero (options : MockOptions) (error : ConnectionError) :
    resultOfFailure options 0 error = .error (.connection error) := by
  simp [resultOfFailure]

/-- A client hangs up after some answered requests, and it was free to do so. -/
def HangUp (options : MockOptions) (done : Nat) (error : ConnectionError) : Prop :=
  options.count = 0 ∧ 0 < done ∧ (error = .closed ∨ ∃ failure, error = .io failure)

/-- Whatever fails is an error, except that a hang-up ends a session without a set number of
requests. -/
theorem resultOfFailure_cases (options : MockOptions) (done : Nat) (error : ConnectionError) :
    (HangUp options done error ∧ resultOfFailure options done error = .ok done) ∨
      ¬HangUp options done error ∧
        resultOfFailure options done error = .error (.connection error) := by
  by_cases hfree : HangUp options done error
  · refine .inl ⟨hfree, ?_⟩
    obtain ⟨hcount, hdone, rfl | ⟨failure, rfl⟩⟩ := hfree <;>
      simp [resultOfFailure, hcount, hdone]
  · refine .inr ⟨hfree, if_neg ?_⟩
    rintro ⟨hcount, hdone, hhungUp⟩
    cases error with
    | closed => exact hfree ⟨hcount, hdone, .inl rfl⟩
    | io failure => exact hfree ⟨hcount, hdone, .inr ⟨failure, rfl⟩⟩
    | protocol error => cases hhungUp
    | timeout => cases hhungUp

theorem resultOfFailure_timeout (options : MockOptions) (done : Nat) :
    resultOfFailure options done .timeout = .error (.connection .timeout) := by
  simp [resultOfFailure]

theorem resultOfFailure_protocol (options : MockOptions) (done : Nat) (error : WireError) :
    resultOfFailure options done (.protocol error) = .error (.connection (.protocol error)) := by
  simp [resultOfFailure]

theorem step_awaited {awaited : Awaited} {reader : Frame.Reader} {deadline : Instant}
    (hphase : mock.phase = awaited.phase session reader deadline) :
    mock.step now net =
      match session.receive net reader with
      | .done (net, session, .ok payload) => some (mock.check now net session awaited payload)
      | .done (net, session, .error error) => some (mock.fail net session awaited.done error)
      | .advanced (net, reader) => some (net, mock.enter (awaited.phase session reader deadline))
      | .blocked =>
          if deadline ≤ now then some (mock.fail net session awaited.done .timeout) else none := by
  cases awaited with
  | identity =>
      rcases hreceive : session.receive net reader with _ | _ | ⟨_, _, _ | _⟩ <;>
        simp only [step, hphase, hreceive, Awaited.phase, Awaited.done, checkIdentity_eq, fail,
          resultOfFailure_zero]
  | reply done =>
      rcases hreceive : session.receive net reader with _ | _ | ⟨_, _, _ | _⟩ <;>
        simp only [step, hphase, hreceive, Awaited.phase, Awaited.done, checkReply_eq]

theorem finish_eq (hside : session.side = .acceptor) (net : Net)
    (outcome : Except MockError Nat) :
    mock.finish net session outcome =
      (net.changeLink session.link (·.leave .acceptor), mock.enter (.finished outcome)) := by
  rw [finish, Session.close, hside]
  rfl

/-- After so many answered requests the session ends, pauses, or begins with the first. -/
theorem proceed_cases (hframing : session.framing = .fixed32) (done : Nat) :
    (mock.options.limit ≤ done ∧ mock.proceed now net session done =
        mock.finish net session (.ok done)) ∨
      (done < mock.options.limit ∧ 0 < done ∧ mock.proceed now net session done =
        (net, mock.enter (.pausing session done (now + mock.options.intervalMs)))) ∨
      done < mock.options.limit ∧ done = 0 ∧ mock.proceed now net session done =
        (net, mock.enter (.requesting (session.holding question) ⟨6, question⟩
          (session.sendDeadline now) done)) := by
  by_cases hlimit : mock.options.limit ≤ done
  · exact .inl ⟨hlimit, by simp only [proceed, if_pos hlimit]⟩
  · have hlt := Nat.lt_of_not_le hlimit
    by_cases hdone : 0 < done
    · exact .inr (.inl ⟨hlt, hdone, by simp only [proceed, if_neg hlimit, if_pos hdone]⟩)
    · refine .inr (.inr ⟨hlt, Nat.eq_zero_of_not_pos hdone, ?_⟩)
      simp only [proceed, if_neg hlimit, if_neg hdone, request_eq hframing]

theorem turn_of_awaited {awaited : Awaited} {reader : Frame.Reader} {deadline : Instant}
    (hphase : mock.phase = awaited.phase session reader deadline) (hfits : mock.Fits)
    (h : mock.step now net = some result) : mock.Turn now net result := by
  have hside : session.side = .acceptor :=
    (hfits session (by rw [session?, hphase, Awaited.session?_phase])).side
  rw [step_awaited hphase] at h
  simp only [Session.receive, hside] at h
  cases harrival : (net.link session.link).arrival .acceptor with
  | nothing =>
      by_cases hdeadline : deadline ≤ now
      · simp only [harrival, if_pos hdeadline, fail, finish_eq hside] at h
        cases h
        exact .late hphase harrival hdeadline
      · simp [harrival, hdeadline] at h
  | ended =>
      simp only [harrival, Session.received, fail, finish_eq hside] at h
      cases h
      exact .ended hphase harrival
  | failed cause =>
      simp only [harrival, Session.received, fail, finish_eq hside,
        Net.changeLink_changeLink] at h
      cases h
      exact .failed hphase harrival
  | bytes unread =>
      cases hfeed : reader.feed unread with
      | more following =>
          simp only [harrival, hfeed] at h
          cases h
          exact .more hphase harrival hfeed
      | done found rest =>
          cases found with
          | error error =>
              simp only [harrival, hfeed, Session.received, fail, finish_eq hside,
                Net.changeLink_changeLink] at h
              cases h
              exact .refused hphase harrival hfeed
          | ok payload =>
              have hcounted : (session.countReceived payload).side = .acceptor := hside
              by_cases hnumber : leadingNumber? payload = some awaited.number
              · simp only [harrival, hfeed, Session.received, check, if_pos hnumber] at h
                cases h
                exact .right hphase harrival hfeed hnumber
              · simp only [harrival, hfeed, Session.received, check, if_neg hnumber,
                  finish_eq hcounted] at h
                cases h
                rw [show (session.countReceived payload).link = session.link from rfl,
                  Net.changeLink_changeLink]
                exact .wrong hphase harrival hfeed hnumber

theorem turn_of_requesting {sending : Session.Sending} {deadline : Option Instant} {done : Nat}
    (hphase : mock.phase = .requesting session sending deadline done) (hfits : mock.Fits)
    (h : mock.step now net = some result) : mock.Turn now net result := by
  have hhas := hfits session (by rw [session?, hphase]; rfl)
  have hside := hhas.side
  have hreader : ∀ length, (session.countSent length).reader = reader := by
    intro length
    exact (hhas.sent length).reader_eq
  simp only [step, hphase] at h
  cases hwrite : (net.link session.link).write .acceptor sending.rest with
  | mk delivery link =>
      cases delivery with
      | failed cause =>
          simp only [Session.deliver, hside, hwrite, fail, finish_eq hside,
            Net.changeLink_changeLink] at h
          cases h
          exact .unsent hphase hwrite
      | wrote count =>
          by_cases hall : sending.rest.length ≤ count
          · simp only [Session.deliver, hside, hwrite, if_pos hall, hreader] at h
            cases h
            exact .sent hphase hwrite hall
          · by_cases hcount : count = 0
            · subst hcount
              simp only [Session.deliver, hside, hwrite, if_neg hall, if_true] at h
              cases deadline with
              | none => simp at h
              | some deadline =>
                  by_cases hdeadline : deadline ≤ now
                  · simp only [Option.any_some, hdeadline, decide_true, if_true, fail,
                      finish_eq hside] at h
                    cases h
                    exact .stuck hphase hdeadline (Nat.lt_of_not_le hall)
                      (Link.write_wrote_eq hwrite).2.2.2.symm
                  · simp [hdeadline] at h
            · simp only [Session.deliver, hside, hwrite, if_neg hall, if_neg hcount] at h
              cases h
              exact .wrote hphase hwrite (Nat.lt_of_not_le hall) (Nat.pos_of_ne_zero hcount)

/-- Every step of a session is a turn. -/
theorem turn_of_step (hfits : mock.Fits) (h : mock.step now net = some result) :
    mock.Turn now net result := by
  cases hphase : mock.phase with
  | accepting =>
      simp only [step, hphase, Option.map_eq_some_iff] at h
      obtain ⟨⟨later, cause | link⟩, hreception, rfl⟩ := h
      · exact .turnedAway hphase hreception
      · exact .accepted hphase hreception
  | identifying session reader deadline =>
      have hawaited : mock.phase = Awaited.identity.phase session reader deadline := hphase
      exact turn_of_awaited hawaited hfits h
  | pausing session done wake =>
      have hframing := (hfits session (by rw [session?, hphase]; rfl)).framing
      by_cases hwake : wake ≤ now
      · simp only [step, hphase, if_pos hwake, request_eq hframing] at h
        cases h
        exact .resumed hphase hwake
      · simp [step, hphase, hwake] at h
  | requesting session sending deadline done => exact turn_of_requesting hphase hfits h
  | awaiting session reader deadline done =>
      have hawaited : mock.phase = (Awaited.reply done).phase session reader deadline := hphase
      exact turn_of_awaited hawaited hfits h
  | finished outcome => simp [step, hphase] at h
  | turnedAway failure => simp [step, hphase] at h

theorem fits_of_none (h : mock.session? = none) : mock.Fits := by
  intro session hsession
  cases h.symm.trans hsession

theorem Turn.fits (h : mock.Turn now net result) (hfits : mock.Fits) : result.2.Fits := by
  have hawaited : ∀ {awaited : Awaited} {session : Session} {reader : Frame.Reader}
      {deadline : Instant}, mock.phase = awaited.phase session reader deadline →
        mock.Has session.link session := by
    intro awaited session reader deadline hphase
    exact hfits session (by rw [session?, hphase, Awaited.session?_phase])
  have henter : ∀ {session : Session} {phase : MockPhase}, phase.session? = some session →
      mock.Has session.link session → (mock.enter phase).Fits := by
    intro session phase hphase hhas other hother
    cases hphase.symm.trans hother
    exact hhas
  cases h with
  | accepted => exact henter rfl (.refl _)
  | more hphase => exact henter (Awaited.session?_phase _ _ _ _) (hawaited hphase)
  | @right awaited session _ _ _ payload _ hphase =>
      have hhas : mock.Has session.link (session.countReceived payload) :=
        (hawaited hphase).heard payload
      rcases proceed_cases hhas.framing awaited.asked with ⟨_, heq⟩ | ⟨_, _, heq⟩ | ⟨_, _, heq⟩
      · rw [heq]
        exact fits_of_none rfl
      · rw [heq]
        exact henter rfl hhas
      · rw [heq]
        exact henter rfl (hhas.holding question)
  | resumed hphase =>
      have hhas := hfits _ (by rw [session?, hphase]; rfl)
      exact henter rfl (hhas.holding question)
  | wrote hphase => exact henter rfl (hfits _ (by rw [session?, hphase]; rfl))
  | @sent session _ _ _ _ _ hphase =>
      have hhas := hfits session (by rw [session?, hphase]; rfl)
      exact henter rfl (hhas.sent _)
  | _ => exact fits_of_none rfl

end MockSession

/-! ## A server that serves one client after the other -/

/-- A mock server among others. -/
structure Interview where
  now : Instant
  net : Net
  mock : MockSession
  /-- The connection of the session, which stays when the session has ended. -/
  link : Option LinkId := none

namespace Interview

/-- The connections that wait for the server. -/
def queue (scene : Interview) : List LinkId :=
  scene.net.queue scene.mock.listener

/-- What the server holds: the listener, and its ends of the connections that wait there and of
the one that it has taken. -/
def holdings (scene : Interview) : Net.Holdings where
  ends := fun link side => side = .acceptor ∧ (link ∈ scene.queue ∨ scene.link = some link)
  attempts := fun _ => False
  listeners := (· = scene.mock.listener)

/-- The interview after a step of the server. -/
def after (scene : Interview) (net : Net) (mock : MockSession) : Interview :=
  { scene with net, mock, link := (mock.session?.map Session.link).or scene.link }

/-- One change of an interview. -/
inductive Move (scene : Interview) : Interview → Prop
  | step {net : Net} {mock : MockSession}
      (h : scene.mock.step scene.now scene.net = some (net, mock)) :
      Move scene (scene.after net mock)
  | others {net : Net} (h : scene.net.Foreign scene.holdings net) :
      Move scene { scene with net }
  | wait {now : Instant} (hwaits : scene.mock.step scene.now scene.net = none)
      (hnow : scene.now ≤ now) (hwake : ∀ wake, scene.mock.wake? = some wake → now ≤ wake) :
      Move scene { scene with now }
  /-- The server is to serve a further client, possibly in another way. -/
  | serve (h : scene.mock.result? ≠ none) (options : MockOptions) :
      Move scene { scene with
        mock := { listener := scene.mock.listener, options }
        link := none }

/-- An interview that is reached after a server began to listen in any network. -/
inductive Reachable : Interview → Prop
  | begin {now : Instant} {net later : Net} {address : SocketAddress} {listener : ListenerId}
      (hlisten : net.listen address = .ok (listener, later)) (options : MockOptions) :
      Reachable { now, net := later, mock := { listener, options } }
  | move {scene later : Interview} (hscene : Reachable scene) (hmove : scene.Move later) :
      Reachable later

/-- The server has not touched its end of a connection. -/
def Untouched (net : Net) (link : LinkId) : Prop :=
  link < net.links.length ∧ (net.link link).acceptor.written = [] ∧
    (net.link link).acceptor.taken = 0

/-- The server listens, it has not touched the connections that wait, none of which waits
twice, and the one that it has taken does not wait. -/
structure Sound (scene : Interview) : Prop where
  fits : scene.mock.Fits
  listens : ∃ listener, scene.net.Receives scene.mock.listener listener
  queue : ∀ link ∈ scene.queue, Untouched scene.net link
  nodup : scene.queue.Nodup
  link : ∀ link, scene.link = some link → link < scene.net.links.length ∧ link ∉ scene.queue
  session : ∀ session, scene.mock.session? = some session → scene.link = some session.link
  ended : ∀ result, scene.mock.result? = some result →
    (∃ failure, result = .error (.accept failure)) ∨ scene.link ≠ none

variable {scene later : Interview} {net : Net} {mock : MockSession}

theorem link_after_of_session {session : Session} (h : mock.session? = some session) :
    (scene.after net mock).link = some session.link := by
  simp [after, h]

theorem link_after_of_none (h : mock.session? = none) :
    (scene.after net mock).link = scene.link := by
  simp [after, h]

/-- The oldest connection is taken from the line. -/
theorem Sound.accepted (h : scene.Sound) {link : LinkId}
    (hphase : scene.mock.phase = .accepting)
    (hreception : scene.net.reception? scene.mock.listener = some (net, .ok link)) :
    (scene.after net (scene.mock.greet scene.now link)).Sound := by
  obtain ⟨listener, hreceives⟩ := h.listens
  obtain ⟨hqueue, hlinks, _, hlistens⟩ := Net.accept?_cases (Net.reception?_eq_ok hreception).2
  have hqueue : scene.queue = link :: net.queue scene.mock.listener := hqueue
  have hnodup := h.nodup
  rw [hqueue, List.nodup_cons] at hnodup
  have hsame : ∀ {id}, Untouched scene.net id → Untouched net id := by
    intro id huntouched
    simpa only [Untouched, Net.link, hlinks] using huntouched
  refine ⟨(MockSession.Turn.accepted hphase hreception).fits h.fits, hlistens hreceives, ?_,
    hnodup.2, ?_, ?_, ?_⟩
  · exact fun id hid => hsame (h.queue id (hqueue ▸ List.mem_cons_of_mem _ hid))
  · intro id hid
    cases hid
    exact ⟨(hsame (h.queue link (hqueue ▸ List.mem_cons_self))).1, hnodup.1⟩
  · intro session hsession
    cases hsession
    rfl
  · intro result hresult
    cases hresult

/-- Accepting fails, and the line stays as it is. -/
theorem Sound.turnedAway (h : scene.Sound) {cause : IoCause}
    (hfails : scene.net.reception? scene.mock.listener = some (net, .error cause)) :
    (scene.after net (scene.mock.enter (.turnedAway (.ofSystem cause)))).Sound := by
  obtain ⟨listener, hreceives⟩ := h.listens
  have hsame := Net.sameLine_of_reception hfails
  have hlink : (scene.after net (scene.mock.enter (.turnedAway (.ofSystem cause)))).link =
      scene.link := link_after_of_none rfl
  have hqueue : (scene.after net (scene.mock.enter (.turnedAway (.ofSystem cause)))).queue =
      scene.queue := hsame.queue
  refine ⟨MockSession.fits_of_none rfl, hsame.receives hreceives, ?_, ?_, ?_, ?_, ?_⟩
  · intro id hid
    simpa only [Untouched, after, Net.link, hsame.links] using h.queue id (hqueue ▸ hid)
  · rw [hqueue]
    exact h.nodup
  · rw [hlink, hqueue]
    intro id hid
    exact ⟨hsame.links ▸ (h.link id hid).1, (h.link id hid).2⟩
  · intro session hsession
    cases hsession
  · intro result hresult
    cases hresult
    exact .inl ⟨_, rfl⟩

/-- A session leaves the line as it is. -/
theorem Sound.advanced (h : scene.Sound) {session : Session}
    (hsession : scene.mock.session? = some session) (hfits : mock.Fits)
    (hadvances : scene.mock.Advances session.link scene.net (net, mock)) :
    (scene.after net mock).Sound ∧ (scene.after net mock).link = some session.link := by
  obtain ⟨listener, hreceives⟩ := h.listens
  have honly : Net.Only session.link scene.net net := hadvances.only
  have hlistener : mock.listener = scene.mock.listener := hadvances.listener
  have hbefore := h.session session hsession
  have hlink : (scene.after net mock).link = some session.link := by
    cases hnext : mock.session? with
    | none => exact (link_after_of_none hnext).trans hbefore
    | some next =>
        rw [link_after_of_session hnext, hadvances.session next hnext]
  have hqueue : (scene.after net mock).queue = scene.queue := by
    change net.queue mock.listener = scene.net.queue scene.mock.listener
    simp only [Net.queue, Net.listener?, honly.listeners, hlistener]
  obtain ⟨hlength, hgone⟩ := h.link session.link hbefore
  refine ⟨⟨hfits, ⟨listener, ?_⟩, ?_, ?_, ?_, ?_, ?_⟩, hlink⟩
  · change net.Receives mock.listener listener
    rw [hlistener]
    exact hreceives.of_same honly.listeners
  · rw [hqueue]
    intro id hid
    obtain ⟨hid', hwritten, htaken⟩ := h.queue id hid
    have hother : session.link ≠ id := fun heq => hgone (heq ▸ hid)
    have hsame : net.link id = scene.net.link id := honly.link hother
    refine ⟨honly.links ▸ hid', ?_, ?_⟩
    · change (net.link id).acceptor.written = []
      rw [hsame, hwritten]
    · change (net.link id).acceptor.taken = 0
      rw [hsame, htaken]
  · rw [hqueue]
    exact h.nodup
  · intro id hid
    cases hlink.symm.trans hid
    rw [hqueue]
    exact ⟨honly.links ▸ hlength, hgone⟩
  · intro next hnext
    rw [hlink, hadvances.session next hnext]
  · intro _ _
    rw [hlink]
    exact .inr (Option.some_ne_none _)

theorem Sound.stepped (h : scene.Sound)
    (hstep : scene.mock.step scene.now scene.net = some (net, mock)) :
    (scene.after net mock).Sound := by
  have hfits := (MockSession.turn_of_step h.fits hstep).fits h.fits
  rcases MockSession.step_cases hstep with ⟨hphase, link, later, haccept, heq⟩ |
    ⟨_, cause, later, hfails, heq⟩ | ⟨session, hsession, hadvances⟩
  · cases heq
    exact h.accepted hphase haccept
  · cases heq
    exact h.turnedAway hfails
  · exact (h.advanced hsession hfits hadvances).1

theorem Sound.others (h : scene.Sound) (hforeign : scene.net.Foreign scene.holdings net) :
    ({ scene with net } : Interview).Sound := by
  obtain ⟨listener, hreceives⟩ := h.listens
  have hlistener := hreceives.found
  have hjoins := hforeign.joins rfl hlistener
  have hevolves := hforeign.evolves
  have hknown : ∀ link ∈ scene.queue, link < scene.net.links.length :=
    fun link hlink => (h.queue link hlink).1
  refine ⟨h.fits, hreceives.joins hforeign.deafens hjoins, fun link hlink => ?_,
    hjoins.nodup_queue hlistener h.nodup hknown, fun link hlink => ?_, h.session, h.ended⟩
  · rcases hjoins.new_of_mem hlistener hlink with hold | ⟨hexists, hnew⟩
    · obtain ⟨hlength, hwritten, htaken⟩ := h.queue link hold
      have hbeside := hevolves.beside (show scene.holdings.ends link .acceptor from
        ⟨rfl, .inl hold⟩) hlength
      exact ⟨Nat.lt_of_lt_of_le hlength hevolves.links, hbeside.written.trans hwritten,
        hbeside.taken.trans htaken⟩
    · refine ⟨hexists, ?_⟩
      change (net.link link).acceptor.written = [] ∧ (net.link link).acceptor.taken = 0
      rw [hnew]
      exact ⟨rfl, rfl⟩
  · obtain ⟨hlength, hgone⟩ := h.link link hlink
    exact ⟨Nat.lt_of_lt_of_le hlength hevolves.links,
      fun hmem => hgone ((hjoins.mem_queue hlistener hlength).mp hmem)⟩

theorem Move.sound (h : scene.Sound) (hmove : scene.Move later) : later.Sound := by
  cases hmove with
  | step hstep => exact h.stepped hstep
  | others hforeign => exact h.others hforeign
  | wait => exact ⟨h.fits, h.listens, h.queue, h.nodup, h.link, h.session, h.ended⟩
  | serve =>
      refine ⟨MockSession.fits_of_none rfl, h.listens, h.queue, h.nodup, fun link hlink => ?_,
        fun session hsession => ?_, nofun⟩
      · cases hlink
      · cases hsession

/-- Nobody waits yet at a listener that is new. -/
theorem sound_begin {now : Instant} {before net : Net} {address : SocketAddress}
    {listener : ListenerId} (hlisten : before.listen address = .ok (listener, net))
    (options : MockOptions) :
    ({ now, net, mock := { listener, options } } : Interview).Sound := by
  have hqueue : net.queue listener = [] := Net.queue_of_listen hlisten
  refine ⟨MockSession.fits_of_none rfl, Net.receives_listen hlisten, ?_, ?_, fun link hlink => ?_,
    fun session hsession => ?_, nofun⟩
  · intro link hlink
    change link ∈ net.queue listener at hlink
    simp [hqueue] at hlink
  · change (net.queue listener).Nodup
    simp [hqueue]
  · cases hlink
  · cases hsession

theorem Reachable.sound (h : scene.Reachable) : scene.Sound := by
  induction h with
  | begin hlisten options => exact sound_begin hlisten options
  | move _ hmove ih => exact hmove.sound ih

end Interview

end NodeHealth
