import NodeHealth.Proofs.Health.Conversation
import NodeHealth.Proofs.Message.Response
import NodeHealth.Proofs.Registration.Run

/-!
# The outcome of a registration

A registration makes at most one attempt and writes at most one frame
(`RegistrationRun.Once`). It is over within three times its timeout, and as long as it waits for
a response nothing decides it (`RegistrationRun.InTime`). When it is over, it has closed what it
had (`RegistrationRun.Closed`), and its result depends on the request, on whether the request
was sent, and then on nothing but the bytes that the server has written
(`RegistrationRun.Concludes`).

-/

namespace NodeHealth

/-! ## What a response says -/

/-- The response that bytes begin with, or why there is none. -/
def Registration.response (bytes : Bytes) : Except WireError Bytes :=
  (Frame.parse .varint maxResponseLength bytes).result

/-- The outcome of a registration whose server has written some bytes. -/
def RegistrationOutcome.ofBytes (bytes : Bytes) : RegistrationOutcome :=
  match Registration.response bytes with
  | .ok payload => ofPayload payload
  | .error _ => noResponse

/-- An outcome is what the first frame of the server says by its first two bytes, if there is
one that is complete. -/
structure RegistrationOutcome.Judges (outcome : RegistrationOutcome) (bytes : Bytes) : Prop where
  accepted : outcome = accepted ↔
    ∃ rest, Registration.response bytes = .ok (0x08 :: 0x01 :: rest)
  rejected : ∀ message, outcome = rejected message ↔
    ∃ second rest, second ≠ 0x01 ∧ Registration.response bytes = .ok (0x08 :: second :: rest) ∧
      RegisterResponse.decode? (0x08 :: second :: rest) = some ⟨false, message⟩
  noResponse : outcome = noResponse ↔
    ∀ second rest, Registration.response bytes ≠ .ok (0x08 :: second :: rest)

theorem RegistrationOutcome.judges_ofBytes (bytes : Bytes) : (ofBytes bytes).Judges bytes := by
  cases hresponse : Registration.response bytes with
  | error error =>
      have hout : ofBytes bytes = .noResponse := by simp only [ofBytes, hresponse]
      refine ⟨?_, fun message => ?_, ?_⟩ <;> simp [hout, hresponse]
  | ok payload =>
      cases hdecode : RegisterResponse.decode? payload with
      | none =>
          have hout : ofBytes bytes = .noResponse := by
            simp only [ofBytes, hresponse, ofPayload, hdecode]
          have hunknown : ∀ second rest, payload ≠ 0x08 :: second :: rest := by
            rintro second rest rfl
            exact RegisterResponse.decode?_ne_none second rest hdecode
          refine ⟨?_, fun message => ?_, ?_⟩ <;> simp [hout, hresponse, hunknown]
      | some response =>
          obtain ⟨success, message⟩ := response
          obtain ⟨second, rest, rfl, hsuccess⟩ := RegisterResponse.decode?_eq_some hdecode
          simp only at hsuccess
          by_cases haccepts : second = 1
          · obtain rfl : success = true := by simp [hsuccess, haccepts]
            have hout : ofBytes bytes = .accepted := by
              simp only [ofBytes, hresponse, ofPayload, hdecode]
            refine ⟨?_, fun message => ?_, ?_⟩ <;> simp [hout, hresponse, haccepts]
          · obtain rfl : success = false := by simp [hsuccess, haccepts]
            have hout : ofBytes bytes = .rejected message := by
              simp only [ofBytes, hresponse, ofPayload, hdecode]
            refine ⟨?_, fun other => ?_, ?_⟩ <;> simp [hout, hresponse, haccepts, hdecode]

theorem RegistrationOutcome.ofBytes_of_error {bytes : Bytes} {error : WireError}
    (h : Registration.response bytes = .error error) : noResponse = ofBytes bytes := by
  simp only [ofBytes, h]

/-- No more can be expected of the other end of a connection: it writes no more, or the
connection has failed. -/
def Link.Ceased (link : Link) : Prop :=
  link.acceptor.finished = true ∨ link.dialler.broken = true ∨ link.dialler.fault ≠ none

namespace Link

variable {link later : Link}

theorem not_ceased_of_nothing (h : link.arrival .dialler = .nothing) : ¬link.Ceased := by
  simp only [arrival] at h
  split at h
  · cases h
  · split at h
    · cases h
    · rename_i hfinished
      split at h
      · cases h
      · rename_i hfault
        split at h
        · cases h
        · rename_i hbroken
          rintro (hceased | hceased | hceased)
          · exact hfinished hceased
          · exact hbroken hceased
          · exact hceased hfault

theorem ceased_of_ended (h : link.arrival .dialler = .ended) : link.Ceased := by
  rcases (arrival_ended h).2 with hfinished | hbroken
  · exact .inl hfinished
  · exact .inr (.inl hbroken)

theorem ceased_of_failed {cause : IoCause} (h : link.arrival .dialler = .failed cause) :
    link.Ceased :=
  .inr (.inr fun hnone => by cases hnone.symm.trans (arrival_failed h).2)

theorem cause_of_failed {bytes : Bytes} {cause : IoCause}
    (h : link.write .dialler bytes = (.failed cause, later))
    (hfinished : link.dialler.finished = false) : link.dialler.fault = some cause ∨
      link.dialler.broken = true ∧ cause = .brokenPipe := by
  rcases write_failed_cases h with ⟨hfault, _⟩ | ⟨hbroken | hfinished', hcause, _⟩
  · exact .inl hfault
  · exact .inr ⟨hbroken, hcause⟩
  · exact absurd (hfinished.symm.trans hfinished') (by simp)

end Link

/-! ## What is said of a registration -/

/-- The registrar registers what the configuration of a health server says: the node type 13,
the address that is advertised if there is one and it is not empty, and else the bound one, and
the port. The registration server is the configured one, if it has both a name and a port. -/
structure Registrar.Registers (registrar : Registrar) (server : ServerConfig) : Prop where
  nodeType : registrar.request.nodeType = 13
  advertised : ∀ ip, server.advertiseIp = some ip → ip ≠ "" → registrar.request.ip = ip
  bound : server.advertiseIp = none ∨ server.advertiseIp = some "" →
    registrar.request.ip = server.bindAddr
  port : registrar.request.port = server.port
  config : registrar.config = server.registration
  target : ∀ host port, registrar.config.target? = some (host, port) ↔
    server.registration.serverIp = some host ∧ host ≠ "" ∧
      server.registration.serverPort = some port ∧ port ≠ 0

theorem Registrar.registers_ofServer (server : ServerConfig) :
    (ofServer server).Registers server where
  nodeType := rfl
  advertised := fun _ hip hne => ServerConfig.advertisedIp_of_some hip hne
  bound := ServerConfig.advertisedIp_of_none
  port := rfl
  config := rfl
  target := fun _ _ => RegistrationConfig.target?_eq_some_iff

namespace RegistrationRun

/-- The request is that of the configuration. The registration makes at most one attempt, and
none unless the request can be sent. It writes at most the frame of the request, which counts as
sent if all of that is written. -/
structure Once (run : RegistrationRun) : Prop where
  request : run.registrar.Registers run.server
  dials : run.attempts ≠ [] → run.registrar.Sendable
  single : run.attempts.length ≤ 1
  part : ∀ {link}, run.Owns link →
    (run.net.link link).dialler.written <+: run.registrar.frame
  sent : run.sent ≠ none ↔
    ∃ link, run.Owns link ∧ (run.net.link link).dialler.written = run.registrar.frame

/-- The registration takes so many steps at most, and until it is over, no longer than three
times its timeout. It waits for a deadline, and for a response only as long as nothing that
came decides it. -/
structure InTime (run : RegistrationRun) : Prop where
  steps : run.steps ≤ run.registrar.frame.length + Registration.maxFrameLength + 2
  ends : run.registration.result? = none → run.now ≤ run.begun + 3 * run.timeout
  waits : run.Waits → run.registration.result? = none →
    ∃ wake, run.registration.wake? = some wake ∧ run.now < wake ∧
      wake ≤ run.begun + 3 * run.timeout
  listens : run.Waits → run.registration.result? = none → ∀ sent, run.sent = some sent →
    run.now < sent + run.timeout ∧ ∃ link, run.Owns link ∧
      ¬(run.net.link link).Ceased ∧
      Registration.response (run.net.link link).acceptor.written = .error .closed

/-- Nothing that the registration began is open. -/
structure Closed (run : RegistrationRun) : Prop where
  attempts : ∀ attempt ∈ run.attempts, (run.net.attempt attempt).isWaiting = false
  links : ∀ {link}, run.Owns link → (run.net.link link).dialler.held = false

/-- Why the request cannot be sent: there is no connection, or it fails, or there is no room
in it for too long. -/
inductive Fails (run : RegistrationRun) : ConnectionError → Prop
  | refused {attempt : AttemptId} {failure : IoFailure} (hattempt : attempt ∈ run.attempts)
      (hrefused : (run.net.attempt attempt).refusal? = some failure) :
      Fails run (.io failure)
  | unanswered {attempt : AttemptId} (hattempt : attempt ∈ run.attempts)
      (hwaiting : (run.net.attempt attempt).isWaiting = true)
      (hnow : run.now = run.begun + run.timeout) : Fails run .timeout
  | unsent {link : LinkId} {cause : IoCause} (hlink : run.Owns link)
      (hfailed : (run.net.link link).dialler.fault = some cause ∨
        (run.net.link link).dialler.broken = true ∧ cause = .brokenPipe) :
      Fails run (.ofCause cause)
  | stuck {link : LinkId} {connected : Instant} (hlink : run.Owns link)
      (hroom : (run.net.link link).writable .dialler 1 = 0)
      (hconnected : run.connected = some connected)
      (hnow : run.now = connected + run.timeout) : Fails run .timeout

/-- The next step of the registration is its last and gives a result. -/
def Returns (run : RegistrationRun) (result : Except RegistrationError RegistrationOutcome) :
    Prop :=
  ∃ net next, run.registration.step run.now run.net = some (net, next) ∧
    next.phase = .finished result

/-- The result of a registration that returns. -/
structure Concludes (run : RegistrationRun)
    (result : Except RegistrationError RegistrationOutcome) : Prop where
  tooLong : RegisterRequest.maxLength < run.registrar.request.encodedLength →
    result = .error (.encode (.messageTooLarge
      run.registrar.request.encodedLength RegisterRequest.maxLength))
  untargeted : run.registrar.request.encodedLength ≤ RegisterRequest.maxLength →
    run.registrar.config.target? = none → result = .error .notConfigured
  unsent : run.registrar.request.encodedLength ≤ RegisterRequest.maxLength →
    run.registrar.config.target? ≠ none → run.sent = none →
      ∃ error, result = .error (.connection error) ∧ run.Fails error
  answered : ∀ sent, run.sent = some sent → ∃ link outcome, run.Owns link ∧
    result = .ok outcome ∧ outcome.Judges (run.net.link link).acceptor.written ∧
    run.now ≤ sent + run.timeout ∧
    (Registration.response (run.net.link link).acceptor.written ≠ .error .closed ∨
      (run.net.link link).Ceased ∨ run.now = sent + run.timeout)

variable {run : RegistrationRun} {net : Net} {next : Registration}

/-! ## Once -/

theorem Prepares.once (h : run.Prepares)
    (hregistrar : run.registrar = .ofServer run.server) : run.Once where
  request := hregistrar ▸ Registrar.registers_ofServer _
  dials := by simp [h.attempts]
  single := by simp [h.attempts]
  part := by
    rintro link ⟨attempt, hattempt, _⟩
    simp [h.attempts] at hattempt
  sent := by
    refine ⟨fun hsent => absurd h.sent hsent, ?_⟩
    rintro ⟨link, ⟨attempt, hattempt, _⟩, _⟩
    simp [h.attempts] at hattempt

theorem Dials.unwritten {dial : Dial} {payload : Bytes} (h : run.Dials dial payload)
    {link : LinkId} (hlink : run.Owns link) : (run.net.link link).dialler.written = [] := by
  obtain ⟨attempt, hattempt, hconnected⟩ := hlink
  rw [h.attempts, List.mem_singleton] at hattempt
  subst hattempt
  exact (h.fresh hconnected).2.1

theorem Dials.once {dial : Dial} {payload : Bytes} (h : run.Dials dial payload)
    (hregistrar : run.registrar = .ofServer run.server) : run.Once where
  request := hregistrar ▸ Registrar.registers_ofServer _
  dials := fun _ => h.ready
  single := by simp [h.attempts]
  part := by
    intro link hlink
    rw [h.unwritten hlink]
    exact List.nil_prefix
  sent := by
    refine ⟨fun hsent => absurd h.sent hsent, ?_⟩
    rintro ⟨link, hlink, hall⟩
    rw [h.unwritten hlink] at hall
    exact absurd hall.symm (Registrar.frame_ne_nil h.payload)

theorem Has.once {link : LinkId} (h : run.Has link) (htells : run.Tells link)
    (hregistrar : run.registrar = .ofServer run.server) : run.Once where
  request := hregistrar ▸ Registrar.registers_ofServer _
  dials := fun _ => h.ready
  single := by
    obtain ⟨attempt, hattempts, _⟩ := h.attempt
    simp [hattempts]
  part := by
    intro other hother
    rw [h.owns_iff.mp hother]
    exact htells.part
  sent := by
    rw [htells.sent]
    refine ⟨fun hall => ⟨link, h.owns, hall⟩, ?_⟩
    rintro ⟨other, hother, hall⟩
    rwa [h.owns_iff.mp hother] at hall

theorem Ended.once (h : run.Ended)
    (hregistrar : run.registrar = .ofServer run.server) : run.Once where
  request := hregistrar ▸ Registrar.registers_ofServer _
  dials := h.ready
  single := h.single
  part := fun hlink => (h.closed hlink).2.2
  sent := h.sent

theorem Sound.once (h : run.Sound) : run.Once := by
  cases hphase : run.registration.phase with
  | starting => exact (h.prepares hphase).once h.registrar
  | dialling dial payload => exact (h.dials hphase).once h.registrar
  | sending session sending deadline =>
      exact (h.sends hphase).once (h.sends hphase).tells h.registrar
  | awaiting session reader deadline =>
      exact (h.awaits hphase).once (h.awaits hphase).tells h.registrar
  | finished result => exact (h.ended hphase).once h.registrar

theorem Sound.closed (h : run.Sound) (hover : run.registration.result? ≠ none) :
    run.Closed := by
  cases hphase : run.registration.phase with
  | finished result =>
      have hended := h.ended hphase
      exact ⟨fun attempt hattempt => (hended.settled attempt hattempt).2,
        fun hlink => (hended.closed hlink).2.1⟩
  | _ => simp [Registration.result?, hphase] at hover

/-! ## In time -/

/-- Until it is over, a registration has a deadline, which has not passed. -/
theorem Sound.deadline (h : run.Sound) (hopen : run.registration.result? = none)
    (hbegun : run.registration.phase ≠ .starting) :
    ∃ wake, run.registration.wake? = some wake ∧ run.now ≤ wake ∧
      wake ≤ run.begun + 3 * run.timeout := by
  cases hphase : run.registration.phase with
  | starting => exact absurd hphase hbegun
  | dialling dial payload =>
      have hdials := h.dials hphase
      exact ⟨dial.deadline, by simp [Registration.wake?, hphase], hdials.now,
        first_of_three (Nat.le_of_eq hdials.deadline)⟩
  | sending session sending deadline =>
      obtain ⟨connected, _, hconnected, rfl, hnow⟩ := (h.sends hphase).deadline
      exact ⟨connected + run.timeout, by simp [Registration.wake?, hphase], hnow,
        second_of_three (second_deadline hconnected (Nat.le_refl _))⟩
  | awaiting session reader deadline =>
      obtain ⟨sent, _, hsent, rfl, hnow⟩ := (h.awaits hphase).deadline
      exact ⟨sent + run.timeout, by simp [Registration.wake?, hphase], hnow,
        third_deadline hsent⟩
  | finished result => simp [Registration.result?, hphase] at hopen

theorem Sound.lt_wake (h : run.Sound) (hwaits : run.Waits) {wake : Instant}
    (hwake : run.registration.wake? = some wake) : run.now < wake := by
  cases hphase : run.registration.phase with
  | starting => simp [Registration.wake?, hphase] at hwake
  | dialling dial payload =>
      simp only [Registration.wake?, hphase, Option.some.injEq] at hwake
      exact hwake ▸ Registration.waits_of_dialling hphase hwaits
  | sending session sending deadline =>
      simp only [Registration.wake?, hphase] at hwake
      exact Registration.waits_of_sending (hwake ▸ hphase) hwaits
  | awaiting session reader deadline =>
      simp only [Registration.wake?, hphase, Option.some.injEq] at hwake
      exact hwake ▸ (Registration.waits_of_awaiting hphase h.fits hwaits).2
  | finished result => simp [Registration.wake?, hphase] at hwake

/-- Bytes of which all were read hold no complete response. -/
theorem Awaits.response_of_unread {session : Session} {reader : Frame.Reader}
    {deadline : Instant} (h : run.Awaits session reader deadline)
    (hunread : (run.net.link session.link).unread .dialler = []) :
    Registration.response (run.net.link session.link).acceptor.written = .error .closed := by
  rw [Registration.response, ← Link.read_of_unread hunread, Frame.parse_of_more h.reader]

/-- Bytes with which the reader is done hold what it has found. -/
theorem Awaits.response_of_done {session : Session} {reader : Frame.Reader}
    {deadline : Instant} (h : run.Awaits session reader deadline) {unread rest : Bytes}
    (harrival : (run.net.link session.link).arrival .dialler = .bytes unread)
    {result : Except WireError Bytes} (hfeed : reader.feed unread = .done result rest) :
    Registration.response (run.net.link session.link).acceptor.written = result := by
  have hunread : (run.net.link session.link).unread .dialler = unread :=
    Link.unread_of_arrival harrival
  rw [Registration.response, ← Link.read_append_unread, hunread, Frame.parse_eq_feed,
    Frame.Reader.feed_append, h.reader]
  simp only [Frame.Progress.extend, hfeed, Frame.Progress.reading]

theorem Sound.listens (h : run.Sound) (hwaits : run.Waits)
    (hopen : run.registration.result? = none) {sent : Instant}
    (hsent : run.sent = some sent) :
    run.now < sent + run.timeout ∧ ∃ link, run.Owns link ∧
      ¬(run.net.link link).Ceased ∧
      Registration.response (run.net.link link).acceptor.written = .error .closed := by
  cases hphase : run.registration.phase with
  | starting => simp [(h.prepares hphase).sent] at hsent
  | dialling dial payload => simp [(h.dials hphase).sent] at hsent
  | sending session sending deadline => simp [(h.sends hphase).sent] at hsent
  | awaiting session reader deadline =>
      have hawaits := h.awaits hphase
      obtain ⟨harrival, hnow⟩ := Registration.waits_of_awaiting hphase h.fits hwaits
      obtain ⟨sent', hsent', _, rfl, _⟩ := hawaits.deadline
      cases hsent.symm.trans hsent'
      refine ⟨hnow, session.link, hawaits.owns, ?_,
        hawaits.response_of_unread (Link.arrival_nothing harrival)⟩
      exact Link.not_ceased_of_nothing harrival
  | finished result => simp [Registration.result?, hphase] at hopen

theorem Sound.inTime (h : run.Sound) : run.InTime where
  steps := Nat.le_trans (Nat.le_add_right _ _) h.steps
  ends := by
    intro hopen
    by_cases hphase : run.registration.phase = .starting
    · rw [(h.prepares hphase).now]
      exact Nat.le_add_right _ _
    · obtain ⟨wake, _, hnow, hwake⟩ := h.deadline hopen hphase
      exact Nat.le_trans hnow hwake
  waits := by
    intro hwaits hopen
    have hbegun : run.registration.phase ≠ .starting :=
      fun hphase => Registration.not_waits_of_starting hphase hwaits
    obtain ⟨wake, hwake, _, hbound⟩ := h.deadline hopen hbegun
    exact ⟨wake, hwake, h.lt_wake hwaits hwake, hbound⟩
  listens := fun hwaits hopen sent hsent => h.listens hwaits hopen hsent

/-! ## The result -/

/-- A request that is short enough and has a destination fails only for a connection. -/
theorem Fails.concludes {error : ConnectionError} (h : run.Fails error)
    (hready : run.registrar.Sendable) (hsent : run.sent = none) :
    run.Concludes (.error (.connection error)) where
  tooLong := fun hlong => absurd hready.short (Nat.not_le_of_lt hlong)
  untargeted := fun _ hnowhere => absurd hnowhere hready.target
  unsent := fun _ _ _ => ⟨error, rfl, h⟩
  answered := by simp [hsent]

/-- Once the request is sent, the result is what the bytes of the server say. -/
theorem Awaits.concludes {session : Session} {reader : Frame.Reader} {deadline : Instant}
    (h : run.Awaits session reader deadline) {outcome : RegistrationOutcome}
    (houtcome : outcome = .ofBytes (run.net.link session.link).acceptor.written)
    (hover : Registration.response (run.net.link session.link).acceptor.written ≠
        .error .closed ∨
      (run.net.link session.link).Ceased ∨ deadline ≤ run.now) :
    run.Concludes (.ok outcome) := by
  obtain ⟨sent, hsent, _, rfl, hnow⟩ := h.deadline
  refine ⟨fun hlong => absurd h.ready.short (Nat.not_le_of_lt hlong),
    fun _ hnowhere => absurd hnowhere h.ready.target, fun _ _ hnone => ?_,
    fun sent' hsent' => ?_⟩
  · rw [hsent] at hnone
    cases hnone
  · cases hsent.symm.trans hsent'
    refine ⟨session.link, outcome, h.owns, rfl, houtcome ▸ RegistrationOutcome.judges_ofBytes _,
      hnow, ?_⟩
    rcases hover with hdecided | hceased | hlate
    · exact .inl hdecided
    · exact .inr (.inl hceased)
    · exact .inr (.inr (Nat.le_antisymm hnow hlate))

/-- A turn that ends the registration gives the result that belongs to it. -/
theorem Sound.concludes (h : run.Sound)
    (hturn : run.registration.Turn run.now run.net net next)
    {result : Except RegistrationError RegistrationOutcome}
    (hresult : next.phase = .finished result) : run.Concludes result := by
  cases hturn with
  | unfit hphase hencode =>
      cases hresult
      obtain ⟨hlong, rfl⟩ := RegisterRequest.tooLong_of_encode hencode
      have hprepares := h.prepares hphase
      exact ⟨fun _ => rfl, fun hshort => absurd hshort (Nat.not_le_of_lt hlong),
        fun hshort => absurd hshort (Nat.not_le_of_lt hlong), by simp [hprepares.sent]⟩
  | untargeted hphase hencode htarget =>
      cases hresult
      have hprepares := h.prepares hphase
      have hshort := RegisterRequest.short_of_encode hencode
      exact ⟨fun hlong => absurd hshort (Nat.not_le_of_lt hlong),
        fun _ _ => rfl, fun _ hsome => absurd htarget hsome,
        by simp [hprepares.sent]⟩
  | refused hphase hattempt =>
      cases hresult
      have hdials := h.dials hphase
      exact (Fails.refused (by simp [hdials.attempts]) hattempt).concludes hdials.ready
        hdials.sent
  | abandoned hphase hattempt => exact absurd hattempt (h.dials hphase).pending
  | expired hphase hattempt hdeadline =>
      cases hresult
      have hdials := h.dials hphase
      have hnow := Nat.le_antisymm hdials.now hdeadline
      exact (Fails.unanswered (by simp [hdials.attempts]) hattempt
        (hnow.trans hdials.deadline)).concludes hdials.ready hdials.sent
  | unsent hphase hwrite =>
      cases hresult
      have hsends := h.sends hphase
      exact (Fails.unsent hsends.owns (Link.cause_of_failed hwrite hsends.unfinished)).concludes
        hsends.ready hsends.sent
  | late hphase hwrite hpart hdeadline =>
      cases hresult
      have hsends := h.sends hphase
      obtain ⟨connected, hconnected, _, hsame, hnow⟩ := hsends.deadline
      cases hsame
      obtain ⟨_, _, _, _, _, hcount⟩ := Link.write_wrote hwrite
      exact (Fails.stuck hsends.owns (Link.writable_one_of_none hpart hcount.symm) hconnected
        (Nat.le_antisymm hnow hdeadline)).concludes hsends.ready hsends.sent
  | answered hphase harrival hfeed =>
      cases hresult
      have hawaits := h.awaits hphase
      have hresponse := hawaits.response_of_done harrival hfeed
      exact hawaits.concludes (by simp only [RegistrationOutcome.ofBytes, hresponse])
        (.inl (by simp [hresponse]))
  | malformed hphase harrival hfeed =>
      cases hresult
      have hawaits := h.awaits hphase
      have hresponse := hawaits.response_of_done harrival hfeed
      refine hawaits.concludes (RegistrationOutcome.ofBytes_of_error hresponse) (.inl ?_)
      rw [hresponse]
      exact fun hclosed => Frame.Reader.feed_error hfeed (Except.error.inj hclosed)
  | ended hphase harrival =>
      cases hresult
      have hawaits := h.awaits hphase
      exact hawaits.concludes (RegistrationOutcome.ofBytes_of_error
        (hawaits.response_of_unread (Link.arrival_ended harrival).1))
        (.inr (.inl (Link.ceased_of_ended harrival)))
  | failed hphase harrival =>
      cases hresult
      have hawaits := h.awaits hphase
      exact hawaits.concludes (RegistrationOutcome.ofBytes_of_error
        (hawaits.response_of_unread (Link.arrival_failed harrival).1))
        (.inr (.inl (Link.ceased_of_failed harrival)))
  | silent hphase harrival hdeadline =>
      cases hresult
      have hawaits := h.awaits hphase
      exact hawaits.concludes (RegistrationOutcome.ofBytes_of_error
        (hawaits.response_of_unread (Link.arrival_nothing harrival))) (.inr (.inr hdeadline))
  | _ => cases hresult

/-- A registration makes one attempt at most and writes one frame at most, it is over in time
and has then closed what it had, and its result is what became of the request. -/
theorem registers_once (h : run.Reachable) :
    run.Once ∧ run.InTime ∧
      (run.registration.result? ≠ none → run.Closed) ∧
      ∀ result, run.Returns result → run.Concludes result := by
  have hsound := h.sound
  refine ⟨hsound.once, hsound.inTime, hsound.closed, ?_⟩
  rintro result ⟨net, next, hstep, hresult⟩
  exact hsound.concludes (Registration.turn_of_step hsound.fits hstep) hresult

/-- A health server at port 80 that is to be registered under an address of its own, or under
the one to which it is bound. -/
def advertising (ip : String) : ServerConfig where
  bindAddr := "0.0.0.0"
  advertiseIp := some ip
  port := 80
  registration := { serverIp := some "127.0.0.1", serverPort := some 4000 }

/-- A registration of which nothing has been done, with a registration server that listens. -/
def listened (ip : String) : RegistrationRun :=
  start 0 { listeners := [{ address := ⟨.loopback, 4000⟩ }] } (advertising ip)

/-- A registration server that listens and answers at once accepts the request, which holds the
address that is advertised, or the bound one if that is empty. -/
theorem registers_once_of_acceptance :
    (∃ run : RegistrationRun, run.Reachable ∧ run.server = advertising "10.0.0.1" ∧
      run.attempts = [0] ∧ run.sent = some 0 ∧
      (run.net.link 0).dialler.written =
        [14, 0x08, 13, 0x12, 8, 49, 48, 46, 48, 46, 48, 46, 49, 0x18, 80] ∧
      run.registrar.request.ip = "10.0.0.1" ∧ run.Returns (.ok .accepted) ∧
      run.Concludes (.ok .accepted)) ∧
    ∃ run : RegistrationRun, run.Reachable ∧ run.server = advertising "" ∧
      (run.net.link 0).dialler.written =
        [13, 0x08, 13, 0x12, 7, 48, 46, 48, 46, 48, 46, 48, 0x18, 80] ∧
      run.registrar.request.ip = "0.0.0.0" := by
  constructor
  · have hbegin : (listened "10.0.0.1").Reachable := .begin 0 _ _
    have hdial : Reachable _ := .move hbegin (.step rfl)
    have hconnect : Reachable _ := .move hdial (.step rfl)
    have hsend : Reachable _ := .move hconnect (.step rfl)
    have hanswer : Reachable _ := .move hsend
      (.others (.act (.write 0 .acceptor [2, 0x08, 0x01]) (fun h => by cases h.1)))
    obtain ⟨honce, _, _, hconcludes⟩ := registers_once hanswer
    exact ⟨_, hanswer, rfl, rfl, rfl, rfl, honce.request.advertised "10.0.0.1" rfl (by decide),
      ⟨_, _, rfl, rfl⟩, hconcludes _ ⟨_, _, rfl, rfl⟩⟩
  · have hbegin : (listened "").Reachable := .begin 0 _ _
    have hdial : Reachable _ := .move hbegin (.step rfl)
    have hconnect : Reachable _ := .move hdial (.step rfl)
    have hsend : Reachable _ := .move hconnect (.step rfl)
    obtain ⟨honce, _⟩ := registers_once hsend
    exact ⟨_, hsend, rfl, rfl, honce.request.bound (.inr rfl)⟩

end RegistrationRun

end NodeHealth
