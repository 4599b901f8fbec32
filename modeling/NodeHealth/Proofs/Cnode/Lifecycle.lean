import NodeHealth.Proofs.Cnode.Answers
import NodeHealth.Proofs.Cnode.Schedule
import NodeHealth.Proofs.Cnode.Stop

/-!
# The life of the cnode client

A client shows a state, has a flag, and may have a loop. The three are changed in different
places, by the calls that start and stop it and by the loop; `CnodeClient.Consistent` is how
they belong together in every scene that is reached. From it follow what the calls do, which
changes of the shown state there are, and why a session ends in which the client serves.

## Implementation notes

A turn ends where the client may have to wait, so that a state it shows in passing is not the
state of a scene: a client that has announced itself and finds its flag cleared goes from
`identifying` to `stopped`.

-/

namespace NodeHealth

/-- What a client may show after what it shows now. -/
def ClientState.nexts : ClientState → List ClientState
  | stopped => [connecting]
  | connecting => [connecting, identifying, stopped]
  | identifying => [serving, connecting, stopped]
  | serving => [connecting, stopped]

/-- What a client shows in a phase. -/
def ClientPhase.shown : ClientPhase → ClientState
  | starting => .stopped
  | dialling _ => .connecting
  | identifying _ _ _ => .identifying
  | polling _ _ => .serving
  | receiving _ _ => .serving
  | replying _ _ _ => .serving
  | resting _ _ => .connecting

theorem ClientPhase.session?_of_serving {phase : ClientPhase} (h : phase.shown = .serving) :
    ∃ session, phase.session? = some session := by
  cases phase with
  | polling session deadline => exact ⟨session, rfl⟩
  | receiving session reader => exact ⟨session, rfl⟩
  | replying session sending deadline => exact ⟨session, rfl⟩
  | _ => cases h

namespace CnodeClient

/-- What the client shows where its loop stands, if there is one. -/
def shown (client : CnodeClient) : ClientState :=
  match client.loop with
  | none => .stopped
  | some loop => loop.phase.shown

/-- The state, the flag and the loop of a client belong together. A client that was stopped may
still have its loop. -/
structure Consistent (client : CnodeClient) : Prop where
  state : client.state = client.shown
  flag : client.running = client.attached
  held : client.attached = true → client.loop ≠ none
  target : client.loop ≠ none → client.config.target? ≠ none

variable {now : Instant} {net later : Net} {client next : CnodeClient}

theorem shown_of_loop {loop : ClientLoop} (hloop : client.loop = some loop) :
    client.shown = loop.phase.shown := by
  rw [shown, hloop]

theorem shown_retreat (client : CnodeClient) (now : Instant) (loop : ClientLoop) :
    (client.retreat now loop).state = (client.retreat now loop).shown := by
  rcases retreat_cases client now loop with ⟨_, heq⟩ | ⟨_, heq⟩ <;> rw [heq] <;> rfl

theorem Begins.shown {loop : ClientLoop} {backoff : Backoff}
    (h : Begins now client.running loop backoff) :
    loop.phase.shown = .stopped ∨ loop.phase.shown = .connecting := by
  cases h with
  | first => exact .inl rfl
  | again => exact .inr rfl

/-! ## What a turn does to the state -/

/-- After a turn the client shows where its loop stands. -/
theorem Turn.shows (h : Turn now net client later next) (hstate : client.state = client.shown) :
    next.state = next.shown := by
  cases h with
  | doze hloop => exact hstate.trans (shown_of_loop hloop)
  | refused => exact shown_retreat _ _ _
  | expired => exact shown_retreat _ _ _
  | @wrote _ message _ _ _ _ _ hloop =>
      cases message <;> exact hstate.trans (shown_of_loop hloop)
  | @sent _ message _ _ _ _ _ hloop =>
      cases message with
      | identity => rfl
      | reply => exact hstate.trans (shown_of_loop hloop)
  | unsent => exact shown_retreat _ _ _
  | late => exact shown_retreat _ _ _
  | readable hloop => exact hstate.trans (shown_of_loop hloop)
  | idle hloop => exact hstate.trans (shown_of_loop hloop)
  | interrupted hloop => exact hstate.trans (shown_of_loop hloop)
  | ended => exact shown_retreat _ _ _
  | failed => exact shown_retreat _ _ _
  | more hloop => exact hstate.trans (shown_of_loop hloop)
  | request hloop => exact hstate.trans (shown_of_loop hloop)
  | rejected => exact shown_retreat _ _ _
  | _ => rfl

theorem cleared_of_retreat {loop : ClientLoop}
    (h : (client.retreat now loop).state = .stopped) : client.running = false := by
  rcases retreat_cases client now loop with ⟨_, heq⟩ | ⟨hstopped, _⟩
  · rw [heq] at h
    cases h
  · exact hstopped

/-- A client stops because its flag is cleared, or because there is nothing to dial. -/
theorem Turn.cleared (h : Turn now net client later next) (hnext : next.state = .stopped) :
    client.state = .stopped ∨ client.running = false ∨ client.config.target? = none := by
  cases h with
  | quit _ _ hquit => exact .inr hquit
  | dial => cases hnext
  | connected => cases hnext
  | @sent _ message =>
      cases message with
      | identity => cases hnext
      | reply => exact .inl hnext
  | parted _ _ _ hstopped => exact .inr (.inl hstopped)
  | dismissed _ _ _ hstopped => exact .inr (.inl hstopped)
  | refused => exact .inr (.inl (cleared_of_retreat hnext))
  | expired => exact .inr (.inl (cleared_of_retreat hnext))
  | unsent => exact .inr (.inl (cleared_of_retreat hnext))
  | late => exact .inr (.inl (cleared_of_retreat hnext))
  | ended => exact .inr (.inl (cleared_of_retreat hnext))
  | failed => exact .inr (.inl (cleared_of_retreat hnext))
  | rejected => exact .inr (.inl (cleared_of_retreat hnext))
  | _ => exact .inl hnext

/-- A loop ends because its flag is cleared, or because there is nothing to dial. -/
theorem Turn.ends (h : Turn now net client later next) (hnext : next.loop = none) :
    client.running = false ∨ client.config.target? = none := by
  have hstopped := h.stopped hnext
  cases h with
  | quit _ _ hquit => exact hquit
  | parted _ _ _ hcleared => exact .inl hcleared
  | dismissed _ _ _ hcleared => exact .inl hcleared
  | refused => exact .inl (cleared_of_retreat hstopped)
  | expired => exact .inl (cleared_of_retreat hstopped)
  | unsent => exact .inl (cleared_of_retreat hstopped)
  | late => exact .inl (cleared_of_retreat hstopped)
  | ended => exact .inl (cleared_of_retreat hstopped)
  | failed => exact .inl (cleared_of_retreat hstopped)
  | rejected => exact .inl (cleared_of_retreat hstopped)
  | _ => cases hnext

theorem Turn.has_loop (h : Turn now net client later next) : client.loop ≠ none := by
  cases h <;> simp_all

theorem Turn.consistent (h : Turn now net client later next) (hclient : client.Consistent) :
    next.Consistent := by
  obtain ⟨hconfig, hrunning, hattached⟩ := h.keeps
  have htarget := hclient.target h.has_loop
  refine ⟨h.shows hclient.state, ?_, fun hheld hnone => ?_, fun _ => hconfig ▸ htarget⟩
  · rw [hrunning, hattached, hclient.flag]
  · rcases h.ends hnone with hstopped | hnowhere
    · rw [hclient.flag, ← hattached, hheld] at hstopped
      cases hstopped
    · exact htarget hnowhere

/-- After an attempt or a session the client connects again, or its flag is cleared. -/
theorem mem_nexts_retreat {state : ClientState} {loop : ClientLoop} (hstate : state ≠ .stopped) :
    (client.retreat now loop).state ∈ state.nexts := by
  rcases retreat_cases client now loop with ⟨_, heq⟩ | ⟨_, heq⟩ <;> rw [heq] <;> cases state <;>
    first | exact absurd rfl hstate | simp [ClientState.nexts, finishLoop]

theorem shown_of_hearing {phase : ClientPhase} {session : Session}
    (h : (∃ deadline, phase = .polling session deadline) ∨
      ∃ reader, phase = .receiving session reader) : phase.shown ≠ .stopped := by
  rcases h with ⟨_, rfl⟩ | ⟨_, rfl⟩ <;> nofun

theorem shown_of_outgoing (message : Outgoing) {session : Session} {sending : Session.Sending}
    {deadline : Option Instant} : (message.phase session sending deadline).shown ≠ .stopped := by
  cases message <;> simp [Outgoing.phase, ClientPhase.shown]

/-- What the client shows changes along the edges of `ClientState.nexts`. -/
theorem Turn.nexts (h : Turn now net client later next) (hstate : client.state = client.shown) :
    next.state = client.state ∨ next.state ∈ client.state.nexts := by
  have hbegins : ∀ {loop backoff}, client.loop = some loop →
      Begins now client.running loop backoff →
        client.state = .stopped ∨ client.state = .connecting := by
    intro loop backoff hloop hbegins
    rw [hstate, shown_of_loop hloop]
    exact hbegins.shown
  have hretreat : ∀ {loop : ClientLoop}, client.loop = some loop →
      loop.phase.shown ≠ .stopped →
        (client.retreat now loop).state ∈ client.state.nexts := by
    intro loop hloop hphase
    rw [hstate, shown_of_loop hloop]
    exact mem_nexts_retreat hphase
  cases h with
  | quit hloop h =>
      rcases hbegins hloop h with hbefore | hbefore
      · exact .inl hbefore.symm
      · exact .inr (by simp [hbefore, ClientState.nexts, finishLoop])
  | dial hloop h =>
      rcases hbegins hloop h with hbefore | hbefore <;>
        exact .inr (by simp [hbefore, ClientState.nexts])
  | refused hloop => exact .inr (hretreat hloop (by simp [ClientPhase.shown]))
  | expired hloop => exact .inr (hretreat hloop (by simp [ClientPhase.shown]))
  | connected hloop =>
      have hbefore : client.state = .connecting := hstate.trans (shown_of_loop hloop)
      exact .inr (by simp [hbefore, ClientState.nexts])
  | @sent _ message _ _ _ _ _ hloop =>
      cases message with
      | identity =>
          have hbefore : client.state = .identifying := hstate.trans (shown_of_loop hloop)
          exact .inr (by simp [hbefore, ClientState.nexts, Outgoing.shown])
      | reply => exact .inl rfl
  | @parted _ message _ _ _ _ _ hloop =>
      refine .inr ?_
      rw [hstate, shown_of_loop hloop]
      cases message <;> simp [ClientState.nexts, finishLoop, Outgoing.phase, ClientPhase.shown]
  | @unsent _ message _ _ _ _ _ hloop => exact .inr (hretreat hloop (shown_of_outgoing message))
  | @late _ message _ _ _ _ hloop => exact .inr (hretreat hloop (shown_of_outgoing message))
  | dismissed hloop =>
      have hbefore : client.state = .serving := hstate.trans (shown_of_loop hloop)
      exact .inr (by simp [hbefore, ClientState.nexts, finishLoop])
  | ended hloop hphase => exact .inr (hretreat hloop (shown_of_hearing hphase))
  | failed hloop hphase => exact .inr (hretreat hloop (shown_of_hearing hphase))
  | rejected hloop => exact .inr (hretreat hloop (by simp [ClientPhase.shown]))
  | _ => exact .inl rfl

/-! ## The calls -/

/-- What the calls find and leave. A client that waits for its loop to end is not started. -/
structure Obeys (client : CnodeClient) : Prop where
  idle : client.loop = none → client.state = .stopped ∧ client.isRunning = false
  fails : client.isStopping = false →
    (client.start.1 = .error .alreadyRunning ↔ client.loop ≠ none)
  unchanged : client.start.1 = .error .alreadyRunning → client.start.2 = client
  disregards : client.config.target? = none → client.start = (.ok (), client)
  begins : client.loop = none → client.config.target? ≠ none → client.start = (.ok (),
    { client with
      running := true
      attached := true
      loop := some ⟨.ofLimits client.config.initialBackoffSecs client.config.maxBackoffSecs,
        .starting⟩ })
  stays : client.loop = none → client.requestStop = client

theorem start_fails : client.start.1 = .error .alreadyRunning ↔ client.attached = true := by
  unfold start
  split
  · rename_i hattached
    exact ⟨fun _ => hattached, fun _ => rfl⟩
  · rename_i hattached
    split <;> exact ⟨nofun, fun h => absurd h hattached⟩

theorem Consistent.obeys (h : client.Consistent) : client.Obeys := by
  have hfree : client.loop = none → client.attached = false := by
    intro hloop
    rw [← Bool.not_eq_true]
    exact fun hattached => h.held hattached hloop
  have hnowhere : client.config.target? = none → client.loop = none := by
    intro htarget
    apply Classical.byContradiction
    exact fun hloop => h.target hloop htarget
  constructor
  case idle =>
    intro hloop
    refine ⟨h.state.trans (by rw [shown, hloop]), ?_⟩
    rw [isRunning, hfree hloop, Bool.false_and]
  case fails =>
    intro hcalled
    rw [start_fails]
    refine ⟨h.held, fun hloop => ?_⟩
    simpa [isStopping, Option.isSome_iff_ne_none.mpr hloop] using hcalled
  case unchanged =>
    intro hfails
    simp [start, start_fails.mp hfails]
  case disregards =>
    intro htarget
    simp [start, hfree (hnowhere htarget), htarget]
  case begins =>
    intro hloop htarget
    simp [start, hfree hloop, htarget]
  case stays =>
    intro hloop
    simp [requestStop, hfree hloop]

end CnodeClient

/-- Behind the complete requests, the peer declares one that is too long. -/
def Link.Oversized (link : Link) : Prop :=
  ∃ declared body, (Frame.series .fixed32 CnodeClient.maxRequestLength
      link.acceptor.written).2 = declared ++ body ∧
    declared.length = Frame.fixedPrefixLength ∧
    CnodeClient.maxRequestLength < ofLittleEndian declared

theorem Link.oversized_of_refused {link : Link} {payloads : List Bytes} {reader : Frame.Reader}
    {unread rest : Bytes} {error : WireError}
    (h : Frame.Midway .fixed32 CnodeClient.maxRequestLength link.read payloads reader)
    (harrival : link.arrival .dialler = .bytes unread)
    (hfeed : reader.feed unread = .done (.error error) rest) : link.Oversized := by
  have hbytes : link.acceptor.written = link.read ++ unread := by
    rw [← read_append_unread, unread_of_arrival harrival]
  obtain ⟨declared, body, hbehind, hlength, hlimit, _⟩ := h.declares hfeed
  exact ⟨declared, body, hbytes ▸ hbehind, hlength, hlimit⟩

namespace Scene

variable {scene later : Scene}

theorem Reachable.consistent (h : scene.Reachable) : scene.client.Consistent := by
  apply h.invariant fun _ client => client.Consistent
  case hbegin => exact fun _ _ => ⟨rfl, rfl, nofun, fun hloop => absurd rfl hloop⟩
  case hturn => exact fun hturn hclient => hturn.consistent hclient
  case hwait => exact fun _ hclient => hclient
  case hstart =>
    intro now client hloop htarget hclient
    refine ⟨hclient.state.trans ?_, rfl, nofun, fun _ => htarget⟩
    rw [CnodeClient.shown, hloop]
    rfl
  case hstop => exact fun hclient => ⟨hclient.state, rfl, nofun, hclient.target⟩

theorem Move.nexts (hscene : scene.Reachable) (h : scene.Move later) :
    later.client.state = scene.client.state ∨
      later.client.state ∈ scene.client.state.nexts := by
  rcases h.cases hscene.sound with ⟨_, _, hturn, rfl⟩ | ⟨_, _, rfl⟩ | ⟨_, _, _, _, rfl⟩ |
    ⟨_, _, _, rfl⟩ | ⟨_, rfl⟩ | rfl
  · exact hturn.nexts hscene.consistent.state
  all_goals exact .inl rfl

theorem Move.cleared (hscene : scene.Reachable) (h : scene.Move later)
    (hstopped : later.client.state = .stopped) :
    scene.client.state = .stopped ∨ scene.client.running = false := by
  rcases h.cases hscene.sound with ⟨_, _, hturn, rfl⟩ | ⟨_, _, rfl⟩ | ⟨_, _, _, _, rfl⟩ |
    ⟨_, _, _, rfl⟩ | ⟨_, rfl⟩ | rfl
  · have htarget := hscene.consistent.target hturn.has_loop
    rcases hturn.cleared hstopped with hbefore | hcleared | hnowhere
    · exact .inl hbefore
    · exact .inr hcleared
    · exact absurd hnowhere htarget
  all_goals exact .inl hstopped

/-! ## The session in which the client serves -/

/-- Where the client serves, it has announced itself. -/
def Announced (scene : Scene) : Prop :=
  ∀ session, scene.client.session? = some session → scene.client.shown = .serving →
    Outgoing.identity.frame <+: (scene.net.link session.link).dialler.written

theorem announced_of_turn (hscene : scene.Reachable) {net : Net} {client : CnodeClient}
    (hturn : scene.client.Turn scene.now scene.net net client) (h : scene.Announced) :
    (scene.after net client).Announced := by
  intro session hsession hserving
  change client.session? = some session at hsession
  change client.shown = .serving at hserving
  show Outgoing.identity.frame <+: (net.link session.link).dialler.written
  have hsound := hscene.sound
  have hnone : ∀ {loop}, client = scene.client.retreat scene.now loop → False := by
    rintro loop rfl
    cases (CnodeClient.session?_retreat _ _ _).symm.trans hsession
  cases hturn with
  | quit => cases hsession
  | dial => cases hsession
  | doze => cases hsession
  | refused => exact (hnone rfl).elim
  | expired => exact (hnone rfl).elim
  | connected => cases hserving
  | @wrote _ message before _ _ _ _ hloop hwrite =>
      have hbefore := CnodeClient.session?_of_outgoing hloop
      cases (CnodeClient.session?_of_outgoing rfl).symm.trans hsession
      have hshown : scene.client.shown = .serving := by
        rw [CnodeClient.shown_of_loop hloop]
        cases message <;> exact hserving
      rw [hsound.link_changeLink hbefore, (Link.write_wrote hwrite).1]
      exact (h _ hbefore hshown).trans (List.prefix_append _ _)
  | @sent _ _ before sending _ _ _ hloop hwrite hall =>
      cases hsession
      have hrecorded := hscene.faithful.recorded_outgoing hloop
      have hsent : (ClientPhase.polling before 0).Recorded _ := hrecorded.sent hwrite hall
      obtain ⟨payloads, _, hwritten⟩ := hsent
      have hlink := hsound.link_changeLink (CnodeClient.session?_of_outgoing hloop)
      show _ <+: (Link.dialler (Net.link _ before.link)).written
      rw [hlink, hwritten]
      exact List.prefix_append _ _
  | parted => cases hsession
  | unsent => exact (hnone rfl).elim
  | late => exact (hnone rfl).elim
  | readable hloop =>
      cases hsession
      exact h _ (CnodeClient.session?_of_loop hloop) (CnodeClient.shown_of_loop hloop)
  | idle hloop =>
      cases hsession
      exact h _ (CnodeClient.session?_of_loop hloop) (CnodeClient.shown_of_loop hloop)
  | interrupted hloop =>
      cases hsession
      have hbefore := CnodeClient.session?_of_loop hloop
      rw [hsound.link_changeLink hbefore]
      exact h _ hbefore (CnodeClient.shown_of_loop hloop)
  | dismissed => cases hsession
  | ended => exact (hnone rfl).elim
  | failed => exact (hnone rfl).elim
  | more hloop =>
      cases hsession
      have hbefore := CnodeClient.session?_of_loop hloop
      rw [hsound.link_changeLink hbefore]
      exact h _ hbefore (CnodeClient.shown_of_loop hloop)
  | @request _ before _ _ _ _ hloop =>
      cases hsession
      have hbefore := CnodeClient.session?_of_loop hloop
      show _ <+: (Link.dialler (Net.link _ before.link)).written
      rw [hsound.link_changeLink hbefore]
      exact h _ hbefore (CnodeClient.shown_of_loop hloop)
  | rejected => exact (hnone rfl).elim

theorem Reachable.announced (h : scene.Reachable) : scene.Announced := by
  induction h with
  | begin => exact fun _ hsession => by cases hsession
  | @move scene later hscene hmove _ ih =>
      have hsound := Reachable.sound hscene
      rcases hmove.cases hsound with ⟨_, _, hturn, rfl⟩ | ⟨_, hforeign, rfl⟩ |
        ⟨_, _, _, _, rfl⟩ | ⟨_, _, _, rfl⟩ | ⟨_, rfl⟩ | rfl
      · exact announced_of_turn hscene hturn ih
      · intro session hsession hserving
        have hbeside := beside_of_foreign hsound hforeign (hsound.session hsession)
        have hwritten := ih session hsession hserving
        exact hbeside.written.symm ▸ hwritten
      · exact ih
      · exact fun _ hsession => by cases hsession
      · exact ih
      · exact ih

/-- Why a session ends in which the client serves. -/
inductive Loss (scene : Scene) (session : Session) : Prop
  | hungUp (h : (scene.net.link session.link).arrival .dialler = .ended)
  | failed {cause : IoCause} (h : (scene.net.link session.link).arrival .dialler = .failed cause)
  /-- A reply cannot be written. -/
  | unsent {backoff : Backoff} {sending : Session.Sending} {deadline : Option Instant}
      {cause : IoCause}
      (hloop : scene.client.loop = some ⟨backoff, .replying session sending deadline⟩)
      (h : ((scene.net.link session.link).write .dialler sending.rest).1 = .failed cause)
  | oversized (h : (scene.net.link session.link).Oversized)
  /-- There is no room for a reply, and its deadline has passed. -/
  | late {backoff : Backoff} {sending : Session.Sending} {deadline : Instant}
      (hloop : scene.client.loop = some ⟨backoff, .replying session sending (some deadline)⟩)
      (hpart : 0 < sending.rest.length)
      (h : ((scene.net.link session.link).write .dialler sending.rest).1 = .wrote 0)
      (hdeadline : deadline ≤ scene.now)
  | cleared (h : scene.client.running = false)

/-- A client that serves goes on to serve in its session, or the session is lost. -/
theorem loss_of_turn (hscene : scene.Reachable) {net : Net} {client : CnodeClient}
    (hturn : scene.client.Turn scene.now scene.net net client) {session : Session}
    (hsession : scene.client.session? = some session)
    (hserving : scene.client.shown = .serving) :
    client.shown = .serving ∧ (∃ after, client.session? = some after ∧
      after.link = session.link) ∨ scene.Loss session ∧ client.session? = none := by
  have hidle : ∀ {loop : ClientLoop}, scene.client.loop = some loop →
      loop.phase.session? = none → False := by
    intro loop hloop hphase
    cases hphase.symm.trans ((CnodeClient.session?_of_loop hloop).symm.trans hsession)
  have hbegins : ∀ {loop backoff}, scene.client.loop = some loop →
      CnodeClient.Begins scene.now scene.client.running loop backoff → False := by
    intro loop backoff hloop hbegins
    cases hbegins <;> exact hidle hloop rfl
  -- what is sent while the client serves is a reply
  have hreply : ∀ {backoff message before sending deadline},
      scene.client.loop = some ⟨backoff, Outgoing.phase message before sending deadline⟩ →
        message = .reply ∧ before = session := by
    intro backoff message before sending deadline hloop
    cases hsession.symm.trans (CnodeClient.session?_of_outgoing hloop)
    refine ⟨?_, rfl⟩
    cases message with
    | identity => cases hserving.symm.trans (CnodeClient.shown_of_loop hloop)
    | reply => rfl
  cases hturn with
  | quit hloop h => exact (hbegins hloop h).elim
  | dial hloop h => exact (hbegins hloop h).elim
  | doze hloop => exact (hidle hloop rfl).elim
  | refused hloop => exact (hidle hloop rfl).elim
  | expired hloop => exact (hidle hloop rfl).elim
  | connected hloop => exact (hidle hloop rfl).elim
  | wrote hloop =>
      obtain ⟨rfl, rfl⟩ := hreply hloop
      exact .inl ⟨rfl, _, rfl, rfl⟩
  | sent hloop =>
      obtain ⟨rfl, rfl⟩ := hreply hloop
      exact .inl ⟨rfl, _, rfl, rfl⟩
  | parted _ _ _ hstopped => exact .inr ⟨.cleared hstopped, rfl⟩
  | unsent hloop hwrite =>
      obtain ⟨rfl, rfl⟩ := hreply hloop
      exact .inr ⟨.unsent hloop (by rw [hwrite]), CnodeClient.session?_retreat _ _ _⟩
  | @late _ _ _ _ deadline _ hloop hwrite hpart hdeadline =>
      obtain ⟨rfl, rfl⟩ := hreply hloop
      cases deadline with
      | none => cases hdeadline
      | some deadline =>
          exact .inr ⟨.late hloop hpart (by rw [hwrite]) (of_decide_eq_true hdeadline),
            CnodeClient.session?_retreat _ _ _⟩
  | readable hloop =>
      cases hsession.symm.trans (CnodeClient.session?_of_loop hloop)
      exact .inl ⟨rfl, _, rfl, rfl⟩
  | idle hloop =>
      cases hsession.symm.trans (CnodeClient.session?_of_loop hloop)
      exact .inl ⟨rfl, _, rfl, rfl⟩
  | interrupted hloop =>
      cases hsession.symm.trans (CnodeClient.session?_of_loop hloop)
      exact .inl ⟨rfl, _, rfl, rfl⟩
  | dismissed _ _ _ hstopped => exact .inr ⟨.cleared hstopped, rfl⟩
  | ended hloop hphase harrival =>
      cases hsession.symm.trans (CnodeClient.session?_of_hearing hloop hphase)
      exact .inr ⟨.hungUp harrival, CnodeClient.session?_retreat _ _ _⟩
  | failed hloop hphase harrival =>
      cases hsession.symm.trans (CnodeClient.session?_of_hearing hloop hphase)
      exact .inr ⟨.failed harrival, CnodeClient.session?_retreat _ _ _⟩
  | more hloop =>
      cases hsession.symm.trans (CnodeClient.session?_of_loop hloop)
      exact .inl ⟨rfl, _, rfl, rfl⟩
  | request hloop =>
      cases hsession.symm.trans (CnodeClient.session?_of_loop hloop)
      exact .inl ⟨rfl, _, rfl, rfl⟩
  | rejected hloop harrival hfeed =>
      cases hsession.symm.trans (CnodeClient.session?_of_loop hloop)
      obtain ⟨payloads, hmidway, _⟩ := hscene.faithful.recorded hloop rfl
      exact .inr ⟨.oversized (Link.oversized_of_refused hmidway harrival hfeed),
        CnodeClient.session?_retreat _ _ _⟩

/-- A session in which the client serves goes on, or it is lost and its connection is let
go of. -/
theorem Move.serves_or_leaves (hscene : scene.Reachable) (h : scene.Move later)
    {session : Session} (hsession : scene.client.session? = some session)
    (hserving : scene.client.state = .serving) :
    later.client.state = .serving ∧ (∃ after, later.client.session? = some after ∧
        after.link = session.link) ∨
      scene.Loss session ∧ (later.net.link session.link).dialler.held = false := by
  have hsound := hscene.sound
  rcases h.cases hsound with ⟨net, client, hturn, rfl⟩ | ⟨_, _, rfl⟩ | ⟨_, _, _, _, rfl⟩ |
    ⟨_, hloop, _, rfl⟩ | ⟨_, rfl⟩ | rfl
  · have hconsistent := hscene.consistent
    have hshown := hconsistent.state.symm.trans hserving
    rcases loss_of_turn hscene hturn hsession hshown with
      ⟨hserves, hstays⟩ | ⟨hloss, hnone⟩
    · exact .inl ⟨(hturn.shows hconsistent.state).trans hserves, hstays⟩
    · rcases hturn.stays_or_leaves hsession with ⟨_, hstays, _⟩ | ⟨change, rfl⟩
      · cases hnone.symm.trans hstays
      · refine .inr ⟨hloss, ?_⟩
        have hleft : ((scene.net.changeLink session.link fun link =>
            (change link).leave .dialler).link session.link).dialler.held = false := by
          rw [hsound.link_changeLink hsession]
          exact Link.held_leave _ .dialler
        exact hleft
  · exact .inl ⟨hserving, session, hsession, rfl⟩
  · exact .inl ⟨hserving, session, hsession, rfl⟩
  · cases (CnodeClient.session?_of_none hloop).symm.trans hsession
  · exact .inl ⟨hserving, session, hsession, rfl⟩
  · exact .inl ⟨hserving, session, hsession, rfl⟩

/-- The life of a client in any network. A call of `start` fails, and changes nothing, exactly
if there is a loop, and puts one in place only where there was none and there is something to
dial; without a loop the client is stopped and does not run. What it shows changes along the
edges of `ClientState.nexts` only, and to `stopped` only after its flag was cleared. Where it
serves it has announced itself on the connection of its session, which it leaves only for one
of the reasons in `Loss`. -/
theorem lifecycle (h : scene.Reachable) :
    scene.client.Obeys ∧
      (scene.client.state = .serving → ∃ session, scene.client.session? = some session ∧
        scene.Owns session.link ∧
        Outgoing.identity.frame <+: (scene.net.link session.link).dialler.written) ∧
      ∀ {later : Scene}, scene.Move later →
        (later.client.state = scene.client.state ∨
          later.client.state ∈ scene.client.state.nexts) ∧
        (later.client.state = .stopped →
          scene.client.state = .stopped ∨ scene.client.running = false) ∧
        (scene.client.state = .serving → ∀ session, scene.client.session? = some session →
          later.client.state = .serving ∧ (∃ after, later.client.session? = some after ∧
              after.link = session.link) ∨
            scene.Loss session ∧ (later.net.link session.link).dialler.held = false) := by
  have hconsistent := h.consistent
  refine ⟨hconsistent.obeys, fun hserving => ?_, fun hmove => ⟨hmove.nexts h, hmove.cleared h,
    fun hserving session hsession => hmove.serves_or_leaves h hsession hserving⟩⟩
  have hshown := hconsistent.state.symm.trans hserving
  cases hloop : scene.client.loop with
  | none =>
      rw [CnodeClient.shown, hloop] at hshown
      cases hshown
  | some loop =>
      rw [CnodeClient.shown_of_loop hloop] at hshown
      obtain ⟨session, hphase⟩ := ClientPhase.session?_of_serving hshown
      have hsession := (CnodeClient.session?_of_loop hloop).trans hphase
      exact ⟨session, hsession, h.sound.session hsession, h.announced session hsession
        (hconsistent.state.symm.trans hserving)⟩

/-- The peer of a client that serves hangs up, and the client connects again. -/
theorem lifecycle_of_hang_up : ∃ scene later : Scene, scene.Reachable ∧
    scene.client.state = .serving ∧ scene.Move later ∧ later.client.state = .connecting ∧
    ∃ session, scene.client.session? = some session ∧ scene.Loss session ∧
      (later.net.link session.link).dialler.held = false := by
  have hbegin : Reachable _ := .begin 0 { listeners := [{ address := ⟨.loopback, 4000⟩ }] }
    { serverIp := some "127.0.0.1", serverPort := 4000 } trivial
  have hstart : Reachable _ := .move hbegin (.start rfl) trivial
  have hdial : Reachable _ := .move hstart (.step rfl) trivial
  have hconnect : Reachable _ := .move hdial (.step rfl) trivial
  have hidentity : Reachable _ := .move hconnect (.step rfl) trivial
  have hended : Reachable _ := .move hidentity
    (.others (.act (.close 0 .acceptor) (fun h => by cases h.1))) trivial
  obtain ⟨_, _, hmoves⟩ := lifecycle hended
  obtain ⟨_, _, hserves⟩ := hmoves (.step rfl)
  rcases hserves rfl _ rfl with ⟨hstays, _⟩ | hlost
  · cases hstays
  · exact ⟨_, _, hended, rfl, .step rfl, rfl, _, rfl, hlost⟩

end Scene

end NodeHealth
