import NodeHealth.Proofs.Cnode.Progress

/-!
# Every request is answered

On a connection that nothing disturbs, the client has answered every complete request
whenever it waits, whether its session goes on or the peer has ended it, and it always comes
to wait. Together with what it never writes, this is `Scene.conversation`.

## Implementation notes

Nothing is asked of the network but that writing does not fail and does not come to a halt
while the client writes. A connection whose peer is gone takes one more message, so that a
reply to its last request is written even then, unless the client has another one to write.

-/

namespace NodeHealth

namespace Link

variable {link later : Link}

theorem read_append_unread (link : Link) :
    link.read ++ link.unread .dialler = link.acceptor.written :=
  List.take_append_drop _ _

/-- With nothing unread, all has been read. -/
theorem read_of_unread (h : link.unread .dialler = []) : link.read = link.acceptor.written := by
  rw [← read_append_unread, h, List.append_nil]

/-- Every complete request has its reply. -/
def Answered (link : Link) : Prop :=
  link.dialler.written = transcript link.requests.length

theorem answered_of_recorded {phase : ClientPhase} {session : Session}
    (hphase : (∃ deadline, phase = .polling session deadline) ∨
      ∃ reader, phase = .receiving session reader)
    (h : phase.Recorded link) (hunread : link.unread .dialler = []) : link.Answered := by
  rcases hphase with ⟨deadline, rfl⟩ | ⟨reader, rfl⟩
  · obtain ⟨payloads, hread, hwritten⟩ := h
    rw [read_of_unread hunread] at hread
    rw [Answered, requests, hread]
    exact hwritten
  · obtain ⟨payloads, ⟨begun, hread, _⟩, hwritten⟩ := h
    rw [read_of_unread hunread] at hread
    rw [Answered, requests, hread]
    exact hwritten

theorem Answered.alike (hlink : link.Answered) (h : link.Alike later) : later.Answered := by
  rw [Answered, h.written, h.requests]
  exact hlink

/-! ## A connection in use, and one that is over -/

/-- A connection in use, without a failure at the client's end: the client has not finished,
and if the peer is gone it has finished before. -/
structure Live (link : Link) : Prop where
  unfinished : link.dialler.finished = false
  held : link.acceptor.held = false → link.acceptor.finished = true
  broken : link.dialler.broken = true → link.acceptor.finished = true

/-- A connection that is over: the peer writes no more, and all is answered. -/
structure Complete (link : Link) : Prop where
  ended : link.acceptor.finished = true
  answered : link.Answered

theorem live_new : Live {} where
  unfinished := rfl
  held := fun h => by cases h
  broken := fun h => by cases h

theorem Live.beside (hlink : link.Live) (h : link.Beside .dialler later)
    (hfault : later.dialler.fault = none) : later.Live where
  unfinished := h.finished.trans hlink.unfinished
  held := by
    intro hreleased
    rcases h.released hreleased with hbefore | hended | hfailed
    · exact (h.ended (hlink.held hbefore)).1
    · exact hended
    · exact absurd hfault hfailed
  broken := by
    intro hbroken
    rcases h.broken hbroken with hbefore | hended | hfailed
    · exact (h.ended (hlink.broken hbefore)).1
    · exact hended
    · exact absurd hfault hfailed

theorem Complete.beside (hlink : link.Complete) (h : link.Beside .dialler later) :
    later.Complete := by
  obtain ⟨hended, hreceived⟩ := h.ended hlink.ended
  have hreceived : later.acceptor.written = link.acceptor.written := hreceived
  have hwritten : later.dialler.written = link.dialler.written := h.written
  refine ⟨hended, ?_⟩
  rw [Answered, hwritten, requests, hreceived]
  exact hlink.answered

/-- Writing to a peer that is gone breaks a connection, which is then known to be at its
end. -/
theorem Live.wrote (hlink : link.Live) {bytes : Bytes} {count : Nat}
    (h : link.write .dialler bytes = (.wrote count, later)) : later.Live := by
  obtain ⟨rfl, _⟩ := write_wrote_eq h
  refine ⟨hlink.unfinished, hlink.held, ?_⟩
  intro hbroken
  have hbroken : (!link.acceptor.held) = true := hbroken
  exact hlink.held (by simpa using hbroken)

theorem Live.take (hlink : link.Live) (count : Nat) : (link.take .dialler count).Live :=
  ⟨hlink.unfinished, hlink.held, hlink.broken⟩

end Link

namespace Scene

variable {scene later : Scene}

/-! ## Undisturbed runs -/

/-- The client sends a message on a connection. -/
def Sends (scene : Scene) (link : LinkId) (rest : Bytes) : Prop :=
  ∃ backoff message session sending deadline,
    scene.client.loop = some ⟨backoff, Outgoing.phase message session sending deadline⟩ ∧
      session.link = link ∧ sending.rest = rest

/-- Nothing disturbs the conversation on a connection of the client: the client is not
stopped, there is no failure at its end, its end takes what is to be written, and the peer's
bytes hold no frame that is too large. -/
structure Undisturbed (link : LinkId) (scene : Scene) : Prop where
  running : scene.client.running = true
  fault : (scene.net.link link).dialler.fault = none
  unbroken : ∀ {rest}, scene.Sends link rest → (scene.net.link link).dialler.broken = false
  room : ∀ {rest}, scene.Sends link rest →
    (scene.net.link link).writable .dialler rest.length = rest.length
  bounded : ∀ {length limit},
    (Frame.parse .fixed32 CnodeClient.maxRequestLength
      (Frame.series .fixed32 CnodeClient.maxRequestLength
        (scene.net.link link).acceptor.written).2).result ≠ .error (.frameTooLarge length limit)

/-- The client is in a session on a connection, or about to be. -/
def Current (scene : Scene) (link : LinkId) : Prop :=
  (∃ session, scene.client.session? = some session ∧ session.link = link) ∨
    ∃ attempt, scene.client.dialled? = some attempt ∧
      scene.net.attempt attempt = .connected link

/-- What holds of a connection of the client that nothing disturbs. -/
structure Attended (link : LinkId) (scene : Scene) : Prop where
  live : scene.Current link → (scene.net.link link).Live
  complete : ¬scene.Current link → (scene.net.link link).Complete

/-- A client that is in no session and waits for no attempt has no current connection. -/
theorem not_current_of_none {link : LinkId} (hsession : scene.client.session? = none)
    (hdialled : scene.client.dialled? = none) : ¬scene.Current link := by
  rintro (⟨session, h, _⟩ | ⟨attempt, h, _⟩)
  · rw [hsession] at h
    cases h
  · rw [hdialled] at h
    cases h

/-- A message that is sent on a connection that nothing disturbs is written at once. -/
theorem wrote_of_undisturbed {session : Session} {backoff : Backoff} {message : Outgoing}
    {sending : Session.Sending} {deadline : Option Instant}
    (h : scene.Undisturbed session.link)
    (hloop : scene.client.loop = some ⟨backoff, message.phase session sending deadline⟩)
    (hlive : (scene.net.link session.link).Live) :
    ∃ link, (scene.net.link session.link).write .dialler sending.rest =
      (.wrote sending.rest.length, link) := by
  have hsends : scene.Sends session.link sending.rest :=
    ⟨backoff, message, session, sending, deadline, hloop, rfl, rfl⟩
  have hfault : ((scene.net.link session.link).endAt .dialler).fault = none := h.fault
  have hunbroken : ((scene.net.link session.link).endAt .dialler).broken = false :=
    h.unbroken hsends
  have hunfinished : ((scene.net.link session.link).endAt .dialler).finished = false :=
    hlive.unfinished
  simp only [Link.write, hfault, hunbroken, hunfinished, h.room hsends]
  exact ⟨_, rfl⟩

/-- A session on a connection that nothing disturbs goes on, or the peer has ended it and all
is answered. -/
theorem live_of_turn (hsound : scene.Sound) (hscene : scene.Faithful) {session : Session}
    (hsession : scene.client.session? = some session) (h : scene.Undisturbed session.link)
    (hlive : (scene.net.link session.link).Live) {net : Net} {client : CnodeClient}
    (hturn : scene.client.Turn scene.now scene.net net client) :
    (∃ next, client.session? = some next ∧ next.link = session.link) ∧
        (net.link session.link).Live ∨
      client.session? = none ∧ client.dialled? = none ∧ (net.link session.link).Complete := by
  have hchanged := hsound.link_changeLink hsession
  have hstopped : scene.client.running ≠ false := by simp [h.running]
  have hidle : ∀ {backoff phase}, scene.client.loop = some ⟨backoff, phase⟩ →
      phase.session? ≠ none := by
    intro backoff phase hloop hnone
    rw [CnodeClient.session?_of_loop hloop, hnone] at hsession
    cases hsession
  have hbegins : ∀ {loop backoff}, scene.client.loop = some loop →
      ¬CnodeClient.Begins scene.now scene.client.running loop backoff := by
    intro loop backoff hloop hbegins
    cases hbegins <;> exact hidle hloop rfl
  cases hturn with
  | quit hloop h => exact absurd h (hbegins hloop)
  | dial hloop h => exact absurd h (hbegins hloop)
  | doze hloop => exact absurd rfl (hidle hloop)
  | refused hloop => exact absurd rfl (hidle hloop)
  | expired hloop => exact absurd rfl (hidle hloop)
  | connected hloop => exact absurd rfl (hidle hloop)
  | wrote hloop hwrite _ hpart =>
      cases hsession.symm.trans (CnodeClient.session?_of_outgoing hloop)
      obtain ⟨link, hall⟩ := wrote_of_undisturbed h hloop hlive
      cases hall.symm.trans hwrite
      exact absurd hpart (Nat.lt_irrefl _)
  | sent hloop hwrite =>
      cases hsession.symm.trans (CnodeClient.session?_of_outgoing hloop)
      rw [hchanged]
      exact .inl ⟨⟨_, rfl, rfl⟩, hlive.wrote hwrite⟩
  | parted _ _ _ hrunning => exact absurd hrunning hstopped
  | unsent hloop hwrite =>
      cases hsession.symm.trans (CnodeClient.session?_of_outgoing hloop)
      obtain ⟨link, hall⟩ := wrote_of_undisturbed h hloop hlive
      cases hall.symm.trans hwrite
  | late hloop hwrite hpart =>
      cases hsession.symm.trans (CnodeClient.session?_of_outgoing hloop)
      obtain ⟨link, hall⟩ := wrote_of_undisturbed h hloop hlive
      have hzero := hall.symm.trans hwrite
      simp only [Prod.mk.injEq, Link.Delivery.wrote.injEq] at hzero
      omega
  | readable hloop =>
      cases hsession.symm.trans (CnodeClient.session?_of_loop hloop)
      exact .inl ⟨⟨_, rfl, rfl⟩, hlive⟩
  | idle hloop =>
      cases hsession.symm.trans (CnodeClient.session?_of_loop hloop)
      exact .inl ⟨⟨_, rfl, rfl⟩, hlive⟩
  | interrupted hloop harrival =>
      cases hsession.symm.trans (CnodeClient.session?_of_loop hloop)
      cases h.fault.symm.trans (Link.arrival_failed harrival).2
  | dismissed _ _ _ hrunning => exact absurd hrunning hstopped
  | ended hloop hphase harrival =>
      cases hsession.symm.trans (CnodeClient.session?_of_hearing hloop hphase)
      obtain ⟨hunread, hended⟩ := Link.arrival_ended harrival
      have hfinished : (scene.net.link session.link).acceptor.finished = true :=
        hended.elim id hlive.broken
      have hanswered := Link.answered_of_recorded hphase
        (hscene.recorded hloop
          ((CnodeClient.session?_of_loop hloop).symm.trans hsession)) hunread
      have halike := Link.alike_leave (scene.net.link session.link)
      rw [hchanged]
      exact .inr ⟨CnodeClient.session?_retreat _ _ _, CnodeClient.dialled?_retreat _ _ _,
        halike.ended.trans hfinished, hanswered.alike halike⟩
  | failed hloop hphase harrival =>
      cases hsession.symm.trans (CnodeClient.session?_of_hearing hloop hphase)
      cases h.fault.symm.trans (Link.arrival_failed harrival).2
  | more hloop =>
      cases hsession.symm.trans (CnodeClient.session?_of_loop hloop)
      rw [hchanged]
      exact .inl ⟨⟨_, rfl, rfl⟩, hlive.take _⟩
  | request hloop =>
      cases hsession.symm.trans (CnodeClient.session?_of_loop hloop)
      rw [hchanged]
      exact .inl ⟨⟨_, rfl, rfl⟩, hlive.take _⟩
  | rejected hloop harrival hfeed =>
      cases hsession.symm.trans (CnodeClient.session?_of_loop hloop)
      obtain ⟨payloads, hmidway, _⟩ := hscene.recorded hloop rfl
      obtain ⟨declared, body, _, _, _, rfl⟩ := hmidway.declares hfeed
      have hrefused := hmidway.refused hfeed
      rw [← Link.unread_of_arrival harrival, Link.read_append_unread] at hrefused
      exact absurd hrefused h.bounded

/-! ## Attending to a connection -/

/-- A connection that was there before stays current, or not, while others act. -/
theorem current_of_foreign {net : Net} (hsound : scene.Sound)
    (h : scene.net.Foreign scene.holdings net) {link : LinkId} (hlink : scene.Owns link) :
    Current { scene with net } link ↔ scene.Current link := by
  have hattempt : ∀ attempt, scene.client.dialled? = some attempt →
      (net.attempt attempt = .connected link ↔ scene.net.attempt attempt = .connected link) := by
    intro attempt hdialled
    have hmem := hsound.dialled hdialled
    rcases h.evolves.attempt hmem (hsound.attempts attempt hmem) with hsame |
      ⟨hwaiting, hanswers⟩
    · rw [hsame]
    · constructor
      · intro hconnected
        obtain ⟨rfl, _⟩ := hanswers.links_of_connected hconnected
        exact absurd (hsound.links hlink) (Nat.lt_irrefl _)
      · intro hconnected
        rw [hconnected] at hwaiting
        cases hwaiting
  constructor
  · rintro (hsession | ⟨attempt, hdialled, hconnected⟩)
    · exact .inl hsession
    · exact .inr ⟨attempt, hdialled, (hattempt attempt hdialled).mp hconnected⟩
  · rintro (hsession | ⟨attempt, hdialled, hconnected⟩)
    · exact .inl hsession
    · exact .inr ⟨attempt, hdialled, (hattempt attempt hdialled).mpr hconnected⟩

/-- A client whose attempt led to a connection opens a session there. -/
theorem session_of_connected {net : Net} {client : CnodeClient}
    (hturn : scene.client.Turn scene.now scene.net net client) {attempt : AttemptId}
    {link : LinkId} (hdialled : scene.client.dialled? = some attempt)
    (hconnected : scene.net.attempt attempt = .connected link) :
    net = scene.net ∧ ∃ session, client.session? = some session ∧ session.link = link := by
  obtain ⟨backoff, dial, hloop, rfl⟩ := CnodeClient.loop_of_dialled hdialled
  obtain ⟨hnet, deadline, hnext⟩ := hturn.of_connected hloop hconnected
  exact ⟨hnet, _, CnodeClient.session?_of_outgoing hnext, rfl⟩

/-- What holds of a connection that the client has no use for stays. -/
theorem not_current_of_turn (hsound : scene.Sound) {net : Net} {client : CnodeClient}
    (hturn : scene.client.Turn scene.now scene.net net client) {link : LinkId}
    (hlink : scene.Owns link) (h : ¬scene.Current link) :
    ¬(scene.after net client).Current link := by
  rintro (⟨session, hsession, rfl⟩ | ⟨attempt, hdialled, hconnected⟩)
  · rcases hturn.session_cases hsession with ⟨before, hbefore, hsame⟩ | hbefore
    · exact h (.inl ⟨before, hbefore, hsame⟩)
    · exact h (.inr hbefore)
  · change client.dialled? = some attempt at hdialled
    change net.attempt attempt = .connected link at hconnected
    obtain ⟨rfl, _⟩ := hturn.fresh_of_dialled hdialled hconnected
    exact absurd (hsound.links hlink) (Nat.lt_irrefl _)

theorem Attended.turn (hsound : scene.Sound) (hscene : scene.Faithful) {link : LinkId}
    (hlink : scene.Owns link) (hundisturbed : scene.Undisturbed link)
    (h : scene.Attended link) {net : Net} {client : CnodeClient}
    (hturn : scene.client.Turn scene.now scene.net net client) :
    (scene.after net client).Attended link := by
  by_cases hcurrent : scene.Current link
  · have hlive := h.live hcurrent
    rcases hcurrent with ⟨session, hsession, rfl⟩ | ⟨attempt, hdialled, hconnected⟩
    · rcases live_of_turn hsound hscene hsession hundisturbed hlive hturn with
        ⟨hnext, hlater⟩ | ⟨hnone, hidle, hlater⟩
      · exact ⟨fun _ => hlater, fun hnot => absurd (.inl hnext) hnot⟩
      · exact ⟨fun hnot => absurd hnot (not_current_of_none hnone hidle), fun _ => hlater⟩
    · obtain ⟨rfl, hnext⟩ := session_of_connected hturn hdialled hconnected
      exact ⟨fun _ => hlive, fun hnot => absurd (.inl hnext) hnot⟩
  · have hsame : net.link link = scene.net.link link :=
      link_of_turn hturn (hsound.links hlink)
        (fun session hsession hlink => hcurrent (.inl ⟨session, hsession, hlink⟩))
    have hcomplete : (net.link link).Complete := by
      rw [hsame]
      exact h.complete hcurrent
    exact ⟨fun hnot => absurd hnot (not_current_of_turn hsound hturn hlink hcurrent),
      fun _ => hcomplete⟩

theorem Attended.others (hsound : scene.Sound) {link : LinkId} (hlink : scene.Owns link)
    (h : scene.Attended link) {net : Net} (hforeign : scene.net.Foreign scene.holdings net)
    (hfault : (net.link link).dialler.fault = none) :
    Attended link { scene with net } := by
  have hbeside := beside_of_foreign hsound hforeign hlink
  have hsame := current_of_foreign hsound hforeign hlink
  exact ⟨fun hcurrent => (h.live (hsame.mp hcurrent)).beside hbeside hfault,
    fun hnot => (h.complete (mt hsame.mpr hnot)).beside hbeside⟩

/-- Where nothing disturbs a connection, a change of the scene leaves it in use, or over. -/
theorem Attended.move (hsound : scene.Sound) (hscene : scene.Faithful) {link : LinkId}
    (hmove : scene.Move later)
    (h : scene.Owns link → scene.Undisturbed link ∧ scene.Attended link)
    (hlater : later.Undisturbed link) (hlink : later.Owns link) : later.Attended link := by
  rcases (hmove.extends hsound).owns hlink with hold | hadded
  · obtain ⟨hundisturbed, hattended⟩ := h hold
    rcases hmove.cases hsound with ⟨net, client, hturn, rfl⟩ | ⟨net, hforeign, rfl⟩ |
      ⟨now, _, _, _, rfl⟩ | ⟨_, hloop, _, rfl⟩ | ⟨_, rfl⟩ | rfl
    · exact hattended.turn hsound hscene hold hundisturbed hturn
    · exact hattended.others hsound hold hforeign hlater.fault
    · exact ⟨hattended.live, hattended.complete⟩
    · have hbefore : ¬scene.Current link :=
        not_current_of_none (CnodeClient.session?_of_none hloop)
          (by simp [CnodeClient.dialled?, hloop])
      exact ⟨fun hnot => absurd hnot (not_current_of_none rfl rfl),
        fun _ => hattended.complete hbefore⟩
    · cases hlater.running
    · exact hattended
  · refine ⟨fun _ => ?_, fun hnot => absurd (.inr hadded.dialled) hnot⟩
    rw [hadded.unused]
    exact Link.live_new

/-- A run in which nothing disturbs a connection from the moment at which it is there. -/
def Spared (link : LinkId) (scene : Scene) : Prop :=
  scene.Owns link → scene.Undisturbed link

theorem attended_of_within {link : LinkId} (h : scene.Within (Spared link))
    (hlink : scene.Owns link) : scene.Attended link := by
  induction h with
  | begin now net config _ =>
      obtain ⟨attempt, hmem, _⟩ := hlink
      cases hmem
  | move hscene hmove hlater ih =>
      have hreachable := hscene.reachable
      exact Attended.move hreachable.sound hreachable.faithful hmove
        (fun hold => ⟨hscene.holds hold, ih hold⟩) (hlater hlink) hlink

/-- A client that listens and hears nothing has answered all that there is. -/
theorem answered_of_silence (hscene : scene.Faithful) {loop : ClientLoop} {session : Session}
    (hloop : scene.client.loop = some loop)
    (hphase : (∃ deadline, loop.phase = .polling session deadline) ∨
      ∃ reader, loop.phase = .receiving session reader)
    (harrival : (scene.net.link session.link).arrival .dialler = .nothing) :
    (scene.net.link session.link).Answered := by
  refine Link.answered_of_recorded hphase ?_ (Link.arrival_nothing harrival)
  exact hscene.recorded hloop ((CnodeClient.session?_of_loop hloop).symm.trans
    (CnodeClient.session?_of_hearing hloop hphase))

/-- When the client waits, every request on a connection that nothing disturbs has its
reply. -/
theorem answered_of_waits {link : LinkId} (h : scene.Within (Spared link))
    (hlink : scene.Owns link) (hwaits : scene.Waits) : (scene.net.link link).Answered := by
  have hattended := attended_of_within h hlink
  have hundisturbed := h.holds hlink
  have hsound := h.reachable.sound
  have hscene := h.reachable.faithful
  by_cases hcurrent : scene.Current link
  · have hlive := hattended.live hcurrent
    rcases hcurrent with ⟨session, hsession, rfl⟩ | ⟨attempt, hdialled, hconnected⟩
    · cases CnodeClient.waits_of_step hsound.fits hwaits with
      | idle hloop => cases (CnodeClient.session?_of_none hloop).symm.trans hsession
      | dialling hloop => cases (CnodeClient.session?_of_loop hloop).symm.trans hsession
      | outgoing hloop hwrite hpart =>
          cases hsession.symm.trans (CnodeClient.session?_of_outgoing hloop)
          obtain ⟨later, hall⟩ := wrote_of_undisturbed hundisturbed hloop hlive
          have hzero := hall.symm.trans hwrite
          simp only [Prod.mk.injEq, Link.Delivery.wrote.injEq] at hzero
          omega
      | polling hloop harrival =>
          cases hsession.symm.trans (CnodeClient.session?_of_loop hloop)
          exact answered_of_silence hscene hloop (.inl ⟨_, rfl⟩) harrival
      | receiving hloop harrival =>
          cases hsession.symm.trans (CnodeClient.session?_of_loop hloop)
          exact answered_of_silence hscene hloop (.inr ⟨_, rfl⟩) harrival
      | resting hloop => cases (CnodeClient.session?_of_loop hloop).symm.trans hsession
    · obtain ⟨backoff, dial, hloop, rfl⟩ := CnodeClient.loop_of_dialled hdialled
      simp [Waits, CnodeClient.step, hloop, Dial.outcome?, hconnected] at hwaits
  · exact (hattended.complete hcurrent).answered

/-! ## The conversation -/

/-- The complete replies that the client has written. -/
def replies (link : Link) : Nat :=
  (link.dialler.written.length - Outgoing.identity.frame.length) / Outgoing.reply.frame.length

theorem replies_le_requests {link : Link} (h : link.Truthful) :
    replies link ≤ link.requests.length := by
  have hlength := h.told.length_le
  rw [Link.length_transcript] at hlength
  simp only [replies, Outgoing.length_frame]
  omega

/-- At every moment of every run, whatever the peers and others do, the client's bytes on each
of its connections begin the announcement followed by one reply for each complete request that
the peer's bytes begin with. The client always comes to wait. When it waits, every complete
request on a connection that nothing has disturbed has its reply, also if the peer has ended
the connection since. -/
theorem conversation {scene : Scene} (hscene : scene.Reachable)
    (hpoll : 0 < scene.client.config.pollIntervalMs.toNat) :
    (∀ link, scene.Owns link →
      (scene.net.link link).dialler.written <+:
          Link.transcript (scene.net.link link).requests.length ∧
        replies (scene.net.link link) ≤ (scene.net.link link).requests.length) ∧
      (∃ last, scene.Settles last) ∧
      ∀ link, scene.Within (Spared link) → scene.Owns link → scene.Waits →
        (scene.net.link link).dialler.written =
          Link.transcript (scene.net.link link).requests.length := by
  refine ⟨fun link hlink => ?_, settles_of_reachable hscene hpoll,
    fun link hspared hlink hwaits => answered_of_waits hspared hlink hwaits⟩
  have htruthful := hscene.faithful.truthful hlink
  exact ⟨htruthful.told, replies_le_requests htruthful⟩

/-- What keeps the runs below undisturbed. -/
theorem spared_of_record {scene : Scene} {link : LinkId} (hrunning : scene.client.running = true)
    (hfault : (scene.net.link link).dialler.fault = none)
    (hbroken : (scene.net.link link).dialler.broken = false)
    (hroom : (scene.net.link link).acceptor.room = none)
    (hrest : (Frame.parse .fixed32 CnodeClient.maxRequestLength
      (Frame.series .fixed32 CnodeClient.maxRequestLength
        (scene.net.link link).acceptor.written).2).result = .error .closed) :
    scene.Spared link := fun _ => {
  running := hrunning
  fault := hfault
  unbroken := fun _ => hbroken
  room := by
    intro rest _
    have hroom : ((scene.net.link link).endAt Side.dialler.other).room = none := hroom
    simp only [Link.writable, hroom]
  bounded := by
    intro length limit hlarge
    cases hrest.symm.trans hlarge }

/-- A peer sends an empty request in two pieces. -/
theorem within_one_request : ∃ scene : Scene, scene.Within (Spared 0) ∧ scene.Owns 0 ∧
    scene.Waits ∧ 0 < scene.client.config.pollIntervalMs.toNat ∧
    (scene.net.link 0).requests = [[]] := by
  have hseries : ∀ {bytes},
      (Frame.parse .fixed32 CnodeClient.maxRequestLength bytes).result = .error .closed →
        Frame.series .fixed32 CnodeClient.maxRequestLength bytes = ([], bytes) :=
    fun h => Frame.series_of_error h
  have hempty : Frame.series .fixed32 CnodeClient.maxRequestLength [0, 0, 0, 0] = ([[]], []) := by
    rw [Frame.series_of_ok (show Frame.parse .fixed32 CnodeClient.maxRequestLength [0, 0, 0, 0] =
      ⟨.ok [], 4⟩ from rfl)]
    show ([] :: (Frame.series _ _ []).1, (Frame.series _ _ []).2) = _
    rw [hseries rfl]
  have hnone : (Frame.parse .fixed32 CnodeClient.maxRequestLength
      (Frame.series .fixed32 CnodeClient.maxRequestLength []).2).result = .error .closed := by
    rw [hseries rfl]
    rfl
  have hhalf : (Frame.parse .fixed32 CnodeClient.maxRequestLength
      (Frame.series .fixed32 CnodeClient.maxRequestLength [0, 0]).2).result = .error .closed := by
    rw [hseries rfl]
    rfl
  have hwhole : (Frame.parse .fixed32 CnodeClient.maxRequestLength
      (Frame.series .fixed32 CnodeClient.maxRequestLength [0, 0, 0, 0]).2).result =
        .error .closed := by
    rw [hempty]
    rfl
  have hbegin : Within (Spared 0) _ := .begin 0
    { listeners := [{ address := ⟨.loopback, 4000⟩ }] }
    { serverIp := some "127.0.0.1", serverPort := 4000 }
    (fun ⟨attempt, hmem, _⟩ => by cases hmem)
  have hstart : Within (Spared 0) _ := .move hbegin (.start rfl)
    (fun ⟨attempt, hmem, _⟩ => by cases hmem)
  have hdial : Within (Spared 0) _ := .move hstart (.step rfl)
    (spared_of_record rfl rfl rfl rfl hnone)
  have hconnect : Within (Spared 0) _ := .move hdial (.step rfl)
    (spared_of_record rfl rfl rfl rfl hnone)
  have hidentity : Within (Spared 0) _ := .move hconnect (.step rfl)
    (spared_of_record rfl rfl rfl rfl hnone)
  have hfirst : Within (Spared 0) _ := .move hidentity
    (.others (.act (.write 0 .acceptor [0, 0]) (fun h => by cases h.1)))
    (spared_of_record rfl rfl rfl rfl hhalf)
  have hreadable : Within (Spared 0) _ := .move hfirst (.step rfl)
    (spared_of_record rfl rfl rfl rfl hhalf)
  have hmore : Within (Spared 0) _ := .move hreadable (.step rfl)
    (spared_of_record rfl rfl rfl rfl hhalf)
  have hsecond : Within (Spared 0) _ := .move hmore
    (.others (.act (.write 0 .acceptor [0, 0]) (fun h => by cases h.1)))
    (spared_of_record rfl rfl rfl rfl hwhole)
  have hrequest : Within (Spared 0) _ := .move hsecond (.step rfl)
    (spared_of_record rfl rfl rfl rfl hwhole)
  have hreply : Within (Spared 0) _ := .move hrequest (.step rfl)
    (spared_of_record rfl rfl rfl rfl hwhole)
  refine ⟨_, hreply, ⟨0, .head _, rfl⟩, rfl, by decide, ?_⟩
  exact congrArg Prod.fst hempty

/-- The client answers it. -/
theorem conversation_of_one_request : ∃ scene : Scene, scene.Reachable ∧
    0 < scene.client.config.pollIntervalMs.toNat ∧ scene.Owns 0 ∧
    (scene.net.link 0).dialler.written = [2, 0, 0, 0, 8, 13, 2, 0, 0, 0, 8, 1] := by
  obtain ⟨scene, hspared, hlink, hwaits, hpoll, hrequests⟩ := within_one_request
  obtain ⟨_, _, hanswered⟩ := conversation hspared.reachable hpoll
  refine ⟨scene, hspared.reachable, hpoll, hlink, ?_⟩
  rw [hanswered 0 hspared hlink hwaits, hrequests]
  rfl

end Scene

end NodeHealth
