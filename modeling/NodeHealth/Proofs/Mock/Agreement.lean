import NodeHealth.Proofs.Mock.Stages

/-!
# The two sides agree

On a connection of the client that waits at the listener, the client is at a point that it
comes to by itself: it announces what it is and waits. From the moment at which the server
takes such a connection, the two are at points that can occur together until the session ends
(`Meeting.Agreed`). Each kind of move is looked at once: a step of either side leads on to the
next point, time passes only while the server pauses, and nobody else has a hand in it.

-/

namespace NodeHealth

/-- Options with which a session can pass: it has an end, and a read has time to wait. -/
structure MockOptions.Fair (options : MockOptions) : Prop where
  count : 0 < options.count
  timeout : 0 < options.timeoutMs

namespace CnodeClient

variable {now later : Instant} {net next : Net} {client : CnodeClient} {link : LinkId}
  {point : Point}

/-- Where the client stands is its own affair, except that its attempt has led somewhere. -/
theorem At.mono (h : client.At now net link point) (hnow : now ≤ later)
    (hattempt : ∀ attempt, client.dialled? = some attempt →
      net.attempt attempt = .connected link → next.attempt attempt = .connected link) :
    client.At later next link point := by
  cases h with
  | calling hloop hconnected =>
      exact .calling hloop (hattempt _ (dialled?_of_loop hloop) hconnected)
  | announcing hloop hsession => exact .announcing hloop hsession
  | waiting hloop hsession hdeadline =>
      exact .waiting hloop hsession (Nat.le_trans hdeadline (Nat.add_le_add_right hnow _))
  | reading hloop hsession => exact .reading hloop hsession
  | replying hloop hsession => exact .replying hloop hsession

theorem At.wake? {answered : Nat} {deadline : Instant}
    (h : client.At now net link (.waiting answered deadline)) : client.wake? = some deadline := by
  cases h with
  | waiting hloop => simp [CnodeClient.wake?, hloop]

/-- Starting a client that is in its loop changes nothing. -/
theorem start_of_loop (hloop : client.loop.isSome = true) (h : client.isStopping = false) :
    client.start.2 = client := by
  rcases Scene.start_cases client with hsame | ⟨hattached, _⟩
  · exact hsame
  · simp [isStopping, hattached, hloop] at h

end CnodeClient

namespace MockSession

variable {begun now : Instant} {mock : MockSession} {link : LinkId} {point : Point}

theorem session?_of_phase {phase : MockPhase} (hphase : mock.phase = phase) :
    mock.session? = phase.session? := by
  rw [MockSession.session?, hphase]

theorem At.session? (h : mock.At begun now link point) :
    ∃ session, mock.session? = some session ∧ session.link = link := by
  cases h with
  | identifying hphase hsession => exact ⟨_, session?_of_phase hphase, hsession.link_eq⟩
  | requesting hphase hsession => exact ⟨_, session?_of_phase hphase, hsession.link_eq⟩
  | awaiting hphase hsession => exact ⟨_, session?_of_phase hphase, hsession.link_eq⟩
  | pausing hphase hsession => exact ⟨_, session?_of_phase hphase, hsession.link_eq⟩

theorem At.result? (h : mock.At begun now link point) : mock.result? = none := by
  cases h <;> simp [MockSession.result?, *]

theorem At.wake? {answered : Nat} (h : mock.At begun now link (.pausing answered)) :
    mock.wake? = some (begun + answered * mock.options.intervalMs) := by
  cases h with
  | pausing hphase => simp [MockSession.wake?, hphase]

/-- A connection that is taken is the beginning of a session. -/
theorem at_greet (mock : MockSession) (now : Instant) (link : LinkId) :
    (mock.greet now link).At now now link .identifying :=
  .identifying rfl (.refl _) rfl

end MockSession

/-! ## The client on its connection -/

namespace Scene

/-- The client is at a point of a connection that is as this point and a point of the server
make it. -/
structure Stands (scene : Scene) (link : LinkId) (point : CnodeClient.Point)
    (server : MockSession.Point) : Prop where
  agree : Agree point server
  client : scene.client.At scene.now scene.net link point
  record : scene.net.link link = ⟨point.record, server.record⟩

variable {scene later : Scene} {link : LinkId} {point : CnodeClient.Point}
  {server : MockSession.Point}

theorem Stands.current (h : scene.Stands link point server) : scene.Current link := by
  cases h.client with
  | calling hloop hattempt => exact .inr ⟨_, CnodeClient.dialled?_of_loop hloop, hattempt⟩
  | announcing hloop hsession =>
      exact .inl ⟨_, CnodeClient.session?_of_outgoing hloop, hsession.link_eq⟩
  | waiting hloop hsession =>
      exact .inl ⟨_, CnodeClient.session?_of_loop hloop, hsession.link_eq⟩
  | reading hloop hsession =>
      exact .inl ⟨_, CnodeClient.session?_of_loop hloop, hsession.link_eq⟩
  | replying hloop hsession =>
      exact .inl ⟨_, CnodeClient.session?_of_outgoing hloop, hsession.link_eq⟩

theorem Current.loop_isSome (h : scene.Current link) : scene.client.loop.isSome = true := by
  cases hloop : scene.client.loop with
  | none =>
      exact absurd h (not_current_of_none (CnodeClient.session?_of_none hloop)
        (by simp [CnodeClient.dialled?, hloop]))
  | some => rfl

theorem Stands.known (h : scene.Stands link point server) (hsound : scene.Sound) :
    link < scene.net.links.length :=
  hsound.links (hsound.owns h.current)

/-- The client waits to be asked, or it goes on to the next point. -/
theorem Stands.goes (h : scene.Stands link point server) (hsound : scene.Sound)
    (hrunning : scene.client.running = true) :
    (scene.Waits ∧ ∃ deadline, point = .waiting server.asked deadline ∧ scene.now < deadline) ∨
      ∃ net client after, scene.client.step scene.now scene.net = some (net, client) ∧
        point.Next scene.now scene.client.config.pollIntervalMs.toNat server.asked after ∧
          (scene.after net client).Stands link after server := by
  rcases h.client.goes hrunning h.agree h.record (h.known hsound) with hwaits |
    ⟨net, client, after, hstep, hgoes⟩
  · exact .inl hwaits
  · exact .inr ⟨net, client, after, hstep, hgoes.follows,
      ⟨h.agree.next hgoes.follows, hgoes.stands, hgoes.record⟩⟩

theorem Stands.stepped (h : scene.Stands link point server) (hsound : scene.Sound)
    (hrunning : scene.client.running = true) {net : Net} {client : CnodeClient}
    (hstep : scene.client.step scene.now scene.net = some (net, client)) :
    ∃ after, point.Next scene.now scene.client.config.pollIntervalMs.toNat server.asked after ∧
      (scene.after net client).Stands link after server := by
  rcases h.goes hsound hrunning with ⟨hwaits, _⟩ | ⟨_, _, after, hfound, hnext, hstands⟩
  · cases hstep.symm.trans hwaits
  · cases hstep.symm.trans hfound
    exact ⟨after, hnext, hstands⟩

/-- Others have no hand in a connection of which both ends are held. -/
theorem Stands.others (h : scene.Stands link point server) (hsound : scene.Sound)
    {mine : Net.Holdings} {net : Net} (hforeign : scene.net.Foreign mine net)
    (hdialler : mine.ends link .dialler) (hacceptor : mine.ends link .acceptor)
    (hattempts : ∀ attempt ∈ scene.attempts, mine.attempts attempt) :
    Stands { scene with net } link point server where
  agree := h.agree
  client := by
    refine h.client.mono (Nat.le_refl _) fun attempt hdialled hconnected => ?_
    have hmem := hsound.dialled hdialled
    rcases hforeign.evolves.attempt (hattempts attempt hmem) (hsound.attempts attempt hmem) with
      hsame | ⟨hwaiting, _⟩
    · exact hsame.trans hconnected
    · rw [hconnected] at hwaiting
      cases hwaiting
  record := by
    refine Eq.trans ((hforeign.acts (h.known hsound)).eq fun side hfree => hfree ?_) h.record
    cases side
    · exact hdialler
    · exact hacceptor

/-- Which connection the client is on depends on the network only by the attempts. -/
theorem current_of_attempts {net : Net} (hattempts : net.attempts = scene.net.attempts) :
    Current { scene with net } link ↔ scene.Current link := by
  simp only [Current, Net.attempt, hattempts]

/-- What leaves the connection and the attempts alone leaves the client where it is. -/
theorem Stands.of_same (h : scene.Stands link point server) {net : Net}
    (hattempts : net.attempts = scene.net.attempts) (hlink : net.link link = scene.net.link link) :
    Stands { scene with net } link point server where
  agree := h.agree
  client := h.client.mono (Nat.le_refl _) fun attempt _ hconnected => by
    simpa only [Net.attempt, hattempts] using hconnected
  record := hlink.trans h.record

theorem Stands.wait (h : scene.Stands link point server) {now : Instant} (hnow : scene.now ≤ now) :
    Stands { scene with now } link point server :=
  ⟨h.agree, h.client.mono hnow fun _ _ hconnected => hconnected, h.record⟩

/-- A connection that is new is one that the client has yet to use. -/
theorem Adds.stands (h : scene.Adds later link) : later.Stands link .calling .identifying := by
  obtain ⟨attempt, hdialled, hconnected⟩ := h.dialled
  obtain ⟨_, _, hloop, rfl⟩ := CnodeClient.loop_of_dialled hdialled
  exact ⟨.calling, .calling hloop hconnected, h.unused⟩

end Scene

/-! ## The connections in line -/

namespace Meeting

/-- On its connection in line, the client goes as far as it comes without the server. -/
def Lined (scene : Meeting) : Prop :=
  scene.client.running = true → ∀ link ∈ scene.queue, scene.Current link →
    ∃ point, scene.toScene.Stands link point .identifying

/-- The server is in a session with the client, and each of the two is at a point of it. -/
structure Engaged (scene : Meeting) (sitting : Sitting) (point : CnodeClient.Point)
    (server : MockSession.Point) : Prop where
  running : scene.client.running = true
  stands : scene.toScene.Stands sitting.link point server
  server : scene.run.session.At sitting.begun scene.now sitting.link server

/-- The two sides agree, in line and in a session. -/
structure Agreed (scene : Meeting) : Prop where
  lined : scene.Lined
  engaged : scene.run.session.options.Fair → ∀ sitting, scene.sitting = some sitting →
    ∃ point server, scene.Engaged sitting point server

variable {scene later : Meeting} {sitting : Sitting} {point : CnodeClient.Point}
  {server : MockSession.Point}

theorem Engaged.session? (h : scene.Engaged sitting point server) :
    ∃ session, scene.run.session? = some session ∧ session.link = sitting.link :=
  h.server.session?

theorem Engaged.isOver (h : scene.Engaged sitting point server) (hsound : scene.Sound) :
    scene.run.isOver = false := by
  obtain ⟨session, hsession, _⟩ := h.session?
  cases hover : scene.run.isOver with
  | false => rfl
  | true => cases (hsound.ended hover).symm.trans hsession

/-- Both ends of the connection are held. -/
theorem Engaged.holds (h : scene.Engaged sitting point server) (hsound : scene.Sound) :
    scene.holdings.ends sitting.link .dialler ∧ scene.holdings.ends sitting.link .acceptor :=
  ⟨hsound.client.owns h.stands.current, .inr h.session?⟩

/-- What the client and others do leaves the line as it is, up to new connections. -/
theorem Lined.of_extends (hsound : scene.Sound) {next : Scene} (hnext : next.Sound)
    (hextends : scene.toScene.Extends next) (sitting : Option Sitting)
    (hjoins : ∀ {listener}, scene.net.listener? scene.run.session.listener = some listener →
      scene.net.Joins next.net scene.run.session.listener listener)
    (hkept : next.client.running = true → ∀ link ∈ scene.queue, scene.Owns link →
      next.Current link → ∃ point, next.Stands link point .identifying) :
    Lined { toScene := next, run := scene.run, sitting } := by
  intro hrunning link hlink hcurrent
  obtain ⟨listener, hreceives⟩ := hsound.listens
  have hlistener := hreceives.found
  rcases hextends.owns (hnext.owns hcurrent) with howns | hadded
  · have hmem := ((hjoins hlistener).mem_queue hlistener (hsound.client.links howns)).mp hlink
    exact hkept hrunning link hmem howns hcurrent
  · exact ⟨_, hadded.stands⟩

/-! ## Steps of the client -/

theorem Engaged.stepped (h : scene.Engaged sitting point server) (hsound : scene.Sound)
    {net : Net} {client : CnodeClient}
    (hstep : scene.client.step scene.now scene.net = some (net, client)) :
    ∃ after, point.Next scene.now scene.client.config.pollIntervalMs.toNat server.asked after ∧
      Engaged { scene with toScene := scene.toScene.after net client } sitting after server := by
  obtain ⟨after, hnext, hstands⟩ := h.stands.stepped hsound.client h.running hstep
  have hkeeps := (CnodeClient.turn_of_step hsound.client.fits hstep).keeps
  exact ⟨after, hnext, hkeeps.2.1.trans h.running, hstands, h.server⟩

theorem Agreed.stepped (h : scene.Agreed) (hsound : scene.Sound) {net : Net}
    {client : CnodeClient} (hstep : scene.client.step scene.now scene.net = some (net, client)) :
    Agreed { scene with toScene := scene.toScene.after net client } where
  lined := by
    have hmove : scene.toScene.Move _ := .step hstep
    have hturn := CnodeClient.turn_of_step hsound.client.fits hstep
    refine Lined.of_extends hsound (hmove.sound hsound.client) (hmove.extends hsound.client) _
      (joins_of_turn hturn) fun hrunning link hmem howns hcurrent => ?_
    have hrunning : scene.client.running = true := hturn.keeps.2.1.symm.trans hrunning
    have hbefore : scene.Current link := Classical.byContradiction fun hnot =>
      Scene.not_current_of_turn hsound.client hturn howns hnot hcurrent
    obtain ⟨point, hstands⟩ := h.lined hrunning link hmem hbefore
    obtain ⟨after, _, hlater⟩ := hstands.stepped hsound.client hrunning hstep
    exact ⟨after, hlater⟩
  engaged := by
    intro hfair sitting hsitting
    obtain ⟨point, server, hengaged⟩ := h.engaged hfair sitting hsitting
    obtain ⟨after, _, hlater⟩ := hengaged.stepped hsound hstep
    exact ⟨after, server, hlater⟩

/-! ## Steps of the server -/

/-- The session goes on to the next point, or it ends as it should. -/
theorem Engaged.served (h : scene.Engaged sitting point server) (hsound : scene.Sound)
    (hfair : scene.run.session.options.Fair) {net : Net} {run : MockRun}
    (hstep : scene.run.step scene.now scene.net = some (net, run)) :
    (∃ after, server.Next after ∧ (scene.served net run).Engaged sitting point after) ∨
      MockSession.Ends sitting.begun scene.now scene.run.session point server run.session := by
  obtain ⟨session, hsession, _⟩ := h.session?
  rcases MockRun.step_cases hstep with ⟨hnone, _⟩ | ⟨_, hfound, _, hstep, hadvances⟩ | ⟨hnone, _⟩
  · cases hnone.symm.trans hsession
  · rcases h.server.goes h.stands.agree h.stands.record (h.stands.known hsound.client) hfair.count
      hfair.timeout with ⟨hwaits, _⟩ | ⟨_, _, after, hgoing, hgoes⟩ | ⟨_, _, hending, hends⟩
    · cases hstep.symm.trans hwaits
    · cases hstep.symm.trans hgoing
      refine .inl ⟨after, hgoes.follows, h.running, ⟨hgoes.agree, ?_, hgoes.record⟩, hgoes.stands⟩
      refine h.stands.client.mono (Nat.le_refl _) fun attempt _ hconnected => ?_
      exact (hadvances.only.attempt attempt).trans hconnected
    · cases hstep.symm.trans hending
      exact .inr hends
  · cases hnone.symm.trans hsession

/-- A session with the client begins where the client has come to in line. -/
theorem Lined.engaged (h : scene.Lined) {link : LinkId} {net : Net}
    (hreception : scene.net.reception? scene.run.session.listener = some (net, .ok link))
    (hrunning : scene.client.running = true) (hcurrent : scene.Current link) :
    ∃ point, Engaged
      (scene.served net { scene.run with session := scene.run.session.greet scene.now link })
      ⟨link, scene.now⟩ point .identifying := by
  obtain ⟨hqueue, hlinks, hattempts, _⟩ :=
    Net.accept?_cases (Net.reception?_eq_ok hreception).2
  have hmem : link ∈ scene.queue := by
    rw [queue, hqueue]
    exact List.mem_cons_self
  obtain ⟨point, hstands⟩ := h hrunning link hmem hcurrent
  refine ⟨point, hrunning, hstands.of_same hattempts ?_, MockSession.at_greet _ _ _⟩
  simp only [Net.link, hlinks]

theorem Lined.served (h : scene.Lined) (hsound : scene.Sound) {net : Net} {run : MockRun}
    (hstep : scene.run.step scene.now scene.net = some (net, run)) :
    (scene.served net run).Lined := by
  have hkept : ∀ {link}, link ∈ scene.queue → net.attempts = scene.net.attempts →
      net.link link = scene.net.link link → scene.client.running = true →
        (scene.served net run).Current link →
          ∃ point, (scene.served net run).Stands link point .identifying := by
    intro link hmem hattempts hlink hrunning hcurrent
    have hbefore : scene.Current link := (Scene.current_of_attempts hattempts).mp hcurrent
    obtain ⟨point, hstands⟩ := h hrunning link hmem hbefore
    exact ⟨point, hstands.of_same hattempts hlink⟩
  intro hrunning link hlink hcurrent
  rcases MockRun.step_cases hstep with ⟨_, _, taken, hreception, rfl⟩ |
    ⟨session, hsession, _, _, hadvances⟩ | ⟨_, hline, _, hlistener⟩
  · obtain ⟨hqueue, hlinks, hattempts, _⟩ :=
      Net.accept?_cases (Net.reception?_eq_ok hreception).2
    refine hkept ?_ hattempts (by simp only [Net.link, hlinks]) hrunning hcurrent
    rw [queue, hqueue]
    exact List.mem_cons_of_mem _ hlink
  · have honly := hadvances.only
    rw [queue_served (honly.queue _) hadvances.listener] at hlink
    refine hkept hlink honly.attempts (honly.link ?_) hrunning hcurrent
    rintro rfl
    exact (hsound.session session hsession).2 hlink
  · rw [queue_served hline.queue hlistener] at hlink
    exact hkept hlink hline.attempts (by simp only [Net.link, hline.links]) hrunning hcurrent

/-- The server is busy with the client for as long as it is in the session that it began. -/
theorem sitting_of_served {net : Net} {run : MockRun}
    (h : (scene.served net run).sitting = some sitting) :
    ∃ session, run.session? = some session ∧
      (scene.run.session? ≠ none ∧ scene.sitting = some sitting ∨
        scene.run.session? = none ∧ scene.client.running = true ∧
          scene.Current session.link ∧ sitting = ⟨session.link, scene.now⟩) := by
  simp only [Meeting.served] at h
  split at h
  · cases h
  · rename_i session hsession
    refine ⟨session, hsession, ?_⟩
    split at h
    · rename_i hbusy
      exact .inl ⟨Option.isSome_iff_ne_none.mp hbusy, h⟩
    · rename_i hidle
      split at h
      · rename_i hclient
        cases h
        exact .inr ⟨by simpa using hidle, hclient.1, Scene.connection?_eq_some.mp hclient.2, rfl⟩
      · cases h

theorem Agreed.served (h : scene.Agreed) (hsound : scene.Sound) {net : Net} {run : MockRun}
    (hstep : scene.run.step scene.now scene.net = some (net, run)) :
    (scene.served net run).Agreed where
  lined := h.lined.served hsound hstep
  engaged := by
    intro hfair sitting hsitting
    obtain ⟨session, hsession, hbusy | hidle⟩ := sitting_of_served hsitting
    · have hfair : scene.run.session.options.Fair := by
        rcases MockRun.step_cases hstep with ⟨hnone, _⟩ | ⟨_, _, _, _, hadvances⟩ | ⟨hnone, _⟩
        · exact absurd hnone hbusy.1
        · exact hadvances.options ▸ hfair
        · exact absurd hnone hbusy.1
      obtain ⟨point, server, hengaged⟩ := h.engaged hfair sitting hbusy.2
      rcases hengaged.served hsound hfair hstep with ⟨after, _, hlater⟩ | hends
      · exact ⟨point, after, hlater⟩
      · cases (MockSession.session?_of_phase hends.result).symm.trans hsession
    · obtain ⟨hnone, hrunning, hcurrent, rfl⟩ := hidle
      rcases MockRun.step_cases hstep with ⟨_, _, link, hreception, rfl⟩ | ⟨_, hfound, _⟩ |
        ⟨_, _, hlast, _⟩
      · cases hsession
        obtain ⟨point, hengaged⟩ := h.lined.engaged hreception hrunning hcurrent
        exact ⟨point, .identifying, hengaged⟩
      · cases hnone.symm.trans hfound
      · cases hlast.symm.trans hsession

/-! ## The other moves -/

theorem Engaged.others (h : scene.Engaged sitting point server) (hsound : scene.Sound)
    {net : Net} (hforeign : scene.net.Foreign scene.holdings net) :
    Engaged { scene with net } sitting point server := by
  obtain ⟨hdialler, hacceptor⟩ := h.holds hsound
  exact ⟨h.running, h.stands.others hsound.client hforeign hdialler hacceptor fun _ hmem => hmem,
    h.server⟩

theorem Agreed.others (h : scene.Agreed) (hsound : scene.Sound) {net : Net}
    (hforeign : scene.net.Foreign scene.holdings net) : Agreed { scene with net } where
  lined := by
    have hspared := foreign_client hforeign
    have hmove : scene.toScene.Move _ := .others hspared
    refine Lined.of_extends hsound (hmove.sound hsound.client) (hmove.extends hsound.client) _
      (hforeign.joins rfl) fun hrunning link hmem howns hcurrent => ?_
    have hbefore := (Scene.current_of_foreign hsound.client hspared howns).mp hcurrent
    obtain ⟨point, hstands⟩ := h.lined hrunning link hmem hbefore
    exact ⟨point, hstands.others hsound.client hforeign howns (.inl hmem) fun _ hmem => hmem⟩
  engaged := by
    intro hfair sitting hsitting
    obtain ⟨point, server, hengaged⟩ := h.engaged hfair sitting hsitting
    exact ⟨point, server, hengaged.others hsound hforeign⟩

/-- Both wait only while the server pauses between two requests. -/
theorem Engaged.waits (h : scene.Engaged sitting point server) (hsound : scene.Sound)
    (hfair : scene.run.session.options.Fair) (hwaits : scene.Waits) :
    ∃ answered deadline, point = .waiting answered deadline ∧ server = .pausing answered ∧
      scene.now < deadline ∧
        scene.now < sitting.begun + answered * scene.run.session.options.intervalMs := by
  obtain ⟨session, hsession, _⟩ := h.session?
  have hserver : scene.run.session.step scene.now scene.net = none := by
    have hnone := hwaits.2
    rw [MockRun.step_of_session (h.isOver hsound) hsession] at hnone
    exact Option.map_eq_none_iff.mp hnone
  rcases h.stands.goes hsound.client h.running with ⟨_, deadline, hpoint, hdeadline⟩ |
    ⟨_, _, _, hstep, _⟩
  · rcases h.server.goes h.stands.agree h.stands.record (h.stands.known hsound.client)
      hfair.count hfair.timeout with ⟨_, ⟨answered, rfl, hwake⟩ | hbusy⟩ | ⟨_, _, _, hstep, _⟩ |
      ⟨_, _, hstep, _⟩
    · exact ⟨answered, deadline, hpoint, rfl, hdeadline, hwake⟩
    · exact absurd hpoint (hbusy deadline)
    · cases hserver.symm.trans hstep
    · cases hserver.symm.trans hstep
  · cases hstep.symm.trans hwaits.1

theorem Engaged.wait (h : scene.Engaged sitting point server) (hsound : scene.Sound)
    (hfair : scene.run.session.options.Fair) (hwaits : scene.Waits) {now : Instant}
    (hnow : scene.now ≤ now) (hserver : ∀ wake, scene.run.wake? = some wake → now ≤ wake) :
    Engaged { scene with now } sitting point server := by
  obtain ⟨answered, deadline, rfl, rfl, _⟩ := h.waits hsound hfair hwaits
  refine ⟨h.running, h.stands.wait hnow, ?_⟩
  have hwake := hserver _ h.server.wake?
  cases h.server with
  | pausing hphase hsession hmore => exact .pausing hphase hsession hmore hwake

theorem Agreed.wait (h : scene.Agreed) (hsound : scene.Sound) (hwaits : scene.Waits)
    {now : Instant} (hnow : scene.now ≤ now)
    (hserver : ∀ wake, scene.run.wake? = some wake → now ≤ wake) :
    Agreed { scene with now } where
  lined := by
    intro hrunning link hlink hcurrent
    obtain ⟨point, hstands⟩ := h.lined hrunning link hlink hcurrent
    exact ⟨point, hstands.wait hnow⟩
  engaged := by
    intro hfair sitting hsitting
    obtain ⟨point, server, hengaged⟩ := h.engaged hfair sitting hsitting
    exact ⟨point, server, hengaged.wait hsound hfair hwaits hnow hserver⟩

theorem Engaged.start (h : scene.Engaged sitting point server)
    (hstopping : scene.client.isStopping = false) :
    { scene with client := scene.client.start.2 } = scene := by
  rw [CnodeClient.start_of_loop h.stands.current.loop_isSome hstopping]

theorem Agreed.start (h : scene.Agreed) (hstopping : scene.client.isStopping = false) :
    Agreed { scene with client := scene.client.start.2 } := by
  rcases Scene.start_cases scene.client with hsame | ⟨_, _, hstart⟩
  · rw [hsame]
    exact h
  · constructor
    case lined =>
      intro _ link _ hcurrent
      refine absurd hcurrent (Scene.not_current_of_none ?_ ?_)
      · rw [hstart]
        rfl
      · rw [hstart]
        rfl
    case engaged =>
      intro hfair sitting hsitting
      obtain ⟨point, server, hengaged⟩ := h.engaged hfair sitting hsitting
      rw [hengaged.start hstopping]
      exact ⟨point, server, hengaged⟩

theorem Agreed.stop (h : scene.Agreed) :
    Agreed { scene with client := scene.client.requestStop, sitting := none } where
  lined := by
    intro hrunning link hlink hcurrent
    rcases Scene.stop_cases scene.client with hsame | ⟨_, hstop⟩
    · simp only [hsame] at hrunning hcurrent ⊢
      exact h.lined hrunning link hlink hcurrent
    · simp only [hstop] at hrunning
      cases hrunning
  engaged := fun _ _ hsitting => by cases hsitting

theorem Move.agreed (h : scene.Agreed) (hsound : scene.Sound) (hmove : scene.Move later) :
    later.Agreed := by
  cases hmove with
  | step hstep =>
      cases hstep with
      | client hstep => exact h.stepped hsound hstep
      | server hstep => exact h.served hsound hstep
  | others hforeign => exact h.others hsound hforeign
  | wait hwaits hnow _ hserver => exact h.wait hsound hwaits hnow hserver
  | start hstopping => exact h.start hstopping
  | stop => exact h.stop
  | serve => exact ⟨h.lined, fun _ _ hsitting => by cases hsitting⟩

theorem agreed_begin {scene : Scene} {address : SocketAddress} {listener : ListenerId} {net : Net}
    (hlisten : scene.net.listen address = .ok (listener, net)) (options : MockOptions) :
    Agreed { toScene := { scene with net }, run := { session := { listener, options } } } where
  lined := by
    intro _ link hlink
    simp only [Net.listen] at hlisten
    split at hlisten
    · cases hlisten
    · cases hlisten
      simp [queue, Net.queue, Net.listener?] at hlink
  engaged := fun _ _ hsitting => by cases hsitting

/-- Whatever happens, the two agree. -/
theorem Reachable.agreed (h : scene.Reachable) : scene.Agreed := by
  induction h with
  | begin _ hlisten options => exact agreed_begin hlisten options
  | move hscene hmove ih => exact hmove.agreed ih hscene.sound

end Meeting

end NodeHealth
