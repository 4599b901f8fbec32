import NodeHealth.Proofs.Mock.Agreement

/-!
# What comes of a session

A session of the mock server with a client that nobody stops passes, and takes as long as the
pauses between its requests together. The two sides take a bounded number of steps until then,
however often the client looks at its flag while the server pauses.

## Implementation notes

Each step leads one of the two to its next point, unless the client only looks at its flag.
Then it puts its next look off by its poll interval, and none comes later than the last pause.
So `Meeting.work` prices a point at more than all looks that can follow.

-/

namespace NodeHealth

open Link (transcript)

/-- The instant at which a session is to end that began at an instant. -/
def MockOptions.due (options : MockOptions) (begun : Instant) : Instant :=
  begun + (options.count - 1) * options.intervalMs

/-! ## How far a session has come -/

namespace MockSession

/-- How many points of a session the server has left behind. -/
def Point.steps : Point → Nat
  | identifying => 0
  | requesting answered => 1 + 3 * answered
  | awaiting answered => 2 + 3 * answered
  | pausing answered => 3 * answered

/-- How many requests were answered when the server came to a point. -/
def Point.answered : Point → Nat
  | identifying => 0
  | requesting answered => answered
  | awaiting answered => answered
  | pausing answered => answered

variable {begun now : Instant} {mock : MockSession} {link : LinkId} {point after : Point}

theorem Point.Next.steps (h : point.Next after) : after.steps = point.steps + 1 := by
  cases h <;> simp only [Point.steps] <;> omega

theorem At.answered_lt (h : mock.At begun now link point) (hcount : 0 < mock.options.count) :
    point.answered < mock.options.count := by
  cases h with
  | identifying => exact hcount
  | requesting _ _ hmore => exact hmore
  | awaiting _ _ hmore => exact hmore
  | pausing _ _ hmore => exact hmore

theorem At.in_time (h : mock.At begun now link point) : now ≤ mock.options.due begun := by
  have hpauses : ∀ {answered}, answered < mock.options.count →
      begun + answered * mock.options.intervalMs ≤ mock.options.due begun := fun hmore =>
    Nat.add_le_add_left (Nat.mul_le_mul_right _ (Nat.le_sub_one_of_lt hmore)) _
  cases h with
  | identifying _ _ hnow => exact hnow ▸ Nat.le_add_right _ _
  | requesting _ _ hmore hnow => exact hnow ▸ hpauses hmore
  | awaiting _ _ hmore hnow => exact hnow ▸ hpauses hmore
  | pausing _ _ hmore hnow => exact Nat.le_trans hnow (hpauses hmore)

end MockSession

namespace CnodeClient

/-- How many points of a connection the client has left behind. -/
def Point.steps : Point → Nat
  | calling => 0
  | announcing => 1
  | waiting answered _ => 2 + 3 * answered
  | reading answered => 3 + 3 * answered
  | replying answered => 4 + 3 * answered

/-- How long before a limit the client looks at its flag. -/
def Point.patience (limit : Nat) : Point → Nat
  | waiting _ deadline => limit - deadline
  | _ => 0

theorem Point.patience_le (point : Point) (limit : Nat) : point.patience limit ≤ limit := by
  cases point with
  | waiting => exact Nat.sub_le _ _
  | _ => exact Nat.zero_le _

/-- The client leaves a point behind, or it looks at its flag and goes on waiting. -/
theorem Point.Next.steps {now : Instant} {patience asked : Nat} {point after : Point}
    (h : point.Next now patience asked after) :
    after.steps = point.steps + 1 ∨ after.steps = point.steps ∧
      ∃ answered deadline, deadline ≤ now ∧ point = .waiting answered deadline ∧
        after = .waiting answered (now + patience) := by
  cases h with
  | connected => exact .inl rfl
  | announced => exact .inl rfl
  | noticed => exact .inl (by simp only [Point.steps]; omega)
  | idle _ hdeadline => exact .inr ⟨rfl, _, _, hdeadline, rfl, rfl⟩
  | read => exact .inl (by simp only [Point.steps]; omega)
  | replied => exact .inl (by simp only [Point.steps]; omega)

end CnodeClient

theorem Agree.steps_lt {client : CnodeClient.Point} {server : MockSession.Point} {count : Nat}
    (h : Agree client server) (hmore : server.answered < count) :
    client.steps + server.steps < 6 * count + 2 := by
  cases h <;> simp only [MockSession.Point.answered] at hmore <;>
    simp only [CnodeClient.Point.steps, MockSession.Point.steps] <;> omega

/-- What is left to do in a session, at most. -/
def sessionWork (count due patience now : Nat) (client : CnodeClient.Point)
    (server : MockSession.Point) : Nat :=
  let limit := due + patience + 1
  (6 * count + 2 - (client.steps + server.steps)) * (limit + 1) + client.patience limit +
    (due - now)

/-- A point that is left behind pays for all patience. -/
theorem sessionWork_lt {count due patience now : Nat} {client client' : CnodeClient.Point}
    {server server' : MockSession.Point}
    (hsteps : client'.steps + server'.steps = client.steps + server.steps + 1)
    (htotal : client'.steps + server'.steps ≤ 6 * count + 2) :
    sessionWork count due patience now client' server' <
      sessionWork count due patience now client server := by
  have hbefore : 6 * count + 2 - (client.steps + server.steps) =
      6 * count + 2 - (client'.steps + server'.steps) + 1 := by omega
  have hpatience := client'.patience_le (due + patience + 1)
  simp only [sessionWork, hbefore, Nat.add_mul]
  omega

/-- The next look at the flag is nearer to the limit than the one that is due. -/
theorem patience_lt {now due patience deadline : Nat} (hnow : now ≤ due)
    (hdeadline : deadline ≤ now) (hpatience : 0 < patience) :
    due + patience + 1 - (now + patience) < due + patience + 1 - deadline := by
  omega

theorem sessionWork_client {count due patience now asked : Nat}
    {point after : CnodeClient.Point} {server : MockSession.Point}
    (hnext : point.Next now patience asked after)
    (htotal : after.steps + server.steps ≤ 6 * count + 2) (hnow : now ≤ due)
    (hpatience : 0 < patience) :
    sessionWork count due patience now after server <
      sessionWork count due patience now point server := by
  rcases hnext.steps with hsteps | ⟨_, answered, deadline, hdeadline, rfl, rfl⟩
  · exact sessionWork_lt (by omega) htotal
  · exact Nat.add_lt_add_right (Nat.add_lt_add_left (patience_lt hnow hdeadline hpatience) _) _

/-! ## How a meeting goes on -/

namespace Meeting

/-- A meeting goes on by itself: one of the two takes a step, or both wait for some time. -/
inductive Proceeds (scene : Meeting) : Meeting → Prop
  | step {later : Meeting} (h : scene.Step later) : Proceeds scene later
  | wait {now : Instant} (hwaits : scene.Waits) (hnow : scene.now < now)
      (hclient : ∀ wake, scene.client.wake? = some wake → now ≤ wake)
      (hserver : ∀ wake, scene.run.wake? = some wake → now ≤ wake) :
      Proceeds scene { scene with now }

/-- A meeting changes in any way while the server stays busy with the client, and goes on by
itself so many times. -/
inductive Lasts (scene : Meeting) : Nat → Meeting → Prop
  | refl : Lasts scene 0 scene
  | move {steps : Nat} {middle later : Meeting} (h : Lasts scene steps middle)
      (hmove : middle.Move later) (hsitting : later.sitting = middle.sitting) :
      Lasts scene steps later
  | proceeds {steps : Nat} {middle later : Meeting} (h : Lasts scene steps middle)
      (hproceeds : middle.Proceeds later) (hsitting : later.sitting = middle.sitting) :
      Lasts scene (steps + 1) later

/-- The session has passed: the server returns the number of its requests, at the instant that
the pauses lead to, and the client has received and answered them all. -/
structure Concludes (scene : Meeting) (sitting : Sitting) (run : MockRun) : Prop where
  result : run.session.result? = some (.ok scene.run.session.options.count)
  time : scene.now = scene.run.session.options.due sitting.begun
  client : ∃ session, scene.client.session? = some session ∧ session.link = sitting.link ∧
    session.stats.framesReceived = UInt64.ofNat scene.run.session.options.count
  asked : (scene.net.link sitting.link).acceptor.written =
    MockSession.questions scene.run.session.options.count
  answered : (scene.net.link sitting.link).dialler =
    { written := transcript scene.run.session.options.count
      taken := 6 * scene.run.session.options.count }

/-- The session is bound to pass: it goes on by itself whenever it is left alone, not for ever
and not beyond its time, and when the server returns, it has passed. -/
structure Passes (scene : Meeting) (sitting : Sitting) : Prop where
  in_time : scene.now ≤ scene.run.session.options.due sitting.begun
  proceeds : ∃ later, scene.Proceeds later
  bounded : ∃ bound, ∀ steps later, scene.Lasts steps later → steps ≤ bound
  ends : ∀ {net run}, scene.run.step scene.now scene.net = some (net, run) →
    run.session.result? = none ∧ (scene.served net run).sitting = some sitting ∨
      scene.Concludes sitting run
  reached : ∃ steps last net run, scene.Lasts steps last ∧
    last.run.step last.now last.net = some (net, run) ∧ last.Concludes sitting run

/-- What is left to do in the session, at most. -/
def work (scene : Meeting) (sitting : Sitting) (point : CnodeClient.Point)
    (server : MockSession.Point) : Nat :=
  sessionWork scene.run.session.options.count (scene.run.session.options.due sitting.begun)
    scene.client.config.pollIntervalMs.toNat scene.now point server

variable {scene later : Meeting} {sitting : Sitting} {point : CnodeClient.Point}
  {server : MockSession.Point}

theorem Proceeds.move (h : scene.Proceeds later) : scene.Move later := by
  cases h with
  | step hstep => exact .step hstep
  | wait hwaits hnow hclient hserver => exact .wait hwaits (Nat.le_of_lt hnow) hclient hserver

/-- The server is in a session with the client, and it can pass. -/
structure Ongoing (scene : Meeting) (sitting : Sitting) : Prop where
  reachable : scene.Reachable
  fair : scene.run.session.options.Fair
  poll : 0 < scene.client.config.pollIntervalMs.toNat
  busy : scene.sitting = some sitting

theorem Ongoing.engaged (h : scene.Ongoing sitting) :
    ∃ point server, scene.Engaged sitting point server :=
  h.reachable.agreed.engaged h.fair sitting h.busy

/-- A meeting with the same options and the same configuration as before. -/
structure Keeps (scene later : Meeting) : Prop where
  options : later.run.session.options = scene.run.session.options
  config : later.client.config = scene.client.config

theorem Engaged.keeps (h : scene.Engaged sitting point server) (hsound : scene.Sound)
    (hmove : scene.Move later) (hsitting : later.sitting = some sitting) : scene.Keeps later := by
  cases hmove with
  | step hstep =>
      cases hstep with
      | client hstep =>
          exact ⟨rfl, (CnodeClient.turn_of_step hsound.client.fits hstep).keeps.1⟩
      | server hstep =>
          obtain ⟨session, hsession, _⟩ := h.session?
          rcases MockRun.step_cases hstep with ⟨hnone, _⟩ | ⟨_, _, _, _, hadvances⟩ | ⟨hnone, _⟩
          · cases hnone.symm.trans hsession
          · exact ⟨hadvances.options, rfl⟩
          · cases hnone.symm.trans hsession
  | others => exact ⟨rfl, rfl⟩
  | wait => exact ⟨rfl, rfl⟩
  | start hstopping =>
      rw [h.start hstopping]
      exact ⟨rfl, rfl⟩
  | stop => cases hsitting
  | serve => cases hsitting

theorem Ongoing.move (h : scene.Ongoing sitting) (hmove : scene.Move later)
    (hsitting : later.sitting = some sitting) : later.Ongoing sitting := by
  obtain ⟨_, _, hengaged⟩ := h.engaged
  have hkeeps := hengaged.keeps h.reachable.sound hmove hsitting
  exact ⟨.move h.reachable hmove, hkeeps.options ▸ h.fair, hkeeps.config ▸ h.poll, hsitting⟩

/-! ## The work that is left -/

/-- Going on by itself, a session comes closer to its end. -/
theorem Engaged.proceeds (h : scene.Engaged sitting point server) (hscene : scene.Ongoing sitting)
    (hproceeds : scene.Proceeds later) (hsitting : later.sitting = some sitting) :
    ∃ point' server', later.Engaged sitting point' server' ∧
      later.work sitting point' server' < scene.work sitting point server := by
  have hsound := hscene.reachable.sound
  have hkeeps := h.keeps hsound hproceeds.move hsitting
  have hlimit : ∀ {point' server'}, later.Engaged sitting point' server' →
      point'.steps + server'.steps ≤ 6 * scene.run.session.options.count + 2 := by
    intro point' server' hlater
    have hmore := hlater.server.answered_lt (hkeeps.options ▸ hscene.fair.count)
    exact Nat.le_of_lt (hlater.stands.agree.steps_lt (hkeeps.options ▸ hmore))
  cases hproceeds with
  | step hstep =>
      cases hstep with
      | client hstep =>
          obtain ⟨after, hnext, hlater⟩ := h.stepped hsound hstep
          refine ⟨after, server, hlater, ?_⟩
          rw [work, work, hkeeps.options, hkeeps.config]
          exact sessionWork_client hnext (hlimit hlater) h.server.in_time hscene.poll
      | server hstep =>
          rcases h.served hsound hscene.fair hstep with ⟨after, hnext, hlater⟩ | hends
          · refine ⟨point, after, hlater, ?_⟩
            rw [work, work, hkeeps.options, hkeeps.config]
            exact sessionWork_lt (congrArg (point.steps + ·) hnext.steps) (hlimit hlater)
          · obtain ⟨_, hfound, _⟩ := sitting_of_served hsitting
            cases (MockSession.session?_of_phase hends.result).symm.trans hfound
  | wait hwaits hnow hclient hserver =>
      have hlater := h.wait hsound hscene.fair hwaits (Nat.le_of_lt hnow) hserver
      refine ⟨point, server, hlater, Nat.add_lt_add_left ?_ _⟩
      exact Nat.sub_lt_sub_left (Nat.lt_of_lt_of_le hnow hlater.server.in_time) hnow

theorem Engaged.moves (h : scene.Engaged sitting point server) (hscene : scene.Ongoing sitting)
    (hmove : scene.Move later) (hsitting : later.sitting = some sitting) :
    ∃ point' server', later.Engaged sitting point' server' ∧
      later.work sitting point' server' ≤ scene.work sitting point server := by
  have hproceeds : scene.Proceeds later → ∃ point' server',
      later.Engaged sitting point' server' ∧
        later.work sitting point' server' ≤ scene.work sitting point server := by
    intro hproceeds
    obtain ⟨point', server', hlater, hless⟩ := h.proceeds hscene hproceeds hsitting
    exact ⟨point', server', hlater, Nat.le_of_lt hless⟩
  cases hmove with
  | step hstep => exact hproceeds (.step hstep)
  | others hforeign =>
      exact ⟨point, server, h.others hscene.reachable.sound hforeign, Nat.le_refl _⟩
  | wait hwaits hnow hclient hserver =>
      rcases Nat.eq_or_lt_of_le hnow with rfl | hnow
      · exact ⟨point, server, h, Nat.le_refl _⟩
      · exact hproceeds (.wait hwaits hnow hclient hserver)
  | start hstopping =>
      rw [h.start hstopping]
      exact ⟨point, server, h, Nat.le_refl _⟩
  | stop => cases hsitting
  | serve => cases hsitting

/-- What has been done in a session and what is left to do never come to more than what there
was to do. -/
theorem Engaged.lasts (h : scene.Engaged sitting point server) (hscene : scene.Ongoing sitting)
    {steps : Nat} (hlasts : scene.Lasts steps later) :
    later.Ongoing sitting ∧ ∃ point' server', later.Engaged sitting point' server' ∧
      steps + later.work sitting point' server' ≤ scene.work sitting point server := by
  induction hlasts with
  | refl => exact ⟨hscene, point, server, h, Nat.le_of_eq (Nat.zero_add _)⟩
  | move _ hmove hsame ih =>
      obtain ⟨hmiddle, _, _, hengaged, hwork⟩ := ih
      have hlater := hsame.trans hmiddle.busy
      obtain ⟨point', server', hengaged', hless⟩ := hengaged.moves hmiddle hmove hlater
      exact ⟨hmiddle.move hmove hlater, point', server', hengaged',
        Nat.le_trans (Nat.add_le_add_left hless _) hwork⟩
  | proceeds _ hproceeds hsame ih =>
      obtain ⟨hmiddle, _, _, hengaged, hwork⟩ := ih
      have hlater := hsame.trans hmiddle.busy
      obtain ⟨point', server', hengaged', hless⟩ := hengaged.proceeds hmiddle hproceeds hlater
      exact ⟨hmiddle.move hproceeds.move hlater, point', server', hengaged',
        Nat.le_trans (by omega) hwork⟩

theorem Ongoing.bounded (h : scene.Ongoing sitting) :
    ∃ bound, ∀ steps later, scene.Lasts steps later → steps ≤ bound := by
  obtain ⟨point, server, hengaged⟩ := h.engaged
  refine ⟨scene.work sitting point server, fun steps later hlasts => ?_⟩
  obtain ⟨_, _, _, _, hwork⟩ := hengaged.lasts h hlasts
  exact Nat.le_trans (Nat.le_add_right _ _) hwork

theorem Ongoing.lasts (h : scene.Ongoing sitting) {steps : Nat} (hlasts : scene.Lasts steps later) :
    later.Ongoing sitting := by
  obtain ⟨_, _, hengaged⟩ := h.engaged
  exact (hengaged.lasts h hlasts).1

/-! ## The end of a session -/

/-- Left alone, the two go on: if both wait, they do so until the first of them wakes up. -/
theorem Ongoing.proceeds (h : scene.Ongoing sitting) : ∃ later, scene.Proceeds later := by
  obtain ⟨_, _, hengaged⟩ := h.engaged
  cases hclient : scene.client.step scene.now scene.net with
  | some result => exact ⟨_, .step (.client hclient)⟩
  | none =>
      cases hserver : scene.run.step scene.now scene.net with
      | some result => exact ⟨_, .step (.server hserver)⟩
      | none =>
          have hwaits : scene.Waits := ⟨hclient, hserver⟩
          obtain ⟨answered, deadline, rfl, rfl, hdeadline, hpause⟩ :=
            hengaged.waits h.reachable.sound h.fair hwaits
          refine ⟨_, .wait hwaits (Nat.lt_min.mpr ⟨hdeadline, hpause⟩) ?_ ?_⟩
          · intro wake hwake
            cases hengaged.stands.client.wake?.symm.trans hwake
            exact Nat.min_le_left _ _
          · intro wake hwake
            cases hengaged.server.wake?.symm.trans hwake
            exact Nat.min_le_right _ _

theorem Ongoing.ends (h : scene.Ongoing sitting) {net : Net} {run : MockRun}
    (hstep : scene.run.step scene.now scene.net = some (net, run)) :
    run.session.result? = none ∧ (scene.served net run).sitting = some sitting ∨
      scene.Concludes sitting run := by
  obtain ⟨point, server, hengaged⟩ := h.engaged
  rcases hengaged.served h.reachable.sound h.fair hstep with ⟨after, _, hlater⟩ | hends
  · refine .inl ⟨hlater.server.result?, ?_⟩
    obtain ⟨_, hbefore, _⟩ := hengaged.session?
    obtain ⟨session, hsession, _⟩ := hlater.server.session?
    have hsession : run.session? = some session := hsession
    simp [Meeting.served, hsession, hbefore, h.busy]
  · obtain ⟨deadline, rfl⟩ := hends.client
    obtain ⟨told, hserver⟩ := server.record_eq
    refine .inr ⟨by rw [MockSession.result?, hends.result]; rfl, hends.time, ?_, ?_, ?_⟩
    · cases hengaged.stands.client with
      | waiting hloop hsession =>
          exact ⟨_, CnodeClient.session?_of_loop hloop, hsession.link_eq, hsession.received⟩
    · rw [hengaged.stands.record, hserver, hends.asked]
    · rw [hengaged.stands.record]
      rfl

/-- What goes on by itself stays in the session, or ends it. -/
theorem Ongoing.stays_or_ends (h : scene.Ongoing sitting) (hproceeds : scene.Proceeds later) :
    later.sitting = some sitting ∨ ∃ net run,
      scene.run.step scene.now scene.net = some (net, run) ∧ scene.Concludes sitting run := by
  cases hproceeds with
  | step hstep =>
      cases hstep with
      | client => exact .inl h.busy
      | server hstep =>
          rcases h.ends hstep with ⟨_, hsame⟩ | hconcludes
          · exact .inl hsame
          · exact .inr ⟨_, _, hstep, hconcludes⟩
  | wait => exact .inl h.busy

/-- A session comes to its end by itself, whatever has happened in it so far. -/
theorem Ongoing.reaches (h : scene.Ongoing sitting) {bound : Nat}
    (hbound : ∀ steps later, scene.Lasts steps later → steps ≤ bound) {steps : Nat}
    {middle : Meeting} (hlasts : scene.Lasts steps middle) :
    ∃ steps' last net run, scene.Lasts steps' last ∧
      last.run.step last.now last.net = some (net, run) ∧ last.Concludes sitting run := by
  have hmiddle := h.lasts hlasts
  obtain ⟨next, hproceeds⟩ := hmiddle.proceeds
  rcases hmiddle.stays_or_ends hproceeds with hsame | ⟨net, run, hstep, hconcludes⟩
  · have hnext := hlasts.proceeds hproceeds (hsame.trans hmiddle.busy.symm)
    have hleft := hbound _ _ hnext
    exact h.reaches hbound hnext
  · exact ⟨steps, middle, net, run, hlasts, hstep, hconcludes⟩
termination_by bound - steps

theorem Ongoing.passes (h : scene.Ongoing sitting) : scene.Passes sitting where
  in_time := by
    obtain ⟨_, _, hengaged⟩ := h.engaged
    exact hengaged.server.in_time
  proceeds := h.proceeds
  bounded := h.bounded
  ends := h.ends
  reached := by
    obtain ⟨_, hbound⟩ := h.bounded
    exact h.reaches hbound .refl

/-! ## On the way to a session -/

/-- What a server does for a client that is on its way to a session. -/
structure Hosts (scene : Meeting) : Prop where
  /-- An attempt on the address of the server leads to a connection in its line. -/
  joins : ∀ {host port ip net client},
    scene.client.config.target? = some (host, port) → IpAddress.parse? host = some ip →
      scene.net.addressOf? scene.run.session.listener = some ⟨ip, port⟩ →
        scene.client.isDue = true →
          scene.client.step scene.now scene.net = some (net, client) →
            ∃ link, link ∈ net.queue scene.run.session.listener ∧
              (scene.toScene.after net client).Current link
  /-- The connection of a client that is not stopped stays in line until the server takes it,
  which begins a session with the client. -/
  stays : ∀ {link later}, link ∈ scene.queue → scene.Current link → scene.Move later →
    later.client.running = true →
      link ∈ later.queue ∧ later.Current link ∨ later.sitting = some ⟨link, scene.now⟩
  /-- A server that is to serve further clients does not wait while a connection is in line. -/
  takes : scene.run.session.options.keepAccepting = true → scene.run.session? = none →
    scene.queue ≠ [] → scene.run.step scene.now scene.net ≠ none

theorem Reachable.isOver (h : scene.Reachable)
    (hkeep : scene.run.session.options.keepAccepting = true) : scene.run.isOver = false := by
  induction h with
  | begin => rfl
  | move _ hmove ih =>
      cases hmove with
      | step hstep =>
          cases hstep with
          | client => exact ih hkeep
          | server hstep => exact MockRun.isOver_of_step hstep hkeep
      | serve => rfl
      | _ => exact ih hkeep

theorem Sound.joins_line (h : scene.Sound) {host : String} {port : UInt16} {ip : IpAddress}
    (htarget : scene.client.config.target? = some (host, port))
    (hhost : IpAddress.parse? host = some ip)
    (haddress : scene.net.addressOf? scene.run.session.listener = some ⟨ip, port⟩)
    (hdue : scene.client.isDue = true) {net : Net} {client : CnodeClient}
    (hstep : scene.client.step scene.now scene.net = some (net, client)) :
    ∃ link, link ∈ net.queue scene.run.session.listener ∧
      (scene.toScene.after net client).Current link := by
  obtain ⟨listener, hreceives⟩ := h.listens
  have hsame : listener.address = ⟨ip, port⟩ := by
    simpa [Net.addressOf?, hreceives.found] using haddress
  have hturn := CnodeClient.turn_of_step h.client.fits hstep
  obtain ⟨_, _, hfound, rfl, hdialled⟩ := hturn.attempts hdue (by simp [htarget])
  cases htarget.symm.trans hfound
  rw [Net.seek_of_parse hhost, ← hsame] at hdialled ⊢
  obtain ⟨hconnected, hmem⟩ := hreceives.dial
  exact ⟨_, hmem, .inr ⟨_, hdialled, hconnected⟩⟩

theorem stays_of_served {link : LinkId} (hlink : link ∈ scene.queue)
    (hcurrent : scene.Current link) (hrunning : scene.client.running = true) {net : Net}
    {run : MockRun} (hstep : scene.run.step scene.now scene.net = some (net, run)) :
    (link ∈ (scene.served net run).queue ∧ (scene.served net run).Current link) ∨
      (scene.served net run).sitting = some ⟨link, scene.now⟩ := by
  rcases MockRun.step_cases hstep with ⟨hnone, _, taken, hreception, rfl⟩ |
    ⟨session, _, _, _, hadvances⟩ | ⟨_, hline, _, hlistener⟩
  · obtain ⟨hqueue, _, hattempts, _⟩ := Net.accept?_cases (Net.reception?_eq_ok hreception).2
    rw [queue, hqueue] at hlink
    rcases List.mem_cons.mp hlink with rfl | hbehind
    · right
      have hgreeted : ({ scene.run with session := scene.run.session.greet scene.now link } :
          MockRun).session? = some _ := rfl
      have hconnection := Scene.connection?_eq_some.mpr hcurrent
      simp only [Meeting.served, hgreeted, hnone, Option.isSome_none, Bool.false_eq_true, if_false]
      rw [if_pos ⟨hrunning, hconnection⟩]
    · exact .inl ⟨hbehind, (Scene.current_of_attempts hattempts).mpr hcurrent⟩
  · have honly := hadvances.only
    rw [queue_served (honly.queue _) hadvances.listener]
    exact .inl ⟨hlink, (Scene.current_of_attempts honly.attempts).mpr hcurrent⟩
  · rw [queue_served hline.queue hlistener]
    exact .inl ⟨hlink, (Scene.current_of_attempts hline.attempts).mpr hcurrent⟩

theorem Lined.stays (h : scene.Lined) (hsound : scene.Sound) {link : LinkId}
    (hlink : link ∈ scene.queue) (hcurrent : scene.Current link) (hmove : scene.Move later)
    (hrunning : later.client.running = true) :
    link ∈ later.queue ∧ later.Current link ∨ later.sitting = some ⟨link, scene.now⟩ := by
  obtain ⟨listener, hreceives⟩ := hsound.listens
  have hlistener := hreceives.found
  have hknown := hsound.queue link hlink
  cases hmove with
  | step hstep =>
      cases hstep with
      | client hstep =>
          have hturn := CnodeClient.turn_of_step hsound.client.fits hstep
          have hrunning : scene.client.running = true := hturn.keeps.2.1.symm.trans hrunning
          obtain ⟨_, hstands⟩ := h hrunning link hlink hcurrent
          obtain ⟨_, _, hlater⟩ := hstands.stepped hsound.client hrunning hstep
          exact .inl ⟨((joins_of_turn hturn hlistener).mem_queue hlistener hknown).mpr hlink,
            hlater.current⟩
      | server hstep => exact stays_of_served hlink hcurrent hrunning hstep
  | others hforeign =>
      have hjoins := hforeign.joins rfl hlistener
      have howns := hsound.client.owns hcurrent
      exact .inl ⟨(hjoins.mem_queue hlistener hknown).mpr hlink,
        (Scene.current_of_foreign hsound.client (foreign_client hforeign) howns).mpr hcurrent⟩
  | wait => exact .inl ⟨hlink, hcurrent⟩
  | start hstopping =>
      rw [CnodeClient.start_of_loop hcurrent.loop_isSome hstopping]
      exact .inl ⟨hlink, hcurrent⟩
  | stop =>
      rcases Scene.stop_cases scene.client with hsame | ⟨_, hstop⟩
      · rw [hsame]
        exact .inl ⟨hlink, hcurrent⟩
      · rw [hstop] at hrunning
        cases hrunning
  | serve => exact .inl ⟨hlink, hcurrent⟩

/-- The two sides agree. Whenever the server is in a session with a client that has not been
stopped since the server took its connection, the session is bound to pass: it ends exactly
when the pauses between its requests are over, the server returns their number, and the client
has received and answered them all. An attempt of the client on the address of the server
leads to such a session, the first time and every later time that the server accepts. -/
theorem sessions_pass {scene : Meeting} (h : scene.Reachable)
    (hfair : scene.run.session.options.Fair)
    (hpoll : 0 < scene.client.config.pollIntervalMs.toNat) :
    (∀ sitting, scene.sitting = some sitting → scene.Passes sitting) ∧ scene.Hosts := by
  have hsound := h.sound
  refine ⟨fun sitting hsitting => ?_, ?_, ?_, ?_⟩
  · exact Ongoing.passes ⟨h, hfair, hpoll, hsitting⟩
  · exact fun htarget hhost haddress hdue hstep =>
      hsound.joins_line htarget hhost haddress hdue hstep
  · exact fun hlink hcurrent hmove hrunning =>
      h.agreed.lined.stays hsound hlink hcurrent hmove hrunning
  · exact fun hkeep hsession hqueue =>
      MockRun.step_of_queue (h.isOver hkeep) hsession hqueue

theorem Move.of_client
    (h : (scene.client.step scene.now scene.net).map (fun (net, client) =>
      { scene with toScene := scene.toScene.after net client }) = some later) :
    scene.Move later := by
  obtain ⟨⟨net, client⟩, hstep, rfl⟩ := Option.map_eq_some_iff.mp h
  exact .step (.client hstep)

theorem Move.of_server
    (h : (scene.run.step scene.now scene.net).map (fun (net, run) => scene.served net run) =
      some later) : scene.Move later := by
  obtain ⟨⟨net, run⟩, hstep, rfl⟩ := Option.map_eq_some_iff.mp h
  exact .step (.server hstep)

/-! ## A client that is asked twice -/

namespace Twice

/-- Two requests, six seconds apart. -/
def options : MockOptions := { count := 2, intervalMs := 6000, timeoutMs := 1 }

def config : CnodeConfig := { serverIp := some "127.0.0.1", serverPort := 4000 }

/-- The client and the server, with one connection. -/
def meeting (now : Instant) (queue : List LinkId) (link : Link) (state : ClientState)
    (phase : ClientPhase) (server : MockPhase) (sitting : Option Sitting) : Meeting where
  now := now
  net :=
    { links := [link]
      attempts := [.connected 0]
      listeners := [{ address := ⟨.loopback, 4000⟩, queue }] }
  client :=
    { config, state, running := true, attached := true, loop := some ⟨⟨30, 1⟩, phase⟩ }
  attempts := [0]
  run := { session := { listener := 0, options, phase := server } }
  sitting := sitting

/-- The client serves, in a session of the server. -/
def serving (now : Instant) (link : Link) (phase : ClientPhase) (server : MockPhase) : Meeting :=
  meeting now [] link .serving phase server (some ⟨0, 0⟩)

/-- The session of the client, and the message that it sent last. -/
def here (message : Outgoing) (stats : SessionStats) : Session :=
  { link := 0, side := .dialler, framing := .fixed32, limit := CnodeClient.maxRequestLength
    sendTimeoutMs := some 5000, writeBuffer := message.frame, stats }

/-- The session of the server, before it has sent anything. -/
def fresh : Session :=
  { link := 0, side := .acceptor, framing := .fixed32, limit := CnodeClient.maxRequestLength
    sendTimeoutMs := some 1 }

/-- The session of the server behind a request. -/
def there (stats : SessionStats) : Session :=
  { fresh with writeBuffer := MockSession.question, stats }

/-- The connection after so many replies, requests that the client has read, requests, and
messages that the server has read. -/
def link (answered read asked told : Nat) : Link :=
  ⟨{ written := transcript answered, taken := 6 * read },
    { written := MockSession.questions asked, taken := 6 * told }⟩

end Twice

open Twice in
/-- A client is asked twice. In the pause it looks at its flag after 5 seconds, and 1 second
later it is asked again. -/
theorem sessions_pass_of_two_requests : ∃ (scene : Meeting) (net : Net) (run : MockRun),
    scene.Reachable ∧ scene.run.session.options.Fair ∧
      0 < scene.client.config.pollIntervalMs.toNat ∧ scene.sitting = some ⟨0, 0⟩ ∧
      scene.run.step scene.now scene.net = some (net, run) ∧ scene.Concludes ⟨0, 0⟩ run ∧
      scene.run.session.options.count = 2 ∧ scene.now = 6000 := by
  have hbegin : Reachable _ :=
    @Reachable.begin _ ⟨.loopback, 4000⟩ 0 _ (.begin 0 {} config trivial) rfl options
  have hstart : Reachable _ := .move hbegin (.start rfl)
  have hdial : Reachable (meeting 0 [0] {} .connecting (.dialling ⟨0, 5000⟩) .accepting none) :=
    .move hstart (.of_client rfl)
  have htaken : Reachable (meeting 0 [] {} .connecting (.dialling ⟨0, 5000⟩)
      (.identifying fresh MockSession.reader 1) (some ⟨0, 0⟩)) :=
    .move hdial (.of_server rfl)
  have hconnected : Reachable (meeting 0 [] {} .identifying
      (.identifying (here .identity {}) ⟨6, Outgoing.identity.frame⟩ (some 5000))
      (.identifying fresh MockSession.reader 1) (some ⟨0, 0⟩)) :=
    .move htaken (.of_client rfl)
  have hannounced : Reachable (serving 0 (link 0 0 0 0)
      (.polling (here .identity ⟨1, 0, 6, 0⟩) 5000)
      (.identifying fresh MockSession.reader 1)) := .move hconnected (.of_client rfl)
  have hidentified : Reachable (serving 0 (link 0 0 0 1)
      (.polling (here .identity ⟨1, 0, 6, 0⟩) 5000)
      (.requesting (there ⟨0, 1, 0, 2⟩) ⟨6, MockSession.question⟩ (some 1) 0)) :=
    .move hannounced (.of_server rfl)
  have hasked : Reachable (serving 0 (link 0 0 1 1) (.polling (here .identity ⟨1, 0, 6, 0⟩) 5000)
      (.awaiting (there ⟨1, 1, 6, 2⟩) MockSession.reader 1 0)) :=
    .move hidentified (.of_server rfl)
  have hnoticed : Reachable (serving 0 (link 0 0 1 1)
      (.receiving (here .identity ⟨1, 0, 6, 0⟩) MockSession.reader)
      (.awaiting (there ⟨1, 1, 6, 2⟩) MockSession.reader 1 0)) := .move hasked (.of_client rfl)
  have hread : Reachable (serving 0 (link 0 1 1 1)
      (.replying (here .reply ⟨1, 1, 6, 2⟩) ⟨6, Outgoing.reply.frame⟩ (some 5000))
      (.awaiting (there ⟨1, 1, 6, 2⟩) MockSession.reader 1 0)) := .move hnoticed (.of_client rfl)
  have hreplied : Reachable (serving 0 (link 1 1 1 1) (.polling (here .reply ⟨2, 1, 12, 2⟩) 5000)
      (.awaiting (there ⟨1, 1, 6, 2⟩) MockSession.reader 1 0)) := .move hread (.of_client rfl)
  have hpaused : Reachable (serving 0 (link 1 1 1 2) (.polling (here .reply ⟨2, 1, 12, 2⟩) 5000)
      (.pausing (there ⟨1, 2, 6, 4⟩) 1 6000)) := .move hreplied (.of_server rfl)
  have hlook : Reachable (serving 5000 (link 1 1 1 2) (.polling (here .reply ⟨2, 1, 12, 2⟩) 5000)
      (.pausing (there ⟨1, 2, 6, 4⟩) 1 6000)) :=
    .move hpaused (.wait ⟨rfl, rfl⟩ (by decide) (by rintro wake h; cases h; decide)
      (by rintro wake h; cases h; decide))
  have hlooked : Reachable (serving 5000 (link 1 1 1 2) (.polling (here .reply ⟨2, 1, 12, 2⟩) 10000)
      (.pausing (there ⟨1, 2, 6, 4⟩) 1 6000)) := .move hlook (.of_client rfl)
  have hwoken : Reachable (serving 6000 (link 1 1 1 2) (.polling (here .reply ⟨2, 1, 12, 2⟩) 10000)
      (.pausing (there ⟨1, 2, 6, 4⟩) 1 6000)) :=
    .move hlooked (.wait ⟨rfl, rfl⟩ (by decide) (by rintro wake h; cases h; decide)
      (by rintro wake h; cases h; decide))
  have hagain : Reachable (serving 6000 (link 1 1 1 2) (.polling (here .reply ⟨2, 1, 12, 2⟩) 10000)
      (.requesting (there ⟨1, 2, 6, 4⟩) ⟨6, MockSession.question⟩ (some 6001) 1)) :=
    .move hwoken (.of_server rfl)
  have hasked' : Reachable (serving 6000 (link 1 1 2 2) (.polling (here .reply ⟨2, 1, 12, 2⟩) 10000)
      (.awaiting (there ⟨2, 2, 12, 4⟩) MockSession.reader 6001 1)) := .move hagain (.of_server rfl)
  have hnoticed' : Reachable (serving 6000 (link 1 1 2 2)
      (.receiving (here .reply ⟨2, 1, 12, 2⟩) MockSession.reader)
      (.awaiting (there ⟨2, 2, 12, 4⟩) MockSession.reader 6001 1)) :=
    .move hasked' (.of_client rfl)
  have hread' : Reachable (serving 6000 (link 1 2 2 2)
      (.replying (here .reply ⟨2, 2, 12, 4⟩) ⟨6, Outgoing.reply.frame⟩ (some 11000))
      (.awaiting (there ⟨2, 2, 12, 4⟩) MockSession.reader 6001 1)) :=
    .move hnoticed' (.of_client rfl)
  have hreplied' : Reachable (serving 6000 (link 2 2 2 2)
      (.polling (here .reply ⟨3, 2, 18, 4⟩) 11000)
      (.awaiting (there ⟨2, 2, 12, 4⟩) MockSession.reader 6001 1)) := .move hread' (.of_client rfl)
  have hfair : options.Fair := ⟨by decide, by decide⟩
  obtain ⟨hpasses, _⟩ := sessions_pass hreplied' hfair (by decide)
  refine ⟨_, _, _, hreplied', hfair, by decide, rfl, rfl, ?_, rfl, rfl⟩
  rcases (hpasses ⟨0, 0⟩ rfl).ends rfl with ⟨hnone, _⟩ | hconcludes
  · cases hnone
  · exact hconcludes

end Meeting

end NodeHealth
