import NodeHealth.Proofs.Probe.Run

/-!
# What a probe of an open server finds

A probe of an open server finds that the node serves, or it runs out of time. It finds it at
the instant at which the server takes the connection, and it runs out of time only if a
connection that came before was not over by then. Together with the bound of the time and of
the steps this is `ProbeRun.serving_or_timeout`.

## Implementation notes

That a result comes is said in two parts: as long as there is none, the probe, the server or
the time can go on (`ProbeRun.Advances`), and they cannot go on for ever, in whatever order
they do. What others do in between is not counted, since nobody limits it.

-/

namespace NodeHealth

namespace ProbeRun

variable {run later : ProbeRun} {result : Except ConnectionError ProbeReport}

/-! ## Results -/

/-- The next step of the probe comes to a result. -/
def Returns (run : ProbeRun) (result : Except ConnectionError ProbeReport) : Prop :=
  ∃ net probe, run.probe.step run.now run.net = some (net, probe) ∧
    probe.result? = some result

/-- The server has taken the connection of the probe at this very instant, and it says that
the node serves. -/
structure Serves (run : ProbeRun) (report : ProbeReport) : Prop where
  status : report.status? = some .serving
  taken : ∃ farewell ∈ run.past, run.connection? = some farewell.link ∧
    farewell.begun = run.now
  elapsed : report.elapsedMs = run.now - run.begun

/-- The time of the probe is up, and a connection that came before its own was not over by
then. -/
structure Misses (run : ProbeRun) (link : LinkId) (asked : Instant) : Prop where
  connection : run.connection? = some link
  sent : run.sent = some asked
  now : run.now = asked + run.probe.timeoutMs
  heldUp : ¬run.Cleared link run.now

/-- What a result says. -/
inductive Concludes (run : ProbeRun) : Except ConnectionError ProbeReport → Prop
  | serving {report : ProbeReport} (h : run.Serves report) : Concludes run (.ok report)
  | timeout {link : LinkId} {asked : Instant} (h : run.Misses link asked) :
      Concludes run (.error .timeout)

/-- All connections that came before the one of the probe were over before its time is up. -/
def Unhindered (run : ProbeRun) : Prop :=
  ∃ link asked, run.connection? = some link ∧ run.sent = some asked ∧
    run.Cleared link (asked + run.probe.timeoutMs)

/-- The reply that is there is the answer of a server that has just taken the connection. -/
theorem Sound.serves (h : run.Sound) {session : Session} {reader : Frame.Reader}
    {deadline : Instant} (hphase : run.probe.phase = .awaiting session reader deadline)
    (hdeals : run.toService.Deals session.link run.begun Probe.request .served) :
    run.Serves
      ⟨HealthResponse.statusNumber? [0x08, 1], run.now - run.probe.started⟩ := by
  obtain ⟨_, _, hstarted, _⟩ := h.awaits hphase
  cases hdeals.stands with
  | served hfarewell hbegan =>
      refine ⟨Probe.status_answer _, ⟨_, hfarewell, ?_, hbegan.begun⟩, congrArg _ hstarted⟩
      simp only [connection?, hphase, hbegan.link]

/-- A probe whose time is up was held up. -/
theorem Sound.misses (h : run.Sound) {session : Session} {reader : Frame.Reader}
    {deadline : Instant} (hphase : run.probe.phase = .awaiting session reader deadline)
    {standing : Standing}
    (hdeals : run.toService.Deals session.link run.begun Probe.request standing)
    (hunserved : standing ≠ .served) (hdeadline : deadline ≤ run.now) :
    run.Misses session.link run.begun := by
  obtain ⟨hawaits, _⟩ := h.awaits hphase
  have hnow : run.now = run.begun + run.probe.timeoutMs :=
    (Nat.le_antisymm hawaits.early hdeadline).trans hawaits.due
  have hlate : run.begun < run.now := by
    rw [hnow]
    exact Nat.lt_add_of_pos_right h.patience
  refine ⟨?_, hawaits.sent, hnow, ?_⟩
  · simp only [connection?, hphase]
  · exact hdeals.stands.heldUp hunserved h.service.sound h.service.prompt hlate
      (Nat.lt_of_le_of_lt h.opened hlate)

/-- The deadline is the only thing that can go wrong. -/
theorem Sound.concludes (h : run.Sound) (hreturns : run.Returns result) :
    run.Concludes result := by
  obtain ⟨net, next, hstep, hresult⟩ := hreturns
  cases Probe.turn_of_step h.fits hstep with
  | answered hphase harrival hfeed =>
      cases hresult
      cases h.finds hphase harrival with
      | answer hdeals =>
          cases (h.awaits hphase).1.reader
          cases Probe.feed_answer.symm.trans hfeed
          exact .serving (h.serves hphase hdeals)
  | silent hphase harrival hdeadline =>
      cases hresult
      cases h.finds hphase harrival with
      | nothing hdeals hunserved =>
          exact .timeout (h.misses hphase hdeals hunserved hdeadline)
  | refused hphase hattempt =>
      obtain ⟨_, _, hconnected, _⟩ := h.dials hphase
      rw [hconnected] at hattempt
      cases hattempt
  | abandoned hphase hattempt =>
      obtain ⟨_, _, hconnected, _⟩ := h.dials hphase
      cases hattempt.symm.trans hconnected
  | expired hphase hattempt =>
      obtain ⟨_, _, hconnected, _⟩ := h.dials hphase
      rw [hconnected] at hattempt
      cases hattempt
  | unsent hphase hwrite =>
      obtain ⟨hall, _⟩ := h.writes hphase hwrite
      cases hall
  | late hphase hwrite hpart =>
      obtain ⟨hall, _⟩ := h.writes hphase hwrite
      rw [Link.Delivery.wrote.injEq] at hall
      exact absurd hall (Nat.ne_of_lt hpart)
  | malformed hphase harrival hfeed =>
      cases h.finds hphase harrival with
      | answer =>
          cases (h.awaits hphase).1.reader
          cases Probe.feed_answer.symm.trans hfeed
  | ended hphase harrival => cases h.finds hphase harrival
  | failed hphase harrival => cases h.finds hphase harrival
  | _ => cases hresult

/-! ## Progress -/

/-- A step of the server or of the probe, or the passing of time. -/
inductive Advances (run : ProbeRun) : ProbeRun → Prop
  | server {net : Net} {server : HealthServer}
      (h : run.server.step run.now run.net = some (net, server)) :
      Advances run (run.attended net server)
  | probe {net : Net} {probe : Probe}
      (h : run.probe.step run.now run.net = some (net, probe))
      (hresult : probe.result? = none) : Advances run (run.probed net probe)
  | wait {now : Instant} (hwaits : run.Waits) (hnow : run.now < now)
      (hserver : ∀ wake, run.server.wake? = some wake → now ≤ wake)
      (hprobe : ∀ wake, run.probe.wake? = some wake → now ≤ wake) :
      Advances run { run with now }

theorem Advances.move (h : run.Advances later) : run.Move later := by
  cases h with
  | server hstep => exact .server hstep
  | probe hstep hresult => exact .probe hstep hresult
  | wait hwaits hnow hserver hprobe => exact .wait hwaits (Nat.le_of_lt hnow) hserver hprobe

/-- How long the probe can still take. -/
def remaining (run : ProbeRun) : Nat :=
  run.begun + run.probe.timeoutMs - run.now

theorem Sound.inTime (h : run.Sound) :
    run.now ≤ run.begun + run.probe.timeoutMs ∧ run.steps ≤ 3 := by
  have hpaced := h.paced
  cases hphase : run.probe.phase with
  | starting =>
      rw [hphase] at hpaced
      exact ⟨hpaced.now ▸ Nat.le_add_right _ _, hpaced.steps ▸ by decide⟩
  | dialling dial =>
      rw [hphase] at hpaced
      exact ⟨hpaced.now ▸ Nat.le_add_right _ _, hpaced.steps ▸ by decide⟩
  | sending session sending deadline =>
      rw [hphase] at hpaced
      exact ⟨hpaced.1.now ▸ Nat.le_add_right _ _, hpaced.1.steps ▸ by decide⟩
  | awaiting session reader deadline =>
      obtain ⟨hawaits, _⟩ := h.awaits hphase
      exact ⟨hawaits.due ▸ hawaits.early, Nat.le_of_eq hawaits.steps⟩
  | finished result =>
      rw [hphase] at hpaced
      exact hpaced.elim

/-- As long as there is no result, something can go on. -/
theorem Sound.proceeds (h : run.Sound) :
    (∃ result, run.Returns result) ∨ ∃ later, run.Advances later := by
  cases hprobe : run.probe.step run.now run.net with
  | some stepped =>
      obtain ⟨net, next⟩ := stepped
      cases hresult : next.result? with
      | some result => exact .inl ⟨result, net, next, hprobe, hresult⟩
      | none => exact .inr ⟨_, .probe hprobe hresult⟩
  | none =>
      cases hserver : run.server.step run.now run.net with
      | some stepped => exact .inr ⟨_, .server hserver⟩
      | none =>
          have hwaits : run.Waits := ⟨hserver, hprobe⟩
          obtain ⟨session, reader, deadline, hphase, hearly, _⟩ := h.waiting hwaits
          refine .inr ⟨_, .wait hwaits (Nat.lt_succ_self _) ?_ ?_⟩
          · intro wake hwake
            exact (HealthServer.waits_of_step h.service.sound.fits hserver).lt_wake hwake
          · intro wake hwake
            simp only [Probe.wake?, hphase, Option.some.injEq] at hwake
            exact hwake ▸ hearly

/-- Whatever goes on brings the end nearer: the deadline, the last step of the probe, the turn
of its connection, or the end of what the server has before it. -/
theorem Sound.nears (h : run.Sound) (hadvances : run.Advances later) :
    later.remaining < run.remaining ∨ later.remaining = run.remaining ∧
      (3 - later.steps < 3 - run.steps ∨ later.steps = run.steps ∧
        (later.line.length < run.line.length ∨ later.line = run.line ∧
          later.server.work later.net < run.server.work run.net)) := by
  have hlater := h.move hadvances.move
  cases hadvances with
  | wait _ hnow =>
      refine .inl (Nat.sub_lt_sub_left ?_ hnow)
      exact Nat.lt_of_lt_of_le hnow hlater.inTime.1
  | @probe net probe hstep =>
      have htimeout := (Probe.turn_of_step h.fits hstep).timeoutMs
      refine .inr ⟨?_, .inl (Nat.sub_lt_sub_left ?_ (Nat.lt_succ_self _))⟩
      · change run.begun + probe.timeoutMs - run.now = _
        rw [htimeout, remaining]
      · exact Nat.lt_of_lt_of_le (Nat.lt_succ_self _) hlater.inTime.2
  | @server net server hstep =>
      have hsound := h.service.sound
      have hshrinks := hsound.shrinks (HealthServer.turn_of_step hsound.fits hstep)
      refine .inr ⟨?_, .inr ⟨rfl, ?_⟩⟩
      · exact congrArg (run.begun + run.probe.timeoutMs - ·)
          (Service.listener_after run.toService net server).2
      · change (run.toService.after net server).line.length < _ ∨
          (run.toService.after net server).line = _ ∧
            (run.toService.after net server).server.work
              (run.toService.after net server).net < _
        rwa [Service.server_after, Service.net_after]

/-- The probe, the server and the time do not go on for ever. -/
theorem Sound.ends {run : ProbeRun} (h : run.Sound) :
    Acc (fun later run => run.Advances later) run := by
  refine .intro _ fun later hadvances => ?_
  have hnears := h.nears hadvances
  exact (h.move hadvances.move).ends
termination_by (run.remaining, 3 - run.steps, run.line.length,
  run.server.work run.net)
decreasing_by
  rcases hnears with hremaining | ⟨hremaining, hsteps | ⟨hsteps, hline | ⟨hline, hwork⟩⟩⟩
  · exact .left _ _ hremaining
  · rw [hremaining]
    exact .right _ (.left _ _ hsteps)
  · rw [hremaining, hsteps]
    exact .right _ (.right _ (.left _ _ hline))
  · rw [hremaining, hsteps, hline]
    exact .right _ (.right _ (.right _ hwork))

/-! ## The verdict on an open server -/

/-- A probe is over when its time for the reply is up, it takes four steps at most, and it
comes to a result whenever the probe, the server and the time are let go on. -/
structure Bounded (run : ProbeRun) : Prop where
  now : run.now ≤ run.begun + run.probe.timeoutMs
  steps : run.steps ≤ 3
  proceeds : (∃ result, run.Returns result) ∨ ∃ later, run.Advances later
  ends : Acc (fun later run => run.Advances later) run

/-- Whatever the other peers of an open server do, a probe of it comes to a result in time, and
the result is that the node serves, at the instant at which the server takes the connection, or
that the time is up. It is that the node serves whenever all connections that came before were
over before the time was up, which runs from the moment at which the request was sent. -/
theorem serving_or_timeout (h : run.Reachable) :
    run.Bounded ∧ (∀ result, run.Returns result → run.Concludes result) ∧
      (run.Unhindered → ∀ result, run.Returns result →
        ∃ report, result = .ok report ∧ run.Serves report) := by
  have hsound := h.sound
  obtain ⟨hnow, hsteps⟩ := hsound.inTime
  refine ⟨⟨hnow, hsteps, hsound.proceeds, hsound.ends⟩, fun result => hsound.concludes, ?_⟩
  rintro ⟨link, asked, hlink, hsent, hcleared⟩ result hreturns
  cases hsound.concludes hreturns with
  | serving hserves => exact ⟨_, rfl, hserves⟩
  | timeout hmisses =>
      cases hlink.symm.trans hmisses.connection
      cases hsent.symm.trans hmisses.sent
      exact absurd (hmisses.now ▸ hcleared) hmisses.heldUp

/-- A probe behind a peer that says nothing waits until the server has had enough of that
peer. -/
theorem serving_or_timeout_of_silence : ∃ run : ProbeRun, run.Reachable ∧
    run.begun = 100 ∧ run.now = 500 ∧ run.Unhindered ∧
      run.Returns (.ok ⟨some 1, 400⟩) ∧ run.Serves ⟨some 1, 400⟩ := by
  have hbegin : Service.Reachable _ :=
    @Service.Within.begin _ 0 {} _ { config := { bindAddr := "127.0.0.1", port := 4000 } } _ rfl rfl
      trivial
  have hcomes : Service.Reachable _ := .move hbegin (.others (.act (.connect 0) trivial)) trivial
  have hopened : Service.Reachable _ := .move hcomes (.step rfl) trivial
  have htaken : Service.Reachable _ := .move hopened (.step rfl) trivial
  have hwaits : Service.Reachable _ :=
    .move htaken (@Service.Move.wait _ 100 rfl (by decide) (by rintro _ ⟨⟩; decide)) trivial
  have hprobe : Reachable _ :=
    @Reachable.at_address _ "127.0.0.1" 4000 _ 2000 hwaits (by decide) (by decide) rfl rfl
  have hdial : Reachable _ := .move hprobe (.probe rfl rfl)
  have hconnected : Reachable _ := .move hdial (.probe rfl rfl)
  have hsent : Reachable _ := .move hconnected (.probe rfl rfl)
  have hlater : Reachable _ :=
    .move hsent (@Move.wait _ 500 ⟨rfl, rfl⟩ (by decide) (by rintro _ ⟨⟩; decide)
      (by rintro _ ⟨⟩; decide))
  have hexpired : Reachable _ := .move hlater (.server rfl)
  have hclosed : Reachable _ := .move hexpired (.server rfl)
  have hnext : Reachable _ := .move hclosed (.server rfl)
  have hread : Reachable _ := .move hnext (.server rfl)
  have hserved : Reachable _ := .move hread (.server rfl)
  have hreached : ∃ run : ProbeRun, run.Reachable ∧ run.begun = 100 ∧
      run.now = 500 ∧ run.Unhindered ∧ run.Returns (.ok ⟨some 1, 400⟩) := by
    refine ⟨_, hserved, rfl, rfl, ⟨1, 100, rfl, rfl, ?_⟩, _, _, rfl, rfl⟩
    intro guest _ hahead
    refine ⟨{ link := 0, arrived := 0, begun := 0, ended := 500 }, .tail _ (.head _), ?_,
      by decide⟩
    exact (Nat.lt_one_iff.mp hahead).symm
  obtain ⟨run, hreachable, hbegun, hnow, hunhindered, hreturns⟩ := hreached
  obtain ⟨_, _, hserving⟩ := serving_or_timeout hreachable
  obtain ⟨report, hreport, hserves⟩ := hserving hunhindered _ hreturns
  cases hreport
  exact ⟨run, hreachable, hbegun, hnow, hunhindered, hreturns, hserves⟩

end ProbeRun

end NodeHealth
