import NodeHealth.Proofs.Probe.Run

/-!
# How long a probe takes

A `TimedProbe` is one probe in any network, among others who may answer its attempt, leave room
for its request and reply whenever they like. Connecting, sending and receiving have the whole
timeout each, so that the bound for a probe is three times its timeout
(`TimedProbe.within_three_timeouts`). A probe can take all of that and report a node that serves
(`TimedProbe.three_timeouts_taken`).

## Implementation notes

`ProbeRun` is a probe of a server that listens, which connects and sends at once. Nothing is
known here of whom the probe reaches, and of its run only the times are kept.

-/

namespace NodeHealth

/-- One probe among others. -/
structure TimedProbe where
  now : Instant
  net : Net
  probe : Probe
  /-- When the probe began. -/
  begun : Instant

/-- A probe has a connection, or its attempt has led to one. -/
def Probe.Owns (probe : Probe) (net : Net) (link : LinkId) : Prop :=
  match probe.phase with
  | .dialling dial => net.attempt dial.attempt = .connected link
  | .sending session _ _ => session.link = link
  | .awaiting session _ _ => session.link = link
  | _ => False

namespace TimedProbe

/-- The time for each of connecting, sending and receiving. -/
def timeout (timed : TimedProbe) : Nat :=
  timed.probe.timeoutMs

/-- What the probe holds: its attempt, and its end of its connection. -/
def holdings (timed : TimedProbe) : Net.Holdings where
  ends := fun link side => side = .dialler ∧ timed.probe.Owns timed.net link
  attempts := (timed.probe.dialled? = some ·)
  listeners := fun _ => False

/-- One change of a timed probe. -/
inductive Move (timed : TimedProbe) : TimedProbe → Prop
  | step {net : Net} {probe : Probe}
      (h : timed.probe.step timed.now timed.net = some (net, probe)) :
      Move timed { timed with net, probe }
  | others {net : Net} (h : timed.net.Foreign timed.holdings net) :
      Move timed { timed with net }
  | wait {now : Instant} (hwaits : timed.probe.step timed.now timed.net = none)
      (hnow : timed.now ≤ now) (hwake : ∀ wake, timed.probe.wake? = some wake → now ≤ wake) :
      Move timed { timed with now }

/-- A timed probe that is reached from a new probe in any network. -/
inductive Reachable : TimedProbe → Prop
  | begin (now : Instant) (net : Net) (host : String) (port : UInt16) (timeoutMs : Nat) :
      Reachable { now, net, probe := { host, port, timeoutMs }, begun := now }
  | move {timed later : TimedProbe} (htimed : Reachable timed) (hmove : timed.Move later) :
      Reachable later

/-- The next step of the probe is its last and gives a result. -/
def Returns (timed : TimedProbe) (result : Except ConnectionError ProbeReport) : Prop :=
  ∃ net probe, timed.probe.step timed.now timed.net = some (net, probe) ∧
    probe.phase = .finished result

/-- Each phase of a probe begins before the deadline of the one before, and it has the whole
timeout. -/
def Timely (timed : TimedProbe) : ProbePhase → Prop
  | .starting => timed.now = timed.begun
  | .dialling dial => timed.probe.started = timed.begun ∧
      dial.deadline = timed.begun + timed.timeout ∧ timed.now ≤ dial.deadline
  | .sending _ _ deadline => timed.probe.started = timed.begun ∧
      ∃ connected, connected ≤ timed.begun + timed.timeout ∧
        deadline = some (connected + timed.timeout) ∧ timed.now ≤ connected + timed.timeout
  | .awaiting _ _ deadline => timed.probe.started = timed.begun ∧
      ∃ sent, sent ≤ timed.begun + 2 * timed.timeout ∧
        deadline = sent + timed.timeout ∧ timed.now ≤ deadline
  | .finished _ => True

/-- What holds of every timed that is reached. -/
structure Sound (timed : TimedProbe) : Prop where
  fits : timed.probe.Fits
  timely : timed.Timely timed.probe.phase

variable {timed later : TimedProbe} {net : Net} {probe : Probe}

/-- The next phase begins in time. -/
theorem Sound.turn (h : timed.Sound)
    (hturn : timed.probe.Turn timed.now timed.net net probe) :
    ({ timed with net, probe } : TimedProbe).Sound := by
  have htimely := h.timely
  refine ⟨hturn.fits h.fits, ?_⟩
  cases hturn with
  | dial hphase =>
      rw [hphase] at htimely
      have hnow : timed.now = timed.begun := htimely
      refine ⟨hnow, ?_, Nat.le_add_right _ _⟩
      rw [hnow]
      rfl
  | connected hphase =>
      rw [hphase] at htimely
      obtain ⟨hstarted, hdeadline, hnow⟩ := htimely
      exact ⟨hstarted, timed.now, hdeadline ▸ hnow, rfl, Nat.le_add_right _ _⟩
  | wrote hphase =>
      rw [hphase] at htimely
      exact htimely
  | sent hphase =>
      rw [hphase] at htimely
      obtain ⟨hstarted, connected, hconnected, _, hnow⟩ := htimely
      exact ⟨hstarted, timed.now, second_deadline hconnected hnow, rfl, Nat.le_add_right _ _⟩
  | more hphase =>
      rw [hphase] at htimely
      exact htimely
  | _ => trivial

/-- Until it is over, a probe that has run has a deadline, which has not passed. -/
theorem Sound.deadline (h : timed.Sound) (hopen : timed.probe.result? = none)
    (hbegun : timed.probe.phase ≠ .starting) : ∃ wake, timed.probe.wake? = some wake ∧
      timed.now ≤ wake ∧ wake ≤ timed.begun + 3 * timed.timeout := by
  have htimely := h.timely
  cases hphase : timed.probe.phase with
  | starting => exact absurd hphase hbegun
  | dialling dial =>
      rw [hphase] at htimely
      obtain ⟨_, hdeadline, hnow⟩ := htimely
      exact ⟨dial.deadline, by simp only [Probe.wake?, hphase], hnow,
        first_of_three (Nat.le_of_eq hdeadline)⟩
  | sending session sending deadline =>
      rw [hphase] at htimely
      obtain ⟨_, connected, hconnected, rfl, hnow⟩ := htimely
      exact ⟨_, by simp only [Probe.wake?, hphase], hnow,
        second_of_three (second_deadline hconnected (Nat.le_refl _))⟩
  | awaiting session reader deadline =>
      rw [hphase] at htimely
      obtain ⟨_, sent, hsent, rfl, hnow⟩ := htimely
      exact ⟨_, by simp only [Probe.wake?, hphase], hnow, third_deadline hsent⟩
  | finished result => simp [Probe.result?, hphase] at hopen

theorem Sound.wait (h : timed.Sound) {now : Instant}
    (hwaits : timed.probe.step timed.now timed.net = none)
    (hwake : ∀ wake, timed.probe.wake? = some wake → now ≤ wake) :
    ({ timed with now } : TimedProbe).Sound := by
  have htimely := h.timely
  refine ⟨h.fits, ?_⟩
  change Timely { timed with now } timed.probe.phase
  cases hphase : timed.probe.phase with
  | starting => simp [Probe.step, hphase] at hwaits
  | dialling dial =>
      rw [hphase] at htimely
      obtain ⟨hstarted, hdeadline, _⟩ := htimely
      have hnow : now ≤ dial.deadline := hwake _ (by simp only [Probe.wake?, hphase])
      exact ⟨hstarted, hdeadline, hnow⟩
  | sending session sending deadline =>
      rw [hphase] at htimely
      obtain ⟨hstarted, connected, hconnected, hdeadline, _⟩ := htimely
      have hnow : now ≤ connected + timed.timeout :=
        hwake _ (by simp only [Probe.wake?, hphase, hdeadline])
      exact ⟨hstarted, connected, hconnected, hdeadline, hnow⟩
  | awaiting session reader deadline =>
      rw [hphase] at htimely
      obtain ⟨hstarted, sent, hsent, hdeadline, _⟩ := htimely
      have hnow : now ≤ deadline := hwake _ (by simp only [Probe.wake?, hphase])
      exact ⟨hstarted, sent, hsent, hdeadline, hnow⟩
  | finished result => trivial

theorem Reachable.sound (h : timed.Reachable) : timed.Sound := by
  induction h with
  | begin => exact ⟨nofun, rfl⟩
  | move _ hmove ih =>
      cases hmove with
      | step hstep => exact ih.turn (Probe.turn_of_step ih.fits hstep)
      | others => exact ⟨ih.fits, ih.timely⟩
      | wait hwaits _ hwake => exact ih.wait hwaits hwake

/-- A probe reports after the time that it has taken. -/
theorem Sound.elapsed (h : timed.Sound) {report : ProbeReport}
    (hreturns : timed.Returns (.ok report)) :
    report.elapsedMs = timed.now - timed.begun := by
  obtain ⟨net, probe, hstep, hphase⟩ := hreturns
  have htimely := h.timely
  cases Probe.turn_of_step h.fits hstep with
  | answered hawaiting =>
      rw [hawaiting] at htimely
      obtain ⟨hstarted, _⟩ := htimely
      cases hphase
      rw [hstarted]
  | _ => cases hphase

theorem Sound.now_le (h : timed.Sound) (hopen : timed.probe.result? = none) :
    timed.now ≤ timed.begun + 3 * timed.timeout := by
  by_cases hphase : timed.probe.phase = .starting
  · have htimely := h.timely
    rw [hphase] at htimely
    have hnow : timed.now = timed.begun := htimely
    exact hnow ▸ Nat.le_add_right _ _
  · obtain ⟨wake, _, hnow, hwake⟩ := h.deadline hopen hphase
    exact Nat.le_trans hnow hwake

theorem early_of_sending {now wake : Instant} {session : Session} {sending : Session.Sending}
    (hphase : probe.phase = .sending session sending (some wake))
    (hwaits : probe.step now net = none) : now < wake := by
  apply Nat.lt_of_not_le
  intro hlate
  simp only [Probe.step, hphase, Option.any_some, hlate, decide_true, if_true] at hwaits
  split at hwaits <;> cases hwaits

/-- A probe that waits does so for a deadline that has not come. -/
theorem Sound.lt_wake (h : timed.Sound)
    (hwaits : timed.probe.step timed.now timed.net = none) {wake : Instant}
    (hwake : timed.probe.wake? = some wake) : timed.now < wake := by
  cases Probe.waits_of_step h.fits hwaits with
  | dialling hphase _ hdeadline =>
      simp only [Probe.wake?, hphase, Option.some.injEq] at hwake
      exact hwake ▸ hdeadline
  | @sending session sending deadline _ hphase =>
      simp only [Probe.wake?, hphase] at hwake
      subst hwake
      exact early_of_sending hphase hwaits
  | awaiting hphase _ hdeadline =>
      simp only [Probe.wake?, hphase, Option.some.injEq] at hwake
      exact hwake ▸ hdeadline
  | finished hphase => simp [Probe.wake?, hphase] at hwake

/-- Whatever the network and the probed node do, a probe that has no result yet has taken no
longer than three times its timeout, and if it waits, then no longer than that. A probe that
reports does so in this time, and says how much of it it has taken. -/
theorem within_three_timeouts (h : timed.Reachable) :
    (timed.probe.result? = none → timed.now ≤ timed.begun + 3 * timed.timeout) ∧
      (timed.probe.result? = none → timed.probe.step timed.now timed.net = none →
        ∃ wake, timed.probe.wake? = some wake ∧ timed.now < wake ∧
          wake ≤ timed.begun + 3 * timed.timeout) ∧
      ∀ report, timed.Returns (.ok report) →
        report.elapsedMs = timed.now - timed.begun ∧
          report.elapsedMs ≤ 3 * timed.timeout := by
  have hsound := h.sound
  refine ⟨hsound.now_le, fun hopen hwaits => ?_, fun report hreturns => ?_⟩
  · have hbegun : timed.probe.phase ≠ .starting := by
      intro hphase
      simp [Probe.step, hphase] at hwaits
    obtain ⟨wake, hwake, _, hbound⟩ := hsound.deadline hopen hbegun
    exact ⟨wake, hwake, hsound.lt_wake hwaits hwake, hbound⟩
  · have helapsed := hsound.elapsed hreturns
    obtain ⟨net, probe, hstep, _⟩ := hreturns
    have hopen : timed.probe.result? = none := by
      cases hphase : timed.probe.phase <;> simp [Probe.result?, Probe.step, hphase] at hstep ⊢
    refine ⟨helapsed, ?_⟩
    rw [helapsed]
    exact Nat.sub_le_iff_le_add'.mpr (hsound.now_le hopen)

/-- A probe that is answered, given room and replied to as late as possible. -/
theorem three_timeouts_taken : ∃ timed : TimedProbe, timed.Reachable ∧ timed.timeout = 1 ∧
    timed.Returns (.ok ⟨some 1, 3⟩) := by
  have hbegin : Reachable _ := .begin 0 { isWhole := false } "127.0.0.1" 4000 1
  have hdial : Reachable _ := .move hbegin (.step rfl)
  have hpatient : Reachable _ :=
    .move hdial (@Move.wait _ 1 rfl (by decide) (by rintro _ ⟨⟩; decide))
  have hanswer : Reachable _ := .move hpatient (.others (.act (.establish 0) trivial))
  have hconnected : Reachable _ := .move hanswer (.step rfl)
  have hfull : Reachable _ := .move hconnected
    (.others (@Net.Foreign.confine _ _ 0 .acceptor (some 0) (fun h => by cases h.1)))
  have hstuck : Reachable _ :=
    .move hfull (@Move.wait _ 2 rfl (by decide) (by rintro _ ⟨⟩; decide))
  have hroom : Reachable _ := .move hstuck
    (.others (@Net.Foreign.confine _ _ 0 .acceptor none (fun h => by cases h.1)))
  have hsent : Reachable _ := .move hroom (.step rfl)
  have hsilent : Reachable _ :=
    .move hsent (@Move.wait _ 3 rfl (by decide) (by rintro _ ⟨⟩; decide))
  have hreply : Reachable _ := .move hsilent
    (.others (.act (.write 0 .acceptor [2, 8, 1]) (fun h => by cases h.1)))
  exact ⟨_, hreply, rfl, _, _, rfl, rfl⟩

end TimedProbe

end NodeHealth
