import NodeHealth.Proofs.Cnode.Progress

/-!
# Stopping the cnode client

A call that stops the client returns when its loop is over. Each phase but one has a deadline
of its own, and what follows it once the flag is cleared is bounded as well, so that the call
takes no longer than one poll interval, two timeouts and one second together. The exception
is a request that has begun to arrive: the client waits for the rest of it without a
deadline. `Scene.stop_bounded` counts the time that is spent there apart, and
`Scene.stop_unbounded` is a run in which it never ends.

-/

namespace NodeHealth

/-! ## How much of a frame a reader has taken -/

namespace Frame.Reader

/-- The bytes of its frame that a reader has taken. -/
def taken : Reader → Nat
  | varintPrefix _ number => number.index
  | fixedPrefix _ got => got.length
  | body _ got => fixedPrefixLength + got.length

/-- A reader behind four bytes of length has not taken a whole frame. -/
theorem taken_of_feed {limit : Nat} {begun : Bytes} {reader : Reader}
    (h : (start .fixed32 limit).feed begun = .more reader) :
    reader.taken = begun.length ∧ begun.length < fixedPrefixLength + limit := by
  simp only [start, feed, List.nil_append, List.length_nil, Nat.sub_zero] at h
  split at h
  · rename_i hshort
    cases h
    exact ⟨rfl, Nat.lt_of_lt_of_le hshort (Nat.le_add_right _ _)⟩
  · rename_i hlong
    simp only [feedLength, feedBody, List.nil_append] at h
    split at h
    · cases h
    · split at h
      · cases h
      · split at h
        · rename_i _ hlimit hpart
          cases h
          rw [List.length_drop] at hpart
          refine ⟨?_, ?_⟩
          · simp only [taken, List.length_drop]
            omega
          · omega
        · cases h

end Frame.Reader

/-! ## Deadlines -/

namespace ClientPhase

/-- When the client goes on from a phase even if nothing happens. -/
def deadline? : ClientPhase → Option Instant
  | starting => none
  | dialling dial => some dial.deadline
  | identifying _ _ deadline => deadline
  | polling _ deadline => some deadline
  | receiving _ _ => none
  | replying _ _ deadline => deadline
  | resting _ wake => some wake

/-- How long a phase may take that has a deadline. -/
def limitMs (config : CnodeConfig) : ClientPhase → Nat
  | starting => 0
  | dialling _ => config.connectTimeoutMs.toNat
  | identifying _ _ _ => config.connectTimeoutMs.toNat
  | polling _ _ => config.pollIntervalMs.toNat
  | receiving _ _ => 0
  | replying _ _ _ => config.connectTimeoutMs.toNat
  | resting _ _ => CnodeClient.tickMs

/-- How long the phases may take that follow a phase once the flag is cleared: one message
is still sent. -/
def followMs (config : CnodeConfig) : ClientPhase → Nat
  | starting => 0
  | dialling _ => config.connectTimeoutMs.toNat
  | identifying _ _ _ => 0
  | polling _ _ => config.connectTimeoutMs.toNat
  | receiving _ _ => config.connectTimeoutMs.toNat
  | replying _ _ _ => 0
  | resting _ _ => 0

variable (config : CnodeConfig) (message : Outgoing) (session : Session)
  (sending : Session.Sending) (deadline : Option Instant)

@[simp]
theorem deadline?_outgoing : (message.phase session sending deadline).deadline? = deadline := by
  cases message <;> rfl

@[simp]
theorem limitMs_outgoing :
    (message.phase session sending deadline).limitMs config = config.connectTimeoutMs.toNat := by
  cases message <;> rfl

@[simp]
theorem followMs_outgoing : (message.phase session sending deadline).followMs config = 0 := by
  cases message <;> rfl

end ClientPhase

namespace CnodeClient

/-- The client waits for a request of which it has seen the first bytes. -/
def MidRequest (client : CnodeClient) : Prop :=
  ∃ backoff session reader, client.loop = some ⟨backoff, .receiving session reader⟩

/-- The client does not wait for longer than it is configured to, but for the rest of a
request. -/
def Timely (now : Instant) (client : CnodeClient) : Prop :=
  ∀ loop, client.loop = some loop → loop.phase = .starting ∨ client.MidRequest ∨
    ∃ deadline, loop.phase.deadline? = some deadline ∧
      deadline ≤ now + loop.phase.limitMs client.config

/-- The longest time for which the client goes on once its flag is cleared, apart from
waiting for the rest of a request. -/
def remaining (now : Instant) (client : CnodeClient) : Nat :=
  match client.loop with
  | none => 0
  | some loop => (loop.phase.deadline?.getD now - now) + loop.phase.followMs client.config

/-- The steps that the client may still do once its flag is cleared: at most one frame is
read, byte by byte, and one message is written. -/
def stepsLeft (client : CnodeClient) : Nat :=
  match client.loop with
  | none => 0
  | some loop =>
      match loop.phase with
      | .starting => 1
      | .dialling _ => 8
      | .identifying _ sending _ => sending.rest.length + 1
      | .polling _ _ => Frame.fixedPrefixLength + maxRequestLength + 9
      | .receiving _ reader => Frame.fixedPrefixLength + maxRequestLength - reader.taken + 8
      | .replying _ sending _ => sending.rest.length + 1
      | .resting _ _ => 1

/-- The bound of a call that stops the client, in milliseconds. -/
def stopBoundMs (config : CnodeConfig) : Nat :=
  config.pollIntervalMs.toNat + 2 * config.connectTimeoutMs.toNat + tickMs

variable {now : Instant} {net later : Net} {client next : CnodeClient}

theorem wake?_of_loop {loop : ClientLoop} (hloop : client.loop = some loop) :
    client.wake? = loop.phase.deadline? := by
  obtain ⟨backoff, phase⟩ := loop
  cases phase <;> simp only [wake?, hloop, ClientPhase.deadline?]

theorem remaining_of_loop {loop : ClientLoop} (hloop : client.loop = some loop) :
    client.remaining now =
      (loop.phase.deadline?.getD now - now) + loop.phase.followMs client.config := by
  simp only [remaining, hloop]

theorem stepsLeft_outgoing {backoff : Backoff} {message : Outgoing} {session : Session}
    {sending : Session.Sending} {deadline : Option Instant}
    (hloop : client.loop = some ⟨backoff, message.phase session sending deadline⟩) :
    client.stepsLeft = sending.rest.length + 1 := by
  cases message <;> simp only [stepsLeft, hloop, Outgoing.phase]

theorem limit_follow_le (config : CnodeConfig) (phase : ClientPhase) :
    phase.limitMs config + phase.followMs config ≤ stopBoundMs config := by
  cases phase <;> simp only [ClientPhase.limitMs, ClientPhase.followMs, stopBoundMs] <;> omega

theorem Timely.remaining_le (h : client.Timely now) :
    client.remaining now ≤ stopBoundMs client.config := by
  cases hloop : client.loop with
  | none => simp only [remaining, hloop, Nat.zero_le]
  | some loop =>
      have hbound := limit_follow_le client.config loop.phase
      rw [remaining_of_loop hloop]
      have hfollow : loop.phase.deadline? = none →
          (loop.phase.deadline?.getD now - now) + loop.phase.followMs client.config ≤
            stopBoundMs client.config := by
        intro hnone
        rw [hnone, Option.getD_none, Nat.sub_self, Nat.zero_add]
        exact Nat.le_trans (Nat.le_add_left _ _) hbound
      rcases h loop hloop with hstarting | ⟨backoff, session, reader, hrequest⟩ |
        ⟨deadline, hdeadline, hlimit⟩
      · exact hfollow (by rw [hstarting]; rfl)
      · cases hloop.symm.trans hrequest
        exact hfollow rfl
      · rw [hdeadline, Option.getD_some]
        have hless := Nat.sub_le_of_le_add (Nat.add_comm now _ ▸ hlimit)
        exact Nat.le_trans (Nat.add_le_add_right hless _) hbound

theorem timely_of_deadline {loop : ClientLoop} {deadline : Instant}
    (hloop : client.loop = some loop) (hdeadline : loop.phase.deadline? = some deadline)
    (h : deadline ≤ now + loop.phase.limitMs client.config) : client.Timely now := by
  intro found hfound
  cases hloop.symm.trans hfound
  exact .inr (.inr ⟨deadline, hdeadline, h⟩)

theorem timely_of_none (hloop : client.loop = none) : client.Timely now := by
  intro loop hsome
  cases hloop.symm.trans hsome

theorem timely_of_request (h : client.MidRequest) : client.Timely now :=
  fun _ _ => .inr (.inl h)

theorem timely_retreat (client : CnodeClient) (now : Instant) (loop : ClientLoop) :
    (client.retreat now loop).Timely now := by
  rcases retreat_cases client now loop with ⟨_, heq⟩ | ⟨_, heq⟩ <;> rw [heq]
  · exact timely_of_deadline rfl rfl (Nat.le_refl _)
  · exact timely_of_none rfl

/-- Whatever the client begins, it begins with the deadline that is due. -/
theorem Turn.timely (h : Turn now net client later next) (htimely : client.Timely now) :
    next.Timely now := by
  cases h with
  | quit => exact timely_of_none rfl
  | dial => exact timely_of_deadline rfl rfl (Nat.le_refl _)
  | doze => exact timely_of_deadline rfl rfl (Nat.le_refl _)
  | refused => exact timely_retreat _ _ _
  | expired => exact timely_retreat _ _ _
  | connected => exact timely_of_deadline rfl rfl (Nat.le_refl _)
  | @wrote _ message _ _ deadline _ _ hloop =>
      rcases htimely _ hloop with hstarting | ⟨_, _, _, hrequest⟩ | ⟨instant, hdeadline, hlimit⟩
      · cases message <;> cases hstarting
      · have hphase := hloop.symm.trans hrequest
        cases message <;> cases hphase
      · simp only [ClientPhase.deadline?_outgoing] at hdeadline
        simp only [ClientPhase.limitMs_outgoing] at hlimit
        subst hdeadline
        exact timely_of_deadline rfl (ClientPhase.deadline?_outgoing _ _ _ _)
          (by simpa only [ClientPhase.limitMs_outgoing] using hlimit)
  | sent => exact timely_of_deadline rfl rfl (Nat.le_refl _)
  | parted => exact timely_of_none rfl
  | unsent => exact timely_retreat _ _ _
  | late => exact timely_retreat _ _ _
  | readable => exact timely_of_request ⟨_, _, _, rfl⟩
  | idle => exact timely_of_deadline rfl rfl (Nat.le_refl _)
  | interrupted => exact timely_of_deadline rfl rfl (Nat.le_refl _)
  | dismissed => exact timely_of_none rfl
  | ended => exact timely_retreat _ _ _
  | failed => exact timely_retreat _ _ _
  | more => exact timely_of_request ⟨_, _, _, rfl⟩
  | request => exact timely_of_deadline rfl rfl (Nat.le_refl _)
  | rejected => exact timely_retreat _ _ _

/-! ## The way down -/

theorem stepsLeft_pos {loop : ClientLoop} (hloop : client.loop = some loop) :
    0 < client.stepsLeft := by
  obtain ⟨backoff, phase⟩ := loop
  cases phase <;> simp only [stepsLeft, hloop] <;> omega

/-- A turn of a client whose flag is cleared leaves no more time and fewer steps, and its flag
cleared. -/
theorem Turn.winds_down (h : Turn now net client later next) (hstopped : client.running = false)
    (hreader : ∀ {backoff session reader},
      client.loop = some ⟨backoff, .receiving session reader⟩ →
        ∃ begun, (Frame.Reader.start .fixed32 maxRequestLength).feed begun = .more reader) :
    next.remaining now ≤ client.remaining now ∧ next.stepsLeft < client.stepsLeft := by
  have hover : ∀ {loop}, client.loop = some loop →
      client.finishLoop.remaining now ≤ client.remaining now ∧
        client.finishLoop.stepsLeft < client.stepsLeft := fun hloop =>
    ⟨Nat.zero_le _, stepsLeft_pos hloop⟩
  have hretreat : ∀ {loop before}, client.loop = some loop →
      (client.retreat now before).remaining now ≤ client.remaining now ∧
        (client.retreat now before).stepsLeft < client.stepsLeft := by
    intro loop before hloop
    rw [retreat_of_stopped hstopped]
    exact hover hloop
  cases h with
  | quit hloop => exact hover hloop
  | dial _ _ hrunning => cases hstopped.symm.trans hrunning
  | doze _ _ hrunning => cases hstopped.symm.trans hrunning
  | refused hloop => exact hretreat hloop
  | expired hloop => exact hretreat hloop
  | connected hloop =>
      constructor
      · rw [remaining_of_loop rfl, remaining_of_loop hloop]
        show (now + client.config.connectTimeoutMs.toNat - now) + 0 ≤ _
        rw [Nat.add_sub_cancel_left]
        exact Nat.le_add_left _ _
      · rw [stepsLeft_outgoing rfl, Outgoing.length_frame]
        simp only [stepsLeft, hloop]
        decide
  | wrote hloop _ hcount hpart =>
      constructor
      · rw [remaining_of_loop rfl, remaining_of_loop hloop]
        simp only [ClientPhase.deadline?_outgoing, ClientPhase.followMs_outgoing, Nat.le_refl]
      · rw [stepsLeft_outgoing rfl, stepsLeft_outgoing hloop, List.length_drop]
        omega
  | sent _ _ _ hrunning => cases hstopped.symm.trans hrunning
  | parted hloop => exact hover hloop
  | unsent hloop => exact hretreat hloop
  | late hloop => exact hretreat hloop
  | readable hloop =>
      constructor
      · rw [remaining_of_loop rfl, remaining_of_loop hloop]
        show (now - now) + client.config.connectTimeoutMs.toNat ≤ _
        rw [Nat.sub_self, Nat.zero_add]
        exact Nat.le_add_left _ _
      · simp only [stepsLeft, hloop, Frame.Reader.start, Frame.Reader.taken, List.length_nil]
        omega
  | idle _ _ _ hrunning => cases hstopped.symm.trans hrunning
  | interrupted _ _ hrunning => cases hstopped.symm.trans hrunning
  | dismissed hloop => exact hover hloop
  | ended hloop => exact hretreat hloop
  | failed hloop => exact hretreat hloop
  | @more _ _ reader following unread hloop harrival hfeed =>
      constructor
      · rw [remaining_of_loop rfl, remaining_of_loop hloop]
        exact Nat.le_refl _
      · obtain ⟨begun, hbegun⟩ := hreader hloop
        have hwhole : (Frame.Reader.start .fixed32 maxRequestLength).feed (begun ++ unread) =
            .more following := by
          rw [Frame.Reader.feed_append, hbegun]
          exact hfeed
        obtain ⟨hbefore, hroom⟩ := Frame.Reader.taken_of_feed hbegun
        obtain ⟨hafter, _⟩ := Frame.Reader.taken_of_feed hwhole
        have hpos := List.length_pos_iff.mpr (Link.arrival_bytes harrival)
        rw [List.length_append] at hafter
        simp only [stepsLeft, hloop, hbefore, hafter]
        omega
  | request hloop =>
      constructor
      · rw [remaining_of_loop rfl, remaining_of_loop hloop]
        show (now + client.config.connectTimeoutMs.toNat - now) + 0 ≤
          (now - now) + client.config.connectTimeoutMs.toNat
        rw [Nat.add_sub_cancel_left, Nat.sub_self, Nat.zero_add]
        exact Nat.le_refl _
      · rw [stepsLeft_outgoing rfl, Outgoing.length_frame]
        simp only [stepsLeft, hloop]
        omega
  | rejected hloop => exact hretreat hloop

/-- The most steps that a client does once its flag is cleared. -/
def maxStopSteps : Nat :=
  Frame.fixedPrefixLength + maxRequestLength + 9

theorem Turn.stepsLeft_le (h : Turn now net client later next)
    (hle : client.stepsLeft ≤ maxStopSteps) : next.stepsLeft ≤ maxStopSteps := by
  have hnone : 0 ≤ maxStopSteps := Nat.zero_le _
  have hone : 1 ≤ maxStopSteps := by decide
  have hmessage : 8 ≤ maxStopSteps := by decide
  have hretreat : ∀ loop, (client.retreat now loop).stepsLeft ≤ maxStopSteps := by
    intro loop
    rcases retreat_cases client now loop with ⟨_, heq⟩ | ⟨_, heq⟩ <;> rw [heq]
    · exact hone
    · exact hnone
  cases h with
  | quit => exact hnone
  | dial => exact hmessage
  | doze => exact hone
  | refused => exact hretreat _
  | expired => exact hretreat _
  | connected => exact Nat.le_trans (Nat.le_succ 7) hmessage
  | wrote hloop =>
      rw [stepsLeft_outgoing hloop] at hle
      rw [stepsLeft_outgoing rfl, List.length_drop]
      omega
  | sent => exact Nat.le_refl _
  | parted => exact hnone
  | unsent => exact hretreat _
  | late => exact hretreat _
  | readable =>
      simp only [stepsLeft, maxStopSteps]
      omega
  | idle => exact Nat.le_refl _
  | interrupted => exact Nat.le_refl _
  | dismissed => exact hnone
  | ended => exact hretreat _
  | failed => exact hretreat _
  | more =>
      simp only [stepsLeft, maxStopSteps]
      omega
  | request => exact Nat.le_trans (Nat.le_succ 7) hmessage
  | rejected => exact hretreat _

/-- Once its loop is over, the client shows it. -/
theorem Turn.stopped (h : Turn now net client later next) (hnext : next.loop = none) :
    next.state = .stopped := by
  have hretreat : ∀ {loop}, next = client.retreat now loop → next.state = .stopped := by
    rintro loop rfl
    rcases retreat_cases client now loop with ⟨_, heq⟩ | ⟨_, heq⟩
    · rw [heq] at hnext
      cases hnext
    · rw [heq]
      rfl
  cases h <;> first | rfl | exact hretreat rfl | cases hnext

end CnodeClient

namespace Scene

variable {first scene later : Scene} {steps inside : Nat}

/-! ## What holds whenever the client is stopped -/

theorem Reachable.timely (h : scene.Reachable) : scene.client.Timely scene.now := by
  apply h.invariant fun now client => client.Timely now
  case hbegin => exact fun _ _ => CnodeClient.timely_of_none rfl
  case hturn => exact fun hturn htimely => hturn.timely htimely
  case hwait =>
    intro now later client hlater htimely loop hloop
    rcases htimely loop hloop with hstarting | hrequest | ⟨deadline, hdeadline, hlimit⟩
    · exact .inl hstarting
    · exact .inr (.inl hrequest)
    · exact .inr (.inr ⟨deadline, hdeadline,
        Nat.le_trans hlimit (Nat.add_le_add_right hlater _)⟩)
  case hstart =>
    intro now client _ _ _ loop hloop
    cases hloop
    exact .inl rfl
  case hstop => exact fun htimely => htimely

theorem Reachable.stepsLeft_le (h : scene.Reachable) :
    scene.client.stepsLeft ≤ CnodeClient.maxStopSteps := by
  apply h.invariant fun _ client => client.stepsLeft ≤ CnodeClient.maxStopSteps
  case hbegin => exact fun _ _ => Nat.zero_le _
  case hturn => exact fun hturn hsteps => hturn.stepsLeft_le hsteps
  case hwait => exact fun _ hsteps => hsteps
  case hstart => exact fun _ _ _ => show 1 ≤ CnodeClient.maxStopSteps by decide
  case hstop => exact fun hsteps => hsteps

theorem Reachable.stopped (h : scene.Reachable) :
    scene.client.loop = none → scene.client.state = .stopped := by
  apply h.invariant fun _ client => client.loop = none → client.state = .stopped
  case hbegin => exact fun _ _ _ => rfl
  case hturn => exact fun hturn _ hnext => hturn.stopped hnext
  case hwait => exact fun _ hstate => hstate
  case hstart =>
    intro now client _ _ _ hloop
    cases hloop
  case hstop => exact fun hstate => hstate

/-! ## A call that stops the client -/

/-- What happens from a call that stops a started client, in any scene that is reached, to the
return of the call, with the number of steps of the client and the time that it has spent
waiting for the rest of a request. -/
inductive Stopping (first : Scene) : Nat → Nat → Scene → Prop
  | call (hfirst : first.Reachable) (hattached : first.client.attached = true) :
      Stopping first 0 0 { first with client := first.client.requestStop }
  | step {scene : Scene} {steps inside : Nat} {net : Net} {client : CnodeClient}
      (h : Stopping first steps inside scene)
      (hstep : scene.client.step scene.now scene.net = some (net, client)) :
      Stopping first (steps + 1) inside (scene.after net client)
  | others {scene : Scene} {steps inside : Nat} {net : Net}
      (h : Stopping first steps inside scene)
      (hforeign : scene.net.Foreign scene.holdings net) :
      Stopping first steps inside { scene with net }
  | wait {scene : Scene} {steps inside : Nat} {now : Instant}
      (h : Stopping first steps inside scene) (hpending : scene.client.isStopping = true)
      (hother : ¬scene.client.MidRequest) (hwaits : scene.Waits) (hnow : scene.now ≤ now)
      (hwake : ∀ wake, scene.client.wake? = some wake → now ≤ wake) :
      Stopping first steps inside { scene with now }
  | linger {scene : Scene} {steps inside : Nat} {now : Instant}
      (h : Stopping first steps inside scene) (hrequest : scene.client.MidRequest)
      (hwaits : scene.Waits) (hnow : scene.now ≤ now) :
      Stopping first steps (inside + (now - scene.now)) { scene with now }

theorem wake?_of_midRequest (h : scene.client.MidRequest) : scene.client.wake? = none := by
  obtain ⟨backoff, session, reader, hloop⟩ := h
  exact CnodeClient.wake?_of_loop hloop

theorem Stopping.reachable (h : first.Stopping steps inside scene) : scene.Reachable := by
  induction h with
  | call hfirst => exact .move hfirst .stop trivial
  | step _ hstep ih => exact .move ih (.step hstep) trivial
  | others _ hforeign ih => exact .move ih (.others hforeign) trivial
  | wait _ _ _ hwaits hnow hwake ih => exact .move ih (.wait hwaits hnow hwake) trivial
  | linger _ hrequest hwaits hnow ih =>
      refine .move ih (.wait hwaits hnow fun wake hwake => ?_) trivial
      cases (wake?_of_midRequest hrequest).symm.trans hwake

/-- The flag stays cleared until the call returns, and the configuration is the same. -/
theorem Stopping.keeps (h : first.Stopping steps inside scene) :
    scene.client.running = false ∧ scene.client.attached = false ∧
      scene.client.config = first.client.config := by
  induction h with
  | call _ hattached => simp [CnodeClient.requestStop, hattached]
  | step h hstep ih =>
      have hturn := CnodeClient.turn_of_step h.reachable.sound.fits hstep
      obtain ⟨hconfig, hrunning, hheld⟩ := hturn.keeps
      exact ⟨hrunning.trans ih.1, hheld.trans ih.2.1, hconfig.trans ih.2.2⟩
  | others _ _ ih => exact ih
  | wait _ _ _ _ _ _ ih => exact ih
  | linger _ _ _ _ ih => exact ih

/-- Until a deadline, what has passed and what remains add up to the same. -/
theorem budget_wait {now later deadline follow bound : Nat}
    (h : now + (deadline - now + follow) ≤ bound) (hlater : later ≤ deadline) :
    later + (deadline - later + follow) ≤ bound := by
  omega

theorem budget_linger {now later follow bound inside : Nat}
    (h : now + (now - now + follow) ≤ bound + inside) :
    later + (later - later + follow) ≤ bound + (inside + (later - now)) := by
  omega

theorem budget_deadline {now deadline follow bound : Nat}
    (h : now + (deadline - now + follow) ≤ bound) : deadline ≤ bound := by
  omega

/-- A client that waits has a deadline ahead, or it is in the middle of a request. -/
theorem deadline_of_waits (hscene : scene.Reachable) (hwaits : scene.Waits) {loop : ClientLoop}
    (hloop : scene.client.loop = some loop) :
    scene.client.MidRequest ∨
      ∃ deadline, loop.phase.deadline? = some deadline ∧ scene.now < deadline := by
  have htimely := hscene.timely loop hloop
  cases CnodeClient.waits_of_step hscene.sound.fits hwaits with
  | idle hnone => cases hnone.symm.trans hloop
  | dialling hphase _ hdeadline =>
      cases hphase.symm.trans hloop
      exact .inr ⟨_, rfl, hdeadline⟩
  | @outgoing _ message _ _ deadline _ hphase _ _ hdeadline =>
      cases hphase.symm.trans hloop
      rcases htimely with hstarting | hrequest | ⟨instant, hinstant, _⟩
      · cases message <;> cases hstarting
      · exact .inl hrequest
      · refine .inr ⟨instant, hinstant, ?_⟩
        rw [ClientPhase.deadline?_outgoing] at hinstant
        rw [hinstant] at hdeadline
        simpa [CnodeClient.isOver] using hdeadline
  | polling hphase _ hdeadline =>
      cases hphase.symm.trans hloop
      exact .inr ⟨_, rfl, hdeadline⟩
  | receiving hphase => exact .inl ⟨_, _, _, hphase⟩
  | resting hphase hwake =>
      cases hphase.symm.trans hloop
      exact .inr ⟨_, rfl, hwake⟩

/-- The time that has passed and the time that remains stay within the bound, and so do the
steps. -/
theorem Stopping.budget (h : first.Stopping steps inside scene) :
    scene.now + scene.client.remaining scene.now ≤
        first.now + CnodeClient.stopBoundMs first.client.config + inside ∧
      steps + scene.client.stepsLeft ≤ CnodeClient.maxStopSteps := by
  induction h with
  | call hfirst =>
      have hremaining := hfirst.timely.remaining_le
      have hsteps := hfirst.stepsLeft_le
      rcases stop_cases first.client with hsame | ⟨_, hsame⟩
      · rw [hsame]
        exact ⟨Nat.add_le_add_left hremaining _, by rwa [Nat.zero_add]⟩
      · rw [hsame]
        exact ⟨Nat.add_le_add_left hremaining _, by rwa [Nat.zero_add]⟩
  | @step scene steps inside net client h hstep ih =>
      have hscene := h.reachable
      have hturn := CnodeClient.turn_of_step hscene.sound.fits hstep
      obtain ⟨hremaining, hsteps⟩ := hturn.winds_down h.keeps.1 (by
        intro backoff session reader hloop
        obtain ⟨_, ⟨begun, _, hbegun⟩, _⟩ := hscene.faithful.recorded hloop rfl
        exact ⟨begun, hbegun⟩)
      refine ⟨Nat.le_trans (Nat.add_le_add_left hremaining _) ih.1, ?_⟩
      have hbefore := ih.2
      show steps + 1 + client.stepsLeft ≤ _
      omega
  | others _ _ ih => exact ih
  | @wait scene steps inside now h hpending hother hwaits _ hwake ih =>
      refine ⟨?_, ih.2⟩
      have hbudget := ih.1
      cases hloop : scene.client.loop with
      | none => simp [CnodeClient.isStopping, hloop] at hpending
      | some loop =>
          rcases deadline_of_waits h.reachable hwaits hloop with hrequest |
            ⟨deadline, hdeadline, _⟩
          · exact absurd hrequest hother
          · have hlater := hwake deadline ((CnodeClient.wake?_of_loop hloop).trans hdeadline)
            rw [CnodeClient.remaining_of_loop hloop, hdeadline] at hbudget ⊢
            exact budget_wait hbudget hlater
  | linger h hrequest _ _ ih =>
      refine ⟨?_, ih.2⟩
      have hbudget := ih.1
      obtain ⟨backoff, session, reader, hloop⟩ := hrequest
      rw [CnodeClient.remaining_of_loop hloop] at hbudget ⊢
      exact budget_linger hbudget

/-- Apart from the time that it spends waiting for the rest of a request, a call that stops
the client takes no longer than one poll interval, two timeouts and one second, whatever
others do. It does finitely many steps; when the loop is over, the client is stopped and not
running; and as long as it is not over, the client can go on at once, or goes on by itself
within the bound, or waits for the rest of a request. There it waits for any length of time
if the peer is silent. -/
theorem stop_bounded (h : first.Stopping steps inside scene) :
    scene.now ≤ first.now + CnodeClient.stopBoundMs first.client.config + inside ∧
      steps ≤ CnodeClient.maxStopSteps ∧
      scene.client.isRunning = false ∧
      (scene.client.loop = none → scene.client.state = .stopped) ∧
      (scene.client.loop ≠ none → scene.Waits →
        (∃ wake, scene.client.wake? = some wake ∧ scene.now < wake ∧
          wake ≤ first.now + CnodeClient.stopBoundMs first.client.config + inside) ∨
        scene.client.MidRequest ∧ ∀ now, scene.now ≤ now →
          first.Stopping steps (inside + (now - scene.now)) { scene with now }) := by
  have hscene := h.reachable
  obtain ⟨hrunning, hheld, _⟩ := h.keeps
  obtain ⟨htime, hsteps⟩ := h.budget
  refine ⟨Nat.le_trans (Nat.le_add_right _ _) htime, Nat.le_trans (Nat.le_add_right _ _) hsteps,
    ?_, hscene.stopped, ?_⟩
  · simp only [CnodeClient.isRunning, hheld, Bool.false_and]
  · intro hpending hwaits
    cases hloop : scene.client.loop with
    | none => exact absurd hloop hpending
    | some loop =>
        rcases deadline_of_waits hscene hwaits hloop with hrequest | ⟨deadline, hdeadline, hlater⟩
        · exact .inr ⟨hrequest, fun now hnow => .linger h hrequest hwaits hnow⟩
        · rw [CnodeClient.remaining_of_loop hloop, hdeadline, Option.getD_some] at htime
          exact .inl ⟨deadline, (CnodeClient.wake?_of_loop hloop).trans hdeadline, hlater,
            budget_deadline htime⟩

/-- A client that waits for the rest of a request does so whether its flag is cleared or not,
and a call that stops it there does not return as long as the rest does not come. -/
theorem Reachable.hangs (hfirst : first.Reachable) (hattached : first.client.attached = true)
    (hrequest : first.client.MidRequest) (hwaits : first.Waits) (now : Instant)
    (hnow : first.now ≤ now) :
    ∃ (inside : Nat) (scene : Scene), first.Stopping 0 inside scene ∧ scene.now = now ∧
      scene.client.isStopping = true := by
  obtain ⟨backoff, session, reader, hloop⟩ := hrequest
  have hside : session.side = .dialler :=
    (hfirst.sound.fits session (CnodeClient.session?_of_loop hloop)).side
  have hstopped : first.client.requestStop =
      { first.client with running := false, attached := false } := by
    simp only [CnodeClient.requestStop, hattached, if_true]
  have hsilent : (first.net.link session.link).arrival .dialler = .nothing := by
    cases CnodeClient.waits_of_step hfirst.sound.fits hwaits with
    | idle hphase => cases hphase.symm.trans hloop
    | dialling hphase => cases hphase.symm.trans hloop
    | @outgoing _ message _ _ _ _ hphase => cases message <;> cases hphase.symm.trans hloop
    | polling hphase => cases hphase.symm.trans hloop
    | receiving hphase harrival =>
        cases hphase.symm.trans hloop
        exact harrival
    | resting hphase => cases hphase.symm.trans hloop
  have hstill : Waits { first with client := first.client.requestStop } := by
    simp only [Waits, CnodeClient.step, hstopped, hloop, Session.receive, hside, hsilent]
  have hcall : first.Stopping 0 0 _ := .call hfirst hattached
  refine ⟨_, _, .linger hcall ⟨backoff, session, reader, ?_⟩ hstill hnow, rfl, ?_⟩
  · rw [hstopped]
    exact hloop
  · rw [hstopped]
    simp [CnodeClient.isStopping, hloop]

/-- A client that is stopped while it waits for a request notices when it has waited for one
poll interval. -/
theorem stop_bounded_between_requests : ∃ (first scene : Scene) (steps : Nat),
    first.Stopping steps 0 scene ∧ scene.client.loop = none ∧ scene.client.state = .stopped ∧
      scene.client.isRunning = false ∧
      scene.now ≤ first.now + CnodeClient.stopBoundMs first.client.config := by
  have hbegin : Reachable _ := .begin 0
    { listeners := [{ address := ⟨.loopback, 4000⟩ }] }
    { serverIp := some "127.0.0.1", serverPort := 4000 } trivial
  have hstart : Reachable _ := .move hbegin (.start rfl) trivial
  have hdial : Reachable _ := .move hstart (.step rfl) trivial
  have hconnect : Reachable _ := .move hdial (.step rfl) trivial
  have hidentity : Reachable _ := .move hconnect (.step rfl) trivial
  have hcall : Stopping _ 0 0 _ := .call hidentity rfl
  have hwait : Stopping _ 0 0 _ := @Stopping.wait _ _ 0 0 5000 hcall rfl
    (by rintro ⟨_, _, _, h⟩; cases h) rfl (by decide) (by rintro wake h; cases h; decide)
  have hover : Stopping _ 1 0 _ := .step hwait rfl
  obtain ⟨htime, _, hrunning, hstate, _⟩ := stop_bounded hover
  exact ⟨_, _, 1, hover, rfl, hstate rfl, hrunning, htime⟩

/-- A peer sends the first byte of a request and nothing else, and a call that stops the
client does not return at any time. -/
theorem stop_unbounded : ∃ first : Scene, ∀ now, first.now ≤ now →
    ∃ (inside : Nat) (scene : Scene), first.Stopping 0 inside scene ∧
      scene.now = now ∧ scene.client.isStopping = true := by
  have hbegin : Reachable _ := .begin 0
    { listeners := [{ address := ⟨.loopback, 4000⟩ }] }
    { serverIp := some "127.0.0.1", serverPort := 4000 } trivial
  have hstart : Reachable _ := .move hbegin (.start rfl) trivial
  have hdial : Reachable _ := .move hstart (.step rfl) trivial
  have hconnect : Reachable _ := .move hdial (.step rfl) trivial
  have hidentity : Reachable _ := .move hconnect (.step rfl) trivial
  have hbyte : Reachable _ := .move hidentity
    (.others (.act (.write 0 .acceptor [2]) (fun h => by cases h.1))) trivial
  have hreadable : Reachable _ := .move hbyte (.step rfl) trivial
  have hmore : Reachable _ := .move hreadable (.step rfl) trivial
  exact ⟨_, hmore.hangs rfl ⟨_, _, _, rfl⟩ rfl⟩

end Scene

end NodeHealth
