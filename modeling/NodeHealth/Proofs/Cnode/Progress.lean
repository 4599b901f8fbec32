import NodeHealth.Proofs.Cnode.Conversation

/-!
# The client comes to wait

Left alone, the client does finitely many steps and then waits, if it waits at all for a
request before it looks at its flag again. `CnodeClient.work` bounds the steps that are left:
unread bytes cost more than answering the requests that they may hold.

-/

namespace NodeHealth

/-- The bytes that have arrived at the client's end of a connection. -/
def Net.pending (net : Net) (link : LinkId) : Nat :=
  ((net.link link).unread .dialler).length

/-- The failures that the client's end of a connection has still to report, at most one. -/
def Net.faults (net : Net) (link : LinkId) : Nat :=
  (net.link link).dialler.fault.toList.length

theorem Net.faults_le_one (net : Net) (link : LinkId) : net.faults link ≤ 1 :=
  Option.length_toList_le

namespace CnodeClient

/-- A bound of the steps that the client does before it waits. -/
def work (now : Instant) (net : Net) (client : CnodeClient) : Nat :=
  match client.loop with
  | none => 0
  | some loop =>
      match loop.phase with
      | .starting => 40
      | .dialling dial =>
          match net.attempt dial.attempt with
          | .connected link => 20 + 20 * net.pending link
          | _ => 1
      | .identifying session sending _ => 10 + sending.rest.length + 20 * net.pending session.link
      | .polling session deadline =>
          3 + (if deadline ≤ now then 1 else 0) + net.faults session.link +
            20 * net.pending session.link
      | .receiving session _ => 2 + 20 * net.pending session.link
      | .replying session sending _ => 10 + sending.rest.length + 20 * net.pending session.link
      | .resting _ wake => if wake ≤ now then 40 else 0

variable {now : Instant} {net later : Net} {client : CnodeClient}

theorem work_of_begins {loop : ClientLoop} {backoff : Backoff} (hloop : client.loop = some loop)
    (hbegins : Begins now client.running loop backoff) : client.work now net = 40 := by
  cases hbegins with
  | first => simp only [work, hloop]
  | again _ hwake => simp only [work, hloop, if_pos hwake]

theorem work_dialling_pos {backoff : Backoff} {dial : Dial}
    (hloop : client.loop = some ⟨backoff, .dialling dial⟩) : 0 < client.work now net := by
  simp only [work, hloop]
  split
  · omega
  · decide

theorem work_outgoing {backoff : Backoff} {message : Outgoing} {session : Session}
    {sending : Session.Sending} {deadline : Option Instant}
    (hloop : client.loop = some ⟨backoff, message.phase session sending deadline⟩) :
    client.work now net = 10 + sending.rest.length + 20 * net.pending session.link := by
  cases message <;> simp only [work, hloop, Outgoing.phase]

theorem work_polling {backoff : Backoff} {session : Session} {deadline : Instant}
    (hloop : client.loop = some ⟨backoff, .polling session deadline⟩) :
    client.work now net =
      3 + (if deadline ≤ now then 1 else 0) + net.faults session.link +
        20 * net.pending session.link := by
  simp only [work, hloop]

theorem work_receiving {backoff : Backoff} {session : Session} {reader : Frame.Reader}
    (hloop : client.loop = some ⟨backoff, .receiving session reader⟩) :
    client.work now net = 2 + 20 * net.pending session.link := by
  simp only [work, hloop]

/-- What is to come is not over. -/
theorem not_over (now : Instant) {delay : Nat} (h : 0 < delay) : ¬now + delay ≤ now :=
  Nat.not_le_of_lt (Nat.lt_add_of_pos_right h)

/-- A client that begins to wait for a request has not waited long enough. -/
theorem work_waiting {backoff : Backoff} {session : Session} {delay : Nat} (hdelay : 0 < delay)
    (hloop : client.loop = some ⟨backoff, .polling session (now + delay)⟩) :
    client.work now net = 3 + net.faults session.link + 20 * net.pending session.link := by
  rw [work_polling hloop, if_neg (not_over now hdelay), Nat.add_zero]

theorem work_resting {backoff : Backoff} {seconds : Nat}
    (hloop : client.loop = some ⟨backoff, .resting seconds (now + tickMs)⟩) :
    client.work now net = 0 := by
  simp only [work, hloop, if_neg (not_over now (show 0 < tickMs by decide))]

/-- A client that begins to sleep, or ends, has nothing left to do. -/
theorem work_retreat (client : CnodeClient) (now : Instant) (net : Net) (loop : ClientLoop) :
    (client.retreat now loop).work now net = 0 := by
  rcases retreat_cases client now loop with ⟨_, heq⟩ | ⟨_, heq⟩ <;> rw [heq]
  · exact work_resting rfl
  · rfl

theorem work_finishLoop (client : CnodeClient) (now : Instant) (net : Net) :
    client.finishLoop.work now net = 0 :=
  rfl

/-- A session is work, whatever it is about. -/
theorem work_pos_of_session {session : Session} (h : client.session? = some session) :
    0 < client.work now net := by
  cases hloop : client.loop with
  | none => cases (session?_of_none hloop).symm.trans h
  | some loop =>
      obtain ⟨backoff, phase⟩ := loop
      rw [session?_of_loop hloop] at h
      cases phase <;> simp only [ClientPhase.session?, reduceCtorEq] at h <;>
        simp only [work, hloop] <;> omega

end CnodeClient

/-- Writing takes nothing from what has arrived. -/
theorem Link.unread_wrote {link later : Link} {bytes : Bytes} {count : Nat}
    (h : link.write .dialler bytes = (.wrote count, later)) :
    later.unread .dialler = link.unread .dialler := by
  obtain ⟨_, htaken, hacceptor, _⟩ := Link.write_wrote h
  show later.acceptor.written.drop later.dialler.taken = _
  rw [htaken, hacceptor]
  rfl

/-- A reader that is midway takes something of what completes its frame. -/
theorem Frame.Midway.takes {framing : Framing} {limit : Nat} {read bytes rest : Bytes}
    {payloads : List Bytes} {reader : Frame.Reader} {result : Except WireError Bytes}
    (h : Frame.Midway framing limit read payloads reader)
    (hfeed : reader.feed bytes = .done result rest) : rest.length < bytes.length := by
  obtain ⟨begun, _, hbegun⟩ := h
  obtain ⟨front, rfl, hfront⟩ := Frame.Reader.feed_taken hfeed
  rw [List.length_append]
  refine Nat.lt_add_of_pos_left (List.length_pos_iff.mpr ?_)
  rintro rfl
  have hwhole := Frame.Reader.feed_append (.start framing limit) begun []
  rw [List.append_nil, hbegun] at hwhole
  simp only [Frame.Progress.extend, hfront] at hwhole
  cases hwhole

namespace Scene

variable {scene : Scene}

/-- A failure is reported once, and nothing is taken by it. -/
theorem Sound.reported (h : scene.Sound) {session : Session}
    (hsession : scene.client.session? = some session) {cause : IoCause}
    (hfailed : (scene.net.link session.link).arrival .dialler = .failed cause) :
    let later := scene.net.changeLink session.link (·.report .dialler)
    scene.net.faults session.link = 1 ∧ later.faults session.link = 0 ∧
      later.pending session.link = scene.net.pending session.link := by
  have hfault : (scene.net.link session.link).dialler.fault = some cause :=
    (Link.arrival_failed hfailed).2
  refine ⟨?_, ?_, ?_⟩
  · rw [Net.faults, hfault]
    rfl
  · rw [Net.faults, h.link_changeLink hsession]
    rfl
  · rw [Net.pending, h.link_changeLink hsession]
    rfl

/-- Every turn leaves less to do. -/
theorem work_of_turn (hsound : scene.Sound) (hscene : scene.Faithful)
    (hpoll : 0 < scene.client.config.pollIntervalMs.toNat) {net : Net} {client : CnodeClient}
    (hturn : scene.client.Turn scene.now scene.net net client) :
    client.work scene.now net < scene.client.work scene.now scene.net := by
  have hpending : ∀ {session : Session}, scene.client.session? = some session → ∀ change,
      (scene.net.changeLink session.link change).pending session.link =
        ((change (scene.net.link session.link)).unread .dialler).length := by
    intro session hsession change
    rw [Net.pending, hsound.link_changeLink hsession]
  have hover : ∀ {session : Session}, scene.client.session? = some session →
      0 < scene.client.work scene.now scene.net := CnodeClient.work_pos_of_session
  cases hturn with
  | quit hloop hbegins =>
      rw [CnodeClient.work_of_begins hloop hbegins, CnodeClient.work_finishLoop]
      decide
  | @dial _ _ host port hloop hbegins =>
      rw [CnodeClient.work_of_begins hloop hbegins]
      simp only [CnodeClient.work]
      split
      · rename_i link hconnected
        obtain ⟨_, _, hnew⟩ := (scene.net.dialled_seek host port).connected hconnected
        have hnone : (scene.net.seek host port).2.pending link = 0 := by
          rw [Net.pending, hnew]
          rfl
        rw [hnone]
        decide
      · decide
  | doze hloop hwake =>
      rw [CnodeClient.work_resting rfl]
      simp only [CnodeClient.work, hloop, if_pos hwake]
      decide
  | refused hloop =>
      rw [CnodeClient.work_retreat]
      exact CnodeClient.work_dialling_pos hloop
  | expired hloop =>
      rw [CnodeClient.work_retreat]
      exact CnodeClient.work_dialling_pos hloop
  | connected hloop hattempt =>
      rw [CnodeClient.work_outgoing rfl]
      simp only [CnodeClient.work, hloop, hattempt, Outgoing.length_frame, CnodeClient.session,
        Session.holding]
      omega
  | wrote hloop hwrite hcount hpart =>
      rw [CnodeClient.work_outgoing rfl, CnodeClient.work_outgoing hloop,
        hpending (CnodeClient.session?_of_outgoing hloop), Link.unread_wrote hwrite,
        List.length_drop, Net.pending]
      omega
  | @sent _ _ session _ _ _ link hloop hwrite =>
      have hfault :=
        Net.faults_le_one (scene.net.changeLink session.link fun _ => link) session.link
      rw [CnodeClient.work_waiting hpoll rfl, CnodeClient.work_outgoing hloop]
      show _ + Net.faults _ session.link + 20 * Net.pending _ session.link < _
      rw [hpending (CnodeClient.session?_of_outgoing hloop), Link.unread_wrote hwrite, Net.pending]
      omega
  | parted hloop =>
      exact hover (CnodeClient.session?_of_outgoing hloop)
  | unsent hloop =>
      rw [CnodeClient.work_retreat]
      exact hover (CnodeClient.session?_of_outgoing hloop)
  | late hloop =>
      rw [CnodeClient.work_retreat]
      exact hover (CnodeClient.session?_of_outgoing hloop)
  | readable hloop =>
      rw [CnodeClient.work_receiving rfl, CnodeClient.work_polling hloop]
      omega
  | idle hloop _ hdeadline =>
      rw [CnodeClient.work_waiting hpoll rfl, CnodeClient.work_polling hloop, if_pos hdeadline]
      omega
  | interrupted hloop harrival =>
      obtain ⟨hbefore, hafter, hsame⟩ :=
        hsound.reported (CnodeClient.session?_of_loop hloop) harrival
      rw [CnodeClient.work_waiting hpoll rfl, CnodeClient.work_polling hloop, hbefore, hafter,
        hsame]
      omega
  | dismissed hloop =>
      exact hover (CnodeClient.session?_of_loop hloop)
  | ended hloop hphase =>
      rw [CnodeClient.work_retreat]
      exact hover (CnodeClient.session?_of_hearing hloop hphase)
  | failed hloop hphase =>
      rw [CnodeClient.work_retreat]
      exact hover (CnodeClient.session?_of_hearing hloop hphase)
  | more hloop harrival =>
      have hunread := Link.unread_of_arrival harrival
      have hpos := List.length_pos_iff.mpr (Link.arrival_bytes harrival)
      rw [CnodeClient.work_receiving rfl, CnodeClient.work_receiving hloop,
        hpending (CnodeClient.session?_of_loop hloop), Link.unread_take, hunread,
        List.length_drop, Net.pending, hunread]
      omega
  | @request _ session _ _ _ _ hloop harrival hfeed =>
      have hunread := Link.unread_of_arrival harrival
      obtain ⟨_, hmidway, _⟩ := hscene.recorded hloop rfl
      have htaken := hmidway.takes hfeed
      rw [CnodeClient.work_outgoing rfl, CnodeClient.work_receiving hloop]
      show _ + 20 * Net.pending _ session.link < _
      rw [hpending (CnodeClient.session?_of_loop hloop), Link.unread_take, hunread,
        List.length_drop, Net.pending, hunread, Outgoing.length_frame]
      omega
  | rejected hloop =>
      rw [CnodeClient.work_retreat]
      exact hover (CnodeClient.session?_of_loop hloop)

/-- Left alone, the client comes to wait. -/
theorem settles_of_reachable (h : scene.Reachable)
    (hpoll : 0 < scene.client.config.pollIntervalMs.toNat) : ∃ last, scene.Settles last := by
  induction hwork : scene.client.work scene.now scene.net using Nat.strongRecOn
    generalizing scene with
  | ind work ih =>
      cases hstep : scene.client.step scene.now scene.net with
      | none => exact ⟨scene, .waits hstep⟩
      | some result =>
          obtain ⟨net, client⟩ := result
          have hturn := CnodeClient.turn_of_step h.sound.fits hstep
          have hless := work_of_turn h.sound h.faithful hpoll hturn
          have hnext : (scene.after net client).Reachable := .move h (.step hstep) trivial
          have hconfig : (scene.after net client).client.config = scene.client.config :=
            hturn.keeps.1
          obtain ⟨last, hlast⟩ := ih _ (hwork ▸ hless) hnext (hconfig ▸ hpoll) rfl
          exact ⟨last, .step hstep hlast⟩

end Scene

end NodeHealth
