import NodeHealth.Proofs.Mock.Meeting

/-!
# The stages of a session

On a connection that only the client and the mock server have a hand in, each of the two is
always at one of a few points, and the point says what it has written and taken. From every
point the next step is determined: `CnodeClient.At.goes` and the lemmas on the steps of
`MockSession.At` spell it out for any pair of points that can occur together.

## Implementation notes

The two ends are given as records, not by properties of them, so that a step can be computed
on them. A point counts the requests that were answered when it began; how many were asked is
the server's to know.

-/

namespace NodeHealth

open Link (transcript transcript_succ length_transcript)

/-! ## Connections that nothing disturbs -/

namespace Link

variable {said heard : Bytes} {taken told : Nat}

/-- At an open end, all bytes are written at once. -/
theorem write_open {link : Link} (side : Side)
    (hhere : link.endAt side = { written := said, taken })
    (hthere : link.endAt side.other = { written := heard, taken := told }) (bytes : Bytes) :
    link.write side bytes =
      (.wrote bytes.length, link.setEnd side { written := said ++ bytes, taken }) := by
  simp [Link.write, writable, hhere, hthere]

/-- All that was written has been taken. -/
theorem arrival_open_nothing {link : Link} (side : Side) (told : Nat)
    (hhere : link.endAt side = { written := said, taken })
    (hthere : link.endAt side.other = { written := heard, taken := told })
    (h : heard.length ≤ taken) : link.arrival side = .nothing := by
  have hunread : link.unread side = [] := by
    simp only [unread, hhere, hthere]
    exact List.drop_eq_nil_of_le h
  simp [arrival, hunread, hhere, hthere]

/-- Behind what has been taken there is more. -/
theorem arrival_open_bytes {link : Link} (side : Side) (told : Nat) {bytes : Bytes}
    (hhere : link.endAt side = { written := said, taken })
    (hthere : link.endAt side.other = { written := heard ++ bytes, taken := told })
    (h : heard.length = taken) (hbytes : bytes ≠ []) : link.arrival side = .bytes bytes := by
  have hunread : link.unread side = bytes := by
    simp only [unread, hhere, hthere]
    rw [← h, List.drop_left]
  obtain ⟨byte, rest, rfl⟩ := List.exists_cons_of_ne_nil hbytes
  simp [arrival, hunread]

end Link

/-! ## The client -/

namespace CnodeClient

/-- Where the client stands on a connection. The number counts the requests that it has
answered. -/
inductive Point
  | calling
  | announcing
  | waiting (answered : Nat) (deadline : Instant)
  | reading (answered : Nat)
  | replying (answered : Nat)

/-- What the client has written and taken at a point; a request is six bytes. -/
def Point.record : Point → End
  | calling => {}
  | announcing => {}
  | waiting answered _ => { written := transcript answered, taken := 6 * answered }
  | reading answered => { written := transcript answered, taken := 6 * answered }
  | replying answered => { written := transcript answered, taken := 6 * (answered + 1) }

/-- The session is one that the client has opened on a connection, and it has received so many
requests there. -/
structure Counts (client : CnodeClient) (link : LinkId) (session : Session) (count : Nat) :
    Prop where
  opened : (client.session link).Continues session
  received : session.stats.framesReceived = UInt64.ofNat count

/-- The client is at a point of a connection. -/
inductive At (now : Instant) (net : Net) (client : CnodeClient) (link : LinkId) : Point → Prop
  | calling {backoff : Backoff} {dial : Dial}
      (hloop : client.loop = some ⟨backoff, .dialling dial⟩)
      (hattempt : net.attempt dial.attempt = .connected link) : At now net client link .calling
  | announcing {backoff : Backoff} {session : Session} {deadline : Option Instant}
      (hloop : client.loop = some ⟨backoff, Outgoing.identity.phase session
        ⟨6, Outgoing.identity.frame⟩ deadline⟩)
      (hsession : client.Counts link session 0) : At now net client link .announcing
  | waiting {backoff : Backoff} {session : Session} {count : Nat} {deadline : Instant}
      (hloop : client.loop = some ⟨backoff, .polling session deadline⟩)
      (hsession : client.Counts link session count)
      (hdeadline : deadline ≤ now + client.config.pollIntervalMs.toNat) :
      At now net client link (.waiting count deadline)
  | reading {backoff : Backoff} {session : Session} {count : Nat}
      (hloop : client.loop = some ⟨backoff, .receiving session (.start .fixed32 maxRequestLength)⟩)
      (hsession : client.Counts link session count) : At now net client link (.reading count)
  | replying {backoff : Backoff} {session : Session} {count : Nat} {deadline : Option Instant}
      (hloop : client.loop = some ⟨backoff, Outgoing.reply.phase session
        ⟨6, Outgoing.reply.frame⟩ deadline⟩)
      (hsession : client.Counts link session (count + 1)) : At now net client link (.replying count)

/-- Where the client comes to from a point, with so many requests asked. -/
inductive Point.Next (now : Instant) (patience asked : Nat) : Point → Point → Prop
  | connected : Next now patience asked .calling .announcing
  | announced : Next now patience asked .announcing (.waiting 0 (now + patience))
  | noticed {answered : Nat} {deadline : Instant} (hasked : asked = answered + 1) :
      Next now patience asked (.waiting answered deadline) (.reading answered)
  | idle {answered : Nat} {deadline : Instant} (hasked : asked = answered)
      (hdeadline : deadline ≤ now) :
      Next now patience asked (.waiting answered deadline) (.waiting answered (now + patience))
  | read {answered : Nat} : Next now patience asked (.reading answered) (.replying answered)
  | replied {answered : Nat} :
      Next now patience asked (.replying answered) (.waiting (answered + 1) (now + patience))

end CnodeClient

/-! ## The server -/

namespace MockSession

/-- The frame of a request: its length, field 1, and the length of an empty name. -/
def question : Bytes := [2, 0, 0, 0, 0x0A, 0]

/-- So many requests. -/
def questions (count : Nat) : Bytes :=
  (List.replicate count question).flatten

theorem questions_succ (count : Nat) : questions (count + 1) = questions count ++ question := by
  simp [questions, List.replicate_succ', List.flatten_append]

theorem length_questions (count : Nat) : (questions count).length = 6 * count := by
  induction count with
  | zero => rfl
  | succ count ih =>
      rw [questions_succ, List.length_append, ih]
      rfl

/-- Where the server stands in a session. The number counts the requests that were answered. -/
inductive Point
  | identifying
  | requesting (answered : Nat)
  | awaiting (answered : Nat)
  | pausing (answered : Nat)

/-- How many requests the server has written at a point. -/
def Point.asked : Point → Nat
  | identifying => 0
  | requesting answered => answered
  | awaiting answered => answered + 1
  | pausing answered => answered

/-- What the server has written and taken at a point; the announcement and a reply are six
bytes each. -/
def Point.record : Point → End
  | identifying => {}
  | requesting answered => { written := questions answered, taken := 6 + 6 * answered }
  | awaiting answered => { written := questions (answered + 1), taken := 6 + 6 * answered }
  | pausing answered => { written := questions answered, taken := 6 + 6 * answered }

/-- Nothing is wrong with the server's end at any point. -/
theorem Point.record_eq (point : Point) :
    ∃ taken, point.record = { written := questions point.asked, taken } := by
  cases point <;> exact ⟨_, rfl⟩

/-- The session that the server opens on a connection. -/
def session (mock : MockSession) (link : LinkId) : Session :=
  { link, side := .acceptor, framing := .fixed32, limit := CnodeClient.maxRequestLength
    sendTimeoutMs := some mock.options.timeoutMs }

/-- The session is one that the server has opened on a connection. -/
def Has (mock : MockSession) (link : LinkId) (session : Session) : Prop :=
  (mock.session link).Continues session

/-- The reader at the start of what the client says. -/
def reader : Frame.Reader :=
  .start .fixed32 CnodeClient.maxRequestLength

/-- The server is at a point of a session that began at an instant: between two requests the
interval passes, and nothing else takes any time. -/
inductive At (begun now : Instant) (mock : MockSession) (link : LinkId) : Point → Prop
  | identifying {session : Session}
      (hphase : mock.phase = .identifying session reader (begun + mock.options.timeoutMs))
      (hsession : mock.Has link session) (hnow : now = begun) :
      At begun now mock link .identifying
  | requesting {session : Session} {deadline : Option Instant} {answered : Nat}
      (hphase : mock.phase = .requesting session ⟨6, question⟩ deadline answered)
      (hsession : mock.Has link session) (hmore : answered < mock.options.count)
      (hnow : now = begun + answered * mock.options.intervalMs) :
      At begun now mock link (.requesting answered)
  | awaiting {session : Session} {answered : Nat}
      (hphase : mock.phase =
        .awaiting session reader (now + mock.options.timeoutMs) answered)
      (hsession : mock.Has link session) (hmore : answered < mock.options.count)
      (hnow : now = begun + answered * mock.options.intervalMs) :
      At begun now mock link (.awaiting answered)
  | pausing {session : Session} {answered : Nat}
      (hphase : mock.phase =
        .pausing session answered (begun + answered * mock.options.intervalMs))
      (hsession : mock.Has link session) (hmore : answered < mock.options.count)
      (hnow : now ≤ begun + answered * mock.options.intervalMs) :
      At begun now mock link (.pausing answered)

end MockSession

/-- The points at which the two can be at the same time. -/
inductive Agree : CnodeClient.Point → MockSession.Point → Prop
  | calling : Agree .calling .identifying
  | announcing : Agree .announcing .identifying
  | announced (deadline : Instant) : Agree (.waiting 0 deadline) .identifying
  | requesting (answered : Nat) (deadline : Instant) :
      Agree (.waiting answered deadline) (.requesting answered)
  | asked (answered : Nat) (deadline : Instant) :
      Agree (.waiting answered deadline) (.awaiting answered)
  | reading (answered : Nat) : Agree (.reading answered) (.awaiting answered)
  | replying (answered : Nat) : Agree (.replying answered) (.awaiting answered)
  | replied (answered : Nat) (deadline : Instant) :
      Agree (.waiting (answered + 1) deadline) (.awaiting answered)
  | pausing (answered : Nat) (deadline : Instant) :
      Agree (.waiting answered deadline) (.pausing answered)

theorem Agree.asked_cases {answered : Nat} {deadline : Instant} {server : MockSession.Point}
    (h : Agree (.waiting answered deadline) server) :
    server.asked = answered ∨ server.asked = answered + 1 := by
  cases h with
  | announced => exact .inl rfl
  | requesting => exact .inl rfl
  | asked => exact .inr rfl
  | replied => exact .inl rfl
  | pausing => exact .inl rfl

/-- The step of the client does not part the two. -/
theorem Agree.next {point later : CnodeClient.Point} {server : MockSession.Point} {now : Instant}
    {patience : Nat} (h : Agree point server)
    (hnext : point.Next now patience server.asked later) : Agree later server := by
  cases h with
  | calling =>
      cases hnext
      exact .announcing
  | announcing =>
      cases hnext
      exact .announced _
  | announced =>
      cases hnext with
      | noticed hasked => cases hasked
      | idle => exact .announced _
  | requesting answered =>
      cases hnext with
      | noticed hasked => exact absurd hasked (Nat.ne_of_lt (Nat.lt_succ_self _))
      | idle => exact .requesting answered _
  | asked answered =>
      cases hnext with
      | noticed => exact .reading answered
      | idle hasked => exact absurd hasked.symm (Nat.ne_of_lt (Nat.lt_succ_self _))
  | reading answered =>
      cases hnext
      exact .replying answered
  | replying answered =>
      cases hnext
      exact .replied answered _
  | replied answered =>
      cases hnext with
      | noticed hasked => exact absurd hasked (Nat.ne_of_lt (Nat.lt_succ_self _))
      | idle => exact .replied answered _
  | pausing answered =>
      cases hnext with
      | noticed hasked => exact absurd hasked (Nat.ne_of_lt (Nat.lt_succ_self _))
      | idle => exact .pausing answered _

/-! ## The steps of the client -/

namespace CnodeClient

variable {now : Instant} {net later : Net} {client next : CnodeClient} {link : LinkId}
  {session : Session} {there : End}

theorem Counts.side {count : Nat} (h : client.Counts link session count) :
    session.side = .dialler :=
  h.opened.side

theorem Counts.link_eq {count : Nat} (h : client.Counts link session count) :
    session.link = link :=
  h.opened.link

theorem step_calling {backoff : Backoff} {dial : Dial}
    (hloop : client.loop = some ⟨backoff, .dialling dial⟩)
    (hattempt : net.attempt dial.attempt = .connected link) :
    client.step now net = some (net, { client with
      state := .identifying
      loop := some ⟨backoff,
        Outgoing.identity.phase ((client.session link).holding Outgoing.identity.frame)
          ⟨6, Outgoing.identity.frame⟩ (some (now + client.config.connectTimeoutMs.toNat))⟩ }) := by
  simp only [step, hloop, Dial.outcome?, hattempt, identify_eq]

/-- A message is written at once, and then the client waits. -/
theorem step_sending {backoff : Backoff} {message : Outgoing} {deadline : Option Instant}
    {said heard : Bytes} {taken told : Nat}
    (hloop : client.loop = some ⟨backoff, message.phase session ⟨6, message.frame⟩ deadline⟩)
    (hside : session.side = .dialler) (hrunning : client.running = true)
    (hlink : net.link session.link =
      ⟨{ written := said, taken }, { written := heard, taken := told }⟩) :
    client.step now net = some
      (net.changeLink session.link fun _ =>
        ⟨{ written := said ++ message.frame, taken }, { written := heard, taken := told }⟩,
      { client with
        state := message.shown client.state
        loop := some ⟨backoff, .polling (session.countSent 6)
          (now + client.config.pollIntervalMs.toNat)⟩ }) := by
  have hhere : (net.link session.link).endAt .dialler = { written := said, taken } := by
    rw [hlink]
    rfl
  have hwrite := Link.write_open .dialler hhere (by rw [hlink]; rfl) message.frame
  have hshown : { client with state := message.shown client.state }.running = true := hrunning
  rw [step_outgoing hloop]
  simp only [Session.deliver, hside, hwrite, Nat.le_refl, if_true, poll_of_running hshown]
  rw [hlink]
  rfl

theorem step_waiting {backoff : Backoff} {deadline : Instant}
    (hloop : client.loop = some ⟨backoff, .polling session deadline⟩)
    (hside : session.side = .dialler) (hrunning : client.running = true)
    (harrival : (net.link session.link).arrival .dialler = .nothing) :
    client.step now net =
      if deadline ≤ now then
        some (net, { client with
          loop := some ⟨backoff, .polling session (now + client.config.pollIntervalMs.toNat)⟩ })
      else none := by
  simp only [step, hloop, Session.readiness?, hside, harrival, poll_of_running hrunning]

theorem step_noticing {backoff : Backoff} {deadline : Instant} {unread : Bytes}
    (hloop : client.loop = some ⟨backoff, .polling session deadline⟩)
    (hside : session.side = .dialler)
    (harrival : (net.link session.link).arrival .dialler = .bytes unread) :
    client.step now net =
      some (net, { client with loop := some ⟨backoff, .receiving session session.reader⟩ }) := by
  simp only [step, hloop, Session.readiness?, hside, harrival]
  rfl

theorem step_reading {backoff : Backoff} {reader : Frame.Reader} {unread payload : Bytes}
    (hloop : client.loop = some ⟨backoff, .receiving session reader⟩)
    (hsession : (client.session session.link).Continues session)
    (harrival : (net.link session.link).arrival .dialler = .bytes unread)
    (hfeed : reader.feed unread = .done (.ok payload) []) :
    client.step now net = some (net.changeLink session.link (·.take .dialler unread.length),
      { client with
        loop := some ⟨backoff,
          Outgoing.reply.phase ((session.countReceived payload).holding Outgoing.reply.frame)
            ⟨6, Outgoing.reply.frame⟩ (some (now + client.config.connectTimeoutMs.toNat))⟩ }) := by
  have hside : session.side = .dialler := hsession.side
  have hcounted : (client.session (session.countReceived payload).link).Continues
      (session.countReceived payload) :=
    hsession.trans (session.continues_countReceived payload)
  simp only [step, hloop, Session.receive, hside, harrival, hfeed, Session.received,
    reply_eq hcounted]
  rfl

/-- A client goes on from a point to the next, and leaves the other end of the connection as it
is. -/
structure Goes (now : Instant) (client : CnodeClient) (link : LinkId) (there : End)
    (asked : Nat) (point : Point) (later : Net) (next : CnodeClient) (after : Point) : Prop where
  follows : point.Next now client.config.pollIntervalMs.toNat asked after
  stands : next.At now later link after
  record : later.link link = ⟨after.record, there⟩

theorem Counts.sent {count : Nat} (h : client.Counts link session count) (length : Nat) :
    client.Counts link (session.countSent length) count where
  opened := h.opened.trans (session.continues_countSent length)
  received := h.received

theorem Counts.heard {count : Nat} (h : client.Counts link session count) (payload : Bytes) :
    client.Counts link (session.countReceived payload) (count + 1) where
  opened := h.opened.trans (session.continues_countReceived payload)
  received := by
    change session.stats.framesReceived + 1 = _
    rw [h.received, UInt64.ofNat_add]
    rfl

theorem Counts.holding {count : Nat} (h : client.Counts link session count) (frame : Bytes) :
    client.Counts link (session.holding frame) count where
  opened := h.opened.trans (session.continues_holding frame)
  received := h.received

/-- With its message the client has answered all that it was asked. -/
theorem goes_sending {backoff : Backoff} {message : Outgoing} {deadline : Option Instant}
    {count : Nat} {said : Bytes} {point : Point} {server : MockSession.Point}
    (hloop : client.loop = some ⟨backoff, message.phase session ⟨6, message.frame⟩ deadline⟩)
    (hsession : client.Counts link session count) (hrunning : client.running = true)
    (hlink : net.link link = ⟨{ written := said, taken := 6 * count }, server.record⟩)
    (hknown : link < net.links.length) (hsaid : said ++ message.frame = transcript count)
    (hfollows : point.Next now client.config.pollIntervalMs.toNat server.asked
      (.waiting count (now + client.config.pollIntervalMs.toNat))) :
    ∃ later next after, client.step now net = some (later, next) ∧
      client.Goes now link server.record server.asked point later next after := by
  obtain ⟨told, hserver⟩ := server.record_eq
  rw [hserver] at hlink ⊢
  have hsent := hsession.sent 6
  have hstep : client.step now net = _ := step_sending hloop hsession.side hrunning
    (by rw [hsession.link_eq]; exact hlink)
  rw [hsession.link_eq, hsaid] at hstep
  refine ⟨_, _, _, hstep, hfollows, ?_, Net.link_changeLink _ _ _ hknown⟩
  exact .waiting rfl ⟨hsent.opened, hsent.received⟩ (Nat.le_refl _)

/-- As long as it is asked nothing, the client waits, and it looks at its flag in between. -/
theorem goes_waiting {backoff : Backoff} {count : Nat} {deadline : Instant}
    {server : MockSession.Point}
    (hloop : client.loop = some ⟨backoff, .polling session deadline⟩)
    (hsession : client.Counts link session count) (hrunning : client.running = true)
    (hlink : net.link link = ⟨(Point.waiting count deadline).record, server.record⟩)
    (hasked : server.asked = count) :
    (client.step now net = none ∧
        ∃ limit, Point.waiting count deadline = .waiting server.asked limit ∧ now < limit) ∨
      ∃ later next after, client.step now net = some (later, next) ∧
        client.Goes now link server.record server.asked (.waiting count deadline)
          later next after := by
  obtain ⟨told, hserver⟩ := server.record_eq
  have harrival : (net.link session.link).arrival .dialler = .nothing := by
    refine Link.arrival_open_nothing .dialler told (by rw [hsession.link_eq, hlink]; rfl)
      (by rw [hsession.link_eq, hlink]; exact hserver) ?_
    exact Nat.le_of_eq (by rw [MockSession.length_questions, hasked])
  have hstep : client.step now net = _ := step_waiting hloop hsession.side hrunning harrival
  by_cases hdeadline : deadline ≤ now
  · rw [if_pos hdeadline] at hstep
    refine .inr ⟨_, _, _, hstep, .idle hasked hdeadline, ?_, hlink⟩
    exact .waiting rfl ⟨hsession.opened, hsession.received⟩ (Nat.le_refl _)
  · rw [if_neg hdeadline] at hstep
    exact .inl ⟨hstep, deadline, by rw [hasked], Nat.lt_of_not_le hdeadline⟩

/-- The next request is there to be read. -/
theorem arrival_question {count : Nat} {said : Bytes} {server : MockSession.Point}
    (hlink : net.link link = ⟨{ written := said, taken := 6 * count }, server.record⟩)
    (hasked : server.asked = count + 1) :
    (net.link link).arrival .dialler = .bytes MockSession.question := by
  obtain ⟨told, hserver⟩ := server.record_eq
  refine Link.arrival_open_bytes .dialler told (by rw [hlink]; rfl) ?_
    (MockSession.length_questions count) (by decide)
  rw [hlink, ← MockSession.questions_succ, ← hasked]
  exact hserver

theorem goes_noticing {backoff : Backoff} {count : Nat} {deadline : Instant}
    {server : MockSession.Point}
    (hloop : client.loop = some ⟨backoff, .polling session deadline⟩)
    (hsession : client.Counts link session count)
    (hlink : net.link link = ⟨(Point.waiting count deadline).record, server.record⟩)
    (hasked : server.asked = count + 1) :
    ∃ later next after, client.step now net = some (later, next) ∧
      client.Goes now link server.record server.asked (.waiting count deadline)
        later next after := by
  have harrival := arrival_question hlink hasked
  rw [← hsession.link_eq] at harrival
  have hreader : session.reader = .start .fixed32 maxRequestLength := by
    rw [Session.reader, hsession.opened.framing, hsession.opened.limit]
    rfl
  have hstep : client.step now net = _ := step_noticing hloop hsession.side harrival
  rw [hreader] at hstep
  exact ⟨_, _, _, hstep, .noticed hasked, .reading rfl ⟨hsession.opened, hsession.received⟩,
    hlink⟩

theorem goes_reading {backoff : Backoff} {count : Nat}
    (hloop : client.loop = some ⟨backoff, .receiving session (.start .fixed32 maxRequestLength)⟩)
    (hsession : client.Counts link session count)
    (hlink : net.link link =
      ⟨(Point.reading count).record, (MockSession.Point.awaiting count).record⟩)
    (hknown : link < net.links.length) :
    ∃ later next after, client.step now net = some (later, next) ∧
      client.Goes now link (MockSession.Point.awaiting count).record (count + 1)
        (.reading count) later next after := by
  have harrival := arrival_question hlink rfl
  have hopened : (client.session session.link).Continues session := by
    rw [hsession.link_eq]
    exact hsession.opened
  have hheard := (hsession.heard [0x0A, 0]).holding Outgoing.reply.frame
  have hfeed : (Frame.Reader.start .fixed32 maxRequestLength).feed MockSession.question =
      .done (.ok [0x0A, 0]) [] := rfl
  have hstep : client.step now net = _ := step_reading hloop hopened
    (by rw [hsession.link_eq]; exact harrival) hfeed
  rw [hsession.link_eq] at hstep
  refine ⟨_, _, _, hstep, .read, .replying rfl ⟨hheard.opened, hheard.received⟩, ?_⟩
  rw [Net.link_changeLink _ _ _ hknown, hlink]
  rfl

/-- From every point the client goes on to the next, unless it waits for a request. -/
theorem At.goes {point : Point} {server : MockSession.Point} (h : client.At now net link point)
    (hrunning : client.running = true) (hagree : Agree point server)
    (hlink : net.link link = ⟨point.record, server.record⟩) (hknown : link < net.links.length) :
    (client.step now net = none ∧
        ∃ deadline, point = .waiting server.asked deadline ∧ now < deadline) ∨
      ∃ later next after, client.step now net = some (later, next) ∧
        client.Goes now link server.record server.asked point later next after := by
  cases h with
  | calling hloop hattempt =>
      exact .inr ⟨_, _, _, step_calling hloop hattempt, .connected,
        .announcing rfl ⟨Session.continues_holding _ _, rfl⟩, hlink⟩
  | announcing hloop hsession =>
      exact .inr (goes_sending hloop hsession hrunning hlink hknown rfl .announced)
  | replying hloop hsession =>
      exact .inr (goes_sending hloop hsession hrunning hlink hknown (transcript_succ _).symm
        .replied)
  | waiting hloop hsession hdeadline =>
      rcases hagree.asked_cases with hasked | hasked
      · exact goes_waiting hloop hsession hrunning hlink hasked
      · exact .inr (goes_noticing hloop hsession hlink hasked)
  | reading hloop hsession =>
      cases hagree
      exact .inr (goes_reading hloop hsession hlink hknown)

end CnodeClient

/-! ## The steps of the server -/

namespace MockSession

variable {begun now : Instant} {net later : Net} {mock next : MockSession} {link : LinkId}
  {session : Session}

theorem Has.side (h : mock.Has link session) : session.side = .acceptor :=
  Session.Continues.side h

theorem Has.link_eq (h : mock.Has link session) : session.link = link :=
  Session.Continues.link h

theorem Has.framing (h : mock.Has link session) : session.framing = .fixed32 :=
  Session.Continues.framing h

theorem Has.reader_eq (h : mock.Has link session) : session.reader = reader := by
  rw [Session.reader, h.framing, Session.Continues.limit h]
  rfl

theorem Has.heard (h : mock.Has link session) (payload : Bytes) :
    mock.Has link (session.countReceived payload) :=
  Session.Continues.trans h (session.continues_countReceived payload)

theorem Has.sent (h : mock.Has link session) (length : Nat) :
    mock.Has link (session.countSent length) :=
  Session.Continues.trans h (session.continues_countSent length)

theorem Has.holding (h : mock.Has link session) (frame : Bytes) :
    mock.Has link (session.holding frame) :=
  Session.Continues.trans h (session.continues_holding frame)

theorem request_eq (h : session.framing = .fixed32) (done : Nat) :
    mock.request now net session done =
      (net, mock.enter (.requesting (session.holding question) ⟨6, question⟩
        (session.sendDeadline now) done)) := by
  have hencode : ({} : HealthRequest).encode = .ok [0x0A, 0] := rfl
  have hprepare : session.prepare [0x0A, 0] = (.ok ⟨6, question⟩, session.holding question) := by
    have hframe : Frame.encode session.framing [0x0A, 0] = .ok question := by
      rw [h]
      rfl
    exact Session.prepare_of_encode hframe
  simp only [request, hencode, hprepare]
  rfl

theorem limit_of_pos {options : MockOptions} (h : 0 < options.count) :
    options.limit = options.count := by
  simp [MockOptions.limit, Nat.ne_of_gt h]

/-- Behind the announcement the first request follows at once. -/
theorem proceed_first (h : session.framing = .fixed32) (hcount : 0 < mock.options.count) :
    mock.proceed now net session 0 =
      (net, mock.enter (.requesting (session.holding question) ⟨6, question⟩
        (session.sendDeadline now) 0)) := by
  have hmore : ¬mock.options.limit ≤ 0 := by
    rw [limit_of_pos hcount]
    exact Nat.not_le_of_lt hcount
  simp only [proceed, if_neg hmore, Nat.lt_irrefl, if_false, request_eq h]

/-- Behind the last reply the session ends. -/
theorem proceed_last (hcount : 0 < mock.options.count) :
    mock.proceed now net session mock.options.count =
      mock.finish net session (.ok mock.options.count) := by
  simp only [proceed, limit_of_pos hcount, Nat.le_refl, if_true]

/-- Behind any other reply the server pauses. -/
theorem proceed_pause {done : Nat} (hmore : done + 1 < mock.options.count) :
    mock.proceed now net session (done + 1) =
      (net, mock.enter (.pausing session (done + 1) (now + mock.options.intervalMs))) := by
  have hlimit : ¬mock.options.limit ≤ done + 1 := by
    rw [limit_of_pos (Nat.zero_lt_of_lt hmore)]
    exact Nat.not_le_of_lt hmore
  simp only [proceed, if_neg hlimit, Nat.zero_lt_succ, if_true]

/-- Nothing comes in time, so far. -/
theorem step_of_silence {reader : Frame.Reader} {deadline : Instant}
    (hphase : mock.phase = .identifying session reader deadline ∨
      ∃ done, mock.phase = .awaiting session reader deadline done)
    (hside : session.side = .acceptor)
    (harrival : (net.link session.link).arrival .acceptor = .nothing) (hdeadline : now < deadline) :
    mock.step now net = none := by
  have hearly := Nat.not_le_of_lt hdeadline
  rcases hphase with hphase | ⟨done, hphase⟩ <;>
    simp only [step, hphase, Session.receive, hside, harrival, if_neg hearly]

/-- A frame is taken as a whole. -/
theorem receive_frame {unread payload : Bytes} (hside : session.side = .acceptor)
    (harrival : (net.link session.link).arrival .acceptor = .bytes unread)
    (hfeed : reader.feed unread = .done (.ok payload) []) :
    session.receive net reader =
      .done (net.changeLink session.link (·.take .acceptor unread.length),
        session.countReceived payload, .ok payload) := by
  simp only [Session.receive, hside, harrival, hfeed, Session.received]
  rfl

theorem step_of_identity {deadline : Instant} (h : mock.Has link session)
    (hphase : mock.phase = .identifying session reader deadline)
    (hcount : 0 < mock.options.count)
    (harrival : (net.link link).arrival .acceptor = .bytes Outgoing.identity.frame) :
    mock.step now net = some (net.changeLink link (·.take .acceptor 6),
      mock.enter (.requesting
        ((session.countReceived Outgoing.identity.payload).holding question) ⟨6, question⟩
        ((session.countReceived Outgoing.identity.payload).sendDeadline now) 0)) := by
  have hreceive := receive_frame h.side (by rw [h.link_eq]; exact harrival)
    (show reader.feed Outgoing.identity.frame = .done (.ok Outgoing.identity.payload) [] from rfl)
  have htype : (Identity.decode? Outgoing.identity.payload).map Identity.nodeType =
      some NodeType.amf := rfl
  have hcounted : (session.countReceived Outgoing.identity.payload).framing = .fixed32 := h.framing
  simp only [step, hphase, hreceive, checkIdentity, htype, if_true, proceed_first hcounted hcount,
    h.link_eq]
  rfl

theorem step_of_reply {deadline : Instant} {done : Nat} (h : mock.Has link session)
    (hphase : mock.phase = .awaiting session reader deadline done)
    (harrival : (net.link link).arrival .acceptor = .bytes Outgoing.reply.frame) :
    mock.step now net = some (mock.proceed now (net.changeLink link (·.take .acceptor 6))
      (session.countReceived Outgoing.reply.payload) (done + 1)) := by
  have hreceive := receive_frame h.side (by rw [h.link_eq]; exact harrival)
    (show reader.feed Outgoing.reply.frame = .done (.ok Outgoing.reply.payload) [] from rfl)
  have hstatus : (HealthResponse.statusNumber? Outgoing.reply.payload).bind
      ServingStatus.ofNumber? = some .serving := rfl
  simp only [step, hphase, hreceive, checkReply, hstatus, if_true, h.link_eq]
  rfl

/-- A request is written at once. -/
theorem step_of_request {deadline : Option Instant} {done : Nat} {said heard : Bytes}
    {taken told : Nat} (h : mock.Has link session)
    (hphase : mock.phase = .requesting session ⟨6, question⟩ deadline done)
    (hlink : net.link link = ⟨{ written := said, taken }, { written := heard, taken := told }⟩) :
    mock.step now net = some
      (net.changeLink link fun _ =>
        ⟨{ written := said, taken }, { written := heard ++ question, taken := told }⟩,
      mock.enter (.awaiting (session.countSent 6) reader (now + mock.options.timeoutMs) done)) := by
  have hhere : (net.link link).endAt .acceptor = { written := heard, taken := told } := by
    rw [hlink]
    rfl
  have hwrite := Link.write_open .acceptor hhere (by rw [hlink]; rfl) question
  have hreader : (session.countSent 6).reader = reader := (h.sent 6).reader_eq
  have hlength : question.length ≤ question.length := Nat.le_refl _
  simp only [step, hphase, Session.deliver, h.side, h.link_eq, hwrite, if_pos hlength, hreader]
  rw [hlink]
  rfl

theorem step_of_pause {wake : Instant} {done : Nat} (h : mock.Has link session)
    (hphase : mock.phase = .pausing session done wake) :
    mock.step now net =
      if wake ≤ now then
        some (net, mock.enter (.requesting (session.holding question) ⟨6, question⟩
          (session.sendDeadline now) done))
      else none := by
  simp only [step, hphase, request_eq h.framing]

/-- Where the server comes to from a point. -/
inductive Point.Next : Point → Point → Prop
  | identified : Next .identifying (.requesting 0)
  | requested (answered : Nat) : Next (.requesting answered) (.awaiting answered)
  | replied (answered : Nat) : Next (.awaiting answered) (.pausing (answered + 1))
  | paused (answered : Nat) : Next (.pausing answered) (.requesting answered)

/-- The server goes on from a point to the next, and changes nothing but its end of the
connection. -/
structure Goes (begun now : Instant) (mock : MockSession) (link : LinkId)
    (client : CnodeClient.Point) (point : Point) (later : Net) (next : MockSession)
    (after : Point) : Prop where
  follows : point.Next after
  stands : next.At begun now link after
  agree : Agree client after
  record : later.link link = ⟨client.record, after.record⟩

/-- The session has ended as it should, with the client waiting for another request. -/
structure Ends (begun now : Instant) (mock : MockSession) (client : CnodeClient.Point)
    (point : Point) (next : MockSession) : Prop where
  result : next.phase = .finished (.ok mock.options.count)
  time : now = begun + (mock.options.count - 1) * mock.options.intervalMs
  client : ∃ deadline, client = .waiting mock.options.count deadline
  asked : point.asked = mock.options.count

/-- The client has not said what the server waits for. -/
theorem silent {client : CnodeClient.Point} {point : Point}
    (hlink : net.link link = ⟨client.record, point.record⟩)
    (h : client.record.written.length ≤ point.record.taken) :
    (net.link link).arrival .acceptor = .nothing := by
  obtain ⟨told, hserver⟩ := point.record_eq
  rw [hserver] at hlink h
  have hopen : client.record =
      { written := client.record.written, taken := client.record.taken } := by
    cases client <;> rfl
  refine Link.arrival_open_nothing .acceptor client.record.taken (by rw [hlink]; rfl) ?_ h
  rw [hlink]
  exact hopen

theorem goes_identified {deadline limit : Instant} (hsession : mock.Has link session)
    (hphase : mock.phase = .identifying session reader deadline) (hnow : now = begun)
    (hlink : net.link link =
      ⟨(CnodeClient.Point.waiting 0 limit).record, Point.identifying.record⟩)
    (hknown : link < net.links.length) (hcount : 0 < mock.options.count) :
    ∃ later next after, mock.step now net = some (later, next) ∧
      Goes begun now mock link (.waiting 0 limit) .identifying later next after := by
  have harrival : (net.link link).arrival .acceptor = .bytes Outgoing.identity.frame := by
    rw [hlink]
    rfl
  refine ⟨_, _, _, step_of_identity hsession hphase hcount harrival, .identified, ?_,
    .requesting 0 limit, ?_⟩
  · exact .requesting rfl ((hsession.heard _).holding _) hcount (by rw [Nat.zero_mul]; exact hnow)
  · rw [Net.link_changeLink _ _ _ hknown, hlink]
    rfl

theorem goes_requested {deadline : Option Instant} {limit : Instant} {answered : Nat}
    (hsession : mock.Has link session)
    (hphase : mock.phase = .requesting session ⟨6, question⟩ deadline answered)
    (hmore : answered < mock.options.count)
    (hnow : now = begun + answered * mock.options.intervalMs)
    (hlink : net.link link =
      ⟨(CnodeClient.Point.waiting answered limit).record, (Point.requesting answered).record⟩)
    (hknown : link < net.links.length) :
    ∃ later next after, mock.step now net = some (later, next) ∧
      Goes begun now mock link (.waiting answered limit) (.requesting answered)
        later next after := by
  refine ⟨_, _, _, step_of_request hsession hphase hlink, .requested answered, ?_,
    .asked answered limit, ?_⟩
  · exact .awaiting rfl (hsession.sent 6) hmore hnow
  · rw [Net.link_changeLink _ _ _ hknown, ← questions_succ]
    rfl

/-- A reply is followed by a pause, or by the end of the session. -/
theorem goes_replied {deadline limit : Instant} {answered : Nat}
    (hsession : mock.Has link session)
    (hphase : mock.phase = .awaiting session reader deadline answered)
    (hmore : answered < mock.options.count)
    (hnow : now = begun + answered * mock.options.intervalMs)
    (hlink : net.link link =
      ⟨(CnodeClient.Point.waiting (answered + 1) limit).record, (Point.awaiting answered).record⟩)
    (hknown : link < net.links.length) :
    (∃ later next after, mock.step now net = some (later, next) ∧
        Goes begun now mock link (.waiting (answered + 1) limit) (.awaiting answered)
          later next after) ∨
      ∃ later next, mock.step now net = some (later, next) ∧
        Ends begun now mock (.waiting (answered + 1) limit) (.awaiting answered) next := by
  have harrival : (net.link link).arrival .acceptor = .bytes Outgoing.reply.frame := by
    have hlength : (transcript answered).length = 6 + 6 * answered := length_transcript answered
    refine Link.arrival_open_bytes .acceptor (6 * (answered + 1)) (by rw [hlink]; rfl) ?_ hlength
      (by decide)
    rw [hlink, ← transcript_succ]
    rfl
  have hstep : mock.step now net = _ := step_of_reply hsession hphase harrival
  by_cases hlast : answered + 1 < mock.options.count
  · have hwake : now + mock.options.intervalMs =
        begun + (answered + 1) * mock.options.intervalMs := by
      rw [hnow, Nat.succ_mul, Nat.add_assoc]
    rw [proceed_pause hlast, hwake] at hstep
    refine .inl ⟨_, _, _, hstep, .replied answered, ?_, .pausing (answered + 1) limit, ?_⟩
    · exact .pausing rfl (hsession.heard _) hlast (hwake ▸ Nat.le_add_right _ _)
    · rw [Net.link_changeLink _ _ _ hknown, hlink]
      rfl
  · have hcount : answered + 1 = mock.options.count :=
      Nat.le_antisymm hmore (Nat.le_of_not_lt hlast)
    rw [hcount, proceed_last (Nat.zero_lt_of_lt hmore)] at hstep
    refine .inr ⟨_, _, hstep, rfl, ?_, ⟨limit, by rw [hcount]⟩, hcount⟩
    rw [← hcount]
    exact hnow

theorem goes_paused {limit : Instant} {answered : Nat} (hsession : mock.Has link session)
    (hphase : mock.phase =
      .pausing session answered (begun + answered * mock.options.intervalMs))
    (hmore : answered < mock.options.count)
    (hnow : now ≤ begun + answered * mock.options.intervalMs)
    (hlink : net.link link =
      ⟨(CnodeClient.Point.waiting answered limit).record, (Point.pausing answered).record⟩) :
    (mock.step now net = none ∧ now < begun + answered * mock.options.intervalMs) ∨
      ∃ later next after, mock.step now net = some (later, next) ∧
        Goes begun now mock link (.waiting answered limit) (.pausing answered)
          later next after := by
  have hstep : mock.step now net = _ := step_of_pause hsession hphase
  by_cases hwake : begun + answered * mock.options.intervalMs ≤ now
  · rw [if_pos hwake] at hstep
    refine .inr ⟨_, _, _, hstep, .paused answered, ?_, .requesting answered limit, hlink⟩
    exact .requesting rfl (hsession.holding _) hmore (Nat.le_antisymm hnow hwake)
  · rw [if_neg hwake] at hstep
    exact .inl ⟨hstep, Nat.lt_of_not_le hwake⟩

/-- From every point the server goes on to the next or ends the session, unless it pauses or
waits for what the client is about to say. -/
theorem At.goes {client : CnodeClient.Point} {point : Point} (h : mock.At begun now link point)
    (hagree : Agree client point) (hlink : net.link link = ⟨client.record, point.record⟩)
    (hknown : link < net.links.length) (hcount : 0 < mock.options.count)
    (htimeout : 0 < mock.options.timeoutMs) :
    (mock.step now net = none ∧
        ((∃ answered, point = .pausing answered ∧
            now < begun + answered * mock.options.intervalMs) ∨
          ∀ deadline, client ≠ .waiting point.asked deadline)) ∨
      (∃ later next after, mock.step now net = some (later, next) ∧
        Goes begun now mock link client point later next after) ∨
      ∃ later next, mock.step now net = some (later, next) ∧
        Ends begun now mock client point next := by
  cases h with
  | identifying hphase hsession hnow =>
      have hsilence : client.record.written.length ≤ Point.identifying.record.taken →
          mock.step now net = none := fun hnothing =>
        step_of_silence (.inl hphase) hsession.side
          (by rw [hsession.link_eq]; exact silent hlink hnothing)
          (hnow ▸ Nat.lt_add_of_pos_right htimeout)
      cases hagree with
      | calling => exact .inl ⟨hsilence (Nat.le_refl _), .inr fun _ h => by cases h⟩
      | announcing => exact .inl ⟨hsilence (Nat.le_refl _), .inr fun _ h => by cases h⟩
      | announced =>
          exact .inr (.inl (goes_identified hsession hphase hnow hlink hknown hcount))
  | requesting hphase hsession hmore hnow =>
      cases hagree
      exact .inr (.inl (goes_requested hsession hphase hmore hnow hlink hknown))
  | @awaiting session answered hphase hsession hmore hnow =>
      have hsilence : client.record.written.length ≤ (Point.awaiting answered).record.taken →
          mock.step now net = none := fun hnothing =>
        step_of_silence (.inr ⟨_, hphase⟩) hsession.side
          (by rw [hsession.link_eq]; exact silent hlink hnothing)
          (Nat.lt_add_of_pos_right htimeout)
      have htaken : (transcript answered).length ≤ 6 + 6 * answered :=
        Nat.le_of_eq (length_transcript answered)
      cases hagree with
      | asked =>
          refine .inl ⟨hsilence htaken, .inr fun deadline hsame => ?_⟩
          exact absurd (CnodeClient.Point.waiting.inj hsame).1 (Nat.ne_of_lt (Nat.lt_succ_self _))
      | reading => exact .inl ⟨hsilence htaken, .inr fun _ h => by cases h⟩
      | replying => exact .inl ⟨hsilence htaken, .inr fun _ h => by cases h⟩
      | replied => exact .inr (goes_replied hsession hphase hmore hnow hlink hknown)
  | pausing hphase hsession hmore hnow =>
      cases hagree
      rcases goes_paused hsession hphase hmore hnow hlink with ⟨hnone, hwake⟩ | hgoes
      · exact .inl ⟨hnone, .inl ⟨_, rfl, hwake⟩⟩
      · exact .inr (.inl hgoes)

end MockSession

end NodeHealth
