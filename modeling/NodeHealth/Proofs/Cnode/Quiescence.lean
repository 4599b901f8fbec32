import NodeHealth.Proofs.Cnode.Lifecycle

/-!
# The cnode client after its flag is cleared

A client whose flag is cleared begins nothing. What it may still do is fixed at that moment by
where it stands: `ClientPhase.outlook` says whether it may read one more request and which
bytes it may write, on the one connection that it is in or is about to get. `Link.Winds`
compares a connection at two moments with what was outstanding at each of them; it holds of
every move, and composes over a run.

## Implementation notes

The bytes that are outstanding are those that the client would write if nothing failed, so
that the reply to a request counts from the moment at which the client waits for one. A
request that is read moves the client from hearing to not hearing, and leaves what is due as
it is.

-/

namespace NodeHealth

/-- What may still happen at the client's end of a connection once its flag is cleared. -/
structure Prospect where
  /-- One more request may be read. -/
  hears : Bool := false
  /-- The bytes that may be written. -/
  due : Bytes := []

/-- What the phase leaves to be done on its connection. -/
def ClientPhase.outlook : ClientPhase → Prospect
  | starting => {}
  | dialling _ => { due := Outgoing.identity.frame }
  | identifying _ sending _ => { due := sending.rest }
  | polling _ _ => { hears := true, due := Outgoing.reply.frame }
  | receiving _ _ => { hears := true, due := Outgoing.reply.frame }
  | replying _ sending _ => { due := sending.rest }
  | resting _ _ => {}

/-- The phase belongs to a connection: it is that of its session, or its attempt led there. -/
def ClientPhase.leadsTo (net : Net) (link : LinkId) : ClientPhase → Bool
  | dialling dial => net.attempt dial.attempt = .connected link
  | phase => phase.session?.any (·.link = link)

theorem ClientPhase.outlook_outgoing (message : Outgoing) (session : Session)
    (sending : Session.Sending) (deadline : Option Instant) :
    (message.phase session sending deadline).outlook = { due := sending.rest } := by
  cases message <;> rfl

/-- No message is longer than a reply. -/
theorem ClientPhase.outlook_hearing {phase : ClientPhase} {session : Session}
    (h : (∃ deadline, phase = .polling session deadline) ∨
      ∃ reader, phase = .receiving session reader) :
    phase.outlook = { hears := true, due := Outgoing.reply.frame } := by
  rcases h with ⟨deadline, rfl⟩ | ⟨reader, rfl⟩
  · rfl
  · rfl

namespace Link

/-! ## One connection at two moments -/

/-- The complete requests that the client has read. -/
def requestsRead (link : Link) : List Bytes :=
  (Frame.series .fixed32 CnodeClient.maxRequestLength link.read).1

/-- Between two moments the client wrote nothing but what was due at the first, of which the
second leaves a part, and read at most one more request, and that only if it was to hear. -/
structure Winds (link : Link) (prospect : Prospect) (later : Link) (left : Prospect) : Prop where
  grows : link.dialler.written <+: later.dialler.written
  due : later.dialler.written ++ left.due <+: link.dialler.written ++ prospect.due
  heard : (later.requestsRead = link.requestsRead ∧
      (left.hears = true → prospect.hears = true)) ∨
    prospect.hears = true ∧ left.hears = false ∧ ∃ payload,
      Frame.series .fixed32 CnodeClient.maxRequestLength later.read =
        (link.requestsRead ++ [payload], [])
  deaf : prospect.hears = false → later.read = link.read

variable {link middle later : Link} {prospect between left : Prospect}

theorem requestsRead_of_read (h : later.read = link.read) :
    later.requestsRead = link.requestsRead := by
  rw [requestsRead, h, requestsRead]

theorem Winds.refl (link : Link) (prospect : Prospect) : link.Winds prospect link prospect where
  grows := List.prefix_refl _
  due := List.prefix_refl _
  heard := .inl ⟨rfl, id⟩
  deaf := fun _ => rfl

theorem Winds.trans (h : link.Winds prospect middle between)
    (h' : middle.Winds between later left) : link.Winds prospect later left where
  grows := h.grows.trans h'.grows
  due := h'.due.trans h.due
  heard := by
    rcases h.heard with ⟨hsame, hhears⟩ | ⟨hhears, hquiet, payload, hpayload⟩
    · rw [← hsame]
      rcases h'.heard with ⟨hsame', hhears'⟩ | ⟨hhears', hquiet', hpayload⟩
      · exact .inl ⟨hsame', fun hleft => hhears (hhears' hleft)⟩
      · exact .inr ⟨hhears hhears', hquiet', hpayload⟩
    · -- the request has been read: the client hears no more
      have hread : later.read = middle.read := h'.deaf hquiet
      refine .inr ⟨hhears, ?_, payload, by rw [hread, hpayload]⟩
      rcases h'.heard with ⟨_, hhears'⟩ | ⟨hhears', _⟩
      · rw [← Bool.not_eq_true]
        intro hleft
        cases hquiet.symm.trans (hhears' hleft)
      · cases hquiet.symm.trans hhears'
  deaf := by
    intro hdeaf
    have hquiet : between.hears = false := by
      rw [← Bool.not_eq_true]
      intro hhears
      rcases h.heard with ⟨_, hbefore⟩ | ⟨hbefore, _⟩
      · cases hdeaf.symm.trans (hbefore hhears)
      · cases hdeaf.symm.trans hbefore
    exact (h'.deaf hquiet).trans (h.deaf hdeaf)

/-- A connection with the same bytes, on which less is to be done. -/
theorem winds_same (hwritten : later.dialler.written = link.dialler.written)
    (hread : later.read = link.read) (hdue : left.due <+: prospect.due)
    (hhears : left.hears = true → prospect.hears = true) :
    link.Winds prospect later left where
  grows := hwritten ▸ List.prefix_refl _
  due := by
    rw [hwritten]
    exact (List.prefix_append_right_inj _).mpr hdue
  heard := .inl ⟨requestsRead_of_read hread, hhears⟩
  deaf := fun _ => hread

theorem Alike.winds (h : link.Alike later) : link.Winds prospect later {} := by
  have hread : later.read = link.read := by rw [read, h.taken, h.received, read]
  exact winds_same h.written hread List.nil_prefix (fun hears => by cases hears)

theorem Beside.winds (h : link.Beside .dialler later) (hlink : link.Truthful) :
    link.Winds prospect later prospect :=
  winds_same h.written (read_beside hlink h) (List.prefix_refl _) id

theorem winds_write {bytes : Bytes} {count : Nat}
    (h : link.write .dialler bytes = (.wrote count, later)) :
    link.Winds { due := bytes } later { due := bytes.drop count } := by
  obtain ⟨hwritten, htaken, hacceptor, _⟩ := write_wrote h
  have hread : later.read = link.read := by rw [read, htaken, hacceptor, read]
  constructor
  case grows =>
    rw [hwritten]
    exact List.prefix_append _ _
  case due =>
    have hall : later.dialler.written ++ bytes.drop count = link.dialler.written ++ bytes := by
      rw [hwritten, List.append_assoc, List.take_append_drop]
    exact hall ▸ List.prefix_refl _
  case heard => exact .inl ⟨requestsRead_of_read hread, fun hears => by cases hears⟩
  case deaf => exact fun _ => hread

variable {due : Bytes} {payloads : List Bytes} {reader next : Frame.Reader}
  {unread payload rest : Bytes} {error : WireError}

theorem requestsRead_of_midway
    (h : Frame.Midway .fixed32 CnodeClient.maxRequestLength link.read payloads reader) :
    link.requestsRead = payloads := by
  obtain ⟨begun, hseries, _⟩ := h
  rw [requestsRead, hseries]

/-- What is taken of a request that is complete, or refused, are the bytes that decide it. -/
theorem read_take_done {result : Except WireError Bytes}
    (harrival : link.arrival .dialler = .bytes unread)
    (hfeed : reader.feed unread = .done result rest) :
    ∃ front, unread = front ++ rest ∧ reader.feed front = .done result [] ∧
      (link.take .dialler (unread.length - rest.length)).read = link.read ++ front := by
  obtain ⟨front, rfl, hfront⟩ := Frame.Reader.feed_taken hfeed
  have htaken : (front ++ rest).length - rest.length = front.length := by
    rw [List.length_append]
    omega
  refine ⟨front, rfl, hfront, ?_⟩
  rw [htaken, read_take harrival, List.take_left]

/-- Reading on within a request completes none. -/
theorem winds_more (hmidway : Frame.Midway .fixed32 CnodeClient.maxRequestLength link.read
      payloads reader) (harrival : link.arrival .dialler = .bytes unread)
    (hfeed : reader.feed unread = .more next) :
    link.Winds { hears := true, due } (link.take .dialler unread.length)
      { hears := true, due } where
  grows := List.prefix_refl _
  due := List.prefix_refl _
  heard := by
    refine .inl ⟨?_, id⟩
    have hlater := hmidway.more hfeed
    rw [← List.take_length (l := unread), ← read_take harrival] at hlater
    rw [requestsRead_of_midway hmidway, requestsRead_of_midway hlater]
  deaf := nofun

/-- A request that is complete is the last one. -/
theorem winds_request (hmidway : Frame.Midway .fixed32 CnodeClient.maxRequestLength link.read
      payloads reader) (harrival : link.arrival .dialler = .bytes unread)
    (hfeed : reader.feed unread = .done (.ok payload) rest) :
    link.Winds { hears := true, due } (link.take .dialler (unread.length - rest.length))
      { due } where
  grows := List.prefix_refl _
  due := List.prefix_refl _
  heard := by
    obtain ⟨front, rfl, _, hread⟩ := read_take_done harrival hfeed
    refine .inr ⟨rfl, rfl, payload, ?_⟩
    rw [hread, requestsRead_of_midway hmidway]
    exact hmidway.complete hfeed
  deaf := nofun

/-- A request that is refused is not read. -/
theorem winds_refused (hmidway : Frame.Midway .fixed32 CnodeClient.maxRequestLength link.read
      payloads reader) (harrival : link.arrival .dialler = .bytes unread)
    (hfeed : reader.feed unread = .done (.error error) rest) :
    link.Winds { hears := true, due } (link.take .dialler (unread.length - rest.length))
      {} where
  grows := List.prefix_refl _
  due := (List.prefix_append_right_inj _).mpr List.nil_prefix
  heard := by
    obtain ⟨front, rfl, hfront, hread⟩ := read_take_done harrival hfeed
    obtain ⟨behind, hseries, _⟩ := hmidway.series_refused hfront
    refine .inl ⟨?_, nofun⟩
    rw [requestsRead_of_midway hmidway, requestsRead, hread, hseries]
  deaf := nofun

/-- What was written and read while so much was outstanding. -/
theorem Winds.counts (h : link.Winds prospect later left)
    (hshort : prospect.due.length ≤ Outgoing.reply.frame.length) :
    later.requestsRead.length ≤ link.requestsRead.length + 1 ∧
      Scene.replies later ≤ Scene.replies link + 1 := by
  constructor
  · rcases h.heard with ⟨hsame, _⟩ | ⟨_, _, payload, hseries⟩
    · rw [hsame]
      exact Nat.le_succ _
    · rw [Link.requestsRead, hseries, List.length_append]
      exact Nat.le_refl _
  · have hlength := h.due.length_le
    rw [List.length_append, List.length_append] at hlength
    rw [Outgoing.length_frame] at hshort
    simp only [Scene.replies, Outgoing.length_frame]
    omega

/-- On a connection on which nothing is to be done, nothing is done. -/
theorem Winds.still (h : link.Winds {} later left) :
    later.dialler.written = link.dialler.written ∧ later.read = link.read := by
  refine ⟨?_, h.deaf rfl⟩
  have hdue := h.due
  rw [List.append_nil] at hdue
  exact List.IsPrefix.eq_of_length_le h.grows
    (Nat.le_trans ((List.prefix_append _ _).length_le) hdue.length_le) |>.symm

end Link

namespace CnodeClient

variable {now : Instant} {net later : Net} {client next : CnodeClient}

/-- What the client may still write belongs to one message. -/
def Brief (client : CnodeClient) : Prop :=
  ∀ loop, client.loop = some loop →
    ∃ message : Outgoing, loop.phase.outlook.due <:+ message.frame

theorem brief_of_loop {loop : ClientLoop} (message : Outgoing) (hloop : client.loop = some loop)
    (h : loop.phase.outlook.due <:+ message.frame) : client.Brief := by
  intro found hfound
  cases hloop.symm.trans hfound
  exact ⟨message, h⟩

theorem brief_of_none (hloop : client.loop = none) : client.Brief := by
  intro found hfound
  cases hloop.symm.trans hfound

theorem brief_retreat (client : CnodeClient) (now : Instant) (loop : ClientLoop) :
    (client.retreat now loop).Brief := by
  rcases retreat_cases client now loop with ⟨_, heq⟩ | ⟨_, heq⟩ <;> rw [heq]
  · exact brief_of_loop .reply rfl List.nil_suffix
  · exact brief_of_none rfl

theorem Turn.brief (h : Turn now net client later next) (hclient : client.Brief) :
    next.Brief := by
  cases h with
  | quit => exact brief_of_none rfl
  | dial => exact brief_of_loop .identity rfl (List.suffix_refl _)
  | doze => exact brief_of_loop .reply rfl List.nil_suffix
  | refused => exact brief_retreat _ _ _
  | expired => exact brief_retreat _ _ _
  | connected => exact brief_of_loop .identity rfl (List.suffix_refl _)
  | wrote hloop =>
      obtain ⟨message, hbefore⟩ := hclient _ hloop
      rw [ClientPhase.outlook_outgoing] at hbefore
      refine brief_of_loop message rfl ?_
      rw [ClientPhase.outlook_outgoing]
      exact (List.drop_suffix _ _).trans hbefore
  | sent => exact brief_of_loop .reply rfl (List.suffix_refl _)
  | parted => exact brief_of_none rfl
  | unsent => exact brief_retreat _ _ _
  | late => exact brief_retreat _ _ _
  | readable => exact brief_of_loop .reply rfl (List.suffix_refl _)
  | idle => exact brief_of_loop .reply rfl (List.suffix_refl _)
  | interrupted => exact brief_of_loop .reply rfl (List.suffix_refl _)
  | dismissed => exact brief_of_none rfl
  | ended => exact brief_retreat _ _ _
  | failed => exact brief_retreat _ _ _
  | more => exact brief_of_loop .reply rfl (List.suffix_refl _)
  | request => exact brief_of_loop .reply rfl (List.suffix_refl _)
  | rejected => exact brief_retreat _ _ _

/-- A second of sleep begins only while the flag is set. -/
theorem Turn.running_of_resting {backoff : Backoff} {seconds : Nat} {wake : Instant}
    (h : Turn now net client later next)
    (hnext : next.loop = some ⟨backoff, .resting seconds wake⟩) : client.running = true := by
  have hretreat : ∀ {loop}, next = client.retreat now loop → client.running = true := by
    rintro loop rfl
    rcases retreat_cases client now loop with ⟨hrunning, _⟩ | ⟨_, heq⟩
    · exact hrunning
    · rw [heq] at hnext
      cases hnext
  cases h with
  | doze _ _ hrunning => exact hrunning
  | @wrote _ message => cases message <;> cases hnext
  | _ => first | exact hretreat rfl | cases hnext

end CnodeClient

namespace Scene

variable {first scene later : Scene}

/-- What may still happen on a connection of the client once its flag is cleared. -/
def prospect (scene : Scene) (link : LinkId) : Prospect :=
  match scene.client.loop with
  | none => {}
  | some loop => if loop.phase.leadsTo scene.net link then loop.phase.outlook else {}

theorem prospect_of_session {loop : ClientLoop} {session : Session}
    (hloop : scene.client.loop = some loop) (hsession : loop.phase.session? = some session) :
    scene.prospect session.link = loop.phase.outlook := by
  have hleads : loop.phase.leadsTo scene.net session.link = true := by
    cases hphase : loop.phase <;> rw [hphase] at hsession <;> cases hsession <;>
      exact decide_eq_true rfl
  simp only [prospect, hloop, hleads, if_true]

theorem prospect_of_dialled {attempt : AttemptId} {link : LinkId}
    (hdialled : scene.client.dialled? = some attempt)
    (hconnected : scene.net.attempt attempt = .connected link) :
    scene.prospect link = { due := Outgoing.identity.frame } := by
  obtain ⟨backoff, dial, hloop, rfl⟩ := CnodeClient.loop_of_dialled hdialled
  have hleads : (ClientPhase.dialling dial).leadsTo scene.net link = true :=
    decide_eq_true hconnected
  simp only [prospect, hloop, hleads, if_true]
  rfl

theorem current_of_leadsTo {link : LinkId} {loop : ClientLoop}
    (hloop : scene.client.loop = some loop) (h : loop.phase.leadsTo scene.net link = true) :
    scene.Current link := by
  obtain ⟨backoff, phase⟩ := loop
  have hsession : ∀ session, phase.session? = some session → session.link = link →
      scene.Current link := fun session hphase hlink =>
    .inl ⟨session, (CnodeClient.session?_of_loop hloop).trans hphase, hlink⟩
  cases phase with
  | dialling dial =>
      exact .inr ⟨dial.attempt, CnodeClient.dialled?_of_loop hloop, of_decide_eq_true h⟩
  | identifying session sending deadline => exact hsession session rfl (of_decide_eq_true h)
  | polling session deadline => exact hsession session rfl (of_decide_eq_true h)
  | receiving session reader => exact hsession session rfl (of_decide_eq_true h)
  | replying session sending deadline => exact hsession session rfl (of_decide_eq_true h)
  | starting => cases h
  | resting seconds wake => cases h

/-- Nothing is to be done on a connection for which the client has no use. -/
theorem prospect_of_not_current {link : LinkId} (h : ¬scene.Current link) :
    scene.prospect link = {} := by
  unfold prospect
  split
  · rfl
  · rename_i loop hloop
    exact if_neg fun hleads => h (current_of_leadsTo hloop hleads)

theorem prospect_of_none {link : LinkId} (hloop : scene.client.loop = none) :
    scene.prospect link = {} := by
  simp only [prospect, hloop]

theorem prospect_congr {net : Net} {link : LinkId}
    (h : Current { scene with net } link ↔ scene.Current link) :
    prospect { scene with net } link = scene.prospect link := by
  by_cases hcurrent : scene.Current link
  · rcases hcurrent with ⟨session, hsession, rfl⟩ | ⟨attempt, hdialled, hconnected⟩
    · cases hloop : scene.client.loop with
      | none => cases (CnodeClient.session?_of_none hloop).symm.trans hsession
      | some loop =>
          rw [CnodeClient.session?_of_loop hloop] at hsession
          rw [prospect_of_session hloop hsession]
          exact @prospect_of_session { scene with net } _ _ hloop hsession
    · rw [prospect_of_dialled hdialled hconnected]
      rcases h.mpr (.inr ⟨attempt, hdialled, hconnected⟩) with ⟨session, hsession, _⟩ |
        ⟨other, hother, hlater⟩
      · cases (CnodeClient.dialled?_of_session hsession).symm.trans hdialled
      · exact prospect_of_dialled hother hlater
  · rw [prospect_of_not_current hcurrent]
    exact prospect_of_not_current fun hlater => hcurrent (h.mp hlater)

/-! ## What a turn does to the connections -/

/-- What is due while a message is being written is the rest of it. -/
theorem prospect_outgoing {session before : Session}
    (hsession : scene.client.session? = some session) {backoff : Backoff} {message : Outgoing}
    {sending : Session.Sending} {deadline : Option Instant}
    (hloop : scene.client.loop = some ⟨backoff, message.phase before sending deadline⟩) :
    before = session ∧ scene.prospect session.link = { due := sending.rest } := by
  cases hsession.symm.trans (CnodeClient.session?_of_outgoing hloop)
  refine ⟨rfl, ?_⟩
  rw [prospect_of_session hloop (ClientPhase.session?_outgoing _ _ _ _)]
  exact ClientPhase.outlook_outgoing message session sending deadline

/-- A client that waits for a request may still read one and answer it. -/
theorem prospect_hearing {session before : Session}
    (hsession : scene.client.session? = some session) {loop : ClientLoop}
    (hloop : scene.client.loop = some loop)
    (hphase : (∃ deadline, loop.phase = .polling before deadline) ∨
      ∃ reader, loop.phase = .receiving before reader) :
    before = session ∧
      scene.prospect session.link = { hears := true, due := Outgoing.reply.frame } := by
  cases hsession.symm.trans (CnodeClient.session?_of_hearing hloop hphase)
  refine ⟨rfl, ?_⟩
  have hthere : loop.phase.session? = some session :=
    (CnodeClient.session?_of_loop hloop).symm.trans hsession
  rw [prospect_of_session hloop hthere, ClientPhase.outlook_hearing hphase]

/-- A client whose flag is cleared has no loop once its session is over. -/
theorem prospect_retreat (hstopped : scene.client.running = false) (net : Net)
    (loop : ClientLoop) (link : LinkId) :
    (scene.after net (scene.client.retreat scene.now loop)).prospect link = {} := by
  rw [CnodeClient.retreat_of_stopped hstopped]
  rfl

/-- On the connection of its session, a client whose flag is cleared does what was due. -/
theorem winds_of_session_turn (hscene : scene.Reachable) (hstopped : scene.client.running = false)
    {net : Net} {client : CnodeClient}
    (hturn : scene.client.Turn scene.now scene.net net client) {session : Session}
    (hsession : scene.client.session? = some session) :
    (scene.net.link session.link).Winds (scene.prospect session.link) (net.link session.link)
      ((scene.after net client).prospect session.link) := by
  have hchanged := hscene.sound.link_changeLink hsession
  have hidle : ∀ {loop : ClientLoop}, scene.client.loop = some loop →
      loop.phase.session? = none → False := by
    intro loop hloop hphase
    cases hphase.symm.trans ((CnodeClient.session?_of_loop hloop).symm.trans hsession)
  have hbegins : ∀ {loop backoff}, scene.client.loop = some loop →
      CnodeClient.Begins scene.now scene.client.running loop backoff → False := by
    intro loop backoff hloop hbegins
    cases hbegins <;> exact hidle hloop rfl
  have hstays : ∀ {loop : ClientLoop} {after : Session}, client.loop = some loop →
      loop.phase.session? = some after → after.link = session.link →
        (scene.after net client).prospect session.link = loop.phase.outlook := by
    intro loop after hloop hafter hlink
    rw [← hlink]
    exact prospect_of_session hloop hafter
  cases hturn with
  | quit hloop h => exact (hbegins hloop h).elim
  | dial hloop h => exact (hbegins hloop h).elim
  | doze hloop => exact (hidle hloop rfl).elim
  | refused hloop => exact (hidle hloop rfl).elim
  | expired hloop => exact (hidle hloop rfl).elim
  | connected hloop => exact (hidle hloop rfl).elim
  | wrote hloop hwrite =>
      obtain ⟨rfl, hbefore⟩ := prospect_outgoing hsession hloop
      rw [hchanged, hbefore, hstays rfl (ClientPhase.session?_outgoing _ _ _ _) rfl,
        ClientPhase.outlook_outgoing]
      exact Link.winds_write hwrite
  | sent _ _ _ hrunning => cases hstopped.symm.trans hrunning
  | parted hloop hwrite =>
      obtain ⟨rfl, hbefore⟩ := prospect_outgoing hsession hloop
      rw [hchanged, hbefore]
      exact (Link.winds_write hwrite).trans (Link.alike_leave _).winds
  | unsent hloop hwrite =>
      obtain ⟨rfl, hbefore⟩ := prospect_outgoing hsession hloop
      rw [hchanged, prospect_retreat hstopped]
      exact (Link.write_failed hwrite).1.winds.trans (Link.alike_leave _).winds
  | late hloop =>
      obtain ⟨rfl, hbefore⟩ := prospect_outgoing hsession hloop
      rw [hchanged, prospect_retreat hstopped]
      exact (Link.alike_leave _).winds
  | readable hloop =>
      obtain ⟨rfl, hbefore⟩ := prospect_hearing hsession hloop (.inl ⟨_, rfl⟩)
      rw [hbefore, hstays rfl rfl rfl]
      exact .refl _ _
  | idle _ _ _ hrunning => cases hstopped.symm.trans hrunning
  | interrupted _ _ hrunning => cases hstopped.symm.trans hrunning
  | dismissed hloop =>
      obtain ⟨rfl, hbefore⟩ := prospect_hearing hsession hloop (.inl ⟨_, rfl⟩)
      rw [hchanged]
      exact (Link.alike_leave _).winds
  | ended hloop hphase =>
      obtain ⟨rfl, _⟩ := prospect_hearing hsession hloop hphase
      rw [hchanged, prospect_retreat hstopped]
      exact (Link.alike_leave _).winds
  | failed hloop hphase =>
      obtain ⟨rfl, _⟩ := prospect_hearing hsession hloop hphase
      rw [hchanged, prospect_retreat hstopped]
      exact (Link.alike_report _).winds.trans (Link.alike_leave _).winds
  | more hloop harrival hfeed =>
      obtain ⟨rfl, hbefore⟩ := prospect_hearing hsession hloop (.inr ⟨_, rfl⟩)
      obtain ⟨payloads, hmidway, _⟩ := hscene.faithful.recorded hloop rfl
      rw [hchanged, hbefore, hstays rfl rfl rfl]
      exact Link.winds_more hmidway harrival hfeed
  | request hloop harrival hfeed =>
      obtain ⟨rfl, hbefore⟩ := prospect_hearing hsession hloop (.inr ⟨_, rfl⟩)
      obtain ⟨payloads, hmidway, _⟩ := hscene.faithful.recorded hloop rfl
      rw [hchanged, hbefore, hstays rfl rfl rfl]
      exact Link.winds_request hmidway harrival hfeed
  | rejected hloop harrival hfeed =>
      obtain ⟨rfl, hbefore⟩ := prospect_hearing hsession hloop (.inr ⟨_, rfl⟩)
      obtain ⟨payloads, hmidway, _⟩ := hscene.faithful.recorded hloop rfl
      rw [hchanged, hbefore, prospect_retreat hstopped]
      exact (Link.winds_refused hmidway harrival hfeed).trans (Link.alike_leave _).winds

/-- On the connection that its attempt led to, the client announces itself. -/
theorem winds_of_dialled_turn {net : Net} {client : CnodeClient}
    (hturn : scene.client.Turn scene.now scene.net net client) {attempt : AttemptId}
    {link : LinkId} (hdialled : scene.client.dialled? = some attempt)
    (hconnected : scene.net.attempt attempt = .connected link) :
    (scene.net.link link).Winds (scene.prospect link) (net.link link)
      ((scene.after net client).prospect link) := by
  obtain ⟨backoff, dial, hloop, rfl⟩ := CnodeClient.loop_of_dialled hdialled
  obtain ⟨rfl, deadline, hnext⟩ := hturn.of_connected hloop hconnected
  have hafter : (scene.after scene.net client).prospect
      ((scene.client.session link).holding Outgoing.identity.frame).link = _ :=
    prospect_of_session hnext rfl
  change (scene.after scene.net client).prospect link = _ at hafter
  rw [prospect_of_dialled hdialled hconnected, hafter, ClientPhase.outlook_outgoing]
  exact .refl _ _

theorem winds_of_turn (hscene : scene.Reachable) (hstopped : scene.client.running = false)
    {net : Net} {client : CnodeClient}
    (hturn : scene.client.Turn scene.now scene.net net client) {link : LinkId}
    (hlink : scene.Owns link) :
    (scene.net.link link).Winds (scene.prospect link) (net.link link)
      ((scene.after net client).prospect link) := by
  by_cases hcurrent : scene.Current link
  · rcases hcurrent with ⟨session, hsession, rfl⟩ | ⟨attempt, hdialled, hconnected⟩
    · exact winds_of_session_turn hscene hstopped hturn hsession
    · exact winds_of_dialled_turn hturn hdialled hconnected
  · have hsame : net.link link = scene.net.link link :=
      link_of_turn hturn (hscene.sound.links hlink)
        (fun session hsession hlink => hcurrent (.inl ⟨session, hsession, hlink⟩))
    rw [hsame, prospect_of_not_current hcurrent,
      prospect_of_not_current (not_current_of_turn hscene.sound hturn hlink hcurrent)]
    exact .refl _ _

/-! ## Until the client is started again -/

/-- What happens from a scene on as long as the client is not started. -/
inductive Unstarted (first : Scene) : Scene → Prop
  | begin : Unstarted first first
  | move {scene later : Scene} (h : Unstarted first scene) (hmove : scene.Move later)
      (hidle : later.client.attached = false) : Unstarted first later

theorem Unstarted.reachable (h : first.Unstarted scene) (hfirst : first.Reachable) :
    scene.Reachable := by
  induction h with
  | begin => exact hfirst
  | move _ hmove _ ih => exact .move ih hmove trivial

/-- A client whose flag is cleared makes no attempt. -/
theorem dialled?_of_stopped (hstopped : scene.client.running = false) {net : Net}
    {client : CnodeClient} (hturn : scene.client.Turn scene.now scene.net net client) :
    client.dialled? = none ∧ net.attempts.length = scene.net.attempts.length := by
  have hsame := hturn.attempts_of_not_due (by simp [CnodeClient.isDue, hstopped])
  refine ⟨?_, hsame⟩
  rcases hturn.net_cases with ⟨_, hnone, _⟩ | ⟨_, _, _, _, hnone⟩ | ⟨host, port, _, rfl, _⟩ |
    ⟨_, _, _, _, hnone⟩
  · exact hnone
  · exact hnone
  · have hmore := (scene.net.dialled_seek host port).attempts
    omega
  · exact hnone

/-- An attempt that led to a connection of the client is settled. -/
theorem Move.connected (hscene : scene.Sound) (hmove : scene.Move later) {attempt : AttemptId}
    {link : LinkId} (hmem : attempt ∈ scene.attempts)
    (h : scene.net.attempt attempt = .connected link) :
    later.net.attempt attempt = .connected link := by
  rcases hmove.cases hscene with ⟨net, client, hturn, rfl⟩ | ⟨net, hforeign, rfl⟩ |
    ⟨_, _, _, _, rfl⟩ | ⟨_, _, _, rfl⟩ | ⟨_, rfl⟩ | rfl
  · show net.attempt attempt = .connected link
    rcases hturn.net_cases with ⟨rfl, _⟩ | ⟨_, _, _, rfl, _⟩ | ⟨host, port, _, rfl, _⟩ |
      ⟨dialled, _, hwaiting, rfl, _⟩
    · exact h
    · exact h
    · exact ((scene.net.dialled_seek host port).attempt (hscene.attempts attempt hmem)).trans h
    · by_cases hsame : dialled = attempt
      · rw [hsame, h] at hwaiting
        cases hwaiting
      · exact (Net.attempt_abandon_of_ne _ hsame).trans h
  · rcases hforeign.evolves.attempt hmem (hscene.attempts attempt hmem) with hsame |
      ⟨hwaiting, _⟩
    · exact hsame.trans h
    · rw [h] at hwaiting
      cases hwaiting
  all_goals exact h

/-- An attempt of the client leads where it led before, or to a connection that is new. -/
theorem Move.connected_cases (hscene : scene.Sound) (hmove : scene.Move later)
    {attempt : AttemptId} {link : LinkId} (hmem : attempt ∈ scene.attempts)
    (h : later.net.attempt attempt = .connected link) :
    scene.net.attempt attempt = .connected link ∨ ¬scene.Owns link := by
  rcases hmove.cases hscene with ⟨net, client, hturn, rfl⟩ | ⟨net, hforeign, rfl⟩ |
    ⟨_, _, _, _, rfl⟩ | ⟨_, _, _, rfl⟩ | ⟨_, rfl⟩ | rfl
  · change net.attempt attempt = .connected link at h
    refine .inl ?_
    rcases hturn.net_cases with ⟨rfl, _⟩ | ⟨_, _, _, rfl, _⟩ | ⟨host, port, _, rfl, _⟩ |
      ⟨dialled, hdialled, _, rfl, _⟩
    · exact h
    · exact h
    · have hdial := scene.net.dialled_seek host port
      exact (hdial.attempt (hscene.attempts attempt hmem)).symm.trans h
    · by_cases hsame : dialled = attempt
      · subst hsame
        cases (abandoned_of_sound hscene hdialled).symm.trans h
      · exact (Net.attempt_abandon_of_ne _ hsame).symm.trans h
  · rcases hforeign.evolves.attempt hmem (hscene.attempts attempt hmem) with hsame |
      ⟨_, hanswers⟩
    · exact .inl (hsame.symm.trans h)
    · obtain ⟨rfl, _⟩ := hanswers.links_of_connected h
      exact .inr fun hlink => absurd (hscene.links hlink) (Nat.lt_irrefl _)
  all_goals exact .inl h

/-- What holds of a client whose flag is cleared as long as it is not started. -/
structure Rests (first scene : Scene) : Prop where
  stopped : scene.client.running = false
  attempts : scene.attempts = first.attempts
  dialled : ∀ {attempt}, scene.client.dialled? = some attempt →
    first.client.dialled? = some attempt
  ticks : ∀ {backoff seconds wake},
    scene.client.loop = some ⟨backoff, .resting seconds wake⟩ →
      first.client.loop = some ⟨backoff, .resting seconds wake⟩
  owns : ∀ {link}, first.Owns link → scene.Owns link
  leads : ∀ {attempt link}, first.client.dialled? = some attempt →
    scene.net.attempt attempt = .connected link →
      first.net.attempt attempt = .connected link ∨ ¬first.Owns link
  old : ∀ {link}, first.Owns link →
    (first.net.link link).Winds (first.prospect link) (scene.net.link link) (scene.prospect link)
  new : ∀ {link}, scene.Owns link → ¬first.Owns link →
    (∃ attempt, first.client.dialled? = some attempt ∧
      scene.net.attempt attempt = .connected link) ∧
    Link.Winds {} { due := Outgoing.identity.frame } (scene.net.link link) (scene.prospect link)

theorem Rests.refl (hstopped : first.client.running = false) : first.Rests first where
  stopped := hstopped
  attempts := rfl
  dialled := id
  ticks := id
  owns := id
  leads := fun _ hconnected => .inl hconnected
  old := fun _ => .refl _ _
  new := fun hlink hnot => absurd hlink hnot

/-- The attempt that the client waited for is one of its attempts still. -/
theorem Rests.mem (h : first.Rests scene) (hfirst : first.Sound) {attempt : AttemptId}
    (hdialled : first.client.dialled? = some attempt) : attempt ∈ scene.attempts := by
  rw [h.attempts]
  exact hfirst.dialled hdialled

theorem Rests.leads_move (h : first.Rests scene) (hfirst : first.Sound) (hscene : scene.Sound)
    (hmove : scene.Move later) {attempt : AttemptId} {link : LinkId}
    (hdialled : first.client.dialled? = some attempt)
    (hconnected : later.net.attempt attempt = .connected link) :
    first.net.attempt attempt = .connected link ∨ ¬first.Owns link := by
  rcases hmove.connected_cases hscene (h.mem hfirst hdialled) hconnected with hbefore | hnew
  · exact h.leads hdialled hbefore
  · exact .inr fun hold => hnew (h.owns hold)

/-- A step of a client whose flag is cleared. -/
theorem Rests.turn (h : first.Rests scene) (hfirst : first.Sound) (hscene : scene.Reachable)
    {net : Net} {client : CnodeClient}
    (hturn : scene.client.Turn scene.now scene.net net client)
    (hmove : scene.Move (scene.after net client)) : first.Rests (scene.after net client) := by
  obtain ⟨hnone, _⟩ := dialled?_of_stopped h.stopped hturn
  have hextends := extends_of_turn hscene.sound hturn
  have hwinds := @winds_of_turn scene hscene h.stopped _ _ hturn
  constructor
  case stopped => exact hturn.keeps.2.1.trans h.stopped
  case attempts => exact (after_attempts hnone).trans h.attempts
  case dialled =>
    intro attempt hdialled
    cases hnone.symm.trans hdialled
  case ticks =>
    intro backoff seconds wake hloop
    cases h.stopped.symm.trans (hturn.running_of_resting hloop)
  case owns => exact fun hlink => hextends.keeps (h.owns hlink)
  case leads => exact h.leads_move hfirst hscene.sound hmove
  case old => exact fun hlink => (h.old hlink).trans (hwinds (h.owns hlink))
  case new =>
    intro link hlink hnot
    rcases hextends.owns hlink with hold | ⟨_, _, _, attempt, hdialled, _⟩
    · obtain ⟨⟨attempt, hdialled, hconnected⟩, hbefore⟩ := h.new hold hnot
      exact ⟨⟨attempt, hdialled,
        hmove.connected hscene.sound (h.mem hfirst hdialled) hconnected⟩,
        hbefore.trans (hwinds hold)⟩
    · cases hnone.symm.trans hdialled

/-- What others do while the flag is cleared. -/
theorem Rests.others (h : first.Rests scene) (hfirst : first.Sound) (hscene : scene.Reachable)
    {net : Net} (hforeign : scene.net.Foreign scene.holdings net) :
    first.Rests { scene with net } := by
  have hsound := hscene.sound
  have hmove : scene.Move { scene with net } := .others hforeign
  have hextends := extends_of_foreign hsound hforeign
  have hwinds : ∀ {link}, scene.Owns link →
      (scene.net.link link).Winds (scene.prospect link) (net.link link)
        (prospect { scene with net } link) := by
    intro link hlink
    rw [prospect_congr (current_of_foreign hsound hforeign hlink)]
    exact (beside_of_foreign hsound hforeign hlink).winds (hscene.faithful.truthful hlink)
  refine ⟨h.stopped, h.attempts, h.dialled, h.ticks, fun hlink => hextends.keeps (h.owns hlink),
    h.leads_move hfirst hsound hmove, fun hlink => (h.old hlink).trans (hwinds (h.owns hlink)),
    ?_⟩
  intro link hlink hnot
  rcases hextends.owns hlink with hold | ⟨_, _, hunused, attempt, hdialled, hconnected⟩
  · obtain ⟨⟨attempt, hdialled, hconnected⟩, hbefore⟩ := h.new hold hnot
    exact ⟨⟨attempt, hdialled, hmove.connected hsound (h.mem hfirst hdialled) hconnected⟩,
      hbefore.trans (hwinds hold)⟩
  · refine ⟨⟨attempt, h.dialled hdialled, hconnected⟩, ?_⟩
    rw [hunused, prospect_of_dialled hdialled hconnected]
    exact .refl _ _

theorem Unstarted.rests (h : first.Unstarted later) (hfirst : first.Reachable)
    (hstopped : first.client.running = false) : first.Rests later := by
  induction h with
  | begin => exact .refl hstopped
  | @move scene later hrun hmove hidle ih =>
      have hscene := hrun.reachable hfirst
      rcases hmove.cases hscene.sound with ⟨net, client, hturn, rfl⟩ | ⟨net, hforeign, rfl⟩ |
        ⟨now, _, _, _, rfl⟩ | ⟨_, _, _, rfl⟩ | ⟨_, rfl⟩ | rfl
      · exact ih.turn hfirst.sound hscene hturn hmove
      · exact ih.others hfirst.sound hscene hforeign
      · exact ⟨ih.stopped, ih.attempts, ih.dialled, ih.ticks, ih.owns, ih.leads,
          ih.old, ih.new⟩
      · cases hidle
      · exact ⟨rfl, ih.attempts, ih.dialled, ih.ticks, ih.owns, ih.leads,
          ih.old, ih.new⟩
      · exact ih

/-- Without a loop, a client that is not started does nothing. -/
theorem Unstarted.over (h : scene.Unstarted later) (hscene : scene.Reachable)
    (hloop : scene.client.loop = none) : later.client.loop = none := by
  induction h with
  | begin => exact hloop
  | move hrun hmove hidle ih =>
      have hreached := (hrun.reachable hscene).sound
      rcases hmove.cases hreached with ⟨_, _, hturn, rfl⟩ | ⟨_, _, rfl⟩ | ⟨_, _, _, _, rfl⟩ |
        ⟨_, _, _, rfl⟩ | ⟨_, rfl⟩ | rfl
      · exact absurd ih hturn.has_loop
      · exact ih
      · exact ih
      · cases hidle
      · exact ih
      · exact ih

/-! ## After a call that stops the client -/

theorem Reachable.brief (h : scene.Reachable) : scene.client.Brief := by
  apply h.invariant fun _ client => client.Brief
  case hbegin => exact fun _ _ => CnodeClient.brief_of_none rfl
  case hturn => exact fun hturn hclient => hturn.brief hclient
  case hwait => exact fun _ hclient => hclient
  case hstart => exact fun _ _ _ => CnodeClient.brief_of_loop .reply rfl List.nil_suffix
  case hstop => exact fun hclient => hclient

theorem Reachable.due_le (h : scene.Reachable) (link : LinkId) :
    (scene.prospect link).due.length ≤ Outgoing.reply.frame.length := by
  unfold prospect
  split
  · exact Nat.zero_le _
  · rename_i loop hloop
    split
    · obtain ⟨message, hmessage⟩ := h.brief loop hloop
      rw [Outgoing.length_frame, ← message.length_frame]
      exact hmessage.length_le
    · exact Nat.zero_le _

/-- The scene after a call that stops the client. -/
def stopped (scene : Scene) : Scene :=
  { scene with client := scene.client.requestStop }

theorem stopped_eq (h : scene.client.attached = true) :
    scene.stopped =
      { scene with client := { scene.client with running := false, attached := false } } := by
  simp only [stopped, CnodeClient.requestStop, h, if_true]

/-- What a client does after a call that stopped it. Only the one connection that it had use
for at the call is concerned, or the one that the attempt of that moment leads to. -/
structure Quiesces (first later : Scene) : Prop where
  /-- It makes no attempt. -/
  attempts : later.attempts = first.attempts
  dials : ∀ {net client}, later.client.step later.now later.net = some (net, client) →
    net.attempts.length = later.net.attempts.length
  /-- A second of sleep has begun before the call. -/
  ticks : ∀ {backoff seconds wake},
    later.client.loop = some ⟨backoff, .resting seconds wake⟩ →
      first.client.loop = some ⟨backoff, .resting seconds wake⟩
  one : ∀ {link other}, first.Current link → first.Current other → link = other
  apart : ∀ {link}, first.Owns link → ¬first.Current link →
    (later.net.link link).dialler.written = (first.net.link link).dialler.written ∧
      (later.net.link link).read = (first.net.link link).read
  session : ∀ {link}, first.Owns link →
    (first.net.link link).Winds (first.prospect link) (later.net.link link)
        (later.prospect link) ∧
      (later.net.link link).requestsRead.length ≤ (first.net.link link).requestsRead.length + 1 ∧
      replies (later.net.link link) ≤ replies (first.net.link link) + 1
  /-- A connection that it gets is that of the attempt of that moment. -/
  gets : ∀ {link}, later.Owns link → ¬first.Owns link → ∃ attempt,
    first.client.dialled? = some attempt ∧ later.net.attempt attempt = .connected link
  announces : ∀ {attempt link}, first.client.dialled? = some attempt →
    later.net.attempt attempt = .connected link →
      (later.net.link link).dialler.written <+: Outgoing.identity.frame ∧
        (later.net.link link).read = []

/-- What holds from the return of the call on. -/
structure Quiet (scene : Scene) : Prop where
  held : ∀ {link}, scene.Owns link → (scene.net.link link).dialler.held = false
  silent : ∀ {later link}, scene.Unstarted later → later.Owns link →
    scene.Owns link ∧ (later.net.link link).dialler.held = false ∧
      (later.net.link link).dialler.written = (scene.net.link link).dialler.written

theorem Reachable.released (h : scene.Reachable) (hloop : scene.client.loop = none)
    {link : LinkId} (hlink : scene.Owns link) :
    (scene.net.link link).dialler.held = false := by
  rw [← Bool.not_eq_true]
  intro hheld
  exact not_current_of_none (CnodeClient.session?_of_none hloop)
    (by simp [CnodeClient.dialled?, hloop]) (h.current_of_held hlink hheld)

/-- Without a loop there is nothing to be done on any connection. -/
theorem Reachable.quiet (h : scene.Reachable) (hloop : scene.client.loop = none) :
    scene.Quiet where
  held := h.released hloop
  silent := by
    intro later link hrun hlink
    have hstopped : scene.client.running = false := by
      rw [h.consistent.flag, ← Bool.not_eq_true]
      exact fun hattached => h.consistent.held hattached hloop
    have hrests := hrun.rests h hstopped
    have hback : scene.Owns link := by
      apply Classical.byContradiction
      intro hnot
      obtain ⟨⟨attempt, hdialled, _⟩, _⟩ := hrests.new hlink hnot
      simp [CnodeClient.dialled?, hloop] at hdialled
    have hwinds := hrests.old hback
    rw [prospect_of_none hloop] at hwinds
    exact ⟨hback, (hrun.reachable h).released (hrun.over h hloop) hlink, hwinds.still.1⟩

/-- The connection of the attempt of that moment, whether it was there at the call or not. -/
theorem Rests.announces (h : first.Rests later) (hfirst : first.Reachable)
    {attempt : AttemptId} {link : LinkId} (hdialled : first.client.dialled? = some attempt)
    (hconnected : later.net.attempt attempt = .connected link) :
    (later.net.link link).dialler.written <+: Outgoing.identity.frame ∧
      (later.net.link link).read = [] := by
  have hlink : later.Owns link := ⟨attempt, h.mem hfirst.sound hdialled, hconnected⟩
  have hresult : ∀ {before : Link}, before.dialler.written = [] → before.read = [] →
      before.Winds { due := Outgoing.identity.frame } (later.net.link link)
        (later.prospect link) →
      (later.net.link link).dialler.written <+: Outgoing.identity.frame ∧
        (later.net.link link).read = [] := by
    intro before hwritten hread hwinds
    have hdue := hwinds.due
    rw [hwritten, List.nil_append] at hdue
    exact ⟨(List.prefix_append _ _).trans hdue, (hwinds.deaf rfl).trans hread⟩
  by_cases hold : first.Owns link
  · have hbefore : first.net.attempt attempt = .connected link := by
      rcases h.leads hdialled hconnected with hbefore | hnot
      · exact hbefore
      · exact absurd hold hnot
    obtain ⟨hwritten, htaken⟩ := hfirst.faithful.dialled hdialled hbefore
    have hwinds := h.old hold
    rw [prospect_of_dialled hdialled hbefore] at hwinds
    exact hresult hwritten (by rw [Link.read, htaken, List.take_zero]) hwinds
  · exact hresult rfl rfl (h.new hlink hold).2

/-- Whatever others do, and whenever the call is made: a client that is stopped makes no
attempt and begins no second of sleep. On the connection that it had use for it reads at most
one more request and writes at most one more reply, on one that its last attempt leads to it
writes its announcement and reads nothing, and all others are left alone. Once the loop is
over, the client holds no connection, and writes nothing until it is started again. -/
theorem quiescence (hfirst : first.Reachable) (hattached : first.client.attached = true)
    (h : first.stopped.Unstarted later) :
    first.Quiesces later ∧ (later.client.loop = none → later.Quiet) := by
  have hcall : first.stopped.Reachable := .move hfirst .stop trivial
  have hlater := h.reachable hcall
  refine ⟨?_, fun hloop => hlater.quiet hloop⟩
  rw [stopped_eq hattached] at h hcall
  have hrests := h.rests hcall rfl
  constructor
  case attempts => exact hrests.attempts
  case dials =>
    intro net client hstep
    have hturn := CnodeClient.turn_of_step hlater.sound.fits hstep
    exact (dialled?_of_stopped hrests.stopped hturn).2
  case ticks => exact hrests.ticks
  case one => exact fun hcurrent hother => hcurrent.unique hother
  case apart =>
    intro link hlink hcurrent
    have hwinds := hrests.old hlink
    change Link.Winds _ (first.prospect link) _ _ at hwinds
    rw [prospect_of_not_current hcurrent] at hwinds
    exact hwinds.still
  case session =>
    intro link hlink
    have hwinds := hrests.old hlink
    exact ⟨hwinds, hwinds.counts (hfirst.due_le link)⟩
  case gets => exact fun hlink hnot => (hrests.new hlink hnot).1
  case announces => exact hrests.announces hcall

/-- A request is there when the client is stopped: it is read and answered, and the connection
is closed. -/
theorem quiescence_of_request : ∃ first later : Scene, first.Reachable ∧
    first.client.attached = true ∧ first.stopped.Unstarted later ∧
    later.client.loop = none ∧ later.attempts = [0] ∧
    (later.net.link 0).dialler.held = false ∧
    (first.net.link 0).dialler.written = [2, 0, 0, 0, 8, 13] ∧
    (later.net.link 0).dialler.written = [2, 0, 0, 0, 8, 13, 2, 0, 0, 0, 8, 1] := by
  have hbegin : Reachable _ := .begin 0
    { listeners := [{ address := ⟨.loopback, 4000⟩ }] }
    { serverIp := some "127.0.0.1", serverPort := 4000 } trivial
  have hstart : Reachable _ := .move hbegin (.start rfl) trivial
  have hdial : Reachable _ := .move hstart (.step rfl) trivial
  have hconnect : Reachable _ := .move hdial (.step rfl) trivial
  have hidentity : Reachable _ := .move hconnect (.step rfl) trivial
  have hrequest : Reachable _ := .move hidentity
    (.others (.act (.write 0 .acceptor [0, 0, 0, 0]) (fun h => by cases h.1))) trivial
  have hcall : ∀ {scene : Scene}, scene.Reachable → scene.stopped.Unstarted scene.stopped :=
    fun _ => .begin
  have hreadable : Unstarted _ _ := .move (hcall hrequest) (.step rfl) rfl
  have hread : Unstarted _ _ := .move hreadable (.step rfl) rfl
  have hover : Unstarted _ _ := .move hread (.step rfl) rfl
  obtain ⟨hquiesces, hquiet⟩ := quiescence hrequest rfl hover
  exact ⟨_, _, hrequest, rfl, hover, rfl, hquiesces.attempts,
    (hquiet rfl).held ⟨0, List.mem_singleton_self 0, rfl⟩, rfl, rfl⟩

end Scene

end NodeHealth
