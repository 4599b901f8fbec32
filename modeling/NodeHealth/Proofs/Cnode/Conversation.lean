import NodeHealth.Proofs.Cnode.Run
import NodeHealth.Proofs.Wire.Series

/-!
# The conversation of the cnode client

What the client writes on a connection is its announcement and then one reply for every
request that it has read, and requests are the complete frames that the peer's bytes begin
with. The invariant is `ClientPhase.Recorded`: it ties what was written and taken at the
client's end to the point at which the client stands.

-/

namespace NodeHealth

namespace Link

/-! ## The record of a connection -/

/-- The bytes that the client has read. -/
def read (link : Link) : Bytes :=
  link.acceptor.written.take link.dialler.taken

/-- The complete requests that the peer's bytes begin with. -/
def requests (link : Link) : List Bytes :=
  (Frame.series .fixed32 CnodeClient.maxRequestLength link.acceptor.written).1

/-- The announcement, and so many replies. -/
def transcript (count : Nat) : Bytes :=
  Outgoing.identity.frame ++ (List.replicate count Outgoing.reply.frame).flatten

theorem transcript_succ (count : Nat) :
    transcript (count + 1) = transcript count ++ Outgoing.reply.frame := by
  simp [transcript, List.replicate_succ', List.flatten_append]

theorem transcript_mono {count more : Nat} (h : count ≤ more) :
    transcript count <+: transcript more := by
  obtain ⟨extra, rfl⟩ := Nat.exists_eq_add_of_le h
  induction extra with
  | zero => exact List.prefix_refl _
  | succ extra ih =>
      rw [← Nat.add_assoc, transcript_succ]
      exact (ih (Nat.le_add_right _ _)).trans (List.prefix_append _ _)

theorem length_transcript (count : Nat) : (transcript count).length = 6 + 6 * count := by
  induction count with
  | zero => rfl
  | succ count ih =>
      rw [transcript_succ, List.length_append, ih, Outgoing.length_frame]
      omega

/-- The client has read no more than there is, and written no more than it may. -/
structure Truthful (link : Link) : Prop where
  taken : link.dialler.taken ≤ link.acceptor.written.length
  told : link.dialler.written <+: transcript link.requests.length

/-- Two states of a connection with the same bytes. -/
structure Alike (link later : Link) : Prop where
  written : later.dialler.written = link.dialler.written
  taken : later.dialler.taken = link.dialler.taken
  received : later.acceptor.written = link.acceptor.written
  ended : later.acceptor.finished = link.acceptor.finished

variable {link later : Link}

theorem alike_report (link : Link) : link.Alike (link.report .dialler) :=
  ⟨rfl, rfl, rfl, rfl⟩

theorem alike_leave (link : Link) : link.Alike (link.leave .dialler) := by
  unfold leave close
  split
  · exact ⟨rfl, rfl, rfl, rfl⟩
  · exact ⟨rfl, rfl, rfl, rfl⟩

theorem Alike.requests (h : link.Alike later) : later.requests = link.requests := by
  rw [Link.requests, h.received, Link.requests]

theorem Truthful.alike (hlink : link.Truthful) (h : link.Alike later) : later.Truthful where
  taken := by
    rw [h.taken, h.received]
    exact hlink.taken
  told := by
    rw [h.written, h.requests]
    exact hlink.told

/-- The peer's requests stay what they are while it goes on. -/
theorem requests_mono (h : link.acceptor.written <+: later.acceptor.written) :
    link.requests <+: later.requests :=
  Frame.series_mono _ _ h

theorem Truthful.beside (hlink : link.Truthful) (h : link.Beside .dialler later) :
    later.Truthful where
  taken := by
    have htaken : later.dialler.taken = link.dialler.taken := h.taken
    rw [htaken]
    exact Nat.le_trans hlink.taken h.grows.length_le
  told := by
    have hwritten : later.dialler.written = link.dialler.written := h.written
    rw [hwritten]
    exact hlink.told.trans (transcript_mono (requests_mono h.grows).length_le)

/-- The client's view of what it has read does not change. -/
theorem read_beside (hlink : link.Truthful) (h : link.Beside .dialler later) :
    later.read = link.read := by
  obtain ⟨more, hmore⟩ := h.grows
  have htaken : later.dialler.taken = link.dialler.taken := h.taken
  have hwritten : link.acceptor.written ++ more = later.acceptor.written := hmore
  rw [read, htaken, ← hwritten, List.take_append_of_le_length hlink.taken, read]

theorem truthful_new : Truthful {} :=
  ⟨Nat.le_refl 0, List.nil_prefix⟩

/-- Writing adds to the client's bytes and to nothing else. -/
theorem write_wrote {bytes : Bytes} {count : Nat}
    (h : link.write .dialler bytes = (.wrote count, later)) :
    later.dialler.written = link.dialler.written ++ bytes.take count ∧
      later.dialler.taken = link.dialler.taken ∧ later.acceptor = link.acceptor ∧
      link.dialler.fault = none ∧ link.dialler.broken = false ∧
      count = link.writable .dialler bytes.length := by
  obtain ⟨rfl, hfault, hopen, hcount⟩ := write_wrote_eq h
  exact ⟨rfl, rfl, rfl, hfault, hopen, hcount⟩

theorem write_failed {bytes : Bytes} {cause : IoCause}
    (h : link.write .dialler bytes = (.failed cause, later)) :
    link.Alike later ∧ (link.dialler.fault ≠ none ∨ link.dialler.broken = true ∨
      link.dialler.finished = true) := by
  rcases write_failed_cases h with ⟨hfault, rfl⟩ | ⟨hclosed, _, rfl⟩
  · have hsome : link.dialler.fault = some cause := hfault
    exact ⟨alike_report link, .inl (by simp [hsome])⟩
  · exact ⟨⟨rfl, rfl, rfl, rfl⟩, .inr hclosed⟩

/-- Taking the next bytes that are there goes on with what was read. -/
theorem read_take {unread : Bytes} (h : link.arrival .dialler = .bytes unread) (count : Nat) :
    (link.take .dialler count).read = link.read ++ unread.take count := by
  have hunread : link.acceptor.written.drop link.dialler.taken = unread := unread_of_arrival h
  have hread : (link.take .dialler count).read =
      link.acceptor.written.take (link.dialler.taken + count) := rfl
  rw [hread, List.take_add, hunread, read]

theorem Truthful.take (hlink : link.Truthful) {unread : Bytes} {count : Nat}
    (h : link.arrival .dialler = .bytes unread) (hcount : count ≤ unread.length) :
    (link.take .dialler count).Truthful where
  taken := by
    have hunread : link.acceptor.written.drop link.dialler.taken = unread := unread_of_arrival h
    have hlength := congrArg List.length hunread
    have htaken := hlink.taken
    rw [List.length_drop] at hlength
    show link.dialler.taken + count ≤ link.acceptor.written.length
    omega
  told := hlink.told

end Link

/-! ## Where the client stands in the record -/

open Link (transcript)

/-- What the bytes at the client's end say about the phase of its session: what is still to
be written completes the transcript of the requests that were read, and a reader stands
behind the last of them. -/
def ClientPhase.Recorded (link : Link) : ClientPhase → Prop
  | .identifying _ sending _ => ∃ payloads,
      Frame.series .fixed32 CnodeClient.maxRequestLength link.read = (payloads, []) ∧
        link.dialler.written ++ sending.rest = transcript payloads.length
  | .polling _ _ => ∃ payloads,
      Frame.series .fixed32 CnodeClient.maxRequestLength link.read = (payloads, []) ∧
        link.dialler.written = transcript payloads.length
  | .receiving _ reader => ∃ payloads,
      Frame.Midway .fixed32 CnodeClient.maxRequestLength link.read payloads reader ∧
        link.dialler.written = transcript payloads.length
  | .replying _ sending _ => ∃ payloads,
      Frame.series .fixed32 CnodeClient.maxRequestLength link.read = (payloads, []) ∧
        link.dialler.written ++ sending.rest = transcript payloads.length
  | _ => True

namespace ClientPhase

variable {link later : Link} {phase : ClientPhase}

theorem recorded_outgoing (message : Outgoing) (session : Session) (sending : Session.Sending)
    (deadline : Option Instant) :
    (message.phase session sending deadline).Recorded link ↔ ∃ payloads,
      Frame.series .fixed32 CnodeClient.maxRequestLength link.read = (payloads, []) ∧
        link.dialler.written ++ sending.rest = transcript payloads.length := by
  cases message <;> exact Iff.rfl

/-- The bytes of the client and those it has read are all that matters. -/
theorem Recorded.congr (h : phase.Recorded link) (hread : later.read = link.read)
    (hwritten : later.dialler.written = link.dialler.written) : phase.Recorded later := by
  cases phase <;> simp only [Recorded, hread, hwritten] <;> exact h

theorem Recorded.beside (h : phase.Recorded link) (hlink : link.Truthful)
    (hbeside : link.Beside .dialler later) : phase.Recorded later :=
  h.congr (Link.read_beside hlink hbeside) hbeside.written

/-- On a new connection the announcement is to be written. -/
theorem recorded_new {session : Session} {deadline : Option Instant}
    (hwritten : link.dialler.written = []) (htaken : link.dialler.taken = 0) :
    (Outgoing.identity.phase session ⟨6, Outgoing.identity.frame⟩ deadline).Recorded link := by
  have hread : link.read = [] := by
    rw [Link.read, htaken, List.take_zero]
  have hseries : Frame.series .fixed32 CnodeClient.maxRequestLength [] = ([], []) :=
    Frame.series_of_error rfl
  rw [recorded_outgoing]
  exact ⟨[], by rw [hread, hseries], by rw [hwritten]; rfl⟩

theorem Recorded.wrote {message : Outgoing} {session : Session} {sending : Session.Sending}
    {deadline : Option Instant} {count : Nat}
    (h : (message.phase session sending deadline).Recorded link)
    (hwrite : link.write .dialler sending.rest = (.wrote count, later)) :
    (message.phase session { sending with rest := sending.rest.drop count } deadline).Recorded
      later := by
  obtain ⟨hwritten, htaken, hacceptor, _⟩ := Link.write_wrote hwrite
  rw [recorded_outgoing] at h ⊢
  obtain ⟨payloads, hread, htranscript⟩ := h
  refine ⟨payloads, ?_, ?_⟩
  · rw [Link.read, htaken, hacceptor]
    exact hread
  · rw [hwritten, List.append_assoc, List.take_append_drop]
    exact htranscript

theorem Recorded.sent {message : Outgoing} {session counted : Session}
    {sending : Session.Sending} {deadline : Option Instant} {wake : Instant} {count : Nat}
    (h : (message.phase session sending deadline).Recorded link)
    (hwrite : link.write .dialler sending.rest = (.wrote count, later))
    (hall : sending.rest.length ≤ count) :
    (ClientPhase.polling counted wake).Recorded later := by
  have hwrote := h.wrote hwrite
  rw [recorded_outgoing] at hwrote
  obtain ⟨payloads, hread, htranscript⟩ := hwrote
  refine ⟨payloads, hread, ?_⟩
  rw [← htranscript, List.drop_of_length_le hall, List.append_nil]

theorem Recorded.readable {session : Session} {deadline : Instant}
    (h : (ClientPhase.polling session deadline).Recorded link) :
    (ClientPhase.receiving session
      (.start .fixed32 CnodeClient.maxRequestLength)).Recorded link := by
  obtain ⟨payloads, hread, hwritten⟩ := h
  exact ⟨payloads, Frame.midway_start hread, hwritten⟩

theorem Recorded.more {session : Session} {reader next : Frame.Reader} {unread : Bytes}
    (h : (ClientPhase.receiving session reader).Recorded link)
    (harrival : link.arrival .dialler = .bytes unread) (hfeed : reader.feed unread = .more next) :
    (ClientPhase.receiving session next).Recorded (link.take .dialler unread.length) := by
  obtain ⟨payloads, hmidway, hwritten⟩ := h
  refine ⟨payloads, ?_, hwritten⟩
  rw [Link.read_take harrival, List.take_length]
  exact hmidway.more hfeed

theorem Recorded.request {session counted : Session} {reader : Frame.Reader}
    {unread payload rest : Bytes} {deadline : Option Instant}
    (h : (ClientPhase.receiving session reader).Recorded link)
    (harrival : link.arrival .dialler = .bytes unread)
    (hfeed : reader.feed unread = .done (.ok payload) rest) :
    (Outgoing.reply.phase counted ⟨6, Outgoing.reply.frame⟩ deadline).Recorded
      (link.take .dialler (unread.length - rest.length)) := by
  obtain ⟨payloads, hmidway, hwritten⟩ := h
  obtain ⟨front, rfl, _⟩ := Frame.Reader.feed_taken hfeed
  have htaken : (front ++ rest).length - rest.length = front.length := by
    rw [List.length_append]
    omega
  rw [recorded_outgoing]
  refine ⟨payloads ++ [payload], ?_, ?_⟩
  · rw [htaken, Link.read_take harrival, List.take_left]
    exact hmidway.complete hfeed
  · show link.dialler.written ++ Outgoing.reply.frame = _
    rw [hwritten, List.length_append, List.length_singleton, Link.transcript_succ]

/-- Where the client stands in the record is what it may have written. -/
theorem Recorded.truthful {session : Session} (h : phase.Recorded link)
    (hsession : phase.session? = some session)
    (htaken : link.dialler.taken ≤ link.acceptor.written.length) : link.Truthful := by
  have hbegins : ∀ {payloads begun},
      Frame.series .fixed32 CnodeClient.maxRequestLength link.read = (payloads, begun) →
        transcript payloads.length <+: transcript link.requests.length := by
    intro payloads begun hread
    have hrequests := Frame.series_mono .fixed32 CnodeClient.maxRequestLength
      (List.take_prefix link.dialler.taken link.acceptor.written)
    rw [← Link.read, hread] at hrequests
    exact Link.transcript_mono hrequests.length_le
  refine ⟨htaken, ?_⟩
  cases phase with
  | starting => cases hsession
  | dialling dial => cases hsession
  | resting seconds wake => cases hsession
  | identifying session sending deadline =>
      obtain ⟨payloads, hread, hwritten⟩ := h
      exact (hwritten ▸ List.prefix_append _ _).trans (hbegins hread)
  | replying session sending deadline =>
      obtain ⟨payloads, hread, hwritten⟩ := h
      exact (hwritten ▸ List.prefix_append _ _).trans (hbegins hread)
  | polling session deadline =>
      obtain ⟨payloads, hread, hwritten⟩ := h
      rw [hwritten]
      exact hbegins hread
  | receiving session reader =>
      obtain ⟨payloads, ⟨begun, hread, _⟩, hwritten⟩ := h
      rw [hwritten]
      exact hbegins hread

/-- However much of a message is written, it was to be written. -/
theorem Recorded.truthful_wrote {message : Outgoing} {session : Session}
    {sending : Session.Sending} {deadline : Option Instant} {count : Nat}
    (h : (message.phase session sending deadline).Recorded link) (hlink : link.Truthful)
    (hwrite : link.write .dialler sending.rest = (.wrote count, later)) : later.Truthful := by
  refine (h.wrote hwrite).truthful (session?_outgoing _ _ _ _) ?_
  obtain ⟨_, htaken, hacceptor, _⟩ := Link.write_wrote hwrite
  rw [htaken, hacceptor]
  exact hlink.taken

end ClientPhase

namespace Scene

variable {scene later : Scene}

/-! ## The invariant of runs -/

/-- Every connection of the client is truthful, the one that it is about to get is untouched,
and that of its session is recorded by its phase. -/
structure Faithful (scene : Scene) : Prop where
  truthful : ∀ {link}, scene.Owns link → (scene.net.link link).Truthful
  dialled : ∀ {attempt link}, scene.client.dialled? = some attempt →
    scene.net.attempt attempt = .connected link →
      (scene.net.link link).dialler.written = [] ∧ (scene.net.link link).dialler.taken = 0
  recorded : ∀ {loop session}, scene.client.loop = some loop →
    loop.phase.session? = some session → loop.phase.Recorded (scene.net.link session.link)

theorem Faithful.recorded_outgoing (hscene : scene.Faithful) {backoff : Backoff}
    {message : Outgoing} {session : Session} {sending : Session.Sending}
    {deadline : Option Instant}
    (hloop : scene.client.loop = some ⟨backoff, message.phase session sending deadline⟩) :
    (message.phase session sending deadline).Recorded (scene.net.link session.link) :=
  hscene.recorded hloop (ClientPhase.session?_outgoing _ _ _ _)

theorem truthful_of_extends (hextends : scene.Extends later)
    (h : ∀ {link}, scene.Owns link → (later.net.link link).Truthful) {link : LinkId}
    (hlink : later.Owns link) : (later.net.link link).Truthful := by
  rcases hextends.owns hlink with hold | hadded
  · exact h hold
  · rw [hadded.unused]
    exact Link.truthful_new

/-- On the connection of its session a turn writes no more than it may. -/
theorem truthful_of_session_turn (hsound : scene.Sound) (hscene : scene.Faithful) {net : Net}
    {client : CnodeClient} (hturn : scene.client.Turn scene.now scene.net net client)
    {session : Session} (hsession : scene.client.session? = some session) :
    (net.link session.link).Truthful := by
  have howns := hsound.session hsession
  have htruthful := hscene.truthful howns
  have hchanged := hsound.link_changeLink hsession
  have houtgoing := @hscene.recorded_outgoing
  have hleave : ∀ {link : Link}, link.Truthful → (link.leave .dialler).Truthful := fun hlink =>
    hlink.alike (Link.alike_leave _)
  cases hturn with
  | quit => exact htruthful
  | @dial _ _ host port =>
      rw [(scene.net.dialled_seek host port).link (hsound.links howns)]
      exact htruthful
  | doze => exact htruthful
  | refused => exact htruthful
  | expired => exact htruthful
  | connected => exact htruthful
  | wrote hloop hwrite =>
      cases hsession.symm.trans (CnodeClient.session?_of_outgoing hloop)
      rw [hchanged]
      exact (houtgoing hloop).truthful_wrote htruthful hwrite
  | sent hloop hwrite =>
      cases hsession.symm.trans (CnodeClient.session?_of_outgoing hloop)
      rw [hchanged]
      exact (houtgoing hloop).truthful_wrote htruthful hwrite
  | parted hloop hwrite =>
      cases hsession.symm.trans (CnodeClient.session?_of_outgoing hloop)
      rw [hchanged]
      exact hleave ((houtgoing hloop).truthful_wrote htruthful hwrite)
  | unsent hloop hwrite =>
      cases hsession.symm.trans (CnodeClient.session?_of_outgoing hloop)
      rw [hchanged]
      exact hleave (htruthful.alike (Link.write_failed hwrite).1)
  | late hloop =>
      cases hsession.symm.trans (CnodeClient.session?_of_outgoing hloop)
      rw [hchanged]
      exact hleave htruthful
  | readable => exact htruthful
  | idle => exact htruthful
  | interrupted hloop =>
      cases hsession.symm.trans (CnodeClient.session?_of_loop hloop)
      rw [hchanged]
      exact htruthful.alike (Link.alike_report _)
  | dismissed hloop =>
      cases hsession.symm.trans (CnodeClient.session?_of_loop hloop)
      rw [hchanged]
      exact hleave htruthful
  | ended hloop hphase =>
      cases hsession.symm.trans (CnodeClient.session?_of_hearing hloop hphase)
      rw [hchanged]
      exact hleave htruthful
  | failed hloop hphase =>
      cases hsession.symm.trans (CnodeClient.session?_of_hearing hloop hphase)
      rw [hchanged]
      exact hleave (htruthful.alike (Link.alike_report _))
  | more hloop harrival =>
      cases hsession.symm.trans (CnodeClient.session?_of_loop hloop)
      rw [hchanged]
      exact htruthful.take harrival (Nat.le_refl _)
  | request hloop harrival =>
      cases hsession.symm.trans (CnodeClient.session?_of_loop hloop)
      rw [hchanged]
      exact htruthful.take harrival (Nat.sub_le _ _)
  | rejected hloop harrival =>
      cases hsession.symm.trans (CnodeClient.session?_of_loop hloop)
      rw [hchanged]
      exact hleave (htruthful.take harrival (Nat.sub_le _ _))

theorem truthful_of_turn (hsound : scene.Sound) (hscene : scene.Faithful) {net : Net}
    {client : CnodeClient} (hturn : scene.client.Turn scene.now scene.net net client)
    {link : LinkId} (hlink : scene.Owns link) : (net.link link).Truthful := by
  by_cases hcurrent : ∃ session, scene.client.session? = some session ∧ session.link = link
  · obtain ⟨session, hsession, rfl⟩ := hcurrent
    exact truthful_of_session_turn hsound hscene hturn hsession
  · rw [link_of_turn hturn (hsound.links hlink)
      (fun session hsession hsame => hcurrent ⟨session, hsession, hsame⟩)]
    exact hscene.truthful hlink

/-- After a turn the record of the session is where the client stands. -/
theorem recorded_of_turn (hsound : scene.Sound) (hscene : scene.Faithful) {net : Net}
    {client : CnodeClient} (hturn : scene.client.Turn scene.now scene.net net client)
    {loop : ClientLoop} {session : Session} (hloop : client.loop = some loop)
    (hsession : loop.phase.session? = some session) :
    loop.phase.Recorded (net.link session.link) := by
  have hnone : ∀ {before}, client = scene.client.retreat scene.now before →
      loop.phase.Recorded (net.link session.link) := by
    rintro before rfl
    have hretreat := CnodeClient.session?_retreat scene.client scene.now before
    rw [CnodeClient.session?_of_loop hloop, hsession] at hretreat
    cases hretreat
  have houtgoing := @hscene.recorded_outgoing
  cases hturn with
  | quit => cases hloop
  | dial =>
      cases hloop
      cases hsession
  | doze =>
      cases hloop
      cases hsession
  | refused => exact hnone rfl
  | expired => exact hnone rfl
  | connected hdial hattempt =>
      cases hloop
      cases hsession
      obtain ⟨hwritten, htaken⟩ :=
        hscene.dialled (CnodeClient.dialled?_of_loop hdial) hattempt
      exact ClientPhase.recorded_new hwritten htaken
  | wrote hbefore hwrite =>
      cases hloop
      rw [ClientPhase.session?_outgoing] at hsession
      cases hsession
      rw [hsound.link_changeLink (CnodeClient.session?_of_outgoing hbefore)]
      exact (houtgoing hbefore).wrote hwrite
  | @sent _ _ before _ _ _ _ hbefore hwrite hall =>
      cases hloop
      cases hsession
      show ClientPhase.Recorded (Net.link _ before.link) _
      rw [hsound.link_changeLink (CnodeClient.session?_of_outgoing hbefore)]
      exact (houtgoing hbefore).sent hwrite hall
  | parted => cases hloop
  | unsent => exact hnone rfl
  | late => exact hnone rfl
  | readable hbefore =>
      cases hloop
      cases hsession
      exact (hscene.recorded hbefore rfl).readable
  | idle hbefore =>
      cases hloop
      cases hsession
      have hrecorded := hscene.recorded hbefore rfl
      exact hrecorded
  | interrupted hbefore =>
      cases hloop
      cases hsession
      rw [hsound.link_changeLink (CnodeClient.session?_of_loop hbefore)]
      have hrecorded := hscene.recorded hbefore rfl
      exact hrecorded
  | dismissed => cases hloop
  | ended => exact hnone rfl
  | failed => exact hnone rfl
  | more hbefore harrival hfeed =>
      cases hloop
      cases hsession
      rw [hsound.link_changeLink (CnodeClient.session?_of_loop hbefore)]
      exact (hscene.recorded hbefore rfl).more harrival hfeed
  | @request _ before _ _ _ _ hbefore harrival hfeed =>
      cases hloop
      cases hsession
      show ClientPhase.Recorded (Net.link _ before.link) _
      rw [hsound.link_changeLink (CnodeClient.session?_of_loop hbefore)]
      exact (hscene.recorded hbefore rfl).request harrival hfeed
  | rejected => exact hnone rfl

theorem Faithful.turn (hsound : scene.Sound) (hscene : scene.Faithful) {net : Net}
    {client : CnodeClient} (hturn : scene.client.Turn scene.now scene.net net client) :
    (scene.after net client).Faithful where
  truthful := truthful_of_extends (extends_of_turn hsound hturn)
    (truthful_of_turn hsound hscene hturn)
  dialled := by
    intro attempt link hdialled hconnected
    change client.dialled? = some attempt at hdialled
    change net.attempt attempt = .connected link at hconnected
    obtain ⟨_, hnew⟩ := hturn.fresh_of_dialled hdialled hconnected
    change (net.link link).dialler.written = [] ∧ (net.link link).dialler.taken = 0
    rw [hnew]
    exact ⟨rfl, rfl⟩
  recorded := recorded_of_turn hsound hscene hturn

theorem Faithful.others (hsound : scene.Sound) (hscene : scene.Faithful) {net : Net}
    (h : scene.net.Foreign scene.holdings net) : Faithful { scene with net } where
  truthful := truthful_of_extends (extends_of_foreign hsound h) fun hlink =>
    (hscene.truthful hlink).beside (beside_of_foreign hsound h hlink)
  dialled := by
    intro attempt link hdialled hconnected
    have hmem := hsound.dialled hdialled
    rcases h.evolves.attempt hmem (hsound.attempts attempt hmem) with hsame | ⟨_, hanswers⟩
    · have hbefore := hsame.symm.trans hconnected
      have hbeside := beside_of_foreign hsound h ⟨attempt, hmem, hbefore⟩
      obtain ⟨hwritten, htaken⟩ := hscene.dialled hdialled hbefore
      exact ⟨hbeside.written.trans hwritten, hbeside.taken.trans htaken⟩
    · obtain ⟨rfl, _, hfresh⟩ := hanswers.links_of_connected hconnected
      change (net.link _).dialler.written = [] ∧ (net.link _).dialler.taken = 0
      rw [hfresh]
      exact ⟨rfl, rfl⟩
  recorded := by
    intro loop session hloop hsession
    have howns : scene.Owns session.link :=
      hsound.session ((CnodeClient.session?_of_loop hloop).trans hsession)
    exact (hscene.recorded hloop hsession).beside (hscene.truthful howns)
      (beside_of_foreign hsound h howns)

theorem Move.faithful (hsound : scene.Sound) (hscene : scene.Faithful) (h : scene.Move later) :
    later.Faithful := by
  rcases h.cases hsound with ⟨net, client, hturn, rfl⟩ | ⟨net, hforeign, rfl⟩ |
    ⟨now, _, _, _, rfl⟩ | ⟨_, _, _, rfl⟩ | ⟨_, rfl⟩ | rfl
  · exact hscene.turn hsound hturn
  · exact hscene.others hsound hforeign
  · exact ⟨hscene.truthful, hscene.dialled, hscene.recorded⟩
  · refine ⟨hscene.truthful, fun hdialled => (by cases hdialled), ?_⟩
    intro loop session hloop hsession
    cases hloop
    cases hsession
  · exact ⟨hscene.truthful, hscene.dialled, hscene.recorded⟩
  · exact hscene

theorem Reachable.faithful (h : scene.Reachable) : scene.Faithful := by
  induction h with
  | begin now net config _ =>
      constructor
      · rintro link ⟨attempt, hmem, _⟩
        cases hmem
      · intro attempt link hdialled
        cases hdialled
      · intro loop session hloop
        cases hloop
  | move hscene hmove _ ih => exact hmove.faithful (Reachable.sound hscene) ih

end Scene

end NodeHealth
