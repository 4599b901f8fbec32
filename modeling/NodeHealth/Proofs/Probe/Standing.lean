import NodeHealth.Proofs.Health.Prompt
import NodeHealth.Proofs.Probe.Turn

/-!
# Where the server stands with a probe

The connection of a probe waits in line, is taken, answered, and closed. Its two ends are in
the hands of the probe and of the server, so that what is on it is known exactly
(`Standing.link`), and from its being taken to its being closed no time passes. A connection
that is not closed at some instant, and was there before it, is held up by another that was
not over by then (`Service.Stands.heldUp`).

## Implementation notes

The connection is empty or holds the whole request, for the request is written in one go.
That the server does not give up on a connection that is still empty is a matter of time: it
would have to wait, and nobody waits while a probe has its request to write.

-/

namespace NodeHealth

/-- How far the server has come with the connection of a probe. -/
inductive Standing
  | waiting
  | reading
  | replying
  | served
  deriving DecidableEq

namespace Standing

/-- The end of the server. -/
def acceptor : Standing → End
  | waiting => {}
  | reading => {}
  | replying => { taken := Probe.request.length }
  | served =>
      { written := HealthServer.answer
        taken := Probe.request.length
        finished := true
        held := false }

/-- The connection of a probe that has written something. -/
def link (standing : Standing) (written : Bytes) : Link :=
  { dialler := { written }, acceptor := standing.acceptor }

/-- What the probe has written by then: all of the request or nothing, and all of it if the
server has read it. -/
def Allows (written : Bytes) : Standing → Prop
  | waiting => written = [] ∨ written = Probe.request
  | reading => written = [] ∨ written = Probe.request
  | replying => written = Probe.request
  | served => written = Probe.request

variable {standing : Standing} {written : Bytes}

theorem Allows.request (h : standing.Allows written) : standing.Allows Probe.request := by
  cases standing with
  | waiting => exact .inr rfl
  | reading => exact .inr rfl
  | replying => exact rfl
  | served => exact rfl

/-- As long as nothing is written the server has read nothing. -/
theorem Allows.early (h : standing.Allows []) : standing = waiting ∨ standing = reading := by
  cases standing with
  | waiting => exact .inl rfl
  | reading => exact .inr rfl
  | replying => cases h
  | served => cases h

/-- There is room for the request, and the server has not hung up. -/
theorem Allows.write (h : standing.Allows []) :
    (standing.link []).write .dialler Probe.request =
      (.wrote Probe.request.length, standing.link Probe.request) := by
  rcases h.early with rfl | rfl
  · rfl
  · rfl

theorem take_request :
    (reading.link Probe.request).take .acceptor Probe.request.length =
      replying.link Probe.request := rfl

/-- There is room for the answer, and the probe has not hung up. -/
theorem write_answer {delivery : Link.Delivery} {later : Link}
    (h : (replying.link Probe.request).write .acceptor HealthServer.answer = (delivery, later)) :
    delivery = .wrote HealthServer.answer.length ∧
      later.leave .acceptor = served.link Probe.request := by
  cases h
  exact ⟨rfl, rfl⟩

end Standing

/-- A request is understood, and nothing is left behind it. -/
theorem HealthServer.feed_request :
    reader.feed Probe.request = .done (.ok [0x0A, 0]) [] := rfl

/-- An answer is understood, and nothing is left behind it. -/
theorem Probe.feed_answer :
    (Frame.Reader.start .varint maxReplyLength).feed HealthServer.answer =
      .done (.ok [0x08, 1]) [] := rfl

/-- The answer says that the node serves. -/
theorem Probe.status_answer (elapsedMs : Nat) :
    (ProbeReport.mk (HealthResponse.statusNumber? [0x08, 1]) elapsedMs).status? =
      some .serving := rfl

/-- A connection that came at one instant was taken at another. -/
structure Visit.Began (visit : Visit) (link : LinkId) (arrived now : Instant) : Prop where
  link : visit.link = link
  arrived : visit.arrived = arrived
  begun : visit.begun = now

namespace Service

variable {scene : Service} {link : LinkId} {arrived : Instant} {written : Bytes}
  {standing : Standing}

/-! ## Who comes before whom -/

/-- The connections that were closed were taken before those in line. -/
theorem Sound.past_ahead (h : scene.Sound) {farewell : Farewell}
    (hfarewell : farewell ∈ scene.past) {guest : Guest} (hguest : guest ∈ scene.line) :
    farewell.link < guest.link := by
  have horder := h.order
  rw [guests, List.map_append, List.pairwise_append] at horder
  refine horder.2.2 farewell.link ?_ guest.link (List.mem_map_of_mem hguest)
  simp only [List.map_append, List.mem_append, List.map_map, List.mem_map, List.mem_reverse]
  exact .inl ⟨farewell, hfarewell, rfl⟩

theorem Sound.line_ahead (h : scene.Sound) {first guest : Guest} {line : List Guest}
    (hline : scene.line = first :: line) (hguest : guest ∈ line) : first.link < guest.link := by
  have horder := h.order
  rw [guests, List.map_append, List.pairwise_append, hline, List.map_cons,
    List.pairwise_cons] at horder
  exact horder.2.1.1 guest.link (List.mem_map_of_mem hguest)

/-- No connection was closed twice. -/
theorem Sound.past_inj (h : scene.Sound) {last : Farewell} {before : List Farewell}
    (hpast : scene.past = last :: before) {farewell : Farewell} (hfarewell : farewell ∈ scene.past)
    (hlink : farewell.link = last.link) : farewell = last := by
  have horder := h.order
  rw [guests, List.map_append, List.map_append, List.append_assoc, List.pairwise_append,
    hpast, List.reverse_cons, List.map_append, List.map_append, List.pairwise_append] at horder
  rw [hpast] at hfarewell
  rcases List.mem_cons.mp hfarewell with hsame | hbefore
  · exact hsame
  · refine absurd hlink (Nat.ne_of_lt (horder.1.2.2 farewell.link ?_ last.link (by simp)))
    simp only [List.map_map, List.mem_map, List.mem_reverse]
    exact ⟨farewell, hbefore, rfl⟩

theorem Sound.current_of_session (h : scene.Sound) {session : Session}
    (hsession : scene.server.session? = some session) :
    ∃ visit, scene.current = some visit ∧ visit.link = session.link := by
  obtain ⟨phase, hloop, _⟩ := h.loop
  rw [HealthServer.session?_of_loop hloop] at hsession
  obtain ⟨_, visit, hvisit, hlink, _⟩ := h.visiting hloop hsession
  exact ⟨visit, hvisit, hlink⟩

/-! ## The way of a connection -/

/-- Where the server stands with a connection that came at some instant. If it has taken the
connection, then at the present one. -/
inductive Stands (scene : Service) (link : LinkId) (arrived : Instant) : Standing → Prop
  | waiting {guest : Guest} (hguest : guest ∈ scene.line) (hlink : guest.link = link)
      (harrived : guest.arrived = arrived) : Stands scene link arrived .waiting
  | reading {visit : Visit} {deadline : Instant} (hvisit : scene.current = some visit)
      (hbegan : visit.Began link arrived scene.now)
      (hloop : scene.server.loop = some ⟨scene.listener,
        .reading (HealthServer.session link) HealthServer.reader deadline⟩)
      (hdeadline : scene.now < deadline) : Stands scene link arrived .reading
  | replying {visit : Visit} {session : Session} (hvisit : scene.current = some visit)
      (hbegan : visit.Began link arrived scene.now)
      (hloop : scene.server.loop = some ⟨scene.listener,
        HealthServer.answering session HealthServer.answer⟩) : Stands scene link arrived .replying
  | served {farewell : Farewell} (hfarewell : farewell ∈ scene.past)
      (hbegan : farewell.toVisit.Began link arrived scene.now) : Stands scene link arrived .served

/-- The server deals with the connection of a probe that has written something. -/
structure Deals (scene : Service) (link : LinkId) (arrived : Instant) (written : Bytes)
    (standing : Standing) : Prop where
  stands : scene.Stands link arrived standing
  allows : standing.Allows written
  link : scene.net.link link = standing.link written

theorem Stands.mem_guests (h : scene.Stands link arrived standing) :
    ∃ guest ∈ scene.guests, guest.link = link := by
  cases h with
  | waiting hguest hlink => exact ⟨_, Service.mem_guests.mpr (.inr (.inr hguest)), hlink⟩
  | reading hvisit hbegan =>
      exact ⟨_, Service.mem_guests.mpr (.inr (.inl ⟨_, hvisit, rfl⟩)), hbegan.link⟩
  | replying hvisit hbegan =>
      exact ⟨_, Service.mem_guests.mpr (.inr (.inl ⟨_, hvisit, rfl⟩)), hbegan.link⟩
  | served hfarewell hbegan =>
      exact ⟨_, Service.mem_guests.mpr (.inl ⟨_, hfarewell, rfl⟩), hbegan.link⟩

theorem Stands.exists_link (h : scene.Stands link arrived standing) (hsound : scene.Sound) :
    link < scene.net.links.length := by
  obtain ⟨guest, hguest, rfl⟩ := h.mem_guests
  exact (hsound.known guest hguest).1

/-- What others do leaves a connection where it stands. -/
theorem Stands.others (h : scene.Stands link arrived standing) (net : Net) :
    (scene.joined net).noted.Stands link arrived standing := by
  have hnoted : ∀ {visit : Visit}, visit.Began link arrived scene.now →
      Visit.Began { visit with toGuest := visit.toGuest.note scene.now net } link arrived
        scene.now := by
    intro visit hbegan
    exact ⟨(link_note _ _ _).trans hbegan.link, (arrived_note _ _ _).trans hbegan.arrived,
      hbegan.begun⟩
  cases h with
  | waiting hguest hlink harrived =>
      refine .waiting (List.mem_map_of_mem (List.mem_append_left _ hguest)) ?_ ?_
      · exact (link_note _ _ _).trans hlink
      · exact (arrived_note _ _ _).trans harrived
  | reading hvisit hbegan hloop hdeadline =>
      exact .reading (Option.map_eq_some_iff.mpr ⟨_, hvisit, rfl⟩) (hnoted hbegan) hloop hdeadline
  | replying hvisit hbegan hloop =>
      exact .replying (Option.map_eq_some_iff.mpr ⟨_, hvisit, rfl⟩) (hnoted hbegan) hloop
  | served hfarewell hbegan => exact .served hfarewell hbegan

/-- An attempt that leads to the listener leads to a connection that waits in line. -/
theorem Reachable.dialled (h : scene.Reachable) {target : SocketAddress}
    (hreaches : scene.net.Reaches target scene.listener) :
    (scene.net.dial target).2.attempt (scene.net.dial target).1 =
        .connected scene.net.links.length ∧
      (scene.joined (scene.net.dial target).2).noted.Deals scene.net.links.length scene.now []
        .waiting := by
  have hsound := h.sound
  obtain ⟨listener, hreceives, _⟩ := h.receives
  obtain ⟨hattempt, hmem⟩ := hreaches.dial hreceives.found hreceives.accepts
  refine ⟨hattempt, ?_⟩
  obtain ⟨⟨found, hfound, _, _, hqueue⟩, hjoined⟩ := joined_cases hsound (.dial target)
  rw [Net.queue_of_listener hfound, hqueue] at hmem
  rcases hjoined with hsame | ⟨hlinks, hsame⟩
  · rw [hsame] at hmem
    obtain ⟨guest, hguest, hlink⟩ := List.mem_map.mp hmem
    have hknown := (hsound.known guest (mem_guests.mpr (.inr (.inr hguest)))).1
    exact absurd hlink (Nat.ne_of_lt hknown)
  · have hguest : { link := scene.net.links.length, arrived := scene.now } ∈
        (scene.joined (scene.net.dial target).2).line := by
      rw [hsame]
      simp
    refine ⟨.waiting (List.mem_map_of_mem hguest) (link_note _ _ _) (arrived_note _ _ _),
      .inl rfl, ?_⟩
    change (scene.net.dial target).2.link scene.net.links.length = _
    simp [Net.link, hlinks, Standing.link, Standing.acceptor]

/-- What others do elsewhere changes nothing. -/
theorem Deals.others (h : scene.Deals link arrived written standing) {net : Net}
    (hnet : net.link link = scene.net.link link) :
    (scene.joined net).noted.Deals link arrived written standing :=
  ⟨h.stands.others net, h.allows, hnet.trans h.link⟩

/-- The request is written. -/
theorem Deals.asked (h : scene.Deals link arrived [] standing) {net : Net}
    (hnet : net.link link = standing.link Probe.request) :
    (scene.joined net).noted.Deals link arrived Probe.request standing :=
  ⟨h.stands.others net, h.allows.request, hnet⟩

/-- Time passes while a connection waits. -/
theorem Deals.wait (h : scene.Deals link arrived written .waiting) (now : Instant) :
    Deals { scene with now } link arrived written .waiting := by
  refine ⟨?_, h.allows, h.link⟩
  cases h.stands with
  | waiting hguest hlink harrived => exact .waiting hguest hlink harrived

/-! ## What the server does -/

/-- A turn of the server leaves the connections alone that are not at hand. -/
theorem Sound.elsewhere (h : scene.Sound) {net : Net} {server : HealthServer}
    (hturn : scene.server.Turn scene.now scene.net net server)
    (hother : ∀ visit, scene.current = some visit → visit.link ≠ link) :
    net.link link = scene.net.link link := by
  refine hturn.elsewhere (h.loop_after hturn) fun session hsession => ?_
  obtain ⟨visit, hvisit, hlink⟩ := h.current_of_session hsession
  rw [← hlink]
  exact hother visit hvisit

/-- A connection in line stays there or is taken. -/
theorem Deals.turn_waiting (h : scene.Deals link arrived written .waiting) (hsound : scene.Sound)
    (htimeout : 0 < scene.timeout) {net : Net} {server : HealthServer}
    (hturn : scene.server.Turn scene.now scene.net net server) :
    ∃ next, (scene.after net server).Deals link arrived written next := by
  cases h.stands with
  | @waiting guest hguest hlink harrived =>
      obtain ⟨hlistener, hnow⟩ := listener_after scene net server
      have hnet : (scene.after net server).net.link link = scene.net.link link := by
        rw [net_after]
        refine hsound.elsewhere hturn fun visit hvisit hsame => ?_
        exact (hsound.apart hvisit).1 guest hguest (hsame.trans hlink.symm)
      rcases hsound.stays_or_taken hturn hguest with hstays | ⟨hcurrent, hloop⟩
      · exact ⟨.waiting, .waiting hstays hlink harrived, h.allows, hnet.trans h.link⟩
      · rw [hlink, ← server_after scene net server, ← hlistener] at hloop
        refine ⟨.reading, .reading hcurrent ⟨hlink, harrived, hnow.symm⟩ hloop ?_, h.allows,
          hnet.trans h.link⟩
        rw [hnow]
        exact Nat.lt_add_of_pos_right htimeout

/-- What the server finds on a connection that it has taken. -/
inductive Reads (written : Bytes) : Link.Arrival → Prop
  | nothing : Reads written .nothing
  | request (hwritten : written = Probe.request) : Reads written (.bytes Probe.request)

theorem Deals.reads (h : scene.Deals link arrived written .reading) {arrival : Link.Arrival}
    (harrival : (scene.net.link link).arrival .acceptor = arrival) : Reads written arrival := by
  rw [h.link] at harrival
  rcases h.allows with rfl | rfl
  · cases harrival
    exact .nothing
  · cases harrival
    exact .request rfl

/-- The server waits for the request and reads it. -/
theorem Deals.turn_reading (h : scene.Deals link arrived written .reading) (hsound : scene.Sound)
    {net : Net} {server : HealthServer}
    (hturn : scene.server.Turn scene.now scene.net net server) :
    (scene.after net server).Deals link arrived written .replying := by
  have hlinks := h.stands.exists_link hsound
  cases h.stands with
  | @reading visit deadline hvisit hbegan hloop hdeadline =>
      cases hturn with
      | heard hphase harrival hfeed =>
          cases hloop.symm.trans hphase
          cases h.reads harrival with
          | request hwritten =>
              cases HealthServer.feed_request.symm.trans hfeed
              rw [after_attending hvisit rfl]
              refine ⟨.replying hvisit hbegan rfl, hwritten, ?_⟩
              change (scene.net.changeLink link _).link link = _
              rw [Net.link_changeLink _ _ _ hlinks, h.link, hwritten]
              exact Standing.take_request
      | more hphase harrival hfeed =>
          cases hloop.symm.trans hphase
          cases h.reads harrival with
          | request => cases HealthServer.feed_request.symm.trans hfeed
      | misheard hphase harrival hfeed =>
          cases hloop.symm.trans hphase
          cases h.reads harrival with
          | request => cases HealthServer.feed_request.symm.trans hfeed
      | ended hphase harrival =>
          cases hloop.symm.trans hphase
          cases h.reads harrival
      | failed hphase harrival =>
          cases hloop.symm.trans hphase
          cases h.reads harrival
      | expired hphase _ hover =>
          cases hloop.symm.trans hphase
          exact absurd hover (Nat.not_le_of_lt hdeadline)
      | opened hphase => cases hloop.symm.trans hphase
      | closed hphase => cases hloop.symm.trans hphase
      | dismissed hphase => cases hloop.symm.trans hphase
      | accepted hphase => cases hloop.symm.trans hphase
      | stumbled hphase => cases hloop.symm.trans hphase
      | barred hphase => cases hloop.symm.trans hphase
      | wrote hphase => cases hloop.symm.trans hphase
      | answered hphase => cases hloop.symm.trans hphase
      | retired hphase => cases hloop.symm.trans hphase

/-- The server answers at once and closes the connection. -/
theorem Deals.turn_replying (h : scene.Deals link arrived written .replying)
    (hsound : scene.Sound) {net : Net} {server : HealthServer}
    (hturn : scene.server.Turn scene.now scene.net net server) :
    (scene.after net server).Deals link arrived written .served := by
  have hlinks := h.stands.exists_link hsound
  have hrequest : written = Probe.request := h.allows
  have hlink := h.link
  rw [hrequest] at hlink
  cases h.stands with
  | @replying visit session hvisit hbegan hloop =>
      obtain ⟨_, _, hsame, hsession, _⟩ := hsound.visiting hloop rfl
      cases hvisit.symm.trans hsame
      have hsession : (session.holding HealthServer.answer).link = link :=
        hsession.symm.trans hbegan.link
      cases hturn with
      | answered hphase hwrite =>
          cases hloop.symm.trans hphase
          rw [hsession, hlink] at hwrite
          rw [hsession, after_closing hvisit rfl, hrequest]
          refine ⟨.served (List.mem_cons_self ..) hbegan, rfl, ?_⟩
          change (scene.net.changeLink link _).link link = _
          rw [Net.link_changeLink _ _ _ hlinks]
          exact (Standing.write_answer hwrite).2
      | wrote hphase hwrite _ hpart =>
          cases hloop.symm.trans hphase
          rw [hsession, hlink] at hwrite
          cases (Standing.write_answer hwrite).1
          exact absurd hpart (Nat.lt_irrefl _)
      | retired _ _ _ hstopped => cases hsound.running.symm.trans hstopped
      | opened hphase => cases hloop.symm.trans hphase
      | closed hphase => cases hloop.symm.trans hphase
      | dismissed hphase => cases hloop.symm.trans hphase
      | accepted hphase => cases hloop.symm.trans hphase
      | stumbled hphase => cases hloop.symm.trans hphase
      | barred hphase => cases hloop.symm.trans hphase
      | more hphase => cases hloop.symm.trans hphase
      | heard hphase => cases hloop.symm.trans hphase
      | misheard hphase => cases hloop.symm.trans hphase
      | ended hphase => cases hloop.symm.trans hphase
      | failed hphase => cases hloop.symm.trans hphase
      | expired hphase => cases hloop.symm.trans hphase

/-- A connection that was closed is left alone. -/
theorem Deals.turn_served (h : scene.Deals link arrived written .served) (hsound : scene.Sound)
    {net : Net} {server : HealthServer}
    (hturn : scene.server.Turn scene.now scene.net net server) :
    (scene.after net server).Deals link arrived written .served := by
  cases h.stands with
  | @served farewell hfarewell hbegan =>
      have hnet : (scene.after net server).net.link link = scene.net.link link := by
        rw [net_after]
        refine hsound.elsewhere hturn fun visit hvisit hsame => ?_
        exact (hsound.apart hvisit).2 farewell hfarewell (hsame.trans hbegan.link.symm)
      have hpast := (guests_after scene net server).2.subset hfarewell
      refine ⟨.served hpast ⟨hbegan.link, hbegan.arrived, ?_⟩, h.allows, hnet.trans h.link⟩
      exact hbegan.begun.trans (listener_after scene net server).2.symm

/-- What the server does is right for a probe. -/
theorem Deals.turn (h : scene.Deals link arrived written standing) (hsound : scene.Sound)
    (htimeout : 0 < scene.timeout) {net : Net} {server : HealthServer}
    (hturn : scene.server.Turn scene.now scene.net net server) :
    ∃ next, (scene.after net server).Deals link arrived written next := by
  cases standing with
  | waiting => exact h.turn_waiting hsound htimeout hturn
  | reading => exact ⟨.replying, h.turn_reading hsound hturn⟩
  | replying => exact ⟨.served, h.turn_replying hsound hturn⟩
  | served => exact ⟨.served, h.turn_served hsound hturn⟩

/-- Once the request is written the server does not wait with the connection at hand. -/
theorem Deals.waits (h : scene.Deals link arrived Probe.request standing) (hsound : scene.Sound)
    (hwaits : scene.Waits) : standing = .waiting ∨ standing = .served := by
  have hwhy := HealthServer.waits_of_step hsound.fits hwaits
  have hnet := h.link
  cases h.stands with
  | waiting => exact .inl rfl
  | served => exact .inr rfl
  | @reading visit deadline hvisit hbegan hloop =>
      cases hwhy with
      | reading hphase harrival =>
          cases hloop.symm.trans hphase
          cases (congrArg (·.arrival .acceptor) hnet).symm.trans harrival
      | idle hnone => cases hloop.symm.trans hnone
      | accepting hphase => cases hloop.symm.trans hphase
      | replying hphase => cases hloop.symm.trans hphase
  | @replying visit session hvisit hbegan hloop =>
      obtain ⟨_, _, hsame, hsession, _⟩ := hsound.visiting hloop rfl
      cases hvisit.symm.trans hsame
      cases hwhy with
      | replying hphase hwrite =>
          cases hloop.symm.trans hphase
          rw [← hsession, hbegan.link, hnet] at hwrite
          cases (Standing.write_answer hwrite).1
      | idle hnone => cases hloop.symm.trans hnone
      | accepting hphase => cases hloop.symm.trans hphase
      | reading hphase => cases hloop.symm.trans hphase

/-! ## Who holds a connection up -/

/-- All connections that came before one were over before an instant. -/
def Cleared (scene : Service) (link : LinkId) (limit : Instant) : Prop :=
  ∀ guest ∈ scene.guests, guest.link < link →
    ∃ farewell ∈ scene.past, farewell.link = guest.link ∧ farewell.ended < limit

/-- Somebody was closed only now. -/
theorem Sound.not_cleared_of_free (h : scene.Sound) (hfree : scene.free = scene.now)
    (hopened : scene.opened < scene.now)
    (hahead : ∀ farewell ∈ scene.past, farewell.link < link) :
    ¬scene.Cleared link scene.now := by
  intro hcleared
  cases hpast : scene.past with
  | nil =>
      rw [free, hpast] at hfree
      exact absurd hfree (Nat.ne_of_lt hopened)
  | cons last before =>
      have hlast : last ∈ scene.past := by simp [hpast]
      obtain ⟨farewell, hfarewell, hsame, hended⟩ := hcleared last.toGuest
        (mem_guests.mpr (.inl ⟨last, hlast, rfl⟩)) (hahead last hlast)
      cases h.past_inj hpast hfarewell hsame
      rw [free, hpast] at hfree
      exact absurd hfree (Nat.ne_of_lt hended)

/-- Somebody is not closed yet. -/
theorem not_cleared_of_pending {guest : Guest} {limit : Instant} (hguest : guest ∈ scene.guests)
    (hahead : guest.link < link) (hpast : ∀ farewell ∈ scene.past, farewell.link < guest.link) :
    ¬scene.Cleared link limit := by
  intro hcleared
  obtain ⟨farewell, hfarewell, hsame, _⟩ := hcleared guest hguest hahead
  exact absurd hsame (Nat.ne_of_lt (hpast farewell hfarewell))

theorem free_of_max {now arrived free : Nat} (hnow : now = max arrived free)
    (harrived : arrived < now) : free = now := by
  omega

/-- A connection that was not taken before now, though it was there, is taken now because
somebody is over now. -/
theorem Sound.not_cleared_of_turn (h : scene.Sound) {guest : Guest}
    (hnow : scene.now = max guest.arrived scene.free) (harrived : guest.arrived < scene.now)
    (hopened : scene.opened < scene.now)
    (hahead : ∀ farewell ∈ scene.past, farewell.link < link) :
    ¬scene.Cleared link scene.now := by
  exact h.not_cleared_of_free (free_of_max hnow harrived) hopened hahead

/-- A connection that was there before now and is not closed is held up by another one. -/
theorem Stands.heldUp (h : scene.Stands link arrived standing) (hstanding : standing ≠ .served)
    (hsound : scene.Sound) (hprompt : scene.Prompt) (harrived : arrived < scene.now)
    (hopened : scene.opened < scene.now) : ¬scene.Cleared link scene.now := by
  have hvisited : ∀ {visit : Visit}, scene.current = some visit →
      visit.Began link arrived scene.now → ¬scene.Cleared link scene.now := by
    intro visit hvisit hbegan
    have hbegun := hprompt.current visit hvisit
    refine hsound.not_cleared_of_turn (hbegan.begun ▸ hbegun) (hbegan.arrived ▸ harrived) hopened ?_
    intro farewell hfarewell
    rw [← hbegan.link]
    exact (hsound.ahead hvisit).1 farewell hfarewell
  cases h with
  | served => exact absurd rfl hstanding
  | reading hvisit hbegan => exact hvisited hvisit hbegan
  | replying hvisit hbegan => exact hvisited hvisit hbegan
  | @waiting guest hguest hlink hguestArrived =>
      have hpast : ∀ farewell ∈ scene.past, farewell.link < link := by
        intro farewell hfarewell
        rw [← hlink]
        exact hsound.past_ahead hfarewell hguest
      cases hcurrent : scene.current with
      | some visit =>
          obtain ⟨hbefore, hbehind⟩ := hsound.ahead hcurrent
          have hvisit : visit.toGuest ∈ scene.guests :=
            Service.mem_guests.mpr (.inr (.inl ⟨visit, hcurrent, rfl⟩))
          exact not_cleared_of_pending hvisit (hlink ▸ hbehind guest hguest) hbefore
      | none =>
          cases hline : scene.line with
          | nil => simp [hline] at hguest
          | cons first line =>
              have hnow := hprompt.line hcurrent first line hline
              rw [hline] at hguest
              rcases List.mem_cons.mp hguest with rfl | hbehind
              · exact hsound.not_cleared_of_turn hnow (hguestArrived ▸ harrived) hopened hpast
              · have hfirst : first ∈ scene.line := by simp [hline]
                have hahead : first.link < link := hlink ▸ hsound.line_ahead hline hbehind
                exact not_cleared_of_pending (Service.mem_guests.mpr (.inr (.inr hfirst))) hahead
                  fun farewell hfarewell => hsound.past_ahead hfarewell hfirst

end Service

end NodeHealth
