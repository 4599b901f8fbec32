import NodeHealth.Proofs.Mock.Absence

/-!
# What becomes of a session whose client leaves

Without a set number of requests a session ends when its client leaves.
`Interview.Deserted` is such a session after its client has answered so many requests and
left. `Interview.desertion_ends` says what becomes of it: after a bounded number of steps it
ends, and with that number of requests, unless the connection fails while the reply to a
further request is due.

## Implementation notes

A connection that fails is reported to whoever writes as a failure of the connection, and to
whoever reads as one of the protocol. `MockSession.resultOfFailure` takes the first for a
hang-up and the second for an error. `Link.Cut` is what decides between them, and it does not
depend on how far the server has come: a failure that the server has not noticed keeps it
from writing.

-/

namespace NodeHealth

open MockSession (Awaited HangUp Lingers Listens Pending Rests frames questions)

namespace Interview

/-- The client of a session without a set number of requests has answered so many of them and
left. -/
structure Deserted (scene : Interview) (link : LinkId) (count : Nat) : Prop where
  served : scene.link = some link
  endless : scene.mock.options.count = 0
  answered : 0 < count
  left : (scene.net.link link).Left count

variable {first scene later : Interview} {link : LinkId} {count steps : Nat} {net : Net}
  {mock : MockSession}

theorem Reachable.pending (h : scene.Reachable) : Pending scene.mock.phase := by
  induction h with
  | begin => exact nofun
  | move hscene hmove ih =>
      cases hmove with
      | step hstep =>
          have hfits := hscene.sound.fits
          exact (MockSession.turn_of_step hfits hstep).pending hfits ih
      | others => exact ih
      | wait => exact ih
      | serve => exact nofun

/-- The server has asked the client no less than it has answered, and read no more than it
has written. -/
theorem Deserted.lingers (h : scene.Deserted link count) (hscene : scene.Reachable) :
    Lingers count scene.mock.phase := by
  obtain ⟨_, hrecorded⟩ := hscene.recorded h.served
  have hasked := h.left.asked
  have hread := (Link.frames_heard (scene.net.link link)).length_le
  rw [h.left.answered.length_eq] at hread
  cases hphase : scene.mock.phase with
  | accepting =>
      rw [hphase] at hrecorded
      cases hrecorded
  | identifying session reader deadline =>
      rw [hphase] at hrecorded
      have hlistens : Listens scene.mock.options (scene.net.link link).heard
        (scene.net.link link).acceptor.written .identity reader := hrecorded
      rw [hlistens.written] at hasked
      have hnone : count ≤ 0 := MockSession.le_of_questions hasked
      exact absurd h.answered (Nat.not_lt_of_le hnone)
  | pausing session done wake =>
      rw [hphase] at hrecorded
      obtain ⟨hrests, hwritten⟩ := hrecorded
      rw [hwritten] at hasked
      have hle := MockSession.le_of_questions hasked
      rw [hrests.length_eq] at hread
      obtain rfl : done = count := by omega
      exact .pausing
  | requesting session sending deadline done =>
      rw [hphase] at hrecorded
      obtain ⟨hrests, part, hwritten, hrest⟩ := hrecorded
      have hmore := (hscene.pending _ _ _ _ hphase).1
      rw [hwritten] at hasked
      have hle := MockSession.asked_le hasked (MockSession.part_lt hrest hmore)
      rw [hrests.length_eq] at hread
      obtain rfl : done = count := by omega
      exact .requesting hmore
  | awaiting session reader deadline done =>
      rw [hphase] at hrecorded
      have hlistens : Listens scene.mock.options (scene.net.link link).heard
        (scene.net.link link).acceptor.written (.reply done) reader := hrecorded
      rw [hlistens.written] at hasked
      have hle : count ≤ done + 1 := MockSession.le_of_questions hasked
      rw [hlistens.length_eq, show (Awaited.reply done).asked = done + 1 from rfl] at hread
      rcases Nat.eq_or_lt_of_le hle with hlast | hlt
      · exact .replied hlast.symm
      · obtain rfl : done = count := by omega
        exact .awaiting
  | finished result => exact .finished
  | turnedAway failure =>
      rw [hphase] at hrecorded
      exact hrecorded.elim

/-- A server whose client has left does not wait for its first client. -/
theorem Deserted.session_of_step (h : scene.Deserted link count) (hscene : scene.Reachable)
    (hstep : scene.mock.step scene.now scene.net = some (net, mock)) :
    ∃ session, scene.mock.session? = some session ∧
      scene.mock.Advances session.link scene.net (net, mock) := by
  have hlingers := h.lingers hscene
  rcases MockSession.step_cases hstep with ⟨hphase, _⟩ | ⟨hphase, _⟩ | hadvances
  · rw [hphase] at hlingers
    cases hlingers
  · rw [hphase] at hlingers
    cases hlingers
  · exact hadvances

/-! ## What the session ends with -/

/-- What a session whose client has left ends with, where `first` is an interview since then
and `scene` is the last one: the connection has failed while the reply to a further request was
due, or a client that has not let go of the connection leaves no room for the next request. In
all other cases it is the number of requests that were answered. -/
inductive Concludes (first scene : Interview) (link : LinkId) (count : Nat) :
    Except MockError Nat → Prop
  | passed (hcut : ∀ cause, ¬(first.net.link link).Cut count cause) :
      Concludes first scene link count (.ok count)
  | cut {cause : IoCause} (hcut : (first.net.link link).Cut count cause) :
      Concludes first scene link count (.error (.connection (.protocol (.io (.ofSystem cause)))))
  | full {wake : Instant} (hcut : ∀ cause, ¬(first.net.link link).Cut count cause)
      (hfull : (scene.net.link link).writable .acceptor 1 = 0)
      (hwake : scene.mock.wake? = some wake) (hnow : wake ≤ scene.now) :
      Concludes first scene link count (.error (.connection .timeout))

/-- A client that has hung up was free to do so. -/
theorem Deserted.hangUp (h : scene.Deserted link count) {error : ConnectionError}
    (herror : error = .closed ∨ ∃ failure, error = .io failure) :
    MockSession.resultOfFailure scene.mock.options count error = .ok count := by
  have hfree : HangUp scene.mock.options count error := ⟨h.endless, h.answered, herror⟩
  rcases MockSession.resultOfFailure_cases scene.mock.options count error with
    ⟨_, heq⟩ | ⟨hearly, _⟩
  · exact heq
  · exact absurd hfree hearly

/-- A server that waits for a frame waits for the last reply or for a further one. -/
theorem Deserted.listens (h : scene.Deserted link count) (hscene : scene.Reachable)
    {awaited : Awaited} {session : Session} {reader : Frame.Reader} {deadline : Instant}
    (hphase : scene.mock.phase = awaited.phase session reader deadline) :
    ∃ done, awaited = .reply done ∧ (done + 1 = count ∨ done = count) ∧
      Listens scene.mock.options (scene.net.link link).heard
        (scene.net.link link).acceptor.written (.reply done) reader := by
  have hlingers := h.lingers hscene
  rw [hphase] at hlingers
  obtain ⟨done, rfl, hdone⟩ := hlingers.awaited
  exact ⟨done, rfl, hdone, (hscene.recorded h.served).listens hphase⟩

/-- A frame that is completed is the last reply. -/
theorem Deserted.completes (h : scene.Deserted link count) (hscene : scene.Reachable)
    {awaited : Awaited} {session : Session} {reader : Frame.Reader} {deadline : Instant}
    {unread payload rest : Bytes}
    (hphase : scene.mock.phase = awaited.phase session reader deadline)
    (harrival : (scene.net.link link).arrival .acceptor = .bytes unread)
    (hfeed : reader.feed unread = .done (.ok payload) rest) :
    ∃ done, awaited = .reply done ∧ done + 1 = count ∧ leadingNumber? payload = some 1 ∧
      (scene.net.link link).acceptor.written = questions count := by
  obtain ⟨done, rfl, hdone, hlistens⟩ := h.listens hscene hphase
  have hbrings := brings_of_done hlistens harrival hfeed
  have hread : (frames (scene.net.link link).heard).length = done + 1 := hlistens.length_eq
  have hle := hbrings.frames_prefix.length_le
  rw [List.length_append, hread, h.left.answered.length_eq, List.length_singleton] at hle
  obtain rfl : done + 1 = count := by omega
  refine ⟨done, rfl, rfl, h.left.right_of_brings hbrings fun hnone => ?_, hlistens.written⟩
  rw [hnone] at hread
  cases hread

/-- If there is nothing left to read, the server waits for a further reply. -/
theorem Deserted.awaits_further (h : scene.Deserted link count) (hscene : scene.Reachable)
    {awaited : Awaited} {session : Session} {reader : Frame.Reader} {deadline : Instant}
    (hphase : scene.mock.phase = awaited.phase session reader deadline)
    (hunread : (scene.net.link link).unread .acceptor = []) :
    awaited = .reply count ∧ (scene.net.link link).acceptor.written = questions (count + 1) := by
  obtain ⟨done, rfl, _, hlistens⟩ := h.listens hscene hphase
  have hread : (frames (scene.net.link link).heard).length = done + 1 := hlistens.length_eq
  rw [Link.heard_of_unread hunread, h.left.answered.length_eq] at hread
  obtain rfl : done = count := by omega
  exact ⟨rfl, hlistens.written⟩

/-- A request that is being sent is not the one that is cut off. -/
theorem Deserted.uncut_of_requesting (h : scene.Deserted link count) (hscene : scene.Reachable)
    {session : Session} {sending : Session.Sending} {deadline : Option Instant} {done : Nat}
    (hphase : scene.mock.phase = .requesting session sending deadline done) :
    done = count ∧ ∀ cause, ¬(scene.net.link link).Cut count cause := by
  obtain ⟨_, part, hwritten, hrest⟩ := (hscene.recorded h.served).rests hphase
  have hlingers := h.lingers hscene
  rw [hphase] at hlingers
  cases hlingers with
  | requesting hmore =>
      refine ⟨rfl, fun cause hcut => ?_⟩
      have hsame : questions count ++ part = questions (count + 1) :=
        hwritten.symm.trans hcut.asked
      have hasked : questions (count + 1) <+: questions count ++ part :=
        hsame ▸ List.prefix_refl _
      exact absurd (MockSession.asked_le hasked (MockSession.part_lt hrest hmore))
        (Nat.not_succ_le_self count)

theorem Deserted.concludes (h : scene.Deserted link count) (hscene : scene.Reachable)
    {result : Net × MockSession} {outcome : Except MockError Nat} {session : Session}
    (hsession : scene.mock.session? = some session)
    (hturn : scene.mock.Turn scene.now scene.net result)
    (hresult : result.2.phase = .finished outcome) :
    scene.Concludes scene link count outcome := by
  obtain rfl : session.link = link :=
    Option.some.inj ((hscene.sound.session session hsession).symm.trans h.served)
  cases hturn with
  | accepted => cases hresult
  | turnedAway => cases hresult
  | @more awaited => cases awaited <;> cases hresult
  | right hphase harrival hfeed =>
      cases MockSession.session_of_awaited hphase hsession
      obtain ⟨done, rfl, rfl, _, hwritten⟩ := h.completes hscene hphase harrival hfeed
      rcases MockSession.proceed_reply done with heq | heq
      · rw [show (Awaited.reply done).asked = done + 1 from rfl, heq] at hresult
        cases hresult
        refine .passed fun cause hcut => ?_
        exact MockSession.questions_ne_succ _ (hwritten.symm.trans hcut.asked)
      · rw [show (Awaited.reply done).asked = done + 1 from rfl, heq] at hresult
        cases hresult
  | wrong hphase harrival hfeed hnumber =>
      cases MockSession.session_of_awaited hphase hsession
      obtain ⟨done, rfl, _, hright, _⟩ := h.completes hscene hphase harrival hfeed
      exact absurd hright hnumber
  | refused hphase harrival hfeed =>
      cases MockSession.session_of_awaited hphase hsession
      obtain ⟨done, rfl, _, hlistens⟩ := h.listens hscene hphase
      obtain ⟨_, _, hmidway⟩ := hlistens.midway
      obtain ⟨declared, body, hbehind, hlength, hlimit, _⟩ := hmidway.declares hfeed
      rw [Link.heard_append_unread harrival] at hbehind
      exact absurd ⟨declared, body, hbehind, hlength, hlimit, rfl⟩ (h.left.sized _)
  | ended hphase harrival =>
      cases MockSession.session_of_awaited hphase hsession
      cases hresult
      have hunread := (Link.arrival_ended harrival).1
      obtain ⟨rfl, _⟩ := h.awaits_further hscene hphase hunread
      rw [show (Awaited.reply count).done = count from rfl, h.hangUp (.inl rfl)]
      -- An end behind the client's bytes and a failure exclude each other.
      rcases h.left.gone.arrival hunread with ⟨_, hwhole⟩ | ⟨cause, hfailed, _⟩
      · exact .passed fun cause hcut => hwhole cause hcut.fails
      · cases harrival.symm.trans hfailed
  | failed hphase harrival =>
      cases MockSession.session_of_awaited hphase hsession
      cases hresult
      have hunread := (Link.arrival_failed harrival).1
      obtain ⟨rfl, hwritten⟩ := h.awaits_further hscene hphase hunread
      rw [MockSession.resultOfFailure_protocol]
      rcases h.left.gone.arrival hunread with ⟨hended, _⟩ | ⟨found, hfailed, hfails⟩
      · cases harrival.symm.trans hended
      · cases harrival.symm.trans hfailed
        exact .cut ⟨hwritten, hfails⟩
  | late hphase harrival =>
      cases MockSession.session_of_awaited hphase hsession
      exact absurd harrival h.left.gone.arrival_ne_nothing
  | resumed => cases hresult
  | wrote => cases hresult
  | sent => cases hresult
  | unsent hphase =>
      cases hresult
      obtain ⟨rfl, hcut⟩ := h.uncut_of_requesting hscene hphase
      rw [ConnectionError.ofCause, h.hangUp (.inr ⟨_, rfl⟩)]
      exact .passed hcut
  | stuck hphase hdeadline hpart hfull =>
      cases MockSession.session_of_requesting hphase hsession
      cases hresult
      rw [MockSession.resultOfFailure_timeout]
      exact .full (h.uncut_of_requesting hscene hphase).2
        (Link.writable_one_of_none hpart hfull) (by simp only [MockSession.wake?, hphase]) hdeadline

/-! ## What follows -/

/-- How many steps the server can still take after its client has left. -/
def stepsLeft (scene : Interview) (link : LinkId) (count : Nat) : Nat :=
  MockSession.stepsLeft count ((scene.net.link link).unread .acceptor).length scene.mock.phase

/-- While the session goes on, no step of the server ends the desertion. -/
theorem Deserted.keeps (h : scene.Deserted link count) (hscene : scene.Reachable)
    {result : Net × MockSession} {session : Session}
    (hsession : scene.mock.session? = some session)
    (hturn : scene.mock.Turn scene.now scene.net result) (hgoes : result.2.result? = none) :
    Link.Keeps count (scene.net.link link) (result.1.link link) := by
  have hsound := hscene.sound
  have hexists := (hsound.link link h.served).1
  obtain rfl : session.link = link :=
    Option.some.inj ((hsound.session session hsession).symm.trans h.served)
  cases hturn with
  | accepted hphase => simp [MockSession.session?, MockPhase.session?, hphase] at hsession
  | more hphase =>
      cases MockSession.session_of_awaited hphase hsession
      rw [Net.link_changeLink _ _ _ hexists]
      exact h.left.keeps_take _
  | @right _ _ _ _ _ payload _ hphase =>
      cases MockSession.session_of_awaited hphase hsession
      have hframing : (session.countReceived payload).framing = .fixed32 :=
        (hsound.fits session hsession).framing
      rw [MockSession.net_of_proceed hframing hgoes, Net.link_changeLink _ _ _ hexists]
      exact h.left.keeps_take _
  | resumed => exact h.left.keeps
  | wrote hphase hwrite =>
      cases MockSession.session_of_requesting hphase hsession
      rw [Net.link_changeLink _ _ _ hexists]
      exact h.left.keeps_wrote hwrite
  | sent hphase hwrite =>
      cases MockSession.session_of_requesting hphase hsession
      rw [Net.link_changeLink _ _ _ hexists]
      exact h.left.keeps_wrote hwrite
  | _ => cases hgoes

/-- With each step of the server there are fewer to come. -/
theorem Deserted.stepsLeft_lt (h : scene.Deserted link count) (hscene : scene.Reachable)
    {result : Net × MockSession} {session : Session} (hopen : scene.mock.result? = none)
    (hsession : scene.mock.session? = some session)
    (hturn : scene.mock.Turn scene.now scene.net result) :
    (scene.after result.1 result.2).stepsLeft link count < scene.stepsLeft link count := by
  have hsound := hscene.sound
  have hlingers := h.lingers hscene
  have hexists := (hsound.link link h.served).1
  obtain rfl : session.link = link :=
    Option.some.inj ((hsound.session session hsession).symm.trans h.served)
  have hpos := hlingers.stepsLeft_pos hopen ((scene.net.link session.link).unread .acceptor).length
  have hchange := fun change => Net.link_changeLink scene.net session.link change hexists
  cases hturn with
  | accepted hphase => simp [MockSession.session?, MockPhase.session?, hphase] at hsession
  | more hphase harrival =>
      cases MockSession.session_of_awaited hphase hsession
      obtain ⟨done, rfl, _⟩ := h.listens hscene hphase
      have hunread := Link.unread_of_arrival harrival
      have hsome := List.length_pos_iff.mpr (Link.arrival_bytes harrival)
      simp only [stepsLeft, after, hchange, Link.unread_take, hunread, hphase]
      simp only [MockSession.enter, Awaited.phase, MockSession.stepsLeft, List.drop_length,
        List.length_nil]
      omega
  | right hphase harrival hfeed =>
      cases MockSession.session_of_awaited hphase hsession
      obtain ⟨done, rfl, rfl, _⟩ := h.completes hscene hphase harrival hfeed
      rcases MockSession.proceed_reply done with heq | heq
      · rw [show (Awaited.reply done).asked = done + 1 from rfl, heq]
        exact hpos
      · rw [show (Awaited.reply done).asked = done + 1 from rfl, heq]
        simp only [stepsLeft, after, hchange, Link.unread_take, hphase]
        simp only [MockSession.enter, Awaited.phase, MockSession.stepsLeft, List.length_drop]
        omega
  | resumed hphase =>
      simp only [stepsLeft, after, hphase]
      simp only [MockSession.enter, MockSession.stepsLeft,
        show MockSession.question.length = 6 from rfl]
      omega
  | wrote hphase hwrite hpart hcount =>
      cases MockSession.session_of_requesting hphase hsession
      simp only [stepsLeft, after, hchange, Link.unread_wrote_acceptor hwrite, hphase]
      simp only [MockSession.enter, MockSession.stepsLeft, List.length_drop]
      omega
  | sent hphase hwrite =>
      cases MockSession.session_of_requesting hphase hsession
      rw [hphase] at hlingers
      cases hlingers with
      | requesting hmore =>
          simp only [stepsLeft, after, hchange, Link.unread_wrote_acceptor hwrite, hphase]
          simp only [MockSession.enter, MockSession.stepsLeft, Nat.sub_self]
          omega
  | _ => exact hpos

/-- Each step of the server is one of those that it has left. Unless it is the last one, the
connection is deserted as before. -/
theorem Deserted.step (h : scene.Deserted link count) (hscene : scene.Reachable)
    (hstep : scene.mock.step scene.now scene.net = some (net, mock)) :
    (mock.result? = none → (scene.after net mock).Deserted link count ∧
        Link.Keeps count (scene.net.link link) (net.link link)) ∧
      (scene.after net mock).stepsLeft link count < scene.stepsLeft link count := by
  have hsound := hscene.sound
  have hturn := MockSession.turn_of_step hsound.fits hstep
  obtain ⟨session, hsession, hadvances⟩ := h.session_of_step hscene hstep
  refine ⟨fun hgoes => ?_, ?_⟩
  · have hkeeps := h.keeps hscene hsession hturn hgoes
    have hserved := (hsound.advanced hsession (hturn.fits hsound.fits) hadvances).2
    refine ⟨⟨?_, ?_, h.answered, hkeeps.left⟩, hkeeps⟩
    · rw [hserved, ← hsound.session session hsession, h.served]
    · rw [show (scene.after net mock).mock.options = mock.options from rfl,
        hadvances.options, h.endless]
  · exact h.stepsLeft_lt hscene (MockSession.result?_of_step hstep) hsession hturn

/-- What others spare in the network from then on: what the server holds, as before, and the
client's end of the connection as well, unless the client has only said that it writes no
more. -/
def spared (scene : Interview) (link : LinkId) : Net.Holdings where
  ends := fun id side => scene.holdings.ends id side ∨
    id = link ∧ (scene.net.link link).dialler.finished = false
  attempts := scene.holdings.attempts
  listeners := scene.holdings.listeners

/-- What follows after a client has left, with the number of steps that the server has taken
since then. -/
inductive Aftermath (link : LinkId) (first : Interview) : Nat → Interview → Prop
  | begin : Aftermath link first 0 first
  | step {steps : Nat} {scene : Interview} {net : Net} {mock : MockSession}
      (h : Aftermath link first steps scene)
      (hstep : scene.mock.step scene.now scene.net = some (net, mock)) :
      Aftermath link first (steps + 1) (scene.after net mock)
  | others {steps : Nat} {scene : Interview} {net : Net} (h : Aftermath link first steps scene)
      (hforeign : scene.net.Foreign (scene.spared link) net) :
      Aftermath link first steps { scene with net }
  | wait {steps : Nat} {scene : Interview} {now : Instant} (h : Aftermath link first steps scene)
      (hwaits : scene.mock.step scene.now scene.net = none) (hnow : scene.now ≤ now)
      (hwake : ∀ wake, scene.mock.wake? = some wake → now ≤ wake) :
      Aftermath link first steps { scene with now }

/-- What the server waits for after its client has left: the time of the next request, or room
for it. -/
inductive Waits (scene : Interview) (link : LinkId) (count : Nat) : Prop
  | pausing {session : Session} {wake : Instant}
      (hphase : scene.mock.phase = .pausing session count wake) (hnow : scene.now < wake)
  | full {wake : Instant} (hfull : (scene.net.link link).writable .acceptor 1 = 0)
      (hwake : scene.mock.wake? = some wake) (hnow : scene.now < wake)

theorem Aftermath.reachable (hfirst : first.Reachable) (h : first.Aftermath link steps scene) :
    scene.Reachable := by
  induction h with
  | begin => exact hfirst
  | step _ hstep ih => exact .move ih (.step hstep)
  | others _ hforeign ih => exact .move ih (.others (hforeign.mono Or.inl id id))
  | wait _ hwaits hnow hwake ih => exact .move ih (.wait hwaits hnow hwake)

/-- Others leave the connection deserted, and what was left unread. -/
theorem Deserted.others (h : scene.Deserted link count) (hscene : scene.Reachable)
    (hforeign : scene.net.Foreign (scene.spared link) net) :
    Link.Keeps count (scene.net.link link) (net.link link) ∧
      (net.link link).unread .acceptor = (scene.net.link link).unread .acceptor := by
  have hexists := (hscene.sound.link link h.served).1
  have hmine : (scene.spared link).ends link .acceptor := .inl ⟨rfl, .inr h.served⟩
  -- A client that has only said that it writes no more still reads, and may yet abort. In all
  -- other cases nobody else acts on the connection.
  cases hfinished : (scene.net.link link).dialler.finished with
  | true =>
      have hbeside := hforeign.evolves.beside hmine hexists
      have htold : (net.link link).dialler.written = (scene.net.link link).dialler.written :=
        (hbeside.ended hfinished).2
      have htaken : (net.link link).acceptor.taken = (scene.net.link link).acceptor.taken :=
        hbeside.taken
      refine ⟨h.left.keeps_beside hfinished hbeside, ?_⟩
      change (net.link link).dialler.written.drop (net.link link).acceptor.taken = _
      rw [htold, htaken]
      rfl
  | false =>
      have hnobody : ∀ side, ¬¬(scene.spared link).ends link side := by
        intro side
        cases side with
        | dialler => exact not_not_intro (.inr ⟨rfl, hfinished⟩)
        | acceptor => exact not_not_intro hmine
      rw [(hforeign.acts hexists).eq hnobody]
      exact ⟨h.left.keeps, rfl⟩

theorem stepsLeft_of_result {outcome : Except ServeError Nat}
    (h : scene.mock.result? = some outcome) : scene.stepsLeft link count = 0 := by
  rcases MockSession.phase_cases_of_result h with ⟨_, hphase, _⟩ | ⟨_, hphase, _⟩ <;>
    rw [stepsLeft, hphase] <;> rfl

/-- While the session goes on, its client stays away and whether it was cut off stays as it
was. The steps that the server has taken are among those that it had left. -/
theorem Aftermath.follows (hfirst : first.Reachable) (hdeserted : first.Deserted link count)
    (h : first.Aftermath link steps scene) :
    (scene.mock.result? = none → scene.Deserted link count ∧
        Link.Keeps count (first.net.link link) (scene.net.link link)) ∧
      steps + scene.stepsLeft link count ≤ first.stepsLeft link count := by
  induction h with
  | begin => exact ⟨fun _ => ⟨hdeserted, hdeserted.left.keeps⟩, Nat.le_of_eq (Nat.zero_add _)⟩
  | @step steps scene net mock h hstep ih =>
      obtain ⟨hbefore, hkept⟩ := ih.1 (MockSession.result?_of_step hstep)
      obtain ⟨hthere, hless⟩ := hbefore.step (h.reachable hfirst) hstep
      refine ⟨fun hgoes => ?_, ?_⟩
      · obtain ⟨hlater, hkeeps⟩ := hthere hgoes
        exact ⟨hlater, hkept.trans hkeeps⟩
      · have hsteps := ih.2
        omega
  | @others steps scene net h hforeign ih =>
      cases hresult : scene.mock.result? with
      | none =>
          obtain ⟨hbefore, hkept⟩ := ih.1 hresult
          obtain ⟨hkeeps, hunread⟩ := hbefore.others (h.reachable hfirst) hforeign
          refine ⟨fun _ => ⟨⟨hbefore.served, hbefore.endless, hbefore.answered, hkeeps.left⟩,
            hkept.trans hkeeps⟩, ?_⟩
          simp only [stepsLeft, hunread]
          exact ih.2
      | some outcome =>
          -- Nothing is known of the connection any more, and nothing is needed.
          have hover : ({ scene with net } : Interview).stepsLeft link count = 0 :=
            stepsLeft_of_result hresult
          refine ⟨fun hgoes => ?_, ?_⟩
          · cases hgoes
          · rw [hover]
            exact Nat.le_trans (Nat.le_add_right _ _) ih.2
  | wait _ _ _ _ ih =>
      refine ⟨fun hgoes => ?_, ih.2⟩
      obtain ⟨⟨hserved, hendless, hanswered, hleft⟩, hkept⟩ := ih.1 hgoes
      exact ⟨⟨hserved, hendless, hanswered, hleft⟩, hkept⟩

/-- The server reads what the client has written, a part of it, or nothing but the end of it. -/
theorem Deserted.stepsLeft_le (h : scene.Deserted link count) (hscene : scene.Reachable) :
    scene.stepsLeft link count ≤ ((scene.net.link link).unread .acceptor).length + 11 := by
  have hlingers := h.lingers hscene
  rw [stepsLeft]
  cases hphase : scene.mock.phase with
  | accepting => exact Nat.zero_le _
  | identifying => exact Nat.zero_le _
  | pausing => exact Nat.add_le_add_left (by decide) _
  | requesting session sending deadline done =>
      obtain ⟨_, part, _, hrest⟩ := (hscene.recorded h.served).rests hphase
      have hlength := congrArg List.length hrest
      rw [List.length_append, show MockSession.question.length = 6 from rfl] at hlength
      simp only [MockSession.stepsLeft]
      omega
  | awaiting =>
      rw [hphase] at hlingers
      simp only [MockSession.stepsLeft]
      cases hlingers <;> omega
  | finished => exact Nat.zero_le _
  | turnedAway => exact Nat.zero_le _

/-- The server does not wait for a client that is gone. -/
theorem Deserted.waits (h : scene.Deserted link count) (hscene : scene.Reachable)
    (hopen : scene.mock.result? = none)
    (hwaits : scene.mock.step scene.now scene.net = none) : scene.Waits link count := by
  have hsound := hscene.sound
  have hlingers := h.lingers hscene
  have hmine : ∀ {session}, scene.mock.session? = some session →
      session.link = link ∧ session.side = .acceptor := by
    intro session hsession
    have hserved := hsound.session session hsession
    exact ⟨Option.some.inj (hserved.symm.trans h.served), (hsound.fits session hsession).side⟩
  cases hphase : scene.mock.phase with
  | accepting =>
      rw [hphase] at hlingers
      cases hlingers
  | identifying =>
      rw [hphase] at hlingers
      cases hlingers
  | pausing session done wake =>
      rw [hphase] at hlingers
      cases hlingers with
      | pausing =>
          have hnow : ¬wake ≤ scene.now := by
            intro hwake
            simp [MockSession.step, hphase, hwake] at hwaits
          exact .pausing hphase (Nat.lt_of_not_le hnow)
  | requesting session sending deadline done =>
      obtain ⟨rfl, hside⟩ := hmine (by rw [MockSession.session?, hphase]; rfl)
      obtain ⟨hrest, hdeadline⟩ := hscene.pending _ _ _ _ hphase
      obtain ⟨wake, rfl⟩ := Option.ne_none_iff_exists'.mp hdeadline
      obtain ⟨hfull, hnow⟩ := MockSession.full_of_waits hphase hside hwaits
      refine .full (Link.writable_one_of_none (List.length_pos_iff.mpr hrest) hfull) ?_ hnow
      simp only [MockSession.wake?, hphase]
  | awaiting session reader deadline done =>
      obtain ⟨rfl, hside⟩ := hmine (by rw [MockSession.session?, hphase]; rfl)
      have hawaited : scene.mock.phase = (Awaited.reply done).phase session reader deadline :=
        hphase
      have harrival := MockSession.nothing_of_waits hawaited hside hwaits
      exact absurd harrival h.left.gone.arrival_ne_nothing
  | finished => simp [MockSession.result?, hphase] at hopen
  | turnedAway => simp [MockSession.result?, hphase] at hopen

/-- A client has answered so many requests of a session without a set number of them, and left,
in whatever way. Then the session ends after a bounded number of steps, and the server waits
for nothing but the time of the next request or room for it. The session ends with the number
of requests that were answered, except that it fails if the connection has failed while the
reply to a further request was due, or if there is no room for the request until its
deadline. -/
theorem desertion_ends (hfirst : first.Reachable) (hdeserted : first.Deserted link count)
    (h : first.Aftermath link steps scene) :
    steps ≤ ((first.net.link link).unread .acceptor).length + 11 ∧
      (scene.mock.result? = none → scene.mock.step scene.now scene.net = none →
        scene.Waits link count) ∧
      ∀ outcome, scene.Returns outcome → first.Concludes scene link count outcome := by
  have hscene := h.reachable hfirst
  obtain ⟨hgoes, hsteps⟩ := h.follows hfirst hdeserted
  have hbound := hdeserted.stepsLeft_le hfirst
  refine ⟨by omega, fun hopen hwaits => (hgoes hopen).1.waits hscene hopen hwaits, ?_⟩
  rintro outcome ⟨net, mock, hstep, hresult⟩
  have hopen : scene.mock.result? = none := MockSession.result?_of_step hstep
  obtain ⟨hthere, hkept⟩ := hgoes hopen
  have hturn := MockSession.turn_of_step hscene.sound.fits hstep
  obtain ⟨session, hsession, _⟩ := hthere.session_of_step hscene hstep
  cases hthere.concludes hscene hsession hturn hresult with
  | passed hcut => exact .passed fun cause hbefore => hcut cause ((hkept.cut cause).mpr hbefore)
  | cut hcut => exact .cut ((hkept.cut _).mp hcut)
  | full hcut hfull hwake hnow =>
      refine .full (fun cause hbefore => ?_) hfull hwake hnow
      exact hcut cause ((hkept.cut cause).mpr hbefore)

/-- A server that pauses behind the only request so far. -/
def pausedOnce : Interview where
  now := 0
  net :=
    { links :=
        [{ dialler := { written := [2, 0, 0, 0, 8, 13, 2, 0, 0, 0, 8, 1] }
           acceptor := { written := MockSession.question, taken := 12 } }]
      listeners := [{ address := ⟨.loopback, 4000⟩ }] }
  mock :=
    { listener := 0
      options := { intervalMs := 1, count := 0, timeoutMs := 1 }
      phase := .pausing
        { link := 0, side := .acceptor, framing := .fixed32
          limit := CnodeClient.maxRequestLength, sendTimeoutMs := some 1
          writeBuffer := MockSession.question
          stats := { framesSent := 1, framesReceived := 2, bytesSent := 6, bytesReceived := 4 } }
        1 1 }
  link := some 0

theorem reachable_pausedOnce : Reachable pausedOnce := by
  have hbegin : Reachable _ :=
    @Reachable.begin 0 {} _ ⟨.loopback, 4000⟩ _ rfl { intervalMs := 1, count := 0, timeoutMs := 1 }
  have hconnect : Reachable _ := .move hbegin (.others (.act (.connect 0) trivial))
  have haccept : Reachable _ := .move hconnect (.step rfl)
  have hannounce : Reachable _ := .move haccept
    (.others (.act (.write 0 .dialler [2, 0, 0, 0, 8, 13]) (fun h => by cases h.1)))
  have hgreet : Reachable _ := .move hannounce (.step rfl)
  have hask : Reachable _ := .move hgreet (.step rfl)
  have hreply : Reachable _ := .move hask
    (.others (.act (.write 0 .dialler [2, 0, 0, 0, 8, 1]) (fun h => by cases h.1)))
  exact .move hreply (.step rfl)

/-- A client that has written nothing since then and has left has answered one request. -/
theorem deserted_of_pausedOnce (hserved : scene.link = some 0)
    (hendless : scene.mock.options.count = 0)
    (htold : (scene.net.link 0).dialler.written = (pausedOnce.net.link 0).heard)
    (hasked : questions 1 <+: (scene.net.link 0).acceptor.written)
    (hgone : (scene.net.link 0).Abandoned) : scene.Deserted 0 1 := by
  have hpaused : pausedOnce.link = some 0 := rfl
  have hrecorded := (reachable_pausedOnce.recorded hpaused).phase
  obtain ⟨⟨⟨payloads, hpassing, hseries⟩, _⟩, _⟩ := hrecorded
  refine ⟨hserved, hendless, Nat.one_pos, hasked, ?_, ?_, hgone⟩
  · rwa [htold, frames, hseries]
  · rintro length ⟨declared, body, hbehind, hlength, _⟩
    rw [htold, hseries] at hbehind
    obtain ⟨rfl, _⟩ := List.append_eq_nil_iff.mp hbehind.symm
    cases hlength

/-- The client aborts the connection in the pause. -/
def abortedOnce : Interview :=
  { pausedOnce with net := pausedOnce.net.apply (.abort 0 .dialler) }

/-- A client that aborts the connection between two requests has hung up. -/
theorem desertion_ends_between_requests : ∃ first scene : Interview,
    first.Reachable ∧ first.Deserted 0 1 ∧ first.Aftermath 0 1 scene ∧ scene.Returns (.ok 1) ∧
      first.Concludes scene 0 1 (.ok 1) := by
  have hfirst : abortedOnce.Reachable :=
    .move reachable_pausedOnce (.others (.act (.abort 0 .dialler) (fun h => by cases h.1)))
  have hdeserted : abortedOnce.Deserted 0 1 :=
    deserted_of_pausedOnce rfl rfl rfl (List.prefix_refl _) (.inr (.inl rfl))
  have hwait : Aftermath 0 abortedOnce 0 { abortedOnce with now := 1 } :=
    .wait .begin rfl (Nat.zero_le _) (fun _ h => by cases h; exact Nat.le_refl _)
  have hafter : Aftermath 0 abortedOnce 1 _ := .step hwait rfl
  exact ⟨abortedOnce, _, hfirst, hdeserted, hafter, ⟨_, _, rfl, rfl⟩,
    (desertion_ends hfirst hdeserted hafter).2.2 _ ⟨_, _, rfl, rfl⟩⟩

/-- The same abort is an error while the server waits for the next reply. -/
theorem desertion_fails_during_reply : ∃ first : Interview,
    first.Reachable ∧ first.Deserted 0 1 ∧ first.Returns
      (.error (.connection (.protocol (.io (.ofSystem .connectionReset))))) := by
  have hwait : Reachable { pausedOnce with now := 1 } := .move reachable_pausedOnce
    (.wait rfl (Nat.zero_le _) (fun _ h => by cases h; exact Nat.le_refl _))
  have hask : Reachable _ := .move hwait (.step rfl)
  have hlisten : Reachable _ := .move hask (.step rfl)
  have habort : Reachable _ := .move hlisten
    (.others (.act (.abort 0 .dialler) (fun h => by cases h.1)))
  exact ⟨_, habort, deserted_of_pausedOnce rfl rfl rfl (List.prefix_append _ _)
    (.inr (.inl rfl)), _, _, rfl, rfl⟩

end Interview

end NodeHealth
