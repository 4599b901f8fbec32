import NodeHealth.Proofs.Mock.Ending

/-!
# Clients that have left

`Link.Left` is the server's connection with a client that has answered so many requests and
left, in whatever way and at whatever point. The server finds the end of the client's bytes or
a failure behind them, and neither its own steps nor what others do change which of the two it
is (`Link.Keeps`). `MockSession.Lingers` lists where the server can be with such a client.

-/

namespace NodeHealth

open MockSession (Passing frames question questions)

namespace Link

/-- The client writes no more, or the connection with it has failed. -/
def Abandoned (link : Link) : Prop :=
  link.dialler.finished = true ∨ link.acceptor.broken = true ∨ link.acceptor.fault ≠ none

/-- The client has answered so many requests and left, perhaps in the middle of a further
reply. -/
structure Left (link : Link) (count : Nat) : Prop where
  asked : questions count <+: link.acceptor.written
  answered : Passing count (frames link.dialler.written)
  sized : ∀ length, ¬link.Oversteps length
  gone : link.Abandoned

/-- Behind the bytes of the client the server finds a failure. -/
structure Fails (link : Link) (cause : IoCause) : Prop where
  unfinished : link.dialler.finished = false
  fault : link.acceptor.fault = some cause

/-- The connection has failed after the request behind so many was written. -/
structure Cut (link : Link) (count : Nat) (cause : IoCause) : Prop where
  asked : link.acceptor.written = questions (count + 1)
  fails : link.Fails cause

variable {link later : Link} {count : Nat}

/-! ## What the server finds -/

theorem heard_of_unread (h : link.unread .acceptor = []) : link.heard = link.dialler.written := by
  apply List.take_of_length_le
  exact List.drop_eq_nil_iff.mp h

theorem frames_heard (link : Link) : frames link.heard <+: frames link.dialler.written := by
  apply Frame.series_mono
  exact List.take_prefix _ _

/-- The frame that is completed next is one of the client's. -/
theorem Brings.frames_prefix {payload : Bytes} (h : link.Brings payload) :
    frames link.heard ++ [payload] <+: frames link.dialler.written := by
  obtain ⟨front, rest, harrival, hframes⟩ := h
  rw [← hframes]
  apply Frame.series_mono
  refine ⟨rest, ?_⟩
  rw [List.append_assoc, heard_append_unread harrival]

/-- Behind the bytes of a client that is gone the server finds an end or a failure. -/
theorem Abandoned.arrival (h : link.Abandoned) (hunread : link.unread .acceptor = []) :
    (link.arrival .acceptor = .ended ∧ ∀ cause, ¬link.Fails cause) ∨
      ∃ cause, link.arrival .acceptor = .failed cause ∧ link.Fails cause := by
  cases hfinished : link.dialler.finished with
  | true =>
      have hended : (link.endAt Side.acceptor.other).finished = true := hfinished
      refine .inl ⟨?_, fun cause hfails => ?_⟩
      · simp only [Link.arrival, hunread, hended, if_true]
      · cases hfinished.symm.trans hfails.unfinished
  | false =>
      have hopen : (link.endAt Side.acceptor.other).finished = false := hfinished
      cases hfault : link.acceptor.fault with
      | some cause =>
          have hfailed : (link.endAt .acceptor).fault = some cause := hfault
          refine .inr ⟨cause, ?_, hfinished, hfault⟩
          simp only [Link.arrival, hunread, hopen, hfailed, Bool.false_eq_true, if_false]
      | none =>
          have hwhole : (link.endAt .acceptor).fault = none := hfault
          have hbroken : (link.endAt .acceptor).broken = true := by
            rcases h with h | h | h
            · cases hfinished.symm.trans h
            · exact h
            · exact absurd hfault h
          refine .inl ⟨?_, fun cause hfails => ?_⟩
          · simp only [Link.arrival, hunread, hopen, hwhole, hbroken, Bool.false_eq_true, if_false,
              if_true]
          · cases hfault.symm.trans hfails.fault

theorem Abandoned.arrival_ne_nothing (h : link.Abandoned) :
    link.arrival .acceptor ≠ .nothing := by
  intro hnothing
  rcases h.arrival (arrival_nothing hnothing) with ⟨hended, _⟩ | ⟨cause, hfailed, _⟩
  · cases hnothing.symm.trans hended
  · cases hnothing.symm.trans hfailed

/-! ## What a connection with such a client keeps -/

/-- A client that has left stays away, and the connection has not failed since. -/
structure Keeps (count : Nat) (link later : Link) : Prop where
  left : later.Left count
  cut : ∀ cause, later.Cut count cause ↔ link.Cut count cause

theorem Left.keeps (h : link.Left count) : Keeps count link link :=
  ⟨h, fun _ => Iff.rfl⟩

theorem Keeps.trans {middle : Link} (h : Keeps count link middle) (h' : Keeps count middle later) :
    Keeps count link later :=
  ⟨h'.left, fun cause => (h'.cut cause).trans (h.cut cause)⟩

theorem Left.keeps_take (h : link.Left count) (taken : Nat) :
    Keeps count link (link.take .acceptor taken) := by
  constructor
  · exact ⟨h.asked, h.answered, h.sized, h.gone⟩
  · intro cause
    constructor
    · exact fun hcut => ⟨hcut.asked, hcut.fails.unfinished, hcut.fails.fault⟩
    · exact fun hcut => ⟨hcut.asked, hcut.fails.unfinished, hcut.fails.fault⟩

/-- A connection that can be written to has not failed. -/
theorem Left.keeps_wrote (h : link.Left count) {bytes : Bytes} {wrote : Nat}
    (hwrite : link.write .acceptor bytes = (.wrote wrote, later)) : Keeps count link later := by
  obtain ⟨rfl, hfault, hbroken, _⟩ := write_wrote_eq hwrite
  have hsound : link.acceptor.fault = none := hfault
  have hwhole : link.acceptor.broken = false := hbroken
  -- Of the ways in which the client can be gone only this one leaves a connection to write to.
  have hfinished : link.dialler.finished = true := by
    rcases h.gone with hgone | hgone | hgone
    · exact hgone
    · cases hwhole.symm.trans hgone
    · exact absurd hsound hgone
  constructor
  · exact ⟨h.asked.trans (List.prefix_append _ _), h.answered, h.sized, .inl hfinished⟩
  · intro cause
    constructor
    · exact fun hcut => by cases hfinished.symm.trans hcut.fails.unfinished
    · exact fun hcut => by cases hfinished.symm.trans hcut.fails.unfinished

/-- Whatever the client does once it has said that it writes no more, it stays away. -/
theorem Left.keeps_beside (h : link.Left count) (hfinished : link.dialler.finished = true)
    (hbeside : link.Beside .acceptor later) : Keeps count link later := by
  obtain ⟨hended, htold⟩ := hbeside.ended hfinished
  have hsame : later.dialler.written = link.dialler.written := htold
  have hwritten : later.acceptor.written = link.acceptor.written := hbeside.written
  have hstill : later.dialler.finished = true := hended
  constructor
  · refine ⟨?_, ?_, fun length hoversteps => h.sized length ?_, .inl hstill⟩
    · rw [hwritten]
      exact h.asked
    · rw [hsame]
      exact h.answered
    · rwa [Oversteps, hsame] at hoversteps
  · intro cause
    constructor
    · exact fun hcut => by cases hstill.symm.trans hcut.fails.unfinished
    · exact fun hcut => by cases hfinished.symm.trans hcut.fails.unfinished

theorem unread_wrote_acceptor {bytes : Bytes} {wrote : Nat}
    (h : link.write .acceptor bytes = (.wrote wrote, later)) :
    later.unread .acceptor = link.unread .acceptor := by
  obtain ⟨_, htaken, hdialler⟩ := told_wrote h
  change later.dialler.written.drop later.acceptor.taken = _
  rw [htaken, hdialler]
  rfl

/-- The frames of the client from the first reply on are right. -/
theorem Left.right_of_brings (h : link.Left count) {payload : Bytes} (hbrings : link.Brings payload)
    (hlater : frames link.heard ≠ []) : leadingNumber? payload = some 1 := by
  obtain ⟨identity, replies, hframes, _, _, hreplies⟩ := h.answered
  have hprefix := hbrings.frames_prefix
  rw [hframes] at hprefix
  cases hheard : frames link.heard with
  | nil => exact absurd hheard hlater
  | cons first others =>
      rw [hheard, List.cons_append, List.cons_prefix_cons] at hprefix
      apply hreplies
      apply hprefix.2.subset
      exact List.mem_append_right _ List.mem_cons_self

end Link

namespace MockSession

variable {count : Nat}

theorem Passing.length_eq {payloads : List Bytes} (h : Passing count payloads) :
    payloads.length = count + 1 := by
  obtain ⟨identity, replies, rfl, _, hlength, _⟩ := h
  rw [List.length_cons, hlength]

/-- Whoever has written so many requests, and less than one more, has not written more of
them. -/
theorem asked_le {done : Nat} {part : Bytes} (h : questions count <+: questions done ++ part)
    (hpart : part.length < 6) : count ≤ done := by
  have hlength := h.length_le
  rw [List.length_append, length_questions, length_questions] at hlength
  omega

theorem le_of_questions {done : Nat} (h : questions count <+: questions done) : count ≤ done := by
  have happend : questions count <+: questions done ++ [] := by rwa [List.append_nil]
  exact asked_le happend (by decide)

theorem part_lt {part rest : Bytes} (h : part ++ rest = question) (hrest : rest ≠ []) :
    part.length < 6 := by
  have hlength : part.length + rest.length = 6 := by
    rw [← List.length_append, h]
    rfl
  have hmore := List.length_pos_iff.mpr hrest
  omega

theorem questions_ne_succ (count : Nat) : questions count ≠ questions (count + 1) := by
  intro h
  have hlength := congrArg List.length h
  rw [length_questions, length_questions] at hlength
  omega

/-- A request that is being sent is not all written, and there is a deadline for it. -/
def Pending (phase : MockPhase) : Prop :=
  ∀ session sending deadline done,
    phase = .requesting session sending deadline done → sending.rest ≠ [] ∧ deadline ≠ none

theorem Has.sendDeadline {mock : MockSession} {link : LinkId} {session : Session}
    (h : mock.Has link session) (now : Instant) : session.sendDeadline now ≠ none := by
  rw [Session.sendDeadline, Session.Continues.sendTimeoutMs h]
  exact Option.some_ne_none _

theorem Turn.pending {now : Instant} {net : Net} {mock : MockSession}
    {result : Net × MockSession} (h : mock.Turn now net result) (hfits : mock.Fits)
    (hpending : Pending mock.phase) : Pending result.2.phase := by
  have hquestion : question ≠ [] := by decide
  intro session sending deadline done hphase
  cases h with
  | accepted => cases hphase
  | @more awaited => cases awaited <;> cases hphase
  | @right awaited visit _ _ _ payload _ hbefore =>
      have hhas : mock.Has visit.link (visit.countReceived payload) :=
        (hfits visit (by rw [session?, hbefore, Awaited.session?_phase])).heard payload
      rcases proceed_cases hhas.framing awaited.asked with ⟨_, heq⟩ | ⟨_, _, heq⟩ | ⟨_, _, heq⟩
      · rw [heq] at hphase
        cases hphase
      · rw [heq] at hphase
        cases hphase
      · rw [heq] at hphase
        cases hphase
        exact ⟨hquestion, hhas.sendDeadline now⟩
  | @resumed visit _ _ hbefore =>
      have hhas := hfits visit (by rw [session?, hbefore]; rfl)
      cases hphase
      exact ⟨hquestion, hhas.sendDeadline now⟩
  | wrote hbefore _ hpart =>
      cases hphase
      refine ⟨fun hnone => ?_, (hpending _ _ _ _ hbefore).2⟩
      exact Nat.not_le_of_lt hpart (List.drop_eq_nil_iff.mp hnone)
  | _ => cases hphase

/-- Where the server can be once its client has answered so many requests and left. -/
inductive Lingers (count : Nat) : MockPhase → Prop
  /-- It has not read the last reply yet. -/
  | replied {session : Session} {reader : Frame.Reader} {deadline : Instant} {done : Nat}
      (hlast : done + 1 = count) : Lingers count (.awaiting session reader deadline done)
  | pausing {session : Session} {wake : Instant} : Lingers count (.pausing session count wake)
  | requesting {session : Session} {sending : Session.Sending} {deadline : Option Instant}
      (hrest : sending.rest ≠ []) : Lingers count (.requesting session sending deadline count)
  | awaiting {session : Session} {reader : Frame.Reader} {deadline : Instant} :
      Lingers count (.awaiting session reader deadline count)
  | finished {result : Except MockError Nat} : Lingers count (.finished result)

theorem result?_of_step {now : Instant} {net : Net} {mock : MockSession}
    {result : Net × MockSession} (h : mock.step now net = some result) : mock.result? = none := by
  cases hresult : mock.result? with
  | none => rfl
  | some outcome =>
      rcases phase_cases_of_result hresult with ⟨_, hphase, _⟩ | ⟨_, hphase, _⟩ <;>
        simp [step, hphase] at h

/-- After a reply the session is over or the server pauses. -/
theorem proceed_reply {now : Instant} {net : Net} {mock : MockSession} {session : Session}
    (done : Nat) :
    mock.proceed now net session (done + 1) = mock.finish net session (.ok (done + 1)) ∨
      mock.proceed now net session (done + 1) =
        (net, mock.enter (.pausing session (done + 1) (now + mock.options.intervalMs))) := by
  by_cases hlimit : mock.options.limit ≤ done + 1
  · exact .inl (by simp only [proceed, if_pos hlimit])
  · exact .inr (by simp only [proceed, if_neg hlimit, if_pos (Nat.succ_pos done)])

/-- Unless the session is over, what comes after a frame changes nothing in the network yet. -/
theorem net_of_proceed {now : Instant} {net : Net} {mock : MockSession} {session : Session}
    {done : Nat} (hframing : session.framing = .fixed32)
    (hgoes : (mock.proceed now net session done).2.result? = none) :
    (mock.proceed now net session done).1 = net := by
  rcases proceed_cases hframing done with ⟨_, heq⟩ | ⟨_, _, heq⟩ | ⟨_, _, heq⟩
  · rw [heq] at hgoes
    cases hgoes
  · rw [heq]
  · rw [heq]

/-- A server that waits for a frame has found nothing. -/
theorem nothing_of_waits {now : Instant} {net : Net} {mock : MockSession} {awaited : Awaited}
    {session : Session} {reader : Frame.Reader} {deadline : Instant}
    (hphase : mock.phase = awaited.phase session reader deadline)
    (hside : session.side = .acceptor) (hwaits : mock.step now net = none) :
    (net.link session.link).arrival .acceptor = .nothing := by
  rw [step_awaited hphase] at hwaits
  simp only [Session.receive, hside] at hwaits
  cases harrival : (net.link session.link).arrival .acceptor with
  | nothing => rfl
  | ended => simp [harrival, Session.received] at hwaits
  | failed cause => simp [harrival, Session.received] at hwaits
  | bytes unread =>
      cases hfeed : reader.feed unread with
      | more next => simp [harrival, hfeed] at hwaits
      | done result rest => cases result <;> simp [harrival, hfeed, Session.received] at hwaits

/-- A server that waits until it can write has no room. -/
theorem full_of_waits {now : Instant} {net : Net} {mock : MockSession} {session : Session}
    {sending : Session.Sending} {wake : Instant} {done : Nat}
    (hphase : mock.phase = .requesting session sending (some wake) done)
    (hside : session.side = .acceptor) (hwaits : mock.step now net = none) :
    (net.link session.link).writable .acceptor sending.rest.length = 0 ∧ now < wake := by
  simp only [step, hphase, Session.deliver, hside] at hwaits
  cases hwrite : (net.link session.link).write .acceptor sending.rest with
  | mk delivery later =>
      rw [hwrite] at hwaits
      cases delivery with
      | failed cause => simp at hwaits
      | wrote count =>
          rw [← (Link.write_wrote_eq hwrite).2.2.2]
          by_cases hall : sending.rest.length ≤ count
          · simp [hall] at hwaits
          · by_cases hnone : count = 0
            · refine ⟨hnone, Nat.lt_of_not_le fun hwake => ?_⟩
              simp only [if_neg hall, if_pos hnone] at hwaits
              simp [hwake] at hwaits
            · simp [hall, hnone] at hwaits

/-- How many steps the server can still take once its client has answered so many requests and
left so many bytes unread. -/
def stepsLeft (count unread : Nat) : MockPhase → Nat
  -- Behind the last reply there are a pause and a request of six bytes, which may be written
  -- one by one, before the server listens for the last time.
  | .awaiting _ _ _ done => unread + 10 * (count - done) + 1
  | .pausing _ _ _ => unread + 9
  | .requesting _ sending _ _ => unread + sending.rest.length + 2
  | _ => 0

theorem Lingers.stepsLeft_pos {mock : MockSession} (h : Lingers count mock.phase)
    (hopen : mock.result? = none) (unread : Nat) : 0 < stepsLeft count unread mock.phase := by
  cases hphase : mock.phase with
  | accepting => rw [hphase] at h; cases h
  | identifying => rw [hphase] at h; cases h
  | finished => simp [result?, hphase] at hopen
  | turnedAway => simp [result?, hphase] at hopen
  | _ => exact Nat.succ_pos _

theorem Lingers.awaited {awaited : Awaited} {session : Session} {reader : Frame.Reader}
    {deadline : Instant} (h : Lingers count (awaited.phase session reader deadline)) :
    ∃ done, awaited = .reply done ∧ (done + 1 = count ∨ done = count) := by
  cases awaited with
  | identity => cases h
  | reply done =>
      refine ⟨done, rfl, ?_⟩
      cases h with
      | replied hlast => exact .inl hlast
      | awaiting => exact .inr rfl

end MockSession

end NodeHealth
