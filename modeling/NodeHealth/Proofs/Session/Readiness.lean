import NodeHealth.Proofs.Session.Transparency

/-!
# What a wait answers, and when

While a session waits until there is something to receive, what it would find is a function of
the script (`ScriptedRun.found?`): nothing is taken, so whatever has been found at some time is
found at any later time. A wait therefore answers at the first instant at which something is
found, and answers that; if nothing is found in time, it answers that at its deadline.

`ScriptedRun.waits_transparent` puts this together with what waiting changes for the receives:
nothing.

-/

namespace NodeHealth

/-- What has been found is found still after more has been done at the other end. -/
theorem Link.Lively.found?_performAll {link : Link} {side : Side} (h : link.Lively side)
    (deeds : List Deed) {found : Except ConnectionError Readiness}
    (hfound : (link.arrival side).found? = some found) :
    ((link.performAll side.other deeds).arrival side).found? = some found := by
  rw [arrival_eq] at hfound ⊢
  cases hunread : link.unread side with
  | cons byte rest =>
      obtain ⟨more, hmore⟩ := h.unread_performAll deeds
      rw [← hmore, hunread]
      rw [hunread] at hfound
      exact hfound
  | nil =>
      have hending : link.ending side ≠ .pending := by
        intro hpending
        rw [hunread, hpending] at hfound
        cases hfound
      obtain ⟨hsame, hsame'⟩ := h.performAll_of_ending deeds hending
      rw [hsame, hsame']
      exact hfound

theorem Link.performAll_append (link : Link) (side : Side) (front back : List Deed) :
    link.performAll side (front ++ back) = (link.performAll side front).performAll side back :=
  List.foldl_append

namespace ScriptedRun

variable {start begun run later : ScriptedRun} {deadline time answered : Instant} {timeout : Nat}
  {result found : Except ConnectionError Readiness}

/-! ## What is found -/

/-- The connection once the deeds that are due by some time have been done. -/
def linkAt (run : ScriptedRun) (time : Instant) : Link :=
  run.link.performAll run.session.side.other
    ((run.script.takeWhile (·.1 ≤ time)).map Prod.snd)

/-- What is found at some time if nothing is taken until then. -/
def found? (run : ScriptedRun) (time : Instant) : Option (Except ConnectionError Readiness) :=
  ((run.linkAt time).arrival run.session.side).found?

/-- What is due by some time is due by any later time. -/
theorem takeWhile_due_prefix {time later : Instant} (h : time ≤ later)
    (script : List (Instant × Deed)) :
    script.takeWhile (·.1 ≤ time) <+: script.takeWhile (·.1 ≤ later) := by
  induction script with
  | nil => exact List.prefix_refl _
  | cons entry script ih =>
      by_cases hdue : entry.1 ≤ time
      · have hlater := Nat.le_trans hdue h
        simp only [List.takeWhile_cons, decide_eq_true hdue, decide_eq_true hlater]
        exact (List.prefix_cons_inj entry).mpr ih
      · simp only [List.takeWhile_cons, decide_eq_false hdue]
        exact List.nil_prefix

theorem linkAt_later (run : ScriptedRun) {time later : Instant} (h : time ≤ later) :
    ∃ deeds, run.linkAt later =
      (run.linkAt time).performAll run.session.side.other deeds := by
  obtain ⟨more, hmore⟩ := takeWhile_due_prefix h run.script
  refine ⟨more.map Prod.snd, ?_⟩
  rw [linkAt, ← hmore, List.map_append, Link.performAll_append]
  rfl

/-- What is found at some time is found at any later time. -/
theorem Orderly.found?_later (h : run.Orderly) {time later : Instant} (hle : time ≤ later)
    (hfound : run.found? time = some found) : run.found? later = some found := by
  obtain ⟨deeds, hlater⟩ := run.linkAt_later hle
  rw [found?, hlater]
  exact (h.lively.performAll _).found?_performAll deeds hfound

/-! ## While a session waits -/

/-- How a wait that has been begun goes on until it is answered: nothing changes but the time
and what the other end does. -/
structure Lurks (start : ScriptedRun) (deadline : Instant) (run : ScriptedRun) : Prop where
  call : run.call = some (.waitReadable deadline)
  session : run.session = start.session
  answers : run.answers = start.answers
  since : start.now ≤ run.now
  within : run.now ≤ deadline
  script : ∃ done, start.script = done ++ run.script ∧
    (∀ entry ∈ done, entry.1 ≤ run.now) ∧
      run.link = start.link.performAll start.session.side.other (done.map Prod.snd)
  silent : ∀ time, start.now ≤ time → time < run.now → start.found? time = none

/-- What a wait answers, and when. It answers in time, not before something is found, and then
what is found; nothing but its deadline makes it answer that it found nothing. So whatever is
found at any time before the deadline is the answer. -/
structure Timely (start : ScriptedRun) (timeout : Nat) (answered : Instant)
    (result : Except ConnectionError Readiness) : Prop where
  since : start.now ≤ answered
  within : answered ≤ start.now + timeout
  silent : ∀ time, start.now ≤ time → time < answered → start.found? time = none
  answer : start.found? answered = some result ∨
    result = .ok .idle ∧ answered = start.now + timeout
  prompt : ∀ time found, start.now ≤ time → time < start.now + timeout →
    start.found? time = some found → result = found

/-- From now on what is found is what the rest of the script brings. -/
theorem Lurks.linkAt (h : Lurks start deadline run) (htime : run.now ≤ time) :
    start.linkAt time = run.linkAt time := by
  obtain ⟨done, hscript, hdone, hlink⟩ := h.script
  have hall : ∀ entry ∈ done, decide (entry.1 ≤ time) = true := fun entry hmem =>
    decide_eq_true (Nat.le_trans (hdone entry hmem) htime)
  rw [ScriptedRun.linkAt, ScriptedRun.linkAt, hscript, List.takeWhile_append_of_pos hall,
    List.map_append, Link.performAll_append, ← hlink, h.session]

theorem Lurks.found?_now (h : Lurks start deadline run) (horderly : run.Orderly)
    (hfound : (run.link.arrival run.session.side).found? = some found) :
    start.found? run.now = some found := by
  rw [found?, h.linkAt (Nat.le_refl _), ← h.session]
  exact horderly.lively.found?_performAll _ hfound

/-- An answer that is found at last, or given at the deadline, is timely. -/
theorem Lurks.timely (h : Lurks start (start.now + timeout) run) (horderly : start.Orderly)
    (hanswer : start.found? run.now = some result ∨
      result = .ok .idle ∧ run.now = start.now + timeout) :
    Timely start timeout run.now result where
  since := h.since
  within := h.within
  silent := h.silent
  answer := hanswer
  prompt := by
    intro time found hsince hwithin hfound
    have hlate : run.now ≤ time := by
      by_contra hearly
      rw [h.silent time hsince (Nat.lt_of_not_le hearly)] at hfound
      cases hfound
    rcases hanswer with hresult | ⟨_, hdeadline⟩
    · have hlater := horderly.found?_later hlate hresult
      exact Option.some.inj (hlater.symm.trans hfound)
    · exact absurd (hdeadline ▸ hlate) (Nat.not_le_of_lt hwithin)

/-- A change while a session waits: it waits on, or the wait is answered in time. -/
theorem Lurks.effect (h : Lurks start (start.now + timeout) run) (hstart : start.Orderly)
    (horderly : run.Orderly) (heffect : run.Effect later) :
    Lurks start (start.now + timeout) later ∨
      ∃ result, later.answers = start.answers ++ [.readiness result] ∧
        Timely start timeout run.now result := by
  have hwaiting := h.call
  cases heffect with
  | receive hcall _ => cases hcall.symm.trans hwaiting
  | waitReadable hcall _ => cases hcall.symm.trans hwaiting
  | hear hcall => cases hcall.symm.trans hwaiting
  | heard hcall => cases hcall.symm.trans hwaiting
  | found _ hfound =>
      exact .inr ⟨_, by rw [h.answers], h.timely hstart (.inl (h.found?_now horderly hfound))⟩
  | @failed _ cause _ hfailed =>
      have hfound : (run.link.arrival run.session.side).found? =
          some (.error (.ofCause cause)) := by
        rw [hfailed]
        rfl
      exact .inr ⟨_, by rw [h.answers], h.timely hstart (.inl (h.found?_now horderly hfound))⟩
  | idle hcall _ hover =>
      cases hcall.symm.trans hwaiting
      have hnow := Nat.le_antisymm h.within hover
      exact .inr ⟨_, by rw [h.answers], h.timely hstart (.inr ⟨rfl, hnow⟩)⟩
  | @perform time deed script net hscript htime _ hlink =>
      obtain ⟨done, hstarted, hdone, hlink'⟩ := h.script
      refine .inl { h with script := ⟨done ++ [(time, deed)], ?_, ?_, ?_⟩ }
      · rw [hstarted, hscript, List.append_assoc]
        rfl
      · intro entry hmem
        rcases List.mem_append.mp hmem with hmem | hmem
        · exact hdone entry hmem
        · obtain rfl := List.mem_singleton.mp hmem
          exact htime
      · rw [List.map_append, Link.performAll_append, ← hlink', ← h.session]
        exact hlink
  | others _ hlink =>
      obtain ⟨done, hstarted, hdone, hlink'⟩ := h.script
      exact .inl { h with script := ⟨done, hstarted, hdone, hlink.trans hlink'⟩ }
  | @wait now hnow hcall hscript =>
      obtain ⟨hnothing, hwithin⟩ := hcall _ hwaiting
      obtain ⟨done, hstarted, hdone, hlink⟩ := h.script
      refine .inl { h with
        since := Nat.le_trans h.since hnow
        within := hwithin
        script := ⟨done, hstarted, fun entry hmem => Nat.le_trans (hdone entry hmem) hnow, hlink⟩
        silent := ?_ }
      intro time hsince htime
      by_cases hbefore : time < run.now
      · exact h.silent time hsince hbefore
      · -- No deed is due before the next one, so the connection is as it is now.
        have hidle : run.linkAt time = run.link := by
          rw [ScriptedRun.linkAt]
          cases hrest : run.script with
          | nil => rfl
          | cons entry script =>
              have hlate := Nat.lt_of_lt_of_le htime (hscript entry script hrest)
              simp only [List.takeWhile_cons, decide_eq_false (Nat.not_le_of_lt hlate)]
              rfl
        rw [found?, h.linkAt (Nat.le_of_not_lt hbefore), hidle, ← h.session, hnothing]
        rfl

/-- As long as nothing more has been answered, a wait that has been begun goes on. -/
theorem Lurks.leads (h : Lurks start (start.now + timeout) run) (hstart : start.Orderly)
    (horderly : run.Orderly) (hleads : run.Leads later)
    (hanswers : later.answers = start.answers) : Lurks start (start.now + timeout) later := by
  induction hleads with
  | refl => exact h
  | @step middle later hbefore hmove ih =>
      have hmiddle := hbefore.orderly horderly
      have hsame : middle.answers = start.answers := by
        have hback := hmove.answers
        rw [hanswers, ← h.answers] at hback
        rw [← h.answers]
        exact hback.eq_of_length_le hbefore.answers.length_le
      rcases (ih hsame).effect hstart hmiddle (hmove.effect hmiddle) with hlurks | ⟨result, hnew, _⟩
      · exact hlurks
      · simp [hanswers] at hnew

/-! ## A wait from its beginning to its answer -/

/-- A wait is begun between two calls, and this is its answer, given at the next change. -/
structure Waits (start : ScriptedRun) (timeout : Nat) (before : ScriptedRun)
    (result : Except ConnectionError Readiness) : Prop where
  idle : start.call = none
  begins : ∃ begun, start.Move begun ∧
    begun.call = some (.waitReadable (start.now + timeout)) ∧ begun.Leads before
  pending : before.answers = start.answers
  answers : ∃ later, before.Move later ∧ later.answers = start.answers ++ [.readiness result]

theorem lurks_begin (hstart : start.Orderly) (hidle : start.call = none)
    (hmove : start.Move begun) (hcall : begun.call = some (.waitReadable (start.now + timeout))) :
    Lurks start (start.now + timeout) begun := by
  have hwait : ∀ {deadline}, start.call ≠ some (.waitReadable deadline) := by simp [hidle]
  cases hmove.effect hstart with
  | waitReadable _ _ =>
      exact {
        call := hcall
        session := rfl
        answers := rfl
        since := Nat.le_refl _
        within := Nat.le_add_right _ _
        script := ⟨[], rfl, nofun, rfl⟩
        silent := fun time hsince hbefore => absurd hsince (Nat.not_le_of_lt hbefore) }
  | receive _ _ => cases hcall
  | hear _ => cases hcall
  | heard _ => cases hcall
  | found _ => cases hcall
  | failed _ => cases hcall
  | idle _ => cases hcall
  | perform _ => exact absurd hcall hwait
  | others _ => exact absurd hcall hwait
  | wait _ => exact absurd hcall hwait

/-- Every wait is timely. -/
theorem Waits.timely {before : ScriptedRun} (h : start.Waits timeout before result)
    (hstart : start.Orderly) : start.Timely timeout before.now result := by
  obtain ⟨begun, hbegins, hcall, hleads⟩ := h.begins
  obtain ⟨later, hmove, hlater⟩ := h.answers
  have hbegun := (hbegins.effect hstart).orderly hstart
  have hlurks := (lurks_begin hstart h.idle hbegins hcall).leads hstart hbegun hleads h.pending
  have hbefore := hleads.orderly hbegun
  rcases hlurks.effect hstart hbefore (hmove.effect hbefore) with hstill | ⟨given, hgiven, htimely⟩
  · have hsame := hstill.answers
    simp [hlater] at hsame
  · obtain rfl : given = result := by simpa [hlater] using hgiven.symm
    exact htimely

/-! ## Waits are transparent -/

theorem orderly_begin {now : Instant} {net : Net} {session : Session}
    {script : List (Instant × Deed)} {plan : List Item} (hlink : session.link < net.links.length)
    (hused : Link.Used session.side (net.link session.link)) :
    Orderly { now, net, session, script, plan } where
  link := hlink
  lively := hused.lively
  call := nofun

/-- Waiting is transparent. Take two runs that begin alike, on any connection that has been
used, with any script and at any time, whose plans ask for the same number of frames and for
any waits between them. As long as no wait fails, what they receive is the same, as far as both
have received: the payloads and the errors; between two calls the same is left to both, of what
is there and of what is still to come; and at rest they have received the same and left the same
bytes unread. Every run can come to rest. And every wait, of any length, answers at the
first instant at which something is there, or the end of the stream is reached with nothing
unread, and answers just that; if there is nothing of it in time, it answers so at its
deadline. -/
theorem waits_transparent {now : Instant} {net : Net} {session : Session}
    {script : List (Instant × Deed)} {plan plan' : List Item}
    (hlink : session.link < net.links.length)
    (hused : Link.Used session.side (net.link session.link))
    (hplans : plan.count .receive = plan'.count .receive) :
    let start : ScriptedRun := { now, net, session, script, plan }
    let start' : ScriptedRun := { now, net, session, script, plan := plan' }
    (∀ one another, start.Leads one → start'.Leads another → one.Unfailing → another.Unfailing →
      (one.received <+: another.received ∨ another.received <+: one.received) ∧
      (one.received.length = another.received.length → one.call = none → another.call = none →
        one.outlook = another.outlook) ∧
      (one.Rests → another.Rests →
        one.received = another.received ∧ one.unread = another.unread)) ∧
    (∀ one, start.Leads one → ∃ last, one.Leads last ∧ last.Rests) ∧
    (∀ one timeout before result, start.Leads one → one.Waits timeout before result →
      one.Timely timeout before.now result) := by
  intro start start'
  have horderly : start.Orderly := orderly_begin hlink hused
  have horderly' : start'.Orderly := orderly_begin hlink hused
  have htells := tells_begin now net session script plan
  have htells' := tells_begin now net session script plan'
  refine ⟨?_, ?_, ?_⟩
  · intro one another hone hanother hunfailing hunfailing'
    have hone' := hone.tells horderly htells hunfailing
    have hanother' := hanother.tells horderly' htells' hunfailing'
    rw [← hplans] at hanother'
    obtain ⟨hcompare, houtlook⟩ := hone'.comparable hanother'
    refine ⟨hcompare, houtlook, fun hrests hrests' => ?_⟩
    exact hone'.eq_at_rest hanother' (hone.orderly horderly) (hanother.orderly horderly') hrests
      hrests'
  · intro one hone
    exact leads_to_rest one (hone.orderly horderly)
  · intro one timeout before result hone hwaits
    exact hwaits.timely (hone.orderly horderly)

/-- A session that receives twice while the other end writes a frame in two pieces and then
ends the stream. -/
def twoPieces : ScriptedRun where
  now := 0
  net := { links := [{}] }
  session := { link := 0, side := .acceptor, framing := .fixed32, limit := 1024 }
  script := [(5, .write [2, 0]), (30, .write [0, 0, 8, 13]), (45, .finish)]
  plan := [.receive, .receive]

/-- The same session with waits that find the first piece, nothing, and the end. -/
def twoPiecesWaited : ScriptedRun :=
  { twoPieces with
    plan := [.waitReadable 10, .receive, .waitReadable 10, .waitReadable 20, .receive] }

/-- What the session with waits comes to. -/
def twoPiecesSettled : ScriptedRun where
  now := 45
  net :=
    { links :=
      [{ dialler := { written := [2, 0, 0, 0, 8, 13], finished := true }
         acceptor := { taken := 6 } }] }
  session := { twoPieces.session with stats := ⟨0, 1, 0, 2⟩ }
  script := []
  plan := []
  answers := [.readiness (.ok .readable), .received (.ok [8, 13]), .readiness (.ok .idle),
    .readiness (.ok .closed), .received (.error .closed)]

/-- Whoever does not wait for the two pieces and the end receives what one who waits does. -/
theorem waits_transparent_between_frames :
    twoPieces.session.link < twoPieces.net.links.length ∧
      Link.Used twoPieces.session.side (twoPieces.net.link twoPieces.session.link) ∧
      twoPiecesWaited.plan.count .receive = twoPieces.plan.count .receive ∧
      ∀ last, twoPieces.Leads last → last.Unfailing → last.Rests →
        last.received = [.ok [8, 13], .error .closed] ∧ last.unread = [] := by
  have hlink : twoPieces.session.link < twoPieces.net.links.length := by decide
  have hused : Link.Used twoPieces.session.side (twoPieces.net.link twoPieces.session.link) :=
    .fresh
  have hplans : twoPiecesWaited.plan.count .receive = twoPieces.plan.count .receive := by decide
  refine ⟨hlink, hused, hplans, ?_⟩
  intro last hlast hunfailing hrests
  have hwait : ∀ {run : ScriptedRun} {call : Session.Call} (now : Instant), twoPiecesWaited.Leads run →
      run.now ≤ now → run.call = some call →
        run.session.poll run.now run.net call = .blocked →
          (∀ deadline, call.deadline? = some deadline → now ≤ deadline) →
            (∀ entry script, run.script = entry :: script → now ≤ entry.1) →
              twoPiecesWaited.Leads { run with now } := by
    intro run call now hleads hnow hcall hblocked hdeadline hscript
    refine hleads.step (.wait hnow ?_ hscript)
    intro call' hcall'
    obtain rfl := Option.some.inj (hcall.symm.trans hcall')
    exact ⟨hblocked, hdeadline⟩
  -- The first wait finds the first piece.
  have hasked : twoPiecesWaited.Leads _ := .single (.begin rfl rfl rfl)
  have hsilent := hwait 5 hasked (by decide) rfl rfl (by rintro _ ⟨⟩; decide)
    (by rintro _ _ ⟨⟩; decide)
  have hpiece := hsilent.step (.perform rfl (by decide))
  have hreadable : twoPiecesWaited.Leads
      { now := 5
        net := { links := [{ dialler := { written := [2, 0] } }] }
        session := twoPieces.session
        script := twoPieces.script.drop 1
        plan := twoPiecesWaited.plan.drop 1
        answers := [.readiness (.ok .readable)] } := hpiece.step (.finish rfl rfl)
  -- The receive takes both pieces.
  have hreceiving := (hreadable.step (.begin rfl rfl rfl)).step (.advance rfl rfl)
  have hcut := hwait 30 hreceiving (by decide) rfl rfl (by rintro _ ⟨⟩) (by rintro _ _ ⟨⟩; decide)
  have hrest := hcut.step (.perform rfl (by decide))
  have hframe : twoPiecesWaited.Leads
      { now := 30
        net := { links :=
          [{ dialler := { written := [2, 0, 0, 0, 8, 13] }, acceptor := { taken := 6 } }] }
        session := twoPiecesSettled.session
        script := twoPieces.script.drop 2
        plan := twoPiecesWaited.plan.drop 2
        answers := [.readiness (.ok .readable), .received (.ok [8, 13])] } :=
    hrest.step (.finish rfl rfl)
  -- The second wait finds nothing, and the third the end of the stream.
  have hwaiting := hframe.step (.begin rfl rfl rfl)
  have hdeadline := hwait 40 hwaiting (by decide) rfl rfl (by rintro _ ⟨⟩; decide)
    (by rintro _ _ ⟨⟩; decide)
  have hidle := (hdeadline.step (.finish rfl rfl)).step (.begin rfl rfl rfl)
  have hend := hwait 45 hidle (by decide) rfl rfl (by rintro _ ⟨⟩; decide)
    (by rintro _ _ ⟨⟩; decide)
  have hclosed := (hend.step (.perform rfl (by decide))).step (.finish rfl rfl)
  have hover : twoPiecesWaited.Leads twoPiecesSettled :=
    (hclosed.step (.begin rfl rfl rfl)).step (.finish rfl rfl)
  have hrests' : twoPiecesSettled.Rests := ⟨rfl, fun _ => rfl, nofun⟩
  have hunfailing' : twoPiecesSettled.Unfailing := by simp [Unfailing, twoPiecesSettled]
  obtain ⟨hsame, _⟩ := waits_transparent hlink hused hplans
  obtain ⟨_, _, hsettled⟩ := hsame twoPiecesSettled last hover hlast hunfailing' hunfailing
  obtain ⟨hreceived, hunread⟩ := hsettled hrests' hrests
  exact ⟨hreceived.symm, hunread.symm⟩

end ScriptedRun

end NodeHealth
