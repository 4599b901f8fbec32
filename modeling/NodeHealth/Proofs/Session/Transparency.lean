import NodeHealth.Proofs.Session.Scripted

/-!
# Waiting between receives

Whatever a session is asked in between, its receives come to what the outlook from which it
began yields (`ScriptedRun.Tells`). Two runs that begin alike and ask for the same number of
frames therefore receive the same, and when both have come to rest, as every run can, they
have left the same bytes unread.

-/

namespace NodeHealth

namespace ScriptedRun

variable {run later one another : ScriptedRun} {start left last : Outlook} {fresh : Frame.Reader}
  {total : Nat}

/-! ## What has been received -/

/-- How many receives a call is. -/
def receives : Option Session.Call → Nat
  | some (.receive _ _) => 1
  | _ => 0

/-- How many receives have not been answered yet. -/
def outstanding (run : ScriptedRun) : Nat :=
  run.plan.count .receive + receives run.call

/-- What the receives before a call have left: all that there is to read, unless the call has
taken some of it already. -/
inductive Leaves (fresh : Frame.Reader) (outlook : Outlook) :
    Option Session.Call → Outlook → Prop
  | idle : Leaves fresh outlook none outlook
  | waiting {deadline : Instant} : Leaves fresh outlook (some (.waitReadable deadline)) outlook
  | receiving {reader : Frame.Reader} {left : Outlook}
      (h : outlook.receive reader = left.receive fresh) :
      Leaves fresh outlook (some (.receive reader none)) left

/-- What has been received is what the outlook yields, as far as it has been asked for. -/
structure Tells (start : Outlook) (fresh : Frame.Reader) (total : Nat) (run : ScriptedRun) :
    Prop where
  begins : run.session.reader = fresh
  total : run.received.length + run.outstanding = total
  yields : ∃ left, start.Yields fresh run.received left ∧
    Leaves fresh run.outlook run.call left

theorem tells_begin (now : Instant) (net : Net) (session : Session)
    (script : List (Instant × Deed)) (plan : List Item) :
    Tells (session.outlook net (script.map Prod.snd)) session.reader (plan.count .receive)
      { now, net, session, script, plan } where
  begins := rfl
  total := by simp [received, outstanding, receives]
  yields := ⟨_, .nil, .idle⟩

/-- A change that answers no receive. -/
theorem Tells.change (h : Tells start fresh total run)
    (hreader : later.session.reader = run.session.reader)
    (hreceived : later.received = run.received)
    (houtstanding : later.outstanding = run.outstanding)
    (hleaves : ∀ left, Leaves fresh run.outlook run.call left →
      Leaves fresh later.outlook later.call left) : Tells start fresh total later where
  begins := hreader.trans h.begins
  total := by rw [hreceived, houtstanding, h.total]
  yields := by
    obtain ⟨left, hyields, hleft⟩ := h.yields
    exact ⟨left, hreceived ▸ hyields, hleaves left hleft⟩

/-- A wait that is answered takes nothing. -/
theorem Tells.answer (h : Tells start fresh total run) {deadline : Instant}
    (hcall : run.call = some (.waitReadable deadline))
    (result : Except ConnectionError Readiness) :
    Tells start fresh total { run with
      call := none
      answers := run.answers ++ [.readiness result] } := by
  refine h.change rfl ?_ ?_ ?_
  · simp [received, Session.Answer.received?]
  · simp [outstanding, hcall, receives]
  · intro left hleaves
    rw [hcall] at hleaves
    cases hleaves
    exact .idle

/-- A change tells what was told before, as long as no wait fails. -/
theorem Tells.effect (h : Tells start fresh total run) (heffect : run.Effect later)
    (hunfailing : later.Unfailing) : Tells start fresh total later := by
  cases heffect with
  | receive hcall hplan =>
      refine h.change rfl rfl ?_ ?_
      · simp [outstanding, hcall, hplan, receives]
      · intro left hleaves
        rw [hcall] at hleaves
        cases hleaves
        exact .receiving (by rw [h.begins]; rfl)
  | waitReadable hcall hplan =>
      refine h.change rfl rfl ?_ ?_
      · simp [outstanding, hcall, hplan, receives]
      · intro left hleaves
        rw [hcall] at hleaves
        cases hleaves
        exact .waiting
  | hear hcall _ _ _ hsame =>
      refine h.change rfl rfl ?_ ?_
      · simp [outstanding, hcall, receives]
      · intro left hleaves
        rw [hcall] at hleaves
        cases hleaves with
        | receiving hleft => exact .receiving (hsame.trans hleft)
  | @heard _ net stats result hcall _ _ hresult =>
      obtain ⟨left, hyields, hleaves⟩ := h.yields
      rw [hcall] at hleaves
      cases hleaves with
      | receiving hleft =>
          have hreceived :
              (run.answers ++ [Session.Answer.received result]).filterMap
                Session.Answer.received? = run.received ++ [result] := by
            simp [received, Session.Answer.received?]
          have htotal := h.total
          simp only [outstanding, hcall, receives] at htotal
          refine ⟨h.begins, ?_, _, ?_, .idle⟩
          · simp only [received, outstanding, receives, hreceived, List.length_append,
              List.length_singleton] at htotal ⊢
            omega
          · rw [received, hreceived]
            exact hyields.append (.cons (hleft.symm.trans hresult) .nil)
  | found hcall _ => exact h.answer hcall _
  | failed _ _ =>
      exact absurd (List.mem_append_right _ (List.mem_singleton_self _)) (hunfailing _)
  | idle hcall _ _ => exact h.answer hcall _
  | @perform time deed script net hscript _ _ hlink =>
      refine h.change rfl rfl rfl ?_
      have hsame : (ScriptedRun.outlook { run with net, script }) = run.outlook := by
        simp only [outlook, Session.outlook, hlink, hscript, List.map_cons]
        rfl
      rw [hsame]
      exact fun _ => id
  | @others net _ hlink =>
      refine h.change rfl rfl rfl ?_
      have hsame : (ScriptedRun.outlook { run with net }) = run.outlook := by
        simp only [outlook, Session.outlook, hlink]
        rfl
      rw [hsame]
      exact fun _ => id
  | wait _ _ _ => exact h.change rfl rfl rfl fun _ => id

/-- Answers stay. -/
theorem Move.answers (hmove : run.Move later) : run.answers <+: later.answers := by
  cases hmove <;> first | exact List.prefix_append _ _ | exact List.prefix_refl _

theorem Leads.answers (hleads : run.Leads later) : run.answers <+: later.answers := by
  induction hleads with
  | refl => exact List.prefix_refl _
  | step _ hmove ih => exact ih.trans hmove.answers

theorem Unfailing.of_answers (h : later.Unfailing) (hanswers : run.answers <+: later.answers) :
    run.Unfailing :=
  fun error hmem => h error (hanswers.subset hmem)

/-- Whatever a run leads to tells what the run told. -/
theorem Leads.tells (hleads : run.Leads later) (horderly : run.Orderly)
    (h : Tells start fresh total run) (hunfailing : later.Unfailing) :
    Tells start fresh total later := by
  induction hleads with
  | refl => exact h
  | step hbefore hmove ih =>
      have heffect := hmove.effect (hbefore.orderly horderly)
      exact (ih (hunfailing.of_answers hmove.answers)).effect heffect hunfailing

/-! ## At rest -/

/-- All results of `total` receives have come, and what is left is unread, or the next receive
waits for ever with nothing unread. -/
def Exhausts (fresh : Frame.Reader) (total : Nat) (results : List (Except ConnectionError Bytes))
    (left : Outlook) (unread : Bytes) : Prop :=
  results.length = total ∧ left.bytes = unread ∨
    results.length < total ∧ left.receive fresh = none ∧ unread = []

variable {results rest : List (Except ConnectionError Bytes)} {unread unread' : Bytes}

theorem Exhausts.length_le (h : Exhausts fresh total results left unread) :
    results.length ≤ total := by
  rcases h with ⟨hlength, _⟩ | ⟨hlength, _⟩
  · exact Nat.le_of_eq hlength
  · exact Nat.le_of_lt hlength

theorem Exhausts.rest_eq_nil (h : Exhausts fresh total results left unread)
    (hrest : left.Yields fresh rest last) (hlength : (results ++ rest).length ≤ total) :
    rest = [] := by
  cases hrest with
  | nil => rfl
  | cons hone _ =>
      rw [List.length_append, List.length_cons] at hlength
      rcases h with ⟨hall, _⟩ | ⟨_, hnone, _⟩
      · omega
      · rw [hnone] at hone
        cases hone

theorem Exhausts.unread_eq (h : Exhausts fresh total results left unread)
    (h' : Exhausts fresh total results left unread') : unread = unread' := by
  rcases h with ⟨hall, hunread⟩ | ⟨hfew, _, hunread⟩ <;>
    rcases h' with ⟨hall', hunread'⟩ | ⟨hfew', _, hunread'⟩
  · exact hunread.symm.trans hunread'
  · omega
  · omega
  · exact hunread.trans hunread'.symm

theorem Tells.exhausts (h : Tells start fresh total run) (horderly : run.Orderly)
    (hrests : run.Rests) : ∃ left, start.Yields fresh run.received left ∧
      Exhausts fresh total run.received left run.unread := by
  obtain ⟨left, hyields, hleaves⟩ := h.yields
  have htotal := h.total
  have houtlook : run.outlook =
      ⟨run.unread, run.link.ending run.session.side⟩ := by
    rw [outlook, hrests.script]
    rfl
  refine ⟨left, hyields, ?_⟩
  cases hcall : run.call with
  | none =>
      rw [hcall] at hleaves
      cases hleaves
      refine .inl ⟨?_, by rw [houtlook]⟩
      simpa [outstanding, hcall, hrests.plan hcall, receives] using htotal
  | some call =>
      obtain ⟨hdeadline, hblocked⟩ := hrests.call call hcall
      cases horderly.call call hcall with
      | waitReadable => cases hdeadline
      | @receive reader hhungry =>
          have hhears := horderly.hears hhungry
          rw [hblocked] at hhears
          cases hhears with
          | blocked hnothing =>
              obtain ⟨hunread, hending⟩ := Link.arrival_eq_nothing.mp hnothing
              rw [hcall] at hleaves
              cases hleaves with
              | receiving hleft =>
                  refine .inr ⟨?_, ?_, hunread⟩
                  · simp only [outstanding, hcall, receives] at htotal
                    omega
                  · rw [← hleft, houtlook, ScriptedRun.unread, link, hunread, hending,
                      Outlook.receive, hhungry]

/-- Two runs that tell the same have, at rest, received the same and left the same. -/
theorem Tells.eq_at_rest (h : Tells start fresh total one) (h' : Tells start fresh total another)
    (horderly : one.Orderly) (horderly' : another.Orderly) (hrests : one.Rests)
    (hrests' : another.Rests) :
    one.received = another.received ∧ one.unread = another.unread := by
  obtain ⟨left, hyields, hexhausts⟩ := h.exhausts horderly hrests
  obtain ⟨left', hyields', hexhausts'⟩ := h'.exhausts horderly' hrests'
  have hsame : one.received = another.received ∧ left = left' := by
    rcases hyields.comparable hyields' with ⟨rest, hmore, hlast⟩ | ⟨rest, hmore, hlast⟩
    · obtain rfl := hexhausts.rest_eq_nil hlast (hmore ▸ hexhausts'.length_le)
      cases hlast
      exact ⟨by rw [hmore, List.append_nil], rfl⟩
    · obtain rfl := hexhausts'.rest_eq_nil hlast (hmore ▸ hexhausts.length_le)
      cases hlast
      exact ⟨by rw [hmore, List.append_nil], rfl⟩
  obtain ⟨hreceived, rfl⟩ := hsame
  rw [hreceived] at hexhausts
  exact ⟨hreceived, hexhausts.unread_eq hexhausts'⟩

/-- Two runs that tell the same have received the same as far as both have received, and
between two calls the same is left to both. -/
theorem Tells.comparable (h : Tells start fresh total one)
    (h' : Tells start fresh total another) :
    (one.received <+: another.received ∨ another.received <+: one.received) ∧
      (one.received.length = another.received.length → one.call = none → another.call = none →
        one.outlook = another.outlook) := by
  obtain ⟨left, hyields, hleaves⟩ := h.yields
  obtain ⟨left', hyields', hleaves'⟩ := h'.yields
  have hcomparable := hyields.comparable hyields'
  constructor
  · rcases hcomparable with ⟨rest, hmore, _⟩ | ⟨rest, hmore, _⟩
    · exact .inl ⟨rest, hmore.symm⟩
    · exact .inr ⟨rest, hmore.symm⟩
  · intro hlength hcall hcall'
    have hsame : left = left' := by
      rcases hcomparable with ⟨rest, hmore, hlast⟩ | ⟨rest, hmore, hlast⟩
      · obtain rfl : rest = [] := by simpa [hmore] using hlength
        cases hlast
        rfl
      · obtain rfl : rest = [] := by simpa [hmore] using hlength
        cases hlast
        rfl
    rw [hcall] at hleaves
    rw [hcall'] at hleaves'
    cases hleaves
    cases hleaves'
    exact hsame

/-! ## Coming to rest -/

theorem Leads.single (hmove : run.Move later) : run.Leads later :=
  .step .refl hmove

/-- The next deed of the script is done at its time, unless the call ends before. -/
theorem leads_to_deed {entry : Instant × Deed} {script : List (Instant × Deed)}
    (hscript : run.script = entry :: script)
    (hcall : ∀ call, run.call = some call →
      run.session.poll run.now run.net call = .blocked ∧
        ∀ deadline, call.deadline? = some deadline → entry.1 ≤ deadline) :
    ∃ later, run.Leads later ∧ later.script = script := by
  by_cases htime : entry.1 ≤ run.now
  · exact ⟨_, .single (.perform hscript htime), rfl⟩
  · have hwait : run.Move { run with now := entry.1 } := by
      refine .wait (Nat.le_of_not_le htime) hcall ?_
      rintro _ _ heq
      rw [hscript] at heq
      cases heq
      exact Nat.le_refl _
    exact ⟨_, (Leads.single hwait).step (.perform hscript (Nat.le_refl _)), rfl⟩

/-- A wait that finds nothing is answered at its deadline, unless something is done before. -/
theorem leads_to_deadline {deadline : Instant}
    (hcall : run.call = some (.waitReadable deadline))
    (hnothing : run.link.arrival run.session.side = .nothing)
    (hover : run.now < deadline)
    (hscript : ∀ entry script, run.script = entry :: script → deadline ≤ entry.1) :
    ∃ later, run.Leads later ∧ later.script = run.script ∧ later.plan = run.plan ∧
      later.call = none := by
  have hpoll : ∀ now, run.session.poll now run.net (.waitReadable deadline) =
      if deadline ≤ now then .done (run.net, run.session, .readiness (.ok .idle))
      else .blocked :=
    fun now => Session.poll_waitReadable_of_nothing now deadline hnothing
  have hwait : run.Move { run with now := deadline } := by
    refine .wait (Nat.le_of_lt hover) ?_ hscript
    intro call hcall'
    obtain rfl := Option.some.inj (hcall.symm.trans hcall')
    refine ⟨by rw [hpoll, if_neg (Nat.not_le_of_lt hover)], ?_⟩
    rintro _ ⟨⟩
    exact Nat.le_refl _
  have hexpires : run.session.poll deadline run.net (.waitReadable deadline) =
      .done (run.net, run.session, .readiness (.ok .idle)) := by
    rw [hpoll, if_pos (Nat.le_refl _)]
  exact ⟨_, (Leads.single hwait).step (.finish hcall hexpires), rfl, rfl, rfl⟩

/-- What a run has still to do: the deeds of the script, then the plan, then the call with
the bytes that it may take. -/
def work (run : ScriptedRun) : Nat × Nat × Nat :=
  (run.script.length, run.plan.length,
    match run.call with
    | none => 0
    | some _ => run.unread.length + 1)

def Less (later run : ScriptedRun) : Prop :=
  Prod.Lex (· < ·) (Prod.Lex (· < ·) (· < ·)) later.work run.work

theorem less_of_script (h : later.script.length < run.script.length) : later.Less run :=
  .left _ _ h

theorem less_of_plan (hscript : later.script = run.script)
    (h : later.plan.length < run.plan.length) : later.Less run := by
  rw [Less, work, work, hscript]
  exact .right _ (.left _ _ h)

theorem less_of_call {call : Session.Call} (hscript : later.script = run.script)
    (hplan : later.plan = run.plan) (hcall : run.call = some call)
    (h : later.call = none ∨ later.unread.length < run.unread.length) :
    later.Less run := by
  rw [Less, work, work, hscript, hplan, hcall]
  refine .right _ (.right _ ?_)
  rcases h with hnone | hless
  · rw [hnone]
    exact Nat.zero_lt_succ _
  · split
    · exact Nat.zero_lt_succ _
    · exact Nat.succ_lt_succ hless

theorem moves_by_deed {entry : Instant × Deed} {script : List (Instant × Deed)}
    (hscript : run.script = entry :: script)
    (hcall : ∀ call, run.call = some call →
      run.session.poll run.now run.net call = .blocked ∧
        ∀ deadline, call.deadline? = some deadline → entry.1 ≤ deadline) :
    ∃ later, run.Leads later ∧ later.Less run := by
  obtain ⟨later, hleads, hlater⟩ := leads_to_deed hscript hcall
  refine ⟨later, hleads, less_of_script ?_⟩
  rw [hlater, hscript]
  exact Nat.lt_succ_self _

/-- A wait is answered, or the next deed is done. -/
theorem Orderly.moves_while_waiting (h : run.Orderly) {deadline : Instant}
    (hcall : run.call = some (.waitReadable deadline)) :
    ∃ later, run.Leads later ∧ later.Less run := by
  have hwatches := Session.watches_poll h.lively run.now deadline
  generalize hpoll :
    run.session.poll run.now run.net (.waitReadable deadline) = step at hwatches
  have hfinish : ∀ {net session answer}, step = .done (net, session, answer) →
      ∃ later, run.Leads later ∧ later.Less run := by
    rintro net session answer rfl
    exact ⟨_, .single (.finish hcall hpoll), less_of_call rfl rfl hcall (.inl rfl)⟩
  cases hwatches with
  | found _ => exact hfinish rfl
  | failed _ => exact hfinish rfl
  | idle _ _ => exact hfinish rfl
  | blocked hnothing hover =>
      by_cases hfirst : ∃ entry script, run.script = entry :: script ∧ entry.1 ≤ deadline
      · obtain ⟨entry, script, hscript, htime⟩ := hfirst
        refine moves_by_deed hscript ?_
        intro call hcall'
        obtain rfl := Option.some.inj (hcall.symm.trans hcall')
        refine ⟨hpoll, ?_⟩
        rintro _ ⟨⟩
        exact htime
      · have hlate : ∀ entry script, run.script = entry :: script → deadline ≤ entry.1 := by
          intro entry script hscript
          exact Nat.le_of_not_le fun htime => hfirst ⟨entry, script, hscript, htime⟩
        obtain ⟨later, hleads, hscript, hplan, hnone⟩ :=
          leads_to_deadline hcall hnothing hover hlate
        exact ⟨later, hleads, less_of_call hscript hplan hcall (.inl hnone)⟩

/-- A receive goes on or ends, the next deed is done, or it waits for ever. -/
theorem Orderly.rests_or_receives (h : run.Orderly) {reader : Frame.Reader}
    (hcall : run.call = some (.receive reader none)) (hhungry : reader.feed [] = .more reader) :
    run.Rests ∨ ∃ later, run.Leads later ∧ later.Less run := by
  have hhears := h.hears hhungry
  generalize hpoll :
    run.session.poll run.now run.net (.receive reader none) = step at hhears
  cases hhears with
  | advanced _ _ _ hless _ =>
      exact .inr ⟨_, .single (.advance hcall hpoll), less_of_call rfl rfl hcall (.inr hless)⟩
  | done _ _ _ =>
      exact .inr ⟨_, .single (.finish hcall hpoll), less_of_call rfl rfl hcall (.inl rfl)⟩
  | blocked _ =>
      have hblocked : ∀ call, run.call = some call → call.deadline? = none ∧
          run.session.poll run.now run.net call = .blocked := by
        rw [hcall]
        rintro _ ⟨⟩
        exact ⟨rfl, hpoll⟩
      cases hscript : run.script with
      | nil => exact .inl ⟨hscript, by simp [hcall], hblocked⟩
      | cons entry script =>
          refine .inr (moves_by_deed hscript fun call hcall => ?_)
          obtain ⟨hdeadline, hblocked⟩ := hblocked call hcall
          exact ⟨hblocked, by simp [hdeadline]⟩

/-- Every run is at rest or has still something to do, and does it. -/
theorem Orderly.rests_or_moves (h : run.Orderly) :
    run.Rests ∨ ∃ later, run.Leads later ∧ later.Less run := by
  cases hcall : run.call with
  | none =>
      cases hplan : run.plan with
      | cons item plan =>
          obtain ⟨call, session, hbegin⟩ : ∃ call session,
              run.session.call run.now item.request = (.ok call, session) := by
            cases item <;> exact ⟨_, _, rfl⟩
          refine .inr ⟨_, .single (.begin hcall hplan hbegin), less_of_plan rfl ?_⟩
          rw [hplan]
          exact Nat.lt_succ_self _
      | nil =>
          cases hscript : run.script with
          | nil => exact .inl ⟨hscript, fun _ => hplan, by simp [hcall]⟩
          | cons entry script => exact .inr (moves_by_deed hscript (by simp [hcall]))
  | some call =>
      cases h.call call hcall with
      | receive hhungry => exact h.rests_or_receives hcall hhungry
      | waitReadable => exact .inr (h.moves_while_waiting hcall)

/-- Every run can come to rest. -/
theorem leads_to_rest (run : ScriptedRun) (h : run.Orderly) :
    ∃ last, run.Leads last ∧ last.Rests := by
  rcases h.rests_or_moves with hrests | ⟨later, hleads, hless⟩
  · exact ⟨run, .refl, hrests⟩
  · obtain ⟨last, hlast, hrests⟩ := leads_to_rest later (hleads.orderly h)
    exact ⟨last, hleads.trans hlast, hrests⟩
termination_by run.work
decreasing_by exact hless

end ScriptedRun

end NodeHealth
