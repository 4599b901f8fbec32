import NodeHealth.Proofs.Net.Script
import NodeHealth.Proofs.Wire.Stream
import NodeHealth.Session.Call

/-!
# A session that listens to a script

A `ScriptedRun` is a session that is asked by plan to receive frames without a deadline and to
wait until there is something to receive, while the other end of its connection acts by script.
What its receives come to is a function of the outlook alone: `Outlook.receive` says what one
comes to and what it leaves, and `Outlook.Yields` what several do.

## Implementation notes

Everything that can happen in such a run is listed twice. `ScriptedRun.Move` is built from the
functions of a session and from what others may do to its network; `ScriptedRun.Effect` says what
each move does to the outlook. The effects are derived once, in `Move.effect`, and whatever
holds at any time is proved of them.

Time passes while a call can go no further, or between two calls, and never beyond the next
deed of the script or the deadline of the call.

-/

namespace NodeHealth

/-! ## Receiving from an outlook -/

namespace Outlook

/-- What receiving a frame comes to, and what it leaves; `none` if it waits for ever. -/
def receive (outlook : Outlook) (reader : Frame.Reader) :
    Option (Except ConnectionError Bytes × Outlook) :=
  match reader.feed outlook.bytes with
  | .done result rest =>
      some (result.mapError Session.receiveError, { outlook with bytes := rest })
  | .more _ =>
      match outlook.ending with
      | .pending => none
      | .ended => some (.error .closed, ⟨[], .ended⟩)
      | .failed cause => some (.error (.protocol (.io (.ofSystem cause))), ⟨[], .ended⟩)

/-- Receiving one frame after the other, each from the start of a reader, comes to these
results and leaves this outlook. -/
inductive Yields (reader : Frame.Reader) :
    Outlook → List (Except ConnectionError Bytes) → Outlook → Prop
  | nil {outlook : Outlook} : Yields reader outlook [] outlook
  | cons {outlook next last : Outlook} {result : Except ConnectionError Bytes}
      {results : List (Except ConnectionError Bytes)}
      (h : outlook.receive reader = some (result, next))
      (hrest : Yields reader next results last) : Yields reader outlook (result :: results) last

variable {reader : Frame.Reader} {outlook middle last other : Outlook}
  {results more : List (Except ConnectionError Bytes)}

theorem Yields.append (h : Yields reader outlook results middle)
    (hmore : Yields reader middle more last) : Yields reader outlook (results ++ more) last := by
  induction h with
  | nil => exact hmore
  | cons hone _ ih => exact .cons hone (ih hmore)

/-- Of two series of results from one outlook, one continues the other. -/
theorem Yields.comparable (h : Yields reader outlook results last)
    (h' : Yields reader outlook more other) :
    (∃ rest, more = results ++ rest ∧ Yields reader last rest other) ∨
      ∃ rest, results = more ++ rest ∧ Yields reader other rest last := by
  induction h generalizing more with
  | nil => exact .inl ⟨more, rfl, h'⟩
  | cons hone hrest ih =>
      cases h' with
      | nil => exact .inr ⟨_, rfl, .cons hone hrest⟩
      | cons hone' hrest' =>
          obtain ⟨rfl, rfl⟩ := Prod.mk.inj (Option.some.inj (hone.symm.trans hone'))
          rcases ih hrest' with ⟨rest, rfl, hlast⟩ | ⟨rest, rfl, hlast⟩
          · exact .inl ⟨rest, rfl, hlast⟩
          · exact .inr ⟨rest, rfl, hlast⟩

end Outlook

namespace Session

variable {session : Session} {net : Net} {reader : Frame.Reader} {deeds : List Deed}

/-! ## Single steps of a session -/

/-- What there is to read for a session, if the other end has these deeds still to do. -/
def outlook (session : Session) (net : Net) (deeds : List Deed) : Outlook :=
  (net.link session.link).outlook session.side deeds

/-- A receive without a deadline is never given up. -/
theorem poll_receive (session : Session) (now : Instant) (net : Net) (reader : Frame.Reader) :
    session.poll now net (.receive reader none) =
      match session.receive net reader with
      | .blocked => .blocked
      | .advanced (later, following) => .advanced (later, .receive following none)
      | .done (later, next, result) => .done (later, next, .received result) := by
  rw [poll, proceed]
  cases session.receive net reader <;> rfl

/-- One step of receiving, as the outlook shows it. A receive that goes on has taken bytes and
will come to the same result; one that ends has come to what the outlook says, and leaves
what it says. -/
inductive Hears (session : Session) (net : Net) (deeds : List Deed) (reader : Frame.Reader) :
    Poll (Net × Call) (Net × Session × Answer) → Prop
  | blocked (h : (net.link session.link).arrival session.side = .nothing) :
      Hears session net deeds reader .blocked
  | advanced {later : Net} {following : Frame.Reader}
      (hlinks : later.links.length = net.links.length)
      (hlively : (later.link session.link).Lively session.side)
      (hhungry : following.feed [] = .more following)
      (hless : ((later.link session.link).unread session.side).length <
        ((net.link session.link).unread session.side).length)
      (hsame : (session.outlook later deeds).receive following =
        (session.outlook net deeds).receive reader) :
      Hears session net deeds reader (.advanced (later, .receive following none))
  | done {later : Net} {stats : SessionStats} {result : Except ConnectionError Bytes}
      (hlinks : later.links.length = net.links.length)
      (hlively : (later.link session.link).Lively session.side)
      (hresult : (session.outlook net deeds).receive reader =
        some (result, session.outlook later deeds)) :
      Hears session net deeds reader (.done (later, { session with stats }, .received result))

/-- A result is counted, and its error reported, whatever it is. -/
theorem received_eq (session : Session) (net : Net) (found : Except WireError Bytes) :
    ∃ stats, session.received net found =
      (net, { session with stats }, found.mapError receiveError) := by
  cases found with
  | ok payload => exact ⟨_, rfl⟩
  | error error => exact ⟨_, rfl⟩

theorem Hears.of_received {later : Net} {found : Except WireError Bytes} (now : Instant)
    (hstep : session.receive net reader = .done (session.received later found))
    (hlinks : later.links.length = net.links.length)
    (hlively : (later.link session.link).Lively session.side)
    (hresult : (session.outlook net deeds).receive reader =
      some (found.mapError receiveError, session.outlook later deeds)) :
    session.Hears net deeds reader (session.poll now net (.receive reader none)) := by
  obtain ⟨stats, hreceived⟩ := session.received_eq later found
  rw [poll_receive, hstep, hreceived]
  exact .done hlinks hlively hresult

theorem outlook_take (hlink : session.link < net.links.length)
    (hlively : (net.link session.link).Lively session.side) (count : Nat) (deeds : List Deed) :
    session.outlook (net.changeLink session.link (·.take session.side count)) deeds =
      ⟨(session.outlook net deeds).bytes.drop count, (session.outlook net deeds).ending⟩ := by
  rw [outlook, Net.link_changeLink net _ _ hlink, Link.outlook_take hlively]
  rfl

/-- Bytes that are there are taken, all of them or up to the end of a frame. -/
theorem hears_bytes {byte : UInt8} {rest : Bytes} (hlink : session.link < net.links.length)
    (hlively : (net.link session.link).Lively session.side)
    (hunread : (net.link session.link).unread session.side = byte :: rest) (now : Instant)
    (deeds : List Deed) :
    session.Hears net deeds reader (session.poll now net (.receive reader none)) := by
  obtain ⟨more, hmore⟩ := hlively.unread_performAll deeds
  have hbytes : (session.outlook net deeds).bytes = byte :: rest ++ more := by
    rw [← hunread, hmore]
    rfl
  have htaken : ∀ count,
      (net.changeLink session.link (·.take session.side count)).link session.link =
        (net.link session.link).take session.side count :=
    fun count => Net.link_changeLink net _ _ hlink
  cases hfeed : reader.feed (byte :: rest) with
  | more following =>
      rw [poll_receive]
      simp only [receive, Link.arrival_eq, hunread, Link.Ending.arrival, hfeed]
      refine .advanced (Net.length_changeLink _ _ _) ?_
        (Source.hungry_of_feed Frame.Reader.piecewise hfeed) ?_ ?_
      · rw [htaken]
        exact hlively.take (by rw [hunread])
      · rw [htaken, Link.unread_take, hunread, List.drop_length]
        exact Nat.zero_lt_succ _
      · rw [outlook_take hlink hlively, hbytes, List.drop_left]
        simp only [Outlook.receive, hbytes, Frame.Reader.feed_append, hfeed,
          Frame.Progress.extend]
  | done result left =>
      obtain ⟨front, hfront, _⟩ := Frame.Reader.feed_taken hfeed
      have hcount : (byte :: rest).length - left.length = front.length := by
        rw [hfront, List.length_append, Nat.add_sub_cancel]
      have hstep : session.receive net reader = .done (session.received
          (net.changeLink session.link (·.take session.side front.length)) result) := by
        simp only [receive, Link.arrival_eq, hunread, Link.Ending.arrival, hfeed, hcount]
      refine .of_received now hstep (Net.length_changeLink _ _ _) ?_ ?_
      · rw [htaken]
        exact hlively.take (by rw [hunread, hfront, List.length_append]; omega)
      · rw [outlook_take hlink hlively]
        simp only [Outlook.receive, hbytes, Frame.Reader.feed_append, hfeed,
          Frame.Progress.extend]
        rw [hfront, List.append_assoc, List.drop_left]

/-- With nothing unread a receive waits, or comes to what the other end has left behind. -/
theorem hears_ending (hlink : session.link < net.links.length)
    (hlively : (net.link session.link).Lively session.side)
    (hhungry : reader.feed [] = .more reader)
    (hunread : (net.link session.link).unread session.side = []) (now : Instant)
    (deeds : List Deed) :
    session.Hears net deeds reader (session.poll now net (.receive reader none)) := by
  have hended : ∀ ending, (net.link session.link).ending session.side = ending →
      ending ≠ .pending → session.outlook net deeds = ⟨[], ending⟩ := by
    rintro ending rfl hending
    rw [outlook, hlively.outlook_of_ending deeds hending, hunread]
  cases hending : (net.link session.link).ending session.side with
  | pending =>
      have hnothing := Link.arrival_eq_nothing.mpr ⟨hunread, hending⟩
      rw [poll_receive, receive, hnothing]
      exact .blocked hnothing
  | ended =>
      have hstep : session.receive net reader = .done (session.received net (.error .closed)) := by
        rw [receive, Link.arrival_eq, hunread, hending]
        rfl
      refine .of_received now hstep rfl hlively ?_
      rw [hended _ hending (by simp), Outlook.receive, hhungry]
      rfl
  | failed cause =>
      have hstep : session.receive net reader = .done (session.received
          (net.changeLink session.link (·.report session.side))
          (.error (.io (.ofSystem cause)))) := by
        rw [receive, Link.arrival_eq, hunread, hending]
        rfl
      have hreported :
          (net.changeLink session.link (·.report session.side)).link session.link =
            (net.link session.link).report session.side :=
        Net.link_changeLink net _ _ hlink
      refine .of_received now hstep (Net.length_changeLink _ _ _) ?_ ?_
      · rw [hreported]
        exact hlively.report
      · rw [hended _ hending (by simp), outlook, hreported, hlively.outlook_report deeds hending,
          hunread, Outlook.receive, hhungry]
        rfl

/-- Receiving goes by the outlook. -/
theorem hears_poll (hlink : session.link < net.links.length)
    (hlively : (net.link session.link).Lively session.side)
    (hhungry : reader.feed [] = .more reader) (now : Instant) (deeds : List Deed) :
    session.Hears net deeds reader (session.poll now net (.receive reader none)) := by
  cases hunread : (net.link session.link).unread session.side with
  | nil => exact hears_ending hlink hlively hhungry hunread now deeds
  | cons byte rest => exact hears_bytes hlink hlively hunread now deeds

end Session

/-- What somebody who waits finds in what there is to read. -/
def Link.Arrival.found? : Link.Arrival → Option (Except ConnectionError Readiness)
  | bytes _ => some (.ok .readable)
  | ended => some (.ok .closed)
  | failed cause => some (.error (.ofCause cause))
  | nothing => none

namespace Session

variable {session : Session} {net : Net}

/-- Who waits and finds nothing answers that when his time is over. -/
theorem poll_waitReadable_of_nothing (now deadline : Instant)
    (h : (net.link session.link).arrival session.side = .nothing) :
    session.poll now net (.waitReadable deadline) =
      if deadline ≤ now then .done (net, session, .readiness (.ok .idle)) else .blocked := by
  simp only [poll, proceed, readiness?, h, Call.deadline?, Option.any_some, decide_eq_true_eq]
  rfl

/-- One step of waiting: it answers what it finds, and reports a failure that it finds; if it
finds nothing, it answers that at its deadline. -/
inductive Watches (session : Session) (now : Instant) (net : Net) (deadline : Instant) :
    Poll (Net × Call) (Net × Session × Answer) → Prop
  | found {readiness : Readiness}
      (h : ((net.link session.link).arrival session.side).found? = some (.ok readiness)) :
      Watches session now net deadline (.done (net, session, .readiness (.ok readiness)))
  | failed {cause : IoCause} (h : (net.link session.link).arrival session.side = .failed cause) :
      Watches session now net deadline
        (.done (net.changeLink session.link (·.report session.side), session,
          .readiness (.error (.ofCause cause))))
  | idle (h : (net.link session.link).arrival session.side = .nothing) (hover : deadline ≤ now) :
      Watches session now net deadline (.done (net, session, .readiness (.ok .idle)))
  | blocked (h : (net.link session.link).arrival session.side = .nothing) (hover : now < deadline) :
      Watches session now net deadline .blocked

theorem watches_poll (hlively : (net.link session.link).Lively session.side) (now : Instant)
    (deadline : Instant) :
    session.Watches now net deadline (session.poll now net (.waitReadable deadline)) := by
  cases harrival : (net.link session.link).arrival session.side with
  | bytes unread =>
      rw [poll, proceed, readiness?, harrival]
      exact .found (by rw [harrival]; rfl)
  | ended =>
      rw [poll, proceed, readiness?, harrival]
      exact .found (by rw [harrival]; rfl)
  | failed cause =>
      have hcause : cause ≠ .interrupted := by
        rintro rfl
        exact hlively.arrival_ne_interrupted harrival
      simp only [poll, proceed, readiness?, harrival, readinessOfFailure_of_ne hcause]
      exact .failed harrival
  | nothing =>
      rw [poll_waitReadable_of_nothing now deadline harrival]
      split
      · exact .idle harrival ‹_›
      · exact .blocked harrival (Nat.lt_of_not_le ‹_›)

end Session

/-! ## Scripted runs -/

/-- What is asked of a session that only listens. -/
inductive ScriptedRun.Item
  /-- To receive a frame, however long it takes. -/
  | receive
  /-- To wait for so many milliseconds until there is something to receive. -/
  | waitReadable (timeout : Nat)
  deriving DecidableEq, Repr

/-- An item as a request to a session. -/
def ScriptedRun.Item.request : ScriptedRun.Item → Session.Request
  | receive => .receive none
  | waitReadable timeout => .waitReadable timeout

/-- The result of a receive, if an answer is one. -/
def Session.Answer.received? : Session.Answer → Option (Except ConnectionError Bytes)
  | received result => some result
  | _ => none

/-- A session that is used by plan while the other end of its connection acts by script. -/
structure ScriptedRun where
  now : Instant
  net : Net
  session : Session
  /-- What the other end has still to do, and when. -/
  script : List (Instant × Deed)
  /-- What is still to be asked of the session. -/
  plan : List ScriptedRun.Item
  call : Option Session.Call := none
  answers : List Session.Answer := []

namespace ScriptedRun

/-- The connection of the session. -/
def link (run : ScriptedRun) : Link :=
  run.net.link run.session.link

/-- The bytes that have arrived and were not taken yet. -/
def unread (run : ScriptedRun) : Bytes :=
  run.link.unread run.session.side

/-- What there is to read, now and later. -/
def outlook (run : ScriptedRun) : Outlook :=
  run.session.outlook run.net (run.script.map Prod.snd)

/-- What the receives have come to, in their order. -/
def received (run : ScriptedRun) : List (Except ConnectionError Bytes) :=
  run.answers.filterMap Session.Answer.received?

/-- No wait has failed. -/
def Unfailing (run : ScriptedRun) : Prop :=
  ∀ error, Session.Answer.readiness (.error error) ∉ run.answers

/-- Both ends of the connection belong to those that the run is about. -/
def holdings (run : ScriptedRun) : Net.Holdings where
  ends := fun link _ => link = run.session.link
  attempts := fun _ => False
  listeners := fun _ => False

/-- One change of a run. -/
inductive Move (run : ScriptedRun) : ScriptedRun → Prop
  | begin {item : Item} {plan : List Item} {call : Session.Call} {session : Session}
      (hcall : run.call = none) (hplan : run.plan = item :: plan)
      (h : run.session.call run.now item.request = (.ok call, session)) :
      Move run { run with session, plan, call := some call }
  | advance {call following : Session.Call} {net : Net} (hcall : run.call = some call)
      (h : run.session.poll run.now run.net call = .advanced (net, following)) :
      Move run { run with net, call := some following }
  | finish {call : Session.Call} {net : Net} {session : Session} {answer : Session.Answer}
      (hcall : run.call = some call)
      (h : run.session.poll run.now run.net call = .done (net, session, answer)) :
      Move run { run with
        net, session
        call := none
        answers := run.answers ++ [answer] }
  | perform {time : Instant} {deed : Deed} {script : List (Instant × Deed)}
      (hscript : run.script = (time, deed) :: script) (htime : time ≤ run.now) :
      Move run { run with
        net := run.net.perform run.session.link run.session.side.other deed
        script }
  | others {net : Net} (h : run.net.Foreign run.holdings net) :
      Move run { run with net }
  | wait {now : Instant} (hnow : run.now ≤ now)
      (hcall : ∀ call, run.call = some call →
        run.session.poll run.now run.net call = .blocked ∧
          ∀ deadline, call.deadline? = some deadline → now ≤ deadline)
      (hscript : ∀ entry script, run.script = entry :: script → now ≤ entry.1) :
      Move run { run with now }

/-- What some changes lead to. -/
inductive Leads (run : ScriptedRun) : ScriptedRun → Prop
  | refl : Leads run run
  | step {middle later : ScriptedRun} (h : Leads run middle) (hmove : middle.Move later) :
      Leads run later

/-- The script is over, and nothing more is asked or can be answered. -/
structure Rests (run : ScriptedRun) : Prop where
  script : run.script = []
  plan : run.call = none → run.plan = []
  call : ∀ call, run.call = some call → call.deadline? = none ∧
    run.session.poll run.now run.net call = .blocked

variable {run middle later last : ScriptedRun}

theorem Leads.trans (h : run.Leads middle) (h' : middle.Leads later) :
    run.Leads later := by
  induction h' with
  | refl => exact h
  | step _ hmove ih => exact ih.step hmove

/-! ## What a move does -/

/-- A call of a session that only listens. -/
inductive Listens : Session.Call → Prop
  | receive {reader : Frame.Reader} (hhungry : reader.feed [] = .more reader) :
      Listens (.receive reader none)
  | waitReadable {deadline : Instant} : Listens (.waitReadable deadline)

/-- What holds of a run at any time. -/
structure Orderly (run : ScriptedRun) : Prop where
  link : run.session.link < run.net.links.length
  lively : run.link.Lively run.session.side
  call : ∀ call, run.call = some call → Listens call

theorem Orderly.hears (h : run.Orderly) {reader : Frame.Reader}
    (hhungry : reader.feed [] = .more reader) :
    run.session.Hears run.net (run.script.map Prod.snd) reader
      (run.session.poll run.now run.net (.receive reader none)) :=
  Session.hears_poll h.link h.lively hhungry _ _

/-- What a move does: to the plan and the call, to the outlook, and to the answers. -/
inductive Effect (run : ScriptedRun) : ScriptedRun → Prop
  | receive {plan : List Item} (hcall : run.call = none)
      (hplan : run.plan = .receive :: plan) :
      Effect run { run with plan, call := some (.receive run.session.reader none) }
  | waitReadable {plan : List Item} {timeout : Nat} (hcall : run.call = none)
      (hplan : run.plan = .waitReadable timeout :: plan) :
      Effect run
        { run with plan, call := some (.waitReadable (run.now + timeout)) }
  | hear {reader following : Frame.Reader} {net : Net}
      (hcall : run.call = some (.receive reader none))
      (hlinks : net.links.length = run.net.links.length)
      (hlively : (net.link run.session.link).Lively run.session.side)
      (hhungry : following.feed [] = .more following)
      (hsame : (run.session.outlook net (run.script.map Prod.snd)).receive following =
        run.outlook.receive reader) :
      Effect run { run with net, call := some (.receive following none) }
  | heard {reader : Frame.Reader} {net : Net} {stats : SessionStats}
      {result : Except ConnectionError Bytes}
      (hcall : run.call = some (.receive reader none))
      (hlinks : net.links.length = run.net.links.length)
      (hlively : (net.link run.session.link).Lively run.session.side)
      (hresult : run.outlook.receive reader =
        some (result, run.session.outlook net (run.script.map Prod.snd))) :
      Effect run { run with
        net
        session := { run.session with stats }
        call := none
        answers := run.answers ++ [.received result] }
  | found {deadline : Instant} {readiness : Readiness}
      (hcall : run.call = some (.waitReadable deadline))
      (h : (run.link.arrival run.session.side).found? = some (.ok readiness)) :
      Effect run { run with
        call := none
        answers := run.answers ++ [.readiness (.ok readiness)] }
  | failed {deadline : Instant} {cause : IoCause}
      (hcall : run.call = some (.waitReadable deadline))
      (h : run.link.arrival run.session.side = .failed cause) :
      Effect run { run with
        net := run.net.changeLink run.session.link (·.report run.session.side)
        call := none
        answers := run.answers ++ [.readiness (.error (.ofCause cause))] }
  | idle {deadline : Instant} (hcall : run.call = some (.waitReadable deadline))
      (h : run.link.arrival run.session.side = .nothing)
      (hover : deadline ≤ run.now) :
      Effect run { run with
        call := none
        answers := run.answers ++ [.readiness (.ok .idle)] }
  | perform {time : Instant} {deed : Deed} {script : List (Instant × Deed)} {net : Net}
      (hscript : run.script = (time, deed) :: script) (htime : time ≤ run.now)
      (hlinks : net.links.length = run.net.links.length)
      (hlink : net.link run.session.link =
        run.link.perform run.session.side.other deed) :
      Effect run { run with net, script }
  | others {net : Net} (hlinks : run.net.links.length ≤ net.links.length)
      (hlink : net.link run.session.link = run.link) :
      Effect run { run with net }
  | wait {now : Instant} (hnow : run.now ≤ now)
      (hcall : ∀ deadline, run.call = some (.waitReadable deadline) →
        run.link.arrival run.session.side = .nothing ∧ now ≤ deadline)
      (hscript : ∀ entry script, run.script = entry :: script → now ≤ entry.1) :
      Effect run { run with now }

/-- Nobody else has a part in the connection. -/
theorem link_of_foreign (h : run.Orderly) {net : Net}
    (hforeign : run.net.Foreign run.holdings net) :
    net.link run.session.link = run.link :=
  (hforeign.acts h.link).eq fun _ hfree => hfree rfl

theorem Move.effect (h : run.Orderly) (hmove : run.Move later) :
    run.Effect later := by
  cases hmove with
  | @begin item plan call session hcall hplan hbegin =>
      cases item with
      | receive =>
          cases hbegin
          exact .receive hcall hplan
      | waitReadable timeout =>
          cases hbegin
          exact .waitReadable hcall hplan
  | @advance call following net hcall hpoll =>
      cases h.call call hcall with
      | @receive reader hhungry =>
          have hhears := h.hears hhungry
          rw [hpoll] at hhears
          cases hhears with
          | advanced hlinks hlively hhungry _ hsame =>
              exact .hear hcall hlinks hlively hhungry hsame
      | @waitReadable deadline =>
          have hwatches := Session.watches_poll h.lively run.now deadline
          rw [hpoll] at hwatches
          cases hwatches
  | @finish call net session answer hcall hpoll =>
      cases h.call call hcall with
      | @receive reader hhungry =>
          have hhears := h.hears hhungry
          rw [hpoll] at hhears
          cases hhears with
          | done hlinks hlively hresult => exact .heard hcall hlinks hlively hresult
      | @waitReadable deadline =>
          have hwatches := Session.watches_poll h.lively run.now deadline
          rw [hpoll] at hwatches
          cases hwatches with
          | found hfound => exact .found hcall hfound
          | failed hfailed => exact .failed hcall hfailed
          | idle hnothing hover => exact .idle hcall hnothing hover
  | perform hscript htime =>
      exact .perform hscript htime (Net.length_perform _ _ _ _) (Net.link_perform _ h.link _ _)
  | others hforeign => exact .others hforeign.evolves.links (link_of_foreign h hforeign)
  | wait hnow hcall hscript =>
      refine .wait hnow ?_ hscript
      intro deadline hwaiting
      obtain ⟨hblocked, hdeadline⟩ := hcall _ hwaiting
      have hwatches := Session.watches_poll h.lively run.now deadline
      rw [hblocked] at hwatches
      cases hwatches with
      | blocked hnothing _ => exact ⟨hnothing, hdeadline deadline rfl⟩

theorem Effect.orderly (h : run.Orderly) (heffect : run.Effect later) :
    later.Orderly := by
  cases heffect with
  | receive _ _ =>
      exact ⟨h.link, h.lively, by rintro _ ⟨⟩; exact .receive (Source.hungry_start _ _)⟩
  | waitReadable _ _ => exact ⟨h.link, h.lively, by rintro _ ⟨⟩; exact .waitReadable⟩
  | hear _ hlinks hlively hhungry _ =>
      exact ⟨hlinks ▸ h.link, hlively, by rintro _ ⟨⟩; exact .receive hhungry⟩
  | heard _ hlinks hlively _ => exact ⟨hlinks ▸ h.link, hlively, by rintro _ ⟨⟩⟩
  | found _ _ => exact ⟨h.link, h.lively, by rintro _ ⟨⟩⟩
  | failed _ _ =>
      refine ⟨(Net.length_changeLink _ _ _).symm ▸ h.link, ?_, by rintro _ ⟨⟩⟩
      rw [link, Net.link_changeLink _ _ _ h.link]
      exact h.lively.report
  | idle _ _ _ => exact ⟨h.link, h.lively, by rintro _ ⟨⟩⟩
  | perform _ _ hlinks hlink =>
      refine ⟨hlinks ▸ h.link, ?_, h.call⟩
      rw [link, hlink]
      exact h.lively.perform _
  | others hlinks hlink =>
      refine ⟨Nat.lt_of_lt_of_le h.link hlinks, ?_, h.call⟩
      rw [link, hlink]
      exact h.lively
  | wait _ _ _ => exact ⟨h.link, h.lively, h.call⟩

theorem Leads.orderly (h : run.Orderly) (hleads : run.Leads later) : later.Orderly := by
  induction hleads with
  | refl => exact h
  | step _ hmove ih => exact (hmove.effect ih).orderly ih

end ScriptedRun

end NodeHealth
