import NodeHealth.Proofs.Net.Others
import NodeHealth.Session.Call

/-!
# What a session counts

A session that is asked to receive, to send and to wait, in any order and with any deadlines,
while others do what they like at the other end, counts the frames that it received and sent
and their bytes, and nothing else. As long as no send has failed, what was written at its end
is what the sends that succeeded were to write, one frame after the other.

## Implementation notes

A call goes on in steps, between which others act and time passes. What a call has written so
far is `Carries`, so that one step either adds to that or ends the call. Time may pass at any
moment, also while a call could go on, since nothing that is shown here depends on its being
carried out in time.

-/

namespace NodeHealth

variable {net later : Net} {session next : Session} {now : Instant}

namespace Session

/-- Every byte that was written at the end of a session. -/
def wire (session : Session) (net : Net) : Bytes :=
  ((net.link session.link).endAt session.side).written

/-! ## Single steps -/

/-- The bytes of a frame, or nothing if the payload cannot be framed. -/
def frame (session : Session) (payload : Bytes) : Bytes :=
  (Frame.encode session.framing payload).toOption.getD []

theorem Continues.frame (h : session.Continues next) : next.frame = session.frame := by
  funext payload
  rw [Session.frame, Session.frame, h.framing]

theorem Continues.wire (h : session.Continues next) (net : Net) :
    next.wire net = session.wire net := by
  rw [Session.wire, Session.wire, h.link, h.side]

theorem wire_changeLink {change : Link → Link} (hlink : session.link < net.links.length) :
    session.wire (net.changeLink session.link change) =
      ((change (net.link session.link)).endAt session.side).written := by
  rw [wire, Net.link_changeLink net _ _ hlink]

theorem wire_take (hlink : session.link < net.links.length) (count : Nat) :
    session.wire (net.changeLink session.link (·.take session.side count)) = session.wire net := by
  rw [wire_changeLink hlink, Link.take, Link.endAt_setEnd, wire]

theorem wire_report (hlink : session.link < net.links.length) :
    session.wire (net.changeLink session.link (·.report session.side)) = session.wire net := by
  rw [wire_changeLink hlink, Link.report, Link.endAt_setEnd, wire]

/-- Writing puts on the wire as many bytes as it says. -/
theorem wire_wrote {bytes : Bytes} {count : Nat} {link : Link}
    (hlink : session.link < net.links.length)
    (h : (net.link session.link).write session.side bytes = (.wrote count, link)) :
    session.wire (net.changeLink session.link fun _ => link) =
      session.wire net ++ bytes.take count := by
  obtain ⟨rfl, _⟩ := Link.write_wrote_eq h
  rw [wire_changeLink hlink, Link.endAt_setEnd, wire]

theorem wire_failed {bytes : Bytes} {cause : IoCause} {link : Link}
    (hlink : session.link < net.links.length)
    (h : (net.link session.link).write session.side bytes = (.failed cause, link)) :
    session.wire (net.changeLink session.link fun _ => link) = session.wire net := by
  rcases Link.write_failed_cases h with ⟨_, rfl⟩ | ⟨_, _, rfl⟩
  · rw [wire_changeLink hlink, Link.report, Link.endAt_setEnd, wire]
  · rw [wire_changeLink hlink, wire]

/-- How a call goes on, and what it writes. -/
inductive Advances : Call → Bytes → Call → Prop
  | receive {reader following : Frame.Reader} {deadline : Option Instant} :
      Advances (.receive reader deadline) [] (.receive following deadline)
  | send {sending : Sending} {deadline : Option Instant} (count : Nat) :
      Advances (.send sending deadline) (sending.rest.take count)
        (.send { sending with rest := sending.rest.drop count } deadline)

/-- How a call ends, what it writes at the end, and what the session counts. A frame that is
not received is never said to be lost by an end of the stream within the protocol, nor by a
failure outside of it. -/
inductive Ends (session : Session) : Call → Bytes → Session → Answer → Prop
  | received {reader : Frame.Reader} {deadline : Option Instant} (payload : Bytes) :
      Ends session (.receive reader deadline) [] (session.countReceived payload)
        (.received (.ok payload))
  | lost {reader : Frame.Reader} {deadline : Option Instant} {error : ConnectionError}
      (hclosed : error ≠ .protocol .closed) (hio : ∀ failure, error ≠ .io failure) :
      Ends session (.receive reader deadline) [] session (.received (.error error))
  | sent {sending : Sending} {deadline : Option Instant} :
      Ends session (.send sending deadline) sending.rest (session.countSent sending.length)
        (.sent (.ok ()))
  | failed {sending : Sending} {deadline : Option Instant} (error : ConnectionError) :
      Ends session (.send sending deadline) [] session (.sent (.error error))
  | found {deadline : Instant} (result : Except ConnectionError Readiness) :
      Ends session (.waitReadable deadline) [] session (.readiness result)

/-- What a session says of an error of the wire format. -/
theorem receiveError_ne (error : WireError) :
    receiveError error ≠ .protocol .closed ∧ ∀ failure, receiveError error ≠ .io failure := by
  cases error <;> simp [receiveError]

/-- Whatever a call does in one step, the network has the same connections, and at the
session's end there is what was there and what the call has written. -/
structure Writes (session : Session) (net later : Net) (wrote : Bytes) : Prop where
  wire : session.wire later = session.wire net ++ wrote
  links : later.links.length = net.links.length

theorem writes_refl (session : Session) (net : Net) : session.Writes net net [] :=
  ⟨(List.append_nil _).symm, rfl⟩

theorem writes_take (hlink : session.link < net.links.length) (count : Nat) :
    session.Writes net (net.changeLink session.link (·.take session.side count)) [] :=
  ⟨(wire_take hlink count).trans (List.append_nil _).symm, Net.length_changeLink _ _ _⟩

theorem writes_report (hlink : session.link < net.links.length) :
    session.Writes net (net.changeLink session.link (·.report session.side)) [] :=
  ⟨(wire_report hlink).trans (List.append_nil _).symm, Net.length_changeLink _ _ _⟩

/-- One step of a call: it stays as it is, it goes on, or it ends. -/
inductive Goes (session : Session) (net : Net) (call : Call) :
    Poll (Net × Call) (Net × Session × Answer) → Prop
  | blocked : Goes session net call .blocked
  | advanced {later : Net} {wrote : Bytes} {following : Call} (h : Advances call wrote following)
      (hwrites : session.Writes net later wrote) :
      Goes session net call (.advanced (later, following))
  | done {later : Net} {wrote : Bytes} {next : Session} {answer : Answer}
      (h : session.Ends call wrote next answer) (hwrites : session.Writes net later wrote) :
      Goes session net call (.done (later, next, answer))

theorem goes_receive (hlink : session.link < net.links.length) (reader : Frame.Reader)
    (deadline : Option Instant) :
    session.Goes net (.receive reader deadline)
      (session.proceed net (.receive reader deadline)) := by
  have hdone : ∀ {changed : Net} (found : Except WireError Bytes),
      session.Writes net changed [] →
        session.Goes net (.receive reader deadline)
          (match session.received changed found with
            | (net, session, result) => .done (net, session, .received result)) := by
    intro changed found hwrites
    cases found with
    | ok payload => exact .done (.received payload) hwrites
    | error error =>
        obtain ⟨hclosed, hio⟩ := receiveError_ne error
        exact .done (.lost hclosed hio) hwrites
  simp only [proceed, receive]
  cases (net.link session.link).arrival session.side with
  | nothing => exact .blocked
  | ended => exact hdone (.error .closed) (writes_refl session net)
  | failed cause => exact hdone (.error (.io (.ofSystem cause))) (writes_report hlink)
  | bytes unread =>
      cases hfeed : reader.feed unread with
      | more following =>
          simp only [hfeed]
          exact .advanced .receive (writes_take hlink _)
      | done result rest =>
          simp only [hfeed]
          exact hdone result (writes_take hlink _)

theorem goes_send (hlink : session.link < net.links.length) (sending : Sending)
    (deadline : Option Instant) :
    session.Goes net (.send sending deadline)
      (session.proceed net (.send sending deadline)) := by
  rcases hwrite : (net.link session.link).write session.side sending.rest with ⟨delivery, link⟩
  have hlength := Net.length_changeLink net session.link fun _ => link
  simp only [proceed, deliver, hwrite]
  cases delivery with
  | failed cause =>
      have hwire := (wire_failed hlink hwrite).trans (List.append_nil _).symm
      exact .done (.failed _) ⟨hwire, hlength⟩
  | wrote count =>
      have hwire := wire_wrote hlink hwrite
      by_cases hall : sending.rest.length ≤ count
      · simp only [if_pos hall]
        rw [List.take_of_length_le hall] at hwire
        exact .done .sent ⟨hwire, hlength⟩
      · by_cases hnone : count = 0
        · simp only [if_neg hall, if_pos hnone]
          exact .blocked
        · simp only [if_neg hall, if_neg hnone]
          exact .advanced (.send count) ⟨hwire, hlength⟩

theorem goes_waitReadable (hlink : session.link < net.links.length) (deadline : Instant) :
    session.Goes net (.waitReadable deadline)
      (session.proceed net (.waitReadable deadline)) := by
  rw [proceed, readiness?]
  cases (net.link session.link).arrival session.side with
  | nothing => exact .blocked
  | ended => exact .done (.found _) (writes_refl session net)
  | failed cause => exact .done (.found _) (writes_report hlink)
  | bytes unread => exact .done (.found _) (writes_refl session net)

theorem ends_expired (session : Session) (call : Call) :
    session.Ends call [] session call.expired := by
  cases call with
  | receive reader deadline => exact .lost (by simp) (by simp)
  | send sending deadline => exact .failed .timeout
  | waitReadable deadline => exact .found _

/-- Whatever a call does in one step is one of the above, also if it is given up. -/
theorem goes_poll (hlink : session.link < net.links.length) (now : Instant) (call : Call) :
    session.Goes net call (session.poll now net call) := by
  have hproceed : session.Goes net call (session.proceed net call) := by
    cases call with
    | receive reader deadline => exact goes_receive hlink reader deadline
    | send sending deadline => exact goes_send hlink sending deadline
    | waitReadable deadline => exact goes_waitReadable hlink deadline
  rw [poll]
  split
  · split
    · exact .done (ends_expired session call) (writes_refl session net)
    · exact .blocked
  · exact hproceed

end Session

/-! ## A session in use -/

/-- A session, the network that it shares with others, the time, the request that is being
carried out, and what became of those before it, in their order. -/
structure SessionRun where
  now : Instant
  net : Net
  session : Session
  pending : Option (Session.Request × Session.Call) := none
  log : List (Session.Request × Session.Answer) := []

namespace SessionRun

/-- What the user of a session holds. -/
def holdings (run : SessionRun) : Net.Holdings where
  ends := fun link side => link = run.session.link ∧ side = run.session.side
  attempts := fun _ => False
  listeners := fun _ => False

/-- One change of a session in use. -/
inductive Move (run : SessionRun) : SessionRun → Prop
  | request {request : Session.Request} {call : Session.Call} {session : Session}
      (hidle : run.pending = none)
      (h : run.session.call run.now request = (.ok call, session)) :
      Move run { run with session, pending := some (request, call) }
  | refuse {request : Session.Request} {answer : Session.Answer} {session : Session}
      (hidle : run.pending = none)
      (h : run.session.call run.now request = (.error answer, session)) :
      Move run { run with session, log := run.log ++ [(request, answer)] }
  | advance {request : Session.Request} {call following : Session.Call} {net : Net}
      (hpending : run.pending = some (request, call))
      (h : run.session.poll run.now run.net call = .advanced (net, following)) :
      Move run { run with net, pending := some (request, following) }
  | finish {request : Session.Request} {call : Session.Call} {net : Net} {session : Session}
      {answer : Session.Answer} (hpending : run.pending = some (request, call))
      (h : run.session.poll run.now run.net call = .done (net, session, answer)) :
      Move run { run with
        net, session
        pending := none
        log := run.log ++ [(request, answer)] }
  | others {net : Net} (h : run.net.Foreign run.holdings net) : Move run { run with net }
  | wait {now : Instant} (h : run.now ≤ now) : Move run { run with now }

/-- A session in use, from when it was opened on a connection at whose end nothing had been
written, whatever is in its write buffer. -/
inductive Reachable : SessionRun → Prop
  | begin {now : Instant} {net : Net} {session : Session}
      (hlink : session.link < net.links.length) (hstats : session.stats = {})
      (hwire : session.wire net = []) : Reachable { now, net, session }
  | move {run later : SessionRun} (h : Reachable run) (hmove : run.Move later) :
      Reachable later

/-- The payload that a request received, if it did. -/
def receivedBy : Session.Request × Session.Answer → List Bytes
  | (_, .received (.ok payload)) => [payload]
  | _ => []

/-- The payload that a request sent, if it did. -/
def sentBy : Session.Request × Session.Answer → List Bytes
  | (.send payload, .sent (.ok ())) => [payload]
  | _ => []

/-- The payloads that were received. -/
def received (run : SessionRun) : List Bytes :=
  run.log.flatMap receivedBy

/-- The payloads that were sent. -/
def sent (run : SessionRun) : List Bytes :=
  run.log.flatMap sentBy

/-- The frames that were sent, prefixes included. -/
def frames (run : SessionRun) : List Bytes :=
  run.sent.map run.session.frame

/-- No send has failed, neither because its payload could not be framed nor on the way. -/
def Unfailing (run : SessionRun) : Prop :=
  ∀ request error, (request, Session.Answer.sent (.error error)) ∉ run.log

/-! ## What holds at any time -/

variable {run later : SessionRun} {request : Session.Request} {call following : Session.Call}
  {answer : Session.Answer} {wrote : Bytes}

/-- What a request that is being carried out has written so far: of a frame that is sent, all
that is not still to be written. The write buffer then holds this frame and nothing else. -/
inductive Carries (session : Session) : Option (Session.Request × Session.Call) → Bytes → Prop
  | idle : Carries session none []
  | receive {timeout : Option Nat} {reader : Frame.Reader} {deadline : Option Instant} :
      Carries session (some (.receive timeout, .receive reader deadline)) []
  | send {payload wrote rest : Bytes} {deadline : Option Instant}
      (h : Frame.encode session.framing payload = .ok (wrote ++ rest))
      (hbuffer : session.writeBuffer = wrote ++ rest) :
      Carries session (some (.send payload, .send ⟨(wrote ++ rest).length, rest⟩ deadline)) wrote
  | waitReadable {timeout : Nat} {deadline : Instant} :
      Carries session (some (.waitReadable timeout, .waitReadable deadline)) []

/-- The statistics of frames that were sent and payloads that were received. -/
def tally (frames received : List Bytes) : SessionStats where
  framesSent := .ofNat frames.length
  framesReceived := .ofNat received.length
  bytesSent := .ofNat frames.flatten.length
  bytesReceived := .ofNat received.flatten.length

/-- What the session has counted and written is what the log says. -/
structure Sound (run : SessionRun) : Prop where
  link : run.session.link < run.net.links.length
  stats : run.session.stats = tally run.frames run.received
  framed : ∀ payload ∈ run.sent, ∃ frame,
    Frame.encode run.session.framing payload = .ok frame
  lost : ∀ request error, (request, Session.Answer.received (.error error)) ∈ run.log →
    error ≠ .protocol .closed ∧ ∀ failure, error ≠ .io failure
  carried : ∃ wrote, Carries run.session run.pending wrote ∧
    (run.Unfailing → run.session.wire run.net = run.frames.flatten ++ wrote)

/-- Beginning a request changes nothing of the session but its write buffer. -/
theorem eq_holding_of_call {result : Except Session.Answer Session.Call}
    (h : session.call now request = (result, next)) :
    next = session.holding next.writeBuffer := by
  cases request with
  | receive timeout =>
      cases h
      rfl
  | send payload =>
      simp only [Session.call] at h
      split at h <;> rename_i hprepare <;> cases h <;>
        exact Session.eq_holding_of_prepare hprepare
  | waitReadable timeout =>
      cases h
      rfl

theorem kept_of_call {result : Except Session.Answer Session.Call}
    (h : session.call now request = (result, next)) :
    session.Continues next ∧ next.stats = session.stats := by
  rw [eq_holding_of_call h]
  exact ⟨session.continues_holding _, rfl⟩

/-- A request that begins has written nothing, whatever the write buffer held before. -/
theorem carries_call (h : session.call now request = (.ok call, next)) :
    Carries next (some (request, call)) [] := by
  cases request with
  | receive timeout =>
      cases h
      exact .receive
  | send payload =>
      cases hencode : Frame.encode session.framing payload with
      | error error => simp [Session.call, Session.prepare_of_error hencode] at h
      | ok frame =>
          simp only [Session.call, Session.prepare_of_encode hencode] at h
          cases h
          exact @Carries.send (session.holding frame) payload [] frame _ hencode rfl
  | waitReadable timeout =>
      cases h
      exact .waitReadable

theorem refused_call (h : session.call now request = (.error answer, next)) :
    ∃ error, answer = .sent (.error error) := by
  cases request with
  | receive timeout => cases h
  | send payload =>
      simp only [Session.call] at h
      split at h
      · cases h
      · cases h
        exact ⟨_, rfl⟩
  | waitReadable timeout => cases h

theorem Carries.advances (h : Carries session (some (request, call)) wrote) {more : Bytes}
    (hadvances : Session.Advances call more following) :
    Carries session (some (request, following)) (wrote ++ more) := by
  cases h with
  | receive =>
      cases hadvances
      exact .receive
  | send hencode hbuffer =>
      cases hadvances with
      | @send _ _ count =>
          rename_i payload rest deadline
          have hsplit : wrote ++ rest = (wrote ++ rest.take count) ++ rest.drop count := by
            rw [List.append_assoc, List.take_append_drop]
          rw [hsplit] at hencode hbuffer ⊢
          exact .send hencode hbuffer
  | waitReadable => cases hadvances

/-- How a request that ends enters the books: what is counted, and what has been written for
it on the whole. -/
structure Books (session next : Session) (entry : Session.Request × Session.Answer)
    (written : Bytes) : Prop where
  same : session.Continues next
  stats : ∀ frames received, session.stats = tally frames received →
    next.stats = tally (frames ++ (sentBy entry).map session.frame) (received ++ receivedBy entry)
  framed : ∀ payload ∈ sentBy entry, ∃ frame, Frame.encode session.framing payload = .ok frame
  lost : ∀ error, entry.2 = .received (.error error) →
    error ≠ .protocol .closed ∧ ∀ failure, error ≠ .io failure
  written : (∀ error, entry.2 ≠ .sent (.error error)) →
    written = ((sentBy entry).map session.frame).flatten

theorem tally_received (frames received : List Bytes) (payload : Bytes)
    (h : session.stats = tally frames received) :
    (session.countReceived payload).stats = tally frames (received ++ [payload]) := by
  simp [Session.countReceived, h, tally, UInt64.ofNat_add]

theorem tally_sent (frames received : List Bytes) (frame : Bytes)
    (h : session.stats = tally frames received) :
    (session.countSent frame.length).stats = tally (frames ++ [frame]) received := by
  simp [Session.countSent, h, tally, UInt64.ofNat_add]

theorem frame_of_encode {payload frame : Bytes}
    (h : Frame.encode session.framing payload = .ok frame) : session.frame payload = frame := by
  rw [Session.frame, h]
  rfl

/-- A request of which nothing is counted. -/
theorem books_uncounted {entry : Session.Request × Session.Answer}
    (hsame : session.Continues next) (hstats : next.stats = session.stats)
    (hreceived : receivedBy entry = []) (hsent : sentBy entry = [])
    (hlost : ∀ error, entry.2 = .received (.error error) →
      error ≠ .protocol .closed ∧ ∀ failure, error ≠ .io failure)
    (hwritten : (∀ error, entry.2 ≠ .sent (.error error)) → wrote = []) :
    Books session next entry wrote where
  same := hsame
  stats := by simp [hreceived, hsent, hstats]
  framed := by simp [hsent]
  lost := hlost
  written := by simpa [hsent] using hwritten

theorem books_failed (hsame : session.Continues next) (hstats : next.stats = session.stats)
    (request : Session.Request) (error : ConnectionError) :
    Books session next (request, .sent (.error error)) wrote :=
  books_uncounted hsame hstats rfl (by cases request <;> rfl) (fun _ h => by cases h)
    fun h => absurd rfl (h error)

/-- A call that ends enters the books with all that it has written. -/
theorem Carries.books {more : Bytes} (h : Carries session (some (request, call)) wrote)
    (hends : session.Ends call more next answer) :
    Books session next (request, answer) (wrote ++ more) := by
  cases h with
  | receive =>
      cases hends with
      | received payload =>
          exact {
            same := session.continues_countReceived payload
            stats := fun frames received hstats => by
              simpa [sentBy, receivedBy] using tally_received frames received payload hstats
            framed := fun _ hmem => by cases hmem
            lost := fun _ heq => by cases heq
            written := fun _ => rfl }
      | lost hclosed hio =>
          refine books_uncounted (.refl _) rfl rfl rfl (fun error heq => ?_) fun _ => rfl
          cases heq
          exact ⟨hclosed, hio⟩
  | send hencode hbuffer =>
      rename_i payload rest deadline
      have hframe := frame_of_encode hencode
      cases hends with
      | sent =>
          exact {
            same := session.continues_countSent _
            stats := fun frames received h => by
              simpa only [sentBy, receivedBy, List.map_singleton, hframe, List.append_nil]
                using tally_sent frames received (wrote ++ rest) h
            framed := fun _ hmem => by
              obtain rfl := List.mem_singleton.mp hmem
              exact ⟨_, hencode⟩
            lost := fun _ heq => by cases heq
            written := fun _ => by simp [sentBy, hframe] }
      | failed error => exact books_failed (.refl _) rfl _ error
  | waitReadable =>
      cases hends with
      | found result =>
          exact books_uncounted (.refl _) rfl rfl rfl (fun _ heq => by cases heq) fun _ => rfl

/-- What has entered the books is what the log says. -/
theorem Sound.booked (h : run.Sound) {entry : Session.Request × Session.Answer}
    (hbooks : Books run.session next entry wrote)
    (hlinks : run.net.links.length ≤ net.links.length)
    (hwire : run.Unfailing → next.wire net = run.frames.flatten ++ wrote) :
    Sound { run with
      net
      session := next
      pending := none
      log := run.log ++ [entry] } := by
  have hframing := hbooks.same.framing
  have hframe := hbooks.same.frame
  let later : SessionRun :=
    { run with net, session := next, pending := none, log := run.log ++ [entry] }
  have hreceived : later.received = run.received ++ receivedBy entry := by
    simp [later, received]
  have hsent : later.sent = run.sent ++ sentBy entry := by
    simp [later, sent]
  have hframes : later.frames = run.frames ++ (sentBy entry).map run.session.frame := by
    rw [frames, hsent, List.map_append, hframe, ← frames]
  constructor
  case link => exact Nat.lt_of_lt_of_le (hbooks.same.link ▸ h.link) hlinks
  case stats =>
    rw [hframes, hreceived]
    exact hbooks.stats _ _ h.stats
  case framed =>
    intro payload hmem
    rw [hsent, List.mem_append] at hmem
    rw [hframing]
    rcases hmem with hmem | hmem
    · exact h.framed payload hmem
    · exact hbooks.framed payload hmem
  case lost =>
    intro request error hmem
    rcases List.mem_append.mp hmem with hmem | hmem
    · exact h.lost request error hmem
    · exact hbooks.lost error (by rw [← List.mem_singleton.mp hmem])
  case carried =>
    refine ⟨[], .idle, fun hunfailing => ?_⟩
    have hbefore : run.Unfailing := fun request error hmem =>
      hunfailing request error (List.mem_append_left _ hmem)
    have hwritten := hbooks.written fun error heq =>
      hunfailing entry.1 error (List.mem_append_right _ (by simp [← heq]))
    rw [hframes, List.flatten_append, ← hwritten, List.append_nil]
    exact hwire hbefore

theorem sound_begin (hlink : session.link < net.links.length) (hstats : session.stats = {})
    (hwire : session.wire net = []) : Sound { now, net, session } where
  link := hlink
  stats := hstats
  framed := fun _ hmem => by cases hmem
  lost := fun _ _ hmem => by cases hmem
  carried := ⟨[], .idle, fun _ => hwire⟩

/-- Nothing enters the books while a request is being carried out. -/
theorem Sound.carries (h : run.Sound) {pending : Option (Session.Request × Session.Call)}
    (hsame : run.session.Continues next) (hstats : next.stats = run.session.stats)
    (hcarries : Carries next pending wrote)
    (hlinks : run.net.links.length ≤ net.links.length)
    (hwire : run.Unfailing → run.session.wire net = run.frames.flatten ++ wrote) :
    Sound { run with net, session := next, pending } := by
  have hframes : frames { run with net, session := next, pending } = run.frames := by
    rw [frames, hsame.frame]
    rfl
  constructor
  case link => exact Nat.lt_of_lt_of_le (hsame.link ▸ h.link) hlinks
  case stats =>
    rw [hframes]
    exact hstats.trans h.stats
  case framed =>
    intro payload hmem
    rw [hsame.framing]
    exact h.framed payload hmem
  case lost => exact h.lost
  case carried =>
    refine ⟨wrote, hcarries, fun hunfailing => ?_⟩
    rw [hframes, hsame.wire]
    exact hwire hunfailing

/-- Others write nothing at the session's end. -/
theorem wire_of_foreign (h : run.Sound) (hforeign : run.net.Foreign run.holdings net) :
    run.session.wire net = run.session.wire run.net := by
  have hevolves := hforeign.evolves
  have hmine : run.holdings.ends run.session.link run.session.side := ⟨rfl, rfl⟩
  exact (hevolves.beside hmine h.link).written

/-- One change keeps the books. -/
theorem Move.sound (h : run.Sound) (hmove : run.Move later) : later.Sound := by
  obtain ⟨wrote, hcarries, hwire⟩ := h.carried
  cases hmove with
  | @request request call next hidle hcall =>
      rw [hidle] at hcarries
      cases hcarries
      obtain ⟨hsame, hstats⟩ := kept_of_call hcall
      exact h.carries hsame hstats (carries_call hcall) (Nat.le_refl _) hwire
  | @refuse request answer next hidle hcall =>
      rw [hidle] at hcarries
      cases hcarries
      obtain ⟨error, rfl⟩ := refused_call hcall
      obtain ⟨hsame, hstats⟩ := kept_of_call hcall
      have hbooked := h.booked (books_failed hsame hstats request error) (Nat.le_refl _)
        (fun hunfailing => (hsame.wire _).trans (hwire hunfailing))
      rwa [← hidle] at hbooked
  | @advance request call following net hpending hpoll =>
      rw [hpending] at hcarries
      have hgoes := Session.goes_poll h.link run.now call
      rw [hpoll] at hgoes
      cases hgoes with
      | advanced hadvances hwrites =>
          refine h.carries (.refl _) rfl (hcarries.advances hadvances)
            (Nat.le_of_eq hwrites.links.symm) ?_
          intro hunfailing
          rw [hwrites.wire, hwire hunfailing, List.append_assoc]
  | @finish request call net next answer hpending hpoll =>
      rw [hpending] at hcarries
      have hgoes := Session.goes_poll h.link run.now call
      rw [hpoll] at hgoes
      cases hgoes with
      | done hends hwrites =>
          have hbooks := hcarries.books hends
          have hnext := hbooks.same.wire net
          refine h.booked hbooks (Nat.le_of_eq hwrites.links.symm) ?_
          intro hunfailing
          rw [hnext, hwrites.wire, hwire hunfailing, List.append_assoc]
  | others hforeign =>
      refine h.carries (.refl _) rfl hcarries hforeign.evolves.links ?_
      intro hunfailing
      rw [wire_of_foreign h hforeign, hwire hunfailing]
  | wait hnow => exact ⟨h.link, h.stats, h.framed, h.lost, wrote, hcarries, hwire⟩

theorem Reachable.sound (h : run.Reachable) : run.Sound := by
  induction h with
  | begin hlink hstats hwire => exact sound_begin hlink hstats hwire
  | move _ hmove ih => exact hmove.sound ih

/-! ## The counters and the wire -/

/-- Whether an entry of the log is a frame that was received or sent. -/
def Succeeds (entry : Session.Request × Session.Answer) : Prop :=
  receivedBy entry ≠ [] ∨ sentBy entry ≠ []

theorem Books.stats_of_not_succeeds {entry : Session.Request × Session.Answer}
    (hbooks : Books session next entry wrote) {frames received : List Bytes}
    (hstats : session.stats = tally frames received) (h : ¬Succeeds entry) :
    next.stats = session.stats := by
  simp only [Succeeds, not_or, ne_eq, Decidable.not_not] at h
  have hnext := hbooks.stats frames received hstats
  rw [hnext, hstats, h.1, h.2, List.map_nil, List.append_nil, List.append_nil]

/-- The counters change only when a frame has been received or sent. -/
theorem Move.counts (h : run.Sound) (hmove : run.Move later) :
    later.session.stats = run.session.stats ∨
      ∃ entry, Succeeds entry ∧ later.log = run.log ++ [entry] := by
  cases hmove with
  | @finish request call net next answer hpending hpoll =>
      obtain ⟨wrote, hcarries, _⟩ := h.carried
      rw [hpending] at hcarries
      have hgoes := Session.goes_poll h.link run.now call
      rw [hpoll] at hgoes
      cases hgoes with
      | done hends hwrites =>
          by_cases hsucceeds : Succeeds (request, answer)
          · exact .inr ⟨_, hsucceeds, rfl⟩
          · exact .inl ((hcarries.books hends).stats_of_not_succeeds h.stats hsucceeds)
  | request hidle hcall => exact .inl (kept_of_call hcall).2
  | refuse hidle hcall => exact .inl (kept_of_call hcall).2
  | _ => exact .inl rfl

/-- The four counters are what the log says: the frames that were received, the bytes of their
payloads, the frames that were sent, and the bytes of these frames. Only a frame that was
received or sent changes them. As long as no send has failed, exactly the frames that were sent
have been written, and of a frame that is being sent its beginning: nothing is carried over in
the write buffer, whatever it held. And a receive fails neither with the end of the stream as an
error of the protocol nor with a bare failure. -/
theorem accounting (h : run.Reachable) :
    (run.received.length < UInt64.size →
      run.session.stats.framesReceived.toNat = run.received.length) ∧
    (run.received.flatten.length < UInt64.size →
      run.session.stats.bytesReceived.toNat = run.received.flatten.length) ∧
    (run.frames.length < UInt64.size →
      run.session.stats.framesSent.toNat = run.frames.length) ∧
    (run.frames.flatten.length < UInt64.size →
      run.session.stats.bytesSent.toNat = run.frames.flatten.length) ∧
    (∀ later, run.Move later → later.session.stats = run.session.stats ∨
      ∃ entry, Succeeds entry ∧ later.log = run.log ++ [entry]) ∧
    (∀ payload ∈ run.sent,
      Frame.encode run.session.framing payload = .ok (run.session.frame payload)) ∧
    (run.Unfailing → ∃ wrote, run.session.wire run.net = run.frames.flatten ++ wrote ∧
      Carries run.session run.pending wrote) ∧
    (∀ request error, (request, Session.Answer.received (.error error)) ∈ run.log →
      error ≠ .protocol .closed ∧ ∀ failure, error ≠ .io failure) := by
  have hsound := h.sound
  have hexact : ∀ {n : Nat}, n < UInt64.size → (UInt64.ofNat n).toNat = n := fun hlt =>
    UInt64.toNat_ofNat_of_lt' hlt
  refine ⟨?_, ?_, ?_, ?_, fun later hmove => hmove.counts hsound, ?_, ?_, hsound.lost⟩
  · rw [hsound.stats]
    exact hexact
  · rw [hsound.stats]
    exact hexact
  · rw [hsound.stats]
    exact hexact
  · rw [hsound.stats]
    exact hexact
  · intro payload hmem
    obtain ⟨frame, hencode⟩ := hsound.framed payload hmem
    rw [hencode, frame_of_encode hencode]
  · intro hunfailing
    obtain ⟨wrote, hcarries, hwire⟩ := hsound.carried
    exact ⟨wrote, hwire hunfailing, hcarries⟩

/-! ## An exchange -/

namespace Exchange

/-- The frame of an announcement. -/
def announcement : Bytes := [0x02, 0, 0, 0, 0x08, 0x0D]

/-- The frame of a reply. -/
def reply : Bytes := [0x02, 0, 0, 0, 0x08, 0x01]

/-- The session of the acceptor. -/
def acceptor (writeBuffer : Bytes) (stats : SessionStats) : Session :=
  { link := 0, side := .acceptor, framing := .fixed32, limit := 1024, writeBuffer, stats }

/-- The connection, with what the acceptor has taken of the announcement and written. -/
def shared (taken : Nat) (written : Bytes) : Net :=
  { links := [{ dialler := { written := announcement }, acceptor := { taken, written } }] }

/-- The session before it is used, with something in its write buffer. -/
def opened : SessionRun where
  now := 0
  net := shared 0 []
  session := acceptor [0xFF, 0xFF] {}

/-- The announcement has been received. -/
def announced : SessionRun where
  now := 0
  net := shared 6 []
  session := acceptor [0xFF, 0xFF] ⟨0, 1, 0, 2⟩
  log := [(.receive none, .received (.ok [0x08, 0x0D]))]

/-- One reply has been sent. -/
def replied : SessionRun where
  now := 0
  net := shared 6 reply
  session := acceptor reply ⟨1, 1, 6, 2⟩
  log := announced.log ++ [(.send [0x08, 0x01], .sent (.ok ()))]

/-- A second reply has been sent. -/
def repeated : SessionRun where
  now := 0
  net := shared 6 (reply ++ reply)
  session := acceptor reply ⟨2, 1, 12, 2⟩
  log := replied.log ++ [(.send [0x08, 0x01], .sent (.ok ()))]

end Exchange

open Exchange in
/-- An announcement is received and two replies are sent. Neither what was in the write buffer
at first nor the first reply is written again. -/
theorem accounting_of_exchange :
    repeated.Reachable ∧ repeated.session.stats.bytesReceived.toNat = 2 ∧
      repeated.session.stats.bytesSent.toNat = 12 ∧
      repeated.session.wire repeated.net = reply ++ reply := by
  have hopened : opened.Reachable := .begin (by decide) rfl rfl
  have hreceiving := hopened.move (.request rfl (rfl : opened.session.call 0 (.receive none) = _))
  have hannounced : announced.Reachable := hreceiving.move (.finish rfl rfl)
  have hsending := hannounced.move
    (.request rfl (rfl : announced.session.call 0 (.send [0x08, 0x01]) = _))
  have hreplied : replied.Reachable := hsending.move (.finish rfl rfl)
  have hagain := hreplied.move
    (.request rfl (rfl : replied.session.call 0 (.send [0x08, 0x01]) = _))
  have hrepeated : repeated.Reachable := hagain.move (.finish rfl rfl)
  obtain ⟨_, hreceived, _, hsent, _, _, hwire, _⟩ := accounting hrepeated
  have hunfailing : repeated.Unfailing := by
    intro request error hmem
    simp [repeated, replied, announced] at hmem
  obtain ⟨wrote, hwritten, hcarries⟩ := hwire hunfailing
  cases hcarries
  exact ⟨hrepeated, hreceived (by decide), hsent (by decide), hwritten⟩

end SessionRun

end NodeHealth
