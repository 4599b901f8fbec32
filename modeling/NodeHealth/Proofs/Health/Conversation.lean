import NodeHealth.Proofs.Cnode.Answers
import NodeHealth.Proofs.Health.Run

/-!
# Connections are served in turn

The health server takes its connections in the order in which they came, owes each of them
the same answer, and always comes to wait. If the network takes an answer at once, a
connection is over as soon as its request is decided or its time is up, and at that instant
the server takes the next one. Together this is `Service.serves_in_turn`.

## Implementation notes

A reader that has not decided has been fed with everything that was taken, so that whether
a request is decided can be told from the bytes alone (`Link.Heard`). What a connection is
waiting for is then the same for the server, which sees unread bytes, and for the record,
which sees all that was ever written.

-/

namespace NodeHealth

/-! ## Requests -/

namespace Frame

theorem Reader.feedLength_error {limit : Nat} {length : UInt64} {bytes rest : Bytes}
    {error : WireError} (h : Reader.feedLength limit length bytes = .done (.error error) rest) :
    error = .frameTooLarge length limit := by
  simp only [Reader.feedLength] at h
  split at h
  · cases h
  · split at h
    · cases h
      rfl
    · simp only [Reader.feedBody] at h
      split at h <;> cases h

/-- A reader refuses bytes, but it never says that they have ended. -/
theorem Reader.feed_error {reader : Reader} {bytes rest : Bytes} {error : WireError}
    (h : reader.feed bytes = .done (.error error) rest) : error ≠ .closed := by
  cases reader with
  | varintPrefix limit number =>
      simp only [Reader.feed] at h
      split at h
      · cases h
      · rename_i hnumber
        cases h
        rw [(VarintReader.feed_error hnumber).1]
        simp
      · rw [Reader.feedLength_error h]
        simp
  | fixedPrefix limit got =>
      simp only [Reader.feed] at h
      split at h
      · cases h
      · rw [Reader.feedLength_error h]
        simp
  | body missing got =>
      simp only [Reader.feed, Reader.feedBody] at h
      split at h <;> cases h

end Frame

/-- The reader at the start of a request. -/
def HealthServer.reader : Frame.Reader :=
  .start .varint maxRequestLength

/-- Bytes decide a request if a reader is done with them. -/
theorem HealthServer.isDecided_iff {bytes : Bytes} : isDecided bytes = true ↔
    ∃ result rest, reader.feed bytes = .done result rest := by
  have hparse : Frame.parse .varint maxRequestLength bytes =
      (reader.feed bytes).reading bytes.length := Frame.parse_eq_feed _ _ _
  rw [isDecided, hparse]
  cases hfeed : reader.feed bytes with
  | more next => simp [Frame.Progress.reading]
  | done result rest =>
      cases result with
      | ok payload => simp [Frame.Progress.reading]
      | error error =>
          have herror := Frame.Reader.feed_error hfeed
          cases error <;> simp_all [Frame.Progress.reading]

namespace Link

variable {link later : Link} {reader next : Frame.Reader} {unread : Bytes}

/-- A request is decided when its bytes have ended, when the connection has failed, or when
a reader is done with its bytes. -/
theorem decides_iff : link.decides = true ↔ link.dialler.finished = true ∨
    link.acceptor.fault ≠ none ∨
      ∃ result rest, HealthServer.reader.feed link.dialler.written = .done result rest := by
  simp only [decides, Bool.or_eq_true, or_assoc, Option.isSome_iff_ne_none,
    HealthServer.isDecided_iff]

/-- The server has taken the beginning of a request, behind which `reader` stands. -/
structure Heard (reader : Frame.Reader) (link : Link) : Prop where
  midway : HealthServer.reader.feed (link.dialler.written.take link.acceptor.taken) = .more reader
  taken : link.acceptor.taken ≤ link.dialler.written.length
  broken : link.acceptor.broken = true →
    link.dialler.finished = true ∨ link.acceptor.fault ≠ none

theorem heard_new : Heard HealthServer.reader {} where
  midway := rfl
  taken := Nat.le_refl _
  broken := fun h => by cases h

theorem Heard.feed (h : link.Heard reader) :
    HealthServer.reader.feed link.dialler.written = reader.feed (link.unread .acceptor) := by
  have happend := Frame.Reader.feed_append HealthServer.reader
    (link.dialler.written.take link.acceptor.taken) (link.unread .acceptor)
  rw [h.midway] at happend
  rw [← show _ = link.dialler.written from
    List.take_append_drop link.acceptor.taken link.dialler.written]
  exact happend

/-- What decides a request is not taken back. -/
theorem decides_others (hbeside : link.Beside .acceptor later) (h : link.decides = true) :
    later.decides = true := by
  rw [decides_iff] at h ⊢
  rcases h with hfinished | hfault | ⟨result, rest, hdone⟩
  · exact .inl (hbeside.ended hfinished).1
  · exact .inr (.inl (mt hbeside.fault hfault))
  · obtain ⟨more, hmore⟩ := hbeside.grows
    refine .inr (.inr ⟨result, rest ++ more, ?_⟩)
    rw [show later.dialler.written = link.dialler.written ++ more from hmore.symm,
      Frame.Reader.feed_append, hdone]
    rfl

theorem Heard.others (h : link.Heard reader) (hbeside : link.Beside .acceptor later) :
    later.Heard reader := by
  obtain ⟨more, hmore⟩ := hbeside.grows
  have hwritten : later.dialler.written = link.dialler.written ++ more := hmore.symm
  have htaken : later.acceptor.taken = link.acceptor.taken := hbeside.taken
  constructor
  case midway =>
    rw [hwritten, htaken, List.take_append_of_le_length h.taken]
    exact h.midway
  case taken =>
    rw [hwritten, htaken, List.length_append]
    exact Nat.le_add_right_of_le h.taken
  case broken =>
    intro hbroken
    rcases hbeside.broken hbroken with hbefore | hfinished | hfault
    · rcases h.broken hbefore with hfinished | hfault
      · exact .inl (hbeside.ended hfinished).1
      · exact .inr (mt hbeside.fault hfault)
    · exact .inl hfinished
    · exact .inr hfault

/-- A reader that wants more has taken all that there is. -/
theorem Heard.more (h : link.Heard reader) (harrival : link.arrival .acceptor = .bytes unread)
    (hfeed : reader.feed unread = .more next) :
    (link.take .acceptor unread.length).Heard next := by
  have hunread : link.dialler.written.drop link.acceptor.taken = unread :=
    unread_of_arrival harrival
  have hall : link.acceptor.taken + unread.length = link.dialler.written.length := by
    have htaken := h.taken
    rw [← hunread, List.length_drop]
    omega
  refine ⟨?_, Nat.le_of_eq hall, h.broken⟩
  change HealthServer.reader.feed
    (link.dialler.written.take (link.acceptor.taken + unread.length)) = _
  rw [hall, List.take_length, h.feed, unread_of_arrival harrival, hfeed]

/-- As long as nothing arrives, the request is not decided. -/
theorem Heard.undecided (h : link.Heard reader) (harrival : link.arrival .acceptor = .nothing) :
    link.decides = false := by
  have hunread := arrival_nothing harrival
  rw [← Bool.not_eq_true, decides_iff]
  rintro (hfinished | hfault | ⟨result, rest, hdone⟩)
  · have hfinished : (link.endAt Side.acceptor.other).finished = true := hfinished
    simp [arrival, hunread, hfinished] at harrival
  · cases hcause : link.acceptor.fault with
    | none => exact hfault hcause
    | some cause =>
        have hcause : (link.endAt .acceptor).fault = some cause := hcause
        simp only [arrival, hunread, hcause] at harrival
        split at harrival <;> cases harrival
  · have hstart := h.midway
    have hall : link.dialler.written.length ≤ link.acceptor.taken :=
      List.drop_eq_nil_iff.mp hunread
    rw [List.take_of_length_le hall, hdone] at hstart
    cases hstart

theorem Heard.decided_of_done (h : link.Heard reader) {result : Except WireError Bytes}
    {rest : Bytes} (harrival : link.arrival .acceptor = .bytes unread)
    (hfeed : reader.feed unread = .done result rest) : link.decides = true := by
  rw [decides_iff]
  refine .inr (.inr ⟨result, rest, ?_⟩)
  rw [h.feed, unread_of_arrival harrival, hfeed]

theorem Heard.decided_of_ended (h : link.Heard reader)
    (harrival : link.arrival .acceptor = .ended) : link.decides = true := by
  rw [decides_iff]
  rcases (arrival_ended harrival).2 with hfinished | hbroken
  · exact .inl hfinished
  · rcases h.broken hbroken with hfinished | hfault
    · exact .inl hfinished
    · exact .inr (.inl hfault)

theorem decided_of_failed {cause : IoCause} (harrival : link.arrival .acceptor = .failed cause) :
    link.decides = true :=
  decides_iff.mpr (.inr (.inl fun hnone => by cases hnone.symm.trans (arrival_failed harrival).2))

theorem Owes.unwritten (h : link.Owes HealthServer.answer) : link.acceptor.written = [] := by
  have hlength := congrArg List.length h.written
  rw [List.length_append] at hlength
  exact List.eq_nil_of_length_eq_zero (by omega)

/-- With room for the answer, all of it is written, or writing fails. -/
theorem Owes.ends (h : link.Owes HealthServer.answer)
    (hroom : ∀ room, link.dialler.room = some room → HealthServer.answer.length ≤ room)
    {delivery : Link.Delivery}
    (hwrite : link.write .acceptor HealthServer.answer = (delivery, later)) :
    delivery.Ends HealthServer.answer := by
  have hunread : link.unread Side.acceptor.other = [] := by
    change link.acceptor.written.drop _ = []
    rw [h.unwritten, List.drop_nil]
  simp only [Link.write] at hwrite
  split at hwrite
  · cases hwrite
    trivial
  · split at hwrite
    · cases hwrite
      trivial
    · cases hwrite
      change HealthServer.answer.length ≤ link.writable .acceptor _
      simp only [writable]
      split
      · exact Nat.le_refl _
      · rename_i room hlimit
        split
        · rw [hunread, List.length_nil, Nat.sub_zero]
          exact Nat.le_min.mpr ⟨Nat.le_refl _, hroom room hlimit⟩
        · exact Nat.le_refl _

end Link

/-! ## Time -/

/-- When a connection that was taken has to be over: when its request is decided, or else when
its time is up. -/
def Visit.due (visit : Visit) (timeout : Nat) : Instant :=
  match visit.decided with
  | none => visit.begun + timeout
  | some decided => min (visit.begun + timeout) (max visit.begun decided)

/-- When the last of the connections that were closed was over. -/
def Farewell.last (opened : Instant) : List Farewell → Instant
  | [] => opened
  | visit :: _ => visit.ended

/-- Each connection in a list, the last one first, was taken as soon as it was there and the
one before it was over, and it was closed when it was due. -/
def Farewell.Chained (opened : Instant) (timeout : Nat) : List Farewell → Prop
  | [] => True
  | visit :: before =>
      visit.begun = max visit.arrived (last opened before) ∧
        visit.ended = visit.toVisit.due timeout ∧ Chained opened timeout before

theorem due_of_expired {visit : Visit} (h : visit.decided = none) (timeout : Nat) :
    visit.due timeout = visit.begun + timeout := by
  simp [Visit.due, h]

theorem due_of_decided {visit : Visit} {decided : Instant} (h : visit.decided = some decided)
    (timeout : Nat) :
    visit.due timeout = min (visit.begun + timeout) (max visit.begun decided) := by
  simp [Visit.due, h]

/-- It is on record whether the request of a guest is decided, and since when. -/
structure Guest.Noted (now : Instant) (net : Net) (guest : Guest) : Prop where
  decides : guest.decided.isSome = (net.link guest.link).decides
  before : ∀ decided, guest.decided = some decided → decided ≤ now

namespace Service

variable {scene later : Service}

/-- How long the server waits for a request. -/
def timeout (scene : Service) : Nat :=
  scene.server.config.readTimeoutMs.toNat

/-- Since when the server could take a connection, if it has none. -/
def free (scene : Service) : Instant :=
  Farewell.last scene.opened scene.past

/-- The other end of the connection that the server has taken has room for the answer. -/
def HasRoom (scene : Service) : Prop :=
  ∀ visit, scene.current = some visit → ∀ room,
    (scene.net.link visit.link).dialler.room = some room → HealthServer.answer.length ≤ room

/-- The server waits for the request of a connection that it has taken as soon as it could. -/
structure Attends (scene : Service) (visit : Visit) (reader : Frame.Reader)
    (deadline : Instant) : Prop where
  begun : visit.begun = max visit.arrived scene.free
  since : visit.begun ≤ scene.now
  deadline : deadline = visit.begun + scene.timeout
  early : scene.now ≤ visit.begun + scene.timeout
  heard : (scene.net.link visit.link).Heard reader
  noted : visit.toGuest.Noted scene.now scene.net
  prompt : ∀ decided, visit.decided = some decided → scene.now = max visit.begun decided

/-- The server is about to answer on a connection that is over now. -/
structure Answers (scene : Service) (visit : Visit) (rest : Bytes) : Prop where
  begun : visit.begun = max visit.arrived scene.free
  since : visit.begun ≤ scene.now
  due : scene.now = visit.due scene.timeout
  rest : rest = HealthServer.answer

/-- The server loses no time. -/
def OnTime (scene : Service) : AcceptPhase → Prop
  | .starting | .accepting => ∀ guest line, scene.line = guest :: line →
      scene.now = max guest.arrived scene.free
  | .reading _ reader deadline => ∀ visit, scene.current = some visit →
      scene.Attends visit reader deadline
  | .replying _ sending => ∀ visit, scene.current = some visit → scene.Answers visit sending.rest

/-- The server has lost no time, and loses none. -/
structure Punctual (scene : Service) : Prop where
  line : ∀ guest ∈ scene.line,
    (scene.net.link guest.link).Heard HealthServer.reader ∧ guest.Noted scene.now scene.net
  past : Farewell.Chained scene.opened scene.timeout scene.past
  free : scene.free ≤ scene.now
  phase : ∀ phase, scene.server.loop = some ⟨scene.listener, phase⟩ → scene.OnTime phase

/-! ### What others do -/

/-- A request that was not decided before may be decided now. -/
theorem note_cases (guest : Guest) (now : Instant) (net : Net) :
    guest.decided = none ∧ (net.link guest.link).decides = true ∧
        guest.note now net = { guest with decided := some now } ∨
      guest.note now net = guest ∧
        (guest.decided = none → (net.link guest.link).decides = false) := by
  unfold Guest.note
  split
  · rename_i h
    exact .inl ⟨h.1, h.2, rfl⟩
  · rename_i h
    exact .inr ⟨rfl, fun hnone => by simpa [hnone] using h⟩

theorem noted_note {guest : Guest} {now : Instant} {net net' : Net} (h : guest.Noted now net)
    (hdecides : (net.link guest.link).decides = true → (net'.link guest.link).decides = true) :
    (guest.note now net').Noted now net' := by
  rcases note_cases guest now net' with ⟨_, hnow, hnote⟩ | ⟨hnote, hnone⟩
  · rw [hnote]
    exact ⟨hnow.symm, fun decided hdecided => by cases hdecided; exact Nat.le_refl _⟩
  · rw [hnote]
    refine ⟨?_, h.before⟩
    cases hdecided : guest.decided with
    | none => simp [hnone hdecided]
    | some decided =>
        have hbefore := h.decides
        rw [hdecided] at hbefore
        exact (hdecides hbefore.symm).symm

theorem noted_new {link : LinkId} {now : Instant} {net : Net} (h : net.link link = {}) :
    Guest.Noted now net { link, arrived := now } where
  decides := by
    change false = (net.link link).decides
    rw [h]
    rfl
  before := fun _ hdecided => by cases hdecided

/-- Whoever waits in line was there before, or has come now. -/
theorem mem_line_joined (h : scene.Sound) {net : Net}
    (hforeign : scene.net.Foreign scene.holdings net) {guest : Guest}
    (hguest : guest ∈ (scene.joined net).line) :
    guest ∈ scene.line ∨ net.link guest.link = {} ∧
      guest = { link := guest.link, arrived := scene.now } := by
  obtain ⟨_, hsame | ⟨hlinks, hsame⟩⟩ := joined_cases h hforeign
  · rw [hsame] at hguest
    exact .inl hguest
  · rw [hsame] at hguest
    rcases List.mem_append.mp hguest with hbefore | hnew
    · exact .inl hbefore
    · cases List.mem_singleton.mp hnew
      exact .inr ⟨by simp [Net.link, hlinks], rfl⟩

/-- The first in line was the first before, or has come now. -/
theorem head_joined (h : scene.Sound) {net : Net}
    (hforeign : scene.net.Foreign scene.holdings net) {guest : Guest} {line : List Guest}
    (hline : (scene.joined net).noted.line = guest :: line) :
    (∃ first rest, scene.line = first :: rest ∧ guest.arrived = first.arrived) ∨
      guest.arrived = scene.now := by
  obtain ⟨first, rest, hjoined, rfl, _⟩ := List.map_eq_cons_iff.mp hline
  rw [arrived_note]
  obtain ⟨_, hsame | ⟨_, hsame⟩⟩ := joined_cases h hforeign
  · rw [hsame] at hjoined
    exact .inl ⟨first, rest, hjoined, rfl⟩
  · rw [hsame] at hjoined
    cases hbefore : scene.line with
    | nil =>
        simp only [hbefore, List.nil_append, List.cons.injEq] at hjoined
        exact .inr (congrArg Guest.arrived hjoined.1).symm
    | cons before behind =>
        simp only [hbefore, List.cons_append, List.cons.injEq] at hjoined
        exact .inl ⟨before, behind, rfl, (congrArg Guest.arrived hjoined.1).symm⟩

/-- A request that is decided at this instant is answered at this instant. -/
theorem due_now {now begun timeout : Nat} (hbegun : begun ≤ now)
    (hearly : now ≤ begun + timeout) : now = min (begun + timeout) (max begun now) := by
  omega

theorem Attends.others {net : Net} {visit : Visit} {reader : Frame.Reader} {deadline : Instant}
    (h : scene.Attends visit reader deadline)
    (hbeside : (scene.net.link visit.link).Beside .acceptor (net.link visit.link)) :
    (scene.joined net).noted.Attends { visit with toGuest := visit.toGuest.note scene.now net }
      reader deadline where
  begun := by
    change visit.begun = max (visit.toGuest.note scene.now net).arrived scene.free
    rw [arrived_note]
    exact h.begun
  since := h.since
  deadline := h.deadline
  early := h.early
  heard := by
    change (net.link (visit.toGuest.note scene.now net).link).Heard reader
    rw [link_note]
    exact h.heard.others hbeside
  noted := noted_note h.noted (Link.decides_others hbeside)
  prompt := by
    intro decided hdecided
    change (visit.toGuest.note scene.now net).decided = some decided at hdecided
    change scene.now = max visit.begun decided
    rcases note_cases visit.toGuest scene.now net with ⟨_, _, hnote⟩ | ⟨hnote, _⟩
    · rw [hnote] at hdecided
      cases hdecided
      exact (Nat.max_eq_right h.since).symm
    · rw [hnote] at hdecided
      exact h.prompt decided hdecided

theorem Answers.others {net : Net} {visit : Visit} {rest : Bytes} (h : scene.Answers visit rest) :
    (scene.joined net).noted.Answers { visit with toGuest := visit.toGuest.note scene.now net }
      rest where
  begun := by
    change visit.begun = max (visit.toGuest.note scene.now net).arrived scene.free
    rw [arrived_note]
    exact h.begun
  since := h.since
  due := by
    change scene.now = Visit.due _ scene.timeout
    rcases note_cases visit.toGuest scene.now net with ⟨hnone, _, hnote⟩ | ⟨hnote, _⟩
    · have hdue := h.due
      rw [due_of_expired hnone] at hdue
      rw [hnote, due_of_decided rfl]
      exact due_now h.since (Nat.le_of_eq hdue)
    · rw [hnote]
      exact h.due
  rest := h.rest

/-- What others do costs the server no time. -/
theorem Punctual.others (hsound : scene.Sound) (h : scene.Punctual) {net : Net}
    (hforeign : scene.net.Foreign scene.holdings net) : (scene.joined net).noted.Punctual where
  line := by
    intro guest hguest
    obtain ⟨before, hbefore, rfl⟩ := List.mem_map.mp hguest
    rw [link_note]
    rcases mem_line_joined hsound hforeign hbefore with hold | ⟨hnew, hguest⟩
    · obtain ⟨hheard, hnoted⟩ := h.line before hold
      have hbeside := (others_of_foreign hsound hforeign (mem_guests.mpr (.inr (.inr hold)))).1
      exact ⟨hheard.others hbeside, noted_note hnoted (Link.decides_others hbeside)⟩
    · have hnoted : before.Noted scene.now net := hguest ▸ noted_new hnew
      refine ⟨?_, noted_note hnoted id⟩
      change (net.link before.link).Heard _
      rw [hnew]
      exact Link.heard_new
  past := h.past
  free := h.free
  phase := by
    intro phase hloop
    have hphase := h.phase phase hloop
    have hbeside := fun visit hvisit =>
      (others_of_foreign hsound hforeign (mem_guests.mpr (.inr (.inl ⟨visit, hvisit, rfl⟩)))).1
    have hfirst : (∀ guest line, scene.line = guest :: line →
        scene.now = max guest.arrived scene.free) → ∀ guest line,
        (scene.joined net).noted.line = guest :: line →
          scene.now = max guest.arrived scene.free := by
      intro hbefore guest line hline
      rcases head_joined hsound hforeign hline with ⟨first, rest, hold, harrived⟩ | harrived
      · rw [harrived]
        exact hbefore first rest hold
      · rw [harrived]
        exact (Nat.max_eq_left h.free).symm
    cases phase with
    | starting => exact hfirst hphase
    | accepting => exact hfirst hphase
    | reading session reader deadline =>
        intro later hlater
        obtain ⟨visit, hvisit, rfl⟩ := Option.map_eq_some_iff.mp hlater
        exact (hphase visit hvisit).others (hbeside visit hvisit)
    | replying session sending =>
        intro later hlater
        obtain ⟨visit, hvisit, rfl⟩ := Option.map_eq_some_iff.mp hlater
        exact (hphase visit hvisit).others

/-! ### What the server does -/

theorem due_of_prompt {now begun decided timeout : Nat} (hprompt : now = max begun decided)
    (hearly : now ≤ begun + timeout) : now = min (begun + timeout) (max begun decided) := by
  omega

/-- A connection whose request is decided is over. -/
theorem Attends.over {visit : Visit} {reader : Frame.Reader} {deadline : Instant}
    (h : scene.Attends visit reader deadline)
    (hdecides : (scene.net.link visit.link).decides = true) :
    scene.now = visit.due scene.timeout := by
  have hnoted := h.noted.decides
  rw [hdecides] at hnoted
  obtain ⟨decided, hdecided⟩ := Option.isSome_iff_exists.mp hnoted
  rw [due_of_decided hdecided]
  exact due_of_prompt (h.prompt decided hdecided) h.early

/-- A connection whose time is up is over. -/
theorem Attends.expired {visit : Visit} {reader : Frame.Reader} {deadline : Instant}
    (h : scene.Attends visit reader deadline)
    (harrival : (scene.net.link visit.link).arrival .acceptor = .nothing)
    (hdeadline : deadline ≤ scene.now) : scene.now = visit.due scene.timeout := by
  have hnoted := h.noted.decides
  rw [h.heard.undecided harrival] at hnoted
  rw [due_of_expired (Option.not_isSome_iff_eq_none.mp (by simp [hnoted]))]
  exact Nat.le_antisymm h.early (h.deadline ▸ hdeadline)

theorem Attends.answers {visit : Visit} {reader : Frame.Reader} {deadline : Instant}
    (h : scene.Attends visit reader deadline) (hdue : scene.now = visit.due scene.timeout) :
    scene.Answers visit HealthServer.answer :=
  ⟨h.begun, h.since, hdue, rfl⟩

/-- While the server is busy with a connection, nothing changes for those in line. -/
theorem Punctual.attends (hsound : scene.Sound) (h : scene.Punctual) {visit : Visit}
    (hvisit : scene.current = some visit) {net : Net} {phase : AcceptPhase} {session : Session}
    (hsession : phase.session? = some session)
    (hothers : ∀ id, visit.link ≠ id → net.link id = scene.net.link id)
    (hphase : OnTime { scene with
        net, server := { scene.server with loop := some ⟨scene.listener, phase⟩ } } phase) :
    (scene.after net
      { scene.server with loop := some ⟨scene.listener, phase⟩ }).Punctual := by
  obtain ⟨hline, _⟩ := hsound.apart hvisit
  rw [after_attending hvisit ((HealthServer.session?_of_loop rfl).trans hsession)]
  constructor
  case line =>
    intro guest hguest
    obtain ⟨hheard, hnoted⟩ := h.line guest hguest
    have hlink := hothers _ (hline guest hguest)
    refine ⟨?_, ?_, hnoted.before⟩
    · change (net.link guest.link).Heard _
      rw [hlink]
      exact hheard
    · change _ = (net.link guest.link).decides
      rw [hlink]
      exact hnoted.decides
  case past => exact h.past
  case free => exact h.free
  case phase =>
    intro found hfound
    cases hfound
    exact hphase

/-- A connection that is over is answered. -/
theorem Punctual.replies (hsound : scene.Sound) (h : scene.Punctual) {visit : Visit}
    (hvisit : scene.current = some visit) {net : Net} {session : Session}
    (hothers : ∀ id, visit.link ≠ id → net.link id = scene.net.link id)
    (hanswers : scene.Answers visit HealthServer.answer) :
    (scene.after net { scene.server with
      loop := some ⟨scene.listener,
        HealthServer.answering session HealthServer.answer⟩ }).Punctual := by
  refine h.attends hsound hvisit rfl hothers ?_
  intro found hfound
  cases hvisit.symm.trans hfound
  exact ⟨hanswers.begun, hanswers.since, hanswers.due, rfl⟩

theorem Punctual.attending (h : scene.Punctual) {session : Session} {reader : Frame.Reader}
    {deadline : Instant} {visit : Visit}
    (hloop : scene.server.loop = some ⟨scene.listener, .reading session reader deadline⟩)
    (hvisit : scene.current = some visit) : scene.Attends visit reader deadline :=
  h.phase _ hloop visit hvisit

theorem Punctual.answering (h : scene.Punctual) {session : Session} {sending : Session.Sending}
    {visit : Visit} (hloop : scene.server.loop = some ⟨scene.listener, .replying session sending⟩)
    (hvisit : scene.current = some visit) : scene.Answers visit sending.rest :=
  h.phase _ hloop visit hvisit

theorem Punctual.opened (h : scene.Punctual) (hcurrent : scene.current = none)
    (hloop : scene.server.loop = some ⟨scene.listener, .starting⟩) :
    (scene.after scene.net
      { scene.server with loop := some ⟨scene.listener, .accepting⟩ }).Punctual := by
  rw [after_idle hcurrent rfl]
  refine ⟨h.line, h.past, h.free, ?_⟩
  intro phase hphase
  cases hphase
  exact h.phase _ hloop

/-- What is on record of the line stays true as long as no connection changes. -/
theorem Punctual.line_of_links (h : scene.Punctual) {net : Net}
    (hlinks : net.links = scene.net.links) : ∀ guest ∈ scene.line,
      (net.link guest.link).Heard HealthServer.reader ∧ guest.Noted scene.now net := by
  intro guest hguest
  have hlink : net.link guest.link = scene.net.link guest.link := by simp [Net.link, hlinks]
  obtain ⟨hheard, hnoted⟩ := h.line guest hguest
  rw [hlink]
  exact ⟨hheard, by rw [hlink]; exact hnoted.decides, hnoted.before⟩

/-- A failure to accept takes no time. -/
theorem Punctual.stumbled (h : scene.Punctual)
    (hloop : scene.server.loop = some ⟨scene.listener, .accepting⟩) {net : Net}
    (hlinks : net.links = scene.net.links) (reported : List IoCause) :
    Punctual { scene with net, server := { scene.server with reported } } := by
  refine ⟨h.line_of_links hlinks, h.past, h.free, ?_⟩
  intro phase hphase
  cases hloop.symm.trans hphase
  exact h.phase _ hloop

/-- The next connection is taken as soon as that can be. -/
theorem Punctual.accepted (hsound : scene.Sound) (h : scene.Punctual) {net : Net} {link : LinkId}
    (hcurrent : scene.current = none)
    (hloop : scene.server.loop = some ⟨scene.listener, .accepting⟩)
    (haccept : scene.net.accept? scene.listener = some (link, net)) :
    (scene.after net { scene.server with
      loop := some ⟨scene.listener, .reading (HealthServer.session link) HealthServer.reader
        (scene.now + scene.timeout)⟩ }).Punctual := by
  obtain ⟨guest, line, hline, rfl, hlinks, _⟩ := hsound.takes haccept
  have hguests := h.line_of_links hlinks
  have hfirst := h.phase _ hloop guest line hline
  rw [after_taking hcurrent rfl hline]
  constructor
  case line =>
    intro other hother
    exact hguests other (by simp [hline, show other ∈ line from hother])
  case past => exact h.past
  case free => exact h.free
  case phase =>
    intro phase hphase
    cases hphase
    intro visit hvisit
    cases hvisit
    obtain ⟨hheard, hnoted⟩ := hguests guest (by simp [hline])
    exact {
      begun := hfirst
      since := Nat.le_refl _
      deadline := rfl
      early := Nat.le_add_right _ _
      heard := hheard
      noted := hnoted
      prompt := fun decided hdecided =>
        (Nat.max_eq_left (hnoted.before decided hdecided)).symm }

/-- A connection that is closed was closed when it was due, and the server is free. -/
theorem Punctual.answered (hsound : scene.Sound) (h : scene.Punctual) {visit : Visit}
    {rest : Bytes} {link : Link} (hvisit : scene.current = some visit)
    (hanswers : scene.Answers visit rest) :
    (scene.after (scene.net.changeLink visit.link fun _ => link)
      { scene.server with loop := some ⟨scene.listener, .accepting⟩ }).Punctual := by
  obtain ⟨hline, _⟩ := hsound.apart hvisit
  rw [after_closing hvisit rfl]
  constructor
  case line =>
    intro guest hguest
    obtain ⟨hheard, hnoted⟩ := h.line guest hguest
    have hlink := Net.link_changeLink_of_ne scene.net (fun _ => link) (hline guest hguest)
    refine ⟨?_, ?_, hnoted.before⟩
    · rw [hlink]
      exact hheard
    · rw [hlink]
      exact hnoted.decides
  case past => exact ⟨hanswers.begun, hanswers.due, h.past⟩
  case free => exact Nat.le_refl _
  case phase =>
    intro phase hphase
    cases hphase
    intro guest line hguest
    have hknown := hsound.known guest
      (mem_guests.mpr (.inr (.inr (by rw [show scene.line = _ from hguest]; simp))))
    exact (Nat.max_eq_right hknown.2).symm

theorem Punctual.turn (hsound : scene.Sound) (h : scene.Punctual) (hroom : scene.HasRoom)
    {net : Net} {server : HealthServer} (hturn : scene.server.Turn scene.now scene.net net server) :
    (scene.after net server).Punctual := by
  have hothers := fun {id : LinkId} {change : Link → Link} {other : LinkId} (hid : id ≠ other) =>
    Net.link_changeLink_of_ne scene.net change hid
  cases hturn with
  | opened hloop =>
      obtain ⟨rfl, hcurrent⟩ := hsound.idle hloop rfl
      exact h.opened hcurrent hloop
  | closed _ hstopped => cases hsound.running.symm.trans hstopped
  | dismissed _ hsignal => cases hsound.signal.symm.trans hsignal
  | accepted hloop _ haccept =>
      obtain ⟨rfl, hcurrent⟩ := hsound.idle hloop rfl
      exact h.accepted hsound hcurrent hloop (Net.reception?_eq_ok haccept).2
  | @stumbled _ _ _ reported hloop _ hfails =>
      obtain ⟨rfl, hcurrent⟩ := hsound.idle hloop rfl
      have hidle : { scene.server with reported }.session? = none :=
        HealthServer.session?_of_loop hloop
      rw [after_idle hcurrent hidle]
      exact h.stumbled hloop (Net.reception?_error_cases hfails).2.1 reported
  | barred _ _ _ hstopped => cases hsound.running.symm.trans hstopped
  | more hloop harrival hfeed =>
      obtain ⟨rfl, visit, hvisit, hlink, _⟩ := hsound.visiting hloop rfl
      have hattends := h.attending hloop hvisit
      rw [← hlink] at harrival ⊢
      have hknown := (hsound.known visit.toGuest
        (mem_guests.mpr (.inr (.inl ⟨visit, hvisit, rfl⟩)))).1
      refine h.attends hsound hvisit rfl (fun _ hid => hothers hid) ?_
      intro found hfound
      cases hvisit.symm.trans hfound
      refine { hattends with heard := ?_, noted := ⟨?_, hattends.noted.before⟩ }
      · rw [Net.link_changeLink _ _ _ hknown]
        exact hattends.heard.more harrival hfeed
      · rw [Net.link_changeLink _ _ _ hknown]
        exact hattends.noted.decides
  | heard hloop harrival hfeed =>
      obtain ⟨rfl, visit, hvisit, hlink, _⟩ := hsound.visiting hloop rfl
      have hattends := h.attending hloop hvisit
      rw [← hlink] at harrival ⊢
      exact h.replies hsound hvisit (fun _ hid => hothers hid)
        (hattends.answers (hattends.over (hattends.heard.decided_of_done harrival hfeed)))
  | misheard hloop harrival hfeed =>
      obtain ⟨rfl, visit, hvisit, hlink, _⟩ := hsound.visiting hloop rfl
      have hattends := h.attending hloop hvisit
      rw [← hlink] at harrival ⊢
      exact h.replies hsound hvisit (fun _ hid => hothers hid)
        (hattends.answers (hattends.over (hattends.heard.decided_of_done harrival hfeed)))
  | ended hloop harrival =>
      obtain ⟨rfl, visit, hvisit, hlink, _⟩ := hsound.visiting hloop rfl
      have hattends := h.attending hloop hvisit
      rw [← hlink] at harrival
      exact h.replies hsound hvisit (fun _ _ => rfl)
        (hattends.answers (hattends.over (hattends.heard.decided_of_ended harrival)))
  | failed hloop harrival =>
      obtain ⟨rfl, visit, hvisit, hlink, _⟩ := hsound.visiting hloop rfl
      have hattends := h.attending hloop hvisit
      rw [← hlink] at harrival ⊢
      exact h.replies hsound hvisit (fun _ hid => hothers hid)
        (hattends.answers (hattends.over (Link.decided_of_failed harrival)))
  | expired hloop harrival hdeadline =>
      obtain ⟨rfl, visit, hvisit, hlink, _⟩ := hsound.visiting hloop rfl
      have hattends := h.attending hloop hvisit
      rw [← hlink] at harrival
      exact h.replies hsound hvisit (fun _ _ => rfl)
        (hattends.answers (hattends.expired harrival hdeadline))
  | wrote hloop hwrite _ hpart =>
      obtain ⟨rfl, visit, hvisit, hlink, howes⟩ := hsound.visiting hloop rfl
      have hrest := (h.answering hloop hvisit).rest
      rw [AcceptPhase.owed, hrest, ← hlink] at howes
      rw [hrest, ← hlink] at hwrite
      rw [hrest] at hpart
      exact absurd hpart (Nat.not_lt_of_le (howes.ends (hroom visit hvisit) hwrite))
  | answered hloop =>
      obtain ⟨rfl, visit, hvisit, hlink, _⟩ := hsound.visiting hloop rfl
      rw [← hlink]
      exact h.answered hsound hvisit (h.answering hloop hvisit)
  | retired _ _ _ hstopped => cases hsound.running.symm.trans hstopped

/-! ### Waiting -/

/-- The server waits only if nobody is there, or for a request that is not decided. -/
theorem Punctual.waits (hsound : scene.Sound) (h : scene.Punctual) (hroom : scene.HasRoom)
    (hwaits : scene.Waits) : scene.current = none ∧ scene.line = [] ∨
      ∃ visit, scene.current = some visit ∧ visit.decided = none ∧
        (scene.net.link visit.link).decides = false ∧
        scene.now < visit.begun + scene.timeout := by
  cases HealthServer.waits_of_step hsound.fits hwaits with
  | idle hloop =>
      obtain ⟨_, hsome, _⟩ := hsound.loop
      cases hloop.symm.trans hsome
  | accepting hloop _ hreception =>
      obtain ⟨rfl, hcurrent⟩ := hsound.idle hloop rfl
      obtain ⟨_, hlistener, _, _, hqueue⟩ := hsound.listens
      refine .inl ⟨hcurrent, List.map_eq_nil_iff.mp (hqueue.symm.trans ?_)⟩
      rw [← Net.queue_of_listener hlistener]
      exact Classical.byContradiction fun hline =>
        Net.accept?_of_queue hline (Net.reception?_eq_none hreception).2
  | reading hloop harrival hdeadline =>
      obtain ⟨rfl, visit, hvisit, hlink, _⟩ := hsound.visiting hloop rfl
      have hattends := h.attending hloop hvisit
      rw [← hlink] at harrival
      have hundecided := hattends.heard.undecided harrival
      have hnoted := hattends.noted.decides
      rw [hundecided] at hnoted
      exact .inr ⟨visit, hvisit, Option.not_isSome_iff_eq_none.mp (by simp [hnoted]), hundecided,
        hattends.deadline ▸ hdeadline⟩
  | replying hloop hwrite hpart =>
      obtain ⟨rfl, visit, hvisit, hlink, howes⟩ := hsound.visiting hloop rfl
      have hrest := (h.answering hloop hvisit).rest
      rw [AcceptPhase.owed, hrest, ← hlink] at howes
      rw [hrest, ← hlink] at hwrite
      rw [hrest] at hpart
      exact absurd hpart (Nat.not_lt_of_le (howes.ends (hroom visit hvisit) hwrite))

theorem Punctual.wait (hsound : scene.Sound) (h : scene.Punctual) (hroom : scene.HasRoom)
    (hwaits : scene.Waits) {now : Instant} (hnow : scene.now ≤ now)
    (hwake : ∀ wake, scene.server.wake? = some wake → now ≤ wake) :
    Punctual { scene with now } where
  line := fun guest hguest =>
    have ⟨hheard, hnoted⟩ := h.line guest hguest
    ⟨hheard, hnoted.decides, fun decided hdecided =>
      Nat.le_trans (hnoted.before decided hdecided) hnow⟩
  past := h.past
  free := Nat.le_trans h.free hnow
  phase := by
    intro phase hloop
    have hloop : scene.server.loop = some ⟨scene.listener, phase⟩ := hloop
    rcases h.waits hsound hroom hwaits with ⟨hcurrent, hline⟩ | ⟨visit, hvisit, hnone, _, hearly⟩
    · have hnobody : ∀ guest line, scene.line = guest :: line →
          now = max guest.arrived scene.free :=
        fun guest line hguest => by
          rw [hline] at hguest
          cases hguest
      cases phase with
      | starting => exact hnobody
      | accepting => exact hnobody
      | reading => exact fun visit hvisit => by cases hcurrent.symm.trans hvisit
      | replying => exact fun visit hvisit => by cases hcurrent.symm.trans hvisit
    · cases phase with
      | starting => cases (hsound.idle hloop rfl).2.symm.trans hvisit
      | accepting => cases (hsound.idle hloop rfl).2.symm.trans hvisit
      | reading session reader deadline =>
          intro found hfound
          cases hvisit.symm.trans hfound
          have hattends := h.attending hloop hvisit
          have hlimit : now ≤ deadline := hwake deadline (by simp [HealthServer.wake?, hloop])
          exact {
            begun := hattends.begun
            since := Nat.le_trans hattends.since hnow
            deadline := hattends.deadline
            early := hattends.deadline ▸ hlimit
            heard := hattends.heard
            noted := ⟨hattends.noted.decides, fun decided hdecided => by
              cases hnone.symm.trans hdecided⟩
            prompt := fun decided hdecided => by cases hnone.symm.trans hdecided }
      | replying session sending =>
          have hdue := (h.answering hloop hvisit).due
          rw [due_of_expired hnone] at hdue
          exact absurd hdue (Nat.ne_of_lt hearly)

theorem punctual_begin (now : Instant) (net : Net) (server : HealthServer)
    (listener : ListenerId) : Punctual { now, net, server, opened := now, listener } := by
  refine ⟨fun _ hguest => absurd hguest List.not_mem_nil, trivial, Nat.le_refl _, ?_⟩
  intro phase hloop
  cases phase with
  | starting => exact fun guest line hguest => by cases hguest
  | accepting => exact fun guest line hguest => by cases hguest
  | reading => exact fun visit hvisit => by cases hvisit
  | replying => exact fun visit hvisit => by cases hvisit

/-- With room for the answers, the server loses no time. -/
theorem Within.punctual (h : scene.Within HasRoom) : scene.Punctual := by
  induction h with
  | begin now => exact punctual_begin now _ _ _
  | @move scene later hscene hmove _ ih =>
      have hsound := hscene.reachable.sound
      cases hmove with
      | step hstep =>
          exact ih.turn hsound hscene.holds (HealthServer.turn_of_step hsound.fits hstep)
      | others hforeign => exact ih.others hsound hforeign
      | wait hwaits hnow hwake => exact ih.wait hsound hscene.holds hwaits hnow hwake

end Service

/-! ## Progress -/

/-- A bound of the steps that the server does before it can take another connection: those in
its phase, and one for each failure that accepting will report. -/
def HealthServer.work (net : Net) (server : HealthServer) : Nat :=
  match server.loop with
  | none => 0
  | some loop =>
      (net.hindrances loop.listener).length +
        match loop.phase with
        | .starting => 1
        | .accepting => 0
        | .reading session _ _ =>
            2 + answer.length + ((net.link session.link).unread .acceptor).length
        | .replying _ sending => 1 + sending.rest.length

namespace Service

variable {scene later : Service}

/-- While the server is busy with a connection, nobody leaves the line. -/
theorem Sound.line_attending (h : scene.Sound) {net : Net} {listener : ListenerId}
    {phase phase' : AcceptPhase} {session session' : Session}
    (hloop : scene.server.loop = some ⟨listener, phase⟩) (hsession : phase.session? = some session)
    (hsession' : phase'.session? = some session') :
    (scene.after net { scene.server with loop := some ⟨listener, phase'⟩ }).line = scene.line := by
  obtain ⟨_, visit, hvisit, _⟩ := h.visiting hloop hsession
  rw [after_attending hvisit ((HealthServer.session?_of_loop rfl).trans hsession')]

/-- To answer is less work than to read the request and to answer. -/
theorem work_answering {net net' : Net} {listener : ListenerId} {session session' : Session}
    {reader : Frame.Reader} {deadline : Instant}
    (hloop : scene.server.loop = some ⟨listener, .reading session reader deadline⟩)
    (hsame : net'.hindrances listener = net.hindrances listener) :
    HealthServer.work net' { scene.server with
        loop := some ⟨listener, HealthServer.answering session' HealthServer.answer⟩ } <
      scene.server.work net := by
  simp only [HealthServer.work, HealthServer.answering, hloop, hsame]
  omega

/-- A step of the server shortens the line, or the work that it has before it. -/
theorem Sound.shrinks (h : scene.Sound) {net : Net} {server : HealthServer}
    (hturn : scene.server.Turn scene.now scene.net net server) :
    (scene.after net server).line.length < scene.line.length ∨
      (scene.after net server).line = scene.line ∧
        server.work net < scene.server.work scene.net := by
  cases hturn with
  | opened hloop =>
      obtain ⟨rfl, hcurrent⟩ := h.idle hloop rfl
      rw [after_idle hcurrent rfl]
      refine .inr ⟨rfl, ?_⟩
      simp [HealthServer.work, hloop]
  | closed _ hstopped => cases h.running.symm.trans hstopped
  | dismissed _ hsignal => cases h.signal.symm.trans hsignal
  | accepted hloop _ haccept =>
      obtain ⟨rfl, hcurrent⟩ := h.idle hloop rfl
      obtain ⟨guest, line, hline, _⟩ := h.takes (Net.reception?_eq_ok haccept).2
      rw [after_taking hcurrent rfl hline, hline]
      exact .inl (Nat.lt_succ_self _)
  | @stumbled _ _ _ reported hloop _ hfails =>
      obtain ⟨rfl, hcurrent⟩ := h.idle hloop rfl
      have hidle : { scene.server with reported }.session? = none :=
        HealthServer.session?_of_loop hloop
      obtain ⟨_, _, _, hfewer, _⟩ := Net.reception?_error_cases hfails
      rw [after_idle hcurrent hidle]
      refine .inr ⟨rfl, ?_⟩
      simp only [HealthServer.work, hloop, hfewer, List.length_cons]
      omega
  | barred _ _ _ hstopped => cases h.running.symm.trans hstopped
  | more hloop harrival =>
      obtain ⟨rfl, visit, hvisit, hlink, _⟩ := h.visiting hloop rfl
      have hknown := (h.known visit.toGuest (mem_guests.mpr (.inr (.inl ⟨visit, hvisit, rfl⟩)))).1
      rw [← hlink] at harrival
      refine .inr ⟨h.line_attending hloop rfl rfl, ?_⟩
      have hunread := Link.unread_of_arrival harrival
      have hbytes := List.length_pos_iff.mpr (Link.arrival_bytes harrival)
      simp only [HealthServer.work, hloop, Net.hindrances_changeLink, ← hlink,
        Net.link_changeLink _ _ _ hknown, Link.unread_take, hunread, List.drop_length,
        List.length_nil]
      omega
  | heard hloop => exact .inr ⟨h.line_attending hloop rfl rfl, work_answering hloop rfl⟩
  | misheard hloop => exact .inr ⟨h.line_attending hloop rfl rfl, work_answering hloop rfl⟩
  | ended hloop => exact .inr ⟨h.line_attending hloop rfl rfl, work_answering hloop rfl⟩
  | failed hloop => exact .inr ⟨h.line_attending hloop rfl rfl, work_answering hloop rfl⟩
  | expired hloop => exact .inr ⟨h.line_attending hloop rfl rfl, work_answering hloop rfl⟩
  | wrote hloop _ hcount hpart =>
      refine .inr ⟨h.line_attending hloop rfl rfl, ?_⟩
      simp only [HealthServer.work, hloop, Net.hindrances_changeLink, List.length_drop]
      omega
  | answered hloop =>
      obtain ⟨rfl, visit, hvisit, _⟩ := h.visiting hloop rfl
      rw [after_closing hvisit rfl]
      refine .inr ⟨rfl, ?_⟩
      simp only [HealthServer.work, hloop, Net.hindrances_changeLink]
      omega
  | retired _ _ _ hstopped => cases h.running.symm.trans hstopped

/-- Left alone, the server comes to wait. -/
theorem Sound.settles {scene : Service} (h : scene.Sound) : ∃ last, scene.Settles last := by
  cases hstep : scene.server.step scene.now scene.net with
  | none => exact ⟨scene, .waits hstep⟩
  | some stepped =>
      obtain ⟨net, server⟩ := stepped
      have hturn := HealthServer.turn_of_step h.fits hstep
      have hshrinks := h.shrinks hturn
      obtain ⟨last, hlast⟩ := (h.turn hturn).settles
      exact ⟨last, .step hstep hlast⟩
termination_by (scene.line.length, scene.server.work scene.net)
decreasing_by
  rcases hshrinks with hline | ⟨hline, hwork⟩
  · exact .left _ _ hline
  · rw [hline, net_after, server_after]
    exact .right _ hwork

/-! ## Connections are served in turn -/

/-- The server goes on listening, its connections come one after the other in the order in
which they came, and each of them gets its own answer. -/
structure InTurn (scene : Service) : Prop where
  listening : scene.server.isListening = true
  /-- Whoever has connected and was not taken yet is in line. -/
  listens : ∃ listener, scene.net.listener? scene.listener = some listener ∧
    listener.isOpen = true ∧ scene.server.address = some listener.address ∧
    listener.queue = scene.line.map Guest.link
  /-- The connections that are closed came before the one that is taken, and that one before
  those in line; none of them occurs twice. -/
  order : (scene.guests.map Guest.link).Pairwise (· < ·)
  arrivals : (scene.guests.map Guest.arrived).Pairwise (· ≤ ·)
  /-- No connection is forgotten, and one that is closed stays closed. -/
  keeps : ∀ later, scene.Move later →
    scene.guests.map Guest.link <+: later.guests.map Guest.link ∧ scene.past <:+ later.past
  line : ∀ guest ∈ scene.line, (scene.net.link guest.link).acceptor.written = [] ∧
    (scene.net.link guest.link).acceptor.held = true
  current : ∀ visit, scene.current = some visit →
    (scene.net.link visit.link).acceptor.written <+: HealthServer.answer ∧
      (scene.net.link visit.link).acceptor.held = true
  past : ∀ visit ∈ scene.past, (scene.net.link visit.link).Served

/-- The server takes each connection as soon as it is there and the one before it is over, and
is done with it when its request is decided, or else when its time is up. -/
structure InTime (scene : Service) : Prop where
  line : ∀ guest ∈ scene.line, guest.Noted scene.now scene.net
  past : Farewell.Chained scene.opened scene.timeout scene.past
  current : ∀ visit, scene.current = some visit → visit.begun = max visit.arrived scene.free ∧
    scene.now ≤ visit.due scene.timeout
  waits : scene.Waits → scene.current = none ∧ scene.line = [] ∨
    ∃ visit, scene.current = some visit ∧ visit.decided = none ∧
      (scene.net.link visit.link).decides = false ∧ scene.now < visit.begun + scene.timeout

theorem Move.keeps (h : scene.Sound) (hmove : scene.Move later) :
    scene.guests.map Guest.link <+: later.guests.map Guest.link ∧
      scene.past <:+ later.past := by
  cases hmove with
  | step hstep =>
      obtain ⟨hguests, hpast⟩ := guests_after scene _ _
      exact ⟨hguests ▸ List.prefix_refl _, hpast⟩
  | @others net hforeign =>
      refine ⟨?_, List.suffix_refl _⟩
      rw [map_link_noted]
      obtain ⟨_, hsame | ⟨_, hsame⟩⟩ := joined_cases h hforeign
      · rw [hsame]
        exact List.prefix_refl _
      · rw [hsame]
        simp [guests]
  | wait => exact ⟨List.prefix_refl _, List.suffix_refl _⟩

theorem Sound.inTurn (h : scene.Sound) : scene.InTurn where
  listening := by simp [HealthServer.isListening, h.attached, h.running]
  listens := h.listens
  order := h.order
  arrivals := h.arrivals
  keeps := fun _ hmove => hmove.keeps h
  line := fun guest hguest => by
    have howes := h.line guest hguest
    exact ⟨howes.unwritten, howes.held⟩
  current := fun visit hvisit => by
    obtain ⟨phase, _, _, howes⟩ := h.loop
    have howes := howes visit hvisit
    exact ⟨howes.written ▸ List.prefix_append _ _, howes.held⟩
  past := h.past

theorem Attends.now_le_due {visit : Visit} {reader : Frame.Reader} {deadline : Instant}
    (h : scene.Attends visit reader deadline) : scene.now ≤ visit.due scene.timeout := by
  cases hdecided : visit.decided with
  | none =>
      rw [due_of_expired hdecided]
      exact h.early
  | some decided =>
      rw [due_of_decided hdecided]
      exact Nat.le_min.mpr ⟨h.early, Nat.le_of_eq (h.prompt decided hdecided)⟩

theorem Punctual.inTime (hsound : scene.Sound) (h : scene.Punctual) (hroom : scene.HasRoom) :
    scene.InTime where
  line := fun guest hguest => (h.line guest hguest).2
  past := h.past
  current := by
    intro visit hvisit
    obtain ⟨phase, hloop, hsession, _⟩ := hsound.loop
    cases phase with
    | starting => cases (hsound.idle hloop rfl).2.symm.trans hvisit
    | accepting => cases (hsound.idle hloop rfl).2.symm.trans hvisit
    | reading session reader deadline =>
        have hattends := h.attending hloop hvisit
        exact ⟨hattends.begun, hattends.now_le_due⟩
    | replying session sending =>
        have hanswers := h.answering hloop hvisit
        exact ⟨hanswers.begun, Nat.le_of_eq hanswers.due⟩
  waits := h.waits hsound hroom

/-- Whatever its peers do, the server goes on listening and serves its connections one at a
time, each once, in the order in which they came: what it writes on one is the beginning of
the answer, and all of it unless that very peer let go of the connection, and then it closes
the connection. It always comes to wait, and if the network takes an answer at once, each
connection is over at the first instant at which its request is decided or its time is up,
and the next one in line begins at that instant. -/
theorem serves_in_turn (h : scene.Reachable) :
    scene.InTurn ∧ (∃ last, scene.Settles last) ∧ (scene.Within HasRoom → scene.InTime) :=
  ⟨h.sound.inTurn, h.sound.settles, fun hroom =>
    hroom.punctual.inTime h.sound hroom.holds⟩

theorem Move.of_step
    (h : (scene.server.step scene.now scene.net).map (fun (net, server) => scene.after net server) =
      some later) : scene.Move later := by
  obtain ⟨⟨net, server⟩, hstep, rfl⟩ := Option.map_eq_some_iff.mp h
  exact .step hstep

/-- A service whose server listens at port 4000 and reads each request for 500 milliseconds. -/
def atPort (now : Instant) (links : List Link) (queue : List LinkId) (phase : AcceptPhase)
    (line : List Guest) (current : Option Visit) (past : List Farewell) : Service :=
  { now
    net := { links, listeners := [{ address := ⟨.loopback, 4000⟩, queue }] }
    server :=
      { config := { bindAddr := "127.0.0.1", port := 4000 }
        running := true
        address := some ⟨.loopback, 4000⟩
        signal := .ready
        attached := true
        loop := some ⟨0, phase⟩ }
    opened := 0
    listener := 0
    line, current, past }

/-- A peer that says nothing. -/
def silentPeer : Visit := { link := 0, arrived := 0, begun := 0 }

/-- A peer that is taken behind it. -/
def askingPeer : Visit := { link := 1, arrived := 0, begun := 500 }

/-- The same, once its request has come. -/
def askedPeer : Visit := { askingPeer with decided := some 700 }

/-- A peer behind both. -/
def lastPeer : Guest := { link := 2, arrived := 0 }

/-- A connection that was answered after so many bytes were taken, of those that came. -/
def answeredLink (taken : Nat) (came : Bytes) : Link :=
  { dialler := { written := came }
    acceptor := { written := HealthServer.answer, taken, finished := true, held := false } }

/-- A peer that says nothing holds the server up for the read timeout; the one behind it is taken
at that very instant and is done with as soon as it has sent an empty request; and then the
next one is taken. -/
theorem serves_in_turn_of_silence : ∃ scene : Service, scene.Reachable ∧
    scene.Within HasRoom ∧ Farewell.Chained 0 500 scene.past ∧
      scene.past = [⟨askedPeer, 700⟩, ⟨silentPeer, 500⟩] ∧
      (scene.net.link 0).Served ∧ (scene.net.link 1).Served ∧
      scene.current.map Visit.begun = some 700 := by
  have hbegin : Within HasRoom (atPort 0 [] [] .starting [] none []) :=
    @Within.begin _ 0 {} _ { config := { bindAddr := "127.0.0.1", port := 4000 } } _ rfl rfl
      (by rintro _ h; cases h)
  have hcomes : Within HasRoom (atPort 0 [{}] [0] .starting [silentPeer.toGuest] none []) :=
    .move hbegin (.others (.act (.connect 0) trivial)) (by rintro _ h; cases h)
  have hopened : Within HasRoom (atPort 0 [{}] [0] .accepting [silentPeer.toGuest] none []) :=
    .move hcomes (.of_step rfl) (by rintro _ h; cases h)
  have htaken : Within HasRoom (atPort 0 [{}] []
      (.reading (HealthServer.session 0) HealthServer.reader 500) [] (some silentPeer) []) :=
    .move hopened (.of_step rfl) (by rintro _ h _ hroom; cases h; cases hroom)
  have hsecond : Within HasRoom (atPort 0 [{}, {}] [1]
      (.reading (HealthServer.session 0) HealthServer.reader 500) [askingPeer.toGuest]
      (some silentPeer) []) :=
    .move htaken (.others (.act (.connect 0) trivial))
      (by rintro _ h _ hroom; cases h; cases hroom)
  have hthird : Within HasRoom (atPort 0 [{}, {}, {}] [1, 2]
      (.reading (HealthServer.session 0) HealthServer.reader 500) [askingPeer.toGuest, lastPeer]
      (some silentPeer) []) :=
    .move hsecond (.others (.act (.connect 0) trivial))
      (by rintro _ h _ hroom; cases h; cases hroom)
  have hwait : Within HasRoom (atPort 500 [{}, {}, {}] [1, 2]
      (.reading (HealthServer.session 0) HealthServer.reader 500) [askingPeer.toGuest, lastPeer]
      (some silentPeer) []) :=
    .move hthird (.wait rfl (by decide) (by rintro wake h; cases h; decide))
      (by rintro _ h _ hroom; cases h; cases hroom)
  have hexpired : Within HasRoom (atPort 500 [{}, {}, {}] [1, 2]
      (HealthServer.answering (HealthServer.session 0) HealthServer.answer)
      [askingPeer.toGuest, lastPeer] (some silentPeer) []) :=
    .move hwait (.of_step rfl) (by rintro _ h _ hroom; cases h; cases hroom)
  have hanswered : Within HasRoom (atPort 500 [answeredLink 0 [], {}, {}] [1, 2] .accepting
      [askingPeer.toGuest, lastPeer] none [⟨silentPeer, 500⟩]) :=
    .move hexpired (.of_step rfl) (by rintro _ h; cases h)
  have hnext : Within HasRoom (atPort 500 [answeredLink 0 [], {}, {}] [2]
      (.reading (HealthServer.session 1) HealthServer.reader 1000) [lastPeer] (some askingPeer)
      [⟨silentPeer, 500⟩]) :=
    .move hanswered (.of_step rfl) (by rintro _ h _ hroom; cases h; cases hroom)
  have hlater : Within HasRoom (atPort 700 [answeredLink 0 [], {}, {}] [2]
      (.reading (HealthServer.session 1) HealthServer.reader 1000) [lastPeer] (some askingPeer)
      [⟨silentPeer, 500⟩]) :=
    .move hnext (.wait rfl (by decide) (by rintro wake h; cases h; decide))
      (by rintro _ h _ hroom; cases h; cases hroom)
  have hasked : Within HasRoom (atPort 700
      [answeredLink 0 [], { dialler := { written := [0] } }, {}] [2]
      (.reading (HealthServer.session 1) HealthServer.reader 1000) [lastPeer]
      (some askedPeer) [⟨silentPeer, 500⟩]) :=
    .move hlater (.others (.act (.write 1 .dialler [0]) (by rintro ⟨h, _⟩; cases h)))
      (by rintro _ h _ hroom; cases h; cases hroom)
  have hheard : Within HasRoom (atPort 700
      [answeredLink 0 [], { dialler := { written := [0] }, acceptor := { taken := 1 } }, {}] [2]
      (HealthServer.answering ((HealthServer.session 1).countReceived []) HealthServer.answer)
      [lastPeer] (some askedPeer) [⟨silentPeer, 500⟩]) :=
    .move hasked (.of_step rfl) (by rintro _ h _ hroom; cases h; cases hroom)
  have hserved : Within HasRoom (atPort 700
      [answeredLink 0 [], answeredLink 1 [0], {}] [2] .accepting [lastPeer] none
      [⟨askedPeer, 700⟩, ⟨silentPeer, 500⟩]) :=
    .move hheard (.of_step rfl) (by rintro _ h; cases h)
  have hlast : Within HasRoom (atPort 700 [answeredLink 0 [], answeredLink 1 [0], {}] []
      (.reading (HealthServer.session 2) HealthServer.reader 1200) []
      (some { toGuest := lastPeer, begun := 700 }) [⟨askedPeer, 700⟩, ⟨silentPeer, 500⟩]) :=
    .move hserved (.of_step rfl) (by rintro _ h _ hroom; cases h; cases hroom)
  obtain ⟨hturn, _, htime⟩ := serves_in_turn hlast.reachable
  exact ⟨_, hlast.reachable, hlast, (htime hlast).past, rfl,
    hturn.past ⟨silentPeer, 500⟩ (.tail _ (.head _)), hturn.past ⟨askedPeer, 700⟩ (.head _), rfl⟩

end Service

end NodeHealth
