import NodeHealth.Proofs.Net.Others

/-!
# What others do to one connection, and to a listener

Whatever others do changes a connection only by operations at ends that are not held
(`Net.Foreign.acts`), and a held listener only by connections that join its queue and by
failures that accepting will report (`Net.Foreign.joins`). As long as an end is held, what
happens at it leaves the other end as it is.

-/

namespace NodeHealth

namespace Link

/-- One operation at a side of a connection. -/
inductive Act (side : Side) (link : Link) : Link → Prop
  | write (bytes : Bytes) : Act side link (link.write side bytes).2
  | take (count : Nat) : Act side link (link.take side count)
  | report : Act side link (link.report side)
  | finish : Act side link (link.finish side)
  | close : Act side link (link.close side)
  | hangUp : Act side link (link.hangUp side)
  | abort : Act side link (link.abort side)
  | confine (room : Option Nat) : Act side link (link.setEnd side { link.endAt side with room })

/-- Operations at sides that are free. -/
inductive Acts (free : Side → Prop) (link : Link) : Link → Prop
  | refl : Acts free link link
  | step {middle later : Link} {side : Side} (h : Acts free link middle) (hfree : free side)
      (hact : middle.Act side later) : Acts free link later

variable {free : Side → Prop} {link middle later : Link} {side : Side}

theorem Acts.trans (h : link.Acts free middle) (h' : middle.Acts free later) :
    link.Acts free later := by
  induction h' with
  | refl => exact h
  | step _ hfree hact ih => exact .step ih hfree hact

theorem Acts.single (hfree : free side) (hact : link.Act side later) : link.Acts free later :=
  .step .refl hfree hact

/-- Nothing happens to a connection of which no side is free. -/
theorem Acts.eq (h : link.Acts free later) (hnone : ∀ side, ¬free side) : later = link := by
  induction h with
  | refl => rfl
  | step _ hfree => exact absurd hfree (hnone _)

/-- An end that is let go of is not taken up again, and until then nothing that is done there
changes the other end. -/
structure Untorn (side : Side) (link later : Link) : Prop where
  held : (later.endAt side).held = true → (link.endAt side).held = true
  other : (later.endAt side).held = true → later.endAt side.other = link.endAt side.other

theorem Untorn.refl (side : Side) (link : Link) : link.Untorn side link :=
  ⟨id, fun _ => rfl⟩

theorem Untorn.trans (h : link.Untorn side middle) (h' : middle.Untorn side later) :
    link.Untorn side later :=
  ⟨fun hheld => h.held (h'.held hheld),
    fun hheld => (h'.other hheld).trans (h.other (h'.held hheld))⟩

theorem untorn_setEnd {value : End} (hheld : value.held = (link.endAt side).held) :
    link.Untorn side (link.setEnd side value) where
  held := by
    rw [endAt_setEnd, hheld]
    exact id
  other := fun _ => endAt_setEnd_other link side value

theorem untorn_of_gone (h : (later.endAt side).held = false) : link.Untorn side later where
  held := by simp [h]
  other := by simp [h]

theorem untorn_close (side : Side) (link : Link) : link.Untorn side (link.close side) := by
  apply untorn_of_gone
  unfold close
  split
  · simp [release]
  · simp [abort, release]

theorem Act.untorn (h : link.Act side later) : link.Untorn side later := by
  cases h with
  | write bytes =>
      simp only [Link.write]
      split
      · exact untorn_setEnd rfl
      · split
        · exact Untorn.refl side link
        · exact untorn_setEnd rfl
  | take count => exact untorn_setEnd rfl
  | report => exact untorn_setEnd rfl
  | finish => exact untorn_setEnd rfl
  | close => exact untorn_close side link
  | hangUp =>
      have htake : link.Untorn side (link.take side (link.unread side).length) :=
        untorn_setEnd rfl
      exact htake.trans (untorn_close side _)
  | abort => exact untorn_of_gone (by simp [Link.abort, release])
  | confine room => exact untorn_setEnd rfl

/-- What others can do if they have one side only. -/
theorem Acts.untorn (h : link.Acts free later) (hfree : ∀ other, free other → other = side) :
    link.Untorn side later := by
  induction h with
  | refl => exact Untorn.refl side link
  | step _ hside hact ih =>
      cases hfree _ hside
      exact ih.trans hact.untorn

end Link

/-- An address that stands for all of its kind is one to listen at, not one to dial. -/
theorem IpAddress.covers_destination (ip : IpAddress) : ip.covers ip.destination = true := by
  unfold covers destination
  by_cases hall : ip.isUnspecified = true
  · have hshort : loopback.isLong = false := rfl
    by_cases hlong : ip.isLong = true
    · simp [hall, hlong]
    · simp [hall, hlong, hshort]
  · simp [hall]

/-- Whoever is reached by dialling an address listens at it, or at one that it includes. -/
theorem IpAddress.covers_of_covers_destination {ip target : IpAddress}
    (h : ip.covers target.destination = true) :
    ip.covers target = true ∨ target.covers ip = true := by
  by_cases hall : target.isUnspecified = true
  · by_cases hlong : target.isLong = true
    · exact .inr (by simp [covers, hall, hlong])
    · rw [destination, if_pos hall, if_neg hlong] at h
      by_cases hself : ip = .loopback
      · subst hself
        exact .inr (by simp [covers, hall, loopback, isLong])
      · have hown : ip.isUnspecified = true := by
          simp only [covers, hself, decide_false, Bool.false_or, Bool.and_eq_true] at h
          exact h.1
        exact .inl (by simp [covers, hown, hlong])
  · rw [destination, if_neg hall] at h
    exact .inl h

namespace Listener

theorem hears_self {listener : Listener} (h : listener.isOpen = true) :
    listener.hears listener.address = true := by
  simp [hears, h, IpAddress.covers_destination]

/-- Nobody else can listen where a listener is reached. -/
theorem occupies_of_hears {listener : Listener} {address : SocketAddress}
    (h : listener.hears address = true) : listener.occupies address = true := by
  simp only [hears, Bool.and_eq_true, decide_eq_true_eq] at h
  simp [occupies, h.1, IpAddress.covers_of_covers_destination h.2]

end Listener

namespace Net

variable {mine : Holdings} {net later : Net}

/-! ## One connection -/

/-- Changing one connection by an operation at a free side. -/
theorem acts_changeLink {id : LinkId} {side : Side} {change : Link → Link}
    (hfree : ¬mine.ends id side) (hact : (net.link id).Act side (change (net.link id)))
    {other : LinkId} (hother : other < net.links.length) :
    (net.link other).Acts (fun side => ¬mine.ends other side)
      ((net.changeLink id change).link other) := by
  by_cases hsame : id = other
  · subst hsame
    rw [link_changeLink net id change hother]
    exact .single hfree hact
  · rw [link_changeLink_of_ne net change hsame]
    exact .refl

theorem acts_of_added {added : List Link} (hlinks : later.links = net.links ++ added)
    {id : LinkId} (hid : id < net.links.length) :
    (net.link id).Acts (fun side => ¬mine.ends id side) (later.link id) := by
  rw [link_append_of_lt hlinks hid]
  exact .refl

theorem acts_abortAll (queue : List LinkId) :
    ∀ {net : Net}, (∀ link ∈ queue, ¬mine.ends link .acceptor) → ∀ {id : LinkId},
      id < net.links.length →
        (net.link id).Acts (fun side => ¬mine.ends id side)
          ((queue.foldl (fun net link => net.changeLink link (·.abort .acceptor)) net).link
            id) := by
  induction queue with
  | nil => exact fun _ _ _ => .refl
  | cons link queue ih =>
      intro net hfree id hid
      have hone : (net.link id).Acts (fun side => ¬mine.ends id side)
          ((net.changeLink link (·.abort .acceptor)).link id) :=
        acts_changeLink (hfree link (by simp)) .abort hid
      refine hone.trans ?_
      exact ih (fun l hl => hfree l (by simp [hl])) (by rwa [length_changeLink])

theorem acts_answer (target : SocketAddress) {id : LinkId} (hid : id < net.links.length) :
    (net.link id).Acts (fun side => ¬mine.ends id side) ((net.answer target).2.link id) := by
  rcases answer_cases net target with ⟨_, hlinks, _⟩ | ⟨_, hnet⟩
  · exact acts_of_added hlinks hid
  · rw [hnet]
    exact .refl

theorem acts_apply {event : Event} (h : event.Spares mine) {id : LinkId}
    (hid : id < net.links.length) :
    (net.link id).Acts (fun side => ¬mine.ends id side) ((net.apply event).link id) := by
  cases event with
  | connect listener => exact acts_of_added (enqueue_eq net listener).2.1 hid
  | accept listener =>
      simp only [apply]
      split
      · rename_i taken later haccept
        simp only [accept?] at haccept
        split at haccept
        · cases haccept
          exact acts_of_added (List.append_nil _).symm hid
        · cases haccept
      · exact .refl
  | write link side bytes => exact acts_changeLink h (.write bytes) hid
  | read link side count =>
      refine acts_changeLink h ?_ hid
      split
      · exact .report
      · exact .take _
  | finish link side => exact acts_changeLink h .finish hid
  | close link side => exact acts_changeLink h .close hid
  | hangUp link side => exact acts_changeLink h .hangUp hid
  | abort link side => exact acts_changeLink h .abort hid
  | establish attempt =>
      simp only [apply]
      split
      · exact acts_of_added rfl hid
      · exact .refl
  | refuse attempt cause =>
      simp only [apply]
      split
      · exact acts_of_added (List.append_nil _).symm hid
      · exact .refl
  | resolve attempt found =>
      simp only [apply]
      split
      · split
        · exact acts_answer _ hid
        · exact .refl
      · exact .refl
  | hinder listener cause => exact .refl

/-- Others change a connection by operations at its sides that are not held. -/
theorem Foreign.acts (h : Foreign mine net later) {id : LinkId} (hid : id < net.links.length) :
    (net.link id).Acts (fun side => ¬mine.ends id side) (later.link id) := by
  cases h with
  | act event h => exact acts_apply h hid
  | listen h =>
      obtain ⟨_, _, _, _, rfl⟩ := listen_eq_ok h
      exact .refl
  | @unlisten listener _ hqueue =>
      simp only [closeListener]
      split
      · exact .refl
      · rename_i found hfound
        exact acts_abortAll found.queue (hqueue found hfound) hid
  | dial target => exact acts_answer target hid
  | seek host port =>
      rcases seek_cases net host port with ⟨target, hdial⟩ | ⟨_, _, hlinks, _, _⟩
      · rw [hdial]
        exact acts_answer target hid
      · exact acts_of_added (hlinks.trans (List.append_nil _).symm) hid
  | abandon h => exact .refl
  | confine room h => exact acts_changeLink h (.confine room) hid

/-- Others may do nothing. -/
theorem Foreign.refl (mine : Holdings) (net : Net) : Foreign mine net net := by
  have hnobody : (net.attempt net.attempts.length).isUnanswered = false := by
    simp [attempt, Attempt.isUnanswered]
  have hsame : net.apply (.establish net.attempts.length) = net := by
    simp only [apply, hnobody, Bool.false_eq_true, if_false]
  have hact : Foreign mine net (net.apply (.establish net.attempts.length)) := .act _ trivial
  rwa [hsame] at hact

/-! ## One listener -/

/-- The connections that wait at a listener, the oldest first. -/
def queue (net : Net) (id : ListenerId) : List LinkId :=
  ((net.listener? id).map Listener.queue).getD []

/-- The failures that accepting at a listener will report, the next one first. -/
def hindrances (net : Net) (id : ListenerId) : List IoCause :=
  ((net.listener? id).map Listener.hindrances).getD []

/-- A listener stays, a new connection joins those that wait there, or a failure those that
accepting will report. -/
inductive Joins (net later : Net) (id : ListenerId) (listener : Listener) : Prop
  | stays (h : later.listener? id = some listener)
  | joins (h : later.listener? id =
        some { listener with queue := listener.queue ++ [net.links.length] })
      (hlinks : later.links = net.links ++ [({} : Link)])
  | hinders {cause : IoCause} (h : later.listener? id =
        some { listener with hindrances := listener.hindrances ++ [cause] })

variable {id other : ListenerId} {listener : Listener}

theorem queue_of_listener (h : net.listener? id = some listener) :
    net.queue id = listener.queue := by
  simp [queue, h]

theorem hindrances_of_listener (h : net.listener? id = some listener) :
    net.hindrances id = listener.hindrances := by
  simp [hindrances, h]

theorem listener?_changeListener_of_ne {change : Listener → Listener} (h : id ≠ other) :
    (net.changeListener id change).listener? other = net.listener? other := by
  simp [listener?, changeListener, h]

theorem listener?_changeListener {change : Listener → Listener}
    (h : net.listener? id = some listener) :
    (net.changeListener id change).listener? id = some (change listener) := by
  simp only [listener?] at h
  simp [listener?, changeListener, h]

theorem listener?_of_append {added : List Listener}
    (hlisteners : later.listeners = net.listeners ++ added)
    (h : net.listener? id = some listener) : later.listener? id = some listener := by
  have hlt := (List.getElem?_eq_some_iff.mp h).1
  simp only [listener?] at h ⊢
  rw [hlisteners, List.getElem?_append_left hlt, h]

theorem joins_enqueue (h : net.listener? id = some listener) (at_ : ListenerId) :
    net.Joins (net.enqueue at_).2 id listener := by
  have hadded : (net.addLink {}).2.listener? id = some listener := h
  by_cases hsame : at_ = id
  · subst hsame
    refine .joins ?_ rfl
    exact listener?_changeListener hadded
  · refine .stays ?_
    exact (listener?_changeListener_of_ne hsame).trans hadded

theorem joins_answer (h : net.listener? id = some listener) (target : SocketAddress) :
    net.Joins (net.answer target).2 id listener := by
  simp only [answer]
  split
  · split
    · exact .stays h
    · exact .stays h
  · split
    · exact joins_enqueue h _
    · exact .stays h

/-- What becomes of the attempts on a network makes no difference to its listeners. -/
theorem Joins.of_same {settled : Net} (h : net.Joins later id listener)
    (hlisteners : settled.listeners = later.listeners) (hlinks : settled.links = later.links) :
    net.Joins settled id listener := by
  have hsame : settled.listener? id = later.listener? id := by
    simp only [listener?, hlisteners]
  cases h with
  | stays h => exact .stays (hsame.trans h)
  | joins h hadded => exact .joins (hsame.trans h) (hlinks.trans hadded)
  | hinders h => exact .hinders (hsame.trans h)

theorem joins_dial (h : net.listener? id = some listener) (target : SocketAddress) :
    net.Joins (net.dial target).2 id listener :=
  (joins_answer h target).of_same rfl rfl

theorem joins_seek (h : net.listener? id = some listener) (host : String) (port : UInt16) :
    net.Joins (net.seek host port).2 id listener := by
  rcases seek_cases net host port with ⟨target, hdial⟩ | ⟨_, _, _, hlisteners, _⟩
  · rw [hdial]
    exact joins_dial h target
  · refine .stays ?_
    rw [listener?, hlisteners]
    exact h

theorem listener?_abortAll (queue : List LinkId) (net : Net) (id : ListenerId) :
    (queue.foldl (fun net link => net.changeLink link (·.abort .acceptor)) net).listener? id =
      net.listener? id := by
  induction queue generalizing net with
  | nil => rfl
  | cons link queue ih => exact ih (net.changeLink link (·.abort .acceptor))

theorem listener?_closeListener_of_ne (h : id ≠ other) :
    (net.closeListener id).listener? other = net.listener? other := by
  simp only [closeListener]
  split
  · rfl
  · rw [listener?_changeListener_of_ne h, listener?_abortAll]

theorem joins_apply {event : Event} (h : event.Spares mine) (hmine : mine.listeners id)
    (hlistener : net.listener? id = some listener) :
    net.Joins (net.apply event) id listener := by
  cases event with
  | connect at_ => exact joins_enqueue hlistener at_
  | accept at_ =>
      simp only [apply]
      split
      · rename_i taken later haccept
        simp only [accept?] at haccept
        split at haccept
        · cases haccept
          have hne : at_ ≠ id := by
            rintro rfl
            exact h hmine
          exact .stays ((listener?_changeListener_of_ne hne).trans hlistener)
        · cases haccept
      · exact .stays hlistener
  | write link side bytes => exact .stays hlistener
  | read link side count => exact .stays hlistener
  | finish link side => exact .stays hlistener
  | close link side => exact .stays hlistener
  | hangUp link side => exact .stays hlistener
  | abort link side => exact .stays hlistener
  | establish attempt =>
      simp only [apply]
      split
      · exact .stays hlistener
      · exact .stays hlistener
  | refuse attempt cause =>
      simp only [apply]
      split
      · exact .stays hlistener
      · exact .stays hlistener
  | resolve attempt found =>
      simp only [apply]
      split
      · split
        · exact (joins_answer hlistener _).of_same rfl rfl
        · exact .stays hlistener
      · exact .stays hlistener
  | hinder at_ cause =>
      by_cases hsame : at_ = id
      · subst hsame
        exact .hinders (listener?_changeListener hlistener)
      · exact .stays ((listener?_changeListener_of_ne hsame).trans hlistener)

/-- What spares more spares less. -/
theorem Foreign.mono {less : Holdings} (h : Foreign mine net later)
    (hends : ∀ {link side}, less.ends link side → mine.ends link side)
    (hattempts : ∀ {attempt}, less.attempts attempt → mine.attempts attempt)
    (hlisteners : ∀ {listener}, less.listeners listener → mine.listeners listener) :
    Foreign less net later := by
  cases h with
  | act event h =>
      refine .act event ?_
      cases event <;> first | exact mt hends h | exact mt hlisteners h | trivial
  | listen h => exact .listen h
  | unlisten h hqueue =>
      exact .unlisten (mt hlisteners h)
        fun listener hlistener link hlink => mt hends (hqueue listener hlistener link hlink)
  | dial target => exact .dial target
  | seek host port => exact .seek host port
  | abandon h => exact .abandon (mt hattempts h)
  | confine room h => exact .confine room (mt hends h)

/-- All that others can do to a held listener is to connect to it and to let accepting fail. -/
theorem Foreign.joins (h : Foreign mine net later) (hmine : mine.listeners id)
    (hlistener : net.listener? id = some listener) : net.Joins later id listener := by
  cases h with
  | act event h => exact joins_apply h hmine hlistener
  | listen h =>
      obtain ⟨_, _, _, _, rfl⟩ := listen_eq_ok h
      exact .stays (listener?_of_append rfl hlistener)
  | @unlisten other hother _ =>
      have hne : other ≠ id := by
        rintro rfl
        exact hother hmine
      exact .stays ((listener?_closeListener_of_ne hne).trans hlistener)
  | dial target => exact joins_dial hlistener target
  | seek host port => exact joins_seek hlistener host port
  | abandon h => exact .stays hlistener
  | confine room h => exact .stays hlistener

/-! ## Closing a listener -/

/-- Aborting some connections lets go of them, and writes nothing. -/
theorem link_abortAll (queue : List LinkId) :
    ∀ (net : Net) {id : LinkId}, id < net.links.length →
      let later := queue.foldl (fun net link => net.changeLink link (·.abort .acceptor)) net
      (later.link id).acceptor.written = (net.link id).acceptor.written ∧
        (id ∈ queue ∨ (net.link id).acceptor.held = false →
          (later.link id).acceptor.held = false) := by
  induction queue with
  | nil => exact fun net id _ => ⟨rfl, fun h => h.resolve_left List.not_mem_nil⟩
  | cons first queue ih =>
      intro net id hid
      obtain ⟨hwritten, hheld⟩ := ih (net.changeLink first (·.abort .acceptor))
        (by rwa [length_changeLink])
      by_cases hsame : first = id
      · subst hsame
        rw [link_changeLink _ _ _ hid] at hwritten hheld
        exact ⟨hwritten, fun _ => hheld (.inr rfl)⟩
      · rw [link_changeLink_of_ne _ _ hsame] at hwritten hheld
        refine ⟨hwritten, ?_⟩
        rintro (hmem | hfree)
        · exact hheld (.inl ((List.mem_cons.mp hmem).resolve_left (Ne.symm hsame)))
        · exact hheld (.inr hfree)

theorem length_abortAll (queue : List LinkId) (net : Net) :
    (queue.foldl (fun net link => net.changeLink link (·.abort .acceptor)) net).links.length =
      net.links.length := by
  induction queue generalizing net with
  | nil => rfl
  | cons link queue ih => exact (ih _).trans (length_changeLink _ _ _)

theorem length_closeListener (net : Net) (id : ListenerId) :
    (net.closeListener id).links.length = net.links.length := by
  unfold closeListener
  split
  · rfl
  · exact length_abortAll _ net

/-- Closing a listener lets go of the connections that wait there, and of no others. -/
theorem held_closeListener {listener : Listener} {id : ListenerId}
    (hlistener : net.listener? id = some listener) {link : LinkId}
    (hlink : link < net.links.length)
    (h : link ∈ listener.queue ∨ (net.link link).acceptor.held = false) :
    ((net.closeListener id).link link).acceptor.held = false := by
  simp only [closeListener, hlistener]
  exact (link_abortAll listener.queue net hlink).2 h

/-- Closing a listener writes nothing. -/
theorem written_closeListener (net : Net) (id : ListenerId) {link : LinkId}
    (hlink : link < net.links.length) :
    ((net.closeListener id).link link).acceptor.written = (net.link link).acceptor.written := by
  unfold closeListener
  split
  · rfl
  · exact (link_abortAll _ net hlink).1

/-- Nobody waits at a listener that is closed, and nobody will. -/
theorem listener?_closeListener {listener : Listener} {id : ListenerId}
    (hlistener : net.listener? id = some listener) :
    (net.closeListener id).listener? id =
      some { listener with isOpen := false, queue := [] } := by
  simp only [closeListener, hlistener]
  exact listener?_changeListener ((listener?_abortAll _ net id).trans hlistener)

/-! ## Where attempts on an address lead -/

/-- A listener is the first to hear attempts on an address. -/
def Reaches (net : Net) (address : SocketAddress) (id : ListenerId) : Prop :=
  net.listeners.findIdx? (·.hears address) = some id

/-- No listener that there was hears what it did not hear before. -/
def Deafens (net later : Net) : Prop :=
  ∀ id found, later.listener? id = some found → id < net.listeners.length →
    ∃ before, net.listener? id = some before ∧
      ∀ address, found.hears address = true → before.hears address = true

variable {address : SocketAddress}

theorem Deafens.of_same (h : later.listeners = net.listeners) : net.Deafens later := by
  intro id found hfound _
  refine ⟨found, ?_, fun _ hhears => hhears⟩
  rwa [listener?, h] at hfound

theorem Deafens.of_added {added : List Listener} (h : later.listeners = net.listeners ++ added) :
    net.Deafens later := by
  intro id found hfound hid
  refine ⟨found, ?_, fun _ hhears => hhears⟩
  rwa [listener?, h, List.getElem?_append_left hid] at hfound

theorem Deafens.of_modified {change : Listener → Listener}
    (h : later.listeners = net.listeners.modify id change)
    (hless : ∀ listener address, (change listener).hears address = true →
      listener.hears address = true) : net.Deafens later := by
  intro other found hfound hother
  have hbefore : net.listener? other = some net.listeners[other] :=
    List.getElem?_eq_getElem hother
  have hlater : later.listener? other = (net.changeListener id change).listener? other := by
    simp only [listener?, changeListener, h]
  rw [hlater] at hfound
  by_cases hsame : id = other
  · subst hsame
    cases (listener?_changeListener hbefore).symm.trans hfound
    exact ⟨_, hbefore, hless _⟩
  · rw [listener?_changeListener_of_ne hsame] at hfound
    exact ⟨found, hfound, fun _ hhears => hhears⟩

theorem Deafens.trans {middle : Net} (h : net.Deafens middle) (h' : middle.Deafens later)
    (hlength : net.listeners.length ≤ middle.listeners.length) : net.Deafens later := by
  intro id found hfound hid
  obtain ⟨between, hbetween, hless'⟩ := h' id found hfound (Nat.lt_of_lt_of_le hid hlength)
  obtain ⟨before, hbefore, hless⟩ := h id between hbetween hid
  exact ⟨before, hbefore, fun address hhears => hless address (hless' address hhears)⟩

/-- Who waits at a listener, and what accepting there reports, makes no difference to what it
hears. -/
theorem Deafens.of_queue {queue : Listener → List LinkId} {hindrances : Listener → List IoCause}
    (h : later.listeners = net.listeners.modify id fun listener =>
      { listener with queue := queue listener, hindrances := hindrances listener }) :
    net.Deafens later :=
  .of_modified h fun _ _ hhears => hhears

theorem deafens_answer (net : Net) (target : SocketAddress) :
    net.Deafens (net.answer target).2 := by
  simp only [answer]
  split
  · split
    · exact .of_same rfl
    · exact .of_same rfl
  · split
    · exact .of_queue rfl
    · exact .of_same rfl

theorem deafens_dial (net : Net) (target : SocketAddress) : net.Deafens (net.dial target).2 :=
  deafens_answer net target

theorem deafens_seek (net : Net) (host : String) (port : UInt16) :
    net.Deafens (net.seek host port).2 := by
  rcases seek_cases net host port with ⟨target, hdial⟩ | ⟨_, _, _, hlisteners, _⟩
  · rw [hdial]
    exact deafens_dial net target
  · exact .of_same hlisteners

theorem listeners_abortAll (queue : List LinkId) (net : Net) :
    (queue.foldl (fun net link => net.changeLink link (·.abort .acceptor)) net).listeners =
      net.listeners := by
  induction queue generalizing net with
  | nil => rfl
  | cons link queue ih => exact ih _

theorem deafens_closeListener (id : ListenerId) (net : Net) :
    net.Deafens (net.closeListener id) := by
  simp only [closeListener]
  split
  · exact .of_same rfl
  · refine .of_modified (congrArg (List.modify · id _) (listeners_abortAll _ net)) ?_
    intro listener address hhears
    simp [Listener.hears] at hhears

theorem deafens_listen {wanted : SocketAddress} {reception : Reception}
    (h : net.listen wanted reception = .ok (id, later)) : net.Deafens later := by
  obtain ⟨_, _, _, _, rfl⟩ := listen_eq_ok h
  exact .of_added rfl

theorem deafens_accept {link : LinkId} (h : net.accept? id = some (link, later)) :
    net.Deafens later := by
  simp only [accept?] at h
  split at h
  · cases h
    exact .of_queue rfl
  · cases h

theorem Foreign.deafens (h : net.Foreign mine later) : net.Deafens later := by
  cases h with
  | act event h =>
      cases event with
      | connect listener => exact .of_queue rfl
      | accept listener =>
          simp only [apply]
          split
          · rename_i haccept
            exact deafens_accept haccept
          · exact .of_same rfl
      | establish attempt =>
          simp only [apply]
          split <;> exact .of_same rfl
      | refuse attempt cause =>
          simp only [apply]
          split <;> exact .of_same rfl
      | resolve attempt found =>
          simp only [apply]
          split
          · split
            · exact deafens_answer net _
            · exact .of_same rfl
          · exact .of_same rfl
      | hinder listener cause => exact .of_queue rfl
      | _ => exact .of_same rfl
  | listen h => exact deafens_listen h
  | unlisten _ _ => exact deafens_closeListener _ net
  | dial target => exact deafens_dial net target
  | seek host port => exact deafens_seek net host port
  | abandon _ => exact .of_same rfl
  | confine _ _ => exact .of_same rfl

/-- A listener that goes on hearing an address stays the first one. -/
theorem Reaches.of_deafens (h : net.Reaches address id) (hdeafens : net.Deafens later)
    {found : Listener} (hfound : later.listener? id = some found)
    (hhears : found.hears address = true) : later.Reaches address id := by
  obtain ⟨hid, _, hfirst⟩ := List.findIdx?_eq_some_iff_getElem.mp h
  obtain ⟨hlater, rfl⟩ := List.getElem?_eq_some_iff.mp hfound
  refine List.findIdx?_eq_some_iff_getElem.mpr ⟨hlater, hhears, fun other hother heard => ?_⟩
  have hlt := Nat.lt_trans hother hid
  obtain ⟨before, hbefore, hless⟩ :=
    hdeafens other _ (List.getElem?_eq_getElem (Nat.lt_trans hother hlater)) hlt
  obtain ⟨_, rfl⟩ := List.getElem?_eq_some_iff.mp hbefore
  exact hfirst other hother (hless address heard)

theorem unheard_of_refusal (h : net.refusal? address = none) :
    net.listeners.findIdx? (·.hears address) = none := by
  refine List.findIdx?_eq_none_iff.mpr fun listener hmem => Bool.eq_false_iff.mpr fun hhears => ?_
  have hany : net.listeners.any (·.occupies address) = true :=
    List.any_eq_true.mpr ⟨listener, hmem, Listener.occupies_of_hears hhears⟩
  simp only [refusal?, hany, if_true] at h
  split at h <;> cases h

/-- A listener takes all that comes, and attempts on its address lead to it. -/
structure Receives (net : Net) (id : ListenerId) (listener : Listener) : Prop where
  found : net.listener? id = some listener
  accepts : listener.reception = .accepts
  isOpen : listener.isOpen = true
  reaches : net.Reaches listener.address id

theorem Reaches.of_unheard (h : net.listeners.findIdx? (·.hears listener.address) = none)
    (hopen : listener.isOpen = true) (hlater : later.listeners = net.listeners ++ [listener]) :
    later.Reaches listener.address net.listeners.length := by
  simp [Reaches, hlater, List.findIdx?_append, h, Listener.hears_self hopen]

theorem id_of_listen {wanted : SocketAddress} {reception : Reception}
    (h : net.listen wanted reception = .ok (id, later)) : id = net.listeners.length := by
  obtain ⟨_, _, _, hid, _⟩ := listen_eq_ok h
  exact hid

/-- Whoever begins to listen is the only one at its address. -/
theorem receives_listen {wanted : SocketAddress} (h : net.listen wanted = .ok (id, later)) :
    ∃ listener, later.Receives id listener := by
  obtain ⟨_, _, hplace, rfl, rfl⟩ := listen_eq_ok h
  exact ⟨_, List.getElem?_concat_length, rfl, rfl,
    .of_unheard (unheard_of_refusal (place_eq_ok hplace).1) rfl rfl⟩

/-- Nobody waits yet at a listener that is new. -/
theorem queue_of_listen {wanted : SocketAddress} {reception : Reception}
    (h : net.listen wanted reception = .ok (id, later)) : later.queue id = [] := by
  obtain ⟨_, _, _, rfl, rfl⟩ := listen_eq_ok h
  simp [queue, listener?]

/-- Whoever listens on a whole machine has an address of that machine. -/
theorem isLocal_of_listen {wanted address : SocketAddress} {reception : Reception}
    (h : net.listen wanted reception = .ok (id, later))
    (haddress : later.addressOf? id = some address) (hwhole : later.isWhole = true) :
    address.ip.isLocal = true := by
  obtain ⟨_, _, hplace, rfl, rfl⟩ := listen_eq_ok h
  have hrefusal := (place_eq_ok hplace).1
  simp only [addressOf?, listener?, List.getElem?_concat_length, Option.map_some,
    Option.some.injEq] at haddress
  subst haddress
  apply Classical.byContradiction
  intro hforeign
  simp only [refusal?] at hrefusal
  rw [if_pos ⟨hwhole, hforeign⟩] at hrefusal
  cases hrefusal

/-- An attempt that reaches a listener that takes all that comes leads to a connection that is
the last in line. -/
theorem Reaches.dial (h : net.Reaches address id) (hfound : net.listener? id = some listener)
    (haccepts : listener.reception = .accepts) :
    (net.dial address).2.attempt (net.dial address).1 = .connected net.links.length ∧
      net.links.length ∈ (net.dial address).2.queue id := by
  obtain ⟨own, reception, queue, isOpen, hindrances⟩ := listener
  cases haccepts
  have hfirst : net.listeners.findIdx? (·.hears address) = some id := h
  have hanswer : net.answer address = (.connected net.links.length, (net.enqueue id).2) := by
    simp only [answer, hfirst, hfound]
    rfl
  have hqueue : (net.enqueue id).2.listener? id = some _ :=
    @listener?_changeListener (net.addLink {}).2 id _ _ hfound
  constructor
  · simp only [Net.dial, hanswer, attempt, List.getElem?_concat_length, Option.getD_some]
  · have hsame : (net.dial address).2.listener? id = (net.enqueue id).2.listener? id := by
      simp only [Net.dial, hanswer, listener?]
    rw [queue_of_listener (hsame.trans hqueue)]
    exact List.mem_append_right _ List.mem_cons_self

theorem Receives.dial (h : net.Receives id listener) :
    (net.dial listener.address).2.attempt (net.dial listener.address).1 =
        .connected net.links.length ∧
      net.links.length ∈ (net.dial listener.address).2.queue id :=
  h.reaches.dial h.found h.accepts

/-- A listener goes on as long as it stays up to its queue and to what accepting reports. -/
theorem Receives.keeps (h : net.Receives id listener) (hdeafens : net.Deafens later)
    {queue : List LinkId} {hindrances : List IoCause}
    (hlater : later.listener? id = some { listener with queue, hindrances }) :
    later.Receives id { listener with queue, hindrances } where
  found := hlater
  accepts := h.accepts
  isOpen := h.isOpen
  reaches := h.reaches.of_deafens hdeafens hlater (Listener.hears_self h.isOpen)

theorem Receives.of_same (h : net.Receives id listener)
    (hlisteners : later.listeners = net.listeners) : later.Receives id listener :=
  h.keeps (.of_same hlisteners) (by rw [listener?, hlisteners]; exact h.found)

/-- A listener that connections join goes on. -/
theorem Receives.joins (h : net.Receives id listener) (hdeafens : net.Deafens later)
    (hjoins : net.Joins later id listener) : ∃ found, later.Receives id found := by
  cases hjoins with
  | stays hlater => exact ⟨_, h.keeps hdeafens hlater⟩
  | joins hlater _ => exact ⟨_, h.keeps hdeafens hlater⟩
  | hinders hlater => exact ⟨_, h.keeps hdeafens hlater⟩

/-- Taking a connection leaves those behind it. -/
theorem accept?_cases {link : LinkId} (h : net.accept? id = some (link, later)) :
    net.queue id = link :: later.queue id ∧ later.links = net.links ∧
      later.attempts = net.attempts ∧ ∀ {listener}, net.Receives id listener →
        ∃ found, later.Receives id found := by
  simp only [accept?] at h
  split at h
  · rename_i address reception first rest isOpen hindrances hlistener
    cases h
    have hlater : (net.changeListener id fun listener => { listener with queue := rest }).listener?
        id = some _ := listener?_changeListener hlistener
    refine ⟨by simp [queue, hlistener, hlater], rfl, rfl, fun hreceives => ?_⟩
    cases hlistener.symm.trans hreceives.found
    exact ⟨_, hreceives.keeps (.of_queue rfl) hlater⟩
  · cases h

theorem listener?_accept_of_ne {link : LinkId} (h : net.accept? id = some (link, later))
    (hne : id ≠ other) : later.listener? other = net.listener? other := by
  simp only [accept?] at h
  split at h
  · cases h
    exact listener?_changeListener_of_ne hne
  · cases h

theorem accept?_of_queue (h : net.queue id ≠ []) : net.accept? id ≠ none := by
  intro hnone
  simp only [accept?] at hnone
  split at hnone
  · cases hnone
  · rename_i hempty
    refine h ?_
    cases hlistener : net.listener? id with
    | none => simp [queue, hlistener]
    | some listener =>
        obtain ⟨address, reception, line, isOpen, hindrances⟩ := listener
        cases line with
        | nil => simp [queue, hlistener]
        | cons link rest => exact absurd hlistener (hempty _ _ _ _ _ _)

/-! ## Accepting -/

/-- Whoever wants to accept gets the first failure that is to be reported, which is reported
once; where there is none he takes a connection, if one waits. -/
theorem reception?_cases (net : Net) (id : ListenerId) :
    (∃ listener cause rest, net.listener? id = some listener ∧
        listener.hindrances = cause :: rest ∧
        net.reception? id = some
          (net.changeListener id fun listener => { listener with hindrances := rest },
            .error cause)) ∨
      net.hindrances id = [] ∧
        net.reception? id = (net.accept? id).map fun taken => (taken.2, .ok taken.1) := by
  unfold reception? hindrances
  cases hlistener : net.listener? id with
  | none => exact .inr ⟨rfl, rfl⟩
  | some listener =>
      obtain ⟨address, reception, queue, isOpen, failures⟩ := listener
      cases failures with
      | nil => exact .inr ⟨rfl, rfl⟩
      | cons cause rest => exact .inl ⟨_, cause, rest, rfl, rfl, rfl⟩

/-- Whoever waits to accept finds neither a failure to report nor a connection to take. -/
theorem reception?_eq_none (h : net.reception? id = none) :
    net.hindrances id = [] ∧ net.accept? id = none := by
  rcases reception?_cases net id with ⟨_, _, _, _, _, heq⟩ | ⟨hsure, heq⟩
  · cases heq.symm.trans h
  · exact ⟨hsure, Option.map_eq_none_iff.mp (heq.symm.trans h)⟩

theorem reception?_eq_ok {link : LinkId} (h : net.reception? id = some (later, .ok link)) :
    net.hindrances id = [] ∧ net.accept? id = some (link, later) := by
  rcases reception?_cases net id with ⟨_, _, _, _, _, heq⟩ | ⟨hsure, heq⟩
  · cases heq.symm.trans h
  · obtain ⟨taken, haccept, htaken⟩ := Option.map_eq_some_iff.mp (heq.symm.trans h)
    cases htaken
    exact ⟨hsure, haccept⟩

theorem reception?_eq_error {cause : IoCause}
    (h : net.reception? id = some (later, .error cause)) :
    ∃ listener rest, net.listener? id = some listener ∧ listener.hindrances = cause :: rest ∧
      later = net.changeListener id fun listener => { listener with hindrances := rest } := by
  rcases reception?_cases net id with ⟨_, _, rest, hlistener, hfailures, heq⟩ | ⟨_, heq⟩
  · cases heq.symm.trans h
    exact ⟨_, rest, hlistener, hfailures, rfl⟩
  · obtain ⟨_, _, htaken⟩ := Option.map_eq_some_iff.mp (heq.symm.trans h)
    cases htaken

/-- What a failure to accept leaves as it is. -/
theorem reception?_error_cases {cause : IoCause}
    (h : net.reception? id = some (later, .error cause)) :
    later.queue id = net.queue id ∧ later.links = net.links ∧ later.attempts = net.attempts ∧
      net.hindrances id = cause :: later.hindrances id ∧
      ∀ {listener}, net.Receives id listener → ∃ found, later.Receives id found := by
  obtain ⟨listener, rest, hlistener, hfailures, rfl⟩ := reception?_eq_error h
  have hlater : (net.changeListener id fun listener =>
      { listener with hindrances := rest }).listener? id = some _ :=
    listener?_changeListener hlistener
  refine ⟨?_, rfl, rfl, ?_, fun hreceives => ?_⟩
  · rw [queue_of_listener hlater, queue_of_listener hlistener]
  · rw [hindrances_of_listener hlater, hindrances_of_listener hlistener, hfailures]
  · cases hlistener.symm.trans hreceives.found
    exact ⟨_, hreceives.keeps (.of_queue rfl) hlater⟩

@[simp]
theorem hindrances_changeLink (net : Net) (link : LinkId) (change : Link → Link)
    (id : ListenerId) : (net.changeLink link change).hindrances id = net.hindrances id :=
  rfl

/-! ## What is never undone -/

/-- No listener is forgotten, and the network stands for as much of the machine as before. -/
structure Endures (net later : Net) : Prop where
  listeners : net.listeners.length ≤ later.listeners.length
  isWhole : later.isWhole = net.isWhole

theorem Endures.of_same (hlisteners : later.listeners = net.listeners)
    (hwhole : later.isWhole = net.isWhole) : net.Endures later :=
  ⟨Nat.le_of_eq (congrArg _ hlisteners.symm), hwhole⟩

theorem Endures.of_modified {change : Listener → Listener}
    (hlisteners : later.listeners = net.listeners.modify id change)
    (hwhole : later.isWhole = net.isWhole) : net.Endures later :=
  ⟨Nat.le_of_eq (by rw [hlisteners, List.length_modify]), hwhole⟩

theorem Endures.of_added {added : List Listener}
    (hlisteners : later.listeners = net.listeners ++ added)
    (hwhole : later.isWhole = net.isWhole) : net.Endures later :=
  ⟨by rw [hlisteners, List.length_append]; exact Nat.le_add_right _ _, hwhole⟩

theorem Endures.trans {middle : Net} (h : net.Endures middle) (h' : middle.Endures later) :
    net.Endures later :=
  ⟨Nat.le_trans h.listeners h'.listeners, h'.isWhole.trans h.isWhole⟩

theorem isWhole_abortAll (queue : List LinkId) (net : Net) :
    (queue.foldl (fun net link => net.changeLink link (·.abort .acceptor)) net).isWhole =
      net.isWhole := by
  induction queue generalizing net with
  | nil => rfl
  | cons link queue ih => exact ih _

theorem endures_closeListener (id : ListenerId) (net : Net) :
    net.Endures (net.closeListener id) := by
  unfold closeListener
  split
  · exact .of_same rfl rfl
  · exact .of_modified (congrArg (List.modify · id _) (listeners_abortAll _ net))
      (isWhole_abortAll _ net)

theorem endures_accept {link : LinkId} (h : net.accept? id = some (link, later)) :
    net.Endures later := by
  simp only [accept?] at h
  split at h
  · cases h
    exact .of_modified rfl rfl
  · cases h

theorem endures_answer (net : Net) (target : SocketAddress) :
    net.Endures (net.answer target).2 := by
  simp only [answer]
  split
  · split <;> exact .of_same rfl rfl
  · split
    · exact .of_modified rfl rfl
    · exact .of_same rfl rfl

theorem endures_dial (net : Net) (target : SocketAddress) :
    net.Endures (net.dial target).2 :=
  ⟨(endures_answer net target).listeners, (endures_answer net target).isWhole⟩

theorem endures_seek (net : Net) (host : String) (port : UInt16) :
    net.Endures (net.seek host port).2 := by
  rcases seek_cases net host port with ⟨target, hdial⟩ | ⟨_, _, _, hlisteners, hwhole⟩
  · rw [hdial]
    exact endures_dial net target
  · exact .of_same hlisteners hwhole

theorem endures_listen {wanted : SocketAddress} {reception : Reception}
    (h : net.listen wanted reception = .ok (id, later)) : net.Endures later := by
  obtain ⟨_, _, _, _, rfl⟩ := listen_eq_ok h
  exact .of_added rfl rfl

theorem Foreign.endures (h : net.Foreign mine later) : net.Endures later := by
  cases h with
  | act event h =>
      cases event with
      | connect listener => exact .of_modified rfl rfl
      | accept listener =>
          simp only [apply]
          split
          · rename_i haccept
            exact endures_accept haccept
          · exact .of_same rfl rfl
      | establish attempt =>
          simp only [apply]
          split <;> exact .of_same rfl rfl
      | refuse attempt cause =>
          simp only [apply]
          split <;> exact .of_same rfl rfl
      | resolve attempt found =>
          simp only [apply]
          split
          · split
            · exact ⟨(endures_answer net _).listeners, (endures_answer net _).isWhole⟩
            · exact .of_same rfl rfl
          · exact .of_same rfl rfl
      | hinder listener cause => exact .of_modified rfl rfl
      | _ => exact .of_same rfl rfl
  | listen h => exact endures_listen h
  | unlisten _ _ => exact endures_closeListener _ net
  | dial target => exact endures_dial net target
  | seek host port => exact endures_seek net host port
  | abandon _ => exact .of_same rfl rfl
  | confine _ _ => exact .of_same rfl rfl

/-- What accepting leaves alone, whether it fails or not. -/
structure Accepts (net later : Net) (id : ListenerId) : Prop where
  links : later.links = net.links
  attempts : later.attempts = net.attempts
  deafens : net.Deafens later
  endures : net.Endures later
  others : ∀ {other}, id ≠ other → later.listener? other = net.listener? other
  receives : ∀ {other listener}, net.Receives other listener →
    ∃ found, later.Receives other found

theorem accepts_of_reception {result : Except IoCause LinkId}
    (h : net.reception? id = some (later, result)) : net.Accepts later id := by
  have hreceives : net.Deafens later →
      (∀ {other}, id ≠ other → later.listener? other = net.listener? other) →
      (∀ {listener}, net.Receives id listener → ∃ found, later.Receives id found) →
      ∀ {other listener}, net.Receives other listener → ∃ found, later.Receives other found := by
    intro hdeafens hothers hsame other listener hother
    by_cases hid : id = other
    · subst hid
      exact hsame hother
    · exact ⟨listener, hother.keeps hdeafens ((hothers hid).trans hother.found)⟩
  cases result with
  | ok link =>
      have haccept := (reception?_eq_ok h).2
      obtain ⟨_, hlinks, hattempts, hsame⟩ := accept?_cases haccept
      have hothers := fun {other} => @listener?_accept_of_ne net later id other link haccept
      exact ⟨hlinks, hattempts, deafens_accept haccept, endures_accept haccept, hothers,
        hreceives (deafens_accept haccept) hothers hsame⟩
  | error cause =>
      obtain ⟨_, hlinks, hattempts, _, hsame⟩ := reception?_error_cases h
      obtain ⟨_, _, _, _, rfl⟩ := reception?_eq_error h
      exact ⟨hlinks, hattempts, .of_queue rfl, .of_modified rfl rfl,
        listener?_changeListener_of_ne, hreceives (.of_queue rfl)
          listener?_changeListener_of_ne hsame⟩

/-- A listener was closed. -/
def Closed (net : Net) (id : ListenerId) : Prop :=
  ∃ listener, net.listener? id = some listener ∧ listener.isOpen = false

/-- A listener that is closed is not opened again. -/
theorem Closed.stays (h : net.Closed id) (hdeafens : net.Deafens later)
    (hendures : net.Endures later) : later.Closed id := by
  obtain ⟨listener, hlistener, hclosed⟩ := h
  have hid := (List.getElem?_eq_some_iff.mp hlistener).1
  have hfound : later.listener? id = some _ :=
    List.getElem?_eq_getElem (Nat.lt_of_lt_of_le hid hendures.listeners)
  refine ⟨_, hfound, Bool.eq_false_iff.mpr fun hopen => ?_⟩
  obtain ⟨before, hbefore, hless⟩ := hdeafens id _ hfound hid
  cases hlistener.symm.trans hbefore
  have hheard := hless _ (Listener.hears_self hopen)
  simp [Listener.hears, hclosed] at hheard

/-- Nobody answers at an address that nobody hears. -/
theorem answer_unheard (h : ∀ id listener, net.listener? id = some listener →
      listener.hears address = false) :
    net.answer address =
      (if net.isWhole = true ∧ address.ip.isLocal = true then .failed .connectionRefused
        else .waiting address, net) := by
  have hnone : net.listeners.findIdx? (·.hears address) = none := by
    refine List.findIdx?_eq_none_iff.mpr fun listener hmem => ?_
    obtain ⟨id, hid⟩ := List.getElem?_of_mem hmem
    exact h id listener hid
  simp only [answer, hnone]
  split <;> rfl

end Net

end NodeHealth
