import NodeHealth.Net.Network

/-!
# What others do to the network

Somebody who holds ends of connections and waits for answers to attempts shares the network
with others, who may do anything except at what is held. `Net.Foreign` lists what they may
do, and `Net.Evolves` is all that the holder can rely on afterwards: the record of a held end
stays, the far end only writes on, and a new connection comes with both records empty.

## Implementation notes

The moves of others are built from the functions that change a network, not from conditions
on the result. The conditions are derived once, in `Foreign.evolves`, and only they are used
where a part of the program is followed.

-/

namespace NodeHealth

theorem Side.eq_other_of_ne {side other : Side} (h : other ≠ side) : other = side.other := by
  cases side <;> cases other <;> first | rfl | exact absurd rfl h

/-- An attempt that was refused does not wait. -/
theorem Attempt.isWaiting_of_refusal {attempt : Attempt} {failure : IoFailure}
    (h : attempt.refusal? = some failure) : attempt.isWaiting = false := by
  cases attempt <;> first | rfl | cases h

namespace Link

/-! ## One connection, as one side sees it -/

/-- What a side can rely on while the other side acts. Its own record stays. The other end
writes on, unless it had finished; and it is not let go of, and writing to it does not break,
without a failure here or an end of its bytes. -/
structure Beside (side : Side) (link later : Link) : Prop where
  written : (later.endAt side).written = (link.endAt side).written
  taken : (later.endAt side).taken = (link.endAt side).taken
  finished : (later.endAt side).finished = (link.endAt side).finished
  held : (later.endAt side).held = (link.endAt side).held
  grows : (link.endAt side.other).written <+: (later.endAt side.other).written
  ended : (link.endAt side.other).finished = true → (later.endAt side.other).finished = true ∧
    (later.endAt side.other).written = (link.endAt side.other).written
  released : (later.endAt side.other).held = false → (link.endAt side.other).held = false ∨
    (later.endAt side.other).finished = true ∨ (later.endAt side).fault ≠ none
  broken : (later.endAt side).broken = true → (link.endAt side).broken = true ∨
    (later.endAt side.other).finished = true ∨ (later.endAt side).fault ≠ none
  fault : (later.endAt side).fault = none → (link.endAt side).fault = none

theorem Beside.refl (side : Side) (link : Link) : link.Beside side link where
  written := rfl
  taken := rfl
  finished := rfl
  held := rfl
  grows := List.prefix_refl _
  ended := fun h => ⟨h, rfl⟩
  released := Or.inl
  broken := Or.inl
  fault := id

theorem Beside.trans {side : Side} {first second third : Link} (h : first.Beside side second)
    (h' : second.Beside side third) : first.Beside side third where
  written := h'.written.trans h.written
  taken := h'.taken.trans h.taken
  finished := h'.finished.trans h.finished
  held := h'.held.trans h.held
  grows := h.grows.trans h'.grows
  ended := by
    intro hfirst
    obtain ⟨hsecond, hsame⟩ := h.ended hfirst
    obtain ⟨hthird, hsame'⟩ := h'.ended hsecond
    exact ⟨hthird, hsame'.trans hsame⟩
  released := by
    intro hthird
    rcases h'.released hthird with hsecond | hend | hfault
    · rcases h.released hsecond with hfirst | hend | hfault
      · exact .inl hfirst
      · exact .inr (.inl (h'.ended hend).1)
      · exact .inr (.inr (mt h'.fault hfault))
    · exact .inr (.inl hend)
    · exact .inr (.inr hfault)
  broken := by
    intro hthird
    rcases h'.broken hthird with hsecond | hend | hfault
    · rcases h.broken hsecond with hfirst | hend | hfault
      · exact .inl hfirst
      · exact .inr (.inl (h'.ended hend).1)
      · exact .inr (.inr (mt h'.fault hfault))
    · exact .inr (.inl hend)
    · exact .inr (.inr hfault)
  fault := fun hthird => h.fault (h'.fault hthird)

/-- Changing the other end keeps this side's trust as long as that end only writes on. -/
theorem beside_setEnd_other {side : Side} {link : Link} {there : End}
    (hgrows : (link.endAt side.other).written <+: there.written)
    (hended : (link.endAt side.other).finished = true → there.finished = true ∧
      there.written = (link.endAt side.other).written)
    (hheld : there.held = false → (link.endAt side.other).held = false ∨ there.finished = true) :
    link.Beside side (link.setEnd side.other there) where
  written := by rw [endAt_other_setEnd]
  taken := by rw [endAt_other_setEnd]
  finished := by rw [endAt_other_setEnd]
  held := by rw [endAt_other_setEnd]
  grows := by rwa [endAt_setEnd]
  ended := by rwa [endAt_setEnd]
  released := by
    rw [endAt_setEnd]
    intro h
    rcases hheld h with hheld | hfinished
    · exact .inl hheld
    · exact .inr (.inl hfinished)
  broken := by
    rw [endAt_other_setEnd]
    exact Or.inl
  fault := by
    rw [endAt_other_setEnd]
    exact id

/-- The same end with its bytes, its ending and its holder as they were. -/
theorem beside_setEnd_same {side : Side} {link : Link} {there : End}
    (hwritten : there.written = (link.endAt side.other).written)
    (hfinished : there.finished = (link.endAt side.other).finished)
    (hheld : there.held = (link.endAt side.other).held) :
    link.Beside side (link.setEnd side.other there) :=
  beside_setEnd_other (hwritten ▸ List.prefix_refl _) (fun h => ⟨hfinished.trans h, hwritten⟩)
    (fun h => .inl (hheld.symm.trans h))

theorem beside_write (side : Side) (link : Link) (bytes : Bytes) :
    link.Beside side (link.write side.other bytes).2 := by
  simp only [write]
  split
  · exact beside_setEnd_same rfl rfl rfl
  · split
    · exact Beside.refl side link
    · rename_i hopen
      simp only [Bool.or_eq_true, not_or] at hopen
      exact beside_setEnd_other (List.prefix_append _ _) (fun h => absurd h hopen.2) Or.inl

theorem beside_finish (side : Side) (link : Link) : link.Beside side (link.finish side.other) :=
  beside_setEnd_other (List.prefix_refl _) (fun _ => ⟨rfl, rfl⟩) Or.inl

theorem beside_take (side : Side) (link : Link) (count : Nat) :
    link.Beside side (link.take side.other count) :=
  beside_setEnd_same rfl rfl rfl

theorem beside_report (side : Side) (link : Link) : link.Beside side (link.report side.other) :=
  beside_setEnd_same rfl rfl rfl

theorem beside_abort (side : Side) (link : Link) : link.Beside side (link.abort side.other) := by
  have hhere : ((link.abort side.other).endAt side) =
      { link.endAt side with
        broken := true
        fault := if (link.endAt side.other).finished then (link.endAt side).fault
          else some .connectionReset } := by
    cases side <;> rfl
  have hthere : ((link.abort side.other).endAt side.other) =
      { link.endAt side.other with held := false } := by
    cases side <;> rfl
  have hknown : (link.endAt side.other).finished = true ∨
      ((link.abort side.other).endAt side).fault ≠ none := by
    rw [hhere]
    cases h : (link.endAt side.other).finished with
    | true => exact .inl rfl
    | false => exact .inr (by simp)
  constructor
  case written => rw [hhere]
  case taken => rw [hhere]
  case finished => rw [hhere]
  case held => rw [hhere]
  case grows => simp [hthere]
  case ended =>
    rw [hthere]
    exact fun h => ⟨h, rfl⟩
  case released =>
    intro _
    rw [hthere]
    exact .inr hknown
  case broken =>
    intro _
    rw [hthere]
    exact .inr hknown
  case fault =>
    rw [hhere]
    intro h
    cases hend : (link.endAt side.other).finished with
    | true => simpa [hend] using h
    | false => simp [hend] at h

theorem beside_close (side : Side) (link : Link) : link.Beside side (link.close side.other) := by
  by_cases hunread : link.unread side.other = []
  · simp only [close, if_pos hunread]
    have hrelease : (link.finish side.other).Beside side
        ((link.finish side.other).release side.other) :=
      beside_setEnd_other (List.prefix_refl _) (fun h => ⟨h, rfl⟩)
        (fun _ => .inr (by simp [finish]))
    exact (beside_finish side link).trans hrelease
  · simp only [close, if_neg hunread]
    exact beside_abort side link

theorem beside_hangUp (side : Side) (link : Link) : link.Beside side (link.hangUp side.other) :=
  (beside_take side link _).trans (beside_close side _)

theorem beside_confine (side : Side) (link : Link) (room : Option Nat) :
    link.Beside side (link.setEnd side.other { link.endAt side.other with room }) :=
  beside_setEnd_same rfl rfl rfl

end Link

namespace Net

/-! ## The moves of others -/

/-- What somebody holds: ends of connections, attempts to connect, and listeners. -/
structure Holdings where
  ends : LinkId → Side → Prop
  attempts : AttemptId → Prop
  listeners : ListenerId → Prop

/-- Whether an event is nothing that is done at what somebody holds. Answering an attempt and
letting accepting fail are always the doing of others. -/
def Event.Spares (mine : Holdings) : Event → Prop
  | .connect _ => True
  | .accept listener => ¬mine.listeners listener
  | .write link side _ => ¬mine.ends link side
  | .read link side _ => ¬mine.ends link side
  | .finish link side => ¬mine.ends link side
  | .close link side => ¬mine.ends link side
  | .hangUp link side => ¬mine.ends link side
  | .abort link side => ¬mine.ends link side
  | .establish _ => True
  | .refuse _ _ => True
  | .resolve _ _ => True
  | .hinder _ _ => True

/-- One thing that others do: an event, listening or not any more, an attempt of their own,
giving it up, or a change of how many unread bytes an end holds. -/
inductive Foreign (mine : Holdings) (net : Net) : Net → Prop
  | act (event : Event) (h : event.Spares mine) : Foreign mine net (net.apply event)
  | listen {address reception id later} (h : net.listen address reception = .ok (id, later)) :
      Foreign mine net later
  | unlisten {id} (h : ¬mine.listeners id)
      (hqueue : ∀ listener, net.listener? id = some listener →
        ∀ link ∈ listener.queue, ¬mine.ends link .acceptor) :
      Foreign mine net (net.closeListener id)
  | dial (target : SocketAddress) : Foreign mine net (net.dial target).2
  | seek (host : String) (port : UInt16) : Foreign mine net (net.seek host port).2
  | abandon {id} (h : ¬mine.attempts id) : Foreign mine net (net.abandon id)
  | confine {link side} (room : Option Nat) (h : ¬mine.ends link side) :
      Foreign mine net
        (net.changeLink link fun l => l.setEnd side { l.endAt side with room })

/-- What others have made of an attempt that had no outcome. -/
inductive Answers (net later : Net) (id : AttemptId) : Prop
  | refused {failure : IoFailure} (h : (later.attempt id).refusal? = some failure)
  /-- The host has an address, at which nobody has answered yet. -/
  | found {target : SocketAddress} (h : later.attempt id = .waiting target)
  /-- There is a connection, which is new. -/
  | connected (h : later.attempt id = .connected net.links.length)
      (hlinks : net.links.length < later.links.length) (hnew : later.link net.links.length = {})

/-- What a holder can rely on while others act. -/
structure Evolves (mine : Holdings) (net later : Net) : Prop where
  links : net.links.length ≤ later.links.length
  attempts : net.attempts.length ≤ later.attempts.length
  beside : ∀ {link side}, mine.ends link side → link < net.links.length →
    (net.link link).Beside side (later.link link)
  attempt : ∀ {id}, mine.attempts id → id < net.attempts.length →
    later.attempt id = net.attempt id ∨
      (net.attempt id).isWaiting = true ∧ net.Answers later id

/-- A connection to which others have made an attempt lead is new. -/
theorem Answers.links_of_connected {net later : Net} {id : AttemptId} {link : LinkId}
    (h : net.Answers later id) (hconnected : later.attempt id = .connected link) :
    link = net.links.length ∧ net.links.length < later.links.length ∧ later.link link = {} := by
  cases h with
  | refused h =>
      rw [hconnected] at h
      cases h
  | found h => cases h.symm.trans hconnected
  | connected h hlinks hnew =>
      cases h.symm.trans hconnected
      exact ⟨rfl, hlinks, hnew⟩

/-- Nobody gives up an attempt for somebody else. -/
theorem Answers.ne_abandoned {net later : Net} {id : AttemptId} (h : net.Answers later id) :
    later.attempt id ≠ .abandoned := by
  intro habandoned
  cases h with
  | refused h =>
      rw [habandoned] at h
      cases h
  | found h => cases h.symm.trans habandoned
  | connected h => cases h.symm.trans habandoned

variable {mine : Holdings} {net : Net}

theorem Evolves.refl (mine : Holdings) (net : Net) : net.Evolves mine net where
  links := Nat.le_refl _
  attempts := Nat.le_refl _
  beside := fun _ _ => Link.Beside.refl _ _
  attempt := fun _ _ => .inl rfl

theorem length_changeLink (net : Net) (id : LinkId) (change : Link → Link) :
    (net.changeLink id change).links.length = net.links.length := by
  simp [changeLink]

theorem evolves_changeLink {id : LinkId} {change : Link → Link}
    (h : ∀ side, mine.ends id side → (net.link id).Beside side (change (net.link id))) :
    net.Evolves mine (net.changeLink id change) where
  links := Nat.le_of_eq (length_changeLink net id change).symm
  attempts := Nat.le_refl _
  beside := by
    intro link side hmine hlink
    by_cases hid : id = link
    · subst hid
      rw [link_changeLink net id change hlink]
      exact h side hmine
    · rw [link_changeLink_of_ne net change hid]
      exact Link.Beside.refl _ _
  attempt := fun _ _ => .inl rfl

/-- Whatever happens at an end that is not held is done beside the ends that are. -/
theorem evolves_changeLink_at {id : LinkId} {side : Side} {change : Link → Link}
    (hfree : ¬mine.ends id side)
    (h : ∀ here, side = here.other → (net.link id).Beside here (change (net.link id))) :
    net.Evolves mine (net.changeLink id change) := by
  apply evolves_changeLink
  intro here hmine
  have hne : side ≠ here := by
    rintro rfl
    exact hfree hmine
  exact h here (Side.eq_other_of_ne hne)

/-- Connections of others that are added leave those that there are alone. -/
theorem link_append_of_lt {later : Net} {added : List Link} {id : LinkId}
    (hlinks : later.links = net.links ++ added) (h : id < net.links.length) :
    later.link id = net.link id := by
  simp [link, hlinks, List.getElem?_append_left h]

theorem evolves_of_added {later : Net} {added : List Link}
    (hlinks : later.links = net.links ++ added)
    (hattempts : net.attempts <+: later.attempts) : net.Evolves mine later where
  links := by
    rw [hlinks, List.length_append]
    omega
  attempts := hattempts.length_le
  beside := by
    intro link side _ hlink
    rw [link_append_of_lt hlinks hlink]
    exact Link.Beside.refl _ _
  attempt := by
    intro id _ hid
    obtain ⟨more, hmore⟩ := hattempts
    exact .inl (by simp [attempt, ← hmore, List.getElem?_append_left hid])

/-- Two changes that leave all attempts alone are one. -/
theorem Evolves.trans {middle later : Net} (h : net.Evolves mine middle)
    (h' : middle.Evolves mine later) (hattempts : later.attempts = net.attempts) :
    net.Evolves mine later where
  links := Nat.le_trans h.links h'.links
  attempts := Nat.le_trans h.attempts h'.attempts
  beside := by
    intro link side hmine hlink
    have hmiddle := Nat.lt_of_lt_of_le hlink h.links
    exact (h.beside hmine hlink).trans (h'.beside hmine hmiddle)
  attempt := by
    intro id _ _
    exact .inl (by simp only [Net.attempt, hattempts])

/-- The connections that nobody accepted are aborted one after the other. -/
theorem evolves_abortAll (queue : List LinkId) :
    ∀ {net : Net}, (∀ link ∈ queue, ¬mine.ends link .acceptor) →
      let later := queue.foldl (fun net link => net.changeLink link (·.abort .acceptor)) net
      net.Evolves mine later ∧ later.attempts = net.attempts := by
  induction queue with
  | nil =>
      intro net _
      exact ⟨Evolves.refl mine net, rfl⟩
  | cons link queue ih =>
      intro net hfree
      have hone : net.Evolves mine (net.changeLink link (·.abort .acceptor)) := by
        apply evolves_changeLink_at (hfree link (by simp))
        intro here hside
        rw [hside]
        exact Link.beside_abort here _
      obtain ⟨hrest, hattempts⟩ :=
        @ih (net.changeLink link (·.abort .acceptor)) (fun l hl => hfree l (by simp [hl]))
      exact ⟨hone.trans hrest hattempts, hattempts⟩

theorem evolves_closeListener {id : ListenerId}
    (hqueue : ∀ listener, net.listener? id = some listener →
      ∀ link ∈ listener.queue, ¬mine.ends link .acceptor) :
    net.Evolves mine (net.closeListener id) := by
  simp only [closeListener]
  split
  · exact Evolves.refl mine net
  · rename_i listener hlistener
    obtain ⟨haborted, hattempts⟩ := evolves_abortAll listener.queue (hqueue listener hlistener)
    refine haborted.trans ?_ hattempts
    exact evolves_of_added (List.append_nil _).symm (List.prefix_refl _)

/-- A new connection waits at a listener, behind those that there are. -/
theorem enqueue_eq (net : Net) (id : ListenerId) :
    (net.enqueue id).1 = net.links.length ∧ (net.enqueue id).2.links = net.links ++ [({} : Link)] ∧
      (net.enqueue id).2.attempts = net.attempts :=
  ⟨rfl, rfl, rfl⟩

/-- An attempt is answered at once by a new connection, or it changes no connection. -/
theorem answer_cases (net : Net) (target : SocketAddress) :
    ((net.answer target).1 = .connected net.links.length ∧
        (net.answer target).2.links = net.links ++ [({} : Link)] ∧
        (net.answer target).2.attempts = net.attempts) ∨
      ((net.answer target).1 = .waiting target ∨
          (net.answer target).1 = .failed .connectionRefused) ∧
        (net.answer target).2 = net := by
  simp only [answer]
  split
  · split
    · exact .inr ⟨.inr rfl, rfl⟩
    · exact .inr ⟨.inl rfl, rfl⟩
  · split
    · exact .inl ⟨rfl, rfl, rfl⟩
    · exact .inr ⟨.inl rfl, rfl⟩

/-- A new attempt has the next number. -/
theorem dial_cases (net : Net) (target : SocketAddress) :
    (net.dial target).1 = net.attempts.length ∧
      (((net.dial target).2.attempts = net.attempts ++ [.connected net.links.length] ∧
          (net.dial target).2.links = net.links ++ [({} : Link)]) ∨
        ∃ outcome, (outcome = .waiting target ∨ outcome = .failed .connectionRefused) ∧
          (net.dial target).2.attempts = net.attempts ++ [outcome] ∧
          (net.dial target).2.links = net.links) := by
  rcases answer_cases net target with ⟨houtcome, hlinks, hattempts⟩ | ⟨houtcome, hnet⟩
  · refine ⟨by simp only [dial, hattempts], .inl ⟨?_, ?_⟩⟩
    · simp only [dial, houtcome, hattempts]
    · simp only [dial, hlinks]
  · refine ⟨by simp only [dial, hnet], .inr ⟨(net.answer target).1, houtcome, ?_, ?_⟩⟩
    · simp only [dial, hnet]
    · simp only [dial, hnet]

theorem attempt_append_of_lt {later : Net} {added : List Attempt} {id : AttemptId}
    (hattempts : later.attempts = net.attempts ++ added) (h : id < net.attempts.length) :
    later.attempt id = net.attempt id := by
  simp [attempt, hattempts, List.getElem?_append_left h]

/-- What an attempt leaves: it is the last one there is, all others and all connections stay,
and if it led to a connection at once, that is the last and new. -/
structure Dialled (net : Net) (dialled : AttemptId) (later : Net) : Prop where
  number : dialled = net.attempts.length
  attempts : later.attempts.length = net.attempts.length + 1
  links : net.links.length ≤ later.links.length
  attempt : ∀ {id}, id < net.attempts.length → later.attempt id = net.attempt id
  link : ∀ {id}, id < net.links.length → later.link id = net.link id
  connected : ∀ {id}, later.attempt dialled = .connected id →
    id = net.links.length ∧ id < later.links.length ∧ later.link id = {}

theorem dialled_dial (net : Net) (address : SocketAddress) :
    net.Dialled (net.dial address).1 (net.dial address).2 := by
  obtain ⟨hid, ⟨hattempts, hlinks⟩ | ⟨outcome, houtcome, hattempts, hlinks⟩⟩ :=
    dial_cases net address
  · refine ⟨hid, by simp [hattempts], by simp [hlinks], attempt_append_of_lt hattempts,
      link_append_of_lt hlinks, ?_⟩
    intro link hlink
    simp only [hid, attempt, hattempts, List.getElem?_concat_length, Option.getD_some,
      Attempt.connected.injEq] at hlink
    subst hlink
    refine ⟨rfl, by simp [hlinks], ?_⟩
    simp [Net.link, hlinks]
  · refine ⟨hid, by simp [hattempts], by simp [hlinks], attempt_append_of_lt hattempts,
      link_append_of_lt (hlinks.trans (List.append_nil _).symm), ?_⟩
    intro link hlink
    simp only [hid, attempt, hattempts, List.getElem?_concat_length, Option.getD_some] at hlink
    rcases houtcome with houtcome | houtcome <;> rw [houtcome] at hlink <;> cases hlink

/-- Nobody has given up an attempt that was just made. -/
theorem attempt_dial_ne_abandoned (net : Net) (address : SocketAddress) :
    (net.dial address).2.attempt (net.dial address).1 ≠ .abandoned := by
  obtain ⟨hid, ⟨hattempts, _⟩ | ⟨outcome, houtcome, hattempts, _⟩⟩ := dial_cases net address
  · simp [hid, attempt, hattempts]
  · rcases houtcome with rfl | rfl <;> simp [hid, attempt, hattempts]

theorem attempt_abandon_of_ne (net : Net) {id other : AttemptId} (h : id ≠ other) :
    (net.abandon id).attempt other = net.attempt other := by
  simp [attempt, abandon, settleAttempt, h]

/-- A host that is an address is dialled at once; any other is looked up first. -/
theorem seek_cases (net : Net) (host : String) (port : UInt16) :
    (∃ target, net.seek host port = net.dial target) ∨
      (net.seek host port).1 = net.attempts.length ∧
        (net.seek host port).2.attempts = net.attempts ++ [.resolving host port] ∧
        (net.seek host port).2.links = net.links ∧
        (net.seek host port).2.listeners = net.listeners ∧
        (net.seek host port).2.isWhole = net.isWhole := by
  unfold seek
  split
  · exact .inl ⟨_, rfl⟩
  · exact .inr ⟨rfl, rfl, rfl, rfl, rfl⟩

/-- An attempt on an address needs nobody who looks it up. -/
theorem seek_of_parse {host : String} {ip : IpAddress} (h : IpAddress.parse? host = some ip)
    (net : Net) (port : UInt16) : net.seek host port = net.dial ⟨ip, port⟩ := by
  rw [seek, h]

theorem dialled_seek (net : Net) (host : String) (port : UInt16) :
    net.Dialled (net.seek host port).1 (net.seek host port).2 := by
  rcases seek_cases net host port with ⟨target, hdial⟩ | ⟨hid, hattempts, hlinks, _, _⟩
  · rw [hdial]
    exact net.dialled_dial target
  · refine ⟨hid, by simp [hattempts], by simp [hlinks], attempt_append_of_lt hattempts,
      link_append_of_lt (hlinks.trans (List.append_nil _).symm), ?_⟩
    intro link hlink
    simp [hid, attempt, hattempts] at hlink

/-- Nobody has given up an attempt that was just made. -/
theorem attempt_seek_ne_abandoned (net : Net) (host : String) (port : UInt16) :
    (net.seek host port).2.attempt (net.seek host port).1 ≠ .abandoned := by
  rcases seek_cases net host port with ⟨target, hdial⟩ | ⟨hid, hattempts, _⟩
  · rw [hdial]
    exact attempt_dial_ne_abandoned net target
  · simp [hid, attempt, hattempts]

theorem evolves_dial (target : SocketAddress) : net.Evolves mine (net.dial target).2 := by
  rcases (dial_cases net target).2 with ⟨hattempts, hlinks⟩ | ⟨outcome, _, hattempts, hlinks⟩
  · exact evolves_of_added hlinks (by rw [hattempts]; exact List.prefix_append _ _)
  · exact evolves_of_added (hlinks.trans (List.append_nil _).symm)
      (by rw [hattempts]; exact List.prefix_append _ _)

theorem evolves_seek (host : String) (port : UInt16) :
    net.Evolves mine (net.seek host port).2 := by
  rcases seek_cases net host port with ⟨target, hdial⟩ | ⟨_, hattempts, hlinks, _, _⟩
  · rw [hdial]
    exact evolves_dial target
  · exact evolves_of_added (hlinks.trans (List.append_nil _).symm)
      (by rw [hattempts]; exact List.prefix_append _ _)

/-- Where somebody listens nobody refuses it, and it is where he wanted to, up to a port that
was not named. -/
theorem place_eq_ok {address wanted : SocketAddress} (h : net.place address = .ok wanted) :
    net.refusal? wanted = none ∧ wanted.ip = address.ip ∧ wanted.port ≠ 0 ∧
      (address.port ≠ 0 → wanted = address) := by
  unfold place at h
  split at h
  · cases h
  · rename_i hrefusal
    split at h
    · rename_i hzero
      split at h
      · rename_i port hfind
        cases h
        have hfree := List.find?_some hfind
        simp only [decide_eq_true_eq] at hfree
        exact ⟨hfree.2, rfl, hfree.1, fun hport => absurd hzero hport⟩
      · cases h
    · rename_i hport
      cases h
      exact ⟨hrefusal, rfl, hport, fun _ => rfl⟩

/-- What listening changes. -/
theorem listen_eq_ok {address : SocketAddress} {reception : Reception} {id : ListenerId}
    {later : Net} (h : net.listen address reception = .ok (id, later)) :
    ∃ wanted nextPort, net.place address = .ok wanted ∧ id = net.listeners.length ∧
      later = { net with
        listeners := net.listeners ++ [{ address := wanted, reception }]
        nextPort } := by
  unfold listen at h
  split at h
  · cases h
  · rename_i wanted hplace
    cases h
    exact ⟨wanted, _, hplace, rfl, rfl⟩

theorem evolves_listen {address : SocketAddress} {reception : Reception} {id : ListenerId}
    {later : Net} (h : net.listen address reception = .ok (id, later)) :
    net.Evolves mine later := by
  obtain ⟨_, _, _, _, rfl⟩ := listen_eq_ok h
  exact evolves_of_added (List.append_nil _).symm (List.prefix_refl _)

/-- Answering an attempt is noticed by whoever made it, and by nobody else. -/
theorem evolves_settle {later : Net} {id : AttemptId} {outcome : Attempt} {added : List Link}
    (hlinks : later.links = net.links ++ added)
    (hattempts : later.attempts = net.attempts.set id outcome)
    (h : mine.attempts id → (net.attempt id).isWaiting = true ∧
      ((∃ failure, outcome.refusal? = some failure) ∨ (∃ target, outcome = .waiting target) ∨
        outcome = .connected net.links.length ∧ added = [({} : Link)])) :
    net.Evolves mine later where
  links := by
    rw [hlinks, List.length_append]
    omega
  attempts := by simp [hattempts]
  beside := by
    intro link side _ hlink
    rw [link_append_of_lt hlinks hlink]
    exact Link.Beside.refl _ _
  attempt := by
    intro other hmine hother
    by_cases hid : id = other
    · subst hid
      obtain ⟨hwaiting, hcases⟩ := h hmine
      have hnow : later.attempt id = outcome := by
        simp [attempt, hattempts, hother]
      refine .inr ⟨hwaiting, ?_⟩
      rcases hcases with ⟨failure, hrefused⟩ | ⟨target, hfound⟩ | ⟨hconnected, hadded⟩
      · exact .refused (by rwa [hnow])
      · exact .found (hnow.trans hfound)
      · refine .connected (hnow.trans hconnected) ?_ ?_
        · simp [hlinks, hadded]
        · simp [link, hlinks, hadded]
    · exact .inl (by simp [attempt, hattempts, hid])

/-- Looking up a host for somebody answers his attempt, or lets it wait for an answer. -/
theorem evolves_resolve (id : AttemptId) (found : Except IoFailure (List IpAddress)) :
    net.Evolves mine (net.apply (.resolve id found)) := by
  simp only [apply]
  split
  · rename_i host port hresolving
    have hwaiting : (net.attempt id).isWaiting = true := by
      rw [hresolving]
      rfl
    split
    · rename_i target _
      rcases answer_cases net target with ⟨houtcome, hlinks, hattempts⟩ | ⟨houtcome, hnet⟩
      · refine evolves_settle hlinks ?_
          (fun _ => ⟨hwaiting, .inr (.inr ⟨houtcome, rfl⟩)⟩)
        exact congrArg (fun attempts : List Attempt => attempts.set id _) hattempts
      · have hlinks : (net.answer target).2.links = net.links ++ [] := by
          rw [hnet, List.append_nil]
        refine evolves_settle hlinks (congrArg (fun net : Net => net.attempts.set id _) hnet)
          (fun _ => ⟨hwaiting, ?_⟩)
        rcases houtcome with houtcome | houtcome
        · exact .inr (.inl ⟨target, houtcome⟩)
        · exact .inl ⟨_, by rw [houtcome]; rfl⟩
    · exact evolves_settle (List.append_nil _).symm rfl (fun _ => ⟨hwaiting, .inl ⟨_, rfl⟩⟩)
  · exact Evolves.refl mine net

/-- An event that spares what is held is one of the above. -/
theorem evolves_apply {event : Event} (h : event.Spares mine) :
    net.Evolves mine (net.apply event) := by
  cases event with
  | connect listener =>
      exact evolves_of_added (enqueue_eq net listener).2.1
        ((enqueue_eq net listener).2.2 ▸ List.prefix_refl _)
  | accept listener =>
      simp only [apply]
      split
      · rename_i id later haccept
        simp only [accept?] at haccept
        split at haccept
        · cases haccept
          exact evolves_of_added (List.append_nil _).symm (List.prefix_refl _)
        · cases haccept
      · exact Evolves.refl mine net
  | write link side bytes =>
      simp only [apply]
      apply evolves_changeLink_at h
      rintro here rfl
      exact Link.beside_write here _ bytes
  | read link side count =>
      simp only [apply]
      apply evolves_changeLink_at h
      rintro here rfl
      split
      · exact Link.beside_report here _
      · exact Link.beside_take here _ _
  | finish link side =>
      simp only [apply]
      apply evolves_changeLink_at h
      rintro here rfl
      exact Link.beside_finish here _
  | close link side =>
      simp only [apply]
      apply evolves_changeLink_at h
      rintro here rfl
      exact Link.beside_close here _
  | hangUp link side =>
      simp only [apply]
      apply evolves_changeLink_at h
      rintro here rfl
      exact Link.beside_hangUp here _
  | abort link side =>
      simp only [apply]
      apply evolves_changeLink_at h
      rintro here rfl
      exact Link.beside_abort here _
  | establish id =>
      by_cases hopen : (net.attempt id).isUnanswered = true
      · simp only [apply, hopen, if_true]
        exact evolves_settle rfl rfl
          (fun _ => ⟨Attempt.isWaiting_of_isUnanswered hopen, .inr (.inr ⟨rfl, rfl⟩)⟩)
      · simp only [apply, hopen]
        exact Evolves.refl mine net
  | refuse id cause =>
      by_cases hopen : (net.attempt id).isUnanswered = true
      · simp only [apply, hopen, if_true]
        exact evolves_settle (List.append_nil _).symm rfl
          (fun _ => ⟨Attempt.isWaiting_of_isUnanswered hopen, .inl ⟨_, rfl⟩⟩)
      · simp only [apply, hopen]
        exact Evolves.refl mine net
  | resolve id found => exact evolves_resolve id found
  | hinder listener cause =>
      exact evolves_of_added (List.append_nil _).symm (List.prefix_refl _)

/-- Whatever others do, a holder can rely on. -/
theorem Foreign.evolves {later : Net} (h : Foreign mine net later) : net.Evolves mine later := by
  cases h with
  | act event h => exact evolves_apply h
  | listen h => exact evolves_listen h
  | unlisten _ hqueue => exact evolves_closeListener hqueue
  | dial target => exact evolves_dial target
  | seek host port => exact evolves_seek host port
  | abandon h =>
      exact evolves_settle (List.append_nil _).symm rfl (fun hmine => absurd hmine h)
  | confine room h =>
      apply evolves_changeLink_at h
      rintro here rfl
      exact Link.beside_confine here _ room

end Net

end NodeHealth
