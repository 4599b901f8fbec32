import NodeHealth.Proofs.Cnode.Conversation
import NodeHealth.Proofs.Health.Turn
import NodeHealth.Proofs.Net.Acts

/-!
# Runs of the health server

A `Service` is an open server, the network that it shares with others, and the time, together
with a record of the connections that came: those that wait in line, the one that the server
has taken, and those that it has closed. Services change by steps of the server, by what
others do, and by the passing of time while the server waits. `Service.Sound` is what holds of
every one that is reached, whatever others do.

## Implementation notes

The record is kept beside the server, which knows only the connection that it has taken. It
notes when a connection came, when its request was decided, and when the server took and
closed it. What others do at an instant is noted at that instant, so that a request is
decided when its last byte comes, not when the server reads it.

-/

namespace NodeHealth

/-- Whether bytes hold a request that is complete or refused, whatever comes behind them. -/
def HealthServer.isDecided (bytes : Bytes) : Bool :=
  match (Frame.parse .varint maxRequestLength bytes).result with
  | .error .closed => false
  | _ => true

/-- Whether what has come on a connection decides the request: its bytes, their end, or a
failure. -/
def Link.decides (link : Link) : Bool :=
  link.dialler.finished || link.acceptor.fault.isSome ||
    HealthServer.isDecided link.dialler.written

/-- A connection to the server: when it came, and when its request was decided. -/
structure Guest where
  link : LinkId
  arrived : Instant
  decided : Option Instant := none

/-- A connection that the server has taken. -/
structure Visit extends Guest where
  begun : Instant

/-- A connection that the server has closed. -/
structure Farewell extends Visit where
  ended : Instant

/-- The request of a guest that was not decided before may be decided now. -/
def Guest.note (guest : Guest) (now : Instant) (net : Net) : Guest :=
  if guest.decided = none ∧ (net.link guest.link).decides = true then
    { guest with decided := some now }
  else guest

/-- An open server among others. -/
structure Service where
  now : Instant
  net : Net
  server : HealthServer
  /-- When the server was opened. -/
  opened : Instant
  listener : ListenerId
  /-- The connections that wait to be taken, the oldest first. -/
  line : List Guest := []
  current : Option Visit := none
  /-- The connections that were closed, the last one first. -/
  past : List Farewell := []

namespace Service

/-- All connections to the server, the oldest first. -/
def guests (scene : Service) : List Guest :=
  scene.past.reverse.map (·.toGuest) ++ scene.current.toList.map (·.toGuest) ++ scene.line

/-- What the server holds: its ends of its connections, and its listener. -/
def holdings (scene : Service) : Net.Holdings where
  ends := fun link side => side = .acceptor ∧ ∃ guest ∈ scene.guests, guest.link = link
  attempts := fun _ => False
  listeners := (· = scene.listener)

/-- The service after a step of the server: a connection that was taken leaves the line, and
one that was closed is over. -/
def after (scene : Service) (net : Net) (server : HealthServer) : Service :=
  match scene.current, server.session?, scene.line with
  | none, some _, guest :: line =>
      { scene with net, server, line, current := some { toGuest := guest, begun := scene.now } }
  | some visit, none, _ =>
      { scene with
        net, server
        current := none
        past := { toVisit := visit, ended := scene.now } :: scene.past }
  | _, _, _ => { scene with net, server }

/-- The service after others did something: whoever came joins the line. -/
def joined (scene : Service) (net : Net) : Service :=
  { scene with
    net
    line := scene.line ++
      ((net.queue scene.listener).drop scene.line.length).map fun link =>
        { link, arrived := scene.now } }

/-- Note whose request is decided. -/
def noted (scene : Service) : Service :=
  { scene with
    line := scene.line.map (·.note scene.now scene.net)
    current := scene.current.map fun visit =>
      { visit with toGuest := visit.toGuest.note scene.now scene.net } }

/-- The server cannot go on now. -/
def Waits (scene : Service) : Prop :=
  scene.server.step scene.now scene.net = none

/-- One change of a service. -/
inductive Move (scene : Service) : Service → Prop
  | step {net : Net} {server : HealthServer}
      (h : scene.server.step scene.now scene.net = some (net, server)) :
      Move scene (scene.after net server)
  | others {net : Net} (h : scene.net.Foreign scene.holdings net) :
      Move scene (scene.joined net).noted
  | wait {now : Instant} (hwaits : scene.Waits) (hnow : scene.now ≤ now)
      (hwake : ∀ wake, scene.server.wake? = some wake → now ≤ wake) : Move scene { scene with now }

/-- A service that is reached from a server that has just been opened in any network, through
services that all meet a condition. -/
inductive Within (holds : Service → Prop) : Service → Prop
  | begin (now : Instant) {net later : Net} {server next : HealthServer}
      (hstart : server.start net = (.ok (), later, next)) (hopen : next.isListening = true)
      (h : holds { now, net := later, server := next, opened := now
                   listener := net.listeners.length }) :
      Within holds { now, net := later, server := next, opened := now
                     listener := net.listeners.length }
  | move {scene later : Service} (hscene : Within holds scene) (hmove : scene.Move later)
      (h : holds later) : Within holds later

/-- A service that is reached from a server that has just been opened in any network. -/
def Reachable (scene : Service) : Prop :=
  scene.Within fun _ => True

theorem Within.reachable {holds : Service → Prop} {scene : Service} (h : scene.Within holds) :
    scene.Reachable := by
  induction h with
  | begin now hstart hopen _ => exact .begin now hstart hopen trivial
  | move _ hmove _ ih => exact .move ih hmove trivial

theorem Within.holds {holds : Service → Prop} {scene : Service} (h : scene.Within holds) :
    holds scene := by
  cases h <;> assumption

/-- The server runs on until it waits. -/
inductive Settles : Service → Service → Prop
  | waits {scene : Service} (h : scene.Waits) : Settles scene scene
  | step {scene last : Service} {net : Net} {server : HealthServer}
      (h : scene.server.step scene.now scene.net = some (net, server))
      (hrest : Settles (scene.after net server) last) : Settles scene last

end Service

/-! ## The end of a connection that the server has -/

namespace Link

/-- The server still owes the rest of the answer at an end that it holds, and writing there
fails only if the other end was let go of. -/
structure Owes (rest : Bytes) (link : Link) : Prop where
  written : link.acceptor.written ++ rest = HealthServer.answer
  unfinished : link.acceptor.finished = false
  held : link.acceptor.held = true
  cut : link.acceptor.fault ≠ none ∨ link.acceptor.broken = true → link.dialler.held = false

/-- The server has closed its end, and it has written all of the answer unless the other end
was let go of. -/
structure Served (link : Link) : Prop where
  written : link.acceptor.written <+: HealthServer.answer
  held : link.acceptor.held = false
  complete : link.acceptor.written = HealthServer.answer ∨ link.dialler.held = false

variable {link later : Link} {rest : Bytes}

theorem owes_new : Owes HealthServer.answer {} where
  written := rfl
  unfinished := rfl
  held := rfl
  cut := by simp

theorem Owes.take (h : link.Owes rest) (count : Nat) : (link.take .acceptor count).Owes rest :=
  ⟨h.written, h.unfinished, h.held, h.cut⟩

theorem Owes.report (h : link.Owes rest) : (link.report .acceptor).Owes rest where
  written := h.written
  unfinished := h.unfinished
  held := h.held
  cut := by
    rintro (hfault | hbroken)
    · exact absurd rfl hfault
    · exact h.cut (.inr hbroken)

/-- Others leave the record of a held end, and cut it off only by letting go of theirs. -/
theorem Owes.others (h : link.Owes rest) (hbeside : link.Beside .acceptor later)
    (huntorn : link.Untorn .dialler later) : later.Owes rest where
  written := by
    rw [show later.acceptor.written = link.acceptor.written from hbeside.written]
    exact h.written
  unfinished := hbeside.finished.trans h.unfinished
  held := hbeside.held.trans h.held
  cut := by
    intro hcut
    cases hheld : later.dialler.held with
    | false => rfl
    | true =>
        have hsame : later.acceptor = link.acceptor := huntorn.other hheld
        have hbefore : link.dialler.held = true := huntorn.held hheld
        rw [hsame] at hcut
        rw [h.cut hcut] at hbefore
        cases hbefore

theorem Served.others (h : link.Served) (hbeside : link.Beside .acceptor later)
    (huntorn : link.Untorn .dialler later) : later.Served where
  written := by
    rw [show later.acceptor.written = link.acceptor.written from hbeside.written]
    exact h.written
  held := hbeside.held.trans h.held
  complete := by
    rw [show later.acceptor.written = link.acceptor.written from hbeside.written]
    rcases h.complete with hcomplete | hgone
    · exact .inl hcomplete
    · refine .inr ?_
      cases hheld : later.dialler.held with
      | false => rfl
      | true =>
          have hbefore : link.dialler.held = true := huntorn.held hheld
          rw [hgone] at hbefore
          cases hbefore

/-- What writing at an end that owes something comes to. -/
theorem Owes.write (h : link.Owes rest) {delivery : Link.Delivery}
    (hwrite : link.write .acceptor rest = (delivery, later)) :
    (∃ count, delivery = .wrote count ∧ later.Owes (rest.drop count)) ∨
      (∃ cause, delivery = .failed cause) ∧
        later.acceptor.written = link.acceptor.written ∧ later.dialler.held = false := by
  simp only [Link.write] at hwrite
  split at hwrite
  · rename_i cause hfault
    cases hwrite
    refine .inr ⟨⟨cause, rfl⟩, rfl, h.cut (.inl ?_)⟩
    rw [show link.acceptor.fault = some cause from hfault]
    simp
  · rename_i hfault
    split at hwrite
    · rename_i hclosed
      cases hwrite
      refine .inr ⟨⟨_, rfl⟩, rfl, h.cut (.inr ?_)⟩
      have hunfinished : (link.endAt .acceptor).finished = false := h.unfinished
      have hbroken : (link.endAt .acceptor).broken = true := by simpa [hunfinished] using hclosed
      exact hbroken
    · cases hwrite
      refine .inl ⟨_, rfl, ?_, h.unfinished, h.held, ?_⟩
      · change (link.acceptor.written ++ rest.take _) ++ rest.drop _ = _
        rw [List.append_assoc, List.take_append_drop]
        exact h.written
      · rintro (hlater | hbroken)
        · exact absurd hfault hlater
        · have hbroken : (!link.dialler.held) = true := hbroken
          have hgone : link.dialler.held = false := by simpa using hbroken
          exact hgone

/-- Leaving a connection lets go of the end and leaves what was written there; the other end
keeps its holder. -/
theorem leave_cases (link : Link) :
    (link.leave .acceptor).acceptor.written = link.acceptor.written ∧
      (link.leave .acceptor).acceptor.held = false ∧
      (link.leave .acceptor).dialler.held = link.dialler.held := by
  unfold leave close
  split <;> exact ⟨rfl, rfl, rfl⟩

/-- An answer that is over leaves a connection that was served. -/
theorem Owes.served (h : link.Owes rest) {delivery : Link.Delivery}
    (hwrite : link.write .acceptor rest = (delivery, later)) (hends : delivery.Ends rest) :
    (later.leave .acceptor).Served := by
  obtain ⟨hsame, hheld, hthere⟩ := later.leave_cases
  rcases h.write hwrite with ⟨count, rfl, howes⟩ | ⟨⟨cause, rfl⟩, hwritten, hgone⟩
  · have hall : rest.drop count = [] := List.drop_eq_nil_of_le hends
    have hcomplete : (later.leave .acceptor).acceptor.written = HealthServer.answer := by
      rw [hsame]
      simpa [hall] using howes.written
    exact ⟨hcomplete ▸ List.prefix_refl _, hheld, .inl hcomplete⟩
  · refine ⟨?_, hheld, .inr (hthere.trans hgone)⟩
    rw [hsame, hwritten, ← h.written]
    exact List.prefix_append _ _

end Link

/-- What the server still owes on the connection that it has taken. -/
def AcceptPhase.owed : AcceptPhase → Bytes
  | replying _ sending => sending.rest
  | _ => HealthServer.answer

namespace Service

variable {scene later : Service}

/-- The server stays open, the line is the queue of its listener, and every connection is
where it belongs: owed an answer in line and while it is attended to, and served afterwards. -/
structure Sound (scene : Service) : Prop where
  fits : scene.server.Fits
  attached : scene.server.attached = true
  running : scene.server.running = true
  signal : scene.server.signal = .ready
  loop : ∃ phase, scene.server.loop = some ⟨scene.listener, phase⟩ ∧
    scene.current.map (·.link) = phase.session?.map Session.link ∧
    ∀ visit, scene.current = some visit → (scene.net.link visit.link).Owes phase.owed
  listens : ∃ listener, scene.net.listener? scene.listener = some listener ∧
    listener.isOpen = true ∧ scene.server.address = some listener.address ∧
    listener.queue = scene.line.map Guest.link
  order : (scene.guests.map Guest.link).Pairwise (· < ·)
  arrivals : (scene.guests.map Guest.arrived).Pairwise (· ≤ ·)
  known : ∀ guest ∈ scene.guests, guest.link < scene.net.links.length ∧
    guest.arrived ≤ scene.now
  line : ∀ guest ∈ scene.line, (scene.net.link guest.link).Owes HealthServer.answer
  past : ∀ visit ∈ scene.past, (scene.net.link visit.link).Served

theorem mem_guests {guest : Guest} : guest ∈ scene.guests ↔
    (∃ visit ∈ scene.past, visit.toGuest = guest) ∨
      (∃ visit, scene.current = some visit ∧ visit.toGuest = guest) ∨ guest ∈ scene.line := by
  simp [guests]

/-! ## What a step changes in the record -/

theorem net_after (scene : Service) (net : Net) (server : HealthServer) :
    (scene.after net server).net = net := by
  unfold after
  split <;> rfl

theorem server_after (scene : Service) (net : Net) (server : HealthServer) :
    (scene.after net server).server = server := by
  unfold after
  split <;> rfl

/-- A connection stays on record when it is taken and when it is closed, and stays closed. -/
theorem guests_after (scene : Service) (net : Net) (server : HealthServer) :
    (scene.after net server).guests = scene.guests ∧
      scene.past <:+ (scene.after net server).past := by
  unfold after
  split
  · rename_i hcurrent _ hline
    exact ⟨by simp [guests, hcurrent, hline], List.suffix_refl _⟩
  · rename_i hcurrent _
    exact ⟨by simp [guests, hcurrent], List.suffix_cons _ _⟩
  · exact ⟨rfl, List.suffix_refl _⟩

theorem after_idle {net : Net} {server : HealthServer} (hcurrent : scene.current = none)
    (hsession : server.session? = none) :
    scene.after net server = { scene with net, server } := by
  simp [after, hcurrent, hsession]

theorem after_attending {net : Net} {server : HealthServer} {visit : Visit} {session : Session}
    (hcurrent : scene.current = some visit) (hsession : server.session? = some session) :
    scene.after net server = { scene with net, server } := by
  simp [after, hcurrent, hsession]

theorem after_taking {net : Net} {server : HealthServer} {session : Session} {guest : Guest}
    {line : List Guest} (hcurrent : scene.current = none)
    (hsession : server.session? = some session) (hline : scene.line = guest :: line) :
    scene.after net server = { scene with
      net, server, line, current := some { toGuest := guest, begun := scene.now } } := by
  simp [after, hcurrent, hsession, hline]

theorem after_closing {net : Net} {server : HealthServer} {visit : Visit}
    (hcurrent : scene.current = some visit) (hsession : server.session? = none) :
    scene.after net server = { scene with
      net, server
      current := none
      past := { toVisit := visit, ended := scene.now } :: scene.past } := by
  simp [after, hcurrent, hsession]

/-! ## Noting -/

theorem link_note (guest : Guest) (now : Instant) (net : Net) :
    (guest.note now net).link = guest.link := by
  unfold Guest.note
  split <;> rfl

theorem arrived_note (guest : Guest) (now : Instant) (net : Net) :
    (guest.note now net).arrived = guest.arrived := by
  unfold Guest.note
  split <;> rfl

theorem map_link_noted (scene : Service) :
    scene.noted.guests.map Guest.link = scene.guests.map Guest.link := by
  have hline : (scene.line.map (·.note scene.now scene.net)).map Guest.link =
      scene.line.map Guest.link := by
    simp [List.map_map, Function.comp_def, link_note]
  cases hcurrent : scene.current with
  | none => simp [guests, noted, hcurrent, Function.comp_def, link_note]
  | some visit => simp [guests, noted, hcurrent, Function.comp_def, link_note]

theorem map_arrived_noted (scene : Service) :
    scene.noted.guests.map Guest.arrived = scene.guests.map Guest.arrived := by
  cases hcurrent : scene.current with
  | none => simp [guests, noted, hcurrent, Function.comp_def, arrived_note]
  | some visit => simp [guests, noted, hcurrent, Function.comp_def, arrived_note]

/-- A guest that was noted is one that there was before. -/
theorem mem_guests_noted {guest : Guest} (h : guest ∈ scene.noted.guests) :
    ∃ before ∈ scene.guests, before.link = guest.link ∧ before.arrived = guest.arrived := by
  rcases mem_guests.mp h with ⟨visit, hvisit, rfl⟩ | ⟨visit, hvisit, rfl⟩ | hline
  · exact ⟨visit.toGuest, mem_guests.mpr (.inl ⟨visit, hvisit, rfl⟩), rfl, rfl⟩
  · simp only [noted, Option.map_eq_some_iff] at hvisit
    obtain ⟨before, hbefore, rfl⟩ := hvisit
    exact ⟨before.toGuest, mem_guests.mpr (.inr (.inl ⟨before, hbefore, rfl⟩)),
      (link_note _ _ _).symm, (arrived_note _ _ _).symm⟩
  · simp only [noted, List.mem_map] at hline
    obtain ⟨before, hbefore, rfl⟩ := hline
    exact ⟨before, mem_guests.mpr (.inr (.inr hbefore)), (link_note _ _ _).symm,
      (arrived_note _ _ _).symm⟩

/-- Noting changes nothing but the notes. -/
theorem Sound.noted (h : scene.Sound) : scene.noted.Sound where
  fits := h.fits
  attached := h.attached
  running := h.running
  signal := h.signal
  loop := by
    obtain ⟨phase, hloop, hcurrent, howes⟩ := h.loop
    refine ⟨phase, hloop, ?_, ?_⟩
    · rw [← hcurrent, Service.noted, Option.map_map]
      congr 1
      funext visit
      exact link_note _ _ _
    · intro visit hvisit
      simp only [Service.noted, Option.map_eq_some_iff] at hvisit
      obtain ⟨before, hbefore, rfl⟩ := hvisit
      rw [link_note]
      exact howes before hbefore
  listens := by
    obtain ⟨listener, hlistener, hopen, haddress, hqueue⟩ := h.listens
    refine ⟨listener, hlistener, hopen, haddress, ?_⟩
    simp [hqueue, Service.noted, Function.comp_def, link_note]
  order := map_link_noted scene ▸ h.order
  arrivals := map_arrived_noted scene ▸ h.arrivals
  known := by
    intro guest hguest
    obtain ⟨before, hbefore, hlink, harrived⟩ := mem_guests_noted hguest
    rw [← hlink, ← harrived]
    exact h.known before hbefore
  line := by
    intro guest hguest
    simp only [Service.noted, List.mem_map] at hguest
    obtain ⟨before, hbefore, rfl⟩ := hguest
    rw [link_note]
    exact h.line before hbefore
  past := h.past

/-! ## What others do -/

/-- What others do to a connection of the server. -/
theorem others_of_foreign (h : scene.Sound) {net : Net}
    (hforeign : scene.net.Foreign scene.holdings net) {guest : Guest}
    (hguest : guest ∈ scene.guests) :
    (scene.net.link guest.link).Beside .acceptor (net.link guest.link) ∧
      (scene.net.link guest.link).Untorn .dialler (net.link guest.link) := by
  have hmine : scene.holdings.ends guest.link .acceptor := ⟨rfl, guest, hguest, rfl⟩
  have hlink := (h.known guest hguest).1
  refine ⟨hforeign.evolves.beside hmine hlink, (hforeign.acts hlink).untorn ?_⟩
  rintro (_ | _) hfree
  · rfl
  · exact absurd hmine hfree

/-- Whoever comes joins the line behind all others, and nobody else joins it. -/
theorem joined_cases (h : scene.Sound) {net : Net}
    (hforeign : scene.net.Foreign scene.holdings net) :
    (∃ listener, net.listener? scene.listener = some listener ∧ listener.isOpen = true ∧
        scene.server.address = some listener.address ∧
        listener.queue = (scene.joined net).line.map Guest.link) ∧
      (scene.joined net = { scene with net } ∨
        net.links = scene.net.links ++ [({} : Link)] ∧
          scene.joined net = { scene with
            net
            line := scene.line ++
              [{ link := scene.net.links.length, arrived := scene.now }] }) := by
  obtain ⟨listener, hlistener, hopen, haddress, hqueue⟩ := h.listens
  cases hforeign.joins rfl hlistener with
  | stays hstays =>
      have hsame : scene.joined net = { scene with net } := by
        simp [joined, Net.queue, hstays, hqueue]
      rw [hsame]
      exact ⟨⟨listener, hstays, hopen, haddress, hqueue⟩, .inl rfl⟩
  | hinders hhinders =>
      have hsame : scene.joined net = { scene with net } := by
        simp [joined, Net.queue, hhinders, hqueue]
      rw [hsame]
      exact ⟨⟨_, hhinders, hopen, haddress, hqueue⟩, .inl rfl⟩
  | joins hjoins hlinks =>
      have hsame : scene.joined net = { scene with
          net
          line := scene.line ++
            [{ link := scene.net.links.length, arrived := scene.now }] } := by
        simp [joined, Net.queue, hjoins, hqueue]
      rw [hsame]
      exact ⟨⟨_, hjoins, hopen, haddress, by simp [hqueue]⟩, .inr ⟨hlinks, rfl⟩⟩

/-- An order that every guest keeps to the one who comes last is kept with them as well. -/
theorem pairwise_newcomer {α : Type} {guests : List Guest} {newcomer : Guest} {key : Guest → α}
    {before : α → α → Prop} (h : (guests.map key).Pairwise before)
    (hlast : ∀ guest ∈ guests, before (key guest) (key newcomer)) :
    ((guests ++ [newcomer]).map key).Pairwise before := by
  rw [List.map_append, List.pairwise_append]
  refine ⟨h, List.pairwise_singleton _ _, ?_⟩
  intro first hfirst last hlast'
  obtain ⟨guest, hguest, rfl⟩ := List.mem_map.mp hfirst
  cases List.mem_singleton.mp hlast'
  exact hlast guest hguest

/-- What others do leaves the connections on record where they belong. -/
theorem Sound.beside (h : scene.Sound) {net : Net}
    (hforeign : scene.net.Foreign scene.holdings net) :
    (∀ guest ∈ scene.guests, guest.link < net.links.length ∧ guest.arrived ≤ scene.now) ∧
      (∀ guest ∈ scene.line, (net.link guest.link).Owes HealthServer.answer) ∧
      (∀ visit owed, scene.current = some visit → (scene.net.link visit.link).Owes owed →
        (net.link visit.link).Owes owed) ∧
      ∀ visit ∈ scene.past, (net.link visit.link).Served := by
  have hothers := fun {guest} => @others_of_foreign scene h net hforeign guest
  refine ⟨fun guest hguest => ?_, fun guest hguest => ?_, fun visit owed hvisit howes => ?_,
    fun visit hvisit => ?_⟩
  · obtain ⟨hlink, harrived⟩ := h.known guest hguest
    exact ⟨Nat.lt_of_lt_of_le hlink hforeign.evolves.links, harrived⟩
  · obtain ⟨hbeside, huntorn⟩ := hothers (mem_guests.mpr (.inr (.inr hguest)))
    exact (h.line guest hguest).others hbeside huntorn
  · obtain ⟨hbeside, huntorn⟩ := hothers (mem_guests.mpr (.inr (.inl ⟨visit, hvisit, rfl⟩)))
    exact howes.others hbeside huntorn
  · obtain ⟨hbeside, huntorn⟩ := hothers (mem_guests.mpr (.inl ⟨visit, hvisit, rfl⟩))
    exact (h.past visit hvisit).others hbeside huntorn

theorem Sound.joined (h : scene.Sound) {net : Net}
    (hforeign : scene.net.Foreign scene.holdings net) : (scene.joined net).Sound := by
  obtain ⟨hknown, hline, hvisited, hpast⟩ := h.beside hforeign
  have hloop : ∃ phase, scene.server.loop = some ⟨scene.listener, phase⟩ ∧
      scene.current.map (·.link) = phase.session?.map Session.link ∧
      ∀ visit, scene.current = some visit → (net.link visit.link).Owes phase.owed := by
    obtain ⟨phase, hloop, hcurrent, howes⟩ := h.loop
    exact ⟨phase, hloop, hcurrent, fun visit hvisit => hvisited visit _ hvisit (howes visit hvisit)⟩
  obtain ⟨hlistens, hsame | ⟨hlinks, hsame⟩⟩ := joined_cases h hforeign
  · rw [hsame] at hlistens ⊢
    exact ⟨h.fits, h.attached, h.running, h.signal, hloop, hlistens, h.order, h.arrivals, hknown,
      hline, hpast⟩
  · have hguests : (scene.joined net).guests =
        scene.guests ++ [{ link := scene.net.links.length, arrived := scene.now }] := by
      rw [hsame]
      simp [guests]
    have horder : ((scene.joined net).guests.map Guest.link).Pairwise (· < ·) := by
      rw [hguests]
      exact pairwise_newcomer h.order fun guest hguest => (h.known guest hguest).1
    have harrivals : ((scene.joined net).guests.map Guest.arrived).Pairwise (· ≤ ·) := by
      rw [hguests]
      exact pairwise_newcomer h.arrivals fun guest hguest => (h.known guest hguest).2
    have hall : ∀ guest ∈ (scene.joined net).guests, guest.link < net.links.length ∧
        guest.arrived ≤ scene.now := by
      rw [hguests]
      intro guest hguest
      rcases List.mem_append.mp hguest with hold | hnew
      · exact hknown guest hold
      · cases List.mem_singleton.mp hnew
        exact ⟨by simp [hlinks], Nat.le_refl _⟩
    rw [hsame] at hlistens horder harrivals hall ⊢
    refine ⟨h.fits, h.attached, h.running, h.signal, hloop, hlistens, horder, harrivals, hall, ?_,
      hpast⟩
    intro guest hguest
    rcases List.mem_append.mp hguest with hold | hnew
    · exact hline guest hold
    · cases List.mem_singleton.mp hnew
      have hnew : net.link scene.net.links.length = {} := by simp [Net.link, hlinks]
      rw [hnew]
      exact Link.owes_new

/-! ## What the server does -/

/-- The connections that were closed were taken before the one at hand, and that one before
those in line. -/
theorem Sound.ahead (h : scene.Sound) {visit : Visit} (hvisit : scene.current = some visit) :
    (∀ farewell ∈ scene.past, farewell.link < visit.link) ∧
      ∀ guest ∈ scene.line, visit.link < guest.link := by
  have horder := h.order
  rw [guests, hvisit, List.map_append, List.map_append, List.pairwise_append,
    List.pairwise_append] at horder
  obtain ⟨⟨_, _, hpast⟩, _, hline⟩ := horder
  constructor
  · intro farewell hfarewell
    refine hpast farewell.link ?_ visit.link (by simp)
    simp only [List.map_map, List.mem_map, List.mem_reverse]
    exact ⟨farewell, hfarewell, rfl⟩
  · intro guest hguest
    exact hline visit.link (by simp) guest.link (List.mem_map_of_mem hguest)

/-- The connection at hand is neither in line nor closed. -/
theorem Sound.apart (h : scene.Sound) {visit : Visit} (hvisit : scene.current = some visit) :
    (∀ guest ∈ scene.line, visit.link ≠ guest.link) ∧
      ∀ farewell ∈ scene.past, visit.link ≠ farewell.link := by
  obtain ⟨hpast, hline⟩ := h.ahead hvisit
  exact ⟨fun guest hguest => Nat.ne_of_lt (hline guest hguest),
    fun farewell hfarewell => Nat.ne_of_gt (hpast farewell hfarewell)⟩

/-- The server goes on with the connection that it has taken. -/
theorem Sound.attends (h : scene.Sound) {visit : Visit} (hvisit : scene.current = some visit)
    {net : Net} {phase : AcceptPhase} {session : Session}
    (hfits : { scene.server with loop := some ⟨scene.listener, phase⟩ }.Fits)
    (hsession : phase.session? = some session) (hlink : session.link = visit.link)
    (howes : (net.link visit.link).Owes phase.owed)
    (hlinks : net.links.length = scene.net.links.length)
    (hothers : ∀ id, visit.link ≠ id → net.link id = scene.net.link id)
    (hlisteners : net.listeners = scene.net.listeners) :
    (scene.after net { scene.server with loop := some ⟨scene.listener, phase⟩ }).Sound := by
  obtain ⟨hline, hpast⟩ := h.apart hvisit
  rw [after_attending hvisit ((HealthServer.session?_of_loop rfl).trans hsession)]
  refine ⟨hfits, h.attached, h.running, h.signal, ⟨phase, rfl, ?_, ?_⟩, ?_, h.order, h.arrivals,
    ?_, ?_, ?_⟩
  · simp [hvisit, hsession, hlink]
  · intro found hfound
    cases hvisit.symm.trans hfound
    exact howes
  · have hlistens := h.listens
    simpa only [Net.listener?, hlisteners] using hlistens
  · intro guest hguest
    rw [hlinks]
    exact h.known guest hguest
  · intro guest hguest
    rw [hothers _ (hline guest hguest)]
    exact h.line guest hguest
  · intro farewell hfarewell
    rw [hothers _ (hpast farewell hfarewell)]
    exact h.past farewell hfarewell

/-- The same, where it changes nothing but the connection. -/
theorem Sound.attends_change (h : scene.Sound) {visit : Visit}
    (hvisit : scene.current = some visit) {change : Link → Link} {phase : AcceptPhase}
    {session : Session} (hfits : { scene.server with loop := some ⟨scene.listener, phase⟩ }.Fits)
    (hsession : phase.session? = some session) (hlink : session.link = visit.link)
    (howes : (change (scene.net.link visit.link)).Owes phase.owed) :
    (scene.after (scene.net.changeLink visit.link change)
      { scene.server with loop := some ⟨scene.listener, phase⟩ }).Sound := by
  have hknown := (h.known visit.toGuest (mem_guests.mpr (.inr (.inl ⟨visit, hvisit, rfl⟩)))).1
  refine h.attends hvisit hfits hsession hlink ?_ (Net.length_changeLink _ _ _)
    (fun id hid => Net.link_changeLink_of_ne _ _ hid) rfl
  rw [Net.link_changeLink _ _ _ hknown]
  exact howes

theorem Sound.idle (h : scene.Sound) {listener : ListenerId} {phase : AcceptPhase}
    (hloop : scene.server.loop = some ⟨listener, phase⟩) (hsession : phase.session? = none) :
    listener = scene.listener ∧ scene.current = none := by
  obtain ⟨_, hphase, hcurrent, _⟩ := h.loop
  cases hloop.symm.trans hphase
  rw [hsession] at hcurrent
  exact ⟨rfl, by simpa using hcurrent⟩

theorem Sound.visiting (h : scene.Sound) {listener : ListenerId} {phase : AcceptPhase}
    {session : Session} (hloop : scene.server.loop = some ⟨listener, phase⟩)
    (hsession : phase.session? = some session) :
    listener = scene.listener ∧ ∃ visit, scene.current = some visit ∧
      visit.link = session.link ∧ (scene.net.link session.link).Owes phase.owed := by
  obtain ⟨_, hphase, hcurrent, howes⟩ := h.loop
  cases hloop.symm.trans hphase
  rw [hsession] at hcurrent
  obtain ⟨visit, hvisit, hlink⟩ := Option.map_eq_some_iff.mp hcurrent
  exact ⟨rfl, visit, hvisit, hlink, hlink ▸ howes visit hvisit⟩

/-- Accepting fails, which leaves everything as it is but what the server reports. -/
theorem Sound.stumbled (h : scene.Sound) {net : Net} {cause : IoCause}
    (hfails : scene.net.reception? scene.listener = some (net, .error cause))
    (reported : List IoCause) :
    Sound { scene with net, server := { scene.server with reported } } := by
  obtain ⟨_, rest, hlistener, _, rfl⟩ := Net.reception?_eq_error hfails
  have hlistens : ∃ listener,
      (scene.net.changeListener scene.listener
          fun listener => { listener with hindrances := rest }).listener? scene.listener =
        some listener ∧ listener.isOpen = true ∧
      scene.server.address = some listener.address ∧
      listener.queue = scene.line.map Guest.link := by
    obtain ⟨listener, hfound, hopen, haddress, hqueue⟩ := h.listens
    exact ⟨_, Net.listener?_changeListener hfound, hopen, haddress, hqueue⟩
  exact ⟨h.fits, h.attached, h.running, h.signal, h.loop, hlistens, h.order, h.arrivals, h.known,
    h.line, h.past⟩

/-- The connection that is taken is the one that has waited longest. -/
theorem Sound.takes (h : scene.Sound) {net : Net} {link : LinkId}
    (haccept : scene.net.accept? scene.listener = some (link, net)) :
    ∃ guest line, scene.line = guest :: line ∧ guest.link = link ∧
      net.links = scene.net.links ∧
      ∃ listener, net.listener? scene.listener = some listener ∧ listener.isOpen = true ∧
        scene.server.address = some listener.address ∧
        listener.queue = line.map Guest.link := by
  obtain ⟨listener, hlistener, hopen, haddress, hqueue⟩ := h.listens
  simp only [Net.accept?, hlistener] at haccept
  split at haccept
  · rename_i found first rest hfound
    cases haccept
    cases hfound
    cases hline : scene.line with
    | nil => simp [hline] at hqueue
    | cons guest line =>
        simp only [hline, List.map_cons, List.cons.injEq] at hqueue
        obtain ⟨hlink, hrest⟩ := hqueue
        exact ⟨guest, line, rfl, hlink.symm, rfl, _, Net.listener?_changeListener hlistener,
          hopen, haddress, hrest⟩
  · cases haccept

theorem Sound.opened (h : scene.Sound) (hcurrent : scene.current = none) :
    (scene.after scene.net
      { scene.server with loop := some ⟨scene.listener, .accepting⟩ }).Sound := by
  rw [after_idle hcurrent rfl]
  refine ⟨HealthServer.fits_of_none rfl, h.attached, h.running, h.signal, ⟨.accepting, rfl, ?_, ?_⟩,
    h.listens, h.order, h.arrivals, h.known, h.line, h.past⟩
  · rw [hcurrent]
    rfl
  · simp [hcurrent]

theorem Sound.accepted (h : scene.Sound) {net : Net} {server : HealthServer} {link : LinkId}
    {reader : Frame.Reader} {deadline : Instant} (hcurrent : scene.current = none)
    (haccept : scene.net.accept? scene.listener = some (link, net))
    (hserver : server = { scene.server with
      loop := some ⟨scene.listener, .reading (HealthServer.session link) reader deadline⟩ }) :
    (scene.after net server).Sound := by
  obtain ⟨guest, line, hline, rfl, hlinks, hlistens⟩ := h.takes haccept
  have hlink : ∀ id, net.link id = scene.net.link id := fun id => by simp [Net.link, hlinks]
  have hguests : guests { scene with
      net, server, line, current := some { toGuest := guest, begun := scene.now } } =
      scene.guests := by
    simp [guests, hcurrent, hline]
  rw [after_taking hcurrent (by rw [hserver]; rfl) hline, hserver]
  rw [hserver] at hguests
  constructor
  case fits => exact HealthServer.fits_of_some rfl (.refl _)
  case attached => exact h.attached
  case running => exact h.running
  case signal => exact h.signal
  case loop =>
    refine ⟨_, rfl, rfl, ?_⟩
    intro visit hvisit
    cases hvisit
    change (net.link guest.link).Owes HealthServer.answer
    rw [hlink]
    exact h.line guest (by simp [hline])
  case listens => exact hlistens
  case order => exact hguests ▸ h.order
  case arrivals => exact hguests ▸ h.arrivals
  case known =>
    rw [hguests, hlinks]
    exact h.known
  case line =>
    intro waiting hwaiting
    rw [hlink]
    exact h.line waiting (by simp [hline, show waiting ∈ line from hwaiting])
  case past =>
    intro farewell hfarewell
    rw [hlink]
    exact h.past farewell hfarewell

theorem Sound.answered (h : scene.Sound) {visit : Visit} {link : Link}
    (hvisit : scene.current = some visit) (hserved : link.Served) :
    (scene.after (scene.net.changeLink visit.link fun _ => link)
      { scene.server with loop := some ⟨scene.listener, .accepting⟩ }).Sound := by
  obtain ⟨hline, hpast⟩ := h.apart hvisit
  have hknown := (h.known visit.toGuest (mem_guests.mpr (.inr (.inl ⟨visit, hvisit, rfl⟩)))).1
  have hguests : guests { scene with
      net := scene.net.changeLink visit.link fun _ => link
      server := { scene.server with loop := some ⟨scene.listener, .accepting⟩ }
      current := none
      past := { toVisit := visit, ended := scene.now } :: scene.past } = scene.guests := by
    simp [guests, hvisit]
  rw [after_closing hvisit rfl]
  constructor
  case fits => exact HealthServer.fits_of_none rfl
  case attached => exact h.attached
  case running => exact h.running
  case signal => exact h.signal
  case loop => exact ⟨_, rfl, rfl, fun visit hvisit => by cases hvisit⟩
  case listens => exact h.listens
  case order => exact hguests ▸ h.order
  case arrivals => exact hguests ▸ h.arrivals
  case known =>
    rw [hguests, Net.length_changeLink]
    exact h.known
  case line =>
    intro guest hguest
    rw [Net.link_changeLink_of_ne _ _ (hline guest hguest)]
    exact h.line guest hguest
  case past =>
    intro farewell hfarewell
    rcases List.mem_cons.mp hfarewell with rfl | hbefore
    · rw [Net.link_changeLink _ _ _ hknown]
      exact hserved
    · rw [Net.link_changeLink_of_ne _ _ (hpast farewell hbefore)]
      exact h.past farewell hbefore

theorem Sound.turn (h : scene.Sound) {net : Net} {server : HealthServer}
    (hturn : scene.server.Turn scene.now scene.net net server) :
    (scene.after net server).Sound := by
  have hfits := hturn.fits h.fits
  cases hturn with
  | opened hloop =>
      obtain ⟨rfl, hcurrent⟩ := h.idle hloop rfl
      exact h.opened hcurrent
  | closed _ hstopped => cases h.running.symm.trans hstopped
  | dismissed _ hsignal => cases h.signal.symm.trans hsignal
  | accepted hloop _ haccept =>
      obtain ⟨rfl, hcurrent⟩ := h.idle hloop rfl
      exact h.accepted hcurrent (Net.reception?_eq_ok haccept).2 rfl
  | @stumbled _ _ _ reported hloop _ hfails =>
      obtain ⟨rfl, hcurrent⟩ := h.idle hloop rfl
      have hidle : { scene.server with reported }.session? = none :=
        HealthServer.session?_of_loop hloop
      rw [after_idle hcurrent hidle]
      exact h.stumbled hfails reported
  | barred _ _ _ hstopped => cases h.running.symm.trans hstopped
  | more hloop =>
      obtain ⟨rfl, visit, hvisit, hlink, howes⟩ := h.visiting hloop rfl
      rw [← hlink] at howes ⊢
      exact h.attends_change hvisit hfits rfl hlink.symm (howes.take _)
  | heard hloop =>
      obtain ⟨rfl, visit, hvisit, hlink, howes⟩ := h.visiting hloop rfl
      rw [← hlink] at howes ⊢
      exact h.attends_change hvisit hfits rfl hlink.symm (howes.take _)
  | misheard hloop =>
      obtain ⟨rfl, visit, hvisit, hlink, howes⟩ := h.visiting hloop rfl
      rw [← hlink] at howes ⊢
      exact h.attends_change hvisit hfits rfl hlink.symm (howes.take _)
  | ended hloop =>
      obtain ⟨rfl, visit, hvisit, hlink, howes⟩ := h.visiting hloop rfl
      rw [← hlink] at howes
      exact h.attends hvisit hfits rfl hlink.symm howes rfl (fun _ _ => rfl) rfl
  | failed hloop =>
      obtain ⟨rfl, visit, hvisit, hlink, howes⟩ := h.visiting hloop rfl
      rw [← hlink] at howes ⊢
      exact h.attends_change hvisit hfits rfl hlink.symm howes.report
  | expired hloop =>
      obtain ⟨rfl, visit, hvisit, hlink, howes⟩ := h.visiting hloop rfl
      rw [← hlink] at howes
      exact h.attends hvisit hfits rfl hlink.symm howes rfl (fun _ _ => rfl) rfl
  | wrote hloop hwrite =>
      obtain ⟨rfl, visit, hvisit, hlink, howes⟩ := h.visiting hloop rfl
      rw [← hlink] at howes hwrite ⊢
      refine h.attends_change hvisit hfits rfl hlink.symm ?_
      rcases howes.write hwrite with ⟨_, hcount, hrest⟩ | ⟨⟨_, hfailed⟩, _⟩
      · cases hcount
        exact hrest
      · cases hfailed
  | answered hloop hwrite hends =>
      obtain ⟨rfl, visit, hvisit, hlink, howes⟩ := h.visiting hloop rfl
      rw [← hlink] at howes hwrite ⊢
      exact h.answered hvisit (howes.served hwrite hends)
  | retired _ _ _ hstopped => cases h.running.symm.trans hstopped

/-- A server that has just been opened waits for whoever comes. -/
theorem sound_begin (now : Instant) {net net' : Net} {server next : HealthServer}
    (hstart : server.start net = (.ok (), net', next)) (hopen : next.isListening = true) :
    Sound
      { now, net := net', server := next, opened := now, listener := net.listeners.length } := by
  simp only [HealthServer.start] at hstart
  split at hstart
  · cases hstart
  · rename_i hattached
    split at hstart
    · cases hstart
      simp [HealthServer.isListening, hattached] at hopen
    · split at hstart
      · cases hstart
      · rename_i address haddress
        cases hlisten : net.listen address with
        | error cause => simp [hlisten] at hstart
        | ok listening =>
            obtain ⟨listener, net''⟩ := listening
            simp only [hlisten, Prod.mk.injEq, true_and] at hstart
            obtain ⟨rfl, rfl⟩ := hstart
            obtain ⟨wanted, nextPort, _, rfl, rfl⟩ := Net.listen_eq_ok hlisten
            constructor
            case fits => exact HealthServer.fits_of_none rfl
            case attached => rfl
            case running => rfl
            case signal => rfl
            case loop => exact ⟨_, rfl, rfl, fun visit hvisit => by cases hvisit⟩
            case listens =>
              refine ⟨{ address := wanted }, by simp [Net.listener?], rfl, ?_, rfl⟩
              simp [Net.addressOf?, Net.listener?]
            case order => exact List.Pairwise.nil
            case arrivals => exact List.Pairwise.nil
            case known => simp [guests]
            case line => simp
            case past => simp

theorem Move.sound (h : scene.Sound) (hmove : scene.Move later) : later.Sound := by
  cases hmove with
  | step hstep => exact h.turn (HealthServer.turn_of_step h.fits hstep)
  | others hforeign => exact (h.joined hforeign).noted
  | wait _ hnow _ =>
      refine ⟨h.fits, h.attached, h.running, h.signal, h.loop, h.listens, h.order, h.arrivals, ?_,
        h.line, h.past⟩
      exact fun guest hguest =>
        ⟨(h.known guest hguest).1, Nat.le_trans (h.known guest hguest).2 hnow⟩

theorem Reachable.sound (h : scene.Reachable) : scene.Sound := by
  induction h with
  | begin now hstart hopen _ => exact sound_begin now hstart hopen
  | move _ hmove _ ih => exact hmove.sound ih

end Service

end NodeHealth
