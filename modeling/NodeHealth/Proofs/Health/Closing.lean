import NodeHealth.Proofs.Health.Dismissed

/-!
# Closing the health server

A server that is told to stop goes on with the connection that it has, or it may take one that
waits at that very moment; all others are turned away. Together with the time that this takes
and with what happens after the return this is `Service.close_bounded`.

## Implementation notes

When the call returns there is no loop any more, and `Service.Rests` goes on from there until
the server is opened anew. Its connections are still nobody else's, so that nothing but the
server could write there.

-/

namespace NodeHealth

namespace Service

variable {first scene later : Service} {holds : Service → Prop} {steps : Nat}

/-! ## The last connection -/

/-- The connection that a closing server attends to: the one that it has at the call, or, if it
has none, one that it takes at that instant. -/
inductive Picks (first : Service) (visit : Visit) : Prop
  | had {before : Visit} (hcurrent : first.current = some before)
      (hlink : before.link = visit.link) (hbegun : before.begun = visit.begun)
  | takes (hnone : first.current = none) (hbegun : visit.begun = first.now)

/-- Whom the server has attended to since the call. -/
inductive Attended (first scene : Service) : Prop
  | nobody (hcurrent : scene.current = none) (hnone : first.current = none)
      (hpast : scene.past = first.past) (hnow : scene.now = first.now)
  | one {visit : Visit} (hcurrent : scene.current = some visit) (hpicks : first.Picks visit)
      (hpast : scene.past = first.past)
  /-- The connection is closed, and so is the server. -/
  | ended {farewell : Farewell} (hloop : scene.server.loop = none)
      (hcurrent : scene.current = none) (hpicks : first.Picks farewell.toVisit)
      (hpast : scene.past = farewell :: first.past)

/-- A server that was told to stop waits only if it has taken a connection. -/
theorem Closing.busy (h : first.Closing holds steps scene) (hpending : scene.server.loop ≠ none)
    (hwaits : scene.Waits) : ∃ visit, scene.current = some visit := by
  obtain ⟨hdismissed, hfits, _⟩ := h.keeps
  have hsound := h.sound hpending
  cases HealthServer.waits_of_step hfits hwaits with
  | idle hnone => exact absurd hnone hpending
  | accepting _ hsignal =>
      obtain ⟨takesOne, hgiven⟩ := hdismissed.signal
      rw [hgiven] at hsignal
      rcases hsignal with hsignal | hsignal <;> cases hsignal
  | reading hloop =>
      obtain ⟨_, visit, hvisit, _⟩ := hsound.visiting hloop rfl
      exact ⟨visit, hvisit⟩
  | replying hloop =>
      obtain ⟨_, visit, hvisit, _⟩ := hsound.visiting hloop rfl
      exact ⟨visit, hvisit⟩

/-- The server goes on with the connection that it has taken. -/
theorem Attended.goes_on (h : first.Attended scene) (hsound : scene.reopened.Sound)
    {loop : AcceptLoop} {session session' : Session} (hloop : scene.server.loop = some loop)
    (hsession : loop.phase.session? = some session) {net : Net} {server : HealthServer}
    (hserver : server.session? = some session') : first.Attended (scene.after net server) := by
  obtain ⟨_, visit, hvisit, _⟩ := hsound.visiting hloop hsession
  have hvisit : scene.current = some visit := hvisit
  rw [after_attending hvisit hserver]
  cases h with
  | nobody hcurrent => cases hcurrent.symm.trans hvisit
  | one hcurrent hpicks hpast => exact .one hcurrent hpicks hpast
  | ended hnone => cases hnone.symm.trans hloop

/-- The loop ends with nobody at hand. -/
theorem Attended.gives_up (h : first.Attended scene) (hcurrent : scene.current = none)
    {loop : AcceptLoop} (hloop : scene.server.loop = some loop) {net : Net}
    {server : HealthServer} (hserver : server.session? = none) :
    first.Attended (scene.after net server) := by
  rw [after_idle hcurrent hserver]
  cases h with
  | nobody _ hnone hpast hnow => exact .nobody hcurrent hnone hpast hnow
  | one hvisit => cases hcurrent.symm.trans hvisit
  | ended hnone => cases hnone.symm.trans hloop

theorem Attended.turn (h : first.Attended scene) (hsound : scene.reopened.Sound)
    (hdismissed : scene.server.Dismissed) {net : Net} {server : HealthServer}
    (hturn : scene.server.Turn scene.now scene.net net server) :
    first.Attended (scene.after net server) := by
  cases hturn with
  | opened _ hrunning => cases hdismissed.running.symm.trans hrunning
  | closed hloop => exact h.gives_up (hsound.idle hloop rfl).2 hloop rfl
  | dismissed hloop => exact h.gives_up (hsound.idle hloop rfl).2 hloop rfl
  | accepted hloop _ haccept =>
      obtain ⟨rfl, hcurrent⟩ := hsound.idle hloop rfl
      have hcurrent : scene.current = none := hcurrent
      obtain ⟨guest, line, hline, _⟩ := hsound.takes (Net.reception?_eq_ok haccept).2
      rw [after_taking hcurrent rfl hline]
      cases h with
      | nobody _ hnone hpast hnow => exact .one rfl (.takes hnone hnow) hpast
      | one hvisit => cases hcurrent.symm.trans hvisit
      | ended hnone => cases hnone.symm.trans hloop
  | stumbled _ _ _ hrunning => cases hdismissed.running.symm.trans hrunning
  | barred hloop => exact h.gives_up (hsound.idle hloop rfl).2 hloop rfl
  | more hloop => exact h.goes_on hsound hloop rfl rfl
  | heard hloop => exact h.goes_on hsound hloop rfl rfl
  | misheard hloop => exact h.goes_on hsound hloop rfl rfl
  | ended hloop => exact h.goes_on hsound hloop rfl rfl
  | failed hloop => exact h.goes_on hsound hloop rfl rfl
  | expired hloop => exact h.goes_on hsound hloop rfl rfl
  | wrote hloop => exact h.goes_on hsound hloop rfl rfl
  | answered _ _ _ hrunning => cases hdismissed.running.symm.trans hrunning
  | retired hloop =>
      obtain ⟨_, visit, hvisit, _⟩ := hsound.visiting hloop rfl
      have hvisit : scene.current = some visit := hvisit
      rw [after_closing hvisit rfl]
      cases h with
      | nobody hcurrent => cases hcurrent.symm.trans hvisit
      | one hcurrent hpicks hpast =>
          cases hcurrent.symm.trans hvisit
          exact @Attended.ended _ _ { toVisit := visit, ended := scene.now } rfl rfl hpicks
            (congrArg _ hpast)
      | ended hnone => cases hnone.symm.trans hloop

theorem Attended.others (h : first.Attended scene) (net : Net) :
    first.Attended (scene.joined net).noted := by
  cases h with
  | nobody hcurrent hnone hpast hnow =>
      refine .nobody ?_ hnone hpast hnow
      change scene.current.map _ = none
      rw [hcurrent]
      rfl
  | @one visit hcurrent hpicks hpast =>
      refine @Attended.one _ _ { visit with toGuest := visit.toGuest.note scene.now net } ?_ ?_
        hpast
      · change scene.current.map _ = _
        rw [hcurrent]
        rfl
      · cases hpicks with
        | had hbefore hlink hbegun => exact .had hbefore (hlink.trans (link_note _ _ _).symm) hbegun
        | takes hnone hbegun => exact .takes hnone hbegun
  | ended hloop hcurrent hpicks hpast =>
      refine .ended hloop ?_ hpicks hpast
      change scene.current.map _ = none
      rw [hcurrent]
      rfl

theorem Closing.attended (h : first.Closing holds steps scene) : first.Attended scene := by
  induction h with
  | call takesOne hfirst =>
      cases hcurrent : first.current with
      | none => exact .nobody hcurrent hcurrent rfl rfl
      | some visit => exact .one hcurrent (.had hcurrent rfl rfl) rfl
  | step h hstep _ ih =>
      exact ih.turn (h.sound (HealthServer.loop_of_step hstep)) h.keeps.1 (h.turn hstep)
  | others _ _ _ _ ih => exact ih.others _
  | @wait scene _ now h hpending hwaits _ _ _ ih =>
      obtain ⟨visit, hvisit⟩ := h.busy hpending hwaits
      cases ih with
      | nobody hcurrent => cases hcurrent.symm.trans hvisit
      | one hcurrent hpicks hpast => exact .one hcurrent hpicks hpast
      | ended hnone => exact absurd hnone hpending

/-! ## All others -/

/-- What was closed before the call stays as it is. -/
theorem Closing.past_written (h : first.Closing holds steps scene) {farewell : Farewell}
    (hmem : farewell ∈ first.past) :
    farewell ∈ scene.past ∧ (scene.net.link farewell.link).acceptor.written =
      (first.net.link farewell.link).acceptor.written := by
  induction h with
  | call => exact ⟨hmem, rfl⟩
  | @step scene _ net server h hstep _ ih =>
      obtain ⟨hpast, hwritten⟩ := ih
      have hsound := h.sound (HealthServer.loop_of_step hstep)
      have hknown := hsound.known farewell.toGuest (mem_guests.mpr (.inl ⟨farewell, hpast, rfl⟩))
      refine ⟨(guests_after scene net server).2.subset hpast, ?_⟩
      rw [net_after]
      refine ((h.turn hstep).written hknown.1 ?_).trans hwritten
      intro session hsession
      obtain ⟨loop, hloop, hphase⟩ := Option.bind_eq_some_iff.mp hsession
      obtain ⟨_, visit, hvisit, hlink, _⟩ := hsound.visiting hloop hphase
      exact hlink ▸ (hsound.apart hvisit).2 farewell hpast
  | others h hpending hforeign _ ih =>
      obtain ⟨hpast, hwritten⟩ := ih
      have hbeside := (others_of_foreign (h.sound hpending) hforeign
        (mem_guests.mpr (.inl ⟨farewell, hpast, rfl⟩))).1
      exact ⟨hpast, hbeside.written.trans hwritten⟩
  | wait _ _ _ _ _ _ ih => exact ih

/-- The server is done: it holds no connection, and nothing was written on those that were
still in line. -/
structure Over (scene : Service) : Prop where
  loop : scene.server.loop = none
  current : scene.current = none
  released : ∀ guest ∈ scene.guests, guest.link < scene.net.links.length ∧
    (scene.net.link guest.link).acceptor.held = false
  line : ∀ guest ∈ scene.line, (scene.net.link guest.link).acceptor.written = []
  /-- Nobody is heard at the listener any more, and nobody waits there. -/
  deaf : ∃ listener, scene.net.listener? scene.listener = some listener ∧
    listener.isOpen = false ∧ listener.queue = []

/-- A server that attends to nobody is done as soon as its listener is closed. -/
theorem Sound.over (h : scene.Sound) (hcurrent : scene.current = none) {server : HealthServer}
    (hnone : server.loop = none) :
    Over { scene with net := scene.net.closeListener scene.listener, server } := by
  obtain ⟨listener, hlistener, _, _, hqueue⟩ := h.listens
  constructor
  case loop => exact hnone
  case current => exact hcurrent
  case released =>
    intro guest hguest
    have hlink := (h.known guest hguest).1
    refine ⟨by rwa [Net.length_closeListener], Net.held_closeListener hlistener hlink ?_⟩
    rcases mem_guests.mp hguest with ⟨visit, hvisit, rfl⟩ | ⟨visit, hvisit, _⟩ | hline
    · exact .inr (h.past visit hvisit).held
    · cases hcurrent.symm.trans hvisit
    · exact .inl (hqueue ▸ List.mem_map_of_mem hline)
  case line =>
    intro guest hguest
    have hlink := (h.known guest (mem_guests.mpr (.inr (.inr hguest)))).1
    exact (Net.written_closeListener _ _ hlink).trans (h.line guest hguest).unwritten
  case deaf => exact ⟨_, Net.listener?_closeListener hlistener, rfl, rfl⟩

theorem Closing.over (h : first.Closing holds steps scene) (hnone : scene.server.loop = none) :
    scene.Over := by
  cases h with
  | call takesOne hfirst =>
      obtain ⟨_, hloop, _⟩ := hfirst.reachable.sound.loop
      rw [closing, HealthServer.requestStop, if_pos hfirst.reachable.sound.attached] at hnone
      cases hnone.symm.trans hloop
  | @step scene _ net server h hstep _ =>
      have hsound := h.sound (HealthServer.loop_of_step hstep)
      rw [server_after] at hnone
      cases h.turn hstep with
      | closed hloop =>
          obtain ⟨rfl, hcurrent⟩ := hsound.idle hloop rfl
          rw [@after_idle scene _ _ hcurrent rfl]
          exact hsound.over hcurrent rfl
      | dismissed hloop =>
          obtain ⟨rfl, hcurrent⟩ := hsound.idle hloop rfl
          rw [@after_idle scene _ _ hcurrent rfl]
          exact hsound.over hcurrent rfl
      | barred hloop _ hfails =>
          obtain ⟨rfl, hcurrent⟩ := hsound.idle hloop rfl
          rw [@after_idle scene _ _ hcurrent rfl]
          exact (hsound.stumbled hfails scene.server.reported).over hcurrent rfl
      | stumbled hloop => cases hloop.symm.trans hnone
      | retired hloop hwrite hends =>
          obtain ⟨rfl, visit, hvisit, hlink, howes⟩ := hsound.visiting hloop rfl
          rw [← hlink] at howes hwrite ⊢
          have hclosed := hsound.answered hvisit (howes.served hwrite hends)
          rw [after_closing hvisit rfl] at hclosed
          rw [@after_closing scene _ _ _ hvisit rfl]
          exact hclosed.over rfl rfl
      | _ => cases hnone
  | others _ hpending => exact absurd hnone hpending
  | wait _ hpending => exact absurd hnone hpending

/-! ## After the return -/

/-- What is left of the server's connections when it has no listener any more. -/
def remains (scene : Service) : Net.Holdings :=
  { scene.holdings with listeners := fun _ => False }

/-- What happens after the call has returned, until the server is opened anew. -/
inductive Rests (scene : Service) : Service → Prop
  | returns : Rests scene { scene with server := scene.server.finishStop }
  | step {later : Service} {net : Net} {server : HealthServer} (h : Rests scene later)
      (hstep : later.server.step later.now later.net = some (net, server)) :
      Rests scene (later.after net server)
  | others {later : Service} {net : Net} (h : Rests scene later)
      (hforeign : later.net.Foreign later.remains net) : Rests scene { later with net }
  | wait {later : Service} (h : Rests scene later) (now : Instant) :
      Rests scene { later with now }

/-- Nobody holds the server's ends of the connections of a scene, and nothing more is written
there. -/
structure Silent (scene later : Service) : Prop where
  loop : later.server.loop = none
  guests : later.guests = scene.guests
  links : scene.net.links.length ≤ later.net.links.length
  written : ∀ guest ∈ scene.guests, (later.net.link guest.link).acceptor.written =
    (scene.net.link guest.link).acceptor.written
  held : ∀ guest ∈ scene.guests, (later.net.link guest.link).acceptor.held = false

theorem loop_finishStop (server : HealthServer) : server.finishStop.loop = server.loop := by
  unfold HealthServer.finishStop
  split <;> rfl

theorem Over.rests (h : scene.Over) (hrests : scene.Rests later) : scene.Silent later := by
  induction hrests with
  | returns =>
      exact ⟨(loop_finishStop _).trans h.loop, rfl, Nat.le_refl _, fun _ _ => rfl,
        fun guest hguest => (h.released guest hguest).2⟩
  | step _ hstep ih => exact absurd ih.loop (HealthServer.loop_of_step hstep)
  | @others later net _ hforeign ih =>
      have hbeside : ∀ guest ∈ scene.guests,
          (later.net.link guest.link).Beside .acceptor (net.link guest.link) := by
        intro guest hguest
        refine hforeign.evolves.beside ⟨rfl, guest, ih.guests ▸ hguest, rfl⟩ ?_
        exact Nat.lt_of_lt_of_le (h.released guest hguest).1 ih.links
      refine ⟨ih.loop, ih.guests, Nat.le_trans ih.links hforeign.evolves.links, ?_, ?_⟩
      · exact fun guest hguest => (hbeside guest hguest).written.trans (ih.written guest hguest)
      · exact fun guest hguest => (hbeside guest hguest).held.trans (ih.held guest hguest)
  | wait _ _ ih => exact ⟨ih.loop, ih.guests, ih.links, ih.written, ih.held⟩

/-! ## The length of the call -/

theorem due_le (visit : Visit) (timeout : Nat) : visit.due timeout ≤ visit.begun + timeout := by
  unfold Visit.due
  split
  · exact Nat.le_refl _
  · exact Nat.min_le_left _ _

theorem Punctual.begun_le (hsound : scene.Sound) (h : scene.Punctual) {visit : Visit}
    (hvisit : scene.current = some visit) : visit.begun ≤ scene.now := by
  obtain ⟨phase, hloop, _⟩ := hsound.loop
  cases phase with
  | starting => cases (hsound.idle hloop rfl).2.symm.trans hvisit
  | accepting => cases (hsound.idle hloop rfl).2.symm.trans hvisit
  | reading session reader deadline => exact (h.attending hloop hvisit).since
  | replying session sending => exact (h.answering hloop hvisit).since

theorem Picks.begun_le {visit : Visit} (h : first.Picks visit) (hsound : first.Sound)
    (hpunctual : first.Punctual) : visit.begun ≤ first.now := by
  cases h with
  | had hcurrent _ hbegun => exact hbegun ▸ hpunctual.begun_le hsound hcurrent
  | takes _ hbegun => exact Nat.le_of_eq hbegun

theorem Closing.punctual (h : first.Closing HasRoom steps scene)
    (hpending : scene.server.loop ≠ none) :
    scene.reopened.Punctual ∧ scene.HasRoom := by
  have htwin := h.twin id hpending
  exact ⟨htwin.punctual, htwin.holds⟩

theorem Closing.now_le_of_pending (h : first.Closing HasRoom steps scene)
    (hpending : scene.server.loop ≠ none) : scene.now ≤ first.now + first.timeout := by
  obtain ⟨_, _, hconfig, _⟩ := h.keeps
  obtain ⟨hpunctual, hroom⟩ := h.punctual hpending
  have htimeout : scene.reopened.timeout = first.timeout := by
    simp only [timeout, reopened, HealthServer.reopened, hconfig]
  cases h.attended with
  | nobody _ _ _ hnow => exact hnow ▸ Nat.le_add_right _ _
  | @one visit hcurrent hpicks =>
      have hbegun := hpicks.begun_le h.within.reachable.sound h.within.punctual
      calc scene.now ≤ visit.due scene.reopened.timeout :=
            ((hpunctual.inTime (h.sound hpending) hroom).current visit hcurrent).2
        _ ≤ visit.begun + first.timeout := htimeout ▸ due_le visit _
        _ ≤ first.now + first.timeout := Nat.add_le_add_right hbegun _
  | ended hnone => exact absurd hnone hpending

/-- The call never lasts longer than the server waits for a request. -/
theorem Closing.now_le (h : first.Closing HasRoom steps scene) :
    scene.now ≤ first.now + first.timeout := by
  cases h with
  | call => exact Nat.le_add_right _ _
  | @step scene _ net server h hstep _ =>
      rw [(listener_after scene net server).2]
      exact h.now_le_of_pending (HealthServer.loop_of_step hstep)
  | others h hpending => exact h.now_le_of_pending hpending
  | wait h hpending hwaits hnow hwake hlater =>
      exact (Closing.wait h hpending hwaits hnow hwake hlater).now_le_of_pending hpending

end Service

/-- A bound of the steps that a server does once it was told to stop: a request takes a step
for each of its bytes at most, as long as it is not decided. -/
def HealthServer.allowance (net : Net) (server : HealthServer) : Nat :=
  match server.loop with
  | none => 0
  | some loop =>
      match loop.phase with
      | .starting => 1
      | .accepting => 3 + answer.length + (Varint.maxLength + maxRequestLength)
      | .reading session _ _ =>
          2 + answer.length +
            (Varint.maxLength + maxRequestLength - (net.link session.link).acceptor.taken)
      | .replying _ sending => 1 + sending.rest.length

theorem Link.taken_take (link : Link) (count : Nat) :
    (link.take .acceptor count).acceptor.taken = link.acceptor.taken + count :=
  rfl

/-- A request that is not decided is short. -/
theorem Link.Heard.short {link : Link} {reader : Frame.Reader} (h : link.Heard reader) :
    link.acceptor.taken < Varint.maxLength + HealthServer.maxRequestLength := by
  have hlength := Frame.Reader.length_of_more h.midway
  rwa [List.length_take, Nat.min_eq_left h.taken] at hlength

namespace Service

variable {first scene later : Service} {holds : Service → Prop} {steps : Nat}

theorem allowance_answering {server : HealthServer} {net net' : Net} {listener : ListenerId}
    {session session' : Session} {reader : Frame.Reader} {deadline : Instant}
    (hloop : server.loop = some ⟨listener, .reading session reader deadline⟩) :
    HealthServer.allowance net' { server with
        loop := some ⟨listener, HealthServer.answering session' HealthServer.answer⟩ } <
      server.allowance net := by
  simp only [HealthServer.allowance, HealthServer.answering, hloop]
  omega

/-- Every step of a server that was told to stop uses up some of what it is allowed. -/
theorem Closing.allowance_lt (h : first.Closing HasRoom steps scene) {net : Net}
    {server : HealthServer} (hstep : scene.server.step scene.now scene.net = some (net, server)) :
    server.allowance net < scene.server.allowance scene.net := by
  have hpending := HealthServer.loop_of_step hstep
  have hsound := h.sound hpending
  cases h.turn hstep with
  | opened _ hrunning => cases h.keeps.1.running.symm.trans hrunning
  | closed hloop => simp [HealthServer.allowance, hloop]
  | dismissed hloop =>
      simp only [HealthServer.allowance, hloop]
      omega
  | accepted hloop =>
      simp only [HealthServer.allowance, hloop]
      omega
  | stumbled _ _ _ hrunning => cases h.keeps.1.running.symm.trans hrunning
  | barred hloop =>
      simp only [HealthServer.allowance, hloop]
      omega
  | @more _ _ _ _ _ unread hloop harrival hfeed =>
      obtain ⟨rfl, visit, hvisit, hlink, _⟩ := hsound.visiting hloop rfl
      have hknown := (hsound.known visit.toGuest
        (mem_guests.mpr (.inr (.inl ⟨visit, hvisit, rfl⟩)))).1
      have hattends := (h.punctual hpending).1.attending hloop hvisit
      rw [← hlink] at harrival
      have hbytes := List.length_pos_iff.mpr (Link.arrival_bytes harrival)
      have hshort : (scene.net.link visit.link).acceptor.taken + unread.length < _ :=
        (hattends.heard.more harrival hfeed).short
      have hchanged := Net.link_changeLink scene.net _ (·.take .acceptor unread.length) hknown
      simp only [HealthServer.allowance, hloop, ← hlink, hchanged, Link.taken_take]
      omega
  | heard hloop => exact allowance_answering hloop
  | misheard hloop => exact allowance_answering hloop
  | ended hloop => exact allowance_answering hloop
  | failed hloop => exact allowance_answering hloop
  | expired hloop => exact allowance_answering hloop
  | wrote hloop _ hcount hpart =>
      simp only [HealthServer.allowance, hloop, List.length_drop]
      omega
  | answered _ _ _ hrunning => cases h.keeps.1.running.symm.trans hrunning
  | retired hloop =>
      simp only [HealthServer.allowance, hloop]
      omega

/-- Others take nothing away of what the server is allowed. -/
theorem Sound.allowance_others (h : scene.Sound) {net : Net}
    (hforeign : scene.net.Foreign scene.holdings net) :
    scene.server.allowance net = scene.server.allowance scene.net := by
  obtain ⟨phase, hloop, _⟩ := h.loop
  cases phase with
  | starting => simp only [HealthServer.allowance, hloop]
  | accepting => simp only [HealthServer.allowance, hloop]
  | reading session reader deadline =>
      obtain ⟨_, visit, hvisit, hlink, _⟩ := h.visiting hloop rfl
      have htaken : (net.link visit.link).acceptor.taken =
          (scene.net.link visit.link).acceptor.taken :=
        (others_of_foreign h hforeign (mem_guests.mpr (.inr (.inl ⟨visit, hvisit, rfl⟩)))).1.taken
      simp only [HealthServer.allowance, hloop, ← hlink, htaken]
  | replying session sending => simp only [HealthServer.allowance, hloop]

theorem Sound.allowance_le (h : scene.Sound) : scene.server.allowance scene.net ≤ 80 := by
  have hanswer : HealthServer.answer.length = 3 := rfl
  have hlimit : Varint.maxLength + HealthServer.maxRequestLength = 74 := rfl
  obtain ⟨phase, hloop, _⟩ := h.loop
  cases phase with
  | starting => simp [HealthServer.allowance, hloop]
  | accepting =>
      simp only [HealthServer.allowance, hloop]
      omega
  | reading session reader deadline =>
      simp only [HealthServer.allowance, hloop]
      omega
  | replying session sending =>
      obtain ⟨_, _, _, _, howes⟩ := h.visiting hloop rfl
      have hrest := congrArg List.length howes.written
      rw [List.length_append] at hrest
      simp only [HealthServer.allowance, hloop]
      simp only [AcceptPhase.owed] at hrest
      omega

theorem Closing.steps_le (h : first.Closing HasRoom steps scene) :
    steps + scene.server.allowance scene.net ≤ 80 := by
  induction h with
  | call takesOne hfirst =>
      have hsound := hfirst.reachable.sound
      have hsame : (first.closing takesOne).server.allowance first.net =
          first.server.allowance first.net := by
        rw [closing, HealthServer.requestStop, if_pos hsound.attached]
        rfl
      change 0 + (first.closing takesOne).server.allowance first.net ≤ 80
      rw [hsame, Nat.zero_add]
      exact hsound.allowance_le
  | step h hstep _ ih =>
      have hless := h.allowance_lt hstep
      rw [server_after, net_after]
      omega
  | others h hpending hforeign _ ih =>
      have hsame := (h.sound hpending).allowance_others hforeign
      exact Nat.le_trans (Nat.le_of_eq (congrArg _ hsame)) ih
  | wait _ _ _ _ _ _ ih => exact ih

/-- A server that was told to stop can go on, or it waits for a request until its time is up. -/
theorem Closing.proceeds (h : first.Closing HasRoom steps scene)
    (hpending : scene.server.loop ≠ none) :
    (∃ net server, scene.server.step scene.now scene.net = some (net, server)) ∨
      ∃ wake, scene.server.wake? = some wake ∧ scene.now < wake := by
  cases hstep : scene.server.step scene.now scene.net with
  | some stepped => exact .inl ⟨stepped.1, stepped.2, rfl⟩
  | none =>
      obtain ⟨hpunctual, hroom⟩ := h.punctual hpending
      have hsound := h.sound hpending
      obtain ⟨hdismissed, hfits, _⟩ := h.keeps
      cases HealthServer.waits_of_step hfits hstep with
      | idle hnone => exact absurd hnone hpending
      | accepting _ hsignal =>
          obtain ⟨takesOne, hgiven⟩ := hdismissed.signal
          rw [hgiven] at hsignal
          rcases hsignal with hsignal | hsignal <;> cases hsignal
      | @reading _ _ _ deadline hloop _ hdeadline =>
          exact .inr ⟨deadline, by simp only [HealthServer.wake?, hloop], hdeadline⟩
      | replying hloop hwrite hpart =>
          obtain ⟨rfl, visit, hvisit, hlink, howes⟩ := hsound.visiting hloop rfl
          have hrest := (hpunctual.answering hloop hvisit).rest
          rw [AcceptPhase.owed, hrest, ← hlink] at howes
          rw [hrest, ← hlink] at hwrite
          have hends : HealthServer.answer.length ≤ 0 := howes.ends (hroom visit hvisit) hwrite
          exact absurd (hrest ▸ hpart) (Nat.not_lt_of_le hends)

/-! ## Closing is bounded -/

/-- What has become of the connections of a server since it was told to stop. -/
structure Dismisses (first scene : Service) : Prop where
  /-- At most one of them was attended to. -/
  attended : first.Attended scene
  /-- Nothing was written on those that had been closed before. -/
  past : ∀ farewell ∈ first.past, (scene.net.link farewell.link).acceptor.written =
    (first.net.link farewell.link).acceptor.written
  /-- Nothing was written on those that wait in line, or waited when the listener was closed. -/
  line : ∀ guest ∈ scene.line, (scene.net.link guest.link).acceptor.written = []

/-- A call that closes a server is neither long nor stuck. -/
structure Bounded (first : Service) (steps : Nat) (scene : Service) : Prop where
  now : scene.now ≤ first.now + first.timeout
  steps : steps ≤ 80
  proceeds : scene.server.loop ≠ none →
    (∃ net server, scene.server.step scene.now scene.net = some (net, server)) ∨
      ∃ wake, scene.server.wake? = some wake ∧ scene.now < wake

theorem Closing.dismisses (h : first.Closing holds steps scene) : first.Dismisses scene where
  attended := h.attended
  past := fun _ hfarewell => (h.past_written hfarewell).2
  line := by
    intro guest hguest
    by_cases hloop : scene.server.loop = none
    · exact (h.over hloop).line guest hguest
    · exact ((h.sound hloop).line guest hguest).unwritten

/-- Whatever its peers do, a server that is told to stop attends to at most one connection
more, the one that it has or one that it takes at that instant; the others are turned away and
nothing is written on them. When the loop is over the server is as if it had never been opened,
it holds no connection, and nothing more is written on any. If the network takes an answer at
once, all of this takes no longer than the server waits for a request, and at most 80 steps. -/
theorem close_bounded (h : first.Closing (fun _ => True) steps scene) :
    first.Dismisses scene ∧
      (scene.server.loop = none → scene.Over ∧
        scene.server.finishStop = { config := first.server.config } ∧
        ∀ later, scene.Rests later → scene.Silent later) ∧
      (first.Closing HasRoom steps scene → first.Bounded steps scene) := by
  refine ⟨h.dismisses, fun hnone => ?_, fun hroom => ?_⟩
  · have hover := h.over hnone
    obtain ⟨hdismissed, _, hconfig, _⟩ := h.keeps
    exact ⟨hover, hconfig ▸ hdismissed.finishStop hnone, fun _ hrests => hover.rests hrests⟩
  · exact ⟨hroom.now_le, Nat.le_of_add_right_le hroom.steps_le, hroom.proceeds⟩

/-- A server that waits for a request when it is told to stop answers when its time is up, and
the connection behind it is turned away. -/
theorem close_bounded_of_silence : ∃ first scene : Service,
    first.Closing (fun _ => True) 2 scene ∧ first.Closing HasRoom 2 scene ∧
      first.now = 100 ∧ first.timeout = 500 ∧ scene.now = 500 ∧ scene.server.loop = none ∧
      first.Dismisses scene ∧ scene.Over ∧ first.Bounded 2 scene ∧
      (∀ later, scene.Rests later → scene.Silent later) ∧
      scene.past.map (fun visit => (visit.link, visit.begun, visit.ended)) = [(0, 0, 500)] ∧
      (scene.net.link 0).acceptor.written = HealthServer.answer ∧
      scene.line.map Guest.link = [1] := by
  have hbegin : Within HasRoom _ :=
    @Within.begin _ 0 {} _ { config := { bindAddr := "127.0.0.1", port := 4000 } } _ rfl rfl
      (by rintro _ h; cases h)
  have hcomes : Within HasRoom _ :=
    .move hbegin (.others (.act (.connect 0) trivial)) (by rintro _ h; cases h)
  have hopened : Within HasRoom _ := .move hcomes (.step rfl) (by rintro _ h; cases h)
  have htaken : Within HasRoom _ :=
    .move hopened (.step rfl) (by rintro _ h _ hroom; cases h; cases hroom)
  have hother : Within HasRoom _ :=
    .move htaken (.others (.act (.connect 0) trivial))
      (by rintro _ h _ hroom; cases h; cases hroom)
  have hwait : Within HasRoom _ :=
    .move hother (@Move.wait _ 100 rfl (by decide) (by rintro _ ⟨⟩; decide))
      (by rintro _ h _ hroom; cases h; cases hroom)
  have hcall := Closing.call false hwait
  have hlast := hcall.wait (fun h => by cases h) rfl (show _ ≤ 500 by decide)
    (by rintro _ ⟨⟩; decide) (by rintro _ h _ hroom; cases h; cases hroom)
  have hanswers := hlast.step rfl (by rintro _ h _ hroom; cases h; cases hroom)
  have hover := hanswers.step rfl (by rintro _ h; cases h)
  have hclosing := hover.mono fun _ => trivial
  obtain ⟨hdismisses, hafter, htimed⟩ := close_bounded hclosing
  obtain ⟨hdone, _, hsilent⟩ := hafter rfl
  exact ⟨_, _, hclosing, hover, rfl, rfl, rfl, rfl, hdismisses, hdone, htimed hover, hsilent, rfl,
    rfl, rfl⟩

end Service

end NodeHealth
