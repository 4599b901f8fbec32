import NodeHealth.Proofs.Health.Listening

/-!
# The health server is prompt

Whatever its peers do, and however long it takes to get rid of them, the server takes a
connection at the instant at which it is there and all before it are closed: time passes only
while the server waits, and it does not wait with somebody in line and nobody at hand.

-/

namespace NodeHealth

namespace Service

variable {scene later : Service}

/-- What a turn does to the record: nothing, or a connection is taken or closed. -/
inductive Course (scene : Service) (net : Net) (server : HealthServer) : Prop
  | stays (hafter : scene.after net server = { scene with net, server })
  | takes {guest : Guest} {line : List Guest} (hcurrent : scene.current = none)
      (hline : scene.line = guest :: line)
      (hloop : server.loop = some ⟨scene.listener, .reading (HealthServer.session guest.link)
        HealthServer.reader (scene.now + scene.timeout)⟩)
      (hafter : scene.after net server = { scene with
        net, server, line, current := some { toGuest := guest, begun := scene.now } })
  | closes {visit : Visit} (hvisit : scene.current = some visit)
      (hafter : scene.after net server = { scene with
        net, server
        current := none
        past := { toVisit := visit, ended := scene.now } :: scene.past })

theorem Sound.course (h : scene.Sound) {net : Net} {server : HealthServer}
    (hturn : scene.server.Turn scene.now scene.net net server) : scene.Course net server := by
  have hattends : ∀ {loop session session'}, scene.server.loop = some loop →
      loop.phase.session? = some session → server.session? = some session' →
      scene.Course net server := by
    intro loop session session' hloop hsession hsession'
    obtain ⟨_, visit, hvisit, _⟩ := h.visiting hloop hsession
    exact .stays (after_attending hvisit hsession')
  cases hturn with
  | opened hloop => exact .stays (after_idle (h.idle hloop rfl).2 rfl)
  | closed _ hstopped => cases h.running.symm.trans hstopped
  | dismissed _ hsignal => cases h.signal.symm.trans hsignal
  | accepted hloop _ haccept =>
      obtain ⟨rfl, hcurrent⟩ := h.idle hloop rfl
      obtain ⟨guest, line, hline, rfl, _⟩ := h.takes (Net.reception?_eq_ok haccept).2
      exact .takes hcurrent hline rfl (after_taking hcurrent rfl hline)
  | stumbled hloop =>
      have hidle := HealthServer.session?_of_loop hloop
      exact .stays (after_idle (h.idle hloop rfl).2 hidle)
  | barred _ _ _ hstopped => cases h.running.symm.trans hstopped
  | more hloop => exact hattends hloop rfl rfl
  | heard hloop => exact hattends hloop rfl rfl
  | misheard hloop => exact hattends hloop rfl rfl
  | ended hloop => exact hattends hloop rfl rfl
  | failed hloop => exact hattends hloop rfl rfl
  | expired hloop => exact hattends hloop rfl rfl
  | wrote hloop => exact hattends hloop rfl rfl
  | answered hloop =>
      obtain ⟨_, visit, hvisit, _⟩ := h.visiting hloop rfl
      exact .closes hvisit (after_closing hvisit rfl)
  | retired _ _ _ hstopped => cases h.running.symm.trans hstopped

/-- The server loses no time between two connections. -/
structure Prompt (scene : Service) : Prop where
  opened : scene.opened ≤ scene.now
  free : scene.free ≤ scene.now
  /-- Nobody is first in line for any time while nobody is at hand. -/
  line : scene.current = none → ∀ guest line, scene.line = guest :: line →
    scene.now = max guest.arrived scene.free
  current : ∀ visit, scene.current = some visit → visit.begun = max visit.arrived scene.free

theorem Prompt.turn (h : scene.Prompt) (hsound : scene.Sound) {net : Net} {server : HealthServer}
    (hturn : scene.server.Turn scene.now scene.net net server) :
    (scene.after net server).Prompt := by
  cases hsound.course hturn with
  | stays hafter =>
      rw [hafter]
      exact ⟨h.opened, h.free, h.line, h.current⟩
  | takes hcurrent hline _ hafter =>
      rw [hafter]
      refine ⟨h.opened, h.free, nofun, fun visit hvisit => ?_⟩
      cases hvisit
      exact h.line hcurrent _ _ hline
  | closes hvisit hafter =>
      rw [hafter]
      refine ⟨h.opened, Nat.le_refl _, fun _ guest line hline => ?_, nofun⟩
      have hguest : guest ∈ scene.line := by
        rw [show scene.line = _ from hline]
        exact List.mem_cons_self
      exact (Nat.max_eq_right (hsound.known guest (mem_guests.mpr (.inr (.inr hguest)))).2).symm

theorem Prompt.others (h : scene.Prompt) (hsound : scene.Sound) {net : Net}
    (hforeign : scene.net.Foreign scene.holdings net) : (scene.joined net).noted.Prompt where
  opened := h.opened
  free := h.free
  line := by
    intro hcurrent guest line hline
    have hbefore : scene.current = none := by
      cases hvisit : scene.current with
      | none => rfl
      | some visit =>
          have hcurrent : scene.current.map _ = none := hcurrent
          rw [hvisit] at hcurrent
          cases hcurrent
    change scene.now = max guest.arrived scene.free
    rcases head_joined hsound hforeign hline with ⟨first, rest, hold, harrived⟩ | harrived
    · rw [harrived]
      exact h.line hbefore first rest hold
    · rw [harrived]
      exact (Nat.max_eq_left h.free).symm
  current := by
    intro later hlater
    obtain ⟨visit, hvisit, rfl⟩ := Option.map_eq_some_iff.mp hlater
    change visit.begun = max (visit.toGuest.note _ _).arrived scene.free
    rw [arrived_note]
    exact h.current visit hvisit

/-- A server that waits has somebody at hand, or nobody is in line. -/
theorem Sound.waits (h : scene.Sound) (hwaits : scene.Waits) (hcurrent : scene.current = none) :
    scene.line = [] := by
  cases HealthServer.waits_of_step h.fits hwaits with
  | idle hnone =>
      obtain ⟨_, hloop, _⟩ := h.loop
      cases hnone.symm.trans hloop
  | accepting hloop _ hreception =>
      obtain ⟨rfl, _⟩ := h.idle hloop rfl
      obtain ⟨listener, hlistener, _, _, hqueue⟩ := h.listens
      have hempty : scene.net.queue scene.listener = [] :=
        Classical.byContradiction fun hqueue =>
          Net.accept?_of_queue hqueue (Net.reception?_eq_none hreception).2
      rw [Net.queue_of_listener hlistener, hqueue] at hempty
      exact List.map_eq_nil_iff.mp hempty
  | reading hloop =>
      obtain ⟨_, visit, hvisit, _⟩ := h.visiting hloop rfl
      cases hcurrent.symm.trans hvisit
  | replying hloop =>
      obtain ⟨_, visit, hvisit, _⟩ := h.visiting hloop rfl
      cases hcurrent.symm.trans hvisit

theorem Prompt.wait (h : scene.Prompt) (hsound : scene.Sound) (hwaits : scene.Waits)
    {now : Instant} (hnow : scene.now ≤ now) : Prompt { scene with now } where
  opened := Nat.le_trans h.opened hnow
  free := Nat.le_trans h.free hnow
  line := by
    intro hcurrent guest line hline
    cases (hsound.waits hwaits hcurrent).symm.trans hline
  current := h.current

theorem Reachable.prompt (h : scene.Reachable) : scene.Prompt := by
  induction h with
  | begin now => exact ⟨Nat.le_refl _, Nat.le_refl _, fun _ _ _ => nofun, nofun⟩
  | move hscene hmove _ ih =>
      have hsound := hscene.reachable.sound
      cases hmove with
      | step hstep => exact ih.turn hsound (HealthServer.turn_of_step hsound.fits hstep)
      | others hforeign => exact ih.others hsound hforeign
      | wait hwaits hnow _ => exact ih.wait hsound hwaits hnow

/-- A connection in line stays there, or it is the next one that is taken. -/
theorem Sound.stays_or_taken (h : scene.Sound) {net : Net} {server : HealthServer}
    (hturn : scene.server.Turn scene.now scene.net net server) {guest : Guest}
    (hguest : guest ∈ scene.line) :
    guest ∈ (scene.after net server).line ∨
      (scene.after net server).current = some { toGuest := guest, begun := scene.now } ∧
        server.loop = some ⟨scene.listener, .reading (HealthServer.session guest.link)
          HealthServer.reader (scene.now + scene.timeout)⟩ := by
  cases h.course hturn with
  | stays hafter =>
      rw [hafter]
      exact .inl hguest
  | takes _ hline hloop hafter =>
      rw [hafter]
      rw [hline] at hguest
      rcases List.mem_cons.mp hguest with rfl | hbehind
      · exact .inr ⟨rfl, hloop⟩
      · exact .inl hbehind
  | closes _ hafter =>
      rw [hafter]
      exact .inl hguest

end Service

end NodeHealth
