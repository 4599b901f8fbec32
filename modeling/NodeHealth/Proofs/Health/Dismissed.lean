import NodeHealth.Proofs.Health.Listening

/-!
# A health server that was told to stop

Until its loop is over, a server that was told to stop does nothing that it would not have
done without the call: `HealthServer.reopened` is the server as if it had not been called, and
`Service.Closing.twin` says that the service with it is one that is reached without a call.
What holds of those therefore holds here, up to the last turn of the loop.

## Implementation notes

The call ends with the loop, so that `Service.Closing` has no changes behind that point.
Whether a connection that waits at the moment of the call is taken is decided by the call, and
any choice is allowed.

-/

namespace NodeHealth

namespace HealthServer

variable {now : Instant} {net later : Net} {server next : HealthServer}

/-- A turn writes only on the connection that the server has taken. -/
theorem Turn.written (h : Turn now net server later next) {id : LinkId}
    (hid : id < net.links.length)
    (hother : ∀ visit, server.session? = some visit → visit.link ≠ id) :
    (later.link id).acceptor.written = (net.link id).acceptor.written := by
  by_cases hnext : next.loop = none
  · cases h with
    | closed => exact Net.written_closeListener _ _ hid
    | dismissed => exact Net.written_closeListener _ _ hid
    | barred _ _ hfails =>
        have hlinks := (Net.accepts_of_reception hfails).links
        rw [Net.written_closeListener _ _ (hlinks ▸ hid), Net.link, hlinks, Net.link]
    | stumbled hloop =>
        cases hloop.symm.trans hnext
    | retired hloop =>
        rw [Net.written_closeListener _ _ (by rwa [Net.length_changeLink]),
          Net.link_changeLink_of_ne _ _ (hother _ (session?_of_loop hloop))]
    | _ => cases hnext
  · rw [h.elsewhere hnext hother]

/-! ## The server as if it had not been called -/

/-- The server as if nobody had told it to stop. -/
def reopened (server : HealthServer) : HealthServer :=
  { server with running := true, signal := .ready, attached := true }

/-- The server was told to stop. -/
structure Dismissed (server : HealthServer) : Prop where
  running : server.running = false
  attached : server.attached = false
  signal : ∃ takesOne, server.signal = .given takesOne

/-- Once the loop is over, the server is as if it had never been opened. -/
theorem Dismissed.finishStop (h : server.Dismissed) (hnone : server.loop = none) :
    server.finishStop = { config := server.config } := by
  obtain ⟨config, running, address, signal, attached, loop, reported⟩ := server
  cases show loop = none from hnone
  cases show attached = false from h.attached
  cases show running = false from h.running
  rfl

theorem session?_reopened (server : HealthServer) : server.reopened.session? = server.session? :=
  rfl

/-- A turn that does not end the loop does not look at what the call changed. -/
theorem Turn.reopened (h : Turn now net server later next) (hserver : server.Dismissed)
    (hnext : next.loop ≠ none) : Turn now net server.reopened later next.reopened := by
  cases h with
  | opened _ hrunning => cases hserver.running.symm.trans hrunning
  | closed => exact absurd rfl hnext
  | dismissed => exact absurd rfl hnext
  | accepted hloop _ haccept => exact .accepted hloop nofun haccept
  | stumbled _ _ _ hrunning => cases hserver.running.symm.trans hrunning
  | barred => exact absurd rfl hnext
  | more hloop harrival hfeed => exact .more hloop harrival hfeed
  | heard hloop harrival hfeed => exact .heard hloop harrival hfeed
  | misheard hloop harrival hfeed => exact .misheard hloop harrival hfeed
  | ended hloop harrival => exact .ended hloop harrival
  | failed hloop harrival => exact .failed hloop harrival
  | expired hloop harrival hdeadline => exact .expired hloop harrival hdeadline
  | wrote hloop hwrite hcount hpart => exact .wrote hloop hwrite hcount hpart
  | answered _ _ _ hrunning => cases hserver.running.symm.trans hrunning
  | retired => exact absurd rfl hnext

/-- A server that was told to stop waits only for a request, or for room for the answer. -/
theorem Waits.reopened (h : Waits now net server) (hserver : server.Dismissed)
    (hfits : server.Fits) (hloop : server.loop ≠ none) : server.reopened.step now net = none := by
  cases h with
  | idle hnone => exact absurd hnone hloop
  | accepting _ hsignal =>
      obtain ⟨takesOne, hgiven⟩ := hserver.signal
      rw [hgiven] at hsignal
      rcases hsignal with hsignal | hsignal <;> cases hsignal
  | @reading _ visit _ _ hphase harrival hdeadline =>
      have hside : visit.side = .acceptor := (hfits visit (session?_of_loop hphase)).side
      have hthere : server.reopened.loop = _ := hphase
      simp only [HealthServer.step, hthere, Session.receive, hside, harrival,
        if_neg (Nat.not_le_of_lt hdeadline)]
  | @replying _ visit _ _ hphase hwrite hpart =>
      have hside : visit.side = .acceptor := (hfits visit (session?_of_loop hphase)).side
      have hthere : server.reopened.loop = _ := hphase
      simp only [HealthServer.step, hthere, Session.deliver, hside, hwrite,
        if_neg (Nat.not_le_of_lt hpart), if_true]

end HealthServer

namespace Service

variable {first scene later : Service} {holds : Service → Prop} {steps : Nat}

/-- The service as if nobody had told the server to stop. -/
def reopened (scene : Service) : Service :=
  { scene with server := scene.server.reopened }

/-- The service after a call that closes the server. -/
def closing (scene : Service) (takesOne : Bool) : Service :=
  { scene with server := scene.server.requestStop takesOne }

/-- What happens from a call that closes an open server to the return of the call, with the
number of steps of the server, through services that all meet a condition. -/
inductive Closing (holds : Service → Prop) (first : Service) : Nat → Service → Prop
  | call (takesOne : Bool) (hfirst : first.Within holds) :
      Closing holds first 0 (first.closing takesOne)
  | step {scene : Service} {steps : Nat} {net : Net} {server : HealthServer}
      (h : Closing holds first steps scene)
      (hstep : scene.server.step scene.now scene.net = some (net, server))
      (hlater : holds (scene.after net server)) :
      Closing holds first (steps + 1) (scene.after net server)
  | others {scene : Service} {steps : Nat} {net : Net} (h : Closing holds first steps scene)
      (hpending : scene.server.loop ≠ none) (hforeign : scene.net.Foreign scene.holdings net)
      (hlater : holds (scene.joined net).noted) :
      Closing holds first steps (scene.joined net).noted
  | wait {scene : Service} {steps : Nat} {now : Instant} (h : Closing holds first steps scene)
      (hpending : scene.server.loop ≠ none) (hwaits : scene.Waits) (hnow : scene.now ≤ now)
      (hwake : ∀ wake, scene.server.wake? = some wake → now ≤ wake)
      (hlater : holds { scene with now }) : Closing holds first steps { scene with now }

theorem Closing.mono {weaker : Service → Prop} (h : first.Closing holds steps scene)
    (hweaker : ∀ {scene}, holds scene → weaker scene) : first.Closing weaker steps scene := by
  have hwithin : ∀ {scene : Service}, scene.Within holds → scene.Within weaker := by
    intro scene hscene
    induction hscene with
    | begin now hstart hopen h => exact .begin now hstart hopen (hweaker h)
    | move _ hmove h ih => exact .move ih hmove (hweaker h)
  induction h with
  | call takesOne hfirst => exact .call takesOne (hwithin hfirst)
  | step _ hstep hlater ih => exact .step ih hstep (hweaker hlater)
  | others _ hpending hforeign hlater ih => exact .others ih hpending hforeign (hweaker hlater)
  | wait _ hpending hwaits hnow hwake hlater ih =>
      exact .wait ih hpending hwaits hnow hwake (hweaker hlater)

theorem Closing.within (h : first.Closing holds steps scene) : first.Within holds := by
  induction h with
  | call _ hfirst => exact hfirst
  | step _ _ _ ih => exact ih
  | others _ _ _ _ ih => exact ih
  | wait _ _ _ _ _ _ ih => exact ih

theorem after_reopened (scene : Service) (net : Net) (server : HealthServer) :
    (scene.after net server).reopened = scene.reopened.after net server.reopened := by
  obtain ⟨now, before, old, opened, listener, line, current, past⟩ := scene
  cases current <;> cases hsession : server.session? <;> cases line <;>
    simp [after, reopened, HealthServer.session?_reopened, hsession]

theorem closing_cases (hfirst : first.Sound) (takesOne : Bool) :
    (first.closing takesOne).server.Dismissed ∧ (first.closing takesOne).reopened = first := by
  obtain ⟨now, net, server, opened, listener, line, current, past⟩ := first
  obtain ⟨config, running, address, signal, attached, loop, reported⟩ := server
  cases show attached = true from hfirst.attached
  cases show running = true from hfirst.running
  cases show signal = .ready from hfirst.signal
  exact ⟨⟨rfl, rfl, takesOne, rfl⟩, rfl⟩

/-- Of the server, only the loop changes. -/
theorem Closing.keeps (h : first.Closing holds steps scene) :
    scene.server.Dismissed ∧ scene.server.Fits ∧ scene.server.config = first.server.config ∧
      scene.listener = first.listener := by
  induction h with
  | call takesOne hfirst =>
      have hsound := hfirst.reachable.sound
      have hrequest : first.server.requestStop takesOne =
          { first.server with running := false, signal := .given takesOne, attached := false } := by
        simp [HealthServer.requestStop, hsound.attached]
      refine ⟨(closing_cases hsound takesOne).1, ?_, ?_, rfl⟩
      · rw [closing, hrequest]
        exact hsound.fits
      · rw [closing, hrequest]
  | @step scene _ net server _ hstep _ ih =>
      obtain ⟨hdismissed, hfits, hconfig, hlistener⟩ := ih
      have hturn := HealthServer.turn_of_step hfits hstep
      have hserver := hturn.keeps
      rw [server_after, (listener_after scene net server).1]
      refine ⟨?_, hturn.fits hfits, ?_, hlistener⟩
      · rw [hserver]
        exact ⟨hdismissed.running, hdismissed.attached, hdismissed.signal⟩
      · rw [hserver]
        exact hconfig
  | others _ _ _ _ ih => exact ih
  | wait _ _ _ _ _ _ ih => exact ih

theorem Closing.turn (h : first.Closing holds steps scene) {net : Net} {server : HealthServer}
    (hstep : scene.server.step scene.now scene.net = some (net, server)) :
    scene.server.Turn scene.now scene.net net server :=
  HealthServer.turn_of_step h.keeps.2.1 hstep

/-- Until its loop is over, the service is one that is reached without the call, but for what
the server knows of it. -/
theorem Closing.twin (h : first.Closing holds steps scene)
    (hsame : ∀ {scene : Service}, holds scene → holds scene.reopened)
    (hloop : scene.server.loop ≠ none) : scene.reopened.Within holds := by
  induction h with
  | call takesOne hfirst =>
      rw [(closing_cases hfirst.reachable.sound takesOne).2]
      exact hfirst
  | @step scene _ net server h hstep hlater ih =>
      obtain ⟨hdismissed, hfits, _⟩ := h.keeps
      rw [server_after] at hloop
      have hpending := HealthServer.loop_of_step hstep
      have hturn := (h.turn hstep).reopened hdismissed hloop
      rw [after_reopened]
      refine .move (ih hpending) (.step (hturn.step hfits)) ?_
      rw [← after_reopened]
      exact hsame hlater
  | others h hpending hforeign hlater ih =>
      exact .move (ih hpending) (.others hforeign) (hsame hlater)
  | wait h hpending hwaits hnow hwake hlater ih =>
      obtain ⟨hdismissed, hfits, _⟩ := h.keeps
      refine .move (ih hpending) (.wait ?_ hnow hwake) (hsame hlater)
      exact (HealthServer.waits_of_step hfits hwaits).reopened hdismissed hfits hpending

theorem Closing.sound (h : first.Closing holds steps scene) (hloop : scene.server.loop ≠ none) :
    scene.reopened.Sound :=
  ((h.mono fun _ => trivial).twin id hloop).reachable.sound

end Service

end NodeHealth
