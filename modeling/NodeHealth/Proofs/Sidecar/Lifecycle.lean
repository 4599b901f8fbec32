import NodeHealth.Proofs.Cnode.Stop
import NodeHealth.Proofs.Health.Turn
import NodeHealth.Sidecar

/-!
# The life of a sidecar

Between two calls a sidecar runs, or it is as it was made: `Reachable.running_or_fresh`.
Whatever its loop did before, and whatever the network is like, a sidecar that was told to
stop is as it was made once it has stopped: `Stops.eq_fresh`.

## Implementation notes

A sidecar is followed on its own, through any network and any time at each of its steps, so
that what holds of it holds in every group and beside anybody. A call that stops it is one
change from the call to its return. What a loop keeps is `Keeps`, whichever loop it is.

-/

namespace NodeHealth

namespace Sidecar

/-- A sidecar as it was made. -/
def fresh : Sidecar → Sidecar
  | health server => .health { config := server.config }
  | cnode client => .cnode { config := client.config }

/-- The sidecar holds on to a loop. -/
def attached : Sidecar → Bool
  | health server => server.attached
  | cnode client => client.attached

/-- The sidecar is enabled and has the address that it needs to run. A server that has none
does not start. -/
def Ready : Sidecar → Prop
  | health server => server.config.enable = true
  | cnode client => client.config.target? ≠ none

/-- The loop goes on for a while, whatever the network and the time are at each step. -/
inductive Runs (sidecar : Sidecar) : Sidecar → Prop
  | refl : Runs sidecar sidecar
  | step {middle next : Sidecar} {now : Instant} {net later : Net} (h : Runs sidecar middle)
      (hstep : middle.step now net = some (later, next)) : Runs sidecar next

/-- A call that stops a sidecar has returned, whether the sidecar has taken a connection that
waited at the very moment of the call or not. -/
inductive Stops (sidecar : Sidecar) : Sidecar → Prop
  | call {takesOne : Bool} {last : Sidecar} (hruns : (sidecar.requestStop takesOne).Runs last)
      (hdone : last.isStopping = false) : Stops sidecar last.finishStop

/-- A sidecar that is reached from a new one, in any network. -/
inductive Reachable : Sidecar → Prop
  | server (config : ServerConfig) : Reachable (.health { config })
  | client (config : CnodeConfig) : Reachable (.cnode { config })
  | start {sidecar : Sidecar} (h : Reachable sidecar) (net : Net) :
      Reachable (sidecar.start net).2.2
  | step {sidecar next : Sidecar} {now : Instant} {net later : Net} (h : Reachable sidecar)
      (hstep : sidecar.step now net = some (later, next)) : Reachable next
  | stop {sidecar last : Sidecar} (h : Reachable sidecar) (hstops : sidecar.Stops last) :
      Reachable last

/-- The session is one that the sidecar opened, and the flag is set as long as the sidecar holds
on to its loop. A server reports no failure that passes by itself, and a client without a loop
shows that it is stopped. -/
def Sound : Sidecar → Prop
  | health server => server.Fits ∧ server.running = server.attached ∧
      ∀ cause ∈ server.reported, cause.isTransient = false
  | cnode client => client.Fits ∧ client.running = client.attached ∧
      (client.loop = none → client.state = .stopped)

/-- What the loop of a sidecar leaves alone. -/
structure Keeps (sidecar later : Sidecar) : Prop where
  sound : sidecar.Sound → later.Sound
  attached : later.attached = sidecar.attached
  running : later.isRunning = sidecar.isRunning
  address : later.address? = sidecar.address?
  fresh : later.fresh = sidecar.fresh

variable {sidecar later last next : Sidecar} {now : Instant} {net net' : Net}

theorem Keeps.trans (h : sidecar.Keeps later) (h' : later.Keeps last) : sidecar.Keeps last where
  sound := fun hsound => h'.sound (h.sound hsound)
  attached := h'.attached.trans h.attached
  running := h'.running.trans h.running
  address := h'.address.trans h.address
  fresh := h'.fresh.trans h.fresh

theorem fresh_fresh (sidecar : Sidecar) : sidecar.fresh.fresh = sidecar.fresh := by
  cases sidecar <;> rfl

theorem isRunning_fresh (sidecar : Sidecar) : sidecar.fresh.isRunning = false := by
  cases sidecar <;> rfl

theorem address?_fresh (sidecar : Sidecar) : sidecar.fresh.address? = none := by
  cases sidecar <;> rfl

theorem isStopping_fresh (sidecar : Sidecar) : sidecar.fresh.isStopping = false := by
  cases sidecar <;> rfl

theorem requestStop_fresh (takesOne : Bool) (sidecar : Sidecar) :
    sidecar.fresh.requestStop takesOne = sidecar.fresh := by
  cases sidecar <;> rfl

theorem finishStop_fresh (sidecar : Sidecar) : sidecar.fresh.finishStop = sidecar.fresh := by
  cases sidecar <;> rfl

/-- A sidecar as it was made has no loop. -/
theorem step_fresh (sidecar : Sidecar) (now : Instant) (net : Net) :
    sidecar.fresh.step now net = none := by
  cases sidecar <;> rfl

theorem Sound.isRunning_eq (h : sidecar.Sound) : sidecar.isRunning = sidecar.attached := by
  cases sidecar with
  | health server => simp [isRunning, HealthServer.isListening, attached, h.2.1]
  | cnode client => simp [isRunning, CnodeClient.isRunning, attached, h.2.1]

/-! ## One change of a sidecar -/

theorem keeps_of_step (hsound : sidecar.Sound) (h : sidecar.step now net = some (net', next)) :
    sidecar.Keeps next := by
  cases sidecar with
  | health server =>
      simp only [step, Option.map_eq_some_iff, Prod.mk.injEq] at h
      obtain ⟨⟨_, server'⟩, hstep, _, rfl⟩ := h
      have hturn := HealthServer.turn_of_step hsound.1 hstep
      have hfits := hturn.fits hsound.1
      have hreports := hturn.reports hsound.2.2
      have hkeeps := hturn.keeps
      generalize server'.loop = loop, server'.reported = reported at hkeeps hreports
      subst hkeeps
      exact ⟨fun hsound => ⟨hfits, hsound.2.1, hreports⟩, rfl, rfl, rfl, rfl⟩
  | cnode client =>
      simp only [step, Option.map_eq_some_iff, Prod.mk.injEq] at h
      obtain ⟨⟨_, client'⟩, hstep, _, rfl⟩ := h
      have hturn := CnodeClient.turn_of_step hsound.1 hstep
      obtain ⟨hconfig, hrunning, hattached⟩ := hturn.keeps
      constructor
      case sound =>
        exact fun hsound => ⟨hturn.fits hsound.1,
          hrunning.trans (hsound.2.1.trans hattached.symm), hturn.stopped⟩
      case attached => exact hattached
      case running => simp [isRunning, CnodeClient.isRunning, hrunning, hattached]
      case address => rfl
      case fresh => simp [fresh, hconfig]

/-- A sidecar that fails to start is left as it is, and so is the network. -/
theorem start_of_error {error : SidecarError}
    (h : sidecar.start net = (.error error, net', next)) : net' = net ∧ next = sidecar := by
  cases sidecar with
  | health server =>
      simp only [start, HealthServer.start] at h
      split at h
      · cases h
        exact ⟨rfl, rfl⟩
      · split at h
        · cases h
        · split at h
          · cases h
            exact ⟨rfl, rfl⟩
          · split at h
            · cases h
              exact ⟨rfl, rfl⟩
            · cases h
  | cnode client =>
      simp only [start, CnodeClient.start] at h
      split at h
      · cases h
        exact ⟨rfl, rfl⟩
      · split at h <;> cases h

/-- A sidecar that starts did not run before. It is as it was, or it runs; and it runs if it
is ready. -/
theorem start_of_ok (h : sidecar.start net = (.ok (), net', next)) :
    sidecar.attached = false ∧ next.fresh = sidecar.fresh ∧ (sidecar.Sound → next.Sound) ∧
      (next = sidecar ∧ ¬sidecar.Ready ∨ next.isRunning = true ∧ next.attached = true) := by
  cases sidecar with
  | health server =>
      simp only [start, HealthServer.start] at h
      split at h
      · cases h
      · rename_i hattached
        rw [Bool.not_eq_true] at hattached
        split at h
        · rename_i henable
          cases h
          exact ⟨hattached, rfl, id, .inl ⟨rfl, henable⟩⟩
        · split at h
          · cases h
          · split at h
            · cases h
            · cases h
              exact ⟨hattached, rfl,
                fun hsound => ⟨HealthServer.fits_of_none rfl, rfl, hsound.2.2⟩, .inr ⟨rfl, rfl⟩⟩
  | cnode client =>
      simp only [start, CnodeClient.start] at h
      split at h
      · cases h
      · rename_i hattached
        rw [Bool.not_eq_true] at hattached
        split at h
        · rename_i htarget
          cases h
          rw [Option.isNone_iff_eq_none] at htarget
          exact ⟨hattached, rfl, id, .inl ⟨rfl, fun hready => hready htarget⟩⟩
        · cases h
          exact ⟨hattached, rfl,
            fun _ => ⟨CnodeClient.fits_of_none rfl, rfl, fun hnone => by cases hnone⟩,
            .inr ⟨rfl, rfl⟩⟩

/-- A sidecar that was told to stop holds on to no loop. -/
theorem requestStop_cases (takesOne : Bool) (sidecar : Sidecar) :
    (sidecar.requestStop takesOne).attached = false ∧
      (sidecar.requestStop takesOne).fresh = sidecar.fresh ∧
      (sidecar.Sound → (sidecar.requestStop takesOne).Sound) := by
  cases sidecar with
  | health server =>
      simp only [requestStop, HealthServer.requestStop]
      split
      · exact ⟨rfl, rfl, fun hsound => ⟨hsound.1, rfl, hsound.2.2⟩⟩
      · rename_i hattached
        rw [Bool.not_eq_true] at hattached
        exact ⟨hattached, rfl, id⟩
  | cnode client =>
      simp only [requestStop, CnodeClient.requestStop]
      split
      · exact ⟨rfl, rfl, fun hsound => ⟨hsound.1, rfl, hsound.2.2⟩⟩
      · rename_i hattached
        rw [Bool.not_eq_true] at hattached
        exact ⟨hattached, rfl, id⟩

/-- Without a loop there is nothing left of a sidecar but its configuration. -/
theorem finishStop_eq_fresh (hsound : sidecar.Sound) (hattached : sidecar.attached = false)
    (hdone : sidecar.isStopping = false) : sidecar.finishStop = sidecar.fresh := by
  cases sidecar with
  | health server =>
      obtain ⟨config, running, address, signal, attached, loop, reported⟩ := server
      cases hattached
      obtain ⟨_, hrunning, _⟩ := hsound
      cases hrunning
      simp only [isStopping, HealthServer.isStopping, Bool.not_false, Bool.true_and,
        Option.isSome_eq_false_iff, Option.isNone_iff_eq_none] at hdone
      subst hdone
      rfl
  | cnode client =>
      obtain ⟨config, running, state, attached, loop⟩ := client
      cases hattached
      obtain ⟨_, hrunning, hstate⟩ := hsound
      cases hrunning
      simp only [isStopping, CnodeClient.isStopping, Bool.not_false, Bool.true_and,
        Option.isSome_eq_false_iff, Option.isNone_iff_eq_none] at hdone
      subst hdone
      cases hstate rfl
      rfl

/-! ## Runs of a sidecar -/

theorem Runs.keeps (h : sidecar.Runs later) (hsound : sidecar.Sound) : sidecar.Keeps later := by
  induction h with
  | refl => exact ⟨id, rfl, rfl, rfl, rfl⟩
  | step _ hstep ih => exact ih.trans (keeps_of_step (ih.sound hsound) hstep)

/-- A sidecar that has stopped is as it was made. -/
theorem Stops.eq_fresh (h : sidecar.Stops last) (hsound : sidecar.Sound) :
    last = sidecar.fresh := by
  obtain @⟨takesOne, _, hruns, hdone⟩ := h
  obtain ⟨hattached, hfresh, hstill⟩ := requestStop_cases takesOne sidecar
  have hkeeps := hruns.keeps (hstill hsound)
  rw [finishStop_eq_fresh (hkeeps.sound (hstill hsound)) (hkeeps.attached.trans hattached) hdone]
  exact hkeeps.fresh.trans hfresh

theorem sound_fresh (sidecar : Sidecar) : sidecar.fresh.Sound := by
  cases sidecar with
  | health server => exact ⟨HealthServer.fits_of_none rfl, rfl, nofun⟩
  | cnode client => exact ⟨CnodeClient.fits_of_none rfl, rfl, fun _ => rfl⟩

theorem Reachable.sound (h : sidecar.Reachable) : sidecar.Sound := by
  induction h with
  | server config => exact sound_fresh (.health { config })
  | client config => exact sound_fresh (.cnode { config })
  | @start sidecar _ net ih =>
      cases hstart : sidecar.start net with
      | mk result rest =>
          obtain ⟨net', next⟩ := rest
          cases result with
          | error error =>
              rw [(start_of_error hstart).2]
              exact ih
          | ok done => exact (start_of_ok hstart).2.2.1 ih
  | step _ hstep ih => exact (keeps_of_step ih hstep).sound ih
  | @stop sidecar _ _ hstops ih =>
      rw [hstops.eq_fresh ih]
      exact sound_fresh sidecar

/-- No server reports a failure that passes by itself. -/
theorem Reachable.reports {server : HealthServer} (h : (health server).Reachable) :
    ∀ cause ∈ server.reported, cause.isTransient = false :=
  h.sound.2.2

/-- Between two calls a sidecar runs, or it is as it was made. -/
theorem Reachable.running_or_fresh (h : sidecar.Reachable) :
    sidecar.isRunning = true ∨ sidecar = sidecar.fresh := by
  induction h with
  | server config => exact .inr rfl
  | client config => exact .inr rfl
  | @start sidecar h net ih =>
      cases hstart : sidecar.start net with
      | mk result rest =>
          obtain ⟨net', next⟩ := rest
          cases result with
          | error error =>
              rw [(start_of_error hstart).2]
              exact ih
          | ok done =>
              rcases (start_of_ok hstart).2.2.2 with ⟨hsame, _⟩ | ⟨hrunning, _⟩
              · rw [hsame]
                exact ih
              · exact .inl hrunning
  | @step sidecar next now net later h hstep ih =>
      rcases ih with hrunning | hfresh
      · exact .inl ((keeps_of_step h.sound hstep).running.trans hrunning)
      · rw [hfresh, step_fresh] at hstep
        cases hstep
  | @stop sidecar _ h hstops _ =>
      rw [hstops.eq_fresh h.sound, fresh_fresh]
      exact .inr rfl

/-- A sidecar that starts was as it was made. -/
theorem Reachable.eq_fresh_of_start (h : sidecar.Reachable)
    (hstart : sidecar.start net = (.ok (), net', next)) : sidecar = sidecar.fresh := by
  rcases h.running_or_fresh with hrunning | hfresh
  · rw [h.sound.isRunning_eq, (start_of_ok hstart).1] at hrunning
    cases hrunning
  · exact hfresh

end Sidecar

end NodeHealth
