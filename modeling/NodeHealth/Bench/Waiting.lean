import NodeHealth.Bench.Basic

/-!
# Waiting on a bench

While a step waits, the world goes on and its clock jumps from one instant at which
something happens to the next. A step that nothing would ever end is given up after ten
hours.
-/

namespace NodeHealth.Bench

/-- How far a wait has come. -/
inductive Outcome
  | blocked
  | advanced (bench : Bench) (wait : Wait)
  | done (answer : BenchAnswer) (bench : Bench)

/-- Read at a peer. -/
def pollRead (bench : Bench) (peer : Peer) (missing : Option Nat) (got : Bytes)
    (deadline : Instant) : Outcome :=
  if missing = some 0 then .done (.bytes got .full) bench
  else
    match (bench.world.net.link peer.link).arrival peer.side with
    | .bytes unread =>
        let next := match missing with
          | some missing => unread.take missing
          | none => unread
        .advanced (bench.changeNet (·.apply (.read peer.link peer.side next.length)))
          (.read peer (missing.map (· - next.length)) (got ++ next) deadline)
    | .nothing =>
        if deadline ≤ bench.world.now then .done (.bytes got .timeout) bench else .blocked
    | _ => .done (.bytes got .closed) (bench.changeNet (·.apply (.read peer.link peer.side 0)))

/-- Go on with what was asked of the session. -/
def pollCall (bench : Bench) (session : Session) (request : Session.Request)
    (call : Session.Call) : Outcome :=
  match session.poll bench.world.now bench.world.net call with
  | .done (net, session, answer) =>
      .done (.ofSession answer)
        { bench with world := { bench.world with net }, session := some session }
  | .advanced (net, call) =>
      .advanced { bench with world := { bench.world with net } } (.call request call)
  | .blocked => .blocked

/-- The result of the background call. -/
def pollResult (bench : Bench) (deadline : Instant) : Outcome :=
  let result := bench.call.bind fun (id, kind) =>
    ((bench.world.task? id).bind callResult?).map fun result =>
      if kind = .detached then .finished else result
  match result with
  | some result => .done (.result result) bench
  | none => if deadline ≤ bench.world.now then .done .pending bench else .blocked

/-- Accept a connection at the scripted listener. -/
def pollAccept (bench : Bench) (name : String) (deadline : Instant) : Outcome :=
  match bench.listener.bind bench.world.net.accept? with
  | some (link, net) =>
      .done (.accepted true)
        ({ bench with world := { bench.world with net } }.namePeer name ⟨link, .acceptor⟩)
  | none =>
      if deadline ≤ bench.world.now then .done (.accepted false) bench else .blocked

/-- See how far a wait has come. -/
def poll (bench : Bench) : Wait → Outcome
  | .sleep wake => if wake ≤ bench.world.now then .done .ok bench else .blocked
  | .accept name deadline => bench.pollAccept name deadline
  | .read peer missing got deadline => bench.pollRead peer missing got deadline
  | .result deadline => bench.pollResult deadline
  | .call request call =>
      match bench.session with
      | some session => bench.pollCall session request call
      | none => .done (.ofSession (request.failed .closed)) bench
  | .dial dial =>
      match dial.outcome? bench.world.now bench.world.net with
      | some (net, .ok link) =>
          .done (.dialled (.ok ()))
            { bench with
              world := { bench.world with net := net.changeLink link (·.close .dialler) } }
      | some (net, .error error) =>
          .done (.dialled (.error error)) { bench with world := { bench.world with net } }
      | none => .blocked
  | .closeHealth =>
      match bench.health? with
      | some (id, server) =>
          if server.isStopping then .blocked
          else .done .ok (bench.setTask id (.health server.finishStop))
      | none => .done .ok bench
  | .stopCnode =>
      match bench.cnode? with
      | some (_, client) => if client.isStopping then .blocked else .done .ok bench
      | none => .done .ok bench
  | .group answer =>
      match bench.group? with
      | some (_, members) => if members.isStopping then .blocked else .done answer bench
      | none => .done answer bench

/-- When a wait is over even if nothing happens. -/
def wake? : Wait → Option Instant
  | .sleep wake => some wake
  | .accept _ deadline => some deadline
  | .read _ _ _ deadline => some deadline
  | .result deadline => some deadline
  | .call _ call => call.deadline?
  | .dial dial => some dial.deadline
  | _ => none

/-- A wait is given up. -/
def giveUp (bench : Bench) : Wait → Bench
  | .group _ =>
      match bench.group? with
      | some (id, members) =>
          bench.setTask id (.group { members with toStop := [], told := false })
      | none => bench
  | _ => bench

/-- Let everything happen that needs no time. -/
def settle (bench : Bench) : Bench :=
  { bench with world := bench.world.settle }

/-- Nothing more happens in time. -/
def hang (bench : Bench) (wait : Wait) (limit : Instant) : BenchAnswer × Bench :=
  let bench := bench.giveUp wait
  (.hang, { bench with world := bench.world.advanceTo limit })

/-- Let a wait end, at `limit` at the latest; `turns` bounds how often the clock jumps or the
wait goes on. -/
def awaitUntil (limit : Instant) : (turns : Nat) → Bench → Wait → BenchAnswer × Bench
  | 0, bench, wait => bench.hang wait limit
  | turns + 1, bench, wait =>
      let bench := bench.settle
      match bench.poll wait with
      | .done answer bench => (answer, bench)
      | .advanced bench wait => awaitUntil limit turns bench wait
      | .blocked =>
          match earliest (wake? wait) bench.world.wake? with
          | some instant =>
              if instant ≤ limit then
                let world := bench.world.advanceTo instant
                awaitUntil limit turns { bench with world } wait
              else bench.hang wait limit
          | none => bench.hang wait limit

/-- More turns than any wait takes. -/
def maxTurns : Nat := 100000000

/-- Let a wait end. -/
def await (bench : Bench) (wait : Wait) : BenchAnswer × Bench :=
  awaitUntil (bench.world.now + patience) maxTurns bench wait

end NodeHealth.Bench
