import NodeHealth.CommandLine.Program

/-!
# Trials of the whole program

A trial runs the program against a server and a client that follow scripts, on a clock that
jumps. The trial waits until the program has printed a text, then lets the client play,
waits for the server if it is told so, interrupts the program if it is told so, and waits
until the program ends.
-/

namespace NodeHealth

/-- An action of a scripted peer. -/
inductive PeerAction
  | write (bytes : Bytes)
  /-- Read so many bytes; what came before an early end counts only if `partially`. -/
  | readExactly (count : Nat) (partially : Bool)
  | finish
  | readToEnd
  | close
  deriving DecidableEq, Repr

/-- A peer that follows a script at one end of a connection, once it has one. -/
structure ScriptedPeer where
  side : Side
  link : Option LinkId := none
  actions : List PeerAction
  /-- What was read by the actions so far. -/
  got : Bytes := []
  /-- What the current action has read. -/
  reading : Bytes := []
  deriving DecidableEq, Repr

namespace ScriptedPeer

/-- Go on with the next action. -/
def next (peer : ScriptedPeer) (actions : List PeerAction) : ScriptedPeer :=
  { peer with actions, got := peer.got ++ peer.reading, reading := [] }

/-- Give up, keeping what the current action has read only if `partially`. -/
def stop (peer : ScriptedPeer) (partially : Bool) : ScriptedPeer :=
  { peer with
    actions := peer.actions.filter (· = .close)
    got := if partially then peer.got ++ peer.reading else peer.got
    reading := [] }

/-- Carry out one action, or a part of it; `none` if the peer waits or is done. -/
def stepOn (peer : ScriptedPeer) (net : Net) (link : LinkId) : Option (Net × ScriptedPeer) :=
  match peer.actions with
  | [] => none
  | .write bytes :: rest => some (net.apply (.write link peer.side bytes), peer.next rest)
  | .finish :: rest => some (net.apply (.finish link peer.side), peer.next rest)
  | .close :: rest => some (net.apply (.close link peer.side), peer.next rest)
  | .readToEnd :: rest =>
      match (net.link link).arrival peer.side with
      | .bytes unread =>
          some (net.apply (.read link peer.side unread.length),
            { peer with reading := peer.reading ++ unread })
      | .nothing => none
      | _ => some (net, peer.next rest)
  | .readExactly count partially :: rest =>
      let missing := count - peer.reading.length
      if missing = 0 then some (net, peer.next rest)
      else
        match (net.link link).arrival peer.side with
        | .bytes unread =>
            let bytes := unread.take missing
            some (net.apply (.read link peer.side bytes.length),
              { peer with reading := peer.reading ++ bytes })
        | .nothing => none
        | _ => some (net, peer.stop partially)

/-- Whether the peer has done all that it does. -/
def isDone (peer : ScriptedPeer) : Bool :=
  peer.actions.isEmpty

end ScriptedPeer

/-- What a trial does beside running the program. -/
structure TrialPlan where
  /-- The text on the output for which the trial waits. -/
  awaited : Option String := none
  /-- What the client does, once the text is there. -/
  client : Option (List PeerAction) := none
  /-- Wait for the server to be done. -/
  awaitServer : Bool := false
  interrupt : Bool := false
  deriving DecidableEq, Repr

/-- A trial under way. -/
structure Trial where
  program : Program
  /-- The listener of the scripted server. -/
  listener : Option ListenerId := none
  server : Option ScriptedPeer := none
  client : Option ScriptedPeer := none

namespace Trial

/-- Change the network. -/
def setNet (trial : Trial) (net : Net) : Trial :=
  { trial with program := { trial.program with world := { trial.program.world with net } } }

/-- Let the server accept a connection or carry out an action. -/
def stepServer (trial : Trial) : Option Trial := do
  let server ← trial.server
  let net := trial.program.world.net
  match server.link with
  | none => do
      let (link, net) ← trial.listener.bind net.accept?
      return { trial.setNet net with server := some { server with link := some link } }
  | some link => do
      let (net, server) ← server.stepOn net link
      return { trial.setNet net with server := some server }

/-- Let the client carry out an action. -/
def stepClient (trial : Trial) : Option Trial := do
  let client ← trial.client
  let (net, client) ← client.stepOn trial.program.world.net (← client.link)
  return { trial.setNet net with client := some client }

/-- Let the program or a peer do something that needs no time. -/
def step (trial : Trial) : Option Trial :=
  match trial.program.step with
  | some program => some { trial with program }
  | none => trial.stepServer.or trial.stepClient

/-- A trial that takes more milliseconds than this is given up. -/
def patience : Nat := 36000000

/-- Run until something is the case or nothing more happens, in at most so many turns. -/
def runUntil (goal : Trial → Bool) : (turns : Nat) → Trial → Trial
  | 0, trial => trial
  | turns + 1, trial =>
      if goal trial then trial
      else
        match trial.step with
        | some trial => runUntil goal turns trial
        | none =>
            if trial.program.code?.isSome then trial
            else
              match trial.program.world.wake? with
              | some instant =>
                  if instant ≤ patience then
                    let program := trial.program
                    let world := program.world.advanceTo instant
                    runUntil goal turns { trial with program := { program with world } }
                  else trial
              | none => trial

/-- More turns than any trial takes. -/
def maxTurns : Nat := 10000000

/-- Whether a text is a part of another. -/
def isPart (part : List Char) : List Char → Bool
  | [] => part.isEmpty
  | c :: rest => part.isPrefixOf (c :: rest) || isPart part rest

/-- Connect a client to the newest listener. -/
def connectClient (trial : Trial) (actions : List PeerAction) : Trial :=
  let net := trial.program.world.net
  if net.listeners = [] then trial
  else
    let (link, net) := net.enqueue (net.listeners.length - 1)
    { trial.setNet net with client := some { side := .dialler, link := some link, actions } }

/-- Whether a scripted peer holds an end of a connection. -/
def isPeerEnd (trial : Trial) (id : LinkId) (side : Side) : Bool :=
  [trial.server, trial.client].any fun peer =>
    peer.any fun peer => peer.link = some id ∧ peer.side = side

/-- When the program ends, its ends of connections are closed. -/
def closeAll (trial : Trial) : Trial :=
  let net := trial.program.world.net
  let closeEnd := fun (id : LinkId) (link : Link) (side : Side) =>
    if (link.endAt side).held ∧ ¬trial.isPeerEnd id side then link.close side else link
  let links := net.links.mapIdx fun id link =>
    closeEnd id (closeEnd id link .dialler) .acceptor
  trial.setNet { net with links }

/-- Carry out a plan. -/
def run (trial : Trial) (plan : TrialPlan) : Trial :=
  let printed := fun (trial : Trial) => match plan.awaited with
    | some text => isPart text.toList trial.program.output.toList
    | none => true
  let trial := trial.runUntil printed maxTurns
  let trial := match plan.client with
    | some actions =>
        (trial.connectClient actions).runUntil (·.client.all ScriptedPeer.isDone) maxTurns
    | none => trial
  let trial :=
    if plan.awaitServer then trial.runUntil (·.server.all ScriptedPeer.isDone) maxTurns else trial
  let trial :=
    if plan.interrupt then { trial with program := trial.program.interrupt } else trial
  let trial := trial.runUntil (fun _ => false) maxTurns
  trial.closeAll.runUntil (fun _ => false) maxTurns

end Trial

end NodeHealth
