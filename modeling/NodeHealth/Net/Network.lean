import NodeHealth.Net.Address
import NodeHealth.Net.Link

/-!
# The network

Connections, attempts to make one, and listeners, each known by its number in the order of
creation. The network has no latency: an attempt on an address at which somebody listens
succeeds at once, and the connection waits there until it is accepted. What others than the
program do is a `Net.Event`.

A network may be the whole machine, or the program's view of one: then an attempt on an
address at which nobody is known to listen waits for an event that answers it. A host that is
not an address is looked up by others, who may take their time.
-/

namespace NodeHealth

/-- The number of a connection. -/
abbrev LinkId := Nat

/-- The number of an attempt to connect. -/
abbrev AttemptId := Nat

/-- The number of a listener. -/
abbrev ListenerId := Nat

/-- What became of an attempt to connect. -/
inductive Attempt
  /-- The host is being looked up. -/
  | resolving (host : String) (port : UInt16)
  /-- Nobody has answered yet. -/
  | waiting (target : SocketAddress)
  | connected (link : LinkId)
  | failed (cause : IoCause)
  /-- The host has no address. -/
  | unresolved (failure : IoFailure)
  /-- Whoever made the attempt has given up. -/
  | abandoned
  deriving DecidableEq, Repr

namespace Attempt

/-- Whether nobody has answered at the address that an attempt is made on. -/
def isUnanswered : Attempt → Bool
  | waiting _ => true
  | _ => false

/-- The host that is being looked up for an attempt. -/
def host? : Attempt → Option String
  | resolving host _ => some host
  | _ => none

/-- Whether an attempt has no outcome yet. -/
def isWaiting : Attempt → Bool
  | resolving _ _ => true
  | waiting _ => true
  | _ => false

/-- Why an attempt was refused, if it was. -/
def refusal? : Attempt → Option IoFailure
  | failed cause => some (.ofSystem cause)
  | unresolved failure => some failure
  | _ => none

theorem isWaiting_of_isUnanswered {attempt : Attempt} (h : attempt.isUnanswered = true) :
    attempt.isWaiting = true := by
  cases attempt <;> first | rfl | cases h

end Attempt

/-- The address that is dialled for a host and a port once its addresses are known: the first
of them. -/
def firstAddress (host : String) (port : UInt16) :
    Except IoFailure (List IpAddress) → Except IoFailure SocketAddress
  | .error failure => .error failure
  | .ok [] => .error ⟨.notFound, "Could not resolve host: " ++ host⟩
  | .ok (ip :: _) => .ok ⟨ip, port⟩

/-- How a listener meets attempts. -/
inductive Reception
  | accepts
  /-- It never answers. -/
  | ignores
  deriving DecidableEq, Repr

/-- A listener and the connections that wait there to be accepted, oldest first. -/
structure Listener where
  address : SocketAddress
  reception : Reception := .accepts
  queue : List LinkId := []
  isOpen : Bool := true
  /-- Failures that accepting reports before it takes a connection. -/
  hindrances : List IoCause := []
  deriving DecidableEq, Repr

/-- All connections, attempts and listeners that there have been, and the port that is
tried first for a listener that asks for any. -/
structure Net where
  links : List Link := []
  attempts : List Attempt := []
  listeners : List Listener := []
  nextPort : Nat := 49152
  /-- Nobody listens on the machine but the listeners known here. -/
  isWhole : Bool := true
  /-- Addresses at which listening fails, and why. -/
  unusable : List (SocketAddress × IoCause) := []
  deriving DecidableEq, Repr

/-- Whether an address belongs to the machine itself. -/
def IpAddress.isLocal : IpAddress → Bool
  | v4 a b c d => a = 127 ∨ (a = 0 ∧ b = 0 ∧ c = 0 ∧ d = 0)
  | v6 groups =>
      groups.toList = List.replicate 8 0 ∨ groups.toList = List.replicate 7 0 ++ [1]

/-- Whether an address stands for all addresses of the machine. -/
def IpAddress.isUnspecified : IpAddress → Bool
  | v4 a b c d => a = 0 ∧ b = 0 ∧ c = 0 ∧ d = 0
  | v6 groups => groups.toList = List.replicate 8 0

/-- Whether an address has eight groups. -/
def IpAddress.isLong : IpAddress → Bool
  | v4 _ _ _ _ => false
  | v6 _ => true

/-- The address that is reached by dialling an address: for one that stands for all addresses
of the machine, the machine itself. -/
def IpAddress.destination (ip : IpAddress) : IpAddress :=
  if ip.isUnspecified then (if ip.isLong then .v6 #v[0, 0, 0, 0, 0, 0, 0, 1] else .loopback) else ip

/-- Whether whoever listens at an address listens at another one as well. The long address that
stands for all includes the short ones. -/
def IpAddress.covers (ip other : IpAddress) : Bool :=
  ip = other || ip.isUnspecified && (ip.isLong || !other.isLong)

namespace Listener

/-- Whether attempts on an address reach a listener. -/
def hears (listener : Listener) (target : SocketAddress) : Bool :=
  listener.isOpen && listener.address.port = target.port &&
    listener.address.ip.covers target.ip.destination

/-- Whether a listener leaves no room for another one at an address. -/
def occupies (listener : Listener) (address : SocketAddress) : Bool :=
  listener.isOpen && listener.address.port = address.port &&
    (listener.address.ip.covers address.ip || address.ip.covers listener.address.ip)

end Listener

namespace Net

/-! ## Connections -/

/-- A connection by its number. -/
def link (net : Net) (id : LinkId) : Link :=
  net.links[id]?.getD {}

/-- Change a connection. -/
def changeLink (net : Net) (id : LinkId) (change : Link → Link) : Net :=
  { net with links := net.links.set id (change (net.link id)) }

/-- A connection that exists is as it was changed. -/
theorem link_changeLink (net : Net) (id : LinkId) (change : Link → Link)
    (h : id < net.links.length) : (net.changeLink id change).link id = change (net.link id) := by
  simp [link, changeLink, h]

/-- Changing a connection changes no other. -/
theorem link_changeLink_of_ne (net : Net) {id other : LinkId} (change : Link → Link)
    (h : id ≠ other) : (net.changeLink id change).link other = net.link other := by
  simp [link, changeLink, h]

/-- Add a connection. -/
def addLink (net : Net) (link : Link) : LinkId × Net :=
  (net.links.length, { net with links := net.links ++ [link] })

/-! ## Listeners -/

/-- A listener by its number. -/
def listener? (net : Net) (id : ListenerId) : Option Listener :=
  net.listeners[id]?

/-- Change a listener. -/
def changeListener (net : Net) (id : ListenerId) (change : Listener → Listener) : Net :=
  { net with listeners := net.listeners.modify id change }

/-- Why nobody can listen at an address, if that is so: it is no address of the machine, or
somebody listens there already. -/
def refusal? (net : Net) (address : SocketAddress) : Option IoCause :=
  if net.isWhole ∧ ¬address.ip.isLocal then some .addressNotAvailable
  else if net.listeners.any (·.occupies address) then some .addressInUse
  else net.unusable.lookup address

/-- The first of the ports that are given to whoever asks for any. -/
def firstFreePort : Nat := 49152

/-- The number of ports. -/
def portCount : Nat := 65536

/-- The ports that are given to whoever asks for any, in the order in which they are tried. -/
def freePorts (net : Net) : List Nat :=
  List.range' net.nextPort (portCount - net.nextPort) ++
    List.range' firstFreePort (net.nextPort - firstFreePort)

/-- The address at which whoever wants to listen at an address does so. Port 0 stands for any
port at which somebody can. -/
def place (net : Net) (address : SocketAddress) : Except IoCause SocketAddress :=
  match net.refusal? address with
  | some cause => .error cause
  | none =>
      if address.port = 0 then
        match net.freePorts.find? fun port =>
            UInt16.ofNat port ≠ 0 ∧ net.refusal? ⟨address.ip, UInt16.ofNat port⟩ = none with
        | some port => .ok ⟨address.ip, UInt16.ofNat port⟩
        | none => .error .addressInUse
      else .ok address

/-- Listen at an address. -/
def listen (net : Net) (address : SocketAddress) (reception : Reception := .accepts) :
    Except IoCause (ListenerId × Net) :=
  match net.place address with
  | .error cause => .error cause
  | .ok wanted =>
      .ok (net.listeners.length,
        { net with
          listeners := net.listeners ++ [{ address := wanted, reception }]
          nextPort := if address.port = 0 then wanted.port.toNat + 1 else net.nextPort })

/-- The address of a listener. -/
def addressOf? (net : Net) (id : ListenerId) : Option SocketAddress :=
  (net.listener? id).map Listener.address

/-- Close a listener; connections that were not accepted are aborted. -/
def closeListener (net : Net) (id : ListenerId) : Net :=
  match net.listener? id with
  | none => net
  | some listener =>
      let net := listener.queue.foldl
        (fun net link => net.changeLink link (·.abort .acceptor)) net
      net.changeListener id ({ · with isOpen := false, queue := [] })

/-- The connection that has waited longest at a listener, if one waits. -/
def accept? (net : Net) (id : ListenerId) : Option (LinkId × Net) :=
  match net.listener? id with
  | some { queue := link :: rest, .. } =>
      some (link, net.changeListener id ({ · with queue := rest }))
  | _ => none

/-- What somebody gets who wants to accept at a listener: a failure if there is one to report,
or the connection that has waited longest; `none` if there is neither. -/
def reception? (net : Net) (id : ListenerId) : Option (Net × Except IoCause LinkId) :=
  match net.listener? id with
  | some { hindrances := cause :: rest, .. } =>
      some (net.changeListener id ({ · with hindrances := rest }), .error cause)
  | _ => (net.accept? id).map fun (link, net) => (net, .ok link)

/-! ## Attempts -/

/-- An attempt by its number. -/
def attempt (net : Net) (id : AttemptId) : Attempt :=
  net.attempts[id]?.getD .abandoned

/-- Add a connection and let it wait at a listener. -/
def enqueue (net : Net) (id : ListenerId) : LinkId × Net :=
  let (link, net) := net.addLink {}
  (link, net.changeListener id fun listener => { listener with queue := listener.queue ++ [link] })

/-- What becomes of an attempt on an address. -/
def answer (net : Net) (target : SocketAddress) : Attempt × Net :=
  match net.listeners.findIdx? (·.hears target) with
  | none =>
      if net.isWhole ∧ target.ip.isLocal then (.failed .connectionRefused, net)
      else (.waiting target, net)
  | some id =>
      match net.listener? id with
      | some { reception := .accepts, .. } =>
          let (link, net) := net.enqueue id
          (.connected link, net)
      | _ => (.waiting target, net)

/-- Make an attempt on an address. -/
def dial (net : Net) (target : SocketAddress) : AttemptId × Net :=
  let (outcome, net) := net.answer target
  (net.attempts.length, { net with attempts := net.attempts ++ [outcome] })

/-- Make an attempt on a host. One that is not an address has to be looked up first. -/
def seek (net : Net) (host : String) (port : UInt16) : AttemptId × Net :=
  match IpAddress.parse? host with
  | some ip => net.dial ⟨ip, port⟩
  | none => (net.attempts.length, { net with attempts := net.attempts ++ [.resolving host port] })

/-- Give an attempt an outcome. -/
def settleAttempt (net : Net) (id : AttemptId) (outcome : Attempt) : Net :=
  { net with attempts := net.attempts.set id outcome }

/-- Give up an attempt. -/
def abandon (net : Net) (id : AttemptId) : Net :=
  net.settleAttempt id .abandoned

/-! ## What others do -/

/-- Something that somebody outside the program does. -/
inductive Event
  /-- Connect to a listener. -/
  | connect (listener : ListenerId)
  /-- Accept the oldest connection at a listener. -/
  | accept (listener : ListenerId)
  | write (link : LinkId) (side : Side) (bytes : Bytes)
  /-- Read so many bytes, or all that there are. -/
  | read (link : LinkId) (side : Side) (count : Nat)
  | finish (link : LinkId) (side : Side)
  | close (link : LinkId) (side : Side)
  | hangUp (link : LinkId) (side : Side)
  | abort (link : LinkId) (side : Side)
  /-- Answer an attempt that is waiting, by a new connection or by a failure. -/
  | establish (attempt : AttemptId)
  | refuse (attempt : AttemptId) (cause : IoCause)
  /-- Tell the addresses of the host that an attempt is made on, or that there are none. -/
  | resolve (attempt : AttemptId) (found : Except IoFailure (List IpAddress))
  /-- Let accepting fail at a listener. -/
  | hinder (listener : ListenerId) (cause : IoCause)

/-- The network after somebody did something. -/
def apply (net : Net) : Event → Net
  | .connect listener => (net.enqueue listener).2
  | .accept listener =>
      match net.accept? listener with
      | some (_, net) => net
      | none => net
  | .write link side bytes => net.changeLink link fun l => (l.write side bytes).2
  | .read link side count =>
      net.changeLink link fun l =>
        match l.arrival side with
        | .failed _ => l.report side
        | _ => l.take side (min count (l.unread side).length)
  | .finish link side => net.changeLink link (·.finish side)
  | .close link side => net.changeLink link (·.close side)
  | .hangUp link side => net.changeLink link (·.hangUp side)
  | .abort link side => net.changeLink link (·.abort side)
  | .establish attempt =>
      if (net.attempt attempt).isUnanswered then
        let (link, net) := net.addLink {}
        net.settleAttempt attempt (.connected link)
      else net
  | .refuse attempt cause =>
      if (net.attempt attempt).isUnanswered then net.settleAttempt attempt (.failed cause)
      else net
  | .resolve attempt found =>
      match net.attempt attempt with
      | .resolving host port =>
          match firstAddress host port found with
          | .ok target =>
              let (outcome, net) := net.answer target
              net.settleAttempt attempt outcome
          | .error failure => net.settleAttempt attempt (.unresolved failure)
      | _ => net
  | .hinder listener cause =>
      net.changeListener listener fun listener =>
        { listener with hindrances := listener.hindrances ++ [cause] }

end Net

end NodeHealth
