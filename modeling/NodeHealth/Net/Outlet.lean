import NodeHealth.Net.Network

/-!
# Outlets

An outlet remembers how much of what was written at one end of a connection has been carried
to a place outside the network. `due` says what is still to be carried there.
-/

namespace NodeHealth

/-- One end of a connection, and what has been carried out from it. -/
structure Outlet where
  link : LinkId
  side : Side
  /-- Number of bytes that have been carried out. -/
  sent : Nat := 0
  /-- It has been told that no more bytes come. -/
  finished : Bool := false
  deriving DecidableEq, Repr

namespace Outlet

/-- The end that is looked at. -/
def source (outlet : Outlet) (net : Net) : End :=
  (net.link outlet.link).endAt outlet.side

/-- The bytes that are still to be carried out. -/
def due (outlet : Outlet) (net : Net) : Bytes :=
  (outlet.source net).written.drop outlet.sent

/-- Whether it is still to be told that no more bytes come. -/
def isEnding (outlet : Outlet) (net : Net) : Bool :=
  let source := outlet.source net
  !outlet.finished && (source.finished || !source.held)

/-- The outlet after all that was due has been carried out. -/
def caughtUp (outlet : Outlet) (net : Net) : Outlet :=
  { outlet with
    sent := (outlet.source net).written.length
    finished := outlet.finished || outlet.isEnding net }

end Outlet

end NodeHealth
