/-!
# Reconnect delays

The delay before the next attempt doubles with every attempt and stays at a cap once it
reaches it. Delays are words of 64 bits, and doubling saturates.
-/

namespace NodeHealth

/-- Twice a word, or the largest word if that is more. -/
def saturatingDouble (word : UInt64) : UInt64 :=
  if word.toNat * 2 < UInt64.size then word * 2 else UInt64.ofNat (UInt64.size - 1)

/-- A schedule of delays in whole seconds. -/
structure Backoff where
  cap : UInt64
  current : UInt64
  deriving DecidableEq, Repr

namespace Backoff

/-- The schedule that begins at `initial` seconds, but at one at least and at the cap at
most; the cap itself is one second at least. -/
def ofLimits (initial cap : UInt64) : Backoff :=
  let cap := max cap 1
  ⟨cap, max 1 (min initial cap)⟩

/-- The schedule after one more delay. -/
def advance (backoff : Backoff) : Backoff :=
  { backoff with current := min (saturatingDouble backoff.current) backoff.cap }

/-- The delays of the next `count` attempts and the one after them. -/
def delays (backoff : Backoff) : (count : Nat) → List UInt64
  | 0 => [backoff.current]
  | count + 1 => backoff.current :: backoff.advance.delays count

end Backoff

end NodeHealth
