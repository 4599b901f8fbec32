/-!
# Stop flags

A loop runs as long as its flag is set. Handles on a flag can be copied, and all copies
show the same value.
-/

namespace NodeHealth

/-- A handle on a flag: the number of the flag it shows. -/
structure RunningFlag where
  number : Nat
  deriving DecidableEq, Repr

/-- The values of all flags, by number. -/
abbrev FlagTable := List Bool

namespace FlagTable

/-- A further flag, which is not set. -/
def create (table : FlagTable) : RunningFlag × FlagTable :=
  (⟨table.length⟩, table ++ [false])

/-- Whether a flag is set. -/
def isSet (table : FlagTable) (flag : RunningFlag) : Bool :=
  table[flag.number]?.getD false

/-- Give a flag a value, for all handles on it. -/
def assign (table : FlagTable) (flag : RunningFlag) (value : Bool) : FlagTable :=
  table.set flag.number value

end FlagTable

end NodeHealth
