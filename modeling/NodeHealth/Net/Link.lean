import NodeHealth.Bytes
import NodeHealth.IoFailure

/-!
# Connections

A connection has two ends. Each remembers every byte that was written at it and how many of
the other end's bytes were taken from it, so that what lies in between is unread. Bytes
arrive at once and in order; an end may be half-closed, closed or aborted, and closing it
with unread bytes aborts the connection. An aborted connection reports its failure once at
the other end, unless that end had been told before that no more bytes come.
-/

namespace NodeHealth

/-- The two ends of a connection. -/
inductive Side
  | dialler
  | acceptor
  deriving DecidableEq, Repr

/-- The opposite end. -/
def Side.other : Side → Side
  | dialler => acceptor
  | acceptor => dialler

/-- One end of a connection. -/
structure End where
  /-- Every byte that was written here, in order. -/
  written : Bytes := []
  /-- How many bytes of the other end were taken here. -/
  taken : Nat := 0
  /-- No more bytes are written here, and the other end knows. -/
  finished : Bool := false
  /-- Somebody holds this end open. -/
  held : Bool := true
  /-- A failure that the next operation here reports. -/
  fault : Option IoCause := none
  /-- Nothing can be written here any more. -/
  broken : Bool := false
  /-- How many unread bytes this end holds, if there is a limit. -/
  room : Option Nat := none
  deriving DecidableEq, Repr

/-- A connection. -/
structure Link where
  dialler : End := {}
  acceptor : End := {}
  deriving DecidableEq, Repr

namespace Link

/-- The end at a side. -/
def endAt (link : Link) : Side → End
  | .dialler => link.dialler
  | .acceptor => link.acceptor

/-- Replace the end at a side. -/
def setEnd (link : Link) (side : Side) (value : End) : Link :=
  match side with
  | .dialler => { link with dialler := value }
  | .acceptor => { link with acceptor := value }

@[simp]
theorem endAt_setEnd (link : Link) (side : Side) (value : End) :
    (link.setEnd side value).endAt side = value := by
  cases side <;> rfl

@[simp]
theorem endAt_setEnd_other (link : Link) (side : Side) (value : End) :
    (link.setEnd side value).endAt side.other = link.endAt side.other := by
  cases side <;> rfl

@[simp]
theorem endAt_other_setEnd (link : Link) (side : Side) (value : End) :
    (link.setEnd side.other value).endAt side = link.endAt side := by
  cases side <;> rfl

/-- The bytes that have arrived at a side and were not taken yet. -/
def unread (link : Link) (side : Side) : Bytes :=
  (link.endAt side.other).written.drop (link.endAt side).taken

/-- What somebody who reads at a side finds. -/
inductive Arrival
  | bytes (unread : Bytes)
  /-- The other end writes no more. -/
  | ended
  | failed (cause : IoCause)
  | nothing
  deriving DecidableEq, Repr

/-- What there is to read at a side: unread bytes come before the end of the other side's
bytes, and that comes before a failure. -/
def arrival (link : Link) (side : Side) : Arrival :=
  match link.unread side with
  | byte :: rest => .bytes (byte :: rest)
  | [] =>
      if (link.endAt side.other).finished then .ended
      else
        match (link.endAt side).fault with
        | some cause => .failed cause
        | none => if (link.endAt side).broken then .ended else .nothing

/-- The bytes that are there to read are those that were not taken yet. -/
theorem unread_of_arrival {link : Link} {side : Side} {bytes : Bytes}
    (h : link.arrival side = .bytes bytes) : link.unread side = bytes := by
  unfold arrival at h
  split at h
  · rename_i byte rest hu
    cases h
    exact hu
  · split at h
    · cases h
    · split at h
      · cases h
      · split at h <;> cases h

theorem arrival_bytes {link : Link} {side : Side} {bytes : Bytes}
    (h : link.arrival side = .bytes bytes) : bytes ≠ [] := by
  rintro rfl
  have hunread := unread_of_arrival h
  simp only [arrival, hunread] at h
  split at h
  · cases h
  · split at h
    · cases h
    · split at h <;> cases h

theorem arrival_nothing {link : Link} {side : Side} (h : link.arrival side = .nothing) :
    link.unread side = [] := by
  unfold arrival at h
  split at h
  · cases h
  · assumption

theorem arrival_ended {link : Link} {side : Side} (h : link.arrival side = .ended) :
    link.unread side = [] ∧
      ((link.endAt side.other).finished = true ∨ (link.endAt side).broken = true) := by
  unfold arrival at h
  split at h
  · cases h
  · rename_i hunread
    refine ⟨hunread, ?_⟩
    split at h
    · rename_i hfinished
      exact .inl hfinished
    · split at h
      · cases h
      · split at h
        · rename_i hbroken
          exact .inr hbroken
        · cases h

theorem arrival_failed {link : Link} {side : Side} {cause : IoCause}
    (h : link.arrival side = .failed cause) :
    link.unread side = [] ∧ (link.endAt side).fault = some cause := by
  unfold arrival at h
  split at h
  · cases h
  · rename_i hunread
    refine ⟨hunread, ?_⟩
    split at h
    · cases h
    · split at h
      · rename_i hfault
        cases h
        exact hfault
      · split at h <;> cases h

/-- Take the next bytes that have arrived. -/
def take (link : Link) (side : Side) (count : Nat) : Link :=
  let here := link.endAt side
  link.setEnd side { here with taken := here.taken + count }

/-- Taking bytes leaves those behind them. -/
theorem unread_take (link : Link) (side : Side) (count : Nat) :
    (link.take side count).unread side = (link.unread side).drop count := by
  simp [unread, take, List.drop_drop]

/-- Report the failure at a side, which is then forgotten. -/
def report (link : Link) (side : Side) : Link :=
  link.setEnd side { link.endAt side with fault := none }

/-- How many of `wanted` bytes can be written at a side at once. -/
def writable (link : Link) (side : Side) (wanted : Nat) : Nat :=
  let there := link.endAt side.other
  match there.room with
  | none => wanted
  | some room =>
      if there.held then min wanted (room - (link.unread side.other).length) else wanted

/-- If none of some bytes can be written, no byte can. -/
theorem writable_one_of_none {link : Link} {side : Side} {wanted : Nat} (hwanted : 0 < wanted)
    (h : link.writable side wanted = 0) : link.writable side 1 = 0 := by
  simp only [writable] at h ⊢
  split at h
  · omega
  · split at h
    · rename_i hheld
      rw [if_pos hheld]
      omega
    · omega

/-- What became of bytes that were to be written. -/
inductive Delivery
  /-- So many of them were written. -/
  | wrote (count : Nat)
  | failed (cause : IoCause)
  deriving DecidableEq, Repr

/-- Write as many bytes as there is room for. Writing to an end that is closed succeeds
once; writing at an end that writes no more fails. -/
def write (link : Link) (side : Side) (bytes : Bytes) : Delivery × Link :=
  let here := link.endAt side
  match here.fault with
  | some cause => (.failed cause, link.report side)
  | none =>
      if here.broken || here.finished then (.failed .brokenPipe, link)
      else
        let count := link.writable side bytes.length
        (.wrote count,
          link.setEnd side
            { here with
              written := here.written ++ bytes.take count
              broken := !(link.endAt side.other).held })

/-- What is written at an end that is open, and whether that breaks it. -/
theorem write_wrote_eq {link later : Link} {side : Side} {bytes : Bytes} {count : Nat}
    (h : link.write side bytes = (.wrote count, later)) :
    later = link.setEnd side
        { link.endAt side with
          written := (link.endAt side).written ++ bytes.take count
          broken := !(link.endAt side.other).held } ∧
      (link.endAt side).fault = none ∧ (link.endAt side).broken = false ∧
      count = link.writable side bytes.length := by
  simp only [write] at h
  split at h
  · cases h
  · rename_i hfault
    split at h
    · cases h
    · rename_i hopen
      simp only [Bool.or_eq_true, not_or, Bool.not_eq_true] at hopen
      cases h
      exact ⟨rfl, hfault, hopen.1, rfl⟩

/-- Writing fails with a failure that is pending, or because an end is closed. -/
theorem write_failed_cases {link later : Link} {side : Side} {bytes : Bytes} {cause : IoCause}
    (h : link.write side bytes = (.failed cause, later)) :
    ((link.endAt side).fault = some cause ∧ later = link.report side) ∨
      ((link.endAt side).broken = true ∨ (link.endAt side).finished = true) ∧
        cause = .brokenPipe ∧ later = link := by
  simp only [write] at h
  split at h
  · rename_i hfault
    cases h
    exact .inl ⟨hfault, rfl⟩
  · split at h
    · rename_i hclosed
      cases h
      rw [Bool.or_eq_true] at hclosed
      exact .inr ⟨hclosed, rfl, rfl⟩
    · cases h

/-- Write no more at a side. -/
def finish (link : Link) (side : Side) : Link :=
  link.setEnd side { link.endAt side with finished := true }

/-- Let go of a side. -/
def release (link : Link) (side : Side) : Link :=
  link.setEnd side { link.endAt side with held := false }

/-- Abort the connection from a side. The other end learns of it by a failure, unless it
knows already that no more bytes come. -/
def abort (link : Link) (side : Side) : Link :=
  let there := link.endAt side.other
  let told := (link.endAt side).finished
  let link := link.setEnd side.other
    { there with
      broken := true
      fault := if told then there.fault else some .connectionReset }
  link.release side

/-- Close a side; with unread bytes that aborts the connection. -/
def close (link : Link) (side : Side) : Link :=
  if link.unread side = [] then (link.finish side).release side else link.abort side

/-- Take all that has arrived and close a side. -/
def hangUp (link : Link) (side : Side) : Link :=
  (link.take side (link.unread side).length).close side

end Link

end NodeHealth
