import NodeHealth.Proofs.Net.Acts

/-!
# The script of the other end

Whoever reads at one end of a connection comes upon the bytes that are there, then those that
the other end is still going to write, and then upon what the other end leaves behind. This
`Outlook` is a function of the connection and of the deeds that the other end has still to
do. A deed that is done, and whatever else others do, leaves it as it is; taking bytes takes
them off its front.

## Implementation notes

The deeds of the other end are events of the network. They are given a form of their own, for
one connection, so that a script can be carried out on the connection alone.

The outlook is independent of when bytes are taken because a reader that holds its end open
is never noticed by the other end. That is what `Link.Lively` says, and every connection that
somebody has used only to read, to write and to wait is lively.

-/

namespace NodeHealth

/-! ## Deeds -/

/-- One thing that is done at an end of a connection by whoever holds it. -/
inductive Deed
  | write (bytes : Bytes)
  | read (count : Nat)
  | finish
  | close
  | hangUp
  | abort
  deriving DecidableEq, Repr

/-- A deed as an event of the network. -/
def Deed.event (link : LinkId) (side : Side) : Deed → Net.Event
  | write bytes => .write link side bytes
  | read count => .read link side count
  | finish => .finish link side
  | close => .close link side
  | hangUp => .hangUp link side
  | abort => .abort link side

/-- What a deed does to its connection. -/
def Deed.act (link : Link) (side : Side) : Deed → Link
  | write bytes => (link.write side bytes).2
  | read count =>
      match link.arrival side with
      | .failed _ => link.report side
      | _ => link.take side (min count (link.unread side).length)
  | finish => link.finish side
  | close => link.close side
  | hangUp => link.hangUp side
  | abort => link.abort side

/-- A deed is done, unless its end has been let go of. -/
def Link.perform (link : Link) (side : Side) (deed : Deed) : Link :=
  if (link.endAt side).held then deed.act link side else link

/-- Deeds are done one after the other. -/
def Link.performAll (link : Link) (side : Side) (deeds : List Deed) : Link :=
  deeds.foldl (·.perform side ·) link

/-- A deed is done in the network, unless its end has been let go of. -/
def Net.perform (net : Net) (id : LinkId) (side : Side) (deed : Deed) : Net :=
  if ((net.link id).endAt side).held then net.apply (deed.event id side) else net

theorem Deed.apply_event (deed : Deed) (net : Net) (id : LinkId) (side : Side) :
    net.apply (deed.event id side) = net.changeLink id (deed.act · side) := by
  cases deed <;> rfl

theorem Net.link_perform (net : Net) {id : LinkId} (hid : id < net.links.length) (side : Side)
    (deed : Deed) : (net.perform id side deed).link id = (net.link id).perform side deed := by
  rw [perform, Link.perform]
  split
  · rw [Deed.apply_event, link_changeLink net id _ hid]
  · rfl

theorem Net.length_perform (net : Net) (id : LinkId) (side : Side) (deed : Deed) :
    (net.perform id side deed).links.length = net.links.length := by
  rw [perform]
  split
  · rw [Deed.apply_event, length_changeLink]
  · rfl

theorem Deed.acts (deed : Deed) (link : Link) (side : Side) :
    link.Act side (deed.act link side) := by
  cases deed with
  | write bytes => exact .write bytes
  | read count =>
      rw [act]
      split
      · exact .report
      · exact .take _
  | finish => exact .finish
  | close => exact .close
  | hangUp => exact .hangUp
  | abort => exact .abort

namespace Link

variable {link later : Link} {side : Side}

/-- An operation at the other end is done beside this one. -/
theorem Act.beside (h : link.Act side.other later) : link.Beside side later := by
  cases h with
  | write bytes => exact beside_write side link bytes
  | take count => exact beside_take side link count
  | report => exact beside_report side link
  | finish => exact beside_finish side link
  | close => exact beside_close side link
  | hangUp => exact beside_hangUp side link
  | abort => exact beside_abort side link
  | confine room => exact beside_confine side link room

/-! ## Connections in use -/

/-- A connection at whose one end somebody has read, written and waited, whatever was done at
the other end. -/
inductive Used (side : Side) : Link → Prop
  | fresh : Used side {}
  | other {link later : Link} (h : Used side link) (hact : link.Act side.other later) :
      Used side later
  | take {link : Link} {count : Nat} (h : Used side link)
      (hcount : count ≤ (link.unread side).length) : Used side (link.take side count)
  | report {link : Link} (h : Used side link) : Used side (link.report side)
  | write {link : Link} (h : Used side link) (bytes : Bytes) : Used side (link.write side bytes).2

/-- Whoever holds this end has done nothing that the other end could notice but write, and a
failure comes only from another end that has let go. It is never an interruption. -/
structure Lively (side : Side) (link : Link) : Prop where
  held : (link.endAt side).held = true
  room : (link.endAt side).room = none
  taken : (link.endAt side).taken ≤ (link.endAt side.other).written.length
  unfailing : (link.endAt side.other).fault = none
  unbroken : (link.endAt side.other).broken = false
  fault : (link.endAt side).fault ≠ none → (link.endAt side).broken = true
  broken : (link.endAt side).broken = true → (link.endAt side.other).held = false
  uninterrupted : (link.endAt side).fault ≠ some .interrupted

theorem Lively.setEnd (h : link.Lively side) {here : End} (hheld : here.held = true)
    (hroom : here.room = none)
    (htaken : here.taken ≤ (link.endAt side.other).written.length)
    (hfault : here.fault ≠ none → here.broken = true)
    (hbroken : here.broken = true → (link.endAt side.other).held = false)
    (huninterrupted : here.fault ≠ some .interrupted) :
    (link.setEnd side here).Lively side where
  held := by rwa [endAt_setEnd]
  room := by rwa [endAt_setEnd]
  taken := by rwa [endAt_setEnd, endAt_setEnd_other]
  unfailing := by rw [endAt_setEnd_other, h.unfailing]
  unbroken := by rw [endAt_setEnd_other, h.unbroken]
  fault := by rwa [endAt_setEnd]
  broken := by rwa [endAt_setEnd, endAt_setEnd_other]
  uninterrupted := by rwa [endAt_setEnd]

theorem Lively.setEnd_other (h : link.Lively side) {there : End}
    (hwritten : (link.endAt side.other).written.length ≤ there.written.length)
    (hfault : there.fault = none) (hbroken : there.broken = false)
    (hheld : there.held = true → (link.endAt side.other).held = true) :
    (link.setEnd side.other there).Lively side where
  held := by rw [endAt_other_setEnd, h.held]
  room := by rw [endAt_other_setEnd, h.room]
  taken := by
    rw [endAt_other_setEnd, endAt_setEnd]
    exact Nat.le_trans h.taken hwritten
  unfailing := by rwa [endAt_setEnd]
  unbroken := by rwa [endAt_setEnd]
  fault := by
    rw [endAt_other_setEnd]
    exact h.fault
  broken := by
    rw [endAt_other_setEnd, endAt_setEnd]
    intro hgone
    have hthere := h.broken hgone
    cases hagain : there.held with
    | false => rfl
    | true => rw [hheld hagain] at hthere; exact Bool.noConfusion hthere
  uninterrupted := by
    rw [endAt_other_setEnd]
    exact h.uninterrupted

theorem Lively.release_other (h : link.Lively side) : (link.release side.other).Lively side :=
  h.setEnd_other (Nat.le_refl _) h.unfailing h.unbroken (by simp)

theorem Lively.finish_other (h : link.Lively side) : (link.finish side.other).Lively side :=
  h.setEnd_other (Nat.le_refl _) h.unfailing h.unbroken id

theorem Lively.take_other (h : link.Lively side) (count : Nat) :
    (link.take side.other count).Lively side :=
  h.setEnd_other (Nat.le_refl _) h.unfailing h.unbroken id

theorem Lively.abort_other (h : link.Lively side) : (link.abort side.other).Lively side := by
  have hhere : (link.abort side.other).endAt side =
      { link.endAt side with
        broken := true
        fault := if (link.endAt side.other).finished then (link.endAt side).fault
          else some .connectionReset } := by
    cases side <;> rfl
  have hthere : (link.abort side.other).endAt side.other =
      { link.endAt side.other with held := false } := by
    cases side <;> rfl
  constructor
  case held => rw [hhere, h.held]
  case room => rw [hhere, h.room]
  case taken => rw [hhere, hthere]; exact h.taken
  case unfailing => rw [hthere, h.unfailing]
  case unbroken => rw [hthere, h.unbroken]
  case fault => rw [hhere]; exact fun _ => rfl
  case broken => rw [hthere]; exact fun _ => rfl
  case uninterrupted =>
    rw [hhere]
    show (if (link.endAt side.other).finished then _ else _) ≠ _
    split
    · exact h.uninterrupted
    · nofun

theorem Lively.close_other (h : link.Lively side) : (link.close side.other).Lively side := by
  rw [close]
  split
  · exact h.finish_other.release_other
  · exact h.abort_other

theorem Lively.write_other (h : link.Lively side) (bytes : Bytes) :
    (link.write side.other bytes).2.Lively side := by
  have hhere : (link.endAt side.other.other).held = true := by
    cases side <;> exact h.held
  simp only [write, h.unfailing]
  split
  · exact h
  · refine h.setEnd_other ?_ rfl (by rw [hhere]; rfl) id
    rw [List.length_append]
    exact Nat.le_add_right _ _

theorem Lively.act (h : link.Lively side) (hact : link.Act side.other later) :
    later.Lively side := by
  cases hact with
  | write bytes => exact h.write_other bytes
  | take count => exact h.take_other count
  | report => exact h.setEnd_other (Nat.le_refl _) rfl h.unbroken id
  | finish => exact h.finish_other
  | close => exact h.close_other
  | hangUp => exact (h.take_other _).close_other
  | abort => exact h.abort_other
  | confine room => exact h.setEnd_other (Nat.le_refl _) h.unfailing h.unbroken id

theorem Lively.take (h : link.Lively side) {count : Nat}
    (hcount : count ≤ (link.unread side).length) : (link.take side count).Lively side := by
  refine h.setEnd h.held h.room ?_ h.fault h.broken h.uninterrupted
  rw [unread, List.length_drop] at hcount
  have htaken := h.taken
  simp only
  omega

theorem Lively.report (h : link.Lively side) : (link.report side).Lively side :=
  h.setEnd h.held h.room h.taken (absurd rfl) h.broken nofun

theorem Lively.write (h : link.Lively side) (bytes : Bytes) :
    (link.write side bytes).2.Lively side := by
  rw [Link.write]
  split
  · exact h.report
  · rename_i hfault
    split
    · exact h
    · exact h.setEnd h.held h.room h.taken (absurd hfault) (by simp) h.uninterrupted

/-- A connection in use is lively. -/
theorem Used.lively (h : Used side link) : link.Lively side := by
  induction h with
  | fresh =>
      cases side <;> exact ⟨rfl, rfl, Nat.le_refl _, rfl, rfl, by decide, by decide, by decide⟩
  | other _ hact ih => exact ih.act hact
  | take _ hcount ih => exact ih.take hcount
  | report _ ih => exact ih.report
  | write _ bytes ih => exact ih.write bytes

/-- Whatever is done at the two ends, who reads at one of them never comes upon an
interruption. -/
theorem Lively.arrival_ne_interrupted (h : link.Lively side) :
    link.arrival side ≠ .failed .interrupted :=
  fun hfailed => h.uninterrupted (arrival_failed hfailed).2

/-! ## What comes behind the unread bytes -/

/-- What somebody who has read everything comes upon. -/
inductive Ending
  /-- The other end may still write. -/
  | pending
  | ended
  | failed (cause : IoCause)
  deriving DecidableEq, Repr

/-- What comes behind the bytes that have arrived at a side. -/
def ending (link : Link) (side : Side) : Ending :=
  if (link.endAt side.other).finished then .ended
  else
    match (link.endAt side).fault with
    | some cause => .failed cause
    | none => if (link.endAt side).broken then .ended else .pending

/-- Unread bytes come before anything else. -/
def Ending.arrival (unread : Bytes) (ending : Ending) : Arrival :=
  match unread, ending with
  | byte :: rest, _ => .bytes (byte :: rest)
  | [], .pending => .nothing
  | [], .ended => .ended
  | [], .failed cause => .failed cause

theorem arrival_eq (link : Link) (side : Side) :
    link.arrival side = (link.ending side).arrival (link.unread side) := by
  simp only [arrival, ending]
  split
  · rename_i hunread
    rw [hunread]
    rfl
  · rename_i hunread
    rw [hunread]
    split
    · rfl
    · cases (link.endAt side).fault with
      | some cause => rfl
      | none => cases (link.endAt side).broken <;> rfl

theorem arrival_eq_nothing :
    link.arrival side = .nothing ↔ link.unread side = [] ∧ link.ending side = .pending := by
  rw [arrival_eq]
  cases link.unread side <;> cases link.ending side <;> simp [Ending.arrival]

/-- A failure or a break comes from another end that has let go, so nothing more is done
there. -/
theorem Lively.gone (h : link.Lively side) (hending : link.ending side ≠ .pending)
    (hopen : (link.endAt side.other).finished = false) :
    (link.endAt side.other).held = false := by
  simp only [ending, hopen, Bool.false_eq_true, if_false] at hending
  apply h.broken
  cases hfault : (link.endAt side).fault with
  | some cause => exact h.fault (by simp [hfault])
  | none => simpa [hfault] using hending

/-! ## Performing deeds -/

theorem Lively.perform (h : link.Lively side) (deed : Deed) :
    (link.perform side.other deed).Lively side := by
  rw [Link.perform]
  split
  · exact h.act (deed.acts link side.other)
  · exact h

theorem Beside.perform (link : Link) (side : Side) (deed : Deed) :
    link.Beside side (link.perform side.other deed) := by
  rw [Link.perform]
  split
  · exact (deed.acts link side.other).beside
  · exact .refl side link

theorem Lively.performAll (h : link.Lively side) (deeds : List Deed) :
    (link.performAll side.other deeds).Lively side := by
  induction deeds generalizing link with
  | nil => exact h
  | cons deed deeds ih => exact ih (h.perform deed)

/-- The unread bytes stay, and others may come behind them. -/
theorem Lively.unread_perform (h : link.Lively side) (deed : Deed) :
    link.unread side <+: (link.perform side.other deed).unread side := by
  have hbeside := Beside.perform link side deed
  obtain ⟨more, hmore⟩ := hbeside.grows
  refine ⟨more, ?_⟩
  rw [unread, unread, hbeside.taken, ← hmore, List.drop_append_of_le_length h.taken]

/-- Once it is known what comes behind the unread bytes, nothing more is written. -/
theorem Lively.perform_of_ending (h : link.Lively side) (deed : Deed)
    (hending : link.ending side ≠ .pending) :
    (link.perform side.other deed).unread side = link.unread side ∧
      (link.perform side.other deed).ending side = link.ending side := by
  cases hfinished : (link.endAt side.other).finished with
  | true =>
      have hbeside := Beside.perform link side deed
      obtain ⟨hagain, hwritten⟩ := hbeside.ended hfinished
      rw [unread, unread, hbeside.taken, hwritten, ending, ending, if_pos hagain,
        if_pos hfinished]
      exact ⟨rfl, rfl⟩
  | false =>
      rw [Link.perform, h.gone hending hfinished]
      exact ⟨rfl, rfl⟩

/-! ## Deeds and taking -/

theorem take_setEnd_other (link : Link) (side : Side) (count : Nat) (there : End) :
    (link.take side count).setEnd side.other there =
      (link.setEnd side.other there).take side count := by
  cases side <;> rfl

theorem endAt_other_take (link : Link) (side : Side) (count : Nat) :
    (link.take side count).endAt side.other = link.endAt side.other :=
  endAt_setEnd_other link side _

theorem arrival_other_take (link : Link) (side : Side) (count : Nat) :
    (link.take side count).arrival side.other = link.arrival side.other := by
  cases side <;> rfl

theorem unread_other_take (link : Link) (side : Side) (count : Nat) :
    (link.take side count).unread side.other = link.unread side.other := by
  cases side <;> rfl

theorem abort_other_take (link : Link) (side : Side) (count : Nat) :
    (link.take side count).abort side.other = (link.abort side.other).take side count := by
  cases side <;> rfl

theorem close_other_take (link : Link) (side : Side) (count : Nat) :
    (link.take side count).close side.other = (link.close side.other).take side count := by
  rw [close, close, unread_other_take]
  split
  · cases side <;> rfl
  · exact abort_other_take link side count

theorem hangUp_other_take (link : Link) (side : Side) (count : Nat) :
    (link.take side count).hangUp side.other = (link.hangUp side.other).take side count := by
  rw [hangUp, hangUp, unread_other_take, ← close_other_take]
  cases side <;> rfl

/-- As long as an end has room for everything, it is not noticed how much is taken there. -/
theorem write_other_take (hroom : (link.endAt side).room = none) (count : Nat) (bytes : Bytes) :
    ((link.take side count).write side.other bytes).2 =
      (link.write side.other bytes).2.take side count := by
  have hwritable : ∀ link : Link, (link.endAt side).room = none →
      link.writable side.other bytes.length = bytes.length := by
    intro link hroom
    have hother : (link.endAt side.other.other).room = none := by cases side <;> exact hroom
    rw [writable, hother]
  have htaken : ((link.take side count).endAt side).room = none := by
    rw [Link.take, endAt_setEnd, hroom]
  have hheld : ((link.take side count).endAt side.other.other).held =
      (link.endAt side.other.other).held := by
    cases side <;> rfl
  simp only [write, endAt_other_take, hwritable link hroom, hwritable _ htaken, hheld,
    take_setEnd_other]
  cases (link.endAt side.other).fault with
  | some cause => cases side <;> rfl
  | none =>
      simp only
      split <;> rfl

/-- The other end does not notice that bytes are taken. -/
theorem perform_take (hroom : (link.endAt side).room = none) (count : Nat) (deed : Deed) :
    (link.take side count).perform side.other deed =
      (link.perform side.other deed).take side count := by
  rw [perform, perform, endAt_other_take]
  split
  · cases deed with
    | write bytes => exact write_other_take hroom count bytes
    | read wanted =>
        simp only [Deed.act, arrival_other_take, unread_other_take]
        cases link.arrival side.other <;> cases side <;> rfl
    | finish => cases side <;> rfl
    | close => exact close_other_take link side count
    | hangUp => exact hangUp_other_take link side count
    | abort => exact abort_other_take link side count
  · rfl

end Link

/-! ## Outlooks -/

/-- What somebody will come upon who reads at one end of a connection: the bytes, and what
comes behind them. -/
structure Outlook where
  bytes : Bytes
  ending : Link.Ending
  deriving DecidableEq, Repr

namespace Link

variable {link : Link} {side : Side}

/-- What is to be read at a side, if the other end has these deeds still to do. -/
def outlook (link : Link) (side : Side) (deeds : List Deed) : Outlook :=
  let later := link.performAll side.other deeds
  ⟨later.unread side, later.ending side⟩

theorem performAll_take (hlively : link.Lively side) (count : Nat) (deeds : List Deed) :
    (link.take side count).performAll side.other deeds =
      (link.performAll side.other deeds).take side count := by
  induction deeds generalizing link with
  | nil => rfl
  | cons deed deeds ih =>
      have hfirst := perform_take hlively.room count deed
      simp only [performAll, List.foldl_cons, hfirst]
      exact ih (hlively.perform deed)

theorem ending_take (link : Link) (side : Side) (count : Nat) :
    (link.take side count).ending side = link.ending side := by
  cases side <;> rfl

/-- Taking bytes takes them off the front of the outlook. -/
theorem outlook_take (h : link.Lively side) (count : Nat) (deeds : List Deed) :
    (link.take side count).outlook side deeds =
      { link.outlook side deeds with bytes := (link.outlook side deeds).bytes.drop count } := by
  simp only [outlook, performAll_take h, unread_take, ending_take]

/-- The bytes that are there are the first of those that will be. -/
theorem Lively.unread_performAll (h : link.Lively side) (deeds : List Deed) :
    link.unread side <+: (link.performAll side.other deeds).unread side := by
  induction deeds generalizing link with
  | nil => exact List.prefix_refl _
  | cons deed deeds ih => exact (h.unread_perform deed).trans (ih (h.perform deed))

/-- Once it is known what comes behind the unread bytes, the rest of the script is idle. -/
theorem Lively.performAll_of_ending (h : link.Lively side) (deeds : List Deed)
    (hending : link.ending side ≠ .pending) :
    (link.performAll side.other deeds).unread side = link.unread side ∧
      (link.performAll side.other deeds).ending side = link.ending side := by
  induction deeds generalizing link with
  | nil => exact ⟨rfl, rfl⟩
  | cons deed deeds ih =>
      obtain ⟨hunread, hsame⟩ := h.perform_of_ending deed hending
      obtain ⟨hunread', hsame'⟩ := ih (h.perform deed) (hsame ▸ hending)
      exact ⟨hunread'.trans hunread, hsame'.trans hsame⟩

theorem Lively.outlook_of_ending (h : link.Lively side) (deeds : List Deed)
    (hending : link.ending side ≠ .pending) :
    link.outlook side deeds = ⟨link.unread side, link.ending side⟩ := by
  obtain ⟨hunread, hsame⟩ := h.performAll_of_ending deeds hending
  rw [outlook, hunread, hsame]

/-- A failure that is reported leaves behind that the bytes have ended. -/
theorem Lively.ending_report (h : link.Lively side) {cause : IoCause}
    (hfailed : link.ending side = .failed cause) : (link.report side).ending side = .ended := by
  have hpending : (link.endAt side).fault ≠ none := by
    intro hnone
    simp only [ending, hnone] at hfailed
    split at hfailed
    · cases hfailed
    · split at hfailed <;> cases hfailed
  simp [ending, Link.report, h.fault hpending]

theorem Lively.outlook_report (h : link.Lively side) (deeds : List Deed) {cause : IoCause}
    (hfailed : link.ending side = .failed cause) :
    (link.report side).outlook side deeds = ⟨link.unread side, .ended⟩ := by
  have hunread : (link.report side).unread side = link.unread side := by cases side <;> rfl
  have hended := h.ending_report hfailed
  rw [h.report.outlook_of_ending deeds (by simp [hended]), hunread, hended]

end Link

end NodeHealth
