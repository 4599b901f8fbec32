import NodeHealth.Proofs.Sidecar.Lifecycle

/-!
# Groups start as a whole or not at all

A group starts its members in order. If one fails, those before it are stopped again, the
last one first, and in the end everything that is seen of the members is as it was before:
those that were stopped are as they were made, and all others were left alone.

## Implementation notes

The network and the time are arbitrary at every step of a group, and so is whether a member
that is told to stop takes a connection first, so that nothing is assumed of others, and a
member may or may not go on between two calls. `Unwinds` follows the members
while the group stops the first of them; it says of each member by its position how far it
has come from what it was when the stopping began.

-/

namespace NodeHealth

namespace SidecarGroup

/-- The group after some of its steps, whatever the network and the time are at each. -/
inductive Runs (group : SidecarGroup) : SidecarGroup → Prop
  | refl : Runs group group
  | step {middle next : SidecarGroup} {takesOne : Bool} {now : Instant} {net later : Net}
      (h : Runs group middle) (hstep : middle.step takesOne now net = some (later, next)) :
      Runs group next

/-- The calls that stop the first `count` members. -/
def stops (count : Nat) : List LifecycleCall :=
  (List.range count).reverse.map .stop

/-- The calls that start `count` members, of which the first one is at a position. -/
def startsFrom (position count : Nat) : List LifecycleCall :=
  (List.range' position count).map .start

/-- The calls that start the first `count` members. -/
def starts (count : Nat) : List LifecycleCall :=
  (List.range count).map .start

theorem startsFrom_zero (count : Nat) : startsFrom 0 count = starts count := by
  simp [startsFrom, starts, List.range_eq_range']

theorem startsFrom_succ (position count : Nat) :
    startsFrom position (count + 1) = .start position :: startsFrom (position + 1) count := by
  simp [startsFrom, List.range'_succ]

theorem stops_succ (count : Nat) : stops (count + 1) = .stop count :: stops count := by
  simp [stops, List.range_succ]

variable {group later last next : SidecarGroup} {members started : List Sidecar}
  {launch : Launch} {takesOne : Bool} {now : Instant} {net net' : Net}

theorem Runs.trans (h : group.Runs later) (h' : later.Runs last) : group.Runs last := by
  induction h' with
  | refl => exact h
  | step _ hstep ih => exact .step ih hstep

/-! ## Starting the members -/

/-- If no member fails, each was started once and in order, in the network that those before it
left. -/
theorem startMembers_of_none {position : Nat} (h : startMembers net position members = launch)
    (hnone : launch.failure = none) :
    launch.calls = startsFrom position members.length ∧
      launch.members.length = members.length ∧
      ∀ {index : Nat} {member : Sidecar}, members[index]? = some member →
        ∃ before after next, launch.members[index]? = some next ∧
          member.start before = (.ok (), after, next) := by
  induction members generalizing net position launch with
  | nil =>
      subst h
      exact ⟨rfl, rfl, by simp⟩
  | cons member members ih =>
      simp only [startMembers] at h
      split at h
      · subst h
        cases hnone
      · rename_i before after next hstart
        subst h
        obtain ⟨hcalls, hlength, hstarted⟩ := ih rfl hnone
        refine ⟨by simp [hcalls, startsFrom_succ], by simp [hlength], ?_⟩
        intro index found hfound
        cases index with
        | zero =>
            cases hfound
            exact ⟨_, _, _, rfl, hstart⟩
        | succ index => exact hstarted hfound

/-- If a member fails, those before it were started, it was called last, and it and those behind
it are as they were. -/
theorem startMembers_of_some {position index : Nat} {error : SidecarError}
    (h : startMembers net position members = launch)
    (hsome : launch.failure = some (index, error)) :
    ∃ count member started, index = position + count ∧ members[count]? = some member ∧
      startMembers net position (members.take count) =
        { net := launch.net, members := started, calls := startsFrom position count } ∧
      member.start launch.net = (.error error, launch.net, member) ∧
      launch.members = started ++ members.drop count ∧
      launch.calls = startsFrom position (count + 1) := by
  induction members generalizing net position launch with
  | nil =>
      subst h
      cases hsome
  | cons member members ih =>
      simp only [startMembers] at h
      split at h
      · rename_i failure after next hstart
        subst h
        cases hsome
        obtain ⟨rfl, rfl⟩ := Sidecar.start_of_error hstart
        exact ⟨0, _, [], rfl, rfl, rfl, hstart, rfl, rfl⟩
      · rename_i before after next hstart
        subst h
        obtain ⟨count, failed, begun, rfl, hfailed, htake, herror, hsame, hcalls⟩ := ih rfl hsome
        refine ⟨count + 1, failed, next :: begun, by omega, hfailed, ?_, herror, by simp [hsame],
          ?_⟩
        · simp [startMembers, hstart, htake, startsFrom_succ]
        · simp [hcalls, startsFrom_succ position]

/-! ## One step of a group -/

/-- Stopping goes on by telling the next member, or by leaving one that has stopped. -/
theorem advanceStop_cases (h : group.advanceStop takesOne = some next) :
    ∃ index rest, group.toStop = index :: rest ∧
      ((group.told = false ∧ next = { group with
          members := group.members.modify index (Sidecar.requestStop takesOne)
          told := true
          calls := group.calls ++ [.stop index] }) ∨
        group.told = true ∧ (group.members[index]?).any Sidecar.isStopping = false ∧
          next = { group with
            members := group.members.modify index Sidecar.finishStop
            toStop := rest
            told := false }) := by
  unfold advanceStop at h
  split at h
  · cases h
  · rename_i index rest htoStop
    refine ⟨index, rest, htoStop, ?_⟩
    split at h
    · rename_i htold
      cases h
      exact .inl ⟨by simpa using htold, rfl⟩
    · rename_i htold
      split at h
      · cases h
      · rename_i hstopping
        cases h
        exact .inr ⟨by simpa using htold, by simpa using hstopping, rfl⟩

/-- Telling the next member takes one step. -/
theorem step_of_untold {index : Nat} {rest : List Nat} (htoStop : group.toStop = index :: rest)
    (htold : group.told = false) (takesOne : Bool) (now : Instant) (net : Net) :
    ∃ next, group.step takesOne now net = some (net, next) ∧ next.told = true ∧
      next.toStop = group.toStop := by
  simp [step, advanceStop, htoStop, htold]

/-- Leaving a member that has stopped takes one step. -/
theorem step_of_told {index : Nat} {rest : List Nat} (htoStop : group.toStop = index :: rest)
    (htold : group.told = true)
    (hdone : ∀ member, group.members[index]? = some member → member.isStopping = false)
    (takesOne : Bool) (now : Instant) (net : Net) :
    ∃ next, group.step takesOne now net = some (net, next) ∧ next.told = false ∧
      next.toStop = rest := by
  have hnone : (group.members[index]?).any Sidecar.isStopping = false := by
    rw [Option.any_eq_false]
    exact hdone
  simp [step, advanceStop, htoStop, htold, hnone]

/-- One member goes on, and the others stay. -/
theorem stepMembers_cases {members next : List Sidecar}
    (h : stepMembers now net members = some (net', next)) :
    ∃ index before after, members[index]? = some before ∧
      before.step now net = some (net', after) ∧ next = members.set index after := by
  induction members generalizing next with
  | nil => cases h
  | cons member members ih =>
      simp only [stepMembers] at h
      split at h
      · rename_i later after hstep
        cases h
        exact ⟨0, member, _, rfl, hstep, rfl⟩
      · simp only [Option.map_eq_some_iff, Prod.mk.injEq] at h
        obtain ⟨⟨_, rest⟩, hrest, rfl, rfl⟩ := h
        obtain ⟨index, before, after, hbefore, hstep, rfl⟩ := ih hrest
        exact ⟨index + 1, before, after, hbefore, hstep, rfl⟩

theorem step_cases (h : group.step takesOne now net = some (net', next)) :
    (group.advanceStop takesOne = some next ∧ net' = net) ∨
      ∃ index before after, group.members[index]? = some before ∧
        before.step now net = some (net', after) ∧
        next = { group with members := group.members.set index after } := by
  unfold step at h
  split at h
  · rename_i advanced hadvance
    cases h
    exact .inl ⟨hadvance, rfl⟩
  · simp only [Option.map_eq_some_iff, Prod.mk.injEq] at h
    obtain ⟨⟨_, members⟩, hmembers, rfl, rfl⟩ := h
    obtain ⟨index, before, after, hbefore, hstep, rfl⟩ := stepMembers_cases hmembers
    exact .inr ⟨index, before, after, hbefore, hstep, rfl⟩

/-- A group that is stopping waits for nothing but a member that has not stopped yet. -/
theorem stopping_of_waiting {index : Nat} {rest : List Nat}
    (htoStop : group.toStop = index :: rest) (h : group.step takesOne now net = none) :
    ∃ member, group.members[index]? = some member ∧ member.isStopping = true := by
  unfold step at h
  cases hadvance : group.advanceStop takesOne with
  | some advanced => simp [hadvance] at h
  | none =>
      simp only [advanceStop, htoStop] at hadvance
      split at hadvance
      · cases hadvance
      · split at hadvance
        · rename_i hstopping
          simpa [Option.any_eq_true] using hstopping
        · cases hadvance

/-! ## Stopping members one after the other -/

/-- How far a member has come from what it was when its group began to stop the first `count`
members, of which `left` are left. -/
inductive Stage (count left : Nat) (told : Bool) (index : Nat) (origin member : Sidecar) : Prop
  /-- It is not to be stopped, or not yet. -/
  | spared (h : count ≤ index ∨ index < left ∧ (told = true → index + 1 < left))
      (hruns : origin.Runs member)
  | stopping {middle : Sidecar} {takesOne : Bool} (htold : told = true) (h : index + 1 = left)
      (hruns : origin.Runs middle) (hstops : (middle.requestStop takesOne).Runs member)
  | stopped (h : left ≤ index) (hcount : index < count) (hfresh : member = origin.fresh)

/-- The first `count` members of a group are being stopped, and `left` of them are left. -/
structure Unwinds (first : SidecarGroup) (count left : Nat) (group : SidecarGroup) : Prop where
  le : left ≤ count
  toStop : group.toStop = (List.range left).reverse
  told : group.told = true → 0 < left
  calls : group.calls ++ stops (left - if group.told then 1 else 0) = first.calls ++ stops count
  length : group.members.length = first.members.length
  stage : ∀ {index origin member}, first.members[index]? = some origin →
    group.members[index]? = some member → Stage count left group.told index origin member

variable {first : SidecarGroup} {count left : Nat}

theorem toStop_succ {index : Nat} {rest : List Nat}
    (h : (List.range left).reverse = index :: rest) :
    left = index + 1 ∧ rest = (List.range index).reverse := by
  cases left with
  | zero => simp at h
  | succ left =>
      simp only [List.range_succ, List.reverse_append, List.reverse_cons, List.reverse_nil,
        List.nil_append, List.singleton_append, List.cons.injEq] at h
      obtain ⟨rfl, rfl⟩ := h
      exact ⟨rfl, rfl⟩

/-- A member that steps has not stopped yet. -/
theorem Stage.step {told : Bool} {index : Nat} {origin member after : Sidecar}
    (h : Stage count left told index origin member)
    (hstep : member.step now net = some (net', after)) :
    Stage count left told index origin after := by
  cases h with
  | spared h hruns => exact .spared h (.step hruns hstep)
  | stopping htold h hruns hstops => exact .stopping htold h hruns (.step hstops hstep)
  | stopped _ _ hfresh =>
      rw [hfresh, Sidecar.step_fresh] at hstep
      cases hstep

/-- Telling a member changes its stage, and no other. -/
theorem Stage.tell {index position : Nat} {origin member : Sidecar}
    (h : Stage count (position + 1) false index origin member) :
    Stage count (position + 1) true index origin
      (if position = index then member.requestStop takesOne else member) := by
  split
  · rename_i hhere
    subst hhere
    cases h with
    | spared _ hruns => exact .stopping rfl rfl hruns .refl
    | stopping htold => cases htold
    | stopped h => exact absurd h (Nat.not_succ_le_self _)
  · rename_i hother
    cases h with
    | spared h hruns =>
        refine .spared ?_ hruns
        rcases h with hcount | ⟨hleft, _⟩
        · exact .inl hcount
        · exact .inr ⟨hleft, fun _ => by omega⟩
    | stopping htold => cases htold
    | stopped h hcount hfresh => exact .stopped h hcount hfresh

/-- A member that is left when it has stopped is as it was made. -/
theorem Stage.finish {index position : Nat} {origin member : Sidecar} (hle : position < count)
    (horigin : origin.Sound) (h : Stage count (position + 1) true index origin member)
    (hdone : position = index → member.isStopping = false) :
    Stage count position false index origin
      (if position = index then member.finishStop else member) := by
  split
  · rename_i hhere
    subst hhere
    cases h with
    | spared h =>
        rcases h with hcount | ⟨_, hleft⟩
        · exact absurd hle (Nat.not_lt_of_le hcount)
        · exact absurd (hleft rfl) (Nat.lt_irrefl _)
    | stopping _ _ hruns hstops =>
        have hkeeps := hruns.keeps horigin
        have hfresh := (Sidecar.Stops.call hstops (hdone rfl)).eq_fresh (hkeeps.sound horigin)
        exact .stopped (Nat.le_refl _) hle (hfresh.trans hkeeps.fresh)
    | stopped h => exact absurd h (Nat.not_succ_le_self _)
  · rename_i hother
    cases h with
    | spared h hruns =>
        refine .spared ?_ hruns
        rcases h with hcount | ⟨_, hleft⟩
        · exact .inl hcount
        · exact .inr ⟨Nat.lt_of_succ_lt_succ (hleft rfl), fun htold => by cases htold⟩
    | stopping _ h => omega
    | stopped h hcount hfresh => exact .stopped (Nat.le_of_succ_le h) hcount hfresh

theorem getElem?_modify_cases {index position : Nat} {change : Sidecar → Sidecar}
    {member : Sidecar} (h : (members.modify position change)[index]? = some member) :
    ∃ before, members[index]? = some before ∧
      member = if position = index then change before else before := by
  rw [List.getElem?_modify] at h
  cases hbefore : members[index]? with
  | none => simp [hbefore] at h
  | some before =>
      simp only [hbefore, Option.map_eq_map, Option.map_some, Option.some.injEq] at h
      exact ⟨before, rfl, h.symm⟩

/-- Each step keeps to the order, and leaves one member less or the same. -/
theorem Unwinds.step (hsound : ∀ member ∈ first.members, member.Sound)
    (h : first.Unwinds count left group)
    (hstep : group.step takesOne now net = some (net', next)) :
    ∃ left, first.Unwinds count left next := by
  rcases step_cases hstep with ⟨hadvance, _⟩ | ⟨position, before, after, hbefore, hmember, rfl⟩
  · obtain ⟨position, rest, htoStop, ⟨htold, rfl⟩ | ⟨htold, hdone, rfl⟩⟩ :=
      advanceStop_cases hadvance
    · obtain ⟨rfl, rfl⟩ := toStop_succ (h.toStop.symm.trans htoStop)
      refine ⟨position + 1, h.le, h.toStop, fun _ => Nat.succ_pos _, ?_, by simp [h.length], ?_⟩
      · have hcalls := h.calls
        simp only [htold, Bool.false_eq_true, if_false, Nat.sub_zero, stops_succ] at hcalls
        simpa using hcalls
      · intro index origin member horigin hmember
        obtain ⟨before, hbefore, rfl⟩ := getElem?_modify_cases hmember
        have hstage := h.stage horigin hbefore
        rw [htold] at hstage
        exact hstage.tell
    · obtain ⟨rfl, rfl⟩ := toStop_succ (h.toStop.symm.trans htoStop)
      refine ⟨position, Nat.le_of_succ_le h.le, rfl, fun htold => (by cases htold), ?_,
        by simp [h.length], ?_⟩
      · have hcalls := h.calls
        simpa [htold] using hcalls
      · intro index origin member horigin hmember
        obtain ⟨before, hbefore, rfl⟩ := getElem?_modify_cases hmember
        have hstage := h.stage horigin hbefore
        rw [htold] at hstage
        refine hstage.finish h.le (hsound _ (List.mem_of_getElem? horigin)) ?_
        rintro rfl
        simpa [hbefore] using hdone
  · refine ⟨left, h.le, h.toStop, h.told, h.calls, by simp [h.length], ?_⟩
    intro index origin member horigin hmember'
    by_cases hhere : position = index
    · subst hhere
      have hlt := (List.getElem?_eq_some_iff.mp hbefore).1
      simp only [List.getElem?_set, hlt, if_true, Option.some.injEq] at hmember'
      subst hmember'
      exact (h.stage horigin hbefore).step hmember
    · simp only [List.getElem?_set, if_neg hhere] at hmember'
      exact h.stage horigin hmember'

theorem Unwinds.runs (hsound : ∀ member ∈ first.members, member.Sound)
    (h : first.Unwinds count left group) (hruns : group.Runs later) :
    ∃ left, first.Unwinds count left later := by
  induction hruns with
  | refl => exact ⟨left, h⟩
  | step _ hstep ih =>
      obtain ⟨_, hmiddle⟩ := ih
      exact hmiddle.step hsound hstep

/-- A group that begins to stop its first members. -/
theorem unwinds_begin (htoStop : group.toStop = (List.range count).reverse)
    (htold : group.told = false) (hcalls : group.calls = first.calls)
    (hmembers : group.members = first.members) : first.Unwinds count count group where
  le := Nat.le_refl _
  toStop := htoStop
  told := by simp [htold]
  calls := by simp [htold, hcalls]
  length := by rw [hmembers]
  stage := by
    intro index origin member horigin hmember
    rw [hmembers, horigin] at hmember
    cases hmember
    refine .spared ?_ .refl
    rw [htold]
    rcases Nat.lt_or_ge index count with hlt | hge
    · exact .inr ⟨hlt, fun h => by cases h⟩
    · exact .inl hge

/-- When nothing is left to be stopped, all calls were made, the members that were stopped are
as they were made, and the others were left alone. -/
theorem Unwinds.over (h : first.Unwinds count left group) (hover : group.toStop = []) :
    group.calls = first.calls ++ stops count ∧
      ∀ {index origin}, first.members[index]? = some origin →
        ∃ member, group.members[index]? = some member ∧
          (index < count ∧ member = origin.fresh ∨ count ≤ index ∧ origin.Runs member) := by
  have hleft : left = 0 := by
    have hnone := h.toStop.symm.trans hover
    simpa using hnone
  subst hleft
  have htold : group.told = false := by
    cases htold : group.told with
    | false => rfl
    | true => exact absurd (h.told htold) (Nat.lt_irrefl 0)
  refine ⟨by simpa [htold, stops] using h.calls, ?_⟩
  intro index origin horigin
  have hlt := h.length ▸ (List.getElem?_eq_some_iff.mp horigin).1
  refine ⟨group.members[index], List.getElem?_eq_getElem hlt, ?_⟩
  cases h.stage horigin (List.getElem?_eq_getElem hlt) with
  | spared hspared hruns => exact .inr ⟨by omega, hruns⟩
  | stopping _ hleft => omega
  | stopped _ hcount hfresh => exact .inl ⟨hcount, hfresh⟩

/-! ## Starting a group -/

/-- What is seen of a member. -/
def shown (member : Sidecar) : Bool × Option SocketAddress :=
  (member.isRunning, member.address?)

/-- What becomes of a group in the end whose member at `index` failed to start: those before
it are as they were, and the others were left alone. -/
structure RolledBack (group : SidecarGroup) (index : Nat) (last : SidecarGroup) : Prop where
  calls : last.calls = group.calls ++ starts (index + 1) ++ stops index
  stopped : last.members.take index = group.members.take index
  spared : ∀ {position member}, index ≤ position → group.members[position]? = some member →
    ∃ after, last.members[position]? = some after ∧ member.Runs after
  shown : last.members.map shown = group.members.map shown

/-- What the members are when one of them has failed: those before it would be as they were
if they were stopped, and the others are as they were. -/
theorem origin_cases {index : Nat} {error : SidecarError}
    (hmembers : ∀ member ∈ members, member.Reachable)
    (h : startMembers net 0 members = launch) (hsome : launch.failure = some (index, error)) :
    launch.members.length = members.length ∧
      ∀ {position : Nat} {member : Sidecar}, members[position]? = some member →
        ∃ origin, launch.members[position]? = some origin ∧ origin.Reachable ∧
          (position < index ∧ origin.fresh = member ∨ index ≤ position ∧ origin = member) := by
  obtain ⟨count, failed, before, hcount, hfailed, htake, _, hsame, _⟩ :=
    startMembers_of_some h hsome
  obtain rfl : index = count := hcount.trans (Nat.zero_add _)
  obtain ⟨_, hlength, hstarted⟩ := startMembers_of_none htake rfl
  rw [hsame]
  have hindex := (List.getElem?_eq_some_iff.mp hfailed).1
  have hbefore : before.length = index := by
    rw [hlength, List.length_take]
    omega
  have hall : (before ++ members.drop index).length = members.length := by
    rw [List.length_append, List.length_drop, hbefore, Nat.add_sub_cancel' (Nat.le_of_lt hindex)]
  refine ⟨hall, ?_⟩
  intro position member hmember
  have hreachable := hmembers member (List.mem_of_getElem? hmember)
  rcases Nat.lt_or_ge position index with hlt | hge
  · have htaken : (members.take index)[position]? = some member := by
      rw [List.getElem?_take_of_lt hlt, hmember]
    obtain ⟨net₁, net₂, next, hnext, hstart⟩ := hstarted htaken
    refine ⟨next, ?_, ?_, .inl ⟨hlt, ?_⟩⟩
    · rw [List.getElem?_append_left (hbefore ▸ hlt)]
      exact hnext
    · have hagain := Sidecar.Reachable.start hreachable net₁
      rwa [hstart] at hagain
    · rw [(Sidecar.start_of_ok hstart).2.1]
      exact (hreachable.eq_fresh_of_start hstart).symm
  · refine ⟨member, ?_, hreachable, .inr ⟨hge, rfl⟩⟩
    rw [List.getElem?_append_right (hbefore ▸ hge), List.getElem?_drop, hbefore,
      Nat.add_sub_cancel' hge]
    exact hmember

/-- A group of which the member at a position has failed to start. -/
def failed (group : SidecarGroup) (launch : Launch) (index : Nat) : SidecarGroup where
  members := launch.members
  toStop := (List.range index).reverse
  calls := group.calls ++ launch.calls

/-- A group of which a member fails to start begins to stop those before it. -/
theorem startAll_of_error {error : SidecarError}
    (h : group.startAll net = (some error, net', next)) :
    ∃ index launch, startMembers net 0 group.members = launch ∧
      launch.failure = some (index, error) ∧ launch.net = net' ∧
        next = group.failed launch index := by
  unfold startAll at h
  generalize hlaunch : startMembers net 0 group.members = launch at h
  cases hfailure : launch.failure with
  | none => simp [hfailure] at h
  | some failure =>
      simp only [hfailure] at h
      cases h
      exact ⟨failure.1, launch, rfl, hfailure, rfl, rfl⟩

theorem startAll_of_none (h : group.startAll net = (none, net', next)) :
    startMembers net 0 group.members =
        { net := net', members := next.members, calls := starts group.members.length } ∧
      next.calls = group.calls ++ starts group.members.length := by
  unfold startAll at h
  generalize hlaunch : startMembers net 0 group.members = launch at h
  cases hfailure : launch.failure with
  | none =>
      simp only [hfailure] at h
      cases h
      have hcalls := (startMembers_of_none hlaunch hfailure).1
      rw [startsFrom_zero] at hcalls
      obtain ⟨_, _, _, _⟩ := launch
      cases hfailure
      cases hcalls
      exact ⟨rfl, rfl⟩
  | some failure => simp [hfailure] at h

/-- When the members that had started are stopped again, they are what they were, and the
others were left alone. -/
theorem members_of_error {index : Nat} {error : SidecarError}
    (hmembers : ∀ member ∈ group.members, member.Reachable)
    (hlaunch : startMembers net 0 group.members = launch)
    (hfailure : launch.failure = some (index, error))
    (hruns : (group.failed launch index).Runs last) (hover : last.toStop = []) :
    last.calls = group.calls ++ starts (index + 1) ++ stops index ∧
      last.members.length = group.members.length ∧
      ∀ {position : Nat} {member : Sidecar}, group.members[position]? = some member →
        ∃ after, last.members[position]? = some after ∧
          (position < index ∧ after = member ∨ index ≤ position ∧ member.Runs after) := by
  obtain ⟨hlength, horigin⟩ := origin_cases hmembers hlaunch hfailure
  obtain ⟨count, _, _, hcount, _, _, _, _, hstarts⟩ := startMembers_of_some hlaunch hfailure
  obtain rfl : index = count := hcount.trans (Nat.zero_add _)
  have hsound : ∀ member ∈ launch.members, member.Sound := by
    intro member hmember
    obtain ⟨position, hlt, hposition⟩ := List.getElem_of_mem hmember
    obtain ⟨origin, hsame, hreachable, _⟩ :=
      horigin (List.getElem?_eq_getElem (hlength ▸ hlt))
    rw [List.getElem?_eq_getElem hlt, hposition, Option.some.injEq] at hsame
    exact hsame ▸ hreachable.sound
  obtain ⟨left, hunwinds⟩ := (unwinds_begin rfl rfl rfl rfl).runs hsound hruns
  obtain ⟨hcalls, hlast⟩ := hunwinds.over hover
  have hbegun : (group.failed launch index).calls = group.calls ++ starts (index + 1) := by
    rw [failed, hstarts, startsFrom_zero]
  refine ⟨hbegun ▸ hcalls, hunwinds.length.trans hlength, ?_⟩
  intro position member hmember
  obtain ⟨origin, hposition, _, hcases⟩ := horigin hmember
  obtain ⟨after, hafter, hstage⟩ := hlast hposition
  refine ⟨after, hafter, ?_⟩
  rcases hstage with ⟨hlt, rfl⟩ | ⟨hge, hruns⟩
  · rcases hcases with ⟨_, hsame⟩ | ⟨hge, _⟩
    · exact .inl ⟨hlt, hsame⟩
    · omega
  · rcases hcases with ⟨hlt, _⟩ | ⟨_, rfl⟩
    · omega
    · exact .inr ⟨hge, hruns⟩

theorem rolledBack_of_error {index : Nat} {error : SidecarError}
    (hmembers : ∀ member ∈ group.members, member.Reachable)
    (hlaunch : startMembers net 0 group.members = launch)
    (hfailure : launch.failure = some (index, error))
    (hruns : (group.failed launch index).Runs last) (hover : last.toStop = []) :
    group.RolledBack index last := by
  obtain ⟨hcalls, hcount, hpoint⟩ := members_of_error hmembers hlaunch hfailure hruns hover
  constructor
  case calls => exact hcalls
  case stopped =>
    apply List.ext_getElem?
    intro position
    rcases Nat.lt_or_ge position index with hlt | hge
    · rw [List.getElem?_take_of_lt hlt, List.getElem?_take_of_lt hlt]
      cases hmember : group.members[position]? with
      | none =>
          rw [List.getElem?_eq_none_iff] at hmember ⊢
          omega
      | some member =>
          obtain ⟨after, hafter, ⟨_, rfl⟩ | ⟨hge, _⟩⟩ := hpoint hmember
          · exact hafter
          · omega
    · rw [List.getElem?_take_eq_none hge, List.getElem?_take_eq_none hge]
  case spared =>
    intro position member hge hmember
    obtain ⟨after, hafter, ⟨hlt, _⟩ | ⟨_, hruns⟩⟩ := hpoint hmember
    · omega
    · exact ⟨after, hafter, hruns⟩
  case shown =>
    apply List.ext_getElem?
    intro position
    rw [List.getElem?_map, List.getElem?_map]
    cases hmember : group.members[position]? with
    | none =>
        rw [List.getElem?_eq_none_iff] at hmember
        rw [List.getElem?_eq_none (by omega)]
    | some member =>
        obtain ⟨after, hafter, ⟨_, rfl⟩ | ⟨_, hruns⟩⟩ := hpoint hmember
        · rw [hafter]
        · have hkeeps := hruns.keeps (hmembers member (List.mem_of_getElem? hmember)).sound
          rw [hafter, Option.map_some, Option.map_some, SidecarGroup.shown, SidecarGroup.shown,
            hkeeps.running, hkeeps.address]

/-! ## Stopping a group -/

theorem unwinds_stopAll (group : SidecarGroup) :
    group.Unwinds group.members.length group.members.length group.stopAll :=
  unwinds_begin rfl rfl rfl rfl

/-- Once a group has stopped, all its members are as they were made. -/
theorem members_of_stopAll (hmembers : ∀ member ∈ group.members, member.Sound)
    (hruns : group.stopAll.Runs last) (hover : last.toStop = []) :
    last.calls = group.calls ++ stops group.members.length ∧
      last.members = group.members.map Sidecar.fresh := by
  obtain ⟨left, hunwinds⟩ := group.unwinds_stopAll.runs hmembers hruns
  obtain ⟨hcalls, hlast⟩ := hunwinds.over hover
  refine ⟨hcalls, ?_⟩
  apply List.ext_getElem?
  intro position
  rw [List.getElem?_map]
  cases hmember : group.members[position]? with
  | none =>
      rw [List.getElem?_eq_none_iff, ← hunwinds.length] at hmember
      exact List.getElem?_eq_none hmember
  | some member =>
      obtain ⟨after, hafter, ⟨_, rfl⟩ | ⟨hge, _⟩⟩ := hlast hmember
      · exact hafter
      · exact absurd (List.getElem?_eq_some_iff.mp hmember).1 (Nat.not_lt_of_le hge)

/-- Nothing changes in a group of members as they were made while it stops. -/
theorem fresh_of_runs (hfresh : ∀ member ∈ group.members, member = member.fresh)
    (hruns : group.Runs last) :
    last.members = group.members ∧
      ∀ {takesOne now net net' next}, last.step takesOne now net = some (net', next) →
        net' = net := by
  have hsame : ∀ (members : List Sidecar) (index : Nat) (change : Sidecar → Sidecar),
      (∀ member ∈ members, change member = member) → members.modify index change = members := by
    intro members index change hchange
    apply List.ext_getElem?
    intro position
    rw [List.getElem?_modify]
    cases hmember : members[position]? with
    | none => rfl
    | some member =>
        have hkept := hchange member (List.mem_of_getElem? hmember)
        simp only [Option.map_eq_map, Option.map_some]
        split
        · rw [hkept]
        · rfl
  have hquiet : ∀ {index : Nat} {member : Sidecar} {now net}, group.members[index]? = some member →
      member.step now net = none := by
    intro index member now net hmember
    rw [hfresh member (List.mem_of_getElem? hmember), Sidecar.step_fresh]
  have hstill : last.members = group.members := by
    induction hruns with
    | refl => rfl
    | step _ hstep ih =>
        rcases step_cases hstep with ⟨hadvance, _⟩ | ⟨_, _, _, hbefore, hmember, _⟩
        · obtain ⟨index, _, _, ⟨_, rfl⟩ | ⟨_, _, rfl⟩⟩ := advanceStop_cases hadvance
          · refine (congrArg _ ih).trans (hsame _ _ _ fun member hmember => ?_)
            rw [hfresh member hmember, Sidecar.requestStop_fresh]
          · refine (congrArg _ ih).trans (hsame _ _ _ fun member hmember => ?_)
            rw [hfresh member hmember, Sidecar.finishStop_fresh]
        · rw [ih] at hbefore
          rw [hquiet hbefore] at hmember
          cases hmember
  refine ⟨hstill, ?_⟩
  intro takesOne now net net' next hstep
  rcases step_cases hstep with ⟨_, hnet⟩ | ⟨_, _, _, hbefore, hmember, _⟩
  · exact hnet
  · rw [hstill] at hbefore
    rw [hquiet hbefore] at hmember
    cases hmember

/-- A group of members as they were made has stopped after two steps for each of them. -/
theorem over_of_fresh (hfresh : ∀ member ∈ group.members, member = member.fresh)
    (htold : group.told = false) : ∃ last, group.Runs last ∧ last.toStop = [] := by
  generalize htoStop : group.toStop = positions
  induction positions generalizing group with
  | nil => exact ⟨group, .refl, htoStop⟩
  | cons index rest ih =>
      obtain ⟨asked, hask, htold', hlist⟩ := step_of_untold htoStop htold false 0 {}
      have hasked := Runs.step .refl hask
      have hsame := (fresh_of_runs hfresh hasked).1
      have hdone : ∀ member, asked.members[index]? = some member → member.isStopping = false := by
        intro member hmember
        rw [hsame] at hmember
        rw [hfresh member (List.mem_of_getElem? hmember)]
        exact Sidecar.isStopping_fresh member
      obtain ⟨left, hleave, hleft, hrest⟩ :=
        step_of_told (hlist.trans htoStop) htold' hdone false 0 {}
      have hruns := Runs.step hasked hleave
      have hstill := (fresh_of_runs hfresh hruns).1
      obtain ⟨last, hlast, hover⟩ := ih (by rwa [hstill]) hleft hrest
      exact ⟨last, hruns.trans hlast, hover⟩

/-- Starting a group is all or nothing. If a member fails to start, those before it were
started once and in order, it and those behind it are as they were, and in the end the
members before it were stopped in the opposite order and everything that is seen of the group
is as it was. If no member fails, all that are ready run. Once a group has stopped, none of its
members runs, all are as they were made, and stopping it again changes nothing. While a group
stops, it waits for nothing but a member that has not stopped yet. -/
theorem all_or_nothing (hmembers : ∀ member ∈ group.members, member.Reachable) (net : Net) :
    (∀ {error later begun}, group.startAll net = (some error, later, begun) →
      ∃ index member started, group.members[index]? = some member ∧
        startMembers net 0 (group.members.take index) =
          { net := later, members := started, calls := starts index } ∧
        member.start later = (.error error, later, member) ∧
        begun.members = started ++ group.members.drop index ∧
        ∀ {last}, begun.Runs last → last.toStop = [] → group.RolledBack index last) ∧
    (∀ {later begun}, group.startAll net = (none, later, begun) →
      startMembers net 0 group.members =
          { net := later, members := begun.members, calls := starts group.members.length } ∧
        begun.calls = group.calls ++ starts group.members.length ∧
        ∀ member ∈ begun.members, member.Ready → member.isRunning = true) ∧
    (∀ {last}, group.stopAll.Runs last → last.toStop = [] →
      last.calls = group.calls ++ stops group.members.length ∧
        last.members = group.members.map Sidecar.fresh ∧
        (∀ member ∈ last.members, member.isRunning = false ∧ member.address? = none) ∧
        (∀ {again}, last.stopAll.Runs again → again.members = last.members ∧
          ∀ {takesOne now net net' next}, again.step takesOne now net = some (net', next) →
            net' = net) ∧
        ∃ again, last.stopAll.Runs again ∧ again.toStop = []) ∧
    ∀ {last : SidecarGroup} {index rest takesOne now net}, last.toStop = index :: rest →
      last.step takesOne now net = none →
        ∃ member, last.members[index]? = some member ∧ member.isStopping = true := by
  refine ⟨?_, ?_, ?_, stopping_of_waiting⟩
  · intro error later begun hstart
    obtain ⟨index, launch, hlaunch, hfailure, rfl, rfl⟩ := startAll_of_error hstart
    obtain ⟨count, member, started, hcount, hmember, htake, herror, hsame, _⟩ :=
      startMembers_of_some hlaunch hfailure
    obtain rfl : index = count := hcount.trans (Nat.zero_add _)
    rw [startsFrom_zero] at htake
    exact ⟨index, member, started, hmember, htake, herror, hsame,
      fun hruns hover => rolledBack_of_error hmembers hlaunch hfailure hruns hover⟩
  · intro later begun hstart
    obtain ⟨hlaunch, hcalls⟩ := startAll_of_none hstart
    refine ⟨hlaunch, hcalls, ?_⟩
    intro member hmember hready
    obtain ⟨position, hlt, hposition⟩ := List.getElem_of_mem hmember
    obtain ⟨_, hlength, hall⟩ := startMembers_of_none hlaunch rfl
    obtain ⟨before, after, next, hnext, hone⟩ :=
      hall (List.getElem?_eq_getElem (hlength ▸ hlt))
    rw [List.getElem?_eq_getElem hlt, hposition, Option.some.injEq] at hnext
    subst hnext
    rcases (Sidecar.start_of_ok hone).2.2.2 with ⟨hsame, hunready⟩ | ⟨hrunning, _⟩
    · exact absurd (hsame ▸ hready) hunready
    · exact hrunning
  · intro last hruns hover
    obtain ⟨hcalls, hlast⟩ :=
      members_of_stopAll (fun member hmember => (hmembers member hmember).sound) hruns hover
    have hfresh : ∀ member ∈ last.stopAll.members, member = member.fresh := by
      intro member hmember
      have hmember : member ∈ last.members := hmember
      rw [hlast, List.mem_map] at hmember
      obtain ⟨origin, _, rfl⟩ := hmember
      exact (Sidecar.fresh_fresh origin).symm
    refine ⟨hcalls, hlast, fun member hmember => ?_, ?_, over_of_fresh hfresh rfl⟩
    · rw [hfresh member hmember]
      exact ⟨member.isRunning_fresh, member.address?_fresh⟩
    · exact fun {again} => @fresh_of_runs last.stopAll again hfresh

/-- A server, a client, and a second server at the address of the first one. -/
def conflicting : SidecarGroup where
  members :=
    [.health { config := { bindAddr := "127.0.0.1", port := 4001 } },
      .cnode { config := { serverIp := some "127.0.0.1" } },
      .health { config := { bindAddr := "127.0.0.1", port := 4001 } }]

theorem reachable_conflicting : ∀ member ∈ conflicting.members, member.Reachable := by
  intro member hmember
  simp only [conflicting, List.mem_cons, List.not_mem_nil, or_false] at hmember
  rcases hmember with rfl | rfl | rfl
  · exact .server _
  · exact .client _
  · exact .server _

/-- A server and a client are started, a second server fails because the first one listens at
its address, and the client and the first server are stopped again. -/
theorem all_or_nothing_of_conflict : ∃ (group begun last : SidecarGroup) (later : Net),
    (∀ member ∈ group.members, member.Reachable) ∧
      group.startAll {} =
        (some (.health (.bindFailed ⟨.v4 127 0 0 1, 4001⟩ .addressInUse)), later, begun) ∧
      begun.Runs last ∧ last.toStop = [] ∧ ∃ index, group.RolledBack index last := by
  have hstep {middle next : SidecarGroup} {later : Net}
      (h : (conflicting.startAll {}).2.2.Runs middle)
      (hstep : middle.step true 0 {} = some (later, next)) :
      (conflicting.startAll {}).2.2.Runs next :=
    .step h hstep
  have htell := hstep .refl rfl
  have hopened := hstep htell rfl
  have hquit := hstep hopened rfl
  have hclient := hstep hquit rfl
  have hnext := hstep hclient rfl
  have hdismissed := hstep hnext rfl
  have hserver := hstep hdismissed rfl
  obtain ⟨herror, _⟩ := all_or_nothing reachable_conflicting {}
  obtain ⟨index, _, _, _, _, _, _, hback⟩ := herror rfl
  exact ⟨conflicting, _, _, _, reachable_conflicting, rfl, hserver, rfl, index, hback hserver rfl⟩

end SidecarGroup

end NodeHealth
