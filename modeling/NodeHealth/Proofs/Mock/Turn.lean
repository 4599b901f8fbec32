import NodeHealth.Cnode.Mock
import NodeHealth.Proofs.Net.Acts

/-!
# What the mock server changes

The mock server takes the oldest connection at its listener, unless accepting fails, and then
goes on with it until the session ends. `MockRun.step_cases` says so of every step: a session
changes nothing in the network but its own connection, and nothing of the server but where the
session stands.

-/

namespace NodeHealth

namespace Net

/-- Nothing has changed but one connection. -/
structure Only (id : LinkId) (net later : Net) : Prop where
  attempts : later.attempts = net.attempts
  listeners : later.listeners = net.listeners
  links : later.links.length = net.links.length
  link : ∀ {other}, id ≠ other → later.link other = net.link other

variable {id : LinkId} {net middle later : Net}

theorem Only.refl (id : LinkId) (net : Net) : Only id net net :=
  ⟨rfl, rfl, rfl, fun _ => rfl⟩

theorem Only.trans (h : Only id net middle) (h' : Only id middle later) : Only id net later where
  attempts := h'.attempts.trans h.attempts
  listeners := h'.listeners.trans h.listeners
  links := h'.links.trans h.links
  link := fun hother => (h'.link hother).trans (h.link hother)

theorem only_changeLink (id : LinkId) (net : Net) (change : Link → Link) :
    Only id net (net.changeLink id change) :=
  ⟨rfl, rfl, length_changeLink net id change, fun hother => link_changeLink_of_ne net change hother⟩

theorem Only.attempt (h : Only id net later) (attempt : AttemptId) :
    later.attempt attempt = net.attempt attempt := by
  simp only [Net.attempt, h.attempts]

theorem Only.queue (h : Only id net later) (listener : ListenerId) :
    later.queue listener = net.queue listener := by
  simp only [Net.queue, Net.listener?, h.listeners]

/-- Nothing has changed that a connection or the line at a listener shows. -/
structure SameLine (id : ListenerId) (net later : Net) : Prop where
  attempts : later.attempts = net.attempts
  links : later.links = net.links
  queue : later.queue id = net.queue id
  receives : ∀ {listener}, net.Receives id listener → ∃ found, later.Receives id found

theorem SameLine.refl (id : ListenerId) (net : Net) : SameLine id net net :=
  ⟨rfl, rfl, rfl, fun h => ⟨_, h⟩⟩

/-- Whoever cannot accept leaves the line as it was. -/
theorem sameLine_of_reception {cause : IoCause}
    (h : net.reception? id = some (later, .error cause)) : SameLine id net later := by
  obtain ⟨hqueue, hlinks, hattempts, _, hreceives⟩ := reception?_error_cases h
  exact ⟨hattempts, hlinks, hqueue, hreceives⟩

end Net

/-! ## Sessions -/

namespace Session

variable {session next : Session} {net later : Net}

theorem receive_done {reader : Frame.Reader} {result : Except ConnectionError Bytes}
    (h : session.receive net reader = .done (later, next, result)) :
    net.Only session.link later ∧ next.link = session.link := by
  have hreceived : ∀ {changed : Net} {found : Except WireError Bytes},
      net.Only session.link changed →
        session.received changed found = (later, next, result) →
          net.Only session.link later ∧ next.link = session.link := by
    intro changed found hchanged hfound
    cases found <;> cases hfound <;> exact ⟨hchanged, rfl⟩
  simp only [receive] at h
  split at h
  · cases h
  · exact hreceived (.refl _ _) (Poll.done.inj h)
  · exact hreceived (Net.only_changeLink _ _ _) (Poll.done.inj h)
  · split at h
    · cases h
    · exact hreceived (Net.only_changeLink _ _ _) (Poll.done.inj h)

theorem receive_advanced {reader following : Frame.Reader}
    (h : session.receive net reader = .advanced (later, following)) :
    net.Only session.link later := by
  simp only [receive] at h
  split at h
  · cases h
  · cases h
  · cases h
  · split at h
    · cases h
      exact Net.only_changeLink _ _ _
    · cases h

theorem deliver_done {sending : Sending} {result : Except ConnectionError Unit}
    (h : session.deliver net sending = .done (later, next, result)) :
    net.Only session.link later ∧ next.link = session.link := by
  simp only [deliver] at h
  split at h
  · cases h
    exact ⟨Net.only_changeLink _ _ _, rfl⟩
  · split at h
    · cases h
      exact ⟨Net.only_changeLink _ _ _, rfl⟩
    · split at h <;> cases h

theorem deliver_advanced {sending following : Sending}
    (h : session.deliver net sending = .advanced (later, following)) :
    net.Only session.link later := by
  simp only [deliver] at h
  split at h
  · cases h
  · split at h
    · cases h
    · split at h
      · cases h
      · cases h
        exact Net.only_changeLink _ _ _

end Session

theorem Session.only_close (session : Session) (net : Net) :
    net.Only session.link (session.close net) :=
  Net.only_changeLink _ _ _

/-- The session that the server is in. -/
def MockPhase.session? : MockPhase → Option Session
  | accepting => none
  | identifying session _ _ => some session
  | pausing session _ _ => some session
  | requesting session _ _ _ => some session
  | awaiting session _ _ _ => some session
  | finished _ => none
  | turnedAway _ => none

namespace MockSession

/-- The session that the server is in. -/
def session? (mock : MockSession) : Option Session :=
  mock.phase.session?

/-- A session on a connection goes on, or it ends, and nothing else changes. -/
structure Advances (link : LinkId) (net : Net) (mock : MockSession) (result : Net × MockSession) :
    Prop where
  only : net.Only link result.1
  listener : result.2.listener = mock.listener
  options : result.2.options = mock.options
  session : ∀ session, result.2.session? = some session → session.link = link

variable {now : Instant} {net middle : Net} {mock : MockSession} {link : LinkId}
  {session : Session}

theorem Advances.of_only {result : Net × MockSession} (h : net.Only link middle)
    (h' : mock.Advances link middle result) : mock.Advances link net result :=
  ⟨h.trans h'.only, h'.listener, h'.options, h'.session⟩

theorem advances_enter {phase : MockPhase}
    (h : ∀ session, phase.session? = some session → session.link = link) :
    mock.Advances link net (net, mock.enter phase) :=
  ⟨.refl _ _, rfl, rfl, h⟩

theorem advances_finish (result : Except MockError Nat) :
    mock.Advances session.link net (mock.finish net session result) :=
  ⟨session.only_close net, rfl, rfl, fun _ h => by cases h⟩

theorem advances_finish_of_prepare {payload : Bytes} {later : Session}
    {prepared : Except ConnectionError Session.Sending}
    (h : session.prepare payload = (prepared, later)) (result : Except MockError Nat) :
    mock.Advances session.link net (mock.finish net later result) := by
  have hlater := Session.eq_holding_of_prepare h
  have hlink : later.link = session.link := by rw [hlater]; rfl
  rw [← hlink]
  exact advances_finish result

theorem advances_request (done : Nat) :
    mock.Advances session.link net (mock.request now net session done) := by
  simp only [request]
  split
  · exact advances_finish _
  · split
    · rename_i hprepare
      refine advances_enter fun found hfound => ?_
      cases hfound
      rw [Session.eq_holding_of_prepare hprepare]
      rfl
    · rename_i hprepare
      exact advances_finish_of_prepare hprepare _

theorem advances_proceed (done : Nat) :
    mock.Advances session.link net (mock.proceed now net session done) := by
  simp only [proceed]
  split
  · exact advances_finish _
  · split
    · exact advances_enter fun found hfound => by cases hfound; rfl
    · exact advances_request done

theorem advances_checkIdentity (payload : Bytes) :
    mock.Advances session.link net (mock.checkIdentity now net session payload) := by
  simp only [checkIdentity]
  split
  · exact advances_proceed 0
  · exact advances_finish _

theorem advances_checkReply (done : Nat) (payload : Bytes) :
    mock.Advances session.link net (mock.checkReply now net session done payload) := by
  simp only [checkReply]
  split
  · exact advances_proceed _
  · exact advances_finish _

/-- Whatever is received, nothing changes but the connection of the session. -/
theorem advances_receive {reader : Frame.Reader} {late : Prop} [Decidable late]
    {received : Net → Session → Bytes → Net × MockSession}
    {failed : Net → Session → ConnectionError → Net × MockSession}
    {more : Frame.Reader → MockPhase} {result : Net × MockSession}
    (hreceived : ∀ net visit payload, visit.link = session.link →
      mock.Advances session.link net (received net visit payload))
    (hfailed : ∀ net visit error, visit.link = session.link →
      mock.Advances session.link net (failed net visit error))
    (hmore : ∀ reader, (more reader).session? = some session)
    (h : (match session.receive net reader with
      | .done (net, session, .ok payload) => some (received net session payload)
      | .done (net, session, .error error) => some (failed net session error)
      | .advanced (net, reader) => some (net, mock.enter (more reader))
      | .blocked => if late then some (failed net session .timeout) else none) = some result) :
    mock.Advances session.link net result := by
  split at h
  · rename_i hreceive
    obtain ⟨honly, hlink⟩ := Session.receive_done hreceive
    cases h
    exact .of_only honly (hreceived _ _ _ hlink)
  · rename_i hreceive
    obtain ⟨honly, hlink⟩ := Session.receive_done hreceive
    cases h
    exact .of_only honly (hfailed _ _ _ hlink)
  · rename_i hreceive
    cases h
    refine .of_only (Session.receive_advanced hreceive) (advances_enter fun found hfound => ?_)
    cases (hmore _).symm.trans hfound
    rfl
  · split at h
    · cases h
      exact hfailed _ _ _ rfl
    · cases h

/-- A step takes the oldest connection, fails to accept one, or goes on with the session. -/
theorem step_cases {result : Net × MockSession} (h : mock.step now net = some result) :
    (mock.phase = .accepting ∧ ∃ link later,
        net.reception? mock.listener = some (later, .ok link) ∧
          result = (later, mock.greet now link)) ∨
      (mock.phase = .accepting ∧ ∃ cause later,
        net.reception? mock.listener = some (later, .error cause) ∧
          result = (later, mock.enter (.turnedAway (.ofSystem cause)))) ∨
      ∃ session, mock.session? = some session ∧ mock.Advances session.link net result := by
  cases hphase : mock.phase with
  | accepting =>
      simp only [step, hphase, Option.map_eq_some_iff] at h
      obtain ⟨⟨later, cause | link⟩, hreception, rfl⟩ := h
      · exact .inr (.inl ⟨rfl, cause, later, hreception, rfl⟩)
      · exact .inl ⟨rfl, link, later, hreception, rfl⟩
  | identifying session reader deadline =>
      refine .inr (.inr ⟨session, by simp [session?, hphase, MockPhase.session?], ?_⟩)
      simp only [step, hphase] at h
      exact advances_receive (fun _ _ payload hlink => hlink ▸ advances_checkIdentity payload)
        (fun _ _ _ hlink => hlink ▸ advances_finish _) (fun _ => rfl) h
  | pausing session done wake =>
      refine .inr (.inr ⟨session, by simp [session?, hphase, MockPhase.session?], ?_⟩)
      simp only [step, hphase] at h
      split at h
      · cases h
        exact advances_request done
      · cases h
  | requesting session sending deadline done =>
      refine .inr (.inr ⟨session, by simp [session?, hphase, MockPhase.session?], ?_⟩)
      simp only [step, hphase] at h
      split at h
      · rename_i hdeliver
        obtain ⟨honly, hlink⟩ := Session.deliver_done hdeliver
        cases h
        exact .of_only honly (advances_enter fun found hfound => by cases hfound; exact hlink)
      · rename_i hdeliver
        obtain ⟨honly, hlink⟩ := Session.deliver_done hdeliver
        cases h
        exact .of_only honly (hlink ▸ advances_finish _)
      · rename_i hdeliver
        cases h
        exact .of_only (Session.deliver_advanced hdeliver)
          (advances_enter fun found hfound => by cases hfound; rfl)
      · split at h
        · cases h
          exact advances_finish _
        · cases h
  | awaiting session reader deadline done =>
      refine .inr (.inr ⟨session, by simp [session?, hphase, MockPhase.session?], ?_⟩)
      simp only [step, hphase] at h
      exact advances_receive (fun _ _ payload hlink => hlink ▸ advances_checkReply done payload)
        (fun _ _ _ hlink => hlink ▸ advances_finish _) (fun _ => rfl) h
  | finished result => simp [step, hphase] at h
  | turnedAway failure => simp [step, hphase] at h

end MockSession

namespace MockRun

/-- The session that the server is in. -/
def session? (run : MockRun) : Option Session :=
  run.session.session?

variable {now : Instant} {net later : Net} {run next : MockRun}

/-- A step takes the oldest connection, goes on with the session, or leaves the line as it is:
accepting fails, or the server is done with a session that has ended. -/
theorem step_cases (h : run.step now net = some (later, next)) :
    (run.session? = none ∧ run.isOver = false ∧
        ∃ link, net.reception? run.session.listener = some (later, .ok link) ∧
          next = { run with session := run.session.greet now link }) ∨
      (∃ session, run.session? = some session ∧ next.isOver = false ∧
        run.session.step now net = some (later, next.session) ∧
        run.session.Advances session.link net (later, next.session)) ∨
      run.session? = none ∧ net.SameLine run.session.listener later ∧ next.session? = none ∧
        next.session.listener = run.session.listener := by
  simp only [step] at h
  split at h
  · cases h
  · rename_i hover
    rw [Bool.not_eq_true] at hover
    split at h
    · rename_i hresult
      obtain ⟨⟨later, session⟩, hstep, hnext⟩ := Option.map_eq_some_iff.mp h
      cases hnext
      rcases MockSession.step_cases hstep with ⟨hphase, link, _, haccept, heq⟩ |
        ⟨hphase, cause, _, hfails, heq⟩ | ⟨visit, hvisit, hadvances⟩
      · cases heq
        exact .inl ⟨by simp [session?, MockSession.session?, hphase, MockPhase.session?], hover,
          link, haccept, rfl⟩
      · cases heq
        exact .inr (.inr ⟨by simp [session?, MockSession.session?, hphase, MockPhase.session?],
          Net.sameLine_of_reception hfails, rfl, rfl⟩)
      · exact .inr (.inl ⟨visit, hvisit, hover, hstep, hadvances⟩)
    · rename_i result hresult
      have hnone : run.session? = none := by
        unfold session? MockSession.session?
        cases hphase : run.session.phase <;>
          simp [MockSession.result?, hphase, MockPhase.session?] at hresult ⊢
      split at h
      · cases h
        exact .inr (.inr ⟨hnone, .refl _ _, rfl, rfl⟩)
      · cases h
        exact .inr (.inr ⟨hnone, .refl _ _, hnone, rfl⟩)

/-- A server that is to serve further clients is never done. -/
theorem isOver_of_step (h : run.step now net = some (later, next))
    (hkeep : next.session.options.keepAccepting = true) : next.isOver = false := by
  simp only [step] at h
  split at h
  · cases h
  · rename_i hover
    rw [Bool.not_eq_true] at hover
    split at h
    · obtain ⟨_, _, hnext⟩ := Option.map_eq_some_iff.mp h
      cases hnext
      exact hover
    · split at h
      · cases h
        exact hover
      · rename_i hlast
        cases h
        exact absurd hkeep hlast

/-- A session that has not ended goes on by itself. -/
theorem step_of_session {session : Session} (hover : run.isOver = false)
    (h : run.session? = some session) :
    run.step now net = (run.session.step now net).map fun (net, session) =>
      (net, { run with session }) := by
  have hresult : run.session.result? = none := by
    unfold session? MockSession.session? at h
    cases hphase : run.session.phase <;>
      simp [MockSession.result?, hphase, MockPhase.session?] at h ⊢
  simp [step, hover, hresult]

end MockRun

end NodeHealth
