import NodeHealth.Proofs.Mock.Verdict

/-!
# How a session of the mock server ends

`Interview.Ends` lists what a session of the mock server ends with and why: only the last
reply, or a client that was free to hang up, lets it pass. A frame that is too long, a
deadline and a client that leaves too early are errors, whatever was answered before
(`Interview.verdict_sound`).

-/

namespace NodeHealth

open NodeHealth.Frame (series)
open MockSession (Awaited HangUp Judged Listens frames)

namespace Link

/-- A frame is complete with what has arrived at the server. -/
def Brings (link : Link) (payload : Bytes) : Prop :=
  ∃ front rest, link.arrival .acceptor = .bytes (front ++ rest) ∧
    frames (link.heard ++ front) = frames link.heard ++ [payload]

/-- Behind its complete frames the client declares a length that is too large. -/
def Oversteps (link : Link) (length : UInt64) : Prop :=
  ∃ declared body, (series .fixed32 CnodeClient.maxRequestLength link.dialler.written).2 =
      declared ++ body ∧
    declared.length = Frame.fixedPrefixLength ∧
    CnodeClient.maxRequestLength < ofLittleEndian declared ∧
    length = UInt64.ofNat (ofLittleEndian declared)

/-- The client has hung up or its connection has failed, and this is what the server makes
of it. -/
inductive Gone (link : Link) : ConnectionError → Prop
  | ended (harrival : link.arrival .acceptor = .ended) : Gone link .closed
  | failed {cause : IoCause} (harrival : link.arrival .acceptor = .failed cause) :
      Gone link (.protocol (.io (.ofSystem cause)))
  | unwritable {bytes : Bytes} {cause : IoCause} {later : Link}
      (hwrite : link.write .acceptor bytes = (.failed cause, later)) : Gone link (.ofCause cause)

/-- The bytes that a client writes begin with the frames of some payloads. -/
def Opens (link : Link) (payloads : List Bytes) : Prop :=
  ∃ (pieces : List Bytes) (rest : Bytes),
    payloads.map (Frame.encode .fixed32) = pieces.map .ok ∧
      link.dialler.written = pieces.flatten ++ rest ∧
      ∀ payload ∈ payloads, payload.length ≤ CnodeClient.maxRequestLength

/-- What the server has read are the first frames of the client. -/
theorem opens_heard (link : Link) : link.Opens (frames link.heard) := by
  obtain ⟨pieces, hpieces, hheard, hbound⟩ :=
    Frame.series_encode CnodeClient.maxRequestLength link.heard
  refine ⟨pieces, (series .fixed32 CnodeClient.maxRequestLength link.heard).2 ++
    link.dialler.written.drop link.acceptor.taken, hpieces, ?_, hbound⟩
  rw [← List.append_assoc, ← hheard]
  exact (List.take_append_drop _ _).symm

theorem heard_append_unread {link : Link} {unread : Bytes}
    (h : link.arrival .acceptor = .bytes unread) : link.heard ++ unread = link.dialler.written := by
  rw [heard, ← unread_of_arrival h]
  exact List.take_append_drop _ _

end Link

namespace Interview

/-- The next step of the server is the last of its session and gives a result. -/
def Returns (scene : Interview) (result : Except MockError Nat) : Prop :=
  ∃ net mock, scene.mock.step scene.now scene.net = some (net, mock) ∧
    mock.phase = .finished result

/-- What a session on a connection ends with, and why. -/
inductive Ends (scene : Interview) (link : Link) : Except MockError Nat → Prop
  | answered {payload : Bytes} (hbrings : link.Brings payload)
      (hnumber : leadingNumber? payload = some 1)
      (hlast : (frames link.heard).length = scene.mock.options.limit) :
      Ends scene link (.ok scene.mock.options.limit)
  | wrongNodeType {payload : Bytes} (hbrings : link.Brings payload)
      (hnumber : leadingNumber? payload ≠ some 13) (hfirst : frames link.heard = []) :
      Ends scene link (.error (.wrongNodeType (leadingNumber? payload)))
  | wrongStatus {payload : Bytes} (hbrings : link.Brings payload)
      (hnumber : leadingNumber? payload ≠ some 1) (hlater : frames link.heard ≠ []) :
      Ends scene link (.error (.wrongStatus (leadingNumber? payload)))
  | oversized {length : UInt64} (hoversteps : link.Oversteps length) :
      Ends scene link
        (.error (.connection (.protocol (.frameTooLarge length CnodeClient.maxRequestLength))))
  | hungUp {error : ConnectionError} (hgone : link.Gone error)
      (hfree : HangUp scene.mock.options ((frames link.heard).length - 1) error) :
      Ends scene link (.ok ((frames link.heard).length - 1))
  | lost {error : ConnectionError} (hgone : link.Gone error)
      (hearly : ¬HangUp scene.mock.options ((frames link.heard).length - 1) error) :
      Ends scene link (.error (.connection error))
  | late {wake : Instant} (hwake : scene.mock.wake? = some wake) (hnow : wake ≤ scene.now) :
      Ends scene link (.error (.connection .timeout))

/-- What is said of a connection of the server: what it has read are the first frames of the
client, which show the result of the session once there is one, and are right until then. -/
structure Accounts (scene : Interview) (link : Link) : Prop where
  opens : link.Opens (frames link.heard)
  judged : ∀ result, scene.mock.result? = some (result.mapError .session) →
    Judged scene.mock.options link.heard link.acceptor.written result
  right : scene.mock.result? = none → MockSession.fault? (frames link.heard) = none

variable {scene : Interview} {link : Link} {session : Session}

theorem Recorded.accounts {id : LinkId} (h : scene.Recorded id) :
    scene.Accounts (scene.net.link id) where
  opens := Link.opens_heard _
  judged := by
    intro result hresult
    have hrecorded := h.phase
    rwa [MockSession.phase_of_result hresult] at hrecorded
  right := by
    intro hresult
    have hrecorded := h.phase
    cases hphase : scene.mock.phase with
    | accepting =>
        rw [hphase] at hrecorded
        cases hrecorded
    | identifying session reader deadline =>
        have hawaited : scene.mock.phase = Awaited.identity.phase session reader deadline := hphase
        exact (h.listens hawaited).fault?
    | pausing session done wake =>
        rw [hphase] at hrecorded
        exact MockSession.fault?_of_passing hrecorded.1.passing
    | requesting session sending deadline done =>
        exact MockSession.fault?_of_passing (h.rests hphase).1.passing
    | awaiting session reader deadline done =>
        have hawaited : scene.mock.phase = (Awaited.reply done).phase session reader deadline :=
          hphase
        exact (h.listens hawaited).fault?
    | finished outcome => simp [MockSession.result?, hphase] at hresult
    | turnedAway failure => simp [MockSession.result?, hphase] at hresult

/-! ## The list of endings is complete -/

/-- A client that is gone has hung up if it was free to do so, and is lost if not. -/
theorem Ends.of_gone {done : Nat} {error : ConnectionError} (hgone : link.Gone error)
    (hdone : (frames link.heard).length - 1 = done) :
    scene.Ends link (MockSession.resultOfFailure scene.mock.options done error) := by
  subst hdone
  rcases MockSession.resultOfFailure_cases scene.mock.options ((frames link.heard).length - 1)
    error with ⟨hfree, heq⟩ | ⟨hearly, heq⟩
  · rw [heq]
    exact .hungUp hgone hfree
  · rw [heq]
    exact .lost hgone hearly

/-- A deadline that has passed is an error whatever was answered. -/
theorem Ends.of_late {done : Nat} {wake : Instant} (hwake : scene.mock.wake? = some wake)
    (hnow : wake ≤ scene.now) :
    scene.Ends link (MockSession.resultOfFailure scene.mock.options done .timeout) := by
  rw [MockSession.resultOfFailure_timeout]
  exact .late hwake hnow

theorem brings_of_done {awaited : Awaited} {reader : Frame.Reader} {options : MockOptions}
    {written unread payload rest : Bytes}
    (h : Listens options link.heard written awaited reader)
    (harrival : link.arrival .acceptor = .bytes unread)
    (hfeed : reader.feed unread = .done (.ok payload) rest) : link.Brings payload := by
  obtain ⟨payloads, _, hmidway⟩ := h.midway
  obtain ⟨front, rfl, _⟩ := Frame.Reader.feed_taken hfeed
  refine ⟨front, rest, harrival, ?_⟩
  rw [MockSession.frames_of_midway hmidway, frames, hmidway.complete hfeed]

/-- A wrong frame is complained of. -/
theorem Ends.of_wrong {awaited : Awaited} {reader : Frame.Reader} {written payload : Bytes}
    (h : Listens scene.mock.options link.heard written awaited reader)
    (hbrings : link.Brings payload)
    (hnumber : leadingNumber? payload ≠ some awaited.number) :
    scene.Ends link (.error (awaited.complaint (leadingNumber? payload))) := by
  have hlength := h.length_eq
  cases awaited with
  | identity => exact .wrongNodeType hbrings hnumber (List.eq_nil_of_length_eq_zero hlength)
  | reply done =>
      refine .wrongStatus hbrings hnumber fun hnil => ?_
      rw [hnil] at hlength
      cases hlength

/-- A session that ends does so in one of the ways that are listed. -/
theorem Recorded.ends (hfits : scene.mock.Fits) (hsession : scene.mock.session? = some session)
    (h : scene.Recorded session.link) {result : Net × MockSession}
    {outcome : Except MockError Nat} (hturn : scene.mock.Turn scene.now scene.net result)
    (hresult : result.2.phase = .finished outcome) :
    scene.Ends (scene.net.link session.link) outcome := by
  have hhas := hfits session hsession
  cases hturn with
  | accepted => cases hresult
  | turnedAway => cases hresult
  | @more awaited => cases awaited <;> cases hresult
  | @right awaited _ _ _ unread payload rest hphase harrival hfeed hnumber =>
      cases MockSession.session_of_awaited hphase hsession
      have hlistens := h.listens hphase
      have hcounted : (session.countReceived payload).framing = .fixed32 := hhas.framing
      rcases MockSession.proceed_cases hcounted awaited.asked with ⟨hlimit, heq⟩ |
        ⟨_, _, heq⟩ | ⟨_, _, heq⟩
      · rw [heq] at hresult
        cases hresult
        have hmore := hlistens.more
        cases awaited with
        | identity => exact absurd hlimit (Nat.not_le_of_lt (MockSession.limit_pos _))
        | reply done =>
            have hlast : (MockSession.Awaited.reply done).asked = scene.mock.options.limit :=
              Nat.le_antisymm hmore hlimit
            rw [hlast]
            exact .answered (brings_of_done hlistens harrival hfeed) hnumber
              (hlistens.length_eq.trans hlast)
      · rw [heq] at hresult
        cases hresult
      · rw [heq] at hresult
        cases hresult
  | wrong hphase harrival hfeed hnumber =>
      cases MockSession.session_of_awaited hphase hsession
      cases hresult
      have hlistens := h.listens hphase
      exact .of_wrong hlistens (brings_of_done hlistens harrival hfeed) hnumber
  | refused hphase harrival hfeed =>
      cases MockSession.session_of_awaited hphase hsession
      cases hresult
      obtain ⟨_, _, hmidway⟩ := (h.listens hphase).midway
      obtain ⟨declared, body, hbehind, hlength, hlimit, rfl⟩ := hmidway.declares hfeed
      rw [Link.heard_append_unread harrival] at hbehind
      have hreceived : ∀ length limit, Session.receiveError (.frameTooLarge length limit) =
          .protocol (.frameTooLarge length limit) := fun _ _ => rfl
      rw [hreceived, MockSession.resultOfFailure_protocol]
      exact .oversized ⟨declared, body, hbehind, hlength, hlimit, rfl⟩
  | @ended awaited _ _ _ hphase harrival =>
      cases MockSession.session_of_awaited hphase hsession
      cases hresult
      have hdone := congrArg (· - 1) (h.listens hphase).length_eq
      exact .of_gone (.ended harrival) (hdone.trans awaited.asked_sub_one)
  | @failed awaited _ _ _ _ hphase harrival =>
      cases MockSession.session_of_awaited hphase hsession
      cases hresult
      have hdone := congrArg (· - 1) (h.listens hphase).length_eq
      exact .of_gone (.failed harrival) (hdone.trans awaited.asked_sub_one)
  | late hphase _ hdeadline =>
      cases hresult
      exact .of_late (MockSession.wake?_of_awaited hphase) hdeadline
  | resumed => cases hresult
  | wrote => cases hresult
  | sent => cases hresult
  | unsent hphase hwrite =>
      cases MockSession.session_of_requesting hphase hsession
      cases hresult
      have hdone := congrArg (· - 1) (h.rests hphase).1.length_eq
      exact .of_gone (.unwritable hwrite) hdone
  | stuck hphase hdeadline =>
      cases hresult
      exact .of_late (by simp only [MockSession.wake?, hphase]) hdeadline

/-- Whenever a client was taken, what the server has read from it are its first frames. A
result is the one that those frames and the requests that the server has written show, unless
no client could be accepted, and a session that ends does so in one of the ways that are
listed. -/
theorem verdict_sound (h : scene.Reachable) :
    (∀ link, scene.link = some link → scene.Accounts (scene.net.link link)) ∧
      (∀ result, scene.mock.result? = some result →
        (∃ failure, result = .error (.accept failure)) ∨ scene.link ≠ none) ∧
      ∀ result, scene.Returns result →
        ∃ link, scene.link = some link ∧ scene.Ends (scene.net.link link) result := by
  have hsound := h.sound
  refine ⟨fun link hlink => (h.recorded hlink).accounts, hsound.ended, ?_⟩
  rintro result ⟨net, mock, hstep, hresult⟩
  have hturn := MockSession.turn_of_step hsound.fits hstep
  rcases MockSession.step_cases hstep with ⟨_, _, _, _, heq⟩ |
    ⟨_, _, _, _, heq⟩ | ⟨session, hsession, hadvances⟩
  · cases heq
    cases hresult
  · cases heq
    cases hresult
  · have hlink := hsound.session session hsession
    exact ⟨session.link, hlink, (h.recorded hlink).ends hsound.fits hsession hturn hresult⟩

/-- A client that announces itself in two pieces and answers the only request. -/
theorem verdict_sound_of_one_request : ∃ scene later : Interview,
    scene.Reachable ∧ scene.Move later ∧ scene.link = some 0 ∧ scene.Returns (.ok 1) ∧
      scene.Ends (scene.net.link 0) (.ok 1) ∧ later.mock.result? = some (.ok 1) ∧
      Judged later.mock.options (later.net.link 0).heard
        (later.net.link 0).acceptor.written (.ok 1) := by
  have hbegin : Reachable _ :=
    @Reachable.begin 0 {} _ ⟨.loopback, 4000⟩ _ rfl { count := 1, timeoutMs := 1 }
  have hconnect : Reachable _ := .move hbegin (.others (.act (.connect 0) trivial))
  have haccept : Reachable _ := .move hconnect (.step rfl)
  have hpiece : Reachable _ := .move haccept
    (.others (.act (.write 0 .dialler [2, 0, 0]) (fun h => by cases h.1)))
  have hmore : Reachable _ := .move hpiece (.step rfl)
  have hannounce : Reachable _ := .move hmore
    (.others (.act (.write 0 .dialler [0, 8, 13]) (fun h => by cases h.1)))
  have hgreet : Reachable _ := .move hannounce (.step rfl)
  have hask : Reachable _ := .move hgreet (.step rfl)
  have hreply : Reachable _ := .move hask
    (.others (.act (.write 0 .dialler [2, 0, 0, 0, 8, 1]) (fun h => by cases h.1)))
  have hend : Reachable _ := .move hreply (.step rfl)
  obtain ⟨_, _, hends⟩ := verdict_sound hreply
  obtain ⟨haccounts, _, _⟩ := verdict_sound hend
  obtain ⟨link, hlink, hended⟩ := hends (.ok 1) ⟨_, _, rfl, rfl⟩
  cases hlink
  exact ⟨_, _, hreply, .step rfl, rfl, ⟨_, _, rfl, rfl⟩, hended, rfl,
    (haccounts 0 rfl).judged (.ok 1) rfl⟩

end Interview

end NodeHealth
