import NodeHealth.Proofs.Mock.Interview

/-!
# The verdict of the mock server

What a session of the mock server ends with is decided by the frames that the server has read
on its connection (`MockSession.Judged`): it passes only if the first frame announces the
right node type and a reply follows to every request, and the first frame that is wrong makes
it fail. How a session ends is `Interview.Ends`: only a session without a set number of
requests passes when the client hangs up.

## Implementation notes

In every phase the record of the server's end is what it has taken of the client's bytes and
what it has written itself. Others change neither, so that only the steps of the server have
to be looked at.

-/

namespace NodeHealth

open NodeHealth.Frame (series Midway)

/-! ## What the server has read -/

/-- What the server has taken of the client's bytes. -/
def Link.heard (link : Link) : Bytes :=
  link.dialler.written.take link.acceptor.taken

namespace MockSession

/-- The complete frames at the beginning of what a client writes. -/
def frames (bytes : Bytes) : List Bytes :=
  (series .fixed32 CnodeClient.maxRequestLength bytes).1

/-- What is wrong with the first frame that is not what it should be. -/
def fault? : List Bytes → Option MockError
  | [] => none
  | identity :: replies =>
      if leadingNumber? identity = some 13 then
        ((replies.map leadingNumber?).find? (· ≠ some 1)).map .wrongStatus
      else some (.wrongNodeType (leadingNumber? identity))

/-- The first of some frames announces the right node type, and so many replies follow. -/
def Passing (count : Nat) (payloads : List Bytes) : Prop :=
  ∃ identity replies, payloads = identity :: replies ∧ leadingNumber? identity = some 13 ∧
    replies.length = count ∧ ∀ reply ∈ replies, leadingNumber? reply = some 1

/-- What the result of a session says of the frames that the server has read and of what it has
written. -/
structure Judged (options : MockOptions) (heard written : Bytes)
    (result : Except MockError Nat) : Prop where
  passed : ∀ {count}, result = .ok count → Passing count (frames heard)
  counted : ∀ {count}, result = .ok count → options.count ≠ 0 →
    count = options.count ∧ written = questions count
  endless : ∀ {count}, result = .ok count → options.count = 0 →
    0 < count ∧ count ≤ MockOptions.maxCount ∧ questions count <+: written ∧
      written <+: questions (count + 1) ∧
      (count = MockOptions.maxCount → written = questions count)
  fault : ∀ {error}, fault? (frames heard) = some error →
    result = .error error ∧ written = questions ((frames heard).length - 1)
  wrong : ∀ {found}, result = .error (.wrongNodeType found) ∨
    result = .error (.wrongStatus found) → fault? (frames heard) ≠ none

/-- The frames before what the server waits for are right. -/
def Awaited.Follows (awaited : Awaited) (payloads : List Bytes) : Prop :=
  match awaited with
  | identity => payloads = []
  | reply done => Passing done payloads

variable {awaited : Awaited} {payloads : List Bytes} {payload : Bytes} {options : MockOptions}
  {heard written : Bytes}

theorem fault?_of_passing {count : Nat} (h : Passing count payloads) :
    fault? payloads = none := by
  obtain ⟨identity, replies, rfl, hidentity, _, hreplies⟩ := h
  simp only [fault?, if_pos hidentity, Option.map_eq_none_iff, List.find?_eq_none, List.mem_map]
  rintro number ⟨reply, hreply, rfl⟩
  simp [hreplies reply hreply]

namespace Awaited

theorem Follows.fault? (h : awaited.Follows payloads) : fault? payloads = none := by
  cases awaited with
  | identity =>
      cases h
      rfl
  | reply done => exact fault?_of_passing h

theorem Follows.length_eq (h : awaited.Follows payloads) : payloads.length = awaited.asked := by
  cases awaited with
  | identity =>
      cases h
      rfl
  | reply done =>
      obtain ⟨identity, replies, rfl, _, hlength, _⟩ := h
      rw [List.length_cons, hlength]
      rfl

/-- With the right frame all requests are answered. -/
theorem Follows.right (h : awaited.Follows payloads)
    (hnumber : leadingNumber? payload = some awaited.number) :
    Passing awaited.asked (payloads ++ [payload]) := by
  cases awaited with
  | identity =>
      cases h
      exact ⟨payload, [], rfl, hnumber, rfl, nofun⟩
  | reply done =>
      obtain ⟨identity, replies, rfl, hidentity, hlength, hreplies⟩ := h
      refine ⟨identity, replies ++ [payload], rfl, hidentity, ?_, fun reply hreply => ?_⟩
      · rw [List.length_append, hlength]
        rfl
      · rcases List.mem_append.mp hreply with hold | hnew
        · exact hreplies reply hold
        · rw [List.mem_singleton.mp hnew]
          exact hnumber

/-- The first wrong frame is what is complained of. -/
theorem Follows.wrong (h : awaited.Follows payloads)
    (hnumber : leadingNumber? payload ≠ some awaited.number) :
    MockSession.fault? (payloads ++ [payload]) =
      some (awaited.complaint (leadingNumber? payload)) := by
  cases awaited with
  | identity =>
      cases h
      have hother : leadingNumber? payload ≠ some 13 := hnumber
      simp [MockSession.fault?, hother, complaint]
  | reply done =>
      obtain ⟨identity, replies, rfl, hidentity, _, hreplies⟩ := h
      have hother : leadingNumber? payload ≠ some 1 := hnumber
      have hnone : (replies.map leadingNumber?).find? (· ≠ some 1) = none := by
        rw [List.find?_eq_none]
        rintro number hmem
        obtain ⟨reply, hreply, rfl⟩ := List.mem_map.mp hmem
        simp [hreplies reply hreply]
      simp only [List.cons_append, MockSession.fault?, if_pos hidentity, List.map_append,
        List.find?_append, hnone, Option.none_or, List.map_cons, List.map_nil]
      simp [hother, complaint]

end Awaited

/-! ## Results -/

theorem limit_pos (options : MockOptions) : 0 < options.limit := by
  unfold MockOptions.limit
  split
  · decide
  · rename_i hcount
    exact Nat.pos_of_ne_zero hcount

/-- A session that ends with its last request has passed. -/
theorem judged_of_answered {count : Nat} (hpassing : Passing count (frames heard))
    (hcount : count = options.limit) (hwritten : written = questions count) :
    Judged options heard written (.ok count) where
  passed := fun h => by
    cases h
    exact hpassing
  counted := fun h hset => by
    cases h
    rw [hcount, MockOptions.limit, if_neg hset] at hwritten ⊢
    exact ⟨rfl, hwritten⟩
  endless := fun h hunset => by
    cases h
    have hmax : count = MockOptions.maxCount := by rw [hcount, MockOptions.limit, if_pos hunset]
    refine ⟨hmax ▸ by decide, Nat.le_of_eq hmax, hwritten ▸ List.prefix_refl _, ?_,
      fun _ => hwritten⟩
    rw [hwritten, questions_succ]
    exact List.prefix_append _ _
  fault := fun h => by
    rw [fault?_of_passing hpassing] at h
    cases h
  wrong := fun h => by
    rcases h with h | h <;> cases h

/-- The wrong frame is the last that is read. -/
theorem judged_of_wrong (hfollows : awaited.Follows payloads)
    (hnumber : leadingNumber? payload ≠ some awaited.number)
    (hframes : frames heard = payloads ++ [payload])
    (hwritten : written = questions awaited.asked) :
    Judged options heard written (.error (awaited.complaint (leadingNumber? payload))) where
  passed := nofun
  counted := nofun
  endless := nofun
  fault := fun h => by
    rw [hframes, hfollows.wrong hnumber] at h
    cases h
    refine ⟨rfl, ?_⟩
    rw [hframes, List.length_append, hfollows.length_eq]
    exact hwritten
  wrong := fun _ => by
    rw [hframes, hfollows.wrong hnumber]
    nofun

/-- A failure is none of the frames, and a session that passes in spite of it is one that goes
on until the client hangs up. -/
theorem judged_of_failure {count : Nat} (hfault : fault? (frames heard) = none)
    (hpassing : 0 < count → Passing count (frames heard)) (hmore : count < options.limit)
    (hasked : questions count <+: written) (hwritten : written <+: questions (count + 1))
    (error : ConnectionError) :
    Judged options heard written (resultOfFailure options count error) := by
  rcases resultOfFailure_cases options count error with ⟨⟨hunset, hpos, _⟩, heq⟩ | ⟨_, heq⟩
  · rw [heq]
    refine ⟨fun h => ?_, fun _ hset => absurd hunset hset, fun h _ => ?_, fun h => ?_, ?_⟩
    · cases h
      exact hpassing hpos
    · cases h
      rw [MockOptions.limit, if_pos hunset] at hmore
      exact ⟨hpos, Nat.le_of_lt hmore, hasked, hwritten,
        fun hlast => absurd hlast (Nat.ne_of_lt hmore)⟩
    · rw [hfault] at h
      cases h
    · rintro found (h | h) <;> cases h
  · rw [heq]
    refine ⟨fun h => ?_, fun h => ?_, fun h => ?_, fun h => ?_, ?_⟩
    · cases h
    · cases h
    · cases h
    · rw [hfault] at h
      cases h
    · rintro found (h | h) <;> cases h

/-! ## The record of the server's end -/

/-- The server waits for a frame behind those that were right. -/
structure Listens (options : MockOptions) (heard written : Bytes) (awaited : Awaited)
    (reader : Frame.Reader) : Prop where
  midway : ∃ payloads, awaited.Follows payloads ∧
    Midway .fixed32 CnodeClient.maxRequestLength heard payloads reader
  written : written = questions awaited.asked
  more : awaited.done < options.limit

/-- The server has read right frames only, and is to send a further request. -/
structure Rests (options : MockOptions) (heard : Bytes) (done : Nat) : Prop where
  frames : ∃ payloads, Passing done payloads ∧
    series .fixed32 CnodeClient.maxRequestLength heard = (payloads, [])
  more : done < options.limit

end MockSession

open MockSession (Awaited Passing Judged Listens Rests frames question questions)

/-- What the bytes at the server's end say about the phase of its session. -/
def MockPhase.Recorded (options : MockOptions) (heard written : Bytes) : MockPhase → Prop
  | .accepting => False
  | .identifying _ reader _ => Listens options heard written .identity reader
  | .pausing _ done _ => Rests options heard done ∧ written = questions done
  | .requesting _ sending _ done => Rests options heard done ∧
      ∃ part, written = questions done ++ part ∧ part ++ sending.rest = question
  | .awaiting _ reader _ done => Listens options heard written (.reply done) reader
  | .finished result => Judged options heard written result
  | .turnedAway _ => False

namespace MockSession

theorem recorded_phase (awaited : Awaited) (session : Session) (reader : Frame.Reader)
    (deadline : Instant) (options : MockOptions) (heard written : Bytes) :
    (awaited.phase session reader deadline).Recorded options heard written =
      Listens options heard written awaited reader := by
  cases awaited <;> rfl

variable {awaited : Awaited} {options : MockOptions} {heard written : Bytes}
  {reader : Frame.Reader}

theorem frames_of_midway {payloads : List Bytes}
    (h : Midway .fixed32 CnodeClient.maxRequestLength heard payloads reader) :
    frames heard = payloads := by
  obtain ⟨begun, hseries, _⟩ := h
  rw [frames, hseries]

theorem Listens.fault? (h : Listens options heard written awaited reader) :
    fault? (frames heard) = none := by
  obtain ⟨payloads, hfollows, hmidway⟩ := h.midway
  rw [frames_of_midway hmidway]
  exact hfollows.fault?

theorem Listens.length_eq (h : Listens options heard written awaited reader) :
    (frames heard).length = awaited.asked := by
  obtain ⟨payloads, hfollows, hmidway⟩ := h.midway
  rw [frames_of_midway hmidway]
  exact hfollows.length_eq

theorem Rests.passing {done : Nat} (h : Rests options heard done) :
    Passing done (MockSession.frames heard) := by
  obtain ⟨payloads, hpassing, hseries⟩ := h.frames
  rwa [MockSession.frames, hseries]

theorem Rests.length_eq {done : Nat} (h : Rests options heard done) :
    (MockSession.frames heard).length = done + 1 := by
  obtain ⟨identity, replies, hframes, _, hlength, _⟩ := h.passing
  rw [hframes, List.length_cons, hlength]

theorem questions_mono (count : Nat) : questions count <+: questions (count + 1) := by
  rw [questions_succ]
  exact List.prefix_append _ _

theorem Awaited.questions_asked (awaited : Awaited) :
    questions awaited.done <+: questions awaited.asked ∧
      questions awaited.asked <+: questions (awaited.done + 1) := by
  cases awaited with
  | identity => exact ⟨List.prefix_refl _, questions_mono 0⟩
  | reply done => exact ⟨questions_mono done, List.prefix_refl _⟩

theorem Awaited.Follows.passing {payloads : List Bytes} (h : awaited.Follows payloads)
    (hdone : 0 < awaited.done) : Passing awaited.done payloads := by
  cases awaited with
  | identity => cases hdone
  | reply done => exact h

theorem Listens.more_of_feed (h : Listens options heard written awaited reader)
    {unread : Bytes} {next : Frame.Reader} (hfeed : reader.feed unread = .more next) :
    Listens options (heard ++ unread) written awaited next := by
  obtain ⟨payloads, hfollows, hmidway⟩ := h.midway
  exact ⟨⟨payloads, hfollows, hmidway.more hfeed⟩, h.written, h.more⟩

/-- A failure while the server waits is judged by the frames that it has read before. -/
theorem Listens.judged_failure (h : Listens options heard written awaited reader)
    {read : Bytes} (hread : ∀ payloads,
      Midway .fixed32 CnodeClient.maxRequestLength heard payloads reader →
        frames read = payloads) (error : ConnectionError) :
    Judged options read written (resultOfFailure options awaited.done error) := by
  obtain ⟨payloads, hfollows, hmidway⟩ := h.midway
  have hframes := hread payloads hmidway
  obtain ⟨hasked, hnext⟩ := awaited.questions_asked
  exact judged_of_failure (hframes ▸ hfollows.fault?) (fun hpos => hframes ▸ hfollows.passing hpos)
    h.more (h.written ▸ hasked) (h.written ▸ hnext) error

/-- A frame that is refused is no complete frame. -/
theorem frames_of_refused {payloads : List Bytes} {bytes rest : Bytes} {error : WireError}
    (h : Midway .fixed32 CnodeClient.maxRequestLength heard payloads reader)
    (hfeed : reader.feed bytes = .done (.error error) rest) :
    frames (heard ++ bytes) = payloads := by
  obtain ⟨behind, hseries, _⟩ := h.series_refused hfeed
  rw [frames, hseries]

theorem Listens.judged_wrong (h : Listens options heard written awaited reader)
    {payload front rest : Bytes}
    (hfeed : reader.feed (front ++ rest) = .done (.ok payload) rest)
    (hnumber : leadingNumber? payload ≠ some awaited.number) :
    Judged options (heard ++ front) written
      (.error (awaited.complaint (leadingNumber? payload))) := by
  obtain ⟨payloads, hfollows, hmidway⟩ := h.midway
  refine judged_of_wrong hfollows hnumber ?_ h.written
  rw [frames, hmidway.complete hfeed]

/-- With the right frame the server goes on to the next phase. -/
theorem Listens.recorded_right {mock : MockSession} {now : Instant} {net : Net}
    {session : Session} (h : Listens mock.options heard written awaited reader)
    {payload front rest : Bytes}
    (hfeed : reader.feed (front ++ rest) = .done (.ok payload) rest)
    (hnumber : leadingNumber? payload = some awaited.number)
    (hframing : session.framing = .fixed32) :
    (mock.proceed now net session awaited.asked).2.phase.Recorded mock.options
      (heard ++ front) written := by
  obtain ⟨payloads, hfollows, hmidway⟩ := h.midway
  have hpassing := hfollows.right hnumber
  have hseries := hmidway.complete hfeed
  rcases proceed_cases hframing awaited.asked with ⟨hlimit, heq⟩ | ⟨hlt, _, heq⟩ |
    ⟨hlt, hzero, heq⟩
  · rw [heq]
    refine judged_of_answered (by rwa [frames, hseries]) ?_ h.written
    have hmore := h.more
    cases awaited with
    | identity => exact absurd hlimit (Nat.not_le_of_lt (limit_pos _))
    | reply done => exact Nat.le_antisymm hmore hlimit
  · rw [heq]
    exact ⟨⟨⟨_, hpassing, hseries⟩, hlt⟩, h.written⟩
  · rw [heq]
    exact ⟨⟨⟨_, hpassing, hseries⟩, hlt⟩, [], by rw [h.written, List.append_nil], rfl⟩

/-- At the start of a connection the server waits for the announcement. -/
theorem listens_start (options : MockOptions) :
    Listens options [] [] .identity MockSession.reader := by
  have hnil : series .fixed32 CnodeClient.maxRequestLength [] = ([], []) :=
    Frame.series_of_error rfl
  exact ⟨⟨[], rfl, Frame.midway_start hnil⟩, rfl, limit_pos options⟩

/-- Once the request is written, the server waits for the reply. -/
theorem Rests.listens {done : Nat} (h : Rests options heard done)
    (hwritten : written = questions (done + 1)) :
    Listens options heard written (.reply done) MockSession.reader := by
  obtain ⟨payloads, hpassing, hseries⟩ := h.frames
  exact ⟨⟨payloads, hpassing, Frame.midway_start hseries⟩, hwritten, h.more⟩

theorem Rests.judged_failure {done : Nat} (h : Rests options heard done) {part rest : Bytes}
    (hwritten : written = questions done ++ part) (hpart : part ++ rest = question)
    (error : ConnectionError) :
    Judged options heard written (resultOfFailure options done error) := by
  refine judged_of_failure (fault?_of_passing h.passing) (fun _ => h.passing) h.more ?_ ?_ error
  · rw [hwritten]
    exact List.prefix_append _ _
  · rw [hwritten, questions_succ, ← hpart, ← List.append_assoc]
    exact List.prefix_append _ _

end MockSession

/-! ## The server's end of a connection -/

namespace Link

variable {link later : Link}

/-- Two states of a connection with the same bytes at the server's end. -/
structure Kept (link later : Link) : Prop where
  told : later.dialler.written = link.dialler.written
  taken : later.acceptor.taken = link.acceptor.taken
  written : later.acceptor.written = link.acceptor.written

theorem kept_leave (link : Link) : link.Kept (link.leave .acceptor) := by
  unfold leave close
  split <;> exact ⟨rfl, rfl, rfl⟩

theorem Kept.heard (h : link.Kept later) : later.heard = link.heard := by
  rw [Link.heard, h.told, h.taken, Link.heard]

/-- Taking the next bytes that are there goes on with what was read. -/
theorem heard_take (htaken : link.acceptor.taken ≤ link.dialler.written.length)
    {front rest : Bytes} (h : link.arrival .acceptor = .bytes (front ++ rest)) :
    (link.take .acceptor front.length).heard = link.heard ++ front ∧
      (link.take .acceptor front.length).acceptor.taken ≤
        (link.take .acceptor front.length).dialler.written.length := by
  have hunread : link.dialler.written.drop link.acceptor.taken = front ++ rest :=
    unread_of_arrival h
  have hlength := congrArg List.length hunread
  rw [List.length_drop, List.length_append] at hlength
  constructor
  · change link.dialler.written.take (link.acceptor.taken + front.length) = _
    rw [List.take_add, hunread, List.take_left, Link.heard]
  · change link.acceptor.taken + front.length ≤ link.dialler.written.length
    omega

/-- Others leave the record of the server's end. -/
theorem heard_beside (htaken : link.acceptor.taken ≤ link.dialler.written.length)
    (h : link.Beside .acceptor later) : later.heard = link.heard := by
  obtain ⟨more, hmore⟩ := h.grows
  have hsame : later.acceptor.taken = link.acceptor.taken := h.taken
  have htold : link.dialler.written ++ more = later.dialler.written := hmore
  rw [heard, hsame, ← htold, List.take_append_of_le_length htaken, heard]

/-- Writing adds to the server's bytes and to nothing else. -/
theorem told_wrote {bytes : Bytes} {count : Nat}
    (h : link.write .acceptor bytes = (.wrote count, later)) :
    later.acceptor.written = link.acceptor.written ++ bytes.take count ∧
      later.acceptor.taken = link.acceptor.taken ∧ later.dialler = link.dialler := by
  obtain ⟨rfl, _⟩ := write_wrote_eq h
  exact ⟨rfl, rfl, rfl⟩

theorem heard_wrote {bytes : Bytes} {count : Nat}
    (h : link.write .acceptor bytes = (.wrote count, later)) : later.heard = link.heard := by
  obtain ⟨_, htaken, htold⟩ := told_wrote h
  rw [heard, htaken, htold, heard]

theorem kept_failed {bytes : Bytes} {cause : IoCause}
    (h : link.write .acceptor bytes = (.failed cause, later)) : link.Kept later := by
  rcases write_failed_cases h with ⟨_, rfl⟩ | ⟨_, _, rfl⟩ <;> exact ⟨rfl, rfl, rfl⟩

end Link

namespace Interview

variable {scene later : Interview} {net : Net} {mock : MockSession}

/-- What the bytes at the server's end of its connection say about its session. -/
structure Recorded (scene : Interview) (link : LinkId) : Prop where
  taken : (scene.net.link link).acceptor.taken ≤ (scene.net.link link).dialler.written.length
  phase : scene.mock.phase.Recorded scene.mock.options (scene.net.link link).heard
    (scene.net.link link).acceptor.written

/-- The connection of a session is changed, and the session goes on in another phase. -/
theorem recorded_change {link : LinkId} (change : Link → Link) (phase : MockPhase)
    (hlink : link < scene.net.links.length)
    (htaken : (change (scene.net.link link)).acceptor.taken ≤
      (change (scene.net.link link)).dialler.written.length)
    (hphase : phase.Recorded scene.mock.options (change (scene.net.link link)).heard
      (change (scene.net.link link)).acceptor.written) :
    (scene.after (scene.net.changeLink link change) (scene.mock.enter phase)).Recorded link := by
  have hsame := Net.link_changeLink scene.net link change hlink
  constructor
  · change ((scene.net.changeLink link change).link link).acceptor.taken ≤
      ((scene.net.changeLink link change).link link).dialler.written.length
    rw [hsame]
    exact htaken
  · change phase.Recorded scene.mock.options
      ((scene.net.changeLink link change).link link).heard
      ((scene.net.changeLink link change).link link).acceptor.written
    rw [hsame]
    exact hphase

/-- A session that ends leaves the record of its connection as the last change left it. -/
theorem recorded_ended {link : LinkId} (change : Link → Link) {result : Except MockError Nat}
    (hlink : link < scene.net.links.length)
    (htaken : (change (scene.net.link link)).acceptor.taken ≤
      (change (scene.net.link link)).dialler.written.length)
    (hjudged : Judged scene.mock.options (change (scene.net.link link)).heard
      (change (scene.net.link link)).acceptor.written result) :
    (scene.after (scene.net.changeLink link fun link => (change link).leave .acceptor)
      (scene.mock.enter (.finished result))).Recorded link := by
  have hkept := (change (scene.net.link link)).kept_leave
  refine recorded_change (fun link => (change link).leave .acceptor) (.finished result) hlink ?_ ?_
  · rw [hkept.taken, hkept.told]
    exact htaken
  · change Judged scene.mock.options ((change (scene.net.link link)).leave .acceptor).heard
      ((change (scene.net.link link)).leave .acceptor).acceptor.written result
    rw [hkept.heard, hkept.written]
    exact hjudged

theorem Recorded.listens {link : LinkId} (h : scene.Recorded link) {awaited : Awaited}
    {session : Session} {reader : Frame.Reader} {deadline : Instant}
    (hphase : scene.mock.phase = awaited.phase session reader deadline) :
    Listens scene.mock.options (scene.net.link link).heard
      (scene.net.link link).acceptor.written awaited reader := by
  have hrecorded := h.phase
  rwa [hphase, MockSession.recorded_phase] at hrecorded

theorem Recorded.rests {link : LinkId} (h : scene.Recorded link) {session : Session}
    {sending : Session.Sending} {deadline : Option Instant} {done : Nat}
    (hphase : scene.mock.phase = .requesting session sending deadline done) :
    Rests scene.mock.options (scene.net.link link).heard done ∧
      ∃ part, (scene.net.link link).acceptor.written = questions done ++ part ∧
        part ++ sending.rest = question := by
  have hrecorded := h.phase
  rwa [hphase] at hrecorded

/-- A right frame was the last of the session, or the session goes on behind it. -/
theorem recorded_proceed {session : Session} {count done : Nat}
    (hside : session.side = .acceptor) (hframing : session.framing = .fixed32)
    (hlink : session.link < scene.net.links.length)
    (htaken : ((scene.net.link session.link).take .acceptor count).acceptor.taken ≤
      ((scene.net.link session.link).take .acceptor count).dialler.written.length)
    {result : Net × MockSession}
    (hresult : result = scene.mock.proceed scene.now
      (scene.net.changeLink session.link (·.take .acceptor count)) session done)
    (hphase : result.2.phase.Recorded scene.mock.options
      ((scene.net.link session.link).take .acceptor count).heard
      ((scene.net.link session.link).take .acceptor count).acceptor.written) :
    (scene.after result.1 result.2).Recorded session.link := by
  rcases MockSession.proceed_cases hframing done with ⟨_, heq⟩ | ⟨_, _, heq⟩ | ⟨_, _, heq⟩
  · rw [hresult, heq, MockSession.finish_eq hside] at hphase ⊢
    rw [Net.changeLink_changeLink]
    exact recorded_ended (·.take .acceptor count) hlink htaken hphase
  · rw [hresult, heq] at hphase ⊢
    exact recorded_change (·.take .acceptor count) _ hlink htaken hphase
  · rw [hresult, heq] at hphase ⊢
    exact recorded_change (·.take .acceptor count) _ hlink htaken hphase

/-- A turn of a session leaves a record that belongs to where the session is then. -/
theorem Recorded.turn {session : Session} (hsound : scene.Sound)
    (hsession : scene.mock.session? = some session) (h : scene.Recorded session.link)
    {result : Net × MockSession} (hturn : scene.mock.Turn scene.now scene.net result) :
    (scene.after result.1 result.2).Recorded session.link := by
  have hlink := (hsound.link session.link (hsound.session session hsession)).1
  have hhas := hsound.fits session hsession
  cases hturn with
  | accepted hphase => simp [MockSession.session?, hphase, MockPhase.session?] at hsession
  | turnedAway hphase => simp [MockSession.session?, hphase, MockPhase.session?] at hsession
  | @more awaited _ _ next deadline unread hphase harrival hfeed =>
      cases MockSession.session_of_awaited hphase hsession
      rw [← List.append_nil unread] at harrival
      obtain ⟨hheard, htaken⟩ := Link.heard_take h.taken harrival
      refine recorded_change (·.take .acceptor unread.length) _ hlink htaken ?_
      rw [hheard, MockSession.recorded_phase]
      exact (h.listens hphase).more_of_feed hfeed
  | @right awaited _ _ _ unread payload rest hphase harrival hfeed hnumber =>
      cases MockSession.session_of_awaited hphase hsession
      obtain ⟨front, rfl, _⟩ := Frame.Reader.feed_taken hfeed
      obtain ⟨hheard, htaken⟩ := Link.heard_take h.taken harrival
      have hcounted : (session.countReceived payload).framing = .fixed32 := hhas.framing
      rw [List.length_append, Nat.add_sub_cancel]
      have hside : (session.countReceived payload).side = .acceptor := hhas.side
      refine recorded_proceed hside hcounted hlink htaken rfl ?_
      rw [show (session.countReceived payload).link = session.link from rfl, hheard]
      exact (h.listens hphase).recorded_right hfeed hnumber hcounted
  | @wrong _ _ _ _ _ payload rest hphase harrival hfeed hnumber =>
      cases MockSession.session_of_awaited hphase hsession
      obtain ⟨front, rfl, _⟩ := Frame.Reader.feed_taken hfeed
      obtain ⟨hheard, htaken⟩ := Link.heard_take h.taken harrival
      rw [List.length_append, Nat.add_sub_cancel]
      refine recorded_ended (·.take .acceptor front.length) hlink htaken ?_
      rw [hheard]
      exact (h.listens hphase).judged_wrong hfeed hnumber
  | @refused _ _ _ _ _ rest error hphase harrival hfeed =>
      cases MockSession.session_of_awaited hphase hsession
      obtain ⟨front, rfl, hfront⟩ := Frame.Reader.feed_taken hfeed
      obtain ⟨hheard, htaken⟩ := Link.heard_take h.taken harrival
      rw [List.length_append, Nat.add_sub_cancel]
      refine recorded_ended (·.take .acceptor front.length) hlink htaken ?_
      rw [hheard]
      exact (h.listens hphase).judged_failure
        (fun payloads hmidway => MockSession.frames_of_refused hmidway hfront) _
  | ended hphase =>
      cases MockSession.session_of_awaited hphase hsession
      exact recorded_ended id hlink h.taken ((h.listens hphase).judged_failure
        (fun payloads hmidway => MockSession.frames_of_midway hmidway) _)
  | failed hphase =>
      cases MockSession.session_of_awaited hphase hsession
      exact recorded_ended (·.report .acceptor) hlink h.taken ((h.listens hphase).judged_failure
        (fun payloads hmidway => MockSession.frames_of_midway hmidway) _)
  | late hphase =>
      cases MockSession.session_of_awaited hphase hsession
      exact recorded_ended id hlink h.taken ((h.listens hphase).judged_failure
        (fun payloads hmidway => MockSession.frames_of_midway hmidway) _)
  | @resumed visit done wake hphase hwake =>
      have hrecorded := h.phase
      rw [hphase] at hrecorded
      obtain ⟨hrests, hwritten⟩ := hrecorded
      exact ⟨h.taken, hrests, [], hwritten.trans (List.append_nil _).symm, rfl⟩
  | @wrote _ sending deadline done count link hphase hwrite hpart =>
      cases MockSession.session_of_requesting hphase hsession
      obtain ⟨hrests, part, hwritten, hrest⟩ := h.rests hphase
      obtain ⟨hnew, hsame, htold⟩ := Link.told_wrote hwrite
      refine recorded_change (fun _ => link) _ hlink ?_ ?_
      · rw [hsame, htold]
        exact h.taken
      · rw [Link.heard_wrote hwrite]
        refine ⟨hrests, part ++ sending.rest.take count, ?_, ?_⟩
        · rw [hnew, hwritten, List.append_assoc]
        · rw [List.append_assoc, List.take_append_drop]
          exact hrest
  | @sent _ sending deadline done count link hphase hwrite hall =>
      cases MockSession.session_of_requesting hphase hsession
      obtain ⟨hrests, part, hwritten, hrest⟩ := h.rests hphase
      obtain ⟨hnew, hsame, htold⟩ := Link.told_wrote hwrite
      refine recorded_change (fun _ => link) _ hlink ?_ ?_
      · rw [hsame, htold]
        exact h.taken
      · rw [Link.heard_wrote hwrite]
        refine hrests.listens ?_
        rw [hnew, hwritten, List.take_of_length_le hall, List.append_assoc, hrest,
          MockSession.questions_succ]
  | @unsent _ sending deadline done cause link hphase hwrite =>
      cases MockSession.session_of_requesting hphase hsession
      obtain ⟨hrests, part, hwritten, hrest⟩ := h.rests hphase
      have hkept := Link.kept_failed hwrite
      refine recorded_ended (fun _ => link) hlink ?_ ?_
      · rw [hkept.taken, hkept.told]
        exact h.taken
      · rw [hkept.heard, hkept.written]
        exact hrests.judged_failure hwritten hrest _
  | @stuck _ sending deadline done hphase hdeadline =>
      cases MockSession.session_of_requesting hphase hsession
      obtain ⟨hrests, part, hwritten, hrest⟩ := h.rests hphase
      exact recorded_ended id hlink h.taken (hrests.judged_failure hwritten hrest _)

/-! ## Every connection is on record -/

/-- Nothing was read from a connection that the server has just taken. -/
theorem recorded_accepted {link : LinkId} (huntouched : Untouched scene.net link)
    (hreception : scene.net.reception? scene.mock.listener = some (net, .ok link)) :
    (scene.after net (scene.mock.greet scene.now link)).Recorded link := by
  obtain ⟨_, hlinks, _, _⟩ := Net.accept?_cases (Net.reception?_eq_ok hreception).2
  obtain ⟨_, hwritten, htaken⟩ := huntouched
  have hsame : net.link link = scene.net.link link := by rw [Net.link, hlinks, Net.link]
  have hheard : (net.link link).heard = [] := by rw [hsame, Link.heard, htaken, List.take_zero]
  constructor
  · change (net.link link).acceptor.taken ≤ (net.link link).dialler.written.length
    rw [hsame, htaken]
    exact Nat.zero_le _
  · change Listens scene.mock.options (net.link link).heard (net.link link).acceptor.written
      .identity MockSession.reader
    rw [hheard, hsame, hwritten]
    exact MockSession.listens_start scene.mock.options

theorem Recorded.others {link : LinkId} (hsound : scene.Sound) (hlink : scene.link = some link)
    (h : scene.Recorded link) (hforeign : scene.net.Foreign scene.holdings net) :
    ({ scene with net } : Interview).Recorded link := by
  have hbeside : (scene.net.link link).Beside .acceptor (net.link link) :=
    hforeign.evolves.beside ⟨rfl, .inr hlink⟩ (hsound.link link hlink).1
  obtain ⟨more, hmore⟩ := hbeside.grows
  have htaken : (net.link link).acceptor.taken = (scene.net.link link).acceptor.taken :=
    hbeside.taken
  have hwritten : (net.link link).acceptor.written = (scene.net.link link).acceptor.written :=
    hbeside.written
  have htold : (scene.net.link link).dialler.written ++ more = (net.link link).dialler.written :=
    hmore
  constructor
  · change (net.link link).acceptor.taken ≤ (net.link link).dialler.written.length
    rw [htaken, ← htold, List.length_append]
    exact Nat.le_add_right_of_le h.taken
  · change scene.mock.phase.Recorded scene.mock.options (net.link link).heard
      (net.link link).acceptor.written
    rw [Link.heard_beside h.taken hbeside, hwritten]
    exact h.phase

/-- In every reachable interview the connection of the server is on record. -/
theorem Reachable.recorded (h : scene.Reachable) {link : LinkId}
    (hlink : scene.link = some link) : scene.Recorded link := by
  induction h generalizing link with
  | begin => cases hlink
  | @move scene later hscene hmove ih =>
      cases hmove with
      | @step net mock hstep =>
          have hsound := hscene.sound
          rcases MockSession.step_cases hstep with ⟨hphase, taken, later, hreception, heq⟩ |
            ⟨hphase, cause, later, hfails, heq⟩ | ⟨session, hsession, hadvances⟩
          · cases heq
            cases hlink
            have hqueue : scene.queue = taken :: net.queue scene.mock.listener :=
              (Net.accept?_cases (Net.reception?_eq_ok hreception).2).1
            exact recorded_accepted (hsound.queue taken (hqueue ▸ List.mem_cons_self)) hreception
          · -- A server that waits for a client has no connection on record.
            cases heq
            rw [link_after_of_none rfl] at hlink
            have hbefore := (ih hlink).phase
            rw [hphase] at hbefore
            exact hbefore.elim
          · have hturn := MockSession.turn_of_step hsound.fits hstep
            have hafter := (hsound.advanced hsession (hturn.fits hsound.fits) hadvances).2
            cases hafter.symm.trans hlink
            exact (ih (hsound.session session hsession)).turn hsound hsession hturn
      | others hforeign => exact (ih hlink).others hscene.sound hlink hforeign
      | wait =>
          obtain ⟨htaken, hphase⟩ := ih hlink
          exact ⟨htaken, hphase⟩
      | serve => cases hlink

end Interview

end NodeHealth
