import NodeHealth.Proofs.Wire.Reader

/-!
# Series of frames

`Frame.series` takes a byte sequence apart into the complete frames that it begins with and
what is left behind them. More bytes add frames and change none. A reader that is midway in
a frame completes a series exactly when it is done with a payload.

-/

namespace NodeHealth.Frame

/-- A frame that is found takes some bytes, and it is found whatever follows them. -/
theorem parse_ok {framing : Framing} {limit : Nat} {bytes payload : Bytes} {taken : Nat}
    (h : parse framing limit bytes = ⟨.ok payload, taken⟩) :
    ∃ front rest, bytes = front ++ rest ∧ front.length = taken ∧ 0 < taken ∧
      ∀ more, parse framing limit (front ++ more) = ⟨.ok payload, taken⟩ := by
  rw [parse_eq_feed] at h
  cases hfeed : (Reader.start framing limit).feed bytes with
  | more next => simp [hfeed, Progress.reading] at h
  | done result rest =>
      obtain ⟨front, rfl, hfront⟩ := Reader.feed_taken hfeed
      simp only [hfeed, Progress.reading, Reading.mk.injEq, List.length_append] at h
      obtain ⟨rfl, hlen⟩ := h
      have hmore : ∀ more, parse framing limit (front ++ more) = ⟨.ok payload, taken⟩ := by
        intro more
        rw [parse_eq_feed, Reader.feed_append, hfront]
        simp only [Progress.extend, Progress.reading, List.nil_append, List.length_append]
        congr 1
        omega
      refine ⟨front, rest, rfl, by omega, ?_, hmore⟩
      apply Nat.pos_of_ne_zero
      rintro rfl
      have hnil : front = [] := List.eq_nil_of_length_eq_zero (by omega)
      subst hnil
      cases framing <;> cases hfront

/-- The payloads of the complete frames that a byte sequence begins with, and what is left
behind them. -/
def series (framing : Framing) (limit : Nat) (bytes : Bytes) : List Bytes × Bytes :=
  match _hparse : parse framing limit bytes with
  | ⟨.ok payload, taken⟩ =>
      let rest := series framing limit (bytes.drop taken)
      (payload :: rest.1, rest.2)
  | _ => ([], bytes)
termination_by bytes.length
decreasing_by
  obtain ⟨front, rest, rfl, hlen, hpos, _⟩ := parse_ok _hparse
  rw [List.length_drop, List.length_append]
  omega

theorem series_of_ok {framing : Framing} {limit : Nat} {bytes payload : Bytes} {taken : Nat}
    (h : parse framing limit bytes = ⟨.ok payload, taken⟩) :
    series framing limit bytes =
      (payload :: (series framing limit (bytes.drop taken)).1,
        (series framing limit (bytes.drop taken)).2) := by
  rw [series]
  split
  · rename_i found used hfound
    rw [h] at hfound
    cases hfound
    rfl
  · rename_i hnone
    exact absurd h (hnone payload taken)

theorem series_of_error {framing : Framing} {limit : Nat} {bytes : Bytes} {error : WireError}
    (h : (parse framing limit bytes).result = .error error) :
    series framing limit bytes = ([], bytes) := by
  rw [series]
  split
  · rename_i found used hfound
    rw [hfound] at h
    cases h
  · rfl

/-- Induction over the complete frames that a byte sequence begins with. -/
theorem series_induction (framing : Framing) (limit : Nat) {motive : Bytes → Prop}
    (hrest : ∀ bytes error, (parse framing limit bytes).result = .error error → motive bytes)
    (hframe : ∀ payload frame rest,
      (∀ more, parse framing limit (frame ++ more) = ⟨.ok payload, frame.length⟩) →
        motive rest → motive (frame ++ rest)) (bytes : Bytes) : motive bytes := by
  induction hlen : bytes.length using Nat.strongRecOn generalizing bytes with
  | ind size ih =>
      cases hparse : parse framing limit bytes with
      | mk result taken =>
          cases result with
          | error error => exact hrest bytes error (by rw [hparse])
          | ok payload =>
              obtain ⟨frame, rest, rfl, rfl, hpos, hmore⟩ := parse_ok hparse
              rw [List.length_append] at hlen
              exact hframe payload frame rest hmore (ih rest.length (by omega) rest rfl)

/-- A frame that is found comes before the series of what is behind it. -/
theorem series_frame {framing : Framing} {limit : Nat} {payload frame : Bytes}
    (h : ∀ more, parse framing limit (frame ++ more) = ⟨.ok payload, frame.length⟩)
    (rest : Bytes) :
    series framing limit (frame ++ rest) =
      (payload :: (series framing limit rest).1, (series framing limit rest).2) := by
  rw [series_of_ok (h rest), List.drop_left]

/-- What is left of a series goes on with the bytes that follow. -/
theorem series_append (framing : Framing) (limit : Nat) (front back : Bytes) :
    series framing limit (front ++ back) =
      ((series framing limit front).1 ++
          (series framing limit ((series framing limit front).2 ++ back)).1,
        (series framing limit ((series framing limit front).2 ++ back)).2) := by
  induction front using series_induction framing limit with
  | hrest front error hparse => rw [series_of_error hparse, List.nil_append]
  | hframe payload frame rest hparse ih =>
      rw [List.append_assoc, series_frame hparse, series_frame hparse, ih]
      rfl

/-- The frames of the front come first among all frames. -/
theorem series_mono (framing : Framing) (limit : Nat) {front bytes : Bytes}
    (h : front <+: bytes) :
    (series framing limit front).1 <+: (series framing limit bytes).1 := by
  obtain ⟨back, rfl⟩ := h
  rw [series_append]
  exact List.prefix_append _ _

/-! ## Reading along -/

/-- A reader has taken `read`: complete frames with `payloads`, and the beginning of one more
frame, in which it stands. -/
def Midway (framing : Framing) (limit : Nat) (read : Bytes) (payloads : List Bytes)
    (reader : Reader) : Prop :=
  ∃ begun, series framing limit read = (payloads, begun) ∧
    (Reader.start framing limit).feed begun = .more reader

variable {framing : Framing} {limit : Nat} {read : Bytes} {payloads : List Bytes}
  {reader : Reader}

/-- Behind complete frames a reader stands at the start of the next. -/
theorem midway_start (h : series framing limit read = (payloads, [])) :
    Midway framing limit read payloads (.start framing limit) :=
  ⟨[], h, by cases framing <;> rfl⟩

theorem parse_of_more {bytes : Bytes} {next : Reader}
    (h : (Reader.start framing limit).feed bytes = .more next) :
    parse framing limit bytes = ⟨.error .closed, bytes.length⟩ := by
  rw [parse_eq_feed, h]
  rfl

/-- Bytes behind the beginning of a frame belong to it first. -/
theorem Midway.series_append (h : Midway framing limit read payloads reader) (bytes : Bytes) :
    ∃ begun, (Reader.start framing limit).feed begun = .more reader ∧
      series framing limit (read ++ bytes) =
        (payloads ++ (series framing limit (begun ++ bytes)).1,
          (series framing limit (begun ++ bytes)).2) := by
  obtain ⟨begun, hseries, hbegun⟩ := h
  refine ⟨begun, hbegun, ?_⟩
  rw [Frame.series_append, hseries]

/-- A reader that wants more stays midway. -/
theorem Midway.more (h : Midway framing limit read payloads reader) {bytes : Bytes}
    {next : Reader} (hfeed : reader.feed bytes = .more next) :
    Midway framing limit (read ++ bytes) payloads next := by
  obtain ⟨begun, hbegun, hseries⟩ := h.series_append bytes
  have hnext : (Reader.start framing limit).feed (begun ++ bytes) = .more next := by
    rw [Reader.feed_append, hbegun]
    exact hfeed
  refine ⟨begun ++ bytes, ?_, hnext⟩
  rw [hseries, series_of_error (by rw [parse_of_more hnext])]
  simp

/-- A reader that is done with a payload has completed one more frame. -/
theorem Midway.complete (h : Midway framing limit read payloads reader)
    {payload front rest : Bytes}
    (hfeed : reader.feed (front ++ rest) = .done (.ok payload) rest) :
    series framing limit (read ++ front) = (payloads ++ [payload], []) := by
  obtain ⟨begun, hbegun, hseries⟩ := h.series_append front
  obtain ⟨exact, hsplit, hexact⟩ := Reader.feed_taken hfeed
  obtain rfl : front = exact := List.append_cancel_right hsplit
  have hparse : parse framing limit (begun ++ front) =
      ⟨.ok payload, (begun ++ front).length⟩ := by
    rw [parse_eq_feed, Reader.feed_append, hbegun]
    simp only [Progress.extend, hexact, Progress.reading, List.length_nil, Nat.sub_zero]
  have hnil : series framing limit [] = ([], []) := by
    have hclosed : (parse framing limit []).result = .error .closed := by
      cases framing <;> rfl
    exact series_of_error hclosed
  rw [hseries, series_of_ok hparse, List.drop_length, hnil]

/-- A reader that refuses a frame has found no frame behind the complete ones. -/
theorem Midway.series_refused (h : Midway framing limit read payloads reader)
    {bytes rest : Bytes} {error : WireError}
    (hfeed : reader.feed bytes = .done (.error error) rest) :
    ∃ behind, series framing limit (read ++ bytes) = (payloads, behind) ∧
      (Reader.start framing limit).feed behind = .done (.error error) rest := by
  obtain ⟨begun, hbegun, hseries⟩ := h.series_append bytes
  have hwhole : (Reader.start framing limit).feed (begun ++ bytes) =
      .done (.error error) rest := by
    rw [Reader.feed_append, hbegun]
    exact hfeed
  have hparse : (parse framing limit (begun ++ bytes)).result = .error error := by
    rw [parse_eq_feed, hwhole]
    rfl
  refine ⟨begun ++ bytes, ?_, hwhole⟩
  rw [hseries, series_of_error hparse, List.append_nil]

theorem Midway.refused (h : Midway framing limit read payloads reader) {bytes rest : Bytes}
    {error : WireError} (hfeed : reader.feed bytes = .done (.error error) rest) :
    (parse framing limit (series framing limit (read ++ bytes)).2).result = .error error := by
  obtain ⟨behind, hseries, hwhole⟩ := h.series_refused hfeed
  rw [hseries, parse_eq_feed, hwhole]
  rfl

/-- Four bytes hold no more than the largest length. -/
theorem ofLittleEndian_le {bytes : Bytes} (h : bytes.length = fixedPrefixLength) :
    ofLittleEndian bytes ≤ maxFixedLength := by
  match bytes, h with
  | [a, b, c, d], _ =>
      have ha := a.toNat_lt
      have hb := b.toNat_lt
      have hc := c.toNat_lt
      have hd := d.toNat_lt
      simp only [ofLittleEndian, maxFixedLength]
      omega

/-- Four bytes declare the length that they hold. -/
theorem length_declared {bytes : Bytes} (h : ¬bytes.length < fixedPrefixLength) :
    (bytes.take fixedPrefixLength).length = fixedPrefixLength ∧
      (UInt64.ofNat (ofLittleEndian (bytes.take fixedPrefixLength))).toNat =
        ofLittleEndian (bytes.take fixedPrefixLength) := by
  have hdeclared : (bytes.take fixedPrefixLength).length = fixedPrefixLength :=
    List.length_take_of_le (Nat.le_of_not_lt h)
  have hbound := ofLittleEndian_le hdeclared
  exact ⟨hdeclared, UInt64.toNat_ofNat_of_lt' (Nat.lt_of_le_of_lt hbound (by decide))⟩

/-- A frame is refused only because it declares a length beyond the limit. -/
theorem Midway.declares (h : Midway .fixed32 limit read payloads reader) {bytes rest : Bytes}
    {error : WireError} (hfeed : reader.feed bytes = .done (.error error) rest) :
    ∃ declared body, (series .fixed32 limit (read ++ bytes)).2 = declared ++ body ∧
      declared.length = fixedPrefixLength ∧ limit < ofLittleEndian declared ∧
      error = .frameTooLarge (UInt64.ofNat (ofLittleEndian declared)) limit := by
  obtain ⟨behind, hseries, hwhole⟩ := h.series_refused hfeed
  rw [hseries]
  refine ⟨_, _, (List.take_append_drop fixedPrefixLength behind).symm, ?_⟩
  simp only [Reader.start, Reader.feed, List.length_nil, Nat.sub_zero, List.nil_append] at hwhole
  split at hwhole
  · cases hwhole
  · rename_i hlength
    obtain ⟨hdeclared, hnumber⟩ := length_declared hlength
    refine ⟨hdeclared, ?_⟩
    simp only [Reader.feedLength, Reader.feedBody] at hwhole
    split at hwhole
    · cases hwhole
    · split at hwhole
      · rename_i hlimit
        rw [hnumber] at hlimit
        cases hwhole
        exact ⟨hlimit, rfl⟩
      · split at hwhole <;> cases hwhole

/-! ## Frames behind a four-byte length -/

/-- Four bytes are the word that they hold. -/
theorem littleEndian_ofLittleEndian {bytes : Bytes} (h : bytes.length = fixedPrefixLength) :
    littleEndian (UInt32.ofNat (ofLittleEndian bytes)) = bytes := by
  match bytes, h with
  | [a, b, c, d], _ =>
      have ha := a.toNat_lt
      have hb := b.toNat_lt
      have hc := c.toNat_lt
      have hd := d.toNat_lt
      simp only [littleEndian, ofLittleEndian, List.cons.injEq, and_true, ← UInt8.toNat_inj,
        UInt32.toNat_toUInt8, UInt32.toNat_shiftRight, UInt32.toNat_ofNat, UInt32.toNat_ofNat',
        Nat.shiftRight_eq_div_pow, Nat.reduceMod, Nat.reducePow]
      omega

/-- The frame of a payload begins with the four bytes that hold its length. -/
theorem encode_fixed {declared payload : Bytes} (hdeclared : declared.length = fixedPrefixLength)
    (hpayload : payload.length = ofLittleEndian declared) :
    encode .fixed32 payload = .ok (declared ++ payload) := by
  have hshort : ¬maxFixedLength < payload.length := by
    rw [hpayload]
    exact Nat.not_lt_of_le (ofLittleEndian_le hdeclared)
  rw [encode, if_neg hshort, hpayload, littleEndian_ofLittleEndian hdeclared]

/-- A frame that is found is the frame of its payload. -/
theorem encode_of_parse {limit : Nat} {bytes payload : Bytes} {taken : Nat}
    (h : parse .fixed32 limit bytes = ⟨.ok payload, taken⟩) :
    encode .fixed32 payload = .ok (bytes.take taken) ∧ payload.length ≤ limit := by
  simp only [parse] at h
  split at h
  · cases h
  · rename_i hlength
    obtain ⟨hdeclared, hnumber⟩ := length_declared hlength
    simp only [parseBody] at h
    split at h
    · rename_i hzero
      cases h
      rw [hzero] at hnumber
      have hframe : encode .fixed32 [] = .ok (bytes.take fixedPrefixLength ++ []) :=
        encode_fixed hdeclared hnumber
      rw [List.append_nil] at hframe
      exact ⟨hframe, Nat.zero_le _⟩
    · split at h
      · cases h
      · split at h
        · cases h
        · rename_i hlimit hrest
          rw [hnumber] at h hlimit hrest
          cases h
          have hpayload : ((bytes.drop fixedPrefixLength).take
              (ofLittleEndian (bytes.take fixedPrefixLength))).length =
              ofLittleEndian (bytes.take fixedPrefixLength) :=
            List.length_take_of_le (Nat.le_of_not_lt hrest)
          rw [List.take_add]
          refine ⟨encode_fixed hdeclared hpayload, ?_⟩
          rw [hpayload]
          exact Nat.le_of_not_lt hlimit

/-- A byte sequence begins with the frames of the payloads that are found in it. -/
theorem series_encode (limit : Nat) (bytes : Bytes) :
    ∃ frames : List Bytes,
      (series .fixed32 limit bytes).1.map (encode .fixed32) = frames.map .ok ∧
      bytes = frames.flatten ++ (series .fixed32 limit bytes).2 ∧
      ∀ payload ∈ (series .fixed32 limit bytes).1, payload.length ≤ limit := by
  induction bytes using series_induction .fixed32 limit with
  | hrest bytes error hparse =>
      rw [series_of_error hparse]
      exact ⟨[], rfl, rfl, nofun⟩
  | hframe payload frame rest hparse ih =>
      obtain ⟨frames, hframes, hrest, hbound⟩ := ih
      obtain ⟨hframe, hpayload⟩ := encode_of_parse (hparse rest)
      rw [List.take_left] at hframe
      rw [series_frame hparse]
      refine ⟨frame :: frames, ?_, ?_, ?_⟩
      · rw [List.map_cons, List.map_cons, hframe, hframes]
      · rw [List.flatten_cons, List.append_assoc, ← hrest]
      · rintro other hother
        rcases List.mem_cons.mp hother with rfl | hlater
        · exact hpayload
        · exact hbound other hlater

end NodeHealth.Frame
