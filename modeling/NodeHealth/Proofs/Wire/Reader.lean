import NodeHealth.Wire.Reader

/-!
# Readers: cutting the bytes in pieces

A reader that is fed in pieces comes to what it comes to when it is fed with all of them at
once, and it needs no more than the bytes that it takes. Fed from the start of a frame, it
comes to what `Frame.parse` says of a byte sequence that then ends.

## Implementation notes

The three laws of `Piecewise` are stated of any feeding function, since scripted streams
read numbers and frames through the same loop. They hold of every state, also of those that
no reading reaches, so they need no invariant of the reader.

-/

namespace NodeHealth

namespace Frame

variable {state value : Type}

/-- Feed what came out of earlier bytes with further ones. -/
def Progress.extend (feed : state → Bytes → Progress state value) (back : Bytes) :
    Progress state value → Progress state value
  | .more reader => feed reader back
  | .done result rest => .done result (rest ++ back)

/-- A feeding function that does not notice how its bytes are cut, and that decides on no
other bytes than those it takes. -/
structure Piecewise (feed : state → Bytes → Progress state value) : Prop where
  append : ∀ reader front back, feed reader (front ++ back) = (feed reader front).extend feed back
  taken : ∀ {reader bytes result rest}, feed reader bytes = .done result rest →
    ∃ front, bytes = front ++ rest ∧ feed reader front = .done result []

/-- What has come out by the time that a stream ends: its result and the bytes taken. -/
def Progress.reading (fed : Nat) : Progress Reader Bytes → Reading
  | .more _ => ⟨.error .closed, fed⟩
  | .done result rest => ⟨result, fed - rest.length⟩

/-! ## Numbers -/

theorem VarintReader.piecewise : Piecewise VarintReader.feed where
  append := by
    intro reader front back
    induction front generalizing reader with
    | nil => rfl
    | cons byte front ih =>
        simp only [List.cons_append, VarintReader.feed]
        cases Varint.accept reader.value reader.index byte with
        | error error => rfl
        | ok next =>
            obtain ⟨number, complete⟩ := next
            cases complete with
            | true => rfl
            | false => exact ih _
  taken := by
    intro reader bytes result rest h
    induction bytes generalizing reader with
    | nil => simp [VarintReader.feed] at h
    | cons byte bytes ih =>
        simp only [VarintReader.feed] at h
        cases haccept : Varint.accept reader.value reader.index byte with
        | error error =>
            simp only [haccept, Progress.done.injEq] at h
            obtain ⟨rfl, rfl⟩ := h
            exact ⟨[byte], rfl, by simp [VarintReader.feed, haccept]⟩
        | ok next =>
            obtain ⟨number, complete⟩ := next
            cases complete with
            | true =>
                simp only [haccept, Progress.done.injEq] at h
                obtain ⟨rfl, rfl⟩ := h
                exact ⟨[byte], rfl, by simp [VarintReader.feed, haccept]⟩
            | false =>
                simp only [haccept] at h
                obtain ⟨front, hbytes, hfront⟩ := ih h
                exact ⟨byte :: front, by simp [hbytes],
                  by simp [VarintReader.feed, haccept, hfront]⟩

/-! ## Frames -/

theorem Reader.feedBody_append (missing : Nat) (got front back : Bytes) :
    Reader.feedBody missing got (front ++ back) =
      (Reader.feedBody missing got front).extend Reader.feed back := by
  by_cases hfront : front.length < missing
  · simp only [Reader.feedBody, if_pos hfront, Progress.extend, Reader.feed, List.length_append]
    by_cases hboth : front.length + back.length < missing
    · rw [if_pos hboth, if_pos (by omega)]
      simp [Nat.sub_sub]
    · rw [if_neg hboth, if_neg (by omega), List.take_append, List.drop_append,
        List.take_of_length_le (by omega), List.drop_of_length_le (by omega)]
      simp
  · have hboth : ¬(front ++ back).length < missing := by
      rw [List.length_append]
      omega
    simp only [Reader.feedBody, if_neg hfront, if_neg hboth, Progress.extend]
    rw [List.take_append_of_le_length (by omega), List.drop_append_of_le_length (by omega)]

theorem Reader.feedLength_append (limit : Nat) (length : UInt64) (front back : Bytes) :
    Reader.feedLength limit length (front ++ back) =
      (Reader.feedLength limit length front).extend Reader.feed back := by
  simp only [Reader.feedLength, Reader.feedBody_append]
  split
  · rfl
  · split <;> rfl

theorem Reader.feed_append (reader : Reader) (front back : Bytes) :
    reader.feed (front ++ back) = (reader.feed front).extend Reader.feed back := by
  cases reader with
  | varintPrefix limit number =>
      simp only [Reader.feed, VarintReader.piecewise.append]
      cases number.feed front with
      | more number => rfl
      | done result rest =>
          cases result with
          | error error => rfl
          | ok length => exact Reader.feedLength_append limit length rest back
  | fixedPrefix limit got =>
      by_cases hfront : front.length < fixedPrefixLength - got.length
      · simp only [Reader.feed, if_pos hfront, Progress.extend, List.length_append]
        by_cases hboth : front.length + back.length < fixedPrefixLength - got.length
        · rw [if_pos hboth, if_pos (by omega), List.append_assoc]
        · rw [if_neg hboth, if_neg (by omega), List.take_append, List.drop_append,
            List.take_of_length_le (by omega), List.drop_of_length_le (by omega)]
          simp [Nat.sub_sub]
      · have hboth : ¬(front ++ back).length < fixedPrefixLength - got.length := by
          rw [List.length_append]
          omega
        simp only [Reader.feed, if_neg hfront, if_neg hboth]
        rw [List.take_append_of_le_length (by omega), List.drop_append_of_le_length (by omega),
          Reader.feedLength_append]
  | body missing got => exact Reader.feedBody_append missing got front back

theorem Reader.feedBody_taken {missing : Nat} {got bytes : Bytes}
    {result : Except WireError Bytes} {rest : Bytes}
    (h : Reader.feedBody missing got bytes = .done result rest) :
    ∃ front, bytes = front ++ rest ∧ Reader.feedBody missing got front = .done result [] := by
  by_cases hlen : bytes.length < missing
  · simp [Reader.feedBody, hlen] at h
  · simp only [Reader.feedBody, if_neg hlen, Progress.done.injEq] at h
    obtain ⟨rfl, rfl⟩ := h
    refine ⟨bytes.take missing, (List.take_append_drop missing bytes).symm, ?_⟩
    have htake : (bytes.take missing).length = missing := by
      rw [List.length_take]
      omega
    have hagain : ¬(bytes.take missing).length < missing := by omega
    simp only [Reader.feedBody, if_neg hagain]
    rw [List.take_of_length_le (by omega), List.drop_of_length_le (by omega)]

theorem Reader.feedLength_taken {limit : Nat} {length : UInt64} {bytes : Bytes}
    {result : Except WireError Bytes} {rest : Bytes}
    (h : Reader.feedLength limit length bytes = .done result rest) :
    ∃ front, bytes = front ++ rest ∧ Reader.feedLength limit length front = .done result [] := by
  by_cases hempty : length = 0
  · simp only [Reader.feedLength, if_pos hempty, Progress.done.injEq] at h ⊢
    obtain ⟨rfl, rfl⟩ := h
    exact ⟨[], rfl, rfl, rfl⟩
  · by_cases hlong : limit < length.toNat
    · simp only [Reader.feedLength, if_neg hempty, if_pos hlong, Progress.done.injEq] at h ⊢
      obtain ⟨rfl, rfl⟩ := h
      exact ⟨[], rfl, rfl, rfl⟩
    · simp only [Reader.feedLength, if_neg hempty, if_neg hlong] at h ⊢
      exact Reader.feedBody_taken h

theorem Reader.feed_taken {reader : Reader} {bytes : Bytes} {result : Except WireError Bytes}
    {rest : Bytes} (h : reader.feed bytes = .done result rest) :
    ∃ front, bytes = front ++ rest ∧ reader.feed front = .done result [] := by
  cases reader with
  | varintPrefix limit number =>
      simp only [Reader.feed] at h ⊢
      cases hnumber : number.feed bytes with
      | more number => simp [hnumber] at h
      | done found behind =>
          obtain ⟨front, rfl, hfront⟩ := VarintReader.piecewise.taken hnumber
          cases found with
          | error error =>
              simp only [hnumber, Progress.done.injEq] at h
              obtain ⟨rfl, rfl⟩ := h
              exact ⟨front, rfl, by simp [hfront]⟩
          | ok length =>
              simp only [hnumber] at h
              obtain ⟨middle, rfl, hmiddle⟩ := Reader.feedLength_taken h
              refine ⟨front ++ middle, by simp, ?_⟩
              simp [VarintReader.piecewise.append, hfront, Progress.extend, hmiddle]
  | fixedPrefix limit got =>
      by_cases hlen : bytes.length < fixedPrefixLength - got.length
      · simp [Reader.feed, hlen] at h
      · simp only [Reader.feed, if_neg hlen] at h ⊢
        obtain ⟨middle, hmiddle, hdone⟩ := Reader.feedLength_taken h
        have htake : (bytes.take (fixedPrefixLength - got.length)).length =
            fixedPrefixLength - got.length := by
          rw [List.length_take]
          omega
        refine ⟨bytes.take (fixedPrefixLength - got.length) ++ middle, ?_, ?_⟩
        · rw [List.append_assoc, ← hmiddle, List.take_append_drop]
        · rw [if_neg (by rw [List.length_append]; omega), List.take_left' htake,
            List.drop_left' htake]
          exact hdone
  | body missing got => exact Reader.feedBody_taken h

theorem Reader.piecewise : Piecewise Reader.feed where
  append := Reader.feed_append
  taken := Reader.feed_taken

/-! ## Reading up to the end of a stream -/

/-- Only the tenth byte of a number is refused. -/
theorem accept_error {number : UInt64} {index : Nat} {byte : UInt8} {error : WireError}
    (h : Varint.accept number index byte = .error error) :
    index = 9 ∧ error = .malformedVarint := by
  simp only [Varint.accept] at h
  split at h
  · rename_i hbad
    cases h
    have hlast := hbad.1
    simp only [Varint.maxLength] at hlast
    exact ⟨by omega, rfl⟩
  · cases h

/-- The tenth byte of a number ends it. -/
theorem accept_last {number next : UInt64} {byte : UInt8} {complete : Bool}
    (h : Varint.accept number 9 byte = .ok (next, complete)) : complete = true := by
  simp only [Varint.accept, Varint.maxLength, true_and] at h
  split at h
  · cases h
  · rename_i hgood
    cases h
    simpa using fun hmore => hgood (.inl hmore)

/-- What has come out of bytes that end at position `total`, in the words of a decoder. -/
def Progress.decoding (total : Nat) :
    Progress VarintReader UInt64 → Except WireError (Option (UInt64 × Nat))
  | .more _ => .ok none
  | .done (.error error) _ => .error error
  | .done (.ok number) rest => .ok (some (number, total - rest.length))

/-- A number that is read byte by byte is the one that is decoded. -/
theorem decodeFrom_eq_feed (bytes : Bytes) :
    ∀ {number : UInt64} {index limit : Nat}, index + limit = 10 → 0 < limit →
      Varint.decodeFrom number index limit bytes =
        (VarintReader.feed ⟨number, index⟩ bytes).decoding (index + bytes.length) := by
  induction bytes with
  | nil =>
      intro number index limit _ hlimit
      cases limit with
      | zero => omega
      | succ limit => rfl
  | cons byte bytes ih =>
      intro number index limit hsum hlimit
      obtain ⟨more, rfl⟩ : ∃ more, limit = more + 1 := ⟨limit - 1, by omega⟩
      simp only [VarintReader.feed, Varint.decodeFrom]
      cases haccept : Varint.accept number index byte with
      | error error => rfl
      | ok pair =>
          obtain ⟨next, complete⟩ := pair
          cases complete with
          | true =>
              simp only [Progress.decoding, List.length_cons]
              congr 3
              omega
          | false =>
              have hmore : 0 < more := by
                apply Nat.pos_of_ne_zero
                intro hzero
                obtain rfl : index = 9 := by omega
                exact Bool.noConfusion (accept_last haccept)
              have hrest := @ih next (index + 1) more (by omega) hmore
              rw [List.length_cons, Nat.add_comm bytes.length, ← Nat.add_assoc]
              exact hrest

/-- A number is refused only at its tenth byte. -/
theorem VarintReader.feed_error {bytes rest : Bytes} {error : WireError} :
    ∀ {reader : VarintReader}, reader.feed bytes = .done (.error error) rest →
      error = .malformedVarint ∧ reader.index + bytes.length = 10 + rest.length := by
  induction bytes with
  | nil =>
      intro reader h
      simp [VarintReader.feed] at h
  | cons byte bytes ih =>
      intro reader h
      simp only [VarintReader.feed] at h
      cases haccept : Varint.accept reader.value reader.index byte with
      | error refusal =>
          obtain ⟨hindex, rfl⟩ := accept_error haccept
          simp only [haccept, Progress.done.injEq, Except.error.injEq] at h
          obtain ⟨rfl, rfl⟩ := h
          refine ⟨rfl, ?_⟩
          rw [List.length_cons]
          omega
      | ok pair =>
          obtain ⟨next, complete⟩ := pair
          cases complete with
          | true => simp [haccept] at h
          | false =>
              simp only [haccept] at h
              obtain ⟨herror, hlen⟩ := ih h
              refine ⟨herror, ?_⟩
              rw [List.length_cons]
              simp only at hlen
              omega

/-- A number takes at most ten bytes, and it wants more only while it has less. -/
theorem VarintReader.feed_length {bytes : Bytes} : ∀ {reader : VarintReader}, reader.index < 10 →
    (∀ next, reader.feed bytes = .more next → reader.index + bytes.length < 10) ∧
      ∀ result rest, reader.feed bytes = .done result rest →
        reader.index + bytes.length ≤ 10 + rest.length := by
  induction bytes with
  | nil =>
      intro reader hindex
      exact ⟨fun next _ => hindex, nofun⟩
  | cons byte bytes ih =>
      intro reader hindex
      simp only [VarintReader.feed, List.length_cons]
      cases haccept : Varint.accept reader.value reader.index byte with
      | error error =>
          refine ⟨nofun, fun result rest h => ?_⟩
          cases h
          omega
      | ok pair =>
          obtain ⟨value, complete⟩ := pair
          cases complete with
          | true =>
              refine ⟨nofun, fun result rest h => ?_⟩
              cases h
              omega
          | false =>
              have hmore : reader.index ≠ 9 := by
                intro hlast
                rw [hlast] at haccept
                exact Bool.noConfusion (accept_last haccept)
              obtain ⟨hbelow, hwithin⟩ :=
                @ih ⟨value, reader.index + 1⟩ (by simp only; omega)
              refine ⟨fun next h => ?_, fun result rest h => ?_⟩
              · have hlength := hbelow next h
                simp only at hlength
                omega
              · have hlength := hwithin result rest h
                simp only at hlength
                omega

/-- A reader that wants more has taken less than the longest frame has. -/
theorem Reader.length_of_more {limit : Nat} {bytes : Bytes} {next : Reader}
    (h : (Reader.start .varint limit).feed bytes = .more next) :
    bytes.length < Varint.maxLength + limit := by
  obtain ⟨hbelow, hwithin⟩ := @VarintReader.feed_length bytes {} (by decide)
  simp only [Reader.start, Reader.feed] at h
  cases hnumber : VarintReader.feed {} bytes with
  | more number =>
      have hlength := hbelow number hnumber
      simp only [Varint.maxLength] at hlength ⊢
      omega
  | done result rest =>
      have hlength := hwithin result rest hnumber
      cases result with
      | error error => simp [hnumber] at h
      | ok length =>
          simp only [hnumber, Reader.feedLength, Reader.feedBody] at h
          split at h
          · cases h
          · split at h
            · cases h
            · split at h
              · simp only [Varint.maxLength] at hlength ⊢
                omega
              · cases h

/-- Behind a prefix of `used` bytes, feeding the rest comes to what `parseBody` says of it. -/
theorem parseBody_eq_feedLength (limit : Nat) (length : UInt64) (used : Nat) (rest : Bytes) :
    parseBody limit length used rest =
      (Reader.feedLength limit length rest).reading (used + rest.length) := by
  by_cases hempty : length = 0
  · simp [parseBody, Reader.feedLength, Progress.reading, hempty]
  · by_cases hlong : limit < length.toNat
    · simp [parseBody, Reader.feedLength, Progress.reading, hempty, hlong]
    · simp only [parseBody, Reader.feedLength, Reader.feedBody, if_neg hempty, if_neg hlong]
      by_cases hshort : rest.length < length.toNat
      · simp [Progress.reading, hshort]
      · simp only [if_neg hshort, Progress.reading, List.nil_append, List.length_drop]
        congr 1
        omega

/-- Reading from the start of a frame comes to what `parse` says of the bytes. -/
theorem parse_eq_feed (framing : Framing) (limit : Nat) (bytes : Bytes) :
    parse framing limit bytes =
      ((Reader.start framing limit).feed bytes).reading bytes.length := by
  cases framing with
  | varint =>
      have hdecode : Varint.decode bytes =
          (VarintReader.feed {} bytes).decoding (0 + bytes.length) :=
        decodeFrom_eq_feed bytes rfl (by decide)
      simp only [parse, Reader.start, Reader.feed, hdecode]
      cases hnumber : VarintReader.feed {} bytes with
      | more number => rfl
      | done result rest =>
          cases result with
          | error error =>
              have hlen := (VarintReader.feed_error hnumber).2
              simp only [Progress.decoding, Progress.reading, Varint.maxLength]
              congr 1
              simp only at hlen
              omega
          | ok length =>
              obtain ⟨front, rfl, _⟩ := VarintReader.piecewise.taken hnumber
              have hused : 0 + (front ++ rest).length - rest.length = front.length := by
                rw [List.length_append]
                omega
              simp only [Progress.decoding]
              rw [hused, List.drop_left, parseBody_eq_feedLength, List.length_append]
  | fixed32 =>
      simp only [parse, Reader.start, Reader.feed, List.length_nil, Nat.sub_zero,
        List.nil_append]
      by_cases hshort : bytes.length < fixedPrefixLength
      · simp [hshort, Progress.reading]
      · simp only [if_neg hshort, parseBody_eq_feedLength, List.length_drop]
        congr 1
        omega

end Frame

end NodeHealth
