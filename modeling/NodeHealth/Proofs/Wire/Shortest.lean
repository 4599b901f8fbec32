import Mathlib.Data.Nat.Log
import NodeHealth.Proofs.Wire.Decoding

/-!
# Base-128 numbers: the shortest form

`Varint.length` counts groups of seven significant bits, `Varint.write` splits the groups off one
by one, and `Varint.decode` puts them together again. The three agree: what is written has the
length that was counted, it is decoded to the number it was made from, and no shorter byte
sequence is decoded to that number.

-/

namespace NodeHealth.Varint

variable {value : UInt64} {bytes short : Bytes} {used : Nat}

/-! ## Counting groups -/

theorem bitLength_of_pos (h : 0 < value.toNat) : bitLength value = Nat.log 2 value.toNat + 1 := by
  have hne : value ≠ 0 := by
    rintro rfl
    exact absurd h (by decide)
  rw [bitLength, if_neg hne, Nat.log2_eq_log_two]

theorem bitLength_le (value : UInt64) : bitLength value ≤ 64 := by
  obtain hzero | hpos := Nat.eq_zero_or_pos value.toNat
  · rw [bitLength, if_pos (UInt64.toNat_inj.mp hzero)]
    decide
  · have hlog : Nat.log 2 value.toNat < 64 := Nat.log_lt_of_lt_pow hpos.ne' value.toNat_lt
    rw [bitLength_of_pos hpos]
    exact hlog

/-- A number of one group has the length one. -/
theorem length_of_lt (h : value.toNat < 128) : length value = 1 := by
  obtain hzero | hpos := Nat.eq_zero_or_pos value.toNat
  · obtain rfl : value = 0 := UInt64.toNat_inj.mp hzero
    rfl
  · have hlog : Nat.log 2 value.toNat < 7 := Nat.log_lt_of_lt_pow hpos.ne' h
    rw [length, bitLength_of_pos hpos]
    omega

/-- Each further group adds one to the length. -/
theorem length_of_le (h : 128 ≤ value.toNat) : length value = length (value >>> 7) + 1 := by
  have hrest : (value >>> 7).toNat = value.toNat / 2 ^ 7 := toNat_high_groups value
  have hpos : 0 < (value >>> 7).toNat := by omega
  have hlog : 7 ≤ Nat.log 2 value.toNat := Nat.le_log_of_pow_le (by decide) h
  rw [length, length, bitLength_of_pos (by omega), bitLength_of_pos hpos, hrest,
    Nat.log_div_base_pow]
  omega

theorem one_le_length (value : UInt64) : 1 ≤ length value := by
  rw [length]
  omega

theorem length_le_ten (value : UInt64) : length value ≤ 10 := by
  have hbits := bitLength_le value
  rw [length]
  omega

/-- A number has no fewer digits than its length says. -/
theorem pow_le_of_lt_length {used : Nat} (hpos : 1 ≤ used) (h : used < length value) :
    128 ^ used ≤ value.toNat := by
  have hbits : 7 * used ≤ bitLength value - 1 := by
    rw [length] at h
    omega
  have hnonzero : 0 < value.toNat := by
    apply Nat.pos_of_ne_zero
    intro hzero
    rw [length_of_lt (by omega)] at h
    omega
  rw [bitLength_of_pos hnonzero, Nat.add_sub_cancel] at hbits
  calc 128 ^ used = 2 ^ (7 * used) := (Nat.pow_mul 2 7 used).symm
    _ ≤ 2 ^ Nat.log 2 value.toNat := Nat.pow_le_pow_right (by decide) hbits
    _ ≤ value.toNat := Nat.pow_log_le_self 2 hnonzero.ne'

/-- There are as many groups as the length says. -/
theorem length_groups? (limit : Nat) :
    ∀ {value : UInt64} {bytes : Bytes}, groups? limit value = some bytes →
      bytes.length = length value := by
  induction limit with
  | zero =>
      intro value bytes h
      cases h
  | succ limit ih =>
      intro value bytes h
      rw [groups?_succ] at h
      split at h
      case isTrue hsmall =>
        cases h
        exact (length_of_lt (by omega)).symm
      case isFalse hlarge =>
        obtain ⟨rest, hrest, rfl⟩ := Option.map_eq_some_iff.mp h
        have hvalue : 128 ≤ value.toNat := by omega
        rw [List.length_cons, ih hrest, length_of_le hvalue]

/-! ## Writing -/

/-- The groups of a number are a run that is worth it. -/
theorem exists_run (value : UInt64) :
    ∃ init last, groups? maxLength value = some (init ++ [last]) ∧ Run init last ∧
      worth (init ++ [last]) = value.toNat := by
  obtain ⟨init, last, hgroups, hlen, hinit, hlast, hworth⟩ := exists_groups value
  refine ⟨init, last, hgroups, ⟨hinit, hlen, hlast, ?_⟩, hworth⟩
  intro hnine
  apply last_le_one hnine hlast
  rw [hworth]
  exact value.toNat_lt

/-- A buffer with room for the groups takes them all. -/
theorem write_of_room (h : groups? maxLength value = some bytes) (buffer : Buffer)
    (hroom : ∀ room, buffer.room = some room → bytes.length ≤ room) :
    write value buffer = (.ok bytes.length, buffer.append bytes) := by
  rw [write, h]
  cases hbuffer : buffer.room with
  | none => rfl
  | some room => exact if_neg (Nat.not_lt.mpr (hroom room hbuffer))

/-- A buffer without room for the groups takes none. -/
theorem write_of_no_room (h : groups? maxLength value = some bytes) (content : Bytes) {room : Nat}
    (hroom : room < bytes.length) :
    write value ⟨content, some room⟩ =
      (.error (.varintOverflow room), ⟨content, some room⟩) := by
  rw [write, h]
  exact if_pos hroom

/-- What is encoded has the length that is counted. -/
theorem length_encode (h : encode value = .ok bytes) : bytes.length = length value := by
  obtain ⟨init, last, hgroups, _⟩ := exists_run value
  have hwrite := write_of_room hgroups {} (by simp)
  simp only [encode, hwrite, Except.ok.injEq] at h
  rw [← h, Buffer.append, List.nil_append, length_groups? _ hgroups]

/-- Writing fails for lack of room only, and names the room that there is. -/
theorem write_error_cases {buffer : Buffer} {error : WireError}
    (h : (write value buffer).1 = .error error) :
    ∃ room, buffer.room = some room ∧ room < length value ∧ error = .varintOverflow room := by
  obtain ⟨init, last, hgroups, _⟩ := exists_run value
  obtain ⟨content, room⟩ := buffer
  by_cases hroom : ∀ room', room = some room' → (init ++ [last]).length ≤ room'
  · rw [write_of_room hgroups _ hroom] at h
    cases h
  · push Not at hroom
    obtain ⟨room, rfl, hlt⟩ := hroom
    rw [write_of_no_room hgroups content hlt] at h
    cases h
    exact ⟨room, rfl, by rwa [← length_groups? _ hgroups], rfl⟩

/-! ## Decoding what was written -/

/-- A proper beginning of a run leaves the number open. -/
theorem Run.decode_beginning {init : Bytes} {last : UInt8} (h : Run init last)
    (hbegins : short <+: init ++ [last]) (hne : short ≠ init ++ [last]) :
    decode short = .ok none := by
  obtain hwhole | hshort := List.prefix_concat_iff.mp hbegins
  · exact absurd hwhole hne
  · have hlen := hshort.length_le
    have hnine := h.short
    exact Unfinished.decodes ⟨by omega, fun byte hbyte =>
      h.continued byte (hshort.subset hbyte)⟩

/-- No byte sequence that is decoded to a number is shorter than its length. -/
theorem length_le_of_decode (h : decode bytes = .ok (some (value, used))) :
    length value ≤ bytes.length := by
  obtain ⟨hcloses, hvalue⟩ := decode_eq_some_iff.mp h
  have htaken : (bytes.take used).length = used := List.length_take_of_le hcloses.le_length
  by_contra hshort
  have hlow : 128 ^ used ≤ value.toNat :=
    pow_le_of_lt_length hcloses.pos (by have := hcloses.le_length; omega)
  have hhigh : value.toNat < 128 ^ used := by
    rw [hvalue, positional_eq_worth]
    conv => rhs; rw [← htaken]
    exact worth_lt _
  omega

/-- A number is written in between one and ten bytes, as many as its length says and whatever
the buffer holds, or, where there is no room for all of them, not at all; splitting off groups
never runs out of the ten bytes. What is written is decoded to the number whatever follows it,
no beginning of it is, and neither is any shorter byte sequence. -/
theorem write_shortest (value : UInt64) :
    ∃ bytes : Bytes, groups? maxLength value = some bytes ∧
      bytes.length = length value ∧ 1 ≤ length value ∧ length value ≤ 10 ∧
      (∀ buffer : Buffer, (∀ room, buffer.room = some room → length value ≤ room) →
        write value buffer =
          (.ok (length value),
            ⟨buffer.content ++ bytes, buffer.room.map (· - length value)⟩)) ∧
      (∀ (content : Bytes) (room : Nat), room < length value →
        write value ⟨content, some room⟩ =
          (.error (.varintOverflow room), ⟨content, some room⟩)) ∧
      (∀ buffer : Buffer, (write value buffer).1 ≠ .error (.varintOverflow maxLength)) ∧
      (∀ rest, decode (bytes ++ rest) = .ok (some (value, length value))) ∧
      (∀ short, short <+: bytes → short ≠ bytes → decode short = .ok none) ∧
      (∀ (other : Bytes) (used : Nat), other.length < length value →
        decode other ≠ .ok (some (value, used))) := by
  obtain ⟨init, last, hgroups, hrun, hworth⟩ := exists_run value
  have hlength := length_groups? maxLength hgroups
  refine ⟨init ++ [last], hgroups, hlength, one_le_length value, length_le_ten value, ?_, ?_, ?_,
    ?_, fun short => hrun.decode_beginning, ?_⟩
  · intro buffer hroom
    rw [← hlength] at hroom ⊢
    exact write_of_room hgroups buffer hroom
  · intro content room hroom
    rw [← hlength] at hroom
    exact write_of_no_room hgroups content hroom
  · intro buffer hten
    obtain ⟨room, _, hlt, hroom⟩ := write_error_cases hten
    have hle := length_le_ten value
    rw [WireError.varintOverflow.injEq] at hroom
    simp only [maxLength] at hroom
    omega
  · intro rest
    obtain ⟨word, hword, htotal⟩ := hrun.decode_append rest
    rw [hworth] at htotal
    rw [List.append_assoc, List.singleton_append, hword, UInt64.toNat_inj.mp htotal, ← hlength,
      List.length_append, List.length_singleton]
  · intro other used hshort hdecode
    exact absurd (length_le_of_decode hdecode) (Nat.not_le.mpr hshort)

end NodeHealth.Varint
