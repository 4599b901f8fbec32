import NodeHealth.Proofs.Message.Request

/-!
# What is recognised as a registration response

A response is recognised by its first byte alone. Its second byte is the verdict, and its text
counts if it follows at once and all of it is there. The length of the text may be any word: that
the text ends within the payload is decided without a sum that could wrap around.

-/

namespace NodeHealth

/-- A byte whose high bit is clear is a number by itself. -/
theorem Varint.decode_of_lt {byte : UInt8} (h : byte < 0x80) (rest : Bytes) :
    decode (byte :: rest) = .ok (some (byte.toUInt64, 1)) := by
  have hsmall : byte.toNat < 128 := UInt8.lt_iff_toNat_lt.mp h
  have hrun : Run [] byte := ⟨nofun, Nat.zero_le _, hsmall, nofun⟩
  obtain ⟨word, hword, hworth⟩ := hrun.decode_append rest
  have hvalue : word = byte.toUInt64 := by
    rw [← UInt64.toNat_inj, hworth, UInt8.toNat_toUInt64]
    simp only [List.nil_append, worth]
    omega
  rwa [hvalue] at hword

theorem leadingNumber?_cons (tag : UInt8) {byte : UInt8} (h : byte < 0x80) (rest : Bytes) :
    leadingNumber? (tag :: byte :: rest) = if tag = 0x08 then some byte.toUInt64 else none := by
  simp only [leadingNumber?, Varint.decode_of_lt h, FieldTag.byte]

namespace RegisterResponse

variable {payload bytes : Bytes} {response : RegisterResponse} {text : String}

theorem decode?_cons (tag second : UInt8) (rest : Bytes) :
    decode? (tag :: second :: rest) =
      if tag = 0x08 then
        some ⟨second = 1,
          match rest with
          | tag :: rest => if tag = 0x12 then message? rest else none
          | [] => none⟩
      else none := rfl

/-- A response is recognised exactly by its first byte, and its second says whether it
accepts. -/
theorem decode?_eq_some (h : decode? payload = some response) :
    ∃ second rest, payload = 0x08 :: second :: rest ∧ response.success = decide (second = 1) := by
  match payload with
  | [] => cases h
  | [_] => cases h
  | tag :: second :: rest =>
      rw [decode?_cons] at h
      split at h
      · rename_i htag
        cases h
        exact ⟨second, rest, by rw [htag], rfl⟩
      · cases h

theorem decode?_ne_none (second : UInt8) (rest : Bytes) :
    decode? (0x08 :: second :: rest) ≠ none := by
  simp [decode?_cons]

theorem exists_decode?_iff (payload : Bytes) :
    (∃ response, decode? payload = some response) ↔
      2 ≤ payload.length ∧ payload[0]? = some 0x08 := by
  constructor
  · rintro ⟨response, h⟩
    obtain ⟨second, rest, rfl, _⟩ := decode?_eq_some h
    simp
  · rintro ⟨hlength, htag⟩
    match payload with
    | tag :: second :: rest =>
        obtain rfl : tag = 0x08 := by simpa using htag
        exact Option.ne_none_iff_exists'.mp (decode?_ne_none second rest)

theorem success_iff (h : decode? payload = some response) :
    response.success = true ↔ payload[1]? = some 0x01 := by
  obtain ⟨second, rest, rfl, hsuccess⟩ := decode?_eq_some h
  simp [hsuccess]

/-- The text behind a length is there if all of it is. -/
theorem message?_eq_some_iff (bytes : Bytes) (text : String) :
    message? bytes = some text ↔ ∃ length used,
      Varint.decode bytes = .ok (some (length, used)) ∧ used + length.toNat ≤ bytes.length ∧
        text = Utf8.decodeLossy ((bytes.drop used).take length.toNat) := by
  constructor
  · intro h
    simp only [message?] at h
    split at h
    · rename_i length used hdecode
      have hused := (Varint.decode_eq_some_iff.mp hdecode).1.le_length
      split at h
      · cases h
      · rename_i hlong
        rw [List.length_drop] at hlong
        exact ⟨length, used, hdecode, by omega, (Option.some.inj h).symm⟩
    · cases h
  · rintro ⟨length, used, hdecode, hlength, rfl⟩
    have hlong : ¬(bytes.drop used).length < length.toNat := by
      rw [List.length_drop]
      omega
    simp only [message?, hdecode, if_neg hlong]

/-- The text of a response is the one behind its third byte. -/
theorem message_eq_some_iff (h : decode? payload = some response) (text : String) :
    response.message = some text ↔
      payload[2]? = some 0x12 ∧ message? (payload.drop 3) = some text := by
  obtain ⟨second, rest, rfl, _⟩ := decode?_eq_some h
  rw [decode?_cons, if_pos rfl, Option.some.injEq] at h
  rw [← h]
  cases rest with
  | nil => simp
  | cons tag rest =>
      by_cases htag : tag = 0x12
      · simp [htag]
      · simp [htag]

/-- A verdict and a text are found again, whatever follows them. -/
theorem decode?_text (success : Bool) (text : String) (trailing : Bytes) {digits : Bytes}
    (hdigits : Varint.encode (UInt64.ofNat (Utf8.encode text).length) = .ok digits)
    (htext : (Utf8.encode text).length < UInt64.size) :
    decode? (0x08 :: (if success then 1 else 0) :: 0x12 ::
        (digits ++ (Utf8.encode text ++ trailing))) = some ⟨success, some text⟩ := by
  have hlength : (UInt64.ofNat (Utf8.encode text).length).toNat = (Utf8.encode text).length :=
    UInt64.toNat_ofNat_of_lt' htext
  have hmessage : message? (digits ++ (Utf8.encode text ++ trailing)) = some text := by
    rw [message?_eq_some_iff]
    refine ⟨_, _, Varint.decode_encode_append hdigits _, ?_, ?_⟩
    · rw [hlength, List.length_append, List.length_append]
      omega
    · rw [List.drop_left, hlength, List.take_left, Utf8.decodeLossy_encode]
  cases success <;> simp [decode?_cons, hmessage]

/-- A text of `length` bytes, which take `used` bytes to say, is within a payload. -/
structure Encloses (payload : Bytes) (length : UInt64) (used : Nat) : Prop where
  tag : payload[2]? = some 0x12
  decodes : Varint.decode (payload.drop 3) = .ok (some (length, used))
  within : 3 + used + length.toNat ≤ payload.length

/-- The bytes of a text that is within a payload. -/
def content (payload : Bytes) (length : UInt64) (used : Nat) : Bytes :=
  (payload.drop (3 + used)).take length.toNat

theorem message_iff_encloses (h : decode? payload = some response) (text : String) :
    response.message = some text ↔ ∃ length used, Encloses payload length used ∧
      text = Utf8.decodeLossy (content payload length used) := by
  rw [message_eq_some_iff h, message?_eq_some_iff]
  constructor
  · rintro ⟨htag, length, used, hdecode, hlength, htext⟩
    have hthree := (List.getElem?_eq_some_iff.mp htag).1
    rw [List.length_drop] at hlength
    refine ⟨length, used, ⟨htag, hdecode, by omega⟩, ?_⟩
    rw [htext, content, List.drop_drop]
  · rintro ⟨length, used, hencloses, htext⟩
    have hwithin := hencloses.within
    refine ⟨hencloses.tag, length, used, hencloses.decodes, ?_, ?_⟩
    · rw [List.length_drop]
      omega
    · rw [htext, content, List.drop_drop]

/-- All bytes of the text are there, and the sum that says where they end is a word. -/
theorem Encloses.content_length {length : UInt64} {used : Nat}
    (h : Encloses payload length used) :
    (content payload length used).length = length.toNat ∧
      (payload.length < UInt64.size →
        (UInt64.ofNat (3 + used) + length).toNat = 3 + used + length.toNat) := by
  have hwithin := h.within
  constructor
  · rw [content, List.length_take, List.length_drop]
    omega
  · intro hword
    rw [UInt64.toNat_add, UInt64.toNat_ofNat_of_lt' (by omega), Nat.mod_eq_of_lt]
    exact Nat.lt_of_le_of_lt hwithin hword

/-- A verdict of one byte is the number that field 1 has. -/
theorem map_success {second : UInt8} (hsecond : payload[1]? = some second)
    (hsmall : second < 0x80) :
    (decode? payload).map success = (leadingNumber? payload).map (decide <| · = 1) := by
  match payload with
  | tag :: byte :: rest =>
      obtain rfl : byte = second := by simpa using hsecond
      have hone : byte.toUInt64 = 1 ↔ byte = 1 := by
        rw [← UInt64.toNat_inj, ← UInt8.toNat_inj, UInt8.toNat_toUInt64]
        rfl
      rw [leadingNumber?_cons tag hsmall, decode?_cons]
      split
      · simp [hone]
      · rfl

/-- A response is recognised exactly if there are two bytes of which the first is the tag of
field 1; it accepts exactly if the second is 1; and it has a text exactly if the tag of field 2
and a length follow and as many bytes are there, of which it is the text. Every verdict and text
are found again whatever follows them, and a verdict of one byte is the number of field 1. -/
theorem recognises_exactly (payload : Bytes) :
    ((∃ response, decode? payload = some response) ↔
      2 ≤ payload.length ∧ payload[0]? = some 0x08) ∧
    (∀ response, decode? payload = some response →
      (response.success = true ↔ payload[1]? = some 0x01) ∧
      ∀ text, response.message = some text ↔ ∃ length used, Encloses payload length used ∧
        text = Utf8.decodeLossy (content payload length used)) ∧
    (∀ length used, Encloses payload length used →
      (content payload length used).length = length.toNat ∧
      (payload.length < UInt64.size →
        (UInt64.ofNat (3 + used) + length).toNat = 3 + used + length.toNat)) ∧
    (∀ second, payload[1]? = some second → second < 0x80 →
      (decode? payload).map success = (leadingNumber? payload).map (decide <| · = 1)) ∧
    ∀ (success : Bool) (text : String) (trailing : Bytes),
      (Utf8.encode text).length < UInt64.size → ∃ digits,
        Varint.encode (UInt64.ofNat (Utf8.encode text).length) = .ok digits ∧
        decode? (0x08 :: (if success then 1 else 0) :: 0x12 ::
          (digits ++ (Utf8.encode text ++ trailing))) = some ⟨success, some text⟩ := by
  refine ⟨exists_decode?_iff payload, fun response h => ⟨success_iff h, message_iff_encloses h⟩,
    fun _ _ hencloses => hencloses.content_length, fun _ => map_success, ?_⟩
  intro success text trailing htext
  obtain ⟨init, last, hdigits, _⟩ :=
    Varint.encode_eq (UInt64.ofNat (Utf8.encode text).length)
  exact ⟨_, hdigits, decode?_text success text trailing hdigits htext⟩

/-- A refusal with a text, and a byte behind it. -/
theorem recognises_exactly_of_refusal :
    (Utf8.encode "no").length < UInt64.size ∧
      decode? [0x08, 0x00, 0x12, 0x02, 0x6E, 0x6F, 0xEE] = some ⟨false, some "no"⟩ := by
  have hbytes : Utf8.encode "no" = [0x6E, 0x6F] := by decide
  have htext : (Utf8.encode "no").length < UInt64.size := by
    rw [hbytes]
    decide
  obtain ⟨digits, hdigits, hdecode⟩ := (recognises_exactly []).2.2.2.2 false "no" [0xEE] htext
  rw [hbytes] at hdigits hdecode
  obtain rfl : [0x02] = digits := Except.ok.inj hdigits
  exact ⟨htext, hdecode⟩

/-- A text that is cut off is left out, and the verdict still counts. -/
example : decode? [0x08, 0x01, 0x12, 0x05, 0x6F] = some ⟨true, none⟩ := by
  decide

end RegisterResponse

end NodeHealth
