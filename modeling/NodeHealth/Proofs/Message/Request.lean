import NodeHealth.Message.Health
import NodeHealth.Message.Registration
import NodeHealth.Proofs.Text.Utf8
import NodeHealth.Proofs.Wire.Shortest

/-!
# What is written into a message can be read off it

A message is a sequence of fields, each behind a tag and without a separator. `numberField?` and
`bytesField?` take one field off the front of a message and return what follows it, so that a
message is walked by taking its fields one after the other. What the encoders write is recovered
in this way with nothing left over, and it has the length that is counted beforehand.

-/

namespace NodeHealth

/-! ## Fields -/

/-- The number behind a tag, and what follows it. -/
def numberField? (tag : UInt8) : Bytes → Option (UInt64 × Bytes)
  | [] => none
  | first :: rest =>
      if first = tag then
        match Varint.decode rest with
        | .ok (some (number, used)) => some (number, rest.drop used)
        | _ => none
      else none

/-- The bytes behind a tag and their length, and what follows them. -/
def bytesField? (tag : UInt8) (bytes : Bytes) : Option (Bytes × Bytes) := do
  let (length, rest) ← numberField? tag bytes
  if rest.length < length.toNat then none
  else return (rest.take length.toNat, rest.drop length.toNat)

theorem numberField?_append (tag : UInt8) {number : UInt64} {digits : Bytes}
    (h : Varint.encode number = .ok digits) (rest : Bytes) :
    numberField? tag (tag :: (digits ++ rest)) = some (number, rest) := by
  simp only [numberField?, if_true, Varint.decode_encode_append h, List.drop_left]

theorem bytesField?_append (tag : UInt8) {content digits : Bytes}
    (h : Varint.encode (UInt64.ofNat content.length) = .ok digits)
    (hcontent : content.length < UInt64.size) (rest : Bytes) :
    bytesField? tag (tag :: (digits ++ (content ++ rest))) = some (content, rest) := by
  have hlength : (UInt64.ofNat content.length).toNat = content.length :=
    UInt64.toNat_ofNat_of_lt' hcontent
  have hlong : ¬(content ++ rest).length < content.length := by
    rw [List.length_append]
    omega
  simp only [bytesField?, numberField?_append tag h, bind, Option.bind, hlength, if_neg hlong,
    List.take_left, List.drop_left, pure]

/-! ## Registration requests -/

namespace RegisterRequest

variable {request other : RegisterRequest} {bytes : Bytes}

/-- The node type, the address and the port of a request, if nothing else is in it. -/
def fields? (bytes : Bytes) : Option (UInt64 × Bytes × UInt64) := do
  let (nodeType, rest) ← numberField? 0x08 bytes
  let (ip, rest) ← bytesField? 0x12 rest
  let (port, rest) ← numberField? 0x18 rest
  if rest = [] then return (nodeType, ip, port) else none

/-- An address that fits into a request has a length that is a word. -/
theorem ip_lt_of_short (h : request.encodedLength ≤ maxLength) :
    (Utf8.encode request.ip).length < UInt64.size := by
  simp only [encodedLength, maxLength] at h
  simp only [UInt64.size]
  omega

/-- A request is refused if it is too long, and otherwise written field by field. -/
theorem encode_cases (request : RegisterRequest) :
    maxLength < request.encodedLength ∧
        request.encode = .error (.messageTooLarge request.encodedLength maxLength) ∨
      request.encodedLength ≤ maxLength ∧ ∃ nodeType ipLength port,
        Varint.encode request.nodeType = .ok nodeType ∧
        Varint.encode (UInt64.ofNat (Utf8.encode request.ip).length) = .ok ipLength ∧
        Varint.encode request.port.toUInt64 = .ok port ∧
        request.encode = .ok (0x08 :: (nodeType ++
          0x12 :: (ipLength ++ (Utf8.encode request.ip ++ 0x18 :: port)))) := by
  unfold encode
  split
  · rename_i hlong
    exact .inl ⟨hlong, rfl⟩
  · rename_i hshort
    obtain ⟨_, _, hnodeType, _⟩ := Varint.encode_eq request.nodeType
    obtain ⟨_, _, hlength, _⟩ :=
      Varint.encode_eq (UInt64.ofNat (Utf8.encode request.ip).length)
    obtain ⟨_, _, hport, _⟩ := Varint.encode_eq request.port.toUInt64
    refine .inr ⟨Nat.le_of_not_lt hshort, _, _, _, hnodeType, hlength, hport, ?_⟩
    simp [hnodeType, hlength, hport, bind, Except.bind, pure, Except.pure, FieldTag.byte]

theorem exists_encode_iff (request : RegisterRequest) :
    (∃ bytes, request.encode = .ok bytes) ↔ request.encodedLength ≤ maxLength := by
  obtain ⟨hlong, herror⟩ | ⟨hshort, _, _, _, _, _, _, hok⟩ := request.encode_cases
  · simp [herror, hlong]
  · exact ⟨fun _ => hshort, fun _ => ⟨_, hok⟩⟩

theorem short_of_encode (h : request.encode = .ok bytes) : request.encodedLength ≤ maxLength :=
  request.exists_encode_iff.mp ⟨bytes, h⟩

theorem tooLong_of_encode {error : WireError} (h : request.encode = .error error) :
    maxLength < request.encodedLength ∧
      error = .messageTooLarge request.encodedLength maxLength := by
  obtain ⟨hlong, herror⟩ | ⟨_, _, _, _, _, _, _, hok⟩ := request.encode_cases
  · cases herror.symm.trans h
    exact ⟨hlong, rfl⟩
  · cases hok.symm.trans h

/-- A request that is written has the length that was counted, and its fields are read off. -/
theorem fields?_encode (h : request.encode = .ok bytes) :
    bytes.length = request.encodedLength ∧
      fields? bytes = some (request.nodeType, Utf8.encode request.ip, request.port.toUInt64) := by
  obtain ⟨_, herror⟩ | ⟨hshort, nodeType, ipLength, port, hnodeType, hipLength, hport, hok⟩ :=
    request.encode_cases
  · cases herror.symm.trans h
  · obtain rfl := Except.ok.inj (hok.symm.trans h)
    constructor
    · simp only [encodedLength, ← Varint.length_encode hnodeType,
        ← Varint.length_encode hipLength, ← Varint.length_encode hport, List.length_append,
        List.length_cons]
      omega
    · have htype := numberField?_append 0x08 hnodeType
        (0x12 :: (ipLength ++ (Utf8.encode request.ip ++ 0x18 :: port)))
      have hip := bytesField?_append 0x12 hipLength (ip_lt_of_short hshort) (0x18 :: port)
      have hlast := numberField?_append 0x18 hport []
      rw [List.append_nil] at hlast
      simp only [fields?, htype, hip, hlast, bind, Option.bind, if_true, pure]

/-- Different requests are written differently. -/
theorem eq_of_encode (h : request.encode = .ok bytes) (hother : other.encode = .ok bytes) :
    request = other := by
  have hfields := (fields?_encode h).2.symm.trans (fields?_encode hother).2
  simp only [Option.some.injEq, Prod.mk.injEq] at hfields
  obtain ⟨hnodeType, hip, hport⟩ := hfields
  have htext : request.ip = other.ip := by
    have htexts := congrArg Utf8.decode? hip
    rw [Utf8.decode?_encode, Utf8.decode?_encode] at htexts
    exact Option.some.inj htexts
  have hnumber : request.port = other.port := by
    have hnumbers := congrArg UInt64.toNat hport
    rw [UInt16.toNat_toUInt64, UInt16.toNat_toUInt64] at hnumbers
    exact UInt16.toNat_inj.mp hnumbers
  cases request
  cases other
  simp only at hnodeType htext hnumber
  rw [hnodeType, htext, hnumber]

end RegisterRequest

/-! ## Health checks and identities -/

theorem HealthRequest.encode_eq (service : String) :
    ∃ digits, Varint.encode (UInt64.ofNat (Utf8.encode service).length) = .ok digits ∧
      HealthRequest.encode ⟨service⟩ = .ok (0x0A :: (digits ++ Utf8.encode service)) := by
  obtain ⟨init, last, hdigits, _⟩ :=
    Varint.encode_eq (UInt64.ofNat (Utf8.encode service).length)
  refine ⟨init ++ [last], hdigits, ?_⟩
  simp only [HealthRequest.encode, hdigits]
  rfl

/-- A number behind the tag of field 1 is its value, whatever follows it. -/
theorem leadingNumber?_append {number : UInt64} {digits : Bytes}
    (h : Varint.encode number = .ok digits) (rest : Bytes) :
    leadingNumber? (0x08 :: (digits ++ rest)) = some number := by
  obtain ⟨init, last, hdigits, _⟩ := Varint.encode_eq number
  obtain rfl := Except.ok.inj (hdigits.symm.trans h)
  obtain ⟨first, tail, hcons⟩ := List.exists_cons_of_ne_nil
    (by simp : init ++ [last] ++ rest ≠ [])
  have hdecode := Varint.decode_encode_append h rest
  rw [hcons] at hdecode ⊢
  simp [leadingNumber?, FieldTag.byte, hdecode]

theorem Identity.decode?_encode_append (nodeType : UInt64) :
    ∃ bytes, Identity.encode ⟨nodeType⟩ = .ok bytes ∧
      ∀ rest, Identity.decode? (bytes ++ rest) = some ⟨nodeType⟩ := by
  obtain ⟨init, last, hdigits, _⟩ := Varint.encode_eq nodeType
  refine ⟨0x08 :: (init ++ [last]), ?_, fun rest => ?_⟩
  · simp only [Identity.encode, hdigits]
    rfl
  · rw [Identity.decode?, List.cons_append, leadingNumber?_append hdigits rest]
    rfl

/-- A registration request is encoded exactly if the length that is counted is within the limit;
what is encoded has that length, and its fields are walked off it with nothing left over, so that
no two requests are encoded alike. A health check is its service behind a tag and a length, and
an identity is found again whatever follows it. -/
theorem encoders_faithful :
    (∀ request : RegisterRequest,
      ((∃ bytes, request.encode = .ok bytes) ↔ request.encodedLength ≤ 256) ∧
      (256 < request.encodedLength →
        request.encode = .error (.messageTooLarge request.encodedLength 256)) ∧
      ∀ bytes, request.encode = .ok bytes → bytes.length = request.encodedLength ∧
        RegisterRequest.fields? bytes =
          some (request.nodeType, Utf8.encode request.ip, request.port.toUInt64)) ∧
    (∀ request other : RegisterRequest, ∀ bytes, request.encode = .ok bytes →
      other.encode = .ok bytes → request = other) ∧
    (∀ service : String, ∃ digits,
      Varint.encode (UInt64.ofNat (Utf8.encode service).length) = .ok digits ∧
      HealthRequest.encode ⟨service⟩ = .ok (0x0A :: (digits ++ Utf8.encode service)) ∧
      ((Utf8.encode service).length < UInt64.size →
        bytesField? 0x0A (0x0A :: (digits ++ Utf8.encode service)) =
          some (Utf8.encode service, []))) ∧
    ∀ nodeType : UInt64, ∃ bytes, Identity.encode ⟨nodeType⟩ = .ok bytes ∧
      ∀ trailing, Identity.decode? (bytes ++ trailing) = some ⟨nodeType⟩ := by
  refine ⟨fun request => ⟨request.exists_encode_iff, fun hlong => ?_, fun bytes =>
    RegisterRequest.fields?_encode⟩, fun _ _ _ => RegisterRequest.eq_of_encode, fun service => ?_,
    Identity.decode?_encode_append⟩
  · obtain ⟨_, herror⟩ | ⟨hshort, _⟩ := request.encode_cases
    · exact herror
    · exact absurd hlong (Nat.not_lt_of_le hshort)
  · obtain ⟨digits, hdigits, hencode⟩ := HealthRequest.encode_eq service
    refine ⟨digits, hdigits, hencode, fun hlength => ?_⟩
    have hfield := bytesField?_append 0x0A hdigits hlength []
    rwa [List.append_nil] at hfield

/-- The registration of an AMF at the usual port. -/
def RegisterRequest.usual : RegisterRequest :=
  .amf "10.0.0.1" 50051

/-- A registration at the usual port is sixteen bytes long. -/
theorem encoders_faithful_at_usual_port :
    RegisterRequest.usual.encodedLength ≤ 256 ∧ ∃ bytes, RegisterRequest.usual.encode = .ok bytes ∧
      bytes.length = 16 ∧
      RegisterRequest.fields? bytes = some (13, Utf8.encode "10.0.0.1", 50051) := by
  have hlength : RegisterRequest.usual.encodedLength = 16 := by decide
  have hshort : RegisterRequest.usual.encodedLength ≤ 256 := by omega
  obtain ⟨hencodes, _, hfields⟩ := encoders_faithful.1 .usual
  obtain ⟨bytes, hbytes⟩ := hencodes.mpr hshort
  obtain ⟨hcounted, hwalked⟩ := hfields bytes hbytes
  exact ⟨hshort, bytes, hbytes, hcounted.trans hlength, hwalked⟩

end NodeHealth
