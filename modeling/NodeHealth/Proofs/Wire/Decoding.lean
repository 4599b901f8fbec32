import Mathlib.Algebra.BigOperators.Ring.Finset
import NodeHealth.Proofs.Wire.Varint

/-!
# Base-128 numbers: what is accepted

The number at the front of a byte sequence ends with the first byte whose high bit is clear. It
is accepted if that is one of the first ten bytes and a tenth byte adds no more than the top bit
of a word. A tenth byte that adds more is refused, and fewer than ten bytes without an end leave
the number open. There is no fourth case.

## Implementation notes

`Closes`, `Overflows` and `Unfinished` speak of bytes by their positions. The proofs cut the
bytes behind those that continue the number, where the lemmas on runs of bytes apply, so each
of the three comes with a lemma that cuts.

-/

namespace NodeHealth.Varint

variable {bytes init rest : Bytes} {last : UInt8} {used : Nat} {value : UInt64}

/-- The byte at a position, as a number. -/
def byteAt (bytes : Bytes) (i : Nat) : Nat :=
  (bytes.getD i 0).toNat

/-- The first `used` bytes are a number: there are at most ten of them, only the last has its
high bit clear, and a tenth one is 0 or 1. -/
structure Closes (bytes : Bytes) (used : Nat) : Prop where
  pos : 1 ≤ used
  le_ten : used ≤ 10
  le_length : used ≤ bytes.length
  continued : ∀ i < used - 1, 128 ≤ byteAt bytes i
  closed : byteAt bytes (used - 1) < 128
  tenth : used = 10 → byteAt bytes 9 ≤ 1

/-- Nine bytes continue the number, and the tenth does not fit into a word. -/
structure Overflows (bytes : Bytes) : Prop where
  ten_le : 10 ≤ bytes.length
  continued : ∀ i < 9, 128 ≤ byteAt bytes i
  tenth : 1 < byteAt bytes 9

/-- All bytes continue the number, and a tenth is missing. -/
structure Unfinished (bytes : Bytes) : Prop where
  lt_ten : bytes.length < 10
  continued : ∀ byte ∈ bytes, 128 ≤ byte.toNat

/-- What the first `used` bytes amount to, if seven bits of each count. -/
def positional (bytes : Bytes) (used : Nat) : Nat :=
  ∑ i ∈ Finset.range used, byteAt bytes i % 128 * 128 ^ i

/-- A number in a longer form: it is continued by groups without a bit, `more` of them and
another one at the end. -/
def lengthen (number : Bytes) (more : Nat) : Bytes :=
  number.dropLast ++ (number.getLastD 0 ||| 0x80) :: (List.replicate more 0x80 ++ [0])

/-! ## Positions -/

@[simp] theorem byteAt_zero (byte : UInt8) (bytes : Bytes) :
    byteAt (byte :: bytes) 0 = byte.toNat := rfl

@[simp] theorem byteAt_succ (byte : UInt8) (bytes : Bytes) (i : Nat) :
    byteAt (byte :: bytes) (i + 1) = byteAt bytes i := rfl

@[simp] theorem byteAt_length (init : Bytes) (last : UInt8) (rest : Bytes) :
    byteAt (init ++ last :: rest) init.length = last.toNat := by
  simp [byteAt]

theorem byteAt_append {i : Nat} (h : i < init.length) (rest : Bytes) :
    byteAt (init ++ rest) i = init[i].toNat := by
  simp [byteAt, List.getElem?_append_left h, h]

/-- Bytes continue the number at every position if all of them do. -/
theorem continued_append_iff (init rest : Bytes) :
    (∀ i < init.length, 128 ≤ byteAt (init ++ rest) i) ↔ ∀ byte ∈ init, 128 ≤ byte.toNat := by
  constructor
  · intro h byte hbyte
    obtain ⟨i, hi, rfl⟩ := List.getElem_of_mem hbyte
    rw [← byteAt_append hi rest]
    exact h i hi
  · intro h i hi
    rw [byteAt_append hi rest]
    exact h _ (List.getElem_mem hi)

/-- The positional value is that of the bytes by themselves. -/
theorem positional_eq_worth : ∀ (bytes : Bytes) (used : Nat),
    positional bytes used = worth (bytes.take used)
  | _, 0 => by simp [positional, worth]
  | [], used + 1 => by simp [positional, worth, byteAt]
  | byte :: bytes, used + 1 => by
      have htail := positional_eq_worth bytes used
      rw [positional] at htail ⊢
      rw [Finset.sum_range_succ', List.take_succ_cons, worth, ← htail, Finset.mul_sum]
      have hshift : ∀ i, byteAt (byte :: bytes) (i + 1) % 128 * 128 ^ (i + 1) =
          128 * (byteAt bytes i % 128 * 128 ^ i) := by
        intro i
        rw [byteAt_succ, Nat.pow_succ]
        ring
      simp only [hshift, byteAt_zero, Nat.pow_zero, Nat.mul_one]
      exact Nat.add_comm _ _

/-- Every byte adds a digit below 128. -/
theorem worth_lt (bytes : Bytes) : worth bytes < 128 ^ bytes.length := by
  induction bytes with
  | nil => simp [worth]
  | cons byte bytes ih =>
      rw [worth, List.length_cons, Nat.pow_succ]
      omega

/-! ## Runs of bytes -/

/-- Bytes that continue a number, and one that ends it within a word. -/
structure Run (init : Bytes) (last : UInt8) : Prop where
  continued : ∀ byte ∈ init, 128 ≤ byte.toNat
  short : init.length ≤ 9
  closed : last.toNat < 128
  fits : init.length = 9 → last.toNat ≤ 1

/-- A byte sequence is cut at a position. -/
theorem exists_cut {i : Nat} (h : i < bytes.length) :
    ∃ init last rest, bytes = init ++ last :: rest ∧ init.length = i := by
  refine ⟨bytes.take i, bytes[i], bytes.drop (i + 1), ?_, ?_⟩
  · rw [← List.drop_eq_getElem_cons h, List.take_append_drop]
  · exact List.length_take_of_le (Nat.le_of_lt h)

theorem take_cut (init : Bytes) (last : UInt8) (rest : Bytes) :
    (init ++ last :: rest).take (init.length + 1) = init ++ [last] := by
  simp [List.take_append]

/-- Where a number ends the bytes are cut into a run and what follows it. -/
theorem closes_iff : Closes bytes used ↔
    ∃ init last rest, bytes = init ++ last :: rest ∧ used = init.length + 1 ∧ Run init last := by
  constructor
  · intro h
    have hpos := h.pos
    have hlen := h.le_length
    obtain ⟨init, last, rest, rfl, hinit⟩ := exists_cut (by omega : used - 1 < bytes.length)
    obtain rfl : used = init.length + 1 := by omega
    obtain ⟨_, hten, _, hcontinued, hclosed, htenth⟩ := h
    rw [Nat.add_sub_cancel] at hcontinued hclosed
    rw [byteAt_length] at hclosed
    refine ⟨init, last, rest, rfl, rfl, (continued_append_iff init _).mp hcontinued, by omega,
      hclosed, ?_⟩
    intro hnine
    have hlast := htenth (by omega)
    rwa [← hnine, byteAt_length] at hlast
  · rintro ⟨init, last, rest, rfl, rfl, hrun⟩
    have hshort := hrun.short
    refine ⟨by omega, by omega, by simp, ?_, ?_, ?_⟩
    · exact (continued_append_iff init _).mpr hrun.continued
    · simpa using hrun.closed
    · intro hten
      have hnine : init.length = 9 := by omega
      rw [← hnine, byteAt_length]
      exact hrun.fits hnine

theorem Overflows.cut (h : Overflows bytes) :
    ∃ init last rest, bytes = init ++ last :: rest ∧ init.length = 9 ∧
      (∀ byte ∈ init, 128 ≤ byte.toNat) ∧ 1 < last.toNat := by
  obtain ⟨hten, hcontinued, htenth⟩ := h
  obtain ⟨init, last, rest, rfl, hnine⟩ := exists_cut (by omega : 9 < bytes.length)
  rw [← hnine] at hcontinued htenth
  rw [byteAt_length] at htenth
  exact ⟨init, last, rest, rfl, hnine, (continued_append_iff init _).mp hcontinued, htenth⟩

/-- Bytes are a number, too much for a word, or too few. -/
theorem shape_cases (bytes : Bytes) :
    (∃ used, Closes bytes used) ∨ Overflows bytes ∨ Unfinished bytes := by
  let init := bytes.takeWhile fun byte => 128 ≤ byte.toNat
  have hinit : ∀ byte ∈ init, 128 ≤ byte.toNat := by
    intro byte hbyte
    simpa using List.all_eq_true.mp List.all_takeWhile byte hbyte
  have hsplit : init ++ bytes.dropWhile (fun byte => 128 ≤ byte.toNat) = bytes :=
    List.takeWhile_append_dropWhile
  have hcontinued : ∀ i < init.length, 128 ≤ byteAt bytes i := by
    rw [← hsplit]
    exact (continued_append_iff init _).mpr hinit
  have hlen := congrArg List.length hsplit
  rw [List.length_append] at hlen
  by_cases hten : 10 ≤ init.length
  · have hninth := hcontinued 9 (by omega)
    exact .inr (.inl ⟨by omega, fun i hi => hcontinued i (by omega), by omega⟩)
  · cases hdrop : bytes.dropWhile fun byte => 128 ≤ byte.toNat with
    | nil =>
        rw [hdrop, List.append_nil] at hsplit
        rw [hsplit] at hinit hten
        exact .inr (.inr ⟨by omega, hinit⟩)
    | cons last rest =>
        have hlast : last.toNat < 128 := by
          have hhead := List.head_dropWhile_not (fun byte : UInt8 => 128 ≤ byte.toNat)
            (by simp [hdrop] : bytes.dropWhile _ ≠ [])
          simpa [hdrop] using hhead
        rw [hdrop] at hsplit
        by_cases hfits : init.length = 9 → last.toNat ≤ 1
        · exact .inl ⟨init.length + 1, closes_iff.mpr ⟨init, last, rest, hsplit.symm, rfl,
            hinit, by omega, hlast, hfits⟩⟩
        · rw [Classical.not_imp] at hfits
          have htenth : byteAt bytes 9 = last.toNat := by
            rw [← hsplit, ← hfits.1, byteAt_length]
          rw [hdrop, List.length_cons] at hlen
          exact .inr (.inl ⟨by omega, fun i hi => hcontinued i (by omega), by omega⟩)

/-! ## Decoding -/

/-- A run is decoded to its value, whatever follows it. -/
theorem Run.decode_append (h : Run init last) (rest : Bytes) :
    ∃ word : UInt64, decode (init ++ last :: rest) = .ok (some (word, init.length + 1)) ∧
      word.toNat = worth (init ++ [last]) := by
  have hshort := h.short
  obtain ⟨word, hword, htotal⟩ := decodeFrom_run rest h.closed (by rfl : 0 + maxLength = 10)
    (by simp only [maxLength]; omega) h.continued (by simpa using h.fits)
    (by decide : (0 : UInt64).toNat < 128 ^ 0)
  exact ⟨word, by simpa [decode] using hword, by simpa using htotal⟩

theorem Closes.decodes (h : Closes bytes used) :
    ∃ word : UInt64, decode bytes = .ok (some (word, used)) ∧
      word.toNat = positional bytes used := by
  obtain ⟨init, last, rest, rfl, rfl, hrun⟩ := closes_iff.mp h
  obtain ⟨word, hword, htotal⟩ := hrun.decode_append rest
  exact ⟨word, hword, by rw [positional_eq_worth, take_cut, htotal]⟩

/-- Decoding takes all bytes that continue a number, as long as a tenth is missing. -/
theorem decode_continued (hinit : ∀ byte ∈ init, 128 ≤ byte.toNat) (hlen : init.length ≤ 9)
    (rest : Bytes) :
    ∃ next : UInt64,
      decode (init ++ rest) = decodeFrom next init.length (10 - init.length) rest := by
  obtain ⟨next, hnext, _⟩ := decodeFrom_continued rest hinit (by rfl : 0 + maxLength = 10)
    (by simp only [maxLength]; omega) (by decide : (0 : UInt64).toNat < 128 ^ 0)
  exact ⟨next, by simpa [decode, maxLength] using hnext⟩

theorem Overflows.decodes (h : Overflows bytes) :
    decode bytes = .error .malformedVarint := by
  obtain ⟨init, last, rest, rfl, hnine, hinit, hlast⟩ := h.cut
  obtain ⟨next, hnext⟩ := decode_continued hinit (by omega) (last :: rest)
  rw [hnext, hnine, decodeFrom, accept_overflow hlast]

theorem Unfinished.decodes (h : Unfinished bytes) : decode bytes = .ok none := by
  obtain ⟨next, hnext⟩ := decode_continued h.continued (Nat.le_of_lt_succ h.lt_ten) []
  rw [List.append_nil] at hnext
  rw [hnext, decodeFrom_nil]

/-- A number is found exactly where one ends, and it is the positional value. -/
theorem decode_eq_some_iff : decode bytes = .ok (some (value, used)) ↔
    Closes bytes used ∧ value.toNat = positional bytes used := by
  constructor
  · intro h
    obtain ⟨taken, hcloses⟩ | hover | hopen := shape_cases bytes
    · obtain ⟨word, hword, htotal⟩ := hcloses.decodes
      rw [hword] at h
      cases h
      exact ⟨hcloses, htotal⟩
    · rw [hover.decodes] at h
      cases h
    · rw [hopen.decodes] at h
      cases h
  · rintro ⟨hcloses, hvalue⟩
    obtain ⟨word, hword, htotal⟩ := hcloses.decodes
    obtain rfl : word = value := UInt64.toNat_inj.mp (htotal.trans hvalue.symm)
    exact hword

/-- A number that was found is found there whatever follows it. -/
theorem decode_take_append (h : decode bytes = .ok (some (value, used))) (rest : Bytes) :
    decode (bytes.take used ++ rest) = .ok (some (value, used)) := by
  obtain ⟨hcloses, hvalue⟩ := decode_eq_some_iff.mp h
  obtain ⟨init, last, more, rfl, rfl, hrun⟩ := closes_iff.mp hcloses
  obtain ⟨word, hword, htotal⟩ := hrun.decode_append rest
  rw [positional_eq_worth, take_cut, ← htotal] at hvalue
  rw [take_cut, List.append_assoc, List.singleton_append, hword, UInt64.toNat_inj.mp hvalue]

theorem worth_replicate (more : Nat) : worth (List.replicate more 0x80) = 0 := by
  induction more with
  | zero => rfl
  | succ more ih => simp [List.replicate_succ, worth, ih]

/-- A longer form of a number is a run as well, and worth the same. -/
theorem Run.lengthened (h : Run init last) {more : Nat} (hlen : init.length + more + 2 ≤ 10) :
    Run (init ++ (last ||| 0x80) :: List.replicate more 0x80) 0 ∧
      worth (init ++ (last ||| 0x80) :: List.replicate more 0x80 ++ [0]) =
        worth (init ++ [last]) := by
  have hmark := toNat_mark h.closed
  refine ⟨⟨?_, ?_, by decide, fun _ => by decide⟩, ?_⟩
  · intro byte hbyte
    rw [List.mem_append, List.mem_cons] at hbyte
    obtain hbyte | rfl | hbyte := hbyte
    · exact h.continued byte hbyte
    · omega
    · rw [List.eq_of_mem_replicate hbyte]
      decide
  · simp only [List.length_append, List.length_cons, List.length_replicate]
    omega
  · have hlast : worth ((last ||| 0x80) :: List.replicate more 0x80) = worth [last] := by
      simp only [worth, worth_replicate, hmark]
      omega
    rw [worth_concat, worth_append, hlast, ← worth_append]
    simp

theorem decode_lengthen (h : decode bytes = .ok (some (value, used))) {more : Nat}
    (hmore : used + more + 1 ≤ 10) (rest : Bytes) :
    decode (lengthen (bytes.take used) more ++ rest) =
      .ok (some (value, used + more + 1)) := by
  obtain ⟨hcloses, hvalue⟩ := decode_eq_some_iff.mp h
  obtain ⟨init, last, tail, rfl, rfl, hrun⟩ := closes_iff.mp hcloses
  obtain ⟨hlong, hworth⟩ := hrun.lengthened (by omega : init.length + more + 2 ≤ 10)
  obtain ⟨word, hword, htotal⟩ := hlong.decode_append rest
  rw [hworth] at htotal
  rw [positional_eq_worth, take_cut, ← htotal] at hvalue
  have hform : lengthen (init ++ [last]) more ++ rest =
      init ++ (last ||| 0x80) :: List.replicate more 0x80 ++ 0 :: rest := by
    simp [lengthen]
  have hlength : (init ++ (last ||| 0x80) :: List.replicate more 0x80).length + 1 =
      init.length + 1 + more + 1 := by
    simp only [List.length_append, List.length_cons, List.length_replicate]
    omega
  rw [take_cut, hform, hword, hlength, UInt64.toNat_inj.mp hvalue]

/-- Decoding accepts exactly the 64-bit numbers in at most ten groups, in any of their forms,
with their positional value; it refuses exactly those whose tenth byte does not fit, and asks
for more bytes exactly where fewer than ten all continue. What follows a number does not
matter, and no group loses a bit. -/
theorem decode_accepts (bytes : Bytes) :
    (∀ value used, decode bytes = .ok (some (value, used)) ↔
      Closes bytes used ∧ value.toNat = positional bytes used) ∧
    (decode bytes = .error .malformedVarint ↔ Overflows bytes) ∧
    (decode bytes = .ok none ↔ Unfinished bytes) ∧
    (∀ used, Closes bytes used → positional bytes used < 2 ^ 64) ∧
    (∀ value used rest, decode bytes = .ok (some (value, used)) →
      decode (bytes.take used ++ rest) = .ok (some (value, used))) ∧
    (∀ value used more rest, decode bytes = .ok (some (value, used)) → used + more + 1 ≤ 10 →
      decode (lengthen (bytes.take used) more ++ rest) =
        .ok (some (value, used + more + 1))) := by
  refine ⟨fun _ _ => decode_eq_some_iff, ⟨?_, Overflows.decodes⟩, ⟨?_, Unfinished.decodes⟩, ?_,
    fun _ _ rest h => decode_take_append h rest, fun _ _ _ rest h hmore =>
      decode_lengthen h hmore rest⟩
  · intro h
    obtain ⟨_, hcloses⟩ | hover | hopen := shape_cases bytes
    · obtain ⟨_, hword, _⟩ := hcloses.decodes
      rw [hword] at h
      cases h
    · exact hover
    · rw [hopen.decodes] at h
      cases h
  · intro h
    obtain ⟨_, hcloses⟩ | hover | hopen := shape_cases bytes
    · obtain ⟨_, hword, _⟩ := hcloses.decodes
      rw [hword] at h
      cases h
    · rw [hover.decodes] at h
      cases h
    · exact hopen
  · intro used hcloses
    obtain ⟨word, _, htotal⟩ := hcloses.decodes
    rw [← htotal]
    exact word.toNat_lt

end NodeHealth.Varint
