import NodeHealth.Text.Utf8

/-!
# Well-formed UTF-8

The bytes of a text are well-formed, and the machine that reads them one at a time finds that
text again.

## Implementation notes

A lead byte leaves a state open in which the bounds of the second byte depend on it.
`start_three` and `start_four` say what those bounds are, and the character that is encoded
keeps within them because it is no surrogate and no number above the last code point.

-/

namespace NodeHealth.Utf8

variable {n value further : Nat} {lower upper : UInt8} {rest : Bytes}

theorem toNat_ofNat_byte (h : n < 256) : (UInt8.ofNat n).toNat = n :=
  UInt8.toNat_ofNat_of_lt' h

/-! ## Lead bytes -/

theorem start_one (h : n < 0x80) : start (UInt8.ofNat n) = ([some (Char.ofNat n)], none) := by
  have hn := toNat_ofNat_byte (n := n) (by omega)
  have hlead : UInt8.ofNat n < 0x80 := by
    rw [UInt8.lt_iff_toNat_lt, hn]
    exact h
  simp only [start, if_pos hlead, hn]

theorem start_two (hlow : 0xC2 ≤ n) (hhigh : n ≤ 0xDF) :
    start (UInt8.ofNat n) = ([], some ⟨0x80, 0xBF, 0, n - 0xC0⟩) := by
  have hn := toNat_ofNat_byte (n := n) (by omega)
  simp only [start, UInt8.lt_iff_toNat_lt, UInt8.le_iff_toNat_le, hn, UInt8.reduceToNat]
  rw [if_neg (by omega), if_pos ⟨hlow, hhigh⟩]

/-- The second of three bytes keeps out longer forms than needed and surrogates. -/
theorem start_three (hlow : 0xE0 ≤ n) (hhigh : n ≤ 0xEF) :
    start (UInt8.ofNat n) = ([], some ⟨if n = 0xE0 then 0xA0 else 0x80,
      if n = 0xED then 0x9F else 0xBF, 1, n - 0xE0⟩) := by
  have hn := toNat_ofNat_byte (n := n) (by omega)
  simp only [start, UInt8.lt_iff_toNat_lt, UInt8.le_iff_toNat_le, ← UInt8.toNat_inj, hn,
    UInt8.reduceToNat]
  rw [if_neg (by omega), if_neg (by omega)]
  by_cases hfirst : n = 0xE0
  · subst hfirst
    rfl
  · by_cases hsurrogate : n = 0xED
    · subst hsurrogate
      rfl
    · simp only [if_neg hfirst, if_neg hsurrogate, if_pos (And.intro (by omega : 0xE1 ≤ n) hhigh)]

/-- The second of four bytes keeps out longer forms than needed and numbers above the last code
point. -/
theorem start_four (hlow : 0xF0 ≤ n) (hhigh : n ≤ 0xF4) :
    start (UInt8.ofNat n) = ([], some ⟨if n = 0xF0 then 0x90 else 0x80,
      if n = 0xF4 then 0x8F else 0xBF, 2, n - 0xF0⟩) := by
  have hn := toNat_ofNat_byte (n := n) (by omega)
  simp only [start, UInt8.lt_iff_toNat_lt, UInt8.le_iff_toNat_le, ← UInt8.toNat_inj, hn,
    UInt8.reduceToNat]
  rw [if_neg (by omega), if_neg (by omega), if_neg (by omega), if_neg (by omega),
    if_neg (by omega)]
  by_cases hfirst : n = 0xF0
  · subst hfirst
    rfl
  · by_cases hlast : n = 0xF4
    · subst hlast
      rfl
    · simp only [if_neg hfirst, if_neg hlast,
        if_pos (And.intro (by omega : 0xF1 ≤ n) (by omega : n ≤ 0xF3))]

/-! ## Continuation bytes -/

theorem scan_lead {state : Partial} (h : start (UInt8.ofNat n) = ([], some state)) :
    scan none (UInt8.ofNat n :: rest) = scan (some state) rest := by
  simp [scan, step, h]

theorem scan_further (hlow : lower.toNat ≤ n) (hhigh : n ≤ upper.toNat) :
    scan (some ⟨lower, upper, further + 1, value⟩) (UInt8.ofNat n :: rest) =
      scan (some ⟨0x80, 0xBF, further, 64 * value + (n - 0x80)⟩) rest := by
  have hn := toNat_ofNat_byte (n := n) (Nat.lt_of_le_of_lt hhigh upper.toNat_lt)
  have hwithin : lower ≤ UInt8.ofNat n ∧ UInt8.ofNat n ≤ upper := by
    simp only [UInt8.le_iff_toNat_le, hn]
    exact ⟨hlow, hhigh⟩
  simp [scan, step, if_pos hwithin, hn]

theorem scan_last (hlow : lower.toNat ≤ n) (hhigh : n ≤ upper.toNat) :
    scan (some ⟨lower, upper, 0, value⟩) (UInt8.ofNat n :: rest) =
      some (Char.ofNat (64 * value + (n - 0x80))) :: scan none rest := by
  have hn := toNat_ofNat_byte (n := n) (Nat.lt_of_le_of_lt hhigh upper.toNat_lt)
  have hwithin : lower ≤ UInt8.ofNat n ∧ UInt8.ofNat n ≤ upper := by
    simp only [UInt8.le_iff_toNat_le, hn]
    exact ⟨hlow, hhigh⟩
  simp [scan, step, if_pos hwithin, hn]

/-! ## Characters and texts -/

/-- The bytes of a character are read as that character. -/
theorem scan_character (c : Char) (rest : Bytes) :
    scan none (String.utf8EncodeChar c ++ rest) = some c :: scan none rest := by
  have hvalid : c.toNat < 0xD800 ∨ 0xDFFF < c.toNat ∧ c.toNat < 0x110000 := c.valid
  have hchar : Char.ofNat c.toNat = c := Char.ofNat_toNat c
  rw [String.utf8EncodeChar, show c.val.toNat = c.toNat from rfl]
  generalize c.toNat = v at hvalid hchar
  by_cases hone : v ≤ 127
  · simp only [if_pos hone, List.cons_append, List.nil_append]
    simp [scan, step, start_one (Nat.lt_succ_of_le hone), hchar]
  · by_cases htwo : v ≤ 2047
    · simp only [if_neg hone, if_pos htwo, List.cons_append, List.nil_append]
      rw [scan_lead (start_two (by omega) (by omega)), scan_last (by simp) (by simp; omega)]
      rw [show 64 * (v / 64 % 32 + 192 - 0xC0) + (v % 64 + 128 - 0x80) = v by omega, hchar]
    · by_cases hthree : v ≤ 65535
      · simp only [if_neg hone, if_neg htwo, if_pos hthree, List.cons_append, List.nil_append]
        rw [scan_lead (start_three (by omega) (by omega)), scan_further (by split <;> simp; omega)
          (by split <;> simp <;> omega), scan_last (by simp) (by simp; omega)]
        rw [show 64 * (64 * (v / 4096 % 16 + 224 - 0xE0) + (v / 64 % 64 + 128 - 0x80)) +
          (v % 64 + 128 - 0x80) = v by omega, hchar]
      · simp only [if_neg hone, if_neg htwo, if_neg hthree, List.cons_append, List.nil_append]
        rw [scan_lead (start_four (by omega) (by omega)), scan_further (by split <;> simp; omega)
          (by split <;> simp <;> omega), scan_further (by simp) (by simp; omega),
          scan_last (by simp) (by simp; omega)]
        rw [show 64 * (64 * (64 * (v / 262144 % 8 + 240 - 0xF0) + (v / 4096 % 64 + 128 - 0x80)) +
          (v / 64 % 64 + 128 - 0x80)) + (v % 64 + 128 - 0x80) = v by omega, hchar]

theorem scan_encoded (text : List Char) :
    scan none (text.flatMap String.utf8EncodeChar) = text.map some := by
  induction text with
  | nil => rfl
  | cons c text ih => rw [List.flatMap_cons, scan_character, ih, List.map_cons]

/-- The bytes of a text are well-formed, and they are read as that text. -/
theorem decode?_encode (text : String) : decode? (encode text) = some text := by
  have hall : (text.toList.map some).all Option.isSome = true := by simp
  simp only [decode?, encode, scan_encoded, hall, if_true, List.filterMap_map]
  simp

/-- Nothing in the bytes of a text is replaced. -/
theorem decodeLossy_encode (text : String) : decodeLossy (encode text) = text := by
  have hread : (text.toList.map some).map (·.getD replacement) = text.toList := by
    rw [List.map_map]
    exact List.map_id _
  rw [decodeLossy, encode, scan_encoded, hread, String.ofList_toList]

end NodeHealth.Utf8
