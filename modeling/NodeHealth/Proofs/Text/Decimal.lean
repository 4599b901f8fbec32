import Mathlib.Data.List.Induction
import Mathlib.Data.Nat.Digits.Defs
import NodeHealth.Text.Blank
import NodeHealth.Text.Numeral

/-!
# Trimmed texts and decimal numbers

Trimming leaves the part of a text that neither begins nor ends with white space. A text of
decimal digits stands for the positional value of its digits, however many zeros it begins with.

-/

namespace NodeHealth.Text

variable {text front core back digits : List Char} {c : Char} {value : Nat}

/-! ## Trimming -/

/-- What trimming leaves out is white space at both ends. -/
theorem trimBlank_split (text : List Char) :
    ∃ front back, text = front ++ trimBlank text ++ back ∧
      (∀ c ∈ front, isBlank c = true) ∧ ∀ c ∈ back, isBlank c = true := by
  let tail := text.dropWhile isBlank
  refine ⟨text.takeWhile isBlank, (tail.reverse.takeWhile isBlank).reverse, ?_, ?_, ?_⟩
  · have hback := congrArg List.reverse
      (List.takeWhile_append_dropWhile (p := isBlank) (l := tail.reverse))
    rw [List.reverse_append, List.reverse_reverse] at hback
    calc text = text.takeWhile isBlank ++ tail := List.takeWhile_append_dropWhile.symm
      _ = _ := by rw [List.append_assoc, trimBlank, hback]
  · intro c hc
    exact List.all_eq_true.mp List.all_takeWhile c hc
  · intro c hc
    rw [List.mem_reverse] at hc
    exact List.all_eq_true.mp List.all_takeWhile c hc

/-- White space is dropped up to the first other character. -/
theorem dropWhile_isBlank (hfront : ∀ c ∈ front, isBlank c = true)
    (hcore : ∃ c ∈ core.head?, isBlank c = false) :
    (front ++ core).dropWhile isBlank = core := by
  obtain ⟨c, hc, hblank⟩ := hcore
  obtain ⟨rest, rfl⟩ := List.head?_eq_some_iff.mp hc
  rw [List.dropWhile_append_of_pos hfront, List.dropWhile_cons_of_neg (by simp [hblank])]

/-- White space around a part that neither begins nor ends with it is trimmed. -/
theorem trimBlank_append (hfront : ∀ c ∈ front, isBlank c = true)
    (hback : ∀ c ∈ back, isBlank c = true) (hhead : ∃ c ∈ core.head?, isBlank c = false)
    (hlast : ∃ c ∈ core.getLast?, isBlank c = false) :
    trimBlank (front ++ core ++ back) = core := by
  have hhead' : ∃ c ∈ (core ++ back).head?, isBlank c = false := by
    obtain ⟨c, hc, hblank⟩ := hhead
    obtain ⟨rest, rfl⟩ := List.head?_eq_some_iff.mp hc
    exact ⟨c, rfl, hblank⟩
  have hback' : ∀ c ∈ back.reverse, isBlank c = true := by
    intro c hc
    exact hback c (List.mem_reverse.mp hc)
  rw [trimBlank, List.append_assoc, dropWhile_isBlank hfront hhead', List.reverse_append,
    dropWhile_isBlank hback' (by rwa [List.head?_reverse]), List.reverse_reverse]

/-! ## Digits -/

/-- The value of a decimal digit. -/
theorem digitValue?_of_digit (h : '0' ≤ c ∧ c ≤ '9') :
    digitValue? c = some (c.toNat - '0'.toNat) := by
  rw [digitValue?, if_pos h]

/-- The digits of larger bases count from ten on. -/
theorem ten_le_of_digitValue? (hdigit : ¬('0' ≤ c ∧ c ≤ '9'))
    (h : digitValue? c = some value) : 10 ≤ value := by
  rw [digitValue?, if_neg hdigit] at h
  split at h
  · obtain rfl := Option.some.inj h
    exact Nat.le_add_left _ _
  · split at h
    · obtain rfl := Option.some.inj h
      exact Nat.le_add_left _ _
    · cases h

/-- The digits of decimal numbers. -/
theorem isDigitIn_ten_iff : isDigitIn 10 c = true ↔ '0' ≤ c ∧ c ≤ '9' := by
  by_cases hdigit : '0' ≤ c ∧ c ≤ '9'
  · have hnine : c.toNat ≤ 57 := hdigit.2
    have hbase : '0'.toNat = 48 := rfl
    simp only [isDigitIn, digitValue?_of_digit hdigit, hdigit, and_self, iff_true,
      decide_eq_true_eq]
    omega
  · rw [iff_false_right hdigit, isDigitIn]
    split
    case h_1 value hvalue =>
      have hten := ten_le_of_digitValue? hdigit hvalue
      simpa using hten
    case h_2 => decide

theorem isBlank_of_digit (h : '0' ≤ c ∧ c ≤ '9') : isBlank c = false := by
  have hzero : 48 ≤ c.toNat := h.1
  have hnine : c.toNat ≤ 57 := h.2
  simp only [isBlank, blankRanges, List.any_cons, List.any_nil, Bool.or_false,
    Bool.or_eq_false_iff, decide_eq_false_iff_not]
  omega

/-! ## Numbers -/

/-- The number that decimal digits stand for: each counts ten times as much as the next. -/
def decimalValue (digits : List Char) : Nat :=
  Nat.ofDigits 10 (digits.reverse.map fun c => c.toNat - '0'.toNat)

theorem decimalValue_concat (digits : List Char) (c : Char) :
    decimalValue (digits ++ [c]) = (c.toNat - '0'.toNat) + 10 * decimalValue digits := by
  simp [decimalValue, Nat.ofDigits_cons]

theorem numeralValue_eq (h : ∀ c ∈ digits, '0' ≤ c ∧ c ≤ '9') :
    numeralValue 10 digits = decimalValue digits := by
  induction digits using List.reverseRecOn with
  | nil => rfl
  | append_singleton digits c ih =>
      have hvalue := ih fun d hd => h d (List.mem_append_left [c] hd)
      have hdigit := digitValue?_of_digit (h c (by simp))
      rw [numeralValue] at hvalue
      rw [numeralValue, List.foldl_append, hvalue, decimalValue_concat, List.foldl_cons,
        List.foldl_nil, hdigit, Option.getD_some]
      exact Nat.add_comm _ _

/-- A text of decimal digits, at least one, is read as the number that they stand for. -/
theorem decimal?_eq_some_iff : decimal? text = some value ↔
    text ≠ [] ∧ (∀ c ∈ text, '0' ≤ c ∧ c ≤ '9') ∧ decimalValue text = value := by
  simp only [decimal?, List.all_eq_true, isDigitIn_ten_iff]
  constructor
  · intro h
    split at h
    · rename_i hdigits
      exact ⟨hdigits.1, hdigits.2, by rw [← numeralValue_eq hdigits.2]; exact Option.some.inj h⟩
    · cases h
  · rintro ⟨hne, hdigits, rfl⟩
    rw [if_pos ⟨hne, hdigits⟩, numeralValue_eq hdigits]

end NodeHealth.Text
