import NodeHealth.Toml.Document

/-!
# Numbers are read back

A natural number is written in decimal digits without leading zeros. Where a line ends behind
them, they are read as that number, and neither as a date nor as a number in another base.

-/

namespace NodeHealth.Toml

open Nat (toDigits)
open Text (isDigitIn numeralValue)

variable {c : Char} {digits rest : List Char} {n : Nat}

/-! ## Decimal digits -/

theorem isDigitIn_ten (h : c.isDigit = true) : isDigitIn 10 c = true := by
  obtain ⟨hlow, hhigh⟩ : 48 ≤ c.val ∧ c.val ≤ 57 := by simpa [Char.isDigit] using h
  have hrange : '0' ≤ c ∧ c ≤ '9' := ⟨hlow, hhigh⟩
  have hle : c.toNat ≤ 57 := hhigh
  have hzero : '0'.toNat = 48 := rfl
  simp only [isDigitIn, Text.digitValue?, if_pos hrange, decide_eq_true_eq]
  omega

theorem ne_of_isDigitIn {base : Nat} {d : Char} (h : isDigitIn base c = true)
    (hd : isDigitIn base d = false) : c ≠ d := by
  rintro rfl
  exact Bool.false_ne_true (hd.symm.trans h)

theorem isDigitIn_of_mem_toDigits (h : c ∈ toDigits 10 n) : isDigitIn 10 c = true :=
  isDigitIn_ten (Nat.isDigit_of_mem_toDigits (by decide) (by decide) h)

theorem digitValue?_digitChar : ∀ d < 10, (Text.digitValue? (Nat.digitChar d)).getD 0 = d := by
  decide

theorem digitChar_ne_zero : ∀ d < 10, 0 < d → Nat.digitChar d ≠ '0' := by
  decide

/-- The digits of a number stand for it. -/
theorem numeralValue_toDigits (n : Nat) : numeralValue 10 (toDigits 10 n) = n := by
  induction n using Nat.strongRecOn with
  | ind n ih =>
      by_cases hsmall : n < 10
      · rw [Nat.toDigits_of_lt_base hsmall]
        simp [numeralValue, digitValue?_digitChar n hsmall]
      · have hlast : n % 10 < 10 := Nat.mod_lt n (by decide)
        have hfirst := ih (n / 10) (by omega)
        rw [numeralValue] at hfirst
        rw [Nat.toDigits_of_base_le (by decide) (by omega), numeralValue, List.foldl_append,
          hfirst, List.foldl_cons, List.foldl_nil, digitValue?_digitChar _ hlast]
        omega

/-- Only zero begins with a zero. -/
theorem toDigits_head (h : 0 < n) : ∀ more, toDigits 10 n ≠ '0' :: more := by
  induction n using Nat.strongRecOn with
  | ind n ih =>
      intro more heq
      by_cases hsmall : n < 10
      · rw [Nat.toDigits_of_lt_base hsmall] at heq
        exact digitChar_ne_zero n hsmall h (List.cons.inj heq).1
      · rw [Nat.toDigits_of_base_le (by decide) (by omega)] at heq
        rcases hfirst : toDigits 10 (n / 10) with _ | ⟨first, others⟩
        · exact Nat.toDigits_ne_nil hfirst
        · rw [hfirst] at heq
          exact ih (n / 10) (by omega) (by omega) others
            ((List.cons.inj heq).1 ▸ hfirst)

/-! ## Neither dates nor times -/

/-- Behind digits there are more of them, or the line ends. -/
theorem getElem?_of_digits (hdigits : ∀ c ∈ digits, isDigitIn 10 c = true) (k : Nat)
    (htake : ((digits ++ '\n' :: rest).take k).all (isDigitIn 10) = true) :
    ∀ c, (digits ++ '\n' :: rest)[k]? = some c → isDigitIn 10 c = true ∨ c = '\n' := by
  induction k generalizing digits with
  | zero =>
      intro c hc
      cases digits with
      | nil => exact .inr (by simpa using hc.symm)
      | cons d digits =>
          obtain rfl : d = c := by simpa using hc
          exact .inl (hdigits d List.mem_cons_self)
  | succ k ih =>
      cases digits with
      | nil => exact absurd htake (by simp [isDigitIn, Text.digitValue?])
      | cons d digits =>
          intro c hc
          refine ih (fun c hc => hdigits c (List.mem_cons_of_mem d hc)) ?_ c (by simpa using hc)
          simpa using (by simpa using htake : isDigitIn 10 d = true ∧ _).2

theorem dateTime_read?_of_digits (hdigits : ∀ c ∈ digits, isDigitIn 10 c = true) :
    DateTime.read? (digits ++ '\n' :: rest) = none := by
  have hdate : DateTime.beginsDate (digits ++ '\n' :: rest) = false := by
    rw [DateTime.beginsDate, Bool.and_eq_false_imp]
    intro htake
    have hnext := getElem?_of_digits hdigits 4 (by simpa using (Bool.and_eq_true_iff.mp htake).2)
    rw [beq_eq_false_iff_ne]
    intro hdash
    exact absurd (hnext '-' hdash) (by decide)
  have htime : DateTime.timeAfterDate?.begins (digits ++ '\n' :: rest) = false := by
    rw [DateTime.timeAfterDate?.begins, Bool.and_eq_false_imp]
    intro htake
    have hnext := getElem?_of_digits hdigits 2 (by simpa using (Bool.and_eq_true_iff.mp htake).2)
    rw [beq_eq_false_iff_ne]
    intro hcolon
    exact absurd (hnext ':' hcolon) (by decide)
  rw [DateTime.read?, hdate, htime]
  rfl

/-! ## Integers -/

namespace Number

theorem moreDigits_of_digits (hdigits : ∀ c ∈ digits, isDigitIn 10 c = true)
    (rest : List Char) :
    moreDigits 10 (digits ++ '\n' :: rest) = (digits, '\n' :: rest) := by
  induction digits with
  | nil => rfl
  | cons c digits ih =>
      have hc := hdigits c List.mem_cons_self
      have hunderscore : c ≠ '_' := ne_of_isDigitIn hc (by decide)
      rw [List.cons_append, moreDigits.eq_def]
      simp [hc, ih fun d hd => hdigits d (List.mem_cons_of_mem c hd), hunderscore]

theorem decimalDigits?_toDigits (n : Nat) (rest : List Char) :
    decimalDigits? (toDigits 10 n ++ '\n' :: rest) = some (toDigits 10 n, '\n' :: rest) := by
  by_cases hzero : n = 0
  · subst hzero
    rfl
  · rcases hdigits : toDigits 10 n with _ | ⟨first, others⟩
    · exact absurd hdigits Nat.toDigits_ne_nil
    · have hall : ∀ c ∈ first :: others, isDigitIn 10 c = true := fun c hc =>
        isDigitIn_of_mem_toDigits (hdigits ▸ hc)
      have hfirst : first ≠ '0' := fun h =>
        toDigits_head (Nat.pos_of_ne_zero hzero) others (h ▸ hdigits)
      have hothers := moreDigits_of_digits
        (fun c hc => hall c (List.mem_cons_of_mem first hc)) rest
      rw [List.cons_append, decimalDigits?.eq_def]
      simp [digits?, hfirst, hall first List.mem_cons_self, hothers]

/-- A number within bounds is read from its digits. -/
theorem read?_toDigits (h : n ≤ maxInteger) :
    read? (toDigits 10 n ++ '\n' :: rest) = some (.integer n, '\n' :: rest) := by
  have hread := decimalDigits?_toDigits n rest
  have hinteger : read?.integer? false (toDigits 10 n) ('\n' :: rest) =
      some (.integer n, '\n' :: rest) := by
    simp [read?.integer?, signed?, numeralValue_toDigits, h]
  rcases hdigits : toDigits 10 n with _ | ⟨first, others⟩
  · exact absurd hdigits Nat.toDigits_ne_nil
  · have hfirst : isDigitIn 10 first = true :=
      isDigitIn_of_mem_toDigits (hdigits ▸ List.mem_cons_self)
    have hne : ∀ c, isDigitIn 10 c = false → first ≠ c := fun _ => ne_of_isDigitIn hfirst
    have hsign : sign (first :: (others ++ '\n' :: rest)) =
        (false, first :: (others ++ '\n' :: rest)) := by
      rw [sign.eq_def]
      simp [hne '+' (by decide), hne '-' (by decide)]
    have hspecial : special? (first :: (others ++ '\n' :: rest)) = none := by
      rw [special?.eq_def]
      simp [hne 'i' (by decide), hne 'n' (by decide)]
    have hzero : first = '0' → others = [] := by
      rintro rfl
      rcases Nat.eq_zero_or_pos n with rfl | hpos
      · exact (List.cons.inj hdigits).2.symm
      · exact absurd hdigits (toDigits_head hpos others)
    rw [hdigits] at hread hinteger
    rw [List.cons_append] at hread ⊢
    rw [read?.eq_def]
    split
    case h_4 => simp [hsign, hspecial, hread, hinteger]
    all_goals
      rename_i heq
      obtain ⟨hfirst, hothers⟩ := List.cons.inj heq
      rw [hzero hfirst] at hothers
      cases hothers

end Number

theorem toString_head (n : Nat) :
    ∃ first more, (toString (n : Int)).toList = first :: more ∧ isDigitIn 10 first = true := by
  have hwritten : (toString (n : Int)).toList = toDigits 10 n := Nat.toList_repr
  rw [hwritten]
  rcases hdigits : toDigits 10 n with _ | ⟨first, more⟩
  · exact absurd hdigits Nat.toDigits_ne_nil
  · exact ⟨first, more, rfl, isDigitIn_of_mem_toDigits (hdigits ▸ List.mem_cons_self)⟩

/-- A number within bounds is read from where it is written. -/
theorem Scan.numeric?_natural (h : n ≤ Number.maxInteger) (rest : List Char) :
    Scan.numeric? ((toString (n : Int)).toList ++ '\n' :: rest) =
      some (.integer n, '\n' :: rest) := by
  have hwritten : (toString (n : Int)).toList = toDigits 10 n := Nat.toList_repr
  rw [hwritten, Scan.numeric?,
    dateTime_read?_of_digits fun c hc => isDigitIn_of_mem_toDigits hc, Number.read?_toDigits h]

end NodeHealth.Toml
