import NodeHealth.Toml.Quoted

/-!
# Quoted texts are read back

Whatever a text holds, the form in which it is written is read as that text, and nothing behind
the closing quotes is taken, as long as no quote follows them.

## Implementation notes

Between double quotes every character is written in a form that is read by itself, so that no
condition on the text is needed. Between single quotes characters stand for themselves, and
there the style that was chosen says that the text has no control characters and no run of
single quotes that would end it. The three closing quotes of a long text are read together
with up to two quotes at its end, so that the inductions look ahead by that much.

-/

namespace NodeHealth.Toml.Quoted

variable {c : Char} {text rest : List Char} {run : Nat}

/-! ## Characters -/

theorem toNat_lt_of_not_plain (h : isPlain c = false) : c.toNat < 0x80 := by
  simp only [isPlain, Bool.or_eq_false_iff, Bool.and_eq_false_iff, decide_eq_false_iff_not] at h
  obtain ⟨_, hlow | hdelete⟩ := h
  · omega
  · have : c.toNat = 0x7F := by simpa using hdelete
    omega

theorem codePoint?_hexDigits_all :
    ∀ n < 0x80, codePoint? (hexDigits n) = some (Char.ofNat n) := by
  decide

/-- The digits of a control character are read as that character. -/
theorem codePoint?_hexDigits (h : isPlain c = false) :
    codePoint? (hexDigits c.toNat) = some c := by
  rw [codePoint?_hexDigits_all _ (toNat_lt_of_not_plain h), Char.ofNat_toNat]

/-- A letter that stands for a character begins no number, and no line ends at it. -/
theorem letter_of_escaped {letter : Char} (h : escaped? letter = some c) :
    letter ≠ 'u' ∧ letter ≠ 'U' ∧ ∀ rest, endsLine (letter :: rest) = false := by
  unfold escaped? at h
  split at h
  case h_8 => cases h
  all_goals exact ⟨by decide, by decide, fun _ => rfl⟩

/-- How a character is written between double quotes: as itself, behind a backslash as a
letter that stands for it, or by its number. -/
inductive Written (c : Char) : List Char → Prop
  | plain (h : isPlain c = true) (hquote : c ≠ '"') (hbackslash : c ≠ '\\') : Written c [c]
  | letter {letter : Char} (h : escaped? letter = some c) : Written c ['\\', letter]
  | number (h : isPlain c = false) : Written c ('\\' :: 'u' :: hexDigits c.toNat)

/-- A character that is written in the way that the writer chooses. -/
theorem written_escape (c : Char) : Written c ((escape? c).getD [c]) := by
  unfold escape?
  split
  case h_8 =>
    rename_i hbackspace htab hline hfeed hreturn hquote hbackslash
    split
    · rename_i hplain
      exact .plain hplain hquote hbackslash
    · rename_i hplain
      rw [Bool.not_eq_true] at hplain
      exact .number hplain
  all_goals exact .letter rfl

/-- What is written for a character begins with no quote and with no part of the end of a
line, unless it is the character itself that ends the line. -/
theorem Written.head {piece : List Char} (h : Written c piece) :
    ∃ first more, piece = first :: more ∧ first ≠ '"' ∧ first ≠ '\r' ∧
      (first = '\n' → c = '\n') := by
  cases h with
  | plain hplain hquote _ =>
      refine ⟨c, [], rfl, hquote, ?_, id⟩
      rintro rfl
      exact absurd hplain (by decide)
  | letter => exact ⟨'\\', _, rfl, by decide, by decide, fun h => absurd h (by decide)⟩
  | number => exact ⟨'\\', _, rfl, by decide, by decide, fun h => absurd h (by decide)⟩

theorem hexDigits_eq (n : Nat) : ∃ w x y z, hexDigits n = [w, x, y, z] :=
  ⟨_, _, _, _, rfl⟩

/-! ## Single lines between double quotes -/

theorem readBasic_plain (h : isPlain c = true) (hquote : c ≠ '"') (hbackslash : c ≠ '\\') :
    readBasic (c :: rest) = cons? (some c) (readBasic rest) := by
  rw [readBasic.eq_def]
  split <;> simp_all

theorem readBasic_letter {letter : Char} (h : escaped? letter = some c) :
    readBasic ('\\' :: letter :: rest) = cons? (some c) (readBasic rest) := by
  obtain ⟨hshort, hlong, _⟩ := letter_of_escaped h
  rw [readBasic.eq_def]
  split
  case h_5 heq =>
    cases heq
    rw [h]
  case h_6 hother heq =>
    cases heq
    exact absurd rfl (hother _ _ rfl)
  all_goals simp_all

/-- A character is read from what is written for it. -/
theorem readBasic_written {piece : List Char} (h : Written c piece) :
    readBasic (piece ++ rest) = cons? (some c) (readBasic rest) := by
  cases h with
  | plain hplain hquote hbackslash => exact readBasic_plain hplain hquote hbackslash
  | letter hletter => exact readBasic_letter hletter
  | number hplain =>
      rw [← codePoint?_hexDigits hplain]
      obtain ⟨w, x, y, z, hdigits⟩ := hexDigits_eq c.toNat
      rw [hdigits]
      simp [readBasic]

theorem readBasic_writeBasic (text rest : List Char) :
    readBasic (writeBasic text ++ '"' :: rest) = some (text, rest) := by
  induction text with
  | nil => simp [writeBasic, readBasic]
  | cons c text ih =>
      have hrest : writeBasic (c :: text) = (escape? c).getD [c] ++ writeBasic text := rfl
      rw [hrest, List.append_assoc, readBasic_written (written_escape c), ih]
      rfl

/-! ## Several lines between double quotes -/

theorem readLongBasic_plain (h : isPlain c = true ∨ c = '\n') (hquote : c ≠ '"')
    (hbackslash : c ≠ '\\') :
    readLongBasic false (c :: rest) = cons? (some c) (readLongBasic false rest) := by
  have hreturn : c ≠ '\r' := by
    rintro rfl
    rcases h with h | h <;> exact absurd h (by decide)
  rw [readLongBasic.eq_def]
  split <;> simp_all

theorem readLongBasic_letter {letter : Char} (h : escaped? letter = some c) :
    readLongBasic false ('\\' :: letter :: rest) =
      cons? (some c) (readLongBasic false rest) := by
  obtain ⟨hshort, hlong, hline⟩ := letter_of_escaped h
  rw [readLongBasic.eq_def]
  split
  case h_8 heq =>
    cases heq
    simp only [hline, h, Bool.false_eq_true, if_false]
  case h_9 hother heq =>
    cases heq
    exact absurd rfl (hother _ _ rfl)
  all_goals simp_all

/-- A character is read from what is written for it. -/
theorem readLongBasic_written {piece : List Char} (h : Written c piece) :
    readLongBasic false (piece ++ rest) = cons? (some c) (readLongBasic false rest) := by
  cases h with
  | plain hplain hquote hbackslash => exact readLongBasic_plain (.inl hplain) hquote hbackslash
  | letter hletter => exact readLongBasic_letter hletter
  | number hplain =>
      rw [← codePoint?_hexDigits hplain]
      obtain ⟨w, x, y, z, hdigits⟩ := hexDigits_eq c.toNat
      rw [hdigits]
      simp [readLongBasic]

/-- A quote belongs to the text if not two more follow it. -/
theorem readLongBasic_quote (h : ∀ more, rest ≠ '"' :: '"' :: more) :
    readLongBasic false ('"' :: rest) = cons? (some '"') (readLongBasic false rest) := by
  rw [readLongBasic.eq_def]
  split
  case h_9 heq =>
    cases heq
    rfl
  all_goals simp_all

/-- What is written next is no quote, unless the text goes on with one that need not be
escaped. -/
theorem writeLongBasic_head (h : ¬(c = '"' ∧ run < 2)) (text rest : List Char) :
    ∀ more, writeLongBasic run (c :: text) ++ rest ≠ '"' :: more := by
  intro more heq
  by_cases hline : c = '\n'
  · subst hline
    cases heq
  · obtain ⟨first, others, hpiece, hfirst, _⟩ := (written_escape c).head
    rw [writeLongBasic, if_neg hline, if_neg h, hpiece] at heq
    exact hfirst (List.cons.inj heq).1

/-- No quote follows that might be taken for a closing one. -/
structure Apart (rest : List Char) : Prop where
  double : ∀ more, rest ≠ '"' :: more
  single : ∀ more, rest ≠ '\'' :: more

theorem readLongBasic_end (hrest : Apart rest) :
    readLongBasic false ('"' :: '"' :: '"' :: rest) = some ([], rest) := by
  simp [readLongBasic, hrest.double]

theorem readLongBasic_end_one (hrest : Apart rest) :
    readLongBasic false ('"' :: '"' :: '"' :: '"' :: rest) = some (['"'], rest) := by
  simp [readLongBasic, hrest.double]

theorem readLongBasic_end_two (rest : List Char) :
    readLongBasic false ('"' :: '"' :: '"' :: '"' :: '"' :: rest) = some (['"', '"'], rest) := by
  simp [readLongBasic]

theorem readLongBasic_writeLongBasic (hrest : Apart rest) (run : Nat) (text : List Char) :
    readLongBasic false (writeLongBasic run text ++ ['"', '"', '"'] ++ rest) =
      some (text, rest) := by
  induction text generalizing run with
  | nil => exact readLongBasic_end hrest
  | cons c text ih =>
      by_cases hline : c = '\n'
      · subst hline
        have hnext : writeLongBasic run ('\n' :: text) = '\n' :: writeLongBasic 0 text := by
          simp [writeLongBasic]
        rw [hnext, List.cons_append, List.cons_append,
          readLongBasic_plain (.inr rfl) (by decide) (by decide), ih]
        rfl
      · by_cases hquote : c = '"' ∧ run < 2
        · obtain ⟨rfl, hrun⟩ := hquote
          have hnext : writeLongBasic run ('"' :: text) = '"' :: writeLongBasic (run + 1) text := by
            simp [writeLongBasic, hrun]
          rw [hnext, List.cons_append, List.cons_append]
          -- The quote is the last of the text, or the last but one, or no closing quotes follow.
          cases text with
          | nil => exact readLongBasic_end_one hrest
          | cons d text =>
              by_cases hsecond : d = '"' ∧ run + 1 < 2
              · obtain ⟨rfl, hrun⟩ := hsecond
                have hnext : writeLongBasic (run + 1) ('"' :: text) =
                    '"' :: writeLongBasic (run + 2) text := by
                  simp [writeLongBasic, hrun]
                cases text with
                | nil =>
                    rw [hnext]
                    exact readLongBasic_end_two rest
                | cons e text =>
                    have hthird : ¬(e = '"' ∧ run + 2 < 2) := fun h => by omega
                    rw [readLongBasic_quote, ih]
                    · rfl
                    · rw [hnext, List.cons_append, List.cons_append, List.append_assoc]
                      intro more heq
                      exact writeLongBasic_head hthird text _ more (List.cons.inj heq).2
              · rw [readLongBasic_quote, ih]
                · rfl
                · rw [List.append_assoc]
                  exact fun more => writeLongBasic_head hsecond text _ _
        · have hnext : writeLongBasic run (c :: text) =
              (escape? c).getD [c] ++ writeLongBasic 0 text := by
            simp only [writeLongBasic, if_neg hline, if_neg hquote]
          rw [hnext, List.append_assoc, List.append_assoc,
            readLongBasic_written (written_escape c), ← List.append_assoc, ih]
          rfl

/-! ## Between single quotes -/

theorem le_longestRun (c : Char) (run : Nat) (text : List Char) :
    run ≤ longestRun c run text := by
  induction text generalizing run with
  | nil => exact Nat.le_refl run
  | cons d text ih =>
      rw [longestRun]
      split
      · exact Nat.le_of_succ_le (ih (run + 1))
      · exact Nat.le_max_left _ _

theorem longestRun_cons_self (c : Char) (run : Nat) (text : List Char) :
    longestRun c run (c :: text) = longestRun c (run + 1) text := by
  simp [longestRun]

theorem longestRun_cons_le {d : Char} (h : d ≠ c) (text : List Char) :
    longestRun c 0 text ≤ longestRun c run (d :: text) := by
  rw [longestRun, if_neg h]
  exact Nat.le_max_right _ _

/-- A text without a run of some character does not begin with it. -/
theorem head_ne_of_longestRun {d : Char} (h : longestRun c 0 (d :: text) = 0) : d ≠ c := by
  rintro rfl
  have hrun := le_longestRun d (0 + 1) text
  rw [longestRun_cons_self] at h
  omega

theorem readLiteral_append (hplain : ∀ c ∈ text, isPlain c = true)
    (hquote : longestRun '\'' 0 text = 0) (rest : List Char) :
    readLiteral (text ++ '\'' :: rest) = some (text, rest) := by
  induction text with
  | nil => rfl
  | cons c text ih =>
      have hc : c ≠ '\'' := head_ne_of_longestRun hquote
      have htext : longestRun '\'' 0 text = 0 :=
        Nat.le_zero.mp (hquote ▸ longestRun_cons_le hc text)
      have hread : readLiteral (c :: (text ++ '\'' :: rest)) =
          cons? (some c) (readLiteral (text ++ '\'' :: rest)) := by
        rw [readLiteral.eq_def]
        simp [hplain c List.mem_cons_self]
      rw [List.cons_append, hread, ih (fun d hd => hplain d (List.mem_cons_of_mem c hd)) htext]
      rfl

theorem readLongLiteral_end (hrest : Apart rest) :
    readLongLiteral ('\'' :: '\'' :: '\'' :: rest) = some ([], rest) := by
  simp [readLongLiteral, hrest.single]

theorem readLongLiteral_end_one (hrest : Apart rest) :
    readLongLiteral ('\'' :: '\'' :: '\'' :: '\'' :: rest) = some (['\''], rest) := by
  simp [readLongLiteral, hrest.single]

theorem readLongLiteral_end_two (rest : List Char) :
    readLongLiteral ('\'' :: '\'' :: '\'' :: '\'' :: '\'' :: rest) =
      some (['\'', '\''], rest) := by
  simp [readLongLiteral]

/-- A character belongs to the text if it does not begin three quotes. -/
theorem readLongLiteral_character (hc : isPlain c = true ∨ c = '\n')
    (h : ∀ more, c = '\'' → rest ≠ '\'' :: '\'' :: more) :
    readLongLiteral (c :: rest) = cons? (some c) (readLongLiteral rest) := by
  have hreturn : c ≠ '\r' := by
    rintro rfl
    rcases hc with hc | hc <;> exact absurd hc (by decide)
  rw [readLongLiteral.eq_def]
  split
  case h_6 heq =>
    cases heq
    rw [if_pos hc]
  all_goals simp_all

theorem readLongLiteral_append (hrest : Apart rest)
    (hplain : ∀ c ∈ text, isPlain c = true ∨ c = '\n') (hquotes : longestRun '\'' run text ≤ 2) :
    readLongLiteral (text ++ ['\'', '\'', '\''] ++ rest) = some (text, rest) := by
  induction text generalizing run with
  | nil => exact readLongLiteral_end hrest
  | cons c text ih =>
      have hc := hplain c List.mem_cons_self
      have htext : ∀ d ∈ text, isPlain d = true ∨ d = '\n' :=
        fun d hd => hplain d (List.mem_cons_of_mem c hd)
      rw [List.cons_append, List.cons_append]
      by_cases hquote : c = '\''
      · subst hquote
        rw [longestRun_cons_self] at hquotes
        -- The quote is the last of the text, or the last but one, or no closing quotes follow.
        rcases text with _ | ⟨d, _ | ⟨e, text⟩⟩
        · exact readLongLiteral_end_one hrest
        · by_cases hd : d = '\''
          · subst hd
            exact readLongLiteral_end_two rest
          · rw [readLongLiteral_character hc, ih htext hquotes]
            · rfl
            · intro more _ heq
              exact hd (List.cons.inj heq).1
        · rw [readLongLiteral_character hc, ih htext hquotes]
          · rfl
          · intro more _ heq
            obtain ⟨rfl, rfl, _⟩ := by simpa using heq
            rw [longestRun_cons_self, longestRun_cons_self] at hquotes
            have hthree := le_longestRun '\'' (run + 1 + 1 + 1) text
            omega
      · rw [readLongLiteral_character hc fun _ heq => absurd heq hquote,
          ih htext (Nat.le_trans (longestRun_cons_le hquote text) hquotes)]
        rfl

/-! ## Texts in any style -/

theorem plain_of_no_escape (h : text.any needsEscape = false) :
    ∀ c ∈ text, isPlain c = true ∨ c = '\n' := by
  intro c hc
  have hneeds := List.any_eq_false.mp h c hc
  simpa only [needsEscape, Bool.not_eq_true', Bool.not_eq_false, Bool.or_eq_true,
    decide_eq_true_eq] using hneeds

/-- What the style between single quotes says of a text. -/
theorem literal_of_style (h : Style.of text = .literal) :
    text ≠ [] ∧ (∀ c ∈ text, isPlain c = true) ∧ longestRun '\'' 0 text = 0 := by
  have hstyle : text.any needsEscape = false ∧ longestRun '\'' 0 text = 0 ∧
      text.contains '\n' = false := by
    grind [Style.of]
  obtain ⟨hescape, hquotes, hlines⟩ := hstyle
  refine ⟨?_, fun c hc => ?_, hquotes⟩
  · rintro rfl
    cases h
  · rcases plain_of_no_escape hescape c hc with hplain | hline
    · exact hplain
    · subst hline
      simp [hc] at hlines

/-- What the style between three single quotes says of a text. -/
theorem longLiteral_of_style (h : Style.of text = .longLiteral) :
    (∀ c ∈ text, isPlain c = true ∨ c = '\n') ∧ longestRun '\'' 0 text ≤ 2 := by
  have hstyle : text.any needsEscape = false ∧ longestRun '\'' 0 text ≤ 2 := by
    grind [Style.of]
  exact ⟨plain_of_no_escape hstyle.1, hstyle.2⟩

/-- A line end behind three quotes is the one that was put there. -/
theorem skipLineEnd_lineStart (hhead : ∀ more, rest ≠ '\r' :: more)
    (hline : text.contains '\n' = false → ∀ more, rest ≠ '\n' :: more) :
    skipLineEnd (lineStart text ++ rest) = rest := by
  cases hlines : text.contains '\n' with
  | true =>
      simp only [lineStart, hlines, if_true]
      rfl
  | false =>
      simp only [lineStart, hlines]
      rw [skipLineEnd.eq_def]
      split <;> simp_all

/-- What is written for a text begins with the end of a line only if the text does. -/
theorem skipLineEnd_writeLongBasic (text : List Char) (h : ∀ more, rest ≠ '\r' :: more)
    (h' : ∀ more, rest ≠ '\n' :: more) :
    skipLineEnd (lineStart text ++ (writeLongBasic 0 text ++ rest)) =
      writeLongBasic 0 text ++ rest := by
  cases text with
  | nil => exact skipLineEnd_lineStart h fun _ => h'
  | cons c text =>
      have hstart : ∀ d more, writeLongBasic 0 (c :: text) ++ rest = d :: more →
          d ≠ '\r' ∧ (d = '\n' → c = '\n') := by
        intro d more heq
        by_cases hline : c = '\n'
        · subst hline
          cases heq
          exact ⟨by decide, fun _ => rfl⟩
        · by_cases hquote : c = '"' ∧ 0 < 2
          · obtain ⟨rfl, _⟩ := hquote
            cases heq
            exact ⟨by decide, by decide⟩
          · obtain ⟨first, others, hpiece, _, hfirst⟩ := (written_escape c).head
            rw [writeLongBasic, if_neg hline, if_neg hquote, hpiece] at heq
            rw [← (List.cons.inj heq).1]
            exact hfirst
      apply skipLineEnd_lineStart
      · intro more heq
        exact (hstart _ _ heq).1 rfl
      · intro hlines more heq
        have hc := (hstart _ _ heq).2 rfl
        simp [hc] at hlines

theorem read?_short_double {body : List Char} (hquote : ∀ more, body ≠ '"' :: '"' :: more) :
    read? ('"' :: body) = readBasic body := by
  rw [read?.eq_def]
  split <;> simp_all [readShort?]

theorem read?_short_single {body : List Char} (hquote : ∀ more, body ≠ '\'' :: '\'' :: more) :
    read? ('\'' :: body) = readLiteral body := by
  rw [read?.eq_def]
  split <;> simp_all [readShort?]

/-- A text that is written between double quotes does not begin with two of them. -/
theorem writeBasic_head (hrest : Apart rest) (text : List Char) :
    ∀ more, writeBasic text ++ '"' :: rest ≠ '"' :: '"' :: more := by
  intro more heq
  cases text with
  | nil => exact hrest.double more (List.cons.inj heq).2
  | cons c text =>
      obtain ⟨first, others, hpiece, hfirst, _⟩ := (written_escape c).head
      rw [writeBasic, List.flatMap_cons, hpiece] at heq
      exact hfirst (List.cons.inj heq).1

/-- What is written for a text is read as that text. -/
theorem read?_write (hrest : Apart rest) (text : List Char) :
    read? (write text ++ rest) = some (text, rest) := by
  rw [write]
  cases hstyle : Style.of text with
  | basic =>
      have hread := readBasic_writeBasic text rest
      rw [← read?_short_double (writeBasic_head hrest text)] at hread
      simpa using hread
  | literal =>
      obtain ⟨hne, hplain, hquotes⟩ := literal_of_style hstyle
      have hread := readLiteral_append hplain hquotes rest
      have hhead : ∀ more, text ++ '\'' :: rest ≠ '\'' :: '\'' :: more := by
        intro more heq
        cases text with
        | nil => exact hne rfl
        | cons c text => exact head_ne_of_longestRun hquotes (List.cons.inj heq).1
      rw [← read?_short_single hhead] at hread
      simpa using hread
  | longBasic =>
      have hread := readLongBasic_writeLongBasic hrest 0 text
      rw [List.append_assoc, ← skipLineEnd_writeLongBasic text (by simp) (by simp)] at hread
      simpa [read?] using hread
  | longLiteral =>
      obtain ⟨hplain, hquotes⟩ := longLiteral_of_style hstyle
      have hread := readLongLiteral_append hrest hplain hquotes
      have hstart : ∀ more, text ++ (['\'', '\'', '\''] ++ rest) ≠ '\r' :: more := by
        intro more heq
        cases text with
        | nil => cases heq
        | cons c text =>
            have hc := hplain c List.mem_cons_self
            rw [(List.cons.inj heq).1] at hc
            rcases hc with hc | hc <;> exact absurd hc (by decide)
      have hline : text.contains '\n' = false →
          ∀ more, text ++ (['\'', '\'', '\''] ++ rest) ≠ '\n' :: more := by
        intro hlines more heq
        cases text with
        | nil => cases heq
        | cons c text => simp [(List.cons.inj heq).1] at hlines
      rw [List.append_assoc, ← skipLineEnd_lineStart hstart hline] at hread
      simpa [read?] using hread

end NodeHealth.Toml.Quoted
