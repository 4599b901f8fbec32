import NodeHealth.Toml.Section
import NodeHealth.Proofs.Toml.Number
import NodeHealth.Proofs.Toml.Quoted

/-!
# Sections are read back

What is written for the sections of a document is read as their headers, each followed by its
keys with their values: line by line, since nothing that is written for a value depends on
what follows it.

## Implementation notes

The reader is given a bound on the number of lines. `Reads` is about every bound that is
larger than the text is long, so that a line can be put in front without counting the others.

-/

namespace NodeHealth.Toml

variable {limit : Nat} {c : Char} {text rest : List Char} {read : List Expression}

/-- A key that is written without quotes: it has letters, digits, dashes and underscores only,
and at least one of them. -/
structure IsBareKey (key : String) : Prop where
  nonempty : key.toList ≠ []
  bare : ∀ c ∈ key.toList, Scan.isBare c = true

instance (key : String) : Decidable (IsBareKey key) :=
  decidable_of_iff (key.toList ≠ [] ∧ key.toList.all Scan.isBare = true)
    ⟨fun h => ⟨h.1, List.all_eq_true.mp h.2⟩, fun h => ⟨h.1, List.all_eq_true.mpr h.2⟩⟩

/-- Whether a scalar can be written: a number must be a natural one within bounds. -/
def Scalar.Fits : Scalar → Prop
  | string _ => True
  | integer value => 0 ≤ value ∧ value ≤ Number.maxInteger
  | boolean _ => True

instance (scalar : Scalar) : Decidable scalar.Fits :=
  match scalar with
  | .string _ => inferInstanceAs (Decidable True)
  | .integer value => inferInstanceAs (Decidable (0 ≤ value ∧ value ≤ Number.maxInteger))
  | .boolean _ => inferInstanceAs (Decidable True)

/-- A header that is written without quotes, and not too long. -/
structure IsHeader (header : List String) : Prop where
  nonempty : header ≠ []
  shallow : header.length < Scan.maxDepth
  bare : ∀ part ∈ header, IsBareKey part

instance (header : List String) : Decidable (IsHeader header) :=
  decidable_of_iff
    (header ≠ [] ∧ header.length < Scan.maxDepth ∧ ∀ part ∈ header, IsBareKey part)
    ⟨fun h => ⟨h.1, h.2.1, h.2.2⟩, fun h => ⟨h.1, h.2, h.3⟩⟩

/-- A section that is written in such a way that it can be read. -/
structure Section.WellFormed (content : Section) : Prop where
  header : IsHeader content.header
  entries : ∀ entry ∈ content.entries, IsBareKey entry.1 ∧ entry.2.Fits

/-- The expressions that a section consists of. -/
def Section.expressions (content : Section) : List Expression :=
  .header content.header.dropLast (content.header.getLast?.getD "") ::
    content.entries.map fun entry => .pair [] entry.1 entry.2.toValue

/-! ## Beginnings -/

/-- A text begins with one of its quotes. -/
theorem Quoted.write_head (text : List Char) :
    ∃ first more, write text = first :: more ∧ (first = '"' ∨ first = '\'') := by
  rw [write]
  cases Style.of text with
  | basic => exact ⟨_, _, rfl, .inl rfl⟩
  | literal => exact ⟨_, _, rfl, .inr rfl⟩
  | longBasic => exact ⟨_, _, rfl, .inl rfl⟩
  | longLiteral => exact ⟨_, _, rfl, .inr rfl⟩

/-- A value begins with no blank and no bracket. -/
theorem Scalar.write_head {scalar : Scalar} (h : scalar.Fits) :
    ∃ first more, scalar.write = first :: more ∧
      first ≠ ' ' ∧ first ≠ '\t' ∧ first ≠ '[' ∧ first ≠ '{' := by
  cases scalar with
  | string text =>
      obtain ⟨first, more, hwrite, rfl | rfl⟩ := Quoted.write_head text.toList <;>
        exact ⟨_, more, hwrite, by decide⟩
  | integer value =>
      obtain ⟨n, rfl⟩ := Int.eq_ofNat_of_zero_le h.1
      obtain ⟨first, more, hwrite, hfirst⟩ := toString_head n
      have hne : ∀ c, Text.isDigitIn 10 c = false → first ≠ c := fun _ => ne_of_isDigitIn hfirst
      exact ⟨first, more, hwrite, hne _ rfl, hne _ rfl, hne _ rfl, hne _ rfl⟩
  | boolean value => cases value <;> exact ⟨_, _, rfl, by decide⟩

/-! ## Keys -/

namespace Scan

theorem blanks_cons (hspace : c ≠ ' ') (htab : c ≠ '\t') :
    blanks (c :: rest) = c :: rest := by
  rw [blanks.eq_def]
  simp [hspace, htab]

theorem ne_of_isBare {d : Char} (h : isBare c = true) (hd : isBare d = false) : c ≠ d := by
  rintro rfl
  exact Bool.false_ne_true (hd.symm.trans h)

theorem blanks_key {key : String} (hkey : IsBareKey key) :
    blanks (key.toList ++ rest) = key.toList ++ rest := by
  obtain ⟨first, others, hchars⟩ := List.exists_cons_of_ne_nil hkey.nonempty
  have hfirst := hkey.bare first (hchars ▸ List.mem_cons_self)
  rw [hchars]
  exact blanks_cons (ne_of_isBare hfirst (by decide)) (ne_of_isBare hfirst (by decide))

theorem keyPart?_bare {key : String} (hkey : IsBareKey key) (h : isBare c = false)
    (rest : List Char) :
    keyPart? (blanks (key.toList ++ c :: rest)) = some (key, c :: rest) := by
  have htake : (key.toList ++ c :: rest).takeWhile isBare = key.toList := by
    rw [List.takeWhile_append_of_pos hkey.bare, List.takeWhile_cons_of_neg (by simp [h]),
      List.append_nil]
  have hdrop : (key.toList ++ c :: rest).dropWhile isBare = c :: rest := by
    rw [List.dropWhile_append_of_pos hkey.bare, List.dropWhile_cons_of_neg (by simp [h])]
  rw [blanks_key hkey, keyPart?, htake, hdrop]
  split
  · rename_i hnil
    exact absurd hnil hkey.nonempty
  · rw [String.ofList_toList]

/-- Parts of a key with dots between them are read up to a bracket. -/
theorem keyParts?_header (parts : List String) (hne : parts ≠ [])
    (hparts : ∀ part ∈ parts, IsBareKey part) (hlimit : parts.length ≤ limit)
    (rest : List Char) :
    keyParts? limit (['.'].intercalate (parts.map String.toList) ++ ']' :: rest) =
      some ((parts.dropLast, parts.getLast?.getD ""), ']' :: rest) := by
  induction parts generalizing limit with
  | nil => exact absurd rfl hne
  | cons part parts ih =>
      obtain ⟨limit, rfl⟩ : ∃ l, limit = l + 1 := ⟨limit - 1, by grind⟩
      have hpart := hparts part List.mem_cons_self
      cases parts with
      | nil =>
          have hread := keyPart?_bare hpart (c := ']') (by decide) rest
          simp [keyParts?, List.intercalate, hread, blanks]
      | cons next parts =>
          have hothers := ih (by simp) (fun p hp => hparts p (List.mem_cons_of_mem part hp))
            (Nat.le_of_succ_le_succ hlimit)
          rw [List.map_cons, List.map_cons, List.intercalate_cons_cons, ← List.map_cons,
            List.append_assoc, List.append_assoc, List.singleton_append, keyParts?,
            keyPart?_bare hpart (by decide)]
          simp only [blanks_cons (c := '.') (by decide) (by decide), Option.bind_eq_bind,
            Option.bind_some, hothers]
          rfl

/-- A key without dots is read up to the sign behind it. -/
theorem key?_bare {key : String} (hkey : IsBareKey key) (rest : List Char) :
    key? (key.toList ++ ' ' :: '=' :: rest) = some (([], key), '=' :: rest) := by
  have hread := keyPart?_bare hkey (c := ' ') (by decide) ('=' :: rest)
  change keyParts? (maxDepth - 2 + 1) _ = _
  simp [keyParts?, hread, blanks]

/-! ## Values -/

theorem simple?_string (text rest : List Char) :
    simple? (Quoted.write text ++ '\n' :: rest) =
      some (.string (String.ofList text), '\n' :: rest) := by
  have hapart : Quoted.Apart ('\n' :: rest) := ⟨by simp, by simp⟩
  have hread := Quoted.read?_write hapart text
  obtain ⟨first, more, hwrite, hfirst⟩ := Quoted.write_head text
  rw [hwrite] at hread ⊢
  rcases hfirst with rfl | rfl <;>
  · simp only [List.cons_append] at hread ⊢
    simp [simple?, simple?.quoted?, hread]

theorem simple?_natural {n : Nat} (h : n ≤ Number.maxInteger) (rest : List Char) :
    simple? ((toString (n : Int)).toList ++ '\n' :: rest) =
      some (.integer n, '\n' :: rest) := by
  have hread := numeric?_natural h rest
  obtain ⟨first, others, hwrite, hfirst⟩ := toString_head n
  rw [hwrite, List.cons_append] at hread ⊢
  have hne : ∀ c, Text.isDigitIn 10 c = false → first ≠ c := fun _ => ne_of_isDigitIn hfirst
  rw [simple?.eq_def]
  simp [hne 't' (by decide), hne 'f' (by decide), hne '"' (by decide), hne '\'' (by decide),
    hread]

/-- What is written for a value is read as that value. -/
theorem simple?_write {scalar : Scalar} (h : scalar.Fits) (rest : List Char) :
    simple? (scalar.write ++ '\n' :: rest) = some (scalar.toValue, '\n' :: rest) := by
  cases scalar with
  | string text =>
      have hread := simple?_string text.toList rest
      rwa [String.ofList_toList] at hread
  | integer value =>
      obtain ⟨n, rfl⟩ := Int.eq_ofNat_of_zero_le h.1
      exact simple?_natural (Int.ofNat_le.mp h.2) rest
  | boolean value => cases value <;> rfl

/-- What is written for a value begins with neither a blank nor a bracket. -/
theorem value?_write {depth : Nat} {scalar : Scalar} (h : scalar.Fits) :
    value? depth (blanks (' ' :: (scalar.write ++ '\n' :: rest))) =
      some (scalar.toValue, '\n' :: rest) := by
  have hread := simple?_write h rest
  obtain ⟨first, more, hwrite, hspace, htab, hbracket, hbrace⟩ := Scalar.write_head h
  rw [hwrite, List.cons_append] at hread ⊢
  rw [blanks, blanks_cons hspace htab, value?.eq_def]
  cases depth <;> simp [hbracket, hbrace, hread]

/-! ## Lines -/

theorem expression?_entry {key : String} {scalar : Scalar} (hkey : IsBareKey key)
    (h : scalar.Fits) (rest : List Char) :
    expression? (key.toList ++ ' ' :: '=' :: ' ' :: (scalar.write ++ '\n' :: rest)) =
      some (.pair [] key scalar.toValue, '\n' :: rest) := by
  have hread := key?_bare hkey (' ' :: (scalar.write ++ '\n' :: rest))
  obtain ⟨first, others, hchars⟩ := List.exists_cons_of_ne_nil hkey.nonempty
  have hbracket : first ≠ '[' :=
    ne_of_isBare (hkey.bare first (hchars ▸ List.mem_cons_self)) (by decide)
  rw [hchars, List.cons_append] at hread ⊢
  rw [expression?.eq_def]
  simp [hbracket, hread, Text.expect, value?_write h]

theorem expression?_header {parts : List String} (h : IsHeader parts) (rest : List Char) :
    expression? ('[' :: (['.'].intercalate (parts.map String.toList) ++ ']' :: rest)) =
      some (.header parts.dropLast (parts.getLast?.getD ""), rest) := by
  have hread := keyParts?_header parts h.nonempty h.bare
    (Nat.le_sub_one_of_lt h.shallow) rest
  rw [← key?] at hread
  have hhead : ∀ more,
      ['.'].intercalate (parts.map String.toList) ++ ']' :: rest ≠ '[' :: more := by
    obtain ⟨part, parts, rfl⟩ := List.exists_cons_of_ne_nil h.nonempty
    have hpart := h.bare part List.mem_cons_self
    obtain ⟨first, others, hchars⟩ := List.exists_cons_of_ne_nil hpart.nonempty
    have hbracket : first ≠ '[' :=
      ne_of_isBare (hpart.bare first (hchars ▸ List.mem_cons_self)) (by decide)
    intro more heq
    cases parts <;> simp_all [List.intercalate]
  rw [expression?.eq_def]
  split
  case h_1 heq => exact absurd (List.cons.inj heq).2 (hhead _)
  case h_2 heq =>
    rw [← (List.cons.inj heq).2, hread]
    rfl
  case h_3 hother => exact absurd rfl (hother _)

end Scan

/-- The lines of a text are read as expressions. -/
def Reads (text : List Char) (read : List Expression) : Prop :=
  ∀ limit, text.length < limit → Scan.expressions? limit text = some read

namespace Reads

theorem nil : Reads [] [] := by
  intro limit hlimit
  obtain ⟨limit, rfl⟩ := Nat.exists_eq_add_one_of_ne_zero (Nat.ne_of_gt hlimit)
  rfl

/-- An empty line is left out. -/
theorem blank (h : Reads rest read) : Reads ('\n' :: rest) read := by
  intro limit hlimit
  obtain ⟨limit, rfl⟩ := Nat.exists_eq_add_one_of_ne_zero (Nat.ne_zero_of_lt hlimit)
  exact h limit (Nat.lt_of_succ_lt_succ hlimit)

/-- A line with an expression is read as that expression. -/
theorem line {expression : Expression} (text : List Char)
    (hfirst : c ≠ ' ' ∧ c ≠ '\t' ∧ c ≠ '#' ∧ c ≠ '\n' ∧ c ≠ '\r')
    (hexpression :
      Scan.expression? (c :: text ++ '\n' :: rest) = some (expression, '\n' :: rest))
    (h : Reads rest read) : Reads (c :: text ++ '\n' :: rest) (expression :: read) := by
  intro limit hlimit
  obtain ⟨limit, rfl⟩ := Nat.exists_eq_add_one_of_ne_zero (Nat.ne_zero_of_lt hlimit)
  obtain ⟨hspace, htab, hcomment, hline, hreturn⟩ := hfirst
  have hrest := h limit (by
    simp only [List.cons_append, List.length_cons, List.length_append] at hlimit
    omega)
  rw [List.cons_append] at hexpression ⊢
  rw [Scan.expressions?, Scan.blanks_cons hspace htab]
  simp [hcomment, hline, hreturn, hexpression, Scan.lineRest?, Scan.blanks_cons, Scan.lineEnd?,
    hrest]

theorem entry {key : String} {scalar : Scalar} (hkey : IsBareKey key) (hfits : scalar.Fits)
    (h : Reads rest read) :
    Reads (Section.writeEntry (key, scalar) ++ rest)
      (.pair [] key scalar.toValue :: read) := by
  have hread := Scan.expression?_entry hkey hfits rest
  obtain ⟨first, others, hchars⟩ := List.exists_cons_of_ne_nil hkey.nonempty
  have hne : ∀ c, Scan.isBare c = false → first ≠ c := fun _ =>
    Scan.ne_of_isBare (hkey.bare first (hchars ▸ List.mem_cons_self))
  have hfirst : first ≠ ' ' ∧ first ≠ '\t' ∧ first ≠ '#' ∧ first ≠ '\n' ∧ first ≠ '\r' :=
    ⟨hne _ rfl, hne _ rfl, hne _ rfl, hne _ rfl, hne _ rfl⟩
  have hline := line (others ++ ' ' :: '=' :: ' ' :: scalar.write) hfirst
    (by simpa [hchars] using hread) h
  simpa [Section.writeEntry, hchars] using hline

theorem entries {entries : List (String × Scalar)}
    (hentries : ∀ entry ∈ entries, IsBareKey entry.1 ∧ entry.2.Fits) (h : Reads rest read) :
    Reads (entries.flatMap Section.writeEntry ++ rest)
      (entries.map (fun entry => .pair [] entry.1 entry.2.toValue) ++ read) := by
  induction entries with
  | nil => exact h
  | cons entry entries ih =>
      rw [List.flatMap_cons, List.append_assoc]
      obtain ⟨hkey, hfits⟩ := hentries entry List.mem_cons_self
      exact .entry hkey hfits (ih fun e he => hentries e (List.mem_cons_of_mem entry he))

/-- What is written for a section is read as its header and its keys. -/
theorem write {content : Section} (hcontent : content.WellFormed) (h : Reads rest read) :
    Reads (content.write ++ rest) (content.expressions ++ read) := by
  have hheader := Scan.expression?_header hcontent.header
    ('\n' :: (content.entries.flatMap Section.writeEntry ++ rest))
  have hline := line (c := '[')
    (['.'].intercalate (content.header.map String.toList) ++ [']'])
    (by decide) (by simpa using hheader) (entries hcontent.entries h)
  simpa [Section.write, Section.expressions] using hline

/-- What is written for sections is read as all their headers and keys. -/
theorem writeAll {sections : List Section} (h : ∀ content ∈ sections, content.WellFormed) :
    Reads (Section.writeAll sections) (sections.flatMap Section.expressions) := by
  induction sections with
  | nil => exact nil
  | cons content sections ih =>
      have hcontent := h content List.mem_cons_self
      have hothers := ih fun s hs => h s (List.mem_cons_of_mem content hs)
      rw [List.flatMap_cons]
      cases sections with
      | nil =>
          have hread := write hcontent nil
          rwa [List.append_nil] at hread
      | cons next sections => exact write hcontent hothers.blank

end Reads

end NodeHealth.Toml
