import NodeHealth.Proofs.Toml.Build

/-!
# Values at paths

A path of keys leads through tables to a value. What a list of sections puts at a path is found
in the section whose header leads there, and a section from which keys have been taken out, or
to which others have been added, holds the rest of its keys as before.

-/

namespace NodeHealth.Toml

variable {key name : String} {path : List String} {entries : Entries} {put : Entries → Entries}

/-- The value to which a path leads, through tables of any form. -/
def Value.at? : (path : List String) → Value → Option Value
  | [], value => some value
  | key :: path, .table _ entries => (Entries.find? entries key).bind (at? path)
  | _ :: _, _ => none

/-- The value to which a path leads in a document. -/
def Entries.at? (document : Entries) (path : List String) : Option Value :=
  Value.at? path (.table .headed document)

/-- A path is followed part by part. -/
theorem Value.at?_append (front back : List String) (value : Value) :
    at? (front ++ back) value = (at? front value).bind (at? back) := by
  induction front generalizing value with
  | nil => rfl
  | cons key front ih =>
      cases value with
      | table form entries =>
          rw [List.cons_append, at?, at?, Option.bind_assoc]
          exact congrArg (Option.bind _) (funext ih)
      | _ => rfl

theorem Entries.at?_append (document : Entries) (front back : List String) :
    document.at? (front ++ back) = (document.at? front).bind (Value.at? back) :=
  Value.at?_append front back _

@[simp] theorem Value.at?_key (key : String) (form : TableForm) (entries : Entries) :
    at? [key] (.table form entries) = Entries.find? entries key := by
  rw [at?]
  cases Entries.find? entries key <;> rfl

@[simp] theorem Entries.at?_key (document : Entries) (key : String) :
    document.at? [key] = document.find? key :=
  Value.at?_key key .headed document

/-! ## What is taken out -/

/-- Something at a path goes with the keys and tables `removed`: it is one of them, or it is in
one of them. -/
def IsGone (removed : List (List String)) (path : List String) : Prop :=
  ∃ part ∈ removed, part <+: path

instance (removed : List (List String)) (path : List String) : Decidable (IsGone removed path) :=
  inferInstanceAs (Decidable (∃ part ∈ removed, part <+: path))

theorem IsGone.append {removed : List (List String)} (h : IsGone removed path)
    (more : List String) : IsGone removed (path ++ more) := by
  obtain ⟨part, hpart, hbegins⟩ := h
  exact ⟨part, hpart, hbegins.trans (List.prefix_append path more)⟩

/-! ## Lookups -/

theorem Entries.find?_either (front back : Entries) (key : String) :
    find? (front ++ back) key = (find? front key).or (find? back key) :=
  List.lookup_append

theorem find?_table (header : List String) (entries : List (String × Scalar)) (key : String) :
    Entries.find? (Section.table ⟨header, entries⟩) key =
      (entries.lookup key).map Scalar.toValue := by
  induction entries with
  | nil => rfl
  | cons entry entries ih =>
      obtain ⟨name, scalar⟩ := entry
      rw [Section.table, List.map_cons, Entries.find?, List.lookup_cons, List.lookup_cons]
      cases key == name with
      | true => rfl
      | false => exact ih

theorem lookup_filter {α : Type} (entries : List (String × α)) (keep : String → Bool)
    (key : String) :
    (entries.filter fun entry => keep entry.1).lookup key =
      if keep key then entries.lookup key else none := by
  induction entries with
  | nil => simp
  | cons entry entries ih =>
      obtain ⟨name, value⟩ := entry
      by_cases hname : key = name
      · subst hname
        by_cases hkeep : keep key
        · simp [hkeep]
        · simpa [List.filter_cons, hkeep] using ih
      · have hne : (key == name) = false := by simp [hname]
        rw [List.lookup_cons, hne, List.filter_cons]
        split
        · rw [List.lookup_cons, hne]
          exact ih
        · exact ih

theorem lookup_eq_none {α : Type} {entries : List (String × α)}
    (h : key ∉ entries.map Prod.fst) : entries.lookup key = none := by
  rw [List.lookup_eq_none_iff]
  intro entry hentry
  rw [bne_iff_ne]
  rintro rfl
  exact h (List.mem_map_of_mem hentry)

theorem lookup_of_mem {α : Type} {entries : List (String × α)} {entry : String × α}
    (hkeys : (entries.map Prod.fst).Nodup) (h : entry ∈ entries) :
    entries.lookup entry.1 = some entry.2 := by
  obtain ⟨front, back, rfl⟩ := List.append_of_mem h
  rw [List.map_append, List.map_cons] at hkeys
  have hnew : entry.1 ∉ front.map Prod.fst := fun hmem =>
    (List.nodup_append.mp hkeys).2.2 entry.1 hmem entry.1 List.mem_cons_self rfl
  rw [List.lookup_append, lookup_eq_none hnew, Option.none_or, List.lookup_cons_self]

/-! ## Sections that are left -/

namespace Section

variable {removed : List (List String)} {unknown : List String → List (String × Scalar)}
  {content : Section} {inner : Entries}

/-- A section without the keys that are gone, and with further ones. -/
def trim (removed : List (List String)) (unknown : List String → List (String × Scalar))
    (content : Section) : Section where
  header := content.header
  entries := (content.entries.filter fun entry => ¬IsGone removed (content.header ++ [entry.1])) ++
    unknown content.header

/-- What is left of a section, which is nothing if its table is gone. -/
def left (removed : List (List String)) (unknown : List String → List (String × Scalar))
    (content : Section) : List Section :=
  if IsGone removed content.header then [] else [content.trim removed unknown]

/-- The table of what is left of a section, with further entries. -/
def leftTable (removed : List (List String)) (unknown : List String → List (String × Scalar))
    (key : String) (content : Section) (inner : Entries) : Entries :=
  if IsGone removed content.header then []
  else [(key, .table .headed ((content.trim removed unknown).table ++ inner))]

@[simp] theorem trim_nothing (content : Section) : content.trim [] (fun _ => []) = content := by
  have hkept : (content.entries.filter fun entry => ¬IsGone [] (content.header ++ [entry.1])) =
      content.entries := List.filter_eq_self.mpr (by simp [IsGone])
  rw [trim, hkept, List.append_nil]

@[simp] theorem left_nothing (content : Section) : content.left [] (fun _ => []) = [content] := by
  simp [left, IsGone]

@[simp] theorem leftTable_nothing (key : String) (content : Section) (inner : Entries) :
    content.leftTable [] (fun _ => []) key inner =
      [(key, .table .headed (content.table ++ inner))] := by
  simp [leftTable, IsGone]

/-- Keys that stay have their values, and those that are gone have none. -/
theorem find?_trim (hunknown : name ∉ (unknown content.header).map Prod.fst)
    (hinner : inner.find? name = none) :
    Entries.find? ((content.trim removed unknown).table ++ inner) name =
      if IsGone removed (content.header ++ [name]) then none
      else (content.entries.lookup name).map Scalar.toValue := by
  rw [Entries.find?_either, hinner, Option.or_none, trim, find?_table, List.lookup_append,
    lookup_eq_none hunknown, Option.or_none,
    lookup_filter content.entries fun name => ¬IsGone removed (content.header ++ [name])]
  split <;> simp_all

/-- Keys that have been added have their values. -/
theorem find?_trim_unknown {entry : String × Scalar} (h : entry ∈ unknown content.header)
    (hkeys : ((unknown content.header).map Prod.fst).Nodup)
    (hnew : entry.1 ∉ content.entries.map Prod.fst) :
    Entries.find? ((content.trim removed unknown).table ++ inner) entry.1 =
      some entry.2.toValue := by
  have hkept : entry.1 ∉ (content.entries.filter fun entry =>
      ¬IsGone removed (content.header ++ [entry.1])).map Prod.fst :=
    fun hmem => hnew ((List.filter_sublist.map Prod.fst).subset hmem)
  rw [Entries.find?_either, trim, find?_table, List.lookup_append, lookup_eq_none hkept,
    lookup_of_mem hkeys h]
  rfl

theorem find?_leftTable (removed : List (List String))
    (unknown : List String → List (String × Scalar)) (key : String) (content : Section)
    (inner : Entries) :
    Entries.find? (leftTable removed unknown key content inner) key =
      if IsGone removed content.header then none
      else some (.table .headed ((content.trim removed unknown).table ++ inner)) := by
  rw [leftTable]
  split
  · rfl
  · simp [Entries.find?]

theorem keys_leftTable (removed : List (List String))
    (unknown : List String → List (String × Scalar)) (key : String) (content : Section)
    (inner : Entries) :
    ((leftTable removed unknown key content inner).map Prod.fst).Sublist [key] := by
  rw [leftTable]
  split
  · exact List.nil_sublist [key]
  · exact List.Sublist.refl [key]

theorem not_mem_leftTable (h : name ≠ key) :
    name ∉ (leftTable removed unknown key content inner).map Prod.fst :=
  fun hmem => h (List.mem_singleton.mp ((keys_leftTable ..).subset hmem))

theorem find?_leftTable_of_ne (h : name ≠ key) (removed : List (List String))
    (unknown : List String → List (String × Scalar)) (content : Section) (inner : Entries) :
    Entries.find? (leftTable removed unknown key content inner) name = none :=
  Entries.find?_of_not_mem (not_mem_leftTable h)

/-- Where the table of a section is left, its keys are found that are not gone. -/
theorem at?_left {document : Entries}
    (htable : document.at? content.header = if IsGone removed content.header then none
      else some (.table .headed ((content.trim removed unknown).table ++ inner)))
    (hunknown : name ∉ (unknown content.header).map Prod.fst)
    (hinner : inner.find? name = none) :
    document.at? (content.header ++ [name]) =
      if IsGone removed (content.header ++ [name]) then none
      else (content.entries.lookup name).map Scalar.toValue := by
  rw [Entries.at?_append, htable]
  split
  · rename_i hgone
    rw [if_pos (hgone.append [name])]
    rfl
  · exact (Value.at?_key name .headed _).trans (find?_trim hunknown hinner)

theorem not_mem_trim (hentries : name ∉ content.entries.map Prod.fst)
    (hunknown : name ∉ (unknown content.header).map Prod.fst) :
    name ∉ (content.trim removed unknown).entries.map Prod.fst := by
  rw [trim, List.map_append, List.mem_append, not_or]
  exact ⟨fun hmem => hentries ((List.filter_sublist.map Prod.fst).subset hmem), hunknown⟩

/-- Keys that differ still do when some are gone and new ones have been added. -/
theorem nodup_trim (hkeys : (content.entries.map Prod.fst).Nodup)
    (hunknown : ((unknown content.header).map Prod.fst).Nodup)
    (hnew : ∀ entry ∈ unknown content.header, entry.1 ∉ content.entries.map Prod.fst) :
    ((content.trim removed unknown).entries.map Prod.fst).Nodup := by
  rw [trim, List.map_append, List.nodup_append]
  refine ⟨hkeys.sublist (List.filter_sublist.map Prod.fst), hunknown, ?_⟩
  intro key hkey other hother
  obtain ⟨entry, hentry, rfl⟩ := List.mem_map.mp hother
  rintro rfl
  exact hnew entry hentry ((List.filter_sublist.map Prod.fst).subset hkey)

theorem WellFormed.left (h : content.WellFormed)
    (hunknown : ∀ entry ∈ unknown content.header, IsBareKey entry.1 ∧ entry.2.Fits) :
    ∀ rest ∈ content.left removed unknown, rest.WellFormed := by
  rw [Section.left]
  split
  · simp
  · intro rest hrest
    rw [List.mem_singleton.mp hrest]
    refine ⟨h.header, ?_⟩
    rw [trim, List.forall_mem_append]
    exact ⟨fun entry hentry => h.entries entry (List.mem_filter.mp hentry).1, hunknown⟩

end Section

/-! ## Building what is left -/

namespace Leads

variable {removed : List (List String)} {unknown : List String → List (String × Scalar)}

/-- What is left of a section adds what is left of its table. -/
theorem add_left (hput : Leads path put) (entries : Entries) (content : Section)
    (hheader : content.header = path ++ [key]) (hkey : key ∉ entries.map Prod.fst)
    (hkeys : ((content.trim removed unknown).entries.map Prod.fst).Nodup)
    (current : List String) :
    ∃ later, ((content.left removed unknown).flatMap Section.expressions).foldlM Draft.add
        ⟨put entries, current⟩ =
      some ⟨put (entries ++ content.leftTable removed unknown key []), later⟩ := by
  rw [Section.left, Section.leftTable]
  split
  · exact ⟨current, by simp⟩
  · have hadd := hput.add_section entries (content.trim removed unknown) hheader hkey hkeys current
    exact ⟨_, by simpa using hadd⟩

/-- What is left of a section and of one below it, which goes with it. -/
theorem add_nested (hput : Leads path put) (entries : Entries) (outer inner : Section)
    {below : String} (hheader : outer.header = path ++ [key])
    (hinner : inner.header = path ++ [key] ++ [below])
    (hkey : key ∉ entries.map Prod.fst)
    (hkeys : ((outer.trim removed unknown).entries.map Prod.fst).Nodup)
    (hkey' : below ∉ (outer.trim removed unknown).entries.map Prod.fst)
    (hkeys' : ((inner.trim removed unknown).entries.map Prod.fst).Nodup) (current : List String) :
    ∃ later, ((outer.left removed unknown ++ inner.left removed unknown).flatMap
        Section.expressions).foldlM Draft.add ⟨put entries, current⟩ =
      some ⟨put (entries ++ outer.leftTable removed unknown key
        (inner.leftTable removed unknown below [])), later⟩ := by
  by_cases hgone : IsGone removed outer.header
  · have hgone' : IsGone removed inner.header := by
      rw [hinner, ← hheader]
      exact hgone.append [below]
    exact ⟨current, by simp [Section.left, Section.leftTable, hgone, hgone']⟩
  · have houter := hput.add_section entries (outer.trim removed unknown) hheader hkey hkeys current
    obtain ⟨later, hlater⟩ := (hput.last entries hkey).add_left (outer.trim removed unknown).table
      inner hinner (by simpa [Section.table] using hkey') hkeys' outer.header
    refine ⟨later, ?_⟩
    rw [Section.left, if_neg hgone, Section.leftTable, if_neg hgone, List.singleton_append,
      List.flatMap_cons, List.foldlM_append, houter]
    exact hlater

/-- Sections whose headers are new and differ add their tables in turn. -/
theorem add_sections (hput : Leads path put) (entries : Entries)
    (contents : List (String × List (String × Scalar)))
    (hnew : (entries.map Prod.fst ++ contents.map Prod.fst).Nodup)
    (hkeys : ∀ content ∈ contents, (content.2.map Prod.fst).Nodup) (current : List String) :
    ∃ later, ((contents.map fun content => Section.mk (path ++ [content.1]) content.2).flatMap
        Section.expressions).foldlM Draft.add ⟨put entries, current⟩ =
      some ⟨put (entries ++ contents.map fun content =>
        (content.1, .table .headed (Section.table ⟨path ++ [content.1], content.2⟩))), later⟩ := by
  induction contents generalizing entries current with
  | nil => exact ⟨current, by simp⟩
  | cons content contents ih =>
      have hkey : content.1 ∉ entries.map Prod.fst := by
        rw [List.nodup_append] at hnew
        exact fun hmem => hnew.2.2 content.1 hmem content.1 (by simp) rfl
      have hadd := hput.add_section entries ⟨path ++ [content.1], content.2⟩ rfl hkey
        (hkeys content List.mem_cons_self) current
      obtain ⟨later, hrest⟩ := ih (entries ++ [(content.1, .table .headed
          (Section.table ⟨path ++ [content.1], content.2⟩))])
        (by simpa using hnew) (fun other hother => hkeys other (List.mem_cons_of_mem _ hother))
        (path ++ [content.1])
      refine ⟨later, ?_⟩
      rw [List.map_cons, List.flatMap_cons, List.foldlM_append, hadd, List.map_cons]
      simpa using hrest

end Leads

end NodeHealth.Toml
