import NodeHealth.Proofs.Toml.Section

/-!
# Sections build tables

A section adds its table to the document, or to a table that a section before it has opened,
with its keys in their order. Nothing else of the document changes.

## Implementation notes

`Leads path put` says where a header leads: `put entries` is the document in which the table
there has these entries. Headers of any length are built from it, one key at a time.

-/

namespace NodeHealth.Toml

variable {key : String} {value : Value} {path : List String} {form : TableForm}
  {entries : Entries} {put : Entries → Entries}

namespace Entries

theorem find?_append (h : key ∉ entries.map Prod.fst) (more : Entries) :
    find? (entries ++ more) key = find? more key := by
  induction entries with
  | nil => rfl
  | cons entry entries ih =>
      obtain ⟨name, old⟩ := entry
      rw [List.map_cons, List.mem_cons, not_or] at h
      have hname : (key == name) = false := beq_eq_false_iff_ne.mpr h.1
      rw [List.cons_append, find?, List.lookup_cons, hname]
      exact ih h.2

theorem find?_of_not_mem (h : key ∉ entries.map Prod.fst) : find? entries key = none := by
  rw [← List.append_nil entries, find?_append h]
  rfl

theorem assign_append (h : key ∉ entries.map Prod.fst) (value : Value) (more : Entries) :
    assign key value (entries ++ more) = entries ++ assign key value more := by
  induction entries with
  | nil => rfl
  | cons entry entries ih =>
      rw [List.map_cons, List.mem_cons, not_or] at h
      rw [List.cons_append, assign, if_neg (Ne.symm h.1), ih h.2, List.cons_append]

/-- A key that is new is put at the end. -/
theorem assign_of_not_mem (h : key ∉ entries.map Prod.fst) :
    assign key value entries = entries ++ [(key, value)] := by
  have happend := assign_append h value []
  rwa [List.append_nil] at happend

end Entries

/-- A path is gone along part by part. -/
theorem descend_append (passage : Passage) (change : TableForm → Entries → Option Entries)
    (path more : List String) :
    descend passage change (path ++ more) = descend passage (descend passage change more) path := by
  induction path with
  | nil =>
      funext form entries
      rw [List.nil_append, descend]
  | cons key path ih =>
      funext form entries
      rw [List.cons_append, descend, ih, ← descend]

/-- The header `path` leads to a table that has a header of its own, and what that table holds
may be changed on its own. -/
structure Leads (path : List String) (put : Entries → Entries) : Prop where
  descend : ∀ change entries,
    Toml.descend .header change path .headed (put entries) = (change .headed entries).map put

namespace Leads

/-- The document itself. -/
theorem document : Leads [] id where
  descend change entries := by simp [Toml.descend]

/-- A table at the end of another. -/
theorem last (hput : Leads path put) (entries : Entries) (h : key ∉ entries.map Prod.fst) :
    Leads (path ++ [key]) fun inner => put (entries ++ [(key, .table .headed inner)]) where
  descend change inner := by
    have hfind : Entries.find? (entries ++ [(key, .table .headed inner)]) key =
        some (.table .headed inner) := by
      rw [Entries.find?_append h]
      simp [Entries.find?]
    have hlast : Toml.descend .header change [key] .headed
        (entries ++ [(key, .table .headed inner)]) =
        (change .headed inner).map fun inner => entries ++ [(key, .table .headed inner)] := by
      cases hchange : change .headed inner <;>
        simp [Toml.descend, hfind, hchange, Passage.header, Entries.assign_append h, Entries.assign]
    rw [descend_append, hput.descend, hlast, Option.map_map]
    rfl

/-- A new header opens an empty table at the end of the one it leads to. -/
theorem add_header (hput : Leads path put) (h : key ∉ entries.map Prod.fst)
    (current : List String) :
    Draft.add ⟨put entries, current⟩ (.header path key) =
      some ⟨put (entries ++ [(key, .table .headed [])]), path ++ [key]⟩ := by
  simp [Draft.add, hput.descend, openTable, Entries.find?_of_not_mem h,
    Entries.assign_of_not_mem h]

/-- A new key is put at the end of the table of the last header. -/
theorem add_pair (hput : Leads path put) (h : key ∉ entries.map Prod.fst) :
    Draft.add ⟨put entries, path⟩ (.pair [] key value) =
      some ⟨put (entries ++ [(key, value)]), path⟩ := by
  simp [Draft.add, hput.descend, Toml.descend, enter, Entries.find?_of_not_mem h,
    Entries.assign_of_not_mem h]

/-- Keys that differ from each other and from those before are put at the end in turn. -/
theorem add_pairs (hput : Leads path put) (entries pairs : Entries)
    (h : ((entries ++ pairs).map Prod.fst).Nodup) :
    (pairs.map fun pair => .pair [] pair.1 pair.2).foldlM Draft.add ⟨put entries, path⟩ =
      some ⟨put (entries ++ pairs), path⟩ := by
  induction pairs generalizing entries with
  | nil => simp
  | cons pair pairs ih =>
      have hnew : pair.1 ∉ entries.map Prod.fst := by
        rw [List.map_append, List.nodup_append] at h
        exact fun hmem => h.2.2 pair.1 hmem pair.1 (by simp) rfl
      have happend : entries ++ pair :: pairs = entries ++ [pair] ++ pairs := by simp
      rw [happend] at h ⊢
      rw [List.map_cons, List.foldlM_cons, hput.add_pair hnew]
      exact ih (entries ++ [pair]) h

end Leads

/-- The table of a section. -/
def Section.table (content : Section) : Entries :=
  content.entries.map fun entry => (entry.1, entry.2.toValue)

/-- A section whose header is new adds its table. -/
theorem Leads.add_section (hput : Leads path put) (entries : Entries) (content : Section)
    (hheader : content.header = path ++ [key]) (hkey : key ∉ entries.map Prod.fst)
    (hkeys : (content.entries.map Prod.fst).Nodup) (current : List String) :
    content.expressions.foldlM Draft.add ⟨put entries, current⟩ =
      some ⟨put (entries ++ [(key, .table .headed content.table)]), content.header⟩ := by
  have hpairs := (hput.last entries hkey).add_pairs [] content.table
    (by simpa [Section.table, Function.comp_def] using hkeys)
  rw [Section.expressions, hheader, List.dropLast_concat, List.getLast?_concat]
  simpa [hput.add_header hkey, Section.table, Function.comp_def] using hpairs

/-- What is written for sections is parsed as the document that they build. -/
theorem parse?_writeAll {sections : List Section} (h : ∀ content ∈ sections, content.WellFormed) :
    parse? (String.ofList (Section.writeAll sections)) =
      build? (sections.flatMap Section.expressions) := by
  have hread := Reads.writeAll h (Section.writeAll sections).length.succ (Nat.lt_succ_self _)
  have hmark : ∀ c rest, Section.writeAll sections = c :: rest → c ≠ byteOrderMark := by
    intro c rest heq
    obtain _ | ⟨first, _ | ⟨second, others⟩⟩ := sections <;> cases heq <;> decide
  rw [parse?, String.toList_ofList]
  cases hwritten : Section.writeAll sections with
  | nil =>
      rw [hwritten] at hread
      simp only [hread, Option.bind_eq_bind, Option.bind_some]
  | cons c rest =>
      rw [hwritten] at hread
      simp only [if_neg (hmark c rest hwritten), hread, Option.bind_eq_bind, Option.bind_some]

end NodeHealth.Toml
