import NodeHealth.Proofs.Config.Fields

/-!
# Documents of configurations

A configuration is written as four sections, and what is left of them when keys and tables are
taken out builds a document that holds the rest at its paths. A field that is missing from such
a document has the same value whichever way it is missing: one by one, where the reader of its
table names a default, or with a table around it, where the default of a whole structure takes
its place. So the document is read as the configuration with the defaults in place of what has
been taken out, and as the configuration itself if that is nothing.

## Implementation notes

`Config.Leaves` speaks of the values at paths only, so that it does not matter where in a table
a key stands, nor in which form a table is written.

-/

namespace NodeHealth

open Toml (Value Entries IsBareKey IsGone Scalar Section)

namespace Config

variable {config : Config} {removed : List (List String)} {content : Section}
  {name : String} {unknown : List String → List (String × Scalar)}
  {further : List (String × List (String × Scalar))}

/-! ## Tables and their fields -/

/-- The paths that lead to the tables of a configuration. -/
def tablePaths : List (List String) :=
  [["general"], ["server"], ["server", "registration"], ["cnode"]]

/-- The names of the fields in a table that are no tables themselves. -/
def fieldNames : List String → List String
  | ["general"] => GeneralConfig.fieldNames
  | ["server"] => ServerConfig.fieldNames
  | ["server", "registration"] => RegistrationConfig.fieldNames
  | ["cnode"] => CnodeConfig.fieldNames
  | _ => []

/-- The keys of a section are among the fields of its table. -/
theorem keys_sublist (config : Config) (hcontent : content ∈ config.sections) :
    (content.entries.map Prod.fst).Sublist (fieldNames content.header) := by
  simp only [sections, List.mem_cons, List.not_mem_nil, or_false] at hcontent
  obtain rfl | rfl | rfl | rfl := hcontent
  · exact config.general.keys_sublist
  · exact config.server.keys_sublist
  · exact config.server.registration.keys_sublist
  · exact config.cnode.keys_sublist

theorem map_header_sections (config : Config) :
    config.sections.map Section.header = tablePaths :=
  rfl

theorem header_mem (config : Config) (hcontent : content ∈ config.sections) :
    content.header ∈ tablePaths :=
  config.map_header_sections ▸ List.mem_map_of_mem hcontent

/-- Each table belongs to a section. -/
theorem exists_section (config : Config) {path : List String} (hpath : path ∈ tablePaths) :
    ∃ content ∈ config.sections, content.header = path := by
  rwa [← config.map_header_sections, List.mem_map] at hpath

/-! ## What is left of a configuration -/

/-- The sections of a configuration without the keys and tables `removed`, with further keys in
them and with further sections. -/
def sectionsWithout (removed : List (List String))
    (unknown : List String → List (String × Scalar))
    (further : List (String × List (String × Scalar))) (config : Config) : List Section :=
  config.sections.flatMap (Section.left removed unknown) ++
    further.map fun table => ⟨[table.1], table.2⟩

/-- Keys with values that can be written below one header. -/
structure IsTable (entries : List (String × Scalar)) : Prop where
  distinct : (entries.map Prod.fst).Nodup
  written : ∀ entry ∈ entries, IsBareKey entry.1 ∧ entry.2.Fits

instance (entries : List (String × Scalar)) : Decidable (IsTable entries) :=
  decidable_of_iff
    ((entries.map Prod.fst).Nodup ∧ ∀ entry ∈ entries, IsBareKey entry.1 ∧ entry.2.Fits)
    ⟨fun h => ⟨h.1, h.2⟩, fun h => ⟨h.1, h.2⟩⟩

/-- The further keys and sections are no fields and no tables of a configuration. -/
structure IsUnknown (unknown : List String → List (String × Scalar))
    (further : List (String × List (String × Scalar))) : Prop where
  keys : ∀ path ∈ tablePaths, IsTable (unknown path) ∧ ∀ entry ∈ unknown path,
    entry.1 ∉ fieldNames path ∧ path ++ [entry.1] ∉ tablePaths
  headers : (further.map Prod.fst).Nodup
  tables : ∀ table ∈ further, IsTable table.2 ∧ IsBareKey table.1 ∧ [table.1] ∉ tablePaths

instance (unknown : List String → List (String × Scalar))
    (further : List (String × List (String × Scalar))) : Decidable (IsUnknown unknown further) :=
  decidable_of_iff
    ((∀ path ∈ tablePaths, IsTable (unknown path) ∧ ∀ entry ∈ unknown path,
      entry.1 ∉ fieldNames path ∧ path ++ [entry.1] ∉ tablePaths) ∧
    (further.map Prod.fst).Nodup ∧
    ∀ table ∈ further, IsTable table.2 ∧ IsBareKey table.1 ∧ [table.1] ∉ tablePaths)
    ⟨fun h => ⟨h.1, h.2.1, h.2.2⟩, fun h => ⟨h.1, h.2, h.3⟩⟩

namespace IsUnknown

/-- No further key is a field. -/
theorem not_mem (h : IsUnknown unknown further) {path : List String} (hpath : path ∈ tablePaths)
    (hname : name ∈ fieldNames path ∨ path ++ [name] ∈ tablePaths) :
    name ∉ (unknown path).map Prod.fst := by
  intro hmem
  obtain ⟨entry, hentry, rfl⟩ := List.mem_map.mp hmem
  obtain ⟨hfield, htable⟩ := (h.keys path hpath).2 entry hentry
  exact hname.elim hfield htable

/-- No further section is a table of a configuration. -/
theorem not_mem_headers (h : IsUnknown unknown further) (hname : [name] ∈ tablePaths) :
    name ∉ further.map Prod.fst := by
  intro hmem
  obtain ⟨table, htable, rfl⟩ := List.mem_map.mp hmem
  exact (h.tables table htable).2.2 hname

theorem nodup_headers (h : IsUnknown unknown further) {keys : List String}
    (hkeys : keys.Sublist ["general", "server", "cnode"]) :
    (keys ++ further.map Prod.fst).Nodup := by
  rw [List.nodup_append]
  refine ⟨(by decide : ["general", "server", "cnode"].Nodup).sublist hkeys, h.headers, ?_⟩
  intro key hkey other hother
  rintro rfl
  have hpath : ∀ key ∈ ["general", "server", "cnode"], [key] ∈ tablePaths := by decide
  exact h.not_mem_headers (hpath key (hkeys.subset hkey)) hother

theorem registration_not_mem_trim (h : IsUnknown unknown further) (removed : List (List String))
    (config : ServerConfig) :
    "registration" ∉
      ((Section.trim removed unknown ⟨["server"], config.entries⟩).entries.map Prod.fst) :=
  Section.not_mem_trim config.registration_not_mem
    (h.not_mem (by decide : ["server"] ∈ tablePaths)
      (.inr (by decide : ["server"] ++ ["registration"] ∈ tablePaths)))

theorem nodup_trim (h : IsUnknown unknown further) (config : Config)
    (hcontent : content ∈ config.sections) :
    ((content.trim removed unknown).entries.map Prod.fst).Nodup := by
  have hheader := config.header_mem hcontent
  have hkeys := config.keys_sublist hcontent
  apply Section.nodup_trim
  · exact (by decide : ∀ path ∈ tablePaths, (fieldNames path).Nodup) _ hheader |>.sublist hkeys
  · exact (h.keys content.header hheader).1.distinct
  · intro entry hentry hmem
    exact ((h.keys content.header hheader).2 entry hentry).1 (hkeys.subset hmem)

end IsUnknown

/-- The document of what is left of a configuration, with further keys and tables. -/
def documentWithout (removed : List (List String))
    (unknown : List String → List (String × Scalar))
    (further : List (String × List (String × Scalar))) (config : Config) : Entries :=
  let registration : Section := ⟨["server", "registration"], config.server.registration.entries⟩
  Section.leftTable removed unknown "general" ⟨["general"], config.general.entries⟩ [] ++
    Section.leftTable removed unknown "server" ⟨["server"], config.server.entries⟩
      (registration.leftTable removed unknown "registration" []) ++
    Section.leftTable removed unknown "cnode" ⟨["cnode"], config.cnode.entries⟩ [] ++
    further.map fun table => (table.1, .table .headed (Section.table ⟨[table.1], table.2⟩))

/-! ### The four sections and what is left of their tables -/

def generalSection (config : Config) : Section :=
  ⟨["general"], config.general.entries⟩

def serverSection (config : Config) : Section :=
  ⟨["server"], config.server.entries⟩

def registrationSection (config : Config) : Section :=
  ⟨["server", "registration"], config.server.registration.entries⟩

def cnodeSection (config : Config) : Section :=
  ⟨["cnode"], config.cnode.entries⟩

section

variable (removed : List (List String)) (unknown : List String → List (String × Scalar))
  (config : Config)

def generalLeft : Entries :=
  config.generalSection.leftTable removed unknown "general" []

def serverLeft : Entries :=
  config.serverSection.leftTable removed unknown "server"
    (config.registrationSection.leftTable removed unknown "registration" [])

def cnodeLeft : Entries :=
  config.cnodeSection.leftTable removed unknown "cnode" []

/-- A further table, under its name. -/
def furtherTable (table : String × List (String × Scalar)) : String × Value :=
  (table.1, .table .headed (Section.table ⟨[table.1], table.2⟩))

theorem documentWithout_eq : config.documentWithout removed unknown further =
    generalLeft removed unknown config ++ serverLeft removed unknown config ++
      cnodeLeft removed unknown config ++ further.map furtherTable :=
  rfl

/-- Nothing but the three tables is left. -/
theorem keys_left : ((generalLeft removed unknown config ++ serverLeft removed unknown config ++
    cnodeLeft removed unknown config).map Prod.fst).Sublist ["general", "server", "cnode"] := by
  rw [List.map_append, List.map_append]
  exact ((Section.keys_leftTable ..).append (Section.keys_leftTable ..)).append
    (Section.keys_leftTable ..)

end

/-- The sections that are left build the document that is left. -/
theorem build?_sectionsWithout (h : IsUnknown unknown further) :
    Toml.build? ((config.sectionsWithout removed unknown further).flatMap Section.expressions) =
      some (config.documentWithout removed unknown further) := by
  have hnodup : ∀ content ∈ config.sections,
      ((content.trim removed unknown).entries.map Prod.fst).Nodup :=
    fun content hcontent => h.nodup_trim config hcontent
  have hserverKey : "server" ∉ (generalLeft removed unknown config).map Prod.fst :=
    Section.not_mem_leftTable (by decide)
  have hcnodeKey : "cnode" ∉
      (generalLeft removed unknown config ++ serverLeft removed unknown config).map Prod.fst := by
    rw [List.map_append, List.mem_append, not_or]
    exact ⟨Section.not_mem_leftTable (by decide), Section.not_mem_leftTable (by decide)⟩
  obtain ⟨first, hgeneral⟩ := Toml.Leads.document.add_left [] config.generalSection rfl
    (by simp) (hnodup _ (by simp [sections, generalSection])) []
  obtain ⟨second, hserver⟩ := Toml.Leads.document.add_nested (generalLeft removed unknown config)
    config.serverSection config.registrationSection rfl rfl hserverKey
    (hnodup _ (by simp [sections, serverSection]))
    (h.registration_not_mem_trim removed config.server)
    (hnodup _ (by simp [sections, registrationSection])) first
  obtain ⟨third, hcnode⟩ := Toml.Leads.document.add_left
    (generalLeft removed unknown config ++ serverLeft removed unknown config) config.cnodeSection
    rfl hcnodeKey (hnodup _ (by simp [sections, cnodeSection])) second
  obtain ⟨fourth, hothers⟩ := Toml.Leads.document.add_sections _ further
    (h.nodup_headers (config.keys_left removed unknown))
    (fun table htable => (h.tables table htable).1.distinct) third
  have hsections : (config.sectionsWithout removed unknown further).flatMap Section.expressions =
      (config.generalSection.left removed unknown).flatMap Section.expressions ++
        ((config.serverSection.left removed unknown ++
            config.registrationSection.left removed unknown).flatMap Section.expressions ++
          ((config.cnodeSection.left removed unknown).flatMap Section.expressions ++
            (further.map fun table => Section.mk ([] ++ [table.1]) table.2).flatMap
              Section.expressions)) := by
    simp [sectionsWithout, sections, generalSection, serverSection, registrationSection,
      cnodeSection]
  have hdocument : ((config.sectionsWithout removed unknown further).flatMap
      Section.expressions).foldlM Toml.Draft.add {} =
        some ⟨config.documentWithout removed unknown further, fourth⟩ := by
    rw [hsections, List.foldlM_append]
    refine bind_of_some hgeneral ?_
    rw [List.foldlM_append]
    refine bind_of_some hserver ?_
    rw [List.foldlM_append]
    exact bind_of_some hcnode hothers
  rw [Toml.build?, hdocument]
  rfl

/-- The table of a section is there, with what is left of it and of the tables in it, unless it
is gone. -/
theorem at?_documentWithout (removed : List (List String)) (h : IsUnknown unknown further)
    (hcontent : content ∈ config.sections) :
    ∃ inner : Entries, (∀ name ∈ fieldNames content.header, inner.find? name = none) ∧
      (config.documentWithout removed unknown further).at? content.header =
        if IsGone removed content.header then none
        else some (.table .headed ((content.trim removed unknown).table ++ inner)) := by
  have hfurther : ∀ key, [key] ∈ tablePaths → Entries.find? (further.map fun table =>
      (table.1, .table .headed (Section.table ⟨[table.1], table.2⟩))) key = none := by
    intro key hkey
    apply Entries.find?_of_not_mem
    simpa [Function.comp_def] using h.not_mem_headers hkey
  have hserver : (config.documentWithout removed unknown further).find? "server" =
      if IsGone removed ["server"] then none
      else some (.table .headed ((Section.trim removed unknown
        ⟨["server"], config.server.entries⟩).table ++ Section.leftTable removed unknown
          "registration" ⟨["server", "registration"], config.server.registration.entries⟩ [])) := by
    simp [documentWithout, Entries.find?_either, Section.find?_leftTable,
      Section.find?_leftTable_of_ne, hfurther "server" (by decide)]
  simp only [sections, List.mem_cons, List.not_mem_nil, or_false] at hcontent
  obtain rfl | rfl | rfl | rfl := hcontent
  · refine ⟨[], fun _ _ => rfl, ?_⟩
    simp [documentWithout, Entries.find?_either, Section.find?_leftTable,
      Section.find?_leftTable_of_ne, hfurther "general" (by decide)]
  · refine ⟨_, ?_, (Entries.at?_key _ "server").trans hserver⟩
    intro name hname
    apply Section.find?_leftTable_of_ne
    rintro rfl
    exact absurd hname (by decide : "registration" ∉ fieldNames ["server"])
  · refine ⟨[], fun _ _ => rfl, (Entries.at?_append _ ["server"] ["registration"]).trans ?_⟩
    have hnone := h.registration_not_mem_trim removed config.server
    rw [Entries.at?_key, hserver]
    split
    · rename_i hgone
      exact (if_pos (hgone.append ["registration"])).symm
    · rw [Option.bind_some, Value.at?_key,
        Entries.find?_append (by simpa [Section.table] using hnone), Section.find?_leftTable]
  · refine ⟨[], fun _ _ => rfl, ?_⟩
    simp [documentWithout, Entries.find?_either, Section.find?_leftTable,
      Section.find?_leftTable_of_ne, hfurther "cnode" (by decide)]

/-- The keys that have been added to a table are there, unless it is gone. -/
theorem at?_unknown (config : Config) (h : IsUnknown unknown further) {path : List String}
    (hpath : path ∈ tablePaths) (hstays : ¬IsGone removed path) {entry : String × Scalar}
    (hentry : entry ∈ unknown path) :
    (config.documentWithout removed unknown further).at? (path ++ [entry.1]) =
      some entry.2.toValue := by
  obtain ⟨content, hcontent, rfl⟩ := config.exists_section hpath
  obtain ⟨inner, _, htable⟩ := at?_documentWithout removed h hcontent
  obtain ⟨hwritten, hnew⟩ := h.keys content.header hpath
  rw [Entries.at?_append, htable, if_neg hstays, Option.bind_some, Value.at?_key]
  apply Section.find?_trim_unknown hentry hwritten.distinct
  exact fun hmem => (hnew entry hentry).1 ((config.keys_sublist hcontent).subset hmem)

/-- The tables that have been added are there. -/
theorem at?_further (config : Config) (removed : List (List String))
    (h : IsUnknown unknown further) {table : String × List (String × Scalar)}
    (htable : table ∈ further) {entry : String × Scalar} (hentry : entry ∈ table.2) :
    (config.documentWithout removed unknown further).at? ([table.1] ++ [entry.1]) =
      some entry.2.toValue := by
  obtain ⟨hwritten, _, hnew⟩ := h.tables table htable
  have hne : ∀ key, [key] ∈ tablePaths → table.1 ≠ key := by
    rintro key hkey rfl
    exact hnew hkey
  have hkeys : ((further.map furtherTable).map Prod.fst).Nodup := by
    simpa [furtherTable, Function.comp_def] using h.headers
  have hfound : Entries.find? (further.map furtherTable) table.1 =
      some (furtherTable table).2 :=
    Toml.lookup_of_mem hkeys (List.mem_map_of_mem htable)
  have hlast : (config.documentWithout removed unknown further).find? table.1 =
      some (furtherTable table).2 := by
    simp [documentWithout_eq, generalLeft, serverLeft, cnodeLeft, Entries.find?_either, hfound,
      Section.find?_leftTable_of_ne (hne "general" (by decide)),
      Section.find?_leftTable_of_ne (hne "server" (by decide)),
      Section.find?_leftTable_of_ne (hne "cnode" (by decide))]
  rw [Entries.at?_append, Entries.at?_key, hlast, Option.bind_some, furtherTable, Value.at?_key,
    Toml.find?_table, Toml.lookup_of_mem hwritten.distinct hentry]
  rfl

/-! ## The whole document -/

/-- The document of a configuration. -/
def document (config : Config) : Entries :=
  [("general", .table .headed (Section.table ⟨["general"], config.general.entries⟩)),
    ("server", .table .headed
      (Section.table ⟨["server"], config.server.entries⟩ ++
        [("registration", .table .headed
          (Section.table ⟨["server", "registration"], config.server.registration.entries⟩))])),
    ("cnode", .table .headed (Section.table ⟨["cnode"], config.cnode.entries⟩))]

theorem isUnknown_nothing : IsUnknown (fun _ => []) [] := by decide

theorem sectionsWithout_nothing (config : Config) :
    config.sectionsWithout [] (fun _ => []) [] = config.sections := by
  simp [sectionsWithout, sections]

theorem documentWithout_nothing (config : Config) :
    config.documentWithout [] (fun _ => []) [] = config.document := by
  simp [documentWithout, document]

/-- The sections of a configuration build its document. -/
theorem build?_sections (config : Config) :
    Toml.build? (config.sections.flatMap Section.expressions) = some config.document := by
  rw [← config.sectionsWithout_nothing, ← config.documentWithout_nothing]
  exact build?_sectionsWithout isUnknown_nothing

/-- The document of a configuration holds the keys of its sections. -/
theorem at?_document (config : Config) (hcontent : content ∈ config.sections)
    (hname : name ∈ fieldNames content.header) :
    config.document.at? (content.header ++ [name]) =
      (content.entries.lookup name).map Scalar.toValue := by
  obtain ⟨inner, hinner, htable⟩ := at?_documentWithout [] isUnknown_nothing hcontent
  have hnone : ¬IsGone [] (content.header ++ [name]) := by simp [IsGone]
  rw [← config.documentWithout_nothing,
    Section.at?_left htable List.not_mem_nil (hinner name hname), if_neg hnone]

/-! ## Reading what is left -/

/-- The configuration in which each field that goes with the keys and tables `removed` has the
value of the default configuration. -/
def without (removed : List (List String)) (config : Config) : Config :=
  let default : Config := {}
  { general :=
      config.general.without (fun name => IsGone removed ["general", name]) default.general
    server :=
      config.server.without (fun name => IsGone removed ["server", name])
        (fun name => IsGone removed ["server", "registration", name]) default.server
    cnode := config.cnode.without (fun name => IsGone removed ["cnode", name]) default.cnode }

/-- A document holds at its paths what is left of a configuration without the keys and tables
`removed`. Further keys may stand in every table, also in one that is gone. -/
structure Leaves (config : Config) (removed : List (List String)) (document : Entries) :
    Prop where
  fields : ∀ path ∈ tablePaths, ∀ name ∈ fieldNames path, document.at? (path ++ [name]) =
    if IsGone removed (path ++ [name]) then none else config.document.at? (path ++ [name])
  tables : ∀ path ∈ tablePaths,
    (∃ form entries, document.at? path = some (.table form entries)) ∨
      IsGone removed path ∧ document.at? path = none

/-- The table of a section is there with what is left of it, or gone itself. -/
theorem Leaves.found {document : Entries} (h : Leaves config removed document)
    (hcontent : content ∈ config.sections) :
    Found (IsGone removed content.header) (fun name => IsGone removed (content.header ++ [name]))
      (fieldNames content.header) content.entries (document.at? content.header) := by
  have hheader := config.header_mem hcontent
  obtain ⟨form, entries, htable⟩ | ⟨hgone, hnone⟩ := h.tables content.header hheader
  · refine .inl ⟨form, entries, htable, ?_⟩
    intro name hname
    have hfield := h.fields content.header hheader name hname
    rwa [Entries.at?_append, htable, Option.bind_some, Value.at?_key,
      config.at?_document hcontent hname] at hfield
  · exact .inr ⟨hnone, hgone⟩

/-- What is left of a configuration is read as it is, with the defaults for what is gone. -/
theorem Leaves.ofDocument? {document : Entries} (h : Leaves config removed document) :
    Config.ofDocument? document = some (config.without removed) := by
  have hfound : ∀ content ∈ config.sections, Found _ _ _ _ _ := fun _ => h.found
  simp only [sections, List.forall_mem_cons] at hfound
  obtain ⟨hgeneral, hserver, hregistration, hcnode, _⟩ := hfound
  rw [Entries.at?_key] at hgeneral hserver hcnode
  have hgone : ∀ {path : List String}, IsGone removed path →
      ∀ name, IsGone removed (path ++ [name]) := fun h name => h.append [name]
  have hgeneralRead := hgeneral.get? ⟨"general", 0⟩
    (fun form _ _ hholds => GeneralConfig.ofValue?_holds hholds form)
    (fun habsent => GeneralConfig.without_all (hgone habsent) _ _)
  have hserverRead : (FieldSource.named document).get? ⟨"server", 1⟩ ServerConfig.ofValue? {} =
      some (config.without removed).server := by
    apply hserver.get? ⟨"server", 1⟩
    · intro form inner hinner hholds
      have htable := Entries.at?_append document ["server"] ["registration"]
      rw [Entries.at?_key, hinner, Option.bind_some, Value.at?_key] at htable
      exact ServerConfig.ofValue?_holds hholds (htable ▸ hregistration) hgone form
    · intro habsent
      exact ServerConfig.without_all (hgone habsent)
        (fun name => habsent.append ["registration", name]) _ _
  have hcnodeRead := hcnode.get? ⟨"cnode", 2⟩
    (fun form _ _ hholds => CnodeConfig.ofValue?_holds hholds form)
    (fun habsent => CnodeConfig.without_all (hgone habsent) _ _)
  rw [Config.ofDocument?]
  exact bind_of_some hgeneralRead <| bind_of_some hserverRead <| bind_of_some hcnodeRead rfl

/-- The document that is left holds what is left of the configuration. -/
theorem leaves_documentWithout (config : Config) (removed : List (List String))
    (h : IsUnknown unknown further) :
    Leaves config removed (config.documentWithout removed unknown further) where
  fields path hpath name hname := by
    obtain ⟨content, hcontent, rfl⟩ := config.exists_section hpath
    obtain ⟨inner, hinner, htable⟩ := at?_documentWithout removed h hcontent
    rw [config.at?_document hcontent hname]
    exact Section.at?_left htable (h.not_mem hpath (.inl hname)) (hinner name hname)
  tables path hpath := by
    obtain ⟨content, hcontent, rfl⟩ := config.exists_section hpath
    obtain ⟨inner, _, htable⟩ := at?_documentWithout removed h hcontent
    by_cases hgone : IsGone removed content.header
    · rw [if_pos hgone] at htable
      exact .inr ⟨hgone, htable⟩
    · rw [if_neg hgone] at htable
      exact .inl ⟨_, _, htable⟩

theorem ofDocument?_document (config : Config) :
    Config.ofDocument? config.document = some config := by
  have hleaves := config.leaves_documentWithout [] isUnknown_nothing
  rw [documentWithout_nothing] at hleaves
  exact hleaves.ofDocument?

end Config

end NodeHealth
