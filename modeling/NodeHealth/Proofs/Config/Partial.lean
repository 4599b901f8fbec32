import NodeHealth.Proofs.Config.RoundTrip

/-!
# Configuration files in which fields are missing

A file is loaded as what is left in it of a configuration, with the defaults for what is
missing. It does not matter which keys and tables are missing, nor which keys the file holds
that are no fields.

## Implementation notes

Texts enter through what they are parsed to. `Config.printWithout` writes one for every choice
of keys, so that there always is one.

-/

namespace NodeHealth.Config

open Toml (Entries IsGone Scalar Section)

variable {config : Config} {removed : List (List String)} {document : Entries}
  {unknown : List String → List (String × Scalar)}
  {further : List (String × List (String × Scalar))}

/-- A file in which fields are missing is loaded as what is left of the configuration. -/
theorem Leaves.load (h : Leaves config removed document) {text : String} {tree : FileTree}
    {path : String} (htext : Toml.parse? text = some document)
    (hread : tree.read path = .ok (Utf8.encode text)) :
    Config.load tree path = .ok (config.without removed) := by
  rw [Config.load, if_pos (FileTree.contains_of_read hread), hread]
  simp only [Utf8.decode?_encode, Config.parse, htext, Option.bind_some, h.ofDocument?]

/-- The text of a configuration without the keys and tables `removed`, with further keys and
sections. -/
def printWithout (removed : List (List String))
    (unknown : List String → List (String × Scalar))
    (further : List (String × List (String × Scalar))) (config : Config) : String :=
  String.ofList (Section.writeAll (config.sectionsWithout removed unknown further))

/-- What is left of a configuration can be written. -/
theorem sectionsWithout_wellFormed
    (hfit : ∀ word ∈ config.words, word.toNat ≤ Toml.Number.maxInteger)
    (h : IsUnknown unknown further) :
    ∀ content ∈ config.sectionsWithout removed unknown further, content.WellFormed := by
  rw [sectionsWithout, List.forall_mem_append]
  constructor
  · intro content hcontent
    obtain ⟨old, hold, hleft⟩ := List.mem_flatMap.mp hcontent
    apply (sections_wellFormed hfit old hold).left _ content hleft
    exact (h.keys old.header (config.header_mem hold)).1.written
  · intro content hcontent
    obtain ⟨table, htable, rfl⟩ := List.mem_map.mp hcontent
    obtain ⟨hentries, hbare, _⟩ := h.tables table htable
    exact ⟨⟨List.cons_ne_nil _ _, (by decide : 1 < Toml.Scan.maxDepth), by simpa using hbare⟩,
      hentries.written⟩

/-- The text of what is left is that of the document that is left. -/
theorem parse?_printWithout (removed : List (List String))
    (hfit : ∀ word ∈ config.words, word.toNat ≤ Toml.Number.maxInteger)
    (h : IsUnknown unknown further) :
    Toml.parse? (config.printWithout removed unknown further) =
      some (config.documentWithout removed unknown further) := by
  rw [printWithout, Toml.parse?_writeAll (sectionsWithout_wellFormed hfit h),
    build?_sectionsWithout h]

/-- A configuration whose words fit into a document has the text of its document. Whatever keys
and tables are removed from that document, and whatever keys are added that it does not know,
each text of what is left is loaded as the configuration in which what has been removed has
its default and all else its value; and there is such a text for all that can be written, with
all that has been added in it. So it does not matter whether the reader of a table supplies a
default or its structure does: a table without keys is read as the default of its structure. -/
theorem load_partial (config : Config) (removed : List (List String))
    (hwords : ∀ word ∈ config.words, word.toNat ≤ 0x7FFFFFFFFFFFFFFF) :
    (∃ text, config.print = .ok text ∧ Toml.parse? text = some config.document) ∧
    (∀ document, Leaves config removed document → ∀ (text : String) (tree : FileTree)
      (path : String), Toml.parse? text = some document →
        tree.read path = .ok (Utf8.encode text) →
          Config.load tree path = .ok (config.without removed)) ∧
    (∀ unknown further, IsUnknown unknown further → ∃ document,
      Toml.parse? (config.printWithout removed unknown further) = some document ∧
      Leaves config removed document ∧
      (∀ path ∈ tablePaths, ¬IsGone removed path → ∀ entry ∈ unknown path,
        document.at? (path ++ [entry.1]) = some entry.2.toValue) ∧
      (∀ table ∈ further, ∀ entry ∈ table.2,
        document.at? [table.1, entry.1] = some entry.2.toValue)) ∧
    (∀ form, GeneralConfig.ofValue? (.table form []) = some {} ∧
      ServerConfig.ofValue? (.table form []) = some {} ∧
      RegistrationConfig.ofValue? (.table form []) = some {} ∧
      CnodeConfig.ofValue? (.table form []) = some {}) := by
  have hfit : ∀ word ∈ config.words, word.toNat ≤ Toml.Number.maxInteger := hwords
  refine ⟨?_, ?_, ?_, fun _ => ⟨rfl, rfl, rfl, rfl⟩⟩
  · have hprint : config.print = .ok (String.ofList (Section.writeAll config.sections)) := by
      rw [print, if_neg (by simpa using hfit)]
    exact ⟨_, hprint, parse?_print hprint⟩
  · intro document hleaves text tree path htext hread
    exact hleaves.load htext hread
  · intro unknown further hunknown
    refine ⟨_, parse?_printWithout removed hfit hunknown,
      config.leaves_documentWithout removed hunknown, ?_, ?_⟩
    · intro path hpath hstays entry hentry
      exact config.at?_unknown hunknown hpath hstays hentry
    · intro table htable entry hentry
      exact config.at?_further removed hunknown htable hentry

/-- A configuration in which no table is as it is by default. -/
def customised : Config where
  general := { verbose := true }
  server := { port := 6000, registration := { enable := true, serverPort := some 7 } }
  cnode := { serverIp := some "10.0.0.1", maxBackoffSecs := 7 }

/-- Two keys and a whole table. -/
def someRemoved : List (List String) :=
  [["general", "verbose"], ["server", "registration"], ["cnode", "max_backoff_secs"]]

/-- An unknown key in a known table. -/
def someUnknown (path : List String) : List (String × Scalar) :=
  if path = ["cnode"] then [("colour", .string "red")] else []

/-- What is left of the configuration, with an unknown table. -/
def partialText : String :=
  customised.printWithout someRemoved someUnknown [("log", [("lines", .integer 80)])]

theorem load_partial_of_missing_table :
    Config.load ⟨[(["config"], .file (Utf8.encode partialText))]⟩ "config" =
      .ok { server := { port := 6000 }, cnode := { serverIp := some "10.0.0.1" } } := by
  have hunknown : IsUnknown someUnknown [("log", [("lines", .integer 80)])] := by decide
  have hread := (FileTree.read_write (write_config (Utf8.encode partialText))).2
  have hwords : ∀ word ∈ customised.words, word.toNat ≤ 0x7FFFFFFFFFFFFFFF := by
    simp [words, customised, defaultReadTimeoutMs, defaultIoTimeoutMs,
      defaultInitialBackoffSecs]
  obtain ⟨_, hload, hprinted, _⟩ := load_partial customised someRemoved hwords
  obtain ⟨document, htext, hleaves, _⟩ := hprinted someUnknown _ hunknown
  have hloaded := hload document hleaves partialText _ "config" htext hread
  exact hloaded.trans (congrArg Except.ok (by decide))

end NodeHealth.Config
