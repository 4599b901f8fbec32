import NodeHealth.Config.File
import NodeHealth.Proofs.Config.Document
import NodeHealth.Proofs.FileTree
import NodeHealth.Proofs.Text.Utf8

/-!
# A saved configuration is loaded

A configuration is printed as four sections. What they build is a document in which every
field is found under its name, so that the configuration that is read from it is the one that
was printed: a field without a value is the only one that is left out, and it is read as a
field without a value.

-/

namespace NodeHealth

open Toml (IsHeader Section)

namespace Config

variable {config : Config} {tree : FileTree} {path : String}

theorem sections_wellFormed
    (h : ∀ word ∈ config.words, word.toNat ≤ Toml.Number.maxInteger) :
    ∀ content ∈ config.sections, content.WellFormed := by
  simp only [words, List.forall_mem_cons] at h
  obtain ⟨hread, htimeout, hconnect, hpoll, hinitial, hmax, _⟩ := h
  have hgeneral : Section.WellFormed ⟨["general"], config.general.entries⟩ :=
    ⟨(by decide : IsHeader ["general"]), config.general.entries_wellFormed⟩
  have hserver : Section.WellFormed ⟨["server"], config.server.entries⟩ :=
    ⟨(by decide : IsHeader ["server"]), ServerConfig.entries_wellFormed hread⟩
  have hregistration :
      Section.WellFormed ⟨["server", "registration"], config.server.registration.entries⟩ :=
    ⟨(by decide : IsHeader ["server", "registration"]),
      RegistrationConfig.entries_wellFormed htimeout⟩
  have hcnode : Section.WellFormed ⟨["cnode"], config.cnode.entries⟩ :=
    ⟨(by decide : IsHeader ["cnode"]),
      CnodeConfig.entries_wellFormed hconnect hpoll hinitial hmax⟩
  simp only [sections, List.forall_mem_cons]
  exact ⟨hgeneral, hserver, hregistration, hcnode, by simp⟩

/-- What is printed for a configuration is the text of its document. -/
theorem parse?_print {text : String} (h : config.print = .ok text) :
    Toml.parse? text = some config.document := by
  rw [print] at h
  split at h
  · cases h
  · rename_i hwords
    have hfit : ∀ word ∈ config.words, word.toNat ≤ Toml.Number.maxInteger := by
      simpa using hwords
    cases h
    rw [Toml.parse?_writeAll (sections_wellFormed hfit), build?_sections]

/-- What is printed for a configuration is parsed as that configuration. -/
theorem parse_print {text : String} (h : config.print = .ok text) :
    Config.parse text = .ok config := by
  rw [parse, parse?_print h, Option.bind_some, ofDocument?_document]

theorem print_eq_error_iff (config : Config) :
    config.print = .error .unwritable ↔
      ∃ word ∈ config.words, Toml.Number.maxInteger < word.toNat := by
  rw [print]
  split <;> simp_all

/-! ## Files -/

/-- How saving a configuration ends: with nothing written if it cannot be printed, with an
error of the file system, or with the printed text in the file. -/
inductive Saved (config : Config) (tree : FileTree) (path : String) :
    Except ConfigError Unit × FileTree → Prop
  | unwritable (h : config.print = .error .unwritable) :
      Saved config tree path (.error .unwritable, tree)
  | failed (text : String) (h : config.print = .ok text) (cause : IoCause) (later : FileTree) :
      Saved config tree path (.error (.io (.ofSystem cause)), later)
  | written (text : String) (h : config.print = .ok text) (before later : FileTree)
      (hwrite : before.write path (Utf8.encode text) = .ok later) :
      Saved config tree path (.ok (), later)

theorem saved_save (config : Config) (tree : FileTree) (path : String) :
    Saved config tree path (config.save tree path) := by
  rw [save]
  split
  case h_1 error hprint =>
    have hunwritable : error = .unwritable := by
      rw [print] at hprint
      split at hprint <;> cases hprint
      rfl
    subst hunwritable
    exact .unwritable hprint
  case h_2 text hprint =>
    split
    · exact .failed text hprint _ _
    · split
      · exact .failed text hprint _ _
      · rename_i before _ _ later hwrite
        exact .written text hprint before later hwrite

/-- A file that holds what was printed for a configuration is loaded as that configuration. -/
theorem load_of_write {before later : FileTree} {text : String} (hprint : config.print = .ok text)
    (hwrite : before.write path (Utf8.encode text) = .ok later) :
    Config.load later path = .ok config := by
  obtain ⟨hcontains, hread⟩ := FileTree.read_write hwrite
  rw [load, if_pos hcontains, hread]
  simp only [Utf8.decode?_encode, parse_print hprint]

/-- A configuration is saved unless one of its words does not fit into a document, in which
case no file is touched; and a configuration that has been saved is loaded as it was. -/
theorem save_load (config : Config) (tree : FileTree) (path : String) :
    ((config.save tree path).1 = .error .unwritable ↔
      ∃ word ∈ [config.server.readTimeoutMs, config.server.registration.timeoutMs,
        config.cnode.connectTimeoutMs, config.cnode.pollIntervalMs,
        config.cnode.initialBackoffSecs, config.cnode.maxBackoffSecs],
        0x7FFFFFFFFFFFFFFF < word.toNat) ∧
    ((config.save tree path).1 = .error .unwritable → (config.save tree path).2 = tree) ∧
    ((config.save tree path).1 = .ok () →
      Config.load (config.save tree path).2 path = .ok config) := by
  have hlarge := print_eq_error_iff config
  rw [show Toml.Number.maxInteger = 0x7FFFFFFFFFFFFFFF from rfl, words] at hlarge
  rw [← hlarge]
  have hsaved := saved_save config tree path
  generalize config.save tree path = outcome at hsaved ⊢
  cases hsaved with
  | unwritable h => simp [h]
  | failed text h => simp [h]
  | written text h before later hwrite => simp [h, load_of_write h hwrite]

theorem splitOn_config : "config".splitOn "/" = ["config"] := by
  rw [String.splitOn, if_neg (by decide)]
  iterate 7 rw [String.splitOnAux]
  decide +kernel

theorem write_config (content : Bytes) :
    FileTree.write {} "config" content = .ok ⟨[(["config"], .file content)]⟩ := by
  have hends : "config".endsWith "/" = false := by decide +kernel
  have hstarts : "config".startsWith "/" = false := by decide +kernel
  have hresolve : FileTree.resolve {} "config" = .ok ["config"] := by
    simp [FileTree.resolve, FileTree.origin, hstarts, splitOn_config, FileTree.walk,
      FileTree.node?, FileTree.isAncestor]
  simp only [FileTree.write, hends, hresolve]
  rfl

/-- A configuration with texts that have to be quoted, with empty ones, and with the greatest
integer that a file can hold. -/
def oddTexts : Config where
  general := { logFilter := some "a \"b\" \\ c\n'''\u0001" }
  server := { bindAddr := "", advertiseIp := some "", registration := { serverPort := some 0 } }
  cnode := { maxBackoffSecs := 9223372036854775807 }

theorem save_load_of_odd_texts :
    (oddTexts.save {} "config").1 = .ok () ∧
      Config.load (oddTexts.save {} "config").2 "config" = .ok oddTexts := by
  have hprint : oddTexts.print = .ok _ := if_neg (by decide)
  have hparents : FileTree.createParents {} "config" = .ok {} := by
    simp [FileTree.createParents, FileTree.parts, splitOn_config, FileTree.createDirectories]
  have hsave : (oddTexts.save {} "config").1 = .ok () := by
    rw [save, hprint]
    simp only [hparents, write_config]
  exact ⟨hsave, (save_load oddTexts {} "config").2.2 hsave⟩

end Config

end NodeHealth
