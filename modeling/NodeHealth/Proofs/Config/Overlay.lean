import NodeHealth.Config.Document
import NodeHealth.Config.Environment
import NodeHealth.Proofs.Text.Decimal

/-!
# Overlaying the environment

Each variable has one field, and its value is understood by one of four rules. A value that the
rule accepts is effective and is what the field becomes; any other value, and none, leaves the
field alone. Overlays in a row are therefore one overlay, in which the last effective value of
each variable counts.

## Implementation notes

`Variable.Reads` and `Variable.Effective` state the rules, and `Variable.read?` computes them.
All fields that a variable overrides are seen as a `Setting`, so that one equation,
`Config.setting_overlay`, says what happens to them; with `general` and `words` they make up the
whole configuration.

-/

namespace NodeHealth

variable {config : Config} {v : Variable} {text : String} {port : UInt16}

/-! ## Ports -/

/-- A text names a port: between white space there are decimal digits, after a plus sign or
none, and they stand for a positive number of 16 bits. -/
def NamesPort (text : String) (port : UInt16) : Prop :=
  ∃ front sign digits back, text.toList = front ++ (sign ++ digits) ++ back ∧
    (∀ c ∈ front, Text.isBlank c = true) ∧ (∀ c ∈ back, Text.isBlank c = true) ∧
    (sign = [] ∨ sign = ['+']) ∧ digits ≠ [] ∧ (∀ c ∈ digits, '0' ≤ c ∧ c ≤ '9') ∧
    Text.decimalValue digits = port.toNat ∧ port ≠ 0

namespace Environment

/-- The port of a trimmed text behind its sign. -/
def portOf? (digits : List Char) : Option UInt16 :=
  match Text.decimal? digits with
  | some value => if 0 < value ∧ value < UInt16.size then some (UInt16.ofNat value) else none
  | none => none

theorem portOf?_eq_some_iff {digits : List Char} : portOf? digits = some port ↔
    digits ≠ [] ∧ (∀ c ∈ digits, '0' ≤ c ∧ c ≤ '9') ∧
      Text.decimalValue digits = port.toNat ∧ port ≠ 0 := by
  have hzero : port ≠ 0 ↔ 0 < port.toNat := by
    rw [Nat.pos_iff_ne_zero, ne_eq, ne_eq, ← UInt16.toNat_inj]
    rfl
  rw [portOf?, hzero]
  constructor
  · intro h
    split at h
    case h_1 value hvalue =>
      obtain ⟨hne, hdigits, rfl⟩ := Text.decimal?_eq_some_iff.mp hvalue
      split at h
      · rename_i hrange
        obtain rfl := Option.some.inj h
        rw [UInt16.toNat_ofNat_of_lt' hrange.2]
        exact ⟨hne, hdigits, rfl, hrange.1⟩
      · cases h
    case h_2 => cases h
  · rintro ⟨hne, hdigits, hvalue, hpos⟩
    rw [Text.decimal?_eq_some_iff.mpr ⟨hne, hdigits, hvalue⟩]
    simp only [if_pos (And.intro hpos port.toNat_lt), UInt16.ofNat_toNat]

/-- A sign is left out before the digits are read. -/
theorem port?_of_trim {sign digits : List Char}
    (htrim : Text.trimBlank text.toList = sign ++ digits)
    (hsign : sign = ['+'] ∨ sign = [] ∧ digits.head? ≠ some '+') :
    port? text = portOf? digits := by
  obtain rfl | ⟨rfl, hplus⟩ := hsign
  · rw [port?, htrim]
    rfl
  · rw [port?, htrim, List.nil_append, portOf?]
    split <;> rename_i hhead <;> split at hhead <;> simp_all

/-- The texts that are read as a port are those that name it. -/
theorem port?_eq_some_iff : port? text = some port ↔ NamesPort text port := by
  constructor
  · intro h
    obtain ⟨front, back, htext, hfront, hback⟩ := Text.trimBlank_split text.toList
    by_cases hplus : (Text.trimBlank text.toList).head? = some '+'
    · obtain ⟨digits, hdigits⟩ := List.head?_eq_some_iff.mp hplus
      have htrim : Text.trimBlank text.toList = ['+'] ++ digits := hdigits
      rw [port?_of_trim htrim (.inl rfl), portOf?_eq_some_iff] at h
      rw [htrim] at htext
      exact ⟨front, ['+'], digits, back, htext, hfront, hback, .inr rfl, h⟩
    · have htrim : Text.trimBlank text.toList = [] ++ Text.trimBlank text.toList := rfl
      rw [port?_of_trim htrim (.inr ⟨rfl, hplus⟩), portOf?_eq_some_iff] at h
      exact ⟨front, [], _, back, htext, hfront, hback, .inl rfl, h⟩
  · rintro ⟨front, sign, digits, back, htext, hfront, hback, hsign, hnumber⟩
    have hdigits := hnumber.2.1
    obtain ⟨first, others, rfl⟩ := List.exists_cons_of_ne_nil hnumber.1
    have hhead : ∃ c ∈ (sign ++ first :: others).head?, Text.isBlank c = false := by
      obtain rfl | rfl := hsign
      · exact ⟨first, rfl, Text.isBlank_of_digit (hdigits first List.mem_cons_self)⟩
      · exact ⟨'+', rfl, by decide⟩
    have hlast : ∃ c ∈ (sign ++ first :: others).getLast?, Text.isBlank c = false := by
      have hne := List.cons_ne_nil first others
      refine ⟨(first :: others).getLast hne, ?_,
        Text.isBlank_of_digit (hdigits _ (List.getLast_mem hne))⟩
      rw [List.getLast?_append, List.getLast?_eq_some_getLast hne]
      rfl
    have htrim : Text.trimBlank text.toList = sign ++ first :: others := by
      rw [htext, Text.trimBlank_append hfront hback hhead hlast]
    have hplus : (first :: others).head? ≠ some '+' := by
      intro heq
      have hfirst := hdigits first List.mem_cons_self
      rw [Option.some.inj heq] at hfirst
      exact absurd hfirst (by decide)
    rw [port?_of_trim htrim (hsign.symm.imp_right fun h => ⟨h, hplus⟩), portOf?_eq_some_iff]
    exact hnumber

end Environment

/-! ## Rules -/

/-- How the value of a variable is understood. -/
inductive Variable.Rule
  /-- Any text is a switch, which is on for the text `1` only. -/
  | switch
  /-- Any text is an address, where the empty one unsets it. -/
  | peer
  /-- A text that is not empty is an address. -/
  | address
  /-- A text that names a port. -/
  | port
  deriving DecidableEq, Repr

/-- What a field that a variable overrides may hold. -/
inductive Setting
  | switch (on : Bool)
  | text (value : Option String)
  | port (value : Option UInt16)
  deriving DecidableEq, Repr

namespace Variable

/-- The rule of a variable. -/
def rule : Variable → Rule
  | healthEnable | registrationEnable | cnodeEnable => .switch
  | registrationIp | cnodeIp => .peer
  | bindAddr | advertiseIp => .address
  | healthPort | registrationPort | cnodePort => .port

/-- The texts that a variable may have to some effect. -/
def Effective (v : Variable) (text : String) : Prop :=
  match v.rule with
  | .switch => True
  | .peer => True
  | .address => text ≠ ""
  | .port => ∃ port, NamesPort text port

/-- What an effective text is read as. -/
def Reads (v : Variable) (text : String) (setting : Setting) : Prop :=
  match v.rule with
  | .switch => ∃ on, (on = true ↔ text = "1") ∧ setting = .switch on
  | .peer => setting = .text (if text = "" then none else some text)
  | .address => text ≠ "" ∧ setting = .text (some text)
  | .port => ∃ port, NamesPort text port ∧ setting = .port (some port)

/-- The setting that a text is read as, if it is effective. -/
def read? (v : Variable) (text : String) : Option Setting :=
  match v.rule with
  | .switch => some (.switch (Environment.switch text))
  | .peer => some (.text (nonEmpty? text))
  | .address => (nonEmpty? text).map fun address => .text (some address)
  | .port => (Environment.port? text).map fun port => .port (some port)

theorem read?_eq_some_iff {setting : Setting} :
    v.read? text = some setting ↔ v.Reads text setting := by
  rw [read?, Reads]
  cases v.rule with
  | switch =>
      simp only [Environment.switch, Option.some.injEq]
      constructor
      · rintro rfl
        exact ⟨_, decide_eq_true_iff, rfl⟩
      · rintro ⟨on, hon, rfl⟩
        rw [← Bool.eq_iff_iff.mpr (hon.trans decide_eq_true_iff.symm)]
  | peer => simp only [nonEmpty?, Option.some.injEq, eq_comm]
  | address =>
      simp only [Option.map_eq_some_iff, nonEmpty?_eq_some_iff]
      constructor
      · rintro ⟨_, ⟨hne, rfl⟩, rfl⟩
        exact ⟨hne, rfl⟩
      · rintro ⟨hne, rfl⟩
        exact ⟨text, ⟨hne, rfl⟩, rfl⟩
  | port =>
      simp only [Option.map_eq_some_iff, Environment.port?_eq_some_iff]
      constructor
      · rintro ⟨port, hport, rfl⟩
        exact ⟨port, hport, rfl⟩
      · rintro ⟨port, hport, rfl⟩
        exact ⟨port, hport, rfl⟩

/-- The effective texts are those that are read as something. -/
theorem effective_iff : v.Effective text ↔ ∃ setting, v.Reads text setting := by
  rw [Effective]
  simp only [Reads]
  cases v.rule with
  | switch => exact ⟨fun _ => ⟨_, _, decide_eq_true_iff, rfl⟩, fun _ => trivial⟩
  | peer => simp
  | address => simp
  | port =>
      constructor
      · rintro ⟨port, hport⟩
        exact ⟨_, port, hport, rfl⟩
      · rintro ⟨_, port, hport, _⟩
        exact ⟨port, hport⟩

theorem isSome_read?_iff : (v.read? text).isSome = true ↔ v.Effective text := by
  simp only [Option.isSome_iff_exists, read?_eq_some_iff, effective_iff]

instance (v : Variable) (text : String) : Decidable (v.Effective text) :=
  decidable_of_iff _ isSome_read?_iff

theorem read?_of_not_effective (h : ¬v.Effective text) : v.read? text = none := by
  rw [← Option.not_isSome_iff_eq_none, isSome_read?_iff]
  exact h

/-- No text is read as the port zero. -/
theorem not_reads_zero (v : Variable) (text : String) : ¬v.Reads text (.port (some 0)) := by
  rw [Reads]
  cases v.rule with
  | switch => simp
  | peer => simp
  | address => simp
  | port =>
      rintro ⟨port, ⟨_, _, _, _, _, _, _, _, _, _, _, hpos⟩, hzero⟩
      exact hpos (Option.some.inj (Setting.port.inj hzero)).symm

end Variable

/-! ## Environments -/

namespace Environment

variable {f g : Environment}

/-- The effective value of each variable in the first environment, and its value in the second
where there is none. -/
def above (g f : Environment) : Environment := fun v =>
  match g v with
  | some text => if v.Effective text then some text else f v
  | none => f v

/-- What a variable is read as. -/
def read? (f : Environment) (v : Variable) : Option Setting :=
  (f v).bind v.read?

theorem read?_of_not_effective (h : ∀ text, f v = some text → ¬v.Effective text) :
    f.read? v = none := by
  rw [read?, Option.bind_eq_none_iff]
  intro text htext
  exact Variable.read?_of_not_effective (h text htext)

theorem read?_above (g f : Environment) (v : Variable) :
    (g.above f).read? v = (g.read? v).or (f.read? v) := by
  simp only [read?, above]
  cases g v with
  | none => rfl
  | some text =>
      by_cases heffective : v.Effective text
      · obtain ⟨setting, hsetting⟩ :=
          Option.isSome_iff_exists.mp (Variable.isSome_read?_iff.mpr heffective)
        simp [heffective, hsetting]
      · simp [heffective, Variable.read?_of_not_effective heffective]

/-- Without the values that are not effective. -/
def effective (f : Environment) : Environment :=
  f.above fun _ => none

end Environment

/-! ## Settings of a configuration -/

namespace Config

variable {a b : Config}

/-- The field that a variable overrides. -/
def setting (config : Config) : Variable → Setting
  | .healthEnable => .switch config.server.enable
  | .healthPort => .port (some config.server.port)
  | .bindAddr => .text (some config.server.bindAddr)
  | .advertiseIp => .text config.server.advertiseIp
  | .registrationEnable => .switch config.server.registration.enable
  | .registrationIp => .text config.server.registration.serverIp
  | .registrationPort => .port config.server.registration.serverPort
  | .cnodeEnable => .switch config.cnode.enable
  | .cnodeIp => .text config.cnode.serverIp
  | .cnodePort => .port (some config.cnode.serverPort)

/-- A configuration consists of its settings, its general part and its times and delays. -/
theorem eq_of_settings (hsettings : ∀ v, a.setting v = b.setting v)
    (hgeneral : a.general = b.general) (hwords : a.words = b.words) : a = b := by
  obtain ⟨_, ⟨_, _, _, _, _, ⟨_, _, _, _⟩⟩, ⟨_, _, _, _, _, _, _⟩⟩ := a
  obtain ⟨_, ⟨_, _, _, _, _, ⟨_, _, _, _⟩⟩, ⟨_, _, _, _, _, _, _⟩⟩ := b
  have hsettings : ∀ v ∈ Variable.all, _ := fun v _ => hsettings v
  simp only [Variable.all, List.forall_mem_cons, setting, Setting.switch.injEq,
    Setting.port.injEq, Setting.text.injEq, Option.some.injEq] at hsettings
  simp only [words, List.cons.injEq] at hwords
  simp_all

/-! A value that is read and put into a field, by each of the three ways in which an overlay
does it. -/

section

variable {α : Type} (put : α → Setting) (value : Option String)

theorem put_map_getD (read : String → α) (old : α) :
    put ((value.map read).getD old) =
      (value.bind fun text => some (put (read text))).getD (put old) := by
  cases value <;> rfl

theorem put_bind_getD (read : String → Option α) (old : α) :
    put ((value.bind read).getD old) =
      (value.bind fun text => (read text).map put).getD (put old) := by
  cases value with
  | none => rfl
  | some text => exact (Option.getD_map put old (read text)).symm

theorem put_bind_or {put : Option α → Setting} (read : String → Option α) (old : Option α) :
    put ((value.bind read).or old) =
      (value.bind fun text => (read text).map fun new => put (some new)).getD (put old) := by
  cases value with
  | none => rfl
  | some text => cases hread : read text <;> simp [hread]

end

/-- A field becomes what its variable is read as, and stays what it is if that is nothing. -/
theorem setting_overlay (config : Config) (f : Environment) (v : Variable) :
    (config.overlay f).setting v = (f.read? v).getD (config.setting v) := by
  cases v with
  | healthEnable | registrationEnable | cnodeEnable => exact put_map_getD .switch _ _ _
  | registrationIp | cnodeIp => exact put_map_getD .text _ _ _
  | bindAddr => exact put_bind_getD (fun address => .text (some address)) _ _ _
  | advertiseIp => exact put_bind_or _ _ _
  | healthPort | cnodePort => exact put_bind_getD (fun port => .port (some port)) _ _ _
  | registrationPort => exact put_bind_or _ _ _

/-- A field that an overlay changes has an effective value to come from. -/
theorem setting_cases (config : Config) (f : Environment) (v : Variable) :
    (∃ text, f v = some text ∧ v.Reads text ((config.overlay f).setting v)) ∨
      f.read? v = none ∧ (config.overlay f).setting v = config.setting v := by
  rw [setting_overlay]
  cases hread : f.read? v with
  | none => exact .inr ⟨rfl, rfl⟩
  | some setting =>
      obtain ⟨text, htext, hsetting⟩ := Option.bind_eq_some_iff.mp hread
      exact .inl ⟨text, htext, Variable.read?_eq_some_iff.mp hsetting⟩

theorem overlay_of_read? {f g : Environment} (h : ∀ v, f.read? v = g.read? v) (config : Config) :
    config.overlay f = config.overlay g := by
  refine eq_of_settings ?_ rfl rfl
  intro v
  rw [setting_overlay, setting_overlay, h]

theorem overlay_overlay (config : Config) (f g : Environment) :
    (config.overlay f).overlay g = config.overlay (g.above f) := by
  refine eq_of_settings ?_ rfl rfl
  intro v
  rw [setting_overlay, setting_overlay, setting_overlay, Environment.read?_above, Option.getD_or]

/-- Overlays compose: a second environment counts where it has effective values, and the first
one elsewhere. So a second overlay with the same environment changes nothing, and neither do
values that are not effective. Each of the ten fields becomes exactly what the effective value
of its variable is read as, and is kept if there is none; no port becomes zero; and all other
fields are kept. -/
theorem overlay_laws (config : Config) (f g : Environment) :
    (config.overlay f).overlay g = config.overlay (g.above f) ∧
    (config.overlay f).overlay f = config.overlay f ∧
    config.overlay f.effective = config.overlay f ∧
    ((∀ v text, f v = some text → ¬v.Effective text) → config.overlay f = config) ∧
    (∀ v text, f v = some text → v.Effective text →
      v.Reads text ((config.overlay f).setting v)) ∧
    (∀ v, (∀ text, f v = some text → ¬v.Effective text) →
      (config.overlay f).setting v = config.setting v) ∧
    (∀ v, (config.overlay f).setting v = .port (some 0) → config.setting v = .port (some 0)) ∧
    (config.overlay f).general = config.general ∧ (config.overlay f).words = config.words := by
  refine ⟨overlay_overlay config f g, ?_, ?_, ?_, ?_, ?_, ?_, rfl, rfl⟩
  · rw [overlay_overlay]
    apply overlay_of_read?
    intro v
    rw [Environment.read?_above, Option.or_self]
  · apply overlay_of_read?
    intro v
    rw [Environment.effective, Environment.read?_above]
    exact Option.or_none
  · intro hnone
    refine eq_of_settings ?_ rfl rfl
    intro v
    rw [setting_overlay, Environment.read?_of_not_effective (hnone v), Option.getD_none]
  · intro v text htext heffective
    obtain ⟨text', htext', hreads⟩ | ⟨hnone, _⟩ := setting_cases config f v
    · obtain rfl := Option.some.inj (htext.symm.trans htext')
      exact hreads
    · rw [Environment.read?, htext, Option.bind_some] at hnone
      rw [← Variable.isSome_read?_iff, hnone] at heffective
      cases heffective
  · intro v hnone
    rw [setting_overlay, Environment.read?_of_not_effective hnone, Option.getD_none]
  · intro v hzero
    obtain ⟨text, _, hreads⟩ | ⟨_, hkept⟩ := setting_cases config f v
    · rw [hzero] at hreads
      exact absurd hreads (Variable.not_reads_zero v text)
    · rw [← hkept, hzero]

end Config

end NodeHealth
