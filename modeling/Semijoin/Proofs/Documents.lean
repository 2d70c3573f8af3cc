import Mathlib.Data.List.Basic
import Mathlib.Tactic.Common
import Semijoin.Config.Load
import Semijoin.Yaml.Load

/-!
# What becomes of a configuration document

A document that is no configuration is never taken for one. It is reported as such, with a message
that names what is wrong, as long as its keys are text and what the message shows can be written: a
key that is not text ends in an error of another kind, because names are sorted and joined.
-/

namespace Semijoin

/-! ## Computations that can fail -/

section Failing

variable {ε ε' α β : Type} {P : ε → Prop} {Q : ε' → Prop} {x : Except ε α} {f : α → Except ε β}

theorem bind_eq_ok_iff {b : β} : x >>= f = .ok b ↔ ∃ a, x = .ok a ∧ f a = .ok b := by
  cases x <;> simp [Bind.bind, Except.bind]

theorem mapError_eq_ok_iff {g : ε → ε'} {a : α} : x.mapError g = .ok a ↔ x = .ok a := by
  cases x <;> simp [Except.mapError]

/-- Every error that the computation can end in is of a kind. -/
def FailsIn (P : ε → Prop) (x : Except ε α) : Prop := ∀ e, x = .error e → P e

theorem FailsIn.ok (a : α) : FailsIn P (.ok a : Except ε α) := fun _ h => nomatch h

theorem FailsIn.error {e : ε} (h : P e) : FailsIn P (.error e : Except ε α) := by
  rintro _ ⟨⟩
  exact h

theorem FailsIn.bind (hx : FailsIn P x) (hf : ∀ a, x = .ok a → FailsIn P (f a)) :
    FailsIn P (x >>= f) := by
  cases x with
  | ok a => exact hf a rfl
  | error e =>
    rintro _ ⟨⟩
    exact hx e rfl

theorem FailsIn.mapError {g : ε → ε'} (hx : FailsIn P x) (hg : ∀ e, P e → Q (g e)) :
    FailsIn Q (x.mapError g) := by
  cases x with
  | ok a => exact .ok a
  | error e => exact .error (hg e (hx e rfl))

end Failing

/-! ## Keys -/

namespace Config

variable {known : List String} {fault : List Text → ConfigError} {entries : List (Value × Value)}
  {settings : Settings}

/-- All keys are text. -/
def TextKeys (entries : List (Value × Value)) : Prop := ∀ e ∈ entries, ∃ name, e.1 = .str name

/-- The value under a text. -/
def valueAt (name : Text) : List (Value × Value) → Option Value
  | [] => none
  | (.str key, value) :: entries => if key = name then some value else valueAt name entries
  | _ :: entries => valueAt name entries

/-- The entries of a map that has settings for its entries. -/
def entriesOf (settings : Settings) : List (Value × Value) :=
  settings.map fun (name, value) => (.str name, value)

/-- The entries whose keys are text. -/
def namedEntries (entries : List (Value × Value)) : List (Text × Value) :=
  entries.filterMap fun (key, value) =>
    match key with
    | .str name => some (name, value)
    | _ => none

theorem length_namedEntries_eq_iff :
    (namedEntries entries).length = entries.length ↔ TextKeys entries := by
  rw [namedEntries, List.filterMap_length_eq_length]
  refine forall₂_congr fun e _ => ?_
  obtain ⟨key, value⟩ := e
  cases key <;> simp

/-- Entries with text for all keys are the named ones. -/
theorem TextKeys.eq_map_namedEntries (h : TextKeys entries) :
    entries = (namedEntries entries).map fun (name, value) => (.str name, value) := by
  induction entries with
  | nil => rfl
  | cons e entries ih =>
    obtain ⟨key, value⟩ := e
    obtain ⟨name, hname⟩ := h (key, value) (by simp)
    obtain rfl : key = .str name := hname
    have ih := ih fun e he => h e (by simp [he])
    simpa [namedEntries] using ih

/-- What the keys are checked for, in terms of the named entries. -/
theorem checkKeys_eq :
    checkKeys known fault entries =
      let named := namedEntries entries
      let unknown := (named.map (·.1)).filter fun name =>
        !known.any fun k => Text.ofString k = name
      if named.length ≠ entries.length then .error .keyNotText
      else if unknown.isEmpty then .ok (named.map fun (name, value) => (name.toString, value))
      else .error (.config (fault (unknown.mergeSort Text.le))) := rfl

/-- Settings are read off a map just where all its keys are known, and they are what it holds. -/
theorem checkKeys_eq_ok_iff :
    checkKeys known fault entries = .ok settings ↔
      entries = entriesOf settings ∧ ∀ s ∈ settings, s.1 ∈ known := by
  constructor
  · intro h
    rw [checkKeys_eq] at h
    dsimp only at h
    split_ifs at h with hlength hknown
    have hkeys := TextKeys.eq_map_namedEntries (length_namedEntries_eq_iff.mp (not_not.mp hlength))
    simp only [List.isEmpty_iff, List.filter_eq_nil_iff, List.mem_map, Bool.not_eq_true,
      Bool.not_eq_false', List.any_eq_true, decide_eq_true_eq] at hknown
    cases h
    -- A known name comes back from its text, so nothing is lost in the settings.
    have hname : ∀ e ∈ namedEntries entries, ∃ k ∈ known, Text.ofString k = e.1 := fun e he => by
      simpa using hknown e.1 ⟨e, he, rfl⟩
    refine ⟨hkeys.trans ?_, ?_⟩
    · rw [entriesOf, List.map_map]
      refine List.map_congr_left fun e he => ?_
      obtain ⟨k, -, hk⟩ := hname e he
      simp [← hk, Text.toString_ofString]
    · rintro _ hs
      obtain ⟨e, he, rfl⟩ := List.mem_map.mp hs
      obtain ⟨k, hmem, hk⟩ := hname e he
      simpa [← hk, Text.toString_ofString] using hmem
  · rintro ⟨rfl, h⟩
    have hnamed : namedEntries (entriesOf settings) =
        settings.map fun (name, value) => (Text.ofString name, value) := by
      rw [namedEntries, entriesOf, List.filterMap_map, ← List.filterMap_eq_map]
      rfl
    rw [checkKeys_eq, hnamed]
    dsimp only
    rw [if_neg (by simp [entriesOf]), if_pos]
    · simp [Function.comp_def, Text.toString_ofString]
    · simp only [List.isEmpty_iff, List.filter_eq_nil_iff, List.mem_map]
      rintro _ ⟨_, ⟨s, hs, rfl⟩, rfl⟩
      simpa using ⟨s.1, h s hs, rfl⟩

theorem checkKeys_eq_keyNotText_iff :
    checkKeys known fault entries = .error .keyNotText ↔ ¬ TextKeys entries := by
  rw [← length_namedEntries_eq_iff, checkKeys_eq]
  dsimp only
  split_ifs <;> simp_all

/-- A map is refused for a key that is not text, or with the error that lists the unknown ones. -/
theorem checkKeys_failsIn :
    FailsIn (fun e => e = .keyNotText ∧ ¬ TextKeys entries ∨ ∃ keys, e = .config (fault keys))
      (checkKeys known fault entries) := by
  intro e h
  have hkeys := h
  rw [checkKeys_eq] at h
  dsimp only at h
  split_ifs at h
  · cases h
    exact .inl ⟨rfl, checkKeys_eq_keyNotText_iff.mp hkeys⟩
  · cases h
    exact .inr ⟨_, rfl⟩

theorem lookup_eq_valueAt (name : String) :
    settings.lookup name = valueAt name (entriesOf settings) := by
  induction settings with
  | nil => rfl
  | cons s settings ih =>
    obtain ⟨key, value⟩ := s
    rw [List.lookup_cons, ih]
    by_cases h : name = key
    · subst h
      simp [entriesOf, valueAt]
    · have hkey : ¬ Text.ofString key = Text.ofString name := fun heq =>
        h (by rw [← Text.toString_ofString name, ← heq, Text.toString_ofString])
      simp [entriesOf, valueAt, hkey, beq_eq_false_iff_ne.mpr h]

end Config

/-! ## Sections -/

namespace Settings

variable {settings : Settings} {sectionName name label : String} {α : Type} {default x : α}
  {ofValue? : Value → Option α}

/-- Every value can be written. -/
def Writable (settings : Settings) : Prop := ∀ s ∈ settings, s.2.isWritable

theorem mem_of_lookup_eq_some {value : Value} (h : settings.lookup name = some value) :
    (name, value) ∈ settings := by
  obtain ⟨l₁, l₂, rfl, -⟩ := List.lookup_eq_some_iff.mp h
  simp

theorem read_eq_ok (h : settings.read sectionName name label default ofValue? = .ok x) :
    x = default ∨ ∃ value, (name, value) ∈ settings ∧ ofValue? value = some x := by
  unfold read at h
  split at h
  · exact .inl (by cases h; rfl)
  · next value hvalue =>
    split at h
    · next y hy =>
      cases h
      exact .inr ⟨value, mem_of_lookup_eq_some hvalue, hy⟩
    · cases h

theorem Writable.read_failsIn (h : settings.Writable) :
    FailsIn (·.isWritable) (settings.read sectionName name label default ofValue?) := by
  unfold read
  split
  · exact .ok _
  · next value hvalue =>
    split
    · exact .ok _
    · exact .error (h _ (mem_of_lookup_eq_some hvalue))

/-- An integer that is read can be written, if the default can. -/
theorem Writable.isWritable_of_read_int {n d : Int} (h : settings.Writable)
    (hd : (Value.int d).isWritable) (hn : settings.read sectionName name label d int? = .ok n) :
    (Value.int n).isWritable := by
  obtain rfl | ⟨value, hmem, hvalue⟩ := read_eq_ok hn
  · exact hd
  · cases value with
    | int m =>
      cases hvalue
      exact h (name, .int n) hmem
    | _ => cases hvalue

/-- A number that is read can be written, if the default can. -/
theorem Writable.isWritable_of_read_number {n d : Number} (h : settings.Writable)
    (hd : d.value.isWritable) (hn : settings.read sectionName name label d number? = .ok n) :
    n.value.isWritable := by
  obtain rfl | ⟨value, hmem, hvalue⟩ := read_eq_ok hn
  · exact hd
  · cases value with
    | int m =>
      cases hvalue
      exact h (name, .int m) hmem
    | float y =>
      cases hvalue
      rfl
    | _ => cases hvalue

end Settings

theorem checkNotNegative_failsIn {name : String} {n : Number} (h : n.value.isWritable) :
    FailsIn (·.isWritable) (checkNotNegative name n) := by
  unfold checkNotNegative
  split
  · exact .error h
  · exact .ok _

variable {settings : Settings}

theorem OptimizerConfig.ofSettings_failsIn (h : settings.Writable) :
    FailsIn (·.isWritable) (OptimizerConfig.ofSettings settings) := by
  unfold OptimizerConfig.ofSettings
  refine .bind h.read_failsIn fun filterTranspose _ => ?_
  refine .bind h.read_failsIn fun projectTranspose _ => ?_
  refine .bind h.read_failsIn fun n hn => ?_
  refine .bind h.read_failsIn fun order _ => ?_
  have hn : (Value.int n).isWritable := h.isWritable_of_read_int (by decide +kernel) hn
  dsimp only
  split
  · exact .error (by rwa [Value.isWritable] at hn)
  · split
    · exact .error rfl
    · exact .ok _

theorem CostConfig.ofSettings_failsIn (h : settings.Writable) :
    FailsIn (·.isWritable) (CostConfig.ofSettings settings) := by
  unfold CostConfig.ofSettings
  refine .bind h.read_failsIn fun cpu hcpu => ?_
  refine .bind h.read_failsIn fun io hio => ?_
  refine .bind h.read_failsIn fun page hpage => ?_
  refine .bind h.read_failsIn fun rows hrows => ?_
  refine .bind h.read_failsIn fun width hwidth => ?_
  have hcpu := h.isWritable_of_read_number rfl hcpu
  have hio := h.isWritable_of_read_number rfl hio
  have hpage := h.isWritable_of_read_int (by decide +kernel) hpage
  have hrows := h.isWritable_of_read_int (by decide +kernel) hrows
  have hwidth := h.isWritable_of_read_int (by decide +kernel) hwidth
  dsimp only
  split
  · exact .error hpage
  · refine .bind (checkNotNegative_failsIn hcpu) fun _ _ => ?_
    refine .bind (checkNotNegative_failsIn hio) fun _ _ => ?_
    refine .bind (checkNotNegative_failsIn hrows) fun _ _ => ?_
    refine .bind (checkNotNegative_failsIn hwidth) fun _ _ => ?_
    exact .ok _

theorem LoggingConfig.ofSettings_failsIn (h : settings.Writable) :
    FailsIn (·.isWritable) (LoggingConfig.ofSettings settings) := by
  unfold LoggingConfig.ofSettings
  refine .bind h.read_failsIn fun level _ => ?_
  refine .bind h.read_failsIn fun structured _ => ?_
  refine .bind h.read_failsIn fun logFile _ => ?_
  exact .ok _

namespace Config

/-- The sections and the settings that each of them can have. -/
def sectionSettings : List (String × List String) :=
  [("optimizer", OptimizerConfig.settingNames), ("cost", CostConfig.settingNames),
    ("logging", LoggingConfig.settingNames)]

/-- A section that cannot be read, whatever its settings are. -/
inductive MalformedSection (known : List String) : Value → Prop where
  | notMap {value : Value} (hnull : value ≠ .null) (hmap : ∀ entries, value ≠ .map entries) :
      MalformedSection known value
  | unknownKey {entries : List (Value × Value)} {e : Value × Value} (he : e ∈ entries)
      (hkey : ∀ name ∈ known, e.1 ≠ .str (Text.ofString name)) :
      MalformedSection known (.map entries)

/-- If a value is a map, then its keys are text. -/
def KeyedByText (value : Value) : Prop := ∀ entries, value = .map entries → TextKeys entries

/-- The errors that a value can be refused with: one that says what is wrong, in a message that can
be written if the value can, or else the value has a key that is not text. -/
inductive Explained (writable keyedByText : Prop) : DocumentError → Prop where
  | config {cause : ConfigError} (h : writable → cause.isWritable) :
      Explained writable keyedByText (.config cause)
  | keyNotText (h : ¬ keyedByText) : Explained writable keyedByText .keyNotText

theorem Explained.mono {w w' k k' : Prop} (hw : w' → w) (hk : k' → k) {e : DocumentError} :
    Explained w k e → Explained w' k' e
  | config h => .config fun hw' => h (hw hw')
  | keyNotText h => .keyNotText fun hk' => h (hk hk')

theorem isWritable_of_mem_map {e : Value × Value} (h : (Value.map entries).isWritable)
    (he : e ∈ entries) : e.2.isWritable := by
  rw [Value.isWritable] at h
  induction entries with
  | nil => cases he
  | cons first entries ih =>
    obtain ⟨key, value⟩ := first
    simp only [Value.areWritableEntries, Bool.and_eq_true] at h
    obtain rfl | he := List.mem_cons.mp he
    · exact h.1.2
    · exact ih h.2 he

theorem writable_of_isWritable_map (h : (Value.map (entriesOf settings)).isWritable) :
    settings.Writable := fun s hs =>
  isWritable_of_mem_map (e := (.str s.1, s.2)) h (List.mem_map.mpr ⟨s, hs, rfl⟩)

section ReadSection

variable {α : Type} {sectionName : String} {default x : α} {value : Value}
  {ofSettings : Settings → Except ConfigError α}

/-- A section that is read is left out or has settings, all of them known. -/
theorem readSection_eq_ok
    (h : readSection sectionName known default ofSettings value = .ok x) :
    value = .null ∧ x = default ∨ ∃ settings, value = .map (entriesOf settings) ∧
      (∀ s ∈ settings, s.1 ∈ known) ∧ ofSettings settings = .ok x := by
  unfold readSection at h
  split at h
  · cases h
    exact .inl ⟨rfl, rfl⟩
  · obtain ⟨settings, hkeys, hsettings⟩ := bind_eq_ok_iff.mp h
    obtain ⟨rfl, hknown⟩ := checkKeys_eq_ok_iff.mp hkeys
    exact .inr ⟨settings, rfl, hknown, mapError_eq_ok_iff.mp hsettings⟩
  · cases h

theorem not_malformedSection_of_readSection
    (h : readSection sectionName known default ofSettings value = .ok x) :
    ¬ MalformedSection known value := by
  intro hmalformed
  obtain ⟨rfl, -⟩ | ⟨settings, rfl, hknown, -⟩ := readSection_eq_ok h
  · cases hmalformed with
    | notMap hnull _ => exact hnull rfl
  · cases hmalformed with
    | notMap _ hmap => exact hmap _ rfl
    | unknownKey he hkey =>
      obtain ⟨s, hs, rfl⟩ := List.mem_map.mp he
      exact hkey s.1 (hknown s hs) rfl

theorem readSection_failsIn
    (hof : ∀ settings : Settings, settings.Writable →
      FailsIn (·.isWritable) (ofSettings settings)) :
    FailsIn (Explained value.isWritable (KeyedByText value))
      (readSection sectionName known default ofSettings value) := by
  unfold readSection
  split
  · exact .ok _
  · refine .bind ?_ fun settings hsettings => ?_
    · rintro e he
      obtain ⟨rfl, hkeys⟩ | ⟨keys, rfl⟩ := checkKeys_failsIn e he
      · exact .keyNotText fun h => hkeys (h _ rfl)
      · exact .config fun _ => rfl
    · obtain ⟨rfl, -⟩ := checkKeys_eq_ok_iff.mp hsettings
      refine .mapError (P := fun e => settings.Writable → e.isWritable) ?_ fun e he => ?_
      · exact fun e he hwritable => hof settings hwritable e he
      · exact .config fun h => he (writable_of_isWritable_map h)
  · exact .error (.config fun _ => rfl)

end ReadSection

/-- A document that holds something else than settings by their sections. -/
inductive Malformed : Value → Prop where
  | notMap {document : Value} (hmap : ∀ entries, document ≠ .map entries)
      (hempty : document.isEmpty = false) : Malformed document
  | unknownSection {entries : List (Value × Value)} {e : Value × Value} (he : e ∈ entries)
      (hkey : ∀ s ∈ sectionSettings, e.1 ≠ .str (Text.ofString s.1)) : Malformed (.map entries)
  | malformedSection {entries : List (Value × Value)} {name : String} {known : List String}
      {value : Value} (hname : (name, known) ∈ sectionSettings)
      (hvalue : valueAt name entries = some value) (h : MalformedSection known value) :
      Malformed (.map entries)

/-- All keys of a document and of its sections are text. -/
structure FullyKeyedByText (document : Value) : Prop where
  keys : KeyedByText document
  sections : ∀ entries, document = .map entries → ∀ e ∈ entries, KeyedByText e.2

section OfDocument

variable {path : String} {document : Value} {config : Config}

/-- A document that is accepted is a map of sections, all of them known, or empty. -/
theorem ofDocument_eq_ok (h : ofDocument path document = .ok config) :
    ∃ settings : Settings,
      (document = .map (entriesOf settings) ∨
        (∀ entries, document ≠ .map entries) ∧ document.isEmpty ∧ settings = []) ∧
      (∀ s ∈ settings, s.1 ∈ ["optimizer", "cost", "logging"]) ∧
      optimizerSection (sectionValue settings "optimizer") = .ok config.optimizer ∧
      costSection (sectionValue settings "cost") = .ok config.cost ∧
      loggingSection (sectionValue settings "logging") = .ok config.logging := by
  obtain ⟨entries, hentries, h⟩ := bind_eq_ok_iff.mp h
  obtain ⟨settings, hkeys, h⟩ := bind_eq_ok_iff.mp h
  obtain ⟨optimizer, hoptimizer, h⟩ := bind_eq_ok_iff.mp h
  obtain ⟨cost, hcost, h⟩ := bind_eq_ok_iff.mp h
  obtain ⟨logging, hlogging, h⟩ := bind_eq_ok_iff.mp h
  cases h
  obtain ⟨rfl, hknown⟩ := checkKeys_eq_ok_iff.mp hkeys
  refine ⟨settings, ?_, hknown, hoptimizer, hcost, hlogging⟩
  unfold documentEntries at hentries
  split at hentries
  · cases hentries
    exact .inl rfl
  · next hmap =>
    split at hentries
    · next hempty =>
      have hnil : [] = entriesOf settings := Except.ok.inj hentries
      exact .inr ⟨hmap, hempty, List.map_eq_nil_iff.mp hnil.symm⟩
    · cases hentries

theorem not_malformed_of_ofDocument (h : ofDocument path document = .ok config) :
    ¬ Malformed document := by
  obtain ⟨settings, hdocument, hknown, hoptimizer, hcost, hlogging⟩ := ofDocument_eq_ok h
  intro hmalformed
  cases hmalformed with
  | notMap hmap hempty =>
    obtain rfl | ⟨-, hempty', -⟩ := hdocument
    · exact hmap _ rfl
    · exact absurd hempty' (by simp [hempty])
  | unknownSection he hkey =>
    obtain heq | ⟨hmap, -⟩ := hdocument
    · cases heq
      obtain ⟨s, hs, rfl⟩ := List.mem_map.mp he
      have := hknown s hs
      simp only [sectionSettings, List.mem_cons, List.not_mem_nil, or_false, forall_eq_or_imp,
        forall_eq] at hkey this
      obtain ⟨ho, hc, hl⟩ := hkey
      obtain h | h | h := this <;> simp_all
    · exact hmap _ rfl
  | malformedSection hname hvalue hsection =>
    obtain heq | ⟨hmap, -⟩ := hdocument
    · cases heq
      rw [← lookup_eq_valueAt] at hvalue
      simp only [sectionSettings, List.mem_cons, Prod.mk.injEq, List.not_mem_nil, or_false]
        at hname
      obtain ⟨rfl, rfl⟩ | ⟨rfl, rfl⟩ | ⟨rfl, rfl⟩ := hname
      · rw [sectionValue, hvalue] at hoptimizer
        exact not_malformedSection_of_readSection hoptimizer hsection
      · rw [sectionValue, hvalue] at hcost
        exact not_malformedSection_of_readSection hcost hsection
      · rw [sectionValue, hvalue] at hlogging
        exact not_malformedSection_of_readSection hlogging hsection
    · exact hmap _ rfl

/-- What holds of null and of the values of all sections holds of the value of each. -/
theorem forall_sectionValue {P : Value → Prop} (hnull : P .null) (h : ∀ s ∈ settings, P s.2)
    (name : String) : P (sectionValue settings name) := by
  unfold sectionValue
  cases hvalue : settings.lookup name with
  | none => exact hnull
  | some value => exact h _ (Settings.mem_of_lookup_eq_some hvalue)

theorem ofSections_failsIn :
    FailsIn (Explained settings.Writable (∀ s ∈ settings, KeyedByText s.2))
      (ofSections settings) := by
  have hwritable (name : String) (h : settings.Writable) :
      (sectionValue settings name).isWritable :=
    forall_sectionValue (P := fun v => v.isWritable) rfl h name
  have hkeyed (name : String) (h : ∀ s ∈ settings, KeyedByText s.2) :
      KeyedByText (sectionValue settings name) :=
    forall_sectionValue (fun _ h => nomatch h) h name
  refine .bind ?_ fun optimizer _ => .bind ?_ fun cost _ => .bind ?_ fun logging _ => .ok _
  · exact fun e he => (readSection_failsIn (fun _ => OptimizerConfig.ofSettings_failsIn) e he).mono
      (hwritable _) (hkeyed _)
  · exact fun e he => (readSection_failsIn (fun _ => CostConfig.ofSettings_failsIn) e he).mono
      (hwritable _) (hkeyed _)
  · exact fun e he => (readSection_failsIn (fun _ => LoggingConfig.ofSettings_failsIn) e he).mono
      (hwritable _) (hkeyed _)

/-- A document is refused with an error that says what is wrong, or for a key that is not text. -/
theorem ofDocument_failsIn :
    FailsIn (Explained document.isWritable (FullyKeyedByText document))
      (ofDocument path document) := by
  unfold ofDocument documentEntries
  split
  · next entries =>
    refine .bind (.ok entries) ?_
    rintro _ ⟨⟩
    refine .bind ?_ fun settings hsettings => ?_
    · rintro e he
      obtain ⟨rfl, hkeys⟩ | ⟨keys, rfl⟩ := checkKeys_failsIn e he
      · exact .keyNotText fun h => hkeys (h.keys _ rfl)
      · exact .config fun _ => rfl
    · obtain ⟨rfl, -⟩ := checkKeys_eq_ok_iff.mp hsettings
      intro e he
      refine (ofSections_failsIn e he).mono writable_of_isWritable_map fun h s hs => ?_
      exact h.sections _ rfl (.str s.1, s.2) (List.mem_map.mpr ⟨s, hs, rfl⟩)
  · split
    · -- An empty document has no sections, so every section takes its defaults.
      refine .bind (.ok []) ?_
      rintro _ ⟨⟩
      exact fun _ h => nomatch h
    · exact .error (.config fun _ => rfl)

theorem ofDocument_eq_keyNotText {entries : List (Value × Value)} (h : ¬ TextKeys entries) :
    ofDocument path (.map entries) = .error .keyNotText := by
  show (checkKeys _ _ entries >>= ofSections) = _
  rw [checkKeys_eq_keyNotText_iff.mpr h]
  rfl

end OfDocument

/-! ## Loading -/

section Loading

variable {Fault : Type} {parse : String → Except Fault Value} {text : String} {document : Value}

theorem load_eq_ofDocument (path : String) (h : parse text = .ok document) :
    load parse path (some text) = (ofDocument path document).mapError .document := by
  simp [load, h, Except.mapError, Bind.bind, Except.bind]

/-- A malformed document is not accepted, whatever parser it is read with. Every document is
accepted or reported, in a message that can be written unless an integer in the document is too long
for it, or has a key that is not text somewhere, in the document or in a section; if it is in the
document, that alone decides the answer. -/
theorem load_reports (path : String) (h : parse text = .ok document) :
    (Malformed document → ∀ config, load parse path (some text) ≠ .ok config) ∧
    ((∃ config, load parse path (some text) = .ok config) ∨
      (∃ cause, load parse path (some text) = .error (.document (.config cause)) ∧
        (document.isWritable → cause.isWritable)) ∨
      load parse path (some text) = .error (.document .keyNotText) ∧
        ¬ FullyKeyedByText document) ∧
    (¬ KeyedByText document → load parse path (some text) = .error (.document .keyNotText)) := by
  rw [load_eq_ofDocument path h]
  refine ⟨fun hmalformed config hok => ?_, ?_, fun hkeys => ?_⟩
  · exact not_malformed_of_ofDocument (mapError_eq_ok_iff.mp hok) hmalformed
  · cases hanswer : ofDocument path document with
    | ok config => exact .inl ⟨config, rfl⟩
    | error e =>
      cases ofDocument_failsIn e hanswer with
      | config hcause => exact .inr (.inl ⟨_, rfl, hcause⟩)
      | keyNotText hkeyed => exact .inr (.inr ⟨rfl, hkeyed⟩)
  · obtain ⟨entries, rfl, hentries⟩ : ∃ entries, document = .map entries ∧ ¬ TextKeys entries := by
      simpa [KeyedByText] using hkeys
    rw [ofDocument_eq_keyNotText hentries]
    rfl

end Loading

/-- A number in the place of a section is a document that the parser reads. -/
theorem numberForCost_eq :
    Yaml.load "cost: 3\n" = .ok (.map [(.str "cost", .int 3)]) := by
  have htokens : Yaml.Token.ofChars (Yaml.readable (Yaml.unifyBreaks "cost: 3\n".toList)) =
      { tokens := [.blockMapping, .key, .scalar "cost" true, .value, .scalar "3" true,
          .blockEnd] } := by cbv
  simp only [Yaml.load, htokens]
  with_unfolding_all rfl

theorem numberForCost_reports :
    ∃ cause, load Yaml.load "planner.yaml" (some "cost: 3\n") = .error (.document (.config cause)) ∧
      cause.isWritable := by
  have hkeyed : FullyKeyedByText (.map [(.str "cost", .int 3)]) := by
    constructor
    · rintro _ ⟨⟩ e he
      obtain rfl := List.mem_singleton.mp he
      exact ⟨_, rfl⟩
    · rintro _ ⟨⟩ e he
      obtain rfl := List.mem_singleton.mp he
      exact fun _ h => nomatch h
  obtain ⟨hmalformed, hanswer, -⟩ := load_reports "planner.yaml" numberForCost_eq
  have hcost : ("cost", CostConfig.settingNames) ∈ sectionSettings := by simp [sectionSettings]
  have hrefused := hmalformed (.malformedSection hcost rfl (.notMap (by simp) (by simp)))
  obtain ⟨config, hok⟩ | ⟨cause, hcause, hwritable⟩ | ⟨-, hkeys⟩ := hanswer
  · exact absurd hok (hrefused config)
  · exact ⟨cause, hcause, hwritable (by decide +kernel)⟩
  · exact absurd hkeyed hkeys

/-- A number for a key is no section, yet it is not reported as one. -/
theorem numberedSection_notReported :
    Yaml.load "1: 2\n" = .ok (.map [(.int 1, .int 2)]) ∧ Malformed (.map [(.int 1, .int 2)]) ∧
      ∀ cause,
        load Yaml.load "planner.yaml" (some "1: 2\n") ≠ .error (.document (.config cause)) := by
  have htokens : Yaml.Token.ofChars (Yaml.readable (Yaml.unifyBreaks "1: 2\n".toList)) =
      { tokens := [.blockMapping, .key, .scalar "1" true, .value, .scalar "2" true,
          .blockEnd] } := by cbv
  have hload : Yaml.load "1: 2\n" = .ok (.map [(.int 1, .int 2)]) := by
    simp only [Yaml.load, htokens]
    with_unfolding_all rfl
  have hkeys : ¬ TextKeys [(.int 1, .int 2)] := fun h => by
    simpa using h _ (List.mem_singleton_self _)
  refine ⟨hload, .unknownSection (List.mem_singleton_self _) (by simp), fun cause => ?_⟩
  simp [load_eq_ofDocument _ hload, ofDocument_eq_keyNotText hkeys, Except.mapError]

end Config

end Semijoin
