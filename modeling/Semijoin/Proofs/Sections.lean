import Semijoin.Optimizer
import Semijoin.Proofs.Estimates

/-!
# Sections that are accepted

A section is accepted just if it names nothing but its settings and every value is one that its
setting may have. It then holds what was given, and the defaults for the rest.
-/

namespace Semijoin

/-! ## Values of settings -/

namespace Value

def IsBool (v : Value) : Prop := ∃ b, v = .bool b

def IsIntFrom (least : Int) (v : Value) : Prop := ∃ n, v = .int n ∧ least ≤ n

def IsText (v : Value) : Prop := ∃ s, v = .str s

/-- A text that spells an order in any case. -/
def IsOrder (v : Value) : Prop := ∃ s, v = .str s ∧ capitals s ∈ ["BOTTOM_UP", "TOP_DOWN"]

/-- A number that is known not to be below zero. -/
def IsCost (v : Value) : Prop :=
  v.IsIntFrom 0 ∨ v = .float .posInf ∨ ∃ x q, v = .float x ∧ x.toRat? = some q ∧ 0 ≤ q

end Value

open Value

/-- What the settings of the optimizer may be. -/
def OptimizerConfig.Allows : String → Value → Prop
  | "enable_semi_anti_filter_transpose" => IsBool
  | "enable_semi_anti_project_transpose" => IsBool
  | "max_iterations" => IsIntFrom 1
  | "match_order" => IsOrder
  | _ => fun _ => False

/-- What the settings of the cost model may be. What is no number passes for a cost. -/
def CostConfig.Allows : String → Value → Prop
  | "cpu_tuple_cost" => fun v => v.IsCost ∨ v = .float .nan
  | "io_page_cost" => fun v => v.IsCost ∨ v = .float .nan
  | "page_size_bytes" => IsIntFrom 1
  | "default_row_count" => IsIntFrom 0
  | "default_column_width" => IsIntFrom 0
  | _ => fun _ => False

/-- What the settings of the log may be. -/
def LoggingConfig.Allows : String → Value → Prop
  | "level" => IsText
  | "structured" => IsBool
  | "log_file" => fun v => v = .null ∨ v.IsText
  | _ => fun _ => False

theorem MatchOrder.isSome_ofText?_iff {t : Text} :
    (MatchOrder.ofText? t).isSome ↔ capitals t ∈ ["BOTTOM_UP", "TOP_DOWN"] := by
  unfold ofText?
  split_ifs with hup hdown
  · simp [hup]
  · simp [hdown]
  · simp [hup, hdown]

/-- Not being below zero is less than being a cost. -/
theorem Number.isNegative_eq_false_iff {n : Number} :
    n.isNegative = false ↔ n.value.IsCost ∨ n.value = .float .nan := by
  cases n with
  | int n => simp [isNegative, value, IsCost, IsIntFrom]
  | float x =>
    cases x <;>
      simp [isNegative, value, IsCost, IsIntFrom, Binary64.lt, Binary64.zero, Binary64.toRat?]

theorem Number.exists_of_isCost_or_nan {v : Value} (h : v.IsCost ∨ v = .float .nan) :
    ∃ n : Number, v = n.value ∧ n.isNegative = false := by
  obtain ⟨n, hn⟩ : ∃ n : Number, v = n.value := by
    obtain (⟨n, rfl, -⟩ | rfl | ⟨x, q, rfl, -⟩) | rfl := h
    · exact ⟨.int n, rfl⟩
    · exact ⟨.float .posInf, rfl⟩
    · exact ⟨.float x, rfl⟩
    · exact ⟨.float .nan, rfl⟩
  exact ⟨n, hn, isNegative_eq_false_iff.mpr (hn ▸ h)⟩

namespace Settings

variable {settings : Settings} {sectionName name label : String} {α : Type} {default x : α}
  {ofValue? : Value → Option α} {toValue : α → Value}

/-- The settings that are given, and the defaults of the others. -/
def completedBy (settings defaults : Settings) : Settings :=
  defaults.map fun (name, default) => (name, (settings.lookup name).getD default)

/-- The settings under the texts of their names. -/
def byText (settings : Settings) : List (Text × Value) :=
  settings.map fun (name, value) => (Text.ofString name, value)

/-- A default is allowed, so only what is given is to be checked. -/
theorem forall_lookup_iff (settings : Settings) (name : String) (P : Value → Prop) (default : Value)
    (hdefault : P default) :
    (∀ v, settings.lookup name = some v → P v) ↔ P ((settings.lookup name).getD default) := by
  cases settings.lookup name <;> simp [hdefault]

theorem read_eq_ok_iff (h : ∀ v x, ofValue? v = some x ↔ v = toValue x) :
    settings.read sectionName name label default ofValue? = .ok x ↔
      (settings.lookup name).getD (toValue default) = toValue x := by
  unfold read
  cases settings.lookup name with
  | none =>
    constructor
    · rintro ⟨⟩
      rfl
    · intro heq
      have hx := (h _ x).mpr heq
      have hdefault := (h _ default).mpr rfl
      rw [Option.getD_none] at hx
      rw [hdefault] at hx
      rw [Option.some.inj hx]
  | some v =>
    rw [Option.getD_some, ← h v x]
    dsimp only
    cases ofValue? v <;> simp

theorem bool?_eq_some_iff (v : Value) (b : Bool) : bool? v = some b ↔ v = .bool b := by
  cases v <;> simp [bool?]

theorem int?_eq_some_iff (v : Value) (n : Int) : int? v = some n ↔ v = .int n := by
  cases v <;> simp [int?]

theorem number?_eq_some_iff (v : Value) (n : Number) : number? v = some n ↔ v = n.value := by
  cases v <;> cases n <;> simp [number?, Number.value]

theorem text?_eq_some_iff (v : Value) (s : Text) : text? v = some s ↔ v = .str s := by
  cases v <;> simp [text?]

theorem optionalText?_eq_some_iff (v : Value) (s : Option Text) :
    optionalText? v = some s ↔ v = (s.map Value.str).getD .null := by
  cases v <;> cases s <;> simp [optionalText?]

end Settings

variable {settings : Settings}

theorem OptimizerConfig.toSettings_eq_completedBy_iff {c : OptimizerConfig} :
    c.toSettings = settings.completedBy ({} : OptimizerConfig).toSettings ↔
      (settings.lookup "enable_semi_anti_filter_transpose").getD (.bool true) =
        .bool c.filterTranspose ∧
      (settings.lookup "enable_semi_anti_project_transpose").getD (.bool true) =
        .bool c.projectTranspose ∧
      (settings.lookup "max_iterations").getD (.int 10) = .int c.maxIterations ∧
      (settings.lookup "match_order").getD (.str ("BOTTOM_UP" : String)) = .str c.matchOrder := by
  simp [toSettings, Settings.completedBy, eq_comm]

theorem OptimizerConfig.ofSettings_eq_ok_iff {c : OptimizerConfig} :
    ofSettings settings = .ok c ↔
      c.toSettings = settings.completedBy ({} : OptimizerConfig).toSettings ∧
        1 ≤ c.maxIterations ∧ capitals c.matchOrder ∈ ["BOTTOM_UP", "TOP_DOWN"] := by
  rw [toSettings_eq_completedBy_iff, ← MatchOrder.isSome_ofText?_iff]
  unfold ofSettings
  simp only [bind_eq_ok_iff, Settings.read_eq_ok_iff Settings.bool?_eq_some_iff,
    Settings.read_eq_ok_iff Settings.int?_eq_some_iff,
    Settings.read_eq_ok_iff Settings.text?_eq_some_iff]
  constructor
  · rintro ⟨filter, hfilter, project, hproject, n, hn, order, horder, h⟩
    split at h
    · cases h
    · next hrange =>
      split at h
      · cases h
      · next horders =>
        cases h
        refine ⟨⟨hfilter, hproject, hn, horder⟩, by simpa using hrange, ?_⟩
        simpa [Option.isSome_iff_ne_none] using horders
  · rintro ⟨⟨hfilter, hproject, hn, horder⟩, hrange, horders⟩
    refine ⟨_, hfilter, _, hproject, _, hn, _, horder, ?_⟩
    rw [if_neg (by omega), if_neg (by simpa [Option.isSome_iff_ne_none] using horders)]
    rfl

theorem OptimizerConfig.returns_ofSettings_iff :
    Returns (ofSettings settings) ↔
      ∀ name ∈ settingNames, ∀ v, settings.lookup name = some v → Allows name v := by
  have hswitch (name : String) :=
    settings.forall_lookup_iff name IsBool (.bool true) ⟨true, rfl⟩
  have hiterations :=
    settings.forall_lookup_iff "max_iterations" (IsIntFrom 1) (.int 10) ⟨10, rfl, by decide⟩
  have horders :=
    settings.forall_lookup_iff "match_order" IsOrder (.str ("BOTTOM_UP" : String))
      ⟨_, rfl, by decide⟩
  simp only [settingNames, List.forall_mem_cons, Allows, hswitch, hiterations, horders]
  simp only [Returns, ofSettings_eq_ok_iff, toSettings_eq_completedBy_iff]
  constructor
  · rintro ⟨c, ⟨hfilter, hproject, hn, horder⟩, hrange, hcapitals⟩
    exact ⟨⟨_, hfilter⟩, ⟨_, hproject⟩, ⟨_, hn, hrange⟩, ⟨_, horder, hcapitals⟩, by simp⟩
  · rintro ⟨⟨filter, hfilter⟩, ⟨project, hproject⟩, ⟨n, hn, hrange⟩, ⟨order, horder, hcapitals⟩, -⟩
    exact ⟨⟨filter, project, n, order⟩, ⟨hfilter, hproject, hn, horder⟩, hrange, hcapitals⟩

theorem CostConfig.toSettings_eq_completedBy_iff {c : CostConfig} :
    c.toSettings = settings.completedBy ({} : CostConfig).toSettings ↔
      (settings.lookup "cpu_tuple_cost").getD ({} : CostConfig).cpuTupleCost.value =
        c.cpuTupleCost.value ∧
      (settings.lookup "io_page_cost").getD ({} : CostConfig).ioPageCost.value =
        c.ioPageCost.value ∧
      (settings.lookup "page_size_bytes").getD (.int 8192) = .int c.pageSizeBytes ∧
      (settings.lookup "default_row_count").getD (.int 1000) = .int c.defaultRowCount ∧
      (settings.lookup "default_column_width").getD (.int 8) = .int c.defaultColumnWidth := by
  simp [toSettings, Settings.completedBy, eq_comm]

theorem CostConfig.ofSettings_eq_ok_iff {c : CostConfig} :
    ofSettings settings = .ok c ↔
      c.toSettings = settings.completedBy ({} : CostConfig).toSettings ∧ c.InRange := by
  rw [toSettings_eq_completedBy_iff]
  unfold ofSettings
  simp only [bind_eq_ok_iff, Settings.read_eq_ok_iff Settings.number?_eq_some_iff,
    Settings.read_eq_ok_iff Settings.int?_eq_some_iff]
  constructor
  · rintro ⟨cpu, hcpu, io, hio, page, hpage, rows, hrows, width, hwidth, h⟩
    split at h
    · cases h
    · next hpositive =>
      obtain ⟨_, hcpu', h⟩ := bind_eq_ok_iff.mp h
      obtain ⟨_, hio', h⟩ := bind_eq_ok_iff.mp h
      obtain ⟨_, hrows', h⟩ := bind_eq_ok_iff.mp h
      obtain ⟨_, hwidth', h⟩ := bind_eq_ok_iff.mp h
      cases h
      rw [checkNotNegative_eq_ok_iff] at hcpu' hio' hrows' hwidth'
      refine ⟨⟨hcpu, hio, hpage, hrows, hwidth⟩, ?_⟩
      exact {
        pageSize := Int.not_le.mp hpositive
        cpuCost := hcpu'
        ioCost := hio'
        rowCount := Number.isNegative_int_eq_false_iff.mp hrows'
        columnWidth := Number.isNegative_int_eq_false_iff.mp hwidth' }
  · rintro ⟨⟨hcpu, hio, hpage, hrows, hwidth⟩, hrange⟩
    refine ⟨_, hcpu, _, hio, _, hpage, _, hrows, _, hwidth, ?_⟩
    rw [if_neg (Int.not_le.mpr hrange.pageSize), checkNotNegative_eq_ok_iff.mpr hrange.cpuCost,
      checkNotNegative_eq_ok_iff.mpr hrange.ioCost,
      checkNotNegative_eq_ok_iff.mpr (Number.isNegative_int_eq_false_iff.mpr hrange.rowCount),
      checkNotNegative_eq_ok_iff.mpr (Number.isNegative_int_eq_false_iff.mpr hrange.columnWidth)]
    rfl

theorem CostConfig.returns_ofSettings_iff :
    Returns (ofSettings settings) ↔
      ∀ name ∈ settingNames, ∀ v, settings.lookup name = some v → Allows name v := by
  have hcost (name : String) {d : Number} (hd : d.isNegative = false) :=
    settings.forall_lookup_iff name (fun v => v.IsCost ∨ v = .float .nan) d.value
      (Number.isNegative_eq_false_iff.mp hd)
  have hint (name : String) {least d : Int} (hd : least ≤ d) :=
    settings.forall_lookup_iff name (IsIntFrom least) (.int d) ⟨d, rfl, hd⟩
  simp only [settingNames, List.forall_mem_cons, Allows,
    hcost "cpu_tuple_cost" inRange_default.cpuCost, hcost "io_page_cost" inRange_default.ioCost,
    hint "page_size_bytes" (by decide : (1 : Int) ≤ 8192),
    hint "default_row_count" (by decide : (0 : Int) ≤ 1000),
    hint "default_column_width" (by decide : (0 : Int) ≤ 8)]
  simp only [Returns, ofSettings_eq_ok_iff, toSettings_eq_completedBy_iff]
  constructor
  · rintro ⟨c, ⟨hcpu, hio, hpage, hrows, hwidth⟩, hrange⟩
    refine ⟨?_, ?_, ⟨_, hpage, hrange.pageSize⟩, ⟨_, hrows, hrange.rowCount⟩,
      ⟨_, hwidth, hrange.columnWidth⟩, by simp⟩
    · exact hcpu ▸ Number.isNegative_eq_false_iff.mp hrange.cpuCost
    · exact hio ▸ Number.isNegative_eq_false_iff.mp hrange.ioCost
  · rintro ⟨hcpu, hio, ⟨page, hpage, hpositive⟩, ⟨rows, hrows, hrows'⟩, ⟨width, hwidth, hwidth'⟩, -⟩
    obtain ⟨cpu, hcpu, hcpu'⟩ := Number.exists_of_isCost_or_nan hcpu
    obtain ⟨io, hio, hio'⟩ := Number.exists_of_isCost_or_nan hio
    exact ⟨⟨cpu, io, page, rows, width⟩, ⟨hcpu, hio, hpage, hrows, hwidth⟩,
      ⟨hpositive, hcpu', hio', hrows', hwidth'⟩⟩

theorem LoggingConfig.toSettings_eq_completedBy_iff {c : LoggingConfig} :
    c.toSettings = settings.completedBy ({} : LoggingConfig).toSettings ↔
      (settings.lookup "level").getD (.str ("INFO" : String)) = .str c.level ∧
      (settings.lookup "structured").getD (.bool false) = .bool c.structured ∧
      (settings.lookup "log_file").getD .null = (c.logFile.map Value.str).getD .null := by
  simp [toSettings, Settings.completedBy, eq_comm]

theorem LoggingConfig.ofSettings_eq_ok_iff {c : LoggingConfig} :
    ofSettings settings = .ok c ↔
      c.toSettings = settings.completedBy ({} : LoggingConfig).toSettings := by
  rw [toSettings_eq_completedBy_iff]
  unfold ofSettings
  simp only [bind_eq_ok_iff, Settings.read_eq_ok_iff Settings.bool?_eq_some_iff,
    Settings.read_eq_ok_iff Settings.optionalText?_eq_some_iff,
    Settings.read_eq_ok_iff Settings.text?_eq_some_iff]
  constructor
  · rintro ⟨level, hlevel, structured, hstructured, file, hfile, h⟩
    cases h
    exact ⟨hlevel, hstructured, hfile⟩
  · rintro ⟨hlevel, hstructured, hfile⟩
    exact ⟨_, hlevel, _, hstructured, _, hfile, rfl⟩

theorem LoggingConfig.returns_ofSettings_iff :
    Returns (ofSettings settings) ↔
      ∀ name ∈ settingNames, ∀ v, settings.lookup name = some v → Allows name v := by
  have hlevel :=
    settings.forall_lookup_iff "level" IsText (.str ("INFO" : String)) ⟨_, rfl⟩
  have hstructured :=
    settings.forall_lookup_iff "structured" IsBool (.bool false) ⟨false, rfl⟩
  have hfile :=
    settings.forall_lookup_iff "log_file" (fun v => v = .null ∨ v.IsText) .null (.inl rfl)
  simp only [settingNames, List.forall_mem_cons, Allows, hlevel, hstructured, hfile]
  simp only [Returns, ofSettings_eq_ok_iff, toSettings_eq_completedBy_iff]
  constructor
  · rintro ⟨c, hlevel, hstructured, hfile⟩
    refine ⟨⟨_, hlevel⟩, ⟨_, hstructured⟩, ?_, by simp⟩
    rw [hfile]
    cases c.logFile with
    | none => exact .inl rfl
    | some path => exact .inr ⟨path, rfl⟩
  · rintro ⟨⟨level, hlevel⟩, ⟨structured, hstructured⟩, hnull | ⟨path, hpath⟩, -⟩
    · exact ⟨⟨level, structured, none⟩, hlevel, hstructured, hnull⟩
    · exact ⟨⟨level, structured, some path⟩, hlevel, hstructured, hpath⟩

namespace Config

variable {α : Type} {entries : List (Text × Value)}

/-- The value of a section that has text for its keys. -/
def sectionOf (entries : List (Text × Value)) : Value :=
  .map (entries.map fun (name, value) => (.str name, value))

/-- A section with text for its keys is accepted just if it names nothing but settings and gives
them values that they may have. It then holds these values, and the defaults for the rest. Otherwise
it is refused in a message that can be written if the section can. -/
structure AcceptsJust (read : Value → Except DocumentError α) (toSettings : α → Settings)
    (default : α) (Allows : String → Value → Prop) (entries : List (Text × Value)) : Prop where
  accepts : (∃ c, read (sectionOf entries) = .ok c) ↔
    ∀ name v, entries.lookup name = some v → ∃ known, name = Text.ofString known ∧ Allows known v
  holds : ∀ c, read (sectionOf entries) = .ok c →
    toSettings c = (toSettings default).map fun (name, value) =>
      (name, (entries.lookup (Text.ofString name)).getD value)
  refuses : ∀ e, read (sectionOf entries) = .error e →
    ∃ cause, e = .config cause ∧ ((sectionOf entries).isWritable → cause.isWritable)

theorem ofString_injective : Function.Injective Text.ofString := fun s t h => by
  rw [← Text.toString_ofString s, h, Text.toString_ofString]

theorem sectionOf_byText (settings : Settings) :
    sectionOf settings.byText = .map (entriesOf settings) := by
  simp [sectionOf, entriesOf, Settings.byText]

theorem sectionOf_injective : Function.Injective sectionOf := by
  intro entries entries' h
  have hinjective : Function.Injective fun (e : Text × Value) => (Value.str e.1, e.2) := by
    rintro ⟨name, value⟩ ⟨name', value'⟩ h
    simpa using h
  exact List.map_injective_iff.mpr hinjective (Value.map.inj h)

theorem lookup_byText (settings : Settings) (name : String) :
    settings.byText.lookup (Text.ofString name) = settings.lookup name := by
  unfold Settings.byText
  induction settings with
  | nil => rfl
  | cons s settings ih =>
    obtain ⟨key, value⟩ := s
    by_cases h : name = key
    · simp [h]
    · have hkey : Text.ofString name ≠ Text.ofString key := fun heq => h (ofString_injective heq)
      simp [List.lookup_cons, beq_eq_false_iff_ne.mpr h, beq_eq_false_iff_ne.mpr hkey, ih]

theorem exists_lookup_of_mem {e : Text × Value} (h : e ∈ entries) :
    ∃ v, entries.lookup e.1 = some v :=
  Option.isSome_iff_exists.mp (List.lookup_isSome_iff.mpr ⟨e, h, beq_self_eq_true _⟩)

theorem exists_name_of_lookup_byText {settings : Settings} {name : Text} {v : Value}
    (h : settings.byText.lookup name = some v) :
    ∃ s ∈ settings, Text.ofString s.1 = name := by
  obtain ⟨before, after, heq, -⟩ := List.lookup_eq_some_iff.mp h
  have hmem : (name, v) ∈ settings.byText := by
    rw [heq]
    simp
  obtain ⟨s, hs, hname⟩ := List.mem_map.mp hmem
  exact ⟨s, hs, (Prod.mk.inj hname).1⟩

theorem keyedByText_sectionOf : KeyedByText (sectionOf entries) := by
  rintro _ ⟨⟩ e he
  obtain ⟨⟨name, value⟩, -, rfl⟩ := List.mem_map.mp he
  exact ⟨name, rfl⟩

/-- Names that are all known come from settings. -/
theorem exists_settings (h : ∀ e ∈ entries, ∃ name, e.1 = Text.ofString name) :
    ∃ settings : Settings, entries = settings.byText := by
  induction entries with
  | nil => exact ⟨[], rfl⟩
  | cons e entries ih =>
    obtain ⟨name, hname⟩ := h e (by simp)
    obtain ⟨settings, rfl⟩ := ih fun e he => h e (by simp [he])
    exact ⟨(name, e.2) :: settings, by simp [Settings.byText, ← hname]⟩

section ReadSection

variable {sectionName : String} {known : List String} {default : α}
  {ofSettings : Settings → Except ConfigError α} {toSettings : α → Settings}
  {Allows : String → Value → Prop}

theorem readSection_eq_ok_of_settings {settings : Settings} {c : α}
    (hnames : ∀ s ∈ settings, s.1 ∈ known) (hc : ofSettings settings = .ok c) :
    readSection sectionName known default ofSettings (sectionOf settings.byText) = .ok c := by
  rw [sectionOf_byText]
  have hkeys : checkKeys known (.unknownKeys sectionName) (entriesOf settings) = .ok settings :=
    checkKeys_eq_ok_iff.mpr ⟨rfl, hnames⟩
  exact bind_eq_ok_iff.mpr ⟨settings, hkeys, mapError_eq_ok_iff.mpr hc⟩

theorem acceptsJust_readSection
    (hknown : ∀ name v, Allows name v → name ∈ known)
    (hreturns : ∀ settings, Returns (ofSettings settings) ↔
      ∀ name ∈ known, ∀ v, settings.lookup name = some v → Allows name v)
    (hholds : ∀ settings c, ofSettings settings = .ok c →
      toSettings c = settings.completedBy (toSettings default))
    (hfails : ∀ settings : Settings, settings.Writable →
      FailsIn (·.isWritable) (ofSettings settings)) :
    AcceptsJust (readSection sectionName known default ofSettings) toSettings default Allows
      entries where
  accepts := by
    constructor
    · rintro ⟨c, hc⟩ name v hlookup
      obtain ⟨hnull, -⟩ | ⟨settings, heq, hnames, hok⟩ := readSection_eq_ok hc
      · cases hnull
      · obtain rfl := sectionOf_injective (heq.trans (sectionOf_byText settings).symm)
        obtain ⟨s, hs, rfl⟩ := exists_name_of_lookup_byText hlookup
        rw [lookup_byText] at hlookup
        exact ⟨s.1, rfl, (hreturns settings).mp ⟨c, hok⟩ s.1 (hnames s hs) v hlookup⟩
    · intro h
      have hnamed : ∀ e ∈ entries, ∃ name, e.1 = Text.ofString name := fun e he => by
        obtain ⟨v, hv⟩ := exists_lookup_of_mem he
        obtain ⟨name, hname, -⟩ := h e.1 v hv
        exact ⟨name, hname⟩
      obtain ⟨settings, rfl⟩ := exists_settings hnamed
      have hallows : ∀ name v, settings.lookup name = some v → Allows name v := fun name v hv => by
        obtain ⟨name', hname, hallows⟩ := h _ v ((lookup_byText settings name).trans hv)
        exact ofString_injective hname ▸ hallows
      have hnames : ∀ s ∈ settings, s.1 ∈ known := fun s hs => by
        have hentry : (Text.ofString s.1, s.2) ∈ settings.byText := List.mem_map.mpr ⟨s, hs, rfl⟩
        obtain ⟨v, hv⟩ := exists_lookup_of_mem hentry
        exact hknown s.1 v (hallows s.1 v ((lookup_byText settings s.1).symm.trans hv))
      obtain ⟨c, hc⟩ := (hreturns settings).mpr fun name _ v hv => hallows name v hv
      exact ⟨c, readSection_eq_ok_of_settings hnames hc⟩
  holds c h := by
    obtain ⟨hnull, -⟩ | ⟨settings, heq, hknown, hok⟩ := readSection_eq_ok h
    · cases hnull
    · obtain rfl := sectionOf_injective (heq.trans (sectionOf_byText settings).symm)
      simp only [lookup_byText]
      exact hholds settings c hok
  refuses e h := by
    cases readSection_failsIn hfails e h with
    | config hcause => exact ⟨_, rfl, hcause⟩
    | keyNotText hkeys => exact absurd keyedByText_sectionOf hkeys

end ReadSection

theorem acceptsJust_optimizerSection :
    AcceptsJust optimizerSection OptimizerConfig.toSettings {} OptimizerConfig.Allows entries := by
  refine acceptsJust_readSection ?_ (fun _ => OptimizerConfig.returns_ofSettings_iff) ?_
    fun _ => OptimizerConfig.ofSettings_failsIn
  · intro name v h
    unfold OptimizerConfig.Allows at h
    split at h <;> simp_all [OptimizerConfig.settingNames]
  · exact fun settings c h => (OptimizerConfig.ofSettings_eq_ok_iff.mp h).1

theorem acceptsJust_costSection :
    AcceptsJust costSection CostConfig.toSettings {} CostConfig.Allows entries := by
  refine acceptsJust_readSection ?_ (fun _ => CostConfig.returns_ofSettings_iff) ?_
    fun _ => CostConfig.ofSettings_failsIn
  · intro name v h
    unfold CostConfig.Allows at h
    split at h <;> simp_all [CostConfig.settingNames]
  · exact fun settings c h => (CostConfig.ofSettings_eq_ok_iff.mp h).1

theorem acceptsJust_loggingSection :
    AcceptsJust loggingSection LoggingConfig.toSettings {} LoggingConfig.Allows entries := by
  refine acceptsJust_readSection ?_ (fun _ => LoggingConfig.returns_ofSettings_iff) ?_
    fun _ => LoggingConfig.ofSettings_failsIn
  · intro name v h
    unfold LoggingConfig.Allows at h
    split at h <;> simp_all [LoggingConfig.settingNames]
  · exact fun settings c h => LoggingConfig.ofSettings_eq_ok_iff.mp h

/-- An optimizer can be built from what an accepted section says. -/
theorem exists_ofConfig?_of_optimizerSection {value : Value} {c : OptimizerConfig}
    (h : optimizerSection value = .ok c) :
    ∃ o, Optimizer.ofConfig? c = some o ∧ MatchOrder.ofText? c.matchOrder = some o.matchOrder := by
  have hsome : (MatchOrder.ofText? c.matchOrder).isSome := by
    obtain ⟨-, rfl⟩ | ⟨settings, -, -, hok⟩ := readSection_eq_ok h
    · decide
    · exact MatchOrder.isSome_ofText?_iff.mpr (OptimizerConfig.ofSettings_eq_ok_iff.mp hok).2.2
  obtain ⟨order, horder⟩ := Option.isSome_iff_exists.mp hsome
  exact ⟨_, by rw [Optimizer.ofConfig?, horder]; rfl, horder⟩

/-- Each of the three sections is accepted just if it gives its settings values that they may have,
where what is no number passes for a cost. An optimizer can be built from what is accepted. -/
theorem sections_accept_just (entries : List (Text × Value)) :
    AcceptsJust optimizerSection OptimizerConfig.toSettings {} OptimizerConfig.Allows entries ∧
    AcceptsJust costSection CostConfig.toSettings {} CostConfig.Allows entries ∧
    AcceptsJust loggingSection LoggingConfig.toSettings {} LoggingConfig.Allows entries ∧
    ∀ c, optimizerSection (sectionOf entries) = .ok c →
      ∃ o, Optimizer.ofConfig? c = some o ∧ MatchOrder.ofText? c.matchOrder = some o.matchOrder :=
  ⟨acceptsJust_optimizerSection, acceptsJust_costSection, acceptsJust_loggingSection,
    fun _ => exists_ofConfig?_of_optimizerSection⟩

/-- A cost that is no number is accepted, although it is not known to be above zero. -/
theorem nanCost_accepted :
    (∃ c, costSection (sectionOf [("cpu_tuple_cost", .float .nan)]) = .ok c ∧
      c.cpuTupleCost = .float .nan) ∧ ¬ (Value.float .nan).IsCost := by
  refine ⟨⟨_, rfl, rfl⟩, ?_⟩
  simp [IsCost, IsIntFrom, Binary64.toRat?]

end Config

end Semijoin
