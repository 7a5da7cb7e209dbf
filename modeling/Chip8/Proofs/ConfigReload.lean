import Chip8.Proofs.ConfigOutcome

/-! # Configurations loaded again

A loaded configuration is a mapping with all settings, which is itself a source. Loaded again it
gives the same configuration, and so does its dialect alone, so it makes no difference how often a
configuration is loaded on its way to the machine.
-/

namespace Chip8.Config

variable {reader : Reader} {files : Files} {source : Source} {c : Config}

/-- The settings of a machine that is made under the configuration of a source: the configuration
is loaded, and its dialect is loaded once more by itself. -/
def prepare (reader : Reader) (files : Files) (source : Source) : Except LoadProblem Settings := do
  let config ← load reader files source
  let again ← load reader files (.mapping [(.text "quirks", dialectValue config.settings.dialect)])
  return { config.settings with dialect := again.settings.dialect }

theorem dialect_dialectValue (d : Dialect) : dialect reader (dialectValue d) = .ok d := rfl

/-- What a configuration says of its settings is what they are. -/
theorem gives_toEntries (reader : Reader) (c : Config) : Gives reader c.toEntries c.settings where
  cycles := rfl
  rate := rfl
  limit := rfl
  seed := by
    obtain ⟨⟨_, _, _, seed, _, _⟩, _⟩ := c
    cases seed <;> rfl
  lenient := rfl
  dialect := dialect_dialectValue c.settings.dialect

/-- Settings that make sense are taken as they are. -/
theorem eq_of_checked {s s' : Settings} (sensible : checked s = .ok s') : s' = s := by
  unfold checked at sensible
  split at sensible
  · cases sensible
  · split at sensible
    · cases sensible
    · split at sensible
      · cases sensible
      · exact (Except.ok.inj sensible).symm

/-- A configuration as a load leaves it: its settings make sense, and its other entries are those
of no setting, which their keys tell without an error. -/
structure Loaded (c : Config) : Prop where
  sensible : checked c.settings = .ok c.settings
  others : ∀ entry ∈ c.extra, isSettingName entry.1 = false
  comparable : ¬ Clashes settingNames c.extra

theorem not_clashes_nil (names : List String) : ¬ Clashes names [] := by
  rintro ⟨entry, member, -⟩
  cases member

/-- Texts are compared without an error. -/
theorem not_clashes_cons_text {names : List String} {entries : List (Value × Value)}
    (comparable : ¬ Clashes names entries) (name : String) (v : Value) :
    ¬ Clashes names ((.text name, v) :: entries) := by
  rintro ⟨entry, member, error, raised⟩
  obtain rfl | member := List.mem_cons.mp member
  · cases raised
  · exact comparable ⟨entry, member, error, raised⟩

theorem ofEntries_of_sensible {entries : List (Value × Value)} {s : Settings}
    (comparable : ¬ Clashes settingNames entries) (gives : Gives reader entries s)
    (sensible : checked s = .ok s) :
    ofEntries reader entries = .ok ⟨s, entries.filter fun entry => !isSettingName entry.1⟩ := by
  obtain ⟨-, compared⟩ | ⟨clash, -⟩ := compareKeys_cases settingNames entries
  · rw [ofEntries, compared, (settingsOf_eq_ok entries s).mpr gives]
    simp only [bind, Except.bind, sensible]
    rfl
  · exact absurd clash comparable

/-- A configuration that is made of entries has the settings that these give, which make sense, and
the entries of no setting. -/
theorem gives_of_ofEntries {entries : List (Value × Value)}
    (accepted : ofEntries reader entries = .ok c) :
    Gives reader entries c.settings ∧ checked c.settings = .ok c.settings ∧
      c.extra = entries.filter fun entry => !isSettingName entry.1 := by
  obtain ⟨_, -, accepted⟩ := (bind_eq_ok ..).mp accepted
  obtain ⟨s, read, judged⟩ := (bind_eq_ok ..).mp accepted
  obtain ⟨s', isChecked, made⟩ := (bind_eq_ok ..).mp judged
  obtain rfl := Except.ok.inj made
  cases sensible : checked s with
  | error rejection =>
    rw [sensible] at isChecked
    cases isChecked
  | ok s'' =>
    rw [sensible] at isChecked
    obtain rfl := Except.ok.inj isChecked
    obtain rfl := eq_of_checked sensible
    exact ⟨(settingsOf_eq_ok entries s'').mp read, sensible, rfl⟩

theorem loaded_of_ofEntries {entries : List (Value × Value)}
    (accepted : ofEntries reader entries = .ok c) : Loaded c := by
  obtain ⟨-, sensible, others⟩ := gives_of_ofEntries accepted
  refine ⟨sensible, fun entry member => ?_, ?_⟩
  · rw [others] at member
    simpa using (List.mem_filter.mp member).2
  · rintro ⟨entry, member, error, raised⟩
    rw [others] at member
    obtain ⟨_, compared, -⟩ := (bind_eq_ok ..).mp accepted
    obtain ⟨comparable, -⟩ | ⟨-, _, failed⟩ := compareKeys_cases settingNames entries
    · exact comparable ⟨entry, (List.mem_filter.mp member).1, error, raised⟩
    · rw [failed] at compared
      cases compared

theorem loaded_of_load (accepted : load reader files source = .ok c) : Loaded c := by
  cases source with
  | default => exact loaded_of_ofEntries accepted
  | mapping entries => exact loaded_of_ofEntries accepted
  | file path =>
    rw [load] at accepted
    unfold ofFile at accepted
    split at accepted
    · cases accepted
    · cases accepted
    · obtain ⟨entries, -, read⟩ := (bind_eq_ok ..).mp accepted
      exact loaded_of_ofEntries read
  | unsupported => cases accepted

/-- What a loaded configuration has besides its settings are the entries of no setting. -/
theorem Loaded.filter_toEntries (loaded : Loaded c) :
    c.toEntries.filter (fun entry => !isSettingName entry.1) = c.extra := by
  have kept : c.extra.filter (fun entry => !isSettingName entry.1) = c.extra := by
    apply List.filter_eq_self.mpr
    intro entry member
    rw [loaded.others entry member]
    rfl
  rw [toEntries, List.filter_append, kept]
  rfl

/-- A loaded configuration is loaded again as it is. -/
theorem Loaded.ofEntries_toEntries (loaded : Loaded c) : ofEntries reader c.toEntries = .ok c := by
  have comparable : ¬ Clashes settingNames c.toEntries := by
    iterate 6 apply not_clashes_cons_text
    exact loaded.comparable
  rw [ofEntries_of_sensible comparable (gives_toEntries reader c) loaded.sensible,
    loaded.filter_toEntries]

/-- Without a source all settings have their defaults. -/
theorem load_default (reader : Reader) (files : Files) :
    load reader files .default = .ok ⟨{}, []⟩ := by
  have rate : ¬ (60 : Float) ≤ 0 := by decide
  have sensible : checked {} = .ok {} := by simp [checked, rate]
  exact ofEntries_of_sensible (not_clashes_nil _) ⟨rfl, rfl, rfl, rfl, rfl, rfl⟩ sensible

/-- A dialect alone is a configuration too, with defaults for the rest. -/
theorem load_dialectValue (reader : Reader) (files : Files) (d : Dialect) :
    load reader files (.mapping [(.text "quirks", dialectValue d)]) =
      .ok ⟨{ dialect := d }, []⟩ := by
  have rate : ¬ (60 : Float) ≤ 0 := by decide
  have sensible : checked { dialect := d } = .ok { dialect := d } := by simp [checked, rate]
  exact ofEntries_of_sensible (not_clashes_cons_text (not_clashes_nil _) "quirks" _)
    ⟨rfl, rfl, rfl, rfl, rfl, dialect_dialectValue d⟩ sensible

/-- A machine has the settings of the configuration that its source gives. -/
theorem prepare_of_load (accepted : load reader files source = .ok c) :
    prepare reader files source = .ok c.settings := by
  rw [prepare, accepted]
  simp only [bind, Except.bind, load_dialectValue]
  rfl

end Chip8.Config
