import Chip8.Proofs.ConfigReload

/-! # The normal form of configurations

Whatever mapping a configuration is loaded from, its entries have one form: each setting has a value
of its kind, the dialect has a position for each switch, what was not given has its default, and
what is not known is kept. A mapping in this form is loaded as it is.
-/

namespace Chip8.Config

/-- The entries of a mapping have different keys. -/
def IsDistinct (entries : List (Value × Value)) : Prop :=
  entries.Pairwise fun a b => a.1.sameKey b.1 = false

/-- The entries of a configuration for which nothing is given. -/
def defaultEntries : List (String × Value) :=
  [("cycles_per_frame", .int 10), ("frame_rate", .float 60), ("frame_limit", .int 600),
    ("seed", .null), ("lenient_log", .bool false),
    ("quirks", .mapping [(.text "borrow_flag_inverted", .bool false),
      (.text "clip_sprites", .bool true), (.text "index_overflow_flag", .bool false),
      (.text "load_store_increments_index", .bool false), (.text "shift_uses_vy", .bool false)])]

/-- The switches that are given, if any are. -/
def switchesGiven (entries : List (Value × Value)) : List (Value × Value) :=
  match Value.lookup entries "quirks" with
  | some (.mapping switches) => switches
  | _ => []

def unknownEntries (entries : List (Value × Value)) : List (Value × Value) :=
  entries.filter fun entry => !isSettingName entry.1

/-- The entries of a configuration are in normal form, for the entries that were given. -/
structure IsNormalForm (given normal : List (Value × Value)) : Prop where
  cycles : ∃ z, Value.lookup normal "cycles_per_frame" = some (.int z) ∧ 0 < z
  limit : ∃ z, Value.lookup normal "frame_limit" = some (.int z) ∧ 0 ≤ z
  /-- A frame rate by which one can be divided. -/
  rate : ∃ x, Value.lookup normal "frame_rate" = some (.float x) ∧ ¬ x ≤ 0 ∧ (x == 0) = false
  seed : Value.lookup normal "seed" = some .null ∨ ∃ z, Value.lookup normal "seed" = some (.int z)
  lenient : ∃ b, Value.lookup normal "lenient_log" = some (.bool b)
  /-- Each switch has a position: the given one, or else the canonical one. -/
  switches : ∃ positions, Value.lookup normal "quirks" = some (.mapping positions) ∧
    positions.map (·.1) = Switch.all.map (fun s => .text s.name) ∧
    ∀ s : Switch, ∃ b, Value.lookup positions s.name = some (.bool b) ∧
      .bool b = (Value.lookup (switchesGiven given) s.name).getD (.bool (s.get {}))
  /-- A known entry that is not given has its default. -/
  defaults : ∀ entry ∈ defaultEntries, Value.lookup given entry.1 = none →
    Value.lookup normal entry.1 = some entry.2
  /-- What is not known is kept. -/
  unknown : unknownEntries normal = unknownEntries given

section Rate

open Float.Model

/-- A decimal that is equal to zero is at most zero. -/
theorem float_le_of_beq {x : Float} (zero : (x == 0) = true) : x ≤ 0 := by
  have equal : (x == 0) = x.toModel.unpack.beq (0 : Float).toModel.unpack := rfl
  have atMost : x ≤ 0 ↔ x.toModel.unpack.le (0 : Float).toModel.unpack = true := decide_eq_true_iff
  have isZero : (0 : Float).toModel.unpack = .zero .positive := rfl
  rw [equal, isZero] at zero
  rw [atMost, isZero]
  generalize x.toModel.unpack = unpacked at zero ⊢
  cases unpacked with
  | notANumber => cases zero
  | infinity sign => cases sign <;> cases zero
  | zero sign => cases sign <;> decide
  | finite sign => cases sign <;> cases zero

end Rate

section Lookup

theorem sameName_of_name? {key : Value} {name : String} (named : key.name? = some name)
    (other : Value) : key.sameName other = (other.name? == some name) := by
  unfold Value.sameName
  rw [named]
  cases other.name? with
  | none => rfl
  | some t => exact BEq.comm

theorem sameName_text (key : Value) (name : String) :
    key.sameName (.text name) = (key.name? == some name) := by
  unfold Value.sameName
  cases key.name? <;> rfl

/-- A key that is a name is the same as the keys that are this name, and as no others. -/
theorem sameKey_of_name? {key : Value} {name : String} (named : key.name? = some name)
    (other : Value) : key.sameKey other = (other.name? == some name) := by
  rw [← sameName_of_name? named]
  cases key with
  | text s =>
    cases other with
    | float x =>
      simp only [Value.sameKey, Value.wholeNumber?]
      cases (Number.Binary64.ofFloat x).exactInt? <;> rfl
    | _ => rfl
  | foreign object =>
    have noName {other : Value} (unnamed : other.name? = none) :
        (Value.foreign object).sameName other = false := by
      rw [sameName_of_name? named, unnamed]
      rfl
    cases other with
    | float x =>
      rw [noName rfl]
      simp only [Value.sameKey, Value.wholeNumber?]
      cases (Number.Binary64.ofFloat x).exactInt? with
      | none => exact noName rfl
      | some z => rfl
    | bool _ | int _ => exact (noName rfl).symm
    | _ => rfl
  | _ => cases named

theorem sameKey_text (key : Value) (name : String) :
    key.sameKey (.text name) = (key.name? == some name) := by
  rw [← sameName_text]
  cases key with
  | float x =>
    simp only [Value.sameKey, Value.wholeNumber?]
    cases (Number.Binary64.ofFloat x).exactInt? <;> rfl
  | _ => rfl

theorem lookup_cons (key v : Value) (rest : List (Value × Value)) (name : String) :
    Value.lookup ((key, v) :: rest) name =
      if key.name? = some name then some v else Value.lookup rest name := by
  rw [Value.lookup, List.find?_cons, sameKey_text]
  by_cases equal : key.name? = some name
  · rw [if_pos equal, beq_iff_eq.mpr equal]
    rfl
  · rw [if_neg equal, beq_eq_false_iff_ne.mpr equal]
    rfl

theorem lookup_eq_none {entries : List (Value × Value)} {name : String}
    (missing : ∀ entry ∈ entries, entry.1.sameKey (.text name) = false) :
    Value.lookup entries name = none := by
  rw [Value.lookup, List.find?_eq_none.mpr]
  · rfl
  · intro entry member
    simp [missing entry member]

end Lookup

section Switches

theorem Switch.name_injective {s s' : Switch} (same : s.name = s'.name) : s = s' := by
  have found := Switch.ofName?_name s
  rw [same, Switch.ofName?_name s'] at found
  exact (Option.some.inj found).symm

theorem Switch.name?_of_ofKey? {key : Value} {s : Switch} (named : Switch.ofKey? key = some s) :
    key.name? = some s.name := by
  obtain ⟨name, isName, found⟩ := Option.bind_eq_some_iff.mp named
  have same : s.name == name := List.find?_some (p := fun s : Switch => s.name == name) found
  rw [isName, eq_of_beq same]

theorem Switch.get_set (d : Dialect) (b : Bool) (s s' : Switch) :
    s'.get (s.set d b) = if s = s' then b else s'.get d := by
  cases s <;> cases s' <;> rfl

/-- Switches have the positions that they are given, and the others stay. -/
theorem position_of_setSwitches {d d' : Dialect} {switches : List (Value × Value)}
    (set : setSwitches d switches = .ok d') (distinct : IsDistinct switches) (s : Switch) :
    .bool (s.get d') = (Value.lookup switches s.name).getD (.bool (s.get d)) := by
  induction switches generalizing d with
  | nil =>
    obtain rfl := Except.ok.inj set
    rfl
  | cons entry rest ih =>
    obtain ⟨key, value⟩ := entry
    obtain ⟨first, others⟩ := List.pairwise_cons.mp distinct
    unfold setSwitches at set
    split at set
    · next moved b named =>
      have isName : key.name? = some moved.name := Switch.name?_of_ofKey? named
      rw [lookup_cons, ih set others, Switch.get_set]
      by_cases same : moved = s
      · subst same
        -- No later entry can move the switch again.
        have once : Value.lookup rest moved.name = none :=
          lookup_eq_none fun entry member => by
            rw [sameKey_text, ← sameKey_of_name? isName]
            exact first entry member
        rw [if_pos rfl, if_pos isName, once]
        rfl
      · have other : key.name? ≠ some s.name := fun equal =>
          same (Switch.name_injective (Option.some.inj (isName.symm.trans equal)))
        rw [if_neg same, if_neg other]
    · obtain ⟨_, -, failed⟩ := (bind_eq_ok ..).mp set
      cases failed

theorem lookup_dialectValue (d : Dialect) (s : Switch) :
    Value.lookup (Switch.all.map fun s => (.text s.name, .bool (s.get d))) s.name =
      some (.bool (s.get d)) := by
  cases s <;> rfl

/-- A dialect has each switch as it is given, or else as the canonical dialect has it. -/
theorem position_of_dialect {entries : List (Value × Value)} {d : Dialect}
    (read : dialect reader (dialectGiven entries) = .ok d)
    (distinct : IsDistinct (switchesGiven entries))
    (s : Switch) :
    .bool (s.get d) = (Value.lookup (switchesGiven entries) s.name).getD (.bool (s.get {})) := by
  unfold dialectGiven given at read
  unfold switchesGiven at distinct ⊢
  cases found : Value.lookup entries "quirks" with
  | none =>
    rw [found] at read
    obtain rfl := Except.ok.inj read
    rfl
  | some v =>
    rw [found] at read distinct
    rw [Option.getD_some] at read
    cases v with
    | null =>
      obtain rfl := Except.ok.inj read
      rfl
    | mapping switches =>
      obtain ⟨_, -, read⟩ := (bind_eq_ok ..).mp read
      unfold ofSwitches at read
      split at read
      · exact position_of_setSwitches read distinct s
      · obtain ⟨_, -, refused⟩ := (bind_eq_ok ..).mp read
        obtain ⟨_, -, failed⟩ := (bind_eq_ok ..).mp refused
        cases failed
    | _ => cases read

end Switches

section NormalForm

variable {reader : Reader} {files : Files} {entries : List (Value × Value)} {c : Config}

theorem sensible_of_checked {s : Settings} (sensible : checked s = .ok s) :
    0 < s.cyclesPerFrame ∧ ¬ s.frameRate ≤ 0 ∧ 0 ≤ s.frameLimit := by
  unfold checked at sensible
  split at sensible
  · cases sensible
  · next burst =>
    split at sensible
    · cases sensible
    · next rate =>
      split at sensible
      · cases sensible
      · next limit => exact ⟨Int.not_le.mp burst, rate, Int.not_lt.mp limit⟩

theorem default_of_gives {s : Settings} (gives : Gives reader entries s)
    (extra : List (Value × Value)) :
    ∀ entry ∈ defaultEntries, Value.lookup entries entry.1 = none →
      Value.lookup (toEntries ⟨s, extra⟩) entry.1 = some entry.2 := by
  obtain ⟨_, _, _, _, _, _⟩ := s
  obtain ⟨cycles, rate, limit, seed, lenient, dialect⟩ := gives
  simp only [cyclesGiven, rateGiven, limitGiven, seedGiven, lenientGiven, dialectGiven, given]
    at cycles rate limit seed lenient dialect
  simp only [defaultEntries, List.forall_mem_cons]
  refine ⟨?_, ?_, ?_, ?_, ?_, ?_, by simp⟩
  · intro missing
    rw [missing] at cycles
    cases cycles
    rfl
  · intro missing
    rw [missing] at rate
    cases rate
    rfl
  · intro missing
    rw [missing] at limit
    cases limit
    rfl
  · intro missing
    rw [missing] at seed
    cases seed
    rfl
  · intro missing
    rw [missing] at lenient
    cases lenient
    rfl
  · intro missing
    rw [missing] at dialect
    cases dialect
    rfl

theorem lookup_seed (c : Config) :
    Value.lookup c.toEntries "seed" = some .null ∨
      ∃ z, Value.lookup c.toEntries "seed" = some (.int z) := by
  obtain ⟨⟨_, _, _, seed, _, _⟩, _⟩ := c
  cases seed with
  | none => exact .inl rfl
  | some z => exact .inr ⟨z, rfl⟩

/-- Whatever mapping is loaded, what is loaded is in normal form. Loaded again it stays as it is,
and so does its dialect, loaded alone. -/
theorem isNormalForm_of_load (accepted : load reader files (.mapping entries) = .ok c)
    (distinct : IsDistinct (switchesGiven entries)) :
    IsNormalForm entries c.toEntries ∧ load reader files (.mapping c.toEntries) = .ok c ∧
      ∃ quirks again, Value.lookup c.toEntries "quirks" = some quirks ∧
        load reader files (.mapping [(.text "quirks", quirks)]) = .ok again ∧
        Value.lookup again.toEntries "quirks" = some quirks := by
  obtain ⟨gives, sensible, extra⟩ := gives_of_ofEntries accepted
  obtain ⟨cycles, rate, limit⟩ := sensible_of_checked sensible
  have loaded : Loaded c := loaded_of_ofEntries accepted
  have notZero : (c.settings.frameRate == 0) = false := by
    rw [← Bool.not_eq_true]
    exact fun zero => rate (float_le_of_beq zero)
  refine ⟨?_, loaded.ofEntries_toEntries, dialectValue c.settings.dialect, _, rfl,
    load_dialectValue reader files c.settings.dialect, rfl⟩
  exact {
    cycles := ⟨_, rfl, cycles⟩
    limit := ⟨_, rfl, limit⟩
    rate := ⟨_, rfl, rate, notZero⟩
    seed := lookup_seed c
    lenient := ⟨_, rfl⟩
    switches := ⟨_, rfl, rfl, fun s =>
      ⟨_, lookup_dialectValue _ s, position_of_dialect gives.dialect distinct s⟩⟩
    defaults := default_of_gives gives c.extra
    unknown := loaded.filter_toEntries.trans extra }

/-- Numbers of other kinds, two of the switches, and an entry that is not known. -/
theorem isNormalForm_of_load_note :
    let entries : List (Value × Value) :=
      [(.text "cycles_per_frame", .text " 1_2 "), (.text "frame_limit", .float 3.75),
        (.text "quirks", .mapping [(.text "shift_uses_vy", .bool true),
          (.text "clip_sprites", .bool false)]), (.text "note", .list [.null])]
    let reader : Reader := ⟨fun _ => .ok .null, .ok⟩
    let files := FileTree.files []
    let c : Config :=
      ⟨{ cyclesPerFrame := 12, frameLimit := 3,
         dialect := { clipSprites := false, shiftUsesVy := true } },
        [(.text "note", .list [.null])]⟩
    load reader files (.mapping entries) = .ok c ∧ IsDistinct (switchesGiven entries) ∧
      IsNormalForm entries c.toEntries ∧ load reader files (.mapping c.toEntries) = .ok c := by
  intro entries reader files c
  have gives : Gives reader entries c.settings := ⟨rfl, rfl, rfl, rfl, rfl, rfl⟩
  have rate : ¬ (60 : Float) ≤ 0 := by decide
  have sensible : checked c.settings = .ok c.settings := by simp [checked, c, rate]
  have comparable : ¬ Clashes settingNames entries := by
    iterate 4 apply not_clashes_cons_text
    exact not_clashes_nil _
  have accepted : load reader files (.mapping entries) = .ok c :=
    ofEntries_of_sensible comparable gives sensible
  have distinct : IsDistinct (switchesGiven entries) := by
    unfold IsDistinct
    decide
  obtain ⟨normal, again, -⟩ := isNormalForm_of_load accepted distinct
  exact ⟨accepted, distinct, normal, again⟩

end NormalForm

end Chip8.Config
