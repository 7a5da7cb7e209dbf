import Chip8.Config

/-! # What loading a configuration comes to

A configuration should be rejected or have settings that make sense. Some sources slip through: a
number beyond every range, unknown switches without a common order or with too many digits to be
shown, a file that cannot be looked for, a document that is given up with an error of another kind
than its reader should raise, a foreign object that raises an error, and a frame rate that is not a
number. These are all of them, whatever the files are, and whatever documents and foreign keys are
read with.
-/

namespace Chip8

open Number

section Positive

open Float.Model

/-- How a decimal compares to zero: neither way if it is not a number, and one way if it is. -/
theorem float_sign (x : Float) :
    (x.isNaN = true ∧ ¬ x ≤ 0 ∧ ¬ 0 < x) ∨ (x.isNaN = false ∧ (0 < x ↔ ¬ x ≤ 0)) := by
  have less : 0 < x ↔ (0 : Float).toModel.unpack.lt x.toModel.unpack = true := decide_eq_true_iff
  have atMost : x ≤ 0 ↔ x.toModel.unpack.le (0 : Float).toModel.unpack = true := decide_eq_true_iff
  have isNaN : x.isNaN = x.toModel.unpack.isNaN := rfl
  have zero : (0 : Float).toModel.unpack = .zero .positive := rfl
  rw [less, atMost, isNaN, zero]
  cases x.toModel.unpack with
  | notANumber => decide
  | infinity sign => cases sign <;> decide
  | zero sign => cases sign <;> decide
  | finite sign =>
    cases sign with
    | positive => exact .inr ⟨rfl, iff_of_true rfl Bool.false_ne_true⟩
    | negative => exact .inr ⟨rfl, iff_of_false Bool.false_ne_true (not_not_intro rfl)⟩

end Positive

namespace Config

variable {α β : Type}

/-- A configuration is rejected, or its settings make sense. -/
def Judged : Except LoadProblem Config → Prop
  | .ok c =>
      0 < c.settings.cyclesPerFrame ∧ 0 < c.settings.frameRate ∧ 0 ≤ c.settings.frameLimit
  | .error (.rejected _) => True
  | .error _ => False

instance (r : Except LoadProblem Config) : Decidable (Judged r) :=
  match r with
  | .ok _ => inferInstanceAs (Decidable (_ ∧ _))
  | .error (.rejected _) => inferInstanceAs (Decidable True)
  | .error (.file _) | .error (.conversion _) | .error (.raised _) | .error (.incomparable _) =>
      inferInstanceAs (Decidable False)

def LoadProblem.Escapes : LoadProblem → Prop
  | rejected _ => False
  | _ => True

/-- Loading is given up for a problem that is not a rejection. -/
def GivesUp (r : Except LoadProblem α) : Prop := ∃ problem, r = .error problem ∧ problem.Escapes

/-- An infinite decimal, which has no integer, or a foreign object that raises an error of another
kind than conversions should. -/
inductive IntegerEscapes : Value → Prop
  | infinite {x : Float} {negative : Bool} :
      Binary64.ofFloat x = .infinite negative → IntegerEscapes (.float x)
  | foreign {object : Foreign} {error : Raised} :
      object.integer = .error error → error.isConversion = false → IntegerEscapes (.foreign object)

/-- An integer beyond the range of decimals, or such a foreign object. -/
inductive DecimalEscapes : Value → Prop
  | tooLarge {z : Int} : Binary64.ofInt? z = none → DecimalEscapes (.int z)
  | foreign {object : Foreign} {error : Raised} :
      object.decimal = .error error → error.isConversion = false → DecimalEscapes (.foreign object)

/-- A value that raises an error of another kind when it is asked for its truth. -/
def TruthEscapes (v : Value) : Prop :=
  ∃ error, v.truthy = .error error ∧ error.isConversion = false

def unknownSwitches (entries : List (Value × Value)) : List Value :=
  (entries.map (·.1)).filter fun key => (Switch.ofKey? key).isNone

def IsPosition (entry : Value × Value) : Prop :=
  ∃ s position, Switch.ofKey? entry.1 = some s ∧ entry.2 = .bool position

/-- A foreign key of a mapping raises an error when it is compared with some names. -/
def Clashes (names : List String) (entries : List (Value × Value)) : Prop :=
  ∃ entry ∈ entries, ∃ error, entry.1.clash? names = some error

/-- A mapping of switches that is refused, but not by a rejection. -/
inductive DialectEscapes (reader : Reader) : Value → Prop
  /-- A foreign key raises an error when it is compared with the names of the switches. -/
  | clash {entries : List (Value × Value)} :
      Clashes (Switch.all.map Switch.name) entries → DialectEscapes reader (.mapping entries)
  /-- Two unknown switches have no order. -/
  | incomparable {entries : List (Value × Value)} {problem : OrderProblem} :
      (unknownSwitches entries).any Value.isForeign = false →
        orderProblem? (unknownSwitches entries) = some problem →
          DialectEscapes reader (.mapping entries)
  /-- A foreign one raises an error when they are put in order. -/
  | sorting {entries : List (Value × Value)} {error : Raised} :
      (unknownSwitches entries).any Value.isForeign = true →
        reader.sorted (unknownSwitches entries) = .error error →
          DialectEscapes reader (.mapping entries)
  /-- One of them is foreign and raises an error when it is shown, or is a number that is too long
  to be shown. -/
  | showing {entries : List (Value × Value)} {keys : List Value} {key : Value} {error : Raised} :
      unknownSwitches entries ≠ [] → sortedKeys reader (unknownSwitches entries) = .ok keys →
        key ∈ keys → key.shown = .error error → DialectEscapes reader (.mapping entries)
  /-- The first switch without a position raises an error when it is shown. -/
  | position {before rest : List (Value × Value)} {entry : Value × Value} {error : Raised} :
      unknownSwitches (before ++ entry :: rest) = [] → (∀ e ∈ before, IsPosition e) →
        ¬ IsPosition entry → entry.1.shown = .error error →
          DialectEscapes reader (.mapping (before ++ entry :: rest))

/-- The value of a setting, or its default. -/
def given (entries : List (Value × Value)) (name : String) (usual : Value) : Value :=
  (Value.lookup entries name).getD usual

section Given

variable (entries : List (Value × Value))

/-- The value that the number of steps of a frame is read from. -/
def cyclesGiven : Value := given entries "cycles_per_frame" (.int 10)

def rateGiven : Value := given entries "frame_rate" (.float 60)

def limitGiven : Value := given entries "frame_limit" (.int 600)

def seedGiven : Value := given entries "seed" .null

def lenientGiven : Value := given entries "lenient_log" (.bool false)

def dialectGiven : Value := given entries "quirks" .null

end Given

/-- The settings are what some entries give. -/
structure Gives (reader : Reader) (entries : List (Value × Value)) (s : Settings) : Prop where
  cycles : integer (cyclesGiven entries) = .ok s.cyclesPerFrame
  rate : decimalNumber (rateGiven entries) = .ok s.frameRate
  limit : integer (limitGiven entries) = .ok s.frameLimit
  seed : seedOf (seedGiven entries) = .ok s.seed
  lenient : truthOf (lenientGiven entries) = .ok s.lenientLog
  dialect : dialect reader (dialectGiven entries) = .ok s.dialect

/-- Entries that slip through: a key cannot be compared with the names of settings, the first
setting that cannot be read is given up with an error that is not caught, or all is well but that
the rate is not a number. -/
inductive SlipThrough (reader : Reader) (entries : List (Value × Value)) : Prop
  | clash : Clashes settingNames entries → SlipThrough reader entries
  | cycles : IntegerEscapes (cyclesGiven entries) → SlipThrough reader entries
  | rate {cycles : Int} :
      integer (cyclesGiven entries) = .ok cycles →
        DecimalEscapes (rateGiven entries) → SlipThrough reader entries
  | limit {cycles : Int} {rate : Float} :
      integer (cyclesGiven entries) = .ok cycles → decimalNumber (rateGiven entries) = .ok rate →
        IntegerEscapes (limitGiven entries) → SlipThrough reader entries
  | seed {cycles limit : Int} {rate : Float} :
      integer (cyclesGiven entries) = .ok cycles → decimalNumber (rateGiven entries) = .ok rate →
        integer (limitGiven entries) = .ok limit →
          IntegerEscapes (seedGiven entries) → SlipThrough reader entries
  | lenient {cycles limit : Int} {rate : Float} {seed : Option Int} :
      integer (cyclesGiven entries) = .ok cycles → decimalNumber (rateGiven entries) = .ok rate →
        integer (limitGiven entries) = .ok limit → seedOf (seedGiven entries) = .ok seed →
          TruthEscapes (lenientGiven entries) → SlipThrough reader entries
  | dialect {cycles limit : Int} {rate : Float} {seed : Option Int} {lenient : Bool} :
      integer (cyclesGiven entries) = .ok cycles → decimalNumber (rateGiven entries) = .ok rate →
        integer (limitGiven entries) = .ok limit → seedOf (seedGiven entries) = .ok seed →
          truthOf (lenientGiven entries) = .ok lenient →
            DialectEscapes reader (dialectGiven entries) → SlipThrough reader entries
  | notANumber {s : Settings} :
      Gives reader entries s → 0 < s.cyclesPerFrame → s.frameRate.isNaN = true →
        0 ≤ s.frameLimit → SlipThrough reader entries

section Reading

theorem givesUp_bind (r : Except LoadProblem α) (f : α → Except LoadProblem β) :
    GivesUp (r >>= f) ↔ GivesUp r ∨ ∃ a, r = .ok a ∧ GivesUp (f a) := by
  cases r with
  | ok a => simp [GivesUp, bind, Except.bind]
  | error problem => simp [GivesUp, bind, Except.bind]

theorem bind_eq_ok {ε : Type} (r : Except ε α) (f : α → Except ε β) (b : β) :
    r >>= f = .ok b ↔ ∃ a, r = .ok a ∧ f a = .ok b := by
  cases r with
  | ok a => simp [bind, Except.bind]
  | error problem => simp [bind, Except.bind]

theorem not_givesUp_ok (a : α) : ¬ GivesUp (.ok a) := by
  rintro ⟨problem, failed, _⟩
  cases failed

theorem not_givesUp_rejected (rejection : Rejection) :
    ¬ GivesUp (.error (.rejected rejection) : Except LoadProblem α) := by
  rintro ⟨problem, failed, escapes⟩
  cases failed
  exact escapes

/-- An error that is not caught is given up with. -/
theorem givesUp_mapError {ε : Type} (wrap : ε → LoadProblem) (escapes : ∀ e, (wrap e).Escapes)
    (r : Except ε α) : GivesUp (r.mapError wrap) ↔ ∃ e, r = .error e := by
  cases r with
  | ok a => exact iff_of_false (not_givesUp_ok a) (by simp)
  | error e => exact iff_of_true ⟨wrap e, rfl, escapes e⟩ ⟨e, rfl⟩

theorem converted_eq_ok {r : Except Misfit α} {a : α} : converted r = .ok a ↔ r = .ok a := by
  cases r with
  | ok x => simp [converted]
  | error problem =>
    simp only [converted]
    split <;> simp

theorem givesUp_converted {r : Except Misfit α} :
    GivesUp (converted r) ↔ ∃ problem, r = .error problem ∧ problem.isCaught = false := by
  cases r with
  | ok x => simp [converted, not_givesUp_ok]
  | error problem =>
    simp only [converted]
    split
    · next caught => simp [not_givesUp_rejected, caught]
    · next escapes => simp [GivesUp, LoadProblem.Escapes, escapes]

/-- A literal is too long or malformed, but never beyond every range. -/
theorem integerOf_inRange {base : Nat} {literal : Literal} {problem : NumberProblem}
    (failed : integerOf base literal = .error problem) : problem.isOverflow = false := by
  unfold integerOf at failed
  split at failed <;> cases failed <;> rfl

theorem decimalOf_inRange {literal : Literal} {problem : NumberProblem}
    (failed : decimalOf literal = .error problem) : problem.isOverflow = false := by
  unfold decimalOf at failed
  split at failed <;> cases failed
  rfl

/-- Of the values that are no foreign objects, only infinity is beyond the range of integers. -/
theorem plainInteger_overflow {v : Value} {problem : NumberProblem}
    (failed : plainInteger v = .error problem) (overflow : problem.isOverflow = true) :
    ∃ x negative, v = .float x ∧ Binary64.ofFloat x = .infinite negative := by
  cases v <;> simp only [plainInteger] at failed
  case float x =>
    cases parts : Binary64.ofFloat x with
    | infinite negative => exact ⟨x, negative, rfl, parts⟩
    | notANumber => simp only [parts] at failed; cases failed; cases overflow
    | finite => simp only [parts] at failed; cases failed
  case text => simp [integerOf_inRange failed] at overflow
  case brokenText => simp [integerOf_inRange failed] at overflow
  case bytes => simp [integerOf_inRange failed] at overflow
  all_goals cases failed
  all_goals cases overflow

theorem plainDecimal_overflow {v : Value} {problem : NumberProblem}
    (failed : plainDecimal v = .error problem) (overflow : problem.isOverflow = true) :
    ∃ z, v = .int z ∧ Binary64.ofInt? z = none := by
  cases v <;> simp only [plainDecimal] at failed
  case int z =>
    cases rounded : Binary64.ofInt? z with
    | none => exact ⟨z, rfl, rounded⟩
    | some x => simp only [rounded] at failed; cases failed
  case text => simp [decimalOf_inRange failed] at overflow
  case brokenText => simp [decimalOf_inRange failed] at overflow
  case bytes => simp [decimalOf_inRange failed] at overflow
  all_goals cases failed
  all_goals cases overflow

theorem exists_of_mapError {ε : Type} {r : Except ε α} {wrap : ε → Misfit} {problem : Misfit}
    (failed : r.mapError wrap = .error problem) : ∃ e, r = .error e ∧ problem = wrap e := by
  cases r with
  | ok x => cases failed
  | error e => exact ⟨e, rfl, (Except.error.inj failed).symm⟩

theorem integerEscapes_iff (v : Value) :
    (∃ problem, integer v = .error problem ∧ problem.isCaught = false) ↔ IntegerEscapes v := by
  constructor
  · rintro ⟨problem, failed, escapes⟩
    unfold integer at failed
    split at failed
    · obtain ⟨error, raised, rfl⟩ := exists_of_mapError failed
      exact .foreign raised escapes
    · obtain ⟨number, unread, rfl⟩ := exists_of_mapError failed
      obtain ⟨x, negative, rfl, infinite⟩ :=
        plainInteger_overflow unread (by simpa [Misfit.isCaught] using escapes)
      exact .infinite infinite
  · intro escapes
    cases escapes with
    | infinite infinite =>
      exact ⟨.number .infinite, by simp only [integer, plainInteger, infinite]; rfl, rfl⟩
    | foreign raised escapes => exact ⟨.raised _, by simp only [integer, raised]; rfl, escapes⟩

theorem decimalEscapes_iff (v : Value) :
    (∃ problem, decimalNumber v = .error problem ∧ problem.isCaught = false) ↔
      DecimalEscapes v := by
  constructor
  · rintro ⟨problem, failed, escapes⟩
    unfold decimalNumber at failed
    split at failed
    · obtain ⟨error, raised, rfl⟩ := exists_of_mapError failed
      exact .foreign raised escapes
    · obtain ⟨number, unread, rfl⟩ := exists_of_mapError failed
      obtain ⟨z, rfl, tooLarge⟩ :=
        plainDecimal_overflow unread (by simpa [Misfit.isCaught] using escapes)
      exact .tooLarge tooLarge
  · intro escapes
    cases escapes with
    | tooLarge beyond =>
      exact ⟨.number .tooLarge, by simp only [decimalNumber, plainDecimal, beyond]; rfl, rfl⟩
    | foreign raised escapes =>
      exact ⟨.raised _, by simp only [decimalNumber, raised]; rfl, escapes⟩

theorem seedEscapes_iff (v : Value) :
    (∃ problem, seedOf v = .error problem ∧ problem.isCaught = false) ↔ IntegerEscapes v := by
  rw [← integerEscapes_iff]
  unfold seedOf
  split
  · have refused : integer .null = .error (.number (.noInteger Value.null.kindName)) := rfl
    simp [refused, Misfit.isCaught, NumberProblem.isOverflow]
  · cases integer v <;> simp [Except.map]

theorem truthEscapes_iff (v : Value) :
    (∃ problem, truthOf v = .error problem ∧ problem.isCaught = false) ↔ TruthEscapes v := by
  constructor
  · rintro ⟨problem, failed, escapes⟩
    obtain ⟨error, raised, rfl⟩ := exists_of_mapError failed
    exact ⟨error, raised, escapes⟩
  · rintro ⟨error, raised, escapes⟩
    exact ⟨.raised error, by rw [truthOf, raised]; rfl, escapes⟩

end Reading

section Switches

variable {reader : Reader}

theorem givesUp_shownKey (key : Value) :
    GivesUp (shownKey key) ↔ ∃ error, key.shown = .error error :=
  givesUp_mapError .raised (fun _ => trivial) _

/-- Keys are shown together if each of them is shown. -/
theorem givesUp_mapM_shownKey (keys : List Value) :
    GivesUp (keys.mapM shownKey) ↔ ∃ key ∈ keys, ∃ error, key.shown = .error error := by
  induction keys with
  | nil => exact iff_of_false (not_givesUp_ok []) (by simp)
  | cons key keys ih =>
    rw [List.mapM_cons, givesUp_bind, givesUp_shownKey]
    simp only [givesUp_bind, ih, List.mem_cons, exists_eq_or_imp]
    cases shown : key.shown with
    | error error => simp
    | ok text =>
      have read : shownKey key = .ok text := by
        rw [shownKey, shown]
        rfl
      have ends (texts : List Text.CodeText) :
          ¬ GivesUp (pure (text :: texts) : Except LoadProblem (List Text.CodeText)) :=
        not_givesUp_ok _
      simp [read, ends]

theorem orderedKeys_eq_error_iff (keys : List Value) (problem : OrderProblem) :
    orderedKeys keys = .error problem ↔ orderProblem? keys = some problem := by
  unfold orderedKeys
  split
  · next found => simp [found]
  · next ordered => simp [ordered]

theorem givesUp_sortedKeys (keys : List Value) :
    GivesUp (sortedKeys reader keys) ↔
      (keys.any Value.isForeign = true ∧ ∃ error, reader.sorted keys = .error error) ∨
        keys.any Value.isForeign = false ∧ ∃ problem, orderProblem? keys = some problem := by
  unfold sortedKeys
  split
  · next foreign =>
    rw [givesUp_mapError .raised fun _ => trivial]
    simp [foreign]
  · next plain =>
    rw [givesUp_mapError .incomparable fun _ => trivial]
    simp [orderedKeys_eq_error_iff, plain]

theorem givesUp_refuseSwitches (unknown : List Value) :
    GivesUp (refuseSwitches reader unknown) ↔ GivesUp (sortedKeys reader unknown) ∨
      ∃ keys, sortedKeys reader unknown = .ok keys ∧
        ∃ key ∈ keys, ∃ error, key.shown = .error error := by
  have ends (names : List Text.CodeText) :
      ¬ GivesUp (throw (.rejected (.unknownSwitches names)) : Except LoadProblem Dialect) :=
    not_givesUp_rejected _
  simp only [refuseSwitches, givesUp_bind, givesUp_mapM_shownKey, ends, and_false, exists_false,
    or_false]

/-- The first element that is no `p`, if that is a `q`. -/
theorem exists_first_cons {p : α → Prop} (q : α → Prop) (a : α) (as : List α) :
    (∃ before b after, a :: as = before ++ b :: after ∧ (∀ e ∈ before, p e) ∧ ¬ p b ∧ q b) ↔
      (¬ p a ∧ q a) ∨ p a ∧
        ∃ before b after, as = before ++ b :: after ∧ (∀ e ∈ before, p e) ∧ ¬ p b ∧ q b := by
  constructor
  · rintro ⟨before, b, after, split, all, first, here⟩
    cases before with
    | nil =>
      obtain ⟨rfl, -⟩ := List.cons.inj split
      exact .inl ⟨first, here⟩
    | cons c before =>
      obtain ⟨rfl, rest⟩ := List.cons.inj split
      obtain ⟨isP, all⟩ := List.forall_mem_cons.mp all
      exact .inr ⟨isP, before, b, after, rest, all, first, here⟩
  · rintro (⟨first, here⟩ | ⟨isP, before, b, after, rfl, all, first, here⟩)
    · exact ⟨[], a, as, rfl, by simp, first, here⟩
    · exact ⟨a :: before, b, after, rfl, List.forall_mem_cons.mpr ⟨isP, all⟩, first, here⟩

/-- Switches are set one after the other, up to the first one without a position. -/
theorem givesUp_setSwitches (d : Dialect) (entries : List (Value × Value)) :
    GivesUp (setSwitches d entries) ↔ ∃ before entry rest, entries = before ++ entry :: rest ∧
      (∀ e ∈ before, IsPosition e) ∧ ¬ IsPosition entry ∧
      ∃ error, entry.1.shown = .error error := by
  induction entries generalizing d with
  | nil => exact iff_of_false (not_givesUp_ok d) (by simp)
  | cons entry rest ih =>
    rw [exists_first_cons fun entry : Value × Value => ∃ error, entry.1.shown = .error error]
    obtain ⟨key, value⟩ := entry
    by_cases isPosition : IsPosition (key, value)
    · obtain ⟨s, position, named, rfl⟩ := id isPosition
      simp only [setSwitches, named, ih, isPosition, not_true_eq_false, false_and, true_and,
        false_or]
    · have refused : setSwitches d ((key, value) :: rest) =
          (shownKey key >>= fun name => throw (.rejected (.switchNotTruth name))) := by
        unfold setSwitches
        split
        · next s position named => exact absurd ⟨s, position, named, rfl⟩ isPosition
        · rfl
      have ends (name : Text.CodeText) :
          ¬ GivesUp (throw (.rejected (.switchNotTruth name)) : Except LoadProblem Dialect) :=
        not_givesUp_rejected _
      simp only [refused, givesUp_bind, givesUp_shownKey, ends, and_false, exists_false, or_false,
        isPosition, not_false_eq_true, true_and, false_and]

/-- Keys are compared without an error, or one of them raises it. -/
theorem compareKeys_cases (names : List String) (entries : List (Value × Value)) :
    (¬ Clashes names entries ∧ compareKeys names entries = .ok ()) ∨
      Clashes names entries ∧ ∃ error, compareKeys names entries = .error (.raised error) := by
  unfold compareKeys
  split
  · next error clash =>
    obtain ⟨entry, member, raised⟩ := List.exists_of_findSome?_eq_some clash
    exact .inr ⟨⟨entry, member, error, raised⟩, error, rfl⟩
  · next peace =>
    refine .inl ⟨?_, rfl⟩
    rintro ⟨entry, member, error, raised⟩
    rw [List.findSome?_eq_none_iff.mp peace entry member] at raised
    cases raised

/-- What follows a comparison of keys is given up for the comparison, or else by itself. -/
theorem givesUp_compareKeys_bind (names : List String) (entries : List (Value × Value))
    (r : Except LoadProblem α) :
    GivesUp (compareKeys names entries >>= fun _ => r) ↔ Clashes names entries ∨ GivesUp r := by
  obtain ⟨peace, compared⟩ | ⟨clash, error, compared⟩ := compareKeys_cases names entries
  · rw [compared]
    exact ⟨.inr, fun either => either.resolve_left peace⟩
  · rw [compared]
    exact iff_of_true ⟨_, rfl, trivial⟩ (.inl clash)

/-- Switches are given up for unknown ones, or else for the first one without a position. -/
theorem givesUp_ofSwitches (entries : List (Value × Value)) :
    GivesUp (ofSwitches reader entries) ↔
      (unknownSwitches entries ≠ [] ∧ GivesUp (refuseSwitches reader (unknownSwitches entries))) ∨
        unknownSwitches entries = [] ∧ GivesUp (setSwitches {} entries) := by
  unfold ofSwitches
  split
  · next known =>
    have known : unknownSwitches entries = [] := known
    simp [known]
  · next some =>
    have some : unknownSwitches entries ≠ [] := some
    simp only [some, ne_eq, not_false_eq_true, true_and, false_and, or_false]
    rfl

/-- A dialect is given up for a comparison of its keys, or else for its switches. -/
theorem givesUp_dialect_iff (v : Value) : GivesUp (dialect reader v) ↔ DialectEscapes reader v := by
  constructor
  · intro givenUp
    unfold dialect at givenUp
    split at givenUp
    · exact (not_givesUp_ok _ givenUp).elim
    · next entries =>
      obtain clash | givenUp := (givesUp_compareKeys_bind ..).mp givenUp
      · exact .clash clash
      obtain ⟨some, givenUp⟩ | ⟨known, givenUp⟩ := (givesUp_ofSwitches entries).mp givenUp
      · obtain sorting | ⟨keys, sorted, key, member, error, failed⟩ :=
          (givesUp_refuseSwitches _).mp givenUp
        · obtain ⟨foreign, error, failed⟩ | ⟨plain, problem, unordered⟩ :=
            (givesUp_sortedKeys _).mp sorting
          · exact .sorting foreign failed
          · exact .incomparable plain unordered
        · exact .showing some sorted member failed
      · obtain ⟨before, entry, rest, rfl, all, first, error, failed⟩ :=
          (givesUp_setSwitches _ _).mp givenUp
        exact .position known all first failed
    · exact (not_givesUp_rejected _ givenUp).elim
  · intro escapes
    have refused {entries : List (Value × Value)} (unknown : unknownSwitches entries ≠ [])
        (givenUp : GivesUp (refuseSwitches reader (unknownSwitches entries))) :
        GivesUp (dialect reader (.mapping entries)) :=
      (givesUp_compareKeys_bind ..).mpr
        (.inr ((givesUp_ofSwitches _).mpr (.inl ⟨unknown, givenUp⟩)))
    cases escapes with
    | clash clash => exact (givesUp_compareKeys_bind ..).mpr (.inl clash)
    | incomparable plain unordered =>
      refine refused ?_ ((givesUp_refuseSwitches _).mpr (.inl ?_))
      · intro known
        rw [known] at unordered
        cases unordered
      · exact (givesUp_sortedKeys _).mpr (.inr ⟨plain, _, unordered⟩)
    | sorting foreign failed =>
      refine refused ?_ ((givesUp_refuseSwitches _).mpr (.inl ?_))
      · intro known
        rw [known] at foreign
        cases foreign
      · exact (givesUp_sortedKeys _).mpr (.inl ⟨foreign, _, failed⟩)
    | showing unknown sorted member failed =>
      exact refused unknown
        ((givesUp_refuseSwitches _).mpr (.inr ⟨_, sorted, _, member, _, failed⟩))
    | position known all first failed =>
      refine (givesUp_compareKeys_bind ..).mpr (.inr ?_)
      refine (givesUp_ofSwitches _).mpr (.inr ⟨known, ?_⟩)
      exact (givesUp_setSwitches _ _).mpr ⟨_, _, _, rfl, all, first, _, failed⟩

end Switches

section Settings

variable {reader : Reader}

/-- Entries are read into the settings they give. -/
theorem settingsOf_eq_ok (entries : List (Value × Value)) (s : Settings) :
    settingsOf reader entries = .ok s ↔ Gives reader entries s := by
  simp only [settingsOf, bind_eq_ok, converted_eq_ok]
  constructor
  · rintro ⟨cycles, cyclesRead, rate, rateRead, limit, limitRead, seed, seedRead, lenient,
      lenientRead, d, dialectRead, made⟩
    cases made
    exact ⟨cyclesRead, rateRead, limitRead, seedRead, lenientRead, dialectRead⟩
  · obtain ⟨cycles, rate, limit, seed, lenient, d⟩ := s
    rintro ⟨cyclesRead, rateRead, limitRead, seedRead, lenientRead, dialectRead⟩
    exact ⟨cycles, cyclesRead, rate, rateRead, limit, limitRead, seed, seedRead, lenient,
      lenientRead, d, dialectRead, rfl⟩

/-- The settings are given up at the first value that is not read, if its problem is not caught. -/
theorem slipThrough_iff (entries : List (Value × Value)) :
    SlipThrough reader entries ↔ Clashes settingNames entries ∨
      GivesUp (settingsOf reader entries) ∨
      ∃ s, settingsOf reader entries = .ok s ∧ 0 < s.cyclesPerFrame ∧ s.frameRate.isNaN = true ∧
        0 ≤ s.frameLimit := by
  simp only [settingsOf_eq_ok]
  simp only [settingsOf, givesUp_bind, converted_eq_ok, givesUp_converted, integerEscapes_iff,
    decimalEscapes_iff, seedEscapes_iff, truthEscapes_iff, givesUp_dialect_iff]
  constructor
  · intro slips
    cases slips with
    | clash clash => exact .inl clash
    | cycles escapes => exact .inr (.inl (.inl escapes))
    | rate cycles escapes => exact .inr (.inl (.inr ⟨_, cycles, .inl escapes⟩))
    | limit cycles rate escapes =>
      exact .inr (.inl (.inr ⟨_, cycles, .inr ⟨_, rate, .inl escapes⟩⟩))
    | seed cycles rate limit escapes =>
      exact .inr (.inl (.inr ⟨_, cycles, .inr ⟨_, rate, .inr ⟨_, limit, .inl escapes⟩⟩⟩))
    | lenient cycles rate limit seed escapes =>
      exact .inr (.inl (.inr ⟨_, cycles, .inr ⟨_, rate, .inr ⟨_, limit, .inr ⟨_, seed,
        .inl escapes⟩⟩⟩⟩))
    | dialect cycles rate limit seed lenient escapes =>
      exact .inr (.inl (.inr ⟨_, cycles, .inr ⟨_, rate, .inr ⟨_, limit, .inr ⟨_, seed,
        .inr ⟨_, lenient, .inl escapes⟩⟩⟩⟩⟩))
    | notANumber gives burst isNaN limit => exact .inr (.inr ⟨_, gives, burst, isNaN, limit⟩)
  · rintro (clash | (escapes | ⟨_, cycles, escapes | ⟨_, rate, escapes | ⟨_, limit, escapes |
      ⟨_, seed, escapes | ⟨_, lenient, escapes | ⟨_, _, givenUp⟩⟩⟩⟩⟩⟩) |
      ⟨s, gives, burst, isNaN, limit⟩)
    · exact .clash clash
    · exact .cycles escapes
    · exact .rate cycles escapes
    · exact .limit cycles rate escapes
    · exact .seed cycles rate limit escapes
    · exact .lenient cycles rate limit seed escapes
    · exact .dialect cycles rate limit seed lenient escapes
    · exact (not_givesUp_ok _ givenUp).elim
    · exact .notANumber gives burst isNaN limit

/-- A chain of readings is judged by its last one, unless it is given up before. -/
theorem judged_bind_iff (r : Except LoadProblem α) (f : α → Except LoadProblem Config) :
    Judged (r >>= f) ↔ ¬ GivesUp r ∧ ∀ a, r = .ok a → Judged (f a) := by
  cases r with
  | ok a => simp [not_givesUp_ok, bind, Except.bind]
  | error problem =>
    cases problem <;> simp [Judged, GivesUp, LoadProblem.Escapes, bind, Except.bind]

theorem judged_compareKeys_bind (names : List String) (entries : List (Value × Value))
    (r : Except LoadProblem Config) :
    Judged (compareKeys names entries >>= fun _ => r) ↔ ¬ Clashes names entries ∧ Judged r := by
  obtain ⟨peace, compared⟩ | ⟨clash, error, compared⟩ := compareKeys_cases names entries
  · rw [compared]
    exact (and_iff_right peace).symm
  · rw [compared]
    exact iff_of_false not_false fun ⟨peace, _⟩ => peace clash

/-- Settings that pass the checks make sense, unless the rate is not a number. -/
theorem judged_checked_iff (s : Settings) (extra : List (Value × Value)) :
    Judged ((checked s).mapError .rejected >>= fun s => pure ⟨s, extra⟩) ↔
      ¬ (0 < s.cyclesPerFrame ∧ s.frameRate.isNaN = true ∧ 0 ≤ s.frameLimit) := by
  unfold checked
  split
  · next few => exact ⟨fun _ sensible => Int.not_le.mpr sensible.1 few, fun _ => trivial⟩
  · next burst =>
    obtain ⟨isNaN, notAtMost, notPositive⟩ | ⟨isNumber, positive⟩ := float_sign s.frameRate
    · rw [if_neg notAtMost]
      split
      · next negative =>
        exact ⟨fun _ sensible => Int.not_lt.mpr sensible.2.2 negative, fun _ => trivial⟩
      · next limit =>
        constructor
        · rintro ⟨_, rate, _⟩
          exact (notPositive rate).elim
        · intro insane
          exact (insane ⟨Int.not_le.mp burst, isNaN, Int.not_lt.mp limit⟩).elim
    · have sensible : ¬ (0 < s.cyclesPerFrame ∧ s.frameRate.isNaN = true ∧ 0 ≤ s.frameLimit) := by
        rintro ⟨_, isNaN, _⟩
        rw [isNumber] at isNaN
        contradiction
      refine ⟨fun _ => sensible, fun _ => ?_⟩
      split
      · trivial
      · next rate =>
        split
        · trivial
        · next limit => exact ⟨Int.not_le.mp burst, positive.mpr rate, Int.not_lt.mp limit⟩

/-- Entries are judged unless they slip through. -/
theorem judged_ofEntries_iff (entries : List (Value × Value)) :
    Judged (ofEntries reader entries) ↔ ¬ SlipThrough reader entries := by
  rw [slipThrough_iff, ofEntries, judged_compareKeys_bind, judged_bind_iff]
  simp only [judged_checked_iff, not_or, not_exists, not_and]

/-- Nothing slips through unless something is given. -/
theorem not_slipThrough_nil : ¬ SlipThrough reader [] := by
  rw [← judged_ofEntries_iff]
  exact ⟨by decide, by decide, by decide⟩

end Settings

section Files

open Text

/-- There is a file at a path, and it can be read. -/
def HasFile (files : Files) (path : CodeText) (bytes : List UInt8) : Prop :=
  files.has path = .ok true ∧ files.read path = .ok bytes

/-- A source that slips through: entries that do, a file that cannot be looked for or opened under
its name, a document that is given up with an error of another kind, and a document with such
entries. -/
inductive Source.SlipsThrough (reader : Reader) (files : Files) : Source → Prop
  | mapping {entries : List (Value × Value)} :
      SlipThrough reader entries → SlipsThrough reader files (.mapping entries)
  | search {path : CodeText} {problem : FileProblem} :
      files.has path = .error problem → SlipsThrough reader files (.file path)
  | opening {path : CodeText} {problem : FileProblem} :
      files.has path = .ok true → files.read path = .error problem →
        problem.isSystem = false → SlipsThrough reader files (.file path)
  | document {path : CodeText} {bytes : List UInt8} {error : Raised} :
      HasFile files path bytes → reader.document bytes = .error error →
        error.isReading = false → SlipsThrough reader files (.file path)
  /-- The value of the document raises an error when it is asked for its truth. -/
  | truth {path : CodeText} {bytes : List UInt8} {value : Value} {error : Raised} :
      HasFile files path bytes → reader.document bytes = .ok value → value.truthy = .error error →
        error.isReading = false → SlipsThrough reader files (.file path)
  | entries {path : CodeText} {bytes : List UInt8} {value : Value}
      {entries : List (Value × Value)} :
      HasFile files path bytes → reader.document bytes = .ok value →
        entriesOf path value = .ok entries → SlipThrough reader entries →
          SlipsThrough reader files (.file path)

variable {reader : Reader} {files : Files} {path : CodeText}

theorem givesUp_reading (path : CodeText) (r : Except Raised α) :
    GivesUp (reading path r) ↔ ∃ error, r = .error error ∧ error.isReading = false := by
  cases r with
  | ok a => exact iff_of_false (not_givesUp_ok a) (by simp)
  | error error =>
    simp only [reading]
    split
    · next caught => simp [not_givesUp_rejected, caught]
    · next escapes => simp [GivesUp, LoadProblem.Escapes, escapes]

theorem reading_eq_ok {r : Except Raised α} {a : α} : reading path r = .ok a ↔ r = .ok a := by
  cases r with
  | ok x => simp [reading]
  | error error =>
    simp only [reading]
    split <;> simp

theorem givesUp_entriesOf (path : CodeText) (v : Value) :
    GivesUp (entriesOf path v) ↔ ∃ error, v.truthy = .error error ∧ error.isReading = false := by
  unfold entriesOf
  split
  · next entries => exact iff_of_false (not_givesUp_ok entries) (by simp [Value.truthy])
  · rw [givesUp_bind, givesUp_reading]
    have ends (yes : Bool) : ¬ GivesUp (do
        if yes then throw (.rejected (.fileNotMapping path))
        return [] : Except LoadProblem (List (Value × Value))) := by
      cases yes with
      | true => exact not_givesUp_rejected _
      | false => exact not_givesUp_ok _
    simp only [ends, and_false, exists_false, or_false]

theorem givesUp_readEntries (path : CodeText) :
    GivesUp (readEntries reader files path) ↔
      (∃ problem, files.read path = .error problem ∧ problem.isSystem = false) ∨
        ∃ bytes, files.read path = .ok bytes ∧
          ((∃ error, reader.document bytes = .error error ∧ error.isReading = false) ∨
            ∃ value, reader.document bytes = .ok value ∧
              ∃ error, value.truthy = .error error ∧ error.isReading = false) := by
  unfold readEntries
  cases files.read path with
  | error problem =>
    simp only [Except.error.injEq, exists_eq_left', reduceCtorEq, false_and, exists_false, or_false]
    split
    · next asked => simp [not_givesUp_rejected, asked]
    · next unasked => simp [GivesUp, LoadProblem.Escapes, unasked]
  | ok bytes =>
    simp only [givesUp_bind, givesUp_reading, givesUp_entriesOf, reading_eq_ok, reduceCtorEq,
      false_and, exists_false, false_or, Except.ok.injEq, exists_eq_left']

theorem readEntries_eq_ok (path : CodeText) (entries : List (Value × Value)) :
    readEntries reader files path = .ok entries ↔
      ∃ bytes value, files.read path = .ok bytes ∧ reader.document bytes = .ok value ∧
        entriesOf path value = .ok entries := by
  unfold readEntries
  cases files.read path with
  | error problem =>
    simp only [reduceCtorEq, false_and, exists_false, iff_false]
    split <;> simp
  | ok bytes =>
    simp only [bind_eq_ok, reading_eq_ok, Except.ok.injEq, exists_and_left, exists_eq_left']

/-- A file is judged by the search for it, by its document, and by the entries of that. -/
theorem judged_ofFile_iff (path : CodeText) :
    Judged (ofFile reader files path) ↔ ¬ Source.SlipsThrough reader files (.file path) := by
  unfold ofFile
  cases found : files.has path with
  | error problem => exact iff_of_false not_false (not_not_intro (.search found))
  | ok present =>
    cases present with
    | false =>
      refine iff_of_true trivial ?_
      intro slips
      cases slips with
      | search failed => cases found.symm.trans failed
      | opening isThere _ _ => cases found.symm.trans isThere
      | document file _ _ => cases found.symm.trans file.1
      | truth file _ _ _ => cases found.symm.trans file.1
      | entries file _ _ _ => cases found.symm.trans file.1
    | true =>
      simp only [judged_bind_iff, judged_ofEntries_iff, givesUp_readEntries, readEntries_eq_ok]
      constructor
      · rintro ⟨read, sensible⟩ slips
        cases slips with
        | search failed => cases found.symm.trans failed
        | opening _ failed unasked => exact read (.inl ⟨_, failed, unasked⟩)
        | document file failed escapes => exact read (.inr ⟨_, file.2, .inl ⟨_, failed, escapes⟩⟩)
        | truth file document failed escapes =>
          exact read (.inr ⟨_, file.2, .inr ⟨_, document, _, failed, escapes⟩⟩)
        | entries file document mapping slips =>
          exact sensible _ ⟨_, _, file.2, document, mapping⟩ slips
      · intro caught
        refine ⟨?_, ?_⟩
        · rintro (⟨problem, failed, unasked⟩ | ⟨bytes, read, ⟨error, failed, escapes⟩ |
            ⟨value, document, error, failed, escapes⟩⟩)
          · exact caught (.opening found failed unasked)
          · exact caught (.document ⟨found, read⟩ failed escapes)
          · exact caught (.truth ⟨found, read⟩ document failed escapes)
        · rintro entries ⟨bytes, value, read, document, mapping⟩ slips
          exact caught (.entries ⟨found, read⟩ document mapping slips)

end Files

/-- A frame rate that is not a number is accepted. -/
example :
    ¬ Judged (ofEntries ⟨fun _ => .ok .null, .ok⟩ [(.text "frame_rate", .float (0 / 0))]) := by
  decide +kernel

end Config

end Chip8
