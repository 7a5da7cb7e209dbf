import Chip8.Text.LowerCase

/-! # Small letters of the basic set

Among the letters beyond the basic set there are two whose small letters begin with a basic one: the
sign of the kelvin, which becomes a k, and the capital I with a dot. So a text with neither k nor i
is the small form of basic letters only, and letter by letter.
-/

namespace Chip8.Text

variable {c : Char}

theorem toNat_ofNat (code : Nat) : Char.ofNat code = '\x00' ∨ (Char.ofNat code).toNat = code := by
  by_cases valid : code.isValidChar
  · have built : Char.ofNat code = Char.ofNatAux code valid := dif_pos valid
    rw [built]
    exact .inr rfl
  · exact .inl (dif_neg valid)

/-- No run of capital letters beyond the basic set leads back into it, except for the kelvin. -/
theorem distance_of_capitalRun : ∀ run ∈ capitalRuns,
    run.last < 0x80 ∨ (0x80 : Int) ≤ run.first + run.distance ∨
      (run.first = run.last ∧ (run.first : Int) + run.distance = 'k'.toNat) := by
  decide +kernel

/-- A character that is a small form of basic letters only. -/
def IsOwn (c : Char) : Prop := c.toNat < 0x80 ∧ c ≠ '\x00' ∧ c ≠ 'k' ∧ c ≠ 'i'

instance : DecidablePred IsOwn := fun _ => inferInstanceAs (Decidable (_ ∧ _))

/-- A letter beyond the basic set has no small letter, or lies in a run of capital letters. -/
theorem smallLetter_of_wide (wide : 0x80 ≤ c.toNat) :
    smallLetter c = c ∨ ∃ run ∈ capitalRuns, run.first ≤ c.toNat ∧ c.toNat ≤ run.last ∧
      smallLetter c = Char.ofNat ((c.toNat : Int) + run.distance).toNat := by
  unfold smallLetter
  rw [if_neg (by omega)]
  dsimp only
  split
  · next run found =>
    have covers := List.find?_some found
    simp only [Bool.and_eq_true, decide_eq_true_eq] at covers
    exact .inr ⟨run, List.mem_of_find?_eq_some found, covers.1.1, covers.1.2, rfl⟩
  · exact .inl rfl

theorem not_isOwn_smallLetter (wide : 0x80 ≤ c.toNat) : ¬ IsOwn (smallLetter c) := by
  rintro ⟨basic, noNull, noK, -⟩
  obtain same | ⟨run, member, first, last, same⟩ := smallLetter_of_wide wide
  · rw [same] at basic
    omega
  · rw [same] at basic noNull noK
    have code := (toNat_ofNat ((c.toNat : Int) + run.distance).toNat).resolve_left noNull
    obtain low | high | ⟨single, kelvin⟩ := distance_of_capitalRun run member
    · omega
    · omega
    · have isK : ((c.toNat : Int) + run.distance).toNat = 'k'.toNat := by omega
      exact noK (by rw [isK]; rfl)

/-- Whatever precedes a character, its small form begins with a character that is not the small form
of a basic letter, unless the character is basic itself. -/
theorem lowerAfter_cons_of_wide (wide : 0x80 ≤ c.toNat) (before rest : CodeText) :
    ∃ d more, lowerAfter before (.char c :: rest) = .char d :: more ∧ ¬ IsOwn d := by
  unfold lowerAfter
  dsimp only
  split
  · next same => cases same
  · split
    · exact ⟨_, _, rfl, by decide⟩
    · exact ⟨_, _, rfl, by decide⟩
  · exact ⟨_, _, rfl, by decide⟩
  · next other _ _ same =>
    cases same
    exact ⟨_, _, rfl, not_isOwn_smallLetter wide⟩

theorem lowerAfter_cons_of_basic (basic : c.toNat < 0x80) (before rest : CodeText) :
    lowerAfter before (.char c :: rest) =
      .char c.toLower :: lowerAfter (.char c :: before) rest := by
  have small : smallLetter c = c.toLower := if_pos basic
  have noSigma : c ≠ 'Σ' := by
    rintro rfl
    exact absurd basic (by decide)
  have noDot : c ≠ 'İ' := by
    rintro rfl
    exact absurd basic (by decide)
  rw [lowerAfter, small]
  · rfl
  · exact noSigma
  · exact noDot

theorem toLower_of_wide (wide : 0x80 ≤ c.toNat) : c.toLower = c := by
  unfold Char.toLower
  split
  · next capital =>
    have small : c.val.toNat ≤ 90 := UInt32.le_iff_toNat_le.mp capital.2
    change 0x80 ≤ c.val.toNat at wide
    omega
  · rfl

/-- A text of basic letters is the small form of the texts that it is the small form of letter by
letter. -/
theorem lowerAfter_eq_codes_iff (cs : List Char) {word : List Char} (own : ∀ c ∈ word, IsOwn c)
    (before : CodeText) :
    lowerAfter before (codes cs) = codes word ↔ cs.map Char.toLower = word := by
  induction cs generalizing word before with
  | nil => cases word <;> simp [codes, lowerAfter]
  | cons c cs ih =>
    change lowerAfter before (.char c :: codes cs) = _ ↔ _
    by_cases basic : c.toNat < 0x80
    · rw [lowerAfter_cons_of_basic basic]
      cases word with
      | nil => simp [codes]
      | cons d word =>
        obtain ⟨_, own⟩ := List.forall_mem_cons.mp own
        have rest := ih own (.char c :: before)
        simp only [codes] at rest
        simp [codes, rest]
    · obtain ⟨d, more, small, notOwn⟩ :=
        lowerAfter_cons_of_wide (Nat.le_of_not_lt basic) before (codes cs)
      have same := toLower_of_wide (Nat.le_of_not_lt basic)
      cases word with
      | nil =>
        rw [small]
        simp [codes]
      | cons e word =>
        obtain ⟨isOwn, -⟩ := List.forall_mem_cons.mp own
        have other : d ≠ e := fun same => notOwn (same ▸ isOwn)
        have other' : c ≠ e := fun same => basic (same ▸ isOwn.1)
        rw [small]
        simp [codes, other, same, other']

theorem lowerCase_eq_codes_iff (cs : List Char) {word : List Char} (own : ∀ c ∈ word, IsOwn c) :
    lowerCase (codes cs) = codes word ↔ cs.map Char.toLower = word :=
  lowerAfter_eq_codes_iff cs own []

end Chip8.Text
