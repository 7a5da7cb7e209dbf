import Chip8.Proofs.ConfigReload

/-! # Configurations in files

A configuration file should come to what its document comes to: a mapping to what it comes to by
itself, nothing to the defaults, any other value to a rejection. Whatever the documents are read
with, this holds of all files but those with a hollow document, a false, a zero or something empty,
which are taken for nothing. A foreign object that does not answer whether it is hollow gives a
rejection of another kind, or none.
-/

namespace Chip8.Config

open Text

/-- What the value of a document should come to. -/
def outcomeOf (reader : Reader) (files : Files) (path : CodeText) :
    Value → Except LoadProblem Config
  | .mapping entries => load reader files (.mapping entries)
  | .null => load reader files .default
  | _ => .error (.rejected (.fileNotMapping path))

/-- A file comes to what its document should come to. One that is malformed is rejected; nothing is
said of a file on which the reader raises an error of another kind. -/
def Follows (reader : Reader) (files : Files) (path : CodeText) : Except Raised Value → Prop
  | .ok v => load reader files (.file path) = outcomeOf reader files path v
  | .error error => error.family = .document →
      ∃ rejection, load reader files (.file path) = .error (.rejected rejection)

/-- If there is a file at a path, it comes to what its document should come to. -/
def FollowsDocument (reader : Reader) (files : Files) (path : CodeText) : Prop :=
  ∀ bytes, HasFile files path bytes → Follows reader files path (reader.document bytes)

/-- The values that count as no, but are neither nothing nor a mapping. -/
inductive IsHollow : Value → Prop
  | no : IsHollow (.bool false)
  | zero : IsHollow (.int 0)
  | decimalZero {x : Float} : (x == 0.0) = true → IsHollow (.float x)
  | text : IsHollow (.text "")
  | brokenText : IsHollow (.brokenText [])
  | bytes : IsHollow (.bytes [])
  | list : IsHollow (.list [])
  | set : IsHollow (.set [])
  | foreign {object : Foreign} : object.truth = .ok false → IsHollow (.foreign object)

/-- A foreign object that raises an error when it is asked for its truth. -/
def IsMute (v : Value) : Prop := ∃ error, v.truthy = .error error

/-- There is a file at a path, with this document. -/
def HasDocument (reader : Reader) (files : Files) (path : CodeText) (v : Value) : Prop :=
  ∃ bytes, HasFile files path bytes ∧ reader.document bytes = .ok v

section Document

variable {path : CodeText} {v : Value}

theorem IsHollow.truthy (hollow : IsHollow v) : v.truthy = .ok false := by
  cases hollow with
  | decimalZero zero => simp [Value.truthy, zero]
  | foreign no => exact no
  | _ => rfl

/-- A value that counts as no is nothing, an empty mapping or hollow. -/
theorem isHollow_of_truthy (no : v.truthy = .ok false) (notNull : v ≠ .null)
    (notMapping : ∀ entries, v ≠ .mapping entries) : IsHollow v := by
  cases v with
  | null => exact absurd rfl notNull
  | mapping entries => exact absurd rfl (notMapping entries)
  | bool b =>
    obtain rfl : b = false := Except.ok.inj no
    exact .no
  | int z =>
    obtain rfl : z = 0 := by simpa [Value.truthy] using no
    exact .zero
  | float x => exact .decimalZero (by simpa [Value.truthy] using no)
  | text s =>
    obtain rfl : s = "" := by simpa [Value.truthy] using no
    exact .text
  | brokenText t =>
    obtain rfl : t = [] := by simpa [Value.truthy] using no
    exact .brokenText
  | bytes b =>
    obtain rfl : b = [] := by simpa [Value.truthy] using no
    exact .bytes
  | list items =>
    obtain rfl : items = [] := by simpa [Value.truthy] using no
    exact .list
  | set items =>
    obtain rfl : items = [] := by simpa [Value.truthy] using no
    exact .set
  | day d => cases no
  | time t => cases no
  | foreign object => exact .foreign no

/-- A value that is no mapping has the entries that its truth comes to. -/
theorem entriesOf_eq (path : CodeText) (notMapping : ∀ entries, v ≠ .mapping entries) :
    entriesOf path v = reading path v.truthy >>= fun yes =>
      if yes then .error (.rejected (.fileNotMapping path)) else .ok [] := by
  unfold entriesOf
  split
  · next entries => exact absurd rfl (notMapping entries)
  · congr 1

theorem IsHollow.not_mapping (hollow : IsHollow v) (entries : List (Value × Value)) :
    v ≠ .mapping entries := by
  rintro rfl
  cases hollow

theorem IsMute.not_mapping (mute : IsMute v) (entries : List (Value × Value)) :
    v ≠ .mapping entries := by
  rintro rfl
  obtain ⟨error, raised⟩ := mute
  cases raised

/-- A hollow value has the entries of an empty mapping. -/
theorem entriesOf_of_hollow (hollow : IsHollow v) : entriesOf path v = .ok [] := by
  rw [entriesOf_eq path hollow.not_mapping, hollow.truthy]
  rfl

variable (path) in
/-- A value that does not tell whether it is hollow is refused, but not for what it is. -/
theorem entriesOf_of_mute (mute : IsMute v) :
    ∃ problem, entriesOf path v = .error problem ∧ problem ≠ .rejected (.fileNotMapping path) := by
  obtain ⟨error, raised⟩ := id mute
  rw [entriesOf_eq path mute.not_mapping, raised]
  by_cases caught : error.isReading = true
  · refine ⟨.rejected (.fileMalformed path error), ?_, by simp⟩
    rw [reading, if_pos caught]
    rfl
  · refine ⟨.raised error, ?_, by simp⟩
    rw [reading, if_neg caught]
    rfl

/-- Any other value that is no mapping has none. -/
theorem entriesOf_of_solid (solid : ¬ IsHollow v) (answers : ¬ IsMute v) (notNull : v ≠ .null)
    (notMapping : ∀ entries, v ≠ .mapping entries) :
    entriesOf path v = .error (.rejected (.fileNotMapping path)) := by
  have yes : v.truthy = .ok true := by
    cases truth : v.truthy with
    | error error => exact absurd ⟨error, truth⟩ answers
    | ok yes =>
      cases yes with
      | true => rfl
      | false => exact absurd (isHollow_of_truthy truth notNull notMapping) solid
  rw [entriesOf_eq path notMapping, yes]
  rfl

end Document

section File

variable {reader : Reader} {files : Files} {path : CodeText} {bytes : List UInt8} {v : Value}

/-- A file comes to what is read from its bytes. -/
theorem load_file_of_hasFile (file : HasFile files path bytes) :
    load reader files (.file path) =
      reading path (reader.document bytes) >>= entriesOf path >>= ofEntries reader := by
  change ofFile reader files path = _
  unfold ofFile readEntries
  rw [file.1, file.2]

theorem load_file_of_document (document : HasDocument reader files path v) :
    load reader files (.file path) = entriesOf path v >>= ofEntries reader := by
  obtain ⟨bytes, file, isDocument⟩ := document
  rw [load_file_of_hasFile file, isDocument]
  rfl

/-- A hollow document is taken for nothing. -/
theorem load_file_of_hollow (document : HasDocument reader files path v) (hollow : IsHollow v) :
    load reader files (.file path) = load reader files .default := by
  rw [load_file_of_document document, entriesOf_of_hollow hollow]
  rfl

theorem load_file_of_solid (document : HasDocument reader files path v) (solid : ¬ IsHollow v)
    (answers : ¬ IsMute v) : load reader files (.file path) = outcomeOf reader files path v := by
  rw [load_file_of_document document]
  unfold outcomeOf
  split
  · rfl
  · rfl
  · next notMapping notNull =>
    rw [entriesOf_of_solid solid answers notNull notMapping]
    rfl

/-- What a value should come to that is neither nothing nor a mapping. -/
theorem outcomeOf_of_notMapping (notNull : v ≠ .null)
    (notMapping : ∀ entries, v ≠ .mapping entries) :
    outcomeOf reader files path v = .error (.rejected (.fileNotMapping path)) := by
  unfold outcomeOf
  split
  · next entries => exact absurd rfl (notMapping entries)
  · exact absurd rfl notNull
  · rfl

/-- The outcome for a hollow document is not the one that it should be. -/
theorem load_default_ne_outcomeOf (hollow : IsHollow v) :
    load reader files .default ≠ outcomeOf reader files path v := by
  have notNull : v ≠ .null := by
    rintro rfl
    cases hollow
  rw [load_default, outcomeOf_of_notMapping notNull hollow.not_mapping]
  intro same
  cases same

/-- Neither is that for a document that does not tell whether it is hollow. -/
theorem load_file_ne_outcomeOf (document : HasDocument reader files path v) (mute : IsMute v) :
    load reader files (.file path) ≠ outcomeOf reader files path v := by
  have notNull : v ≠ .null := by
    rintro rfl
    obtain ⟨error, raised⟩ := mute
    cases raised
  obtain ⟨problem, refused, other⟩ := entriesOf_of_mute path mute
  rw [load_file_of_document document, refused,
    outcomeOf_of_notMapping notNull mute.not_mapping]
  exact fun same => other (Except.error.inj same)

/-- A document on which the reader raises the error that it should is rejected. -/
theorem follows_of_error (file : HasFile files path bytes) {error : Raised}
    (failed : reader.document bytes = .error error) :
    Follows reader files path (reader.document bytes) := by
  rw [failed]
  intro malformed
  refine ⟨.fileMalformed path error, ?_⟩
  have caught : error.isReading = true := by simp [Raised.isReading, malformed]
  rw [load_file_of_hasFile file, failed, reading, if_pos caught]
  rfl

/-- Whatever the files are and whatever documents are read with, all files come to what their
documents should come to but those with a hollow document, which come to the defaults instead of a
rejection, and those with a foreign object that does not answer. -/
theorem followsDocument_iff (reader : Reader) (files : Files) (path : CodeText) :
    (FollowsDocument reader files path ↔
      ∀ v, HasDocument reader files path v → ¬ IsHollow v ∧ ¬ IsMute v) ∧
    ∀ v, HasDocument reader files path v → IsHollow v →
      load reader files (.file path) = load reader files .default := by
  refine ⟨⟨?_, ?_⟩, fun v => load_file_of_hollow⟩
  · intro follows v document
    obtain ⟨bytes, file, isDocument⟩ := id document
    have outcome := follows bytes file
    rw [isDocument] at outcome
    have comes : load reader files (.file path) = outcomeOf reader files path v := outcome
    refine ⟨fun hollow => ?_, fun mute => load_file_ne_outcomeOf document mute comes⟩
    rw [load_file_of_hollow document hollow] at comes
    exact load_default_ne_outcomeOf hollow comes
  · intro solid bytes file
    cases isDocument : reader.document bytes with
    | error error =>
      rw [← isDocument]
      exact follows_of_error file isDocument
    | ok v =>
      obtain ⟨notHollow, notMute⟩ := solid v ⟨bytes, file, isDocument⟩
      exact load_file_of_solid ⟨bytes, file, isDocument⟩ notHollow notMute

/-- A document with an empty list, which is no mapping, is not rejected. -/
theorem not_followsDocument_emptyList :
    let reader : Reader := ⟨fun _ => .ok (.list []), .ok⟩
    let files := FileTree.files [("c.yaml", .file [0x5B, 0x5D])]
    ¬ FollowsDocument reader files (codesOf "c.yaml") := by
  intro reader files follows
  have file : HasFile files (codesOf "c.yaml") [0x5B, 0x5D] := ⟨rfl, rfl⟩
  have outcome : load reader files (.file (codesOf "c.yaml")) =
      .error (.rejected (.fileNotMapping (codesOf "c.yaml"))) := follows _ file
  rw [load_file_of_hollow ⟨_, file, rfl⟩ .list, load_default] at outcome
  cases outcome

end File

end Chip8.Config
