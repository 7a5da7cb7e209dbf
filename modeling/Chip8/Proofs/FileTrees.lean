import Chip8.FileTree
import Mathlib.Data.List.Basic

/-! # Files apart from each other

A file that is written changes nothing at other paths: what was found there is found again, and
what was missing is missing. For this a path is taken apart into its steps, and a place among files
into the directories above it.
-/

namespace Chip8

/-- A name that a path can go through in one step. -/
def IsStep (name : String) : Prop := '/' ∉ name.toList ∧ name ≠ "" ∧ name ≠ "."

def pathOf (rooted : Bool) (steps : List String) : String :=
  let relative := "/".intercalate steps
  if rooted then "/" ++ relative else if relative = "" then "." else relative

section Steps

variable {rooted : Bool} {steps : List String} {name path : String}

theorem tidyPath_eq (path : String) : tidyPath path = pathOf (isRooted path) (pathSteps path) := rfl

theorem pathSteps_eq (path : String) :
    pathSteps path = ((path.toList.splitOnP (· = '/')).map String.ofList).filter
      fun step => decide (step ≠ "" ∧ step ≠ ".") := rfl

/-- The steps of two paths with a slash between them. -/
theorem pathSteps_append (first second : List Char) :
    pathSteps (String.ofList (first ++ '/' :: second)) =
      pathSteps (String.ofList first) ++ pathSteps (String.ofList second) := by
  simp only [pathSteps_eq, String.toList_ofList]
  rw [List.splitOnP_append_cons first second (by decide), List.map_append, List.filter_append]

theorem pathSteps_of_isStep (step : IsStep name) : pathSteps name = [name] := by
  have whole : name.toList.splitOnP (· = '/') = [name.toList] := by
    apply List.splitOnP_eq_singleton
    intro c member
    rw [decide_eq_false_iff_not]
    rintro rfl
    exact step.1 member
  rw [pathSteps_eq, whole, List.map_singleton, String.ofList_toList, List.filter_singleton,
    decide_eq_true step.2]
  rfl

theorem pathSteps_intercalate (areSteps : ∀ name ∈ steps, IsStep name) :
    pathSteps ("/".intercalate steps) = steps := by
  induction steps with
  | nil => rfl
  | cons name rest ih =>
    obtain ⟨step, others⟩ := List.forall_mem_cons.mp areSteps
    cases rest with
    | nil => simpa using pathSteps_of_isStep step
    | cons next rest =>
      have cut : "/".intercalate (name :: next :: rest) =
          String.ofList (name.toList ++ '/' :: ("/".intercalate (next :: rest)).toList) := by
        rw [String.intercalate_cons_cons]
        apply String.toList_inj.mp
        simp
      rw [cut, pathSteps_append, String.ofList_toList, String.ofList_toList, ih others,
        pathSteps_of_isStep step]
      rfl

/-- What lies between slashes has none. -/
theorem slash_notMem_of_mem_splitOnP {text part : List Char}
    (member : part ∈ text.splitOnP (· = '/')) : '/' ∉ part := by
  induction text generalizing part with
  | nil => simp_all
  | cons c rest ih =>
    rw [List.splitOnP_cons_eq_if_modifyHead] at member
    split at member
    · obtain rfl | later := List.mem_cons.mp member
      · exact List.not_mem_nil
      · exact ih later
    · next noSlash =>
      obtain ⟨head, others, parts⟩ :=
        List.exists_cons_of_ne_nil (List.splitOnP_ne_nil (· = '/') rest)
      rw [parts] at member ih
      obtain rfl | later := List.mem_cons.mp member
      · intro slash
        obtain rfl | within := List.mem_cons.mp slash
        · exact noSlash (by decide)
        · exact ih (List.mem_cons_self ..) within
      · exact ih (List.mem_cons_of_mem _ later)

theorem isStep_of_mem_pathSteps (member : name ∈ pathSteps path) : IsStep name := by
  obtain ⟨inside, proper⟩ := List.mem_filter.mp member
  obtain ⟨part, isPart, rfl⟩ := List.mem_map.mp inside
  refine ⟨?_, of_decide_eq_true proper⟩
  rw [String.toList_ofList]
  exact slash_notMem_of_mem_splitOnP isPart

theorem pathOf_rooted (steps : List String) :
    pathOf true steps = String.ofList ([] ++ '/' :: ("/".intercalate steps).toList) := by
  apply String.toList_inj.mp
  simp [pathOf]

/-- A path is made of its steps. -/
theorem pathSteps_pathOf (rooted : Bool) (areSteps : ∀ name ∈ steps, IsStep name) :
    pathSteps (pathOf rooted steps) = steps := by
  have joined := pathSteps_intercalate areSteps
  cases rooted with
  | true =>
    rw [pathOf_rooted, pathSteps_append, String.ofList_toList, joined]
    rfl
  | false =>
    simp only [pathOf, Bool.false_eq_true, ↓reduceIte]
    split
    · next nothing =>
      rw [← joined, nothing]
      rfl
    · exact joined

theorem head?_intercalate (areSteps : ∀ name ∈ steps, IsStep name) :
    ("/".intercalate steps).toList.head? ≠ some '/' := by
  cases steps with
  | nil => decide
  | cons name rest =>
    obtain ⟨noSlash, some, -⟩ := areSteps name (List.mem_cons_self ..)
    obtain ⟨behind, begins⟩ : ∃ behind, ("/".intercalate (name :: rest)).toList =
        name.toList ++ behind := by
      cases rest with
      | nil => exact ⟨[], by simp⟩
      | cons next rest => exact ⟨_, by rw [String.intercalate_cons_cons, String.append_assoc,
          String.toList_append]⟩
    obtain ⟨c, others, parts⟩ := List.exists_cons_of_ne_nil (mt String.toList_eq_nil_iff.mp some)
    rw [begins, parts]
    rintro ⟨⟩
    exact noSlash (by simp [parts])

theorem isRooted_pathOf (rooted : Bool) (areSteps : ∀ name ∈ steps, IsStep name) :
    isRooted (pathOf rooted steps) = rooted := by
  cases rooted with
  | true =>
    rw [pathOf_rooted, isRooted, String.toList_ofList]
    rfl
  | false =>
    simp only [pathOf, Bool.false_eq_true, ↓reduceIte]
    split
    · rfl
    · exact decide_eq_false (head?_intercalate areSteps)

theorem isRooted_of_isStep (step : IsStep name) : isRooted name = false :=
  decide_eq_false fun slash => step.1 (List.mem_of_mem_head? slash)

theorem tidyPath_of_isStep (step : IsStep name) : tidyPath name = name := by
  rw [tidyPath_eq, pathSteps_of_isStep step, isRooted_of_isStep step]
  simp [pathOf, step.2.1]

end Steps

namespace Location

/-- The names that lead from the working directory or the root to a place. -/
def steps (l : Location) : List String := List.replicate l.above ".." ++ l.names

/-- A place whose names lead on from directory to directory, never back. -/
def IsPlain (l : Location) : Prop := ∀ name ∈ l.names, IsStep name ∧ name ≠ ".."

variable {l other : Location} {name path : String}

theorem path_eq (l : Location) : l.path = pathOf l.fromRoot l.steps := rfl

theorem IsPlain.isStep (plain : l.IsPlain) (member : name ∈ l.steps) : IsStep name := by
  obtain above | below := List.mem_append.mp member
  · rw [(List.mem_replicate.mp above).2]
    unfold IsStep
    decide
  · exact (plain name below).1

theorem isPlain_start (path : String) : (start path).IsPlain := by
  intro name member
  cases member

theorem IsPlain.step (plain : l.IsPlain) (isStep : IsStep name) : (l.step name).IsPlain := by
  unfold Location.step
  split
  · unfold parent
    split
    · exact fun other member => plain other ((List.dropLast_sublist _).subset member)
    · split
      · exact plain
      · exact plain
  · next goesDown =>
    intro other member
    obtain within | new := List.mem_append.mp member
    · exact plain other within
    · rw [List.mem_singleton.mp new]
      exact ⟨isStep, goesDown⟩

theorem isPlain_foldl (plain : l.IsPlain) {names : List String}
    (areSteps : ∀ name ∈ names, IsStep name) : (names.foldl Location.step l).IsPlain := by
  induction names generalizing l with
  | nil => exact plain
  | cons name rest ih =>
    obtain ⟨isStep, others⟩ := List.forall_mem_cons.mp areSteps
    exact ih (plain.step isStep) others

theorem isPlain_ofPath (path : String) : (ofPath path).IsPlain :=
  isPlain_foldl (isPlain_start path) fun _ => isStep_of_mem_pathSteps

/-- The place of a name below the working directory is the name. -/
theorem path_ofPath_of_isStep (isStep : IsStep name) (goesDown : name ≠ "..") :
    (ofPath name).path = name := by
  have place : ofPath name = ⟨false, 0, [name]⟩ := by
    rw [ofPath, pathSteps_of_isStep isStep, List.foldl_cons, List.foldl_nil, Location.step,
      if_neg goesDown, start, isRooted_of_isStep isStep]
    rfl
  rw [place, path_eq]
  simp [pathOf, steps, isStep.2.1]

/-- The place of a path is that of the tidy path. -/
theorem ofPath_tidyPath (path : String) : ofPath (tidyPath path) = ofPath path := by
  have areSteps : ∀ name ∈ pathSteps path, IsStep name := fun _ => isStep_of_mem_pathSteps
  rw [ofPath, start, tidyPath_eq, pathSteps_pathOf _ areSteps, isRooted_pathOf _ areSteps]
  rfl

theorem pathSteps_path (plain : l.IsPlain) : pathSteps l.path = l.steps :=
  pathSteps_pathOf l.fromRoot fun _ => plain.isStep

theorem isRooted_path (plain : l.IsPlain) : isRooted l.path = l.fromRoot :=
  isRooted_pathOf l.fromRoot fun _ => plain.isStep

/-- Steps up are told from names. -/
theorem eq_of_replicate_append {a b : Nat} {first second : List String}
    (noFirst : first.head? ≠ some "..") (noSecond : second.head? ≠ some "..")
    (same : List.replicate a ".." ++ first = List.replicate b ".." ++ second) :
    a = b ∧ first = second := by
  induction a generalizing b with
  | zero =>
    cases b with
    | zero => exact ⟨rfl, same⟩
    | succ b =>
      rw [List.replicate_zero, List.nil_append] at same
      exact absurd (congrArg List.head? same) noFirst
  | succ a ih =>
    cases b with
    | zero =>
      rw [List.replicate_zero, List.nil_append] at same
      exact absurd (congrArg List.head? same).symm noSecond
    | succ b =>
      obtain ⟨rfl, rfl⟩ := ih (List.cons.inj same).2
      exact ⟨rfl, rfl⟩

theorem IsPlain.head?_ne (plain : l.IsPlain) : l.names.head? ≠ some ".." :=
  fun first => (plain ".." (List.mem_of_mem_head? first)).2 rfl

/-- What lies below a named place has its names before its own. -/
theorem eq_of_below (plain : l.IsPlain) (otherPlain : other.IsPlain) (named : l.names ≠ [])
    (below : l.path.toList ++ ['/'] <+: other.path.toList) :
    ∃ further, further ≠ [] ∧ other = { l with names := l.names ++ further } := by
  obtain ⟨behind, whole⟩ := below
  have longer : other.path = String.ofList (l.path.toList ++ '/' :: behind) := by
    apply String.toList_inj.mp
    rw [String.toList_ofList, ← whole, List.append_assoc]
    rfl
  have steps : other.steps = l.steps ++ pathSteps (String.ofList behind) := by
    rw [← pathSteps_path otherPlain, longer, pathSteps_append, String.ofList_toList,
      pathSteps_path plain]
  have someSteps : l.path.toList ≠ [] := by
    intro nothing
    have none := pathSteps_path plain
    rw [String.toList_eq_nil_iff.mp nothing] at none
    exact named (List.append_eq_nil_iff.mp none.symm).2
  have rooted : other.fromRoot = l.fromRoot := by
    rw [← isRooted_path otherPlain, ← isRooted_path plain, longer, isRooted, isRooted,
      String.toList_ofList, List.head?_append_of_ne_nil _ someSteps]
  have headIsName : (l.names ++ pathSteps (String.ofList behind)).head? ≠ some ".." := by
    rw [List.head?_append_of_ne_nil _ named]
    exact plain.head?_ne
  obtain ⟨above, names⟩ := eq_of_replicate_append otherPlain.head?_ne headIsName
    (steps.trans (List.append_assoc ..))
  refine ⟨pathSteps (String.ofList behind), ?_, ?_⟩
  · intro nothing
    have same : other.path = l.path := by
      rw [path_eq, path_eq, rooted, steps, nothing, List.append_nil]
    rw [same] at whole
    simpa using congrArg List.length whole
  · rw [← rooted, ← names, ← above]

end Location

namespace FileTree

open Location

variable {tree : FileTree} {path logfile : String} {l place : Location} {names : List String}

theorem advance_of_ok {name : String} (reached : tree.advance path l name = .ok place) :
    tree.entryAt l = some .directory ∧ place = l.step name := by
  unfold advance at reached
  split at reached
  · cases reached
  · cases reached
  · cases reached
  · cases reached
  · next isDirectory =>
    split at reached
    · cases reached
    · exact ⟨isDirectory, (Except.ok.inj reached).symm⟩

/-- A walk down some names goes through directories. -/
theorem foldlM_advance_of_ok (down : ∀ name ∈ names, name ≠ "..")
    (reached : names.foldlM (tree.advance path) l = .ok place) :
    place = { l with names := l.names ++ names } ∧
      ∀ passed further, further ≠ [] → names = passed ++ further →
        tree.entryAt { l with names := l.names ++ passed } = some .directory := by
  induction names generalizing l with
  | nil =>
    obtain rfl := Except.ok.inj reached
    refine ⟨by rw [List.append_nil], fun passed further some parted => ?_⟩
    exact absurd (List.append_eq_nil_iff.mp parted.symm).2 some
  | cons name rest ih =>
    obtain ⟨goesDown, others⟩ := List.forall_mem_cons.mp down
    rw [List.foldlM_cons] at reached
    cases first : tree.advance path l name with
    | error problem =>
      rw [first] at reached
      cases reached
    | ok next =>
      rw [first] at reached
      obtain ⟨isDirectory, rfl⟩ := advance_of_ok first
      have steps : l.step name = { l with names := l.names ++ [name] } := if_neg goesDown
      rw [steps] at reached
      obtain ⟨rfl, directories⟩ := ih others reached
      refine ⟨by rw [List.append_assoc]; rfl, fun passed further some parted => ?_⟩
      cases passed with
      | nil => simpa using isDirectory
      | cons _ passed =>
        obtain ⟨rfl, behind⟩ := List.cons.inj parted
        simpa using directories passed further some behind

/-- A file that can be written lies in directories, and in its place is none, nor a closed file. -/
theorem entryAt_of_writable (writable : tree.writeProblem? logfile = none) :
    (∀ entry, tree.entryAt (ofPath logfile) = some entry → ∃ bytes, entry = .file bytes) ∧
      ∀ passed further, further ≠ [] → (ofPath logfile).names = passed ++ further →
        tree.entryAt { ofPath logfile with names := passed } = some .directory := by
  have down : ∀ name ∈ (ofPath logfile).names, name ≠ ".." :=
    fun name member => (isPlain_ofPath logfile name member).2
  simp only [writeProblem?] at writable
  split at writable
  · cases writable
  · split at writable
    · cases writable
    · split at writable
      · cases writable
      · next reached =>
        obtain ⟨rfl, directories⟩ := foldlM_advance_of_ok down reached
        refine ⟨fun entry here => ?_, directories⟩
        cases entry with
        | file bytes => exact ⟨bytes, rfl⟩
        | closedFile | directory | closedDirectory => simp [here] at writable

theorem entryAt_of_named (tree : FileTree) (named : l.names ≠ []) :
    tree.entryAt l =
      ((List.find? (fun entry => entry.1 == l.path) tree).map Prod.snd).or
        (if List.any tree fun entry => (l.path.toList ++ ['/']).isPrefixOf entry.1.toList
          then some .directory else none) := by
  simp only [entryAt, named, ↓reduceIte]
  split
  · next found => simp [found]
  · next missing => simp [missing]

/-- A written file is not seen at other places. -/
theorem entryAt_write (writable : tree.writeProblem? logfile = none) (plain : l.IsPlain)
    (other : l.names ≠ [] → l.path ≠ (ofPath logfile).path) (bytes : List UInt8) :
    (tree.write logfile bytes).entryAt l = tree.entryAt l := by
  by_cases named : l.names = []
  · simp only [entryAt, named, ↓reduceIte]
  have apart := other named
  have found : List.find? (fun entry => entry.1 == l.path) (tree.write logfile bytes) =
      List.find? (fun entry => entry.1 == l.path) tree := by
    rw [write, List.find?_cons_of_neg (by simpa using Ne.symm apart), List.find?_filter]
    refine congrArg (List.find? · tree) (funext fun entry => ?_)
    by_cases here : entry.1 = l.path
    · simp [here, apart]
    · simp [here]
  by_cases below : l.path.toList ++ ['/'] <+: (ofPath logfile).path.toList
  · -- the place is a directory above the file, and was one before
    obtain ⟨further, some, isBelow⟩ := eq_of_below plain (isPlain_ofPath logfile) named below
    have directory := (entryAt_of_writable writable).2 l.names further some (by rw [isBelow])
    rw [isBelow] at directory
    have now : (List.any (tree.write logfile bytes) fun entry =>
        (l.path.toList ++ ['/']).isPrefixOf entry.1.toList) = true := by
      rw [write, List.any_cons, List.isPrefixOf_iff_prefix.mpr below, Bool.true_or]
    rw [directory, entryAt_of_named _ named, found, now]
    rw [entryAt_of_named _ named] at directory
    cases seen : List.find? (fun entry => entry.1 == l.path) tree with
    | none => rfl
    | some entry => simpa [seen] using directory
  · have same : (List.any (tree.write logfile bytes) fun entry =>
        (l.path.toList ++ ['/']).isPrefixOf entry.1.toList) =
          List.any tree fun entry => (l.path.toList ++ ['/']).isPrefixOf entry.1.toList := by
      have notBelow : (l.path.toList ++ ['/']).isPrefixOf (ofPath logfile).path.toList = false :=
        Bool.eq_false_iff.mpr (mt List.isPrefixOf_iff_prefix.mp below)
      rw [write, List.any_cons, List.any_filter, notBelow, Bool.false_or]
      refine congrArg (List.any tree) (funext fun entry => ?_)
      by_cases atFile : entry.1 = (ofPath logfile).path
      · rw [atFile, notBelow, Bool.and_false]
      · rw [bne_iff_ne.mpr atFile, Bool.true_and]
    rw [entryAt_of_named _ named, entryAt_of_named _ named, found, same]

/-- A written file is at its place. -/
theorem entryAt_write_self (tree : FileTree) (named : l.names ≠ [])
    (here : l.path = (ofPath logfile).path) (bytes : List UInt8) :
    (tree.write logfile bytes).entryAt l = some (.file bytes) := by
  rw [entryAt_of_named _ named, write, List.find?_cons_of_pos (by simp [here])]
  rfl

/-- The operating system was asked, and nothing was found. -/
def FoundNothing (problem : FileProblem) : Prop :=
  problem.isAbsence = true ∧ problem.isSystem = true

/-- What following a path comes to, apart from why nothing was found. -/
inductive Alike {α : Type} : Except FileProblem α → Except FileProblem α → Prop
  | same (r : Except FileProblem α) : Alike r r
  | nothing {problem problem' : FileProblem} :
      FoundNothing problem → FoundNothing problem' → Alike (.error problem) (.error problem')

theorem Alike.bind {α β : Type} {r r' : Except FileProblem α} (alike : Alike r r')
    {next next' : α → Except FileProblem β} (nexts : ∀ a, r = .ok a → Alike (next a) (next' a)) :
    Alike (r >>= next) (r' >>= next') := by
  cases alike with
  | same r =>
    cases r with
    | ok a => exact nexts a rfl
    | error problem => exact .same _
  | nothing absent absent' => exact .nothing absent absent'

theorem advance_of_entryAt {tree' : FileTree} {name : String}
    (same : tree'.entryAt l = tree.entryAt l) :
    tree'.advance path l name = tree.advance path l name := by
  rw [advance, advance, same]

/-- A walk does not go on where there is nothing or an open file. -/
theorem advance_of_noDirectory
    (noDirectory : ∀ entry, tree.entryAt l = some entry → ∃ bytes, entry = .file bytes)
    (path name : String) :
    ∃ problem, tree.advance path l name = .error problem ∧ FoundNothing problem := by
  unfold advance
  cases here : tree.entryAt l with
  | none => exact ⟨_, rfl, rfl, rfl⟩
  | some entry =>
    obtain ⟨bytes, rfl⟩ := noDirectory entry here
    exact ⟨_, rfl, rfl, rfl⟩

theorem names_of_writable (writable : tree.writeProblem? logfile = none) :
    (ofPath logfile).names ≠ [] := by
  intro unnamed
  have here : tree.entryAt (ofPath logfile) = some .directory := by
    simp only [entryAt, unnamed, ↓reduceIte]
  obtain ⟨bytes, isFile⟩ := (entryAt_of_writable writable).1 _ here
  cases isFile

/-- A walk among the files goes on as before, or ends where the written file is. -/
theorem walk_write (writable : tree.writeProblem? logfile = none) (plain : l.IsPlain)
    (areSteps : ∀ name ∈ names, IsStep name) (bytes : List UInt8) :
    Alike (names.foldlM ((tree.write logfile bytes).advance path) l)
      (names.foldlM (tree.advance path) l) := by
  induction names generalizing l with
  | nil => exact .same _
  | cons name rest ih =>
    obtain ⟨isStep, others⟩ := List.forall_mem_cons.mp areSteps
    rw [List.foldlM_cons, List.foldlM_cons]
    by_cases here : l.names ≠ [] ∧ l.path = (ofPath logfile).path
    · obtain ⟨named, atFile⟩ := here
      have before : ∀ entry, tree.entryAt l = some entry → ∃ bytes, entry = .file bytes := by
        rw [entryAt_of_named tree named, atFile,
          ← entryAt_of_named tree (names_of_writable writable)]
        exact (entryAt_of_writable writable).1
      have now : ∀ entry, (tree.write logfile bytes).entryAt l = some entry →
          ∃ bytes, entry = .file bytes := by
        rw [entryAt_write_self tree named atFile]
        exact fun entry isFile => ⟨bytes, (Option.some.inj isFile).symm⟩
      obtain ⟨problem, stopped, absent⟩ := advance_of_noDirectory before path name
      obtain ⟨problem', stopped', absent'⟩ := advance_of_noDirectory now path name
      rw [stopped, stopped']
      exact .nothing absent' absent
    · have same : (tree.write logfile bytes).entryAt l = tree.entryAt l :=
        entryAt_write writable plain (fun named atFile => here ⟨named, atFile⟩) bytes
      rw [advance_of_entryAt same]
      refine Alike.bind (.same _) fun next reached => ?_
      rw [(advance_of_ok reached).2]
      exact ih (plain.step isStep) others

theorem walk_of_ok (reached : names.foldlM (tree.advance path) l = .ok place) :
    place = names.foldl Location.step l := by
  induction names generalizing l with
  | nil => exact (Except.ok.inj reached).symm
  | cons name rest ih =>
    rw [List.foldlM_cons] at reached
    cases first : tree.advance path l name with
    | error problem =>
      rw [first] at reached
      cases reached
    | ok next =>
      rw [first] at reached
      rw [List.foldl_cons, ← (advance_of_ok first).2]
      exact ih reached

/-- After a file was written, other paths lead to what they led to before. -/
theorem follow_write (writable : tree.writeProblem? logfile = none)
    (apart : (ofPath path).path ≠ (ofPath logfile).path) (bytes : List UInt8) :
    Alike ((tree.write logfile bytes).follow path) (tree.follow path) := by
  unfold follow
  by_cases null : '\x00' ∈ path.toList
  · simp only [null, ↓reduceIte]
    exact .same _
  by_cases long : maxPathSize < path.utf8ByteSize
  · simp only [null, long, ↓reduceIte]
    exact .same _
  simp only [null, long, ↓reduceIte]
  have areSteps : ∀ name ∈ pathSteps path, IsStep name := fun _ => isStep_of_mem_pathSteps
  refine (walk_write writable (isPlain_start path) areSteps bytes).bind fun place reached => ?_
  obtain rfl : place = ofPath path := walk_of_ok reached
  rw [entryAt_write writable (isPlain_ofPath path) (fun _ => apart)]
  exact .same _

theorem has_of_problem {problem : FileProblem} (failed : tree.follow path = .error problem)
    (absent : problem.isAbsence = true) : tree.has path = .ok false := by
  rw [has, failed]
  exact if_pos absent

/-- Of a name that is too long it cannot be said whether there is such a file. -/
theorem has_of_longName (tree : FileTree) {name : String} (step : IsStep name)
    (noNull : '\x00' ∉ name.toList) (long : maxNameSize < name.utf8ByteSize) :
    tree.has name = .error (.nameTooLong name) := by
  have followed : tree.follow name = .error (.nameTooLong name) := by
    unfold follow
    simp only [noNull, ↓reduceIte]
    split
    · rfl
    · rw [pathSteps_of_isStep step, List.foldlM_cons, advance, if_pos long]
      rfl
  rw [has, followed]
  rfl

/-- Other files are there as before a file was written. -/
theorem has_write (writable : tree.writeProblem? logfile = none)
    (apart : (ofPath path).path ≠ (ofPath logfile).path) (bytes : List UInt8) :
    (tree.write logfile bytes).has path = tree.has path := by
  have alike := follow_write writable apart bytes
  generalize isNow : (tree.write logfile bytes).follow path = now at alike
  generalize isBefore : tree.follow path = before at alike
  cases alike with
  | same => rw [has, has, isNow, isBefore]
  | nothing absent absent' =>
    rw [has_of_problem isNow absent.1, has_of_problem isBefore absent'.1]

/-- Other files are read as before a file was written. -/
theorem read_write (writable : tree.writeProblem? logfile = none)
    (apart : (ofPath path).path ≠ (ofPath logfile).path) (bytes : List UInt8) :
    Alike ((tree.write logfile bytes).read path) (tree.read path) := by
  unfold read
  exact (follow_write writable apart bytes).bind fun _ _ => .same _

/-- A file that is there is read as before another file was written. -/
theorem read_write_of_has (writable : tree.writeProblem? logfile = none)
    (apart : (ofPath path).path ≠ (ofPath logfile).path) (bytes : List UInt8)
    (present : tree.has path = .ok true) :
    (tree.write logfile bytes).read path = tree.read path := by
  have alike := follow_write writable apart bytes
  generalize isNow : (tree.write logfile bytes).follow path = now at alike
  generalize isBefore : tree.follow path = before at alike
  cases alike with
  | same => rw [read, read, isNow, isBefore]
  | nothing _ absent =>
    rw [has_of_problem isBefore absent.1] at present
    cases present

end FileTree

end Chip8
