import Chip8.Text.Utf8

/-! # File trees

The files that a program can see, below its working directory, and why one cannot be read or
written. A path is followed step by step, and every step but the last must lead to a directory that
is open. The names of files are characters, so a path with halves of pairs names nothing.
-/

namespace Chip8

open Text

/-- A file with its bytes, or a directory. One that is closed may not be opened or looked into; the
operating system refuses that with a number and a remark. -/
inductive FileEntry where
  | file (bytes : List UInt8)
  | closedFile (number : Nat) (remark : String)
  | directory
  | closedDirectory (number : Nat) (remark : String)
deriving DecidableEq, Repr

def FileEntry.isDirectory : FileEntry → Bool
  | file _ => false
  | closedFile .. => false
  | directory => true
  | closedDirectory .. => true

/-- A place among files: names of directories and at last of a file or directory, from the root or
from a directory at or above the working directory. -/
structure Location where
  fromRoot : Bool
  /-- How many directories above the working directory the names begin. -/
  above : Nat
  names : List String
deriving DecidableEq, Repr

/-- Entries by path below the working directory. -/
abbrev FileTree := List (String × FileEntry)

/-- Why a file cannot be read or written; the path as the message shows it. -/
inductive FileProblem where
  | missing (path : String)
  | isDirectory (path : String)
  /-- A step of the path leads to a file, and the path goes on. -/
  | notDirectory (path : String)
  | nameTooLong (path : String)
  /-- A path with a null character, which no file has. -/
  | nullCharacter
  /-- A path without bytes, which no file has. -/
  | noEncoding (path : CodeText)
  /-- Any other refusal of the operating system, by its number and remark. -/
  | system (number : Nat) (remark path : String)
deriving DecidableEq, Repr

/-- The sentence that describes why a file cannot be read or written. -/
def FileProblem.message : FileProblem → String
  | missing path => "[Errno 2] No such file or directory: " ++ quoted path
  | isDirectory path => "[Errno 21] Is a directory: " ++ quoted path
  | notDirectory path => "[Errno 20] Not a directory: " ++ quoted path
  | nameTooLong path => "[Errno 36] File name too long: " ++ quoted path
  | nullCharacter => "embedded null byte"
  | noEncoding path => noEncodingMessage path
  | system number remark path =>
    "[Errno " ++ decimal number ++ "] " ++ remark ++ ": " ++ quoted path

/-- Whether the operating system was asked at all. -/
def FileProblem.isSystem : FileProblem → Bool
  | nullCharacter => false
  | noEncoding _ => false
  | _ => true

/-- Whether the problem says that nothing is at a path. Of other refusals these are a bad descriptor
and too many links. -/
def FileProblem.isAbsence : FileProblem → Bool
  | missing _ => true
  | notDirectory _ => true
  | nullCharacter => true
  | noEncoding _ => true
  | system number _ _ => number ∈ [2, 9, 20, 40]
  | isDirectory _ => false
  | nameTooLong _ => false

/-- The path that a text is. A text with halves of pairs is none. -/
def pathOf? (text : CodeText) : Option String := (chars? text).map String.ofList

theorem pathOf?_codesOf (path : String) : pathOf? (codesOf path) = some path := by
  rw [pathOf?, codesOf, chars?_codes]
  exact congrArg some String.ofList_toList

/-- The steps of a path: what stands between slashes, without empty steps and steps in place. -/
def pathSteps (path : String) : List String :=
  let parts := (path.toList.splitOnP (· = '/')).map String.ofList
  parts.filter fun step => step ≠ "" ∧ step ≠ "."

def isRooted (path : String) : Bool := path.toList.head? = some '/'

/-- A path without empty steps and steps in place; the working directory itself is a point. -/
def tidyPath (path : String) : String :=
  let relative := "/".intercalate (pathSteps path)
  if isRooted path then "/" ++ relative else if relative = "" then "." else relative

namespace Location

/-- Where the paths from the root or from the working directory start. -/
def start (path : String) : Location := ⟨isRooted path, 0, []⟩

def parent (l : Location) : Location :=
  if l.names ≠ [] then { l with names := l.names.dropLast }
  else if l.fromRoot then l
  else { l with above := l.above + 1 }

def step (l : Location) (name : String) : Location :=
  if name = ".." then l.parent else { l with names := l.names ++ [name] }

/-- The place that a path names if a step up undoes the step before it. -/
def ofPath (path : String) : Location := (pathSteps path).foldl step (start path)

def path (l : Location) : String :=
  let relative := "/".intercalate (List.replicate l.above ".." ++ l.names)
  if l.fromRoot then "/" ++ relative else if relative = "" then "." else relative

end Location

namespace FileTree

abbrev maxNameSize : Nat := 255

abbrev maxPathSize : Nat := 4095

/-- The entry at a place. Directories are where entries lie below them, and so are the working
directory and those above. -/
def entryAt (tree : FileTree) (l : Location) : Option FileEntry :=
  let below := l.path.toList ++ ['/']
  if l.names = [] then some .directory
  else match List.find? (fun entry => entry.1 == l.path) tree with
    | some entry => some entry.2
    | none =>
        if List.any tree fun entry => below.isPrefixOf entry.1.toList then some .directory else none

/-- The entry at a path, where a step up undoes the step before it. -/
def entry? (tree : FileTree) (path : String) : Option FileEntry := tree.entryAt (.ofPath path)

/-- The place after one more step from a place, which must be a directory. -/
def advance (tree : FileTree) (path : String) (l : Location) (name : String) :
    Except FileProblem Location :=
  match tree.entryAt l with
  | none => .error (.missing path)
  | some (.file _) | some (.closedFile ..) => .error (.notDirectory path)
  | some (.closedDirectory number remark) => .error (.system number remark path)
  | some .directory =>
      if maxNameSize < name.utf8ByteSize then .error (.nameTooLong path) else .ok (l.step name)

/-- Whether a path can only name a directory, as it ends in a slash or a step in place. -/
def namesDirectory (path : String) : Bool :=
  let last := (path.toList.splitOnP (· = '/')).getLastD []
  last = [] ∨ last = ['.']

def follow (tree : FileTree) (path : String) : Except FileProblem FileEntry := do
  if '\x00' ∈ path.toList then throw .nullCharacter
  if maxPathSize < path.utf8ByteSize then throw (.nameTooLong path)
  let place ← (pathSteps path).foldlM (tree.advance path) (.start path)
  match tree.entryAt place with
  | none => throw (.missing path)
  | some entry =>
      if namesDirectory path ∧ !entry.isDirectory then throw (.notDirectory path) else return entry

/-- Whether there is an entry at a path, or why that cannot be told. -/
def has (tree : FileTree) (path : String) : Except FileProblem Bool :=
  match tree.follow path with
  | .ok _ => .ok true
  | .error problem => if problem.isAbsence then .ok false else .error problem

def read (tree : FileTree) (path : String) : Except FileProblem (List UInt8) := do
  match ← tree.follow path with
  | .file bytes => return bytes
  | .closedFile number remark => throw (.system number remark path)
  | .directory | .closedDirectory .. => throw (.isDirectory path)

/-- Why a file cannot be written, if it cannot. A step up undoes the step before it, and the other
steps are followed in turn; nothing need be at the last one. -/
def writeProblem? (tree : FileTree) (path : String) : Option FileProblem :=
  let place := Location.ofPath path
  if '\x00' ∈ path.toList then some .nullCharacter
  else if maxPathSize < place.path.utf8ByteSize then some (.nameTooLong path)
  else
    match place.names.foldlM (tree.advance path) { place with names := [] } with
    | .error problem => some problem
    | .ok place =>
        match tree.entryAt place with
        | none | some (.file _) => none
        | some (.closedFile number remark) => some (.system number remark path)
        | some .directory | some (.closedDirectory ..) => some (.isDirectory path)

def write (tree : FileTree) (path : String) (bytes : List UInt8) : FileTree :=
  let path := (Location.ofPath path).path
  (path, .file bytes) :: List.filter (fun entry => entry.1 != path) tree

end FileTree

end Chip8
