import Chip8.FileTree
import Chip8.Value

/-! # What configurations are read with

The files that can be seen, the reader of documents and the order of foreign keys. None of them is
part of a configuration, and each may fail in ways of its own.
-/

namespace Chip8

open Text

namespace Config

/-- Files by path as it is given, as the operating system shows them. -/
structure Files where
  /-- Whether there is something at a path, or why that cannot be told. -/
  has : CodeText → Except FileProblem Bool
  read : CodeText → Except FileProblem (List UInt8)

/-- What a document and its keys are read with. -/
structure Reader where
  /-- The value of the document that some bytes are. -/
  document : List UInt8 → Except Raised Value
  /-- Keys in order, if one of them is a foreign object. -/
  sorted : List Value → Except Raised (List Value)

end Config

namespace FileTree

/-- The files of a tree, each at any path that comes to its own when tidied. -/
def files (tree : FileTree) : Config.Files where
  has text :=
    match pathOf? text with
    | none => .ok false
    | some path => tree.has (tidyPath path)
  read text :=
    match pathOf? text with
    | none => .error (.noEncoding text)
    | some path => tree.read (tidyPath path)

end FileTree

end Chip8
