import Chip8.Yaml.Form

/-! # Documents

The value of a document, from the forms of its nodes. Values are finite: a collection inside itself
is unfolded a few times, and cut off there.
-/

namespace Chip8.Yaml

open Text

namespace Form

/-- The value of a form, from the values of the nodes that are known. -/
def value (known : Array Value) (form : Form) : Value :=
  let of := fun (id : NodeId) => known[id]?.getD .null
  match form with
  | scalar value => value
  | list items => .list (items.map of)
  | mapping entries => .mapping (entries.map fun (key, id) => (key.value, of id))
  | set items => .set (items.map Key.value)
  | pairs items => .list (items.map fun (key, id) => .list [of key, of id])

/-- The value of a form by itself. -/
def alone (form : Option Form) : Value := (form.map (Form.value #[])).getD .null

end Form

namespace NodeGraph

/-- The values of the nodes after those of the collections are put together once more, each after
its parts unless it is a part of itself. -/
def assemble (g : NodeGraph) (forms : Array (Option Form)) (known : Array Value) : Array Value :=
  g.completed.foldl
    (fun known id =>
      match forms[id]? with
      | some (some form) => known.setIfInBounds id (form.value known)
      | _ => known)
    known

/-- How often a collection inside itself is unfolded: deeper than any setting looks. -/
abbrev unfoldings : Nat := 3

def value (g : NodeGraph) : Except Problem Value := do
  let forms ← g.forms
  let known := Nat.repeat (g.assemble forms) unfoldings (forms.map Form.alone)
  return known[g.root]?.getD .null

end NodeGraph

/-- The value of the document in a source; an empty source has none. -/
def readSource (source : Source) : Except Problem Value := do
  match ← NodeGraph.ofTokens? source.tokens with
  | none => return .null
  | some document => document.value

/-- The value of the document in a text file. There is no bound on how deep it is nested. -/
def readDocument (bytes : List UInt8) : Except Raised Value :=
  let (text, problem) := readText bytes
  (readSource (.ofText text problem)).mapError Problem.raised

end Chip8.Yaml
