import Chip8.Yaml.Kind

/-! # Nodes

The nodes of a document, each with a number. Collections name their parts by number, so an alias
adds no node, and a collection may be a part of itself.
-/

namespace Chip8.Yaml

open Text

/-- The number of a node among those of its document. -/
abbrev NodeId := Nat

inductive Node where
  | scalar (kind : Kind) (text : CodeText)
  | sequence (kind : Kind) (items : List NodeId)
  | mapping (kind : Kind) (entries : List (NodeId × NodeId))
deriving DecidableEq, Repr

namespace Node

def kind : Node → Kind
  | scalar kind _ => kind
  | sequence kind _ => kind
  | mapping kind _ => kind

def withKind (node : Node) (kind : Kind) : Node :=
  match node with
  | scalar _ text => scalar kind text
  | sequence _ items => sequence kind items
  | mapping _ entries => mapping kind entries

/-- The entries of a mapping; other nodes have none. -/
def entries : Node → List (NodeId × NodeId)
  | mapping _ entries => entries
  | _ => []

/-- A node with other entries, if it is a mapping. -/
def withEntries (node : Node) (entries : List (NodeId × NodeId)) : Node :=
  match node with
  | mapping kind _ => mapping kind entries
  | node => node

def isMapping : Node → Bool
  | mapping _ _ => true
  | _ => false

end Node

abbrev Nodes := Array Node

namespace Nodes

def kindOf (nodes : Nodes) (id : NodeId) : Kind := (nodes[id]?.map Node.kind).getD .unknown

def entriesOf (nodes : Nodes) (id : NodeId) : List (NodeId × NodeId) :=
  (nodes[id]?.map Node.entries).getD []

def isMapping (nodes : Nodes) (id : NodeId) : Bool := nodes[id]?.any Node.isMapping

def change (nodes : Nodes) (id : NodeId) (f : Node → Node) : Nodes := Array.modify nodes id f

end Nodes

end Chip8.Yaml
