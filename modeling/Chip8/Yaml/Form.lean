import Chip8.Yaml.Merge
import Chip8.Yaml.Node.Reading
import Chip8.Yaml.Scalar

/-! # Forms of nodes

What the nodes of a document are values of. A scalar is read at once, as it may be a key, and a
collection waits for its turn: the collections are gone through in the order in which they were met
first, from the root on. So of several problems the outermost counts, and of those the first.
-/

namespace Chip8.Yaml

open Text

/-- A key of a mapping or an item of a set. -/
structure Key where
  value : Value
  /-- The node that it was read from; none for the word that is not a number, which is one and the
  same key wherever it stands. -/
  origin : Option NodeId

/-- Whether two keys are the same. What is not a number is the same as itself only. -/
def Key.same (k l : Key) : Bool :=
  match k.value, l.value with
  | .float x, .float y => k.value.sameKey l.value || (x.isNaN && y.isNaN && k.origin == l.origin)
  | _, _ => k.value.sameKey l.value

/-- Keyed entries with a new one: a new key goes to the end, a known one keeps its place. -/
def putEntry (entries : Array (Key × NodeId)) (key : Key) (value : NodeId) :
    Array (Key × NodeId) :=
  match entries.findIdx? fun entry => entry.1.same key with
  | some place => entries.modify place fun entry => (entry.1, value)
  | none => entries.push (key, value)

inductive Form where
  | scalar (value : Value)
  | list (items : List NodeId)
  | mapping (entries : List (Key × NodeId))
  | set (items : List Key)
  | pairs (items : List (NodeId × NodeId))

/-- The state of the shaping: the nodes, in which merging is done on the way, the forms found so
far, and the collections that were met and have no form yet. -/
structure Shaping where
  nodes : Nodes
  forms : Array (Option Form)
  waiting : Array NodeId
  /-- A bound on the rounds of merging. -/
  rounds : Nat

abbrev ShapeStep := StateT Shaping (Except Problem)

namespace Nodes

/-- The text of a node that counts as a scalar: a mapping does by the value of its default key. -/
def scalarText (nodes : Nodes) : Nat → NodeId → Except Problem CodeText
  | 0, _ => .error (.scalar .endlessDefault)
  | fuel + 1, id =>
      match nodes[id]? with
      | some (.scalar _ text) => .ok text
      | some (.mapping _ entries) =>
          match entries.find? fun entry => nodes.kindOf entry.1 = .default with
          | some (_, value) => nodes.scalarText fuel value
          | none => .error .malformed
      | _ => .error .malformed

/-- The text of a node that counts as a scalar. -/
def textOf (nodes : Nodes) (id : NodeId) : Except Problem CodeText :=
  nodes.scalarText (nodes.size + 1) id

/-- The value of a node of a kind that scalars have. -/
def scalarOf (nodes : Nodes) (id : NodeId) (kind : Kind) : Except Problem Value := do
  if kind ∈ [.unknown, .merge, .default] then throw .malformed
  let text ← nodes.textOf id
  if kind = .timeStamp ∧ nodes.isMapping id then throw (.scalar .mappingAsTime)
  scalarValue kind text

def originOf (nodes : Nodes) (id : NodeId) : Option NodeId :=
  match nodes.textOf id with
  | .ok text => if isNotANumberWord text then none else some id
  | .error _ => some id

end Nodes

namespace ShapeStep

def note (id : NodeId) (form : Form) : ShapeStep Unit :=
  modify fun s => { s with forms := s.forms.setIfInBounds id (some form) }

/-- Meet a node: the value of a scalar is read, and a collection has to wait. -/
def meet (id : NodeId) : ShapeStep Unit := do
  let s ← get
  if s.forms[id]?.any Option.isSome then return
  let kind := s.nodes.kindOf id
  if kind ∈ [.sequence, .mapping, .set, .pairs] then
    note id (.list [])
    modify fun s => { s with waiting := s.waiting.push id }
  else note id (.scalar (← s.nodes.scalarOf id kind))

/-- Meet a node that is a key, which no collection can be. -/
def meetKey (id : NodeId) : ShapeStep Key := do
  meet id
  let s ← get
  match s.forms[id]? with
  | some (some (.scalar value)) => return ⟨value, s.nodes.originOf id⟩
  | _ => throw .malformed

/-- The entries of a mapping, with those that are merged into it. A later value of a key replaces
an earlier one. -/
def entriesOf (id : NodeId) : ShapeStep (List (Key × NodeId)) := do
  let s ← get
  if !s.nodes.isMapping id then throw .malformed
  let nodes ← s.nodes.merge s.rounds id
  set { s with nodes := nodes }
  let meetEntry := fun (entries : Array (Key × NodeId)) ((key, value) : NodeId × NodeId) => do
    let key ← meetKey key
    meet value
    return putEntry entries key value
  return (← (nodes.entriesOf id).foldlM meetEntry #[]).toList

def itemsOf (id : NodeId) : ShapeStep (List NodeId) := do
  match (← get).nodes[id]? with
  | some (.sequence _ items) => return items
  | _ => throw .malformed

/-- The only entry of a mapping. -/
def pairOf (id : NodeId) : ShapeStep (NodeId × NodeId) := do
  match (← get).nodes[id]? with
  | some (.mapping _ [(key, value)]) =>
      meet key
      meet value
      return (key, value)
  | _ => throw .malformed

def shape (id : NodeId) : ShapeStep Unit := do
  match (← get).nodes.kindOf id with
  | .mapping => note id (.mapping (← entriesOf id))
  | .set => note id (.set ((← entriesOf id).map (·.1)))
  | .pairs => note id (.pairs (← (← itemsOf id).mapM pairOf))
  | _ =>
      let items ← itemsOf id
      items.forM meet
      note id (.list items)

/-- Find the forms of the collections that wait, and of those that are met on the way. Every
collection waits once. -/
def shapeAll : Nat → ShapeStep Unit
  | 0 => return
  | fuel + 1 => do
      let s ← get
      if s.waiting.isEmpty then return
      set { s with waiting := #[] }
      s.waiting.toList.forM shape
      shapeAll fuel

end ShapeStep

/-- The forms of the nodes of a document, of those that belong to its root. -/
def NodeGraph.forms (g : NodeGraph) : Except Problem (Array (Option Form)) := do
  let start : Shaping :=
    ⟨g.nodes, Array.replicate g.nodes.size none, #[], g.nodes.mergeCount + 1⟩
  let step : ShapeStep Unit := do
    ShapeStep.meet g.root
    ShapeStep.shapeAll (g.nodes.size + 1)
  let (_, final) ← step.run start
  return final.forms

end Chip8.Yaml
