import Chip8.Yaml.Node
import Chip8.Yaml.Tokens

/-! # Reading nodes

The nodes of a document from its tokens. An anchor names one node from its beginning on, and an
alias is that very node, even inside of it.
-/

namespace Chip8.Yaml

open Text

/-- A document: its nodes, which of them is the root, and the collections in the order in which
they were completed. -/
structure NodeGraph where
  nodes : Nodes
  root : NodeId
  completed : List NodeId

/-- What is left to read of a document, what was read, and the names in it. -/
structure NodeReading where
  tokens : List Token
  /-- Why there are no more tokens. -/
  ending : Problem
  nodes : Nodes
  completed : Array NodeId
  /-- The prefixes that the handles of tags stand for. -/
  handles : List (String × String)
  /-- The nodes that the anchors name. -/
  anchors : List (String × NodeId)

abbrev NodeStep := StateT NodeReading (Except Problem)

/-- Where a node stands: in a flow collection, in a block collection, or in an entry of a block
mapping, where the hyphens of a sequence need not be indented. -/
inductive Place where
  | flow
  | block
  | entry
deriving DecidableEq

namespace NodeStep

def refuse {α : Type} : NodeStep α := throw .malformed

def peek : NodeStep Token := do
  let r ← get
  match r.tokens with
  | t :: _ => return t
  | [] => throw r.ending

/-- Skip the next token. -/
def drop : NodeStep Unit := modify fun r => { r with tokens := r.tokens.tail }

/-- Skip a token that must stand here. -/
def expect (t : Token) : NodeStep Unit := do
  if (← peek) = t then drop else refuse

/-- Skip a token if it stands here; answers whether it does. -/
def accept (t : Token) : NodeStep Bool := do
  if (← peek) = t then
    drop
    return true
  else return false

/-- Take a new node in. -/
def add (node : Node) : NodeStep NodeId := do
  let r ← get
  set { r with nodes := r.nodes.push node }
  return r.nodes.size

/-- Take in a node that is not written. -/
def missing : NodeStep NodeId := add (.scalar .null [])

/-- Take a new node in under its anchor, if it has one; an anchor names only one node. -/
def introduce (anchor : Option String) (node : Node) : NodeStep NodeId := do
  let id ← add node
  if let some name := anchor then
    let r ← get
    if (r.anchors.lookup name).isSome then refuse
    set { r with anchors := (name, id) :: r.anchors }
  return id

/-- Give a collection its parts. -/
def complete (id : NodeId) (node : Node) : NodeStep Unit :=
  modify fun r => { r with
    nodes := r.nodes.change id fun _ => node, completed := r.completed.push id }

def aliased (anchor : String) : NodeStep NodeId := do
  match (← get).anchors.lookup anchor with
  | some id => return id
  | none => refuse

def fullTag (name : TagName) : NodeStep String := do
  match name.handle with
  | none => return name.suffix
  | some handle =>
      match (← get).handles.lookup handle with
      | some tagPrefix => return tagPrefix ++ name.suffix
      | none => refuse

/-- The anchor here, if there is one. -/
def anchor? : NodeStep (Option String) := do
  if let .anchor name := ← peek then
    drop
    return some name
  else return none

/-- The tag here, if there is one. -/
def tag? : NodeStep (Option TagName) := do
  if let .tag name := ← peek then
    drop
    return some name
  else return none

/-- The anchor and the tag before a node, in either order. -/
def properties : NodeStep (Option String × Option String) := do
  let before ← anchor?
  let tag ← tag?
  let after ← if before.isNone ∧ tag.isSome then anchor? else pure none
  match tag with
  | some name => return (before.or after, some (← fullTag name))
  | none => return (before, none)

/-- The kind of a scalar. Without a tag a plain one has it by its form, and the tag of a single
exclamation mark makes any scalar count as plain. -/
def scalarKind (tag : Option String) (text : CodeText) (plain : Bool) : Kind :=
  match tag with
  | none => if plain then .ofPlain text else .text
  | some "!" => .ofPlain text
  | some tag => .ofTag tag

/-- The kind of a collection, from its tag if there is one. -/
def collectionKind (tag : Option String) (usual : Kind) : Kind :=
  match tag with
  | none => usual
  | some "!" => usual
  | some tag => .ofTag tag

/-- A sequence with these properties, whose items are read by a step. -/
def sequence (anchor tag : Option String) (items : NodeStep (List NodeId)) : NodeStep NodeId := do
  let kind := collectionKind tag .sequence
  let id ← introduce anchor (.sequence kind [])
  complete id (.sequence kind (← items))
  return id

/-- A mapping with these properties, whose entries are read by a step. -/
def mapping (anchor tag : Option String) (entries : NodeStep (List (NodeId × NodeId))) :
    NodeStep NodeId := do
  let kind := collectionKind tag .mapping
  let id ← introduce anchor (.mapping kind [])
  complete id (.mapping kind (← entries))
  return id

mutual

def node : Nat → Place → NodeStep NodeId
  | 0, _ => refuse
  | fuel + 1, place => do
      if let .alias name := ← peek then
        drop
        aliased name
      else
        let (anchor, tag) ← properties
        content fuel place anchor tag

/-- A node after its properties. If it has some, it need not be written. -/
def content : Nat → Place → Option String → Option String → NodeStep NodeId
  | 0, _, _, _ => refuse
  | fuel + 1, place, anchor, tag => do
      let unwritten : NodeStep NodeId :=
        if anchor.isSome ∨ tag.isSome then introduce anchor (.scalar (scalarKind tag [] true) [])
        else refuse
      match ← peek with
      | .scalar text plain =>
          drop
          introduce anchor (.scalar (scalarKind tag text plain) text)
      | .flowSequenceStart =>
          drop
          sequence anchor tag (flowItems fuel true)
      | .flowMappingStart =>
          drop
          mapping anchor tag (flowEntries fuel true)
      | .blockSequenceStart =>
          if place = .flow then unwritten
          else
            drop
            sequence anchor tag (blockItems fuel)
      | .blockMappingStart =>
          if place = .flow then unwritten
          else
            drop
            mapping anchor tag (blockEntries fuel)
      | .blockEntry =>
          if place ≠ .entry then unwritten else sequence anchor tag (looseItems fuel)
      | _ => unwritten

/-- A node, or a missing one if one of some tokens stands here. -/
def nodeUnless : Nat → Place → List Token → NodeStep NodeId
  | 0, _, _ => refuse
  | fuel + 1, place, ends => do
      if (← peek) ∈ ends then missing else node fuel place

def blockItems : Nat → NodeStep (List NodeId)
  | 0 => refuse
  | fuel + 1 => do
      if ← accept .blockEntry then
        let item ← nodeUnless fuel .block [.blockEntry, .blockEnd]
        return item :: (← blockItems fuel)
      else
        expect .blockEnd
        return []

def looseItems : Nat → NodeStep (List NodeId)
  | 0 => refuse
  | fuel + 1 => do
      if ← accept .blockEntry then
        let item ← nodeUnless fuel .block [.blockEntry, .key, .value, .blockEnd]
        return item :: (← looseItems fuel)
      else return []

/-- The value after a colon, if there is one. -/
def valueAfter : Nat → Place → List Token → NodeStep NodeId
  | 0, _, _ => refuse
  | fuel + 1, place, ends => do
      if ← accept .value then nodeUnless fuel place ends else missing

def blockEntries : Nat → NodeStep (List (NodeId × NodeId))
  | 0 => refuse
  | fuel + 1 => do
      if (← peek) = .blockEnd then
        drop
        return []
      else
        let ends := [.key, .value, .blockEnd]
        let key ← if ← accept .key then nodeUnless fuel .entry ends else refuse
        let value ← valueAfter fuel .entry ends
        return (key, value) :: (← blockEntries fuel)

/-- The items of a flow sequence. An item with a colon is a mapping of one entry. -/
def flowItems : Nat → Bool → NodeStep (List NodeId)
  | 0, _ => refuse
  | fuel + 1, first => do
      if ← accept .flowSequenceEnd then return []
      else
        if !first then expect .flowEntry
        if ← accept .key then
          let pair ← mapping none none do
            let key ← nodeUnless fuel .flow [.value, .flowEntry, .flowSequenceEnd]
            let value ← valueAfter fuel .flow [.flowEntry, .flowSequenceEnd]
            return [(key, value)]
          return pair :: (← flowItems fuel false)
        else if ← accept .flowSequenceEnd then return []
        else
          let item ← node fuel .flow
          return item :: (← flowItems fuel false)

def flowEntries : Nat → Bool → NodeStep (List (NodeId × NodeId))
  | 0, _ => refuse
  | fuel + 1, first => do
      if ← accept .flowMappingEnd then return []
      else
        if !first then expect .flowEntry
        if ← accept .key then
          let key ← nodeUnless fuel .flow [.value, .flowEntry, .flowMappingEnd]
          let value ← valueAfter fuel .flow [.flowEntry, .flowMappingEnd]
          return (key, value) :: (← flowEntries fuel false)
        else if ← accept .flowMappingEnd then return []
        else
          let key ← node fuel .flow
          let value ← missing
          return (key, value) :: (← flowEntries fuel false)

end

/-- The directives before a document: whether a version was given, and the prefixes of handles. -/
def directives : Nat → Bool → List (String × String) → NodeStep (List (String × String))
  | 0, _, _ => refuse
  | fuel + 1, hasVersion, handles => do
      match ← peek with
      | .directive (.version major _) =>
          drop
          if hasVersion ∨ major ≠ 1 then refuse
          directives fuel true handles
      | .directive (.tag handle tagPrefix) =>
          drop
          if (handles.lookup handle).isSome then refuse
          directives fuel hasVersion ((handle, tagPrefix) :: handles)
      | .directive .other =>
          drop
          directives fuel hasVersion handles
      | _ => return handles

def documentEnds : Nat → NodeStep Unit
  | 0 => refuse
  | fuel + 1 => do
      if ← accept .documentEnd then documentEnds fuel

def usualHandles : List (String × String) := [("!", "!"), ("!!", standardPrefix)]

/-- A document after its start marker, which may be empty. -/
def explicitDocument (fuel : Nat) : NodeStep NodeId := do
  let handles ← directives fuel false []
  modify fun r => { r with handles := handles ++ usualHandles }
  expect .documentStart
  match ← peek with
  | .directive _ => missing
  | t => if t ∈ [.documentStart, .documentEnd, .streamEnd] then missing else node fuel .block

/-- The root of the only document, if there is one. -/
def root (fuel : Nat) : NodeStep (Option NodeId) := do
  let root ← match ← peek with
    | .streamEnd => return none
    | .directive _ => explicitDocument fuel
    | .documentStart => explicitDocument fuel
    | _ =>
        modify fun r => { r with handles := usualHandles }
        node fuel .block
  documentEnds fuel
  if (← peek) = .streamEnd then return some root
  else
    -- A second document is refused, but not before its beginning is read.
    let _ ← directives fuel false []
    let _ ← peek
    refuse

end NodeStep

/-- The document of some tokens; `none` if there is no document. A round of the reading takes a
token, or leads to one that does in at most three more. -/
def NodeGraph.ofTokens? (tokens : Tokens) : Except Problem (Option NodeGraph) := do
  let start : NodeReading := ⟨tokens.tokens, tokens.ending, #[], #[], [], []⟩
  let (root, r) ← (NodeStep.root (4 * tokens.tokens.length + 8)).run start
  return root.map fun root => ⟨r.nodes, root, r.completed.toList⟩

end Chip8.Yaml
