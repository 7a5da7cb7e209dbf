import Chip8.Yaml.Node
import Chip8.Yaml.Problem

/-! # Merging

A mapping may take in the entries of other mappings. These stand before its own, and those of the
last of several mappings first. The merged mappings have taken in theirs before; one that is still
at it gives the entries that it has so far.
-/

namespace Chip8.Yaml.Nodes

/-- The value of the first merge entry of a mapping, and the nodes without that entry. -/
def takeMerge (nodes : Nodes) (id : NodeId) : Option (NodeId × Nodes) := do
  let entries := nodes.entriesOf id
  let place ← entries.findIdx? fun entry => nodes.kindOf entry.1 = .merge
  let entry ← entries[place]?
  return (entry.2, nodes.change id fun node => node.withEntries (entries.eraseIdx place))

-- The sum of an empty list is the literal zero, whatever instances a caller's imports add.
attribute [local instance (high)] Zero.ofOfNat0

def mergeCount (nodes : Nodes) : Nat :=
  (nodes.toList.map fun node => node.entries.countP fun e => nodes.kindOf e.1 = .merge).sum

/-- The nodes in which the default keys of a mapping are texts like others. -/
def settleDefaults (nodes : Nodes) (id : NodeId) : Nodes :=
  (nodes.entriesOf id).foldl
    (fun nodes entry =>
      if nodes.kindOf entry.1 = .default then nodes.change entry.1 (·.withKind .text) else nodes)
    nodes

/-- The nodes after a mapping has taken in what is merged into it. Every round takes a merge entry
away, so there need not be more of them than there are merge entries, and one. -/
def merge : Nat → NodeId → Nodes → Except Problem Nodes
  | 0, _, nodes => .ok nodes
  | fuel + 1, id, nodes =>
      match nodes.takeMerge id with
      | none => .ok (nodes.settleDefaults id)
      | some (source, nodes) => do
          let takeIn := fun (taken : List (NodeId × NodeId) × Nodes) (mapping : NodeId) => do
            if !taken.2.isMapping mapping then throw .malformed
            let nodes ← merge fuel mapping taken.2
            return (nodes.entriesOf mapping ++ taken.1, nodes)
          let (taken, nodes) ← match nodes[source]? with
            | some (.sequence _ items) => items.foldlM takeIn ([], nodes)
            | _ => takeIn ([], nodes) source
          let nodes ← merge fuel id nodes
          return nodes.change id fun node => node.withEntries (taken ++ node.entries)

end Chip8.Yaml.Nodes
