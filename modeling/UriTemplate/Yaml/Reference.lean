import UriTemplate.Yaml.Node

/-!
# References to YAML nodes

A reference stands for the node whose anchor has its number; where several anchors of a document
share a number, for the last of their nodes. Nodes may refer to themselves and may be referred to
many times over, so the number of references that are followed in a document is bounded by its size.
-/

namespace UriTemplate.Yaml

namespace Node

mutual

/-- The nodes of a tree in the order in which they start. -/
def preorder : Node → List Node
  | reference anchor => [reference anchor]
  | scalar p text isPlain => [scalar p text isPlain]
  | sequence p items => sequence p items :: preorderItems items
  | mapping p entries => mapping p entries :: preorderEntries entries

/-- The nodes of items. -/
def preorderItems : List Node → List Node
  | [] => []
  | item :: items => item.preorder ++ preorderItems items

/-- The nodes of entries. -/
def preorderEntries : List (Node × Node) → List Node
  | [] => []
  | (key, value) :: entries => key.preorder ++ value.preorder ++ preorderEntries entries

end

/-- The number of the anchor of a node. -/
def anchor? : Node → Option Nat
  | reference _ => none
  | scalar p _ _ | sequence p _ | mapping p _ => p.anchor

/-- The nodes of a document that have anchors, with their numbers, the last one first. -/
def targets (root : Node) : List (Nat × Node) :=
  (root.preorder.filterMap fun node => node.anchor?.map (·, node)).reverse

/-- The number of marks that a node takes besides those of its parts: a collection has a start and
an end. -/
def ownSize : Node → Nat
  | reference _ | scalar .. => 1
  | sequence .. | mapping .. => 2

/-- How many references may be followed in a document. -/
def referenceBudget (root : Node) : Nat :=
  100 * root.preorder.foldl (fun size node => size + node.ownSize) 0

end Node

/-- A computation that is told how many references it may follow, and answers with how many are left
to those after it. -/
abbrev Following (α : Type) := Nat → Option (α × Nat)

/-- The results for the members of a list, one after another. -/
def Following.all {α β : Type} (f : α → Following β) : List α → Following (List β)
  | [], budget => some ([], budget)
  | a :: as, budget => do
    let (b, budget) ← f a budget
    let (bs, budget) ← Following.all f as budget
    some (b :: bs, budget)

/-- The node that a node stands for. -/
def Node.resolve? (targets : List (Nat × Node)) : Node → Following Node
  | .reference number, budget =>
    if budget = 0 then none
    else (targets.find? fun t => t.1 = number).map fun t => (t.2, budget - 1)
  | node, budget => some (node, budget)

end UriTemplate.Yaml
