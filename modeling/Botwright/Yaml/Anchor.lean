import Botwright.Yaml.Node
/-!
# Anchors

An anchor is known from its node on, so an alias may stand inside the node that it names. A name
that is given again takes the number of names known by then, and may share it with a later name:
of the nodes of one number the last one counts.
-/
namespace Botwright.Yaml.Node

abbrev AnchorNames := List (String × Nat)

/-- Gives a name a number; a known name does not count twice. -/
def nameAnchor (name : String) (known : AnchorNames) : AnchorNames :=
  (name, known.length) :: known.filter (·.1 != name)

mutual

/-- Numbers the anchors of a node. An alias without an anchor in front of it is refused. -/
def number : Written → AnchorNames → Option (Node Nat × AnchorNames)
  | .scalar tag text plain, known => some (.scalar tag text plain, known)
  | .sequence tag items, known =>
      (numberItems items known).map fun (items, known) => (.sequence tag items, known)
  | .mapping tag entries, known =>
      (numberEntries entries known).map fun (entries, known) => (.mapping tag entries, known)
  | .anchored name node, known =>
      (number node (nameAnchor name known)).map fun (node, after) =>
        (.anchored known.length node, after)
  | .reference name, known => (known.find? (·.1 == name)).map fun (_, n) => (.reference n, known)

def numberItems : List Written → AnchorNames → Option (List (Node Nat) × AnchorNames)
  | [], known => some ([], known)
  | n :: rest, known =>
      (number n known).bind fun (n, known) =>
        (numberItems rest known).map fun (rest, known) => (n :: rest, known)

def numberEntries : List (Written × Written) → AnchorNames →
    Option (List (Node Nat × Node Nat) × AnchorNames)
  | [], known => some ([], known)
  | (k, v) :: rest, known =>
      (number k known).bind fun (k, known) =>
        (number v known).bind fun (v, known) =>
          (numberEntries rest known).map fun (rest, known) => ((k, v) :: rest, known)

end

mutual

def anchors : Node Nat → List (Nat × Node Nat)
  | .scalar .. | .reference _ => []
  | .sequence _ items => itemAnchors items
  | .mapping _ entries => entryAnchors entries
  | .anchored n node => (n, node) :: anchors node

def itemAnchors : List (Node Nat) → List (Nat × Node Nat)
  | [] => []
  | n :: rest => anchors n ++ itemAnchors rest

def entryAnchors : List (Node Nat × Node Nat) → List (Nat × Node Nat)
  | [] => []
  | (k, v) :: rest => anchors k ++ anchors v ++ entryAnchors rest

end

mutual

/-- The size of a node: a scalar or an alias counts once, a collection twice and its content. -/
def weight : Node Nat → Nat
  | .scalar .. | .reference _ => 1
  | .sequence _ items => itemWeights items + 2
  | .mapping _ entries => entryWeights entries + 2
  | .anchored _ node => weight node

def itemWeights : List (Node Nat) → Nat
  | [] => 0
  | n :: rest => weight n + itemWeights rest

def entryWeights : List (Node Nat × Node Nat) → Nat
  | [] => 0
  | (k, v) :: rest => weight k + weight v + entryWeights rest

end
end Botwright.Yaml.Node
