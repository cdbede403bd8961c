import UiSuite.Yaml.Node

/-! Anchors and aliases.

Anchors are numbered in document order, by how many different names there are so far.
A name given again takes a number of its own, which the next new name takes too; an
alias stands for the node that has its number in the end. An alias whose name has not
been given before it stands for nothing. -/
namespace UiSuite.Yaml.Node

/-- Numbers an anchor, if there is one. -/
def register (names : List (String × Nat)) : Option String → Option Nat × List (String × Nat)
  | none => (none, names)
  | some name => (some names.length, (name, names.length) :: names.filter (·.1 != name))

mutual
/-- Numbers the anchors of a node and finds the numbers of its aliases. -/
def bound (names : List (String × Nat)) :
    Node String → Option (Node Nat × List (String × Nat))
  | scalar anchor tag isPlain text =>
    let (anchor, names) := register names anchor
    some (scalar anchor tag isPlain text, names)
  | reference name => (names.find? (·.1 == name)).map fun found => (reference found.2, names)
  | sequence anchor tag items => do
    let (anchor, names) := register names anchor
    let (items, names) ← boundItems names items
    return (sequence anchor tag items, names)
  | mapping anchor tag entries => do
    let (anchor, names) := register names anchor
    let (entries, names) ← boundEntries names entries
    return (mapping anchor tag entries, names)

def boundItems (names : List (String × Nat)) :
    List (Node String) → Option (List (Node Nat) × List (String × Nat))
  | [] => some ([], names)
  | x :: xs => do
    let (x, names) ← bound names x
    let (xs, names) ← boundItems names xs
    return (x :: xs, names)

def boundEntries (names : List (String × Nat)) :
    List (Node String × Node String) → Option (List (Node Nat × Node Nat) × List (String × Nat))
  | [] => some ([], names)
  | (k, v) :: es => do
    let (k, names) ← bound names k
    let (v, names) ← bound names v
    let (es, names) ← boundEntries names es
    return ((k, v) :: es, names)
end

/-- A node under its number, if it has one. -/
def numbered (anchor : Option Nat) (n : Node Nat) : List (Nat × Node Nat) :=
  match anchor with
  | some id => [(id, n)]
  | none => []

mutual
/-- The anchored nodes in document order. -/
def anchored : Node Nat → List (Nat × Node Nat)
  | n@(scalar anchor _ _ _) => numbered anchor n
  | reference _ => []
  | n@(sequence anchor _ items) => numbered anchor n ++ anchoredItems items
  | n@(mapping anchor _ entries) => numbered anchor n ++ anchoredEntries entries

def anchoredItems : List (Node Nat) → List (Nat × Node Nat)
  | [] => []
  | x :: xs => anchored x ++ anchoredItems xs

def anchoredEntries : List (Node Nat × Node Nat) → List (Nat × Node Nat)
  | [] => []
  | (k, v) :: es => anchored k ++ anchored v ++ anchoredEntries es
end

mutual
/-- The size of a tree: a container counts at both of its ends. -/
def size : Node α → Nat
  | scalar .. | reference _ => 1
  | sequence _ _ items => sizeItems items + 2
  | mapping _ _ entries => sizeEntries entries + 2

def sizeItems : List (Node α) → Nat
  | [] => 0
  | x :: xs => size x + sizeItems xs

def sizeEntries : List (Node α × Node α) → Nat
  | [] => 0
  | (k, v) :: es => size k + size v + sizeEntries es
end

end UiSuite.Yaml.Node
