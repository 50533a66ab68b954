import TrafficWarden.Yaml.Tree
import TrafficWarden.Text.Mark

/-!
# Anchors and aliases of YAML

An alias stands for a node with an anchor before it. An anchor gets for its number the count of
names in use before it. A name that is used again leaves its count to the next anchor, and of two
anchors with one number the later one counts.
-/

namespace TrafficWarden.Yaml

/-- A tree whose aliases are numbers of anchors. -/
inductive Linked where
  | scalar (form : ScalarForm)
  | list (items : List Linked)
  | table (entries : List (Linked × Linked))
  | alias (number : Nat)
deriving Inhabited, Repr

/-- The numbers of the names in use, and the nodes with anchors, the latest one first. -/
structure Anchors where
  numbers : List (String × Nat)
  nodes : List (Nat × Linked)
deriving Inhabited, Repr

namespace Anchors

def empty : Anchors := ⟨[], []⟩

def number? (a : Anchors) (name : String) : Option Nat :=
  (a.numbers.find? (·.1 = name)).map (·.2)

/-- Gives a number to a name. -/
def declare (a : Anchors) (name : String) : Anchors :=
  { a with numbers := (name, a.numbers.length) :: a.numbers.filter (·.1 ≠ name) }

def node? (a : Anchors) (number : Nat) : Option Linked :=
  (a.nodes.find? (·.1 = number)).map (·.2)

end Anchors

namespace Tree

mutual

/-- Gives numbers to the anchors of a tree and to its aliases. An alias must have an anchor before
it. -/
def link (a : Anchors) : Tree → Option (Linked × Anchors)
  | .scalar form => some (.scalar form, a)
  | .alias name => (a.number? name).map fun n => (.alias n, a)
  | .anchored name node => do
    let (linked, inner) ← link ⟨(a.declare name).numbers, []⟩ node
    return (linked, ⟨inner.numbers, inner.nodes ++ (a.numbers.length, linked) :: a.nodes⟩)
  | .list items => do
    let (items, a) ← linkItems a items
    return (.list items, a)
  | .table entries => do
    let (entries, a) ← linkEntries a entries
    return (.table entries, a)

def linkItems (a : Anchors) : List Tree → Option (List Linked × Anchors)
  | [] => some ([], a)
  | item :: items => do
    let (item, a) ← link a item
    let (items, a) ← linkItems a items
    return (item :: items, a)

def linkEntries (a : Anchors) : List (Tree × Tree) → Option (List (Linked × Linked) × Anchors)
  | [] => some ([], a)
  | (name, value) :: entries => do
    let (name, a) ← link a name
    let (value, a) ← link a value
    let (entries, a) ← linkEntries a entries
    return ((name, value) :: entries, a)

end

end Tree

/-- Reads a text with one document; the inner `none` is a text without document. -/
def read? (text : String) : Option (Option (Linked × Anchors)) := do
  match ← Tree.ofTokens? (← tokens? (Text.withoutMark text.toList)) with
  | none => return none
  | some tree => return some (← tree.link .empty)

end TrafficWarden.Yaml
