import TrafficWarden.Toml.Basic

/-!
# Tables of TOML documents

A document is a run of headers and assignments. Each assignment has one place, and what is defined
in one way is not defined again in another: a table with a header of its own takes no second
header, and dotted keys reach only tables that dotted keys or longer headers made.
-/

namespace TrafficWarden.Toml

inductive Statement where
  | assign (path : List String) (name : String) (value : Toml)
  | table (path : List String) (name : String)
  | tables (path : List String) (name : String)
deriving Inhabited, Repr

/-- How a table came to be: by a header or braces of its own, by the longer header of a table
within it, or by a dotted key. -/
inductive TableOrigin where
  | given
  | implied
  | dotted
deriving DecidableEq, Repr

/-- A document that is being read. The newest table of a list of tables comes first. -/
inductive Draft where
  | value (v : Toml)
  | table (origin : TableOrigin) (entries : List (String × Draft))
  | tables (newestFirst : List (List (String × Draft)))
deriving Inhabited, Repr

namespace Draft

/-- Changes or adds the entry of a name. -/
def alterEntry (name : String) (change : Option Draft → Option Draft) :
    List (String × Draft) → Option (List (String × Draft))
  | [] => (change none).map fun d => [(name, d)]
  | (other, d) :: entries =>
    if other = name then (change (some d)).map fun d => (name, d) :: entries
    else (alterEntry name change entries).map ((other, d) :: ·)

/-- Changes the table that a path leads to. Tables that are missing on the way are made, with the
given origin; a list of tables leads to its newest one. -/
def alter (origin : TableOrigin)
    (change : TableOrigin → List (String × Draft) → Option (List (String × Draft))) :
    List String → TableOrigin → List (String × Draft) → Option (List (String × Draft))
  | [], here, entries => change here entries
  | name :: path, _, entries => entries |> alterEntry name fun
    | none => (alter origin change path origin []).map (table origin)
    | some (value _) => none
    | some (table child inner) =>
      if origin = .dotted ∧ child = .given then none
      else (alter origin change path child inner).map (table child)
    | some (tables []) => none
    | some (tables (newest :: earlier)) =>
      (alter origin change path .given newest).map fun newest => tables (newest :: earlier)

/-- Adds an entry whose name must be free. -/
def insertNew (name : String) (d : Draft) (entries : List (String × Draft)) :
    Option (List (String × Draft)) :=
  entries |> alterEntry name fun
    | none => some d
    | some _ => none

/-- Adds an assignment to a table, by a key that is dotted if its path is not empty. -/
def assign (path : List String) (name : String) (v : Toml) (origin : TableOrigin)
    (entries : List (String × Draft)) : Option (List (String × Draft)) :=
  alter .dotted
    (fun reached inner =>
      if reached = .dotted ↔ path = [] then none else insertNew name (value v) inner)
    path origin entries

/-- Opens a table by its header. -/
def openTable (name : String) : List (String × Draft) → Option (List (String × Draft)) :=
  alterEntry name fun
    | none => some (table .given [])
    | some (table .implied inner) => some (table .given inner)
    | some _ => none

/-- Adds a table to a list of tables. -/
def addTable (name : String) : List (String × Draft) → Option (List (String × Draft)) :=
  alterEntry name fun
    | none => some (tables [[]])
    | some (tables earlier) => some (tables ([] :: earlier))
    | some _ => none

mutual

def toToml : Draft → Toml
  | value v => v
  | table _ entries => .table (toEntries entries)
  | tables newestFirst => .array (toItems newestFirst).reverse

def toEntries : List (String × Draft) → List (String × Toml)
  | [] => []
  | (name, d) :: entries => (name, toToml d) :: toEntries entries

def toItems : List (List (String × Draft)) → List Toml
  | [] => []
  | entries :: rest => .table (toEntries entries) :: toItems rest

end

end Draft

/-- The entries of a document after some of its statements, and the path of the table that the
next assignment belongs to. -/
structure Draft.Document where
  entries : List (String × Draft)
  here : List String
deriving Inhabited, Repr

namespace Draft.Document

def empty : Draft.Document := ⟨[], []⟩

def add (d : Draft.Document) : Statement → Option Draft.Document
  | .assign path name v =>
    (alter .implied (assign path name v) d.here .given d.entries).map (⟨·, d.here⟩)
  | .table path name =>
    (alter .implied (fun _ => openTable name) path .given d.entries).map (⟨·, path ++ [name]⟩)
  | .tables path name =>
    (alter .implied (fun _ => addTable name) path .given d.entries).map (⟨·, path ++ [name]⟩)

end Draft.Document

/-- The table that a run of statements describes. -/
def ofStatements? (statements : List Statement) : Option Toml :=
  (statements.foldlM Draft.Document.add Draft.Document.empty).map fun d =>
    .table (Draft.toEntries d.entries)

end TrafficWarden.Toml
