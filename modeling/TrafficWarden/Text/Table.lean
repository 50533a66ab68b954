import TrafficWarden.Text.Ascii
import TrafficWarden.Text.Width

/-!
# Tables

A table is drawn with rounded corners, a line under its head and none between its rows. A cell may
have several lines; its column is as wide as the widest line in it. Where there are no rows, the
line under the head is the last one.
-/

namespace TrafficWarden.Text

/-- A head and rows with as many cells as the head. -/
structure Table where
  head : List String
  rows : List (List String)
deriving DecidableEq, Repr

/-- The lines of a cell. -/
def cellLines (cell : String) : List (List Char) := splitAt '\n' cell.toList

def cellWidth (cell : String) : Nat := ((cellLines cell).map width).foldl max 0

/-- The greater of two widths at each place. A missing one is none. -/
def maxWidths : List Nat → List Nat → List Nat
  | [], ws => ws
  | ws, [] => ws
  | v :: vs, w :: ws => max v w :: maxWidths vs ws

/-- A line with a blank on both sides, filled up to a width. -/
def padLine (columns : Nat) (line : List Char) : String :=
  " " ++ String.ofList (line ++ List.replicate (columns - width line) ' ') ++ " "

/-- A horizontal line with an end on both sides and crossings between columns. -/
def rule (left crossing right : String) (widths : List Nat) : String :=
  left ++ crossing.intercalate (widths.map fun w => String.ofList (List.replicate (w + 2) '─')) ++
    right

/-- Line number `n` of a row. -/
def rowLine (widths : List Nat) (cells : List String) (n : Nat) : String :=
  let parts := (widths.zip cells).map fun (w, cell) => padLine w ((cellLines cell)[n]?.getD [])
  "│" ++ "│".intercalate parts ++ "│"

/-- The lines of a row; there are as many as in its highest cell. -/
def rowLines (widths : List Nat) (cells : List String) : List String :=
  let height := (cells.map fun cell => (cellLines cell).length).foldl max 0
  (List.range height).map (rowLine widths cells)

namespace Table

def widths (t : Table) : List Nat :=
  (t.head :: t.rows).foldl (fun ws cells => maxWidths ws (cells.map cellWidth)) []

def lines (t : Table) : List String :=
  let ws := t.widths
  rule "╭" "┬" "╮" ws :: rowLines ws t.head ++ rule "├" "┼" "┤" ws ::
    match t.rows with
    | [] => []
    | rows => rows.flatMap (rowLines ws) ++ [rule "╰" "┴" "╯" ws]

def text (t : Table) : String := "\n".intercalate t.lines

end Table

end TrafficWarden.Text
