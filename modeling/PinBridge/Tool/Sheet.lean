/-
PinBridge/Tool/Sheet.lean

Results in rows and columns, and the three ways to print them.

`table` draws a grid with every column as wide as its widest cell; `pretty`
prints a row as `key=value` pairs, `raw` as its cells with tabs between them.
-/
namespace PinBridge.Tool

/-- Rows under a header; every row has a cell for each column. -/
structure Sheet where
  header : List String
  rows : List (List String)
  deriving DecidableEq, Repr

namespace Sheet

/-! ### The grid -/

/-- The width of each column: its widest cell and a blank on either side. -/
def widths (s : Sheet) : List Nat :=
  s.rows.foldl (fun ws row => List.zipWith (fun w cell => max w (cell.length + 2)) ws row)
    (s.header.map fun cell => cell.length + 2)

/-- A rule across the grid, drawn with one sign and with signs at the left end, at the crossings
and at the right end. -/
def rule (widths : List Nat) (sign : Char) (left crossing right : String) : String :=
  left ++ crossing.intercalate (widths.map fun w => String.ofList (List.replicate w sign)) ++ right

/-- A row of the grid. -/
def line (widths : List Nat) (row : List String) : String :=
  let cell (w : Nat) (text : String) : String :=
    " " ++ text ++ String.ofList (List.replicate (w - 1 - text.length) ' ')
  "│" ++ "┆".intercalate (List.zipWith cell widths row) ++ "│"

/-- The lines of the grid. -/
def tableLines (s : Sheet) : List String :=
  let ws := s.widths
  let between := rule ws '╌' "├" "┼" "┤"
  [rule ws '─' "┌" "┬" "┐", line ws s.header, rule ws '═' "╞" "╪" "╡"] ++
    (s.rows.map (line ws)).intersperse between ++
    [rule ws '─' "└" "┴" "┘"]

/-! ### The plain forms -/

def prettyLines (s : Sheet) : List String :=
  s.rows.map fun row =>
    " ".intercalate (List.zipWith (fun key cell => key.toLower ++ "=" ++ cell) s.header row)

def rawLines (s : Sheet) : List String := s.rows.map fun row => "\t".intercalate row

/-- Lines of text, each with its end. -/
def unlines (lines : List String) : String := String.join (lines.map (· ++ "\n"))

end Sheet
end PinBridge.Tool
