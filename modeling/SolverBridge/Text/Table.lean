import SolverBridge.Text.Width

/-! Tables with a title row. Each column is as wide as its widest line; a cell may have
several lines, and the row is as high as its highest cell. A border runs above and
below the titles and below the last row. -/

namespace SolverBridge.Text

/-- The lines of a text. A line end at the end of the text opens no further line, and a
carriage return before a line end belongs to it. -/
def linesOf (s : String) : List String :=
  let split := s.splitOn "\n"
  let lines := if split.getLast? = some "" then split.dropLast else split
  let ended := split.length - 1
  lines.mapIdx fun i l => if i < ended && l.endsWith "\r" then (l.dropEnd 1).toString else l

/-- A row of cells, each with its lines. -/
abbrev TableRow := List (List String)

def cellWidth (lines : List String) : Nat := (lines.map displayWidth).foldl Nat.max 0

/-- The width of each of `n` columns. -/
def columnWidths (n : Nat) (rows : List TableRow) : List Nat :=
  (List.range n).map fun i => (rows.map fun r => cellWidth (r[i]?.getD [])).foldl Nat.max 0

def padded (width : Nat) (s : String) : String :=
  s ++ String.ofList (List.replicate (width - displayWidth s) ' ')

def border (widths : List Nat) : String :=
  "+" ++ String.join (widths.map fun w => String.ofList (List.replicate (w + 2) '-') ++ "+") ++ "\n"

/-- Line `k` of a row. -/
def rowLine (widths : List Nat) (row : TableRow) (k : Nat) : String :=
  "|" ++ String.join (widths.mapIdx fun i w =>
    " " ++ padded w (((row[i]?.getD [])[k]?).getD "") ++ " |") ++ "\n"

def rowText (widths : List Nat) (row : TableRow) : String :=
  let height := (row.map List.length).foldl Nat.max 0
  String.join ((List.range height).map (rowLine widths row))

/-- The table of some rows of texts under their titles. -/
def tableText (titles : List String) (rows : List (List String)) : String :=
  let head := titles.map linesOf
  let body := rows.map fun r => r.map linesOf
  let widths := columnWidths titles.length (head :: body)
  border widths ++ rowText widths head ++ border widths ++
    String.join (body.map (rowText widths)) ++ border widths

end SolverBridge.Text
