import StackMachine.Text.Width

/-!
# Text — Table

Tables as text.  Every column is as wide as the widest of its title and cells, counted in terminal
columns and not in characters; a vertical bar stands between the columns, a rule under the titles
and another at the end.  A cell has a blank on either side, and a line one more at either end.
-/

namespace StackMachine.Text

/-- The side of its column that a cell keeps to. -/
inductive Align
  | left
  | right
  deriving DecidableEq, Repr

/-- A title, and the side that it and the cells below it keep to. -/
structure Column where
  title : String
  align : Align

/-- Rows have one cell for each column. -/
structure Table where
  columns : List Column
  rows    : List (List String)

/-- The character `n` times. -/
def replicate (n : Nat) (c : Char) : String := String.ofList (List.replicate n c)

/-- The text with blanks that bring it to `width` columns, unless it is wider. -/
def Align.pad (a : Align) (width : Nat) (s : String) : String :=
  let blanks := replicate (width - displayWidth s) ' '
  match a with
  | .left  => s ++ blanks
  | .right => blanks ++ s

namespace Table

/-- The width of every column: that of its widest cell, the title counted as one. -/
def widths (t : Table) : List Nat :=
  t.rows.foldl (fun ws row => List.zipWith max ws (row.map displayWidth))
    (t.columns.map fun c => displayWidth c.title)

/-- One line of cells. -/
def renderLine (t : Table) (ws : List Nat) (cells : List String) : String :=
  " " ++ "│".intercalate
    ((t.columns.zip (ws.zip cells)).map fun (c, w, s) => " " ++ c.align.pad w s ++ " ") ++ " \n"

/-- A rule across the table, with `junction` where it meets a bar. -/
def renderRule (ws : List Nat) (junction : String) : String :=
  " " ++ junction.intercalate (ws.map fun w => replicate (w + 2) '─') ++ " \n"

/-- The titles, a rule, the rows and a closing rule. -/
def render (t : Table) : String :=
  let ws := t.widths
  t.renderLine ws (t.columns.map Column.title) ++ renderRule ws "┼"
    ++ String.join (t.rows.map (t.renderLine ws)) ++ renderRule ws "┴"

end Table

end StackMachine.Text
