import ScriptTree.Text.Lines
import ScriptTree.Text.Width

/-!
Tables, drawn with lines for a terminal or written as markdown.
-/

namespace ScriptTree.Render

structure Table where
  header : List String
  rows : List (List String)
deriving DecidableEq, Inhabited

namespace Table

/-- What a line shows in which the cursor goes back to the start: later characters take
the places of earlier ones. -/
def overtype (line : List Char) : List Char :=
  (Text.splitList '\r' line).foldl (fun shown part => part ++ shown.drop part.length) []

def cell (text : String) : String :=
  let plain := Text.joinBreaks (Text.replaceChar '\t' "    " text).toList
  String.intercalate "\n" ((Text.splitList '\n' plain).map fun line => String.ofList (overtype line))

/-! Markdown. -/

/-- A cell stays on one line, and bars in it are escaped. -/
def markdownCell (text : String) : String :=
  Text.replaceChar '\n' "<br/>" (Text.replaceChar '|' "\\|" (cell text))

def markdownRow (cells : List String) : String :=
  "|" ++ String.join (cells.map fun c => " " ++ c ++ " |") ++ "\n"

def markdown (t : Table) : String :=
  markdownRow (t.header.map markdownCell) ++ markdownRow (t.header.map fun _ => "---") ++
    String.join (t.rows.map fun row => markdownRow (row.map markdownCell))

/-! Lines. -/

def rowLines (row : List String) : List (List String) := row.map fun text => Text.lines (cell text)

def widths (t : Table) : List Nat :=
  let all := (t.header :: t.rows).map fun row => row.map fun text => Text.cellWidth (cell text)
  all.foldl (fun widest row => List.zipWith max widest row) (t.header.map fun _ => 0)

def rule (left middle right : String) (widths : List Nat) : String :=
  left ++ String.intercalate middle
    (widths.map fun n => String.ofList (List.replicate (n + 2) '─')) ++ right ++ "\n"

def pad (n : Nat) (text : String) : String :=
  text ++ String.ofList (List.replicate (n - Text.cellWidth text) ' ')

def drawLine (widths : List Nat) (cells : List String) : String :=
  "│" ++ String.join (List.zipWith (fun n text => " " ++ pad n text ++ " │") widths cells) ++
    "\n"

/-- A row is as high as its highest cell. -/
def drawRow (widths : List Nat) (row : List String) : String :=
  let cells := rowLines row
  let height := (cells.map List.length).foldl max 0
  String.join ((List.range height).map fun i =>
    drawLine widths (cells.map fun lines => lines.getD i ""))

def drawn (t : Table) : String :=
  let widths := t.widths
  rule "┌" "┬" "┐" widths ++ drawRow widths t.header ++ rule "├" "┼" "┤" widths ++
    String.join (t.rows.map (drawRow widths)) ++ rule "└" "┴" "┘" widths

end Table

end ScriptTree.Render
