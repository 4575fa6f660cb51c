/-!
How far two texts are apart.
-/

namespace ScriptTree.Text

def nextRow [DecidableEq α] (c : α) (corner left : Nat) : List α → List Nat → List Nat
  | d :: ds, above :: row =>
    let cost := if c = d then corner else 1 + min corner (min above left)
    cost :: nextRow c above cost ds row
  | _, _ => []

def rows [DecidableEq α] (target : List α) : List α → Nat → List Nat → List Nat
  | [], _, row => row
  | c :: rest, i, row =>
    let first := i + 1
    rows target rest (i + 1) (first :: nextRow c i first target (row.drop 1))

/-- Number of changes of one item that lead from one list to another. -/
def distance [DecidableEq α] (a b : List α) : Nat :=
  ((rows b a 0 (List.range (b.length + 1))).getLast?).getD 0

end ScriptTree.Text
