import ScriptTree.Starlark.Expr

/-!
Sums of literals next to each other, which are joined before anything is evaluated.
-/

namespace ScriptTree.Starlark.Expr

def joined? : Expr → Expr → Option Expr
  | constant (.string a) p, constant (.string b) _ => some (constant (.string (a ++ b)) p)
  | constant (.bytes a) p, constant (.bytes b) _ => some (constant (.bytes (a ++ b)) p)
  | list p a, list _ b => some (list p (a ++ b))
  | tuple p a, tuple _ b => some (tuple p (a ++ b))
  | _, _ => none

def isLiteral : Expr → Bool
  | constant (.string _) _ | constant (.bytes _) _ | list _ _ | tuple _ _ => true
  | _ => false

/-- Adds an operand to a sum. A literal joins the one before it; what only became a literal
by joining does not. -/
def addOperand (total operand : Expr) (isLiteral : Bool) : Expr :=
  if !isLiteral then binary .add total (group operand.start operand)
  else
    match total with
    | binary .add before last =>
      match joined? last operand with
      | some e => binary .add before e
      | none => binary .add total operand
    | _ =>
      match joined? total operand with
      | some e => e
      | none => binary .add total operand

mutual

def joinSums : Expr → Expr
  | name n p => name n p
  | constant c p => constant c p
  | group p e => group p (joinSums e)
  | list p items => list p (joinAll items)
  | tuple p items => tuple p (joinAll items)
  | dict p entries => dict p (joinEntries entries)
  | unary p op e => unary p op (joinSums e)
  | binary .add a b =>
    addOperand (joinSums a).ungrouped (joinSums b).ungrouped b.ungrouped.isLiteral
  | binary op a b => binary op (joinSums a) (joinSums b)
  | conditional c a b => conditional (joinSums c) (joinSums a) (joinSums b)
  | field e n => field (joinSums e) n
  | index e k => index (joinSums e) (joinSums k)
  | slice e a b c => slice (joinSums e) (joinOption a) (joinOption b) (joinOption c)
  | call f arguments => call (joinSums f) (joinArguments arguments)
  | listOf p e clauses => listOf p (joinSums e) (joinClauses clauses)
  | dictOf p k v clauses => dictOf p (joinSums k) (joinSums v) (joinClauses clauses)
  | lambda p parameters e => lambda p (joinParameters parameters) (joinSums e)

def joinAll : List Expr → List Expr
  | [] => []
  | e :: rest => joinSums e :: joinAll rest

def joinOption : Option Expr → Option Expr
  | none => none
  | some e => some (joinSums e)

def joinEntries : List (Expr × Expr) → List (Expr × Expr)
  | [] => []
  | (k, v) :: rest => (joinSums k, joinSums v) :: joinEntries rest

def joinArguments : List (Argument Expr) → List (Argument Expr)
  | [] => []
  | .positional e :: rest => .positional (joinSums e) :: joinArguments rest
  | .named n p e :: rest => .named n p (joinSums e) :: joinArguments rest
  | .spread p e :: rest => .spread p (joinSums e) :: joinArguments rest
  | .spreadNamed p e :: rest => .spreadNamed p (joinSums e) :: joinArguments rest

def joinParameters : List (Parameter Expr) → List (Parameter Expr)
  | [] => []
  | .optional n p sign e :: rest => .optional n p sign (joinSums e) :: joinParameters rest
  | .required n p :: rest => .required n p :: joinParameters rest
  | .bare p :: rest => .bare p :: joinParameters rest
  | .rest s n p :: rest => .rest s n p :: joinParameters rest
  | .restNamed s n p :: rest => .restNamed s n p :: joinParameters rest

def joinClauses : List (Clause Expr) → List (Clause Expr)
  | [] => []
  | .loop target items :: rest => .loop (joinSums target) (joinSums items) :: joinClauses rest
  | .condition test :: rest => .condition (joinSums test) :: joinClauses rest

end

end ScriptTree.Starlark.Expr
