import ScriptTree.Identifier
import ScriptTree.Starlark.Machine
import ScriptTree.Starlark.Parser
import ScriptTree.Starlark.Pool

/-!
Rules that replace a reserved name, written as an expression over that name.
-/

namespace ScriptTree.Starlark

structure Program where
  assembly : Assembly
deriving Inhabited

inductive ProgramError where
  | malformed (error : TextError)
  /-- An expression that fails on the name it is tried on. -/
  | refused (text : String) (reason : ByteString)
deriving DecidableEq, Inhabited

namespace ProgramError

def message : ProgramError → ByteString
  | malformed error => "failed to parse reconcile expression: " ++ error.message
  | refused text reason => "invalid reconcile expression " ++ Text.quote text ++ ": " ++ reason

end ProgramError

namespace Program

/-- The text that an expression gave, which may not be empty. -/
def textOf : Value → Result ByteString
  | .string [] => fail "reconcile expression returned an empty string"
  | .string b => .ok b
  | v => fail ("reconcile expression returned " ++ v.typeName ++ ", want string")

def run (p : Program) (name : ByteString) : Result ByteString :=
  match p.assembly.value name with
  | .error reason => .error reason
  | .ok (v, _) => textOf v

/-- The text for a name, by an evaluator of a pool. One that fails does not come back. -/
def runOn (p : Program) (pool : Pool) (name : ByteString) : Result ByteString × Pool :=
  let (evaluator, lent) := pool.take
  let taken := lent.stepsOf evaluator
  match p.assembly.valueAfter taken name with
  | .error reason => (.error reason, lent)
  | .ok (v, store) => (textOf v, (lent.work evaluator (store.steps - taken)).give evaluator)

def probe : String := "class"

def ofText (text : String) : Except ProgramError Program :=
  match Expr.ofText text with
  | .error error => .error (.malformed error)
  | .ok expr =>
    match Scope.resolve Machine.universalNames expr with
    | .error error => .error (.refused text error.message)
    | .ok resolution =>
      let program : Program := ⟨Assembly.ofExpr resolution expr⟩
      match program.run probe with
      | .error reason => .error (.refused text reason)
      | .ok _ => .ok program

def reconciler (p : Program) : Identifier.Reconciler := .computed p.run

end Program

end ScriptTree.Starlark
