import ScriptTree.Starlark.Method.Dict
import ScriptTree.Starlark.Method.List
import ScriptTree.Starlark.Method.Text

/-!
Methods of values.
-/

namespace ScriptTree.Starlark.Method

def names : Value → List String
  | .string _ => Text.names
  | .list _ => List.names
  | .dict _ => Dict.names
  | .bytes _ => ["elems"]
  | _ => []

def find? (v : Value) (name : ByteString) : Run (Option Value) := do
  match (names v).find? fun known => ScriptTree.Text.toBytes known == name with
  | some known => return some (.method (← Run.newIdentity) known v)
  | none => return none

def missing (v : Value) (name : ByteString) : ByteString :=
  v.typeName ++ " has no ." ++ name ++ " field or method"

def get (v : Value) (name : String) : Run Value := do
  match ← find? v name with
  | some m => return m
  | none =>
    let hint := match Spelling.nearest? name (names v) with
      | some other => " (did you mean ." ++ other ++ "?)"
      | none => ""
    Run.fail (missing v name ++ hint)

def call (name : String) (receiver : Value) (a : Arguments) : Run Value := do
  match receiver with
  | .string s => Text.call name s a
  | .list address => List.call name address a
  | .dict address => Dict.call name address a
  | .bytes b =>
    let _ ← (a.ordered name 0 [] : Result _)
    return .byteView b
  | v => Run.fail (missing v name)

end ScriptTree.Starlark.Method
