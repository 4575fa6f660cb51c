import ScriptTree.Text.Casing
import ScriptTree.Text.Lines
import ScriptTree.Yaml.Value

/-!
Layers of settings as they are written: values of any type under names, where a later
layer takes the place of an earlier one name by name.
-/

namespace ScriptTree.Settings

inductive Raw where
  | null
  | bool (value : Bool)
  | int (value : Int)
  | float (value : Number)
  | text (value : String)
  | moment
  | list
  | table (entries : List (String × Raw))
deriving Inhabited

abbrev Layer := List (String × Raw)

namespace Raw

def typeName : Raw → String
  | null => "nil"
  | bool _ => "bool"
  | int n => if n < Nat.pow 2 63 then "int" else "uint64"
  | float _ => "float64"
  | text _ => "string"
  | moment => "time.Time"
  | list => "[]interface \x7b\x7d"
  | table _ => "map[string]interface \x7b\x7d"

def kindName : Raw → String
  | moment => "struct"
  | list => "slice"
  | table _ => "map"
  | v => v.typeName

def ofScalar : Yaml.Scalar → Raw
  | .null => null
  | .bool b => bool b
  | .int n => int n
  | .float x => float x
  | .timestamp _ => moment
  | .str s => text s
  | .foreign _ s => text s
  | .binary bytes => text bytes.text

mutual

def ofYaml : Yaml.Value → Raw
  | .scalar s => ofScalar s
  | .sequence _ => list
  | .object members => table (layerOfYaml members)
  | .table entries => table (layerOfTable entries)

def layerOfYaml : List (String × Yaml.Value) → List (String × Raw)
  | [] => []
  | (k, v) :: rest => (k, ofYaml v) :: layerOfYaml rest

def layerOfTable : List (Yaml.Scalar × Yaml.Value) → List (String × Raw)
  | [] => []
  | (.str k, v) :: rest => (k, ofYaml v) :: layerOfTable rest
  | _ :: rest => layerOfTable rest

end

end Raw

namespace Layer

def put (name : String) (v : Raw) : Layer → Layer
  | [] => [(name, v)]
  | (n, old) :: rest => if n = name then (n, v) :: rest else (n, old) :: put name v rest

mutual

/-- Lays a layer over another; tables are merged. -/
def overlay (base : Layer) : Layer → Layer
  | [] => base
  | (name, v) :: rest => overlay (put name (combine (base.lookup name) v) base) rest

def combine (old : Option Raw) : Raw → Raw
  | .table entries =>
    match old with
    | some (.table under) => .table (overlay under entries)
    | _ => .table entries
  | v => v

end

def nest (v : Raw) : List String → Raw
  | [] => v
  | name :: rest => .table [(name, nest v rest)]

def single (name : String) (v : Raw) : Layer :=
  match Text.splitOn '.' name with
  | [] => []
  | first :: rest => [(first, nest v rest)]

def set (l : Layer) (name : String) (v : Raw) : Layer := l.overlay (single name v)

/-- Finds a name, or else a name that differs from it in case only. -/
def find? (l : Layer) (name : String) : Option Raw :=
  match l.lookup name with
  | some v => some v
  | none => (List.find? (fun entry => Text.lower entry.1 = Text.lower name) l).map (·.2)

end Layer

end ScriptTree.Settings
