import ScriptTree.FileName
import ScriptTree.Script.Decode
import ScriptTree.Text.Casing
import ScriptTree.Text.Lines
import ScriptTree.Yaml.Value

/-!
Serialized scripts. YAML documents are turned into JSON and read as such.
-/

namespace ScriptTree

inductive Format where
  | json
  | yaml
deriving DecidableEq, Inhabited

inductive SourceError where
  | decode (error : DecodeError)
  | yaml (error : Yaml.Error)
  /-- A document with a part that JSON has no form for. -/
  | inexpressible (reason : String)
deriving Inhabited

namespace SourceError

def message : SourceError → String
  | decode e => e.message
  | yaml e => "failed to parse YAML: " ++ e.message
  | inexpressible reason => "failed to convert YAML document: " ++ reason

end SourceError

namespace Node

def ofJson (bytes : List UInt8) : Except SourceError Node :=
  (ofJsonText bytes).mapError .decode

def ofYamlValue (v : Yaml.Value) : Except SourceError Node :=
  match v.jsonFailure? with
  | some reason => .error (.inexpressible reason)
  | none => (ofJsonText v.json.compact).mapError .decode

def ofYaml (bytes : List UInt8) : Except SourceError Node :=
  match Yaml.Value.ofBytes bytes with
  | .error e => .error (.yaml e)
  | .ok v => ofYamlValue v

def ofSource (format : Format) (bytes : List UInt8) : Except SourceError Node :=
  match format with
  | .json => ofJson bytes
  | .yaml => ofYaml bytes

end Node

namespace Format

def opensObject (bytes : List UInt8) : Bool :=
  ((Text.ofBytes bytes).toList.dropWhile Text.isBlank).head? = some '\x7b'

/-- The format of a file by its extension, or by its content where that says
nothing. -/
def detect (name : String) (bytes : List UInt8) : Format :=
  let ext := Text.lower (FileName.extension name)
  if ext = ".yaml" || ext = ".yml" then .yaml
  else if ext = ".json" || opensObject bytes then .json
  else .yaml

end Format

def Node.ofFile (name : String) (bytes : List UInt8) : Except SourceError Node :=
  Node.ofSource (.detect name bytes) bytes

end ScriptTree
