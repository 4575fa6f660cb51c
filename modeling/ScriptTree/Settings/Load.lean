import ScriptTree.Disk
import ScriptTree.Settings.Decode

/-!
Where settings come from: the standard ones, a file, variables of the environment and
options of the command line, each over the ones before.
-/

namespace ScriptTree.Settings

inductive LoadError where
  | file (path reason : String)
  | decode (reasons : List String)
  | invalid (cause : SettingsError)
deriving DecidableEq, Inhabited

namespace LoadError

def message : LoadError → String
  | file path reason => "error reading config file " ++ path ++ ": " ++ reason
  | decode reasons =>
    "unable to decode config: decoding failed due to the following error(s):\n\n" ++
      String.intercalate "\n" reasons
  | invalid cause => "invalid configuration: " ++ cause.message

end LoadError

def baseLayer : Layer := [
  ("dialect", .text standard.dialect.shortName), ("strict", .bool standard.strict),
  ("reconcile", .text standard.reconcile), ("reconcile_affix", .text standard.affix),
  ("emit", .text standard.emit), ("output", .text standard.output),
  ("log_level", .text standard.logLevel),
  ("server", .table [
    ("addr", .text standard.server.address),
    ("shutdown_timeout", .text standard.server.shutdownTimeout.text),
    ("max_body_bytes", .int standard.server.maxBodyBytes)])]

def fileNames : List String := ["triptjs.yaml", "triptjs.yml"]

def searchLevels : Nat := 10

def candidates : Nat → String → List String
  | 0, _ => []
  | levels + 1, directory =>
    let up := FileName.parent directory
    fileNames.map (FileName.join directory) ++ if up = directory then [] else candidates levels up

def findFile (d : Disk) : Nat → String → Option String
  | 0, _ => none
  | levels + 1, directory =>
    match (fileNames.map (FileName.join directory)).find? d.exists? with
    | some path => some path
    | none =>
      let up := FileName.parent directory
      if up = directory then none else findFile d levels up

def readFile (d : Disk) (path : String) : Except LoadError Layer :=
  match d.read (FileName.clean path) with
  | .error e => .error (.file path (e.message (FileName.clean path)))
  | .ok bytes =>
    match Yaml.Value.membersOfBytes bytes with
    | .error e => .error (.file path e.message)
    | .ok members => .ok (Raw.layerOfYaml members)

def variableMark : String := "TRIPTJS_"

/-- Two underscores divide the parts of a name. -/
def dotted : List Char → List Char
  | '_' :: '_' :: rest => '.' :: dotted rest
  | c :: rest => c :: dotted rest
  | [] => []

def variableName? (name : String) : Option String :=
  if Text.startsWith variableMark name then
    let rest := Text.lower (String.ofList (name.toList.drop variableMark.length))
    if rest = "" then none else some (String.ofList (dotted rest.toList))
  else none

def variableNames : List String :=
  ["DIALECT", "STRICT", "RECONCILE", "RECONCILE_AFFIX", "RECONCILE_EXPR", "EVALUATE", "EMIT",
    "MINIFY", "VERIFY", "CONCURRENCY", "OUTPUT", "VERBOSE", "LOG_LEVEL", "SERVER", "SERVER__ADDR",
    "SERVER__SHUTDOWN_TIMEOUT", "SERVER__MAX_BODY_BYTES"].map (variableMark ++ ·)

def environmentLayer (environment : List (String × String)) : Layer :=
  environment.foldl (fun layer (name, value) =>
    match variableName? name with
    | some setting => layer.set setting (.text value)
    | none => layer) []

def optionName (name : String) : String :=
  if name = "addr" then "server.addr"
  else String.ofList (name.toList.map fun c => if c = '-' then '_' else c)

def optionLayer (options : List (String × Raw)) : Layer :=
  options.foldl (fun layer (name, value) => layer.set (optionName name) value) []

structure Loaded where
  settings : Settings
  file : Option String
deriving Inhabited

/-- Loads settings; without a named file one is looked for. -/
def load (d : Disk) (environment : List (String × String)) (file : String)
    (options : List (String × Raw)) (c : Reserved.Catalogue := .builtin) :
    Except LoadError Loaded := do
  let path := if file = "" then findFile d searchLevels d.current else some file
  let fromFile ←
    match path with
    | some path => readFile d path
    | none => pure []
  let layer := ((baseLayer.overlay fromFile).overlay (environmentLayer environment)).overlay
    (optionLayer options)
  match decode layer c with
  | .error reasons => throw (.decode reasons)
  | .ok settings =>
    match settings.validate c with
    | .error cause => throw (.invalid cause)
    | .ok _ => return ⟨settings, path⟩

end ScriptTree.Settings
