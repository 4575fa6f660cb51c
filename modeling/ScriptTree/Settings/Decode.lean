import ScriptTree.Number.Layout
import ScriptTree.Settings
import ScriptTree.Settings.Layer

/-!
From layers to settings. Values of other types are converted where that makes sense, and
every value that does not fit is reported.
-/

namespace ScriptTree.Settings

namespace Raw

abbrev Conversion := Except String

def mismatch (v : Raw) (want : String) : Conversion α :=
  .error ("expected type '" ++ want ++ "', got unconvertible type '" ++ v.typeName ++ "'")

def unparsable (want reader reason : String) : Conversion α :=
  .error ("cannot parse value as '" ++ want ++ "': strconv." ++ reader ++ ": " ++ reason)

def toText (v : Raw) : Conversion String :=
  match v with
  | .text s => .ok s
  | .bool b => .ok (if b then "1" else "0")
  | .int n => .ok (Text.integer n)
  | .float x => .ok x.positional
  | v => mismatch v "string"

def readBool? (s : String) : Option Bool :=
  if ["1", "t", "T", "true", "TRUE", "True"].contains s then some true
  else if ["0", "f", "F", "false", "FALSE", "False"].contains s then some false
  else none

def toBool (v : Raw) : Conversion Bool :=
  match v with
  | .bool b => .ok b
  | .int n => .ok (n ≠ 0)
  | .float x => .ok !x.isZero
  | .text "" => .ok false
  | .text s =>
    match readBool? s with
    | some b => .ok b
    | none => unparsable "bool" "ParseBool" "invalid syntax"
  | v => mismatch v "bool"

/-- The integer part of a number, within a machine word. -/
def truncate (x : Number) : Int :=
  let size : Nat := match x.binaryExponent with
    | .ofNat k => x.significand * Nat.pow 2 k
    | .negSucc k => x.significand / Nat.pow 2 (k + 1)
  if !x.isFinite || Nat.pow 2 63 ≤ size then -(Nat.pow 2 63 : Int)
  else if x.signbit then -(size : Int) else size

def wrap (n : Int) : Int := if n < Nat.pow 2 63 then n else n - Nat.pow 2 64

def toInt (type : String) (v : Raw) : Conversion Int :=
  match v with
  | .int n => .ok (wrap n)
  | .float x => .ok (truncate x)
  | .bool b => .ok (if b then 1 else 0)
  | .text "" => .ok 0
  | .text s =>
    match Number.signed 64 s with
    | .ok n => .ok n
    | .error .malformed => unparsable type "ParseInt" "invalid syntax"
    | .error (.outOfRange _) => unparsable type "ParseInt" "value out of range"
  | v => mismatch v type

/-- The names of dialects are those of the registered editions. -/
def toDialect (c : Reserved.Catalogue) (v : Raw) : Conversion Dialect :=
  match v with
  | .text s =>
    match c.parseDialect s with
    | .ok d => .ok d
    | .error e => .error e.message
  | v => do return ⟨← toInt "reserved.Dialect" v⟩

def toDuration (v : Raw) : Conversion Duration :=
  match v with
  | .text s => (Duration.ofText s).mapError DurationError.message
  | v => do return ⟨← toInt "time.Duration" v⟩

end Raw

/-- Reading collects what does not fit. -/
abbrev Decoding := StateM (List String)

/-- The value under a name; one that is missing, null or does not fit is the given one. -/
def field (l : Layer) (path name : String) (empty : α) (convert : Raw → Raw.Conversion α) :
    Decoding α :=
  match l.find? name with
  | none | some .null => return empty
  | some v =>
    match convert v with
    | .ok a => return a
    | .error reason => do
      modify (· ++ ["'" ++ path ++ name ++ "' " ++ reason])
      return empty

def decodeServer (l : Layer) : Decoding ServerSettings := do
  let address ← field l "server." "addr" "" Raw.toText
  let shutdownTimeout ← field l "server." "shutdown_timeout" .zero Raw.toDuration
  let maxBodyBytes ← field l "server." "max_body_bytes" 0 (Raw.toInt "int64")
  return ⟨address, shutdownTimeout, maxBodyBytes⟩

def decodeAll (l : Layer) (c : Reserved.Catalogue) : Decoding Settings := do
  let dialect ← field l "" "dialect" .unset (Raw.toDialect c)
  let strict ← field l "" "strict" false Raw.toBool
  let reconcile ← field l "" "reconcile" "" Raw.toText
  let affix ← field l "" "reconcile_affix" "" Raw.toText
  let expression ← field l "" "reconcile_expr" "" Raw.toText
  let evaluate ← field l "" "evaluate" false Raw.toBool
  let emit ← field l "" "emit" "" Raw.toText
  let minify ← field l "" "minify" false Raw.toBool
  let verify ← field l "" "verify" false Raw.toBool
  let concurrency ← field l "" "concurrency" 0 (Raw.toInt "int")
  let output ← field l "" "output" "" Raw.toText
  let verbose ← field l "" "verbose" false Raw.toBool
  let logLevel ← field l "" "log_level" "" Raw.toText
  let inner ← field l "" "server" [] fun v =>
    match v with
    | .table entries => .ok entries
    | .moment => .ok []
    | v => .error ("expected a map or struct, got " ++ Text.quote v.kindName)
  let server ← decodeServer inner
  return ⟨dialect, strict, reconcile, affix, expression, evaluate, emit, minify, verify,
    concurrency, output, verbose, logLevel, server⟩

def decode (l : Layer) (c : Reserved.Catalogue := .builtin) : Except (List String) Settings :=
  match (decodeAll l c).run [] with
  | (s, []) => .ok s
  | (_, reasons) => .error reasons

end ScriptTree.Settings
