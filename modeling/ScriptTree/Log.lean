import ScriptTree.Number.Integer
import ScriptTree.Text.ByteString
import ScriptTree.Text.Casing
import ScriptTree.Text.Lines
import ScriptTree.Text.Quoted

/-!
Lines of the log: a time, a level, a message and values under names. A level says how important a
message is: a number, named by the nearest level below it.
-/

namespace ScriptTree.Log

structure Level where
  number : Int
deriving DecidableEq, Inhabited

inductive LevelError where
  | unknownName
  | offset (text : String) (cause : Number.IntegerError)
deriving DecidableEq, Inhabited

namespace LevelError

def message : LevelError → String
  | unknownName => "unknown name"
  | offset text cause =>
    "strconv.Atoi: parsing " ++ Text.quote text ++ ": " ++
      (match cause with
        | .malformed => "invalid syntax"
        | .outOfRange _ => "value out of range")

end LevelError

namespace Level

def debug : Level := ⟨-4⟩

def info : Level := ⟨0⟩

def warn : Level := ⟨4⟩

def error : Level := ⟨8⟩

def ofName? (name : String) : Option Level :=
  match name with
  | "DEBUG" => some debug
  | "INFO" => some info
  | "WARN" => some warn
  | "ERROR" => some error
  | _ => none

/-- A name in any case, with a number added or taken away. Levels have 64 bits and wrap around. -/
def ofText (text : String) : Except LevelError Level := do
  let name := text.toList.takeWhile fun c => c ≠ '+' && c ≠ '-'
  let rest := String.ofList (text.toList.drop name.length)
  let offset ←
    if rest.isEmpty then pure 0
    else (Number.signedDecimal 64 rest).mapError (.offset rest)
  match ofName? (Text.upper (String.ofList name)) with
  | some level => return ⟨Int.bmod (level.number + offset) (Nat.pow 2 64)⟩
  | none => .error .unknownName

def name (l : Level) : String :=
  let shown (base : String) (from_ : Level) : String :=
    let n := l.number - from_.number
    if n = 0 then base else base ++ (if n < 0 then "" else "+") ++ Text.integer n
  if l.number < info.number then shown "DEBUG" debug
  else if l.number < warn.number then shown "INFO" info
  else if l.number < error.number then shown "WARN" warn
  else shown "ERROR" error

end Level

structure Record where
  level : Level
  message : String
  fields : List (String × ByteString) := []
deriving DecidableEq, Inhabited

def isUnsafe : Text.Piece → Bool
  | .char c =>
    if c.toNat < 0x80 then c = ' ' || c = '=' || c = '"' || c.toNat < 0x20
    else c = Text.replacement || Text.isBlank c || !Text.Printable.isPrintable c
  | .broken _ => true

def needsQuotes (s : ByteString) : Bool := s.isEmpty || (Text.pieces s).any isUnsafe

def value (s : ByteString) : String := if needsQuotes s then s.quote else s.text

def pair (name : String) (text : ByteString) : String := name ++ "=" ++ value text

def line (clock : String) (r : Record) : String :=
  String.intercalate " "
    (pair "time" clock :: pair "level" r.level.name :: pair "msg" r.message ::
      r.fields.map (fun (name, text) => pair name text)) ++ "\n"

def lines (clock : String) (least : Level) (records : List Record) : String :=
  String.join ((records.filter (fun r => least.number ≤ r.level.number)).map (line clock))

end ScriptTree.Log
