import ScriptTree.Cli.Command
import ScriptTree.Text.Width

/-!
Descriptions of commands and their flags for readers.
-/

namespace ScriptTree.Cli

namespace Flag

/-- The word that stands for the value of a flag: one between back quotes in its usage, or
else its type. -/
def valueWord (f : Flag) : String :=
  match Text.splitOn (Char.ofNat 96) f.usage with
  | _ :: word :: _ :: _ => word
  | _ =>
    match f.kind with
    | .text => "string"
    | .number => "int"
    | .switch _ => ""

def plainUsage (f : Flag) : String :=
  match Text.splitOn (Char.ofNat 96) f.usage with
  | first :: word :: rest@(_ :: _) => first ++ word ++ String.intercalate "`" rest
  | _ => f.usage

def synopsis (f : Flag) : String :=
  (if f.short.isSome then "  " ++ f.shown else "      " ++ f.shown) ++
    (if f.valueWord = "" then "" else " " ++ f.valueWord)

def remark (f : Flag) : String :=
  f.plainUsage ++ if f.kind = .switch true then " (default true)" else ""

def table (flags : List Flag) : String :=
  let flags := sort flags
  let widest := (flags.map (·.synopsis.length)).foldl max 0
  String.intercalate "\n" (flags.map fun f =>
    f.synopsis ++ String.ofList (List.replicate (widest + 3 - f.synopsis.length) ' ') ++ f.remark)

end Flag

namespace Command

def sort (commands : List Command) : List Command :=
  commands.mergeSort (fun a b => decide (a.name ≤ b.name))

def nameColumn : Nat := 11

def listing (commands : List Command) : String :=
  String.join ((sort commands).map fun c => "\n  " ++ Text.padTo nameColumn c.name ++ " " ++ c.summary)

def useLine (top c : Command) : String :=
  path top c ++ c.operands ++ if c = completion then "" else " [flags]"

def usage (top c : Command) (own : List Flag) : String :=
  let below := if c = top then children top else []
  let inherited := inheritedFlags top c
  "Usage:" ++ (if c = root then "" else "\n  " ++ useLine top c) ++
    (if below.isEmpty then "" else "\n  " ++ path top c ++ " [command]") ++
    (if c.examples = "" then "" else "\n\nExamples:\n" ++ c.examples) ++
    (if below.isEmpty then "" else "\n\nAvailable Commands:" ++ listing below) ++
    (if own.isEmpty then "" else "\n\nFlags:\n" ++ Flag.table own) ++
    (if inherited.isEmpty then "" else "\n\nGlobal Flags:\n" ++ Flag.table inherited) ++
    (if below.isEmpty then ""
      else "\n\nUse \"" ++ path top c ++
        " [command] --help\" for more information about a command.") ++
    "\n"

def fullUsage (top c : Command) : String := usage top c (c.ownFlags ++ c.standardFlags)

def manual (top c : Command) : String := c.description ++ "\n\n" ++ fullUsage top c

/-! Topics that do not exist. -/

def canBackQuote (s : String) : Bool :=
  s.toList.all fun c => c.toNat ≠ 96 && c.toNat ≠ 0x7F && c.toNat ≠ 0xFEFF && (c = '\t' || 32 ≤ c.toNat)

def backQuoted (s : String) : String :=
  if canBackQuote s then "`" ++ s ++ "`" else Text.quote s

def unknownTopic (top : Command) (words : List String) : String :=
  "Unknown help topic [" ++ String.intercalate " " (words.map backQuoted) ++ "]\n" ++
    usage top top top.ownFlags

def topic (top : Command) (words : List String) : String :=
  match findAmong (children top) top words with
  | .ok (c, _) => manual top c
  | .error _ => unknownTopic top words

end Command

end ScriptTree.Cli
