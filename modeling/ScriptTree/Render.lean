import ScriptTree.Json.Value
import ScriptTree.Render.Mode
import ScriptTree.Text.Lines
import ScriptTree.Text.Width

/-!
Results as they are shown: plain text for terminals, markdown for pipes, JSON for
programs.
-/

namespace ScriptTree

structure Console where
  out : String := ""
  err : String := ""
deriving DecidableEq, Inhabited

namespace Console

def append (a b : Console) : Console := ⟨a.out ++ b.out, a.err ++ b.err⟩

instance : Append Console := ⟨append⟩

def print (text : String) : Console := ⟨text, ""⟩

def complain (text : String) : Console := ⟨"", text⟩

def println (text : String) : Console := print (text ++ "\n")

def concat (parts : List Console) : Console := parts.foldl append {}

end Console

namespace Render

/-- A block of text: tabs become blanks, and all lines get the width of the widest. -/
def block (text : String) : String :=
  let text := Text.replaceChar '\t' "    " (String.ofList (Text.joinBreaks text.toList))
  let lines := Text.lines text
  match lines with
  | [_] => text
  | lines =>
    let widest := (lines.map Text.width).foldl max 0
    String.intercalate "\n" (lines.map (Text.padTo widest))

def heading (level : Int) (title : String) : String :=
  String.ofList (List.replicate (max level 1).toNat '#') ++ " " ++ title

def fenced (language code : String) : String :=
  "```" ++ language ++ "\n" ++ Text.dropFinalBreaks code ++ "\n```"

def keyValue (key value : String) : String := "- **" ++ key ++ "**: " ++ value

def header (mode : Mode) (level : Int) (title : String) : Console :=
  if mode = .text then .println (block title)
  else .print (heading level title ++ "\n\n")

def code (mode : Mode) (language text : String) : Console :=
  if mode = .markdown then .println (fenced language text) else .println text

def success (mode : Mode) (message : String) : Console :=
  .println (if mode = .text then block ("✓ " ++ message) else message)

def muted (mode : Mode) (message : String) : Console :=
  .println (if mode = .text then block message else message)

def warning (mode : Mode) (message : String) : Console :=
  .complain ((if mode = .text then block ("! " ++ message) else "Warning: " ++ message) ++ "\n")

def error (mode : Mode) (message : String) : Console :=
  .complain ((if mode = .text then block ("✗ " ++ message) else "Error: " ++ message) ++ "\n")

def json (v : Json.Value) : Console := .println (v.indented 0)

end Render

end ScriptTree
