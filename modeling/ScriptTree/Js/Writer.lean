import ScriptTree.Js.Printer

/-!
Source text as it is written, piece by piece. What has been written only grows. The indentation of
a line is held back until the first text of the line, so a line without text has none.
-/

namespace ScriptTree.Js

structure Writer where
  output : ByteString := []
  /-- The number of bodies that are being written. -/
  depth : Nat := 0
  /-- Whether the line has no text so far. -/
  atLineStart : Bool := true
deriving DecidableEq, Inhabited

namespace Writer

def writeIndent (w : Writer) : Writer :=
  { w with output := w.output ++ indentation w.depth, atLineStart := false }

/-- Writes a text. A text that breaks the line at once is not indented. -/
def write (w : Writer) (text : ByteString) : Writer :=
  let w := if w.atLineStart && text.head?.any (· != 10) then w.writeIndent else w
  { w with output := w.output ++ text, atLineStart := false }

def say (w : Writer) (text : String) : Writer := w.write (Text.toBytes text)

def breakLine (w : Writer) : Writer :=
  { w with output := w.output ++ [10], atLineStart := true }

def indent (w : Writer) : Writer := { w with depth := w.depth + 1 }

def dedent (w : Writer) : Writer := { w with depth := w.depth - 1 }

def separated (w : Writer) (separator : ByteString) : List ByteString → Writer
  | [] => w
  | [item] => w.write item
  | item :: rest => ((w.write item).write separator).separated separator rest

def gathered (w : Writer) (isFirst : Bool) : Option ByteString → Writer
  | some name => (if isFirst then w else w.say ", ").write (Text.toBytes "..." ++ name)
  | none => w

def parameters (w : Writer) : Option Parameters → Writer
  | some p =>
    (((w.say "(").separated (Text.toBytes ", ") p.items).gathered p.items.isEmpty p.rest).say ")"
  | none => (w.say "(").say ")"

def named (w : Writer) : Option ByteString → Writer
  | some name => w.write (Text.toBytes " " ++ name)
  | none => w

def head (w : Writer) (h : Head) : Writer :=
  let w := w.say "function"
  let w := if h.isGenerator then w.say "*" else w
  ((w.named h.name).parameters h.parameters).say " "

def operand (w : Writer) (needed : Bool) (inner : Writer → Writer) : Writer :=
  if needed then (inner (w.say "(")).say ")" else inner w

def braces (w : Writer) (isEmpty : Bool) (inner : Writer → Writer) : Writer :=
  let w := w.say "\x7b"
  if isEmpty then w.say "\x7d" else (inner w.breakLine.indent).dedent.say "\x7d"

def directives (w : Writer) : List ByteString → Writer
  | [] => w
  | text :: rest => (w.write (printDirective text)).breakLine.directives rest

mutual

def expr (w : Writer) : Expr → Writer
  | .absent => w
  | .boolean value => w.say (if value then "true" else "false")
  | .number value => w.say value.literal
  | .identifier name => w.write name
  | .binary op left right =>
    let w := w.operand (left.needsParens op.precedence false) (fun w => w.expr left)
    let w := w.say (" " ++ op.symbol ++ " ")
    w.operand (right.needsParens op.precedence true) (fun w => w.expr right)
  | .function h directives statements =>
    (w.head h).braces (directives.isEmpty && statements.isEmpty)
      (fun w => (w.directives directives).statements statements)
  | .bodiless h => (w.head h).braces true id

def statement (w : Writer) : Statement → Writer
  | .absent => w
  | .returned .absent => w.say "return;"
  | .returned e => ((w.say "return ").expr e).say ";"

def statements (w : Writer) : List Statement → Writer
  | [] => w
  | s :: rest => (w.statement s).breakLine.statements rest

end

def tree (w : Writer) : Tree → Writer
  | .expression e => w.expr e
  | .statement s => w.statement s
  | .binding name => w.write name
  | .parameters p => w.parameters (some p)
  | .body directives statements =>
    w.braces (directives.isEmpty && statements.isEmpty)
      (fun w => (w.directives directives).statements statements)

def text (w : Writer) : ByteString := dropFinalBreaks w.output

end Writer

end ScriptTree.Js
