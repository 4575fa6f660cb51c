import ScriptTree.Js.Writer
import ScriptTree.Proofs.Text.Bytes

/-!
What is written is the text of the tree. As long as no indentation is due, every part of a tree
adds its own text, inside as many bodies as are being written, and leaves their number as it was.
-/

namespace ScriptTree.Js

theorem print_returned {e : Expr} (he : e ≠ .absent) (depth : Nat) :
    (Statement.returned e).print depth =
      Text.toBytes "return " ++ (e.print depth ++ Text.toBytes ";") := by
  rw [Statement.print, ← List.append_assoc]
  cases e with
  | absent => exact absurd rfl he
  | _ => rfl

namespace Writer

variable {w : Writer} {run next : Writer → Writer} {text other : Nat → ByteString}

/-- No indentation is due: the line has text, or is not inside a body. -/
def Ready (w : Writer) : Prop := w.atLineStart = true → w.depth = 0

/-- The work adds a text that depends on the depth only, and keeps the depth. -/
structure Writes (run : Writer → Writer) (text : Nat → ByteString) : Prop where
  output : ∀ w : Writer, w.Ready → (run w).output = w.output ++ text w.depth
  depth : ∀ w : Writer, w.Ready → (run w).depth = w.depth
  onLine : ∀ w : Writer, w.atLineStart = false → (run w).atLineStart = false

theorem ready_of_onLine (hw : w.atLineStart = false) : w.Ready := by
  intro hstart
  rw [hw] at hstart
  cases hstart

theorem Writes.ready (h : Writes run text) (hw : w.Ready) : (run w).Ready := by
  cases hstart : w.atLineStart with
  | false => exact ready_of_onLine (h.onLine w hstart)
  | true => exact fun _ => (h.depth w hw).trans (hw hstart)

theorem Writes.comp (h : Writes run text) (hnext : Writes next other) :
    Writes (fun w => next (run w)) (fun depth => text depth ++ other depth) where
  output w hw := by
    rw [hnext.output _ (h.ready hw), h.output w hw, h.depth w hw, List.append_assoc]
  depth w hw := (hnext.depth _ (h.ready hw)).trans (h.depth w hw)
  onLine w hw := hnext.onLine _ (h.onLine w hw)

theorem Writes.of_eq (h : Writes run text) (htext : ∀ depth, other depth = text depth) :
    Writes run other := by
  rwa [funext htext]

theorem writes_nothing : Writes (fun w => w) (fun _ => []) where
  output w _ := (List.append_nil w.output).symm
  depth _ _ := rfl
  onLine _ hw := hw

theorem indentation_zero : indentation 0 = [] := rfl

/-- The first text of a line has its indentation before it. -/
theorem write_atLineStart (hw : w.atLineStart = true) {text : ByteString}
    (htext : text.head?.any (· != 10) = true) :
    w.write text =
      { w with output := w.output ++ (indentation w.depth ++ text), atLineStart := false } := by
  rw [write, hw, htext, ← List.append_assoc]
  rfl

theorem Writes.of_ready (h : ∀ w : Writer, w.Ready →
    run w = { w with output := w.output ++ text w.depth, atLineStart := false }) :
    Writes run text where
  output w hw := by rw [h w hw]
  depth w hw := by rw [h w hw]
  onLine w hw := by rw [h w (ready_of_onLine hw)]

theorem write_ready (hw : w.Ready) (text : ByteString) :
    w.write text = { w with output := w.output ++ text, atLineStart := false } := by
  rw [write]
  split
  next hindented =>
    rw [writeIndent, hw (Bool.and_eq_true_iff.mp hindented).1, indentation_zero, List.append_nil]
  next => rfl

theorem writes_write (text : ByteString) : Writes (fun w => w.write text) (fun _ => text) :=
  .of_ready fun _ hw => write_ready hw text

theorem writes_say (text : String) : Writes (fun w => w.say text) (fun _ => Text.toBytes text) :=
  writes_write _

theorem Writes.operand (h : Writes run text) (needed : Bool) :
    Writes (fun w => w.operand needed run)
      (fun depth => Expr.parenthesize needed (text depth)) := by
  cases needed with
  | true =>
      refine (((writes_say "(").comp h).comp (writes_say ")")).of_eq fun depth => ?_
      rfl
  | false => exact h

/-! Parameters and heads. -/

theorem writes_separated (separator : ByteString) (items : List ByteString) :
    Writes (fun w => w.separated separator items) (fun _ => List.intercalate separator items) := by
  induction items with
  | nil => exact writes_nothing
  | cons item rest ih =>
      cases rest with
      | nil =>
          refine (writes_write item).of_eq fun _ => ?_
          simp [List.intercalate]
      | cons second rest =>
          refine (((writes_write item).comp (writes_write separator)).comp ih).of_eq fun _ => ?_
          simp [List.intercalate]

theorem intercalate_concat (separator last : ByteString) (items : List ByteString) :
    List.intercalate separator (items ++ [last]) =
      List.intercalate separator items ++ ((if items.isEmpty then [] else separator) ++ last) := by
  induction items with
  | nil => simp [List.intercalate]
  | cons item rest ih =>
      cases rest with
      | nil => simp [List.intercalate]
      | cons second rest =>
          simp only [List.cons_append, List.intercalate_cons_cons, List.isEmpty_cons,
            Bool.false_eq_true, if_false] at ih ⊢
          rw [ih]
          simp only [List.append_assoc]

theorem writes_gathered (isFirst : Bool) (name : ByteString) :
    Writes (fun w => w.gathered isFirst (some name))
      (fun _ => (if isFirst then [] else Text.toBytes ", ") ++ (Text.toBytes "..." ++ name)) := by
  cases isFirst with
  | true => exact writes_write _
  | false => exact (writes_say ", ").comp (writes_write _)

theorem writes_parameters (p : Option Parameters) :
    Writes (fun w => w.parameters p)
      (fun _ => Text.toBytes "(" ++ p.elim [] Parameters.print ++ Text.toBytes ")") := by
  cases p with
  | none => exact (writes_say "(").comp (writes_say ")")
  | some p =>
      obtain ⟨items, rest⟩ := p
      have hitems := (writes_say "(").comp (writes_separated (Text.toBytes ", ") items)
      rw [Option.elim_some]
      cases rest with
      | none =>
          refine (hitems.comp (writes_say ")")).of_eq fun _ => ?_
          simp only [Parameters.print, List.append_nil]
      | some name =>
          refine ((hitems.comp (writes_gathered items.isEmpty name)).comp
            (writes_say ")")).of_eq fun _ => ?_
          simp only [Parameters.print, intercalate_concat, List.append_assoc]

theorem writes_named (name : Option ByteString) :
    Writes (fun w => w.named name) (fun _ => name.elim [] (Text.toBytes " " ++ ·)) := by
  cases name with
  | none => exact writes_nothing
  | some name => exact writes_write _

theorem writes_head (h : Head) : Writes (fun w => w.head h) (fun _ => h.print) := by
  have hstar : Writes (fun w => if h.isGenerator then w.say "*" else w)
      (fun _ => Text.toBytes (if h.isGenerator then "*" else "")) := by
    cases h.isGenerator with
    | true => exact writes_say "*"
    | false => exact writes_nothing
  refine (((((writes_say "function").comp hstar).comp (writes_named h.name)).comp
    (writes_parameters h.parameters)).comp (writes_say " ")).of_eq fun _ => ?_
  have hclose : Text.toBytes ") " = Text.toBytes ")" ++ Text.toBytes " " :=
    Text.toBytes_append ")" " "
  rw [Head.print, hclose]
  cases h.name with
  | none => cases h.parameters <;> simp only [Option.elim, List.append_assoc]
  | some name => cases h.parameters <;> simp only [Option.elim, List.append_assoc]

/-! Lines. -/

def lineOf (depth : Nat) (line : ByteString) : ByteString :=
  (if line.isEmpty then [] else indentation depth ++ line) ++ Text.toBytes "\n"

/-- The work adds whole lines from the start of a line. -/
def WritesLines (run : Writer → Writer) (lines : Nat → List ByteString) : Prop :=
  ∀ w : Writer, w.atLineStart = true →
    run w = { w with output := w.output ++ ((lines w.depth).map (lineOf w.depth)).flatten }

theorem Writes.line (h : Writes run text) {first : ByteString}
    (hfirst : first.head?.any (· != 10) = true) (hw : w.atLineStart = true) :
    (run (w.write first)).breakLine =
      { w with output := w.output ++ lineOf w.depth (first ++ text w.depth) } := by
  have hline : (first ++ text w.depth).isEmpty = false := by
    cases first with
    | nil => cases hfirst
    | cons b rest => rfl
  rw [write_atLineStart hw hfirst, breakLine, h.output _ (ready_of_onLine rfl),
    h.depth _ (ready_of_onLine rfl), lineOf, hline]
  obtain ⟨output, depth, atLineStart⟩ := w
  subst hw
  simp only [Bool.false_eq_true, if_false, List.append_assoc]
  rfl

theorem WritesLines.append {lines later : Nat → List ByteString} (h : WritesLines run lines)
    (hnext : WritesLines next later) :
    WritesLines (fun w => next (run w)) (fun depth => lines depth ++ later depth) := by
  intro w hw
  have hrun := h w hw
  have hstart : (run w).atLineStart = true := by
    rw [hrun]
    exact hw
  change next (run w) = _
  rw [hnext (run w) hstart, hrun]
  simp only [List.map_append, List.flatten_append, List.append_assoc]

theorem head?_printDirective (text : ByteString) : (printDirective text).head? = some 0x22 := by
  rw [printDirective, ByteString.quote, Text.toBytes_append, Text.toBytes, String.toList_ofList,
    List.cons_append, Text.ofChars, List.flatMap_cons, List.append_assoc, List.head?_append]
  rfl

theorem writesLines_directives (directives : List ByteString) :
    WritesLines (fun w => w.directives directives) (fun _ => directives.map printDirective) := by
  induction directives with
  | nil =>
      intro w hw
      simp [Writer.directives]
  | cons text rest ih =>
      have hfirst : WritesLines (fun w => (w.write (printDirective text)).breakLine)
          (fun _ => [printDirective text]) := by
        intro w hw
        have hquote : (printDirective text).head?.any (· != 10) = true := by
          rw [head?_printDirective]
          rfl
        have hline := writes_nothing.line hquote hw
        rw [List.append_nil] at hline
        refine hline.trans ?_
        rw [List.map_singleton, List.flatten_singleton]
      exact hfirst.append ih

/-- A body is written with its lines one level deeper. -/
theorem WritesLines.braces {lines : Nat → List ByteString} (h : WritesLines run lines)
    {isEmpty : Bool} (hempty : ∀ depth, (lines depth).isEmpty = isEmpty) :
    Writes (fun w => w.braces isEmpty run) (fun depth => Js.braces depth (lines (depth + 1))) := by
  cases isEmpty with
  | true =>
      refine ((writes_say "\x7b").comp (writes_say "\x7d")).of_eq fun depth => ?_
      rw [Js.braces, hempty, if_pos rfl]
      rfl
  | false =>
      refine .of_ready fun w hw => ?_
      have hopened : (w.say "\x7b").breakLine.indent =
          ⟨w.output ++ Text.toBytes "\x7b\n", w.depth + 1, true⟩ := by
        rw [say, write_ready hw, breakLine, indent, List.append_assoc]
        rfl
      have hbody : w.braces false run =
          ((run (w.say "\x7b").breakLine.indent).dedent).say "\x7d" := rfl
      refine hbody.trans ?_
      -- The last line of the body leaves a new line open, which the brace begins one level up.
      rw [hopened, h _ rfl, dedent, say, write_atLineStart rfl rfl, Js.braces, hempty]
      simp only [Nat.add_sub_cancel, Bool.false_eq_true, if_false, List.append_assoc]
      rfl

/-! Statements that return a value. -/

theorem statement_returned {e : Expr} (he : e ≠ .absent) :
    w.statement (.returned e) = ((w.say "return ").expr e).say ";" := by
  cases e with
  | absent => exact absurd rfl he
  | _ => rfl

/-! Trees. -/

theorem Writes.returned {e : Expr} (h : Writes (fun w => w.expr e) (fun depth => e.print depth)) :
    Writes (fun w => w.statement (.returned e))
        (fun depth => (Statement.returned e).print depth) ∧
      WritesLines (fun w => (w.statement (.returned e)).breakLine)
        (fun depth => [(Statement.returned e).print depth]) := by
  by_cases he : e = .absent
  · subst he
    refine ⟨writes_say "return;", fun w hw => ?_⟩
    have hfirst : (Text.toBytes "return;").head?.any (· != 10) = true := rfl
    refine (writes_nothing.line hfirst hw).trans ?_
    rw [List.append_nil, List.map_singleton, List.flatten_singleton]
    rfl
  · have hvalue := h.comp (writes_say ";")
    constructor
    · simp only [statement_returned he, print_returned he]
      exact (writes_say "return ").comp hvalue
    · intro w hw
      have hfirst : (Text.toBytes "return ").head?.any (· != 10) = true := rfl
      simp only [statement_returned he, print_returned he]
      refine (hvalue.line hfirst hw).trans ?_
      rw [List.map_singleton, List.flatten_singleton]

theorem writesLines_nothing : WritesLines (fun w => w) (fun _ => []) := by
  intro w _
  rw [List.map_nil, List.flatten_nil, List.append_nil]

theorem writesLines_absent : WritesLines (fun w => w.breakLine) (fun _ => [[]]) := by
  rintro ⟨output, depth, atLineStart⟩ rfl
  rfl

/-- The body of a function, which is empty where there is nothing to stand on its lines. -/
theorem WritesLines.body {statements : List Statement} (directives : List ByteString)
    (h : WritesLines (fun w => w.statements statements)
      (fun depth => printStatements depth statements)) :
    Writes (fun w => w.braces (directives.isEmpty && statements.isEmpty)
        (fun w => (w.directives directives).statements statements))
      (fun depth => Js.braces depth
        (directives.map printDirective ++ printStatements (depth + 1) statements)) := by
  refine ((writesLines_directives directives).append h).braces fun depth => ?_
  cases directives <;> cases statements <;> rfl

mutual

theorem writes_expr : (e : Expr) → Writes (fun w => w.expr e) (fun depth => e.print depth)
  | .absent => writes_nothing
  | .boolean _ => writes_say _
  | .number _ => writes_say _
  | .identifier name => writes_write name
  | .binary _ left right =>
      (((writes_expr left).operand _).comp (writes_say _)).comp ((writes_expr right).operand _)
  | .function h directives statements =>
      (writes_head h).comp ((writesLines_statements statements).body directives)
  | .bodiless h => (writes_head h).comp (writesLines_nothing.braces fun _ => rfl)

theorem writes_statement : (s : Statement) →
    Writes (fun w => w.statement s) (fun depth => s.print depth)
  | .absent => writes_nothing
  | .returned e => (writes_expr e).returned.1

theorem writesLines_statements : (statements : List Statement) →
    WritesLines (fun w => w.statements statements) (fun depth => printStatements depth statements)
  | [] => writesLines_nothing
  | .absent :: rest => writesLines_absent.append (writesLines_statements rest)
  | .returned e :: rest => (writes_expr e).returned.2.append (writesLines_statements rest)

end

theorem output_tree (t : Tree) : (({} : Writer).tree t).output = t.print := by
  have hready : ({} : Writer).Ready := fun _ => rfl
  cases t with
  | expression e => exact (writes_expr e).output _ hready
  | statement s => exact (writes_statement s).output _ hready
  | binding name => exact (writes_write name).output _ hready
  | parameters p => exact (writes_parameters (some p)).output _ hready
  | body directives statements =>
      exact ((writesLines_statements statements).body directives).output _ hready

theorem text_tree (t : Tree) : (({} : Writer).tree t).text = t.source := by
  rw [text, output_tree, Tree.source]

end Writer

end ScriptTree.Js
