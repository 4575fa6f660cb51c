import ScriptTree.Proofs.Js.Syntax.Spelling
import ScriptTree.Proofs.Js.Writer

/-!
The layout of source text. Inside `d` bodies an expression has the same text as outside of all
bodies, but for the indentation after its line breaks. So every line inside `k` open bodies begins
with two spaces for each of them, and the line that closes one of them with two spaces less.
-/

namespace ScriptTree.Js

/-- Expressions put together from literals, names of a kind, operators of a kind, and named
functions that return any number of expressions. -/
inductive Expr.Assembled (isName : ByteString → Prop) (isOperator : Operator → Prop) :
    Expr → Prop
  | boolean (value : Bool) : Assembled isName isOperator (.boolean value)
  | number (value : Number) : Assembled isName isOperator (.number value)
  | identifier {name : ByteString} (hname : isName name) :
      Assembled isName isOperator (.identifier name)
  | binary {op : Operator} {left right : Expr} (hop : isOperator op)
      (hleft : Assembled isName isOperator left) (hright : Assembled isName isOperator right) :
      Assembled isName isOperator (.binary op left right)
  | named {name : ByteString} {parameters : List ByteString} {returns : List Expr}
      (hname : isName name) (hparameters : ∀ p ∈ parameters, isName p)
      (hreturns : ∀ e ∈ returns, Assembled isName isOperator e) :
      Assembled isName isOperator (.named name parameters returns)

theorem Expr.Assembled.ne_absent {isName : ByteString → Prop} {isOperator : Operator → Prop}
    {e : Expr} (he : e.Assembled isName isOperator) : e ≠ .absent := by
  rintro rfl
  cases he

/-! Texts on one line. -/

def Unbroken (text : ByteString) : Prop := 10 ∉ text

instance : DecidablePred Unbroken := fun text => inferInstanceAs (Decidable (10 ∉ text))

section Unbroken

variable {text other : ByteString}

theorem unbroken_append (htext : Unbroken text) (hother : Unbroken other) :
    Unbroken (text ++ other) := by
  rw [Unbroken, List.mem_append, not_or]
  exact ⟨htext, hother⟩

theorem unbroken_toBytes {text : String} (htext : '\n' ∉ text.toList) :
    Unbroken (Text.toBytes text) :=
  mt (Text.mem_of_mem_ofChars (d := '\n') (by decide)) htext

theorem indentation_eq (depth : Nat) : indentation depth = List.replicate (2 * depth) 32 := by
  have hspaces : ∀ n, Text.ofChars (List.replicate n ' ') = List.replicate n 32 := by
    intro n
    induction n with
    | zero => rfl
    | succ n ih =>
        rw [List.replicate_succ, List.replicate_succ, ← ih]
        rfl
  rw [indentation, Text.toBytes, String.toList_ofList, hspaces]

theorem indentation_append (m n : Nat) : indentation m ++ indentation n = indentation (n + m) := by
  rw [indentation_eq, indentation_eq, indentation_eq, List.replicate_append_replicate]
  exact congrArg (List.replicate · 32) (by omega)

theorem unbroken_indentation (depth : Nat) : Unbroken (indentation depth) := by
  rw [indentation_eq]
  intro hmem
  exact absurd (List.eq_of_mem_replicate hmem) (by decide)

theorem unbroken_intercalate {separator : ByteString} (hseparator : Unbroken separator)
    {items : List ByteString} (hitems : ∀ item ∈ items, Unbroken item) :
    Unbroken (List.intercalate separator items) := by
  induction items with
  | nil => exact List.not_mem_nil
  | cons item rest ih =>
      rw [List.forall_mem_cons] at hitems
      cases rest with
      | nil =>
          rw [List.intercalate_singleton]
          exact hitems.1
      | cons second rest =>
          rw [List.intercalate_cons_cons]
          exact unbroken_append (unbroken_append hitems.1 hseparator) (ih hitems.2)

theorem unbroken_operator {op : Operator} (hop : Unbroken (Text.toBytes op.symbol)) :
    Unbroken (Text.toBytes (" " ++ op.symbol ++ " ")) := by
  rw [Text.toBytes_append, Text.toBytes_append]
  exact unbroken_append (unbroken_append (by decide) hop) (by decide)

theorem unbroken_head {name : ByteString} {parameters : List ByteString} (hname : Unbroken name)
    (hparameters : ∀ p ∈ parameters, Unbroken p) :
    Unbroken (Head.print ⟨false, false, some name, some ⟨parameters, none⟩⟩) := by
  have hseparator : Unbroken (Text.toBytes ", ") := by decide
  have hword : Unbroken (Text.toBytes "function" ++ Text.toBytes (if false then "*" else "")) := by
    decide
  simp only [Head.print, Parameters.print, List.append_nil]
  exact unbroken_append (unbroken_append (unbroken_append (unbroken_append hword
    (unbroken_append (by decide) hname)) (by decide))
    (unbroken_intercalate hseparator hparameters)) (by decide)

end Unbroken

/-! The text of a body after its opening brace. -/

/-- The lines of a body, and the brace that closes it. -/
def bodyText (depth : Nat) : List ByteString → ByteString
  | [] => indentation depth ++ Text.toBytes "\x7d"
  | line :: rest =>
    (if line.isEmpty then [] else indentation (depth + 1) ++ line) ++ 10 :: bodyText depth rest

theorem bodyText_eq (depth : Nat) (lines : List ByteString) :
    bodyText depth lines =
      (lines.map fun line => (if line.isEmpty then [] else indentation (depth + 1) ++ line) ++
        Text.toBytes "\n").flatten ++ indentation depth ++ Text.toBytes "\x7d" := by
  induction lines with
  | nil => rw [bodyText, List.map_nil, List.flatten_nil, List.nil_append]
  | cons line rest ih =>
      rw [bodyText, ih, List.map_cons, List.flatten_cons]
      simp only [List.append_assoc]
      rfl

theorem braces_eq (depth : Nat) (lines : List ByteString) :
    braces depth lines =
      if lines.isEmpty then Text.toBytes "\x7b\x7d" else 0x7b :: 10 :: bodyText depth lines := by
  rw [braces, bodyText_eq]
  simp only [List.append_assoc]
  rfl

theorem printStatements_map_returned (depth : Nat) (returns : List Expr) :
    printStatements depth (returns.map .returned) =
      returns.map fun e => (Statement.returned e).print depth := by
  induction returns with
  | nil => rfl
  | cons e rest ih => rw [List.map_cons, printStatements, ih, List.map_cons]

theorem print_returned_ne_nil (e : Expr) (depth : Nat) :
    (Statement.returned e).print depth ≠ [] := by
  by_cases he : e = .absent
  · rw [he]
    exact List.cons_ne_nil _ _
  · rw [print_returned he]
    exact List.cons_ne_nil _ _

theorem Expr.print_named (name : ByteString) (parameters : List ByteString) (returns : List Expr)
    (depth : Nat) :
    (named name parameters returns).print depth =
      Head.print ⟨false, false, some name, some ⟨parameters, none⟩⟩ ++
        braces depth (returns.map fun e => (Statement.returned e).print (depth + 1)) := by
  rw [named, print, List.map_nil, List.nil_append, printStatements_map_returned]

/-! Texts moved into bodies. -/

/-- The text with two spaces for each of `depth` bodies after every line break. -/
def deepen (depth : Nat) (text : ByteString) : ByteString :=
  text.flatMap fun b => if b = 10 then 10 :: indentation depth else [b]

section Deepen

variable {text : ByteString} (n depth : Nat)

theorem deepen_append (text other : ByteString) :
    deepen depth (text ++ other) = deepen depth text ++ deepen depth other :=
  List.flatMap_append

theorem deepen_of_unbroken (htext : Unbroken text) : deepen depth text = text := by
  induction text with
  | nil => rfl
  | cons b rest ih =>
      rw [Unbroken, List.mem_cons, not_or] at htext
      rw [deepen, List.flatMap_cons, if_neg (Ne.symm htext.1), List.singleton_append]
      exact congrArg (b :: ·) (ih htext.2)

theorem deepen_break (rest : ByteString) :
    deepen depth (10 :: rest) = 10 :: (indentation depth ++ deepen depth rest) := by
  rw [deepen, List.flatMap_cons, if_pos rfl]
  rfl

theorem isEmpty_deepen (text : ByteString) : (deepen depth text).isEmpty = text.isEmpty := by
  cases text with
  | nil => rfl
  | cons b rest =>
      rw [deepen, List.flatMap_cons]
      split
      next => rfl
      next => rfl

theorem deepen_parenthesize (needed : Bool) (text : ByteString) :
    deepen depth (Expr.parenthesize needed text) =
      Expr.parenthesize needed (deepen depth text) := by
  cases needed with
  | true =>
      simp only [Expr.parenthesize, if_true, deepen_append]
      rfl
  | false => rfl

/-- The lines of a body are moved with the brace that closes it. A line without text would not be
moved, but there is none. -/
theorem deepen_bodyText {lines : List ByteString} (hlines : ∀ line ∈ lines, line ≠ []) :
    indentation depth ++ deepen depth (bodyText n lines) =
      bodyText (n + depth) (lines.map (deepen depth)) := by
  induction lines with
  | nil =>
      rw [bodyText, deepen_append, deepen_of_unbroken _ (unbroken_indentation n),
        ← List.append_assoc, indentation_append]
      rfl
  | cons line rest ih =>
      rw [List.forall_mem_cons] at hlines
      have hline : line.isEmpty = false := List.isEmpty_eq_false_iff.mpr hlines.1
      rw [bodyText, deepen_append, deepen_break, ih hlines.2, List.map_cons, bodyText,
        isEmpty_deepen, hline]
      simp only [Bool.false_eq_true, if_false]
      rw [deepen_append, deepen_of_unbroken _ (unbroken_indentation _), ← List.append_assoc,
        ← List.append_assoc, indentation_append, Nat.add_right_comm]

theorem deepen_braces {lines : List ByteString} (hlines : ∀ line ∈ lines, line ≠ []) :
    deepen depth (braces n lines) = braces (n + depth) (lines.map (deepen depth)) := by
  rw [braces_eq, braces_eq, List.isEmpty_map]
  split
  next => rfl
  next =>
    rw [← deepen_bodyText _ _ hlines, ← deepen_break]
    rfl

end Deepen

/-- What is printed at a greater depth is what is printed at a smaller one, moved. -/
theorem Expr.Assembled.print_add {e : Expr}
    (he : e.Assembled Unbroken fun op => Unbroken (Text.toBytes op.symbol)) (n depth : Nat) :
    e.print (n + depth) = deepen depth (e.print n) := by
  induction he generalizing n with
  | boolean value => cases value <;> rfl
  | number value =>
      exact (deepen_of_unbroken depth (unbroken_toBytes value.break_not_mem_literal)).symm
  | identifier hname => exact (deepen_of_unbroken depth hname).symm
  | binary hop _ _ ihleft ihright =>
      simp only [print, deepen_append, deepen_parenthesize, ihleft, ihright,
        deepen_of_unbroken depth (unbroken_operator hop)]
  | @named name parameters returns hname hparameters hreturns ih =>
      have hlines : returns.map (fun e => (Statement.returned e).print (n + depth + 1)) =
          (returns.map fun e => (Statement.returned e).print (n + 1)).map (deepen depth) := by
        rw [List.map_map]
        refine List.map_congr_left fun e he => ?_
        have habsent := (hreturns e he).ne_absent
        simp only [Function.comp_apply]
        rw [print_returned habsent, print_returned habsent, Nat.add_right_comm, ih e he,
          deepen_append, deepen_append]
        rfl
      have htext : ∀ line ∈ returns.map (fun e => (Statement.returned e).print (n + 1)),
          line ≠ [] := by
        intro line hmem
        obtain ⟨e, -, rfl⟩ := List.mem_map.mp hmem
        exact print_returned_ne_nil e _
      rw [print_named, print_named, deepen_append,
        deepen_of_unbroken depth (unbroken_head hname hparameters), deepen_braces _ _ htext, hlines]

/-! The braces of bodies. A brace within a name is none of them, so they are marked. -/

/-- A byte of a text, or a brace that opens or closes the body of a function. -/
inductive Mark where
  | byte (value : UInt8)
  | opening
  | closing
deriving DecidableEq

namespace Mark

def value : Mark → UInt8
  | byte value => value
  | opening => 0x7b
  | closing => 0x7d

/-- A text without braces of bodies. -/
def plain (text : ByteString) : List Mark := text.map byte

def parenthesize (needed : Bool) (text : List Mark) : List Mark :=
  if needed then plain (Text.toBytes "(") ++ text ++ plain (Text.toBytes ")") else text

def bodyText (depth : Nat) : List (List Mark) → List Mark
  | [] => plain (indentation depth) ++ [closing]
  | line :: rest =>
    (if line.isEmpty then [] else plain (indentation (depth + 1)) ++ line) ++
      byte 10 :: bodyText depth rest

def braces (depth : Nat) (lines : List (List Mark)) : List Mark :=
  if lines.isEmpty then [opening, closing] else opening :: byte 10 :: bodyText depth lines

end Mark

mutual

/-- The text of an expression inside `depth` bodies, with the braces of its bodies marked. -/
def Expr.marked (depth : Nat) : Expr → List Mark
  | .absent => []
  | .boolean value => Mark.plain ((Expr.boolean value).print depth)
  | .number value => Mark.plain ((Expr.number value).print depth)
  | .identifier name => Mark.plain name
  | .binary op left right =>
    Mark.parenthesize (left.needsParens op.precedence false) (left.marked depth) ++
      Mark.plain (Text.toBytes (" " ++ op.symbol ++ " ")) ++
      Mark.parenthesize (right.needsParens op.precedence true) (right.marked depth)
  | .function head directives statements =>
    Mark.plain head.print ++ Mark.braces depth
      (directives.map (fun text => Mark.plain (printDirective text)) ++
        markedStatements (depth + 1) statements)
  | .bodiless head => Mark.plain head.print ++ Mark.braces depth []

def Statement.marked (depth : Nat) : Statement → List Mark
  | .absent => []
  | .returned .absent => Mark.plain (Text.toBytes "return;")
  | .returned e =>
    Mark.plain (Text.toBytes "return ") ++ (e.marked depth ++ Mark.plain (Text.toBytes ";"))

def markedStatements (depth : Nat) : List Statement → List (List Mark)
  | [] => []
  | s :: rest => s.marked depth :: markedStatements depth rest

end

namespace Mark

theorem map_value_plain (text : ByteString) : (plain text).map value = text := by
  rw [plain, List.map_map]
  exact List.map_id _

theorem map_value_directives (directives : List ByteString) :
    (directives.map fun text => plain (printDirective text)).map (List.map value) =
      directives.map printDirective := by
  simp only [List.map_map, Function.comp_def, map_value_plain]

theorem map_value_parenthesize (needed : Bool) (text : List Mark) :
    (parenthesize needed text).map value = Expr.parenthesize needed (text.map value) := by
  cases needed with
  | true => simp only [parenthesize, Expr.parenthesize, if_true, List.map_append, map_value_plain]
  | false => rfl

theorem map_value_braces (depth : Nat) (lines : List (List Mark)) :
    (braces depth lines).map value = Js.braces depth (lines.map (List.map value)) := by
  have hbody : (bodyText depth lines).map value =
      Js.bodyText depth (lines.map (List.map value)) := by
    induction lines with
    | nil =>
        rw [bodyText, List.map_append, map_value_plain]
        rfl
    | cons line rest ih =>
        rw [bodyText, List.map_append, List.map_cons, ih, List.map_cons, Js.bodyText,
          List.isEmpty_map]
        cases line.isEmpty with
        | true => rfl
        | false =>
            simp only [Bool.false_eq_true, if_false, List.map_append, map_value_plain]
            rfl
  rw [braces_eq, List.isEmpty_map, braces, ← hbody]
  split
  next => rfl
  next => rfl

end Mark

theorem marked_returned {e : Expr} (he : e ≠ .absent) (depth : Nat) :
    (Statement.returned e).marked depth =
      Mark.plain (Text.toBytes "return ") ++
        (e.marked depth ++ Mark.plain (Text.toBytes ";")) := by
  cases e with
  | absent => exact absurd rfl he
  | _ => rfl

mutual

/-- The marks say nothing but where the bodies are. -/
theorem Expr.map_value_marked (depth : Nat) : (e : Expr) →
    (e.marked depth).map Mark.value = e.print depth
  | .absent => rfl
  | .boolean _ | .number _ | .identifier _ => Mark.map_value_plain _
  | .binary _ left right => by
      rw [Expr.marked, List.map_append, List.map_append, Mark.map_value_parenthesize,
        Mark.map_value_parenthesize, Expr.map_value_marked depth left,
        Expr.map_value_marked depth right, Mark.map_value_plain]
      rfl
  | .function head directives statements => by
      have hlines : (directives.map (fun text => Mark.plain (printDirective text)) ++
          markedStatements (depth + 1) statements).map (List.map Mark.value) =
          directives.map printDirective ++ printStatements (depth + 1) statements := by
        rw [List.map_append, Mark.map_value_directives,
          map_value_markedStatements (depth + 1) statements]
      rw [Expr.marked, List.map_append, Mark.map_value_plain, Mark.map_value_braces, hlines]
      rfl
  | .bodiless head => by
      rw [Expr.marked, List.map_append, Mark.map_value_plain, Mark.map_value_braces]
      rfl

theorem Statement.map_value_marked (depth : Nat) : (s : Statement) →
    (s.marked depth).map Mark.value = s.print depth
  | .absent => rfl
  | .returned e => by
      by_cases he : e = .absent
      · subst he
        exact Mark.map_value_plain _
      · rw [marked_returned he, print_returned he, List.map_append, List.map_append,
          Mark.map_value_plain, Mark.map_value_plain, Expr.map_value_marked depth e]

theorem map_value_markedStatements (depth : Nat) : (statements : List Statement) →
    (markedStatements depth statements).map (List.map Mark.value) =
      printStatements depth statements
  | [] => rfl
  | s :: rest => by
      rw [markedStatements, List.map_cons, Statement.map_value_marked depth s,
        map_value_markedStatements depth rest]
      rfl

end

/-! Lines inside bodies. -/

namespace Mark

/-- The number of bodies that are open behind a text, if `k` are open before it. -/
def openAfter (k : Nat) : List Mark → Nat
  | [] => k
  | byte _ :: rest => openAfter k rest
  | opening :: rest => openAfter (k + 1) rest
  | closing :: rest => openAfter (k - 1) rest

/-- The beginning of a line inside `k` open bodies: the indentation of a statement, or that of the
brace that closes the innermost body. -/
def Indented (k : Nat) (line : List Mark) : Prop :=
  0 < k ∧ (plain (indentation k ++ Text.toBytes "return") <+: line ∨
    plain (indentation (k - 1)) ++ [closing] <+: line)

/-- Every line behind the first one is indented, if `k` bodies are open before the text. -/
def Aligned (k : Nat) : List Mark → Prop
  | [] => True
  | byte b :: rest => (b = 10 → Indented k rest) ∧ Aligned k rest
  | opening :: rest => Aligned (k + 1) rest
  | closing :: rest => Aligned (k - 1) rest

variable {k : Nat} {text more : List Mark}

theorem openAfter_append (k : Nat) (text more : List Mark) :
    openAfter k (text ++ more) = openAfter (openAfter k text) more := by
  induction text generalizing k with
  | nil => rfl
  | cons mark rest ih => cases mark <;> exact ih _

theorem openAfter_plain (k : Nat) (text : ByteString) : openAfter k (plain text) = k := by
  induction text with
  | nil => rfl
  | cons b rest ih => exact ih

/-- The last line has text. -/
theorem not_indented_nil (k : Nat) : ¬ Indented k [] := by
  rintro ⟨-, hbegins | hbegins⟩
  · rw [List.prefix_nil, plain, List.map_eq_nil_iff] at hbegins
    exact List.append_ne_nil_of_right_ne_nil _ (by decide) hbegins
  · exact List.append_ne_nil_of_right_ne_nil _ (by simp) (List.prefix_nil.mp hbegins)

theorem Indented.append (h : Indented k text) (more : List Mark) : Indented k (text ++ more) :=
  ⟨h.1, h.2.imp (·.trans (List.prefix_append _ _)) (·.trans (List.prefix_append _ _))⟩

theorem Aligned.append (h : Aligned k text) (hmore : Aligned (openAfter k text) more) :
    Aligned k (text ++ more) := by
  induction text generalizing k with
  | nil => exact hmore
  | cons mark rest ih =>
      cases mark with
      | byte b => exact ⟨fun hb => (h.1 hb).append more, ih h.2 hmore⟩
      | opening => exact ih (k := k + 1) h hmore
      | closing => exact ih (k := k - 1) h hmore

theorem aligned_plain (k : Nat) {text : ByteString} (htext : Unbroken text) :
    Aligned k (plain text) := by
  induction text with
  | nil => trivial
  | cons b rest ih =>
      rw [Unbroken, List.mem_cons, not_or] at htext
      exact ⟨fun hb => absurd hb.symm htext.1, ih htext.2⟩

/-- What alignment says of a line break anywhere in the text. -/
theorem Aligned.indented (before : List Mark) {after : List Mark}
    (h : Aligned k (before ++ byte 10 :: after)) : Indented (openAfter k before) after := by
  induction before generalizing k with
  | nil => exact h.1 rfl
  | cons mark rest ih =>
      cases mark with
      | byte b => exact ih h.2
      | opening => exact ih (k := k + 1) h
      | closing => exact ih (k := k - 1) h

/-- A text that is aligned and closes the bodies that it opens. -/
structure Whole (k : Nat) (text : List Mark) : Prop where
  aligned : Aligned k text
  openAfter_eq : openAfter k text = k

theorem Whole.aligned_append (h : Whole k text) (hmore : Aligned k more) :
    Aligned k (text ++ more) := by
  rw [← h.openAfter_eq] at hmore
  exact h.aligned.append hmore

theorem Whole.append (h : Whole k text) (hmore : Whole k more) : Whole k (text ++ more) where
  aligned := h.aligned_append hmore.aligned
  openAfter_eq := by rw [openAfter_append, h.openAfter_eq, hmore.openAfter_eq]

theorem whole_plain (k : Nat) {text : ByteString} (htext : Unbroken text) :
    Whole k (plain text) :=
  ⟨aligned_plain k htext, openAfter_plain k text⟩

theorem Whole.parenthesize (h : Whole k text) (needed : Bool) :
    Whole k (Mark.parenthesize needed text) := by
  cases needed with
  | true => exact ((whole_plain k (by decide)).append h).append (whole_plain k (by decide))
  | false => exact h

/-- The rest of a body whose line begins here, up to the brace that closes it. -/
structure Closes (k : Nat) (text : List Mark) : Prop where
  indented : Indented (k + 1) text
  aligned : Aligned (k + 1) text
  openAfter_eq : openAfter (k + 1) text = k

theorem closes_closing (k : Nat) : Closes k (plain (indentation k) ++ [closing]) := by
  have hspaces := whole_plain (k + 1) (unbroken_indentation k)
  have hclosing : Aligned (k + 1) [closing] := trivial
  constructor
  · rw [Indented, Nat.add_sub_cancel]
    exact ⟨Nat.succ_pos k, .inr (List.prefix_refl _)⟩
  · apply hspaces.aligned_append hclosing
  · rw [openAfter_append, hspaces.openAfter_eq]
    rfl

theorem Closes.line (h : Closes k more) (htext : Whole (k + 1) text)
    (hindented : Indented (k + 1) text) : Closes k (text ++ byte 10 :: more) where
  indented := hindented.append _
  aligned := htext.aligned_append ⟨fun _ => h.indented, h.aligned⟩
  openAfter_eq := by rw [openAfter_append, htext.openAfter_eq, openAfter, h.openAfter_eq]

theorem closes_bodyText {lines : List (List Mark)}
    (hlines : ∀ line ∈ lines, Whole (k + 1) line ∧ plain (Text.toBytes "return") <+: line) :
    Closes k (bodyText k lines) := by
  induction lines with
  | nil => apply closes_closing
  | cons line rest ih =>
      rw [List.forall_mem_cons] at hlines
      obtain ⟨⟨hline, hreturn⟩, hrest⟩ := hlines
      have hempty : line.isEmpty = false := by
        obtain ⟨tail, rfl⟩ := hreturn
        rfl
      have hstart : Indented (k + 1) (plain (indentation (k + 1)) ++ line) := by
        refine ⟨Nat.succ_pos k, .inl ?_⟩
        rw [plain, List.map_append]
        exact (List.prefix_append_right_inj _).mpr hreturn
      rw [bodyText, hempty, if_neg Bool.false_ne_true]
      exact (ih hrest).line ((whole_plain (k + 1) (unbroken_indentation _)).append hline) hstart

theorem whole_braces {lines : List (List Mark)}
    (hlines : ∀ line ∈ lines, Whole (k + 1) line ∧ plain (Text.toBytes "return") <+: line) :
    Whole k (braces k lines) := by
  have hbody := closes_bodyText hlines
  rw [braces]
  split
  next => exact ⟨trivial, rfl⟩
  next => exact ⟨⟨fun _ => hbody.indented, hbody.aligned⟩, hbody.openAfter_eq⟩

end Mark

theorem markedStatements_map_returned (depth : Nat) (returns : List Expr) :
    markedStatements depth (returns.map .returned) =
      returns.map fun e => (Statement.returned e).marked depth := by
  induction returns with
  | nil => rfl
  | cons e rest ih => rw [List.map_cons, markedStatements, ih, List.map_cons]

namespace Expr

theorem marked_named (name : ByteString) (parameters : List ByteString) (returns : List Expr)
    (depth : Nat) :
    (named name parameters returns).marked depth =
      Mark.plain (Head.print ⟨false, false, some name, some ⟨parameters, none⟩⟩) ++
        Mark.braces depth (returns.map fun e => (Statement.returned e).marked (depth + 1)) := by
  rw [named, marked, List.map_nil, List.nil_append, markedStatements_map_returned]

variable {e : Expr}

theorem Assembled.whole_marked
    (he : e.Assembled Unbroken fun op => Unbroken (Text.toBytes op.symbol)) (depth : Nat) :
    Mark.Whole depth (e.marked depth) := by
  induction he generalizing depth with
  | boolean value =>
      refine Mark.whole_plain depth (unbroken_toBytes ?_)
      cases value <;> decide
  | number value =>
      exact Mark.whole_plain depth (unbroken_toBytes value.break_not_mem_literal)
  | identifier hname => exact Mark.whole_plain depth hname
  | binary hop _ _ ihleft ihright =>
      exact (((ihleft depth).parenthesize _).append
        (Mark.whole_plain depth (unbroken_operator hop))).append ((ihright depth).parenthesize _)
  | named hname hparameters hreturns ih =>
      rw [marked_named]
      refine (Mark.whole_plain depth (unbroken_head hname hparameters)).append
        (Mark.whole_braces fun line hline => ?_)
      obtain ⟨e, he, rfl⟩ := List.mem_map.mp hline
      rw [marked_returned (hreturns e he).ne_absent]
      refine ⟨(Mark.whole_plain _ (by decide)).append
        ((ih e he (depth + 1)).append (Mark.whole_plain _ (by decide))), ?_⟩
      exact ⟨Mark.plain (Text.toBytes " ") ++ _, rfl⟩

/-- Every line break is followed by a line, so none is dropped at the end. -/
theorem Assembled.source_eq
    (he : e.Assembled Unbroken fun op => Unbroken (Text.toBytes op.symbol)) :
    e.source = e.print 0 := by
  apply dropFinalBreaks_eq_self
  change (e.print 0).getLast? ≠ some 10
  rw [← map_value_marked, List.getLast?_map]
  intro hlast
  obtain ⟨mark, hmark, hvalue⟩ := Option.map_eq_some_iff.mp hlast
  obtain ⟨before, hbefore⟩ := List.getLast?_eq_some_iff.mp hmark
  -- A break at the end would begin a line without text, and no line is indented like that.
  have haligned := (he.whole_marked 0).aligned
  rw [hbefore] at haligned
  cases mark with
  | opening | closing => exact absurd hvalue (by decide)
  | byte b =>
      obtain rfl : b = 10 := hvalue
      exact Mark.not_indented_nil _ haligned.indented

/-- Wherever an expression stands that is put together from names and operators without line
breaks, what is written is its own text, with two spaces for each open body after every line
break, and the depth stays as it was. In its source text every line inside `k` open bodies
therefore begins with two spaces for each of them, and then returns something; the line that closes
the innermost body has two spaces less. -/
theorem writes_deepened
    (he : e.Assembled Unbroken fun op => Unbroken (Text.toBytes op.symbol)) :
    Writer.Writes (fun w => w.expr e)
        (fun depth => deepen depth (({} : Writer).expr e).output) ∧
      (({} : Writer).expr e).text = e.source ∧ (({} : Writer).expr e).output = e.source ∧
      (e.marked 0).map Mark.value = e.source ∧
      ∀ before after, e.marked 0 = before ++ .byte 10 :: after →
        Mark.Indented (Mark.openAfter 0 before) after := by
  have houtput : (({} : Writer).expr e).output = e.print 0 := Writer.output_tree (.expression e)
  refine ⟨(Writer.writes_expr e).of_eq fun depth => ?_, Writer.text_tree (.expression e), ?_, ?_,
    fun before after hsplit => ?_⟩
  · rw [houtput, ← he.print_add, Nat.zero_add]
  · rw [houtput, he.source_eq]
  · rw [map_value_marked, he.source_eq]
  · have haligned := (he.whole_marked 0).aligned
    rw [hsplit] at haligned
    exact haligned.indented

/-! Three functions, the innermost one as an operand. -/

def nested : Expr :=
  named "f" ["x"] [named "g" [] [binary .and (named "h" [] [identifier "x"]) (identifier "y")]]

theorem writes_deepened_nested :
    nested.source = Text.toBytes ("function f(x) \x7b\n  return function g() \x7b\n" ++
      "    return (function h() \x7b\n      return x;\n    \x7d) && y;\n  \x7d;\n\x7d") ∧
      ((⟨Text.toBytes "  return ", 1, false⟩ : Writer).expr nested).output =
        Text.toBytes "  return " ++ deepen 1 nested.source ∧
      Mark.Indented 1 ((nested.marked 0).drop 16) := by
  have hinner : (binary .and (named "h" [] [identifier "x"]) (identifier "y")).Assembled Unbroken
      fun op => Unbroken (Text.toBytes op.symbol) :=
    .binary (by decide) (.named (by decide) (by simp) (by simpa using .identifier (by decide)))
      (.identifier (by decide))
  have hnested : nested.Assembled Unbroken fun op => Unbroken (Text.toBytes op.symbol) :=
    .named (by decide) (by decide)
      (by simpa using .named (by decide) (by simp) (by simpa using hinner))
  obtain ⟨hwrites, -, houtput, -, hlines⟩ := writes_deepened hnested
  refine ⟨by decide +kernel, ?_, ?_⟩
  · rw [hwrites.output _ (Writer.ready_of_onLine rfl), houtput]
  · exact hlines ((nested.marked 0).take 15) _ (by decide +kernel)

/-- An operator with a line break is written as it is, so the line behind it has no indentation. -/
theorem not_writes_brokenOperator :
    ∃ e : Expr, e = binary (.other "\n") (identifier "a") (identifier "b") ∧
      e.Assembled Unbroken (fun _ => True) ∧
      ¬ Writer.Writes (fun w => w.expr e)
        (fun depth => deepen depth (({} : Writer).expr e).output) := by
  refine ⟨_, rfl, .binary trivial (.identifier (by decide)) (.identifier (by decide)), ?_⟩
  intro hwrites
  have houtput := hwrites.output ⟨Text.toBytes "return ", 1, false⟩ (Writer.ready_of_onLine rfl)
  revert houtput
  decide +kernel

end Expr

end ScriptTree.Js
