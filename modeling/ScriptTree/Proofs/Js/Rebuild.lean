import ScriptTree.Proofs.Compile.Names
import ScriptTree.Proofs.Js.Encoding
import ScriptTree.Proofs.Json.Reader
import ScriptTree.Proofs.Json.Writer

/-!
Expressions rebuilt from their JSON texts. A node is told by its type and takes its parts
from the members of their names. What is written of a compiled script is rebuilt as it was,
so no two compiled scripts have one text.
-/

namespace ScriptTree

open Identifier (Options)

namespace Js

open Json.Syntax (Document)

/-! Reading parts. -/

def field? (t : Json.Term) (name : String) : Option Json.Term := t.get? (Text.toBytes name)

theorem sizeOf_lt_of_field? {t u : Json.Term} {name : String} (hfield : field? t name = some u) :
    sizeOf u < sizeOf t := by
  cases t with
  | object raw members =>
      have hmember : sizeOf u < sizeOf members := by
        induction members with
        | nil => cases hfield
        | cons m rest ih =>
            obtain ⟨key, v⟩ := m
            rw [field?, Json.Term.get?, List.lookup_cons] at hfield
            split at hfield
            · cases hfield
              simp only [List.cons.sizeOf_spec, Prod.mk.sizeOf_spec]
              omega
            · have hrest := ih hfield
              simp only [List.cons.sizeOf_spec]
              omega
      simp only [Json.Term.object.sizeOf_spec]
      omega
  | _ => cases hfield

def hasType (t : Json.Term) (type : String) : Bool :=
  match field? t "type" with
  | some (.string s) => s = Text.toBytes type
  | _ => false

def textOf? : Json.Term → Option ByteString
  | .string s => some s
  | _ => none

def booleanOf? : Json.Term → Option Bool
  | .boolean b => some b
  | _ => none

/-- The number that is written, by a reading of numerals. -/
def numberOf? (read : String → Option Number) : Json.Term → Option Number
  | .number text => read text
  | _ => none

def itemsOf? : Json.Term → Option (List Json.Term)
  | .array _ items => some items
  | _ => none

def optionalOf? (part? : Json.Term → Option α) : Json.Term → Option (Option α)
  | .null => some none
  | t => (part? t).map some

def operators : List Operator := [.and, .or, .equal, .add]

def operatorOf? (symbol : ByteString) : Option Operator :=
  operators.find? fun op => symbol = Text.toBytes op.symbol

def bindingOf? (t : Json.Term) : Option ByteString :=
  if hasType t "BindingIdentifier" then (field? t "name").bind textOf? else none

def parametersOf? (t : Json.Term) : Option Parameters :=
  if hasType t "FormalParameters" then do
    let items ← (← itemsOf? (← field? t "items")).mapM bindingOf?
    let rest ← optionalOf? bindingOf? (← field? t "rest")
    return ⟨items, rest⟩
  else none

mutual

/-- The expression of a JSON value. -/
def exprOf? (read : String → Option Number) (t : Json.Term) : Option Expr :=
  if hasType t "LiteralBooleanExpression" then
    ((field? t "value").bind booleanOf?).map .boolean
  else if hasType t "LiteralNumericExpression" then
    ((field? t "value").bind (numberOf? read)).map .number
  else if hasType t "IdentifierExpression" then
    ((field? t "name").bind textOf?).map .identifier
  else if hasType t "BinaryExpression" then
    match _ : field? t "left", _ : field? t "right" with
    | some left, some right => do
      let op ← operatorOf? (← textOf? (← field? t "operator"))
      return .binary op (← exprOf? read left) (← exprOf? read right)
    | _, _ => none
  else if hasType t "FunctionExpression" then
    match _ : field? t "body" with
    | some body => do
      let name ← optionalOf? bindingOf? (← field? t "name")
      let parameters ← optionalOf? parametersOf? (← field? t "params")
      let (directives, statements) ← bodyOf? read body
      return .function ⟨false, false, name, parameters⟩ directives statements
    | none => none
  else none
termination_by sizeOf t
decreasing_by
  · exact sizeOf_lt_of_field? ‹_›
  · exact sizeOf_lt_of_field? ‹_›
  · exact sizeOf_lt_of_field? ‹_›

def bodyOf? (read : String → Option Number) (t : Json.Term) :
    Option (List ByteString × List Statement) :=
  if hasType t "FunctionBody" then
    match _ : field? t "statements" with
    | some (.array _ statements) => do
      let directives ← (← itemsOf? (← field? t "directives")).mapM textOf?
      return (directives, ← statementsOf? read statements)
    | _ => none
  else none
termination_by sizeOf t
decreasing_by
  have hlt := sizeOf_lt_of_field? ‹_ = some (Json.Term.array _ statements)›
  simp only [Json.Term.array.sizeOf_spec] at hlt
  omega

def statementsOf? (read : String → Option Number) (items : List Json.Term) :
    Option (List Statement) :=
  match items with
  | [] => some []
  | t :: rest => do
    let first ← statementOf? read t
    let others ← statementsOf? read rest
    return first :: others
termination_by sizeOf items

def statementOf? (read : String → Option Number) (t : Json.Term) : Option Statement :=
  if hasType t "ReturnStatement" then
    match _ : field? t "expression" with
    | some value => (exprOf? read value).map .returned
    | none => none
  else none
termination_by sizeOf t
decreasing_by
  exact sizeOf_lt_of_field? ‹_›

end

/-! Parts of what was written. -/

theorem lookup_memberTerms (members : List (String × Json.Value)) (name : String) :
    (Json.Value.memberTerms members).lookup (Text.toBytes name) =
      (members.lookup name).map Json.Value.term := by
  induction members with
  | nil => rfl
  | cons m rest ih =>
      have hkey : (Text.toBytes name == Text.toBytes m.1) = (name == m.1) := by
        rw [Bool.eq_iff_iff, beq_iff_eq, beq_iff_eq]
        exact ⟨Text.eq_of_toBytes, congrArg Text.toBytes⟩
      rw [Json.Value.memberTerms, List.lookup_cons, List.lookup_cons, hkey, ih]
      split <;> rfl

theorem ofChars_chars_toBytes (s : String) :
    Text.ofChars (Text.chars (Text.toBytes s)) = Text.toBytes s := by
  rw [Text.ofChars_chars_eq_iff, Text.toBytes, Text.ofBytes?_ofChars]
  rfl

variable (type : String) (fields : List (String × Json.Value))

theorem field?_record (name : String) :
    field? (record type fields).term name =
      ((("type", Json.Value.string (Text.toBytes type)) :: fields).lookup name).map
        Json.Value.term :=
  lookup_memberTerms _ name

theorem hasType_record (other : String) :
    hasType (record type fields).term other = decide (type = other) := by
  rw [hasType, field?_record, List.lookup_cons_self, Option.map_some, Json.Value.term,
    ofChars_chars_toBytes]
  exact decide_eq_decide.mpr ⟨Text.eq_of_toBytes, congrArg Text.toBytes⟩

/-- What compilation gives: four operators, and functions that return one expression. -/
inductive Expr.Emitted : Expr → Prop
  | boolean (value : Bool) : Emitted (.boolean value)
  | number (value : Number) : Emitted (.number value)
  | identifier (name : ByteString) : Emitted (.identifier name)
  | binary {op : Operator} {left right : Expr} (hop : op ∈ operators) (hleft : Emitted left)
      (hright : Emitted right) : Emitted (.binary op left right)
  | named {name : ByteString} {parameters : List ByteString} {body : Expr} (hbody : Emitted body) :
      Emitted (.named name parameters [body])

/-- A name of well-formed characters. -/
def Encoded (name : ByteString) : Prop := name.text?.isSome = true

instance : DecidablePred Encoded := fun name => decEq name.text?.isSome true

theorem textOf?_string {name : ByteString} (hname : Encoded name) :
    textOf? (Json.Value.string name).term = some name := by
  rw [Json.Value.term, Text.ofChars_chars_eq_iff.mpr hname]
  rfl

theorem bindingOf?_encode {name : ByteString} (hname : Encoded name) :
    bindingOf? (encodeBinding name).term = some name := by
  rw [bindingOf?, encodeBinding, hasType_record, field?_record]
  exact textOf?_string hname

theorem mapM_bindingOf?_encode {names : List ByteString} (hnames : ∀ name ∈ names, Encoded name) :
    (Json.Value.terms (names.map encodeBinding)).mapM bindingOf? = some names := by
  induction names with
  | nil => rfl
  | cons name rest ih =>
      rw [List.forall_mem_cons] at hnames
      rw [List.map_cons, Json.Value.terms, List.mapM_cons, bindingOf?_encode hnames.1,
        ih hnames.2]
      rfl

theorem parametersOf?_encode {names : List ByteString} (hnames : ∀ name ∈ names, Encoded name) :
    parametersOf? (Parameters.encode ⟨names, none⟩).term = some ⟨names, none⟩ := by
  rw [parametersOf?, Parameters.encode, hasType_record, field?_record, field?_record]
  simp [List.lookup_cons, itemsOf?, mapM_bindingOf?_encode hnames, optionalOf?, encodeOptional,
    Json.Value.term]

theorem operatorOf?_symbol {op : Operator} (hop : op ∈ operators) :
    operatorOf? (Text.toBytes op.symbol) = some op := by
  simp only [operators, List.mem_cons, List.not_mem_nil, or_false] at hop
  rcases hop with rfl | rfl | rfl | rfl <;> decide

theorem optionalOf?_encode {part? : Json.Term → Option α} {type : String}
    {fields : List (String × Json.Value)} {a : α}
    (hpart : part? (record type fields).term = some a) :
    optionalOf? part? (record type fields).term = some (some a) := by
  rw [optionalOf?, hpart]
  · rfl
  · rintro ⟨⟩

theorem statementsOf?_return {read : String → Option Number} {e : Expr}
    (he : exprOf? read e.encode.term = some e) :
    statementsOf? read (Json.Value.terms [encodeReturn e.encode]) = some [.returned e] := by
  have hstatement : statementOf? read (encodeReturn e.encode).term = some (.returned e) := by
    have hvalue : field? (encodeReturn e.encode).term "expression" = some e.encode.term :=
      field?_record _ _ _
    rw [statementOf?, encodeReturn, hasType_record]
    simp only [decide_true, if_true]
    split
    next value hfield =>
      obtain rfl : e.encode.term = value := Option.some.inj (hvalue.symm.trans hfield)
      rw [he]
      rfl
    next hnone => cases hvalue.symm.trans hnone
  rw [Json.Value.terms, Json.Value.terms, statementsOf?, hstatement, statementsOf?]
  rfl

theorem bodyOf?_return {read : String → Option Number} {e : Expr}
    (he : exprOf? read e.encode.term = some e) :
    bodyOf? read (encodeBody [] [encodeReturn e.encode]).term = some ([], [.returned e]) := by
  have hstatements : field? (encodeBody [] [encodeReturn e.encode]).term "statements" =
      some (Json.Value.array [encodeReturn e.encode]).term :=
    field?_record _ _ _
  rw [bodyOf?, encodeBody, hasType_record]
  simp only [decide_true, if_true]
  split
  next raw statements hfield =>
    obtain rfl : Json.Value.terms [encodeReturn e.encode] = statements := by
      cases hstatements.symm.trans hfield
      rfl
    rw [statementsOf?_return he, field?_record]
    rfl
  next hnone => exact (hnone _ _ hstatements).elim

theorem encode_named (name : ByteString) (parameters : List ByteString) (body : Expr) :
    (Expr.named name parameters [body]).encode =
      record "FunctionExpression"
        [("isAsync", .boolean false), ("isGenerator", .boolean false),
          ("name", encodeBinding name), ("params", Parameters.encode ⟨parameters, none⟩),
          ("body", encodeBody [] [encodeReturn body.encode])] :=
  rfl

theorem exprOf?_binary {read : String → Option Number} {op : Operator} {left right : Expr}
    (hop : op ∈ operators) (hleft : exprOf? read left.encode.term = some left)
    (hright : exprOf? read right.encode.term = some right) :
    exprOf? read (Expr.binary op left right).encode.term = some (.binary op left right) := by
  have hfields : field? (Expr.binary op left right).encode.term "left" = some left.encode.term ∧
      field? (Expr.binary op left right).encode.term "right" = some right.encode.term :=
    ⟨field?_record _ _ _, field?_record _ _ _⟩
  have hop := operatorOf?_symbol hop
  rw [exprOf?, Expr.encode, hasType_record, hasType_record, hasType_record, hasType_record]
  simp only [String.reduceEq, decide_true, decide_false, Bool.false_eq_true, if_true, if_false]
  split
  next l r hl hr =>
    cases hfields.1.symm.trans hl
    cases hfields.2.symm.trans hr
    rw [hleft, hright, field?_record]
    simp [List.lookup_cons, textOf?, Json.Value.term, ofChars_chars_toBytes, hop]
  next hnone => exact (hnone _ _ hfields.1 hfields.2).elim

theorem exprOf?_named {read : String → Option Number} {name : ByteString}
    {parameters : List ByteString} {body : Expr} (hname : Encoded name)
    (hparameters : ∀ parameter ∈ parameters, Encoded parameter)
    (hbody : exprOf? read body.encode.term = some body) :
    exprOf? read (Expr.named name parameters [body]).encode.term =
      some (.named name parameters [body]) := by
  have hfield : field? (Expr.named name parameters [body]).encode.term "body" =
      some (encodeBody [] [encodeReturn body.encode]).term :=
    field?_record _ _ _
  rw [encode_named] at hfield ⊢
  rw [exprOf?, hasType_record, hasType_record, hasType_record, hasType_record, hasType_record]
  simp only [String.reduceEq, decide_true, decide_false, Bool.false_eq_true, if_true, if_false]
  split
  next u hu =>
    cases hfield.symm.trans hu
    rw [bodyOf?_return hbody, field?_record, field?_record]
    simp [List.lookup_cons, encodeBinding, Parameters.encode,
      optionalOf?_encode (bindingOf?_encode hname),
      optionalOf?_encode (parametersOf?_encode hparameters), Expr.named]
  next hnone => cases hfield.symm.trans hnone

theorem exprOf?_encode {read : String → Option Number} {e : Expr} (hemitted : e.Emitted)
    (hnames : ∀ name ∈ e.names, Encoded name)
    (hread : ∀ x ∈ e.numbers, read x.jsonForm = some x) :
    exprOf? read e.encode.term = some e := by
  induction hemitted with
  | boolean value =>
      rw [exprOf?, Expr.encode, hasType_record, field?_record]
      rfl
  | number value =>
      have hvalue := hread value (by simp [Expr.numbers])
      simp [exprOf?, Expr.encode, hasType_record, field?_record, List.lookup_cons, Json.Value.term,
        numberOf?, hvalue]
  | identifier name =>
      have hname := textOf?_string (hnames name (by simp [Expr.names]))
      simp [exprOf?, Expr.encode, hasType_record, field?_record, List.lookup_cons, hname]
  | binary hop _ _ ihleft ihright =>
      simp only [Expr.names, Expr.numbers, List.mem_append, or_imp, forall_and] at hnames hread
      exact exprOf?_binary hop (ihleft hnames.1 hread.1) (ihright hnames.2 hread.2)
  | named _ ih =>
      rw [names_named] at hnames
      refine exprOf?_named (hnames _ (by simp)) (fun parameter hparameter => ?_) (ih ?_ ?_)
      · exact hnames parameter (by simp [hparameter])
      · exact fun name hname => hnames name (by simp [hname])
      · simpa [Expr.named, Expr.numbers, Statement.numbers, numbersOfStatements] using hread

theorem exprOf?_extend (read : String → Option Number) (ps : List Text.Piece)
    (fields : List (String × Json.Value)) :
    exprOf? read (Json.Reader.extend ps (record type fields).term) =
      exprOf? read (record type fields).term := by
  rw [record, Json.Value.term, Json.Reader.extend, exprOf?, exprOf?]
  rfl

/-! Compilation emits. -/

theorem emitted_chain {op : Operator} (hop : op ∈ operators) {first : Expr} {rest : List Expr}
    (hfirst : first.Emitted) (hrest : ∀ e ∈ rest, e.Emitted) : (chain op first rest).Emitted := by
  induction rest generalizing first with
  | nil => exact hfirst
  | cons next rest ih =>
      rw [List.forall_mem_cons] at hrest
      exact .binary hop hfirst (ih hrest.1 hrest.2)

theorem emitted_chainOr {identity : Expr} (hidentity : identity.Emitted) {op : Operator}
    (hop : op ∈ operators) {operands : List Expr} (hoperands : ∀ e ∈ operands, e.Emitted) :
    (chainOr identity op operands).Emitted := by
  cases operands with
  | nil => exact hidentity
  | cons first rest =>
      rw [List.forall_mem_cons] at hoperands
      exact emitted_chain hop hoperands.1 hoperands.2

theorem emitted_join (op : Operation) {operands : List Expr}
    (hoperands : ∀ e ∈ operands, e.Emitted) : (op.join operands).Emitted := by
  cases op with
  | and => exact emitted_chainOr (.boolean _) (by decide) hoperands
  | or => exact emitted_chainOr (.boolean _) (by decide) hoperands
  | sum => exact emitted_chainOr (.number _) (by decide) hoperands
  | equal =>
      cases operands with
      | nil => exact .boolean _
      | cons first others =>
          rw [List.forall_mem_cons] at hoperands
          refine emitted_chainOr (.boolean _) (by decide) (List.forall_mem_map.mpr ?_)
          intro other hother
          exact .binary (by decide) hoperands.1 (hoperands.2 other hother)

theorem emitted_of_compile {ids : Options} {n : Node} {e : Expr}
    (hcompile : n.compile ids = .ok e) : e.Emitted := by
  induction n generalizing e with
  | missing expected => cases hcompile
  | unrecognized tag raw => cases hcompile
  | boolean value =>
      obtain rfl := Except.ok.inj hcompile
      exact .boolean value
  | number value =>
      obtain rfl := Except.ok.inj hcompile
      exact .number value
  | reference name =>
      obtain rfl := Except.ok.inj hcompile
      exact .identifier _
  | function name parameters body ih =>
      obtain ⟨compiled, hbody, rfl⟩ := Node.exists_body_of_compile hcompile
      exact .named (ih hbody)
  | operation op operands ih =>
      by_cases hlone : op = .equal ∧ operands.length = 1
      · rw [Node.compile_operation, if_pos hlone] at hcompile
        obtain rfl := Except.ok.inj hcompile
        exact .boolean true
      · obtain ⟨compiled, hcompiled, rfl⟩ := Node.exists_compileAll_of_compile hlone hcompile
        apply emitted_join
        intro e he
        obtain ⟨n, hn, hcompile⟩ := Node.exists_operand_of_compileAll hcompiled he
        exact ih n hn hcompile

/-! JSON texts. -/

theorem isFinite_eq_false_iff {x : Number} :
    x.isFinite = false ↔ x.isNaN = true ∨ x.isInfinite = true := by
  have hfield : x.exponentField < 2048 := by
    rw [Number.exponentField, Number.magnitude, Nat.div_lt_iff_lt_mul (by decide)]
    exact Nat.mod_lt _ (by decide)
  simp only [Number.isFinite, Number.isNaN, Number.isInfinite, Bool.and_eq_true,
    decide_eq_true_eq, decide_eq_false_iff_not]
  omega

theorem exists_error_json_iff {e : Expr} :
    (∃ failure, e.json = .error failure) ↔
      ∃ x ∈ e.numbers, x.isNaN = true ∨ x.isInfinite = true := by
  have hnone := Expr.encodeError?_eq_none_iff (e := e)
  simp only [← isFinite_eq_false_iff]
  rw [Expr.json]
  cases hfailure : e.encodeError? with
  | some failure =>
      rw [hfailure] at hnone
      simpa using hnone
  | none => simpa [hfailure] using hnone

theorem Expr.Emitted.exists_record {e : Expr} (hemitted : e.Emitted) :
    ∃ type fields, e.encode = record type fields := by
  cases hemitted <;> exact ⟨_, _, rfl⟩

/-- An expression whose names are characters and whose finite numerals are read back. -/
structure Expr.Legible (read : String → Option Number) (e : Expr) : Prop where
  names : ∀ name ∈ e.names, Encoded name
  numbers : ∀ x ∈ e.numbers, x.isFinite = true → read x.jsonForm = some x

/-- The text of an emitted expression has one value, which is rebuilt as the expression. -/
theorem exists_document_json {read : String → Option Number} {e : Expr} (hemitted : e.Emitted)
    (hlegible : e.Legible read) {text : String} (hjson : e.json = .ok text) :
    ∃ t, Document text.toList t ∧ exprOf? read t = some e := by
  rw [Expr.json] at hjson
  cases hfailure : e.encodeError? with
  | some failure => simp [hfailure] at hjson
  | none =>
      obtain rfl : e.encode.compact = text := by simpa [hfailure] using hjson
      have hwritable := Expr.unwritable?_encode_of_encodeError? hfailure
      have hfinite := Expr.encodeError?_eq_none_iff.mp hfailure
      have hblank : Json.Syntax.Blank [] := nofun
      have hdocument := Json.Value.document_compact hwritable hblank
      rw [List.append_nil] at hdocument
      refine ⟨_, hdocument, ?_⟩
      have hrebuilt := exprOf?_encode hemitted hlegible.names fun x hx =>
        hlegible.numbers x hx (hfinite x hx)
      obtain ⟨type, fields, hrecord⟩ := hemitted.exists_record
      rw [hrecord] at hrebuilt ⊢
      rw [exprOf?_extend, hrebuilt]

end Js

namespace Node

open Js (Expr exprOf?)
open Json.Syntax (Document)

/-- Names with characters of markup, a quote and a separator of lines, and a number of each
notation. -/
def markedUp : Node :=
  function "a<b" [⟨"\"", "Number"⟩, ⟨"\u2028", "Number"⟩]
    (operation .sum [number (.ofDecimal true 1 (-1)), reference "é&", number (.ofDecimal false 1 21)])

def readNumeral (text : String) : Option Number := (Number.read? text).map (·.value)

end Node

end ScriptTree
