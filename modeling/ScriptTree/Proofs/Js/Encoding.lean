import ScriptTree.Js.Encoding

/-!
The trees that have a JSON form are those whose numbers are all finite. The failure is
about the first number that is not, in the order in which they are written.
-/

namespace ScriptTree.Js

mutual

def Expr.numbers : Expr → List Number
  | .number value => [value]
  | .binary _ left right => left.numbers ++ right.numbers
  | .function _ _ statements => numbersOfStatements statements
  | _ => []

def Statement.numbers : Statement → List Number
  | .absent => []
  | .returned value => value.numbers

def numbersOfStatements : List Statement → List Number
  | [] => []
  | s :: rest => s.numbers ++ numbersOfStatements rest

end

/-- The first number without a JSON form. -/
def firstNonFinite? (numbers : List Number) : Option Number := numbers.find? (!·.isFinite)

theorem firstNonFinite?_append (xs ys : List Number) :
    firstNonFinite? (xs ++ ys) = (firstNonFinite? xs).or (firstNonFinite? ys) :=
  List.find?_append

theorem firstNonFinite?_eq_none_iff {xs : List Number} :
    firstNonFinite? xs = none ↔ ∀ x ∈ xs, x.isFinite = true := by
  simp [firstNonFinite?]

theorem map_value_under (type : String) (e : Option EncodeError) :
    (e.map (·.under type)).map EncodeError.value = e.map EncodeError.value := by
  rw [Option.map_map]
  rfl

theorem map_value_or (e d : Option EncodeError) :
    (e.or d).map EncodeError.value = (e.map EncodeError.value).or (d.map EncodeError.value) := by
  cases e <;> rfl

mutual

theorem Expr.value_encodeError? : (e : Expr) →
    e.encodeError?.map EncodeError.value = firstNonFinite? e.numbers
  | .absent | .boolean _ | .identifier _ | .bodiless _ => rfl
  | .number value => by
      rw [Expr.encodeError?, Expr.numbers, firstNonFinite?, List.find?_singleton]
      cases value.isFinite <;> rfl
  | .binary _ left right => by
      rw [Expr.encodeError?, map_value_under, map_value_or, left.value_encodeError?,
        right.value_encodeError?, Expr.numbers, firstNonFinite?_append]
  | .function _ _ statements => by
      rw [Expr.encodeError?, Expr.numbers, ← value_statementsError? statements, Option.map_map]
      rfl

theorem Statement.value_encodeError? : (s : Statement) →
    s.encodeError?.map EncodeError.value = firstNonFinite? s.numbers
  | .absent => rfl
  | .returned value => by
      rw [Statement.encodeError?, map_value_under, value.value_encodeError?, Statement.numbers]

theorem value_statementsError? : (statements : List Statement) →
    (statementsError? statements).map EncodeError.value =
      firstNonFinite? (numbersOfStatements statements)
  | [] => rfl
  | s :: rest => by
      rw [statementsError?, map_value_or, s.value_encodeError?, value_statementsError? rest,
        numbersOfStatements, firstNonFinite?_append]

end

/-- A tree has a JSON form exactly if its numbers are finite. -/
theorem Expr.encodeError?_eq_none_iff {e : Expr} :
    e.encodeError? = none ↔ ∀ x ∈ e.numbers, x.isFinite = true := by
  rw [← firstNonFinite?_eq_none_iff, ← e.value_encodeError?, Option.map_eq_none_iff]

/-! The first number without a written form in the encoding. -/

open Json (Value)
open Json.Value (unwritable? unwritableItem? unwritableMember? unwritableItem?_cons
  unwritableMember?_cons)

theorem unwritable?_record (type : String) (fields : List (String × Value)) :
    (record type fields).unwritable? = unwritableMember? fields := rfl

theorem unwritable?_binding (name : ByteString) : (encodeBinding name).unwritable? = none := rfl

theorem unwritableItem?_map_eq_none {encode : α → Value}
    (hnone : ∀ a, (encode a).unwritable? = none) (items : List α) :
    unwritableItem? (items.map encode) = none := by
  induction items with
  | nil => rfl
  | cons a rest ih =>
      rw [List.map_cons, unwritableItem?_cons, hnone, ih]
      rfl

theorem unwritable?_optional {encode : α → Value} (hnone : ∀ a, (encode a).unwritable? = none)
    (o : Option α) : (encodeOptional encode o).unwritable? = none := by
  cases o with
  | none => rfl
  | some a => exact hnone a

theorem unwritable?_parameters (p : Parameters) : p.encode.unwritable? = none := by
  rw [Parameters.encode, unwritable?_record, unwritableMember?_cons, unwritableMember?_cons,
    unwritable?, unwritableItem?_map_eq_none unwritable?_binding,
    unwritable?_optional unwritable?_binding]
  rfl

theorem unwritable?_head (h : Head) (body : Value) :
    (h.encode body).unwritable? = body.unwritable? := by
  simp [Head.encode, unwritable?_record, unwritable?,
    unwritable?_optional unwritable?_binding, unwritable?_optional unwritable?_parameters]

theorem unwritable?_body (directives : List ByteString) (statements : List Value) :
    (encodeBody directives statements).unwritable? = unwritableItem? statements := by
  have hdirectives : unwritableItem? (directives.map Value.string) = none :=
    unwritableItem?_map_eq_none (fun _ => rfl) directives
  simp [encodeBody, unwritable?_record, unwritable?,
    hdirectives]

mutual

theorem Expr.unwritable?_encode : (e : Expr) → e.encode.unwritable? = firstNonFinite? e.numbers
  | .absent | .boolean _ | .identifier _ => rfl
  | .number value => by
      rw [Expr.encode, unwritable?_record, unwritableMember?_cons, unwritable?, Expr.numbers,
        firstNonFinite?, List.find?_singleton]
      cases value.isFinite <;> rfl
  | .binary _ left right => by
      rw [Expr.encode, unwritable?_record, unwritableMember?_cons, unwritableMember?_cons,
        unwritableMember?_cons, left.unwritable?_encode, right.unwritable?_encode, Expr.numbers,
        firstNonFinite?_append]
      simp [unwritable?]
  | .function _ _ statements => by
      rw [Expr.encode, unwritable?_head, unwritable?_body, unwritableItem?_statements,
        Expr.numbers]
  | .bodiless _ => by
      rw [Expr.encode, unwritable?_head]
      rfl

theorem Statement.unwritable?_encode : (s : Statement) →
    s.encode.unwritable? = firstNonFinite? s.numbers
  | .absent => rfl
  | .returned value => by
      rw [Statement.encode, encodeReturn, unwritable?_record, unwritableMember?_cons,
        value.unwritable?_encode, Statement.numbers]
      simp

theorem unwritableItem?_statements : (statements : List Statement) →
    unwritableItem? (encodeStatements statements) =
      firstNonFinite? (numbersOfStatements statements)
  | [] => rfl
  | s :: rest => by
      rw [encodeStatements, unwritableItem?_cons, s.unwritable?_encode,
        unwritableItem?_statements rest, numbersOfStatements, firstNonFinite?_append]

end

/-- What is written of a tree without failure has a written form. -/
theorem Expr.unwritable?_encode_of_encodeError? {e : Expr} (hnone : e.encodeError? = none) :
    e.encode.unwritable? = none := by
  rw [e.unwritable?_encode, firstNonFinite?_eq_none_iff, ← encodeError?_eq_none_iff]
  exact hnone

end ScriptTree.Js
