import ScriptTree.Proofs.Compile.Chain

/-!
Compilation keeps the meaning of scripts without functions: the expression of a script
evaluates to the value of the script, whatever names its references are given.
-/

namespace ScriptTree.Node

open Identifier (Options)
open Js (Expr)
open Js.Expr (Evaluates)

variable {add : Number → Number → Number} {scope : ByteString → Option Literal}
  {bound : ByteString → Literal} {ids : Options}

/-- A script that compiles to an expression with the script's value. -/
def Preserved (add : Number → Number → Number) (scope : ByteString → Option Literal)
    (bound : ByteString → Literal) (ids : Options) (n : Node) : Prop :=
  ∃ e, n.compile ids = .ok e ∧ e.Evaluates add scope (n.meaning add bound)

theorem meanings_eq_map (operands : List Node) :
    meanings add bound operands = operands.map (meaning add bound) := by
  induction operands with
  | nil => rfl
  | cons n rest ih => rw [meanings, ih, List.map_cons]

theorem preserved_operation (op : Operation) {operands : List Node}
    (hoperands : ∀ n ∈ operands, n.Preserved add scope bound ids) :
    (operation op operands).Preserved add scope bound ids := by
  obtain ⟨compiled, hcompiled, hvalues⟩ := exists_compileAll_of_forall hoperands
  refine ⟨op.join compiled, compile_operation_of_compileAll op hcompiled, ?_⟩
  rw [meaning, meanings_eq_map]
  exact evaluates_join op hvalues

/-- Compiling an elementary script succeeds, and the expression has the meaning of the
script wherever each name that the script refers to is bound, under the name it is
emitted as, to the value of the reference. -/
theorem compile_preserves_meaning (add : Number → Number → Number)
    (scope : ByteString → Option Literal) (bound : ByteString → Literal)
    (ids : Options) (n : Node) (helementary : n.Elementary)
    (hscope : ∀ name ∈ n.references, scope (ids.sanitize name) = some (bound name)) :
    ∃ e, n.compile ids = .ok e ∧
      e.evaluate add scope = .ok (.primitive (n.meaning add bound)) := by
  induction helementary with
  | boolean value => exact ⟨.boolean value, rfl, rfl⟩
  | number value => exact ⟨.number value, rfl, rfl⟩
  | reference name =>
      exact ⟨.identifier (ids.sanitize name), rfl,
        Expr.evaluates_identifier (hscope name (by simp [references]))⟩
  | operation op _ ih =>
      apply preserved_operation op
      intro n hn
      apply ih n hn
      intro name hname
      exact hscope name (by rw [references]; exact mem_referencesOfAll hn hname)

def mixedEquality : Node :=
  operation .equal [
    operation .sum [reference "class", boolean true],
    number (.ofNat 2),
    operation .or [boolean false, number (.ofNat 2)]]

theorem compile_preserves_meaning_mixedEquality :
    ∃ e, mixedEquality.compile .standard = .ok e ∧
      e.evaluate Number.add
          (fun name => if name = "_class" then some (.number .one) else none) =
        .ok (.primitive (.boolean true)) := by
  have hsanitize : Options.standard.sanitize "class" = "_class" := by decide +kernel
  have hmeaning : mixedEquality.meaning Number.add (fun _ => .number .one) =
      .boolean true := by decide
  rw [← hmeaning]
  apply compile_preserves_meaning
  · grind [Elementary, mixedEquality]
  · simp [mixedEquality, references, referencesOfAll, hsanitize]

end ScriptTree.Node
