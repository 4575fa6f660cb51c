import ScriptTree.Proofs.Compile.Chain
import ScriptTree.Proofs.Identifier.Standard
import ScriptTree.Proofs.Js.Scope
import Mathlib.Data.List.Nodup

/-!
Parameters of compiled functions. Each name is emitted without regard to the others, so
a reserved word and the same word behind an underscore are emitted as one name; under
the standard options no other two parameters are.
-/

namespace ScriptTree

open Identifier (Options)
open Identifier.Reconciler (underscoreMark)
open Js (Expr)

def Js.Expr.parameterNames? : Expr → Option (List ByteString)
  | .function head _ _ | .bodiless head => some head.frame.parameters
  | .absent | .boolean _ | .number _ | .identifier _ | .binary _ _ _ => none

namespace Node

theorem parameterNames?_of_compile_function {ids : Options} {name : ByteString}
    {parameters : List Parameter} {body : Node} {e : Expr}
    (hcompile : (function name parameters body).compile ids = .ok e) :
    e.parameterNames? = some ((parameters.map (·.name)).map ids.sanitize) := by
  obtain ⟨compiled, -, rfl⟩ := exists_body_of_compile hcompile
  simp [Expr.named, Expr.parameterNames?, Js.Head.frame]

/-- A compiled function has the parameters of the script. Where these have distinct
names, the emitted names are distinct exactly if no parameter is named like another one
that is a reserved word, but for an underscore in front. -/
theorem compile_parameters_nodup_iff (name : ByteString) (parameters : List Parameter)
    (body : Node) (e : Expr) (hdistinct : (parameters.map (·.name)).Nodup)
    (hcompile : (function name parameters body).compile .standard = .ok e) :
    ∃ emitted, e.parameterNames? = some emitted ∧
      emitted.length = parameters.length ∧
      (emitted.Nodup ↔ ∀ word ∈ parameters.map (·.name),
        Options.standard.reserves word = true →
          underscoreMark ++ word ∉ parameters.map (·.name)) := by
  refine ⟨_, parameterNames?_of_compile_function hcompile, by simp, ?_⟩
  rw [List.nodup_map_iff_inj_on hdistinct]
  generalize parameters.map (·.name) = names
  constructor
  · intro hinjective word hword hreserved hmarked
    have hne : word ≠ underscoreMark ++ word := by
      intro heq
      have hlength := congrArg List.length heq
      have hmark : underscoreMark.length = 1 := rfl
      rw [List.length_append] at hlength
      omega
    apply hne
    apply hinjective word hword _ hmarked
    rw [Options.sanitize_standard_eq_iff hne]
    exact .inl ⟨hreserved, rfl⟩
  · intro hapart x hx y hy heq
    by_contra hne
    rw [Options.sanitize_standard_eq_iff hne] at heq
    rcases heq with ⟨hreserved, rfl⟩ | ⟨hreserved, rfl⟩
    · exact hapart x hx hreserved hy
    · exact hapart y hy hreserved hx

theorem compile_parameters_nodup_iff_mixedUnderscores :
    let parameters : List Parameter := [⟨"class", ""⟩, ⟨"_x", ""⟩, ⟨"x", ""⟩]
    ∃ e emitted, (function "f" parameters (reference "class")).compile .standard = .ok e ∧
      e.parameterNames? = some emitted ∧ emitted.Nodup := by
  intro parameters
  obtain ⟨e, hcompile⟩ :
      ∃ e, (function "f" parameters (reference "class")).compile .standard = .ok e :=
    ⟨_, rfl⟩
  obtain ⟨emitted, hemitted, -, hnodup⟩ :=
    compile_parameters_nodup_iff "f" parameters (reference "class") e (by decide) hcompile
  refine ⟨e, emitted, hcompile, hemitted, hnodup.mpr ?_⟩
  decide +kernel

/-- Two parameters with different names are emitted under one. -/
theorem compile_merges_parameters :
    let parameters : List Parameter := [⟨"class", ""⟩, ⟨"_class", ""⟩]
    (parameters.map (·.name)).Nodup ∧
      ∃ e emitted, (function "f" parameters (reference "class")).compile .standard = .ok e ∧
        e.parameterNames? = some emitted ∧ ¬ emitted.Nodup := by
  intro parameters
  refine ⟨by decide, _, _, rfl, rfl, ?_⟩
  decide +kernel

end Node

end ScriptTree
