import ScriptTree.Proofs.Compile.Chain
import ScriptTree.Proofs.Identifier.Standard
import ScriptTree.Proofs.Js.Scope

/-!
Compilation keeps scopes. Names are emitted one at a time, wherever they stand; as long
as that keeps the names of a script apart, each reference is bound by the same function
and at the same position as before.
-/

namespace ScriptTree

open Identifier (Options)
open Js (Expr)

/-! Joining looks at no name. -/

section Join

variable (write : Binder → ByteString) (scope : Scope)

theorem resolve_chain (op : Js.Operator) (first : Expr) (rest : List Expr) :
    (chain op first rest).resolve write scope =
      chain op (first.resolve write scope) (rest.map (Expr.resolve write scope)) := by
  induction rest generalizing first with
  | nil => rfl
  | cons next rest ih => rw [chain, Expr.resolve, ih, List.map_cons, chain]

theorem resolve_chainOr {identity : Expr}
    (hidentity : identity.resolve write scope = identity) (op : Js.Operator)
    (operands : List Expr) :
    (chainOr identity op operands).resolve write scope =
      chainOr identity op (operands.map (Expr.resolve write scope)) := by
  cases operands with
  | nil => exact hidentity
  | cons first rest => exact resolve_chain write scope op first rest

theorem resolve_comparisons (operands : List Expr) :
    (comparisons operands).resolve write scope =
      comparisons (operands.map (Expr.resolve write scope)) := by
  cases operands with
  | nil => rfl
  | cons first others =>
      rw [comparisons, resolve_chainOr write scope rfl, List.map_cons, comparisons,
        List.map_map, List.map_map]
      rfl

theorem resolve_join (op : Operation) (operands : List Expr) :
    (op.join operands).resolve write scope =
      op.join (operands.map (Expr.resolve write scope)) := by
  cases op with
  | and => exact resolve_chainOr write scope rfl .and operands
  | or => exact resolve_chainOr write scope rfl .or operands
  | sum => exact resolve_chainOr write scope rfl .add operands
  | equal => exact resolve_comparisons write scope operands

end Join

namespace Node

theorem compileAll_resolveAll {ids : Options} {write : Binder → ByteString}
    {scope : Scope} {operands : List Node} {resolved : Expr → Expr}
    (hoperands : ∀ n ∈ operands,
      (n.resolve write scope).compile ids = (n.compile ids).map resolved) :
    compileAll ids (resolveAll write scope operands) =
      (compileAll ids operands).map (List.map resolved) := by
  induction operands with
  | nil => rfl
  | cons n rest ih =>
      rw [resolveAll, compileAll, compileAll, hoperands n (by simp),
        ih fun m hm => hoperands m (List.mem_cons_of_mem _ hm)]
      cases n.compile ids with
      | error cause => rfl
      | ok e => cases compileAll ids rest <;> rfl

/-- Compiling the resolved script gives the resolved expression, as long as the names of
the script and of the functions around it are kept apart. -/
theorem compile_resolve_scope {ids : Options} {apart : Set ByteString}
    (hinjective : Set.InjOn ids.sanitize apart) (write : Binder → ByteString) {n : Node}
    (hnames : ∀ name ∈ n.names, name ∈ apart) {scope : Scope}
    (hscope : ∀ frame ∈ scope, ∀ name ∈ frame.names, name ∈ apart) :
    (n.resolve write scope).compile ids =
      (n.compile ids).map (Expr.resolve (ids.sanitize ∘ write)
        (scope.map (Frame.rename ids.sanitize))) := by
  induction n generalizing scope with
  | missing expected => rfl
  | boolean value => rfl
  | number value => rfl
  | unrecognized tag raw => rfl
  | reference name =>
      have hname : name ∈ apart := hnames name (by simp [names])
      rw [resolve, compile, compile, Except.map, Expr.resolve,
        Scope.resolve_rename hinjective hname hscope]
  | function name parameters body ih =>
      -- the body lies in the scope of one more function
      have hbody : ∀ other ∈ body.names, other ∈ apart := by
        intro other hother
        exact hnames other (by simp [names, hother])
      have hframes : ∀ frame ∈ (⟨some name, parameters.map (·.name)⟩ :: scope : Scope),
          ∀ other ∈ frame.names, other ∈ apart := by
        intro frame hframe other hother
        rcases List.mem_cons.mp hframe with rfl | hframe
        · apply hnames
          rw [names]
          exact List.mem_append_left _ hother
        · exact hscope frame hframe other hother
      rw [resolve, compile, compile, ih hbody hframes]
      cases body.compile ids with
      | error cause => rfl
      | ok e =>
          simp only [Except.map, bind, Except.bind, pure, Except.pure,
            Js.resolve_named, List.map_cons, Frame.rename, Option.map_some,
            List.map_map]
          rfl
  | operation op operands ih =>
      have hoperands := compileAll_resolveAll fun n hn =>
        ih n hn (fun name hname => hnames name (by
          rw [names]
          exact mem_namesOfAll hn hname)) hscope
      rw [resolve, compile_operation, compile_operation, length_resolveAll, hoperands]
      by_cases hlone : op = .equal ∧ operands.length = 1
      · rw [if_pos hlone, if_pos hlone]
        rfl
      · rw [if_neg hlone, if_neg hlone]
        cases compileAll ids operands with
        | error cause => rfl
        | ok compiled =>
            simp only [Except.map, resolve_join]

/-- If the names of a script stay apart when they are emitted, compiling the script with
its references replaced by their binders gives the expression with its identifiers
replaced by their binders. This holds for every way of writing binders as names, which
are then emitted like any other name; free names stand for themselves. -/
theorem compile_keeps_binders (ids : Options) (n : Node) (write : Binder → ByteString)
    (hinjective : Set.InjOn ids.sanitize {name | name ∈ n.names}) :
    (n.resolve write []).compile ids =
      (n.compile ids).map (Expr.resolve (fun binder => ids.sanitize (write binder)) []) :=
  compile_resolve_scope hinjective write (fun _ hname => hname) (by simp)

/-- Reserved names at every kind of place, one of them bound more than once. -/
def shadowing : Node :=
  function "new" [⟨"class", "Boolean"⟩, ⟨"let", "Boolean"⟩]
    (operation .equal [reference "class",
      function "let" [⟨"x", "Number"⟩, ⟨"class", "Number"⟩, ⟨"class", "Number"⟩]
        (operation .and [reference "class", reference "let", reference "new"]),
      reference "free"])

/-- Names for binders that are no texts. -/
def binderMark : Binder → ByteString
  | .parameter depth position => [0xFF, 0, UInt8.ofNat depth, UInt8.ofNat position]
  | .itself depth => [0xFF, 1, UInt8.ofNat depth]

example : shadowing.resolve binderMark [] =
    function "new" [⟨"class", "Boolean"⟩, ⟨"let", "Boolean"⟩]
      (operation .equal [reference (binderMark (.parameter 0 0)),
        function "let" [⟨"x", "Number"⟩, ⟨"class", "Number"⟩, ⟨"class", "Number"⟩]
          (operation .and [reference (binderMark (.parameter 0 2)),
            reference (binderMark (.itself 0)), reference (binderMark (.itself 1))]),
        reference "free"]) := by
  rfl

theorem sanitize_binderMark {ids : Options} (htable : ids.table.getD .standard = .standard)
    (binder : Binder) : ids.sanitize (binderMark binder) = binderMark binder := by
  apply Options.sanitize_of_text?_eq_none htable
  cases binder <;> exact Text.ofBytes?_eq_none_of_broken rfl

theorem compile_keeps_binders_shadowing :
    let ids := { Options.standard with reconcile := some (.after "_") }
    ∃ e, shadowing.compile ids = .ok e ∧
      (shadowing.resolve binderMark []).compile ids = .ok (e.resolve binderMark []) := by
  intro ids
  have hapart : ∀ x ∈ shadowing.names, ∀ y ∈ shadowing.names,
      ids.sanitize x = ids.sanitize y → x = y := by
    decide +kernel
  have hinjective : Set.InjOn ids.sanitize {name | name ∈ shadowing.names} :=
    fun x hx y hy => hapart x hx y hy
  obtain ⟨e, hcompile⟩ : ∃ e, shadowing.compile ids = .ok e := ⟨_, rfl⟩
  have hmark : ∀ binder, ids.sanitize (binderMark binder) = binderMark binder :=
    sanitize_binderMark rfl
  refine ⟨e, hcompile, ?_⟩
  rw [compile_keeps_binders ids shadowing binderMark hinjective, hcompile,
    funext hmark]
  rfl

end Node

end ScriptTree
