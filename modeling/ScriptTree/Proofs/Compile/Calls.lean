import ScriptTree.Proofs.Compile.Builder
import ScriptTree.Proofs.Compile.Failure

/-!
The calls that a compilation makes to its builder are the steps of its trace, with the names that
are emitted.
-/

namespace ScriptTree

open Identifier (Options)
open Compile (Step Trace)
open Js (Expr)

/-- A step with names as they are emitted: the call that it makes. -/
def Compile.Step.emitted (ids : Options) : Step → Step
  | boolean value => boolean value
  | number value => number value
  | identifier name => identifier (ids.sanitize name)
  | binary op => binary op
  | binding name => binding (ids.sanitize name)
  | returning => returning
  | function name arity => function (ids.sanitize name) arity

namespace Js.Builder

def note (call : Step) : StateM (List Step) Unit := modify (· ++ [call])

/-- The builder that makes the nodes themselves and keeps a record of its calls. -/
def recorder : Builder (List Step) where
  boolean value := do
    note (.boolean value)
    return .boolean value
  number value := do
    note (.number value)
    return .number value
  identifier name := do
    note (.identifier name)
    return .identifier name
  binary op left right := do
    note (.binary op)
    return .binary op left right
  binding name := do
    note (.binding name)
    return name
  returned value := do
    note .returning
    return .returned value
  function name parameters body := do
    note (.function name parameters.length)
    return .function ⟨false, false, some name, some ⟨parameters, none⟩⟩ [] body

end Js.Builder

/-- The calls that compiling a script makes, in order. -/
def Node.calls (ids : Options) (n : Node) : List Step :=
  ((n.compileWith .recorder ids).runFrom []).2

/-! Steps one after the other. -/

namespace Compile.Trace

theorem andThen_of_error_eq_none {t : Trace} (ht : t.error = none) (u : Trace) :
    t.andThen u = ⟨t.steps ++ u.steps, u.error⟩ := by
  rw [andThen, ht]

theorem andThen_of_error {t : Trace} {cause : CompileError} (ht : t.error = some cause)
    (u : Trace) : t.andThen u = t := by
  rw [andThen, ht]

theorem empty_andThen (t : Trace) : empty.andThen t = t := rfl

theorem andThen_assoc (t u v : Trace) : (t.andThen u).andThen v = t.andThen (u.andThen v) := by
  cases ht : t.error with
  | some cause => simp only [andThen_of_error ht]
  | none =>
      rw [andThen_of_error_eq_none ht, andThen_of_error_eq_none ht]
      cases hu : u.error with
      | some cause => rw [andThen_of_error hu, andThen, hu]
      | none =>
          rw [andThen_of_error_eq_none hu, andThen_of_error_eq_none rfl]
          simp only [List.append_assoc]

theorem andThen_of_nil (t : Trace) : t.andThen (of []) = t := by
  cases ht : t.error with
  | some cause => rw [andThen_of_error ht]
  | none =>
      rw [andThen_of_error_eq_none ht, of, List.append_nil, ← ht]

theorem foldl_andThen (t : Trace) (operands : List Trace) :
    operands.foldl andThen t = t.andThen (operands.foldl andThen empty) := by
  induction operands generalizing t with
  | nil => exact (andThen_of_nil t).symm
  | cons first rest ih =>
      rw [List.foldl_cons, ih, andThen_assoc, List.foldl_cons, empty_andThen, ← ih first]

theorem join_singleton (identity : Step) (op : Js.Operator) (t : Trace) :
    join identity op [t] = t := andThen_of_nil t

theorem join_cons (identity : Step) (op : Js.Operator) (t : Trace) (rest : List Trace) :
    join identity op (t :: rest) =
      (t.andThen (rest.foldl andThen empty)).andThen
        (of (List.replicate rest.length (.binary op))) := by
  rw [← foldl_andThen]
  rfl

/-- The operator that joins the first operand to the others is the last one. -/
theorem join_cons_cons (identity : Step) (op : Js.Operator) (t u : Trace) (rest : List Trace) :
    join identity op (t :: u :: rest) =
      t.andThen ((join identity op (u :: rest)).andThen (of [.binary op])) := by
  have hsteps : of (List.replicate (u :: rest).length (.binary op)) =
      (of (List.replicate rest.length (.binary op))).andThen (of [.binary op]) :=
    congrArg of List.replicate_succ'
  rw [join_cons, hsteps, List.foldl_cons, empty_andThen, foldl_andThen u, join_cons]
  simp only [andThen_assoc]

theorem compare_pair (t u : Trace) :
    compare [t, u] = (t.andThen u).andThen (of [.binary .equal]) :=
  join_singleton (.boolean true) .and _

end Compile.Trace

namespace Node

theorem traceAll_eq_map (operands : List Node) : traceAll operands = operands.map trace := by
  induction operands with
  | nil => rfl
  | cons n rest ih => rw [traceAll, ih, List.map_cons]

theorem trace_pair (left right : Node) :
    (operation .equal [left, right]).trace =
      (left.trace.andThen right.trace).andThen (.of [.binary .equal]) :=
  Trace.compare_pair left.trace right.trace

/-- The steps of an equality with several operands are those of the conjunction of pairs. -/
theorem trace_pairsWith (first : Node) (others : List Node) :
    (operation .and (pairsWith first others)).trace =
      (operation .equal (first :: others)).trace := by
  rw [trace, trace, traceAll, Trace.compare, traceAll_eq_map, traceAll_eq_map, pairsWith,
    List.map_map, List.map_map]
  congr 2
  funext other
  exact trace_pair first other

end Node

/-! The record of the calls. -/

namespace Building

variable {α β : Type} {ids : Options}

/-- Work with a result that makes the calls of a trace, whatever was recorded before. -/
structure Recorded (ids : Options) (x : Building (List Step) α) (t : Trace)
    (result : Except CompileError α) : Prop where
  run : ∀ before, x.runFrom before = (result, before ++ t.steps.map (.emitted ids))
  error : ∀ cause, t.error = some cause ↔ result = .error cause

theorem Recorded.error_eq_none {x : Building (List Step) α} {t : Trace} {a : α}
    (hx : Recorded ids x t (.ok a)) : t.error = none := by
  rw [Option.eq_none_iff_forall_ne_some]
  intro cause hcause
  cases (hx.error cause).mp hcause

theorem Recorded.bind {x : Building (List Step) α} {t u : Trace}
    {result : Except CompileError α} {f : α → Building (List Step) β}
    {g : α → Except CompileError β} (hx : Recorded ids x t result)
    (hf : ∀ a, result = .ok a → Recorded ids (f a) u (g a)) :
    Recorded ids (x >>= f) (t.andThen u) (result >>= g) := by
  cases result with
  | error cause =>
      have herror := (hx.error cause).mpr rfl
      rw [Trace.andThen_of_error herror]
      refine ⟨fun before => ?_, fun other => ?_⟩
      · rw [runFrom_bind, hx.run]
        rfl
      · rw [herror]
        exact ⟨fun h => congrArg _ (Option.some.inj h), fun h => by cases h; rfl⟩
  | ok a =>
      have hlater := hf a rfl
      rw [Trace.andThen_of_error_eq_none hx.error_eq_none]
      refine ⟨fun before => ?_, hlater.error⟩
      rw [runFrom_bind, hx.run]
      simp only [hlater.run, List.map_append, List.append_assoc]
      rfl

theorem Recorded.bind_ok {x : Building (List Step) α} {t u : Trace} {a : α}
    {f : α → Building (List Step) β} {result : Except CompileError β}
    (hx : Recorded ids x t (.ok a)) (hf : Recorded ids (f a) u result) :
    Recorded ids (x >>= f) (t.andThen u) result :=
  have hg : ∀ b, Except.ok a = .ok b → Recorded ids (f b) u ((fun _ => result) b) := by
    rintro b ⟨⟩
    exact hf
  hx.bind hg

theorem recorded_throw (cause : CompileError) :
    Recorded ids (throw cause : Building (List Step) Expr) (.halt cause) (.error cause) := by
  refine ⟨fun before => ?_, fun other => ?_⟩
  · rw [Trace.halt, List.map_nil, List.append_nil]
    rfl
  · simp [Trace.halt]

theorem recorded_pure (a : α) :
    Recorded ids (pure a : Building (List Step) α) (.of []) (.ok a) := by
  refine ⟨fun before => ?_, by simp [Trace.of]⟩
  rw [Trace.of, List.map_nil, List.append_nil]
  rfl

theorem recorded_call (step : Step) {call : Step} (hcall : call = step.emitted ids) (a : α) :
    Recorded ids (liftM (do Js.Builder.note call; return a : StateM _ α)) (.of [step]) (.ok a) := by
  subst hcall
  exact ⟨fun _ => rfl, by simp [Trace.of]⟩

end Building

namespace Node

open Building (Recorded recorded_throw recorded_pure recorded_call)
open Js.Builder (recorder)

variable {ids : Options}

/-- Compiling a script makes the calls of its trace and gives the compiled form. -/
def IsRecorded (ids : Options) (n : Node) : Prop :=
  Recorded ids (n.compileWith recorder ids) n.trace (n.compile ids)

theorem isRecorded_pair {left right : Node} (hleft : left.IsRecorded ids)
    (hright : right.IsRecorded ids) : (operation .equal [left, right]).IsRecorded ids := by
  rw [IsRecorded, trace_pair, Trace.andThen_assoc, compile_pair]
  exact hleft.bind fun l _ => hright.bind fun r _ => recorded_call (.binary .equal) rfl _

theorem recorded_chain (op : Js.Operator) (identity : Step) (e : Expr) {first : Node}
    {rest : List Node} (hoperands : ∀ n ∈ first :: rest, n.IsRecorded ids) :
    Recorded ids (recorder.chain op (first.compileWith recorder ids)
        (compileEachWith recorder ids rest))
      (.join identity op (traceAll (first :: rest)))
      ((compileAll ids (first :: rest)).map (chainOr e op)) := by
  induction rest generalizing first with
  | nil =>
      have hfirst := hoperands first (by simp)
      rw [traceAll, traceAll, Trace.join_singleton, compileAll, compileAll]
      have hresult : (do
          let first ← first.compile ids
          let others ← (Except.ok [] : Except CompileError (List Expr))
          return first :: others).map (chainOr e op) = first.compile ids := by
        cases first.compile ids <;> rfl
      rw [hresult]
      exact hfirst
  | cons second rest ih =>
      have hrest := ih fun n hn => hoperands n (List.mem_cons_of_mem _ hn)
      have hresult : (compileAll ids (first :: second :: rest)).map (chainOr e op) = do
          let left ← first.compile ids
          let right ← (compileAll ids (second :: rest)).map (chainOr e op)
          return .binary op left right := by
        rw [compileAll_cons ids first, compileAll_cons ids second]
        cases first.compile ids with
        | error cause => rfl
        | ok left =>
            cases second.compile ids with
            | error cause => rfl
            | ok right => cases compileAll ids rest <;> rfl
      rw [hresult, traceAll, traceAll, Trace.join_cons_cons, ← traceAll]
      exact (hoperands first (by simp)).bind fun left _ =>
        hrest.bind fun right _ => recorded_call (.binary op) rfl _

theorem recorded_chainOr (op : Js.Operator) (identity : Step) {made : StateM (List Step) Expr}
    {e : Expr} {operands : List Node}
    (hidentity : Recorded ids (liftM made) (.of [identity]) (.ok e))
    (hoperands : ∀ n ∈ operands, n.IsRecorded ids) :
    Recorded ids (recorder.chainOr made op (compileEachWith recorder ids operands))
      (.join identity op (traceAll operands))
      ((compileAll ids operands).map (chainOr e op)) := by
  cases operands with
  | nil => exact hidentity
  | cons first rest => exact recorded_chain op identity e hoperands

theorem compileWith_pair {σ : Type} (b : Js.Builder σ) (ids : Options) (left right : Node) :
    (operation .equal [left, right]).compileWith b ids =
      b.comparison (left.compileWith b ids) (right.compileWith b ids) := by
  rw [compileWith, compileEachWith_eq_map]
  rfl

theorem compileWith_pairsWith {σ : Type} (b : Js.Builder σ) (ids : Options)
    (first second : Node) (rest : List Node) :
    (operation .and (pairsWith first (second :: rest))).compileWith b ids =
      (operation .equal (first :: second :: rest)).compileWith b ids := by
  have hpairs : (pairsWith first (second :: rest)).map (compileWith b ids) =
      ((second :: rest).map (compileWith b ids)).map (b.comparison (first.compileWith b ids)) := by
    rw [pairsWith, List.map_map, List.map_map]
    exact List.map_congr_left fun other _ => compileWith_pair b ids first other
  rw [compileWith, compileWith, compileEachWith_eq_map, compileEachWith_eq_map, hpairs]
  rfl

theorem recorded_bindings (parameters : List Parameter) :
    Recorded ids (parameters.mapM fun p => (recorder.binding (ids.sanitize p.name) :
        Building (List Step) ByteString))
      (.of (parameters.map fun p => .binding p.name))
      (.ok (parameters.map fun p => ids.sanitize p.name)) := by
  induction parameters with
  | nil => exact ⟨fun before => by simp [Trace.of, Building.runFrom], by simp [Trace.of]⟩
  | cons p rest ih =>
      have hfirst : Recorded ids (recorder.binding (ids.sanitize p.name) :
          Building (List Step) ByteString) (.of [.binding p.name]) (.ok (ids.sanitize p.name)) :=
        recorded_call (.binding p.name) rfl _
      have hall := hfirst.bind fun own _ => ih.bind fun others _ => recorded_pure (own :: others)
      rw [Trace.andThen_of_nil] at hall
      rw [List.mapM_cons]
      exact hall

theorem recorded_head (name : ByteString) (parameters : List Parameter) (compiled : Expr) :
    Recorded ids
      (do
        let own ← recorder.binding (ids.sanitize name)
        let statement ← recorder.returned compiled
        recorder.function own (parameters.map fun p => ids.sanitize p.name) [statement])
      (.of [.binding name, .returning, .function name parameters.length])
      (.ok (.named (ids.sanitize name) (parameters.map fun p => ids.sanitize p.name)
        [compiled])) := by
  have hfunction : Recorded ids
      (liftM (recorder.function (ids.sanitize name) (parameters.map fun p => ids.sanitize p.name)
        [.returned compiled]))
      (.of [.function name parameters.length])
      (.ok (.named (ids.sanitize name) (parameters.map fun p => ids.sanitize p.name)
        [compiled])) := by
    have hcall : Step.function (ids.sanitize name)
        (parameters.map fun p => ids.sanitize p.name).length =
        (Step.function name parameters.length).emitted ids := by
      rw [List.length_map, Step.emitted]
    exact recorded_call _ hcall _
  have hstatement : Recorded ids (liftM (recorder.returned compiled)) (.of [.returning])
      (.ok (.returned compiled)) := recorded_call .returning rfl _
  have hown : Recorded ids (recorder.binding (ids.sanitize name) :
      Building (List Step) ByteString) (.of [.binding name]) (.ok (ids.sanitize name)) :=
    recorded_call (.binding name) rfl _
  have htrace : Trace.of [.binding name, .returning, .function name parameters.length] =
      (Trace.of [.binding name]).andThen
        ((Trace.of [.returning]).andThen (.of [.function name parameters.length])) := rfl
  rw [htrace]
  exact hown.bind_ok (hstatement.bind_ok hfunction)

theorem isRecorded (ids : Options) (n : Node) : n.IsRecorded ids := by
  induction n using inductionByPairs with
  | missing expected => exact recorded_throw _
  | boolean value => exact recorded_call (.boolean value) rfl _
  | number value => exact recorded_call (.number value) rfl _
  | reference name => exact recorded_call (.identifier name) rfl _
  | joined op operands hop ih =>
      rw [IsRecorded, compile_operation, if_neg (by simp [hop])]
      cases op with
      | and => exact recorded_chainOr .and _ (recorded_call (.boolean true) rfl _) ih
      | or => exact recorded_chainOr .or _ (recorded_call (.boolean false) rfl _) ih
      | sum => exact recorded_chainOr .add _ (recorded_call (.number .zero) rfl _) ih
      | equal => contradiction
  | lone operands hlone =>
      match operands, hlone with
      | [], _ => exact recorded_call (.boolean true) rfl _
      | [_], _ => exact recorded_call (.boolean true) rfl _
  | pair left right hleft hright => exact isRecorded_pair hleft hright
  | many first second third rest ih =>
      rw [IsRecorded, compileWith_pairsWith, trace_pairsWith, compile_operation,
        if_neg (by simp), map_compileAll_pairsWith] at ih
      rw [IsRecorded, compile_operation, if_neg (by simp)]
      exact ih
  | function name parameters body ih =>
      rw [IsRecorded, compileWith, compile, trace, Trace.andThen_assoc]
      exact (recorded_bindings parameters).bind_ok
        (ih.bind fun compiled _ => recorded_head name parameters compiled)
  | unrecognized tag raw => exact recorded_throw _

theorem runFrom_compileWith_recorder (ids : Options) (n : Node) (before : List Step) :
    (n.compileWith recorder ids).runFrom before = (n.compile ids, before ++ n.calls ids) := by
  rw [calls, (isRecorded ids n).run, (isRecorded ids n).run, List.nil_append]

theorem calls_eq_map (ids : Options) (n : Node) :
    n.calls ids = n.trace.steps.map (.emitted ids) := by
  rw [calls, (isRecorded ids n).run, List.nil_append]

end Node

end ScriptTree
