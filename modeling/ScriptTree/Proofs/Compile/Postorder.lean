import ScriptTree.Proofs.Compile.Calls
import ScriptTree.Script.Evaluate

/-!
The calls of a compilation name the nodes of the expression in post-order: replayed on stacks, they
make the expression again and leave nothing else behind. A compilation that fails makes the first of
the calls that it would make with literals in the places of the nodes it has no form for.
-/

namespace ScriptTree

open Identifier (Options)
open Compile (Step Trace)
open Js (Expr Statement)

/-! Replaying calls. -/

/-- What is made and not yet put to use, the last first. -/
structure Stacks where
  expressions : List Expr := []
  bindings : List ByteString := []
  statements : List Statement := []

namespace Stacks

def push (e : Expr) (s : Stacks) : Stacks := { s with expressions := e :: s.expressions }

/-- What a call does. It takes its parts from the stacks; there is no result where they are
missing, or where the name of a function is not the last binding. -/
def perform (s : Stacks) : Step → Option Stacks
  | .boolean value => some (s.push (.boolean value))
  | .number value => some (s.push (.number value))
  | .identifier name => some (s.push (.identifier name))
  | .binary op =>
    match s.expressions with
    | right :: left :: rest => some { s with expressions := .binary op left right :: rest }
    | _ => none
  | .binding name => some { s with bindings := name :: s.bindings }
  | .returning =>
    match s.expressions with
    | e :: rest => some { s with expressions := rest, statements := .returned e :: s.statements }
    | [] => none
  | .function name arity =>
    match s.bindings, s.statements with
    | own :: bound, body :: statements =>
      if own = name ∧ arity ≤ bound.length then
        let parameters := (bound.take arity).reverse
        some
          { expressions :=
              .function ⟨false, false, some own, some ⟨parameters, none⟩⟩ [] [body] ::
                s.expressions
            bindings := bound.drop arity
            statements }
      else none
    | _, _ => none

def replay (calls : List Step) (s : Stacks) : Option Stacks := calls.foldlM perform s

@[simp] theorem replay_nil (s : Stacks) : replay [] s = some s := rfl

@[simp] theorem replay_cons (call : Step) (calls : List Step) (s : Stacks) :
    replay (call :: calls) s = (s.perform call).bind (replay calls) := rfl

@[simp] theorem replay_append (calls later : List Step) (s : Stacks) :
    replay (calls ++ later) s = (replay calls s).bind (replay later) :=
  List.foldlM_append

theorem replay_bindings (names : List ByteString) (s : Stacks) :
    replay (names.map .binding) s = some { s with bindings := names.reverse ++ s.bindings } := by
  induction names generalizing s with
  | nil => rfl
  | cons name rest ih =>
      rw [List.map_cons, replay_cons, perform, Option.bind_some, ih, List.reverse_cons,
        List.append_assoc]
      rfl

end Stacks

/-! The calls of a compilation that succeeds. -/

namespace Compile.Trace

open Stacks (replay)

variable {ids : Options}

/-- A trace without an error whose calls put an expression on whatever the stacks hold. -/
structure Builds (ids : Options) (t : Trace) (e : Expr) : Prop where
  error : t.error = none
  calls : ∀ s, replay (t.steps.map (.emitted ids)) s = some (s.push e)

theorem builds_of {step : Step} {e : Expr}
    (hstep : ∀ s : Stacks, s.perform (step.emitted ids) = some (s.push e)) :
    (of [step]).Builds ids e :=
  ⟨rfl, fun s => by simp [of, hstep]⟩

theorem Builds.replay_andThen {t u : Trace} {e : Expr} (ht : t.Builds ids e) (s : Stacks) :
    replay ((t.andThen u).steps.map (.emitted ids)) s =
      replay (u.steps.map (.emitted ids)) (s.push e) := by
  rw [andThen_of_error_eq_none ht.error, List.map_append, Stacks.replay_append, ht.calls,
    Option.bind_some]

theorem Builds.binary {t u : Trace} {left right : Expr} (ht : t.Builds ids left)
    (hu : u.Builds ids right) (op : Js.Operator) :
    (t.andThen (u.andThen (of [.binary op]))).Builds ids (.binary op left right) := by
  constructor
  · rw [error_andThen, error_andThen, ht.error, hu.error]
    rfl
  · intro s
    rw [ht.replay_andThen, hu.replay_andThen]
    rfl

theorem Builds.chain {identity : Step} (op : Js.Operator) {t : Trace} {e : Expr}
    {rest : List Trace} {es : List Expr} (ht : t.Builds ids e)
    (hrest : List.Forall₂ (Builds ids) rest es) :
    (join identity op (t :: rest)).Builds ids (ScriptTree.chain op e es) := by
  induction hrest generalizing t e with
  | nil =>
      rw [join_singleton]
      exact ht
  | cons hnext _ ih =>
      rw [join_cons_cons]
      exact ht.binary (ih hnext) op

theorem builds_join {identity : Step} {e : Expr} (op : Js.Operator) {operands : List Trace}
    {es : List Expr} (hidentity : (of [identity]).Builds ids e)
    (hoperands : List.Forall₂ (Builds ids) operands es) :
    (join identity op operands).Builds ids (chainOr e op es) := by
  cases hoperands with
  | nil => exact hidentity
  | cons hfirst hrest => exact hfirst.chain op hrest

end Compile.Trace

namespace Node

open Stacks (replay)

variable {ids : Options}

theorem builds_traceAll {operands : List Node} {compiled : List Expr}
    (hoperands : ∀ n ∈ operands, ∀ e, n.compile ids = .ok e → n.trace.Builds ids e)
    (hcompiled : compileAll ids operands = .ok compiled) :
    List.Forall₂ (Trace.Builds ids) (traceAll operands) compiled := by
  rw [compileAll_eq_ok_iff] at hcompiled
  induction hcompiled with
  | nil => exact .nil
  | cons hfirst _ ih =>
      exact .cons (hoperands _ (by simp) _ hfirst)
        (ih fun n hn => hoperands n (List.mem_cons_of_mem _ hn))

theorem builds_function {name : ByteString} {parameters : List Parameter} {body : Node}
    {e : Expr} (hbody : body.trace.Builds ids e) :
    (function name parameters body).trace.Builds ids
      (.named (ids.sanitize name) (parameters.map fun p => ids.sanitize p.name) [e]) := by
  constructor
  · rw [trace, Trace.error_andThen, Trace.error_andThen, hbody.error]
    rfl
  · intro s
    have hbindings : (parameters.map fun p => Step.binding p.name).map (Step.emitted ids) =
        (parameters.map fun p => ids.sanitize p.name).map Step.binding := by
      rw [List.map_map, List.map_map]
      rfl
    rw [trace, Trace.andThen_assoc, Trace.andThen_of_error_eq_none rfl, List.map_append,
      Stacks.replay_append, Trace.of, hbindings, Stacks.replay_bindings, Option.bind_some,
      hbody.replay_andThen]
    simp [Trace.of, Step.emitted, Stacks.perform, Stacks.push, Expr.named]

theorem exists_compile_of_compile_pair {left right : Node} {e : Expr}
    (hcompile : (operation .equal [left, right]).compile ids = .ok e) :
    ∃ l r, left.compile ids = .ok l ∧ right.compile ids = .ok r ∧ e = .binary .equal l r := by
  rw [compile_pair] at hcompile
  cases hl : left.compile ids with
  | error cause => simp [hl, bind, Except.bind] at hcompile
  | ok l =>
      cases hr : right.compile ids with
      | error cause => simp [hl, hr, bind, Except.bind] at hcompile
      | ok r =>
          rw [hl, hr] at hcompile
          exact ⟨l, r, rfl, rfl, (Except.ok.inj hcompile).symm⟩

theorem builds_of_compile {n : Node} {e : Expr} (hcompile : n.compile ids = .ok e) :
    n.trace.Builds ids e := by
  induction n using inductionByPairs generalizing e with
  | missing expected => cases hcompile
  | boolean value =>
      cases hcompile
      exact Trace.builds_of fun _ => rfl
  | number value =>
      cases hcompile
      exact Trace.builds_of fun _ => rfl
  | reference name =>
      cases hcompile
      exact Trace.builds_of fun _ => rfl
  | joined op operands hop ih =>
      obtain ⟨compiled, hcompiled, rfl⟩ :=
        exists_compileAll_of_compile (by simp [hop]) hcompile
      have hparts := builds_traceAll ih hcompiled
      cases op with
      | and => exact Trace.builds_join .and (Trace.builds_of fun _ => rfl) hparts
      | or => exact Trace.builds_join .or (Trace.builds_of fun _ => rfl) hparts
      | sum => exact Trace.builds_join .add (Trace.builds_of fun _ => rfl) hparts
      | equal => contradiction
  | lone operands hlone =>
      match operands, hlone with
      | [], _ =>
          cases hcompile
          exact Trace.builds_of fun _ => rfl
      | [_], _ =>
          cases hcompile
          exact Trace.builds_of fun _ => rfl
  | pair left right hleft hright =>
      obtain ⟨l, r, hl, hr, rfl⟩ := exists_compile_of_compile_pair hcompile
      rw [trace_pair, Trace.andThen_assoc]
      exact (hleft hl).binary (hright hr) .equal
  | many first second third rest ih =>
      rw [compile_operation, if_neg (by simp), ← map_compileAll_pairsWith] at hcompile
      rw [← trace_pairsWith]
      apply ih
      rw [compile_operation, if_neg (by simp)]
      exact hcompile
  | function name parameters body ih =>
      obtain ⟨compiled, hbody, rfl⟩ := exists_body_of_compile hcompile
      exact builds_function (ih hbody)
  | unrecognized tag raw => cases hcompile

end Node

/-! The calls of a compilation that fails. -/

namespace Node

/-- The second script has a literal in every place where the first one has nothing or a node
without a compiled form, and is the same elsewhere. -/
inductive Mended : Node → Node → Prop
  | missing (expected : Option Kind) (l : Literal) : Mended (missing expected) l.toNode
  | boolean (value : Bool) : Mended (boolean value) (boolean value)
  | number (value : Number) : Mended (number value) (number value)
  | reference (name : ByteString) : Mended (reference name) (reference name)
  | operation (op : Operation) {operands mended : List Node} :
    List.Forall₂ Mended operands mended → Mended (operation op operands) (operation op mended)
  | function (name : ByteString) (parameters : List Parameter) {body mended : Node} :
    Mended body mended → Mended (function name parameters body) (function name parameters mended)
  | unrecognized (tag raw : ByteString) (l : Literal) : Mended (unrecognized tag raw) l.toNode

end Node

namespace Compile.Trace

/-- The second trace ends without an error. The first one is the same, or ends in an error on the
way. -/
structure Leads (t u : Trace) : Prop where
  error : u.error = none
  same : t.error = none → t = u
  steps : t.steps <+: u.steps

theorem leads_of (steps : List Step) : (of steps).Leads (of steps) :=
  ⟨rfl, fun _ => rfl, List.prefix_rfl⟩

theorem leads_halt (cause : CompileError) (steps : List Step) : (halt cause).Leads (of steps) :=
  ⟨rfl, fun herror => (nomatch herror), List.nil_prefix⟩

theorem Leads.andThen {t u t' u' : Trace} (ht : t.Leads t') (hu : u.Leads u') :
    (t.andThen u).Leads (t'.andThen u') := by
  cases herror : t.error with
  | none =>
      obtain rfl := ht.same herror
      rw [andThen_of_error_eq_none herror, andThen_of_error_eq_none herror]
      refine ⟨hu.error, fun hnone => ?_, (List.prefix_append_right_inj _).mpr hu.steps⟩
      rw [hu.same hnone]
  | some cause =>
      rw [andThen_of_error herror, andThen_of_error_eq_none ht.error]
      refine ⟨hu.error, fun hnone => ?_, ht.steps.trans (List.prefix_append _ _)⟩
      rw [herror] at hnone
      cases hnone

theorem leads_join (identity : Step) (op : Js.Operator) {ts us : List Trace}
    (hoperands : List.Forall₂ Leads ts us) : (join identity op ts).Leads (join identity op us) := by
  induction hoperands with
  | nil => exact leads_of _
  | cons hfirst hrest ih =>
      cases hrest with
      | nil =>
          rw [join_singleton, join_singleton]
          exact hfirst
      | cons hsecond hothers =>
          rw [join_cons_cons, join_cons_cons]
          exact hfirst.andThen (ih.andThen (leads_of _))

theorem leads_compare {ts us : List Trace} (hoperands : List.Forall₂ Leads ts us) :
    (compare ts).Leads (compare us) := by
  cases hoperands with
  | nil => exact leads_of _
  | cons hfirst hothers =>
      apply leads_join
      rw [List.forall₂_map_left_iff, List.forall₂_map_right_iff]
      exact hothers.imp fun _ _ hother => (hfirst.andThen hother).andThen (leads_of _)

end Compile.Trace

namespace Node

open Stacks (replay)
open Js.Builder (recorder)

variable {ids : Options}

theorem trace_toNode (l : Literal) : ∃ step, l.toNode.trace = .of [step] := by
  cases l with
  | boolean value => exact ⟨.boolean value, rfl⟩
  | number value => exact ⟨.number value, rfl⟩

/-- The steps towards the first failure are those of the mended script. -/
theorem leads_trace {n m : Node} (hmended : n.Mended m) : n.trace.Leads m.trace := by
  induction n generalizing m with
  | missing expected =>
      cases hmended with
      | missing _ l =>
          obtain ⟨step, hstep⟩ := trace_toNode l
          rw [hstep]
          exact Trace.leads_halt _ _
  | unrecognized tag raw =>
      cases hmended with
      | unrecognized _ _ l =>
          obtain ⟨step, hstep⟩ := trace_toNode l
          rw [hstep]
          exact Trace.leads_halt _ _
  | boolean value => cases hmended; exact Trace.leads_of _
  | number value => cases hmended; exact Trace.leads_of _
  | reference name => cases hmended; exact Trace.leads_of _
  | function name parameters body ih =>
      cases hmended with
      | function _ _ hbody =>
          rw [trace, trace]
          exact ((Trace.leads_of _).andThen (ih hbody)).andThen (Trace.leads_of _)
  | operation op operands ih =>
      cases hmended with
      | @operation _ _ mended hall =>
          have hoperands : List.Forall₂ Trace.Leads (traceAll operands) (traceAll mended) := by
            rw [traceAll_eq_map, traceAll_eq_map, List.forall₂_map_left_iff,
              List.forall₂_map_right_iff]
            exact ((List.forall₂_and_left operands mended).mpr ⟨ih, hall⟩).imp fun _ _ h => h.1 h.2
          cases op with
          | and => exact Trace.leads_join _ _ hoperands
          | or => exact Trace.leads_join _ _ hoperands
          | sum => exact Trace.leads_join _ _ hoperands
          | equal => exact Trace.leads_compare hoperands

theorem exists_mended (n : Node) : ∃ m, n.Mended m := by
  induction n with
  | missing expected => exact ⟨_, .missing expected (.boolean true)⟩
  | boolean value => exact ⟨_, .boolean value⟩
  | number value => exact ⟨_, .number value⟩
  | reference name => exact ⟨_, .reference name⟩
  | function name parameters body ih =>
      obtain ⟨mended, hmended⟩ := ih
      exact ⟨_, .function name parameters hmended⟩
  | operation op operands ih =>
      have hall : ∃ mended, List.Forall₂ Mended operands mended := by
        induction operands with
        | nil => exact ⟨[], .nil⟩
        | cons n rest ihrest =>
            obtain ⟨m, hm⟩ := ih n (by simp)
            obtain ⟨ms, hms⟩ := ihrest fun other hother => ih other (List.mem_cons_of_mem _ hother)
            exact ⟨m :: ms, .cons hm hms⟩
      obtain ⟨mended, hmended⟩ := hall
      exact ⟨_, .operation op hmended⟩
  | unrecognized tag raw => exact ⟨_, .unrecognized tag raw (.boolean true)⟩

theorem Mended.exists_compile {n m : Node} (hmended : n.Mended m) :
    ∃ e, m.compile ids = .ok e := by
  rw [← failure?_eq_none_iff, ← trace_error]
  exact (leads_trace hmended).error

theorem Mended.calls_prefix {n m : Node} (hmended : n.Mended m) :
    n.calls ids <+: m.calls ids := by
  rw [calls_eq_map, calls_eq_map]
  exact (leads_trace hmended).steps.map _

theorem replay_calls {n : Node} {e : Expr} (hcompile : n.compile ids = .ok e) (s : Stacks) :
    replay (n.calls ids) s = some (s.push e) := by
  rw [calls_eq_map]
  exact (builds_of_compile hcompile).calls s

/-- Compiling makes its calls once each, and they are the expression in post-order: replayed on
empty stacks they never run out of parts, and nothing but the expression is left. If there is no
expression, the calls are the first ones of every mended script. -/
theorem calls_in_postorder (ids : Options) (n : Node) :
    (∀ before, (n.compileWith recorder ids).runFrom before =
        (n.compile ids, before ++ n.calls ids)) ∧
      (∀ e, n.compile ids = .ok e →
        replay (n.calls ids) {} = some { expressions := [e], bindings := [], statements := [] }) ∧
      ∀ cause, n.compile ids = .error cause →
        (∃ m, n.Mended m) ∧
          ∀ m, n.Mended m → (∃ e, m.compile ids = .ok e) ∧ n.calls ids <+: m.calls ids := by
  refine ⟨runFrom_compileWith_recorder ids n, fun e he => replay_calls he {}, fun cause _ => ?_⟩
  exact ⟨exists_mended n, fun m hm => ⟨hm.exists_compile, hm.calls_prefix⟩⟩

/-- A function that compares its first parameter with the second and with what stands third. -/
def comparing (third : Node) : Node :=
  function "f" [⟨"x", "Number"⟩, ⟨"y", "Number"⟩]
    (operation .equal [reference "x", reference "y", third])

theorem calls_in_postorder_comparing :
    replay ((comparing (number .zero)).calls .standard) {} =
        some { expressions := [.named "f" ["x", "y"]
          [.binary .and (.binary .equal (.identifier "x") (.identifier "y"))
            (.binary .equal (.identifier "x") (.number .zero))]] } ∧
      (comparing (unrecognized "Minus" "")).calls .standard =
        [.binding "x", .binding "y", .identifier "x", .identifier "y", .binary .equal,
          .identifier "x"] ∧
      (comparing (unrecognized "Minus" "")).calls .standard <+:
        (comparing (number .zero)).calls .standard := by
  have hf : Options.standard.sanitize "f" = "f" := by decide +kernel
  have hx : Options.standard.sanitize "x" = "x" := by decide +kernel
  have hy : Options.standard.sanitize "y" = "y" := by decide +kernel
  have hmended : (comparing (unrecognized "Minus" "")).Mended (comparing (number .zero)) :=
    .function _ _ (.operation _
      (.cons (.reference "x") (.cons (.reference "y")
        (.cons (.unrecognized _ _ (.number .zero)) .nil))))
  refine ⟨?_, ?_, ?_⟩
  · apply (calls_in_postorder .standard (comparing (number .zero))).2.1
    simp only [comparing, compile, compileAll, hf, hx, hy, List.map_cons, List.map_nil]
    rfl
  · rw [calls_eq_map, ← hx, ← hy]
    rfl
  · have hfails := (calls_in_postorder .standard (comparing (unrecognized "Minus" ""))).2.2
    exact ((hfails (.unknownNode "Minus") rfl).2 _ hmended).2

end Node

end ScriptTree
