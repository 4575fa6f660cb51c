import ScriptTree.Proofs.Compile.Chain
import ScriptTree.Proofs.Identifier.Prefixed
import ScriptTree.Proofs.Js.Scope

/-!
Names in compiled expressions. Each of them is a name of the script as it is emitted,
so a way of emitting names that avoids reserved words keeps them out of the whole
expression.
-/

namespace ScriptTree

open Identifier (Options Table)
open Js (Expr)

/-! Joining adds no names. -/

section Join

variable {name : ByteString}

theorem mem_names_chain {op : Js.Operator} {first : Expr} {rest : List Expr}
    (hname : name ∈ (chain op first rest).names) :
    ∃ e ∈ first :: rest, name ∈ e.names := by
  induction rest generalizing first with
  | nil => exact ⟨first, by simp, hname⟩
  | cons next rest ih =>
      rw [chain, Expr.names, List.mem_append] at hname
      rcases hname with hfirst | hrest
      · exact ⟨first, by simp, hfirst⟩
      · obtain ⟨e, he, hname⟩ := ih hrest
        exact ⟨e, List.mem_cons_of_mem _ he, hname⟩

theorem mem_names_chainOr {identity : Expr} (hidentity : identity.names = [])
    {op : Js.Operator} {operands : List Expr}
    (hname : name ∈ (chainOr identity op operands).names) :
    ∃ e ∈ operands, name ∈ e.names := by
  cases operands with
  | nil =>
      rw [chainOr, hidentity] at hname
      cases hname
  | cons first rest => exact mem_names_chain hname

theorem mem_names_comparisons {operands : List Expr}
    (hname : name ∈ (comparisons operands).names) : ∃ e ∈ operands, name ∈ e.names := by
  cases operands with
  | nil =>
      rw [comparisons, Expr.names] at hname
      cases hname
  | cons first others =>
      obtain ⟨e, he, hname⟩ := mem_names_chainOr (by rw [Expr.names]) hname
      obtain ⟨other, hother, rfl⟩ := List.mem_map.mp he
      rw [Expr.names, List.mem_append] at hname
      rcases hname with hname | hname
      · exact ⟨first, by simp, hname⟩
      · exact ⟨other, List.mem_cons_of_mem _ hother, hname⟩

theorem mem_names_join {op : Operation} {operands : List Expr}
    (hname : name ∈ (op.join operands).names) : ∃ e ∈ operands, name ∈ e.names := by
  cases op with
  | and => exact mem_names_chainOr (by rw [Expr.names]) hname
  | or => exact mem_names_chainOr (by rw [Expr.names]) hname
  | sum => exact mem_names_chainOr (by rw [Expr.names]) hname
  | equal => exact mem_names_comparisons hname

end Join

namespace Node

theorem exists_operand_of_compileAll {ids : Options} {operands : List Node}
    {compiled : List Expr} (hcompiled : compileAll ids operands = .ok compiled) {e : Expr}
    (he : e ∈ compiled) : ∃ n ∈ operands, n.compile ids = .ok e := by
  rw [compileAll_eq_ok_iff] at hcompiled
  induction hcompiled with
  | nil => cases he
  | cons hfirst _ ih =>
      rcases List.mem_cons.mp he with rfl | he
      · exact ⟨_, List.mem_cons_self, hfirst⟩
      · obtain ⟨n, hn, hcompile⟩ := ih he
        exact ⟨n, List.mem_cons_of_mem _ hn, hcompile⟩

/-- Every name of a compiled script is a name of the script as it is emitted. -/
theorem exists_name_of_compile {ids : Options} {n : Node} {e : Expr} {name : ByteString}
    (hcompile : n.compile ids = .ok e) (hname : name ∈ e.names) :
    ∃ original ∈ n.names, name = ids.sanitize original := by
  induction n generalizing e with
  | missing expected => cases hcompile
  | unrecognized tag raw => cases hcompile
  | boolean value =>
      obtain rfl := Except.ok.inj hcompile
      simp [Expr.names] at hname
  | number value =>
      obtain rfl := Except.ok.inj hcompile
      simp [Expr.names] at hname
  | reference original =>
      obtain rfl := Except.ok.inj hcompile
      exact ⟨original, by simp [names], by simpa [Expr.names] using hname⟩
  | function own parameters body ih =>
      obtain ⟨compiled, hbody, rfl⟩ := exists_body_of_compile hcompile
      simp only [Js.names_named, List.mem_append, List.mem_cons, List.mem_map] at hname
      rcases hname with (rfl | ⟨p, hp, rfl⟩) | hname
      · exact ⟨own, by simp [names], rfl⟩
      · refine ⟨p.name, ?_, rfl⟩
        rw [names]
        exact List.mem_append_left _ (List.mem_cons_of_mem _ (List.mem_map_of_mem hp))
      · obtain ⟨original, horiginal, hname⟩ := ih hbody hname
        exact ⟨original, by simp [names, horiginal], hname⟩
  | operation op operands ih =>
      by_cases hlone : op = .equal ∧ operands.length = 1
      · rw [compile_operation, if_pos hlone] at hcompile
        obtain rfl := Except.ok.inj hcompile
        simp [Expr.names] at hname
      · obtain ⟨compiled, hcompiled, rfl⟩ := exists_compileAll_of_compile hlone hcompile
        obtain ⟨e, he, hname⟩ := mem_names_join hname
        obtain ⟨n, hn, hcompile⟩ := exists_operand_of_compileAll hcompiled he
        obtain ⟨original, horiginal, hname⟩ := ih n hn hcompile hname
        refine ⟨original, ?_, hname⟩
        rw [names]
        exact mem_namesOfAll hn horiginal

/-- Where reserved words are replaced by putting a mark in front, no name in a compiled
script is reserved in the dialect and mode that the names are emitted for, and a name
that was emitted once is emitted as it is. -/
theorem compile_avoids_reserved (ids : Options) (mark : ByteString) (hmark : mark ≠ [])
    (hreconcile : ids.reconcile.getD .underscore = .before mark)
    (htable : ids.table.getD .standard = .standard) :
    (∀ (n : Node) (e : Expr), n.compile ids = .ok e →
        ∀ name ∈ e.names, Table.standard.reserves name ids.dialect ids.strict = false) ∧
      ∀ name, ids.sanitize (ids.sanitize name) = ids.sanitize name := by
  constructor
  · intro n e hcompile name hname
    obtain ⟨original, -, rfl⟩ := exists_name_of_compile hcompile hname
    exact Options.reserves_sanitize hmark hreconcile htable original
  · exact Options.sanitize_sanitize hmark hreconcile htable

/-- A dialect without an edition, and a mark that ends like the start of a word. -/
def breakingMark : Options := ⟨some (.before "b"), ⟨42⟩, true, some .standard⟩

/-- Reserved names at every kind of place. -/
def reservedEverywhere : Node :=
  function "await" [⟨"in", "Number"⟩, ⟨"let", "Number"⟩, ⟨"reak", "Number"⟩]
    (operation .equal [reference "in", reference "let", reference "break"])

theorem compile_avoids_reserved_everywhere :
    ∃ e, reservedEverywhere.compile breakingMark = .ok e ∧
      "blet" ∈ e.names.map ByteString.text ∧ "bbreak" ∈ e.names.map ByteString.text ∧
      ∀ name ∈ e.names, Table.standard.reserves name ⟨42⟩ true = false := by
  obtain ⟨e, hcompile⟩ : ∃ e, reservedEverywhere.compile breakingMark = .ok e := ⟨_, rfl⟩
  refine ⟨e, hcompile, ?_, ?_, ?_⟩
  · obtain rfl := Except.ok.inj hcompile
    decide +kernel
  · obtain rfl := Except.ok.inj hcompile
    decide +kernel
  · exact (compile_avoids_reserved breakingMark "b" (by decide) rfl rfl).1 _ e hcompile

end Node

end ScriptTree
