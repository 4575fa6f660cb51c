import ScriptTree.Proofs.Compile.Chain

/-!
Compilation by a builder of one's own, which is called once for every node that is made. With the
builder that makes the nodes themselves it is compilation.
-/

namespace ScriptTree

namespace Js

/-- How nodes are made. A builder may remember its calls, and may leave the place of a node
empty. -/
structure Builder (σ : Type) where
  boolean : Bool → StateM σ Expr
  number : Number → StateM σ Expr
  identifier : ByteString → StateM σ Expr
  binary : Operator → Expr → Expr → StateM σ Expr
  binding : ByteString → StateM σ ByteString
  returned : Expr → StateM σ Statement
  function : ByteString → List ByteString → List Statement → StateM σ Expr

def Builder.factory {σ : Type} : Builder σ where
  boolean value := pure (.boolean value)
  number value := pure (.number value)
  identifier name := pure (.identifier name)
  binary op left right := pure (.binary op left right)
  binding name := pure name
  returned value := pure (.returned value)
  function name parameters body :=
    pure (.function ⟨false, false, some name, some ⟨parameters, none⟩⟩ [] body)

end Js

open Identifier (Options)

/-- Work that may fail, and that calls a builder. -/
abbrev Building (σ : Type) := ExceptT CompileError (StateM σ)

/-- What the work gives, and what the builder remembers then. -/
def Building.runFrom {σ α : Type} (x : Building σ α) (s : σ) : Except CompileError α × σ :=
  Id.run (x.run.run s)

namespace Js.Builder

variable {σ : Type}

/-- Joins expressions with an operator, grouping to the right. -/
def chain (b : Builder σ) (op : Operator) (first : Building σ Expr) :
    List (Building σ Expr) → Building σ Expr
  | [] => first
  | next :: rest => do
    let left ← first
    let right ← b.chain op next rest
    b.binary op left right

def chainOr (b : Builder σ) (identity : StateM σ Expr) (op : Operator) :
    List (Building σ Expr) → Building σ Expr
  | [] => identity
  | first :: rest => b.chain op first rest

def comparison (b : Builder σ) (first other : Building σ Expr) : Building σ Expr := do
  let left ← first
  let right ← other
  b.binary .equal left right

/-- The first expression is made again for each comparison, and a lone one not at all. -/
def comparisons (b : Builder σ) : List (Building σ Expr) → Building σ Expr
  | [] | [_] => b.boolean true
  | first :: other :: rest =>
    b.chain .and (b.comparison first other) (rest.map (b.comparison first))

def join (b : Builder σ) : Operation → List (Building σ Expr) → Building σ Expr
  | .and, operands => b.chainOr (b.boolean true) .and operands
  | .or, operands => b.chainOr (b.boolean false) .or operands
  | .sum, operands => b.chainOr (b.number .zero) .add operands
  | .equal, operands => b.comparisons operands

end Js.Builder

namespace Node

variable {σ : Type}

mutual

/-- The expression of a script, made by a builder. -/
def compileWith (b : Js.Builder σ) (ids : Options) : Node → Building σ Js.Expr
  | missing _ => throw (.unknownNode [])
  | boolean value => b.boolean value
  | number value => b.number value
  | reference name => b.identifier (ids.sanitize name)
  | operation op operands => b.join op (compileEachWith b ids operands)
  | function name parameters body => do
    let bound ← parameters.mapM fun p => b.binding (ids.sanitize p.name)
    let compiled ← compileWith b ids body
    let own ← b.binding (ids.sanitize name)
    let statement ← b.returned compiled
    b.function own bound [statement]
  | unrecognized tag _ => throw (.unknownNode tag)

def compileEachWith (b : Js.Builder σ) (ids : Options) : List Node → List (Building σ Js.Expr)
  | [] => []
  | n :: rest => compileWith b ids n :: compileEachWith b ids rest

end

end Node

/-! The builder that makes the nodes themselves. -/

variable {σ : Type}

namespace Building

def ofResult {α : Type} (result : Except CompileError α) : Building σ α := ExceptT.mk (pure result)

end Building

open Building (ofResult)

namespace Js.Builder

theorem comparison_factory (first other : Except CompileError Expr) :
    (factory : Builder σ).comparison (ofResult first) (ofResult other) =
      ofResult (do return .binary .equal (← first) (← other)) := by
  cases first with
  | error cause => rfl
  | ok left => cases other <;> rfl

theorem chain_factory (op : Operator) (first : Except CompileError Expr)
    (rest : List (Except CompileError Expr)) :
    (factory : Builder σ).chain op (ofResult first) (rest.map ofResult) =
      ofResult (do return ScriptTree.chain op (← first) (← rest.mapM id)) := by
  induction rest generalizing first with
  | nil => cases first <;> rfl
  | cons next rest ih =>
      rw [List.map_cons, chain, ih, List.mapM_cons]
      cases first with
      | error cause => rfl
      | ok left =>
          cases next with
          | error cause => rfl
          | ok right => cases rest.mapM id <;> rfl

theorem chainOr_factory (identity : Expr) (op : Operator)
    (operands : List (Except CompileError Expr)) :
    (factory : Builder σ).chainOr (pure identity) op (operands.map ofResult) =
      ofResult (do return ScriptTree.chainOr identity op (← operands.mapM id)) := by
  cases operands with
  | nil => rfl
  | cons first rest =>
      rw [List.map_cons, chainOr, chain_factory, List.mapM_cons]
      cases first with
      | error cause => rfl
      | ok e => cases rest.mapM id <;> rfl

theorem mapM_comparisons (first : Expr) (others : List (Except CompileError Expr)) :
    (others.map fun other => do return Expr.binary .equal first (← other)).mapM id =
      (do return (← others.mapM id).map (.binary .equal first)) := by
  induction others with
  | nil => rfl
  | cons other rest ih =>
      rw [List.map_cons, List.mapM_cons, ih, List.mapM_cons]
      cases other with
      | error cause => rfl
      | ok e => cases rest.mapM id <;> rfl

theorem comparisons_factory (operands : List (Except CompileError Expr))
    (hlone : operands.length ≠ 1) :
    (factory : Builder σ).comparisons (operands.map ofResult) =
      ofResult (do return ScriptTree.comparisons (← operands.mapM id)) := by
  match operands with
  | [] => rfl
  | [_] => exact absurd rfl hlone
  | first :: other :: rest =>
      have hpairs : (rest.map ofResult).map ((factory : Builder σ).comparison (ofResult first)) =
          (rest.map fun o => do return Expr.binary .equal (← first) (← o)).map ofResult := by
        simp only [List.map_map, Function.comp_def, comparison_factory]
      rw [List.map_cons, List.map_cons, comparisons, hpairs, comparison_factory, chain_factory,
        List.mapM_cons, List.mapM_cons]
      cases first with
      | error cause => rfl
      | ok left =>
          cases other with
          | error cause => rfl
          | ok right =>
              have hrest : (rest.map fun o => do
                  return Expr.binary .equal (← Except.ok left) (← o)).mapM id = _ :=
                mapM_comparisons left rest
              rw [hrest]
              cases rest.mapM id <;> rfl

theorem join_factory (op : Operation) (operands : List (Except CompileError Expr))
    (hlone : ¬ (op = .equal ∧ operands.length = 1)) :
    (factory : Builder σ).join op (operands.map ofResult) =
      ofResult (do return op.join (← operands.mapM id)) := by
  cases op with
  | and => exact chainOr_factory (.boolean true) .and operands
  | or => exact chainOr_factory (.boolean false) .or operands
  | sum => exact chainOr_factory (.number .zero) .add operands
  | equal => exact comparisons_factory operands fun hlength => hlone ⟨rfl, hlength⟩

end Js.Builder

namespace Node

theorem compileEachWith_eq_map (b : Js.Builder σ) (ids : Options) (operands : List Node) :
    compileEachWith b ids operands = operands.map (compileWith b ids) := by
  induction operands with
  | nil => rfl
  | cons n rest ih => rw [compileEachWith, ih, List.map_cons]

theorem compileAll_eq_mapM (ids : Options) (operands : List Node) :
    compileAll ids operands = (operands.map (compile ids)).mapM id := by
  induction operands with
  | nil => rfl
  | cons n rest ih =>
      rw [List.map_cons, List.mapM_cons, ← ih, compileAll]
      rfl

/-- The builder that makes the nodes themselves makes those of the compiled script. -/
theorem compileWith_factory (ids : Options) (n : Node) :
    n.compileWith (.factory : Js.Builder σ) ids = ofResult (n.compile ids) := by
  induction n with
  | missing expected => rw [compileWith, compile]; rfl
  | boolean value => rw [compileWith, compile]; rfl
  | number value => rw [compileWith, compile]; rfl
  | reference name => rw [compileWith, compile]; rfl
  | unrecognized tag raw => rw [compileWith, compile]; rfl
  | function name parameters body ih =>
      have hbound : (parameters.mapM fun p =>
          (liftM ((Js.Builder.factory : Js.Builder σ).binding (ids.sanitize p.name)) :
            Building σ ByteString)) = pure (parameters.map fun p => ids.sanitize p.name) :=
        List.mapM_pure
      rw [compileWith, compile, ih, hbound]
      cases body.compile ids <;> rfl
  | operation op operands ih =>
      have heach : compileEachWith (.factory : Js.Builder σ) ids operands =
          (operands.map (compile ids)).map ofResult := by
        rw [compileEachWith_eq_map, List.map_map]
        exact List.map_congr_left ih
      rw [compileWith, compile_operation, heach]
      split
      next hlone =>
        obtain ⟨rfl, hlength⟩ := hlone
        obtain ⟨n, rfl⟩ := List.length_eq_one_iff.mp hlength
        rfl
      next hlone =>
        rw [Js.Builder.join_factory op _ (by rwa [List.length_map]), ← compileAll_eq_mapM]
        cases compileAll ids operands <;> rfl

theorem runFrom_compileWith_factory (ids : Options) (n : Node) (s : σ) :
    (n.compileWith .factory ids).runFrom s = (n.compile ids, s) := by
  rw [compileWith_factory]
  rfl

end Node

/-! Builders are stopped by the same node, whatever they make of the others. -/

namespace Building

variable {α β : Type}

theorem runFrom_bind {α β : Type} (x : Building σ α) (f : α → Building σ β) (s : σ) :
    (x >>= f).runFrom s =
      match x.runFrom s with
      | (.ok a, s) => (f a).runFrom s
      | (.error cause, s) => (.error cause, s) := by
  simp only [runFrom, ExceptT.run_bind, StateT.run_bind, Id.run_bind]
  rcases Id.run (x.run.run s) with ⟨_ | _, t⟩ <;> rfl

/-- The work fails in this way, or not at all, wherever it starts from. -/
def EndsWith (x : Building σ α) (failure : Option CompileError) : Prop :=
  ∀ s cause, (x.runFrom s).1 = .error cause ↔ failure = some cause

theorem endsWith_liftM (x : StateM σ α) : (liftM x : Building σ α).EndsWith none := by
  intro s cause
  refine iff_of_false ?_ nofun
  intro hcause
  have hok : ((liftM x : Building σ α).runFrom s).1 = .ok (x.run s).1 := rfl
  rw [hok] at hcause
  cases hcause

theorem endsWith_throw (cause : CompileError) :
    (throw cause : Building σ α).EndsWith (some cause) := by
  intro s other
  have herror : ((throw cause : Building σ α).runFrom s).1 = .error cause := rfl
  rw [herror, Except.error.injEq, Option.some.injEq]

theorem EndsWith.bind {x : Building σ α} {f : α → Building σ β} {p q : Option CompileError}
    (hx : x.EndsWith p) (hf : ∀ a, (f a).EndsWith q) : (x >>= f).EndsWith (p.or q) := by
  intro s cause
  have hfirst := hx s
  rw [runFrom_bind]
  rcases hrun : x.runFrom s with ⟨first | a, t⟩
  · rw [hrun] at hfirst
    rw [(hfirst first).mp rfl, Option.some_or, Option.some.injEq, Except.error.injEq]
  · cases p with
    | none => exact hf a t cause
    | some first =>
        have herror := (hfirst first).mpr rfl
        rw [hrun] at herror
        cases herror

theorem endsWith_mapM {f : α → Building σ β} (hf : ∀ a, (f a).EndsWith none) (l : List α) :
    (l.mapM f).EndsWith none := by
  induction l with
  | nil => exact endsWith_liftM (pure [])
  | cons a rest ih =>
      rw [List.mapM_cons]
      exact (hf a).bind fun first => ih.bind fun others => endsWith_liftM (pure (first :: others))

end Building

open Building (EndsWith endsWith_liftM endsWith_throw endsWith_mapM)

/-- What is tried before each element of a list is tried before the whole list. -/
theorem findSome?_or {α β : Type} (p : Option β) (g : α → Option β) {l : List α} (hl : l ≠ []) :
    (l.findSome? fun a => p.or (g a)) = p.or (l.findSome? g) := by
  obtain ⟨a, rest, rfl⟩ := List.exists_cons_of_ne_nil hl
  cases p with
  | none => simp
  | some b => simp

namespace Js.Builder

variable {ι : Type} {f : ι → Building σ Expr} {g : ι → Option CompileError}

theorem endsWith_chain (b : Builder σ) (op : Operator) (first : ι) {rest : List ι}
    (hoperands : ∀ i ∈ first :: rest, (f i).EndsWith (g i)) :
    (b.chain op (f first) (rest.map f)).EndsWith ((first :: rest).findSome? g) := by
  induction rest generalizing first with
  | nil => simpa [chain] using hoperands first
  | cons next rest ih =>
      have hfirst := hoperands first List.mem_cons_self
      have hrest := ih next fun i hi => hoperands i (List.mem_cons_of_mem _ hi)
      have hchain := hfirst.bind fun left => hrest.bind fun right =>
        endsWith_liftM (b.binary op left right)
      rw [Option.or_none] at hchain
      rw [List.map_cons, chain, List.findSome?_cons]
      cases hg : g first <;> simpa [hg] using hchain

theorem endsWith_chainOr (b : Builder σ) (identity : StateM σ Expr) (op : Operator)
    {operands : List ι} (hoperands : ∀ i ∈ operands, (f i).EndsWith (g i)) :
    (b.chainOr identity op (operands.map f)).EndsWith (operands.findSome? g) := by
  cases operands with
  | nil => exact endsWith_liftM identity
  | cons first rest => exact b.endsWith_chain op first hoperands

theorem endsWith_comparisons (b : Builder σ) {operands : List ι}
    (hoperands : ∀ i ∈ operands, (f i).EndsWith (g i)) :
    (b.comparisons (operands.map f)).EndsWith
      (if operands.length = 1 then none else operands.findSome? g) := by
  match operands with
  | [] => exact endsWith_liftM (b.boolean true)
  | [_] => exact endsWith_liftM (b.boolean true)
  | first :: other :: rest =>
      have hpair : ∀ i ∈ other :: rest,
          (b.comparison (f first) (f i)).EndsWith ((g first).or (g i)) := by
        intro i hi
        have hcomparison := (hoperands first List.mem_cons_self).bind fun left =>
          (hoperands i (List.mem_cons_of_mem _ hi)).bind fun right =>
            endsWith_liftM (b.binary .equal left right)
        rwa [Option.or_none] at hcomparison
      have hchain := b.endsWith_chain .and other hpair
      rw [findSome?_or _ _ (List.cons_ne_nil _ _)] at hchain
      rw [if_neg (by simp), List.findSome?_cons, List.map_cons, List.map_cons, comparisons,
        List.map_map]
      cases hg : g first <;> simpa [hg, Function.comp_def] using hchain

theorem endsWith_join (b : Builder σ) (op : Operation) {operands : List ι}
    (hoperands : ∀ i ∈ operands, (f i).EndsWith (g i)) :
    (b.join op (operands.map f)).EndsWith
      (if op = .equal ∧ operands.length = 1 then none else operands.findSome? g) := by
  cases op with
  | and => simpa [join] using b.endsWith_chainOr (b.boolean true) .and hoperands
  | or => simpa [join] using b.endsWith_chainOr (b.boolean false) .or hoperands
  | sum => simpa [join] using b.endsWith_chainOr (b.number .zero) .add hoperands
  | equal => simpa [join] using b.endsWith_comparisons hoperands

end Js.Builder

namespace Node

theorem endsWith_compileWith (b : Js.Builder σ) (ids : Options) (n : Node) :
    (n.compileWith b ids).EndsWith (n.failure? ids) := by
  induction n with
  | missing expected =>
      rw [compileWith]
      exact endsWith_throw _
  | boolean value =>
      rw [compileWith]
      exact endsWith_liftM _
  | number value =>
      rw [compileWith]
      exact endsWith_liftM _
  | reference name =>
      rw [compileWith]
      exact endsWith_liftM _
  | unrecognized tag raw =>
      rw [compileWith]
      exact endsWith_throw _
  | function name parameters body ih =>
      have hbound := endsWith_mapM
        (fun p : Parameter => endsWith_liftM (b.binding (ids.sanitize p.name))) parameters
      rw [compileWith, failure?_function]
      have hcompiled := hbound.bind fun bound => ih.bind fun compiled =>
        (endsWith_liftM (b.binding (ids.sanitize name))).bind fun own =>
          (endsWith_liftM (b.returned compiled)).bind fun statement =>
            endsWith_liftM (b.function own bound [statement])
      simpa using hcompiled
  | operation op operands ih =>
      rw [compileWith, compileEachWith_eq_map, failure?_operation]
      exact b.endsWith_join op ih

/-- Any builder is stopped by the failure of the compilation, and by no other. -/
theorem compileWith_eq_error_iff (b : Js.Builder σ) (ids : Options) (n : Node) (s : σ)
    (cause : CompileError) :
    ((n.compileWith b ids).runFrom s).1 = .error cause ↔ n.compile ids = .error cause :=
  (endsWith_compileWith b ids n s cause).trans failure?_eq_some_iff

end Node

/-! Builders that leave no place empty. -/

namespace Js.Builder

/-- Every expression that the builder makes is there. -/
structure Proper (b : Builder σ) : Prop where
  boolean : ∀ value s, ((b.boolean value).run s).1 ≠ .absent
  number : ∀ value s, ((b.number value).run s).1 ≠ .absent
  identifier : ∀ name s, ((b.identifier name).run s).1 ≠ .absent
  binary : ∀ op left right s, ((b.binary op left right).run s).1 ≠ .absent
  function : ∀ name parameters body s, ((b.function name parameters body).run s).1 ≠ .absent

theorem proper_factory : (factory : Builder σ).Proper := by
  constructor <;> exact fun _ => nofun

end Js.Builder

namespace Building

def Makes (x : Building σ Js.Expr) : Prop := ∀ s e, (x.runFrom s).1 = .ok e → e ≠ .absent

theorem makes_liftM {x : StateM σ Js.Expr} (hx : ∀ s, (x.run s).1 ≠ .absent) :
    (liftM x : Building σ Js.Expr).Makes := by
  intro s e he
  obtain rfl : (x.run s).1 = e := Except.ok.inj he
  exact hx s

theorem makes_throw (cause : CompileError) : (throw cause : Building σ Js.Expr).Makes := by
  intro s e he
  cases he

theorem makes_bind {α : Type} (x : Building σ α) {f : α → Building σ Js.Expr}
    (hf : ∀ a, (f a).Makes) : (x >>= f).Makes := by
  intro s e he
  rw [runFrom_bind] at he
  split at he
  next a t _ => exact hf a t e he
  next => cases he

end Building

open Building (Makes makes_liftM makes_throw makes_bind)

namespace Js.Builder

variable {b : Builder σ}

theorem Proper.makes_chain (hb : b.Proper) (op : Operator) {first : Building σ Expr}
    (hfirst : first.Makes) (rest : List (Building σ Expr)) : (b.chain op first rest).Makes := by
  cases rest with
  | nil => exact hfirst
  | cons next rest =>
      exact makes_bind _ fun left => makes_bind _ fun right => makes_liftM (hb.binary op left right)

theorem Proper.makes_chainOr (hb : b.Proper) {identity : StateM σ Expr} (op : Operator)
    (hidentity : ∀ s, (identity.run s).1 ≠ .absent) {operands : List (Building σ Expr)}
    (hoperands : ∀ x ∈ operands, x.Makes) : (b.chainOr identity op operands).Makes := by
  cases operands with
  | nil => exact makes_liftM hidentity
  | cons first rest => exact hb.makes_chain op (hoperands first List.mem_cons_self) rest

theorem Proper.makes_comparisons (hb : b.Proper) (operands : List (Building σ Expr)) :
    (b.comparisons operands).Makes := by
  match operands with
  | [] => exact makes_liftM (hb.boolean true)
  | [_] => exact makes_liftM (hb.boolean true)
  | first :: other :: rest =>
      refine hb.makes_chain .and ?_ _
      exact makes_bind _ fun left => makes_bind _ fun right =>
        makes_liftM (hb.binary .equal left right)

theorem Proper.makes_join (hb : b.Proper) (op : Operation) {operands : List (Building σ Expr)}
    (hoperands : ∀ x ∈ operands, x.Makes) : (b.join op operands).Makes := by
  cases op with
  | and => exact hb.makes_chainOr .and (hb.boolean true) hoperands
  | or => exact hb.makes_chainOr .or (hb.boolean false) hoperands
  | sum => exact hb.makes_chainOr .add (hb.number .zero) hoperands
  | equal => exact hb.makes_comparisons operands

theorem Proper.makes_compileWith (hb : b.Proper) (ids : Options) (n : Node) :
    (n.compileWith b ids).Makes := by
  induction n with
  | missing expected =>
      rw [Node.compileWith]
      exact makes_throw _
  | boolean value =>
      rw [Node.compileWith]
      exact makes_liftM (hb.boolean value)
  | number value =>
      rw [Node.compileWith]
      exact makes_liftM (hb.number value)
  | reference name =>
      rw [Node.compileWith]
      exact makes_liftM (hb.identifier _)
  | unrecognized tag raw =>
      rw [Node.compileWith]
      exact makes_throw _
  | function name parameters body ih =>
      rw [Node.compileWith]
      exact makes_bind _ fun bound => makes_bind _ fun compiled => makes_bind _ fun own =>
        makes_bind _ fun statement => makes_liftM (hb.function own bound [statement])
  | operation op operands ih =>
      rw [Node.compileWith, Node.compileEachWith_eq_map]
      refine hb.makes_join op ?_
      simpa using ih

end Js.Builder

end ScriptTree
