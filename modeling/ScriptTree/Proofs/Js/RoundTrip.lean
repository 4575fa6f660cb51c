import ScriptTree.Number.Reader
import ScriptTree.Proofs.Js.Encoding
import ScriptTree.Proofs.Js.Syntax.Parser
import ScriptTree.Proofs.Js.Syntax.Spelling

/-!
Printing is undone by parsing: the source text of an expression is read as that
expression and as no other, so no two expressions have the same text.
-/

namespace ScriptTree.Js

open Syntax (Derives Spells Terminal isFree)

/-- A name of the language that is not reserved. -/
def IsName (strict : Bool) (name : ByteString) : Prop :=
  ∃ text : String, name = Text.toBytes text ∧ Syntax.Word text.toList ∧
    isFree strict text = true

/-- A name holds only what may stand in a name. -/
theorem IsName.not_mem {strict : Bool} {name : ByteString} (hname : IsName strict name) {d : Char}
    (hd : d.toNat < 0x80) (hpart : Text.isIdentifierPart d = false) :
    UInt8.ofNat d.toNat ∉ name := by
  obtain ⟨text, rfl, hword, -⟩ := hname
  have hparts : ∀ c ∈ text.toList, Text.isIdentifierPart c = true := by
    generalize text.toList = chars at hword
    cases hword with
    | mk hstart hparts =>
        refine List.forall_mem_cons.mpr ⟨?_, hparts⟩
        simp [Text.isIdentifierPart, hstart]
  intro hmem
  have hc := hparts d (Text.mem_of_mem_ofChars hd hmem)
  rw [hpart] at hc
  cases hc

namespace Expr

/-- Expressions of literals, names, the four operators and named functions. -/
inductive Built (strict : Bool) : Expr → Prop
  | boolean (value : Bool) : Built strict (.boolean value)
  | number (value : Number) : Built strict (.number value)
  | identifier {name : ByteString} (hname : IsName strict name) :
      Built strict (.identifier name)
  | binary {op : Operator} {left right : Expr} (hop : op ∈ [.and, .or, .equal, .add])
      (hleft : Built strict left) (hright : Built strict right) :
      Built strict (.binary op left right)
  | named {name : ByteString} {parameters : List ByteString} {returns : List Expr}
      (hname : IsName strict name) (hparameters : ∀ p ∈ parameters, IsName strict p)
      (hreturns : ∀ e ∈ returns, Built strict e) :
      Built strict (.named name parameters returns)

end Expr

mutual

/-- The expression with all `NaN` made one. -/
def Expr.canonical : Expr → Expr
  | .number value => .number (if value.isNaN then .nan else value)
  | .binary op left right => .binary op left.canonical right.canonical
  | .function head directives statements =>
    .function head directives (canonicalStatements statements)
  | e => e

def Statement.canonical : Statement → Statement
  | .absent => .absent
  | .returned value => .returned value.canonical

def canonicalStatements : List Statement → List Statement
  | [] => []
  | s :: rest => s.canonical :: canonicalStatements rest

end

theorem canonicalStatements_map_returned (returns : List Expr) :
    canonicalStatements (returns.map .returned) =
      (returns.map Expr.canonical).map .returned := by
  induction returns with
  | nil => rfl
  | cons e rest ih =>
      rw [List.map_cons, canonicalStatements, ih]
      rfl

theorem mem_numbersOfStatements {returns : List Expr} {e : Expr} {x : Number}
    (he : e ∈ returns) (hx : x ∈ e.numbers) :
    x ∈ numbersOfStatements (returns.map .returned) := by
  induction returns with
  | nil => cases he
  | cons first rest ih =>
      rw [List.map_cons, numbersOfStatements, List.mem_append]
      rcases List.mem_cons.mp he with rfl | he
      · exact .inl hx
      · exact .inr (ih he)

namespace Expr

theorem canonical_named (name : ByteString) (parameters : List ByteString)
    (returns : List Expr) :
    (named name parameters returns).canonical =
      named name parameters (returns.map canonical) := by
  rw [named, canonical, canonicalStatements_map_returned]
  rfl

/-- How tightly the outermost operator binds; without one, tighter than all. -/
def rank : Expr → Nat
  | binary op _ _ => op.tightness
  | _ => 5

section Printed

variable {read : String → Option Number} {strict : Bool}

/-- The text of an expression has symbols that derive the expression. -/
def Printed (read : String → Option Number) (strict : Bool) (e : Expr) : Prop :=
  ∀ depth, ∃ ts, Spells (e.print depth) ts ∧ Derives read strict e.rank ts e.canonical

theorem tightness_pos_of_mem {op : Operator} (hop : op ∈ [.and, .or, .equal, .add]) :
    0 < op.tightness := by
  revert op
  decide

/-- A text in parentheses where they are needed derives at the level of its place. -/
theorem Printed.operand {e : Expr} (hprinted : Printed read strict e)
    (hrank : 1 ≤ e.rank) {parent level : Nat} {right : Bool}
    (hlevel : e.needsParens parent right = false → level ≤ e.rank) (depth : Nat) :
    ∃ ts, Spells (parenthesize (e.needsParens parent right) (e.print depth)) ts ∧
      Derives read strict level ts e.canonical := by
  obtain ⟨ts, hspells, hderives⟩ := hprinted depth
  cases hparens : e.needsParens parent right with
  | true => exact ⟨_, hspells.parenthesize, .grouped level (hderives.mono hrank)⟩
  | false => exact ⟨ts, hspells, hderives.mono (hlevel hparens)⟩

theorem Built.rank_pos {e : Expr} (hbuilt : e.Built strict) : 1 ≤ e.rank := by
  cases hbuilt with
  | binary hop _ _ => exact tightness_pos_of_mem hop
  | _ => exact Nat.le_add_left 1 4

/-- An operand without parentheses binds as tightly as its place requires. -/
theorem Built.level_le_rank {e : Expr} {op : Operator} {right : Bool}
    (hbuilt : e.Built strict) (hop : op ∈ [.and, .or, .equal, .add])
    (hparens : e.needsParens op.precedence right = false) :
    op.tightness + right.toNat ≤ e.rank := by
  have htight := Syntax.tightness_le op
  have hright := right.toNat_le
  cases hbuilt with
  | @binary op' _ _ hop' _ _ =>
      -- the printer's precedences order the operators as the grammar does
      have hall : ∀ op ∈ [Operator.and, .or, .equal, .add],
          ∀ op' ∈ [Operator.and, .or, .equal, .add],
          (op'.precedence ≤ op.precedence ∨ op.tightness + 1 ≤ op'.tightness) ∧
            (op'.precedence < op.precedence ∨ op.tightness ≤ op'.tightness) := by
        decide
      obtain ⟨hstrict, hweak⟩ := hall op hop op' hop'
      cases right with
      | true =>
          simp only [needsParens, if_true, decide_eq_false_iff_not] at hparens
          exact hstrict.resolve_left hparens
      | false =>
          simp only [needsParens, Bool.false_eq_true, if_false,
            decide_eq_false_iff_not] at hparens
          exact hweak.resolve_left hparens
  | _ =>
      change op.tightness + right.toNat ≤ 5
      omega

theorem printed_number {x : Number}
    (hread : x.isNaN = false → read x.literal = some x) :
    (number x).Printed read strict := by
  intro depth
  change ∃ ts, Spells (Text.toBytes x.literal) ts ∧
    Derives read strict 5 ts (.number (if x.isNaN then .nan else x))
  cases hnan : x.isNaN with
  | true =>
      have hliteral : x.literal = "(0 / 0)" := by
        simp [Number.literal, Number.layOut, hnan]
      rw [hliteral]
      exact ⟨_, Syntax.spells_nan, .grouped 5 (.nan 1)⟩
  | false =>
      obtain ⟨text, hdecimal, htext⟩ := Number.exists_literal hnan
      have hvalue := hread hnan
      cases hsign : x.signbit with
      | true =>
          have hliteral : x.literal = "-" ++ String.ofList text := by
            rw [← String.toList_inj, htext, hsign]
            simp
          rw [hliteral] at hvalue
          refine ⟨[.minus, .decimal (String.ofList text)], ?_, .negative 5 hvalue⟩
          rw [Syntax.toBytes_eq, htext, hsign]
          exact Syntax.spells_minus hdecimal
      | false =>
          have hliteral : x.literal = String.ofList text := by
            rw [← String.toList_inj, htext, hsign]
            simp
          rw [hliteral] at hvalue
          refine ⟨[.decimal (String.ofList text)], ?_, .decimal 5 hvalue⟩
          rw [Syntax.toBytes_eq, htext, hsign]
          exact Syntax.spells_decimal hdecimal

theorem exists_words {names : List ByteString} (hnames : ∀ p ∈ names, IsName strict p) :
    ∃ words : List String, names = words.map Text.toBytes ∧
      (∀ w ∈ words, Syntax.Word w.toList) ∧ ∀ w ∈ words, isFree strict w = true := by
  induction names with
  | nil => exact ⟨[], rfl, nofun, nofun⟩
  | cons name rest ih =>
      obtain ⟨word, rfl, hword, hfree⟩ := hnames name (by simp)
      obtain ⟨words, rfl, hwords, hfrees⟩ := ih fun p hp => hnames p (by simp [hp])
      exact ⟨word :: words, rfl, List.forall_mem_cons.mpr ⟨hword, hwords⟩,
        List.forall_mem_cons.mpr ⟨hfree, hfrees⟩⟩

theorem Built.returnStatement_eq {e : Expr} (hbuilt : e.Built strict)
    (text : ByteString) :
    e.returnStatement text = Text.toBytes "return " ++ text ++ Text.toBytes ";" := by
  cases hbuilt <;> rfl

theorem exists_body (depth : Nat) {returns : List Expr}
    (hbuilt : ∀ e ∈ returns, e.Built strict)
    (hprinted : ∀ e ∈ returns, e.Printed read strict) :
    ∃ body : List (List Terminal × Expr),
      returns.map canonical = body.map Prod.snd ∧
        (∀ s ∈ body, Derives read strict 1 s.1 s.2) ∧
        List.Forall₂ Spells (printStatements depth (returns.map .returned))
          (body.map fun s => Syntax.returnSymbols s.1) := by
  induction returns with
  | nil => exact ⟨[], rfl, nofun, .nil⟩
  | cons e rest ih =>
      have he := hbuilt e (by simp)
      obtain ⟨ts, hspells, hderives⟩ := hprinted e (by simp) depth
      obtain ⟨body, hvalues, hall, hlines⟩ :=
        ih (fun e' he' => hbuilt e' (by simp [he']))
          (fun e' he' => hprinted e' (by simp [he']))
      refine ⟨(ts, e.canonical) :: body, by simp [hvalues],
        List.forall_mem_cons.mpr ⟨hderives.mono he.rank_pos, hall⟩, ?_⟩
      rw [List.map_cons, List.map_cons, printStatements, Statement.print,
        he.returnStatement_eq]
      exact .cons hspells.returned hlines

theorem printed_named {name : ByteString} {parameters : List ByteString}
    {returns : List Expr} (hname : IsName strict name)
    (hparameters : ∀ p ∈ parameters, IsName strict p)
    (hbuilt : ∀ e ∈ returns, e.Built strict)
    (hprinted : ∀ e ∈ returns, e.Printed read strict) :
    (named name parameters returns).Printed read strict := by
  intro depth
  obtain ⟨word, rfl, hword, hfree⟩ := hname
  obtain ⟨words, rfl, hwords, hfrees⟩ := exists_words hparameters
  obtain ⟨body, hvalues, hderives, hlines⟩ := exists_body (depth + 1) hbuilt hprinted
  have hbraces := Syntax.spells_braces depth hlines
  rw [← List.flatMap_def] at hbraces
  refine ⟨_, hbraces.function hword hwords, ?_⟩
  rw [canonical_named, hvalues]
  exact .function 5 hfree hfrees hderives

theorem printed_of_built {e : Expr} (hbuilt : e.Built strict)
    (hread : ∀ x ∈ e.numbers, x.isNaN = false → read x.literal = some x) :
    e.Printed read strict := by
  induction hbuilt with
  | boolean value =>
      intro depth
      cases value with
      | true =>
          have hword := @Syntax.word_of_all 't' ['r', 'u', 'e'] (by decide) (by decide)
          exact ⟨_, Syntax.spells_word hword (by decide), .true 5⟩
      | false =>
          have hword := @Syntax.word_of_all 'f' ['a', 'l', 's', 'e'] (by decide) (by decide)
          exact ⟨_, Syntax.spells_word hword (by decide), .false 5⟩
  | number x => exact printed_number (hread x (by simp [numbers]))
  | identifier hname =>
      obtain ⟨text, rfl, hword, hfree⟩ := hname
      intro depth
      exact ⟨_, Syntax.spells_word hword (Syntax.ne_of_isFree hfree (by decide +kernel)),
        .name 5 hfree⟩
  | @binary op left right hop hleft hright ihleft ihright =>
      intro depth
      have hl := ihleft fun x hx => hread x (by simp [numbers, hx])
      have hr := ihright fun x hx => hread x (by simp [numbers, hx])
      obtain ⟨ls, hlspells, hlderives⟩ :=
        hl.operand hleft.rank_pos (hleft.level_le_rank hop) depth
      obtain ⟨rs, hrspells, hrderives⟩ :=
        hr.operand hright.rank_pos (hright.level_le_rank hop) depth
      have hpos := tightness_pos_of_mem hop
      exact ⟨_, .binary hpos hlspells hrspells,
        .binary hpos (Nat.le_refl _) hlderives hrderives⟩
  | @named name parameters returns hname hparameters hreturns ih =>
      apply printed_named hname hparameters hreturns
      intro e he
      exact ih e he fun x hx => hread x (mem_numbersOfStatements he hx)

end Printed

end Expr

/-! From the bytes of the source text back to the expression. -/

theorem dropFinalBreaks_ofChars {text : List Char}
    (hlast : text.getLast? ≠ some '\n') :
    dropFinalBreaks (Text.ofChars text) = Text.ofChars text :=
  dropFinalBreaks_eq_self (Text.getLast?_ofChars_ne (by decide) hlast)

theorem readSource_of_spells {read : String → Option Number} {strict : Bool} {e : Expr}
    {ts : List Terminal} (hspells : Spells (e.print 0) ts) :
    Syntax.readSource read strict e.source = Syntax.parse read strict ts := by
  obtain ⟨text, hprint, hreads, hlast⟩ := hspells
  have hsource : e.source = Text.ofChars text := by
    rw [Expr.source, Tree.source, Tree.print, hprint, dropFinalBreaks_ofChars hlast]
  have hscan : Syntax.scanAll false text = ts := by
    have hall := hreads false [] Syntax.separate_nil
    rwa [List.append_nil, Syntax.scanAll.eq_def false [], List.append_nil] at hall
  rw [Syntax.readSource, hsource, ByteString.text?, Text.ofBytes?_ofChars]
  simp [hscan]

namespace Expr

theorem readSource_of_built {read : String → Option Number} {strict : Bool} {e : Expr}
    (hbuilt : e.Built strict)
    (hread : ∀ x ∈ e.numbers, x.isNaN = false → read x.literal = some x) :
    Syntax.readSource read strict e.source = some e.canonical := by
  obtain ⟨ts, hspells, hderives⟩ := printed_of_built hbuilt hread 0
  rw [readSource_of_spells hspells, Syntax.parse_eq_some_iff]
  exact hderives.mono hbuilt.rank_pos

/-- The source text of an expression is read as the expression, all `NaN` being one, and
the grammar gives it no other meaning; an expression with the same text is the same. -/
theorem readSource_source (read : String → Option Number) (strict : Bool) (e : Expr)
    (hbuilt : e.Built strict)
    (hread : ∀ x ∈ e.numbers, x.isNaN = false → read x.literal = some x) :
    Syntax.readSource read strict e.source = some e.canonical ∧
      (∀ e', Syntax.Denotes read strict e.source e' ↔ e' = e.canonical) ∧
      ∀ e' : Expr, e'.Built strict →
        (∀ x ∈ e'.numbers, x.isNaN = false → read x.literal = some x) →
        e'.source = e.source → e'.canonical = e.canonical := by
  have hsource := readSource_of_built hbuilt hread
  refine ⟨hsource, fun e' => ?_, fun e' hbuilt' hread' hsame => ?_⟩
  · rw [← Syntax.readSource_eq_some_iff, hsource, Option.some.injEq]
    exact eq_comm
  · have hother := readSource_of_built hbuilt' hread'
    rw [hsame, hsource] at hother
    exact (Option.some.inj hother).symm

/-- A function with operands of every kind. -/
def nestedOperands : Expr :=
  named "f" ["x", "$y"] [
    binary .and (binary .or (identifier "x") (number (.ofDecimal true 15 (-1))))
      (binary .add (identifier "$y") (number (.ofDecimal true 1 21))),
    binary .equal (named "g" [] []) (number .nan)]

theorem readSource_source_nestedOperands :
    Syntax.readSource (fun text => (Number.read? text).map (·.value)) true
      nestedOperands.source = some nestedOperands.canonical := by
  have hx : IsName true "x" :=
    ⟨"x", rfl, Syntax.word_of_all (by decide) (by decide), by decide +kernel⟩
  have hy : IsName true "$y" :=
    ⟨"$y", rfl, Syntax.word_of_all (by decide) (by decide), by decide +kernel⟩
  have hf : IsName true "f" :=
    ⟨"f", rfl, Syntax.word_of_all (by decide) (by decide), by decide +kernel⟩
  have hg : IsName true "g" :=
    ⟨"g", rfl, Syntax.word_of_all (by decide) (by decide), by decide +kernel⟩
  have hbuilt : nestedOperands.Built true := by
    grind [nestedOperands, Built]
  refine (readSource_source _ true nestedOperands hbuilt ?_).1
  decide +kernel

end Expr

end ScriptTree.Js
