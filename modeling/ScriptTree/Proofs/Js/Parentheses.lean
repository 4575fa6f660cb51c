import ScriptTree.Proofs.Js.RoundTrip
import ScriptTree.Proofs.Text.Parentheses

/-!
No parentheses in source text are superfluous. What is left of the text of an expression
without a pair of parentheses is the text of another expression, whose operators group as
they do without the pair; as the text of an expression is read as that expression, the
meaning of the text has changed.
-/

namespace ScriptTree.Js

open Text (Balanced Unwraps)

def Operator.between (op : Operator) : ByteString := Text.toBytes (" " ++ op.symbol ++ " ")

namespace Expr

/-- Expressions of names, truth values and the four operators. -/
inductive Formula (strict : Bool) : Expr → Prop
  | boolean (value : Bool) : Formula strict (.boolean value)
  | identifier {name : ByteString} (hname : IsName strict name) :
      Formula strict (.identifier name)
  | binary {op : Operator} {left right : Expr} (hop : op ∈ [.and, .or, .equal, .add])
      (hleft : Formula strict left) (hright : Formula strict right) :
      Formula strict (.binary op left right)

def operandText (op : Operator) (right : Bool) (e : Expr) : ByteString :=
  parenthesize (e.needsParens op.precedence right) (e.print 0)

/-- The expression whose text goes on with an operator and its right operand: the operator
takes the operands at the end that bind at least as tightly. -/
def followedBy (op : Operator) (right : Expr) : Expr → Expr
  | binary o l r =>
    if o.tightness < op.tightness then
      binary o l (if r.rank ≤ o.tightness then binary op r right else followedBy op right r)
    else binary op (binary o l r) right
  | e => binary op e right

/-- The expression whose text starts with a left operand and its operator: the operator
takes the operands at the beginning that bind more tightly. -/
def precededBy (left : Expr) (op : Operator) : Expr → Expr
  | binary o l r =>
    if o.tightness ≤ op.tightness then
      followedBy o r (if l.rank < o.tightness then binary op left l else precededBy left op l)
    else binary op left (binary o l r)
  | e => binary op left e

variable {strict right : Bool} {op : Operator} {e l r : Expr}

theorem print_binary (op : Operator) (l r : Expr) :
    (binary op l r).print 0 =
      l.operandText op false ++ op.between ++ r.operandText op true := by
  rw [print]
  rfl

theorem Formula.built (hformula : e.Formula strict) : e.Built strict := by
  induction hformula with
  | boolean value => exact .boolean value
  | identifier hname => exact .identifier hname
  | binary hop _ _ ihleft ihright => exact .binary hop ihleft ihright

theorem Formula.numbers_eq (hformula : e.Formula strict) : e.numbers = [] := by
  induction hformula with
  | boolean _ => rfl
  | identifier _ => rfl
  | binary _ _ _ ihleft ihright => rw [numbers, ihleft, ihright]; rfl

theorem Formula.canonical_eq (hformula : e.Formula strict) : e.canonical = e := by
  induction hformula with
  | boolean _ => rfl
  | identifier _ => rfl
  | binary _ _ _ ihleft ihright => rw [canonical, ihleft, ihright]

/-! When operands have parentheses. -/

theorem Formula.needsParens_eq (hformula : e.Formula strict)
    (hop : op ∈ [.and, .or, .equal, .add]) (right : Bool) :
    e.needsParens op.precedence right = decide (e.rank < op.tightness + right.toNat) := by
  cases hformula with
  | boolean _ | identifier _ =>
      have htight := Syntax.tightness_le op
      have hright := right.toNat_le
      exact (decide_eq_false (show ¬ 5 < op.tightness + right.toNat by omega)).symm
  | @binary o _ _ ho _ _ =>
      -- the printer's precedences order the operators as the grammar does
      have hall : ∀ op ∈ [Operator.and, .or, .equal, .add],
          ∀ o ∈ [Operator.and, .or, .equal, .add],
          (o.precedence ≤ op.precedence ↔ o.tightness < op.tightness + 1) ∧
            (o.precedence < op.precedence ↔ o.tightness < op.tightness) := by
        decide
      obtain ⟨hweak, hstrict⟩ := hall op hop o ho
      cases right with
      | true => exact decide_eq_decide.mpr hweak
      | false => exact decide_eq_decide.mpr hstrict

theorem Formula.operandText_of_lt (hformula : e.Formula strict)
    (hop : op ∈ [.and, .or, .equal, .add]) (right : Bool)
    (hrank : e.rank < op.tightness + right.toNat) :
    e.operandText op right = parenthesize true (e.print 0) := by
  rw [operandText, hformula.needsParens_eq hop, decide_eq_true hrank]

theorem Formula.operandText_of_le (hformula : e.Formula strict)
    (hop : op ∈ [.and, .or, .equal, .add]) (right : Bool)
    (hrank : op.tightness + right.toNat ≤ e.rank) :
    e.operandText op right = e.print 0 := by
  rw [operandText, hformula.needsParens_eq hop, decide_eq_false (Nat.not_lt.mpr hrank)]
  rfl

theorem Formula.operandText_of_atom (hformula : e.Formula strict)
    (hop : op ∈ [.and, .or, .equal, .add]) (hatom : e.rank = 5) (right : Bool) :
    e.operandText op right = e.print 0 := by
  have htight := Syntax.tightness_le op
  have hright := right.toNat_le
  exact hformula.operandText_of_le hop right (by omega)

/-! An operand at the end or at the beginning of a text. -/

theorem rank_followedBy (op : Operator) (right e : Expr) :
    (followedBy op right e).rank = min e.rank op.tightness := by
  have htight := Syntax.tightness_le op
  cases e with
  | binary o l r =>
      rw [followedBy]
      split
      · exact (Nat.min_eq_left (Nat.le_of_lt ‹_›)).symm
      · exact (Nat.min_eq_right (Nat.not_lt.mp ‹_›)).symm
  | _ => exact (Nat.min_eq_right (Nat.le_succ_of_le htight)).symm

theorem formula_followedBy (hformula : e.Formula strict)
    (hop : op ∈ [.and, .or, .equal, .add]) (hright : r.Formula strict) :
    (followedBy op r e).Formula strict := by
  induction hformula with
  | boolean value => exact .binary hop (.boolean value) hright
  | identifier hname => exact .binary hop (.identifier hname) hright
  | binary ho hl hr _ ih =>
      rw [followedBy]
      split
      · split
        · exact .binary ho hl (.binary hop hr hright)
        · exact .binary ho hl ih
      · exact .binary hop (.binary ho hl hr) hright

theorem print_followedBy (hformula : e.Formula strict)
    (hop : op ∈ [.and, .or, .equal, .add]) (hright : r.Formula strict) :
    (followedBy op r e).print 0 = e.print 0 ++ op.between ++ r.operandText op true := by
  induction hformula with
  | boolean value =>
      have hvalue : Formula strict (.boolean value) := .boolean value
      have hatom := hvalue.operandText_of_atom hop rfl false
      rw [followedBy, print_binary, hatom]
      nofun
  | identifier hname =>
      have hatom := (Formula.identifier hname).operandText_of_atom hop rfl false
      rw [followedBy, print_binary, hatom]
      nofun
  | @binary o l m ho hl hm _ ih =>
      rw [followedBy]
      split
      next hlt =>
        split
        next hle =>
          have hlast := (Formula.binary hop hm hright).operandText_of_le ho true hlt
          have hinner := hm.operandText_of_lt ho true (Nat.lt_succ_of_le hle)
          have hbetween := hm.operandText_of_lt hop false
            (Nat.lt_of_le_of_lt hle hlt)
          rw [print_binary, hlast, print_binary, print_binary, hinner, hbetween]
          simp only [List.append_assoc]
        next hle =>
          have hrank : o.tightness + 1 ≤ (followedBy op r m).rank := by
            rw [rank_followedBy]
            omega
          have hlast := (formula_followedBy hm hop hright).operandText_of_le ho true hrank
          have hinner := hm.operandText_of_le ho true (Nat.lt_of_not_le hle)
          rw [print_binary, hlast, ih, print_binary, hinner]
          simp only [List.append_assoc]
      next hlt =>
        have hfirst := (Formula.binary ho hl hm).operandText_of_le hop false
          (Nat.not_lt.mp hlt)
        rw [print_binary, hfirst]

theorem formula_precededBy (hformula : e.Formula strict)
    (hop : op ∈ [.and, .or, .equal, .add]) (hleft : l.Formula strict) :
    (precededBy l op e).Formula strict := by
  induction hformula with
  | boolean value => exact .binary hop hleft (.boolean value)
  | identifier hname => exact .binary hop hleft (.identifier hname)
  | binary ho hm hr ih _ =>
      rw [precededBy]
      split
      · split
        · exact formula_followedBy (.binary hop hleft hm) ho hr
        · exact formula_followedBy ih ho hr
      · exact .binary hop hleft (.binary ho hm hr)

theorem rank_precededBy_le (left : Expr) (op : Operator) (e : Expr) :
    (precededBy left op e).rank ≤ op.tightness := by
  cases e with
  | binary o l r =>
      rw [precededBy]
      split
      next hle =>
        rw [rank_followedBy]
        exact Nat.le_trans (Nat.min_le_right _ _) hle
      next => exact Nat.le_refl _
  | _ => exact Nat.le_refl _

theorem print_precededBy (hformula : e.Formula strict)
    (hop : op ∈ [.and, .or, .equal, .add]) (hleft : l.Formula strict) :
    (precededBy l op e).print 0 = l.operandText op false ++ op.between ++ e.print 0 := by
  induction hformula with
  | boolean value =>
      have hvalue : Formula strict (.boolean value) := .boolean value
      have hatom := hvalue.operandText_of_atom hop rfl true
      rw [precededBy, print_binary, hatom]
      nofun
  | identifier hname =>
      have hatom := (Formula.identifier hname).operandText_of_atom hop rfl true
      rw [precededBy, print_binary, hatom]
      nofun
  | @binary o m r ho hm hr ih _ =>
      rw [precededBy]
      split
      next hle =>
        split
        next hlt =>
          have hfirst := hm.operandText_of_lt ho false hlt
          have hinner := hm.operandText_of_lt hop true
            (Nat.lt_succ_of_le (Nat.le_trans (Nat.le_of_lt hlt) hle))
          rw [print_followedBy (.binary hop hleft hm) ho hr, print_binary, print_binary,
            hfirst, hinner]
          simp only [List.append_assoc]
        next hlt =>
          have hfirst := hm.operandText_of_le ho false (Nat.not_lt.mp hlt)
          rw [print_followedBy (formula_precededBy hm hop hleft) ho hr, ih, print_binary, hfirst]
          simp only [List.append_assoc]
      next hle =>
        have hlast := (Formula.binary ho hm hr).operandText_of_le hop true
          (Nat.lt_of_not_le hle)
        rw [print_binary, hlast]

/-! Parentheses of a text. -/

theorem parenthesis_not_mem_between (hop : op ∈ [.and, .or, .equal, .add]) :
    40 ∉ op.between ∧ 41 ∉ op.between := by
  revert op
  decide

theorem parenthesis_not_mem_of_isName {name : ByteString} (hname : IsName strict name) :
    40 ∉ name ∧ 41 ∉ name :=
  ⟨hname.not_mem (d := '(') (by decide) (by decide),
    hname.not_mem (d := ')') (by decide) (by decide)⟩

theorem Formula.parenthesis_not_mem_print (hformula : e.Formula strict) (hrank : 5 ≤ e.rank) :
    40 ∉ e.print 0 ∧ 41 ∉ e.print 0 := by
  cases hformula with
  | boolean value =>
      cases value <;> decide
  | identifier hname =>
      rw [print]
      exact parenthesis_not_mem_of_isName hname
  | @binary o _ _ _ _ _ =>
      have htight := Syntax.tightness_le o
      exact absurd hrank (Nat.not_le.mpr (Nat.lt_succ_of_le htight))

theorem balanced_operandText (hbalanced : Balanced (e.print 0)) (op : Operator) (right : Bool) :
    Balanced (e.operandText op right) := by
  rw [operandText, parenthesize]
  split
  · exact hbalanced.enclosed
  · exact hbalanced

theorem Formula.balanced (hformula : e.Formula strict) : Balanced (e.print 0) := by
  induction hformula with
  | boolean value =>
      have hvalue : Formula strict (.boolean value) := .boolean value
      obtain ⟨hopen, hclose⟩ := hvalue.parenthesis_not_mem_print (Nat.le_refl 5)
      exact Text.balanced_of_not_mem hopen hclose
  | identifier hname =>
      obtain ⟨hopen, hclose⟩ := parenthesis_not_mem_of_isName hname
      rw [print]
      exact Text.balanced_of_not_mem hopen hclose
  | binary hop _ _ ihleft ihright =>
      obtain ⟨hopen, hclose⟩ := parenthesis_not_mem_between hop
      rw [print_binary]
      exact ((balanced_operandText ihleft _ _).append
        (Text.balanced_of_not_mem hopen hclose)).append (balanced_operandText ihright _ _)

/-- What is left of an operand without a pair of parentheses is the text of an expression that
stands there without parentheses, or an operand again. -/
theorem Formula.exists_operand_of_unwraps (hformula : e.Formula strict)
    (hop : op ∈ [.and, .or, .equal, .add]) {text : ByteString}
    (hprint : ∀ {text}, Unwraps (e.print 0) text →
      ∃ e' : Expr, e'.Formula strict ∧ e'.rank ≤ e.rank ∧ e'.print 0 = text)
    (hunwraps : Unwraps (e.operandText op right) text) :
    ∃ e' : Expr, e'.Formula strict ∧ (e'.print 0 = text ∨ e'.operandText op right = text) := by
  by_cases hrank : e.rank < op.tightness + right.toNat
  · rw [hformula.operandText_of_lt hop right hrank] at hunwraps
    rcases hunwraps.enclosed_cases hformula.balanced with rfl | ⟨inner, hinner, rfl⟩
    · exact ⟨e, hformula, .inl rfl⟩
    · obtain ⟨e', hformula', hle, rfl⟩ := hprint hinner
      have htext := hformula'.operandText_of_lt hop right (Nat.lt_of_le_of_lt hle hrank)
      exact ⟨e', hformula', .inr htext⟩
  · rw [hformula.operandText_of_le hop right (Nat.not_lt.mp hrank)] at hunwraps
    obtain ⟨e', hformula', -, hprint'⟩ := hprint hunwraps
    exact ⟨e', hformula', .inl hprint'⟩

/-- What is left of the text of an expression without a pair of parentheses is the text of an
expression that binds no more tightly, so that parentheses around it are needed as before. -/
theorem Formula.exists_print_of_unwraps (hformula : e.Formula strict) {text : ByteString}
    (hunwraps : Unwraps (e.print 0) text) :
    ∃ e' : Expr, e'.Formula strict ∧ e'.rank ≤ e.rank ∧ e'.print 0 = text := by
  induction hformula generalizing text with
  | boolean value =>
      have hvalue : Formula strict (.boolean value) := .boolean value
      have hopen := hvalue.parenthesis_not_mem_print (Nat.le_refl 5)
      exact absurd hunwraps.mem hopen.1
  | identifier hname =>
      have hopen := Formula.parenthesis_not_mem_print (.identifier hname) (Nat.le_refl 5)
      exact absurd hunwraps.mem hopen.1
  | @binary op l r hop hleft hright ihleft ihright =>
      obtain ⟨hopen, hclose⟩ := parenthesis_not_mem_between hop
      have hfront := balanced_operandText hleft.balanced op false
      have hmiddle := Text.balanced_of_not_mem hopen hclose
      rw [print_binary] at hunwraps
      rcases hunwraps.append_cases (hfront.append hmiddle) with
        ⟨front, hpair, rfl⟩ | ⟨back, hpair, rfl⟩
      · rcases hpair.append_cases hfront with ⟨first, hfirst, rfl⟩ | ⟨_, hnone, -⟩
        · obtain ⟨l', hleft', hprint⟩ := hleft.exists_operand_of_unwraps hop ihleft hfirst
          rcases hprint with rfl | rfl
          · refine ⟨followedBy op r l', formula_followedBy hleft' hop hright, ?_,
              print_followedBy hleft' hop hright⟩
            rw [rank_followedBy]
            exact Nat.min_le_right _ _
          · exact ⟨.binary op l' r, .binary hop hleft' hright, Nat.le_refl _, print_binary op l' r⟩
        · exact absurd hnone.mem hopen
      · obtain ⟨r', hright', hprint⟩ := hright.exists_operand_of_unwraps hop ihright hpair
        rcases hprint with rfl | rfl
        · exact ⟨precededBy l op r', formula_precededBy hright' hop hleft,
            rank_precededBy_le l op r', print_precededBy hright' hop hleft⟩
        · exact ⟨.binary op l r', .binary hop hleft hright', Nat.le_refl _, print_binary op l r'⟩

/-! The source text. -/

theorem Formula.readable (hformula : e.Formula strict) (read : String → Option Number) :
    ∀ x ∈ e.numbers, x.isNaN = false → read x.literal = some x := by
  rw [hformula.numbers_eq]
  nofun

theorem Formula.source_eq (hformula : e.Formula strict) : e.source = e.print 0 := by
  have hprinted : e.Printed (fun _ => none) strict :=
    printed_of_built hformula.built (hformula.readable fun _ => none)
  obtain ⟨ts, ⟨text, hprint, -, hlast⟩, -⟩ := hprinted 0
  rw [source, Tree.source, Tree.print, hprint, dropFinalBreaks_ofChars hlast]

theorem Formula.readSource_eq (hformula : e.Formula strict) (read : String → Option Number) :
    Syntax.readSource read strict e.source = some e := by
  rw [readSource_of_built hformula.built (hformula.readable read), hformula.canonical_eq]

/-- No pair of parentheses in the source text of an expression of names, truth values and
operators is superfluous: what is left of the text without the pair is read as another expression,
of which it is the source text. -/
theorem readSource_of_unwraps (read : String → Option Number) (strict : Bool) (e : Expr)
    (hformula : e.Formula strict) (text : ByteString) (hunwraps : Unwraps e.source text) :
    ∃ e' : Expr, e'.Formula strict ∧ e'.source = text ∧
      Syntax.readSource read strict text = some e' ∧ e' ≠ e := by
  have hshorter := hunwraps.length_eq
  rw [hformula.source_eq] at hunwraps
  obtain ⟨e', hformula', -, hprint⟩ := hformula.exists_print_of_unwraps hunwraps
  have hsource : e'.source = text := by rw [hformula'.source_eq, hprint]
  refine ⟨e', hformula', hsource, hsource ▸ hformula'.readSource_eq read, ?_⟩
  rintro rfl
  rw [hsource] at hshorter
  omega

/-- Operands in parentheses on both sides of an operator. -/
def groupedOperands : Expr :=
  binary .and (binary .or (identifier "a") (identifier "$b"))
    (binary .and (identifier "c") (boolean true))

theorem readSource_of_unwraps_groupedOperands :
    groupedOperands.source = Text.toBytes "(a || $b) && (c && true)" ∧
      ∃ e' : Expr, e'.Formula true ∧ e'.source = Text.toBytes "(a || $b) && c && true" ∧
        Syntax.readSource (fun _ => none) true (Text.toBytes "(a || $b) && c && true") = some e' ∧
        e' ≠ groupedOperands := by
  have ha : IsName true "a" :=
    ⟨"a", rfl, Syntax.word_of_all (by decide) (by decide), by decide +kernel⟩
  have hb : IsName true "$b" :=
    ⟨"$b", rfl, Syntax.word_of_all (by decide) (by decide), by decide +kernel⟩
  have hc : IsName true "c" :=
    ⟨"c", rfl, Syntax.word_of_all (by decide) (by decide), by decide +kernel⟩
  have hformula : groupedOperands.Formula true := by
    grind [groupedOperands, Formula]
  have hsource : groupedOperands.source = Text.toBytes "(a || $b) && (c && true)" := by
    decide
  refine ⟨hsource, readSource_of_unwraps (fun _ => none) true groupedOperands hformula _ ?_⟩
  rw [hsource]
  have htext : Text.toBytes "(a || $b) && (c && true)" =
      Text.toBytes "(a || $b) && " ++ 40 :: (Text.toBytes "c && true" ++ 41 :: []) := by decide
  have hrest : Text.toBytes "(a || $b) && c && true" =
      Text.toBytes "(a || $b) && " ++ (Text.toBytes "c && true" ++ []) := by decide
  exact .of_eq (by decide) htext hrest

end Expr

end ScriptTree.Js
