import ScriptTree.Js.Term.Parser
import ScriptTree.Proofs.Js.Layout
import ScriptTree.Proofs.Js.RoundTrip
import Mathlib.Data.List.TakeWhile

/-!
Texts that begin like a declaration. Source text that begins with the keyword of a function is read
as a declaration, and other text as a value. Only functions are written like that, because a
function has parentheses wherever it is an operand.
-/

namespace ScriptTree.Js

/-- No declaration begins with the text, also not where a blank and more follow it. -/
def Foreign (text : ByteString) : Prop :=
  ∀ rest, ¬ Text.toBytes "function " <+: text ++ 32 :: rest

section Foreign

variable {text : ByteString}

theorem foreign_cons {b : UInt8} (hb : b ≠ 102) (text : ByteString) : Foreign (b :: text) := by
  rintro rest ⟨tail, htail⟩
  exact hb (List.cons.inj htail).1.symm

theorem foreign_of_not_mem (htext : 102 ∉ text) : Foreign text := by
  cases text with
  | nil =>
      rintro rest ⟨tail, htail⟩
      exact absurd (List.cons.inj htail).1 (by decide)
  | cons b rest => exact foreign_cons (fun hb => htext (hb ▸ List.mem_cons_self)) rest

theorem takeWhile_append_blank (hblank : 32 ∉ text) (rest : ByteString) :
    (text ++ 32 :: rest).takeWhile (· != 32) = text := by
  have htext : ∀ b ∈ text, (b != 32) = true := by
    intro b hb
    exact bne_iff_ne.mpr fun heq => hblank (heq ▸ hb)
  rw [List.takeWhile_append_of_pos htext, List.takeWhile_cons_of_neg (by decide), List.append_nil]

theorem foreign_of_word (hblank : 32 ∉ text) (hword : text ≠ Text.toBytes "function") :
    Foreign text := by
  rintro rest ⟨tail, htail⟩
  have hkeyword : Text.toBytes "function" ++ 32 :: tail = text ++ 32 :: rest := htail
  rw [← takeWhile_append_blank hblank rest, ← hkeyword, takeWhile_append_blank (by decide)]
    at hword
  exact hword rfl

theorem Foreign.append (h : Foreign text) (rest : ByteString) : Foreign (text ++ 32 :: rest) := by
  intro more
  rw [List.append_assoc, List.cons_append]
  exact h _

theorem Foreign.not_prefix (h : Foreign text) : ¬ Text.toBytes "function " <+: text :=
  fun hbegins => h [] (hbegins.trans (List.prefix_append _ _))

end Foreign

/-! Breaks at the end of a text. -/

theorem exists_dropFinalBreaks (text : ByteString) :
    ∃ breaks, text = dropFinalBreaks text ++ breaks ∧ ∀ b ∈ breaks, b = 10 := by
  refine ⟨(text.reverse.takeWhile (· = 10)).reverse, ?_, fun b hb => ?_⟩
  · rw [dropFinalBreaks, ← List.reverse_append, List.takeWhile_append_dropWhile,
      List.reverse_reverse]
  · have hbreak := List.mem_takeWhile_imp (List.mem_reverse.mp hb)
    exact of_decide_eq_true hbreak

theorem prefix_dropFinalBreaks_iff {first text : ByteString} (hfirst : Unbroken first) :
    first <+: dropFinalBreaks text ↔ first <+: text := by
  obtain ⟨breaks, htext, hbreaks⟩ := exists_dropFinalBreaks text
  have hkept : dropFinalBreaks text <+: text := ⟨breaks, htext.symm⟩
  refine ⟨fun h => h.trans hkept, fun h => ?_⟩
  rcases List.prefix_or_prefix_of_prefix h hkept with hshort | ⟨more, hmore⟩
  · exact hshort
  -- Otherwise the text would go on with breaks where `first` has none.
  · obtain ⟨tail, htail⟩ := h
    have hrest : more ++ tail = breaks := by
      rw [← hmore, List.append_assoc] at htail
      exact List.append_cancel_left (htail.trans htext)
    cases more with
    | nil => exact ⟨[], by rw [← hmore, List.append_nil, List.append_nil]⟩
    | cons b more =>
        have hb : b = 10 := hbreaks b (hrest ▸ List.mem_cons_self)
        exact absurd (hmore ▸ List.mem_append_right _ (hb ▸ List.mem_cons_self)) hfirst

namespace Expr

def isFunction : Expr → Bool
  | function _ _ _ | bodiless _ => true
  | absent | boolean _ | number _ | identifier _ | binary _ _ _ => false

theorem isFunction_of_needsParens_eq_false {e : Expr} {parent : Nat} {right : Bool}
    (hparens : e.needsParens parent right = false) : e.isFunction = false := by
  cases e with
  | function _ _ _ | bodiless _ => cases hparens
  | _ => rfl

variable {isName : ByteString → Prop} {isOperator : Operator → Prop} {e : Expr}

/-- What is no function begins with a bracket, a sign, a digit or a name. -/
theorem Assembled.foreign
    (hnames : ∀ name, isName name → 32 ∉ name ∧ name ≠ Text.toBytes "function")
    (he : e.Assembled isName isOperator) (hfunction : e.isFunction = false) (depth : Nat) :
    Foreign (e.print depth) := by
  induction he with
  | boolean value =>
      have hword : ∀ word ∈ ["true", "false"], Foreign (Text.toBytes word) := by
        intro word hmem
        rcases List.mem_pair.mp hmem with rfl | rfl
        · exact foreign_of_word (by decide) (by decide)
        · exact foreign_of_word (by decide) (by decide)
      exact hword (if value then "true" else "false") (by cases value <;> decide)
  | number value =>
      refine foreign_of_not_mem fun hmem => ?_
      have hc := Text.mem_of_mem_ofChars (d := 'f') (by decide) hmem
      exact absurd (Number.mem_literal hc) (by decide)
  | identifier hname => exact foreign_of_word (hnames _ hname).1 (hnames _ hname).2
  | @binary op left right _ _ _ ihleft _ =>
      have hsymbol : Text.toBytes (" " ++ op.symbol ++ " ") =
          32 :: Text.toBytes (op.symbol ++ " ") := by
        rw [String.append_assoc, Text.toBytes_append]
        rfl
      rw [print, hsymbol, List.append_assoc, List.cons_append]
      -- The left operand decides. It is in parentheses if it is a function.
      refine Foreign.append ?_ _
      cases hparens : left.needsParens op.precedence false with
      | true => exact foreign_cons (by decide) _
      | false => exact ihleft (isFunction_of_needsParens_eq_false hparens)
  | named _ _ _ _ => cases hfunction

theorem prefix_print_named (name : ByteString) (parameters : List ByteString)
    (returns : List Expr) (depth : Nat) :
    Text.toBytes "function " <+: (named name parameters returns).print depth := by
  have hword : Text.toBytes "function" ++ Text.toBytes (if false then "*" else "") ++
      (Text.toBytes " " ++ name) = Text.toBytes "function " ++ name := rfl
  simp only [print_named, Head.print, hword, List.append_assoc]
  exact List.prefix_append _ _

end Expr

theorem IsName.ne_function {strict : Bool} {name : ByteString} (hname : IsName strict name) :
    32 ∉ name ∧ name ≠ Text.toBytes "function" := by
  refine ⟨hname.not_mem (d := ' ') (by decide) (by decide), ?_⟩
  obtain ⟨text, rfl, -, hfree⟩ := hname
  intro heq
  rw [Text.eq_of_toBytes heq] at hfree
  revert hfree
  cases strict <;> decide +kernel

namespace Expr

variable {strict : Bool} {e : Expr}

/-- The source text of an expression begins like a declaration exactly if the expression is a
function. So exactly functions are read as they are, and all others as the value of a variable. -/
theorem declares_source_iff (he : e.Assembled (IsName strict) fun _ => True) :
    (Text.toBytes "function " <+: e.source ↔ e.isFunction = true) ∧
      Code.declares e.source.text = e.isFunction ∧
      Code.script e.source.text =
        if e.isFunction then e.source.text ++ "\n"
        else Code.holder ++ e.source.text ++ ";\n" := by
  have hbegins : Text.toBytes "function " <+: e.source ↔ e.isFunction = true := by
    have hsource : e.source = dropFinalBreaks (e.print 0) := rfl
    rw [hsource, prefix_dropFinalBreaks_iff (by decide)]
    cases hfunction : e.isFunction with
    | true =>
        refine iff_of_true ?_ rfl
        cases he with
        | named _ _ _ => exact prefix_print_named _ _ _ 0
        | _ => cases hfunction
    | false =>
        have hforeign := he.foreign (fun _ => IsName.ne_function) hfunction 0
        exact iff_of_false hforeign.not_prefix Bool.false_ne_true
  have hdeclares : Code.declares e.source.text = e.isFunction := by
    have htext : e.source.text.toList = Text.chars e.source := String.toList_ofList
    have hascii : ∀ c ∈ "function ".toList, c.toNat < 0x80 := by simp
    rw [Bool.eq_iff_iff, ← hbegins, Code.declares, List.isPrefixOf_iff_prefix, htext,
      Text.prefix_chars_iff hascii]
    rfl
  refine ⟨hbegins, hdeclares, ?_⟩
  rw [Code.script, hdeclares]

/-! A function at the left end of four operators. -/

def leftmostFunction : Expr :=
  binary .or (binary .and (binary .equal (binary .add (named "f" [] [identifier "x"])
    (number .nan)) (boolean true)) (identifier "functions")) (identifier "x")

theorem declares_source_iff_leftmostFunction :
    leftmostFunction.source = Text.toBytes
        "(function f() \x7b\n  return x;\n\x7d) + (0 / 0) == true && functions || x" ∧
      Code.declares leftmostFunction.source.text = false ∧
      Code.declares (named "f" [] [leftmostFunction]).source.text = true := by
  have hfunctions : IsName true "functions" :=
    ⟨"functions", rfl, Syntax.word_of_all (by decide) (by decide), by decide +kernel⟩
  have hf : IsName true "f" :=
    ⟨"f", rfl, Syntax.word_of_all (by decide) (by decide), by decide +kernel⟩
  have hx : IsName true "x" :=
    ⟨"x", rfl, Syntax.word_of_all (by decide) (by decide), by decide +kernel⟩
  have hinner : (named "f" [] [identifier "x"]).Assembled (IsName true) fun _ => True :=
    .named hf (by simp) (by simpa using .identifier hx)
  have hleftmost : leftmostFunction.Assembled (IsName true) fun _ => True :=
    .binary trivial (.binary trivial (.binary trivial (.binary trivial hinner (.number _))
      (.boolean _)) (.identifier hfunctions)) (.identifier hx)
  have houter : (named "f" [] [leftmostFunction]).Assembled (IsName true) fun _ => True :=
    .named hf (by simp) (by simpa using hleftmost)
  exact ⟨by decide +kernel, (declares_source_iff hleftmost).2.1,
    (declares_source_iff houter).2.1⟩

end Expr

end ScriptTree.Js
