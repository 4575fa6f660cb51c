import ScriptTree.Proofs.Js.Syntax.Terminal
import ScriptTree.Reserved.Edition

/-!
The grammar of expressions. Binary operators group to the left and bind in the order of
`tightness`; numbers are read by a function that is given, the sign in front of a number
included.
-/

namespace ScriptTree.Js

/-- How tightly an operator binds; an operator outside the grammar does not bind. -/
def Operator.tightness : Operator → Nat
  | or => 1
  | and => 2
  | equal => 3
  | add => 4
  | other _ => 0

namespace Syntax

/-- A word that can be the name of a variable. -/
def isFree (strict : Bool) (text : String) : Bool :=
  !Reserved.editionES6.reserves text strict

def parameterList : List String → List Terminal
  | [] => [.closeParen]
  | [name] => [.word name, .closeParen]
  | name :: rest => .word name :: .comma :: parameterList rest

def functionSymbols (name : String) (parameters : List String) (body : List Terminal) :
    List Terminal :=
  .word "function" :: .word name :: .openParen ::
    (parameterList parameters ++ .openBrace :: (body ++ [.closeBrace]))

def returnSymbols (value : List Terminal) : List Terminal :=
  .word "return" :: (value ++ [.semicolon])

/-- The symbols of an expression whose operators outside of parentheses bind at least as
tightly as `level`. -/
inductive Derives (read : String → Option Number) (strict : Bool) :
    Nat → List Terminal → Expr → Prop
  | true (level : Nat) : Derives read strict level [.word "true"] (.boolean true)
  | false (level : Nat) : Derives read strict level [.word "false"] (.boolean false)
  | name (level : Nat) {text : String} (hfree : isFree strict text = true) :
      Derives read strict level [.word text] (.identifier text)
  | decimal (level : Nat) {text : String} {x : Number} (hread : read text = some x) :
      Derives read strict level [.decimal text] (.number x)
  | negative (level : Nat) {text : String} {x : Number}
      (hread : read ("-" ++ text) = some x) :
      Derives read strict level [.minus, .decimal text] (.number x)
  | nan (level : Nat) :
      Derives read strict level [.decimal "0", .slash, .decimal "0"] (.number .nan)
  | grouped (level : Nat) {ts : List Terminal} {e : Expr}
      (hinner : Derives read strict 1 ts e) :
      Derives read strict level (.openParen :: (ts ++ [.closeParen])) e
  | binary {level : Nat} {op : Operator} {left right : List Terminal} {l r : Expr}
      (hbinds : 0 < op.tightness) (hlevel : level ≤ op.tightness)
      (hleft : Derives read strict op.tightness left l)
      (hright : Derives read strict (op.tightness + 1) right r) :
      Derives read strict level (left ++ .operator op :: right) (.binary op l r)
  | function (level : Nat) {name : String} {parameters : List String}
      {body : List (List Terminal × Expr)} (hname : isFree strict name = true)
      (hparameters : ∀ p ∈ parameters, isFree strict p = true)
      (hbody : ∀ s ∈ body, Derives read strict 1 s.1 s.2) :
      Derives read strict level
        (functionSymbols name parameters (body.flatMap fun s => returnSymbols s.1))
        (.named name (parameters.map Text.toBytes) (body.map Prod.snd))

theorem Derives.mono {read : String → Option Number} {strict : Bool}
    {level level' : Nat} {ts : List Terminal} {e : Expr}
    (hderives : Derives read strict level ts e) (hlevel : level' ≤ level) :
    Derives read strict level' ts e := by
  cases hderives with
  | true => exact .true level'
  | false => exact .false level'
  | name _ hfree => exact .name level' hfree
  | decimal _ hread => exact .decimal level' hread
  | negative _ hread => exact .negative level' hread
  | nan => exact .nan level'
  | grouped _ hinner => exact .grouped level' hinner
  | binary hbinds hle hleft hright =>
      exact .binary hbinds (Nat.le_trans hlevel hle) hleft hright
  | function _ hname hparameters hbody =>
      exact .function level' hname hparameters hbody

/-- The expressions that a source text stands for. -/
def Denotes (read : String → Option Number) (strict : Bool) (source : ByteString)
    (e : Expr) : Prop :=
  ∃ text, source.text? = some text ∧
    Derives read strict 1 (scanAll false text.toList) e

end Syntax

end ScriptTree.Js
