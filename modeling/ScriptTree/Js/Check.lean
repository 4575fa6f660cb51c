import ScriptTree.Js.Term.Compact
import ScriptTree.Js.Term.Parser
import ScriptTree.Js.Term.Rename
import ScriptTree.Reserved.Dialect

/-!
Source text that is read again: to see whether it is well formed, and to make it short.
-/

namespace ScriptTree.Js

inductive Target where
  | es5
  | es2015
deriving DecidableEq, Inhabited

namespace Target

def ofDialect (d : Dialect) : Target := if Dialect.es6.number ≤ d.resolve.number then es2015 else es5

def number : Target → Nat
  | es5 => 2
  | es2015 => 3

def name : Target → String
  | es5 => "es5"
  | es2015 => "es2015"

end Target

/-- The places of `await` outside of functions, which no target admits. -/
def awaitFault? (target : Target) (tokens : List Token) (c : Code) : Option Fault :=
  match c.value with
  | some (.unary "await" _) =>
    (tokens.find? (fun t => t.lexeme = .word "await")).map fun t =>
      ⟨t.position, "Top-level await is not available in the configured target environment (" ++
        Text.quote target.name ++ ")"⟩
  | _ => none

def read (target : Target) (text : String) : Except Fault Code := do
  let c ← Code.ofText text
  match awaitFault? target (Token.ofText Code.holder.length text) c with
  | some fault => .error fault
  | none => .ok c

def invalidMessage (f : Fault) : String :=
  "esbuild errors:\n" ++ f.message ++ ": generated code does not parse"

def verify (target : Target) (text : String) : Except Fault Unit := do
  let _ ← read target text
  return ()

def minify (target : Target) (text : String) : Except Fault String := do
  let c ← read target text
  let (short, usage) := c.simplify
  return short.compact (Rename.names (Code.script text) c.given usage)

end ScriptTree.Js
