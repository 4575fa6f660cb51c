import ScriptTree.Text.Casing
import ScriptTree.Text.Lines
import ScriptTree.Text.Quoted

/-!
Addresses to listen on: a host, which may be empty, and the number or the name of a service.
-/

namespace ScriptTree.Server

structure Address where
  host : String
  service : Nat
deriving DecidableEq, Inhabited

inductive AddressError where
  | noService (address : String)
  | tooManyColons (address : String)
  | noClosing (address : String)
  | strayOpening (address : String)
  | strayClosing (address : String)
  | invalidNumber (service : String)
  | unknownName (service : String)
deriving DecidableEq, Inhabited

namespace AddressError

def about (text reason : String) : String :=
  if text = "" then reason else "address " ++ text ++ ": " ++ reason

def message : AddressError → String
  | noService address => about address "missing port in address"
  | tooManyColons address => about address "too many colons in address"
  | noClosing address => about address "missing ']' in address"
  | strayOpening address => about address "unexpected '[' in address"
  | strayClosing address => about address "unexpected ']' in address"
  | invalidNumber service => about service "invalid port"
  | unknownName service => "lookup tcp/" ++ service ++ ": unknown port"

end AddressError

namespace Address

def splitLast? (cs : List Char) : Option (List Char × List Char) :=
  let back := cs.reverse
  match back.dropWhile (· ≠ ':') with
  | [] => none
  | _ :: host => some (host.reverse, (back.takeWhile (· ≠ ':')).reverse)

/-- Divides an address into host and service; a host in brackets may hold colons. -/
def split (text : String) : Except AddressError (String × String) := do
  match splitLast? text.toList with
  | none => throw (.noService text)
  | some (host, service) =>
    match text.toList with
    | '[' :: inside =>
      if !inside.contains ']' then throw (.noClosing text)
      let bare := inside.takeWhile (· ≠ ']')
      match (inside.dropWhile (· ≠ ']')).drop 1 with
      | ':' :: rest => if rest.contains ':' then throw (.tooManyColons text)
      | _ => throw (.noService text)
      if bare.contains '[' || service.contains '[' then throw (.strayOpening text)
      if service.contains ']' then throw (.strayClosing text)
      return (String.ofList bare, String.ofList service)
    | all =>
      if host.contains ':' then throw (.tooManyColons text)
      if all.contains '[' then throw (.strayOpening text)
      if all.contains ']' then throw (.strayClosing text)
      return (String.ofList host, String.ofList service)

/-- The number of digits as a word of 32 bits; large numbers stay large. -/
def digitsValue? (n : Nat) : List Char → Option Nat
  | [] => some n
  | c :: rest =>
    if !c.isDigit then none
    else if Nat.pow 2 30 ≤ n then some (Nat.pow 2 32 - 1)
    else
      let tens := n * 10 % Nat.pow 2 32
      let next := tens + (c.toNat - 48)
      if Nat.pow 2 32 ≤ next then some (Nat.pow 2 32 - 1) else digitsValue? next rest

def services : List (String × Nat) := [
  ("domain", 53), ("ftp", 21), ("ftps", 990), ("gopher", 70), ("http", 80), ("https", 443),
  ("imap2", 143), ("imap3", 220), ("imaps", 993), ("pop3", 110), ("pop3s", 995), ("smtp", 25),
  ("submissions", 465), ("ssh", 22), ("telnet", 23)]

def readService (service : String) : Except AddressError Nat :=
  let (negative, digits) := match service.toList with
    | '+' :: rest => (false, rest)
    | '-' :: rest => (true, rest)
    | cs => (false, cs)
  match digitsValue? 0 digits with
  | none =>
    match services.lookup (Text.lower service) with
    | some n => .ok n
    | none => .error (.unknownName service)
  | some n => if n < Nat.pow 2 16 && (n = 0 || !negative) then .ok n else .error (.invalidNumber service)

/-- Reads an address; no text is any service on all hosts. -/
def ofText (text : String) : Except AddressError Address := do
  if text = "" then return ⟨"", 0⟩
  let (host, service) ← split text
  return ⟨host, ← readService service⟩

def text (a : Address) : String :=
  let host :=
    if a.host = "" then "[::]"
    else if a.host = "localhost" then "127.0.0.1"
    else if a.host.toList.contains ':' then "[" ++ a.host ++ "]"
    else a.host
  host ++ ":" ++ Nat.repr a.service

end Address

end ScriptTree.Server
