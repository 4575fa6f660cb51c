import ScriptTree.Settings.Decode

/-!
Flags of the command line. A flag has a long name and may have a short one of one
character; short ones can be written together. Flags and other arguments may be mixed
until two dashes end the flags.
-/

namespace ScriptTree.Cli

inductive Flag.Kind where
  | text
  | number
  /-- Needs no value; the state without the flag is given. -/
  | switch (initial : Bool)
deriving DecidableEq, Inhabited

structure Flag where
  name : String
  short : Option Char := none
  kind : Flag.Kind := .text
  usage : String := ""
deriving DecidableEq, Inhabited

inductive ValueError where
  | truth
  | integer (cause : Number.IntegerError)
deriving DecidableEq, Inhabited

inductive FlagError where
  | malformed (argument : String)
  | unknown (name : String)
  | unknownShort (name : Char) (cluster : String)
  | missing (name : String)
  | missingShort (name : Char) (cluster : String)
  | invalid (flag : Flag) (value : String) (cause : ValueError)
  /-- Help is asked for where there is no flag for it. -/
  | help
deriving DecidableEq, Inhabited

namespace Flag

def isSwitch (f : Flag) : Bool :=
  match f.kind with
  | .switch _ => true
  | .text | .number => false

def shown (f : Flag) : String :=
  match f.short with
  | some c => "-" ++ String.singleton c ++ ", --" ++ f.name
  | none => "--" ++ f.name

end Flag

namespace ValueError

def message (value : String) : ValueError → String
  | truth => "strconv.ParseBool: parsing " ++ Text.quote value ++ ": invalid syntax"
  | integer cause =>
    "strconv.ParseInt: parsing " ++ Text.quote value ++ ": " ++
      (match cause with
        | .malformed => "invalid syntax"
        | .outOfRange _ => "value out of range")

end ValueError

namespace FlagError

/-- Short names are single bytes, so a character of several bytes is shown by the
character whose code is its first byte. -/
def shownShort (c : Char) : String :=
  match Text.toBytes (String.singleton c) with
  | byte :: _ => Text.quoteChar (Char.ofNat byte.toNat)
  | [] => Text.quoteChar c

def message : FlagError → String
  | malformed argument => "bad flag syntax: " ++ argument
  | unknown name => "unknown flag: --" ++ name
  | unknownShort name cluster => "unknown shorthand flag: " ++ shownShort name ++ " in -" ++ cluster
  | missing name => "flag needs an argument: --" ++ name
  | missingShort name cluster => "flag needs an argument: " ++ shownShort name ++ " in -" ++ cluster
  | invalid flag value cause =>
    "invalid argument " ++ Text.quote value ++ " for " ++ Text.quote flag.shown ++ " flag: " ++
      cause.message value
  | help => "pflag: help requested"

end FlagError

abbrev Given := String × Settings.Raw

namespace Flag

def read (f : Flag) (value : String) : Except FlagError Given :=
  match f.kind with
  | .text => .ok (f.name, .text value)
  | .switch _ =>
    match Settings.Raw.readBool? value with
    | some b => .ok (f.name, .bool b)
    | none => .error (.invalid f value .truth)
  | .number =>
    match Number.signed 64 value with
    | .ok n => .ok (f.name, .int n)
    | .error cause => .error (.invalid f value (.integer cause))

def named? (flags : List Flag) (name : String) : Option Flag := flags.find? (·.name = name)

def shortNamed? (flags : List Flag) (c : Char) : Option Flag := flags.find? (·.short = some c)

def sort (flags : List Flag) : List Flag := flags.mergeSort (fun a b => decide (a.name ≤ b.name))

end Flag

/-- What one argument says: flags with their values, and perhaps a flag whose value is the
next argument, with the error for there being none. -/
structure Reading where
  given : List Given := []
  pending : Option (Flag × FlagError) := none

namespace Reading

def long (flags : List Flag) (body : List Char) : Except FlagError Reading :=
  match body with
  | [] | '-' :: _ | '=' :: _ => .error (.malformed ("--" ++ String.ofList body))
  | _ =>
    let name := String.ofList (body.takeWhile (· ≠ '='))
    match Flag.named? flags name, body.dropWhile (· ≠ '=') with
    | none, _ => .error (if name = "help" then .help else .unknown name)
    | some f, _ :: value => do return { given := [← f.read (String.ofList value)] }
    | some f, [] =>
      if f.isSwitch then do return { given := [← f.read "true"] }
      else .ok { pending := some (f, .missing name) }

/-- How options start that are meant for a test runner; they are skipped. -/
def skippedMark : List Char := ['t', 'e', 's', 't', '.']

def cluster (flags : List Flag) : List Char → Except FlagError Reading
  | [] => .ok {}
  | c :: rest =>
    match Flag.shortNamed? flags c with
    | none =>
      if skippedMark.isPrefixOf (c :: rest) then .ok {}
      else .error (if c = 'h' then .help else .unknownShort c (String.ofList (c :: rest)))
    | some f =>
      match rest with
      | '=' :: d :: value => do return { given := [← f.read (String.ofList (d :: value))] }
      | rest =>
        if f.isSwitch then do
          let first ← f.read "true"
          let others ← cluster flags rest
          return { others with given := first :: others.given }
        else if rest.isEmpty then
          .ok { pending := some (f, .missingShort c (String.singleton c)) }
        else do return { given := [← f.read (String.ofList rest)] }

end Reading

structure Arguments where
  given : List Given := []
  rest : List String := []
  /-- Whether two dashes end the flags. -/
  ended : Bool := false
deriving Inhabited

namespace Arguments

def value? (a : Arguments) (name : String) : Option Settings.Raw := a.given.reverse.lookup name

/-- Whether a switch that is off by itself is on. -/
def switched (a : Arguments) (name : String) : Bool :=
  match a.value? name with
  | some (.bool b) => b
  | _ => false

def text (a : Arguments) (name : String) : String :=
  match a.value? name with
  | some (.text s) => s
  | _ => ""

def more (given : List Given) (a : Arguments) : Arguments := { a with given := given ++ a.given }

inductive Shape where
  | word
  | stop
  | long (body : List Char)
  | short (body : List Char)
deriving DecidableEq

/-- A single dash is a word. -/
def shape (argument : String) : Shape :=
  match argument.toList with
  | ['-', '-'] => .stop
  | '-' :: '-' :: body => .long body
  | '-' :: c :: body => .short (c :: body)
  | _ => .word

def reading (flags : List Flag) : Shape → Except FlagError (Option Reading)
  | .long body => some <$> Reading.long flags body
  | .short body => some <$> Reading.cluster flags body
  | .word | .stop => .ok none

def parse (flags : List Flag) : List String → Except FlagError Arguments
  | [] => .ok {}
  | argument :: others =>
    if shape argument = .stop then .ok { rest := others, ended := true }
    else
      match reading flags (shape argument), others with
      | .error e, _ => .error e
      | .ok none, others => do
        let a ← parse flags others
        return { a with rest := argument :: a.rest }
      | .ok (some ⟨given, none⟩), others => do return (← parse flags others).more given
      | .ok (some ⟨_, some (_, complaint)⟩), [] => .error complaint
      | .ok (some ⟨given, some (f, _)⟩), value :: others => do
        let last ← f.read value
        return (← parse flags others).more (given ++ [last])

end Arguments

end ScriptTree.Cli
