import ScriptTree.Reserved.Workshop

/-!
Editions in memory. An edition is a record with the addresses of its two tables of words. Builders,
indexes and whoever was given an edition know the place of its record; records and tables are
changed where they stand, and a change is seen by all who know the place. The workshop says which
place a request to a builder is about.
-/

namespace ScriptTree.Reserved

structure Record where
  dialect : Dialect
  name : String
  aliases : List String
  /-- The address of the table of words reserved everywhere. -/
  words : Nat
  strictWords : Nat
deriving DecidableEq, Inhabited

inductive Change where
  | addWords (words : List String)
  | addStrictWords (words : List String)
  | drop (words : List String)
  | addAliases (names : List String)
  | extend (base : Nat)
  | settle
deriving DecidableEq

structure Memory where
  tables : List (List String)
  records : List Record
deriving Inhabited

namespace Memory

def read (m : Memory) (address : Nat) : List String := m.tables.getD address []

def write (m : Memory) (address : Nat) (change : List String → List String) : Memory :=
  { m with tables := m.tables.modify address change }

def edition (m : Memory) (r : Record) : Edition :=
  ⟨r.dialect, r.name, r.aliases, m.read r.words, m.read r.strictWords⟩

def edition? (m : Memory) (place : Nat) : Option Edition := (m.records[place]?).map m.edition

def shelf (m : Memory) : List Edition := m.records.map m.edition

/-- Gives an edition a record and two tables of its own. -/
def allocate (m : Memory) (e : Edition) : Memory where
  tables := m.tables ++ [e.words, e.strictWords]
  records := m.records ++
    [⟨e.dialect, e.name, e.aliases, m.tables.length, m.tables.length + 1⟩]

/-- What a change does to the edition of a record. An extension copies the words of the base out of
its tables. -/
def alterRecord (m : Memory) (place : Nat) (r : Record) : Change → Memory
  | .addWords words => m.write r.words (insertAll · words)
  | .addStrictWords words => m.write r.strictWords (insertAll · words)
  | .drop words => (m.write r.words (removeAll · words)).write r.strictWords (removeAll · words)
  | .addAliases names =>
    { m with records := m.records.modify place fun r => { r with aliases := r.aliases ++ names } }
  | .extend base =>
    match m.records[base]? with
    | none => m
    | some b =>
      let copied := m.write r.words (insertAll · (m.read b.words))
      copied.write r.strictWords (insertAll · (copied.read b.strictWords))
  | .settle => m.write r.strictWords (removeAll · (m.read r.words))

def alter (m : Memory) (place : Nat) (change : Change) : Memory :=
  match m.records[place]? with
  | none => m
  | some r => m.alterRecord place r change

end Memory

/-! Requests to builders. -/

inductive Base where
  /-- The edition that an id last built, or else the one with a registered name. -/
  | named (name : String)
  /-- The edition at a place, by whoever was given it at some time. -/
  | held (place : Nat)
deriving DecidableEq

inductive Request where
  | draft (id : String) (dialect : Dialect) (name : String)
  | addWords (id : String) (words : List String)
  | addStrictWords (id : String) (words : List String)
  | drop (id : String) (words : List String)
  | addAliases (id : String) (names : List String)
  | extend (id : String) (base : Base)
  | build (id : String)
  | register (id : String)
deriving DecidableEq

def Request.id : Request → String
  | draft id _ _ | addWords id _ | addStrictWords id _ | drop id _ | addAliases id _
  | extend id _ | build id | register id => id

namespace Workshop

def baseEdition? (w : Workshop) : Base → Option Edition
  | .named name => w.base? name
  | .held place => w.catalogue.shelf[place]?

def basePlace? (w : Workshop) : Base → Option Nat
  | .named name => (w.built.lookup name).or (w.catalogue.byName.lookup (Text.lower name))
  | .held place => some place

def serve (w : Workshop) : Request → Workshop
  | .draft id dialect name => w.draft id dialect name
  | .addWords id words => w.revise id (·.addWords words)
  | .addStrictWords id words => w.revise id (·.addStrictWords words)
  | .drop id words => w.revise id (·.drop words)
  | .addAliases id names => w.revise id (·.addAliases names)
  | .extend id base =>
    match w.baseEdition? base with
    | some e => w.revise id (·.extend e)
    | none => w
  | .build id => w.build id
  | .register id => w.register id

def change? (w : Workshop) : Request → Option (Nat × Change)
  | .draft _ _ _ | .register _ => none
  | .addWords id words => (w.drafts.lookup id).map (·, .addWords words)
  | .addStrictWords id words => (w.drafts.lookup id).map (·, .addStrictWords words)
  | .drop id words => (w.drafts.lookup id).map (·, .drop words)
  | .addAliases id names => (w.drafts.lookup id).map (·, .addAliases names)
  | .extend id base =>
    (w.basePlace? base).bind fun b => (w.drafts.lookup id).map (·, .extend b)
  | .build id => (w.drafts.lookup id).map (·, .settle)

end Workshop

/-- A workshop together with the memory in which its editions are held. -/
structure Studio where
  workshop : Workshop
  memory : Memory
deriving Inhabited

namespace Studio

def start : Studio where
  workshop := .start
  memory := Catalogue.builtin.shelf.foldl .allocate ⟨[], []⟩

def serve (s : Studio) (request : Request) : Studio where
  workshop := s.workshop.serve request
  memory :=
    match request with
    | .draft _ dialect name => s.memory.allocate (.blank dialect name)
    | request =>
      match s.workshop.change? request with
      | some (place, change) => s.memory.alter place change
      | none => s.memory

def run (s : Studio) (requests : List Request) : Studio := requests.foldl serve s

def target? (s : Studio) (request : Request) : Option Nat :=
  (s.workshop.change? request).map Prod.fst

def targets (s : Studio) : List Request → List Nat
  | [] => []
  | request :: later => (s.target? request).toList ++ (s.serve request).targets later

def draftOf? (s : Studio) (id : String) : Option Edition :=
  (s.workshop.drafts.lookup id).bind s.memory.edition?

/-- The edition that a builder gave out when it was last asked to build. -/
def builtOf? (s : Studio) (id : String) : Option Edition :=
  (s.workshop.built.lookup id).bind s.memory.edition?

end Studio

end ScriptTree.Reserved
