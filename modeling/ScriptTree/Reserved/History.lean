import ScriptTree.Reserved.Workshop

/-!
What happens to editions. An edition is drawn up by revisions, and may be revised further where
it stands on the shelf. Editions are put on the shelf, revised and registered in any order; a
registration is noted with the place of the edition and with the edition as it was then.
-/

namespace ScriptTree.Reserved

inductive Revision where
  | addWords (words : List String)
  | addStrictWords (words : List String)
  | drop (words : List String)
  | addAliases (names : List String)
  /-- The words of another edition as they are at that time. -/
  | extend (base : Edition)
  | settle
deriving DecidableEq

namespace Revision

def apply : Revision → Edition → Edition
  | addWords words, e => e.addWords words
  | addStrictWords words, e => e.addStrictWords words
  | drop words, e => e.drop words
  | addAliases names, e => e.addAliases names
  | extend base, e => e.extend base
  | settle, e => e.settle

end Revision

def Edition.revise (e : Edition) (revisions : List Revision) : Edition :=
  revisions.foldl (fun e revision => revision.apply e) e

/-- Whether an edition has a name or an alias with the same lower-case form. -/
def Edition.isNamed (e : Edition) (name : String) : Bool :=
  (e.name :: e.aliases).any fun own => Text.lower own == Text.lower name

namespace Catalogue

inductive Event where
  | place (edition : Edition)
  | revise (place : Nat) (revision : Revision)
  | register (place : Nat)
deriving DecidableEq

def Event.revisionsAt (place : Nat) : Event → List Revision
  | .place _ | .register _ => []
  | .revise other revision => if other = place then [revision] else []

def step (c : Catalogue) : Event → Catalogue
  | .place edition => c.place edition
  | .revise place revision => c.modify place revision.apply
  | .register place => c.register place

def run (c : Catalogue) (events : List Event) : Catalogue := events.foldl step c

structure Registration where
  place : Nat
  /-- The edition as it was when it was registered. -/
  edition : Edition
deriving DecidableEq

def registered (c : Catalogue) : Event → List Registration
  | .place _ | .revise _ _ => []
  | .register place =>
    match c.shelf[place]? with
    | some edition => [⟨place, edition⟩]
    | none => []

def registrations (c : Catalogue) : List Event → List Registration
  | [] => []
  | event :: later => c.registered event ++ (c.step event).registrations later

def builtinRegistrations : List Registration :=
  [⟨0, editionES3⟩, ⟨1, editionES5⟩, ⟨2, editionES6⟩]

def lastFor? (d : Dialect) (past : List Registration) : Option Registration :=
  (past.filter fun r => decide (r.edition.dialect = d)).getLast?

def lastNamed? (name : String) (past : List Registration) : Option Registration :=
  (past.filter fun r => r.edition.isNamed name).getLast?

def placeFor? (c : Catalogue) (d : Dialect) : Option Nat := c.byDialect.lookup d

def placeNamed? (c : Catalogue) (name : String) : Option Nat := c.byName.lookup (Text.lower name)

theorem get?_eq (c : Catalogue) (d : Dialect) : c.get? d = (c.placeFor? d).bind (c.shelf[·]?) := rfl

theorem lookup?_eq (c : Catalogue) (name : String) :
    c.lookup? name = (c.placeNamed? name).bind (c.shelf[·]?) := rfl

end Catalogue

/-! Drafts, each known by its id. -/

namespace Workshop

open Catalogue (Event)

inductive Command where
  | draft (id : String) (dialect : Dialect) (name : String)
  | revise (id : String) (revision : Revision)
  | build (id : String)
  | register (id : String)
deriving DecidableEq

def perform (w : Workshop) : Command → Workshop
  | .draft id dialect name => w.draft id dialect name
  | .revise id revision => w.revise id revision.apply
  | .build id => w.build id
  | .register id => w.register id

/-- What a command does to the catalogue. An unknown id does nothing. -/
def events (w : Workshop) : Command → List Event
  | .draft _ dialect name => [.place (.blank dialect name)]
  | .revise id revision => ((w.drafts.lookup id).map (.revise · revision)).toList
  | .build id => ((w.drafts.lookup id).map (.revise · .settle)).toList
  | .register id => ((w.built.lookup id).map .register).toList

end Workshop

end ScriptTree.Reserved
