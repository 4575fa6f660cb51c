import ScriptTree.Reserved.Catalogue

/-!
Editions under construction. Each named draft is an edition on the catalogue's
shelf; building a draft settles it and makes it showable, and the draft goes on
changing the same edition afterwards.
-/

namespace ScriptTree.Reserved

structure Workshop where
  catalogue : Catalogue
  /-- Place of the edition that a draft changes. -/
  drafts : List (String × Nat)
  /-- Place of the edition that a draft last built. -/
  built : List (String × Nat)
deriving Inhabited

namespace Workshop

def start : Workshop := ⟨.builtin, [], []⟩

/-- Starts a draft under an id, in place of an earlier draft of that id. -/
def draft (w : Workshop) (id : String) (dialect : Dialect) (name : String) : Workshop :=
  { w with
    catalogue := w.catalogue.place (.blank dialect name)
    drafts := assign id w.catalogue.shelf.length w.drafts }

def revise (w : Workshop) (id : String) (change : Edition → Edition) : Workshop :=
  match w.drafts.lookup id with
  | some place => { w with catalogue := w.catalogue.modify place change }
  | none => w

def build (w : Workshop) (id : String) : Workshop :=
  match w.drafts.lookup id with
  | some place =>
    { w with
      catalogue := w.catalogue.modify place Edition.settle
      built := assign id place w.built }
  | none => w

def edition? (w : Workshop) (id : String) : Option Edition := do
  let place ← w.built.lookup id
  w.catalogue.shelf[place]?

/-- A base to extend: a built id, or else a registered name. -/
def base? (w : Workshop) (name : String) : Option Edition :=
  match w.edition? name with
  | some e => some e
  | none => w.catalogue.lookup? name

def register (w : Workshop) (id : String) : Workshop :=
  match w.built.lookup id with
  | some place => { w with catalogue := w.catalogue.register place }
  | none => w

end Workshop

end ScriptTree.Reserved
