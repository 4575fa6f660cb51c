import ScriptTree.Script.Decode

/-!
The serialized form of scripts. A node is an object whose first member `_type` is its tag;
the members that its kind needs stand in any order and among any others, and of members
with one name the first counts. A list may be left out or be null.
-/

namespace ScriptTree

open Json (Term)

namespace Decode

namespace Members

/-- The first member of a name. -/
def First (members : Members) (name : String) (t : Term) : Prop :=
  ∃ before after, members = before ++ (Text.toBytes name, t) :: after ∧
    ∀ m ∈ before, m.1 ≠ Text.toBytes name

def Lacks (members : Members) (name : String) : Prop :=
  ∀ m ∈ members, m.1 ≠ Text.toBytes name

/-- The items of a member that may be left out or null. -/
inductive Listed (members : Members) (name : String) : List Term → Prop
  | absent (hlacks : members.Lacks name) : Listed members name []
  | null (hnull : members.First name .null) : Listed members name []
  | array {raw : ByteString} {items : List Term}
      (harray : members.First name (.array raw items)) : Listed members name items

def Tagged (members : Members) (kind : Kind) : Prop :=
  members.First "_type" (.string (Text.toBytes kind.tag))

end Members

/-- A parameter is an object with a name. Its tag may be left out, and its type is kept
as plain text. -/
inductive RepresentsParameter : Term → Parameter → Prop
  | named {raw name type : ByteString} {members : Members}
      (htag : members.Lacks "_type" ∨
        members.First "_type" (.string (Text.toBytes "Parameter")))
      (hname : members.First "name" (.string name))
      (htype : (members.Lacks "type" ∧ type = Text.toBytes "") ∨
        ∃ t, members.First "type" t ∧ type = t.plainText) :
      RepresentsParameter (.object raw members) ⟨name, type⟩

def WellFormedParameter (t : Term) : Prop := ∃ x, RepresentsParameter t x

/-- The node that a JSON value stands for. -/
inductive Represents : Term → Node → Prop
  | boolean {raw : ByteString} {members : Members} {value : Bool}
      (htag : members.Tagged .boolean) (hvalue : members.First "value" (.boolean value)) :
      Represents (.object raw members) (.boolean value)
  | number {raw : ByteString} {members : Members} {text : String}
      (htag : members.Tagged .number) (hvalue : members.First "value" (.number text)) :
      Represents (.object raw members) (.number (Term.numberOf text))
  | reference {raw name : ByteString} {members : Members}
      (htag : members.Tagged .reference) (hname : members.First "name" (.string name)) :
      Represents (.object raw members) (.reference name)
  | operation {raw : ByteString} {members : Members} {op : Operation}
      {items : List (Term × Node)} (htag : members.Tagged (.operation op))
      (hchildren : members.Listed "children" (items.map Prod.fst))
      (hitems : ∀ item ∈ items, Represents item.1 item.2) :
      Represents (.object raw members) (.operation op (items.map Prod.snd))
  | function {raw name : ByteString} {members : Members} {items : List (Term × Parameter)}
      {inner : Term} {body : Node} (htag : members.Tagged .function)
      (hname : members.First "name" (.string name))
      (hparameters : members.Listed "parameters" (items.map Prod.fst))
      (hitems : ∀ item ∈ items, RepresentsParameter item.1 item.2)
      (hinner : members.First "body" inner) (hbody : Represents inner body) :
      Represents (.object raw members) (.function name (items.map Prod.snd) body)
  | unrecognized {raw tag : ByteString} {members : Members}
      (htag : members.First "_type" (.string tag)) (hne : tag ≠ [])
      (hkind : ∀ kind : Kind, tag ≠ Text.toBytes kind.tag) :
      Represents (.object raw members) (.unrecognized tag raw)

/-- A JSON value that stands for a node. -/
def WellFormed (t : Term) : Prop := ∃ n, Represents t n

/-! Looking members up. -/

section Lookup

variable {members : Members} {name : String} {t u : Term}

theorem field?_eq_some_iff : members.field? name = some t ↔ members.First name t := by
  rw [Members.field?, List.lookup_eq_some_iff]
  constructor
  · rintro ⟨before, after, heq, hbefore⟩
    exact ⟨before, after, heq, fun m hm hname => by simpa [hname] using hbefore m hm⟩
  · rintro ⟨before, after, heq, hbefore⟩
    exact ⟨before, after, heq, fun m hm => by simpa using (hbefore m hm).symm⟩

theorem field?_eq_none_iff : members.field? name = none ↔ members.Lacks name := by
  rw [Members.field?, List.lookup_eq_none_iff]
  constructor
  · intro hall m hm hname
    simpa [hname] using hall m hm
  · intro hlacks m hm
    simpa using (hlacks m hm).symm

theorem Members.First.unique (ht : members.First name t) (hu : members.First name u) :
    t = u := by
  rw [← field?_eq_some_iff] at ht hu
  exact Option.some.inj (ht.symm.trans hu)

theorem Members.Lacks.not_first (hlacks : members.Lacks name) : ¬ members.First name t := by
  rw [← field?_eq_none_iff] at hlacks
  rw [← field?_eq_some_iff, hlacks]
  simp

theorem Members.Listed.unique {items others : List Term} (hitems : members.Listed name items)
    (hothers : members.Listed name others) : items = others := by
  cases hitems with
  | absent hlacks =>
      cases hothers with
      | absent => rfl
      | null => rfl
      | array harray => exact absurd harray hlacks.not_first
  | null hnull =>
      cases hothers with
      | absent => rfl
      | null => rfl
      | array harray => cases hnull.unique harray
  | array harray =>
      cases hothers with
      | absent hlacks => exact absurd harray hlacks.not_first
      | null hnull => cases hnull.unique harray
      | array hother => cases harray.unique hother; rfl

end Lookup

/-! Tags of kinds. -/

theorem mem_all (kind : Kind) : kind ∈ Kind.all := by
  cases kind with
  | operation op => cases op <;> decide
  | boolean => decide
  | number => decide
  | reference => decide
  | function => decide

theorem ofTag?_toBytes (kind : Kind) : Kind.ofTag? (Text.toBytes kind.tag) = some kind := by
  have hall : ∀ kind ∈ Kind.all, Kind.ofTag? (Text.toBytes kind.tag) = some kind := by
    decide
  exact hall kind (mem_all kind)

theorem toBytes_tag_ne_nil (kind : Kind) : Text.toBytes kind.tag ≠ [] := by
  have hall : ∀ kind ∈ Kind.all, Text.toBytes kind.tag ≠ [] := by decide
  exact hall kind (mem_all kind)

theorem ofTag?_eq_some_iff {tag : ByteString} {kind : Kind} :
    Kind.ofTag? tag = some kind ↔ tag = Text.toBytes kind.tag := by
  constructor
  · intro hkind
    have htag := List.find?_some hkind
    exact (of_decide_eq_true htag).symm
  · rintro rfl
    exact ofTag?_toBytes kind

theorem ofTag?_eq_none_iff {tag : ByteString} :
    Kind.ofTag? tag = none ↔ ∀ kind : Kind, tag ≠ Text.toBytes kind.tag := by
  rw [Option.eq_none_iff_forall_ne_some]
  exact forall_congr' fun kind => not_congr ofTag?_eq_some_iff

theorem Members.Tagged.unique {members : Members} {kind other : Kind}
    (hkind : members.Tagged kind) (hother : members.Tagged other) : kind = other := by
  have htag := Term.string.inj (Members.First.unique hkind hother)
  exact Option.some.inj ((ofTag?_toBytes kind).symm.trans (ofTag?_eq_some_iff.mpr htag))

end Decode

end ScriptTree
