import Mathlib.Data.List.Lex
import ScriptTree.Proofs.Script.Form

/-!
What a serialized script violates, and which violation comes first. The parts of a node
are read in order: a name before parameters, these before a body, items from the left;
and a node is looked at before its parts. A value that stands for a node violates
nothing.
-/

namespace ScriptTree

open Json (Term)

/-! The order of reading. -/

namespace Segment

def stage : Segment → Nat
  | child _ => 0
  | parameter _ => 1
  | field name => if name = "body" then 2 else if name = "parameters" then 1 else 0

def index : Segment → Nat
  | child i | parameter i => i
  | field _ => 0

/-- The part of a node that is read first: a name comes before parameters, these come
before a body, and items come in their order. -/
def Precedes (s r : Segment) : Prop :=
  s.stage < r.stage ∨ s.stage = r.stage ∧ s.index < r.index

instance : Std.Asymm Precedes where
  asymm s r hbefore hback := by
    unfold Precedes at hbefore hback
    omega

end Segment

/-- A path is read before those that go on from it, and else by where the two part. -/
def Path.Precedes : Path → Path → Prop := List.Lex Segment.Precedes

theorem Path.Precedes.asymm {p q : Path} (hbefore : p.Precedes q) : ¬ q.Precedes p :=
  Std.Asymm.asymm (r := List.Lex Segment.Precedes) p q hbefore

/-- A path that parts from another towards what is read first. All that goes on from it is
read before the other. -/
inductive Path.Before : Path → Path → Prop
  | parts {s r : Segment} {p q : Path} (hfirst : s.Precedes r) : Before (s :: p) (r :: q)
  | cons {s : Segment} {p q : Path} (hbefore : Before p q) : Before (s :: p) (s :: q)

theorem Path.Before.append_precedes {p q : Path} (hbefore : p.Before q) (rest : Path) :
    Path.Precedes (p ++ rest) q := by
  induction hbefore with
  | parts hfirst => exact .rel hfirst
  | cons _ ih => exact .cons ih

namespace Violation

/-- The place at which a violation is met. A missing body is reported for its function
and met where the body would stand. -/
def place (v : Violation) (p : Path) : Path := if v = noBody then p ++ [.field "body"] else p

theorem place_append (v : Violation) (p q : Path) : v.place (p ++ q) = p ++ v.place q := by
  unfold place
  split
  · exact List.append_assoc p q _
  · rfl

theorem place_cons (v : Violation) (s : Segment) (p : Path) :
    v.place (s :: p) = s :: v.place p :=
  v.place_append [s] p

/-- The first of some violations in the order of reading. -/
structure IsFirst (V : Path → Violation → Prop) (p : Path) (v : Violation) : Prop where
  holds : V p v
  first : ∀ q w, V q w → q = p ∧ w = v ∨ (v.place p).Precedes (w.place q)

theorem IsFirst.unique {V : Path → Violation → Prop} {p q : Path} {v w : Violation}
    (hp : IsFirst V p v) (hq : IsFirst V q w) : p = q ∧ v = w := by
  rcases hp.first q w hq.holds with ⟨rfl, rfl⟩ | hbefore
  · exact ⟨rfl, rfl⟩
  · rcases hq.first p v hp.holds with hsame | hback
    · exact hsame
    · exact absurd hback hbefore.asymm

theorem IsFirst.not_of_precedes {V : Path → Violation → Prop} {p q : Path} {v w : Violation}
    (hp : IsFirst V p v) (hbefore : (w.place q).Precedes (v.place p)) : ¬ V q w := by
  intro hw
  rcases hp.first q w hw with ⟨rfl, rfl⟩ | hafter
  · exact hbefore.asymm hbefore
  · exact hbefore.asymm hafter

end Violation

namespace Decode

/-! Violations. -/

inductive ParameterViolates : Term → Path → Violation → Prop
  | notObject {t : Term} (ht : ∀ raw members, t ≠ .object raw members) :
      ParameterViolates t [] .notObject
  | tag {raw : ByteString} {members : Members} {tag : Term}
      (htag : members.First "_type" tag) (hne : tag ≠ .string (Text.toBytes "Parameter")) :
      ParameterViolates (.object raw members) [] (.notParameter tag.plainText)
  | name {raw : ByteString} {members : Members}
      (hname : ∀ name, ¬ members.First "name" (.string name)) :
      ParameterViolates (.object raw members) [.field "name"] .notString

mutual

/-- All that a value violates as a node, with the path to each place. -/
inductive Violates : Term → Path → Violation → Prop
  | notObject {t : Term} (ht : ∀ raw members, t ≠ .object raw members) :
      Violates t [] .notObject
  | noTag {raw : ByteString} {members : Members}
      (htag : ∀ tag, members.First "_type" (.string tag) → tag = []) :
      Violates (.object raw members) [] .noTag
  | tagged {raw : ByteString} {members : Members} {kind : Kind} {p : Path} {v : Violation}
      (htag : members.Tagged kind) (hpart : PartViolates kind members p v) :
      Violates (.object raw members) p v

/-- What the members of a node violate, given its kind. -/
inductive PartViolates : Kind → Members → Path → Violation → Prop
  | boolean {members : Members}
      (hvalue : ∀ value, ¬ members.First "value" (.boolean value)) :
      PartViolates .boolean members [.field "value"] .notBoolean
  | number {members : Members} (hvalue : ∀ text, ¬ members.First "value" (.number text)) :
      PartViolates .number members [.field "value"] .notNumber
  | reference {members : Members} (hname : ∀ name, ¬ members.First "name" (.string name)) :
      PartViolates .reference members [.field "name"] .notString
  | children {members : Members} {op : Operation}
      (hchildren : ∀ items, ¬ members.Listed "children" items) :
      PartViolates (.operation op) members [.field "children"] .notArray
  | child {members : Members} {op : Operation} {items : List Term} {i : Nat} {t : Term}
      {p : Path} {v : Violation} (hchildren : members.Listed "children" items)
      (ht : items[i]? = some t) (hviolates : Violates t p v) :
      PartViolates (.operation op) members (.child i :: p) v
  | name {members : Members} (hname : ∀ name, ¬ members.First "name" (.string name)) :
      PartViolates .function members [.field "name"] .notString
  | parameters {members : Members}
      (hparameters : ∀ items, ¬ members.Listed "parameters" items) :
      PartViolates .function members [.field "parameters"] .notArray
  | parameter {members : Members} {items : List Term} {i : Nat} {t : Term} {p : Path}
      {v : Violation} (hparameters : members.Listed "parameters" items)
      (ht : items[i]? = some t) (hviolates : ParameterViolates t p v) :
      PartViolates .function members (.parameter i :: p) v
  | noBody {members : Members} (hbody : members.Lacks "body") :
      PartViolates .function members [] .noBody
  | body {members : Members} {t : Term} {p : Path} {v : Violation}
      (hbody : members.First "body" t) (hviolates : Violates t p v) :
      PartViolates .function members (.field "body" :: p) v

end

/-- The violation that is met first. -/
def FirstViolation (t : Term) : Path → Violation → Prop := Violation.IsFirst (Violates t)

/-! The nodes and parameters in a value, with the paths to them. -/

inductive NodeAt : Term → Path → Term → Prop
  | here {t : Term} : NodeAt t [] t
  | child {raw : ByteString} {members : Members} {op : Operation} {items : List Term} {i : Nat}
      {t u : Term} {p : Path} (htag : members.Tagged (.operation op))
      (hchildren : members.Listed "children" items) (ht : items[i]? = some t)
      (hinner : NodeAt t p u) : NodeAt (.object raw members) (.child i :: p) u
  | body {raw : ByteString} {members : Members} {t u : Term} {p : Path}
      (htag : members.Tagged .function) (hbody : members.First "body" t)
      (hinner : NodeAt t p u) : NodeAt (.object raw members) (.field "body" :: p) u

inductive ParameterAt (t : Term) : Path → Term → Prop
  | parameter {raw : ByteString} {members : Members} {items : List Term} {i : Nat} {u : Term}
      {p : Path} (hfunction : NodeAt t p (.object raw members))
      (htag : members.Tagged .function) (hparameters : members.Listed "parameters" items)
      (hu : items[i]? = some u) : ParameterAt t (p ++ [.parameter i]) u

theorem NodeAt.violates {t u : Term} {p q : Path} {v : Violation} (hu : NodeAt t q u)
    (hviolates : Violates u p v) : Violates t (q ++ p) v := by
  induction hu with
  | here => exact hviolates
  | child htag hchildren ht _ ih => exact .tagged htag (.child hchildren ht (ih hviolates))
  | body htag hbody _ ih => exact .tagged htag (.body hbody (ih hviolates))

theorem ParameterAt.violates {t u : Term} {p q : Path} {v : Violation}
    (hu : ParameterAt t q u) (hviolates : ParameterViolates u p v) :
    Violates t (q ++ p) v := by
  obtain ⟨hfunction, htag, hparameters, hu⟩ := hu
  rw [List.append_assoc]
  exact hfunction.violates (.tagged htag (.parameter hparameters hu hviolates))

section Violations

variable {raw : ByteString} {members : Members} {kind : Kind} {p : Path} {v : Violation}

theorem violates_iff_of_tagged (htag : members.Tagged kind) :
    Violates (.object raw members) p v ↔ PartViolates kind members p v := by
  constructor
  · intro hviolates
    cases hviolates with
    | notObject ht => exact absurd rfl (ht raw members)
    | noTag hnone => exact absurd (hnone _ htag) (toBytes_tag_ne_nil kind)
    | tagged hother hpart =>
        cases htag.unique hother
        exact hpart
  · exact .tagged htag

theorem violates_iff_of_no_tag
    (htag : ∀ tag, members.First "_type" (.string tag) → tag = []) :
    Violates (.object raw members) p v ↔ p = [] ∧ v = .noTag := by
  constructor
  · intro hviolates
    cases hviolates with
    | notObject ht => exact absurd rfl (ht raw members)
    | noTag _ => exact ⟨rfl, rfl⟩
    | tagged hkind _ => exact absurd (htag _ hkind) (toBytes_tag_ne_nil _)
  · rintro ⟨rfl, rfl⟩
    exact .noTag htag

theorem not_violates_of_unrecognized {tag : ByteString}
    (htag : members.First "_type" (.string tag)) (hne : tag ≠ [])
    (hkind : ∀ kind : Kind, tag ≠ Text.toBytes kind.tag) :
    ¬ Violates (.object raw members) p v := by
  intro hviolates
  cases hviolates with
  | notObject ht => exact ht raw members rfl
  | noTag hnone => exact hne (hnone tag htag)
  | tagged hother _ => exact hkind _ (Term.string.inj (htag.unique hother))

theorem violates_iff_of_not_object {t : Term} (ht : ∀ raw members, t ≠ .object raw members) :
    Violates t p v ↔ p = [] ∧ v = .notObject := by
  constructor
  · intro hviolates
    cases hviolates with
    | notObject _ => exact ⟨rfl, rfl⟩
    | noTag _ => exact absurd rfl (ht _ _)
    | tagged _ _ => exact absurd rfl (ht _ _)
  · rintro ⟨rfl, rfl⟩
    exact .notObject ht

end Violations

/-! What stands for a node violates nothing. -/

theorem RepresentsParameter.not_violates {t : Term} {x : Parameter}
    (hrepresents : RepresentsParameter t x) (p : Path) (v : Violation) :
    ¬ ParameterViolates t p v := by
  intro hviolates
  cases hrepresents with
  | named htag hname htype =>
      cases hviolates with
      | notObject ht => exact ht _ _ rfl
      | tag hother hne =>
          rcases htag with hlacks | htag
          · exact hlacks.not_first hother
          · exact hne (hother.unique htag)
      | name hnone => exact hnone _ hname

theorem exists_of_map_fst {items : List (Term × α)} {i : Nat} {t : Term}
    (ht : (items.map Prod.fst)[i]? = some t) : ∃ x, (t, x) ∈ items := by
  rw [List.getElem?_map, Option.map_eq_some_iff] at ht
  obtain ⟨⟨t, x⟩, hitem, rfl⟩ := ht
  exact ⟨x, List.mem_of_getElem? hitem⟩

theorem Represents.not_violates {t : Term} {n : Node} (hrepresents : Represents t n)
    (p : Path) (v : Violation) : ¬ Violates t p v := by
  induction hrepresents generalizing p v with
  | boolean htag hvalue =>
      intro hviolates
      cases (violates_iff_of_tagged htag).mp hviolates with
      | boolean hnone => exact hnone _ hvalue
  | number htag hvalue =>
      intro hviolates
      cases (violates_iff_of_tagged htag).mp hviolates with
      | number hnone => exact hnone _ hvalue
  | reference htag hname =>
      intro hviolates
      cases (violates_iff_of_tagged htag).mp hviolates with
      | reference hnone => exact hnone _ hname
  | operation htag hchildren hitems ih =>
      intro hviolates
      cases (violates_iff_of_tagged htag).mp hviolates with
      | children hnone => exact hnone _ hchildren
      | child hlisted ht hinner =>
          cases hlisted.unique hchildren
          obtain ⟨n, hitem⟩ := exists_of_map_fst ht
          exact ih _ hitem _ _ hinner
  | function htag hname hparameters hitems hbody hrepresents ih =>
      intro hviolates
      cases (violates_iff_of_tagged htag).mp hviolates with
      | name hnone => exact hnone _ hname
      | parameters hnone => exact hnone _ hparameters
      | parameter hlisted ht hinner =>
          cases hlisted.unique hparameters
          obtain ⟨x, hitem⟩ := exists_of_map_fst ht
          exact (hitems _ hitem).not_violates _ _ hinner
      | noBody hlacks => exact hlacks.not_first hbody
      | body hother hinner =>
          cases hother.unique hbody
          exact ih _ _ hinner
  | unrecognized htag hne hkind => exact not_violates_of_unrecognized htag hne hkind

end Decode

/-! Texts of paths. A field that the form names has neither a point nor a bracket in
it, so a path can be told by its text. -/

namespace Segment

/-- A segment that can be told by its text. -/
def Plain : Segment → Prop
  | field name => '.' ∉ name.toList ∧ '[' ∉ name.toList
  | child _ | parameter _ => True

theorem not_mem_toDigits (i : Nat) : '.' ∉ Nat.toDigits 10 i := by
  intro hmem
  exact absurd (Nat.isDigit_of_mem_toDigits (by decide) (by decide) hmem) (by decide)

theorem exists_label {s : Segment} (hs : s.Plain) :
    ∃ label, s.text.toList = '.' :: label ∧ '.' ∉ label := by
  cases s with
  | field name => exact ⟨name.toList, by simp [text], hs.1⟩
  | child i =>
      exact ⟨"children[".toList ++ Nat.toDigits 10 i ++ [']'], by simp [text],
        by simp [not_mem_toDigits]⟩
  | parameter i =>
      exact ⟨"parameters[".toList ++ Nat.toDigits 10 i ++ [']'], by simp [text],
        by simp [not_mem_toDigits]⟩

theorem bracket_mem_text_iff {s : Segment} (hs : s.Plain) :
    '[' ∈ s.text.toList ↔ ∀ name, s ≠ .field name := by
  cases s with
  | field name => simpa [text] using hs.2
  | child i => simp [text]
  | parameter i => simp [text]

theorem eq_of_toDigits {i j : Nat} (hdigits : Nat.toDigits 10 i = Nat.toDigits 10 j) :
    i = j := by
  rw [← Nat.ofDigitChars_ten_toDigits (n := i), hdigits, Nat.ofDigitChars_ten_toDigits]

theorem eq_of_text {s r : Segment} (hs : s.Plain) (hr : r.Plain)
    (htext : s.text.toList = r.text.toList) : s = r := by
  have hbracket : (∀ name, s ≠ .field name) ↔ ∀ name, r ≠ .field name := by
    rw [← bracket_mem_text_iff hs, ← bracket_mem_text_iff hr, htext]
  cases s with
  | field name =>
      cases r with
      | field other => simpa [text, String.toList_inj] using htext
      | child j => simp at hbracket
      | parameter j => simp at hbracket
  | child i =>
      cases r with
      | field other => simp at hbracket
      | child j =>
          have hdigits : Nat.toDigits 10 i = Nat.toDigits 10 j := by simpa [text] using htext
          rw [eq_of_toDigits hdigits]
      | parameter j => simp [text] at htext
  | parameter i =>
      cases r with
      | field other => simp at hbracket
      | child j => simp [text] at htext
      | parameter j =>
          have hdigits : Nat.toDigits 10 i = Nat.toDigits 10 j := by simpa [text] using htext
          rw [eq_of_toDigits hdigits]

end Segment

namespace Path

def Plain (p : Path) : Prop := ∀ s ∈ p, s.Plain

theorem plain_nil : Plain [] := by simp [Plain]

theorem plain_cons_iff {s : Segment} {p : Path} : Plain (s :: p) ↔ s.Plain ∧ Plain p :=
  List.forall_mem_cons

theorem takeWhile_text {p : Path} (hp : p.Plain) :
    (p.flatMap (·.text.toList)).takeWhile (· ≠ '.') = [] := by
  cases p with
  | nil => rfl
  | cons s p =>
      obtain ⟨label, hlabel, -⟩ := Segment.exists_label (hp s (by simp))
      simp [hlabel]

/-- A label ends where the next segment starts. -/
theorem takeWhile_append_text {label : List Char} {p : Path} (hlabel : '.' ∉ label)
    (hp : p.Plain) :
    (label ++ p.flatMap (·.text.toList)).takeWhile (· ≠ '.') = label := by
  rw [List.takeWhile_append_of_pos, takeWhile_text hp, List.append_nil]
  intro c hc
  simpa using fun heq : c = '.' => hlabel (heq ▸ hc)

theorem eq_of_flatMap_text {p q : Path} (hp : p.Plain) (hq : q.Plain)
    (htext : p.flatMap (·.text.toList) = q.flatMap (·.text.toList)) : p = q := by
  induction p generalizing q with
  | nil =>
      cases q with
      | nil => rfl
      | cons r q =>
          obtain ⟨label, hlabel, -⟩ := Segment.exists_label (hq r (by simp))
          simp [hlabel] at htext
  | cons s p ih =>
      obtain ⟨hs, hp⟩ := plain_cons_iff.mp hp
      obtain ⟨a, ha, hpoint⟩ := Segment.exists_label hs
      cases q with
      | nil => simp [ha] at htext
      | cons r q =>
          obtain ⟨hr, hq⟩ := plain_cons_iff.mp hq
          obtain ⟨b, hb, hother⟩ := Segment.exists_label hr
          simp only [List.flatMap_cons, ha, hb, List.cons_append, List.cons.injEq,
            true_and] at htext
          have hlabels : a = b := by
            rw [← takeWhile_append_text hpoint hp, htext, takeWhile_append_text hother hq]
          subst hlabels
          rw [Segment.eq_of_text hs hr (ha.trans hb.symm),
            ih hp hq (List.append_cancel_left htext)]

theorem eq_of_text {p q : Path} (hp : p.Plain) (hq : q.Plain) (htext : p.text = q.text) :
    p = q := by
  have htoList : ∀ p : Path, p.text.toList = '$' :: p.flatMap (·.text.toList) := by
    intro p
    simp [text, List.flatMap_map]
  apply eq_of_flatMap_text hp hq
  rw [← String.toList_inj, htoList, htoList] at htext
  exact (List.cons.inj htext).2

end Path

namespace Decode

theorem ParameterViolates.plain {t : Term} {p : Path} {v : Violation}
    (hviolates : ParameterViolates t p v) : p.Plain := by
  cases hviolates with
  | notObject => exact Path.plain_nil
  | tag => exact Path.plain_nil
  | name => exact Path.plain_cons_iff.mpr ⟨by simp [Segment.Plain], Path.plain_nil⟩

mutual

theorem Violates.plain {t : Term} {p : Path} {v : Violation} : Violates t p v → p.Plain
  | .notObject _ => Path.plain_nil
  | .noTag _ => Path.plain_nil
  | .tagged _ hpart => hpart.plain

theorem PartViolates.plain {kind : Kind} {members : Members} {p : Path} {v : Violation} :
    PartViolates kind members p v → p.Plain
  | .boolean _ => Path.plain_cons_iff.mpr ⟨by simp [Segment.Plain], Path.plain_nil⟩
  | .number _ => Path.plain_cons_iff.mpr ⟨by simp [Segment.Plain], Path.plain_nil⟩
  | .reference _ => Path.plain_cons_iff.mpr ⟨by simp [Segment.Plain], Path.plain_nil⟩
  | .children _ => Path.plain_cons_iff.mpr ⟨by simp [Segment.Plain], Path.plain_nil⟩
  | .child _ _ hviolates => Path.plain_cons_iff.mpr ⟨trivial, hviolates.plain⟩
  | .name _ => Path.plain_cons_iff.mpr ⟨by simp [Segment.Plain], Path.plain_nil⟩
  | .parameters _ => Path.plain_cons_iff.mpr ⟨by simp [Segment.Plain], Path.plain_nil⟩
  | .parameter _ _ hviolates => Path.plain_cons_iff.mpr ⟨trivial, hviolates.plain⟩
  | .noBody _ => Path.plain_nil
  | .body _ hviolates => Path.plain_cons_iff.mpr ⟨by simp [Segment.Plain], hviolates.plain⟩

end

end Decode

end ScriptTree
