import ScriptTree.Proofs.Script.Decode

/-!
Values that scripts are read from alike. The order of the members of an object does not count,
nor how a number is written, except where a value is kept as plain text.
-/

namespace ScriptTree

open Json (Term)

namespace Json.Term

/-- A member of an object, with the value that stands under its key in another object. -/
structure Counterpart where
  key : ByteString
  term : Term
  other : Term

/-- Values whose keys, texts and numbers are the same. -/
inductive Agrees : Term → Term → Prop
  | null : Agrees .null .null
  | boolean {value : Bool} : Agrees (.boolean value) (.boolean value)
  | number {text other : String} (hvalue : numberOf other = numberOf text) :
      Agrees (.number text) (.number other)
  | string {s : ByteString} : Agrees (.string s) (.string s)
  | array {raw other : ByteString} {items : List (Term × Term)}
      (hitems : ∀ item ∈ items, Agrees item.1 item.2) :
      Agrees (.array raw (items.map Prod.fst)) (.array other (items.map Prod.snd))
  | object {raw other : ByteString} {parts : List Counterpart}
      {members : List (ByteString × Term)} (hkeys : (parts.map Counterpart.key).Nodup)
      (hparts : ∀ part ∈ parts, Agrees part.term part.other)
      (htypes : ∀ part ∈ parts, part.key = Text.toBytes "type" →
        part.other.plainText = part.term.plainText)
      (horder : members.Perm (parts.map fun part => (part.key, part.other))) :
      Agrees (.object raw (parts.map fun part => (part.key, part.term))) (.object other members)

end Json.Term

namespace Decode

open Json.Term (Counterpart Agrees)

variable {members others : Members} {name : String} {t u : Term}

/-! Members. -/

theorem first_iff_mem (hkeys : (List.map Prod.fst members).Nodup) :
    members.First name t ↔ (Text.toBytes name, t) ∈ members := by
  constructor
  · rintro ⟨before, after, rfl, -⟩
    exact List.mem_append_right _ List.mem_cons_self
  · intro hmem
    obtain ⟨before, after, rfl⟩ := List.append_of_mem hmem
    refine ⟨before, after, rfl, fun m hm heq => ?_⟩
    rw [List.map_append, List.map_cons] at hkeys
    obtain ⟨-, -, hapart⟩ := List.nodup_append.mp hkeys
    exact hapart m.1 (List.mem_map_of_mem hm) _ List.mem_cons_self heq

/-- Members that agree in every name. -/
structure Members.Agree (members others : Members) : Prop where
  first {name : String} {t : Term} (hfirst : members.First name t) :
    ∃ u, others.First name u ∧ Agrees t u ∧ (name = "type" → u.plainText = t.plainText)
  lacks {name : String} (hlacks : members.Lacks name) : others.Lacks name

theorem exists_agree {raw : ByteString} (hagrees : Agrees (.object raw members) t) :
    ∃ other others, t = .object other others ∧ members.Agree others := by
  cases hagrees with
  | @object _ other parts others hkeys hparts htypes horder =>
      have hnodup : (List.map Prod.fst others).Nodup := by
        have hperm := horder.map Prod.fst
        rw [List.map_map] at hperm
        exact hperm.nodup_iff.mpr hkeys
      have hnodup' : (List.map Prod.fst (parts.map fun part => (part.key, part.term))).Nodup := by
        rw [List.map_map]
        exact hkeys
      refine ⟨other, others, rfl, ⟨fun {name t} hfirst => ?_, fun {name} hlacks m hm => ?_⟩⟩
      · rw [first_iff_mem hnodup', List.mem_map] at hfirst
        obtain ⟨part, hmem, heq⟩ := hfirst
        obtain ⟨hkey, rfl⟩ := Prod.mk.inj heq
        refine ⟨part.other, (first_iff_mem hnodup).mpr (horder.mem_iff.mpr ?_), hparts part hmem,
          fun hname => htypes part hmem (hname ▸ hkey)⟩
        exact List.mem_map.mpr ⟨part, hmem, by rw [hkey]⟩
      · obtain ⟨part, hmem, rfl⟩ := List.mem_map.mp (horder.mem_iff.mp hm)
        exact hlacks (part.key, part.term) (List.mem_map.mpr ⟨part, hmem, rfl⟩)

theorem Members.Agree.string (hagree : members.Agree others) {s : ByteString}
    (hfirst : members.First name (.string s)) : others.First name (.string s) := by
  obtain ⟨u, hu, hagrees, -⟩ := hagree.first hfirst
  cases hagrees
  exact hu

theorem Members.Agree.listed (hagree : members.Agree others) {items : List Term}
    (hlisted : members.Listed name items) :
    ∃ pairs : List (Term × Term), pairs.map Prod.fst = items ∧
      (∀ pair ∈ pairs, Agrees pair.1 pair.2) ∧ others.Listed name (pairs.map Prod.snd) := by
  cases hlisted with
  | absent hlacks => exact ⟨[], rfl, nofun, .absent (hagree.lacks hlacks)⟩
  | null hnull =>
      obtain ⟨u, hu, hagrees, -⟩ := hagree.first hnull
      cases hagrees
      exact ⟨[], rfl, nofun, .null hu⟩
  | array harray =>
      obtain ⟨u, hu, hagrees, -⟩ := hagree.first harray
      cases hagrees with
      | array hitems => exact ⟨_, rfl, hitems, .array hu⟩

theorem exists_images {α β : Type} {R : Term → α → Prop} {f : α → β} {items : List (Term × α)}
    {pairs : List (Term × Term)} (hfst : pairs.map Prod.fst = items.map Prod.fst)
    (hpairs : ∀ pair ∈ pairs, Agrees pair.1 pair.2)
    (hitems : ∀ item ∈ items, ∀ u, Agrees item.1 u → ∃ x, R u x ∧ f x = f item.2) :
    ∃ images : List (Term × α), images.map Prod.fst = pairs.map Prod.snd ∧
      (∀ image ∈ images, R image.1 image.2) ∧
      (images.map Prod.snd).map f = (items.map Prod.snd).map f := by
  induction items generalizing pairs with
  | nil =>
      obtain rfl := List.map_eq_nil_iff.mp hfst
      exact ⟨[], rfl, nofun, rfl⟩
  | cons item items ih =>
      cases pairs with
      | nil => cases hfst
      | cons pair pairs =>
          obtain ⟨hhead, htail⟩ := List.cons.inj hfst
          obtain ⟨hpair, hmorePairs⟩ := List.forall_mem_cons.mp hpairs
          obtain ⟨hitem, hmoreItems⟩ := List.forall_mem_cons.mp hitems
          obtain ⟨x, hx, hsame⟩ := hitem pair.2 (hhead ▸ hpair)
          obtain ⟨images, himages, hall, hmap⟩ := ih htail hmorePairs hmoreItems
          refine ⟨(pair.2, x) :: images, ?_, List.forall_mem_cons.mpr ⟨hx, hall⟩, ?_⟩
          · rw [List.map_cons, List.map_cons, himages]
          · simp only [List.map_cons, hsame, hmap]

end Decode

/-! Scripts. -/

namespace Node

mutual

/-- A script without the written forms of unrecognized nodes. -/
def bare : Node → Node
  | operation op operands => operation op (bares operands)
  | function name parameters body => function name parameters body.bare
  | unrecognized tag _ => unrecognized tag []
  | missing expected => missing expected
  | boolean value => boolean value
  | number value => number value
  | reference name => reference name

def bares : List Node → List Node
  | [] => []
  | n :: rest => n.bare :: bares rest

end

theorem bares_eq_map (ns : List Node) : bares ns = ns.map bare := by
  induction ns with
  | nil => rfl
  | cons n rest ih => rw [bares, ih, List.map_cons]

end Node

namespace Decode

open Json.Term (Agrees)

theorem RepresentsParameter.agrees {t u : Term} {x : Parameter} (hx : RepresentsParameter t x)
    (hagrees : Agrees t u) : RepresentsParameter u x := by
  cases hx with
  | named htag hname htype =>
      obtain ⟨other, others, rfl, hagree⟩ := exists_agree hagrees
      refine .named (htag.imp hagree.lacks hagree.string) (hagree.string hname) ?_
      rcases htype with ⟨hlacks, rfl⟩ | ⟨t, hfirst, rfl⟩
      · exact .inl ⟨hagree.lacks hlacks, rfl⟩
      · obtain ⟨u, hu, -, hplain⟩ := hagree.first hfirst
        exact .inr ⟨u, hu, (hplain rfl).symm⟩

/-- A value that agrees stands for the same script. -/
theorem Represents.agrees {t u : Term} {n : Node} (hn : Represents t n) (hagrees : Agrees t u) :
    ∃ m, Represents u m ∧ m.bare = n.bare := by
  induction hn generalizing u with
  | boolean htag hvalue =>
      obtain ⟨other, others, rfl, hagree⟩ := exists_agree hagrees
      obtain ⟨v, hv, hsame, -⟩ := hagree.first hvalue
      cases hsame
      exact ⟨_, .boolean (hagree.string htag) hv, rfl⟩
  | number htag hvalue =>
      obtain ⟨other, others, rfl, hagree⟩ := exists_agree hagrees
      obtain ⟨v, hv, hsame, -⟩ := hagree.first hvalue
      cases hsame with
      | number hnumber => exact ⟨_, .number (hagree.string htag) hv, by rw [hnumber]⟩
  | reference htag hname =>
      obtain ⟨other, others, rfl, hagree⟩ := exists_agree hagrees
      exact ⟨_, .reference (hagree.string htag) (hagree.string hname), rfl⟩
  | operation htag hchildren _ ih =>
      obtain ⟨other, others, rfl, hagree⟩ := exists_agree hagrees
      obtain ⟨pairs, hfst, hpairs, hlisted⟩ := hagree.listed hchildren
      obtain ⟨images, himages, hall, hmap⟩ :=
        exists_images hfst hpairs fun item hmem u => ih item hmem
      rw [← himages] at hlisted
      refine ⟨_, .operation (hagree.string htag) hlisted hall, ?_⟩
      rw [Node.bare, Node.bare, Node.bares_eq_map, Node.bares_eq_map, hmap]
  | function htag hname hparameters hitems hinner _ ih =>
      obtain ⟨other, others, rfl, hagree⟩ := exists_agree hagrees
      obtain ⟨pairs, hfst, hpairs, hlisted⟩ := hagree.listed hparameters
      obtain ⟨images, himages, hall, hmap⟩ :=
        exists_images (f := id) hfst hpairs fun item hmem u hsame =>
          ⟨item.2, (hitems item hmem).agrees hsame, rfl⟩
      obtain ⟨v, hv, hsame, -⟩ := hagree.first hinner
      obtain ⟨body, hbody, hbare⟩ := ih hsame
      rw [← himages] at hlisted
      refine ⟨_, .function (hagree.string htag) (hagree.string hname) hlisted hall hv hbody, ?_⟩
      rw [List.map_id, List.map_id] at hmap
      rw [Node.bare, Node.bare, hbare, hmap]
  | unrecognized htag hne hkind =>
      obtain ⟨other, others, rfl, hagree⟩ := exists_agree hagrees
      exact ⟨_, .unrecognized (hagree.string htag) hne hkind, rfl⟩

end Decode

end ScriptTree
