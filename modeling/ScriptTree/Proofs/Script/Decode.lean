import ScriptTree.Proofs.Json.Genuine
import ScriptTree.Proofs.Script.Violation

/-!
Reading serialized scripts. A value is accepted exactly if it is well formed, and read as
the node that it stands for; otherwise the error tells the violation that is met first.
-/

namespace ScriptTree

open Json (Term)

namespace Decode

open Violation (IsFirst)

/-! What a reader comes to, and how readers compose. -/

/-- Reading at a path gives a result that is right, or the first of the violations. -/
inductive Settles {α : Type} (R : α → Prop) (V : Path → Violation → Prop) (path : Path) :
    Except DecodeError α → Prop
  | ok {x : α} (hx : R x) : Settles R V path (.ok x)
  | error {p : Path} {v : Violation} (hfirst : IsFirst V p v) :
      Settles R V path (.error ⟨path ++ p, v⟩)

/-- The violations of a part, as violations of what it is part of. -/
inductive Below (s : Segment) (V : Path → Violation → Prop) : Path → Violation → Prop
  | part {p : Path} {v : Violation} (hpart : V p v) : Below s V (s :: p) v

section Settles

variable {α β : Type} {R : α → Prop} {S : β → Prop} {V W : Path → Violation → Prop}
  {path p : Path} {v : Violation}

theorem isFirst_of_subsingleton (hv : V p v) (honly : ∀ q w, V q w → q = p ∧ w = v) :
    IsFirst V p v :=
  ⟨hv, fun q w hw => .inl (honly q w hw)⟩

/-- The first violation stays the first among more if the others come after it. -/
theorem isFirst_widen (hfirst : IsFirst V p v) (hv : W p v)
    (hothers : ∀ q w, W q w → V q w ∨ (v.place p).Precedes (w.place q)) : IsFirst W p v := by
  refine ⟨hv, fun q w hw => ?_⟩
  rcases hothers q w hw with hsame | hbefore
  · exact hfirst.first q w hsame
  · exact .inr hbefore

theorem isFirst_below {s : Segment} (hfirst : IsFirst V p v) :
    IsFirst (Below s V) (s :: p) v := by
  refine ⟨.part hfirst.holds, ?_⟩
  rintro _ w ⟨hpart⟩
  rcases hfirst.first _ w hpart with ⟨rfl, rfl⟩ | hbefore
  · exact .inl ⟨rfl, rfl⟩
  · rw [Violation.place_cons, Violation.place_cons]
    exact .inr (.cons hbefore)

theorem Settles.below {s : Segment} {r : Except DecodeError α}
    (hr : Settles R V (path ++ [s]) r) : Settles R (Below s V) path r := by
  cases hr with
  | ok hx => exact .ok hx
  | error hfirst =>
      rw [List.append_assoc]
      exact .error (isFirst_below hfirst)

theorem Settles.bind {r : Except DecodeError α} {f : α → Except DecodeError β}
    (hr : Settles R V path r) (hfirst : ∀ p v, IsFirst V p v → IsFirst W p v)
    (hf : ∀ x, R x → Settles S W path (f x)) : Settles S W path (r >>= f) := by
  cases hr with
  | ok hx => exact hf _ hx
  | error hv => exact .error (hfirst _ _ hv)

theorem Settles.imp {T : α → Prop} {r : Except DecodeError α} (hr : Settles R V path r)
    (hR : ∀ x, R x → T x) (hfirst : ∀ p v, IsFirst V p v → IsFirst W p v) :
    Settles T W path r := by
  cases hr with
  | ok hx => exact .ok (hR _ hx)
  | error hv => exact .error (hfirst _ _ hv)

theorem Settles.exists_of_none {r : Except DecodeError α} (hr : Settles R V path r)
    (hnone : ∀ p v, ¬ V p v) : ∃ x, R x := by
  cases hr with
  | ok hx => exact ⟨_, hx⟩
  | error hfirst => exact absurd hfirst.holds (hnone _ _)

theorem settles_fail (hfirst : IsFirst V p v) : Settles R V path (fail (path ++ p) v) :=
  .error hfirst

theorem settles_fail_here (hfirst : IsFirst V [] v) : Settles R V path (fail path v) := by
  have hfail : Settles R V path (fail (path ++ []) v) := settles_fail hfirst
  rwa [List.append_nil] at hfail

end Settles

/-! Lists. -/

/-- Reads items in their order. -/
def readAll (read : Term → Path → Except DecodeError α) (segment : Nat → Segment)
    (path : Path) : Nat → List Term → Except DecodeError (List α)
  | _, [] => .ok []
  | i, t :: rest => do
    let first ← read t (path ++ [segment i])
    let others ← readAll read segment path (i + 1) rest
    return first :: others

/-- Reads a member that may be left out or null. -/
def listField (read : Term → Path → Except DecodeError α) (segment : Nat → Segment)
    (name : String) (members : Members) (path : Path) : Except DecodeError (List α) :=
  match members.field? name with
  | none | some .null => .ok []
  | some (.array _ items) => readAll read segment path 0 items
  | some _ => fail (path ++ [.field name]) .notArray

theorem parameterList_eq (path : Path) (i : Nat) (items : List Term) :
    parameterList path i items = readAll parameter .parameter path i items := by
  induction items generalizing i with
  | nil => rfl
  | cons t rest ih => simp only [parameterList, readAll, ih]

theorem nodes_eq (path : Path) (i : Nat) (items : List Term) :
    nodes items path i = readAll node .child path i items := by
  induction items generalizing i with
  | nil => rw [nodes, readAll]
  | cons t rest ih => simp only [nodes, readAll, ih]

theorem parameters_eq (members : Members) (path : Path) :
    parameters members path = listField parameter .parameter "parameters" members path := by
  unfold parameters listField
  cases members.field? "parameters" with
  | none => rfl
  | some t =>
      cases t with
      | array raw items => exact parameterList_eq path 0 items
      | null => rfl
      | boolean => rfl
      | number => rfl
      | string => rfl
      | object => rfl

inductive ItemViolates (V : Term → Path → Violation → Prop) (segment : Nat → Segment)
    (items : List Term) : Path → Violation → Prop
  | item {i : Nat} {t : Term} {p : Path} {v : Violation} (ht : items[i]? = some t)
      (hviolates : V t p v) : ItemViolates V segment items (segment i :: p) v

inductive ListViolates (V : Term → Path → Violation → Prop) (segment : Nat → Segment)
    (name : String) (members : Members) : Path → Violation → Prop
  | notArray (hnone : ∀ items, ¬ members.Listed name items) :
      ListViolates V segment name members [.field name] .notArray
  | item {items : List Term} {p : Path} {v : Violation} (hlisted : members.Listed name items)
      (hitem : ItemViolates V segment items p v) : ListViolates V segment name members p v

section Lists

variable {α : Type} {read : Term → Path → Except DecodeError α} {segment : Nat → Segment}
  {R : Term → α → Prop} {V : Term → Path → Violation → Prop} {path : Path}

/-- An item is the first to violate something if no item before it does. -/
theorem isFirst_item {before after : List Term} {t : Term} {p : Path} {v : Violation}
    (hsegment : ∀ i j, i < j → (segment i).Precedes (segment j))
    (hbefore : ∀ u ∈ before, ∀ p v, ¬ V u p v)
    (hfirst : IsFirst (Below (segment before.length) (V t)) p v) :
    IsFirst (ItemViolates V segment (before ++ t :: after)) p v := by
  obtain ⟨⟨hviolates⟩, hfirst⟩ := hfirst
  refine ⟨.item (by simp) hviolates, ?_⟩
  rintro _ w ⟨hu, hother⟩
  rename_i i u q
  rcases Nat.lt_trichotomy i before.length with hlt | rfl | hgt
  · rw [List.getElem?_append_left hlt] at hu
    exact absurd hother (hbefore u (List.mem_of_getElem? hu) q w)
  · obtain rfl : t = u := by simpa using hu
    exact hfirst _ w (.part hother)
  · rw [Violation.place_cons, Violation.place_cons]
    exact .inr (.rel (hsegment _ _ hgt))

theorem settles_readAll {items : List Term} (before : List Term)
    (hsegment : ∀ i j, i < j → (segment i).Precedes (segment j))
    (hsound : ∀ t x, R t x → ∀ p v, ¬ V t p v)
    (hread : ∀ t ∈ items, ∀ path, Settles (R t) (V t) path (read t path))
    (hbefore : ∀ u ∈ before, ∀ p v, ¬ V u p v) :
    Settles
      (fun xs => ∃ pairs : List (Term × α), items = pairs.map Prod.fst ∧
        xs = pairs.map Prod.snd ∧ ∀ pair ∈ pairs, R pair.1 pair.2)
      (ItemViolates V segment (before ++ items)) path
      (readAll read segment path before.length items) := by
  -- The items before have been read without an error, so none of them violates anything.
  induction items generalizing before with
  | nil => exact .ok ⟨[], rfl, rfl, nofun⟩
  | cons t rest ih =>
      rw [readAll]
      refine (hread t (by simp) _).below.bind (fun p v => isFirst_item hsegment hbefore) ?_
      intro x hx
      have hnext : ∀ u ∈ before ++ [t], ∀ p v, ¬ V u p v := by
        intro u hu
        rcases List.mem_append.mp hu with hu | hu
        · exact hbefore u hu
        · rw [List.mem_singleton.mp hu]
          exact hsound t x hx
      have hrest := ih (before ++ [t]) (fun u hu => hread u (List.mem_cons_of_mem t hu)) hnext
      rw [List.length_append, List.length_singleton, List.append_assoc] at hrest
      refine hrest.bind (fun _ _ hfirst => hfirst) ?_
      rintro _ ⟨pairs, rfl, rfl, hpairs⟩
      exact .ok ⟨(t, x) :: pairs, rfl, rfl, List.forall_mem_cons.mpr ⟨hx, hpairs⟩⟩

theorem listField_of_listed {name : String} {members : Members} {items : List Term}
    (hlisted : members.Listed name items) :
    listField read segment name members path = readAll read segment path 0 items := by
  rw [listField]
  cases hlisted with
  | absent hlacks =>
      rw [field?_eq_none_iff.mpr hlacks]
      rfl
  | null hnull =>
      rw [field?_eq_some_iff.mpr hnull]
      rfl
  | array harray => rw [field?_eq_some_iff.mpr harray]

theorem listField_of_not_listed {name : String} {members : Members}
    (hnone : ∀ items, ¬ members.Listed name items) :
    listField read segment name members path = fail (path ++ [.field name]) .notArray := by
  unfold listField
  split
  next hfield => exact absurd (.absent (field?_eq_none_iff.mp hfield)) (hnone [])
  next hfield => exact absurd (.null (field?_eq_some_iff.mp hfield)) (hnone [])
  next items hfield => exact absurd (.array (field?_eq_some_iff.mp hfield)) (hnone items)
  next => rfl

theorem settles_listField {name : String} {members : Members}
    (hsegment : ∀ i j, i < j → (segment i).Precedes (segment j))
    (hsound : ∀ t x, R t x → ∀ p v, ¬ V t p v)
    (hread : ∀ items, members.Listed name items →
      ∀ t ∈ items, ∀ path, Settles (R t) (V t) path (read t path)) :
    Settles
      (fun xs => ∃ pairs : List (Term × α), members.Listed name (pairs.map Prod.fst) ∧
        xs = pairs.map Prod.snd ∧ ∀ pair ∈ pairs, R pair.1 pair.2)
      (ListViolates V segment name members) path
      (listField read segment name members path) := by
  by_cases hlisted : ∃ items, members.Listed name items
  · obtain ⟨items, hlisted⟩ := hlisted
    rw [listField_of_listed hlisted]
    refine (settles_readAll [] hsegment hsound (hread items hlisted) nofun).imp ?_ ?_
    · rintro xs ⟨pairs, rfl, hxs, hpairs⟩
      exact ⟨pairs, hlisted, hxs, hpairs⟩
    · intro p v hfirst
      refine isFirst_widen hfirst (.item hlisted hfirst.holds) ?_
      rintro q w (hnone | ⟨hother, hitem⟩)
      · exact absurd hlisted (hnone items)
      · cases hlisted.unique hother
        exact .inl hitem
  · have hnone := not_exists.mp hlisted
    rw [listField_of_not_listed hnone]
    refine settles_fail (isFirst_of_subsingleton (.notArray hnone) ?_)
    rintro _ w (_ | ⟨hother, -⟩)
    · exact ⟨rfl, rfl⟩
    · exact absurd hother (hnone _)

theorem readAll_of_pairs {pairs : List (Term × α)} (i : Nat)
    (hread : ∀ pair ∈ pairs, ∀ path, read pair.1 path = .ok pair.2) :
    readAll read segment path i (pairs.map Prod.fst) = .ok (pairs.map Prod.snd) := by
  induction pairs generalizing i with
  | nil => rfl
  | cons pair pairs ih =>
      obtain ⟨hfirst, hrest⟩ := List.forall_mem_cons.mp hread
      rw [List.map_cons, readAll, hfirst, ih (i + 1) hrest]
      rfl

end Lists

/-! Members. -/

section Parts

variable {α : Type} {members : Members} {name : String} {raw : ByteString} {path : Path}

theorem stringField_of_first {text : ByteString} (htext : members.First name (.string text)) :
    stringField members name path = .ok text := by
  rw [stringField, field?_eq_some_iff.mpr htext]

theorem settles_stringField_bind {R : α → Prop} {V : Path → Violation → Prop}
    {f : ByteString → Except DecodeError α}
    (hfail : (∀ text, ¬ members.First name (.string text)) →
      IsFirst V [.field name] .notString)
    (hf : ∀ text, members.First name (.string text) → Settles R V path (f text)) :
    Settles R V path (stringField members name path >>= f) := by
  by_cases htext : ∃ text, members.First name (.string text)
  · obtain ⟨text, htext⟩ := htext
    rw [stringField_of_first htext]
    exact hf text htext
  · have hnone : stringField members name path =
        fail (path ++ [.field name]) .notString := by
      unfold stringField
      split
      next text hfield => exact absurd ⟨text, field?_eq_some_iff.mp hfield⟩ htext
      next => rfl
    rw [hnone]
    exact settles_fail (hfail (not_exists.mp htext))

/-! Parameters. -/

def typeField (members : Members) : ByteString :=
  ((members.field? "type").map Term.plainText).getD ""

theorem typeField_spec (members : Members) :
    (members.Lacks "type" ∧ typeField members = Text.toBytes "") ∨
      ∃ t, members.First "type" t ∧ typeField members = t.plainText := by
  unfold typeField
  cases hfield : members.field? "type" with
  | none => exact .inl ⟨field?_eq_none_iff.mp hfield, rfl⟩
  | some t => exact .inr ⟨t, field?_eq_some_iff.mp hfield, rfl⟩

theorem typeField_eq {type : ByteString}
    (htype : (members.Lacks "type" ∧ type = Text.toBytes "") ∨
      ∃ t, members.First "type" t ∧ type = t.plainText) : typeField members = type := by
  rcases htype with ⟨hlacks, rfl⟩ | ⟨t, hfirst, rfl⟩
  · rw [typeField, field?_eq_none_iff.mpr hlacks]
    rfl
  · rw [typeField, field?_eq_some_iff.mpr hfirst]
    rfl

theorem parameter_of_tagged (htag : members.Lacks "_type" ∨
      members.First "_type" (.string (Text.toBytes "Parameter"))) :
    parameter (.object raw members) path = do
      let name ← stringField members "name" path
      return ⟨name, typeField members⟩ := by
  rw [parameter]
  rcases htag with hlacks | htag
  · simp only [field?_eq_none_iff.mpr hlacks]
    rfl
  · simp only [field?_eq_some_iff.mpr htag, Term.plainText]
    rfl

theorem parameter_of_mistagged {tag : Term} (htag : members.First "_type" tag)
    (hne : tag.plainText ≠ Text.toBytes "Parameter") :
    parameter (.object raw members) path = fail path (.notParameter tag.plainText) := by
  rw [parameter]
  simp only [field?_eq_some_iff.mpr htag, if_pos hne]
  rfl

theorem parameter_of_represents {t : Term} {x : Parameter} (ht : RepresentsParameter t x) :
    parameter t path = .ok x := by
  cases ht with
  | named htag hname htype =>
      rw [parameter_of_tagged htag, stringField_of_first hname, typeField_eq htype]
      rfl

theorem settles_parameter_of_tagged (htag : members.Lacks "_type" ∨
      members.First "_type" (.string (Text.toBytes "Parameter"))) :
    Settles (RepresentsParameter (.object raw members))
      (ParameterViolates (.object raw members)) path (parameter (.object raw members) path) := by
  rw [parameter_of_tagged htag]
  refine settles_stringField_bind (fun hnone => ?_) fun name hname =>
    .ok (.named htag hname (typeField_spec members))
  refine isFirst_of_subsingleton (.name hnone) fun q w hother => ?_
  cases hother with
  | notObject ht => exact absurd rfl (ht raw members)
  | tag hother hne =>
      rcases htag with hlacks | htag
      · exact absurd hother hlacks.not_first
      · exact absurd (hother.unique htag) hne
  | name => exact ⟨rfl, rfl⟩

theorem settles_parameter_of_mistagged {tag : Term} (htag : members.First "_type" tag)
    (hne : tag.plainText ≠ Text.toBytes "Parameter") :
    Settles (RepresentsParameter (.object raw members))
      (ParameterViolates (.object raw members)) path (parameter (.object raw members) path) := by
  rw [parameter_of_mistagged htag hne]
  have hstring : tag ≠ .string (Text.toBytes "Parameter") := by
    rintro rfl
    exact hne rfl
  refine settles_fail_here ⟨.tag htag hstring, fun q w hother => ?_⟩
  cases hother with
  | notObject ht => exact absurd rfl (ht raw members)
  | tag hother _ =>
      rw [hother.unique htag]
      exact .inl ⟨rfl, rfl⟩
  | name => exact .inr .nil

theorem settles_parameter {t : Term} (ht : t.Genuine) :
    Settles (RepresentsParameter t) (ParameterViolates t) path (parameter t path) := by
  by_cases hobject : ∃ raw members, t = .object raw members
  · obtain ⟨raw, members, rfl⟩ := hobject
    cases hfield : Members.field? members "_type" with
    | none => exact settles_parameter_of_tagged (.inl (field?_eq_none_iff.mp hfield))
    | some tag =>
        have htag := field?_eq_some_iff.mp hfield
        by_cases hparameter : tag.plainText = Text.toBytes "Parameter"
        · cases ht with
          | object hraw hmembers =>
              have hgenuine := Term.Genuine.of_lookup hmembers hfield
              rw [(Term.plainText_eq_parameter_iff hgenuine).mp hparameter] at htag
              exact settles_parameter_of_tagged (.inr htag)
        · exact settles_parameter_of_mistagged htag hparameter
  · have hnot : ∀ raw members, t ≠ .object raw members := fun raw members heq =>
      hobject ⟨raw, members, heq⟩
    have hfail : parameter t path = fail path .notObject := by
      unfold parameter
      split
      next raw members => exact absurd rfl (hnot raw members)
      next => rfl
    rw [hfail]
    refine settles_fail_here (isFirst_of_subsingleton (.notObject hnot) fun q w hother => ?_)
    cases hother with
    | notObject => exact ⟨rfl, rfl⟩
    | tag => exact absurd rfl (hnot _ _)
    | name => exact absurd rfl (hnot _ _)

/-! Nodes. -/

def ofKind (members : Members) (path : Path) : Kind → Except DecodeError Node
  | .boolean =>
    match members.field? "value" with
    | some (.boolean value) => .ok (.boolean value)
    | _ => fail (path ++ [.field "value"]) .notBoolean
  | .number =>
    match members.field? "value" with
    | some (.number text) => .ok (.number (Term.numberOf text))
    | _ => fail (path ++ [.field "value"]) .notNumber
  | .reference => do
    let name ← stringField members "name" path
    return .reference name
  | .operation op => do
    let children ← listField node .child "children" members path
    return .operation op children
  | .function => do
    let name ← stringField members "name" path
    let params ← listField parameter .parameter "parameters" members path
    match members.field? "body" with
    | none => fail path .noBody
    | some inner =>
      let body ← node inner (path ++ [.field "body"])
      return .function name params body

theorem node_of_tagged {kind : Kind} (htag : members.Tagged kind) :
    node (.object raw members) path = ofKind members path kind := by
  have hfield : members.field? "_type" = some (.string (Text.toBytes kind.tag)) :=
    field?_eq_some_iff.mpr htag
  have hempty : (Text.toBytes kind.tag).isEmpty = false := by
    simpa using toBytes_tag_ne_nil kind
  rw [node]
  simp only [hfield, hempty, ofTag?_toBytes, Bool.false_eq_true, if_false]
  cases kind with
  | boolean => rfl
  | number => rfl
  | reference => rfl
  | operation op =>
      simp only [ofKind, listField, nodes_eq]
      split
      next hnone =>
        simp only [hnone]
        rfl
      next hnull =>
        simp only [hnull]
        rfl
      next harray => simp only [harray]
      next other hnull harray hother =>
        simp only [hother]
        cases other with
        | null => exact absurd rfl hnull
        | array raw items => exact absurd rfl (harray raw items)
        | boolean => rfl
        | number => rfl
        | string => rfl
        | object => rfl
  | function =>
      simp only [ofKind, parameters_eq]
      congr 1
      funext name
      congr 1
      funext params
      split
      next hnone => simp only [hnone]
      next inner hbody => simp only [hbody]

theorem node_of_unrecognized {tag : ByteString} (htag : members.First "_type" (.string tag))
    (hne : tag ≠ []) (hkind : ∀ kind : Kind, tag ≠ Text.toBytes kind.tag) :
    node (.object raw members) path = .ok (.unrecognized tag raw) := by
  rw [node]
  simp only [field?_eq_some_iff.mpr htag, List.isEmpty_iff, if_neg hne,
    ofTag?_eq_none_iff.mpr hkind]

theorem node_of_no_tag (htag : ∀ tag, members.First "_type" (.string tag) → tag = []) :
    node (.object raw members) path = fail path .noTag := by
  rw [node]
  split
  next tag hfield => simp [htag tag (field?_eq_some_iff.mp hfield)]
  next => rfl

theorem node_of_not_object {t : Term} (ht : ∀ raw members, t ≠ .object raw members) :
    node t path = fail path .notObject := by
  rw [node]
  exact ht

/-- A value that stands for a node is read as that node. -/
theorem node_of_represents {t : Term} {n : Node} (ht : Represents t n) :
    node t path = .ok n := by
  induction ht generalizing path with
  | boolean htag hvalue => rw [node_of_tagged htag, ofKind, field?_eq_some_iff.mpr hvalue]
  | number htag hvalue => rw [node_of_tagged htag, ofKind, field?_eq_some_iff.mpr hvalue]
  | reference htag hname =>
      rw [node_of_tagged htag, ofKind, stringField_of_first hname]
      rfl
  | operation htag hchildren hitems ih =>
      rw [node_of_tagged htag, ofKind, listField_of_listed hchildren,
        readAll_of_pairs 0 fun pair hpair path => ih pair hpair]
      rfl
  | function htag hname hparameters hitems hbody _ ih =>
      rw [node_of_tagged htag, ofKind, stringField_of_first hname,
        listField_of_listed hparameters,
        readAll_of_pairs 0 fun pair hpair path => parameter_of_represents (hitems pair hpair)]
      simp only [field?_eq_some_iff.mpr hbody, ih]
      rfl
  | unrecognized htag hne hkind => exact node_of_unrecognized htag hne hkind

/-- Reading a value comes to the node that it stands for or to its first violation. -/
def Reads (t : Term) : Prop :=
  ∀ path, Settles (Represents t) (Violates t) path (node t path)

theorem reads_of_tagged {kind : Kind} (htag : members.Tagged kind)
    (hkind : ∀ path, Settles (Represents (.object raw members)) (PartViolates kind members)
      path (ofKind members path kind)) : Reads (.object raw members) := by
  intro path
  rw [node_of_tagged htag]
  have hviolates : Violates (.object raw members) = PartViolates kind members := by
    funext p v
    exact propext (violates_iff_of_tagged htag)
  rw [hviolates]
  exact hkind path

theorem reads_boolean (htag : members.Tagged .boolean) : Reads (.object raw members) := by
  refine reads_of_tagged htag fun path => ?_
  rw [ofKind]
  split
  next value hvalue => exact .ok (.boolean htag (field?_eq_some_iff.mp hvalue))
  next hother =>
    have hnone : ∀ value, ¬ members.First "value" (.boolean value) :=
      fun value hvalue => hother value (field?_eq_some_iff.mpr hvalue)
    refine settles_fail (isFirst_of_subsingleton (.boolean hnone) ?_)
    rintro q w ⟨⟩
    exact ⟨rfl, rfl⟩

theorem reads_number (htag : members.Tagged .number) : Reads (.object raw members) := by
  refine reads_of_tagged htag fun path => ?_
  rw [ofKind]
  split
  next text hvalue => exact .ok (.number htag (field?_eq_some_iff.mp hvalue))
  next hother =>
    have hnone : ∀ text, ¬ members.First "value" (.number text) :=
      fun text hvalue => hother text (field?_eq_some_iff.mpr hvalue)
    refine settles_fail (isFirst_of_subsingleton (.number hnone) ?_)
    rintro q w ⟨⟩
    exact ⟨rfl, rfl⟩

theorem reads_reference (htag : members.Tagged .reference) : Reads (.object raw members) := by
  refine reads_of_tagged htag fun path => ?_
  refine settles_stringField_bind (fun hnone => ?_) fun name hname =>
    .ok (.reference htag hname)
  refine isFirst_of_subsingleton (.reference hnone) ?_
  rintro q w ⟨⟩
  exact ⟨rfl, rfl⟩

theorem reads_operation {op : Operation} (htag : members.Tagged (.operation op))
    (hitems : ∀ items, members.Listed "children" items → ∀ t ∈ items, Reads t) :
    Reads (.object raw members) := by
  refine reads_of_tagged htag fun path => ?_
  have hsegment : ∀ i j, i < j → (Segment.child i).Precedes (.child j) :=
    fun i j hlt => .inr ⟨rfl, hlt⟩
  refine (settles_listField hsegment @Represents.not_violates hitems).bind ?_ ?_
  · intro p v hfirst
    have hpart : PartViolates (.operation op) members p v := by
      cases hfirst.holds with
      | notArray hnone => exact .children hnone
      | item hlisted hitem =>
          obtain ⟨ht, hviolates⟩ := hitem
          exact .child hlisted ht hviolates
    refine isFirst_widen hfirst hpart fun q w hother => .inl ?_
    cases hother with
    | children hnone => exact .notArray hnone
    | child hlisted ht hviolates => exact .item hlisted (.item ht hviolates)
  · rintro _ ⟨pairs, hlisted, rfl, hpairs⟩
    exact .ok (.operation htag hlisted hpairs)

/-! The parts of a function. -/

theorem precedes_of_stage {s r : Segment} (hstage : s.stage < r.stage) {p q : Path}
    {v w : Violation} : (v.place (s :: p)).Precedes (w.place (r :: q)) := by
  rw [Violation.place_cons, Violation.place_cons]
  exact .rel (.inl hstage)

theorem precedes_noBody {s : Segment} (hstage : s.stage < 2) {p : Path} {v : Violation} :
    (v.place (s :: p)).Precedes (Violation.noBody.place []) := by
  rw [Violation.place_cons]
  exact .rel (.inl hstage)

theorem isFirst_name (hnone : ∀ name, ¬ members.First "name" (.string name)) :
    IsFirst (PartViolates .function members) [.field "name"] .notString := by
  refine ⟨.name hnone, fun q w hother => ?_⟩
  cases hother with
  | name => exact .inl ⟨rfl, rfl⟩
  | parameters => exact .inr (precedes_of_stage (by decide))
  | parameter => exact .inr (precedes_of_stage (by simp [Segment.stage]))
  | noBody => exact .inr (precedes_noBody (by decide))
  | body => exact .inr (precedes_of_stage (by decide))

theorem isFirst_parameters {name : ByteString} {p : Path} {v : Violation}
    (hname : members.First "name" (.string name))
    (hfirst : IsFirst (ListViolates ParameterViolates .parameter "parameters" members) p v) :
    IsFirst (PartViolates .function members) p v := by
  have hpart : PartViolates .function members p v ∧
      ∃ s rest, p = s :: rest ∧ s.stage = 1 := by
    cases hfirst.holds with
    | notArray hnone => exact ⟨.parameters hnone, _, _, rfl, rfl⟩
    | item hlisted hitem =>
        obtain ⟨ht, hviolates⟩ := hitem
        exact ⟨.parameter hlisted ht hviolates, _, _, rfl, rfl⟩
  obtain ⟨hpart, s, rest, rfl, hstage⟩ := hpart
  refine isFirst_widen hfirst hpart fun q w hother => ?_
  cases hother with
  | name hnone => exact absurd hname (hnone name)
  | parameters hnone => exact .inl (.notArray hnone)
  | parameter hlisted ht hviolates => exact .inl (.item hlisted (.item ht hviolates))
  | noBody => exact .inr (precedes_noBody (by omega))
  | body => exact .inr (precedes_of_stage (by rw [hstage]; decide))

/-- With a name and with parameters, only the body is left to violate something. -/
theorem body_of_partViolates {name : ByteString} {items : List (Term × Parameter)} {p : Path}
    {v : Violation} (hname : members.First "name" (.string name))
    (hparameters : members.Listed "parameters" (items.map Prod.fst))
    (hitems : ∀ item ∈ items, RepresentsParameter item.1 item.2)
    (hviolates : PartViolates .function members p v) :
    members.Lacks "body" ∧ p = [] ∧ v = .noBody ∨
      ∃ inner, members.First "body" inner ∧ Below (.field "body") (Violates inner) p v := by
  cases hviolates with
  | name hnone => exact absurd hname (hnone name)
  | parameters hnone => exact absurd hparameters (hnone _)
  | parameter hlisted ht hviolates =>
      cases hlisted.unique hparameters
      obtain ⟨x, hitem⟩ := exists_of_map_fst ht
      exact absurd hviolates ((hitems _ hitem).not_violates _ _)
  | noBody hlacks => exact .inl ⟨hlacks, rfl, rfl⟩
  | body hbody hviolates => exact .inr ⟨_, hbody, .part hviolates⟩

theorem reads_function (htag : members.Tagged .function)
    (hitems : ∀ items, members.Listed "parameters" items → ∀ t ∈ items, t.Genuine)
    (hinner : ∀ inner, members.First "body" inner → Reads inner) :
    Reads (.object raw members) := by
  refine reads_of_tagged htag fun path => ?_
  refine settles_stringField_bind isFirst_name fun name hname => ?_
  have hsegment : ∀ i j, i < j → (Segment.parameter i).Precedes (.parameter j) :=
    fun i j hlt => .inr ⟨rfl, hlt⟩
  refine (settles_listField hsegment @RepresentsParameter.not_violates
    fun items hlisted t ht path => settles_parameter (hitems items hlisted t ht)).bind
    (fun p v => isFirst_parameters hname) ?_
  rintro _ ⟨pairs, hlisted, rfl, hpairs⟩
  split
  next hfield =>
    have hlacks := field?_eq_none_iff.mp hfield
    refine settles_fail_here (isFirst_of_subsingleton (.noBody hlacks) fun q w hother => ?_)
    rcases body_of_partViolates hname hlisted hpairs hother with
      ⟨-, hsame⟩ | ⟨inner, hbody, -⟩
    · exact hsame
    · exact absurd hbody hlacks.not_first
  next inner hfield =>
    have hbody := field?_eq_some_iff.mp hfield
    refine (hinner inner hbody _).below.bind (fun p v hfirst => ?_) fun n hn =>
      .ok (.function htag hname hlisted hpairs hbody hn)
    have hpart : PartViolates .function members p v := by
      obtain ⟨⟨hviolates⟩, -⟩ := hfirst
      exact .body hbody hviolates
    refine isFirst_widen hfirst hpart fun q w hother => .inl ?_
    rcases body_of_partViolates hname hlisted hpairs hother with
      ⟨hlacks, -⟩ | ⟨other, hother, hbelow⟩
    · exact absurd hbody hlacks.not_first
    · rwa [hbody.unique hother]

end Parts

theorem Members.Listed.sizeOf_lt {members : Members} {name : String} {items : List Term}
    {t : Term} (hlisted : members.Listed name items) (ht : t ∈ items) :
    sizeOf t < sizeOf members := by
  have hitem := List.sizeOf_lt_of_mem ht
  cases hlisted with
  | absent => cases ht
  | null => cases ht
  | array harray =>
      have hfield := sizeOf_field_lt (field?_eq_some_iff.mpr harray)
      simp only [Json.Term.array.sizeOf_spec] at hfield
      omega

theorem Members.Listed.genuine {members : Members} {name : String} {items : List Term}
    {t : Term} (hlisted : members.Listed name items)
    (hmembers : ∀ m ∈ members, m.2.Genuine) (ht : t ∈ items) : t.Genuine := by
  cases hlisted with
  | absent => cases ht
  | null => cases ht
  | array harray =>
      cases Term.Genuine.of_lookup hmembers (field?_eq_some_iff.mpr harray) with
      | array _ hitems => exact hitems t ht

theorem reads_of_not_object {t : Term} (ht : ∀ raw members, t ≠ .object raw members) :
    Reads t := by
  intro path
  rw [node_of_not_object ht]
  exact settles_fail_here (isFirst_of_subsingleton (.notObject ht) fun q w =>
    (violates_iff_of_not_object ht).mp)

theorem reads_of_no_tag {raw : ByteString} {members : Members}
    (htag : ∀ tag, members.First "_type" (.string tag) → tag = []) :
    Reads (.object raw members) := by
  intro path
  rw [node_of_no_tag htag]
  exact settles_fail_here (isFirst_of_subsingleton (.noTag htag) fun q w =>
    (violates_iff_of_no_tag htag).mp)

theorem reads_of_kind {raw : ByteString} {members : Members} {kind : Kind}
    (htag : members.Tagged kind) (hmembers : ∀ m ∈ members, m.2.Genuine)
    (hsmaller : ∀ t, t.Genuine → sizeOf t < sizeOf members → Reads t) :
    Reads (.object raw members) := by
  cases kind with
  | boolean => exact reads_boolean htag
  | number => exact reads_number htag
  | reference => exact reads_reference htag
  | operation op =>
      refine reads_operation htag fun items hlisted t ht => ?_
      exact hsmaller t (hlisted.genuine hmembers ht) (hlisted.sizeOf_lt ht)
  | function =>
      refine reads_function htag (fun items hlisted t ht => hlisted.genuine hmembers ht) ?_
      intro inner hbody
      have hfield := field?_eq_some_iff.mpr hbody
      exact hsmaller inner (Term.Genuine.of_lookup hmembers hfield) (sizeOf_field_lt hfield)

theorem reads_object {raw : ByteString} {members : Members}
    (hmembers : ∀ m ∈ members, m.2.Genuine)
    (hsmaller : ∀ t, t.Genuine → sizeOf t < sizeOf members → Reads t) :
    Reads (.object raw members) := by
  by_cases htag : ∀ tag, members.First "_type" (.string tag) → tag = []
  · exact reads_of_no_tag htag
  · push Not at htag
    obtain ⟨tag, htag, hne⟩ := htag
    cases hkind : Kind.ofTag? tag with
    | none =>
        have hnone := ofTag?_eq_none_iff.mp hkind
        intro path
        rw [node_of_unrecognized htag hne hnone]
        exact .ok (.unrecognized htag hne hnone)
    | some kind =>
        rw [ofTag?_eq_some_iff.mp hkind] at htag
        exact reads_of_kind htag hmembers hsmaller

theorem reads {t : Term} (ht : t.Genuine) : Reads t := by
  -- By size, since the children stand in a member and not directly below the object.
  cases ht with
  | object hraw hmembers => exact reads_object hmembers fun u hu hlt => reads hu
  | null => exact reads_of_not_object nofun
  | boolean => exact reads_of_not_object nofun
  | number => exact reads_of_not_object nofun
  | string => exact reads_of_not_object nofun
  | array => exact reads_of_not_object nofun
termination_by sizeOf t
decreasing_by
  simp only [Json.Term.object.sizeOf_spec]
  omega

/-! Acceptance and errors. -/

theorem exists_node_eq_ok_iff {t : Term} (ht : t.Genuine) :
    (∃ n, node t [] = .ok n) ↔ WellFormed t := by
  constructor
  · rintro ⟨n, hn⟩
    have hreads := reads ht []
    rw [hn] at hreads
    cases hreads with
    | ok hn => exact ⟨n, hn⟩
  · rintro ⟨n, hn⟩
    exact ⟨n, node_of_represents hn⟩

theorem node_eq_error_iff {t : Term} (ht : t.Genuine) {e : DecodeError} :
    node t [] = .error e ↔ FirstViolation t e.path e.violation := by
  have hreads := reads ht []
  constructor
  · intro he
    rw [he] at hreads
    cases hreads with
    | error hfirst => exact hfirst
  · intro hfirst
    generalize node t [] = r at hreads ⊢
    cases hreads with
    | ok hn => exact absurd hfirst.holds (hn.not_violates _ _)
    | error hother =>
        obtain ⟨hpath, hviolation⟩ := hother.unique hfirst
        rw [List.nil_append, hpath, hviolation]

theorem wellFormed_iff_forall_not_violates {t : Term} (ht : t.Genuine) :
    WellFormed t ↔ ∀ p v, ¬ Violates t p v := by
  constructor
  · rintro ⟨n, hn⟩
    exact hn.not_violates
  · exact (reads ht []).exists_of_none

theorem wellFormedParameter_of_forall_not_violates {t : Term} (ht : t.Genuine)
    (hnone : ∀ p v, ¬ ParameterViolates t p v) : WellFormedParameter t := by
  have hreads : Settles (RepresentsParameter t) _ [] _ := settles_parameter ht
  exact hreads.exists_of_none hnone

/-! What stands before the first violation. -/

theorem NodeAt.genuine {t u : Term} {p : Path} (hu : NodeAt t p u) (ht : t.Genuine) :
    u.Genuine := by
  induction hu with
  | here => exact ht
  | child _ hchildren hitem _ ih =>
      cases ht with
      | object _ hmembers => exact ih (hchildren.genuine hmembers (List.mem_of_getElem? hitem))
  | body _ hbody _ ih =>
      cases ht with
      | object _ hmembers =>
          exact ih (Term.Genuine.of_lookup hmembers (field?_eq_some_iff.mpr hbody))

theorem ParameterAt.genuine {t u : Term} {p : Path} (hu : ParameterAt t p u)
    (ht : t.Genuine) : u.Genuine := by
  obtain ⟨hfunction, -, hparameters, hu⟩ := hu
  cases hfunction.genuine ht with
  | object _ hmembers => exact hparameters.genuine hmembers (List.mem_of_getElem? hu)

section Before

variable {t u : Term} {p q : Path} {v : Violation}

theorem FirstViolation.not_violates_append (hfirst : FirstViolation t p v)
    (hbefore : q.Before (v.place p)) (rest : Path) (w : Violation) :
    ¬ Violates t (q ++ rest) w := by
  apply hfirst.not_of_precedes
  rw [Violation.place_append]
  exact hbefore.append_precedes (w.place rest)

theorem FirstViolation.wellFormed_of_before (hfirst : FirstViolation t p v) (ht : t.Genuine)
    (hbefore : q.Before (v.place p)) (hu : NodeAt t q u) : WellFormed u := by
  rw [wellFormed_iff_forall_not_violates (hu.genuine ht)]
  intro rest w hviolates
  exact hfirst.not_violates_append hbefore rest w (hu.violates hviolates)

theorem FirstViolation.wellFormedParameter_of_before (hfirst : FirstViolation t p v)
    (ht : t.Genuine) (hbefore : q.Before (v.place p)) (hu : ParameterAt t q u) :
    WellFormedParameter u := by
  apply wellFormedParameter_of_forall_not_violates (hu.genuine ht)
  intro rest w hviolates
  exact hfirst.not_violates_append hbefore rest w (hu.violates hviolates)

end Before

/-- Every value that is read from a text is genuine. A genuine value is accepted exactly if
it is well formed, that is, if nothing in it is violated. The error for any other value tells
the violation that is met first, and the nodes and parameters before it are well formed. The
text of its path tells the place. -/
theorem node_locates_first_violation :
    (∀ bytes t, Term.ofBytes? bytes = some t → t.Genuine) ∧
    ∀ t : Term, t.Genuine →
      ((∃ n, node t [] = .ok n) ↔ WellFormed t) ∧
      (WellFormed t ↔ ∀ p v, ¬ Violates t p v) ∧
      (∀ e, node t [] = .error e ↔ FirstViolation t e.path e.violation) ∧
      (∀ e, node t [] = .error e → ∀ q u, q.Before (e.violation.place e.path) →
        (NodeAt t q u → WellFormed u) ∧ (ParameterAt t q u → WellFormedParameter u)) ∧
      ∀ p v q w, Violates t p v → Violates t q w → p.text = q.text → p = q := by
  refine ⟨fun bytes t => Term.genuine_of_ofBytes?, fun t ht => ?_⟩
  refine ⟨exists_node_eq_ok_iff ht, wellFormed_iff_forall_not_violates ht,
    fun e => node_eq_error_iff ht, fun e he q u hbefore => ?_, fun p v q w hp hq => ?_⟩
  · have hfirst := (node_eq_error_iff ht).mp he
    exact ⟨hfirst.wellFormed_of_before ht hbefore,
      hfirst.wellFormedParameter_of_before ht hbefore⟩
  · exact Path.eq_of_text hp.plain hq.plain

/-! A value with three violations; the parameter without a name is met first. -/

/-- A function with a parameter that has no name, and without a body. -/
def faultyFunction : Members := [
  (Text.toBytes "_type", .string (Text.toBytes "Function")),
  (Text.toBytes "name", .string (Text.toBytes "f")),
  (Text.toBytes "parameters", .array [] [
    .object [] [(Text.toBytes "name", .string (Text.toBytes "x"))],
    .object [] [(Text.toBytes "name", .number "3")]])]

/-- A conjunction of a literal, the faulty function and null. -/
def faultyScript : Members := [
  (Text.toBytes "children", .array [] [
    .object [] [
      (Text.toBytes "value", .boolean true),
      (Text.toBytes "_type", .string (Text.toBytes "LiteralBoolean"))],
    .object [] faultyFunction,
    .null]),
  (Text.toBytes "_type", .string (Text.toBytes "And"))]

theorem genuine_faultyScript : Term.Genuine (.object [] faultyScript) := by
  have hopens : ∀ c, Json.Opens c [] := fun _ => nofun
  have hfunction : Term.Genuine (.object [] faultyFunction) := by
    refine .object (hopens _) ?_
    simp only [faultyFunction, List.forall_mem_cons]
    refine ⟨.string _, .string _, .array (hopens _) ?_, nofun⟩
    simp only [List.forall_mem_cons]
    refine ⟨.object (hopens _) ?_, .object (hopens _) ?_, nofun⟩
    · simpa using Term.Genuine.string _
    · simpa using Term.Genuine.number _
  refine .object (hopens _) ?_
  simp only [faultyScript, List.forall_mem_cons]
  refine ⟨.array (hopens _) ?_, .string _, nofun⟩
  simp only [List.forall_mem_cons]
  refine ⟨.object (hopens _) ?_, hfunction, .null, nofun⟩
  simpa using ⟨Term.Genuine.boolean _, Term.Genuine.string _⟩

theorem node_faultyScript :
    node (.object [] faultyScript) [] =
      .error ⟨[.child 1, .parameter 1, .field "name"], .notString⟩ := by
  have hliteral : node (.object [] [
      (Text.toBytes "value", .boolean true),
      (Text.toBytes "_type", .string (Text.toBytes "LiteralBoolean"))]) [.child 0] =
      .ok (.boolean true) :=
    node_of_represents (.boolean (field?_eq_some_iff.mp rfl) (field?_eq_some_iff.mp rfl))
  have hfunction : node (.object [] faultyFunction) [.child 1] =
      .error ⟨[.child 1, .parameter 1, .field "name"], .notString⟩ := by
    have htag : faultyFunction.Tagged .function := field?_eq_some_iff.mp rfl
    rw [node_of_tagged htag]
    rfl
  have htag : faultyScript.Tagged (.operation .and) := field?_eq_some_iff.mp rfl
  have hchildren : faultyScript.First "children" _ := field?_eq_some_iff.mp rfl
  rw [node_of_tagged htag, ofKind, listField_of_listed (.array hchildren)]
  simp only [readAll, List.nil_append, hliteral, hfunction]
  rfl

theorem node_locates_first_violation_faultyScript :
    Term.Genuine (.object [] faultyScript) ∧
    node (.object [] faultyScript) [] =
      .error ⟨[.child 1, .parameter 1, .field "name"], .notString⟩ ∧
    FirstViolation (.object [] faultyScript) [.child 1, .parameter 1, .field "name"]
      .notString ∧
    Path.text [.child 1, .parameter 1, .field "name"] = "$.children[1].parameters[1].name" := by
  obtain ⟨-, -, hlocated, -⟩ := node_locates_first_violation.2 _ genuine_faultyScript
  exact ⟨genuine_faultyScript, node_faultyScript, (hlocated _).mp node_faultyScript,
    by decide⟩

end Decode

end ScriptTree
