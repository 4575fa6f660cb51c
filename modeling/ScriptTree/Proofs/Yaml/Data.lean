import ScriptTree.Proofs.Yaml.Compose
import ScriptTree.Proofs.Yaml.Numeric
import ScriptTree.Yaml.Value

/-!
The data of a node tree that mirrors a value. Such a tree has no aliases and merges nothing, so
that nothing is counted twice and no part is left out.
-/

namespace ScriptTree

/-! The data of a value. -/

namespace Json.Term

mutual

def data : Term → Yaml.Value
  | null => .scalar .null
  | boolean value => .scalar (.bool value)
  | number text => .scalar (.ofPlain true text)
  | string s => .scalar (.str s.text)
  | array _ items => .sequence (itemData items)
  | object _ members => .object (memberData members)

def itemData : List Term → List Yaml.Value
  | [] => []
  | t :: rest => data t :: itemData rest

def memberData : List (ByteString × Term) → List (String × Yaml.Value)
  | [] => []
  | (key, t) :: rest => (key.text, data t) :: memberData rest

end

theorem itemData_eq_map (items : List Term) : itemData items = items.map data := by
  induction items with
  | nil => rfl
  | cons t rest ih => rw [itemData, ih, List.map_cons]

theorem memberData_eq_map (members : List (ByteString × Term)) :
    memberData members = members.map fun m => (m.1.text, m.2.data) := by
  induction members with
  | nil => rfl
  | cons m rest ih => rw [memberData, ih, List.map_cons]

end Json.Term

namespace Yaml

/-! Reading without aliases. -/

/-- Nothing is amiss so far, and nothing was reached through an alias. -/
structure Tally.Clean (t : Tally) : Prop where
  reasons : t.reasons = []
  copied : t.copied = 0
  depth : t.depth = 0

theorem Tally.Clean.not_excessive {t : Tally} (ht : t.Clean) : t.isExcessive = false := by
  have hfew : ¬ 100 < t.copied := by
    rw [ht.copied]
    decide
  rw [isExcessive, decide_eq_false hfew]
  rfl

theorem Reading.visit_succeeds {s : Tally} (hs : s.Clean) :
    Succeeds Reading.visit s fun _ u => u.Clean := by
  have hclean : Tally.Clean
      { s with reached := s.reached + 1, copied := s.copied + if 0 < s.depth then 1 else 0 } := by
    refine ⟨hs.reasons, ?_, hs.depth⟩
    rw [hs.depth, hs.copied]
    rfl
  refine Succeeds.bind (Succeeds.modify ?_)
  refine Succeeds.bind (Succeeds.get ?_)
  rw [hclean.not_excessive]
  exact Succeeds.pure hclean

namespace Node

variable {s : Tally}

/-! Keys. -/

theorem isMerge_pair (e : Entry) : e.pair.1.isMerge = false := by
  rw [Entry.pair, isMerge]
  exact Bool.and_false _

theorem hasStringKeys_entries (entries : List Entry) :
    hasStringKeys (entries.map Entry.pair) = true := by
  rw [hasStringKeys, List.all_map, List.all_eq_true]
  intro e _
  rfl

theorem repeatedKeys_entries {entries : List Entry}
    (hkeys : (entries.map fun e => e.key.text).Nodup) :
    repeatedKeys (entries.map Entry.pair) = [] := by
  induction entries with
  | nil => rfl
  | cons e entries ih =>
      rw [List.map_cons, List.nodup_cons] at hkeys
      have hother : (entries.map Entry.pair).filter (fun pair => sameKey e.pair.1 pair.1) = [] := by
        rw [List.filter_eq_nil_iff, List.forall_mem_map]
        intro other hmem hsame
        have hsame : e.key.text = other.key.text := of_decide_eq_true hsame
        exact hkeys.1 (hsame ▸ List.mem_map_of_mem hmem)
      rw [List.map_cons, repeatedKeys, hother, ih hkeys.2]
      rfl

theorem lastOfEach_of_nodup {entries : List (Scalar × Value)}
    (hkeys : (entries.map Prod.fst).Nodup) : lastOfEach entries = entries := by
  induction entries with
  | nil => rfl
  | cons entry entries ih =>
      rw [List.map_cons, List.nodup_cons] at hkeys
      have hnone : entries.any (fun other => other.1 = entry.1) = false := by
        rw [List.any_eq_false]
        intro other hmem hsame
        exact hkeys.1 (of_decide_eq_true hsame ▸ List.mem_map_of_mem hmem)
      rw [lastOfEach, hnone, ih hkeys.2]
      rfl

def entryData (e : Entry) : Scalar × Value := (.str e.key.text, e.term.data)

theorem assemble_entries (entries : List Entry) :
    assemble true (entries.map entryData) =
      .object (Json.Term.memberData (entries.map Entry.member)) := by
  rw [assemble, if_pos rfl, Json.Term.memberData_eq_map, List.filterMap_map, List.map_map]
  exact congrArg Value.object (congrFun List.filterMap_eq_map entries)

theorem key_succeeds (e : Entry) (hs : s.Clean) :
    Succeeds (key true e.pair.1) s fun k u => k = some (.str e.key.text) ∧ u.Clean := by
  rw [Entry.pair, key]
  refine (Reading.visit_succeeds hs).andThen fun _ u hu => ?_
  exact Succeeds.bind (Succeeds.lift rfl (Succeeds.pure ⟨rfl, hu⟩))

/-! Nodes. -/

/-- A node is read as the data of a value, without a note. -/
def Yields (n : Node) (t : Json.Term) : Prop :=
  ∀ s : Tally, s.Clean → Succeeds n.value s fun v u => v = some t.data ∧ u.Clean

theorem ownEntries_succeeds {entries : List Entry} (hentries : ∀ e ∈ entries, Yields e.node e.term)
    (hs : s.Clean) :
    Succeeds (ownEntries true none (entries.map Entry.pair)) s fun list u =>
      list = entries.map entryData ∧ u.Clean := by
  induction entries generalizing s with
  | nil => exact Succeeds.pure ⟨rfl, hs⟩
  | cons e entries ih =>
      obtain ⟨he, hmore⟩ := List.forall_mem_cons.mp hentries
      rw [List.map_cons, ownEntries, isMerge_pair]
      refine (key_succeeds e hs).andThen ?_
      rintro _ u ⟨rfl, hu⟩
      refine (he u hu).andThen ?_
      rintro _ v ⟨rfl, hv⟩
      refine (ih hmore hv).andThen ?_
      rintro _ w ⟨rfl, hw⟩
      exact Succeeds.pure ⟨rfl, hw⟩

theorem values_succeed {items : List (Node × Json.Term)}
    (hitems : ∀ item ∈ items, Yields item.1 item.2) (hs : s.Clean) :
    Succeeds (values (items.map Prod.fst)) s fun vs u =>
      vs = Json.Term.itemData (items.map Prod.snd) ∧ u.Clean := by
  induction items generalizing s with
  | nil => exact Succeeds.pure ⟨rfl, hs⟩
  | cons item items ih =>
      obtain ⟨hitem, hmore⟩ := List.forall_mem_cons.mp hitems
      rw [List.map_cons, values]
      refine (hitem s hs).andThen ?_
      rintro _ u ⟨rfl, hu⟩
      refine (ih hmore hu).andThen ?_
      rintro _ v ⟨rfl, hv⟩
      exact Succeeds.pure ⟨rfl, hv⟩

theorem collect_succeeds {entries : List Entry} (hkeys : (entries.map fun e => e.key.text).Nodup)
    (hentries : ∀ e ∈ entries, Yields e.node e.term)
    {merged : List Scalar → Reading (List (Scalar × Value))} (hs : s.Clean) :
    Succeeds (collect (entries.map Entry.pair) none
      (ownEntries true none (entries.map Entry.pair)) merged) s fun list u =>
        list = some (entries.map entryData) ∧ u.Clean := by
  have hdistinct : ((entries.map entryData).map Prod.fst).Nodup := by
    have hstr := hkeys.map fun _ _ => Scalar.str.inj
    simpa [entryData, Function.comp_def] using hstr
  have hmerge : (entries.map Entry.pair).any (·.1.isMerge) = false := by
    rw [List.any_map, List.any_eq_false]
    intro e _
    exact Bool.eq_false_iff.mp (isMerge_pair e)
  rw [collect, repeatedKeys_entries hkeys]
  refine (ownEntries_succeeds hentries hs).andThen ?_
  rintro _ u ⟨rfl, hu⟩
  simp only [lastOfEach_of_nodup hdistinct, hmerge]
  exact Succeeds.pure ⟨rfl, hu⟩

theorem yields_of_plain {text : String} {line : Nat} {x : Scalar} {t : Json.Term}
    (hscalar : Scalar.ofPlain true text = x) (hdata : t.data = .scalar x)
    (hforeign : ∀ tag other, x ≠ .foreign tag other) :
    Yields (.scalar text none .plain line) t := by
  intro s hs
  rw [value, hdata]
  refine (Reading.visit_succeeds hs).andThen fun _ u hu => ?_
  refine Succeeds.bind (Succeeds.lift (congrArg Except.ok hscalar) ?_)
  cases x with
  | foreign tag other => exact absurd rfl (hforeign tag other)
  | null | bool | int | float | timestamp | str | binary => exact Succeeds.pure ⟨rfl, hu⟩

theorem yields_of_mirrors {n : Node} {t : Json.Term} (hmirrors : Mirrors n t) : Yields n t := by
  induction hmirrors with
  | null => exact yields_of_plain rfl rfl nofun
  | @boolean value =>
      cases value with
      | true => exact yields_of_plain rfl rfl nofun
      | false => exact yields_of_plain rfl rfl nofun
  | @number text _ htext =>
      have hresolves := Scalar.resolves_of_sharedNumber htext
      rw [String.ofList_toList] at hresolves
      exact yields_of_plain rfl rfl hresolves.not_foreign
  | string =>
      intro s hs
      rw [value]
      refine (Reading.visit_succeeds hs).andThen fun _ u hu => ?_
      exact Succeeds.bind (Succeeds.lift rfl (Succeeds.pure ⟨rfl, hu⟩))
  | array _ ih =>
      intro s hs
      rw [value]
      refine (Reading.visit_succeeds hs).andThen fun _ u hu => ?_
      refine (values_succeed ih hu).andThen ?_
      rintro _ v ⟨rfl, hv⟩
      exact Succeeds.pure ⟨rfl, hv⟩
  | object hkeys _ ih =>
      intro s hs
      rw [value, hasStringKeys_entries]
      refine (Reading.visit_succeeds hs).andThen fun _ u hu => ?_
      refine (collect_succeeds hkeys ih hu).andThen ?_
      rintro _ v ⟨rfl, hv⟩
      refine Succeeds.pure ⟨?_, hv⟩
      rw [Option.map_some, assemble_entries, Json.Term.data]

end Node

theorem Reading.finish_of_succeeds {r : Reading α} {a : α}
    (hr : ∀ s : Tally, s.Clean → Succeeds r s fun b u => b = a ∧ u.Clean) : r.finish = .ok a := by
  have hstart : Tally.Clean {} := ⟨rfl, rfl, rfl⟩
  obtain ⟨_, t, hrun, rfl, ht⟩ :=
    (Reading.visit_succeeds hstart).andThen (f := fun _ => r) fun _ u hu => hr u hu
  rw [finish, seqRight_eq_bind, hrun]
  simp only [ht.reasons, List.isEmpty_nil, if_true]

open Json.Syntax (SharedDocument) in
/-- A shared text has the data of its value. -/
theorem Value.ofBytes_of_document {cs : List Char} {raw : ByteString}
    {members : List (ByteString × Json.Term)}
    (hdocument : SharedDocument cs (.object raw members)) :
    Value.ofBytes (Text.ofChars cs) = .ok (Json.Term.object raw members).data := by
  obtain ⟨n, hsource, hmirrors⟩ := Node.ofSource_of_document hdocument
  have hfinish : n.value.finish = .ok (some (Json.Term.object raw members).data) :=
    Reading.finish_of_succeeds (Node.yields_of_mirrors hmirrors)
  -- by `delta`: the equation lemma would run the scan on an unknown text
  delta ofBytes
  rw [hsource]
  simp only [hfinish, Option.getD_some]

namespace Value

/-! Objects of scalars, which are told apart by computing. -/

def scalar? : Value → Option Scalar
  | scalar s => some s
  | _ => none

/-- The members of an object of scalars. -/
def scalars? : Value → Option (List (String × Scalar))
  | object members => members.mapM fun m => m.2.scalar?.map (m.1, ·)
  | _ => none

theorem eq_of_scalar? {v : Value} {s : Scalar} (hscalar : v.scalar? = some s) : v = scalar s := by
  match v, hscalar with
  | scalar _, rfl => rfl

theorem eq_of_scalars? {v : Value} {fields : List (String × Scalar)}
    (hscalars : v.scalars? = some fields) :
    v = object (fields.map fun field => (field.1, scalar field.2)) := by
  cases v with
  | object members =>
      congr 1
      rw [scalars?] at hscalars
      induction members generalizing fields with
      | nil =>
          cases hscalars
          rfl
      | cons m rest ih =>
          rw [List.mapM_cons] at hscalars
          obtain ⟨field, hfield, hscalars⟩ := Option.bind_eq_some_iff.mp hscalars
          obtain ⟨others, hothers, hscalars⟩ := Option.bind_eq_some_iff.mp hscalars
          obtain ⟨s, hs, rfl⟩ := Option.map_eq_some_iff.mp hfield
          cases hscalars
          rw [List.map_cons, ← eq_of_scalar? hs, ← ih hothers]
  | _ => cases hscalars

end Value

end Yaml

end ScriptTree
