import ScriptTree.Proofs.Reserved.History
import ScriptTree.Proofs.Reserved.Memory

/-!
Editions do not leak into each other. A builder has a place to itself from its first request on, so
what the memory holds is the shelf of the catalogue, and a request changes the edition of the
builder that is asked and no other.
-/

namespace ScriptTree.Reserved

/-! Builders. -/

theorem Catalogue.shelf_register (c : Catalogue) (place : Nat) :
    (c.register place).shelf = c.shelf := by
  rw [register]
  cases c.shelf[place]? with
  | none => rfl
  | some e => rfl

namespace Workshop

variable {w : Workshop} {id : String} {place : Nat}

/-- A builder has a place to itself, and no builder has the place of a built-in edition. -/
structure Places (size : Nat) (drafts built : List (String × Nat)) : Prop where
  builtin : Catalogue.builtin.shelf.length ≤ size
  ofDraft : ∀ id place, drafts.lookup id = some place →
    Catalogue.builtin.shelf.length ≤ place ∧ place < size
  ofBuilt : ∀ id place, built.lookup id = some place → place < size
  single : ∀ id other place, drafts.lookup id = some place →
    drafts.lookup other = some place → id = other
  /-- An edition that was given out is changed by the builder that gave it out. -/
  builder : ∀ id other place, built.lookup id = some place →
    drafts.lookup other = some place → id = other

def Owned (w : Workshop) : Prop := Places w.catalogue.shelf.length w.drafts w.built

theorem owned_start : start.Owned := ⟨Nat.le_refl _, nofun, nofun, nofun, nofun⟩

section Places

variable {size : Nat} {drafts built : List (String × Nat)}

theorem eq_or_of_lookup_assign {other : String} {value : Nat} {entries : List (String × Nat)}
    (hplace : (assign id value entries).lookup other = some place) :
    other = id ∧ place = value ∨ entries.lookup other = some place := by
  rw [lookup_assign] at hplace
  by_cases hother : other = id
  · rw [if_pos hother, Option.some.injEq] at hplace
    exact .inl ⟨hother, hplace.symm⟩
  · rw [if_neg hother] at hplace
    exact .inr hplace

theorem Places.draft (h : Places size drafts built) (id : String) :
    Places (size + 1) (assign id size drafts) built where
  builtin := Nat.le_succ_of_le h.builtin
  ofDraft other place hplace := by
    rcases eq_or_of_lookup_assign hplace with hnew | hold
    · have hstart := h.builtin
      omega
    · have hbound := h.ofDraft other place hold
      omega
  ofBuilt other place hplace := Nat.lt_succ_of_lt (h.ofBuilt other place hplace)
  single one other place hone hother := by
    rcases eq_or_of_lookup_assign hone with hnew | hold
    · rcases eq_or_of_lookup_assign hother with hnew' | hold'
      · exact hnew.1.trans hnew'.1.symm
      · have hbound := h.ofDraft other place hold'
        omega
    · rcases eq_or_of_lookup_assign hother with hnew' | hold'
      · have hbound := h.ofDraft one place hold
        omega
      · exact h.single one other place hold hold'
  builder one other place hone hother := by
    rcases eq_or_of_lookup_assign hother with hnew | hold
    · have hbound := h.ofBuilt one place hone
      omega
    · exact h.builder one other place hone hold

theorem Places.build (h : Places size drafts built) (hplace : drafts.lookup id = some place) :
    Places size drafts (assign id place built) where
  builtin := h.builtin
  ofDraft := h.ofDraft
  ofBuilt other there hthere := by
    rcases eq_or_of_lookup_assign hthere with hnew | hold
    · rw [hnew.2]
      exact (h.ofDraft id place hplace).2
    · exact h.ofBuilt other there hold
  single := h.single
  builder one other there hone hother := by
    rcases eq_or_of_lookup_assign hone with hnew | hold
    · rw [hnew.2] at hother
      rw [hnew.1]
      exact h.single id other place hplace hother
    · exact h.builder one other there hold hother

end Places

theorem baseEdition?_eq (hw : w.Owned) (base : Base) :
    w.baseEdition? base = (w.basePlace? base).bind (w.catalogue.shelf[·]?) := by
  cases base with
  | held place => rfl
  | named name =>
      rw [baseEdition?, base?, edition?, basePlace?]
      cases hbuilt : w.built.lookup name with
      | none => rfl
      | some place =>
          have hplace := List.getElem?_eq_getElem (hw.ofBuilt name place hbuilt)
          simp [hplace]

end Workshop

/-! Requests. -/

namespace Studio

variable {s t : Studio} {request : Request} {place : Nat}

/-- What a request can do. -/
inductive Served (s t : Studio) (request : Request) : Prop
  | placed (e : Edition)
      (target : s.target? request = none)
      (drafts : t.workshop.drafts =
        assign request.id s.workshop.catalogue.shelf.length s.workshop.drafts)
      (built : t.workshop.built = s.workshop.built)
      (shelf : t.workshop.catalogue.shelf = s.workshop.catalogue.shelf ++ [e])
      (memory : t.memory = s.memory.allocate e)
  | changed (place : Nat) (change : Change)
      (target : s.target? request = some place)
      (builder : s.workshop.drafts.lookup request.id = some place)
      (drafts : t.workshop.drafts = s.workshop.drafts)
      (built : t.workshop.built = s.workshop.built ∨
        t.workshop.built = assign request.id place s.workshop.built)
      (shelf : t.workshop.catalogue.shelf = change.onShelf place s.workshop.catalogue.shelf)
      (memory : t.memory = s.memory.alter place change)
  | kept
      (target : s.target? request = none)
      (drafts : t.workshop.drafts = s.workshop.drafts)
      (built : t.workshop.built = s.workshop.built)
      (shelf : t.workshop.catalogue.shelf = s.workshop.catalogue.shelf)
      (memory : t.memory = s.memory)

theorem served_revise {change : Change} {revision : Revision}
    (hrevision : change.revision? s.workshop.catalogue.shelf = some revision)
    (hchange : s.workshop.change? request =
      (s.workshop.drafts.lookup request.id).map (·, change))
    (hworkshop : t.workshop = s.workshop.revise request.id revision.apply)
    (hmemory : t.memory =
      match s.workshop.change? request with
      | some (place, change) => s.memory.alter place change
      | none => s.memory) :
    s.Served t request := by
  rw [hchange] at hmemory
  rw [Workshop.revise] at hworkshop
  cases hplace : s.workshop.drafts.lookup request.id with
  | none =>
      rw [hplace] at hchange hworkshop hmemory
      have htarget : s.target? request = none := by rw [target?, hchange]; rfl
      exact .kept htarget (by rw [hworkshop]) (by rw [hworkshop]) (by rw [hworkshop]) hmemory
  | some place =>
      rw [hplace] at hchange hworkshop hmemory
      have htarget : s.target? request = some place := by rw [target?, hchange]; rfl
      refine .changed place change htarget hplace (by rw [hworkshop]) (.inl (by rw [hworkshop])) ?_
        hmemory
      rw [hworkshop, Change.onShelf, hrevision]
      rfl

theorem served_idle (hchange : s.workshop.change? request = none)
    (hworkshop : t.workshop = s.workshop) (hmemory : t.memory = s.memory) : s.Served t request := by
  have htarget : s.target? request = none := by rw [target?, hchange]; rfl
  exact .kept htarget (by rw [hworkshop]) (by rw [hworkshop]) (by rw [hworkshop]) hmemory

theorem served_extend (hw : s.workshop.Owned) (id : String) (base : Base) :
    s.Served (s.serve (.extend id base)) (.extend id base) := by
  have hbase := Workshop.baseEdition?_eq hw base
  have hchange : s.workshop.change? (.extend id base) = (s.workshop.basePlace? base).bind fun b =>
      (s.workshop.drafts.lookup id).map (·, .extend b) := rfl
  cases hb : s.workshop.basePlace? base with
  | none =>
      rw [hb, Option.bind_none] at hbase hchange
      refine served_idle hchange ?_ ?_
      · simp only [serve, Workshop.serve, hbase]
      · simp only [serve, hchange]
  | some b =>
      rw [hb, Option.bind_some] at hbase hchange
      cases he : s.workshop.catalogue.shelf[b]? with
      | some e =>
          have hrevision : (Change.extend b).revision? s.workshop.catalogue.shelf =
              some (.extend e) := by
            rw [Change.revision?, he, Option.map_some]
          refine served_revise hrevision hchange ?_ rfl
          simp only [serve, Workshop.serve, hbase, he]
          rfl
      | none =>
          have hworkshop : (s.serve (.extend id base)).workshop = s.workshop := by
            simp only [serve, Workshop.serve, hbase, he]
          cases hplace : s.workshop.drafts.lookup id with
          | none =>
              rw [hplace, Option.map_none] at hchange
              refine served_idle hchange hworkshop ?_
              simp only [serve, hchange]
          | some place =>
              rw [hplace, Option.map_some] at hchange
              refine .changed place (.extend b) (by rw [target?, hchange]; rfl) hplace
                (by rw [hworkshop]) (.inl (by rw [hworkshop])) ?_ ?_
              · simp only [hworkshop, Change.onShelf, Change.revision?, he, Option.map_none]
              · simp only [serve, hchange]

theorem served_build (s : Studio) (id : String) : s.Served (s.serve (.build id)) (.build id) := by
  have hchange : s.workshop.change? (.build id) =
      (s.workshop.drafts.lookup id).map (·, .settle) := rfl
  cases hplace : s.workshop.drafts.lookup id with
  | none =>
      rw [hplace, Option.map_none] at hchange
      refine served_idle hchange ?_ ?_
      · simp only [serve, Workshop.serve, Workshop.build, hplace]
      · simp only [serve, hchange]
  | some place =>
      rw [hplace, Option.map_some] at hchange
      have hworkshop : (s.serve (.build id)).workshop =
          { s.workshop with
            catalogue := s.workshop.catalogue.modify place Edition.settle
            built := assign id place s.workshop.built } := by
        simp only [serve, Workshop.serve, Workshop.build, hplace]
      refine .changed place .settle (by rw [target?, hchange]; rfl) hplace (by rw [hworkshop])
        (.inr (by rw [hworkshop]; rfl)) (by rw [hworkshop]; rfl) ?_
      simp only [serve, hchange]

theorem served_register (s : Studio) (id : String) :
    s.Served (s.serve (.register id)) (.register id) := by
  have hworkshop : (s.serve (.register id)).workshop = s.workshop.register id := rfl
  rw [Workshop.register] at hworkshop
  cases hplace : s.workshop.built.lookup id with
  | none =>
      rw [hplace] at hworkshop
      exact served_idle rfl hworkshop rfl
  | some place =>
      rw [hplace] at hworkshop
      refine .kept rfl (by rw [hworkshop]) (by rw [hworkshop]) ?_ rfl
      rw [hworkshop]
      exact s.workshop.catalogue.shelf_register place

theorem served (hw : s.workshop.Owned) (request : Request) :
    s.Served (s.serve request) request := by
  cases request with
  | draft id dialect name => exact .placed (.blank dialect name) rfl rfl rfl rfl rfl
  | addWords id words => exact served_revise rfl rfl rfl rfl
  | addStrictWords id words => exact served_revise rfl rfl rfl rfl
  | drop id words => exact served_revise rfl rfl rfl rfl
  | addAliases id names => exact served_revise rfl rfl rfl rfl
  | extend id base => exact served_extend hw id base
  | build id => exact served_build s id
  | register id => exact served_register s id

/-! What holds in every run. -/

/-- The memory holds the shelf of the catalogue. -/
structure Faithful (s : Studio) : Prop where
  separate : s.memory.Separate
  owned : s.workshop.Owned
  shelf : s.memory.shelf = s.workshop.catalogue.shelf

theorem Served.owned (hw : s.workshop.Owned) (hserved : s.Served t request) :
    t.workshop.Owned := by
  rw [Workshop.Owned] at hw ⊢
  cases hserved with
  | placed e _ hdrafts hbuilt hshelf _ =>
      rw [hdrafts, hbuilt, hshelf, List.length_append]
      exact hw.draft request.id
  | changed place change _ hplace hdrafts hbuilt hshelf _ =>
      rw [hdrafts, hshelf, change.length_onShelf]
      rcases hbuilt with hbuilt | hbuilt
      · rw [hbuilt]
        exact hw
      · rw [hbuilt]
        exact hw.build hplace
  | kept _ hdrafts hbuilt hshelf _ =>
      rw [hdrafts, hbuilt, hshelf]
      exact hw

theorem Faithful.serve (hs : s.Faithful) (request : Request) : (s.serve request).Faithful := by
  have hserved := served hs.owned request
  refine ⟨?_, hserved.owned hs.owned, ?_⟩
  · cases hserved with
    | placed e _ _ _ _ hmemory =>
        rw [hmemory]
        exact hs.separate.allocate e
    | changed place change _ _ _ _ _ hmemory =>
        rw [hmemory]
        exact hs.separate.alter place change
    | kept _ _ _ _ hmemory =>
        rw [hmemory]
        exact hs.separate
  · cases hserved with
    | placed e _ _ _ hshelf hmemory =>
        rw [hmemory, hshelf, Memory.shelf_allocate hs.separate, hs.shelf]
    | changed place change _ _ _ _ hshelf hmemory =>
        rw [hmemory, hshelf, Memory.shelf_alter hs.separate, hs.shelf]
    | kept _ _ _ hshelf hmemory => rw [hmemory, hshelf, hs.shelf]

theorem Faithful.run (hs : s.Faithful) (requests : List Request) : (s.run requests).Faithful := by
  induction requests generalizing s with
  | nil => exact hs
  | cons request later ih => exact ih (hs.serve request)

theorem faithful_start : start.Faithful := by
  have hempty : Memory.Separate ⟨[], []⟩ := ⟨List.nodup_nil, nofun⟩
  have hheld := hempty.foldl_allocate Catalogue.builtin.shelf
  exact ⟨hheld.1, Workshop.owned_start, hheld.2⟩

variable {later : List Request} {e : Edition} {id : String}

theorem Served.lookup_drafts (hserved : s.Served t request) (hid : request.id ≠ id) :
    t.workshop.drafts.lookup id = s.workshop.drafts.lookup id := by
  cases hserved with
  | placed e _ hdrafts _ _ _ => rw [hdrafts, lookup_assign, if_neg hid.symm]
  | changed _ _ _ _ hdrafts _ _ _ | kept _ hdrafts _ _ _ => rw [hdrafts]

theorem Served.lookup_built (hserved : s.Served t request) (hid : request.id ≠ id) :
    t.workshop.built.lookup id = s.workshop.built.lookup id := by
  cases hserved with
  | placed _ _ _ hbuilt _ _ | kept _ _ hbuilt _ _ => rw [hbuilt]
  | changed _ _ _ _ _ hbuilt _ _ =>
      rcases hbuilt with hbuilt | hbuilt
      · rw [hbuilt]
      · rw [hbuilt, lookup_assign, if_neg hid.symm]

theorem Served.length_le (hserved : s.Served t request) :
    s.workshop.catalogue.shelf.length ≤ t.workshop.catalogue.shelf.length := by
  cases hserved with
  | placed _ _ _ _ hshelf _ =>
      rw [hshelf, List.length_append]
      exact Nat.le_add_right _ _
  | changed place change _ _ _ _ hshelf _ =>
      exact Nat.le_of_eq (by rw [hshelf, change.length_onShelf])
  | kept _ _ _ hshelf _ => exact Nat.le_of_eq (congrArg List.length hshelf.symm)

theorem Served.lookup_drafts_of_lt (hserved : s.Served t request)
    (hplace : place < s.workshop.catalogue.shelf.length)
    (hlookup : t.workshop.drafts.lookup id = some place) :
    s.workshop.drafts.lookup id = some place := by
  cases hserved with
  | placed _ _ hdrafts _ _ _ =>
      rw [hdrafts] at hlookup
      rcases Workshop.eq_or_of_lookup_assign hlookup with hnew | hold
      · omega
      · exact hold
  | changed _ _ _ _ hdrafts _ _ _ | kept _ hdrafts _ _ _ =>
      rw [hdrafts] at hlookup
      exact hlookup

theorem Served.builder (hserved : s.Served t request) (htarget : s.target? request = some place) :
    s.workshop.drafts.lookup request.id = some place := by
  cases hserved with
  | placed _ hnone _ _ _ _ | kept hnone _ _ _ _ =>
      rw [hnone] at htarget
      cases htarget
  | changed other _ hother hbuilder _ _ _ _ =>
      rw [hother, Option.some.injEq] at htarget
      rw [← htarget]
      exact hbuilder

theorem edition?_serve (hs : s.Faithful) (he : s.memory.edition? place = some e)
    (htarget : s.target? request ≠ some place) :
    (s.serve request).memory.edition? place = some e := by
  rw [← Memory.shelf_getElem?] at he ⊢
  cases served hs.owned request with
  | placed _ _ _ _ _ hmemory =>
      rw [hmemory, Memory.shelf_allocate hs.separate,
        List.getElem?_append_left (List.getElem?_eq_some_iff.mp he).1]
      exact he
  | changed other change hother _ _ _ _ hmemory =>
      have hne : other ≠ place := fun hsame => htarget (hsame ▸ hother)
      rw [hmemory, Memory.shelf_alter hs.separate, change.getElem?_onShelf_of_ne hne]
      exact he
  | kept _ _ _ _ hmemory =>
      rw [hmemory]
      exact he

theorem edition?_run (hs : s.Faithful) (he : s.memory.edition? place = some e)
    (hplace : place ∉ s.targets later) : (s.run later).memory.edition? place = some e := by
  induction later generalizing s with
  | nil => exact he
  | cons request later ih =>
      rw [targets, List.mem_append, not_or, Option.mem_toList] at hplace
      exact ih (hs.serve request) (edition?_serve hs he hplace.1) hplace.2

/-- An edition is no target as long as its builder is not asked. A later builder gets another
place, also under the same id. -/
theorem not_mem_targets (hs : s.Faithful) (hplace : place < s.workshop.catalogue.shelf.length)
    (hasked : ∀ request ∈ later, s.workshop.drafts.lookup request.id ≠ some place) :
    place ∉ s.targets later := by
  induction later generalizing s with
  | nil => exact List.not_mem_nil
  | cons request later ih =>
      have hserved := served hs.owned request
      rw [List.forall_mem_cons] at hasked
      rw [targets, List.mem_append, not_or, Option.mem_toList]
      refine ⟨fun htarget => hasked.1 (hserved.builder htarget), ?_⟩
      apply ih (hs.serve request) (Nat.lt_of_lt_of_le hplace hserved.length_le)
      intro other hother hlookup
      exact hasked.2 other hother (hserved.lookup_drafts_of_lt hplace hlookup)

theorem edition?_run_of_unasked (hs : s.Faithful)
    (hplace : place < s.workshop.catalogue.shelf.length)
    (hasked : ∀ request ∈ later, s.workshop.drafts.lookup request.id ≠ some place) :
    (s.run later).memory.edition? place = s.memory.edition? place := by
  have hheld : s.memory.edition? place = some s.workshop.catalogue.shelf[place] := by
    rw [← Memory.shelf_getElem?, hs.shelf, List.getElem?_eq_getElem hplace]
  rw [hheld]
  exact edition?_run hs hheld (not_mem_targets hs hplace hasked)

theorem Faithful.lt_length (hs : s.Faithful) (he : s.memory.edition? place = some e) :
    place < s.workshop.catalogue.shelf.length := by
  rw [← Memory.shelf_getElem?, hs.shelf] at he
  exact (List.getElem?_eq_some_iff.mp he).1

/-! Builders by their ids. -/

/-- What no request of a run changes, the run does not change. -/
theorem eq_of_run {β : Type} (view : Studio → β) (hs : s.Faithful)
    (hstep : ∀ request ∈ later, ∀ t : Studio, t.Faithful → view (t.serve request) = view t) :
    view (s.run later) = view s := by
  induction later generalizing s with
  | nil => rfl
  | cons request later ih =>
      rw [List.forall_mem_cons] at hstep
      exact (ih (hs.serve request) hstep.2).trans (hstep.1 s hs)

theorem lookup_drafts_run (hs : s.Faithful) (hid : ∀ request ∈ later, request.id ≠ id) :
    (s.run later).workshop.drafts.lookup id = s.workshop.drafts.lookup id := by
  apply eq_of_run (fun s => s.workshop.drafts.lookup id) hs
  intro request hrequest t ht
  exact (served ht.owned request).lookup_drafts (hid request hrequest)

theorem lookup_built_run (hs : s.Faithful) (hid : ∀ request ∈ later, request.id ≠ id) :
    (s.run later).workshop.built.lookup id = s.workshop.built.lookup id := by
  apply eq_of_run (fun s => s.workshop.built.lookup id) hs
  intro request hrequest t ht
  exact (served ht.owned request).lookup_built (hid request hrequest)

theorem draftOf?_run (hs : s.Faithful) (hid : ∀ request ∈ later, request.id ≠ id) :
    (s.run later).draftOf? id = s.draftOf? id := by
  rw [draftOf?, draftOf?, lookup_drafts_run hs hid]
  cases hplace : s.workshop.drafts.lookup id with
  | none => rfl
  | some place =>
      apply edition?_run_of_unasked hs (hs.owned.ofDraft id place hplace).2
      intro request hrequest hsame
      exact hid request hrequest (hs.owned.single request.id id place hsame hplace)

theorem builtOf?_run (hs : s.Faithful) (hid : ∀ request ∈ later, request.id ≠ id) :
    (s.run later).builtOf? id = s.builtOf? id := by
  rw [builtOf?, builtOf?, lookup_built_run hs hid]
  cases hplace : s.workshop.built.lookup id with
  | none => rfl
  | some place =>
      apply edition?_run_of_unasked hs (hs.owned.ofBuilt id place hplace)
      intro request hrequest hsame
      exact hid request hrequest (hs.owned.builder id request.id place hplace hsame).symm

/-! Extensions. -/

theorem draftOf?_extend {base : Base} {other : Nat} {b : Edition} (hs : s.Faithful)
    (he : s.draftOf? id = some e) (hbase : s.workshop.basePlace? base = some other)
    (hb : s.memory.edition? other = some b) :
    (s.serve (.extend id base)).draftOf? id = some (e.extend b) := by
  rw [draftOf?, Option.bind_eq_some_iff] at he
  obtain ⟨place, hplace, he⟩ := he
  have hchange : s.workshop.change? (.extend id base) = some (place, .extend other) := by
    rw [Workshop.change?, hbase, Option.bind_some, hplace, Option.map_some]
  have hmemory : (s.serve (.extend id base)).memory = s.memory.alter place (.extend other) := by
    simp only [serve, hchange]
  have hdrafts : (s.serve (.extend id base)).workshop.drafts = s.workshop.drafts := by
    cases served hs.owned (.extend id base) with
    | placed _ hnone _ _ _ _ =>
        rw [target?, hchange] at hnone
        cases hnone
    | changed _ _ _ _ hdrafts _ _ _ | kept _ hdrafts _ _ _ => exact hdrafts
  rw [← Memory.shelf_getElem?] at he hb
  rw [draftOf?, hdrafts, hplace, Option.bind_some, ← Memory.shelf_getElem?, hmemory,
    Memory.shelf_alter hs.separate, Change.onShelf, Change.revision?, hb, Option.map_some,
    List.getElem?_modify_eq, he]
  rfl

/-- What a run leaves of the editions that there are. An edition answers from its words alone, so
its answers stay as long as the edition does. -/
structure Kept (s : Studio) (later : List Request) : Prop where
  shelf : (s.run later).memory.shelf = (s.run later).workshop.catalogue.shelf
  /-- Only a request to its builder changes an edition. -/
  builder : ∀ request place, s.target? request = some place →
    s.workshop.drafts.lookup request.id = some place
  edition : ∀ place e, s.memory.edition? place = some e → place ∉ s.targets later →
    (s.run later).memory.edition? place = some e
  others : ∀ id, (∀ request ∈ later, request.id ≠ id) →
    (s.run later).draftOf? id = s.draftOf? id ∧ (s.run later).builtOf? id = s.builtOf? id
  /-- The base of an extension stays as it was, whatever the extending builder does. -/
  base : ∀ id base place b, s.workshop.basePlace? base = some place →
    s.memory.edition? place = some b → s.workshop.drafts.lookup id ≠ some place →
    (∀ request ∈ later, request.id = id) →
    ((s.serve (.extend id base)).run later).memory.edition? place = some b
  /-- An extension has the words that its base had, whatever happens to the base. -/
  extension : ∀ id e base place b, s.draftOf? id = some e →
    s.workshop.basePlace? base = some place → s.memory.edition? place = some b →
    (∀ request ∈ later, request.id ≠ id) →
    ((s.serve (.extend id base)).run later).draftOf? id = some (e.extend b)
  builtin : ∀ place e, Catalogue.builtin.shelf[place]? = some e →
    (s.run later).memory.edition? place = some e

theorem builtin_run {requests : List Request} (he : Catalogue.builtin.shelf[place]? = some e) :
    (start.run requests).memory.edition? place = some e := by
  have hs := faithful_start
  have hshelf : start.memory.edition? place = some e := by
    rw [← Memory.shelf_getElem?, hs.shelf]
    exact he
  exact (edition?_run_of_unasked hs (hs.lt_length hshelf) nofun).trans hshelf

theorem run_append (s : Studio) (requests later : List Request) :
    s.run (requests ++ later) = (s.run requests).run later :=
  List.foldl_append

theorem editions_kept (requests later : List Request) : (start.run requests).Kept later := by
  have hs := faithful_start.run requests
  refine ⟨(hs.run later).shelf, ?builder, ?edition, ?others, ?base, ?extension, ?builtin⟩
  case builder =>
    intro request place htarget
    exact (served hs.owned request).builder htarget
  case edition =>
    intro place e he hplace
    exact edition?_run hs he hplace
  case others =>
    intro id hid
    exact ⟨draftOf?_run hs hid, builtOf?_run hs hid⟩
  case base =>
    intro id base place b hbase hb hplace hid
    -- The extension is the first of the requests to that builder.
    have hasked : ∀ request ∈ .extend id base :: later,
        (start.run requests).workshop.drafts.lookup request.id ≠ some place := by
      intro request hrequest
      rcases List.mem_cons.mp hrequest with rfl | hmem
      · exact hplace
      · rw [hid request hmem]
        exact hplace
    have hkept := edition?_run_of_unasked hs (hs.lt_length hb) hasked
    exact hkept.trans hb
  case extension =>
    intro id e base place b he hbase hb hid
    rw [draftOf?_run (hs.serve _) hid]
    exact draftOf?_extend hs he hbase hb
  case builtin =>
    intro place e he
    rw [← run_append]
    exact builtin_run he

/-- Two builders that extend each other. -/
example :
    let s := start.run [
      .draft "a" .es5 "first", .draft "b" .es6 "second", .addWords "a" ["x"], .build "a",
      .extend "b" (.named "a"), .build "b", .addStrictWords "b" ["y"], .extend "a" (.named "b"),
      .drop "b" ["x"], .drop "a" ["y"]]
    s.draftOf? "a" = some ⟨.es5, "first", [], ["x"], []⟩ ∧
      s.builtOf? "b" = some ⟨.es6, "second", [], [], ["y"]⟩ := by
  decide

end Studio

end ScriptTree.Reserved
