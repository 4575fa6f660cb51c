import ScriptTree.Script.Node

/-!
Places in a script. A path leads from the root down through operands and bodies; among
places that differ, the one to the left is met first when a script is read in order.
A node without a compiled form is exposed unless it stands below an equality with one
operand.
-/

namespace ScriptTree

namespace Path

/-- Where the two paths part, the first one takes the earlier operand. -/
inductive LeftOf : Path → Path → Prop
  | here {i j : Nat} (hlt : i < j) (p q : Path) : LeftOf (.child i :: p) (.child j :: q)
  | there (s : Segment) {p q : Path} (hleft : LeftOf p q) : LeftOf (s :: p) (s :: q)

theorem LeftOf.asymm {p q : Path} (hleft : p.LeftOf q) : ¬ q.LeftOf p := by
  induction hleft with
  | here hlt p q =>
      intro hback
      cases hback with
      | here hgt => omega
      | there => omega
  | there s _ ih =>
      intro hback
      cases hback with
      | here hgt => omega
      | there _ hback => exact ih hback

end Path

namespace Node

def child? : Node → Segment → Option Node
  | operation _ operands, .child i => operands[i]?
  | function _ _ body, .field name => if name = "body" then some body else none
  | _, _ => none

/-- The node at the end of a path from the root. -/
def at? (n : Node) : Path → Option Node
  | [] => some n
  | s :: rest => (n.child? s).bind (at? · rest)

/-- The tag by which compilation names a node that it has no form for. -/
def unknownTag? : Node → Option ByteString
  | missing _ => some []
  | unrecognized tag _ => some tag
  | boolean _ | number _ | reference _ | operation _ _ | function _ _ _ => none

/-- A node without a compiled form stands at the place. -/
def UnknownAt (n : Node) (p : Path) (tag : ByteString) : Prop :=
  ∃ m, n.at? p = some m ∧ m.unknownTag? = some tag

def IsLoneEquality (n : Node) : Prop := ∃ operand, n = operation .equal [operand]

/-- A node with the property stands above the place. -/
def Below (property : Node → Prop) (n : Node) (p : Path) : Prop :=
  ∃ q rest m, p = q ++ rest ∧ rest ≠ [] ∧ n.at? q = some m ∧ property m

/-- An equality with exactly one operand stands above the place. -/
def BelowLoneEquality (n : Node) (p : Path) : Prop := n.Below IsLoneEquality p

def ExposedAt (n : Node) (p : Path) (tag : ByteString) : Prop :=
  n.UnknownAt p tag ∧ ¬ n.BelowLoneEquality p

/-- The first exposed node in the order of reading. -/
structure Leftmost (n : Node) (p : Path) (tag : ByteString) : Prop where
  exposed : n.ExposedAt p tag
  left : ∀ q other, n.ExposedAt q other → q = p ∨ p.LeftOf q

theorem at?_append (n : Node) (p q : Path) : n.at? (p ++ q) = (n.at? p).bind (·.at? q) := by
  induction p generalizing n with
  | nil => rfl
  | cons s p ih =>
      rw [List.cons_append, at?, at?]
      cases n.child? s with
      | none => rfl
      | some m => exact ih m

/-! One step down. -/

theorem unknownAt_nil {n : Node} {tag : ByteString} :
    n.UnknownAt [] tag ↔ n.unknownTag? = some tag := by
  simp [UnknownAt, at?]

theorem unknownAt_cons {n : Node} {s : Segment} {p : Path} {tag : ByteString} :
    n.UnknownAt (s :: p) tag ↔ ∃ m, n.child? s = some m ∧ m.UnknownAt p tag := by
  cases hchild : n.child? s with
  | none => simp [UnknownAt, at?, hchild]
  | some m => simp [UnknownAt, at?, hchild]

theorem not_below_nil (property : Node → Prop) (n : Node) : ¬ n.Below property [] := by
  intro hbelow
  obtain ⟨q, rest, m, hp, hrest, -⟩ := hbelow
  exact hrest (List.append_eq_nil_iff.mp hp.symm).2

theorem below_cons {property : Node → Prop} {n : Node} {s : Segment} {p : Path} :
    n.Below property (s :: p) ↔
      property n ∨ ∃ m, n.child? s = some m ∧ m.Below property p := by
  constructor
  · intro hbelow
    obtain ⟨q, rest, m, hp, hrest, hm, hproperty⟩ := hbelow
    cases q with
    | nil =>
        obtain rfl : n = m := Option.some.inj hm
        exact .inl hproperty
    | cons t q =>
        obtain ⟨rfl, htail⟩ := List.cons.inj hp
        obtain ⟨c, hchild, hm⟩ := Option.bind_eq_some_iff.mp hm
        exact .inr ⟨c, hchild, q, rest, m, htail, hrest, hm, hproperty⟩
  · rintro (hproperty | ⟨c, hchild, q, rest, m, rfl, hrest, hm, hproperty⟩)
    · exact ⟨[], s :: p, n, rfl, by simp, rfl, hproperty⟩
    · exact ⟨s :: q, rest, m, rfl, hrest, by simp [at?, hchild, hm], hproperty⟩

theorem not_belowLoneEquality_nil (n : Node) : ¬ n.BelowLoneEquality [] := not_below_nil _ n

theorem belowLoneEquality_cons {n : Node} {s : Segment} {p : Path} :
    n.BelowLoneEquality (s :: p) ↔
      n.IsLoneEquality ∨ ∃ m, n.child? s = some m ∧ m.BelowLoneEquality p := below_cons

theorem exposedAt_nil {n : Node} {tag : ByteString} :
    n.ExposedAt [] tag ↔ n.unknownTag? = some tag := by
  rw [ExposedAt, unknownAt_nil]
  exact and_iff_left n.not_belowLoneEquality_nil

theorem exposedAt_cons {n : Node} {s : Segment} {p : Path} {tag : ByteString} :
    n.ExposedAt (s :: p) tag ↔
      ¬ n.IsLoneEquality ∧ ∃ m, n.child? s = some m ∧ m.ExposedAt p tag := by
  rw [ExposedAt, unknownAt_cons, belowLoneEquality_cons, not_or]
  constructor
  · rintro ⟨⟨m, hchild, hunknown⟩, hlone, hbelow⟩
    exact ⟨hlone, m, hchild, hunknown, fun hm => hbelow ⟨m, hchild, hm⟩⟩
  · rintro ⟨hlone, m, hchild, hunknown, hbelow⟩
    refine ⟨⟨m, hchild, hunknown⟩, hlone, ?_⟩
    rintro ⟨c, hc, hm⟩
    obtain rfl : m = c := Option.some.inj (hchild.symm.trans hc)
    exact hbelow hm

theorem not_exposedAt_of_leaf {n : Node} (htag : n.unknownTag? = none)
    (hchild : ∀ s, n.child? s = none) (p : Path) (tag : ByteString) :
    ¬ n.ExposedAt p tag := by
  cases p with
  | nil => simp [exposedAt_nil, htag]
  | cons s q => simp [exposedAt_cons, hchild]

theorem exposedAt_operation {op : Operation} {operands : List Node} {p : Path}
    {tag : ByteString} :
    (operation op operands).ExposedAt p tag ↔
      ¬ (op = .equal ∧ operands.length = 1) ∧
        ∃ i m q, p = .child i :: q ∧ operands[i]? = some m ∧ m.ExposedAt q tag := by
  have hlone : (operation op operands).IsLoneEquality ↔
      op = .equal ∧ operands.length = 1 := by
    simp [IsLoneEquality, List.length_eq_one_iff]
  cases p with
  | nil => simp [exposedAt_nil, unknownTag?]
  | cons s q =>
      rw [exposedAt_cons, hlone]
      refine and_congr_right fun _ => ?_
      constructor
      · rintro ⟨m, hchild, hm⟩
        cases s with
        | child i => exact ⟨i, m, q, rfl, hchild, hm⟩
        | field name => cases hchild
        | parameter i => cases hchild
      · rintro ⟨i, m, rest, hp, hchild, hm⟩
        obtain ⟨rfl, rfl⟩ := List.cons.inj hp
        exact ⟨m, hchild, hm⟩

theorem exposedAt_function {name : ByteString} {parameters : List Parameter}
    {body : Node} {p : Path} {tag : ByteString} :
    (function name parameters body).ExposedAt p tag ↔
      ∃ q, p = .field "body" :: q ∧ body.ExposedAt q tag := by
  have hlone : ¬ (function name parameters body).IsLoneEquality := by
    simp [IsLoneEquality]
  cases p with
  | nil => simp [exposedAt_nil, unknownTag?]
  | cons s q =>
      rw [exposedAt_cons]
      constructor
      · rintro ⟨-, m, hchild, hm⟩
        cases s with
        | field step =>
            simp only [child?, Option.ite_none_right_eq_some, Option.some.injEq] at hchild
            obtain ⟨rfl, rfl⟩ := hchild
            exact ⟨q, rfl, hm⟩
        | child i => cases hchild
        | parameter i => cases hchild
      · rintro ⟨rest, hp, hbody⟩
        obtain ⟨rfl, rfl⟩ := List.cons.inj hp
        exact ⟨hlone, body, rfl, hbody⟩

/-! The leftmost exposed node, from the parts of a script. -/

theorem Leftmost.unique {n : Node} {p q : Path} {tag other : ByteString}
    (hp : n.Leftmost p tag) (hq : n.Leftmost q other) : p = q ∧ tag = other := by
  have hplace : p = q := by
    rcases hp.left q other hq.exposed with heq | hleft
    · exact heq.symm
    · rcases hq.left p tag hp.exposed with heq | hback
      · exact heq
      · exact absurd hback hleft.asymm
  subst hplace
  obtain ⟨⟨m, hm, htag⟩, -⟩ := hp.exposed
  obtain ⟨⟨k, hk, hother⟩, -⟩ := hq.exposed
  obtain rfl : m = k := Option.some.inj (hm.symm.trans hk)
  exact ⟨rfl, Option.some.inj (htag.symm.trans hother)⟩

theorem leftmost_of_unknownTag? {n : Node} {tag : ByteString}
    (htag : n.unknownTag? = some tag) : n.Leftmost [] tag := by
  refine ⟨exposedAt_nil.mpr htag, fun q other hother => ?_⟩
  cases q with
  | nil => exact .inl rfl
  | cons s q =>
      obtain ⟨-, m, hchild, -⟩ := exposedAt_cons.mp hother
      cases n <;> simp [child?, unknownTag?] at hchild htag

theorem Leftmost.operation {op : Operation} {before after : List Node} {m : Node}
    {p : Path} {tag : ByteString} (hm : m.Leftmost p tag)
    (hlone : ¬ (op = .equal ∧ (before ++ m :: after).length = 1))
    (hbefore : ∀ n ∈ before, ∀ q other, ¬ n.ExposedAt q other) :
    (operation op (before ++ m :: after)).Leftmost (.child before.length :: p) tag := by
  constructor
  · exact exposedAt_operation.mpr ⟨hlone, _, m, p, rfl, by simp, hm.exposed⟩
  · intro q other hother
    obtain ⟨-, i, c, q, rfl, hc, hinner⟩ := exposedAt_operation.mp hother
    rcases Nat.lt_trichotomy i before.length with hlt | rfl | hgt
    · rw [List.getElem?_append_left hlt] at hc
      exact absurd hinner (hbefore c (List.mem_of_getElem? hc) q other)
    · obtain rfl : m = c := by simpa using hc
      rcases hm.left q other hinner with rfl | hleft
      · exact .inl rfl
      · exact .inr (.there _ hleft)
    · exact .inr (.here hgt p q)

theorem Leftmost.function {name : ByteString} {parameters : List Parameter}
    {body : Node} {p : Path} {tag : ByteString} (hbody : body.Leftmost p tag) :
    (function name parameters body).Leftmost (.field "body" :: p) tag := by
  constructor
  · exact exposedAt_function.mpr ⟨p, rfl, hbody.exposed⟩
  · intro q other hother
    obtain ⟨q, rfl, hinner⟩ := exposedAt_function.mp hother
    rcases hbody.left q other hinner with rfl | hleft
    · exact .inl rfl
    · exact .inr (.there _ hleft)

end Node

end ScriptTree
