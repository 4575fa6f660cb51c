import ScriptTree.Proofs.Json.Writer
import ScriptTree.Proofs.Script.Agreement
import ScriptTree.Proofs.Script.Written
import ScriptTree.Proofs.Yaml.Data
import ScriptTree.Script.Source

/-!
The two formats of scripts. A text that both readers take for the same data is read as the same
script in both, although one of them writes the data anew on the way.
-/

namespace ScriptTree

open Json (Term)
open Json.Syntax (SharedNumber Shared SharedDocument Settled)

/-! Data that can be written as JSON. -/

namespace Yaml.Value

theorem jsonItems_eq_map (items : List Value) : jsonItems items = items.map json := by
  induction items with
  | nil => rfl
  | cons v rest ih => rw [jsonItems, ih, List.map_cons]

theorem jsonMembers_eq_map (members : List (String × Value)) :
    jsonMembers members = members.map fun m => (m.1, m.2.json) := by
  induction members with
  | nil => rfl
  | cons m rest ih => rw [jsonMembers, ih, List.map_cons]

theorem itemFailure?_eq_none_iff {items : List Value} :
    itemFailure? items = none ↔ ∀ v ∈ items, v.jsonFailure? = none := by
  induction items with
  | nil => simp [itemFailure?]
  | cons v rest ih => rw [itemFailure?, Option.or_eq_none_iff, ih, List.forall_mem_cons]

theorem memberFailures_eq_map (members : List (String × Value)) :
    memberFailures members = members.map fun m => (m.1, m.2.jsonFailure?) := by
  induction members with
  | nil => rfl
  | cons m rest ih => rw [memberFailures, ih, List.map_cons]

theorem sortMembers_perm {α : Type} (members : List (String × α)) :
    (sortMembers members).Perm members :=
  List.mergeSort_perm members _

theorem firstByKey_eq_none_iff {failures : List (String × Option String)} :
    firstByKey failures = none ↔ ∀ failure ∈ failures, failure.2 = none := by
  rw [firstByKey, List.findSome?_eq_none_iff]
  exact forall_congr' fun failure => by rw [(sortMembers_perm failures).mem_iff]

theorem jsonFailure?_object {members : List (String × Value)} :
    (object members).jsonFailure? = none ↔ ∀ m ∈ members, m.2.jsonFailure? = none := by
  rw [jsonFailure?, memberFailures_eq_map, firstByKey_eq_none_iff, List.forall_mem_map]

/-- Data with a JSON form hold finite numbers only. -/
theorem unwritable?_json (v : Value) (hwritable : v.jsonFailure? = none) :
    v.json.unwritable? = none := by
  match v with
  | scalar (.float x) =>
      rw [jsonFailure?] at hwritable
      split at hwritable
      next hfinite => exact if_pos hfinite
      next => cases hwritable
  | scalar .null | scalar (.bool _) | scalar (.int _) | scalar (.timestamp _) | scalar (.str _)
  | scalar (.binary _) | scalar (.foreign _ _) => rfl
  | sequence items =>
      rw [jsonFailure?, itemFailure?_eq_none_iff] at hwritable
      rw [json, Json.Value.unwritable?, jsonItems_eq_map, Json.Value.unwritableItem?_eq_none_iff,
        List.forall_mem_map]
      exact fun u hu => unwritable?_json u (hwritable u hu)
  | object members =>
      rw [jsonFailure?_object] at hwritable
      rw [json, Json.Value.unwritable?, jsonMembers_eq_map,
        Json.Value.unwritableMember?_eq_none_iff]
      intro member hmember
      obtain ⟨m, hm, rfl⟩ := List.mem_map.mp ((sortMembers_perm _).mem_iff.mp hmember)
      have hsize : sizeOf m.2 < sizeOf members := by
        have hm := List.sizeOf_lt_of_mem hm
        have hpair : sizeOf m = 1 + sizeOf m.1 + sizeOf m.2 := rfl
        omega
      exact unwritable?_json m.2 (hwritable m hm)
  | table _ => cases hwritable

end Yaml.Value

/-! Numbers. -/

theorem Decimal.mark_mem_scientific (d : Decimal) (width : Nat) :
    'e' ∈ (d.scientific width).toList := by
  have hmark : 'e' ∈ (if d.order < 0 then "e-" else "e+").toList := by
    split <;> simp
  rw [scientific, String.toList_append, String.toList_append]
  exact List.mem_append_left _ (List.mem_append_right _ hmark)

namespace Number

theorem mark_not_mem_of_isIntegerText {text : String} (htext : Term.isIntegerText text = true) :
    'e' ∉ text.toList := by
  have hdigits {cs : List Char} (hcs : (!cs.isEmpty && cs.all isDecimalDigit) = true) : 'e' ∉ cs :=
    fun hmem => nomatch List.all_eq_true.mp (Bool.and_eq_true_iff.mp hcs).2 'e' hmem
  rw [Term.isIntegerText] at htext
  split at htext
  next rest heq =>
    rw [heq, List.mem_cons, not_or]
    exact ⟨by decide, hdigits htext⟩
  next => exact hdigits htext

theorem jsonForm_of_isIntegerText {x : Number} (htext : Term.isIntegerText x.jsonForm = true) :
    x.jsonForm = x.positional := by
  have hmark := mark_not_mem_of_isIntegerText htext
  rw [jsonForm, layOut] at hmark ⊢
  rw [positional, layOut]
  by_cases hplain : x.isPlain = true
  · rw [if_pos hplain]
  · rw [if_neg hplain] at hmark ⊢
    split
    next => rfl
    next hnan =>
      split
      next => rfl
      next hinfinite =>
        rw [if_neg hnan, if_neg hinfinite, String.toList_append] at hmark
        exact absurd (List.mem_append_right _ (x.shortest.mark_mem_scientific 1)) hmark

end Number

namespace Yaml.Scalar

theorem plainText_of_resolves {text : List Char} {x : Scalar} (hresolves : Resolves text x)
    (hfinite : (Term.numberOf (String.ofList text)).isFinite = true)
    (hsettled : Settled (.number (String.ofList text))) :
    (Value.scalar x).json.term.plainText = (Term.number (String.ofList text)).plainText := by
  cases hresolves with
  | word =>
      rw [String.ofList_toList]
      rfl
  | double hword =>
      have hfraction : Term.isIntegerText (String.ofList text) = false := by
        generalize hnumber : Term.number (String.ofList text) = t at hsettled
        cases hsettled with
        | integer hlow hhigh => exact absurd (Term.number.inj hnumber) (hword _ hlow hhigh)
        | fraction htext => exact Term.number.inj hnumber ▸ htext
        | null | boolean | string => cases hnumber
      rw [Term.plainText, if_neg (Bool.eq_false_iff.mp hfraction)]
      rw [Value.json, Value.scalarJson, Json.Value.term, Term.plainText]
      split
      next hinteger => rw [Number.jsonForm_of_isIntegerText hinteger]
      next => rw [Number.numberOf_jsonForm hfinite]

theorem agrees_of_resolves {text : List Char} {x : Scalar} (hresolves : Resolves text x)
    (hfinite : (Term.numberOf (String.ofList text)).isFinite = true) :
    (Value.scalar x).jsonFailure? = none ∧
      Term.Agrees (.number (String.ofList text)) (Value.scalar x).json.term := by
  cases hresolves with
  | word =>
      rw [String.ofList_toList]
      exact ⟨rfl, .number rfl⟩
  | double => exact ⟨if_pos hfinite, .number (Number.numberOf_jsonForm hfinite)⟩

end Yaml.Scalar

/-! Values. -/

namespace Json.Term

open Yaml.Value

/-- The value that is read from the JSON form of a value's data. -/
def rewritten (t : Term) : Term := t.data.json.term

theorem jsonFailure?_of_shared {bound : Nat} {core : List Char} {t : Term}
    (hshared : Shared bound core t) : t.data.jsonFailure? = none := by
  induction hshared with
  | null => rfl
  | true => rfl
  | false => rfl
  | number htext =>
      exact (Yaml.Scalar.agrees_of_resolves (Yaml.Scalar.resolves_of_sharedNumber htext)
        htext.finite).1
  | string => rfl
  | array _ _ _ ih =>
      rw [data, jsonFailure?, itemData_eq_map, itemFailure?_eq_none_iff, List.map_map,
        List.forall_mem_map]
      exact ih
  | object _ _ _ _ _ ih =>
      rw [data, jsonFailure?_object, memberData_eq_map, List.map_map, List.forall_mem_map]
      exact ih

theorem string_rewritten (cs : List Char) :
    rewritten (.string (Text.ofChars cs)) = .string (Text.ofChars cs) := by
  rw [rewritten, data, json, scalarJson, Value.term, ByteString.text_ofChars, Text.toBytes,
    String.toList_ofList, Text.chars_ofChars]

theorem exists_rewritten_array (raw : ByteString) (items : List Term) :
    ∃ other, rewritten (.array raw items) = .array other (items.map rewritten) := by
  have hitems : Value.terms (jsonItems (itemData items)) = items.map rewritten := by
    rw [Value.terms_eq_map, jsonItems_eq_map, itemData_eq_map, List.map_map, List.map_map]
    rfl
  exact ⟨_, congrArg (Term.array _) hitems⟩

theorem agrees_array {raw : ByteString} {items : List Term}
    (hitems : ∀ t ∈ items, Agrees t t.rewritten) :
    Agrees (.array raw items) (rewritten (.array raw items)) := by
  obtain ⟨other, heq⟩ := exists_rewritten_array raw items
  have hagrees := @Agrees.array raw other (items.map fun t => (t, t.rewritten))
    (List.forall_mem_map.mpr hitems)
  rw [heq]
  simpa [Function.comp_def] using hagrees

theorem exists_rewritten_object (raw : ByteString) (members : List (ByteString × Term)) :
    ∃ other others, rewritten (.object raw members) = .object other others ∧
      others.Perm (members.map fun m => (Text.toBytes m.1.text, m.2.rewritten)) := by
  refine ⟨_, Value.memberTerms (sortMembers (jsonMembers (memberData members))), rfl, ?_⟩
  have hsorted := (sortMembers_perm (jsonMembers (memberData members))).map fun m =>
    (Text.toBytes m.1, m.2.term)
  rw [Value.memberTerms_eq_map]
  refine hsorted.trans (.of_eq ?_)
  rw [jsonMembers_eq_map, memberData_eq_map, List.map_map, List.map_map]
  rfl

theorem agrees_object {raw : ByteString} {members : List (List Char × Term)}
    (hkeys : (members.map Prod.fst).Nodup) (hmembers : ∀ m ∈ members, Agrees m.2 m.2.rewritten)
    (htypes : ∀ m ∈ members, m.1 = "type".toList → m.2.rewritten.plainText = m.2.plainText) :
    Agrees (.object raw (members.map fun m => (Text.ofChars m.1, m.2)))
      (rewritten (.object raw (members.map fun m => (Text.ofChars m.1, m.2)))) := by
  obtain ⟨other, others, heq, hperm⟩ :=
    exists_rewritten_object raw (members.map fun m => (Text.ofChars m.1, m.2))
  have hchars : Function.Injective Text.ofChars := by
    intro cs ds hsame
    rw [← Text.chars_ofChars cs, hsame, Text.chars_ofChars]
  have hagrees := @Agrees.object raw other
    (members.map fun m => ⟨Text.ofChars m.1, m.2, m.2.rewritten⟩) others ?_ ?_ ?_ ?_
  · rw [heq]
    simpa [Function.comp_def] using hagrees
  · have hdistinct := hkeys.map hchars
    simpa [Function.comp_def] using hdistinct
  · exact List.forall_mem_map.mpr hmembers
  · exact List.forall_mem_map.mpr fun m hm hkey => htypes m hm (hchars hkey)
  · refine hperm.trans (.of_eq ?_)
    simp [ByteString.text_ofChars, Text.toBytes]

theorem agrees_of_shared {bound : Nat} {core : List Char} {t : Term}
    (hshared : Shared bound core t) :
    Agrees t t.rewritten ∧ (Settled t → t.rewritten.plainText = t.plainText) := by
  induction hshared with
  | null => exact ⟨.null, fun _ => rfl⟩
  | true => exact ⟨.boolean, fun _ => rfl⟩
  | false => exact ⟨.boolean, fun _ => rfl⟩
  | number htext =>
      have hresolves := Yaml.Scalar.resolves_of_sharedNumber htext
      exact ⟨(Yaml.Scalar.agrees_of_resolves hresolves htext.finite).2,
        Yaml.Scalar.plainText_of_resolves hresolves htext.finite⟩
  | string =>
      rw [string_rewritten]
      exact ⟨.string, fun _ => rfl⟩
  | array _ _ _ ih =>
      refine ⟨agrees_array ?_, nofun⟩
      exact List.forall_mem_map.mpr fun item hitem => (ih item hitem).1
  | @object _ members inner _ _ hkeys htypes _ ih =>
      refine ⟨?_, nofun⟩
      have hagrees := @agrees_object (Text.ofChars ('\x7b' :: (inner ++ ['\x7d'])))
        (members.map fun m => (m.key, m.item.term)) ?_ ?_ ?_
      · rwa [List.map_map] at hagrees
      · simpa [Function.comp_def] using hkeys
      · exact List.forall_mem_map.mpr fun m hm => (ih m hm).1
      · exact List.forall_mem_map.mpr fun m hm hkey => (ih m hm).2 (htypes m hm hkey)

end Json.Term

/-! Scripts. -/

theorem Json.Term.Agrees.reframe {inner : ByteString} {members : List (ByteString × Term)}
    {t : Term} (hagrees : Agrees (.object inner members) t) (raw : ByteString)
    (ps : List Text.Piece) : Agrees (.object raw members) (Json.Reader.extend ps t) := by
  cases hagrees with
  | object hkeys hparts htypes horder => exact .object hkeys hparts htypes horder

namespace Node

open Decode (Represents)

/-- A script is read from a text exactly if a value in the text stands for it. -/
theorem ofJsonText_eq_ok_iff {text : ByteString} {n : Node} :
    ofJsonText text = .ok n ↔ ∃ t, Term.ofBytes? text = some t ∧ Represents t n := by
  cases hterm : Term.ofBytes? text with
  | none => simp [ofJsonText, hterm]
  | some t =>
      rw [ofJsonText, hterm]
      constructor
      · intro hread
        have hreads := Decode.reads (Term.genuine_of_ofBytes? hterm) []
        simp only [hread] at hreads
        cases hreads with
        | ok hn => exact ⟨t, rfl, hn⟩
      · rintro ⟨_, ⟨⟩, hn⟩
        exact Decode.node_of_represents hn

theorem ofJson_eq_ok_iff {bytes : List UInt8} {n : Node} :
    ofJson bytes = .ok n ↔ ofJsonText bytes = .ok n := by
  rw [ofJson]
  cases ofJsonText bytes with
  | ok m => simp [Except.mapError]
  | error e => simp [Except.mapError]

/-- Data with a JSON form are read as the script that the JSON form stands for. -/
theorem ofYamlValue_of_represents {v : Yaml.Value} {n : Node} (hwritable : v.jsonFailure? = none)
    (hn : Represents (Json.Reader.extend (v.json.compact.toList.map .char) v.json.term) n) :
    ofYamlValue v = .ok n := by
  have hdocument := Json.Value.document_compact (Yaml.Value.unwritable?_json v hwritable)
    (show Json.Syntax.Blank [] from nofun)
  rw [List.append_nil] at hdocument
  have hread : ofJsonText v.json.compact = .ok n :=
    ofJsonText_eq_ok_iff.mpr ⟨_, Term.ofBytes?_of_document hdocument, hn⟩
  rw [ofYamlValue, hwritable]
  exact ofJson_eq_ok_iff.mpr hread

/-- A script that is read from a shared text as JSON is read from it as YAML too; what is
unrecognized in it may be written in another way. -/
theorem ofYaml_of_shared {cs : List Char} {t : Term} {n : Node}
    (hdocument : SharedDocument cs t) (hread : ofJson (Text.ofChars cs) = .ok n) :
    ∃ m, ofYaml (Text.ofChars cs) = .ok m ∧ m.bare = n.bare := by
  rw [ofJson_eq_ok_iff, ofJsonText_eq_ok_iff, Term.ofBytes?_of_document hdocument.document] at hread
  obtain ⟨_, ⟨⟩, hn⟩ := hread
  obtain ⟨raw, members, rfl⟩ : ∃ raw members, t = .object raw members := by
    cases hn <;> exact ⟨_, _, rfl⟩
  obtain ⟨item, -, -, inner, hitem, hshared⟩ := hdocument.exists_object
  rw [hitem] at hshared
  have hwritable : (Term.object inner members).data.jsonFailure? = none :=
    Term.jsonFailure?_of_shared hshared
  have hagrees := (Term.agrees_of_shared hshared).1.reframe raw
    ((Term.object inner members).data.json.compact.toList.map .char)
  obtain ⟨m, hm, hbare⟩ := hn.agrees hagrees
  refine ⟨m, ?_, hbare⟩
  delta ofYaml
  rw [Yaml.Value.ofBytes_of_document hdocument]
  exact ofYamlValue_of_represents hwritable hm

/-! A sum of two literals. -/

open Json.Syntax (Item Member Spaced SpacedOut keyReach sharedString_of_printable)

def literalTerm (text : List Char) : Term :=
  .object (Text.ofChars (literalText .number text)) (Term.fields [
    ("_type", .string (Text.toBytes "LiteralNumber")), ("value", .number (String.ofList text))])

theorem represents_literalTerm (text : List Char) :
    Represents (literalTerm text) (.number (Term.numberOf (String.ofList text))) :=
  .number (Decode.tagged_fields .number _) (Decode.first_fields rfl)

theorem shared_literalText {depth : Nat} {text : List Char} (htext : SharedNumber text) :
    Shared (depth + 1) (literalText .number text) (literalTerm text) := by
  have hnone : Spaced [] := List.forall_mem_nil _
  have hspaced : ∀ m ∈ literalMembers .number text (.number (String.ofList text)), m.Spaced := by
    simp only [literalMembers, List.forall_mem_cons]
    have hempty : ∀ c ∈ ([] : List Char), c = ' ' := List.forall_mem_nil _
    exact ⟨⟨hnone, sharedString_of_printable (by simp), hempty, by simp [keyReach], hnone, hnone⟩,
      ⟨hnone, sharedString_of_printable (by simp), hempty, by simp [keyReach], hnone, hnone⟩,
      List.forall_mem_nil _⟩
  have hmembers : ∀ m ∈ literalMembers .number text (.number (String.ofList text)),
      Shared depth m.item.core m.item.term := by
    simp only [literalMembers, List.forall_mem_cons]
    exact ⟨.string (sharedString_of_printable (by simp [Kind.tag])), .number htext,
      List.forall_mem_nil _⟩
  have hinner : SpacedOut ((literalMembers .number text (.number (String.ofList text))).map
      Member.text) _ := .inr ⟨by simp [literalMembers], rfl⟩
  have htypes : ∀ m ∈ literalMembers .number text (.number (String.ofList text)),
      m.key = "type".toList → Settled m.item.term := by
    simp only [literalMembers, List.forall_mem_cons]
    exact ⟨fun htype => absurd htype (by decide), fun htype => absurd htype (by decide),
      List.forall_mem_nil _⟩
  have hobject := Shared.object hinner hspaced (by simp [literalMembers]) htypes hmembers
  have hwhole : '\x7b' :: ([','].intercalate ((literalMembers .number text
      (.number (String.ofList text))).map Member.text) ++ ['\x7d']) = literalText .number text := by
    simp only [literalText, literalMembers, quoted, Item.text, Member.text, List.map_cons,
      List.map_nil, List.intercalate_cons_cons, List.intercalate_singleton, List.nil_append,
      List.append_nil, List.cons_append, List.append_assoc]
  rw [hwhole] at hobject
  exact hobject

/-- A sum of two literals, over several lines. -/
def sumText : String :=
  "\x7b\"_type\": \"Sum\", \"children\": [\n  " ++
    "\x7b\"_type\":\"LiteralNumber\",\"value\":1.5e1\x7d,\n  " ++
    "\x7b\"_type\":\"LiteralNumber\",\"value\":-2\x7d]\x7d\n"

def sumItems : List Item :=
  ["1.5e1".toList, "-2".toList].map fun text =>
    ⟨"\n  ".toList, literalText .number text, [], literalTerm text⟩

def sumMembers : List Member := [
  ⟨[], "_type".toList, "_type".toList, [],
    ⟨[' '], quoted "Sum".toList, [], .string (Text.toBytes "Sum")⟩⟩,
  ⟨[' '], "children".toList, "children".toList, [],
    ⟨[' '], '[' :: ([','].intercalate (sumItems.map Item.text) ++ [']']), [],
      .array (Text.ofChars ('[' :: ([','].intercalate (sumItems.map Item.text) ++ [']'])))
        (sumItems.map Item.term)⟩⟩]

theorem sharedNumber_sumItems : SharedNumber "1.5e1".toList ∧ SharedNumber "-2".toList := by
  have hone : Js.Syntax.Whole ['1'] := .positive rfl (by decide) nofun
  have htwo : Js.Syntax.Whole ['2'] := .positive rfl (by decide) nofun
  have hfraction : Js.Syntax.Fraction ('.' :: ['5']) := .point (by simp)
  have hexponent : Js.Syntax.Exponent ('e' :: ([] ++ ['1'])) :=
    .mark (.inl rfl) (.inl rfl) (by simp) (by simp)
  exact ⟨⟨.mk (.inl rfl) hone hfraction (by decide) hexponent, by decide, by decide +kernel⟩,
    ⟨.mk (.inr rfl) htwo .none (by decide) .none, by decide, by decide +kernel⟩⟩

theorem shared_sumMembers (depth : Nat) :
    ∀ m ∈ sumMembers, Shared (depth + 2) m.item.core m.item.term := by
  obtain ⟨hfirst, hsecond⟩ := sharedNumber_sumItems
  have hitems : ∀ item ∈ sumItems, Shared (depth + 1) item.core item.term := by
    simp only [sumItems, List.map_cons, List.map_nil, List.forall_mem_cons]
    exact ⟨shared_literalText hfirst, shared_literalText hsecond, nofun⟩
  have hspaced : ∀ item ∈ sumItems, item.Spaced := by
    simp only [sumItems, List.map_cons, List.map_nil, List.forall_mem_cons]
    exact ⟨⟨by simp [Spaced], nofun⟩, ⟨by simp [Spaced], nofun⟩, nofun⟩
  simp only [sumMembers, List.forall_mem_cons]
  exact ⟨.string (sharedString_of_printable (by simp)),
    .array (.inr ⟨by simp [sumItems], rfl⟩) hspaced hitems, nofun⟩

theorem spaced_sumMembers : ∀ m ∈ sumMembers, m.Spaced := by
  have hnone : Spaced [] := nofun
  have hspace : Spaced [' '] := by simp [Spaced]
  simp only [sumMembers, List.forall_mem_cons]
  exact ⟨⟨hnone, sharedString_of_printable (by simp), nofun, by simp [keyReach], hspace, hnone⟩,
    ⟨hspace, sharedString_of_printable (by simp), nofun, by simp [keyReach], hspace, hnone⟩, nofun⟩

theorem exists_sharedDocument_sumText :
    ∃ raw, SharedDocument sumText.toList (.object raw (sumMembers.map Member.pair)) := by
  have hinner : SpacedOut (sumMembers.map Member.text) _ := .inr ⟨by simp [sumMembers], rfl⟩
  have htypes : ∀ m ∈ sumMembers, m.key = "type".toList → Settled m.item.term := by
    simp only [sumMembers, List.forall_mem_cons]
    exact ⟨nofun, nofun, nofun⟩
  have hobject : Shared Yaml.Lexer.depthLimit _ _ :=
    .object hinner spaced_sumMembers (by simp [sumMembers]) htypes (shared_sumMembers 9997)
  exact ⟨_, ⟨[], _, ['\n'], _⟩, by decide, ⟨nofun, by simp [Spaced]⟩, hobject, rfl⟩

def sum : Node :=
  .operation .sum [.number (Term.numberOf "1.5e1"), .number (Term.numberOf "-2")]

theorem represents_sumMembers (raw : ByteString) :
    Represents (.object raw (sumMembers.map Member.pair)) sum := by
  have hitems : ∀ item ∈ ["1.5e1".toList, "-2".toList].map fun text =>
      (literalTerm text, Node.number (Term.numberOf (String.ofList text))),
      Represents item.1 item.2 :=
    List.forall_mem_map.mpr fun text _ => represents_literalTerm text
  exact .operation (Decode.field?_eq_some_iff.mp rfl)
    (.array (Decode.field?_eq_some_iff.mp rfl)) hitems

theorem ofYaml_of_shared_sumText :
    ∃ t, SharedDocument sumText.toList t ∧ ofJson (Text.ofChars sumText.toList) = .ok sum ∧
      ∃ m, ofYaml (Text.ofChars sumText.toList) = .ok m ∧ m.bare = sum.bare := by
  obtain ⟨raw, hdocument⟩ := exists_sharedDocument_sumText
  have hread : ofJson (Text.ofChars sumText.toList) = .ok sum :=
    ofJson_eq_ok_iff.mpr (ofJsonText_eq_ok_iff.mpr
      ⟨_, Term.ofBytes?_of_document hdocument.document, represents_sumMembers raw⟩)
  exact ⟨_, hdocument, hread, ofYaml_of_shared hdocument hread⟩

end Node

end ScriptTree
