import DatasetSearch.Proofs.Highlight.Marks
import DatasetSearch.Proofs.Highlight.Render
import DatasetSearch.Proofs.Index.Ids
import DatasetSearch.Proofs.Index.Words

/-! # Every hit can be explained

Searching and highlighting go through a query in two different ways: a plan decides which documents
are hits, and the terms mark the tokens of their texts.  They agree as far as a hit has something to
show: a document that the plan asks for has a leaf of the query in one of its fields, the leaf marks
a token there, and the highlight of that field is not empty (`exists_highlight_ne_nil`).  So every
id that a search gives comes with highlights (`Index.explained_of_search?`). -/

namespace DatasetSearch

open Query

/-- A document that is asked for has a field with a highlight. -/
theorem exists_highlight_ne_nil [Automata] {e : Expr} {plan : Plan}
    (hplan : Plan.ofQuery? e = .ok (some plan))
    (texts : Field → Text)
    (hholds : plan.holds (fun f => indexedWords (Text.words (texts f))) = true) :
    ∃ f, (Terms.ofExpr e).highlight (texts f) ≠ [] := by
  obtain ⟨inner, hinner, hboost⟩ := Except.map_eq_ok_iff.1 hplan
  obtain ⟨inner, rfl, rfl⟩ := Option.map_eq_some_iff.1 hboost
  have hmeaning : e.meaning (fun f => indexedWords (Text.words (texts f))) Field.all =
      some true := by
    rw [← Plan.holds_ofExpr? Field.all e hinner]
    exact congrArg some hholds
  obtain ⟨leaf, hleaf, f, i, hindexed⟩ := Expr.exists_covers_of_meaning Field.all e hmeaning
  have hcovers : leaf.Covers (Text.words (texts f)) i :=
    Leaf.covers_of_covers_indexedWords (Expr.isProper_of_mem_leaves e hleaf) hindexed
  obtain ⟨m, hm, hmarked⟩ := Terms.exists_isMarked_of_covers hleaf hcovers
  refine ⟨f, fun hnil => ?_⟩
  have hnone := (Terms.highlightSized_eq_nil_iff _ _ _).1 hnil m hm
  rw [hmarked] at hnone
  cases hnone

namespace Answer

/-- Every hit has highlights of at least one field. -/
def Explained (a : Answer) : Prop :=
  ∀ id ∈ a.ids, ∃ fields, a.highlights.get? id = some fields ∧ fields.isEmpty = false

theorem explained_of_ids_eq_nil {a : Answer} (h : a.ids = []) : a.Explained := by
  intro id hid
  rw [h] at hid
  cases hid

theorem Explained.push {a : Answer} (h : a.Explained) (id : Int) (score : Score)
    {fields : FieldHighlights} (hfields : fields.isEmpty = false) :
    (a.push id score (some fields)).Explained := by
  intro other hother
  have hhighlights :
      (a.push id score (some fields)).highlights = a.highlights.insert id fields := by
    show (if fields.isEmpty = true then a.highlights else a.highlights.insert id fields) = _
    rw [hfields, if_neg Bool.false_ne_true]
  rw [hhighlights, Dictionary.get?_insert]
  by_cases hid : other = id
  · exact ⟨fields, if_pos hid, hfields⟩
  · rw [if_neg hid]
    exact h other ((List.mem_append.1 hother).resolve_right (mt List.mem_singleton.1 hid))

/-- If every hit is given highlights, every id of the answer has some. -/
theorem Explained.pushAll {highlight : Hit → Id (Option FieldHighlights)} {a : Answer}
    (h : a.Explained) {hits : List Hit}
    (hhits : ∀ hit ∈ hits, ∃ fields, highlight hit = some fields ∧ fields.isEmpty = false) :
    (Answer.pushAll highlight a hits).Explained := by
  induction hits generalizing a with
  | nil => exact h
  | cons hit hits ih =>
      obtain ⟨fields, hfields, hne⟩ := hhits hit List.mem_cons_self
      show (Answer.pushAll highlight (a.push hit.id hit.score (highlight hit)) hits).Explained
      rw [hfields]
      exact ih (h.push hit.id hit.score hne) fun hit hhit => hhits hit (List.mem_cons_of_mem _ hhit)

end Answer

namespace Index

section

variable [Automata]

/-- A document of an index that is asked for has a field with a highlight. -/
theorem exists_highlight_of_mem {batches : List (List Document)} {e : Expr} {plan : Plan}
    (hplan : Plan.ofQuery? e = .ok (some plan)) {entry : Entry}
    (hentry : entry ∈ (ofBatches batches).entries) (hholds : plan.holds entry.words.get = true) :
    ∃ f, (Terms.ofExpr e).highlight (entry.document.texts.get f) ≠ [] := by
  have hwords : entry.words.get = fun f => indexedWords (Text.words (entry.document.texts.get f)) :=
    funext (get_words_of_mem_ofBatches hentry)
  exact exists_highlight_ne_nil hplan entry.document.texts.get (hwords ▸ hholds)

variable [Scorer]

/-- The highlights of a hit are not empty. -/
theorem isEmpty_highlightHit {batches : List (List Document)} {e : Expr} {plan : Plan}
    (hplan : Plan.ofQuery? e = .ok (some plan)) {hit : Hit} {entry : Entry}
    (h : (ofBatches batches).IsHit plan hit entry) :
    ((ofBatches batches).highlightHit (.ofExpr e) hit).isEmpty = false := by
  obtain ⟨f, hf⟩ := exists_highlight_of_mem hplan (mem_entries_of_entryAt? h.entryAt?) h.holds
  unfold highlightHit
  rw [h.entryAt?]
  exact Terms.isEmpty_highlightFields
    (List.mem_map_of_mem (f := fun f => (f.label.toList, entry.document.texts.get f))
      (Field.mem_all f)) hf

/-- What a search with highlighting gives is explained. -/
theorem explained_of_search? {batches : List (List Document)} {r : Request}
    (hr : r.highlighting = true) {least : Score} {limit : Nat} {a : Answer}
    (h : (ofBatches batches).search? r least limit = .ok a) : a.Explained := by
  obtain ⟨parsed, -, h⟩ := Except.bind_eq_ok_iff.1 h
  cases parsed with
  | none =>
      cases h
      exact Answer.explained_of_ids_eq_nil rfl
  | some e =>
      obtain ⟨planned, hplan, h⟩ := Except.bind_eq_ok_iff.1 h
      cases planned with
      | none =>
          cases h
          exact Answer.explained_of_ids_eq_nil rfl
      | some plan =>
          cases h
          refine (Answer.explained_of_ids_eq_nil rfl).pushAll fun hit hhit => ?_
          obtain ⟨entry, hentry⟩ := exists_isHit_of_mem_find (List.mem_of_mem_filter hhit)
          exact ⟨_, if_pos hr, isEmpty_highlightHit hplan hentry⟩

/-- Every document of an index that a query asks for has a field with a highlight, and every id that
a search with highlighting gives has highlights. -/
theorem exists_highlight_and_explained_search (batches : List (List Document)) :
    (∀ e plan, Plan.ofQuery? e = .ok (some plan) → ∀ entry ∈ (ofBatches batches).entries,
      plan.holds entry.words.get = true →
        ∃ f, (Terms.ofExpr e).highlight (entry.document.texts.get f) ≠ []) ∧
      ∀ (r : Request) (least : Score) (limit : Nat), r.highlighting = true →
        ((ofBatches batches).search r least limit).Explained := by
  refine ⟨fun e plan hplan entry => exists_highlight_of_mem hplan, fun r least limit hr => ?_⟩
  unfold search
  cases hanswer : (ofBatches batches).search? r least limit with
  | ok a => exact explained_of_search? hr hanswer
  | error e => exact Answer.explained_of_ids_eq_nil rfl

end

set_option maxRecDepth 2000 in
/-- A phrase in one field, beside a negated word and a word that no text has. -/
theorem exists_highlight_and_explained_search_of_phrase :
    let e : Expr := .conjunction [.negation (.term ['c']),
      .disjunction [.term ['d'], .inField ['n', 'a', 'm', 'e'] (.phrase ['a', '-', 'b'])]]
    let plan : Plan := .boost queryWeight (.clauses [
      (.mustNot, .perField Field.all fun f => .word f ['c']),
      (.must, .clauses [(.should, .perField Field.all fun f => .word f ['d']),
        (.should, .perField [.name] fun f => .phrase f [['a'], ['b']])])])
    let d : Document := ⟨7, ⟨['A', '-', 'b'], [], [], [], [], []⟩⟩
    let r : Request := ⟨['"', 'a', '-', 'b', '"'], [], true⟩
    Plan.ofQuery? e = .ok (some plan) ∧ plan.holds (Entry.ofDocument d).words.get = true ∧
      (∃ f, (Terms.ofExpr e).highlight (d.texts.get f) ≠ []) ∧
      ((ofBatches [[d]]).search r ⟨0⟩ 10).Explained := by
  intro e plan d r
  obtain ⟨hdocuments, hsearches⟩ := exists_highlight_and_explained_search [[d]]
  have hplan : Plan.ofQuery? e = .ok (some plan) := by cbv
  have hholds : plan.holds (Entry.ofDocument d).words.get = true := by cbv
  have hmem : Entry.ofDocument d ∈ (ofBatches [[d]]).entries := by
    simp [ofBatches, order, entries]
  exact ⟨hplan, hholds, hdocuments e plan hplan _ hmem hholds, hsearches r _ _ rfl⟩

end Index

end DatasetSearch
