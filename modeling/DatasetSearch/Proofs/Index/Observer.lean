import DatasetSearch.Index.Search
import DatasetSearch.Proofs.Highlight.Phrases
import DatasetSearch.Proofs.Index.Distinct
import DatasetSearch.Proofs.Index.Ranking

/-! # Highlighting observes

The highlights of an answer are made while the answer is put together, so a text that could not be
highlighted would end the search.  That does not happen (`Index.checkedSearch?_eq`): every hit has
its document, no token of a text is out of place, and every part that is taken is there.  So a
request with highlighting fails exactly if it fails without, and otherwise its answer has the same
hits and, in addition, fields of them with marks (`Index.highlighting_adds_marks`). -/

namespace DatasetSearch

open Text Highlight

/-! ### Highlights of fields -/

namespace Terms

theorem highlight_nil (t : Terms) : t.highlight [] = [] := by
  have htokens : Text.tokens [] = [] := (placed_tokens []).eq_nil
  refine (highlightSized_eq_nil_iff t fragmentSize []).2 fun m hm => ?_
  have hlength := length_markTokens t (Text.tokens [])
  rw [htokens] at hm hlength
  rw [List.eq_nil_of_length_eq_zero hlength] at hm
  cases hm

/-- No text is left out, and nothing ends the highlighting. -/
theorem checkedHighlightFields_eq (t : Terms) (found : FieldHighlights)
    (fields : List (Text × Text)) :
    t.checkedHighlightFields found fields = .ok (fields.foldl t.addHighlight found) := by
  induction fields generalizing found with
  | nil => rfl
  | cons field fields ih =>
      obtain ⟨name, text⟩ := field
      rw [checkedHighlightFields, List.foldl_cons]
      split
      · rename_i hempty
        rw [ih, List.isEmpty_iff.1 hempty, addHighlight, highlight_nil]
        rfl
      · rw [checkedHighlight_eq]
        exact ih _

end Terms

/-! ### Answers -/

namespace Answer

/-- If no request for highlights fails, the answer is put together as from what they give. -/
theorem pushAll_eq_ok {ε : Type} {highlight : Hit → Except ε (Option FieldHighlights)}
    {given : Hit → Id (Option FieldHighlights)} {hits : List Hit}
    (h : ∀ hit ∈ hits, highlight hit = .ok (given hit)) (a : Answer) :
    pushAll highlight a hits = .ok (pushAll given a hits) := by
  induction hits generalizing a with
  | nil => rfl
  | cons hit hits ih =>
      obtain ⟨hfirst, hrest⟩ := List.forall_mem_cons.1 h
      rw [pushAll, hfirst]
      exact ih hrest _

/-- If there are no highlights to give, none are added. -/
theorem highlights_pushAll_none (a : Answer) (hits : List Hit) :
    (pushAll (m := Id) (fun _ => none) a hits).highlights = a.highlights := by
  induction hits generalizing a with
  | nil => rfl
  | cons hit hits ih => exact ih (a.push hit.id hit.score none)

end Answer

namespace Index

variable (ix : Index)

/-- The text has, between marks, a token of a document with the id, in the field of the name. -/
def HasMark (id : Int) (name value : Text) : Prop :=
  ∃ f : Field, name = f.label.toList ∧ ∃ e ∈ ix.entries, e.document.id = id ∧
    ∃ token ∈ (e.document.texts.get f).tokens,
      opening ++ slice token.start token.stop (e.document.texts.get f) ++ closing <:+: value

/-- The answers have the same hits, and only the second one has highlights: of hits only, and only
fields with marks. -/
structure AddsMarks (plain marked : Answer) : Prop where
  ids : marked.ids = plain.ids
  scores : marked.scores = plain.scores
  total : marked.total = plain.total
  plain : plain.highlights = .empty
  mem_ids : ∀ id fields, marked.highlights.get? id = some fields → id ∈ marked.ids
  isEmpty : ∀ id fields, marked.highlights.get? id = some fields → fields.isEmpty = false
  hasMark : ∀ id fields, marked.highlights.get? id = some fields →
    ∀ name value, fields.get? name = some value → ix.HasMark id name value

variable {ix}

theorem addsMarks_empty : ix.AddsMarks .empty .empty where
  ids := rfl
  scores := rfl
  total := rfl
  plain := rfl
  mem_ids := nofun
  isEmpty := nofun
  hasMark := nofun

/-! ### Checked searches -/

variable {hit : Hit} {hits : List Hit}

theorem checkedHighlightHit_eq {e : Entry} (h : ix.entryAt? hit.address = some e) (t : Terms) :
    ix.checkedHighlightHit t hit = .ok (ix.highlightHit t hit) := by
  unfold checkedHighlightHit highlightHit
  rw [h]
  dsimp only
  rw [Terms.checkedHighlightFields_eq]
  rfl

/-- A search ends only if its query cannot be read or planned. -/
theorem checkedSearch?_eq [Scorer] [Query.Automata] (ix : Index) (r : Request) (least : Score)
    (limit : Nat) :
    ix.checkedSearch? r least limit = (ix.search? r least limit).mapError .query := by
  unfold checkedSearch? search?
  cases Query.parse r.query with
  | error error => rfl
  | ok parsed =>
      cases parsed with
      | none => rfl
      | some e =>
          show (Plan.ofQuery? e).mapError Fault.query >>= _ =
            Except.mapError Fault.query (Plan.ofQuery? e >>= _)
          cases Plan.ofQuery? e with
          | error error => rfl
          | ok planned =>
              cases planned with
              | none => rfl
              | some plan =>
                  refine Answer.pushAll_eq_ok (fun hit hhit => ?_) _
                  obtain ⟨entry, hentry⟩ := exists_isHit_of_mem_find (List.mem_of_mem_filter hhit)
                  rw [checkedHighlightHit_eq hentry.entryAt?]
                  cases r.highlighting with
                  | false => rfl
                  | true => rfl

/-! ### The same hits with and without highlights -/

/-- The highlights of a hit are of its document. -/
theorem hasMark_of_highlightHit {e : Entry} (hentry : ix.entryAt? hit.address = some e)
    (hid : e.document.id = hit.id) {t : Terms} {name value : Text}
    (h : (ix.highlightHit t hit).get? name = some value) : ix.HasMark hit.id name value := by
  unfold highlightHit at h
  rw [hentry] at h
  obtain ⟨text, htext, rfl, hne⟩ :=
    (Terms.exists_text_of_get?_foldl h).resolve_left (by simp)
  obtain ⟨f, -, hfield⟩ := List.mem_map.1 htext
  obtain ⟨rfl, rfl⟩ := Prod.mk.inj hfield
  obtain ⟨token, htoken, hmark⟩ := Terms.exists_mark hne
  exact ⟨f, rfl, e, mem_entries_of_entryAt? hentry, hid, token, htoken, hmark⟩

/-- An answer lists its hits whether it highlights them or not. -/
theorem addsMarks_answerOf [Scorer] {plan : Plan} (h : ∀ hit ∈ hits, ∃ e, ix.IsHit plan hit e)
    (e : Query.Expr) (total : Nat) :
    ix.AddsMarks (ix.answerOf e false hits total) (ix.answerOf e true hits total) := by
  have hmarked : (ix.answerOf e true hits total).Lists hits total := Answer.lists_pushAll ..
  have hplain : (ix.answerOf e false hits total).Lists hits total := Answer.lists_pushAll ..
  have hhit (id : Int) (fields : FieldHighlights)
      (hfields : (ix.answerOf e true hits total).highlights.get? id = some fields) :
      ∃ hit ∈ hits, hit.id = id ∧ some (ix.highlightHit (.ofExpr e) hit) = some fields ∧
        fields.isEmpty = false :=
    (Answer.exists_hit_of_get?_pushAll hfields).resolve_left nofun
  constructor
  · rw [hmarked.ids, hplain.ids]
  · rw [hmarked.scores, hplain.scores]
  · rw [hmarked.total, hplain.total]
  · exact Answer.highlights_pushAll_none _ hits
  · intro id fields hfields
    obtain ⟨hit, hmem, rfl, -, -⟩ := hhit id fields hfields
    rw [hmarked.ids]
    exact List.mem_map_of_mem hmem
  · intro id fields hfields
    obtain ⟨hit, -, -, -, hnonempty⟩ := hhit id fields hfields
    exact hnonempty
  · intro id fields hfields name value hvalue
    obtain ⟨hit, hmem, rfl, hgiven, -⟩ := hhit id fields hfields
    obtain rfl := Option.some.inj hgiven
    obtain ⟨entry, hentry⟩ := h hit hmem
    exact hasMark_of_highlightHit hentry.entryAt? hentry.id.symm hvalue

/-- Whatever the index, the query and the cutoffs, nothing in the documents ends a search.  So a
search with highlighting has no answer exactly if the one without has none, for the same reason, and
otherwise it has the same hits, adding highlights of hits, each with some fields, each with a mark;
the one without has no highlights. -/
theorem highlighting_adds_marks [Scorer] [Query.Automata] (ix : Index) (query : Text)
    (ids : List Int) (least : Score) (limit : Nat) :
    (∀ highlighting, ix.checkedSearch? ⟨query, ids, highlighting⟩ least limit =
      (ix.search? ⟨query, ids, highlighting⟩ least limit).mapError .query) ∧
    ((∃ error, ix.search? ⟨query, ids, true⟩ least limit = .error error ∧
        ix.search? ⟨query, ids, false⟩ least limit = .error error) ∨
      ∃ marked plain, ix.search? ⟨query, ids, true⟩ least limit = .ok marked ∧
        ix.search? ⟨query, ids, false⟩ least limit = .ok plain ∧ ix.AddsMarks plain marked) ∧
    ix.AddsMarks (ix.search ⟨query, ids, false⟩ least limit)
      (ix.search ⟨query, ids, true⟩ least limit) := by
  refine ⟨fun highlighting => checkedSearch?_eq ix _ least limit, ?_⟩
  unfold search
  rw [search?_eq, search?_eq]
  cases Query.asked? query with
  | error error => exact ⟨.inl ⟨error, rfl, rfl⟩, addsMarks_empty⟩
  | ok asked =>
      cases asked with
      | none => exact ⟨.inr ⟨.empty, .empty, rfl, rfl, addsMarks_empty⟩, addsMarks_empty⟩
      | some asked =>
          obtain ⟨e, plan⟩ := asked
          have hhits : ∀ hit ∈ Hit.reaching least ((ix.ranking plan ids).take limit),
              ∃ entry, ix.IsHit plan hit entry := by
            intro hit hhit
            have hfind : hit ∈ (ix.find plan (.ofList ids) limit).hits := by
              rw [find_eq]
              exact List.mem_of_mem_filter hhit
            exact exists_isHit_of_mem_find hfind
          have hadds := addsMarks_answerOf hhits e (ix.ranking plan ids).length
          exact ⟨.inr ⟨_, _, rfl, rfl, hadds⟩, hadds⟩

end Index

end DatasetSearch
