import DatasetSearch.Library
import DatasetSearch.Proofs.Index.Ranking
import DatasetSearch.Proofs.Ranking.Order

/-! # Searching some documents only

A request with ids is answered from the ranking of the same request without them: the hits of other
documents are taken out, then the rest is cut off as always (`Index.ranking_ids`).  Scores and the
order of the hits stay as they were, and so do the highlights of an id that one document only has
(`highlights_eq_of_mem`).

Documents that were not asked for show nowhere else: an answer consists of what its hits show
(`Index.shown`), so two indexes that rank the same hits among the ids give the same answer
(`answerOf_eq_of_map_shown`). -/

namespace DatasetSearch

open Hit (reaching among)
open Query (Expr)

/-! ### Highlights -/

namespace Answer

variable {highlight : Hit → Id (Option FieldHighlights)} {hits : List Hit} {a : Answer}

theorem pushAll_eq_foldl (highlight : Hit → Id (Option FieldHighlights)) (a : Answer)
    (hits : List Hit) : pushAll highlight a hits =
      (hits.map fun hit => (hit.id, hit.score, highlight hit)).foldl
        (fun a hit => a.push hit.1 hit.2.1 hit.2.2) a := by
  induction hits generalizing a with
  | nil => rfl
  | cons hit hits ih => exact ih (a.push hit.id hit.score (highlight hit))

theorem get?_pushAll_of_notMem {id : Int} (h : id ∉ hits.map Hit.id) :
    (pushAll highlight a hits).highlights.get? id = a.highlights.get? id := by
  induction hits generalizing a with
  | nil => rfl
  | cons hit hits ih =>
      rw [List.map_cons, List.mem_cons, not_or] at h
      have hpush := get?_push a hit.id hit.score (highlight hit) id
      rw [if_neg h.1] at hpush
      exact (ih h.2).trans hpush

/-- Where every hit has an id of its own, its highlights are those that were asked for. -/
theorem get?_pushAll_of_mem (hn : (hits.map Hit.id).Nodup) {hit : Hit} (hhit : hit ∈ hits)
    (ha : a.highlights.get? hit.id = none) :
    (pushAll highlight a hits).highlights.get? hit.id =
      (highlight hit).filter fun fields => !fields.isEmpty := by
  induction hits generalizing a with
  | nil => exact absurd hhit List.not_mem_nil
  | cons first rest ih =>
      obtain ⟨hfirst, hrest⟩ := List.nodup_cons.1 hn
      have hpush := get?_push a first.id first.score (highlight first) hit.id
      rw [ha, Option.or_none] at hpush
      rcases List.mem_cons.1 hhit with rfl | hhit
      · rw [if_pos rfl] at hpush
        exact (get?_pushAll_of_notMem hfirst).trans hpush
      · have hne : hit.id ≠ first.id := fun heq =>
          hfirst (heq ▸ List.mem_map_of_mem (f := Hit.id) hhit)
        rw [if_neg hne] at hpush
        exact ih hrest hhit hpush

end Answer

namespace Index

variable {ix ix' : Index} {plan : Plan} {ids : List Int}

/-- No two documents of the index have one id. -/
def HasDistinctIds (ix : Index) : Prop := (ix.entries.map fun e => e.document.id).Nodup

theorem nodup_map_id_ranking [Scorer] (h : ix.HasDistinctIds) (plan : Plan) (ids : List Int) :
    ((ix.ranking plan ids).map Hit.id).Nodup := by
  have hhits : ((ix.hits plan ids).map Hit.id).Nodup := by
    unfold HasDistinctIds at h
    rw [← map_snd_located, List.map_map] at h
    unfold hits
    rw [List.map_map]
    exact h.sublist (List.filter_sublist.map _)
  exact ((Hit.sort_perm (ix.hits plan ids)).map Hit.id).nodup_iff.2 hhits

/-- Two lists of hits that share a hit have the same highlights for it. -/
theorem highlights_eq_of_mem {hits hits' : List Hit} (hn : (hits.map Hit.id).Nodup)
    (hn' : (hits'.map Hit.id).Nodup) {hit : Hit} (hhit : hit ∈ hits) (hhit' : hit ∈ hits')
    (e : Expr) (highlighting : Bool) (total total' : Nat) :
    (ix.answerOf e highlighting hits total).highlights.get? hit.id =
      (ix.answerOf e highlighting hits' total').highlights.get? hit.id := by
  unfold answerOf
  rw [Answer.get?_pushAll_of_mem hn hhit rfl, Answer.get?_pushAll_of_mem hn' hhit' rfl]

/-! ### What a hit shows -/

/-- What an answer can show of a hit: its id, its score and the texts of its document. -/
def shown (ix : Index) (hit : Hit) : Int × Score × Option (PerField Text) :=
  (hit.id, hit.score, (ix.entryAt? hit.address).map fun e => e.document.texts)

/-- An answer consists of what its hits show. -/
theorem answerOf_eq_of_map_shown {hits hits' : List Hit}
    (h : hits.map ix.shown = hits'.map ix'.shown) (e : Expr) (highlighting : Bool) (total : Nat) :
    ix.answerOf e highlighting hits total = ix'.answerOf e highlighting hits' total := by
  let fieldsOf (texts : Option (PerField Text)) : FieldHighlights := match texts with
    | none => .empty
    | some texts => (Terms.ofExpr e).highlightFields
        (Field.all.map fun f => (f.label.toList, texts.get f))
  have hfields (ix : Index) (hit : Hit) :
      ix.highlightHit (.ofExpr e) hit = fieldsOf (ix.shown hit).2.2 := by
    unfold highlightHit shown
    cases ix.entryAt? hit.address with
    | none => rfl
    | some e => rfl
  unfold answerOf
  rw [Answer.pushAll_eq_foldl, Answer.pushAll_eq_foldl]
  congr 1
  simp only [hfields]
  have hmap (ix : Index) (hits : List Hit) :
      (hits.map fun hit => (hit.id, hit.score,
        if highlighting then some (fieldsOf (ix.shown hit).2.2) else none)) =
      (hits.map ix.shown).map fun x => (x.1, x.2.1,
        if highlighting then some (fieldsOf x.2.2) else none) := by
    rw [List.map_map]
    rfl
  exact (hmap ix hits).trans ((congrArg _ h).trans (hmap ix' hits').symm)

theorem map_shown_reaching_take (least : Score) (limit : Nat) (hits : List Hit) :
    (reaching least (hits.take limit)).map ix.shown =
      ((hits.map ix.shown).take limit).filter fun x => x.2.1.reaches least := by
  unfold reaching
  rw [← List.map_take, List.filter_map]
  rfl

/-! ### Requests with ids -/

section

variable [Scorer] [Query.Automata]

/-- The ranking of a request with ids is what is left of the ranking without them. -/
theorem ranking?_ids (hids : ids ≠ []) (query : Text) (highlighting : Bool) :
    ix.ranking? ⟨query, ids, highlighting⟩ =
      (ix.ranking? ⟨query, [], highlighting⟩).map (among ids) := by
  unfold ranking?
  cases Query.asked? query with
  | error e => rfl
  | ok asked =>
      cases asked with
      | none => rfl
      | some asked => exact congrArg Except.ok (ranking_ids asked.2 hids)

/-- Only the ids of an answer have highlights. -/
theorem get?_highlights_of_notMem {r : Request} {least : Score} {limit : Nat} {a : Answer}
    (h : ix.search? r least limit = .ok a) {id : Int} (hid : id ∉ a.ids) :
    a.highlights.get? id = none := by
  rw [search?_eq] at h
  obtain ⟨asked, -, rfl⟩ := Except.map_eq_ok_iff.1 h
  cases asked with
  | none => rfl
  | some asked =>
      refine Answer.get?_pushAll_of_notMem fun hmem => hid ?_
      exact (Answer.ids_pushAll _ _ _).symm ▸ hmem

variable {query : Text} {highlighting : Bool} {ranking ranking' : List Hit} {least : Score}
  {limit : Nat}

/-- Where ids are distinct, an answer to a request with ids has the highlights of an answer without
ids in which nothing more was cut off. -/
theorem highlights_eq_of_ids (hids : ids ≠ [])
    (hranking : ix.ranking? ⟨query, [], highlighting⟩ = .ok ranking) (hdistinct : ix.HasDistinctIds)
    {least' : Score} {limit' : Nat} (hleast : least.reaches least' = true)
    (hlimit : ranking.length ≤ limit') {a a' : Answer}
    (ha : ix.search? ⟨query, ids, highlighting⟩ least limit = .ok a)
    (ha' : ix.search? ⟨query, [], highlighting⟩ least' limit' = .ok a') :
    ∀ id ∈ a.ids, id ∈ a'.ids ∧ a.highlights.get? id = a'.highlights.get? id := by
  obtain ⟨asked, hasked, rfl⟩ := Except.map_eq_ok_iff.1 hranking
  have hasked : Query.asked? query = .ok asked := hasked
  cases asked with
  | none =>
      rw [search?_of_asked_none _ hasked] at ha
      obtain rfl := Except.ok.inj ha
      exact fun id hid => absurd hid List.not_mem_nil
  | some asked =>
      obtain ⟨e, plan⟩ := asked
      have hlimit : (ix.ranking plan []).length ≤ limit' := hlimit
      rw [search?_of_asked _ hasked] at ha ha'
      obtain rfl := Except.ok.inj ha
      obtain rfl := Except.ok.inj ha'
      have hnodup (ids : List Int) (least : Score) (limit : Nat) :
          ((reaching least ((ix.ranking plan ids).take limit)).map Hit.id).Nodup :=
        (nodup_map_id_ranking hdistinct plan ids).sublist
          ((List.filter_sublist.trans (List.take_sublist limit _)).map Hit.id)
      intro id hid
      rw [answerOf, Answer.ids_pushAll, List.nil_append] at hid
      obtain ⟨hit, hhit, rfl⟩ := List.mem_map.1 hid
      have hfree : hit ∈ reaching least' ((ix.ranking plan []).take limit') := by
        obtain ⟨htake, hreaches⟩ := List.mem_filter.1 hhit
        rw [ranking_ids plan hids] at htake
        rw [List.take_of_length_le hlimit]
        exact List.mem_filter.2 ⟨List.mem_of_mem_filter (List.mem_of_mem_take htake),
          Score.reaches_trans hreaches hleast⟩
      refine ⟨?_, highlights_eq_of_mem (hnodup _ _ _) (hnodup _ _ _) hhit hfree e _ _ _⟩
      rw [answerOf, Answer.ids_pushAll, List.nil_append]
      exact List.mem_map_of_mem hfree

/-- Two indexes that rank and show the same of the documents of the ids give the same answer. -/
theorem search?_eq_of_map_shown (hids : ids ≠ [])
    (h : ix.ranking? ⟨query, [], highlighting⟩ = .ok ranking)
    (h' : ix'.ranking? ⟨query, [], highlighting⟩ = .ok ranking')
    (hshown : (among ids ranking).map ix.shown = (among ids ranking').map ix'.shown) :
    ix.search? ⟨query, ids, highlighting⟩ least limit =
      ix'.search? ⟨query, ids, highlighting⟩ least limit := by
  obtain ⟨asked, hasked, rfl⟩ := Except.map_eq_ok_iff.1 h
  have hranking' := h'
  rw [ranking?, hasked] at hranking'
  obtain rfl := Except.ok.inj hranking'
  have hasked : Query.asked? query = .ok asked := hasked
  cases asked with
  | none => rw [search?_of_asked_none _ hasked, search?_of_asked_none _ hasked]
  | some asked =>
      obtain ⟨e, plan⟩ := asked
      have hshown : (ix.ranking plan ids).map ix.shown = (ix'.ranking plan ids).map ix'.shown := by
        rw [ranking_ids plan hids, ranking_ids plan hids]
        exact hshown
      have hlength : (ix.ranking plan ids).length = (ix'.ranking plan ids).length := by
        rw [← List.length_map ix.shown, hshown, List.length_map]
      rw [search?_of_asked _ hasked, search?_of_asked _ hasked]
      refine congrArg Except.ok ?_
      rw [hlength]
      refine answerOf_eq_of_map_shown ?_ e _ _
      rw [map_shown_reaching_take, map_shown_reaching_take, hshown]

/-- A request with ids is answered from the ranking of the same request without ids, which is what
that one lists if nothing is cut off.  The answer lists the hits of the ranking with these ids, with
their scores and in order, cut off at the limit and then at the least score, and it counts all hits
with these ids.  Where ids are distinct, each has the highlights that it has without the ids.
Documents with other ids make no further difference: whatever they are, the answer is the same if
the documents with these ids are ranked and shown the same. -/
theorem restriction (ix : Index) (query : Text) (highlighting : Bool) {ids : List Int}
    (hids : ids ≠ []) :
    let free : Request := ⟨query, [], highlighting⟩
    let bound : Request := ⟨query, ids, highlighting⟩
    (∀ e, ix.ranking? free = .error e → ∀ least limit, ix.search? bound least limit = .error e) ∧
    ∀ ranking, ix.ranking? free = .ok ranking → ∀ least limit,
      ∃ a, ix.search? bound least limit = .ok a ∧
        a.Lists (reaching least ((among ids ranking).take limit)) (among ids ranking).length ∧
        (∀ id ∉ a.ids, a.highlights.get? id = none) ∧
        (∀ least' limit', ranking.length ≤ limit' →
          ∃ a', ix.search? free least' limit' = .ok a' ∧
            a'.Lists (reaching least' ranking) ranking.length ∧
            (ix.HasDistinctIds → least.reaches least' = true →
              ∀ id ∈ a.ids, id ∈ a'.ids ∧ a.highlights.get? id = a'.highlights.get? id)) ∧
        ∀ (ix' : Index) ranking', ix'.ranking? free = .ok ranking' →
          (among ids ranking).map ix.shown = (among ids ranking').map ix'.shown →
            ix'.search? bound least limit = .ok a := by
  intro free bound
  have hbound : ix.ranking? bound = (ix.ranking? free).map (among ids) :=
    ranking?_ids hids query highlighting
  refine ⟨fun e he => ?_, fun ranking hranking least limit => ?_⟩
  · refine search?_eq_error ?_
    rw [hbound, he]
    rfl
  · rw [hranking] at hbound
    obtain ⟨a, ha, hlists⟩ := exists_answer hbound least limit
    refine ⟨a, ha, hlists, fun id => get?_highlights_of_notMem ha, fun least' limit' hlimit => ?_,
      fun ix' ranking' hranking' hshown => ?_⟩
    · obtain ⟨a', ha', hlists'⟩ := exists_answer hranking least' limit'
      rw [List.take_of_length_le hlimit] at hlists'
      exact ⟨a', ha', hlists', fun hdistinct hleast =>
        highlights_eq_of_ids hids hranking hdistinct hleast hlimit ha ha'⟩
    · rw [← ha]
      exact (search?_eq_of_map_shown hids hranking hranking' hshown).symm

end

set_option maxRecDepth 4000 in
/-- The lower one of two documents is found at the limit one if it is asked for, and in an index of
its own as well. -/
theorem restriction_to_lower_score :
    let low : Document := ⟨2, ⟨[], ['A', 'c'], [], [], [], []⟩⟩
    let high : Document := ⟨1, ⟨['a', 'b'], [], [], [], [], []⟩⟩
    let ix := ofBatches [[low, high]]
    let query := Query.spell ['a', '?']
    let ranking : List Hit := [⟨1, ⟨0x41c80000⟩, ⟨0, 1⟩⟩, ⟨2, ⟨0x41200000⟩, ⟨0, 0⟩⟩]
    ([2] : List Int) ≠ [] ∧ ix.ranking? ⟨query, [], true⟩ = .ok ranking ∧ ix.HasDistinctIds ∧
      ∃ a a', ix.search? ⟨query, [2], true⟩ ⟨0⟩ 1 = .ok a ∧ a.ids = [2] ∧ a.total = 1 ∧
        ix.search? ⟨query, [], true⟩ ⟨0⟩ 2 = .ok a' ∧ a'.ids = [1, 2] ∧
        a.highlights.get? 2 = a'.highlights.get? 2 ∧
        (ofBatches [[low]]).search? ⟨query, [2], true⟩ ⟨0⟩ 1 = .ok a := by
  intro low high ix query hits
  have hids : ([2] : List Int) ≠ [] := List.cons_ne_nil 2 []
  have hindex : ix = ⟨[[⟨low, ⟨[], [['a', 'c']], [], [], [], []⟩⟩,
      ⟨high, ⟨[['a', 'b']], [], [], [], [], []⟩⟩]]⟩ := by
    show ofBatches [[low, high]] = _
    cbv
  have halone : ofBatches [[low]] = ⟨[[⟨low, ⟨[], [['a', 'c']], [], [], [], []⟩⟩]]⟩ := by
    show ofBatches [[low]] = _
    cbv
  have hranking : ix.ranking? ⟨query, [], true⟩ = .ok hits := by
    have hhits : ix.hits (.boost queryWeight (.perField Field.all fun f =>
        .wildcard f (.ofTerm ['a', '?']))) [] =
          [⟨2, ⟨0x41200000⟩, ⟨0, 0⟩⟩, ⟨1, ⟨0x41c80000⟩, ⟨0, 1⟩⟩] := by
      rw [hindex]
      decide +kernel
    rw [ranking?_spell (by decide) (by decide) (by decide +kernel), Index.ranking, hhits]
    cbv
  have hranking' : (ofBatches [[low]]).ranking? ⟨query, [], true⟩ =
      .ok [⟨2, ⟨0x41200000⟩, ⟨0, 0⟩⟩] := by
    have hhits : (ofBatches [[low]]).hits (.boost queryWeight (.perField Field.all fun f =>
        .wildcard f (.ofTerm ['a', '?']))) [] = [⟨2, ⟨0x41200000⟩, ⟨0, 0⟩⟩] := by
      rw [halone]
      decide +kernel
    rw [ranking?_spell (by decide) (by decide) (by decide +kernel), Index.ranking, hhits]
    cbv
  have hdistinct : ix.HasDistinctIds := by
    rw [hindex]
    unfold HasDistinctIds
    decide
  have hshown : (among [2] hits).map ix.shown =
      (among [2] [⟨2, ⟨0x41200000⟩, ⟨0, 0⟩⟩]).map (ofBatches [[low]]).shown := by
    rw [hindex, halone]
    rfl
  obtain ⟨a, ha, hlists, -, hfree, hother⟩ :=
    (restriction ix query true hids).2 hits hranking ⟨0⟩ 1
  obtain ⟨a', ha', hlists', hsame⟩ := hfree ⟨0⟩ 2 (Nat.le_refl 2)
  have hmem : (2 : Int) ∈ a.ids := by
    rw [hlists.ids]
    decide
  obtain ⟨-, hhighlights⟩ := hsame hdistinct (by decide) 2 hmem
  exact ⟨hids, hranking, hdistinct, a, a', ha, hlists.ids, hlists.total, ha', hlists'.ids,
    hhighlights, hother _ _ hranking' hshown⟩

end Index

end DatasetSearch
