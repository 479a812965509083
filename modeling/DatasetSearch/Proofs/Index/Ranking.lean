import DatasetSearch.Proofs.Index.Distinct
import DatasetSearch.Proofs.Outcome
import DatasetSearch.Proofs.Query.Rendering

/-! # The ranking of an index

`Index.hits` lists the hits of a plan without searching: it goes through all documents at their
addresses (`Index.located`) and takes those that the plan asks for, and that have one of the ids if
there are any.  `Index.ranking` is this list by rank.

A search goes through the segments one by one and keeps the best of each; it gives the first hits of
the ranking and counts all of them (`find_eq`).  `Index.ranking?` is the ranking of a request, and
an answer lists what is left of it when the hits beyond the limit and those below the least score
are taken away (`exists_answer`). -/

namespace DatasetSearch

open Hit TopHits

/-- The hits that reach a least score, in order. -/
def Hit.reaching (least : Score) (hits : List Hit) : List Hit :=
  hits.filter fun hit => hit.score.reaches least

/-- The hits of the documents of some ids, in order. -/
def Hit.among (ids : List Int) (hits : List Hit) : List Hit := hits.filter fun hit => hit.id ∈ ids

/-! ### Documents and their hits -/

namespace Index

variable (ix : Index)

/-- Every document with its address, segment by segment. -/
def located : List (Address × Entry) :=
  ix.segments.zipIdx.flatMap fun s => s.1.zipIdx.map fun d => (⟨s.2, d.2⟩, d.1)

/-- The plan asks for the document, and so do the ids, if there are any. -/
def asksFor (plan : Plan) (ids : List Int) (e : Entry) : Bool :=
  plan.holds e.words.get && decide (ids = [] ∨ e.document.id ∈ ids)

theorem asksFor_iff {plan : Plan} {ids : List Int} {e : Entry} : asksFor plan ids e = true ↔
    plan.holds e.words.get = true ∧ (ids = [] ∨ e.document.id ∈ ids) := by
  rw [asksFor, Bool.and_eq_true, decide_eq_true_iff]

section

variable [Scorer]

/-- The hit that a document is. -/
def hitOf (plan : Plan) (d : Address × Entry) : Hit := ⟨d.2.document.id, ix.score d.2 plan, d.1⟩

/-- All documents that the plan and the ids ask for, segment by segment. -/
def hits (plan : Plan) (ids : List Int) : List Hit :=
  (ix.located.filter fun d => asksFor plan ids d.2).map (ix.hitOf plan)

/-- All documents that the plan and the ids ask for, by rank. -/
def ranking (plan : Plan) (ids : List Int) : List Hit := Hit.sort (ix.hits plan ids)

end

variable {ix}

theorem map_snd_located : ix.located.map Prod.snd = ix.entries := by
  have hsegment (s : List Entry × Nat) :
      (s.1.zipIdx.map fun d => ((⟨s.2, d.2⟩ : Address), d.1)).map Prod.snd = s.1 := by
    rw [List.map_map]
    exact List.zipIdx_map_fst 0 s.1
  unfold located entries
  rw [List.map_flatMap, List.flatMap_congr fun s _ => hsegment s, List.flatMap_def,
    List.zipIdx_map_fst]

theorem nodup_map_fst_located : (ix.located.map Prod.fst).Nodup := by
  have hsegment (s : List Entry × Nat) :
      (s.1.zipIdx.map fun d => ((⟨s.2, d.2⟩ : Address), d.1)).map Prod.fst =
        (List.range' 0 s.1.length).map (Address.mk s.2) := by
    rw [← List.zipIdx_map_snd, List.map_map, List.map_map]
    rfl
  unfold located
  rw [List.map_flatMap, List.flatMap_congr fun s _ => hsegment s, List.nodup_flatMap]
  have hnumbers : (ix.segments.zipIdx.map Prod.snd).Nodup := by
    rw [List.zipIdx_map_snd]
    exact List.nodup_range'
  constructor
  · intro s _
    exact List.Nodup.map (fun i j h => (Address.mk.inj h).2) List.nodup_range'
  · refine (List.pairwise_map.1 hnumbers).imp fun {s s'} hne a ha ha' => ?_
    obtain ⟨i, -, rfl⟩ := List.mem_map.1 ha
    obtain ⟨j, -, h⟩ := List.mem_map.1 ha'
    exact hne (Address.mk.inj h).1.symm

section

variable [Scorer]

theorem apart_hits (plan : Plan) (ids : List Int) : Apart (ix.hits plan ids) := by
  unfold Apart hits
  rw [List.map_map]
  exact nodup_map_fst_located.sublist (List.filter_sublist.map Prod.fst)

/-- The hits of a segment's documents from number `doc` on. -/
def hitsFrom (ix : Index) (plan : Plan) (ids : List Int) (segment doc : Nat) (es : List Entry) :
    List Hit :=
  ((es.zipIdx doc).filter fun d => asksFor plan ids d.1).map fun d =>
    ix.hitOf plan (⟨segment, d.2⟩, d.1)

theorem hits_eq_flatMap (plan : Plan) (ids : List Int) : ix.hits plan ids =
    ix.segments.zipIdx.flatMap fun s => ix.hitsFrom plan ids s.2 0 s.1 := by
  unfold hits located hitsFrom
  rw [List.filter_flatMap, List.map_flatMap]
  refine List.flatMap_congr fun s _ => ?_
  rw [List.filter_map, List.map_map]
  rfl

/-- Taking the documents of a segment one after the other takes its hits in order. -/
theorem collectFrom_eq {plan : Plan} {ids : List Int} {c : Collector} (hc : c.allow = .ofList ids)
    (doc : Nat) (es : List Entry) : ix.collectFrom plan c doc es =
      (ix.hitsFrom plan ids c.segment doc es).foldl Collector.take c := by
  induction es generalizing c doc with
  | nil => rfl
  | cons e es ih =>
      have hadmits := AllowList.admits_ofList ids e.document.id
      rw [← hc] at hadmits
      rw [collectFrom, hitsFrom, List.zipIdx_cons, List.filter_cons]
      by_cases hholds : plan.holds e.words.get = true
      · by_cases hid : ids = [] ∨ e.document.id ∈ ids
        · have hasks : asksFor plan ids e = true := asksFor_iff.2 ⟨hholds, hid⟩
          have hstep : c.collect doc (some e.document.id) (ix.score e plan) =
              c.take (ix.hitOf plan (⟨c.segment, doc⟩, e)) := if_pos (hadmits.2 hid)
          rw [if_pos hasks, if_pos hholds, hstep, List.map_cons, List.foldl_cons]
          exact ih (c := c.take _) hc (doc + 1)
        · have hasks : ¬ asksFor plan ids e = true := fun h => hid (asksFor_iff.1 h).2
          have hstep : c.collect doc (some e.document.id) (ix.score e plan) = c :=
            if_neg (mt hadmits.1 hid)
          rw [if_neg hasks, if_pos hholds, hstep]
          exact ih hc (doc + 1)
      · have hasks : ¬ asksFor plan ids e = true := fun h => hholds (asksFor_iff.1 h).1
        rw [if_neg hasks, if_neg hholds]
        exact ih hc (doc + 1)

/-- A search finds the first hits by rank and counts all of them. -/
theorem find_eq (plan : Plan) (ids : List Int) (limit : Nat) :
    ix.find plan (.ofList ids) limit =
      ⟨(ix.ranking plan ids).take limit, (ix.ranking plan ids).length⟩ := by
  have hall : Apart (ix.segments.zipIdx.map fun s => ix.hitsFrom plan ids s.2 0 s.1).flatten := by
    rw [← List.flatMap_def, ← hits_eq_flatMap]
    exact apart_hits plan ids
  have hparts : ix.partitions plan (.ofList ids) limit =
      (ix.segments.zipIdx.map fun s => ix.hitsFrom plan ids s.2 0 s.1).map
        fun hits => ⟨best limit hits, hits.length⟩ := by
    unfold partitions
    rw [List.map_map]
    refine List.map_congr_left ?_
    rintro ⟨segment, n⟩ hsegment
    have hapart : Apart (ix.hitsFrom plan ids n 0 segment) :=
      hall.sublist (List.sublist_flatten_of_mem (List.mem_map.2 ⟨_, hsegment, rfl⟩))
    have hallow : (Collector.start n limit (.ofList ids)).allow = .ofList ids := rfl
    show (ix.collectFrom plan _ 0 segment).harvest = _
    rw [collectFrom_eq hallow]
    exact Collector.harvest_foldl_take_start hapart n limit (.ofList ids)
  rw [find, hparts, Found.merge_best hall, ← List.flatMap_def, ← hits_eq_flatMap, best,
    ← (sort_perm (ix.hits plan ids)).length_eq]
  rfl

theorem length_ranking (plan : Plan) :
    (ix.ranking plan []).length = ix.entries.countP fun e => plan.holds e.words.get := by
  have hasks (e : Entry) : asksFor plan [] e = plan.holds e.words.get :=
    Bool.and_true (plan.holds e.words.get)
  rw [ranking, (sort_perm _).length_eq, hits, List.length_map, ← List.countP_eq_length_filter,
    ← map_snd_located, List.countP_map]
  exact List.countP_congr fun d _ => by rw [hasks]; rfl

/-- Every document that the plan asks for is in the ranking. -/
theorem exists_mem_ranking {plan : Plan} {e : Entry} (he : e ∈ ix.entries)
    (hholds : plan.holds e.words.get = true) :
    ∃ hit ∈ ix.ranking plan [], hit.id = e.document.id ∧ hit.score = ix.score e plan := by
  rw [← map_snd_located] at he
  obtain ⟨d, hd, rfl⟩ := List.mem_map.1 he
  refine ⟨ix.hitOf plan d, (sort_perm _).mem_iff.2 (List.mem_map_of_mem ?_), rfl, rfl⟩
  exact List.mem_filter.2 ⟨hd, asksFor_iff.2 ⟨hholds, .inl rfl⟩⟩

/-- Ids take the hits of other documents out of the ranking and leave the others in order. -/
theorem ranking_ids (plan : Plan) {ids : List Int} (hids : ids ≠ []) :
    ix.ranking plan ids = among ids (ix.ranking plan []) := by
  have hhits : ix.hits plan ids = among ids (ix.hits plan []) := by
    unfold hits among
    rw [List.filter_map, List.filter_filter]
    congr 1
    refine List.filter_congr fun d _ => ?_
    have hid : (ix.hitOf plan d).id = d.2.document.id := rfl
    rw [Bool.eq_iff_iff, Function.comp_apply, Bool.and_eq_true, asksFor_iff, asksFor_iff,
      decide_eq_true_iff, hid]
    simp [hids, and_comm]
  have hperm : (ix.ranking plan ids).Perm (among ids (ix.ranking plan [])) := by
    rw [ranking, hhits]
    exact (sort_perm _).trans ((sort_perm _).symm.filter _)
  exact (ranked_sort _).eq_of_perm ((ranked_sort _).sublist List.filter_sublist)
    ((apart_hits plan ids).perm (sort_perm _).symm) hperm

end

end Index

/-! ### Requests -/

open Query (Expr)

section

variable [Query.Automata]

/-- The expression of a query text and the plan for it; none if it asks for nothing. -/
def Query.asked? (t : Text) : Except Error (Option (Expr × Plan)) := do
  match ← parse t with
  | none => return none
  | some e => return (← Plan.ofQuery? e).map fun plan => (e, plan)

theorem Query.asked?_eq {t : Text} {e : Expr} {plan : Plan} (hparse : parse t = .ok (some e))
    (hplan : Plan.ofQuery? e = .ok (some plan)) : asked? t = .ok (some (e, plan)) := by
  rw [asked?, hparse]
  show (Plan.ofQuery? e >>= _) = _
  rw [hplan]
  rfl

/-- A wildcard term asks for a token that fits it, in one of the fields. -/
theorem Query.asked?_spell {t : Text} (ht : isSpelled t = true) (hwildcard : isWildcard t = true)
    (hmade : (Pattern.ofTerm t).refusal? = none) : asked? (spell t) =
      .ok (some (.term t,
        .boost queryWeight (.perField Field.all fun f => .wildcard f (.ofTerm t)))) := by
  have hne : t ≠ [] := by
    rintro rfl
    cases hwildcard
  have hsentence : Grammar.Sentence [.word t] (.term t) :=
    ⟨_, .one (.one (.primary (.operand (.word t)))), rfl⟩
  have hparse : parse (spell t) = .ok (some (.term t)) := (Spells.term ht hne).parse_eq hsentence
  have hplan : Plan.ofExpr? Field.all (.term t) =
      .ok (some (.perField Field.all fun f => .wildcard f (.ofTerm t))) := by
    rw [Plan.ofExpr?, if_pos hwildcard, hmade]
  refine asked?_eq hparse ?_
  rw [Plan.ofQuery?, hplan]
  rfl

end

namespace Answer

/-- The answer lists the hits, in order, as some of `total` hits. -/
structure Lists (a : Answer) (hits : List Hit) (total : Nat) : Prop where
  ids : a.ids = hits.map Hit.id
  scores : a.scores = hits.map Hit.score
  total : a.total = total

theorem lists_empty : empty.Lists [] 0 where
  ids := rfl
  scores := rfl
  total := rfl

theorem scores_pushAll (highlight : Hit → Id (Option FieldHighlights)) (a : Answer)
    (hits : List Hit) : (pushAll highlight a hits).scores = a.scores ++ hits.map Hit.score := by
  induction hits generalizing a with
  | nil => exact (List.append_nil a.scores).symm
  | cons hit hits ih =>
      refine (ih (a.push hit.id hit.score (highlight hit))).trans ?_
      exact List.append_assoc a.scores [hit.score] (hits.map Hit.score)

theorem total_pushAll (highlight : Hit → Id (Option FieldHighlights)) (a : Answer)
    (hits : List Hit) : (pushAll highlight a hits).total = a.total := by
  induction hits generalizing a with
  | nil => rfl
  | cons hit hits ih => exact ih (a.push hit.id hit.score (highlight hit))

theorem lists_pushAll (highlight : Hit → Id (Option FieldHighlights)) (hits : List Hit)
    (total : Nat) : (pushAll highlight { total := total } hits).Lists hits total where
  ids := ids_pushAll highlight _ hits
  scores := scores_pushAll highlight _ hits
  total := total_pushAll highlight _ hits

end Answer

namespace Index

variable [Scorer] [Query.Automata] (ix : Index)

/-- All hits of a request by rank; none if its query asks for nothing. -/
def ranking? (r : Request) : Except Query.Error (List Hit) :=
  (Query.asked? r.query).map fun asked => asked.elim [] fun asked => ix.ranking asked.2 r.ids

/-- The answer that lists the hits. -/
def answerOf (e : Expr) (highlighting : Bool) (hits : List Hit) (total : Nat) : Answer :=
  Answer.pushAll (m := Id)
    (fun hit => if highlighting then some (ix.highlightHit (.ofExpr e) hit) else none)
    { total := total } hits

variable {ix}

theorem ranking?_spell {t : Text} (ht : Query.isSpelled t = true)
    (hwildcard : Query.isWildcard t = true) (hmade : (Query.Pattern.ofTerm t).refusal? = none)
    (ids : List Int) (highlighting : Bool) :
    ix.ranking? ⟨Query.spell t, ids, highlighting⟩ =
      .ok (ix.ranking (.boost queryWeight (.perField Field.all fun f => .wildcard f (.ofTerm t)))
        ids) := by
  rw [ranking?, Query.asked?_spell ht hwildcard hmade]
  rfl

/-- A search answers with what is left of the ranking. -/
theorem search?_eq (r : Request) (least : Score) (limit : Nat) : ix.search? r least limit =
    (Query.asked? r.query).map fun asked => asked.elim .empty fun asked =>
      ix.answerOf asked.1 r.highlighting
        (reaching least ((ix.ranking asked.2 r.ids).take limit))
        (ix.ranking asked.2 r.ids).length := by
  unfold search? Query.asked?
  cases Query.parse r.query with
  | error e => rfl
  | ok parsed =>
      cases parsed with
      | none => rfl
      | some e =>
          show (Plan.ofQuery? e >>= fun planned => _) =
            Except.map _
              (Plan.ofQuery? e >>= fun planned => .ok (planned.map fun plan => (e, plan)))
          cases Plan.ofQuery? e with
          | error error => rfl
          | ok planned =>
              cases planned with
              | none => rfl
              | some plan =>
                  show Except.ok (Answer.pushAll (m := Id) _ _ _) = _
                  rw [find_eq]
                  rfl

theorem search?_of_asked (r : Request) {e : Expr} {plan : Plan}
    (h : Query.asked? r.query = .ok (some (e, plan))) (least : Score) (limit : Nat) :
    ix.search? r least limit = .ok (ix.answerOf e r.highlighting
      (reaching least ((ix.ranking plan r.ids).take limit)) (ix.ranking plan r.ids).length) := by
  rw [search?_eq, h]
  rfl

theorem search?_of_asked_none (r : Request) (h : Query.asked? r.query = .ok none) (least : Score)
    (limit : Nat) : ix.search? r least limit = .ok .empty := by
  rw [search?_eq, h]
  rfl

/-- A search fails exactly like the ranking. -/
theorem search?_eq_error {r : Request} {e : Query.Error} (h : ix.ranking? r = .error e)
    (least : Score) (limit : Nat) : ix.search? r least limit = .error e := by
  rw [search?_eq]
  unfold ranking? at h
  cases hasked : Query.asked? r.query with
  | error e' =>
      rw [hasked] at h
      obtain rfl := Except.error.inj h
      rfl
  | ok asked =>
      rw [hasked] at h
      cases h

/-- The answer lists those of the first hits by rank that reach the least score, and counts all
hits. -/
theorem exists_answer {r : Request} {ranking : List Hit} (h : ix.ranking? r = .ok ranking)
    (least : Score) (limit : Nat) : ∃ a, ix.search? r least limit = .ok a ∧
      a.Lists (reaching least (ranking.take limit)) ranking.length := by
  obtain ⟨asked, hasked, rfl⟩ := Except.map_eq_ok_iff.1 h
  cases asked with
  | none =>
      refine ⟨.empty, search?_of_asked_none r hasked least limit, ?_⟩
      show Answer.empty.Lists (reaching least (List.take limit [])) 0
      rw [List.take_nil]
      exact Answer.lists_empty
  | some asked => exact ⟨_, search?_of_asked r hasked least limit, Answer.lists_pushAll _ _ _⟩

/-- A search without ids counts the documents that the plan asks for, and lists every one of them
whose score reaches the least score unless the answer is cut off. -/
theorem exists_complete_answer (ix : Index) {query : Text} {e : Expr} {plan : Plan}
    (hparse : Query.parse query = .ok (some e)) (hplan : Plan.ofQuery? e = .ok (some plan))
    (highlighting : Bool) (least : Score) (limit : Nat) :
    ∃ a, ix.search? ⟨query, [], highlighting⟩ least limit = .ok a ∧
      a.total = (ix.entries.countP fun e => plan.holds e.words.get) ∧
      ∀ entry ∈ ix.entries, plan.holds entry.words.get = true → a.total ≤ limit →
        (ix.score entry plan).reaches least = true → entry.document.id ∈ a.ids := by
  have hranking : ix.ranking? ⟨query, [], highlighting⟩ = .ok (ix.ranking plan []) := by
    rw [ranking?, Query.asked?_eq hparse hplan]
    rfl
  obtain ⟨a, ha, hlists⟩ := exists_answer hranking least limit
  refine ⟨a, ha, hlists.total.trans (length_ranking plan), fun entry hentry hholds hle hleast => ?_⟩
  obtain ⟨hit, hhit, hid, hscore⟩ := exists_mem_ranking hentry hholds
  rw [hlists.total] at hle
  rw [hlists.ids, List.take_of_length_le hle, ← hid]
  exact List.mem_map_of_mem (List.mem_filter.2 ⟨hhit, hscore ▸ hleast⟩)

end Index

end DatasetSearch
