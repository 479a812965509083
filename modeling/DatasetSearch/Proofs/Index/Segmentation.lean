import DatasetSearch.Library
import DatasetSearch.Proofs.Index.Ranking
import DatasetSearch.Proofs.Ranking.Order

/-! # Segments make no difference

Whatever the scorer, a document has its score because of its own words and of the statistics of all
documents together (`Index.score_eq_of_perm`).  So two indexes of the same documents, in whatever
segments and in whatever order, rank hits of the same ids and scores (`Index.perm_listed_ranking`).

The addresses of these hits differ, and with them the order of hits of one score.  An answer that is
cut off in the middle of such hits may keep others of them; all that comes before them is the same
in both answers (`Answer.Agrees`). -/

namespace DatasetSearch

open Hit

/-! ### Hits of one score -/

namespace Hit

variable {hits hits' : List Hit}

/-- What an answer lists of a hit. -/
def listed (hit : Hit) : Int × Score := (hit.id, hit.score)

/-- Ranked lists of hits of the same scores have them in the same order. -/
theorem map_score_eq_of_perm (hr : Ranked hits) (hr' : Ranked hits')
    (h : (hits.map listed).Perm (hits'.map listed)) : hits.map score = hits'.map score := by
  have hscores : (hits.map score).Perm (hits'.map score) := by
    have := h.map Prod.snd
    rw [List.map_map, List.map_map] at this
    exact this
  have hsorted {hits : List Hit} (hr : Ranked hits) :
      (hits.map score).Pairwise fun s t => t.key ≤ s.key := by
    refine List.pairwise_map.2 (hr.imp fun {a b} hab => ?_)
    rw [noLater_iff] at hab
    omega
  refine List.Perm.eq_of_pairwise (fun s t _ _ hst hts => ?_) (hsorted hr) (hsorted hr') hscores
  exact Score.key_injective (Int.le_antisymm hts hst)

/-- The ids of the hits with certain scores can be told from what is listed. -/
theorem perm_map_id_filter (h : (hits.map listed).Perm (hits'.map listed)) (p : Score → Bool) :
    ((hits.filter fun hit => p hit.score).map Hit.id).Perm
      ((hits'.filter fun hit => p hit.score).map Hit.id) := by
  have hids (hits : List Hit) : (hits.filter fun hit => p hit.score).map Hit.id =
      ((hits.map listed).filter fun x => p x.2).map Prod.fst := by
    rw [List.filter_map, List.map_map]
    rfl
  rw [hids, hids]
  exact (h.filter _).map _

/-- A limit that leaves a hit leaves all hits of greater scores. -/
theorem filter_take_of_key_lt (hr : Ranked hits) {limit : Nat} {hit : Hit}
    (hhit : hit ∈ hits.take limit) {p : Score → Bool}
    (hp : ∀ s, p s = true → hit.score.key < s.key) :
    ((hits.take limit).filter fun hit => p hit.score) = hits.filter fun hit => p hit.score := by
  have hrest : ((hits.drop limit).filter fun hit => p hit.score) = [] := by
    refine List.filter_eq_nil_iff.2 fun other hother hscore => ?_
    rw [← List.take_append_drop limit hits] at hr
    have hle := (List.pairwise_append.1 hr).2.2 hit hhit other hother
    have hlt := hp _ hscore
    rw [noLater_iff] at hle
    omega
  conv_rhs => rw [← List.take_append_drop limit hits]
  rw [List.filter_append, hrest, List.append_nil]

end Hit

/-! ### Answers that agree -/

namespace Answer

variable {a a' : Answer} {hits hits' : List Hit} {total : Nat}

/-- The ids that an answer lists with a score. -/
def idsAt (a : Answer) (s : Score) : List Int :=
  ((a.ids.zip a.scores).filter fun x => x.2 = s).map Prod.fst

theorem Lists.idsAt_eq (h : a.Lists hits total) (s : Score) :
    a.idsAt s = (hits.filter fun hit => decide (hit.score = s)).map Hit.id := by
  unfold idsAt
  rw [h.ids, h.scores, List.zip_map', List.filter_map, List.map_map]
  rfl

/-- Two answers that are cut off at one limit agree, up to the choice among the hits of the last
score if there are more hits than the limit. -/
structure Agrees (a a' : Answer) (limit : Nat) : Prop where
  total : a.total = a'.total
  scores : a.scores = a'.scores
  idsAt : ∀ s last, a.scores.getLast? = some last → last.key < s.key →
    (a.idsAt s).Perm (a'.idsAt s)
  all : a.total ≤ limit → a.ids.Perm a'.ids ∧ ∀ s, (a.idsAt s).Perm (a'.idsAt s)

theorem agrees_empty (limit : Nat) : empty.Agrees empty limit :=
  ⟨rfl, rfl, fun _ _ _ _ => .refl _, fun _ => ⟨.refl _, fun _ => .refl _⟩⟩

/-- Answers from two rankings of the same ids and scores agree. -/
theorem agrees_of_perm {least : Score} {limit : Nat} (hr : Ranked hits) (hr' : Ranked hits')
    (h : (hits.map listed).Perm (hits'.map listed))
    (ha : a.Lists (reaching least (hits.take limit)) hits.length)
    (ha' : a'.Lists (reaching least (hits'.take limit)) hits'.length) : a.Agrees a' limit := by
  have hlength : hits.length = hits'.length := by
    simpa using h.length_eq
  have hscores : a.scores = a'.scores := by
    have hcut (hits : List Hit) : (reaching least (hits.take limit)).map Hit.score =
        ((hits.map Hit.score).take limit).filter fun s => s.reaches least := by
      rw [← List.map_take, List.filter_map]
      rfl
    rw [ha.scores, ha'.scores, hcut, hcut, map_score_eq_of_perm hr hr' h]
  have hidsAt (s : Score) (hits : List Hit) :
      ((reaching least hits).filter fun hit => decide (hit.score = s)) =
        hits.filter fun hit => decide (hit.score = s) && hit.score.reaches least := by
    unfold reaching
    rw [List.filter_filter]
  refine ⟨ha.total.trans (hlength.trans ha'.total.symm), hscores, fun s last hlast hlt => ?_,
    fun hle => ?_⟩
  · -- the hit of the last score is within the limit, so the greater scores are as well
    have hcut {a : Answer} {hits : List Hit} (hr : Ranked hits)
        (ha : a.Lists (reaching least (hits.take limit)) hits.length) (hmem : last ∈ a.scores) :
        a.idsAt s = (hits.filter fun hit =>
          decide (hit.score = s) && hit.score.reaches least).map Hit.id := by
      rw [ha.scores] at hmem
      obtain ⟨hit, hhit, rfl⟩ := List.mem_map.1 hmem
      rw [ha.idsAt_eq, hidsAt, filter_take_of_key_lt hr (List.mem_of_mem_filter hhit)
        (p := fun t => decide (t = s) && t.reaches least)]
      intro t ht
      rw [Bool.and_eq_true, decide_eq_true_iff] at ht
      exact ht.1.symm ▸ hlt
    have hmem : last ∈ a.scores := List.mem_of_getLast? hlast
    rw [hcut hr ha hmem, hcut hr' ha' (hscores ▸ hmem)]
    exact perm_map_id_filter h fun t => decide (t = s) && t.reaches least
  · rw [ha.total] at hle
    rw [List.take_of_length_le hle] at ha
    rw [List.take_of_length_le (hlength ▸ hle)] at ha'
    constructor
    · rw [ha.ids, ha'.ids]
      exact perm_map_id_filter h fun t => t.reaches least
    · intro s
      rw [ha.idsAt_eq, ha'.idsAt_eq, hidsAt, hidsAt]
      exact perm_map_id_filter h fun t => decide (t = s) && t.reaches least

end Answer

/-! ### Indexes of the same documents -/

namespace Index

variable {ix ix' : Index}

theorem frequency_eq_of_perm (h : ix.entries.Perm ix'.entries) (f : Field) (t : Text) :
    ix.frequency f t = ix'.frequency f t :=
  h.countP_eq _

theorem totalLength_eq_of_perm (h : ix.entries.Perm ix'.entries) (f : Field) :
    ix.totalLength f = ix'.totalLength f := by
  refine h.foldr_eq' (fun e _ e' _ n => ?_) 0
  omega

theorem statistics_eq_of_perm (h : ix.entries.Perm ix'.entries) :
    ix.statistics = ix'.statistics := by
  have hfrequency : ix.frequency = ix'.frequency :=
    funext fun f => funext fun t => frequency_eq_of_perm h f t
  have htotal : ix.totalLength = ix'.totalLength := funext (totalLength_eq_of_perm h)
  rw [statistics, statistics, size, size, h.length_eq, hfrequency, htotal]

section

variable [Scorer]

/-- A score depends on the document and on statistics of all documents together. -/
theorem score_eq_of_perm (h : ix.entries.Perm ix'.entries) (e : Entry) (plan : Plan) :
    ix.score e plan = ix'.score e plan := by
  rw [score, score, statistics_eq_of_perm h]

theorem map_listed_hits (ix : Index) (plan : Plan) (ids : List Int) :
    (ix.hits plan ids).map listed =
      (ix.entries.filter (asksFor plan ids)).map fun e => (e.document.id, ix.score e plan) := by
  rw [← map_snd_located, List.filter_map, List.map_map, hits, List.map_map]
  rfl

theorem perm_listed_ranking (h : ix.entries.Perm ix'.entries) (plan : Plan) (ids : List Int) :
    ((ix.ranking plan ids).map listed).Perm ((ix'.ranking plan ids).map listed) := by
  have hlisted (ix : Index) :
      ((ix.ranking plan ids).map listed).Perm ((ix.hits plan ids).map listed) :=
    (sort_perm _).map listed
  have hhits : ((ix.hits plan ids).map listed).Perm ((ix'.hits plan ids).map listed) := by
    rw [map_listed_hits, map_listed_hits]
    simp only [score_eq_of_perm h]
    exact (h.filter _).map _
  exact (hlisted ix).trans (hhits.trans (hlisted ix').symm)

end

/-- Two indexes of the same documents answer every request alike. -/
theorem search?_of_perm [Scorer] [Query.Automata] (h : ix.entries.Perm ix'.entries) (r : Request)
    (least : Score) (limit : Nat) :
    (∃ e, ix.search? r least limit = .error e ∧ ix'.search? r least limit = .error e) ∨
    ∃ a a', ix.search? r least limit = .ok a ∧ ix'.search? r least limit = .ok a' ∧
      a.Agrees a' limit := by
  cases hasked : Query.asked? r.query with
  | error e =>
      refine .inl ⟨e, ?_, ?_⟩
      · rw [search?_eq, hasked]
        rfl
      · rw [search?_eq, hasked]
        rfl
  | ok asked =>
      right
      cases asked with
      | none =>
          exact ⟨_, _, search?_of_asked_none r hasked least limit,
            search?_of_asked_none r hasked least limit, Answer.agrees_empty limit⟩
      | some asked =>
          exact ⟨_, _, search?_of_asked r hasked least limit, search?_of_asked r hasked least limit,
            Answer.agrees_of_perm (ranked_sort _) (ranked_sort _) (perm_listed_ranking h _ _)
              (Answer.lists_pushAll _ _ _) (Answer.lists_pushAll _ _ _)⟩

/-- The segments of batches hold the documents of all batches. -/
theorem perm_entries_ofBatches (batches : List (List Document)) :
    (ofBatches batches).entries.Perm (batches.flatten.map Entry.ofDocument) := by
  unfold entries ofBatches order
  refine (List.mergeSort_perm _ _).flatten.trans ?_
  rw [← List.map_flatten, List.flatten_filter_not_isEmpty]

/-- However a list of documents is cut into batches, every request fails alike or is answered alike:
with the same total and the same scores, for each score above the last one with the same ids, and
with the same ids altogether if the limit is no less than the total. -/
theorem segmentation [Scorer] [Query.Automata] {documents : List Document}
    {batches batches' : List (List Document)} (h : batches.flatten = documents)
    (h' : batches'.flatten = documents) (r : Request) (least : Score) (limit : Nat) :
    (∃ e, (ofBatches batches).search? r least limit = .error e ∧
      (ofBatches batches').search? r least limit = .error e) ∨
    ∃ a a', (ofBatches batches).search? r least limit = .ok a ∧
      (ofBatches batches').search? r least limit = .ok a' ∧ a.Agrees a' limit := by
  refine search?_of_perm ?_ r least limit
  have hentries := perm_entries_ofBatches batches
  rw [h, ← h'] at hentries
  exact hentries.trans (perm_entries_ofBatches batches').symm

set_option maxRecDepth 4000 in
/-- Of two documents with the score at the limit, each way of cutting leaves another one. -/
theorem segmentation_of_tie :
    let first : Document := ⟨1, ⟨[], ['A', 'c'], [], [], [], []⟩⟩
    let best : Document := ⟨7, ⟨['a', 'b'], [], [], [], [], []⟩⟩
    let last : Document := ⟨2, ⟨[], ['A', 'd'], [], [], [], []⟩⟩
    let r : Request := ⟨Query.spell ['a', '?'], [], false⟩
    [[first, best, last]].flatten = [first, best, last] ∧
      [[first], [best, last]].flatten = [first, best, last] ∧
      ∃ a a', (ofBatches [[first, best, last]]).search? r ⟨0⟩ 2 = .ok a ∧ a.ids = [7, 1] ∧
        (ofBatches [[first], [best, last]]).search? r ⟨0⟩ 2 = .ok a' ∧ a'.ids = [7, 2] ∧
        a.Agrees a' 2 := by
  intro first best last r
  have hwhole : [[first, best, last]].flatten = [first, best, last] := rfl
  have hcut : [[first], [best, last]].flatten = [first, best, last] := rfl
  have hranking : (ofBatches [[first, best, last]]).ranking? r =
      .ok [⟨7, ⟨0x41c80000⟩, ⟨0, 1⟩⟩, ⟨1, ⟨0x41200000⟩, ⟨0, 0⟩⟩, ⟨2, ⟨0x41200000⟩, ⟨0, 2⟩⟩] := by
    have hindex : ofBatches [[first, best, last]] =
        ⟨[[⟨first, ⟨[], [['a', 'c']], [], [], [], []⟩⟩, ⟨best, ⟨[['a', 'b']], [], [], [], [], []⟩⟩,
          ⟨last, ⟨[], [['a', 'd']], [], [], [], []⟩⟩]]⟩ := by
      show ofBatches [[first, best, last]] = _
      cbv
    have hhits : (ofBatches [[first, best, last]]).hits (.boost queryWeight
        (.perField Field.all fun f => .wildcard f (.ofTerm ['a', '?']))) [] =
          [⟨1, ⟨0x41200000⟩, ⟨0, 0⟩⟩, ⟨7, ⟨0x41c80000⟩, ⟨0, 1⟩⟩, ⟨2, ⟨0x41200000⟩, ⟨0, 2⟩⟩] := by
      rw [hindex]
      decide +kernel
    rw [ranking?_spell (by decide) (by decide) (by decide +kernel), ranking, hhits]
    cbv
  have hranking' : (ofBatches [[first], [best, last]]).ranking? r =
      .ok [⟨7, ⟨0x41c80000⟩, ⟨0, 0⟩⟩, ⟨2, ⟨0x41200000⟩, ⟨0, 1⟩⟩, ⟨1, ⟨0x41200000⟩, ⟨1, 0⟩⟩] := by
    have hindex : ofBatches [[first], [best, last]] =
        ⟨[[⟨best, ⟨[['a', 'b']], [], [], [], [], []⟩⟩, ⟨last, ⟨[], [['a', 'd']], [], [], [], []⟩⟩],
          [⟨first, ⟨[], [['a', 'c']], [], [], [], []⟩⟩]]⟩ := by
      show ofBatches [[first], [best, last]] = _
      cbv
    have hhits : (ofBatches [[first], [best, last]]).hits (.boost queryWeight
        (.perField Field.all fun f => .wildcard f (.ofTerm ['a', '?']))) [] =
          [⟨7, ⟨0x41c80000⟩, ⟨0, 0⟩⟩, ⟨2, ⟨0x41200000⟩, ⟨0, 1⟩⟩, ⟨1, ⟨0x41200000⟩, ⟨1, 0⟩⟩] := by
      rw [hindex]
      decide +kernel
    rw [ranking?_spell (by decide) (by decide) (by decide +kernel), ranking, hhits]
    cbv
  obtain ⟨a, ha, hlists⟩ := exists_answer hranking ⟨0⟩ 2
  obtain ⟨a', ha', hlists'⟩ := exists_answer hranking' ⟨0⟩ 2
  refine ⟨hwhole, hcut, a, a', ha, hlists.ids, ha', hlists'.ids, ?_⟩
  rcases segmentation hwhole hcut r ⟨0⟩ 2 with ⟨e, he, -⟩ | ⟨b, b', hb, hb', hagrees⟩
  · cases ha.symm.trans he
  · obtain rfl := Except.ok.inj (ha.symm.trans hb)
    obtain rfl := Except.ok.inj (ha'.symm.trans hb')
    exact hagrees

end Index

end DatasetSearch
