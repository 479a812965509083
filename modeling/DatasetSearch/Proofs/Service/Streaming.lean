import DatasetSearch.Proofs.Answer.Counting
import DatasetSearch.Proofs.Index.Restriction
import DatasetSearch.Proofs.Wire.Forms
import DatasetSearch.Service.Http

/-! # Two ways to be given an answer

An answer is sent as one JSON value or as chunks on a line each, and both say the same.  No text of
a chunk has a line break (`newline_notMem_text`), so the lines are what was sent; of the chunks only
the last says that it is (`Chunks.isLast_iff_of_getElem?`); and put together they have the ids, the
scores and the highlights of the answer (`Answer.Fitting.ofChunks_eq`).  So a client that decodes
the lines and one that decodes the value have the same answer (`Service.streamed_and_whole`). -/

namespace DatasetSearch

open Json (decode)

/-! ### Chunks of an answer -/

namespace Chunks

/-- A chunk has hits of the answer, and highlights of its own hits. -/
theorem isReadable_of_mem_toList {c : Chunks} (hids : ∀ id ∈ c.ids, IsWord id)
    (hscores : ∀ s ∈ c.scores, s.isFinite = true ∧ s.ReadsBack)
    (ha : c.answer.scores.length = c.answer.ids.length) :
    ∀ chunk ∈ c.toList, IsReadable chunk.ids chunk.scores chunk.highlights := by
  intro chunk hchunk
  rw [← flatMap_ids_toList] at hids
  rw [← flatMap_scores_toList c ha] at hscores
  have hown := fun id hid => hids id (List.mem_flatMap.2 ⟨chunk, hchunk, hid⟩)
  exact ⟨hown, fun s hs => hscores s (List.mem_flatMap.2 ⟨chunk, hchunk, hs⟩),
    fun id hid => hown id (keys_subset_ids c chunk hchunk id hid)⟩

end Chunks

namespace Answer

theorem Fitting.pushAll {a : Answer} (h : Fitting a)
    (highlight : Hit → Id (Option FieldHighlights)) (hits : List Hit) :
    Fitting (Answer.pushAll highlight a hits) := by
  rw [pushAll_eq_foldl]
  exact h.foldl_push _

/-- The chunks of an answer make up its hits and highlights. -/
theorem Fitting.ofChunks_eq {a : Answer} (h : Fitting a) (size : Nat) :
    (ofChunks (a.chunks size)).ids = a.ids ∧ (ofChunks (a.chunks size)).scores = a.scores ∧
      ∀ id, (ofChunks (a.chunks size)).highlights.get? id = a.highlights.get? id := by
  have hwhole : ofChunks (a.chunks size) = (a.chunks size).foldl append .empty := rfl
  rw [hwhole, foldl_append]
  refine ⟨Chunks.flatMap_ids_toList (.ofAnswer a size),
    Chunks.flatMap_scores_toList (.ofAnswer a size) h.aligned, fun id => ?_⟩
  refine (Chunks.get?_foldl_merge (.ofAnswer a size) .empty id).trans ?_
  rw [Dictionary.get?_empty, Option.or_none]
  refine ite_eq_left_iff.2 fun hid => ?_
  by_contra hsome
  exact hid (h.keys_subset id ((Dictionary.mem_keys_iff _ id).2 (Ne.symm hsome)))

end Answer

/-! ### Answers of an index -/

namespace Index

variable {ix : Index}

theorem isWord_of_mem_ranking [Scorer] (h : ix.FitsWords) {plan : Plan} {ids : List Int} {hit : Hit}
    (hhit : hit ∈ ix.ranking plan ids) : IsWord hit.id := by
  obtain ⟨d, hd, rfl⟩ := List.mem_map.1 ((Hit.sort_perm _).mem_iff.1 hhit)
  refine h.ids d.2 ?_
  rw [← map_snd_located]
  exact List.mem_map_of_mem (List.mem_filter.1 hd).1

theorem length_ranking_le [Scorer] (plan : Plan) (ids : List Int) :
    (ix.ranking plan ids).length ≤ ix.size := by
  rw [ranking, (Hit.sort_perm _).length_eq, hits, List.length_map]
  refine (List.length_filter_le _ _).trans ?_
  rw [size, ← map_snd_located, List.length_map]

section

variable [Scorer] [Query.Automata]

theorem search_of_search? {r : Request} {least : Score} {limit : Nat} {a : Answer}
    (h : ix.search? r least limit = .ok a) : ix.search r least limit = a := by
  rw [search, h]

/-- An answer has a score for every hit and highlights of hits only, and its numbers are words. -/
theorem search_fits (h : ix.FitsWords) (r : Request) (least : Score) (limit : Nat) :
    (ix.search r least limit).Fitting ∧ (∀ id ∈ (ix.search r least limit).ids, IsWord id) ∧
      (ix.search r least limit).total ≤ Word.greatest := by
  have hempty : Answer.empty.Fitting ∧ (∀ id ∈ Answer.empty.ids, IsWord id) ∧
      Answer.empty.total ≤ Word.greatest :=
    ⟨Answer.fitting_empty, fun _ hid => absurd hid List.not_mem_nil, Nat.zero_le _⟩
  rw [search, search?_eq]
  cases Query.asked? r.query with
  | error e => exact hempty
  | ok asked =>
      cases asked with
      | none => exact hempty
      | some asked =>
          obtain ⟨e, plan⟩ := asked
          have hlists := Answer.lists_pushAll
            (fun hit => if r.highlighting then some (ix.highlightHit (.ofExpr e) hit) else none)
            (Hit.reaching least ((ix.ranking plan r.ids).take limit))
            (ix.ranking plan r.ids).length
          refine ⟨?_, fun id hid => ?_, ?_⟩
          · have hstart : Answer.Fitting { total := (ix.ranking plan r.ids).length } :=
              ⟨rfl, fun _ hid => absurd hid List.not_mem_nil⟩
            exact hstart.pushAll _ _
          · obtain ⟨hit, hhit, rfl⟩ := List.mem_map.1 (hlists.ids ▸ hid)
            exact isWord_of_mem_ranking h (List.mem_of_mem_take (List.mem_filter.1 hhit).1)
          · exact hlists.total.trans_le ((length_ranking_le plan r.ids).trans h.size)

end

end Index

/-! ### What a client is given -/

namespace Service

theorem searchOf_of_hasJson {r : Http.Request} {q : Request} (hjson : r.hasJson = true)
    (hq : Json.decodeFront Request.decoder r.body = .ok q) : searchOf r = .ok q := by
  rw [searchOf, hjson, hq]
  rfl

section

variable [Scorer] [Query.Automata]

theorem evaluate_fits (s : Service) (q : Request) : (s.evaluate q).Fitting ∧
    (∀ id ∈ (s.evaluate q).ids, IsWord id) ∧ (s.evaluate q).total ≤ Word.greatest := by
  rw [evaluate]
  cases hindex : s.index? with
  | none => exact ⟨Answer.fitting_empty, fun _ hid => absurd hid List.not_mem_nil, Nat.zero_le _⟩
  | some opened => exact Index.search_fits opened.fits q _ _

/-- The lines that an answer is sent in. -/
def streamLines (s : Service) (q : Request) : List Text :=
  (s.stream q).map fun c => c.toValue.text

theorem lines_stream (s : Service) (q : Request) :
    lines (s.stream q) = (s.streamLines q).flatMap (· ++ ['\n']) := by
  rw [lines, streamLines, List.flatMap_map]

variable [IndexReader] {s : Service} {b : Builder} {d : Disk} {r : Http.Request} {q : Request}

theorem respond_stream (htarget : Target.ofPath? r.path = some .stream)
    (hmethod : r.method = "POST".toList) (hq : searchOf r = .ok q) : s.respond b d r =
      (d, s, ⟨200, Http.jsonLines, (s.streamLines q).flatMap (· ++ ['\n'])⟩) := by
  have hallowed : (!Target.stream.methods.contains r.method) = false := by
    simp [Target.methods, hmethod]
  simp only [respond, htarget, hallowed, respondSearch, hq, lines_stream]
  rfl

theorem respond_evaluate (htarget : Target.ofPath? r.path = some .evaluate)
    (hmethod : r.method = "POST".toList) (hq : searchOf r = .ok q) : s.respond b d r =
      (d, s, ⟨200, Http.json, (s.evaluate q).toValue.text⟩) := by
  have hallowed : (!Target.evaluate.methods.contains r.method) = false := by
    simp [Target.methods, hmethod]
  simp only [respond, htarget, hallowed, respondSearch, hq]
  rfl

/-- A search that is asked for both ways is answered in lines, none of which has a line break in it,
and in one value.  If all its scores are finite, and if they are read back from their texts as they
are, each line is decoded as a chunk, of which the last and no other says that it is, and the chunks
put together say what the decoded value says. -/
theorem streamed_and_whole (s : Service) (b : Builder) (d : Disk) {r : Http.Request}
    (target target' : Text) (htarget : Target.ofPath? { r with target }.path = some .stream)
    (htarget' : Target.ofPath? { r with target := target' }.path = some .evaluate)
    (hmethod : r.method = "POST".toList) {q : Request} (hq : searchOf r = .ok q) :
    ∃ (texts : List Text) (whole : Text),
      s.respond b d { r with target } =
        (d, s, ⟨200, Http.jsonLines, texts.flatMap (· ++ ['\n'])⟩) ∧
      s.respond b d { r with target := target' } = (d, s, ⟨200, Http.json, whole⟩) ∧
      (∀ text ∈ texts, '\n' ∉ text) ∧
      ((∀ score ∈ (s.evaluate q).scores, score.isFinite = true ∧ score.ReadsBack) →
        decode Answer.decoder whole = .ok (s.evaluate q) ∧
          ∃ chunks, texts.mapM (decode Chunk.decoder) = .ok chunks ∧
            (∀ i chunk, chunks[i]? = some chunk →
              (chunk.isLast = true ↔ i + 1 = chunks.length)) ∧
            (Answer.ofChunks chunks).ids = (s.evaluate q).ids ∧
            (Answer.ofChunks chunks).scores = (s.evaluate q).scores ∧
            ∀ id, (Answer.ofChunks chunks).highlights.get? id =
              (s.evaluate q).highlights.get? id) := by
  refine ⟨s.streamLines q, (s.evaluate q).toValue.text, ?_, ?_, ?_, fun hscores => ?_⟩
  · exact respond_stream htarget hmethod hq
  · exact respond_evaluate htarget' hmethod hq
  · intro text htext
    obtain ⟨c, -, rfl⟩ := List.mem_map.1 htext
    exact Json.newline_notMem_text c.toValue
  · obtain ⟨hfitting, hids, htotal⟩ := s.evaluate_fits q
    have hchunks : (s.streamLines q).mapM (decode Chunk.decoder) = .ok (s.stream q) := by
      refine Except.mapM_map_eq_ok fun c hc => Chunk.decode_toValue ?_
      exact Chunks.isReadable_of_mem_toList (c := .ofAnswer (s.evaluate q) s.settings.chunkSize)
        hids hscores hfitting.aligned c hc
    have hwhole : decode Answer.decoder (s.evaluate q).toValue.text = .ok (s.evaluate q) :=
      Answer.decode_toValue
        ⟨hids, hscores, fun id hid => hids id (hfitting.keys_subset id hid)⟩ htotal
    exact ⟨hwhole, s.stream q, hchunks, fun i chunk h => Chunks.isLast_iff_of_getElem? _ h,
      hfitting.ofChunks_eq _⟩

end

set_option maxRecDepth 4000 in
/-- Two hits in chunks of one hit; a highlight has a quote and a line break in it. -/
theorem streamed_and_whole_of_two_chunks :
    let low : Document := ⟨2, ⟨[], ['"', 'A', 'c', '"', '\n', 'b'], [], [], [], []⟩⟩
    let high : Document := ⟨1, ⟨['a', 'b'], [], [], [], [], []⟩⟩
    let settings : Settings :=
      { dataDir := [], collectionName := ['c'], minScore := ⟨0⟩, maxResults := 2, chunkSize := 1 }
    let c : Catalog := ⟨[low, high], by decide, by decide⟩
    let s : Service := ⟨settings, {}, some (.ofCatalog c)⟩
    let q : Request := ⟨Query.spell ['a', '?'], [], true⟩
    let r : Http.Request := ⟨"POST".toList, [], some Http.json, q.toValue.text⟩
    searchOf r = .ok q ∧ (s.evaluate q).scores = [⟨0x41c80000⟩, ⟨0x41200000⟩] ∧
      ∀ b d, ∃ (texts : List Text) (whole : Text),
        s.respond b d { r with target := "/evaluate_stream".toList } =
          (d, s, ⟨200, Http.jsonLines, texts.flatMap (· ++ ['\n'])⟩) ∧
        s.respond b d { r with target := "/evaluate".toList } = (d, s, ⟨200, Http.json, whole⟩) ∧
        decode Answer.decoder whole = .ok (s.evaluate q) ∧
        ∃ chunks, texts.mapM (decode Chunk.decoder) = .ok chunks ∧
          (Answer.ofChunks chunks).ids = [1, 2] := by
  intro low high settings c s q r
  have hjson (method target body : Text) :
      Http.Request.hasJson ⟨method, target, some Http.json, body⟩ = true := by cbv
  have hsearch : searchOf r = .ok q := searchOf_of_hasJson (hjson _ _ _)
    (Request.decodeFront_toValue fun _ hid => absurd hid List.not_mem_nil)
  have hpath (method : Text) (type : Option Text) (body : Text) : Target.ofPath?
      (Http.Request.path ⟨method, "/evaluate_stream".toList, type, body⟩) = some .stream := by cbv
  have hpath' (method : Text) (type : Option Text) (body : Text) : Target.ofPath?
      (Http.Request.path ⟨method, "/evaluate".toList, type, body⟩) = some .evaluate := by cbv
  have hindex : Index.ofBatches [[low, high]] =
      ⟨[[⟨low, ⟨[], [['a', 'c'], ['b']], [], [], [], []⟩⟩,
        ⟨high, ⟨[['a', 'b']], [], [], [], [], []⟩⟩]]⟩ := by
    show Index.ofBatches [[low, high]] = _
    cbv
  have hranking : (Index.ofBatches [[low, high]]).ranking? q =
      .ok [⟨1, ⟨0x41c80000⟩, ⟨0, 1⟩⟩, ⟨2, ⟨0x41200000⟩, ⟨0, 0⟩⟩] := by
    have hhits : (Index.ofBatches [[low, high]]).hits (.boost queryWeight (.perField Field.all
        fun f => .wildcard f (.ofTerm ['a', '?']))) [] =
          [⟨2, ⟨0x41200000⟩, ⟨0, 0⟩⟩, ⟨1, ⟨0x41c80000⟩, ⟨0, 1⟩⟩] := by
      rw [hindex]
      decide +kernel
    rw [Index.ranking?_spell (by decide) (by decide) (by decide +kernel), Index.ranking, hhits]
    cbv
  obtain ⟨a, ha, hlists⟩ := Index.exists_answer hranking ⟨0⟩ 2
  have hevaluate : s.evaluate q = a := Index.search_of_search? ha
  have hscores : a.scores = [⟨0x41c80000⟩, ⟨0x41200000⟩] := hlists.scores.trans (by decide)
  have hids : a.ids = [1, 2] := hlists.ids.trans (by decide)
  refine ⟨hsearch, hevaluate ▸ hscores, fun b d => ?_⟩
  obtain ⟨texts, whole, hstream, hwhole, -, hsame⟩ :=
    streamed_and_whole s b d _ _ (hpath _ _ _) (hpath' _ _ _) rfl hsearch
  obtain ⟨hdecode, chunks, hchunks, -, hsameIds, -⟩ := hsame (by
    rw [hevaluate, hscores]
    decide +kernel)
  exact ⟨texts, whole, hstream, hwhole, hdecode, chunks, hchunks,
    hsameIds.trans (hevaluate ▸ hids)⟩

end Service

end DatasetSearch
