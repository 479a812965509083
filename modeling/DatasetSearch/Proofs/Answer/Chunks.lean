import DatasetSearch.Answer
import DatasetSearch.Proofs.Dictionary

/-! # Chunks make up the answer

A stream of chunks has hits still to give (`Chunks.ids`, `Chunks.scores`) and highlights still
to give.  One step takes a chunk off the front of the hits and moves the highlights of its ids out
of the answer (`Step`, `step_of_next?`).  Induction over the steps gives what a whole stream does:

* the hits of the chunks are those still to give, in order (`flatMap_ids_toList`,
  `flatMap_scores_toList`);
* the highlights of a chunk are of its own hits, and those of two chunks are of different documents
  (`keys_subset_ids`, `pairwise_toList`);
* put together, the chunks have the highlights of all hits still to give (`get?_foldl_merge`).

An answer that was built hit by hit has highlights of its own hits only (`Fitting`), so nothing of
it is lost (`ofChunks_chunks`). -/

namespace DatasetSearch

/-! ### Moving highlights -/

namespace Chunks

theorem get?_moveHighlights_source (ids : List Int) (source target : Highlights) (id : Int) :
    (moveHighlights ids source target).1.get? id = if id ∈ ids then none else source.get? id := by
  fun_induction moveHighlights ids source target with
  | case1 source target => rw [if_neg List.not_mem_nil]
  | case2 first rest source target fields h ih =>
      rw [ih, Dictionary.get?_erase]
      by_cases hid : id = first
      · simp [hid]
      · simp [hid]
  | case3 first rest source target h ih =>
      rw [ih]
      by_cases hid : id = first
      · simp [hid, h]
      · simp [hid]

theorem get?_moveHighlights_target (ids : List Int) (source target : Highlights) (id : Int) :
    (moveHighlights ids source target).2.get? id =
      if id ∈ ids then (source.get? id).or (target.get? id) else target.get? id := by
  fun_induction moveHighlights ids source target with
  | case1 source target => rw [if_neg List.not_mem_nil]
  | case2 first rest source target fields h ih =>
      rw [ih, Dictionary.get?_erase, Dictionary.get?_insert]
      by_cases hid : id = first
      · simp [hid, h]
      · simp [hid]
  | case3 first rest source target h ih =>
      rw [ih]
      by_cases hid : id = first
      · simp [hid, h]
      · simp [hid]

/-! ### One step -/

/-- The ids still to give. -/
def ids (c : Chunks) : List Int := c.answer.ids.drop c.given

/-- The scores still to give. -/
def scores (c : Chunks) : List Score := c.answer.scores.drop c.given

/-- What one step does: the chunk is a front part of the hits still to give, with the highlights of
its ids, and the others stay. -/
structure Step (c : Chunks) (chunk : Chunk) (c' : Chunks) : Prop where
  ids : c.ids = chunk.ids ++ c'.ids
  scores : c.scores = chunk.scores ++ c'.scores
  given (id : Int) : chunk.highlights.get? id =
    if id ∈ chunk.ids then c.answer.highlights.get? id else none
  kept (id : Int) : c'.answer.highlights.get? id =
    if id ∈ chunk.ids then none else c.answer.highlights.get? id
  aligned : c.answer.scores.length = c.answer.ids.length →
    c'.answer.scores.length = c'.answer.ids.length

theorem drop_eq_take_append_drop {α : Type} (l : List α) {m n : Nat} (h : m ≤ n) :
    l.drop m = (l.drop m).take (n - m) ++ l.drop n := by
  have hdrop : l.drop n = (l.drop m).drop (n - m) := by
    rw [List.drop_drop, Nat.add_sub_cancel' h]
  rw [hdrop, List.take_append_drop]

theorem step_of_next? {c c' : Chunks} {chunk : Chunk} (h : c.next? = some (chunk, c')) :
    Step c chunk c' := by
  unfold next? at h
  split at h
  · cases h
  · rename_i hlt
    have hstop : c.given ≤ min (c.given + c.chunkSize) c.answer.size := by omega
    cases h
    exact {
      ids := drop_eq_take_append_drop c.answer.ids hstop
      scores := drop_eq_take_append_drop c.answer.scores hstop
      given := fun id => by
        rw [get?_moveHighlights_target, Dictionary.get?_empty, Option.or_none]
      kept := fun id => get?_moveHighlights_source _ _ _ id
      aligned := fun h => h }

theorem ids_eq_nil_of_next? {c : Chunks} (h : c.next? = none) : c.ids = [] := by
  unfold next? at h
  split at h
  · rename_i hle
    exact List.drop_eq_nil_of_le hle
  · cases h

/-! ### A whole stream -/

theorem flatMap_ids_toList (c : Chunks) : c.toList.flatMap Chunk.ids = c.ids := by
  fun_induction toList c with
  | case1 c h => rw [List.flatMap_nil, ids_eq_nil_of_next? h]
  | case2 c chunk c' h ih => rw [List.flatMap_cons, ih, (step_of_next? h).ids]

theorem flatMap_scores_toList (c : Chunks) (ha : c.answer.scores.length = c.answer.ids.length) :
    c.toList.flatMap Chunk.scores = c.scores := by
  fun_induction toList c with
  | case1 c h =>
      have hle : c.answer.ids.length ≤ c.given := List.drop_eq_nil_iff.1 (ids_eq_nil_of_next? h)
      rw [List.flatMap_nil, scores, List.drop_eq_nil_of_le (by omega)]
  | case2 c chunk c' h ih =>
      rw [List.flatMap_cons, ih ((step_of_next? h).aligned ha), (step_of_next? h).scores]

theorem Step.mem_ids {c c' : Chunks} {chunk : Chunk} (h : Step c chunk c') {id : Int}
    (hid : id ∈ chunk.highlights.keys) : id ∈ chunk.ids := by
  rw [Dictionary.mem_keys_iff, h.given] at hid
  by_contra hne
  exact hid (if_neg hne)

/-- The highlights of a chunk are of its own hits. -/
theorem keys_subset_ids (c : Chunks) :
    ∀ chunk ∈ c.toList, ∀ id ∈ chunk.highlights.keys, id ∈ chunk.ids := by
  fun_induction toList c with
  | case1 c h => exact fun chunk hc => absurd hc List.not_mem_nil
  | case2 c chunk c' h ih =>
      intro other hother id hid
      rcases List.mem_cons.1 hother with rfl | hother
      · exact (step_of_next? h).mem_ids hid
      · exact ih other hother id hid

/-- The highlights that a stream gives are among those of its answer. -/
theorem keys_subset_keys (c : Chunks) :
    ∀ chunk ∈ c.toList, ∀ id ∈ chunk.highlights.keys, id ∈ c.answer.highlights.keys := by
  fun_induction toList c with
  | case1 c h => exact fun chunk hc => absurd hc List.not_mem_nil
  | case2 c chunk c' h ih =>
      intro other hother id hid
      have hstep := step_of_next? h
      rcases List.mem_cons.1 hother with rfl | hother
      · have hmem := hstep.mem_ids hid
        rw [Dictionary.mem_keys_iff, hstep.given, if_pos hmem] at hid
        exact (Dictionary.mem_keys_iff _ id).2 hid
      · have hkept := ih other hother id hid
        rw [Dictionary.mem_keys_iff, hstep.kept] at hkept
        rw [Dictionary.mem_keys_iff]
        intro hnone
        rw [hnone, ite_self] at hkept
        exact hkept rfl

/-- No two chunks have highlights of one document. -/
theorem pairwise_toList (c : Chunks) : c.toList.Pairwise fun chunk chunk' =>
    ∀ id ∈ chunk.highlights.keys, id ∉ chunk'.highlights.keys := by
  fun_induction toList c with
  | case1 c h => exact List.Pairwise.nil
  | case2 c chunk c' h ih =>
      refine List.pairwise_cons.2 ⟨fun other hother id hid hid' => ?_, ih⟩
      have hstep := step_of_next? h
      have hkept := keys_subset_keys c' other hother id hid'
      rw [Dictionary.mem_keys_iff, hstep.kept, if_pos (hstep.mem_ids hid)] at hkept
      exact hkept rfl

/-- Merged, the chunks have the highlights of all hits still to give. -/
theorem get?_foldl_merge (c : Chunks) (d : Highlights) (id : Int) :
    (c.toList.foldl (fun d chunk => d.merge chunk.highlights) d).get? id =
      if id ∈ c.ids then (c.answer.highlights.get? id).or (d.get? id) else d.get? id := by
  fun_induction toList c generalizing d with
  | case1 c h => rw [List.foldl_nil, ids_eq_nil_of_next? h, if_neg List.not_mem_nil]
  | case2 c chunk c' h ih =>
      have hstep := step_of_next? h
      rw [List.foldl_cons, ih, Dictionary.get?_merge, hstep.kept, hstep.given, hstep.ids]
      by_cases hid : id ∈ chunk.ids
      · simp [hid]
      · simp [hid]

end Chunks

/-! ### Answers built hit by hit -/

namespace Answer

/-- What is highlighted under an id was there before or comes from a hit of that id. -/
theorem get?_push (a : Answer) (id : Int) (score : Score) (given : Option FieldHighlights)
    (other : Int) : (a.push id score given).highlights.get? other =
      if other = id then (given.filter fun fields => !fields.isEmpty).or (a.highlights.get? other)
      else a.highlights.get? other := by
  unfold push
  cases given with
  | none => simp
  | some fields =>
      by_cases hempty : fields.isEmpty = true
      · simp [Option.filter, hempty]
      · by_cases hid : other = id
        · simp [Option.filter, hempty, hid]
        · simp [hempty, hid]

/-- The answer of hits that were appended one after the other, each with its highlights if any. -/
def ofPushes (pushes : List (Int × Score × Option FieldHighlights)) : Answer :=
  pushes.foldl (fun a hit => a.push hit.1 hit.2.1 hit.2.2) .empty

/-- There is one score for every hit, and highlights are of hits only. -/
structure Fitting (a : Answer) : Prop where
  aligned : a.scores.length = a.ids.length
  keys_subset : ∀ id ∈ a.highlights.keys, id ∈ a.ids

theorem fitting_empty : Fitting .empty where
  aligned := rfl
  keys_subset := fun _ hid => absurd hid List.not_mem_nil

theorem Fitting.push {a : Answer} (h : Fitting a) (id : Int) (score : Score)
    (fields : Option FieldHighlights) : Fitting (a.push id score fields) where
  aligned := by
    show (a.scores ++ [score]).length = (a.ids ++ [id]).length
    rw [List.length_append, List.length_append, h.aligned]
    rfl
  keys_subset := fun other hother => by
    show other ∈ a.ids ++ [id]
    have hold : other ∈ a.highlights.keys → other ∈ a.ids ++ [id] := fun hkey =>
      List.mem_append_left _ (h.keys_subset other hkey)
    unfold Answer.push at hother
    cases fields with
    | none => exact hold hother
    | some fields =>
        by_cases hempty : fields.isEmpty = true
        · simp only [if_pos hempty] at hother
          exact hold hother
        · simp only [if_neg hempty, Dictionary.mem_keys_iff, Dictionary.get?_insert] at hother
          by_cases hid : other = id
          · exact List.mem_append_right _ (List.mem_singleton.2 hid)
          · rw [if_neg hid] at hother
            exact hold ((Dictionary.mem_keys_iff _ other).2 hother)

theorem Fitting.foldl_push {a : Answer} (h : Fitting a)
    (pushes : List (Int × Score × Option FieldHighlights)) :
    Fitting (pushes.foldl (fun a hit => a.push hit.1 hit.2.1 hit.2.2) a) := by
  induction pushes generalizing a with
  | nil => exact h
  | cons hit rest ih => exact ih (h.push hit.1 hit.2.1 hit.2.2)

/-! ### Putting chunks together -/

/-- The answer with a chunk at its end. -/
def append (a : Answer) (chunk : Chunk) : Answer :=
  { a with
    ids := a.ids ++ chunk.ids
    scores := a.scores ++ chunk.scores
    highlights := a.highlights.merge chunk.highlights }

theorem foldl_append (a : Answer) (chunks : List Chunk) :
    chunks.foldl append a =
      { a with
        ids := a.ids ++ chunks.flatMap Chunk.ids
        scores := a.scores ++ chunks.flatMap Chunk.scores
        highlights := chunks.foldl (fun d chunk => d.merge chunk.highlights) a.highlights } := by
  induction chunks generalizing a with
  | nil => rw [List.flatMap_nil, List.flatMap_nil, List.append_nil, List.append_nil]; rfl
  | cons chunk rest ih =>
      rw [List.foldl_cons, ih, List.flatMap_cons, List.flatMap_cons, ← List.append_assoc,
        ← List.append_assoc]
      rfl

/-- The chunks of an answer that was built hit by hit, of whatever size, make up its hits and
highlights again; every chunk has highlights of its own hits only, and no document's highlights are
in two chunks. -/
theorem ofChunks_chunks (pushes : List (Int × Score × Option FieldHighlights)) (size : Nat) :
    let a := ofPushes pushes
    let whole := ofChunks (a.chunks size)
    (whole.ids = a.ids ∧ whole.scores = a.scores ∧
        (∀ id, whole.highlights.get? id = a.highlights.get? id) ∧ whole.total = 0) ∧
      (∀ chunk ∈ a.chunks size, ∀ id ∈ chunk.highlights.keys, id ∈ chunk.ids) ∧
      (a.chunks size).Pairwise fun chunk chunk' =>
        ∀ id ∈ chunk.highlights.keys, id ∉ chunk'.highlights.keys := by
  intro a whole
  have hfit : Fitting a := fitting_empty.foldl_push pushes
  have hwhole : whole = (a.chunks size).foldl append .empty := rfl
  rw [foldl_append] at hwhole
  refine ⟨⟨?_, ?_, fun id => ?_, ?_⟩, Chunks.keys_subset_ids _, Chunks.pairwise_toList _⟩
  · rw [hwhole]
    exact Chunks.flatMap_ids_toList (Chunks.ofAnswer a size)
  · rw [hwhole]
    exact Chunks.flatMap_scores_toList (Chunks.ofAnswer a size) hfit.aligned
  · rw [hwhole]
    have hmerge := Chunks.get?_foldl_merge (Chunks.ofAnswer a size) .empty id
    rw [Dictionary.get?_empty, Option.or_none] at hmerge
    refine hmerge.trans ?_
    by_cases hid : id ∈ a.ids
    · exact if_pos hid
    · have hnone : a.highlights.get? id = none := by
        by_contra hsome
        exact hid (hfit.keys_subset id ((Dictionary.mem_keys_iff _ id).2 hsome))
      rw [hnone]
      exact if_neg hid
  · rw [hwhole]
    rfl

end Answer

end DatasetSearch
