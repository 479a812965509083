import DatasetSearch.Index.Build
import DatasetSearch.Index.Search
import DatasetSearch.Proofs.Answer.Chunks
import DatasetSearch.Proofs.Outcome
import DatasetSearch.Proofs.Ranking.TopHits
import Mathlib.Data.List.Nodup

/-!
# Hits and their ids

The hits of a search are documents of the index that the plan of the query holds of; what is known
of their ids follows from how the ids of the documents came about.
-/

namespace DatasetSearch

/-! ## What a search finds

A hit of a search is a document of the index that the plan asks for, with its own id and score and
at its own address (`exists_isHit_of_mem_find`).  Every step on the way keeps this: a collector takes
such documents only (`forall_collectFrom`), and ranking, merging and cutting off make no new
hits. -/

namespace TopHits

theorem mem_place {hit other : Hit} {hits : List Hit} :
    other ∈ place hit hits ↔ other = hit ∨ other ∈ hits := by
  rw [(place_perm hit hits).mem_iff, List.mem_cons]

/-- Only the hit that is pushed is new. -/
theorem mem_of_mem_push {top : TopHits} {hit other : Hit} (h : other ∈ (top.push hit).hits) :
    other = hit ∨ other ∈ top.hits := by
  unfold push at h
  split at h
  · exact mem_place.1 h
  · split at h
    · exact .inr h
    · split at h
      · exact (mem_place.1 h).imp_right fun h => List.dropLast_subset _ h
      · exact .inr h

end TopHits

namespace Collector

theorem segment_collect (c : Collector) (doc : Nat) (id : Option Int) (score : Score) :
    (c.collect doc id score).segment = c.segment := by
  unfold collect
  split
  · rfl
  · split
    · rfl
    · rfl

/-- Only the hit of the document that is taken is new. -/
theorem mem_of_mem_collect {c : Collector} {doc : Nat} {id : Int} {score : Score} {hit : Hit}
    (h : hit ∈ (c.collect doc (some id) score).top.hits) :
    hit = ⟨id, score, ⟨c.segment, doc⟩⟩ ∨ hit ∈ c.top.hits := by
  unfold collect at h
  dsimp only at h
  split at h
  · exact TopHits.mem_of_mem_push h
  · exact .inr h

end Collector

namespace Index

variable {ix : Index}

section

variable [Scorer] {plan : Plan}

/-- The hit is a document of the index that the plan asks for. -/
structure IsHit (ix : Index) (plan : Plan) (hit : Hit) (e : Entry) : Prop where
  entryAt? : ix.entryAt? hit.address = some e
  holds : plan.holds e.words.get = true
  id : hit.id = e.document.id
  score : hit.score = ix.score e plan

/-- What is true of the hits of the documents that the plan asks for is true of all hits of a
segment. -/
theorem forall_collectFrom {motive : Hit → Prop} {c : Collector} {doc : Nat} {es : List Entry}
    (hold : ∀ hit ∈ c.top.hits, motive hit)
    (hnew : ∀ i e, es[i]? = some e → plan.holds e.words.get = true →
      motive ⟨e.document.id, ix.score e plan, ⟨c.segment, doc + i⟩⟩) :
    ∀ hit ∈ (ix.collectFrom plan c doc es).top.hits, motive hit := by
  induction es generalizing c doc with
  | nil => exact hold
  | cons e es ih =>
      have hrest (i : Nat) (e' : Entry) (he' : es[i]? = some e')
          (hholds : plan.holds e'.words.get = true) :
          motive ⟨e'.document.id, ix.score e' plan, ⟨c.segment, doc + 1 + i⟩⟩ := by
        rw [Nat.add_assoc, Nat.add_comm 1 i]
        exact hnew (i + 1) e' he' hholds
      rw [collectFrom]
      by_cases hholds : plan.holds e.words.get = true
      · simp only [if_pos hholds]
        refine ih (fun hit hhit => ?_) ?_
        · rcases Collector.mem_of_mem_collect hhit with rfl | hhit
          · exact hnew 0 e rfl hholds
          · exact hold hit hhit
        · rw [Collector.segment_collect]
          exact hrest
      · simp only [if_neg hholds]
        exact ih hold hrest

theorem exists_isHit_of_mem_partitions {allow : AllowList} {limit : Nat} {found : Found}
    (hfound : found ∈ ix.partitions plan allow limit) :
    ∀ hit ∈ found.hits, ∃ e, ix.IsHit plan hit e := by
  obtain ⟨⟨segment, n⟩, hsegment, rfl⟩ := List.mem_map.1 hfound
  have hsegment : ix.segments[n]? = some segment := List.mem_zipIdx_iff_getElem?.1 hsegment
  refine forall_collectFrom (fun hit hhit => absurd hhit List.not_mem_nil) fun i e he hholds => ?_
  refine ⟨e, ?_, hholds, rfl, rfl⟩
  show ix.segments[n]?.bind (·[0 + i]?) = some e
  rw [hsegment, Nat.zero_add]
  exact he

/-- Every hit of a search is a document that the plan asks for. -/
theorem exists_isHit_of_mem_find {allow : AllowList} {limit : Nat} {hit : Hit}
    (h : hit ∈ (ix.find plan allow limit).hits) : ∃ e, ix.IsHit plan hit e := by
  have hsort : hit ∈ Hit.sort ((ix.partitions plan allow limit).flatMap Found.hits) :=
    List.mem_of_mem_take h
  rw [(Hit.sort_perm _).mem_iff] at hsort
  obtain ⟨found, hfound, hhit⟩ := List.mem_flatMap.1 hsort
  exact exists_isHit_of_mem_partitions hfound hit hhit

end

/-! ### Indexes of batches -/

theorem mem_entries_of_entryAt? {a : Address} {e : Entry} (h : ix.entryAt? a = some e) :
    e ∈ ix.entries := by
  obtain ⟨segment, hsegment, he⟩ := Option.bind_eq_some_iff.1 h
  exact List.mem_flatten.2 ⟨segment, List.mem_of_getElem? hsegment, List.mem_of_getElem? he⟩

/-- The documents of an index have the words of their texts, as far as they fit. -/
theorem get_words_of_mem_ofBatches {batches : List (List Document)} {e : Entry}
    (h : e ∈ (ofBatches batches).entries) (f : Field) :
    e.words.get f = indexedWords (Text.words (e.document.texts.get f)) := by
  obtain ⟨segment, hsegment, he⟩ := List.mem_flatten.1 h
  obtain ⟨batch, -, rfl⟩ := List.mem_map.1 (List.mem_mergeSort.1 hsegment)
  obtain ⟨d, -, rfl⟩ := List.mem_map.1 he
  exact PerField.get_ofFun _ f

end Index

/-! ## Ids of documents

A document has the id that its description gives itself, or else the number of its file, and both
are numbers of one kind.  So the ids of all documents are distinct exactly if the ids that were
given are, and none of them is the number of a file that gives none (`Record.nodup_map_id_iff`). -/

/-! ### Numbered files -/

/-- The description in a file that can be read. -/
def Content.description? : Content → Option Json.Value
  | .bytes bs => (Text.ofBytes? bs).bind Json.parse?
  | .index _ => some (.object [])
  | .link _ => none

/-- What a file that can be read has for an id: its number among all files, and the id that its
description gives itself. -/
structure Record where
  number : Nat
  ownId? : Option Int
  deriving DecidableEq

/-- The records of files, numbered from `n` on.  A file that cannot be read takes a number. -/
def recordsFrom (n : Nat) : List Content → List Record
  | [] => []
  | c :: cs => match c.description? with
    | some v => ⟨n, Croissant.idOf? (Croissant.unwrap v)⟩ :: recordsFrom (n + 1) cs
    | none => recordsFrom (n + 1) cs

/-- The files below a directory that are taken for descriptions. -/
def Disk.sourceFiles (d : Disk) (source : Text) : List Content :=
  ((d.filesBelow source).filter fun f => f.1.getLast?.any isRecordName).map Prod.snd

/-- The records of the files below a directory. -/
def Disk.records (d : Disk) (source : Text) : List Record := recordsFrom 0 (d.sourceFiles source)

namespace Record

/-- The id of the document: its own, or the number of its file. -/
def id (r : Record) : Int := r.ownId?.getD r.number

/-- The ids that descriptions give themselves. -/
def ownIds (rs : List Record) : List Int := rs.filterMap ownId?

/-- No file without an id of its own has a number that is the id of another. -/
def Unclaimed (rs : List Record) : Prop :=
  ∀ r ∈ rs, r.ownId? = none → (r.number : Int) ∉ ownIds rs

end Record

/-- A file has a document if it has a description. -/
theorem Document.ofContent?_eq (c : Content) (record : Int) :
    (ofContent? c record).toOption = c.description?.map fun v => ofMetadata v record := by
  cases c with
  | index documents => rfl
  | link target => rfl
  | bytes bs =>
      rw [ofContent?, ofFile?, Content.description?, Option.bind_some]
      cases Text.ofBytes? bs with
      | none => rfl
      | some text =>
          dsimp only
          rw [Option.bind_some]
          cases Json.parse? text with
          | none => rfl
          | some v => rfl

theorem map_id_documentsFrom (n : Nat) (cs : List Content) :
    (documentsFrom n cs).map Document.id = (recordsFrom n cs).map Record.id := by
  induction cs generalizing n with
  | nil => rfl
  | cons c cs ih =>
      have hdocument := Document.ofContent?_eq c n
      rw [documentsFrom, recordsFrom]
      cases hread : Document.ofContent? c n with
      | error e =>
          rw [hread] at hdocument
          rw [Option.map_eq_none_iff.1 hdocument.symm]
          exact ih (n + 1)
      | ok document =>
          rw [hread] at hdocument
          obtain ⟨v, hv, rfl⟩ := Option.map_eq_some_iff.1 hdocument.symm
          rw [hv]
          dsimp only
          rw [List.map_cons, List.map_cons, ih]
          rfl

/-- Every document has the id of its record. -/
theorem Disk.map_id_documents (d : Disk) (source : Text) :
    (d.documents source).map Document.id = (d.records source).map Record.id :=
  map_id_documentsFrom 0 (d.sourceFiles source)

theorem le_number_of_mem_recordsFrom {n : Nat} {cs : List Content} {r : Record}
    (h : r ∈ recordsFrom n cs) : n ≤ r.number := by
  induction cs generalizing n with
  | nil => cases h
  | cons c cs ih =>
      rw [recordsFrom] at h
      split at h
      · rcases List.mem_cons.1 h with rfl | h
        · exact Nat.le_refl n
        · exact Nat.le_of_succ_le (ih h)
      · exact Nat.le_of_succ_le (ih h)

theorem nodup_number_recordsFrom (n : Nat) (cs : List Content) :
    ((recordsFrom n cs).map Record.number).Nodup := by
  induction cs generalizing n with
  | nil => exact List.nodup_nil
  | cons c cs ih =>
      rw [recordsFrom]
      split
      · rw [List.map_cons, List.nodup_cons]
        refine ⟨fun hmem => ?_, ih (n + 1)⟩
        obtain ⟨r, hr, hnumber⟩ := List.mem_map.1 hmem
        have hle : n + 1 ≤ r.number := le_number_of_mem_recordsFrom hr
        rw [hnumber] at hle
        exact Nat.not_succ_le_self n hle
      · exact ih (n + 1)

/-! ### Distinct ids -/

namespace Record

variable {r : Record} {rs : List Record} {own x : Int}

theorem id_of_some (h : r.ownId? = some own) : r.id = own := by rw [id, h, Option.getD_some]

theorem id_of_none (h : r.ownId? = none) : r.id = r.number := by rw [id, h, Option.getD_none]

theorem ownIds_cons_of_some (h : r.ownId? = some own) : ownIds (r :: rs) = own :: ownIds rs :=
  List.filterMap_cons_some h

theorem ownIds_cons_of_none (h : r.ownId? = none) : ownIds (r :: rs) = ownIds rs :=
  List.filterMap_cons_none h

/-- The number stands for an id: that of a record without one of its own. -/
def IsFallback (x : Int) (rs : List Record) : Prop :=
  ∃ r ∈ rs, r.ownId? = none ∧ (r.number : Int) = x

theorem mem_map_id_iff : x ∈ rs.map id ↔ x ∈ ownIds rs ∨ IsFallback x rs := by
  rw [List.mem_map, ownIds, List.mem_filterMap]
  constructor
  · rintro ⟨r, hr, rfl⟩
    cases hown : r.ownId? with
    | some own => exact .inl ⟨r, hr, by rw [hown, id_of_some hown]⟩
    | none => exact .inr ⟨r, hr, hown, (id_of_none hown).symm⟩
  · rintro (⟨r, hr, hown⟩ | ⟨r, hr, hown, rfl⟩)
    · exact ⟨r, hr, id_of_some hown⟩
    · exact ⟨r, hr, id_of_none hown⟩

theorem unclaimed_cons_of_some (hown : r.ownId? = some own) :
    Unclaimed (r :: rs) ↔ ¬ IsFallback own rs ∧ Unclaimed rs := by
  unfold Unclaimed
  rw [ownIds_cons_of_some hown, List.forall_mem_cons, hown]
  constructor
  · rintro ⟨-, hrest⟩
    refine ⟨?_, fun r' hr' hnone hmem => hrest r' hr' hnone (List.mem_cons_of_mem own hmem)⟩
    rintro ⟨r', hr', hnone, heq⟩
    exact hrest r' hr' hnone (heq ▸ List.mem_cons_self)
  · rintro ⟨hfallback, hrest⟩
    refine ⟨nofun, fun r' hr' hnone hmem => ?_⟩
    rcases List.mem_cons.1 hmem with heq | hmem
    · exact hfallback ⟨r', hr', hnone, heq⟩
    · exact hrest r' hr' hnone hmem

theorem unclaimed_cons_of_none (hown : r.ownId? = none) :
    Unclaimed (r :: rs) ↔ (r.number : Int) ∉ ownIds rs ∧ Unclaimed rs := by
  unfold Unclaimed
  rw [ownIds_cons_of_none hown, List.forall_mem_cons, hown, forall_prop_of_true rfl]

/-- Records with numbers of their own have distinct ids exactly if the ids that were given are
distinct and none of them is the number of a record without one. -/
theorem nodup_map_id_iff (hnumber : (rs.map number).Nodup) :
    (rs.map id).Nodup ↔ (ownIds rs).Nodup ∧ Unclaimed rs := by
  induction rs with
  | nil => exact iff_of_true List.nodup_nil ⟨List.nodup_nil, nofun⟩
  | cons r rs ih =>
      rw [List.map_cons, List.nodup_cons] at hnumber
      obtain ⟨hfirst, hrest⟩ := hnumber
      rw [List.map_cons, List.nodup_cons, ih hrest, mem_map_id_iff, not_or]
      cases hown : r.ownId? with
      | some own =>
          rw [id_of_some hown, ownIds_cons_of_some hown, List.nodup_cons,
            unclaimed_cons_of_some hown]
          exact and_and_and_comm
      | none =>
          have hother : ¬ IsFallback r.number rs := by
            rintro ⟨r', hr', -, heq⟩
            exact hfirst (List.mem_map.2 ⟨r', hr', Int.ofNat.inj heq⟩)
          rw [id_of_none hown, ownIds_cons_of_none hown, unclaimed_cons_of_none hown,
            and_iff_left hother]
          exact and_left_comm

end Record

/-- The documents below a directory have distinct ids exactly if those that descriptions give
themselves are distinct and none of them is the number of a file without one. -/
theorem Disk.nodup_map_id_documents_iff (d : Disk) (source : Text) :
    ((d.documents source).map Document.id).Nodup ↔
      (Record.ownIds (d.records source)).Nodup ∧ Record.Unclaimed (d.records source) := by
  rw [map_id_documents]
  exact Record.nodup_map_id_iff (nodup_number_recordsFrom 0 _)

end DatasetSearch
