import DatasetSearch.Library
import DatasetSearch.Proofs.Answer.Chunks
import DatasetSearch.Proofs.Index.Ids
import DatasetSearch.Proofs.Ranking.Collection

/-! # Answers about distinct documents

An answer speaks of documents by their ids only.  A collector takes every document at an address of
its own (`Collector.Sound`), so the hits of a search are at different addresses
(`Index.apart_find`).  If the documents of an index have distinct ids, then everything that an
answer says about an id is about one document (`Answer.Unambiguous`): no id comes twice, and what is
highlighted under an id are the texts of its document.

`Index.ids_of_documents` puts this together with when the ids of documents are distinct. -/

namespace DatasetSearch

open Hit (Apart)

theorem TopHits.push_subperm (top : TopHits) (hit : Hit) :
    (top.push hit).hits.Subperm (hit :: top.hits) := by
  unfold push
  split
  · exact (place_perm hit top.hits).subperm
  · split
    · exact (List.sublist_cons_self hit _).subperm
    · split
      · have hrest : (hit :: top.hits.dropLast).Sublist (hit :: top.hits) :=
          (List.dropLast_sublist _).cons_cons hit
        exact (place_perm hit _).subperm.trans hrest.subperm
      · exact (List.sublist_cons_self hit _).subperm

namespace Collector

/-- What holds while the documents of a segment are taken one after the other, the next one being
that of number `doc`: the hits so far are at different addresses before it, and are admitted. -/
structure Sound (segment : Nat) (allow : AllowList) (doc : Nat) (c : Collector) : Prop where
  segment_eq : c.segment = segment
  allow_eq : c.allow = allow
  apart : Apart c.top.hits
  before : ∀ hit ∈ c.top.hits, hit.address.segment = segment ∧ hit.address.doc < doc
  admitted : ∀ hit ∈ c.top.hits, allow.admits hit.id = true

variable {segment doc limit : Nat} {allow : AllowList} {c : Collector}

theorem sound_start : (start segment limit allow).Sound segment allow 0 where
  segment_eq := rfl
  allow_eq := rfl
  apart := List.nodup_nil
  before := fun _ hhit => absurd hhit List.not_mem_nil
  admitted := fun _ hhit => absurd hhit List.not_mem_nil

theorem Sound.skip (h : c.Sound segment allow doc) : c.Sound segment allow (doc + 1) where
  segment_eq := h.segment_eq
  allow_eq := h.allow_eq
  apart := h.apart
  before := fun hit hhit => by
    obtain ⟨hsegment, hdoc⟩ := h.before hit hhit
    exact ⟨hsegment, by omega⟩
  admitted := h.admitted

/-- The document that is taken is at an address behind those of all hits so far. -/
theorem Sound.collect (h : c.Sound segment allow doc) (id : Int) (score : Score) :
    (c.collect doc (some id) score).Sound segment allow (doc + 1) := by
  unfold Collector.collect
  dsimp only
  split
  · rename_i hadmits
    have hsub := TopHits.push_subperm c.top ⟨id, score, ⟨c.segment, doc⟩⟩
    have hnew : Apart (⟨id, score, ⟨c.segment, doc⟩⟩ :: c.top.hits) := by
      refine List.nodup_cons.2 ⟨fun hmem => ?_, h.apart⟩
      obtain ⟨hit, hhit, haddress⟩ := List.mem_map.1 hmem
      have hbefore := (h.before hit hhit).2
      rw [haddress] at hbefore
      exact Nat.lt_irrefl doc hbefore
    refine ⟨h.segment_eq, h.allow_eq, TopHits.apart_of_subperm hsub hnew, ?_, ?_⟩
    · intro hit hhit
      rcases List.mem_cons.1 (hsub.subset hhit) with rfl | hhit
      · exact ⟨h.segment_eq, Nat.lt_succ_self doc⟩
      · exact h.skip.before hit hhit
    · intro hit hhit
      rcases List.mem_cons.1 (hsub.subset hhit) with rfl | hhit
      · rw [← h.allow_eq]
        exact hadmits
      · exact h.admitted hit hhit
  · exact h.skip

end Collector

namespace Index

/-! ### Addresses of hits -/

section

variable [Scorer] {ix : Index} {plan : Plan} {allow : AllowList} {limit : Nat}

theorem sound_collectFrom {segment doc : Nat} {c : Collector} (h : c.Sound segment allow doc)
    (es : List Entry) :
    (ix.collectFrom plan c doc es).Sound segment allow (doc + es.length) := by
  induction es generalizing c doc with
  | nil => exact h
  | cons e es ih =>
      rw [collectFrom, List.length_cons, Nat.add_comm es.length, ← Nat.add_assoc]
      by_cases hholds : plan.holds e.words.get = true
      · simp only [if_pos hholds]
        exact ih (h.collect _ _)
      · simp only [if_neg hholds]
        exact ih h.skip

/-- The collector of a whole segment. -/
theorem sound_collect_segment (segment : List Entry) (n : Nat) :
    (ix.collectFrom plan (.start n limit allow) 0 segment).Sound n allow segment.length := by
  rw [← Nat.zero_add segment.length]
  exact sound_collectFrom Collector.sound_start segment

/-- No two hits of a search are at one address. -/
theorem apart_find : Apart (ix.find plan allow limit).hits := by
  have hpartitions : Apart ((ix.partitions plan allow limit).flatMap Found.hits) := by
    unfold Apart partitions
    rw [List.flatMap_map, List.map_flatMap, List.nodup_flatMap]
    have hnumbers : (ix.segments.zipIdx.map Prod.snd).Nodup := by
      rw [List.zipIdx_map_snd]
      exact List.nodup_range'
    constructor
    · rintro ⟨segment, n⟩ -
      exact (sound_collect_segment segment n).apart
    · refine (List.pairwise_map.1 hnumbers).imp ?_
      rintro ⟨segment, n⟩ ⟨segment', n'⟩ hne a hmem hmem'
      obtain ⟨hit, hhit, rfl⟩ := List.mem_map.1 hmem
      obtain ⟨hit', hhit', haddress⟩ := List.mem_map.1 hmem'
      have hfirst := ((sound_collect_segment segment n).before hit hhit).1
      have hsecond := ((sound_collect_segment segment' n').before hit' hhit').1
      rw [haddress] at hsecond
      exact hne (hfirst.symm.trans hsecond)
  exact TopHits.apart_of_subperm (TopHits.best_subperm limit _) hpartitions

/-- The hits of a search are admitted. -/
theorem admits_of_mem_find {hit : Hit} (h : hit ∈ (ix.find plan allow limit).hits) :
    allow.admits hit.id = true := by
  have hsort : hit ∈ (ix.partitions plan allow limit).flatMap Found.hits :=
    (TopHits.best_subperm limit _).subset h
  obtain ⟨found, hfound, hhit⟩ := List.mem_flatMap.1 hsort
  obtain ⟨⟨segment, n⟩, -, rfl⟩ := List.mem_map.1 hfound
  exact (sound_collect_segment segment n).admitted hit hhit

end

/-- The index of one batch has its documents at their places in one segment. -/
theorem entryAt?_ofBatches_singleton {documents : List Document} {a : Address} {e : Entry}
    (h : (ofBatches [documents]).entryAt? a = some e) :
    a.segment = 0 ∧ ∃ document, documents[a.doc]? = some document ∧
      e = Entry.ofDocument document := by
  obtain ⟨segment, hsegment, he⟩ := Option.bind_eq_some_iff.1 h
  cases documents with
  | nil => simp [ofBatches, order] at hsegment
  | cons first rest =>
      have hsegments : (ofBatches [first :: rest]).segments =
          [(first :: rest).map Entry.ofDocument] := by simp [ofBatches, order]
      rw [hsegments, List.getElem?_singleton] at hsegment
      split at hsegment
      · rename_i hzero
        cases hsegment
        rw [List.getElem?_map] at he
        obtain ⟨document, hdocument, rfl⟩ := Option.map_eq_some_iff.1 he
        exact ⟨hzero, document, hdocument, rfl⟩
      · cases hsegment

end Index

/-! ### Answers -/

namespace Chunks

/-- What a chunk says about an id, the answer says about one of the chunk's hits. -/
theorem get?_of_mem_toList (c : Chunks) : ∀ chunk ∈ c.toList, ∀ id fields,
    chunk.highlights.get? id = some fields →
      id ∈ chunk.ids ∧ c.answer.highlights.get? id = some fields := by
  fun_induction toList c with
  | case1 c h => exact fun chunk hc => absurd hc List.not_mem_nil
  | case2 c chunk c' h ih =>
      intro other hother id fields hfields
      have hstep := step_of_next? h
      rcases List.mem_cons.1 hother with rfl | hother
      · rw [hstep.given, Option.ite_none_right_eq_some] at hfields
        exact hfields
      · obtain ⟨hid, hkept⟩ := ih other hother id fields hfields
        rw [hstep.kept, Option.ite_none_left_eq_some] at hkept
        exact ⟨hid, hkept.2⟩

end Chunks

namespace Answer

theorem ids_pushAll (highlight : Hit → Id (Option FieldHighlights)) (a : Answer)
    (hits : List Hit) : (pushAll highlight a hits).ids = a.ids ++ hits.map Hit.id := by
  induction hits generalizing a with
  | nil => exact (List.append_nil a.ids).symm
  | cons hit hits ih =>
      show (pushAll highlight (a.push hit.id hit.score (highlight hit)) hits).ids = _
      rw [ih, List.map_cons]
      show a.ids ++ [hit.id] ++ _ = _
      rw [List.append_assoc, List.singleton_append]

theorem get?_highlights_push {a : Answer} {id other : Int} {score : Score}
    {given : Option FieldHighlights} {fields : FieldHighlights}
    (h : (a.push id score given).highlights.get? other = some fields) :
    a.highlights.get? other = some fields ∨
      other = id ∧ given = some fields ∧ fields.isEmpty = false := by
  rw [get?_push] at h
  split at h
  · rename_i hid
    rcases Option.or_eq_some_iff.1 h with hgiven | ⟨-, hold⟩
    · obtain ⟨hgiven, hnonempty⟩ := Option.filter_eq_some_iff.1 hgiven
      exact .inr ⟨hid, hgiven, (Bool.not_eq_true' _).mp hnonempty⟩
    · exact .inl hold
  · exact .inl h

theorem exists_hit_of_get?_pushAll {highlight : Hit → Id (Option FieldHighlights)} {a : Answer}
    {hits : List Hit} {id : Int} {fields : FieldHighlights}
    (h : (pushAll highlight a hits).highlights.get? id = some fields) :
    a.highlights.get? id = some fields ∨
      ∃ hit ∈ hits, hit.id = id ∧ highlight hit = some fields ∧ fields.isEmpty = false := by
  induction hits generalizing a with
  | nil => exact .inl h
  | cons hit hits ih =>
      rcases ih h with hbefore | ⟨later, hlater, hid⟩
      · rcases get?_highlights_push hbefore with hold | ⟨hid, hfields, hnonempty⟩
        · exact .inl hold
        · exact .inr ⟨hit, List.mem_cons_self, hid.symm, hfields, hnonempty⟩
      · exact .inr ⟨later, List.mem_cons_of_mem hit hlater, hid⟩

end Answer

/-- The highlights of a document's texts for a query. -/
def Document.highlighted (document : Document) (e : Query.Expr) : FieldHighlights :=
  (Terms.ofExpr e).highlightFields
    (Field.all.map fun f => (f.label.toList, document.texts.get f))

namespace Answer

/-- What the answer to a request says about an id is about one of the documents: the id is given
once, was asked for and is that of one document only, whose texts are highlighted under it; and each
chunk says of its own hits what the answer says. -/
structure Unambiguous (r : Request) (documents : List Document) (a : Answer) : Prop where
  nodup : a.ids.Nodup
  asked : ∀ id ∈ a.ids, r.ids = [] ∨ id ∈ r.ids
  existsUnique : ∀ id ∈ a.ids, ∃! document, document ∈ documents ∧ document.id = id
  highlights : ∀ document ∈ documents, ∀ fields, a.highlights.get? document.id = some fields →
    ∃ e, Query.parse r.query = .ok (some e) ∧ fields = document.highlighted e
  nodup_chunks : ∀ size, ((a.chunks size).flatMap Chunk.ids).Nodup
  chunks : ∀ size, ∀ chunk ∈ a.chunks size, ∀ id fields,
    chunk.highlights.get? id = some fields →
      id ∈ chunk.ids ∧ a.highlights.get? id = some fields

theorem nodup_flatMap_ids_chunks {a : Answer} (h : a.ids.Nodup) (size : Nat) :
    ((a.chunks size).flatMap Chunk.ids).Nodup := by
  have hids : (a.chunks size).flatMap Chunk.ids = a.ids :=
    Chunks.flatMap_ids_toList (Chunks.ofAnswer a size)
  rw [hids]
  exact h

theorem unambiguous_empty (r : Request) (documents : List Document) :
    empty.Unambiguous r documents where
  nodup := List.nodup_nil
  asked := fun _ hid => absurd hid List.not_mem_nil
  existsUnique := fun _ hid => absurd hid List.not_mem_nil
  highlights := nofun
  nodup_chunks := nodup_flatMap_ids_chunks List.nodup_nil
  chunks := fun size => Chunks.get?_of_mem_toList (Chunks.ofAnswer _ size)

/-- Hits with ids of their own, each of a document and with that document's highlights if any. -/
theorem unambiguous_pushAll {r : Request} {e : Query.Expr} {documents : List Document}
    {highlight : Hit → Id (Option FieldHighlights)} {hits : List Hit}
    (hparse : Query.parse r.query = .ok (some e))
    (hdistinct : (documents.map Document.id).Nodup) (hnodup : (hits.map Hit.id).Nodup)
    (hasked : ∀ hit ∈ hits, r.ids = [] ∨ hit.id ∈ r.ids)
    (hdocument : ∀ hit ∈ hits, ∃ document ∈ documents, document.id = hit.id ∧
      ∀ fields, highlight hit = some fields → fields = document.highlighted e) (total : Nat) :
    (pushAll highlight { total := total } hits).Unambiguous r documents := by
  have hids : (pushAll highlight { total := total } hits).ids = hits.map Hit.id :=
    ids_pushAll highlight _ hits
  have hall : (pushAll highlight { total := total } hits).ids.Nodup := by
    rw [hids]
    exact hnodup
  have hinj {document document' : Document} (h : document ∈ documents) (h' : document' ∈ documents)
      (hid : document.id = document'.id) : document = document' :=
    List.inj_on_of_nodup_map hdistinct h h' hid
  refine ⟨hall, ?_, ?_, ?_, nodup_flatMap_ids_chunks hall, ?_⟩
  · intro id hid
    rw [hids] at hid
    obtain ⟨hit, hhit, rfl⟩ := List.mem_map.1 hid
    exact hasked hit hhit
  · intro id hid
    rw [hids] at hid
    obtain ⟨hit, hhit, rfl⟩ := List.mem_map.1 hid
    obtain ⟨document, hmem, hid, -⟩ := hdocument hit hhit
    refine ⟨document, ⟨hmem, hid⟩, ?_⟩
    rintro other ⟨hother, hid'⟩
    exact hinj hother hmem (hid'.trans hid.symm)
  · intro document hmem fields hfields
    rcases exists_hit_of_get?_pushAll hfields with hnone | ⟨hit, hhit, hid, hgiven, -⟩
    · cases hnone
    · obtain ⟨other, hother, hid', hsame⟩ := hdocument hit hhit
      obtain rfl : other = document := hinj hother hmem (hid'.trans hid)
      exact ⟨e, hparse, hsame fields hgiven⟩
  · exact fun size => Chunks.get?_of_mem_toList (Chunks.ofAnswer _ size)

end Answer

namespace Index

/-- The document of a hit. -/
theorem exists_document_of_mem_find [Scorer] {documents : List Document} {plan : Plan}
    {allow : AllowList} {limit : Nat} {hit : Hit}
    (h : hit ∈ ((ofBatches [documents]).find plan allow limit).hits) :
    ∃ document ∈ documents, document.id = hit.id ∧
      (ofBatches [documents]).entryAt? hit.address = some (Entry.ofDocument document) := by
  obtain ⟨e, he⟩ := exists_isHit_of_mem_find h
  obtain ⟨-, document, hdocument, rfl⟩ := entryAt?_ofBatches_singleton he.entryAt?
  exact ⟨document, List.mem_of_getElem? hdocument, he.id.symm, he.entryAt?⟩

section distinct

variable {documents : List Document} (hdistinct : (documents.map Document.id).Nodup)
include hdistinct

/-- Documents at two addresses have two ids. -/
theorem address_eq_of_id_eq {a a' : Address} {e e' : Entry}
    (h : (ofBatches [documents]).entryAt? a = some e)
    (h' : (ofBatches [documents]).entryAt? a' = some e')
    (hid : e.document.id = e'.document.id) : a = a' := by
  obtain ⟨hsegment, document, hdocument, rfl⟩ := entryAt?_ofBatches_singleton h
  obtain ⟨hsegment', document', hdocument', rfl⟩ := entryAt?_ofBatches_singleton h'
  have hlt : a.doc < (documents.map Document.id).length := by
    rw [List.length_map]
    exact (List.getElem?_eq_some_iff.1 hdocument).1
  have hsame : (documents.map Document.id)[a.doc]? = (documents.map Document.id)[a'.doc]? := by
    rw [List.getElem?_map, List.getElem?_map, hdocument, hdocument']
    exact congrArg some hid
  have hdoc : a.doc = a'.doc := (List.getElem?_inj hlt hdistinct).1 hsame
  cases a with
  | mk segment doc =>
      cases a' with
      | mk segment' doc' =>
          dsimp only at hsegment hsegment' hdoc
          rw [hsegment, hsegment', hdoc]

/-- Hits of a search have ids of their own. -/
theorem nodup_map_id_find [Scorer] (plan : Plan) (allow : AllowList) (limit : Nat) :
    (((ofBatches [documents]).find plan allow limit).hits.map Hit.id).Nodup := by
  have hapart : Apart ((ofBatches [documents]).find plan allow limit).hits := apart_find
  refine List.pairwise_map.2 ((List.pairwise_map.1 hapart).imp_of_mem ?_)
  intro hit hit' hmem hmem' hne hid
  obtain ⟨e, he⟩ := exists_isHit_of_mem_find hmem
  obtain ⟨e', he'⟩ := exists_isHit_of_mem_find hmem'
  rw [he.id, he'.id] at hid
  exact hne (address_eq_of_id_eq hdistinct he.entryAt? he'.entryAt? hid)

/-- A search says nothing ambiguous. -/
theorem unambiguous_search [Scorer] [Query.Automata] (r : Request) (least : Score) (limit : Nat) :
    ((ofBatches [documents]).search r least limit).Unambiguous r documents := by
  unfold search
  cases hanswer : (ofBatches [documents]).search? r least limit with
  | error e => exact Answer.unambiguous_empty r documents
  | ok a =>
      obtain ⟨parsed, hparse, hanswer⟩ := Except.bind_eq_ok_iff.1 hanswer
      cases parsed with
      | none =>
          cases hanswer
          exact Answer.unambiguous_empty r documents
      | some e =>
          obtain ⟨planned, -, hanswer⟩ := Except.bind_eq_ok_iff.1 hanswer
          cases planned with
          | none =>
              cases hanswer
              exact Answer.unambiguous_empty r documents
          | some plan =>
              cases hanswer
              have hsub := (List.filter_sublist (p := fun hit : Hit => hit.score.reaches least)
                (l := ((ofBatches [documents]).find plan (.ofList r.ids) limit).hits))
              refine Answer.unambiguous_pushAll hparse hdistinct
                ((nodup_map_id_find hdistinct plan _ limit).sublist (hsub.map Hit.id)) ?_ ?_ _
              · intro hit hhit
                exact (AllowList.admits_ofList r.ids hit.id).1
                  (admits_of_mem_find (hsub.subset hhit))
              · intro hit hhit
                obtain ⟨document, hmem, hid, hentry⟩ :=
                  exists_document_of_mem_find (hsub.subset hhit)
                refine ⟨document, hmem, hid, fun fields hfields => ?_⟩
                obtain ⟨-, hfields⟩ := Option.ite_none_right_eq_some.1 hfields
                rw [highlightHit, hentry] at hfields
                exact (Option.some.inj hfields).symm

end distinct

/-- The documents that are described below a directory have distinct ids exactly if the ids that
descriptions give themselves are distinct and none of them is the number of a file without one.
Then no answer says anything ambiguous about them, whole or in chunks. -/
theorem ids_of_documents [Scorer] [Query.Automata] (d : Disk) (source : Text) :
    (((d.documents source).map Document.id).Nodup ↔
      (Record.ownIds (d.records source)).Nodup ∧ Record.Unclaimed (d.records source)) ∧
    (((d.documents source).map Document.id).Nodup → ∀ (r : Request) (least : Score) (limit : Nat),
      ((ofBatches [d.documents source]).search r least limit).Unambiguous r
        (d.documents source)) :=
  ⟨d.nodup_map_id_documents_iff source, fun hdistinct => unambiguous_search hdistinct⟩

/-- A description of nothing but the id 1, and one of nothing at all. -/
theorem description?_of_id :
    (Content.bytes (Text.toBytes "\x7b\"id\":1\x7d".toList)).description? =
        some (.object [("id".toList, .number (.integer 1))]) ∧
      (Content.bytes (Text.toBytes "\x7b\x7d".toList)).description? = some (.object []) := by
  have htext : Text.ofBytes? (Text.toBytes "\x7b\"id\":1\x7d".toList) =
      some "\x7b\"id\":1\x7d".toList := by cbv
  have hread : Json.readAll "\x7b\"id\":1\x7d".toList =
      .object [([.plain 'i', .plain 'd'], .number ⟨false, ['1'], [], none⟩)] true := by cbv
  constructor
  · rw [Content.description?, htext, Option.bind_some, Json.parse?, hread]
    rfl
  · cbv

set_option maxRecDepth 4000 in
/-- A description with an id, a file that cannot be read and a description without an id: the last
one has the number of its file. -/
theorem ids_of_documents_of_three_files :
    let file (text : Text) : Node := .file (.bytes (Text.toBytes text))
    let d : Disk := { top := [(['s'], .directory
      [("a.json".toList, file "\x7b\"id\":1\x7d".toList), ("b.json".toList, file []),
        ("c.json".toList, file "\x7b\x7d".toList)])] }
    (d.documents ['/', 's']).map Document.id = [1, 2] ∧
      (Record.ownIds (d.records ['/', 's'])).Nodup ∧ Record.Unclaimed (d.records ['/', 's']) ∧
      ∀ (r : Request) (least : Score) (limit : Nat),
        ((ofBatches [d.documents ['/', 's']]).search r least limit).Unambiguous r
          (d.documents ['/', 's']) := by
  intro file d
  obtain ⟨hown, hnone⟩ := description?_of_id
  have hunreadable : (Content.bytes (Text.toBytes [])).description? = none := by cbv
  have hfiles : d.sourceFiles ['/', 's'] =
      [.bytes (Text.toBytes "\x7b\"id\":1\x7d".toList), .bytes (Text.toBytes []),
        .bytes (Text.toBytes "\x7b\x7d".toList)] := by cbv
  have hids : (d.documents ['/', 's']).map Document.id = [1, 2] := by
    rw [d.map_id_documents, Disk.records, hfiles]
    simp only [recordsFrom, hown, hunreadable, hnone]
    rfl
  have hnodup : ((d.documents ['/', 's']).map Document.id).Nodup := by
    rw [hids]
    decide
  obtain ⟨hiff, hsearch⟩ := ids_of_documents d ['/', 's']
  obtain ⟨hdistinct, hunclaimed⟩ := hiff.1 hnodup
  exact ⟨hids, hdistinct, hunclaimed, hsearch hnodup⟩

set_option maxRecDepth 4000 in
/-- One description has an id, which is the number of the file of the other: both documents have
that id, although only one id was given. -/
theorem not_nodup_id_of_distinct_ownIds :
    let file (text : Text) : Node := .file (.bytes (Text.toBytes text))
    let d : Disk := { top := [(['s'], .directory
      [("a.json".toList, file "\x7b\"id\":1\x7d".toList),
        ("b.json".toList, file "\x7b\x7d".toList)])] }
    (Record.ownIds (d.records ['/', 's'])).Nodup ∧
      ¬ ((d.documents ['/', 's']).map Document.id).Nodup := by
  intro file d
  obtain ⟨hown, hnone⟩ := description?_of_id
  have hfiles : d.sourceFiles ['/', 's'] =
      [.bytes (Text.toBytes "\x7b\"id\":1\x7d".toList),
        .bytes (Text.toBytes "\x7b\x7d".toList)] := by cbv
  have hrecords : d.records ['/', 's'] = [⟨0, some 1⟩, ⟨1, none⟩] := by
    rw [Disk.records, hfiles]
    simp only [recordsFrom, hown, hnone]
    rfl
  rw [d.map_id_documents, hrecords]
  decide

end Index

end DatasetSearch
