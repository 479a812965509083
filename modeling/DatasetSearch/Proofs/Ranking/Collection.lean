import DatasetSearch.Proofs.Ranking.TopHits
import DatasetSearch.Ranking
import Mathlib

/-! # Collecting over segments is ranking everything

A segment is scored document by document; `Scoring` is what comes out of that.  Collecting a
scoring keeps the best of its hits and counts all of them (`Scoring.collect_eq`).  What the segments
keep is enough: merged in any order, it is the beginning of the ranking of all hits of all segments,
and the count is that of all of them (`merge_collect`). -/

namespace DatasetSearch

open Hit TopHits

/-- The scored documents of one segment, in the order in which they come. -/
structure Scoring where
  segment : Nat
  docs : List (Nat × Score)

namespace Scoring

variable (idOf : Address → Option Int)

/-- The addresses of the scored documents. -/
def addresses (s : Scoring) : List Address := s.docs.map fun d => ⟨s.segment, d.1⟩

/-- What a collector finds that takes the documents one after the other. -/
def collect (allow : AllowList) (limit : Nat) (s : Scoring) : Found :=
  (s.docs.foldl (fun c d => c.collect d.1 (idOf ⟨s.segment, d.1⟩) d.2)
    (Collector.start s.segment limit allow)).harvest

/-- The hit of a scored document that has an id and may be found: the empty list of ids asks for no
document in particular. -/
def hit? (ids : List Int) (segment : Nat) (d : Nat × Score) : Option Hit :=
  (idOf ⟨segment, d.1⟩).bind fun id =>
    if ids = [] ∨ id ∈ ids then some ⟨id, d.2, ⟨segment, d.1⟩⟩ else none

/-- All hits of the segment, as they come. -/
def hits (ids : List Int) (s : Scoring) : List Hit := s.docs.filterMap (hit? idOf ids s.segment)

end Scoring

/-! ### One segment -/

theorem AllowList.admits_ofList (ids : List Int) (id : Int) :
    (AllowList.ofList ids).admits id = true ↔ ids = [] ∨ id ∈ ids := by
  have hmem : id ∈ ids.eraseDups ↔ id ∈ ids := List.mem_eraseDups
  have hnil : ids.eraseDups = [] ↔ ids = [] := by
    cases ids with
    | nil => simp
    | cons a as => simp [List.eraseDups_cons]
  unfold admits isActive ofList
  rw [Bool.or_eq_true, Bool.not_not, List.isEmpty_iff, List.contains_iff_mem, hmem, hnil]

/-- Pushes a hit and counts it. -/
def Collector.take (c : Collector) (hit : Hit) : Collector :=
  { c with top := c.top.push hit, total := c.total + 1 }

theorem Collector.harvest_foldl_take (c : Collector) (hits : List Hit) :
    (hits.foldl take c).harvest = ⟨(hits.foldl push c.top).hits, c.total + hits.length⟩ := by
  induction hits generalizing c with
  | nil => rfl
  | cons hit rest ih =>
      rw [List.foldl_cons, ih, List.foldl_cons, List.length_cons]
      show Found.mk _ (c.total + 1 + rest.length) = _
      rw [Nat.add_right_comm, Nat.add_assoc]
      rfl

/-- A collector that takes hits at different addresses keeps the best and counts all of them. -/
theorem Collector.harvest_foldl_take_start {hits : List Hit} (ha : Apart hits) (segment limit : Nat)
    (allow : AllowList) :
    (hits.foldl take (start segment limit allow)).harvest = ⟨best limit hits, hits.length⟩ := by
  rw [harvest_foldl_take]
  show Found.mk (ofHits limit hits).hits (0 + hits.length) = _
  rw [hits_ofHits ha, Nat.zero_add]

namespace Scoring

variable {idOf : Address → Option Int} {ids : List Int}

/-- A document that is no hit changes nothing, and a hit is pushed and counted. -/
theorem collect_step {c : Collector} (ha : c.allow = .ofList ids) (d : Nat × Score) :
    c.collect d.1 (idOf ⟨c.segment, d.1⟩) d.2 =
      match hit? idOf ids c.segment d with
      | none => c
      | some hit => c.take hit := by
  unfold Collector.collect hit?
  cases idOf ⟨c.segment, d.1⟩ with
  | none => rfl
  | some id =>
      have hadmits := AllowList.admits_ofList ids id
      rw [← ha] at hadmits
      by_cases h : ids = [] ∨ id ∈ ids
      · simp only [Option.bind_some, if_pos h, if_pos (hadmits.2 h)]
        rfl
      · simp only [Option.bind_some, if_neg h, if_neg (mt hadmits.1 h)]

theorem foldl_collect {segment : Nat} {c : Collector} (hs : c.segment = segment)
    (ha : c.allow = .ofList ids) (docs : List (Nat × Score)) :
    docs.foldl (fun c d => c.collect d.1 (idOf ⟨segment, d.1⟩) d.2) c =
      (docs.filterMap (hit? idOf ids segment)).foldl Collector.take c := by
  induction docs generalizing c with
  | nil => rfl
  | cons d rest ih =>
      have hstep : c.collect d.1 (idOf ⟨c.segment, d.1⟩) d.2 = _ := collect_step ha d
      rw [hs] at hstep
      rw [List.foldl_cons, hstep]
      cases hd : hit? idOf ids segment d with
      | none =>
          rw [List.filterMap_cons_none hd]
          exact ih hs ha
      | some hit =>
          rw [List.filterMap_cons_some hd, List.foldl_cons]
          exact ih hs ha

theorem map_address_hits_sublist (s : Scoring) :
    ((s.hits idOf ids).map Hit.address).Sublist s.addresses := by
  unfold hits addresses
  induction s.docs with
  | nil => exact List.Sublist.refl _
  | cons d rest ih =>
      rw [List.map_cons]
      cases hd : hit? idOf ids s.segment d with
      | none =>
          rw [List.filterMap_cons_none hd]
          exact ih.cons _
      | some hit =>
          have haddress : hit.address = ⟨s.segment, d.1⟩ := by
            obtain ⟨id, -, hid⟩ := Option.bind_eq_some_iff.1 hd
            rw [Option.ite_none_right_eq_some] at hid
            rw [← Option.some.inj hid.2]
          rw [List.filterMap_cons_some hd, List.map_cons, haddress]
          exact ih.cons_cons _

theorem map_address_flatMap_hits_sublist (segments : List Scoring) :
    ((segments.flatMap (hits idOf ids)).map Hit.address).Sublist (segments.flatMap addresses) := by
  induction segments with
  | nil => exact List.Sublist.refl _
  | cons s rest ih =>
      rw [List.flatMap_cons, List.map_append, List.flatMap_cons]
      exact (map_address_hits_sublist s).append ih

/-- A segment finds the best of its hits and the number of all of them. -/
theorem collect_eq {s : Scoring} (hs : s.addresses.Nodup) (limit : Nat) :
    s.collect idOf (.ofList ids) limit =
      ⟨best limit (s.hits idOf ids), (s.hits idOf ids).length⟩ := by
  have ha : Apart (s.hits idOf ids) := hs.sublist (map_address_hits_sublist s)
  have hsegment : (Collector.start s.segment limit (.ofList ids)).segment = s.segment := rfl
  rw [collect, foldl_collect hsegment rfl]
  exact Collector.harvest_foldl_take_start ha s.segment limit (.ofList ids)

end Scoring

/-! ### All segments -/

theorem Found.eq_of_fields {found found' : Found} (hhits : found.hits = found'.hits)
    (htotal : found.total = found'.total) : found = found' := by
  cases found with
  | mk hits total =>
      cases found' with
      | mk hits' total' => exact congrArg₂ Found.mk hhits htotal

theorem Found.total_merge (partitions : List Found) (limit : Nat) :
    (Found.merge partitions limit).total = (partitions.map Found.total).sum := by
  show partitions.foldr (fun found n => found.total + n) 0 = _
  induction partitions with
  | nil => rfl
  | cons found rest ih => rw [List.foldr_cons, ih, List.map_cons, List.sum_cons]

theorem Found.hits_merge (partitions : List Found) (limit : Nat) :
    (Found.merge partitions limit).hits = best limit (partitions.flatMap Found.hits) := rfl

/-- The order in which partitions come makes no difference. -/
theorem Found.merge_eq_of_perm {partitions partitions' : List Found} (limit : Nat)
    (ha : Apart (partitions.flatMap Found.hits)) (hp : partitions.Perm partitions') :
    Found.merge partitions limit = Found.merge partitions' limit := by
  apply eq_of_fields
  · exact best_eq_of_perm ha (hp.flatMap_right Found.hits) limit
  · rw [total_merge, total_merge, (hp.map Found.total).sum_nat]

/-- The best of each part are enough to find the best of all. -/
theorem Found.merge_best {parts : List (List Hit)} (ha : Apart parts.flatten) (limit : Nat) :
    Found.merge (parts.map fun hits => ⟨best limit hits, hits.length⟩) limit =
      ⟨best limit parts.flatten, parts.flatten.length⟩ := by
  apply Found.eq_of_fields
  · rw [Found.hits_merge, List.flatMap_map, best_flatMap_best ha]
  · rw [Found.total_merge, List.map_map, List.length_flatten]
    rfl

/-- Collecting the segments one by one and merging what they found, in any order, ranks all hits of
all segments together and counts all of them, however few are kept. -/
theorem merge_collect {segments : List Scoring} (idOf : Address → Option Int) (ids : List Int)
    (limit : Nat) (distinct : (segments.flatMap Scoring.addresses).Nodup) {partitions : List Found}
    (order : partitions.Perm (segments.map (Scoring.collect idOf (.ofList ids) limit))) :
    Found.merge partitions limit =
      ⟨(Hit.sort (segments.flatMap (Scoring.hits idOf ids))).take limit,
        (segments.flatMap (Scoring.hits idOf ids)).length⟩ := by
  have hall : Apart (segments.map (Scoring.hits idOf ids)).flatten := by
    rw [← List.flatMap_def]
    exact distinct.sublist (Scoring.map_address_flatMap_hits_sublist segments)
  have hfound : segments.map (Scoring.collect idOf (.ofList ids) limit) =
      segments.map fun s => ⟨best limit (s.hits idOf ids), (s.hits idOf ids).length⟩ :=
    List.map_congr_left fun s hs =>
      Scoring.collect_eq ((List.nodup_flatMap.1 distinct).1 s hs) limit
  have hkept : (segments.map (Scoring.collect idOf (.ofList ids) limit)).flatMap Found.hits =
      (segments.map (Scoring.hits idOf ids)).flatMap (best limit) := by
    rw [hfound, List.flatMap_map, List.flatMap_map]
  have hapart : Apart ((segments.map (Scoring.collect idOf (.ofList ids) limit)).flatMap
      Found.hits) := by
    rw [hkept]
    exact apart_of_subperm (flatMap_best_subperm limit _) hall
  rw [Found.merge_eq_of_perm limit (hapart.perm (order.symm.flatMap_right _)) order]
  apply Found.eq_of_fields
  · rw [Found.hits_merge, hkept, best_flatMap_best hall, ← List.flatMap_def]
    rfl
  · rw [Found.total_merge, hfound, List.map_map, List.length_flatMap]
    rfl

/-- Two segments, the later one merged first: a document without an id, one that was not asked for,
two of one score, and a score that is no number. -/
theorem merge_collect_of_two_segments :
    let idOf : Address → Option Int := fun a =>
      if a.doc = 5 then none else some (10 * a.segment + a.doc)
    let first : Scoring := ⟨0, [(3, ⟨0x40a00000⟩), (1, ⟨0x40a00000⟩), (2, ⟨0x7fc00000⟩)]⟩
    let second : Scoring := ⟨1, [(0, ⟨0x40c00000⟩), (5, ⟨0x40e00000⟩), (4, ⟨0x40e00000⟩)]⟩
    let collect := Scoring.collect idOf (.ofList [3, 1, 2]) 2
    ([first, second].flatMap Scoring.addresses).Nodup ∧
      [collect second, collect first].Perm ([first, second].map collect) ∧
      Found.merge [collect second, collect first] 2 =
        ⟨[⟨2, ⟨0x7fc00000⟩, ⟨0, 2⟩⟩, ⟨1, ⟨0x40a00000⟩, ⟨0, 1⟩⟩], 3⟩ := by
  intro idOf first second collect
  have distinct : ([first, second].flatMap Scoring.addresses).Nodup := by decide
  have order : [collect second, collect first].Perm ([first, second].map collect) :=
    List.Perm.swap (collect first) (collect second) []
  refine ⟨distinct, order, ?_⟩
  rw [merge_collect idOf [3, 1, 2] 2 distinct order]
  cbv

end DatasetSearch
