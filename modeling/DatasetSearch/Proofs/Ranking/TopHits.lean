import DatasetSearch.Proofs.Ranking.Order
import DatasetSearch.Ranking
import Mathlib.Data.List.Perm.Subperm

/-! # The best hits

`Hit.best k` is what a ranking of all hits begins with.  `TopHits` sees the hits one at a time and
never holds more than its limit; `Keeps top seen` says that it holds the best of those seen.  It
holds at the start (`keeps_empty`), every push keeps it (`Keeps.push`), hence so does a run
(`Keeps.foldl_push`), and a run from the start has the best of all that came (`hits_ofHits`).

Two facts carry this and the merging of partitions:

* a hit beyond the first `k` stays beyond them when more hits are put into place (`take_place`);
* the best of a whole are the best of its parts together (`best_flatMap_best`). -/

namespace DatasetSearch

open Hit

/-- The first `k` hits by rank. -/
def Hit.best (k : Nat) (hits : List Hit) : List Hit := (sort hits).take k

namespace TopHits

/-! ### Putting a hit into its place -/

theorem place_perm (hit : Hit) (hits : List Hit) : (place hit hits).Perm (hit :: hits) := by
  induction hits with
  | nil => exact List.Perm.refl _
  | cons other rest ih =>
      rw [place]
      split
      · exact (ih.cons other).trans (List.Perm.swap hit other rest)
      · exact List.Perm.refl _

theorem ranked_place {hit : Hit} {hits : List Hit} (h : Ranked hits) : Ranked (place hit hits) := by
  induction hits with
  | nil => exact List.pairwise_singleton _ hit
  | cons other rest ih =>
      obtain ⟨hfirst, hrest⟩ := List.pairwise_cons.1 h
      rw [place]
      split
      · rename_i hle
        refine List.pairwise_cons.2 ⟨fun x hx => ?_, ih hrest⟩
        rcases List.mem_cons.1 ((place_perm hit rest).subset hx) with rfl | hx
        · exact hle
        · exact hfirst x hx
      · rename_i hgt
        have hle : hit.noLater other = true := by
          have := noLater_total hit other
          rw [Bool.or_eq_true] at this
          exact this.resolve_right hgt
        refine List.pairwise_cons.2 ⟨fun x hx => ?_, h⟩
        rcases List.mem_cons.1 hx with rfl | hx
        · exact hle
        · exact noLater_trans hle (hfirst x hx)

/-- A hit that none of the others comes after goes to the end. -/
theorem place_eq_append {hit : Hit} {hits : List Hit}
    (h : ∀ other ∈ hits, other.noLater hit = true) : place hit hits = hits ++ [hit] := by
  induction hits with
  | nil => rfl
  | cons other rest ih =>
      rw [place, if_pos (h other List.mem_cons_self),
        ih fun x hx => h x (List.mem_cons_of_mem other hx), List.cons_append]

/-- A hit that comes before the last one is put into place among the others. -/
theorem place_append_singleton {hit last : Hit} (h : ¬ last.noLater hit = true) (init : List Hit) :
    place hit (init ++ [last]) = place hit init ++ [last] := by
  induction init with
  | nil => rw [List.nil_append, place, place, if_neg h, List.singleton_append]
  | cons other rest ih =>
      rw [List.cons_append, place, place, ih]
      split
      · rw [List.cons_append]
      · rw [List.cons_append, List.cons_append]

/-- Hits beyond the first `k` never matter for the first `k`. -/
theorem take_place (hit : Hit) (hits : List Hit) (k : Nat) :
    (place hit (hits.take k)).take k = (place hit hits).take k := by
  induction hits generalizing k with
  | nil => rw [List.take_nil]
  | cons other rest ih =>
      cases k with
      | zero => rw [List.take_zero, List.take_zero]
      | succ k =>
          rw [List.take_succ_cons, place, place]
          split
          · rw [List.take_succ_cons, List.take_succ_cons, ih]
          · have htake : (other :: rest.take k).take k = (other :: rest).take k := by
              rw [← List.take_succ_cons, List.take_take, Nat.min_eq_left (Nat.le_succ k)]
            rw [List.take_succ_cons, List.take_succ_cons, htake]

theorem sort_cons {hit : Hit} {hits : List Hit} (ha : Apart (hit :: hits)) :
    sort (hit :: hits) = place hit (sort hits) := by
  have hp : (sort (hit :: hits)).Perm (place hit (sort hits)) :=
    (sort_perm _).trans (((sort_perm hits).symm.cons hit).trans (place_perm hit _).symm)
  exact (ranked_sort _).eq_of_perm (ranked_place (ranked_sort hits))
    (ha.perm (sort_perm _).symm) hp

/-! ### The best of a list -/

theorem best_subperm (k : Nat) (hits : List Hit) : (best k hits).Subperm hits :=
  (List.take_sublist k _).subperm.trans (sort_perm hits).subperm

theorem apart_of_subperm {hits hits' : List Hit} (h : hits.Subperm hits') (ha : Apart hits') :
    Apart hits := by
  obtain ⟨l, hl, hs⟩ := h
  exact (ha.sublist hs).perm hl

theorem best_eq_of_perm {hits hits' : List Hit} (ha : Apart hits) (hp : hits.Perm hits') (k : Nat) :
    best k hits = best k hits' := by
  rw [best, best, sort_eq_of_perm ha hp]

theorem best_cons {hit : Hit} {hits : List Hit} (ha : Apart (hit :: hits)) (k : Nat) :
    best k (hit :: hits) = (place hit (best k hits)).take k := by
  rw [best, sort_cons ha, best, take_place]

theorem best_best (k : Nat) (hits : List Hit) : best k (best k hits) = best k hits := by
  have hr : sort (best k hits) = best k hits := ((ranked_sort hits).take k).sort_eq
  rw [best, hr, best, List.take_take, Nat.min_self]

/-- The best of a list depend on a part of it only through the best of that part. -/
theorem best_append_best {hits hits' : List Hit} (ha : Apart (hits ++ hits')) (k : Nat) :
    best k (hits ++ best k hits') = best k (hits ++ hits') := by
  induction hits with
  | nil => exact best_best k hits'
  | cons hit rest ih =>
      have hsub : (hit :: rest ++ best k hits').Subperm (hit :: rest ++ hits') :=
        (List.subperm_append_left _).2 (best_subperm k hits')
      have hsub' : (rest ++ hits').Sublist (hit :: rest ++ hits') := List.sublist_cons_self _ _
      rw [List.cons_append] at *
      rw [List.cons_append, best_cons (apart_of_subperm hsub ha), ih (ha.sublist hsub'),
        best_cons ha]

theorem flatMap_best_subperm (k : Nat) (parts : List (List Hit)) :
    (parts.flatMap (best k)).Subperm parts.flatten := by
  induction parts with
  | nil => exact List.Subperm.refl _
  | cons part rest ih =>
      rw [List.flatMap_cons, List.flatten_cons]
      exact (best_subperm k part).append ih

/-- The best of all parts together are the best of what each part keeps. -/
theorem best_flatMap_best {parts : List (List Hit)} (ha : Apart parts.flatten) (k : Nat) :
    best k (parts.flatMap (best k)) = best k parts.flatten := by
  induction parts with
  | nil => rfl
  | cons part rest ih =>
      rw [List.flatten_cons] at ha
      have hkept : Apart (part ++ rest.flatMap (best k)) :=
        apart_of_subperm ((List.subperm_append_left part).2 (flatMap_best_subperm k rest)) ha
      have hswap : Apart (rest.flatMap (best k) ++ part) := hkept.perm List.perm_append_comm
      have hcut : Apart (best k part ++ rest.flatMap (best k)) :=
        apart_of_subperm ((List.subperm_append_right _).2 (best_subperm k part)) hkept
      have hrest : Apart rest.flatten := ha.sublist (List.sublist_append_right _ _)
      calc best k (best k part ++ rest.flatMap (best k))
          = best k (rest.flatMap (best k) ++ best k part) :=
            best_eq_of_perm hcut List.perm_append_comm k
        _ = best k (part ++ rest.flatMap (best k)) := by
            rw [best_append_best hswap, best_eq_of_perm hswap List.perm_append_comm]
        _ = best k (part ++ rest.flatten) := by
            rw [← best_append_best hkept, ih hrest, best_append_best ha]

/-! ### A run of pushes -/

@[simp] theorem push_limit (top : TopHits) (hit : Hit) : (top.push hit).limit = top.limit := by
  unfold push
  split
  · rfl
  · split
    · rfl
    · split <;> rfl

theorem foldl_push_limit (top : TopHits) (hits : List Hit) :
    (hits.foldl push top).limit = top.limit := by
  induction hits generalizing top with
  | nil => rfl
  | cons hit rest ih => rw [List.foldl_cons, ih, push_limit]

/-- A hit of the list that no other one of it comes after. -/
def IsWorst (worst : Hit) (hits : List Hit) : Prop :=
  worst ∈ hits ∧ ∀ other ∈ hits, other.noLater worst = true

/-- The last of ranked hits is the worst. -/
theorem isWorst_of_getLast? {hits : List Hit} {last : Hit} (hr : Ranked hits)
    (hlast : hits.getLast? = some last) : IsWorst last hits := by
  obtain ⟨init, rfl⟩ := List.getLast?_eq_some_iff.1 hlast
  refine ⟨by simp, ?_⟩
  intro other hother
  rcases List.mem_append.1 hother with hmem | hmem
  · exact (List.pairwise_append.1 hr).2.2 other hmem last (List.mem_singleton_self last)
  · rw [List.mem_singleton.1 hmem, noLater_iff]
    omega

/-- Whether it grows, replaces its last hit or turns the new one down, a ranked store holds the
first hits of the old ones and the new one. -/
theorem push_hits {top : TopHits} (hr : Ranked top.hits) (hit : Hit) :
    (top.push hit).hits = (place hit top.hits).take top.limit := by
  have hle := top.length_le
  have hlen := length_place hit top.hits
  unfold push
  split
  · rename_i hroom
    rw [List.take_of_length_le (by omega)]
  · rename_i hfull
    have hlimit : top.hits.length = top.limit := by omega
    split
    · rename_i hlast
      have hnil : top.hits = [] := List.getLast?_eq_none_iff.1 hlast
      rw [← hlimit, hnil, List.length_nil, List.take_zero]
    · rename_i last hlast
      obtain ⟨init, hinit⟩ := List.getLast?_eq_some_iff.1 hlast
      split
      · rename_i hbefore
        rw [rank_eq_lt_iff_not_noLater] at hbefore
        have hroom : (place hit init).length = top.limit := by
          rw [length_place, ← hlimit, hinit, List.length_append, List.length_singleton]
        show place hit top.hits.dropLast = _
        rw [hinit, List.dropLast_concat, place_append_singleton hbefore, ← hroom,
          List.take_left]
      · rename_i hbefore
        rw [rank_eq_lt_iff_not_noLater, not_not] at hbefore
        have hall : ∀ other ∈ top.hits, other.noLater hit = true := by
          intro other hother
          exact noLater_trans ((isWorst_of_getLast? hr hlast).2 other hother) hbefore
        rw [place_eq_append hall, ← hlimit, List.take_left]

/-- The store holds the best of the hits seen. -/
def Keeps (top : TopHits) (seen : List Hit) : Prop := top.hits = best top.limit seen

theorem keeps_empty (limit : Nat) : Keeps (empty limit) [] := by
  have hnil : Ranked [] := List.Pairwise.nil
  rw [Keeps, best, hnil.sort_eq, List.take_nil]
  rfl

theorem Keeps.push {top : TopHits} {seen : List Hit} {hit : Hit} (h : Keeps top seen)
    (ha : Apart (hit :: seen)) : Keeps (top.push hit) (hit :: seen) := by
  have hr : Ranked top.hits := by
    rw [show top.hits = best top.limit seen from h]
    exact (ranked_sort seen).take top.limit
  rw [Keeps, push_hits hr, push_limit, best_cons ha, show top.hits = best top.limit seen from h]

/-- After any further hits the store holds the best of all. -/
theorem Keeps.foldl_push {top : TopHits} {seen : List Hit} (h : Keeps top seen)
    {hits : List Hit} (ha : Apart (seen ++ hits)) :
    Keeps (hits.foldl TopHits.push top) (seen ++ hits) := by
  induction hits generalizing top seen with
  | nil => rwa [List.append_nil]
  | cons hit rest ih =>
      have hmid : (hit :: seen ++ rest).Perm (seen ++ hit :: rest) := List.perm_middle.symm
      have ha' : Apart (hit :: seen ++ rest) := ha.perm hmid.symm
      have hstep : Keeps (top.push hit) (hit :: seen) :=
        h.push (ha'.sublist (List.sublist_append_left _ _))
      have hrest := ih hstep ha'
      rw [Keeps, best_eq_of_perm ha' hmid] at hrest
      exact hrest

/-- What is kept of hits that come one after the other. -/
def ofHits (limit : Nat) (hits : List Hit) : TopHits := hits.foldl push (empty limit)

theorem ofHits_concat (limit : Nat) (hits : List Hit) (hit : Hit) :
    ofHits limit (hits ++ [hit]) = (ofHits limit hits).push hit := by
  simp [ofHits, List.foldl_append]

@[simp] theorem limit_ofHits (limit : Nat) (hits : List Hit) :
    (ofHits limit hits).limit = limit := by
  unfold ofHits
  rw [foldl_push_limit]
  rfl

theorem hits_ofHits {hits : List Hit} (ha : Apart hits) (limit : Nat) :
    (ofHits limit hits).hits = best limit hits := by
  have hkeeps : Keeps (ofHits limit hits) ([] ++ hits) := (keeps_empty limit).foldl_push ha
  rwa [Keeps, limit_ofHits, List.nil_append] at hkeeps

end TopHits

end DatasetSearch
