import DatasetSearch.Proofs.Ranking.TopHits
import Mathlib

/-! # The best hits in any order

`TopHits` keeps its hits by rank.  That is not needed: a store may keep them in any order if it
takes a hit while there is room, else puts it in place of the worst one that it holds if it comes
before that, and else turns it down (`Takes`).  A push does just that (`takes_push`), and what is
held after it is determined (`Takes.perm`).  So after every hit such a store holds what `TopHits`
holds (`Holds.perm`), which is the best of the hits that came (`best_of_front`). -/

namespace DatasetSearch

open Hit

namespace TopHits

/-- A store of hits takes one more; nothing is said about the order in which they are held. -/
inductive Takes (limit : Nat) (held : List Hit) (hit : Hit) : List Hit → Prop
  | grow {held' : List Hit} : held.length < limit → held'.Perm (hit :: held) →
      Takes limit held hit held'
  | replace {worst : Hit} {held' : List Hit} : limit ≤ held.length → IsWorst worst held →
      hit.rank worst = .lt → (worst :: held').Perm (hit :: held) → Takes limit held hit held'
  | discard {held' : List Hit} : limit ≤ held.length →
      (∀ worst, IsWorst worst held → hit.rank worst ≠ .lt) → held'.Perm held →
      Takes limit held hit held'

/-- The hits `seen` came one after the other, and `held` are the hits that are held then. -/
inductive Holds (limit : Nat) : List Hit → List Hit → Prop
  | nil : Holds limit [] []
  | concat {seen held held' : List Hit} {hit : Hit} : Holds limit seen held →
      Takes limit held hit held' → Holds limit (seen ++ [hit]) held'

variable {limit : Nat} {held held₁ held₂ seen hits : List Hit} {hit worst : Hit}

theorem IsWorst.perm (h : IsWorst worst held) (hp : held.Perm held₁) : IsWorst worst held₁ := by
  refine ⟨hp.subset h.1, ?_⟩
  intro other hother
  exact h.2 other (hp.symm.subset hother)

/-- Among hits at different addresses only one is the worst. -/
theorem IsWorst.unique {worst' : Hit} (h : IsWorst worst held) (h' : IsWorst worst' held)
    (ha : Apart held) : worst = worst' :=
  List.inj_on_of_nodup_map ha h.1 h'.1 (address_eq_of_noLater (h'.2 worst h.1) (h.2 worst' h'.1))

/-- What is held after a hit depends only on the hits that were held. -/
theorem Takes.perm {held' : List Hit} (h : Takes limit held hit held₁)
    (h' : Takes limit held' hit held₂) (hp : held.Perm held') (ha : Apart held) :
    held₁.Perm held₂ := by
  have hlength := hp.length_eq
  cases h with
  | grow hroom h₁ =>
      cases h' with
      | grow _ h₂ => exact h₁.trans ((hp.cons hit).trans h₂.symm)
      | replace hfull => omega
      | discard hfull => omega
  | replace hfull hworst hbefore h₁ =>
      cases h' with
      | grow hroom => omega
      | replace _ hworst' _ h₂ =>
          obtain rfl := hworst.unique (hworst'.perm hp.symm) ha
          exact (h₁.trans ((hp.cons hit).trans h₂.symm)).cons_inv
      | discard _ hnone => exact absurd hbefore (hnone _ (hworst.perm hp))
  | discard hfull hnone h₁ =>
      cases h' with
      | grow hroom => omega
      | replace _ hworst hbefore => exact absurd hbefore (hnone _ (hworst.perm hp.symm))
      | discard _ _ h₂ => exact h₁.trans (hp.trans h₂.symm)

/-- A push takes a hit in one of the three ways. -/
theorem takes_push {top : TopHits} (hr : Ranked top.hits) (hit : Hit) :
    Takes top.limit top.hits hit (top.push hit).hits := by
  unfold push
  split
  · rename_i hroom
    exact .grow hroom (place_perm hit top.hits)
  · rename_i hfull
    split
    · rename_i hlast
      have hnil : top.hits = [] := List.getLast?_eq_none_iff.1 hlast
      refine .discard (by omega) ?_ (List.Perm.refl _)
      intro worst hworst
      rw [hnil] at hworst
      cases hworst.1
    · rename_i last hlast
      have hworst := isWorst_of_getLast? hr hlast
      split
      · rename_i hbefore
        refine .replace (by omega) hworst hbefore ?_
        obtain ⟨init, hinit⟩ := List.getLast?_eq_some_iff.1 hlast
        show (last :: place hit top.hits.dropLast).Perm (hit :: top.hits)
        rw [hinit, List.dropLast_concat]
        have hplaced := (place_perm hit init).cons last
        have hback := (List.perm_append_singleton last init).symm.cons hit
        exact hplaced.trans ((List.Perm.swap hit last init).trans hback)
      · rename_i hbefore
        refine .discard (by omega) ?_ (List.Perm.refl _)
        intro worst hworst'
        rw [rank_eq_lt_iff_not_noLater, not_not] at hbefore
        rw [ne_eq, rank_eq_lt_iff_not_noLater, not_not]
        exact noLater_trans (hworst.2 worst hworst'.1) hbefore

/-! ### A run of hits -/

theorem ranked_ofHits (ha : Apart hits) (limit : Nat) : Ranked (ofHits limit hits).hits := by
  rw [hits_ofHits ha]
  exact (ranked_sort hits).take limit

theorem apart_ofHits (ha : Apart hits) (limit : Nat) : Apart (ofHits limit hits).hits := by
  rw [hits_ofHits ha]
  exact apart_of_subperm (best_subperm limit hits) ha

theorem length_ofHits (ha : Apart hits) (limit : Nat) :
    (ofHits limit hits).hits.length = min limit hits.length := by
  rw [hits_ofHits ha, best, List.length_take, (sort_perm hits).length_eq]

theorem holds_ofHits (ha : Apart hits) (limit : Nat) :
    Holds limit hits (ofHits limit hits).hits := by
  induction hits using List.reverseRecOn with
  | nil => exact .nil
  | append_singleton seen hit ih =>
      have hseen : Apart seen := ha.sublist (List.sublist_append_left _ _)
      have htakes := takes_push (ranked_ofHits hseen limit) hit
      rw [limit_ofHits] at htakes
      rw [ofHits_concat]
      exact .concat (ih hseen) htakes

/-- A store that takes every hit so holds the same hits as `TopHits`. -/
theorem Holds.perm (h : Holds limit seen held) (ha : Apart seen) :
    held.Perm (ofHits limit seen).hits := by
  induction h with
  | nil => exact List.Perm.refl _
  | @concat seen held held' hit _ htakes ih =>
      have hseen : Apart seen := ha.sublist (List.sublist_append_left _ _)
      have hpush := takes_push (ranked_ofHits hseen limit) hit
      rw [limit_ofHits] at hpush
      rw [ofHits_concat]
      exact htakes.perm hpush (ih hseen) ((apart_ofHits hseen limit).perm (ih hseen).symm)

/-- After every front of a list of hits at different addresses the store has the first hits of its
ranking, as many as the limit allows; any store that takes hits in the same way has the same, in
whatever order it keeps them; and the order in which the hits come makes no difference. -/
theorem best_of_front (distinct : (hits.map address).Nodup) (limit : Nat) :
    (∀ seen, seen <+: hits →
      (ofHits limit seen).hits = (sort seen).take limit ∧
      (ofHits limit seen).hits.length = min limit seen.length ∧
      Holds limit seen (ofHits limit seen).hits ∧
      ∀ held, Holds limit seen held →
        sort held = (sort seen).take limit ∧ held.length = min limit seen.length) ∧
    ∀ hits', hits'.Perm hits → (ofHits limit hits').hits = (ofHits limit hits).hits := by
  have ha : Apart hits := distinct
  constructor
  · intro seen hbegins
    have hseen : Apart seen := ha.sublist hbegins.sublist
    have hbest : (ofHits limit seen).hits = (sort seen).take limit := hits_ofHits hseen limit
    refine ⟨hbest, length_ofHits hseen limit, holds_ofHits hseen limit, ?_⟩
    intro held hheld
    have hperm := hheld.perm hseen
    have hsort := sort_eq_of_perm ((apart_ofHits hseen limit).perm hperm.symm) hperm
    rw [hsort, (ranked_ofHits hseen limit).sort_eq, hperm.length_eq, length_ofHits hseen]
    exact ⟨hbest, rfl⟩
  · intro hits' hperm
    have ha' : Apart hits' := ha.perm hperm.symm
    rw [hits_ofHits ha', hits_ofHits ha, best_eq_of_perm ha' hperm]

/-- Of three hits of one score the third takes the place of the first, which is at the top of a
heap; from the other end a score that is no number comes in, too. -/
theorem best_of_front_of_ties :
    let hits : List Hit := [⟨3, ⟨0x40a00000⟩, ⟨1, 0⟩⟩, ⟨2, ⟨0x40a00000⟩, ⟨0, 7⟩⟩,
      ⟨1, ⟨0x40a00000⟩, ⟨0, 3⟩⟩, ⟨4, ⟨0x7fc00000⟩, ⟨2, 1⟩⟩]
    let held : List Hit := [⟨2, ⟨0x40a00000⟩, ⟨0, 7⟩⟩, ⟨1, ⟨0x40a00000⟩, ⟨0, 3⟩⟩]
    (hits.map address).Nodup ∧ hits.take 3 <+: hits ∧ hits.reverse.Perm hits ∧
      (ofHits 2 (hits.take 3)).hits.map Hit.id = [1, 2] ∧ Holds 2 (hits.take 3) held ∧
      (sort held).map Hit.id = [1, 2] ∧ (ofHits 2 hits.reverse).hits.map Hit.id = [4, 1] := by
  intro hits held
  have distinct : (hits.map address).Nodup := by decide
  have hbegins : hits.take 3 <+: hits := List.take_prefix 3 hits
  have hperm : hits.reverse.Perm hits := List.reverse_perm hits
  have hone : Holds 2 (hits.take 1) (hits.take 1) := .concat .nil (.grow (by decide) (by decide))
  have htwo : Holds 2 (hits.take 2) (hits.take 2) := .concat hone (.grow (by decide) (by decide))
  have hworst : IsWorst ⟨3, ⟨0x40a00000⟩, ⟨1, 0⟩⟩ (hits.take 2) := ⟨by decide, by decide⟩
  have hheap : Holds 2 (hits.take 3) held :=
    .concat htwo (.replace (by decide) hworst (by decide) (by decide))
  obtain ⟨hfront, horder⟩ := best_of_front distinct 2
  obtain ⟨hbest, -, -, hheld⟩ := hfront _ hbegins
  have hids : ((sort (hits.take 3)).take 2).map Hit.id = [1, 2] := by cbv
  refine ⟨distinct, hbegins, hperm, ?_, hheap, ?_, ?_⟩
  · rw [hbest, hids]
  · rw [(hheld _ hheap).1, hids]
  · rw [horder _ hperm, (hfront hits List.prefix_rfl).1]
    cbv

end TopHits

end DatasetSearch
