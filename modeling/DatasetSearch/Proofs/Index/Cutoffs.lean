import DatasetSearch.Library
import DatasetSearch.Proofs.Index.Ranking
import DatasetSearch.Proofs.Ranking.Order

/-! # Limits and least scores

A search cuts the ranking off at the limit and then leaves out what is below the least score.  If no
score is not a number, the hits that reach a least score are the first of the ranking, so it makes
no difference which of the two comes first (`Hit.reaching_take`), and a lower limit or a higher
least score makes the answer shorter at its end and changes nothing else (`Index.cutoffs`). -/

namespace DatasetSearch

namespace Hit

variable {hits : List Hit} {least least' : Score}

theorem key_le_of_noLater {a b : Hit} (h : a.noLater b = true) : b.score.key ≤ a.score.key := by
  rw [noLater_iff] at h
  omega

/-- Behind a hit that does not reach the least score there are none that do. -/
theorem reaching_eq_nil {first : Hit} (hr : Ranked (first :: hits))
    (hn : first.score.isNaN = false) (h : ¬ first.score.reaches least = true) :
    reaching least (first :: hits) = [] := by
  obtain ⟨hfirst, -⟩ := List.pairwise_cons.1 hr
  apply List.filter_eq_nil_iff.2
  intro hit hhit
  rcases List.mem_cons.1 hhit with rfl | hhit
  · exact h
  · intro hreaches
    exact h (Score.reaches_of_key_le (key_le_of_noLater (hfirst hit hhit)) hn hreaches)

theorem reaching_cons {first : Hit} (h : first.score.reaches least = true) :
    reaching least (first :: hits) = first :: reaching least hits :=
  List.filter_cons_of_pos h

/-- Among numbers by rank it makes no difference whether the list is cut off before or after those
below the least score are left out. -/
theorem reaching_take (hr : Ranked hits) (hn : ∀ hit ∈ hits, hit.score.isNaN = false)
    (limit : Nat) : reaching least (hits.take limit) = (reaching least hits).take limit := by
  induction hits generalizing limit with
  | nil => rw [List.take_nil, reaching, List.filter_nil, List.take_nil]
  | cons first rest ih =>
      obtain ⟨hfirst, hrest⟩ := List.forall_mem_cons.1 hn
      cases limit with
      | zero => rfl
      | succ limit =>
          by_cases h : first.score.reaches least = true
          · rw [List.take_succ_cons, reaching_cons h, reaching_cons h, List.take_succ_cons,
              ih (List.pairwise_cons.1 hr).2 hrest]
          · have htake : Ranked (first :: rest.take limit) := hr.take (limit + 1)
            rw [List.take_succ_cons, reaching_eq_nil htake hfirst h, reaching_eq_nil hr hfirst h,
              List.take_nil]

/-- Among numbers by rank a higher least score leaves a first part. -/
theorem reaching_isPrefix (hr : Ranked hits) (hn : ∀ hit ∈ hits, hit.score.isNaN = false)
    (hl : least.reaches least' = true) : reaching least hits <+: reaching least' hits := by
  induction hits with
  | nil => exact List.prefix_refl _
  | cons first rest ih =>
      obtain ⟨hfirst, hrest⟩ := List.forall_mem_cons.1 hn
      by_cases h : first.score.reaches least = true
      · rw [reaching_cons h, reaching_cons (Score.reaches_trans h hl)]
        exact List.cons_prefix_cons.2 ⟨rfl, ih (List.pairwise_cons.1 hr).2 hrest⟩
      · rw [reaching_eq_nil hr hfirst h]
        exact List.nil_prefix

end Hit

namespace Index

open Hit

section

variable [Scorer] [Query.Automata] {ix : Index}

theorem ranked_of_ranking? {r : Request} {ranking : List Hit} (h : ix.ranking? r = .ok ranking) :
    Ranked ranking := by
  obtain ⟨asked, -, rfl⟩ := Except.map_eq_ok_iff.1 h
  cases asked with
  | none => exact List.Pairwise.nil
  | some asked => exact ranked_sort _

/-- If no score of the ranking is not a number, then for every limit and every least score the
answer lists the first hits of those that reach the least score, and counts all hits of the ranking;
so a lower limit or a higher least score leaves a first part of the answer. -/
theorem cutoffs (ix : Index) (r : Request) :
    (∀ e, ix.ranking? r = .error e → ∀ least limit, ix.search? r least limit = .error e) ∧
    ∀ ranking, ix.ranking? r = .ok ranking → (∀ hit ∈ ranking, hit.score.isNaN = false) →
      (∀ least limit, ∃ a, ix.search? r least limit = .ok a ∧
        a.Lists ((reaching least ranking).take limit) ranking.length) ∧
      ∀ least least' limit limit' a a', limit ≤ limit' → least.reaches least' = true →
        ix.search? r least limit = .ok a → ix.search? r least' limit' = .ok a' →
          a.ids <+: a'.ids ∧ a.scores <+: a'.scores ∧ a.total = a'.total := by
  refine ⟨fun e he => search?_eq_error he, fun ranking hranking hn => ?_⟩
  have hr : Ranked ranking := ranked_of_ranking? hranking
  have hlists (least : Score) (limit : Nat) : ∃ a, ix.search? r least limit = .ok a ∧
      a.Lists ((reaching least ranking).take limit) ranking.length := by
    rw [← reaching_take hr hn]
    exact exists_answer hranking least limit
  refine ⟨hlists, fun least least' limit limit' a a' hlimit hleast ha ha' => ?_⟩
  obtain ⟨b, hb, hlist⟩ := hlists least limit
  obtain ⟨b', hb', hlist'⟩ := hlists least' limit'
  obtain rfl : b = a := Except.ok.inj (hb.symm.trans ha)
  obtain rfl : b' = a' := Except.ok.inj (hb'.symm.trans ha')
  have hfirst : (reaching least ranking).take limit <+: (reaching least' ranking).take limit' :=
    ((reaching_isPrefix hr hn hleast).take limit).trans (List.take_prefix_take_left hlimit)
  rw [hlist.ids, hlist'.ids, hlist.scores, hlist'.scores, hlist.total, hlist'.total]
  exact ⟨hfirst.map Hit.id, hfirst.map Hit.score, rfl⟩

end

set_option maxRecDepth 4000 in
/-- Two documents of different scores, the lower one first in the index. -/
theorem cutoffs_of_two_scores :
    let low : Document := ⟨2, ⟨[], ['A', 'c'], [], [], [], []⟩⟩
    let high : Document := ⟨1, ⟨['a', 'b'], [], [], [], [], []⟩⟩
    let ix := ofBatches [[low, high]]
    let r : Request := ⟨Query.spell ['a', '?'], [], false⟩
    let ranking : List Hit := [⟨1, ⟨0x41c80000⟩, ⟨0, 1⟩⟩, ⟨2, ⟨0x41200000⟩, ⟨0, 0⟩⟩]
    ix.ranking? r = .ok ranking ∧ (∀ hit ∈ ranking, hit.score.isNaN = false) ∧
      (⟨0x41c80000⟩ : Score).reaches ⟨0⟩ = true ∧
      ∃ a a', ix.search? r ⟨0x41c80000⟩ 1 = .ok a ∧ ix.search? r ⟨0⟩ 7 = .ok a' ∧
        a'.ids = [1, 2] ∧ a.ids <+: a'.ids ∧ a.total = 2 := by
  intro low high ix r ranking
  have hindex : ix = ⟨[[⟨low, ⟨[], [['a', 'c']], [], [], [], []⟩⟩,
      ⟨high, ⟨[['a', 'b']], [], [], [], [], []⟩⟩]]⟩ := by
    show ofBatches [[low, high]] = _
    cbv
  have hhits : ix.hits (.boost queryWeight (.perField Field.all fun f =>
      .wildcard f (.ofTerm ['a', '?']))) [] =
        [⟨2, ⟨0x41200000⟩, ⟨0, 0⟩⟩, ⟨1, ⟨0x41c80000⟩, ⟨0, 1⟩⟩] := by
    rw [hindex]
    decide +kernel
  have hranking : ix.ranking? r = .ok ranking := by
    rw [ranking?_spell (by decide) (by decide) (by decide +kernel), Index.ranking, hhits]
    cbv
  have hnumbers : ∀ hit ∈ ranking, hit.score.isNaN = false := by decide
  have hreaches : (⟨0x41c80000⟩ : Score).reaches ⟨0⟩ = true := by decide
  obtain ⟨hanswers, hparts⟩ := (cutoffs ix r).2 ranking hranking hnumbers
  obtain ⟨a, ha, hlists⟩ := hanswers ⟨0x41c80000⟩ 1
  obtain ⟨a', ha', hlists'⟩ := hanswers ⟨0⟩ 7
  obtain ⟨hids, -, -⟩ := hparts _ _ 1 7 a a' (by decide) hreaches ha ha'
  exact ⟨hranking, hnumbers, hreaches, a, a', ha, ha', hlists'.ids, hids, hlists.total⟩

end Index

end DatasetSearch
