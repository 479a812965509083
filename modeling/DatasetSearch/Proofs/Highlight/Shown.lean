import DatasetSearch.Proofs.Highlight.Marking
import DatasetSearch.Proofs.Highlight.Marks
import DatasetSearch.Proofs.Highlight.Render
import DatasetSearch.Proofs.Outcome
import Mathlib.Data.Finset.Card
import Mathlib.Data.List.Pairwise

/-! # Highlights are marked parts of the text

A highlight shows ranges of the text that are apart from each other, each with its marked tokens
between marks and nothing else changed; every marked token is in exactly one of them, and the range
with more different marks comes first (`Terms.exists_areShown`).  On the way no token is found out
of place and no part of the text is asked for that is not there. -/

namespace DatasetSearch

open Text Highlight

/-! ### Lists without repetitions -/

theorem nodup_eraseDups {α : Type} [BEq α] [LawfulBEq α] (l : List α) : l.eraseDups.Nodup := by
  match l with
  | [] => exact List.nodup_nil
  | a :: l =>
      rw [List.eraseDups_cons, List.nodup_cons, List.mem_eraseDups, List.mem_filter]
      refine ⟨fun h => ?_, nodup_eraseDups (l.filter fun b => !b == a)⟩
      rw [beq_self_eq_true] at h
      exact Bool.false_ne_true h.2
termination_by l.length
decreasing_by exact Nat.lt_succ_of_le (List.length_filter_le ..)

theorem length_eraseDups {α : Type} [BEq α] [LawfulBEq α] [DecidableEq α] (l : List α) :
    l.eraseDups.length = l.toFinset.card := by
  rw [← List.toFinset_card_of_nodup (nodup_eraseDups l)]
  congr 1
  ext a
  rw [List.mem_toFinset, List.mem_toFinset, List.mem_eraseDups]

/-! ### What a range of a text shows -/

namespace MarkedToken

/-- The token lies in the bytes from the first place up to the second. -/
def LiesIn (r : Nat × Nat) (m : MarkedToken) : Prop :=
  r.1 ≤ m.token.start ∧ m.token.stop ≤ r.2

instance (r : Nat × Nat) (m : MarkedToken) : Decidable (m.LiesIn r) :=
  inferInstanceAs (Decidable (_ ∧ _))

end MarkedToken

namespace Highlight

/-- The different marks of the tokens in a range. -/
def marksIn (ms : List MarkedToken) (r : Nat × Nat) : Finset Text :=
  ((ms.filter (MarkedToken.LiesIn r)).filterMap MarkedToken.mark).toFinset

/-- Two ranges of a text have bytes between them. -/
def Apart (r r' : Nat × Nat) : Prop := r.2 < r'.1 ∨ r'.2 < r.1

instance : Std.Symm Apart := ⟨fun _ _ => Or.symm⟩

/-- The range as it is shown. -/
def shown (text : Text) (ms : List MarkedToken) (r : Nat × Nat) : Text :=
  (withMarks ms r.1 (slice r.1 r.2 text)).trim

/-- These are the ranges of a text that a highlight shows, best first. -/
structure AreShown (text : Text) (ms : List MarkedToken) (ranges : List (Nat × Nat)) : Prop where
  inText : ∀ r ∈ ranges, r.1 < r.2 ∧ text.isBoundary r.1 = true ∧ text.isBoundary r.2 = true
  apart : ranges.Pairwise Apart
  marked : ∀ r ∈ ranges, ∃ m ∈ ms, m.isMarked = true ∧ m.LiesIn r
  inOne : ∀ m ∈ ms, m.isMarked = true → ∃! r, r ∈ ranges ∧ m.LiesIn r
  bestFirst : ranges.Pairwise fun r r' => (marksIn ms r').card < (marksIn ms r).card ∨
    (marksIn ms r).card = (marksIn ms r').card ∧ r.1 < r'.1

end Highlight

/-! ### Fragments -/

namespace Fragment

/-- The bytes of a fragment. -/
def range (f : Fragment) : Nat × Nat := (f.start, f.stop)

variable {text : Text} {ms : List MarkedToken} {f : Fragment} {m : MarkedToken}

/-- A token of the text is one of the fragment's or lies outside it. -/
theorem mem_or_isAway (h : Laid 0 text ms [f]) (hm : m ∈ ms) :
    m ∈ f.tokens ∨ IsAway f.start f.stop m := by
  cases h with
  | cons hgap hstart _ _ hrest =>
      cases hrest with
      | nil hafter =>
          rcases List.mem_append.1 hm with hm | hm
          · have := hgap.bounds (List.mem_map_of_mem hm)
            exact .inr ⟨this.2.1, .inl (by omega)⟩
          · refine (List.mem_append.1 hm).imp_right fun hm => ?_
            have := hafter.bounds (List.mem_map_of_mem hm)
            exact ⟨this.2.1, .inr this.1⟩

/-- A fragment is a part of the text, and its tokens stand in it. -/
theorem exists_part (h : Laid 0 text ms [f]) : (∀ m ∈ f.tokens, m ∈ ms) ∧
    ∃ s part u, text = s ++ (part ++ u) ∧ f.start = utf8Size s ∧
      f.stop = f.start + utf8Size part ∧
      Token.Placed f.start part (f.tokens.map MarkedToken.token) := by
  cases h with
  | @cons _ gap part rest before after _ _ _ hstart hstop hpart _ =>
      refine ⟨fun m hm => ?_, gap, part, rest, rfl, by omega, hstop, hpart⟩
      exact List.mem_append_right _ (List.mem_append_left _ hm)

/-- A fragment has the tokens that lie in it. -/
theorem mem_tokens_iff (h : Laid 0 text ms [f]) : m ∈ f.tokens ↔ m ∈ ms ∧ m.LiesIn f.range := by
  obtain ⟨hsubset, s, part, u, -, -, hstop, hpart⟩ := exists_part h
  constructor
  · intro hm
    have hbounds := hpart.bounds (List.mem_map_of_mem hm)
    rw [← hstop] at hbounds
    exact ⟨hsubset m hm, hbounds.1, hbounds.2.2⟩
  · rintro ⟨hm, hfirst, hlast⟩
    refine (mem_or_isAway h hm).resolve_right ?_
    have hfirst : f.start ≤ m.token.start := hfirst
    have hlast : m.token.stop ≤ f.stop := hlast
    rintro ⟨hpos, haway | haway⟩ <;> omega

theorem score_eq (h : Laid 0 text ms [f]) : f.score = (marksIn ms f.range).card := by
  rw [score, length_eraseDups, marksIn]
  congr 1
  ext mark
  simp only [List.mem_toFinset, List.mem_filterMap, List.mem_filter, decide_eq_true_iff,
    mem_tokens_iff h]

/-- A fragment shows its bytes with the marked tokens of the text marked. -/
theorem render_eq (h : Laid 0 text ms [f]) :
    f.render text = shown text ms f.range ∧ checkedRender text f = .ok (f.render text) ∧
      text.isBoundary f.start = true ∧ text.isBoundary f.stop = true := by
  have hmem := fun m => @mem_or_isAway text ms f m h
  obtain ⟨hsubset, s, part, u, rfl, hstart, hstop, hpart⟩ := exists_part h
  have hslice : slice f.start f.stop (s ++ (part ++ u)) = part := by
    rw [hstop, hstart, ← List.append_assoc, slice_append]
  have hmarks : withMarks f.tokens f.start part = withMarks ms f.start part := by
    refine withMarks_congr fun m _ => ?_
    by_cases hm : m ∈ ms
    · rw [← hstop]
      exact (hmem m hm).imp_left fun hm' => iff_of_true hm' hm
    · exact .inl (iff_of_false (mt (hsubset m) hm) hm)
  have hplaced : Token.Placed (f.start + utf8Size []) part (f.tokens.map MarkedToken.token) := hpart
  have hchecked : checkedMarkUp (s ++ (part ++ u)) f.start f.stop f.tokens =
      .ok (withMarks f.tokens f.start part) :=
    checkedMarkUp_eq hplaced rfl hstart hstop
  have hwritten := markUp_eq_of_checkedMarkUp hchecked
  refine ⟨?_, ?_, ?_, ?_⟩
  · rw [render, shown, range, hslice, hwritten, hmarks]
  · rw [checkedRender, hchecked, render, hwritten]
    rfl
  · rw [hstart]
    exact isBoundary_utf8Size_append s _
  · rw [hstop, hstart, ← utf8Size_append, ← List.append_assoc]
    exact isBoundary_utf8Size_append (s ++ part) u

theorem exists_isMarked_of_score_pos (h : 0 < f.score) :
    ∃ m ∈ f.tokens, m.isMarked = true := by
  obtain ⟨mark, hmark⟩ := List.exists_mem_of_length_pos h
  obtain ⟨m, hm, hmark⟩ := List.mem_filterMap.1 (List.mem_eraseDups.1 hmark)
  exact ⟨m, hm, Option.isSome_iff_exists.2 ⟨mark, hmark⟩⟩

/-- Joined fragments have the tokens of those they were joined from. -/
theorem exists_isMarked_of_mem_joinTouching {fs : List Fragment}
    (h : ∀ f ∈ fs, ∃ m ∈ f.tokens, m.isMarked = true) (hf : f ∈ joinTouching fs) :
    ∃ m ∈ f.tokens, m.isMarked = true := by
  induction fs generalizing f with
  | nil => cases hf
  | cons g fs ih =>
      have ih := fun f => @ih f fun f hf => h f (List.mem_cons_of_mem g hf)
      obtain ⟨m, hm, hmarked⟩ := h g (List.mem_cons_self ..)
      rw [joinTouching] at hf
      cases hjoined : joinTouching fs with
      | nil =>
          rw [hjoined] at hf
          obtain rfl := List.mem_singleton.1 hf
          exact ⟨m, hm, hmarked⟩
      | cons g' gs =>
          rw [hjoined] at hf ih
          dsimp only at hf
          split at hf
          · rcases List.mem_cons.1 hf with rfl | hf
            · exact ⟨m, List.mem_append_left _ hm, hmarked⟩
            · exact ih f (List.mem_cons_of_mem g' hf)
          · rcases List.mem_cons.1 hf with rfl | hf
            · exact ⟨m, hm, hmarked⟩
            · exact ih f hf

theorem noLater_iff {f g : Fragment} : noLater f g = true ↔
    g.score < f.score ∨ f.score = g.score ∧ f.start ≤ g.start := by
  rw [noLater, Bool.or_eq_true, Bool.and_eq_true, decide_eq_true_iff, decide_eq_true_iff,
    decide_eq_true_iff]

theorem pairwise_noLater_mergeSort (fs : List Fragment) :
    (fs.mergeSort noLater).Pairwise fun f g => noLater f g = true := by
  refine List.pairwise_mergeSort (fun f g h => ?_) (fun f g => ?_) fs
  · rw [noLater_iff, noLater_iff, noLater_iff]
    omega
  · rw [Bool.or_eq_true, noLater_iff, noLater_iff]
    omega

end Fragment

/-! ### Highlights -/

namespace Terms

theorem map_token_markTokens (t : Terms) (tokens : List Token) :
    (t.markTokens tokens).map MarkedToken.token = tokens := by
  refine List.ext_getElem? fun i => ?_
  rw [List.getElem?_map]
  cases hm : (t.markTokens tokens)[i]? with
  | none =>
      have := List.getElem?_eq_none_iff.1 hm
      rw [length_markTokens] at this
      exact (List.getElem?_eq_none this).symm
  | some m => exact (isMarked_iff hm).1.symm

variable (t : Terms) (size : Nat) (text : Text)

/-- The marked tokens stand in the text. -/
theorem placed_markTokens :
    Token.Placed 0 text ((t.markTokens text.tokens).map MarkedToken.token) := by
  rw [map_token_markTokens]
  exact placed_tokens text

variable {t text} in
/-- A token is not empty, and the text has boundaries at both its ends. -/
theorem bounds_of_mem_markTokens {m : MarkedToken} (hm : m ∈ t.markTokens text.tokens) :
    m.token.start < m.token.stop ∧ text.isBoundary m.token.start = true ∧
      text.isBoundary m.token.stop = true := by
  have hplaced : Token.Placed (utf8Size []) text
      ((t.markTokens text.tokens).map MarkedToken.token) := placed_markTokens t text
  have htoken := List.mem_map_of_mem (f := MarkedToken.token) hm
  exact ⟨(hplaced.bounds htoken).2.1, hplaced.isBoundary htoken⟩

/-- The pieces of a text. -/
def pieces : List Fragment := Fragment.cut size text.utf8Size (t.markTokens text.tokens)

/-- The pieces with a marked token stand in the text, each with its tokens. -/
theorem laid_filter_pieces : Fragment.Laid 0 text (t.markTokens text.tokens)
    ((t.pieces size text).filter fun f => 0 < f.score) :=
  (Fragment.laid_cut size (placed_markTokens t text)).sublist List.filter_sublist

theorem laid_of_mem_select {f : Fragment} (hf : f ∈ Fragment.select (t.pieces size text)) :
    Fragment.Laid 0 text (t.markTokens text.tokens) [f] :=
  (laid_filter_pieces t size text).joinTouching.sublist
    (List.singleton_sublist.2 (List.mem_mergeSort.1 hf))

theorem exists_isMarked_of_mem_select {f : Fragment}
    (hf : f ∈ Fragment.select (t.pieces size text)) : ∃ m ∈ f.tokens, m.isMarked = true := by
  refine Fragment.exists_isMarked_of_mem_joinTouching (fun g hg => ?_) (List.mem_mergeSort.1 hf)
  exact Fragment.exists_isMarked_of_score_pos (of_decide_eq_true (List.mem_filter.1 hg).2)

/-- Fragments that are selected are apart, in whatever order they come. -/
theorem apart_select :
    (Fragment.select (t.pieces size text)).Pairwise fun f g => Apart f.range g.range :=
  ((List.mergeSort_perm _ _).pairwise_iff Or.symm).2
    ((Fragment.apart_joinTouching (laid_filter_pieces t size text)).imp Or.inl)

/-- The ranges of the fragments that are selected are what a highlight has to show. -/
theorem areShown_select : AreShown text (t.markTokens text.tokens)
    ((Fragment.select (t.pieces size text)).map Fragment.range) := by
  have hlaid := fun f => @laid_of_mem_select t size text f
  have hpositive : ∀ m ∈ t.markTokens text.tokens, m.token.start < m.token.stop :=
    fun m hm => (bounds_of_mem_markTokens hm).1
  have hmarked : ∀ f ∈ Fragment.select (t.pieces size text),
      ∃ m ∈ t.markTokens text.tokens, m.isMarked = true ∧ m.LiesIn f.range := by
    intro f hf
    obtain ⟨m, hm, hmarked⟩ := exists_isMarked_of_mem_select t size text hf
    obtain ⟨hm, hlies⟩ := (Fragment.mem_tokens_iff (hlaid f hf)).1 hm
    exact ⟨m, hm, hmarked, hlies⟩
  have hapart : ((Fragment.select (t.pieces size text)).map Fragment.range).Pairwise Apart :=
    List.pairwise_map.2 (apart_select t size text)
  refine ⟨?_, hapart, List.forall_mem_map.2 hmarked, ?_, ?_⟩
  · refine List.forall_mem_map.2 fun f hf => ?_
    obtain ⟨m, hm, -, hfirst, hlast⟩ := hmarked f hf
    obtain ⟨-, -, hbegins, hends⟩ := Fragment.render_eq (hlaid f hf)
    exact ⟨hfirst.trans_lt ((hpositive m hm).trans_le hlast), hbegins, hends⟩
  · intro m hm hm'
    have hpiece : m ∈ (t.pieces size text).flatMap Fragment.tokens := by
      rwa [pieces, Fragment.flatMap_tokens_cut]
    obtain ⟨f, hf, hmem⟩ := Fragment.exists_mem_select hpiece hm'
    have hlies := ((Fragment.mem_tokens_iff (hlaid f hf)).1 hmem).2
    refine ⟨f.range, ⟨List.mem_map_of_mem hf, hlies⟩, fun r hr => ?_⟩
    -- two ranges that are apart have no token in common
    by_contra hne
    have hpos := hpositive m hm
    obtain ⟨hr, hfirst, hlast⟩ := hr
    obtain ⟨hfirst', hlast'⟩ := hlies
    rcases hapart.forall hr (List.mem_map_of_mem hf) hne with h | h <;> omega
  · refine List.pairwise_map.2 ?_
    have hsorted := (Fragment.pairwise_noLater_mergeSort
      (Fragment.joinTouching ((t.pieces size text).filter fun f => 0 < f.score))).and
      (apart_select t size text)
    refine hsorted.imp_of_mem fun {f g} hf hg h => ?_
    obtain ⟨hlater, (hapart : f.stop < g.start ∨ g.stop < f.start)⟩ := h
    have hbounds := (hlaid f hf).bounds (List.mem_singleton.2 rfl)
    have hbounds' := (hlaid g hg).bounds (List.mem_singleton.2 rfl)
    rw [← Fragment.score_eq (hlaid f hf), ← Fragment.score_eq (hlaid g hg)]
    rw [Fragment.noLater_iff] at hlater
    show g.score < f.score ∨ f.score = g.score ∧ f.start < g.start
    omega

/-- No token is out of place, and every part that is taken is there. -/
theorem checkedHighlight_eq : t.checkedHighlight size text = .ok (t.highlightSized size text) := by
  have htokens : text.tokens.forM (Token.check text) = .ok () := by
    refine Except.forM_eq_ok fun token htoken => ?_
    have hbounds := (placed_tokens text).bounds htoken
    have hplaced : Token.Placed (utf8Size []) text text.tokens := placed_tokens text
    obtain ⟨hstart, hstop⟩ := hplaced.isBoundary htoken
    exact if_pos ⟨hbounds.2.1.le, by omega, hstart, hstop⟩
  have hparts : (Fragment.select (t.pieces (max size 1) text)).mapM (Fragment.checkedRender text) =
      .ok ((Fragment.select (t.pieces (max size 1) text)).map (Fragment.render text)) :=
    Except.mapM_eq_ok fun f hf =>
      (Fragment.render_eq (laid_of_mem_select t (max size 1) text hf)).2.1
  rw [checkedHighlight, htokens, highlightSized]
  dsimp only
  show (if _ then _ else _) = _
  split
  · rw [pieces] at hparts
    rw [hparts]
    rfl
  · rfl

/-- A highlight is the ranges of the fragments that are selected, as they are shown. -/
theorem highlightSized_eq_join :
    t.highlightSized size text = Text.join separator
      (((Fragment.select (t.pieces (max size 1) text)).map Fragment.range).map
        (shown text (t.markTokens text.tokens))) := by
  rw [highlightSized, List.map_map]
  split
  · refine congrArg (Text.join separator) (List.map_congr_left fun f hf => ?_)
    exact (Fragment.render_eq (laid_of_mem_select t (max size 1) text hf)).1
  · rename_i hnone
    have hnil : Fragment.select (t.pieces (max size 1) text) = [] := by
      refine List.eq_nil_iff_forall_not_mem.2 fun f hf => hnone (List.any_eq_true.2 ?_)
      obtain ⟨m, hm, hmarked⟩ := exists_isMarked_of_mem_select t (max size 1) text hf
      have hlaid := laid_of_mem_select t (max size 1) text hf
      exact ⟨m, ((Fragment.mem_tokens_iff hlaid).1 hm).1, hmarked⟩
    rw [hnil]
    rfl

/-- A highlight is empty if no token is marked, and it shows parts of the text with the marked
tokens marked: ranges that are apart and do not touch, every marked token in exactly one of them,
the range with more different marks first and then the earlier one. -/
theorem exists_areShown : ∃ ranges,
    t.checkedHighlight size text = .ok (t.highlightSized size text) ∧
    (t.highlightSized size text = [] ↔
      ∀ m ∈ t.markTokens text.tokens, m.isMarked = false) ∧
    AreShown text (t.markTokens text.tokens) ranges ∧
    t.highlightSized size text =
      Text.join separator (ranges.map (shown text (t.markTokens text.tokens))) := by
  refine ⟨(Fragment.select (t.pieces (max size 1) text)).map Fragment.range,
    checkedHighlight_eq t size text, highlightSized_eq_nil_iff t size text,
    areShown_select t (max size 1) text, highlightSized_eq_join t size text⟩

example : ({ exact := [['a'], ['b']] } : Terms).highlightSized 3
    ['b', ' ', 'x', 'y', 'z', ' ', 'A', ' ', 'b'] =
      "<mark>A</mark> <mark>b</mark> ... <mark>b</mark>".toList := by cbv

end Terms

end DatasetSearch
