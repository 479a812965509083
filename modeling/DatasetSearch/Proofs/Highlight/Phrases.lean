import DatasetSearch.Proofs.Highlight.Shown

/-! # Phrases are shown whole

A text is cut into pieces by size alone, so a piece may end within a phrase.  The words of the
phrase are marked before that, so each of these pieces has a marked token and stays; the pieces lie
side by side, so they are joined again.  Hence a run of marked tokens is in one fragment that is
shown, however many pieces it was cut into (`Fragment.exists_mem_select_of_infix`), and the bytes
from its first token to its last one are shown there with their marks (`Terms.exists_isShownIn`).

* A single marked token is such a run, so a highlight has a token between marks unless it is empty
  (`Terms.exists_mark`).
* A phrase that stands in the text is such a run (`Terms.phrases_shown_whole`). -/

namespace DatasetSearch

open Text Highlight

/-- What a list of two parts begins with ends in the first part or goes on into the second. -/
theorem prefix_append_cases {α : Type} {l xs ys : List α} (h : l <+: xs ++ ys) :
    l <+: xs ∨ ∃ l', l' ≠ [] ∧ l = xs ++ l' ∧ l' <+: ys := by
  obtain ⟨rest, hrest⟩ := h
  rcases List.append_eq_append_iff.1 hrest with ⟨xs', hxs, -⟩ | ⟨l', rfl, hys⟩
  · exact .inl ⟨xs', hxs.symm⟩
  · by_cases hl' : l' = []
    · rw [hl', List.append_nil]
      exact .inl List.prefix_rfl
    · exact .inr ⟨l', hl', rfl, rest, hys.symm⟩

/-! ### Pieces side by side -/

namespace Fragment

/-- Each piece has a token, and ends where the next one begins. -/
inductive SideBySide : Nat → List Fragment → Prop
  | nil (position : Nat) : SideBySide position []
  | cons {f : Fragment} {fs : List Fragment} :
      f.tokens ≠ [] → SideBySide f.stop fs → SideBySide f.start (f :: fs)

theorem sideBySide_cutFrom {size length start : Nat} {current ms : List MarkedToken}
    (h : current ++ ms ≠ []) : SideBySide start (cutFrom size length start current ms) := by
  fun_induction cutFrom size length start current ms with
  | case1 start current =>
      rw [List.append_nil] at h
      exact .cons (f := ⟨start, length, current⟩) h (.nil length)
  | case2 start current m ms hfull ih =>
      exact .cons (f := ⟨start, m.token.start, current⟩) hfull.2 (ih (List.cons_ne_nil m ms))
  | case3 start current m ms _ ih =>
      apply ih
      rwa [List.append_assoc]

variable {position : Nat} {f g : Fragment} {fs gs : List Fragment} {run : List MarkedToken}

/-- A fragment is the front of the first one after joining. -/
theorem exists_joinTouching_cons (f : Fragment) (fs : List Fragment) :
    ∃ g gs, joinTouching (f :: fs) = g :: gs ∧ g.start = f.start ∧ f.tokens <+: g.tokens := by
  rw [joinTouching]
  cases joinTouching fs with
  | nil => exact ⟨f, [], rfl, rfl, List.prefix_rfl⟩
  | cons g gs =>
      dsimp only
      split
      · exact ⟨_, gs, rfl, rfl, List.prefix_append _ _⟩
      · exact ⟨f, g :: gs, rfl, rfl, List.prefix_rfl⟩

theorem joinTouching_cons_of_touch (hjoined : joinTouching fs = g :: gs) (h : f.stop = g.start) :
    joinTouching (f :: fs) = ⟨f.start, g.stop, f.tokens ++ g.tokens⟩ :: gs := by
  rw [joinTouching, hjoined]
  exact if_pos h

/-- One more fragment at the front leaves the tokens of a fragment together. -/
theorem exists_infix_of_mem_joinTouching (hg : g ∈ joinTouching fs) :
    ∃ g' ∈ joinTouching (f :: fs), g.tokens <:+: g'.tokens := by
  rw [joinTouching]
  cases hjoined : joinTouching fs with
  | nil =>
      rw [hjoined] at hg
      cases hg
  | cons first rest =>
      rw [hjoined] at hg
      dsimp only
      split
      · rcases List.mem_cons.1 hg with rfl | hg
        · exact ⟨_, List.mem_cons_self .., (List.suffix_append _ _).isInfix⟩
        · exact ⟨g, List.mem_cons_of_mem _ hg, List.infix_rfl⟩
      · exact ⟨g, List.mem_cons_of_mem f hg, List.infix_rfl⟩

/-- The pieces with a marked token, joined where they touch. -/
def joined (fs : List Fragment) : List Fragment := joinTouching (fs.filter fun f => 0 < f.score)

theorem joined_cons_of_isMarked {m : MarkedToken} (hm : m ∈ f.tokens) (hmarked : m.isMarked = true)
    (fs : List Fragment) :
    joined (f :: fs) = joinTouching (f :: fs.filter fun f => 0 < f.score) := by
  have hscore : decide (0 < f.score) = true := decide_eq_true (score_pos_of_isMarked hm hmarked)
  exact congrArg joinTouching (List.filter_cons_of_pos hscore)

/-- One more piece at the front leaves the tokens of a fragment together. -/
theorem exists_infix_of_mem_joined (hg : g ∈ joined fs) :
    ∃ g' ∈ joined (f :: fs), g.tokens <:+: g'.tokens := by
  rw [joined, List.filter_cons]
  split
  · exact exists_infix_of_mem_joinTouching hg
  · exact ⟨g, hg, List.infix_rfl⟩

/-- A piece with a marked token is the front of the first fragment. -/
theorem exists_joined_cons {m : MarkedToken} (hm : m ∈ f.tokens) (hmarked : m.isMarked = true)
    (fs : List Fragment) :
    ∃ g gs, joined (f :: fs) = g :: gs ∧ g.start = f.start ∧ f.tokens <+: g.tokens := by
  rw [joined_cons_of_isMarked hm hmarked]
  exact exists_joinTouching_cons f _

/-- A piece with a marked token becomes one with the fragment that it touches. -/
theorem joined_cons_of_touch {m : MarkedToken} (hm : m ∈ f.tokens) (hmarked : m.isMarked = true)
    (hjoined : joined fs = g :: gs) (h : f.stop = g.start) :
    joined (f :: fs) = ⟨f.start, g.stop, f.tokens ++ g.tokens⟩ :: gs := by
  rw [joined_cons_of_isMarked hm hmarked]
  exact joinTouching_cons_of_touch hjoined h

/-- The pieces that a run of marked tokens at the front was cut into are joined. -/
theorem SideBySide.exists_prefix (h : SideBySide position fs) (hrun : run ≠ [])
    (hmarked : ∀ m ∈ run, m.isMarked = true) (hfront : run <+: fs.flatMap tokens) :
    ∃ g gs, joined fs = g :: gs ∧ g.start = position ∧ run <+: g.tokens := by
  induction h generalizing run with
  | nil => exact absurd (List.prefix_nil.1 hfront) hrun
  | @cons f fs hf hrest ih =>
      rw [List.flatMap_cons] at hfront
      -- the first token of the piece is the first one of the run
      obtain ⟨m, hm, hfirst⟩ : ∃ m ∈ f.tokens, m.isMarked = true := by
        obtain ⟨m, run, rfl⟩ := List.exists_cons_of_ne_nil hrun
        obtain ⟨m', tokens, htokens⟩ := List.exists_cons_of_ne_nil hf
        rw [htokens] at hfront ⊢
        obtain rfl := (List.cons_prefix_cons.1 hfront).1
        exact ⟨m, List.mem_cons_self .., hmarked m (List.mem_cons_self ..)⟩
      rcases prefix_append_cases hfront with hinside | ⟨later, hlater, rfl, hnext⟩
      · obtain ⟨g, gs, hjoined, hstart, hprefix⟩ := exists_joined_cons hm hfirst fs
        exact ⟨g, gs, hjoined, hstart, hinside.trans hprefix⟩
      · obtain ⟨g, gs, hjoined, hstart, hprefix⟩ :=
          ih hlater (fun m hm => hmarked m (List.mem_append_right _ hm)) hnext
        refine ⟨_, gs, joined_cons_of_touch hm hfirst hjoined hstart.symm, rfl, ?_⟩
        exact (List.prefix_append_right_inj f.tokens).2 hprefix

/-- A run of marked tokens in one piece. -/
theorem exists_mem_joined_of_infix (hrun : run ≠ []) (hmarked : ∀ m ∈ run, m.isMarked = true)
    (hinside : run <:+: f.tokens) : ∃ g ∈ joined (f :: fs), run <:+: g.tokens := by
  obtain ⟨m, hm⟩ := List.exists_mem_of_ne_nil run hrun
  obtain ⟨g, gs, hjoined, -, hprefix⟩ :=
    exists_joined_cons (hinside.subset hm) (hmarked m hm) fs
  rw [hjoined]
  exact ⟨g, List.mem_cons_self .., hinside.trans hprefix.isInfix⟩

/-- The pieces that a run of marked tokens was cut into are joined. -/
theorem SideBySide.exists_infix (h : SideBySide position fs) (hrun : run ≠ [])
    (hmarked : ∀ m ∈ run, m.isMarked = true) (hpart : run <:+: fs.flatMap tokens) :
    ∃ g ∈ joined fs, run <:+: g.tokens := by
  induction h generalizing run with
  | nil => exact absurd (List.infix_nil.1 hpart) hrun
  | @cons f fs _ hrest ih =>
      have hafter (hlater : run <:+: fs.flatMap tokens) :
          ∃ g ∈ joined (f :: fs), run <:+: g.tokens := by
        obtain ⟨g, hg, hinside⟩ := ih hrun hmarked hlater
        obtain ⟨g', hg', htokens⟩ := exists_infix_of_mem_joined hg
        exact ⟨g', hg', hinside.trans htokens⟩
      rw [List.flatMap_cons, List.infix_append_iff] at hpart
      rcases hpart with hinside | hlater | ⟨first, last, rfl, hfirst, hlast⟩
      · exact exists_mem_joined_of_infix hrun hmarked hinside
      · exact hafter hlater
      · by_cases hnone : first = []
        · subst hnone
          exact hafter hlast.isInfix
        by_cases hnone' : last = []
        · subst hnone'
          rw [List.append_nil] at hrun hmarked ⊢
          exact exists_mem_joined_of_infix hrun hmarked hfirst.isInfix
        -- the run goes on from this piece into the next one
        obtain ⟨m, hm⟩ := List.exists_mem_of_ne_nil first hnone
        obtain ⟨g, gs, hjoined, hstart, hprefix⟩ :=
          hrest.exists_prefix hnone' (fun m hm => hmarked m (List.mem_append_right _ hm)) hlast
        rw [joined_cons_of_touch (hfirst.subset hm) (hmarked m (List.mem_append_left _ hm)) hjoined
          hstart.symm]
        refine ⟨_, List.mem_cons_self .., List.infix_append_iff.2 (.inr (.inr ?_))⟩
        exact ⟨first, last, rfl, hfirst, hprefix⟩

/-- All of a run of marked tokens is in one fragment that is shown. -/
theorem exists_mem_select_of_infix {size length : Nat} {ms : List MarkedToken} (hrun : run ≠ [])
    (hmarked : ∀ m ∈ run, m.isMarked = true) (hpart : run <:+: ms) :
    ∃ f ∈ select (cut size length ms), run <:+: f.tokens := by
  have hms : ms ≠ [] := by
    rintro rfl
    exact hrun (List.infix_nil.1 hpart)
  have hcut : SideBySide 0 (cut size length ms) := @sideBySide_cutFrom size length 0 [] ms hms
  rw [← flatMap_tokens_cut size length ms] at hpart
  obtain ⟨f, hf, hinside⟩ := hcut.exists_infix hrun hmarked hpart
  exact ⟨f, List.mem_mergeSort.2 hf, hinside⟩

end Fragment

/-! ### What is shown of a run -/

namespace Highlight

variable {ms : List MarkedToken} {n a b : Nat} {text t : Text} {r : Nat × Nat}

theorem opening_prefix_withMarks (ht : t ≠ []) (h : opensAt ms n = true) :
    opening <+: withMarks ms n t := by
  obtain ⟨c, rest, rfl⟩ := List.exists_cons_of_ne_nil ht
  rw [withMarks, if_pos h]
  simp only [List.append_assoc]
  exact List.prefix_append _ _

theorem closing_suffix_withMarks (ht : t ≠ []) (h : closesAt ms (n + utf8Size t) = true) :
    closing <:+ withMarks ms n t := by
  obtain ⟨front, c, rfl⟩ := (List.eq_nil_or_concat' t).resolve_left ht
  have hlast : closesAt ms (n + utf8Size front + c.utf8Size) = true := by
    rw [utf8Size_append, ← Nat.add_assoc] at h
    exact h
  rw [withMarks_append, withMarks, withMarks, if_pos hlast, List.append_nil]
  exact (List.suffix_append _ _).trans (List.suffix_append _ _)

/-- What begins and ends with marks is not lost with white space. -/
theorem infix_trim {w : Text} (hopening : opening <+: w) (hclosing : closing <:+ w)
    (h : w <:+: t) : w <:+: t.trim := by
  obtain ⟨after, rfl⟩ := hopening
  obtain ⟨before, hbefore⟩ := hclosing
  have hends : (opening ++ after).reverse = closing.reverse ++ before.reverse := by
    rw [← hbefore, List.reverse_append]
  exact Text.infix_trim (by decide) (by decide) hends h

/-- Bytes of a range that begin and end with marked tokens are shown with their marks. -/
theorem withMarks_infix_shown (hbegin : text.isBoundary r.1 = true) (ha : text.isBoundary a = true)
    (hb : text.isBoundary b = true) (hra : r.1 ≤ a) (hab : a < b) (hbr : b ≤ r.2)
    (hopens : opensAt ms a = true) (hcloses : closesAt ms b = true) :
    withMarks ms a (slice a b text) <:+: shown text ms r := by
  have hsize := utf8Size_slice ha hb hab.le
  have hne := slice_ne_nil ha hb hab
  have hwhole : withMarks ms r.1 (slice r.1 r.2 text) =
      withMarks ms r.1 (slice r.1 a text) ++ withMarks ms a (slice a b text) ++
        withMarks ms b (slice b r.2 text) := by
    rw [← slice_append_slice hbegin hb (by omega) hbr, ← slice_append_slice hbegin ha hra hab.le,
      withMarks_append, withMarks_append, utf8Size_append, ← Nat.add_assoc,
      utf8Size_slice hbegin ha hra, hsize]
  have hpart : withMarks ms a (slice a b text) <:+: withMarks ms r.1 (slice r.1 r.2 text) :=
    ⟨_, _, hwhole.symm⟩
  rw [← hsize] at hcloses
  have hopening := opening_prefix_withMarks hne hopens
  exact infix_trim hopening (closing_suffix_withMarks hne hcloses) hpart

/-- All tokens of the run lie in the range, where the bytes from the first one to the last one are
shown with their marks. -/
def IsShownIn (text : Text) (ms run : List MarkedToken) (r : Nat × Nat) : Prop :=
  (∀ m ∈ run, m.LiesIn r) ∧ ∀ first ∈ run.head?, ∀ last ∈ run.getLast?,
    withMarks ms first.token.start (slice first.token.start last.token.stop text) <:+:
      shown text ms r

end Highlight

/-- One of the tokens stops before the other one begins. -/
def MarkedToken.Outside (x y : MarkedToken) : Prop :=
  x.token.stop ≤ y.token.start ∨ y.token.stop ≤ x.token.start

instance : Std.Symm MarkedToken.Outside := ⟨fun _ _ => Or.symm⟩

namespace Terms

variable {t : Terms} {text : Text} {run : List MarkedToken}

/-- The first token of a run begins before the last one stops. -/
theorem start_lt_stop (hrun : run <:+: t.markTokens text.tokens) {first last : MarkedToken}
    (hfirst : first ∈ run.head?) (hlast : last ∈ run.getLast?) :
    first.token.start < last.token.stop := by
  have hlast' := (bounds_of_mem_markTokens (hrun.subset (List.mem_of_mem_getLast? hlast))).1
  have hinorder := (placed_markTokens t text).pairwise.sublist (hrun.sublist.map MarkedToken.token)
  obtain ⟨rest, rfl⟩ := List.head?_eq_some_iff.1 hfirst
  have hfirst' := (bounds_of_mem_markTokens (hrun.subset (List.mem_cons_self ..))).1
  rcases List.mem_cons.1 (List.mem_of_mem_getLast? hlast) with rfl | hmem
  · exact hlast'
  · have := List.rel_of_pairwise_cons hinorder (List.mem_map_of_mem hmem)
    omega

/-- A run of marked tokens is shown in one range. -/
theorem exists_isShownIn (size : Nat) (hne : run ≠ []) (hrun : run <:+: t.markTokens text.tokens)
    (hmarked : ∀ m ∈ run, m.isMarked = true) :
    ∃ r ∈ (Fragment.select (t.pieces size text)).map Fragment.range,
      IsShownIn text (t.markTokens text.tokens) run r := by
  obtain ⟨f, hf, hinside⟩ := Fragment.exists_mem_select_of_infix hne hmarked hrun
  have hlaid := laid_of_mem_select t size text hf
  have hlies : ∀ m ∈ run, m.LiesIn f.range :=
    fun m hm => ((Fragment.mem_tokens_iff hlaid).1 (hinside.subset hm)).2
  refine ⟨f.range, List.mem_map_of_mem hf, hlies, fun first hfirst last hlast => ?_⟩
  have hbegin := (Fragment.render_eq hlaid).2.2.1
  have hfirst' := List.mem_of_mem_head? hfirst
  have hlast' := List.mem_of_mem_getLast? hlast
  obtain ⟨-, ha, -⟩ := bounds_of_mem_markTokens (hrun.subset hfirst')
  obtain ⟨-, -, hb⟩ := bounds_of_mem_markTokens (hrun.subset hlast')
  apply withMarks_infix_shown hbegin ha hb (hlies first hfirst').1
    (start_lt_stop hrun hfirst hlast) (hlies last hlast').2
  · exact opensAt_iff.2 ⟨first, hrun.subset hfirst', hmarked first hfirst', rfl⟩
  · exact closesAt_iff.2 ⟨last, hrun.subset hlast', hmarked last hlast', rfl⟩

/-! ### Single tokens -/

/-- The tokens of a text other than a given one lie outside it. -/
theorem isAway_of_ne {m x : MarkedToken} (hm : m ∈ t.markTokens text.tokens)
    (hx : x ∈ t.markTokens text.tokens) (hne : x ≠ m) :
    IsAway m.token.start m.token.stop x := by
  have hinorder := List.pairwise_map.1 (placed_markTokens t text).pairwise
  have houtside : (t.markTokens text.tokens).Pairwise MarkedToken.Outside := hinorder.imp .inl
  exact ⟨(bounds_of_mem_markTokens hx).1, houtside.forall hx hm hne⟩

/-- A marked token is written between marks. -/
theorem withMarks_token {m : MarkedToken} (hm : m ∈ t.markTokens text.tokens)
    (hmarked : m.isMarked = true) :
    withMarks (t.markTokens text.tokens) m.token.start (slice m.token.start m.token.stop text) =
      opening ++ slice m.token.start m.token.stop text ++ closing := by
  obtain ⟨hpos, hstart, hstop⟩ := bounds_of_mem_markTokens hm
  have hsize := utf8Size_slice hstart hstop hpos.le
  have hne := slice_ne_nil hstart hstop hpos
  have halone : withMarks (t.markTokens text.tokens) m.token.start
      (slice m.token.start m.token.stop text) =
        withMarks [m] m.token.start (slice m.token.start m.token.stop text) := by
    refine withMarks_congr fun x _ => ?_
    rw [hsize, List.mem_singleton]
    by_cases hxm : x = m
    · exact .inl (iff_of_true (hxm ▸ hm) hxm)
    · by_cases hx : x ∈ t.markTokens text.tokens
      · exact .inr (isAway_of_ne hm hx hxm)
      · exact .inl (iff_of_false hx hxm)
  rw [halone, withMarks_singleton hmarked hne (Nat.le_refl _) hsize.symm, if_pos rfl]

/-- A highlight that is not empty has a token of the text between marks. -/
theorem exists_mark {size : Nat} (h : t.highlightSized size text ≠ []) : ∃ token ∈ text.tokens,
    opening ++ slice token.start token.stop text ++ closing <:+: t.highlightSized size text := by
  rw [ne_eq, highlightSized_eq_nil_iff] at h
  obtain ⟨m, hm⟩ := not_forall.1 h
  obtain ⟨hm, hmarked⟩ := Classical.not_imp.1 hm
  rw [Bool.not_eq_false] at hmarked
  have hrun : [m] <:+: t.markTokens text.tokens := by
    obtain ⟨before, after, hsplit⟩ := List.append_of_mem hm
    exact ⟨before, after, by rw [hsplit, List.append_assoc, List.singleton_append]⟩
  obtain ⟨r, hr, -, hshown⟩ := exists_isShownIn (max size 1) (List.cons_ne_nil m []) hrun
    (List.forall_mem_singleton.2 hmarked)
  have hpart := hshown m rfl m rfl
  rw [withMarks_token hm hmarked] at hpart
  have htoken : m.token ∈ text.tokens := by
    rw [← map_token_markTokens t text.tokens]
    exact List.mem_map_of_mem hm
  refine ⟨m.token, htoken, ?_⟩
  rw [highlightSized_eq_join]
  exact hpart.trans (infix_join (List.mem_map_of_mem hr))

/-! ### Phrases -/

variable {phrase : List Text} {j : Nat}

/-- The tokens of a text from place `j` on, as many as the phrase has words. -/
def tokensAt (t : Terms) (text : Text) (phrase : List Text) (j : Nat) : List MarkedToken :=
  ((t.markTokens text.tokens).drop j).take phrase.length

theorem tokensAt_infix : t.tokensAt text phrase j <:+: t.markTokens text.tokens :=
  (List.take_prefix ..).isInfix.trans (List.drop_suffix ..).isInfix

/-- Where a phrase stands, the tokens are its words. -/
theorem map_text_tokensAt (h : phrase <+: text.words.drop j) :
    (t.tokensAt text phrase j).map (fun m => m.token.text) = phrase := by
  have hwords : (t.markTokens text.tokens).map (fun m => m.token.text) = text.words := by
    rw [Text.words, ← map_token_markTokens t text.tokens, List.map_map, map_token_markTokens]
    rfl
  rw [tokensAt, List.map_take, List.map_drop, hwords]
  exact (List.prefix_iff_eq_take.1 h).symm

/-- Where a phrase of the query stands, the tokens are marked. -/
theorem isMarked_of_mem_tokensAt (hphrase : phrase ∈ t.phrases)
    (h : phrase <+: text.words.drop j) {m : MarkedToken} (hm : m ∈ t.tokensAt text phrase j) :
    m.isMarked = true := by
  obtain ⟨k, hk, rfl⟩ := List.mem_iff_getElem.1 hm
  have hlt : k < phrase.length := by
    rw [tokensAt, List.length_take] at hk
    omega
  have hplace : (t.markTokens text.tokens)[j + k]? = some (t.tokensAt text phrase j)[k] := by
    rw [← List.getElem?_eq_getElem hk, tokensAt, List.getElem?_take_of_lt hlt, List.getElem?_drop]
  refine (isMarked_iff hplace).2.2 (.inl ⟨phrase, hphrase, j, ?_, ?_, h⟩)
  · omega
  · omega

/-- Wherever a phrase of the query stands in a text, all its tokens are marked and lie in one of the
ranges that the highlight shows, whatever the size of the pieces; the separator stands between
ranges, so it does not cut the phrase. -/
theorem phrases_shown_whole (t : Terms) (size : Nat) (text : Text) : ∃ ranges,
    AreShown text (t.markTokens text.tokens) ranges ∧
    t.highlightSized size text =
      Text.join separator (ranges.map (shown text (t.markTokens text.tokens))) ∧
    ∀ phrase ∈ t.phrases, ∀ j, phrase <+: text.words.drop j →
      (t.tokensAt text phrase j).map (fun m => m.token.text) = phrase ∧
      (∀ m ∈ t.tokensAt text phrase j, m.isMarked = true) ∧
      (phrase ≠ [] → ∃ r ∈ ranges,
        IsShownIn text (t.markTokens text.tokens) (t.tokensAt text phrase j) r) := by
  refine ⟨_, areShown_select t (max size 1) text, highlightSized_eq_join t size text, ?_⟩
  intro phrase hphrase j hstands
  have hwords := map_text_tokensAt (t := t) hstands
  have hmarked := fun m => isMarked_of_mem_tokensAt hphrase hstands (m := m)
  refine ⟨hwords, hmarked, fun hne => ?_⟩
  apply exists_isShownIn (max size 1) _ tokensAt_infix hmarked
  intro hnone
  rw [hnone] at hwords
  exact hne hwords.symm

set_option maxRecDepth 4000 in
/-- The words of the phrase are in pieces of their own, and are shown together each time. -/
theorem phrases_shown_whole_of_six_pieces :
    let t : Terms := { phrases := [[['a'], ['b']]] }
    let text : Text := ['a', ' ', 'B', ' ', 'c', ' ', 'd', ' ', 'a', '-', 'b']
    ((t.pieces 1 text).map fun f => f.tokens.map fun m => m.token.text) =
        [[['a']], [['b']], [['c']], [['d']], [['a']], [['b']]] ∧
      t.highlightSized 1 text =
        "<mark>a</mark> <mark>B</mark> ... <mark>a</mark>-<mark>b</mark>".toList ∧
      ∃ r, ∀ m ∈ t.tokensAt text [['a'], ['b']] 4, m.isMarked = true ∧ m.LiesIn r := by
  intro t text
  have hpieces : ((t.pieces 1 text).map fun f => f.tokens.map fun m => m.token.text) =
      [[['a']], [['b']], [['c']], [['d']], [['a']], [['b']]] := by
    unfold t text
    cbv
  have hhighlight : t.highlightSized 1 text =
      "<mark>a</mark> <mark>B</mark> ... <mark>a</mark>-<mark>b</mark>".toList := by
    unfold t text
    cbv
  have hwords : text.words = [['a'], ['b'], ['c'], ['d'], ['a'], ['b']] := by
    unfold text
    cbv
  obtain ⟨ranges, -, -, hwhole⟩ := phrases_shown_whole t 1 text
  obtain ⟨-, hmarked, hshown⟩ := hwhole [['a'], ['b']] (List.mem_singleton_self _) 4
    (by rw [hwords]; decide)
  obtain ⟨r, -, hlies, -⟩ := hshown (by decide)
  exact ⟨hpieces, hhighlight, r, fun m hm => ⟨hmarked m hm, hlies m hm⟩⟩

end Terms

end DatasetSearch
