import DatasetSearch.Highlight
import DatasetSearch.Proofs.Outcome
import DatasetSearch.Proofs.Text.Places
import Mathlib.Data.List.Basic

/-!
# Fragments with their marks

How the fragments of a text lie in it, and what it is to write one with its marked tokens.
-/

namespace DatasetSearch

/-! ## The layout of fragments

`Laid` says that fragments stand in a text one after the other, each with the tokens that stand in
it; between two of them there may be text, with tokens of its own.  Cutting lays out the whole text
(`laid_cut`), and what is left out goes to the text between (`Laid.sublist`).  Neighbours with no
text between them are joined, so that then all fragments are apart (`apart_joinTouching`). -/

namespace Fragment

open Text

/-- The fragments stand in a text with the tokens `ms` whose first byte is byte `position`. -/
inductive Laid : Nat → Text → List MarkedToken → List Fragment → Prop
  | nil {position : Nat} {t : Text} {ms : List MarkedToken} :
      Token.Placed position t (ms.map MarkedToken.token) → Laid position t ms []
  | cons {position : Nat} {gap part rest : Text} {before after : List MarkedToken} {f : Fragment}
      {fs : List Fragment} : Token.Placed position gap (before.map MarkedToken.token) →
      f.start = position + utf8Size gap → f.stop = f.start + utf8Size part →
      Token.Placed f.start part (f.tokens.map MarkedToken.token) → Laid f.stop rest after fs →
      Laid position (gap ++ (part ++ rest)) (before ++ (f.tokens ++ after)) (f :: fs)

namespace Laid

variable {position : Nat} {s t : Text} {ms more : List MarkedToken} {f : Fragment}
  {fs : List Fragment}

/-- More text with its tokens before the first fragment. -/
theorem prepend (hs : Token.Placed position s (ms.map MarkedToken.token))
    (h : Laid (position + utf8Size s) t more fs) : Laid position (s ++ t) (ms ++ more) fs := by
  cases h with
  | nil ht => exact nil (by rw [List.map_append]; exact hs.append ht)
  | cons hgap hstart hstop hpart hrest =>
      rw [← List.append_assoc, ← List.append_assoc ms]
      refine cons ?_ (by rw [utf8Size_append]; omega) hstop hpart hrest
      rw [List.map_append]
      exact hs.append hgap

/-- A fragment that is left out is text between the others. -/
theorem sublist (h : Laid position t ms fs) {kept : List Fragment} (hkept : kept.Sublist fs) :
    Laid position t ms kept := by
  induction h generalizing kept with
  | nil ht => exact List.sublist_nil.1 hkept ▸ nil ht
  | @cons position gap part rest before after f fs hgap hstart hstop hpart _ ih =>
      cases hkept with
      | cons_cons _ hkept => exact cons hgap hstart hstop hpart (ih hkept)
      | cons _ hkept =>
          refine prepend hgap (prepend (hstart ▸ hpart) ?_)
          rw [← hstart, ← hstop]
          exact ih hkept

/-- A fragment lies in the text. -/
theorem bounds (h : Laid position t ms fs) (hf : f ∈ fs) :
    position ≤ f.start ∧ f.start ≤ f.stop ∧ f.stop ≤ position + utf8Size t := by
  induction h with
  | nil => cases hf
  | cons _ hstart hstop _ _ ih =>
      rw [utf8Size_append, utf8Size_append]
      rcases List.mem_cons.1 hf with rfl | hf
      · omega
      · have := ih hf
        omega

/-- Joining the neighbours that touch. -/
theorem joinTouching (h : Laid position t ms fs) : Laid position t ms (joinTouching fs) := by
  induction h with
  | nil ht => exact nil ht
  | @cons position gap part rest before after f fs hgap hstart hstop hpart _ ih =>
      rw [Fragment.joinTouching]
      cases hjoined : Fragment.joinTouching fs with
      | nil => exact cons hgap hstart hstop hpart (hjoined ▸ ih)
      | cons g gs =>
          rw [hjoined] at ih
          dsimp only
          split
          · rename_i htouch
            cases ih with
            | @cons _ gap' part' rest' before' after' _ _ hgap' hstart' hstop' hpart' hrest' =>
                -- nothing stands between the two
                obtain rfl : gap' = [] := eq_nil_of_utf8Size_eq_zero (by omega)
                obtain rfl : before' = [] := List.map_eq_nil_iff.1 hgap'.eq_nil
                rw [List.nil_append, List.nil_append, ← List.append_assoc part,
                  ← List.append_assoc f.tokens]
                refine cons (f := ⟨f.start, g.stop, f.tokens ++ g.tokens⟩) hgap hstart ?_ ?_ hrest'
                · rw [utf8Size_append]
                  dsimp only
                  omega
                · rw [List.map_append]
                  refine hpart.append ?_
                  rw [← hstop, htouch]
                  exact hpart'
          · exact cons hgap hstart hstop hpart ih

end Laid

/-! ### Cutting -/

/-- The pieces that are cut off lie side by side. -/
theorem laid_cutFrom (size : Nat) {start : Nat} {part t : Text} {current ms : List MarkedToken}
    (hpart : Token.Placed start part (current.map MarkedToken.token))
    (ht : Token.Placed (start + utf8Size part) t (ms.map MarkedToken.token)) :
    Laid start (part ++ t) (current ++ ms)
      (cutFrom size (start + utf8Size (part ++ t)) start current ms) := by
  induction ms generalizing start part t current with
  | nil =>
      have hall : Laid start ([] ++ ((part ++ t) ++ [])) ([] ++ (current ++ []))
          [⟨start, start + utf8Size (part ++ t), current⟩] := by
        have hrest : Token.Placed (start + utf8Size (part ++ t)) []
            (([] : List MarkedToken).map MarkedToken.token) := .nil _ []
        have hwhole := hpart.append ht
        rw [List.map_nil, List.append_nil] at hwhole
        exact .cons (f := ⟨start, start + utf8Size (part ++ t), current⟩) (.nil start []) rfl rfl
          hwhole (.nil hrest)
      rwa [List.nil_append, List.append_nil, List.nil_append] at hall
  | cons m ms ih =>
      rw [List.map_cons] at ht
      generalize htokens : ms.map MarkedToken.token = tokens at ht
      cases ht with
      | @cons _ gap word rest _ _ hword hstart hstop hrest =>
          subst htokens
          rw [cutFrom]
          split
          · -- the piece ends where the token begins
            have hnext : Token.Placed m.token.start ([] ++ (word ++ []))
                ([m].map MarkedToken.token) := .cons hword rfl hstop (.nil m.token.stop [])
            rw [List.nil_append, List.append_nil] at hnext
            have hpieces := ih hnext (hstop ▸ hrest)
            have hend : m.token.start + utf8Size (word ++ rest) =
                start + utf8Size (part ++ (gap ++ (word ++ rest))) := by
              rw [utf8Size_append part, utf8Size_append gap]
              omega
            rw [hend] at hpieces
            have hgap := hpart.append (.nil (start + utf8Size part) gap)
            rw [List.append_nil] at hgap
            have hsize : m.token.start = start + utf8Size (part ++ gap) := by
              rw [utf8Size_append]
              omega
            have hall : Laid start ([] ++ ((part ++ gap) ++ (word ++ rest)))
                ([] ++ (current ++ ([m] ++ ms))) (⟨start, m.token.start, current⟩ :: _) :=
              .cons (f := ⟨start, m.token.start, current⟩) (.nil start []) rfl hsize hgap hpieces
            rwa [List.nil_append, List.nil_append, List.append_assoc] at hall
          · -- the piece goes on to where the token stops
            have hlonger : Token.Placed start (part ++ (gap ++ word))
                ((current ++ [m]).map MarkedToken.token) := by
              rw [List.map_append]
              refine hpart.append ?_
              have := Token.Placed.cons hword hstart hstop (.nil m.token.stop [])
              rwa [List.append_nil] at this
            have hend : m.token.stop = start + utf8Size (part ++ (gap ++ word)) := by
              rw [utf8Size_append, utf8Size_append]
              omega
            have hpieces := ih hlonger (hend ▸ hrest)
            rwa [List.append_assoc, List.append_assoc, List.append_assoc] at hpieces

/-- The pieces of a text are laid out in it. -/
theorem laid_cut (size : Nat) {t : Text} {ms : List MarkedToken}
    (h : Token.Placed 0 t (ms.map MarkedToken.token)) :
    Laid 0 t ms (cut size (utf8Size t) ms) := by
  have hpieces : Laid 0 ([] ++ t) ([] ++ ms) (cutFrom size (0 + utf8Size ([] ++ t)) 0 [] ms) :=
    laid_cutFrom size (.nil 0 []) h
  rwa [List.nil_append, List.nil_append, Nat.zero_add] at hpieces

/-- Fragments of which neighbours that touch were joined are apart. -/
theorem apart_joinTouching {position : Nat} {t : Text} {ms : List MarkedToken} {fs : List Fragment}
    (h : Laid position t ms fs) : (joinTouching fs).Pairwise fun f g => f.stop < g.start := by
  induction h with
  | nil => exact .nil
  | @cons position gap part rest before after f fs _ _ hstop _ hrest ih =>
      have hjoin := hrest.joinTouching
      rw [joinTouching]
      cases hjoined : joinTouching fs with
      | nil => exact List.pairwise_singleton _ f
      | cons g gs =>
          rw [hjoined] at ih hjoin
          have hg := hjoin.bounds (List.mem_cons_self ..)
          obtain ⟨hlater, hgs⟩ := List.pairwise_cons.1 ih
          dsimp only
          split
          · exact List.pairwise_cons.2 ⟨hlater, hgs⟩
          · refine List.pairwise_cons.2 ⟨fun x hx => ?_, ih⟩
            rcases List.mem_cons.1 hx with rfl | hx
            · omega
            · have := hlater x hx
              omega

end Fragment

/-! ## Marks in a text

`withMarks` says what it is to mark tokens in a text: before a character with which a marked token
begins there is an opening, after a character with which one stops there is a closing, and
characters stay as they are.  Writing a fragment with a cursor comes to the same, and every part of
the text that is taken is there (`checkedMarkUp_eq`); so it need not be checked that it is
(`markUp_eq_of_checkedMarkUp`). -/

open Text

namespace Highlight

/-- A marked token begins at byte `n`. -/
def opensAt (ms : List MarkedToken) (n : Nat) : Bool :=
  ms.any fun m => m.isMarked && m.token.start == n

/-- A marked token stops before byte `n`. -/
def closesAt (ms : List MarkedToken) (n : Nat) : Bool :=
  ms.any fun m => m.isMarked && m.token.stop == n

/-- A text whose first byte is byte `n`, with an opening before every marked token and a closing
after it. -/
def withMarks (ms : List MarkedToken) (n : Nat) : Text → Text
  | [] => []
  | c :: rest =>
    (if opensAt ms n then opening else []) ++ [c] ++
      (if closesAt ms (n + c.utf8Size) then closing else []) ++
      withMarks ms (n + c.utf8Size) rest

/-! ### Which tokens matter -/

theorem opensAt_iff {ms : List MarkedToken} {n : Nat} :
    opensAt ms n = true ↔ ∃ m ∈ ms, m.isMarked = true ∧ m.token.start = n := by
  rw [opensAt, List.any_eq_true]
  exact exists_congr fun m => and_congr_right fun _ => by rw [Bool.and_eq_true, beq_iff_eq]

theorem closesAt_iff {ms : List MarkedToken} {n : Nat} :
    closesAt ms n = true ↔ ∃ m ∈ ms, m.isMarked = true ∧ m.token.stop = n := by
  rw [closesAt, List.any_eq_true]
  exact exists_congr fun m => and_congr_right fun _ => by rw [Bool.and_eq_true, beq_iff_eq]

/-- The token lies outside the bytes from `a` up to `b`. -/
def IsAway (a b : Nat) (m : MarkedToken) : Prop :=
  m.token.start < m.token.stop ∧ (m.token.stop ≤ a ∨ b ≤ m.token.start)

variable {ms ms' : List MarkedToken} {m : MarkedToken} {n : Nat} {s t : Text}

/-- Tokens that lie outside a text do not matter to it. -/
theorem withMarks_congr (h : ∀ m, m.isMarked = true →
    (m ∈ ms ↔ m ∈ ms') ∨ IsAway n (n + utf8Size t) m) : withMarks ms n t = withMarks ms' n t := by
  induction t generalizing n with
  | nil => rfl
  | cons c rest ih =>
      have hc := c.utf8Size_pos
      rw [utf8Size_cons] at h
      have hopens : opensAt ms n = opensAt ms' n := by
        rw [Bool.eq_iff_iff, opensAt_iff, opensAt_iff]
        refine exists_congr fun m => and_congr_left fun ⟨hmarked, hstart⟩ => ?_
        refine (h m hmarked).resolve_right ?_
        rintro ⟨hpos, haway | haway⟩ <;> omega
      have hcloses : closesAt ms (n + c.utf8Size) = closesAt ms' (n + c.utf8Size) := by
        rw [Bool.eq_iff_iff, closesAt_iff, closesAt_iff]
        refine exists_congr fun m => and_congr_left fun ⟨hmarked, hstop⟩ => ?_
        refine (h m hmarked).resolve_right ?_
        rintro ⟨hpos, haway | haway⟩ <;> omega
      rw [withMarks, withMarks, hopens, hcloses, ih]
      refine fun m hmarked => (h m hmarked).imp_right ?_
      rintro ⟨hpos, haway⟩
      exact ⟨hpos, by omega⟩

theorem withMarks_nil (n : Nat) (t : Text) : withMarks [] n t = t := by
  induction t generalizing n with
  | nil => rfl
  | cons c rest ih =>
      rw [withMarks, ih]
      rfl

/-- A text with no marked token in it stays as it is. -/
theorem withMarks_eq_self (h : ∀ m ∈ ms, m.isMarked = true → IsAway n (n + utf8Size t) m) :
    withMarks ms n t = t := by
  have hnone : withMarks ms n t = withMarks [] n t := by
    refine withMarks_congr fun m hmarked => ?_
    by_cases hm : m ∈ ms
    · exact .inr (h m hm hmarked)
    · exact .inl (iff_of_false hm List.not_mem_nil)
  rw [hnone, withMarks_nil]

theorem withMarks_append (ms : List MarkedToken) (n : Nat) (s t : Text) :
    withMarks ms n (s ++ t) = withMarks ms n s ++ withMarks ms (n + utf8Size s) t := by
  induction s generalizing n with
  | nil => rfl
  | cons c s ih =>
      rw [List.cons_append, withMarks, withMarks, ih, utf8Size_cons, Nat.add_assoc]
      simp only [List.append_assoc]

/-- The rest of a token is followed by its closing; at its front there is its opening as well. -/
theorem withMarks_singleton (hmarked : m.isMarked = true) (ht : t ≠ []) (hstart : m.token.start ≤ n)
    (hstop : m.token.stop = n + utf8Size t) : withMarks [m] n t =
      (if m.token.start = n then opening else []) ++ t ++ closing := by
  induction t generalizing n with
  | nil => exact absurd rfl ht
  | cons c rest ih =>
      have hc := c.utf8Size_pos
      have hopens : opensAt [m] n = decide (m.token.start = n) := by
        rw [Bool.eq_iff_iff, opensAt_iff, decide_eq_true_iff]
        simp [hmarked]
      have hcloses : closesAt [m] (n + c.utf8Size) = decide (rest = []) := by
        rw [Bool.eq_iff_iff, closesAt_iff, decide_eq_true_iff]
        rw [utf8Size_cons] at hstop
        simp only [List.mem_singleton, exists_eq_left, hmarked, true_and]
        constructor
        · exact fun h => eq_nil_of_utf8Size_eq_zero (by omega)
        · rintro rfl
          exact hstop
      rw [withMarks, hopens, hcloses]
      by_cases hrest : rest = []
      · subst hrest
        simp [withMarks]
      · rw [ih hrest (by omega) (by rw [hstop, utf8Size_cons, Nat.add_assoc])]
        have hne : ¬ m.token.start = n + c.utf8Size := by omega
        simp [hrest, hne]

/-- What stands up to the end of the first token, and the text after it. -/
theorem withMarks_cons {gap word rest : Text} (hword : word ≠ [])
    (hstart : m.token.start = n + utf8Size gap)
    (hstop : m.token.stop = m.token.start + utf8Size word)
    (hrest : Token.Placed m.token.stop rest (ms.map MarkedToken.token)) :
    withMarks (m :: ms) n (gap ++ (word ++ rest)) =
      gap ++ (if m.isMarked then opening ++ word ++ closing else word) ++
        withMarks ms m.token.stop rest := by
  have hpos := utf8Size_pos hword
  have hlater : ∀ x ∈ ms, m.token.stop ≤ x.token.start ∧ x.token.start < x.token.stop :=
    fun x hx => have := hrest.bounds (List.mem_map_of_mem hx); ⟨this.1, this.2.1⟩
  have hgap : withMarks (m :: ms) n gap = gap := by
    refine withMarks_eq_self fun x hx _ => ?_
    rcases List.mem_cons.1 hx with rfl | hx
    · exact ⟨by omega, .inr (by omega)⟩
    · have := hlater x hx
      exact ⟨this.2, .inr (by omega)⟩
  have hafter : withMarks (m :: ms) m.token.stop rest = withMarks ms m.token.stop rest := by
    refine withMarks_congr fun x _ => ?_
    by_cases hx : x = m
    · subst hx
      exact .inr ⟨by omega, .inl (Nat.le_refl _)⟩
    · exact .inl (by simp [hx])
  have hinside : withMarks (m :: ms) m.token.start word =
      if m.isMarked then opening ++ word ++ closing else word := by
    split
    · rename_i hmarked
      have hfirst : withMarks (m :: ms) m.token.start word = withMarks [m] m.token.start word := by
        refine withMarks_congr fun x _ => ?_
        by_cases hx : x ∈ ms
        · have := hlater x hx
          exact .inr ⟨this.2, .inr (by omega)⟩
        · exact .inl (by simp [hx])
      rw [hfirst, withMarks_singleton hmarked hword (Nat.le_refl _) hstop, if_pos rfl]
    · rename_i hmarked
      refine withMarks_eq_self fun x hx hx' => ?_
      rcases List.mem_cons.1 hx with rfl | hx
      · exact absurd hx' hmarked
      · have := hlater x hx
        exact ⟨this.2, .inr (by omega)⟩
  rw [withMarks_append, withMarks_append, hgap, ← hstart, hinside, ← hstop, hafter,
    ← List.append_assoc]

/-! ### Writing a fragment -/

theorem part_append {text s w u : Text} {start stop : Nat} (htext : text = s ++ (w ++ u))
    (hstart : start = utf8Size s) (hstop : stop = start + utf8Size w) :
    part text start stop = .ok w := by
  have hassoc : text = s ++ w ++ u := by rw [htext, List.append_assoc]
  have hfirst : text.isBoundary start = true := by
    rw [htext, hstart]
    exact isBoundary_utf8Size_append s _
  have hlast : text.isBoundary stop = true := by
    rw [hassoc, hstop, hstart, ← utf8Size_append]
    exact isBoundary_utf8Size_append (s ++ w) u
  have hfound : text.slice? start stop = some w := by
    rw [slice?, if_pos ⟨by omega, hfirst, hlast⟩, hassoc, hstop, hstart, slice_append]
  rw [part, hfound]

theorem eq_slice_of_part {text w : Text} {start stop : Nat} (h : part text start stop = .ok w) :
    start ≤ stop ∧ text.isBoundary start = true ∧ text.isBoundary stop = true ∧
      w = slice start stop text := by
  rw [part, slice?] at h
  split at h
  · rename_i hfound
    split at hfound
    · rename_i hbounds
      cases hfound
      cases h
      exact ⟨hbounds.1, hbounds.2.1, hbounds.2.2, rfl⟩
    · cases hfound
  · cases h

end Highlight

namespace Fragment

open Highlight

variable {ms : List MarkedToken} {s pre t u text : Text} {cursor stop : Nat}

/-- If every part that is taken is there, writing without checks takes the same parts. -/
theorem markUp_eq_of_checkedMarkUp {written : Text}
    (h : checkedMarkUp text cursor stop ms = .ok written) :
    markUp cursor stop (text.dropBytes cursor) ms = written := by
  induction ms generalizing cursor written with
  | nil => exact (eq_slice_of_part h).2.2.2.symm
  | cons m ms ih =>
      rw [checkedMarkUp] at h
      rw [markUp]
      split at h
      · rename_i hmarked
        obtain ⟨gap, hgap, h⟩ := Except.bind_eq_ok_iff.1 h
        obtain ⟨word, hword, h⟩ := Except.bind_eq_ok_iff.1 h
        obtain ⟨after, hafter, h⟩ := Except.bind_eq_ok_iff.1 h
        obtain ⟨hle, hcursor, hstart, hgap⟩ := eq_slice_of_part hgap
        obtain ⟨hle', -, -, hword⟩ := eq_slice_of_part hword
        rw [if_pos hmarked, dropBytes_dropBytes hcursor hle]
        dsimp only
        rw [dropBytes_dropBytes hstart hle', ih hafter]
        obtain rfl := Except.ok.inj h
        rw [hgap, hword, slice, slice]
      · rename_i hmarked
        rw [if_neg hmarked]
        exact ih h

/-- Writing what follows the cursor finds every part of the text that it takes; `pre` is what was
passed since the last mark. -/
theorem checkedMarkUp_eq (h : Token.Placed (cursor + utf8Size pre) t (ms.map MarkedToken.token))
    (htext : text = s ++ (pre ++ (t ++ u))) (hcursor : cursor = utf8Size s)
    (hstop : stop = cursor + utf8Size (pre ++ t)) : checkedMarkUp text cursor stop ms =
      .ok (pre ++ withMarks ms (cursor + utf8Size pre) t) := by
  induction ms generalizing cursor s pre t with
  | nil =>
      rw [checkedMarkUp, withMarks_nil]
      exact part_append (htext.trans (by rw [List.append_assoc])) hcursor hstop
  | cons m ms ih =>
      rw [List.map_cons] at h
      generalize htokens : ms.map MarkedToken.token = tokens at h
      cases h with
      | @cons _ gap word rest _ _ hword hfirst hlast hrest =>
          subst htokens
          have hsizes : utf8Size (pre ++ (gap ++ (word ++ rest))) =
              utf8Size pre + (utf8Size gap + (utf8Size word + utf8Size rest)) := by
            rw [utf8Size_append, utf8Size_append, utf8Size_append]
          rw [withMarks_cons hword hfirst hlast hrest, checkedMarkUp]
          split
          · rename_i hmarked
            have hgap : part text cursor m.token.start = .ok (pre ++ gap) := by
              refine part_append (u := word ++ (rest ++ u)) ?_ hcursor ?_
              · simp only [htext, List.append_assoc]
              · rw [utf8Size_append]
                omega
            have hinside : part text m.token.start m.token.stop = .ok word := by
              refine part_append (s := s ++ (pre ++ gap)) (u := rest ++ u) ?_ ?_ hlast
              · simp only [htext, List.append_assoc]
              · rw [utf8Size_append, utf8Size_append]
                omega
            have hafter : checkedMarkUp text m.token.stop stop ms =
                .ok ([] ++ withMarks ms (m.token.stop + utf8Size []) rest) := by
              refine ih (s := s ++ (pre ++ (gap ++ word))) hrest ?_ ?_ ?_
              · simp only [htext, List.append_assoc, List.nil_append]
              · rw [utf8Size_append, utf8Size_append, utf8Size_append]
                omega
              · rw [List.nil_append]
                omega
            rw [hgap, hinside, hafter]
            show Except.ok (pre ++ gap ++ opening ++ word ++ closing ++
              ([] ++ withMarks ms (m.token.stop + utf8Size []) rest)) = _
            simp only [List.append_assoc, List.nil_append, utf8Size_nil, Nat.add_zero]
          · have hpassed : cursor + utf8Size (pre ++ (gap ++ word)) = m.token.stop := by
              rw [utf8Size_append, utf8Size_append]
              omega
            have hskipped : checkedMarkUp text cursor stop ms = .ok (pre ++ (gap ++ word) ++
                withMarks ms (cursor + utf8Size (pre ++ (gap ++ word))) rest) := by
              refine ih (hpassed ▸ hrest) ?_ hcursor ?_
              · simp only [htext, List.append_assoc]
              · rw [utf8Size_append]
                omega
            rw [hskipped, hpassed]
            simp only [List.append_assoc]

end Fragment

end DatasetSearch
