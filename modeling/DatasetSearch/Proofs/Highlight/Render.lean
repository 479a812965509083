import DatasetSearch.Highlight
import DatasetSearch.Proofs.Dictionary
import Mathlib.Data.List.Basic

/-! # Highlights show the marked tokens

Cutting a text into fragments and joining neighbours keeps all tokens in order, and a fragment is
left out only if none of its tokens is marked.  So every marked token is in a fragment that is shown
(`Fragment.exists_mem_select`), where a mark is opened for it, and a highlight is empty exactly if
no token is marked (`highlightSized_eq_nil_iff`). -/

namespace DatasetSearch

/-! ### Parts of texts -/

namespace Text

/-- What begins with a character that is kept is not lost at the front. -/
theorem infix_dropWhile {p : Char → Bool} {c : Char} {u t : Text} (hc : p c = false)
    (h : c :: u <:+: t) : c :: u <:+: t.dropWhile p := by
  induction t with
  | nil => exact absurd (List.infix_nil.1 h) (List.cons_ne_nil c u)
  | cons d t ih =>
      rw [List.dropWhile_cons]
      split
      · rename_i hd
        refine ih ((List.infix_cons_iff.1 h).resolve_left fun hfront => ?_)
        rw [(List.cons_prefix_cons.1 hfront).1] at hc
        exact Bool.false_ne_true (hc.symm.trans hd)
      · exact h

/-- What begins and ends with other than white space is not lost at either end. -/
theorem infix_trim {c d : Char} {u v t : Text} (hc : isBlank c = false) (hd : isBlank d = false)
    (hends : (c :: u).reverse = d :: v) (h : c :: u <:+: t) : c :: u <:+: t.trim := by
  have hfront : d :: v <:+: (t.dropWhile isBlank).reverse :=
    hends ▸ List.reverse_infix.2 (infix_dropWhile hc h)
  rw [trim, ← List.reverse_infix, List.reverse_reverse, hends]
  exact infix_dropWhile hd hfront

theorem infix_join {separator part : Text} {parts : List Text} (h : part ∈ parts) :
    part <:+: join separator parts := by
  induction parts with
  | nil => cases h
  | cons first parts ih =>
      cases parts with
      | nil =>
          have hjoin : join separator [first] = first := List.intercalate_singleton
          obtain rfl := List.mem_singleton.1 h
          exact hjoin.symm ▸ List.infix_rfl
      | cons second parts =>
          have hjoin : join separator (first :: second :: parts) =
              first ++ separator ++ join separator (second :: parts) := List.intercalate_cons_cons
          rw [hjoin]
          rcases List.mem_cons.1 h with rfl | h
          · exact List.infix_append_of_infix_left (List.prefix_append _ _).isInfix
          · exact List.infix_append_of_infix_right (ih h)

end Text

/-! ### Fragments -/

namespace Fragment

theorem flatMap_tokens_cutFrom (size length start : Nat) (current ms : List MarkedToken) :
    (cutFrom size length start current ms).flatMap tokens = current ++ ms := by
  fun_induction cutFrom size length start current ms with
  | case1 start current => rw [List.flatMap_singleton, List.append_nil]
  | case2 start current m ms _ ih => rw [List.flatMap_cons, ih]; rfl
  | case3 start current m ms _ ih => rw [ih, List.append_assoc]; rfl

/-- The pieces of a text have all its tokens, in order. -/
theorem flatMap_tokens_cut (size length : Nat) (ms : List MarkedToken) :
    (cut size length ms).flatMap tokens = ms :=
  flatMap_tokens_cutFrom size length 0 [] ms

theorem flatMap_tokens_joinTouching (fs : List Fragment) :
    (joinTouching fs).flatMap tokens = fs.flatMap tokens := by
  induction fs with
  | nil => rfl
  | cons f fs ih =>
      rw [List.flatMap_cons, ← ih, joinTouching]
      cases joinTouching fs with
      | nil => rfl
      | cons g gs =>
          dsimp only
          split
          · rw [List.flatMap_cons, List.flatMap_cons, List.append_assoc]
          · rw [List.flatMap_cons]

/-- A piece scores if one of its tokens is marked. -/
theorem score_pos_of_isMarked {f : Fragment} {m : MarkedToken} (hm : m ∈ f.tokens)
    (hmarked : m.isMarked = true) : 0 < f.score := by
  obtain ⟨mark, hmark⟩ := Option.isSome_iff_exists.1 hmarked
  have hmem : mark ∈ (f.tokens.filterMap MarkedToken.mark).eraseDups :=
    List.mem_eraseDups.2 (List.mem_filterMap.2 ⟨m, hm, hmark⟩)
  exact List.length_pos_of_mem hmem

/-- Every marked token is in a fragment that is shown. -/
theorem exists_mem_select {pieces : List Fragment} {m : MarkedToken}
    (hm : m ∈ pieces.flatMap tokens) (hmarked : m.isMarked = true) :
    ∃ f ∈ select pieces, m ∈ f.tokens := by
  obtain ⟨piece, hpiece, hmem⟩ := List.mem_flatMap.1 hm
  have hscore : decide (0 < piece.score) = true :=
    decide_eq_true (score_pos_of_isMarked hmem hmarked)
  have hkept : m ∈ (joinTouching (pieces.filter fun f => 0 < f.score)).flatMap tokens := by
    rw [flatMap_tokens_joinTouching]
    exact List.mem_flatMap.2 ⟨piece, List.mem_filter.2 ⟨hpiece, hscore⟩, hmem⟩
  obtain ⟨f, hf, hmem⟩ := List.mem_flatMap.1 hkept
  exact ⟨f, List.mem_mergeSort.2 hf, hmem⟩

/-- A mark is opened for every marked token. -/
theorem opening_infix_markUp {ms : List MarkedToken} {m : MarkedToken} (hm : m ∈ ms)
    (hmarked : m.isMarked = true) (cursor stop : Nat) (rest : Text) :
    Highlight.opening <:+: markUp cursor stop rest ms := by
  induction ms generalizing cursor rest with
  | nil => cases hm
  | cons first ms ih =>
      rw [markUp]
      split
      · refine List.infix_append_of_infix_left (List.infix_append_of_infix_left ?_)
        exact List.infix_append_of_infix_left (List.suffix_append _ _).isInfix
      · rename_i hfirst
        refine ih ((List.mem_cons.1 hm).resolve_left ?_) cursor rest
        rintro rfl
        exact hfirst hmarked

theorem opening_infix_render {f : Fragment} {m : MarkedToken} (hm : m ∈ f.tokens)
    (hmarked : m.isMarked = true) (text : Text) : Highlight.opening <:+: f.render text := by
  have hmarks := opening_infix_markUp hm hmarked f.start f.stop (text.dropBytes f.start)
  exact Text.infix_trim (by decide) (by decide) rfl hmarks

end Fragment

/-! ### Highlights -/

namespace Terms

/-- A highlight of a text with a marked token opens a mark. -/
theorem opening_infix_highlightSized {t : Terms} {text : Text} {m : MarkedToken}
    (hm : m ∈ t.markTokens text.tokens) (hmarked : m.isMarked = true) (size : Nat) :
    Highlight.opening <:+: t.highlightSized size text := by
  have hany : (t.markTokens text.tokens).any MarkedToken.isMarked = true :=
    List.any_eq_true.2 ⟨m, hm, hmarked⟩
  have hcut : m ∈ (Fragment.cut (max size 1) text.utf8Size (t.markTokens text.tokens)).flatMap
      Fragment.tokens := by
    rwa [Fragment.flatMap_tokens_cut]
  obtain ⟨f, hf, hmem⟩ := Fragment.exists_mem_select hcut hmarked
  rw [highlightSized, if_pos hany]
  exact (Fragment.opening_infix_render hmem hmarked text).trans
    (Text.infix_join (List.mem_map_of_mem hf))

/-- A highlight is empty exactly if no token is marked. -/
theorem highlightSized_eq_nil_iff (t : Terms) (size : Nat) (text : Text) :
    t.highlightSized size text = [] ↔ ∀ m ∈ t.markTokens text.tokens, m.isMarked = false := by
  constructor
  · intro hnil m hm
    by_contra hmarked
    have hopening := opening_infix_highlightSized hm (Bool.not_eq_false _ ▸ hmarked) size
    rw [hnil, List.infix_nil] at hopening
    exact absurd hopening (by decide)
  · intro hnone
    have hany : ¬ (t.markTokens text.tokens).any MarkedToken.isMarked = true := by
      rw [List.any_eq_true]
      rintro ⟨m, hm, hmarked⟩
      rw [hnone m hm] at hmarked
      cases hmarked
    rw [highlightSized, if_neg hany]

/-- The highlights of fields with that of one more text, if it has one. -/
def addHighlight (t : Terms) (found : FieldHighlights) (field : Text × Text) : FieldHighlights :=
  if (t.highlight field.2).isEmpty then found else found.insert field.1 (t.highlight field.2)

theorem highlightFields_eq_foldl (t : Terms) (fields : List (Text × Text)) :
    t.highlightFields fields = fields.foldl t.addHighlight .empty := rfl

/-- Highlights of fields that are found stay, and a field with a highlight adds one. -/
theorem isEmpty_foldl_addHighlight (t : Terms) {fields : List (Text × Text)}
    {found : FieldHighlights}
    (h : found.isEmpty = false ∨ ∃ field ∈ fields, t.highlight field.2 ≠ []) :
    (fields.foldl t.addHighlight found).isEmpty = false := by
  induction fields generalizing found with
  | nil => exact h.resolve_right fun ⟨_, hfield, _⟩ => List.not_mem_nil hfield
  | cons first fields ih =>
      refine ih ?_
      unfold addHighlight
      by_cases hfirst : t.highlight first.2 = []
      · rw [if_pos (List.isEmpty_iff.2 hfirst)]
        refine h.imp_right ?_
        rintro ⟨field, hfield, hne⟩
        refine ⟨field, (List.mem_cons.1 hfield).resolve_left ?_, hne⟩
        rintro rfl
        exact hne hfirst
      · rw [if_neg (mt List.isEmpty_iff.1 hfirst)]
        exact .inl (Dictionary.isEmpty_insert found _ _)

/-- The highlights of fields are not empty if one of the fields has one. -/
theorem isEmpty_highlightFields {t : Terms} {fields : List (Text × Text)} {field : Text × Text}
    (hfield : field ∈ fields) (h : t.highlight field.2 ≠ []) :
    (t.highlightFields fields).isEmpty = false := by
  rw [highlightFields_eq_foldl]
  exact t.isEmpty_foldl_addHighlight (.inr ⟨field, hfield, h⟩)

/-- A highlight is that of the new text or was there before. -/
theorem eq_highlight_of_get?_addHighlight {t : Terms} {found : FieldHighlights}
    {field : Text × Text} {name value : Text}
    (h : (t.addHighlight found field).get? name = some value) :
    found.get? name = some value ∨
      field.1 = name ∧ t.highlight field.2 = value ∧ value ≠ [] := by
  unfold addHighlight at h
  split at h
  · exact .inl h
  · rename_i hne
    rw [Dictionary.get?_insert] at h
    split at h
    · rename_i hname
      obtain rfl := Option.some.inj h
      exact .inr ⟨hname.symm, rfl, mt List.isEmpty_iff.2 hne⟩
    · exact .inl h

/-- The highlights of fields are those of texts of their names. -/
theorem exists_text_of_get?_foldl {t : Terms} {fields : List (Text × Text)}
    {found : FieldHighlights} {name value : Text}
    (h : (fields.foldl t.addHighlight found).get? name = some value) :
    found.get? name = some value ∨
      ∃ text, (name, text) ∈ fields ∧ t.highlight text = value ∧ value ≠ [] := by
  induction fields generalizing found with
  | nil => exact .inl h
  | cons field fields ih =>
      rcases ih h with hbefore | ⟨text, htext, hvalue⟩
      · rcases eq_highlight_of_get?_addHighlight hbefore with hold | ⟨rfl, hvalue⟩
        · exact .inl hold
        · exact .inr ⟨field.2, List.mem_cons_self .., hvalue⟩
      · exact .inr ⟨text, List.mem_cons_of_mem field htext, hvalue⟩

end Terms

end DatasetSearch
