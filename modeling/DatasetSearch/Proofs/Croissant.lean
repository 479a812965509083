import DatasetSearch.Croissant
import DatasetSearch.Proofs.Json.Literal
import Mathlib

/-! # Nested lists of metadata are one list

A field of a description may be a list of lists of texts.  Joining skips what is empty, so it does
not matter where a list is taken apart: `joinNonEmpty` of several lists is that of them in one
(`joinNonEmpty_append`).  Hence the text of a value is the texts of its leaves, which are the values
that are reached through lists only, in one join (`eq_joinNonEmpty_leaves`), whatever the lists are
and whatever stands between them that has no text.  Every item that is written is trimmed, so the
whole is, too. -/

namespace DatasetSearch

/-! ### Trimmed texts -/

namespace Text

/-- No white space stands at either end of the text. -/
structure IsTrimmed (t : Text) : Prop where
  front : ∀ c ∈ t.head?, isBlank c = false
  back : ∀ c ∈ t.getLast?, isBlank c = false

theorem isBlank_eq_false_of_head?_dropWhile {t : Text} {c : Char}
    (h : c ∈ (t.dropWhile isBlank).head?) : isBlank c = false := by
  have hnot := List.head?_dropWhile_not isBlank t
  rw [Option.mem_def.1 h] at hnot
  exact hnot

theorem isTrimmed_trim (t : Text) : IsTrimmed (trim t) := by
  constructor
  · intro c hc
    -- what is left after trimming the end is a front of what was left after trimming the front
    have hfront : trim t <+: t.dropWhile isBlank := by
      rw [trim, ← List.reverse_suffix, List.reverse_reverse]
      exact List.dropWhile_suffix isBlank
    obtain ⟨rest, hrest⟩ := List.head?_eq_some_iff.1 hc
    rw [hrest] at hfront
    obtain ⟨more, hmore⟩ := hfront
    apply isBlank_eq_false_of_head?_dropWhile (t := t)
    simp [← hmore]
  · intro c hc
    rw [trim, List.getLast?_reverse] at hc
    exact isBlank_eq_false_of_head?_dropWhile hc

theorem isTrimmed_of_forall {t : Text} (h : ∀ c ∈ t, isBlank c = false) : IsTrimmed t :=
  ⟨fun c hc => h c (List.mem_of_mem_head? hc), fun c hc => h c (List.mem_of_mem_getLast? hc)⟩

theorem isTrimmed_nil : IsTrimmed [] := isTrimmed_of_forall (by simp)

theorem IsTrimmed.append {s t : Text} (hs : IsTrimmed s) (ht : IsTrimmed t) (hsne : s ≠ [])
    (htne : t ≠ []) (middle : Text) : IsTrimmed (s ++ (middle ++ t)) := by
  constructor
  · intro c hc
    obtain ⟨d, s, rfl⟩ := List.exists_cons_of_ne_nil hsne
    exact hs.front c hc
  · intro c hc
    have hlast : (s ++ (middle ++ t)).getLast? = t.getLast? := by
      simp [List.getLast?_append, List.getLast?_eq_some_getLast htne]
    rw [hlast] at hc
    exact ht.back c hc

end Text

/-! ### Leaves -/

namespace Json.Value

mutual

/-- The values that are reached through lists only, in order. -/
def leaves : Value → List Value
  | .list items => leavesOfEach items
  | v => [v]

/-- The leaves of the items of a list. -/
def leavesOfEach : List Value → List Value
  | [] => []
  | v :: vs => leaves v ++ leavesOfEach vs

end

end Json.Value

namespace Croissant

open Json (Value Numeral)

/-! ### Joins of joins -/

/-- Two texts with a separator between them if both are there. -/
def glue (s t : Text) : Text := if s = [] then t else if t = [] then s else s ++ (separator ++ t)

theorem glue_nil (s : Text) : glue s [] = s := by
  unfold glue
  split
  · rename_i hs
    exact hs.symm
  · rfl

theorem glue_assoc (s t u : Text) : glue (glue s t) u = glue s (glue t u) := by
  unfold glue
  by_cases hs : s = []
  · simp [hs]
  · by_cases ht : t = []
    · simp [hs, ht]
    · by_cases hu : u = []
      · simp [hs, ht, hu]
      · simp [hs, ht, hu]

/-- The texts that are written of a list of texts. -/
def written (ts : List Text) : List Text := ts.filter fun t => !t.isEmpty

theorem mem_written {t : Text} {ts : List Text} : t ∈ written ts ↔ t ∈ ts ∧ t ≠ [] := by
  simp [written]

theorem joinNonEmpty_eq (ts : List Text) : joinNonEmpty ts = Text.join separator (written ts) := rfl

theorem join_cons_ne_nil {t : Text} (ht : t ≠ []) (ts : List Text) :
    Text.join separator (t :: ts) ≠ [] := by
  cases ts with
  | nil => simpa [Text.join] using ht
  | cons t' ts => simp [Text.join, List.intercalate_cons_cons, ht]

theorem joinNonEmpty_cons (t : Text) (ts : List Text) :
    joinNonEmpty (t :: ts) = glue t (joinNonEmpty ts) := by
  rw [joinNonEmpty_eq, joinNonEmpty_eq]
  unfold glue
  by_cases ht : t = []
  · simp [written, ht]
  · have hcons : written (t :: ts) = t :: written ts := by simp [written, ht]
    rw [hcons, if_neg ht]
    cases hmore : written ts with
    | nil => simp [Text.join]
    | cons t' more =>
        have ht' : t' ≠ [] := (mem_written.1 (hmore ▸ List.mem_cons_self ..)).2
        rw [if_neg (join_cons_ne_nil ht' more)]
        simp [Text.join, List.intercalate_cons_cons]

theorem joinNonEmpty_singleton (t : Text) : joinNonEmpty [t] = t := by
  rw [joinNonEmpty_cons]
  exact glue_nil t

theorem joinNonEmpty_append (ss ts : List Text) :
    joinNonEmpty (ss ++ ts) = glue (joinNonEmpty ss) (joinNonEmpty ts) := by
  induction ss with
  | nil => simp [joinNonEmpty_eq, written, Text.join, glue]
  | cons s ss ih => rw [List.cons_append, joinNonEmpty_cons, ih, joinNonEmpty_cons, glue_assoc]

/-- Trimmed texts have a trimmed join. -/
theorem isTrimmed_joinNonEmpty {ts : List Text} (h : ∀ t ∈ ts, t.IsTrimmed) :
    (joinNonEmpty ts).IsTrimmed := by
  induction ts with
  | nil => exact Text.isTrimmed_nil
  | cons t ts ih =>
      have hfirst := h t (List.mem_cons_self ..)
      have hrest := ih fun s hs => h s (List.mem_cons_of_mem t hs)
      rw [joinNonEmpty_cons, glue]
      split
      · exact hrest
      · rename_i ht
        split
        · exact hfirst
        · rename_i hne
          exact hfirst.append hrest ht hne separator

/-! ### Values and their leaves -/

theorem textsOf_eq_map (items : List Value) : textsOf items = items.map textOf := by
  induction items with
  | nil => rfl
  | cons v vs ih => rw [textsOf, ih, List.map_cons]

theorem namesOfEach_eq_map (items : List Value) : namesOfEach items = items.map namesOf := by
  induction items with
  | nil => rfl
  | cons v vs ih => rw [namesOfEach, ih, List.map_cons]

mutual

/-- A text that joins the texts of the items of a list is what its leaves give, in one join. -/
theorem eq_joinNonEmpty_leaves {f : Value → Text} {rule : Value → List Text}
    (hlist : ∀ items, f (.list items) = joinNonEmpty (items.map f))
    (hleaf : ∀ v, (∀ items, v ≠ .list items) → f v = joinNonEmpty (rule v)) (v : Value) :
    f v = joinNonEmpty (v.leaves.flatMap rule) := by
  match v with
  | .list items =>
      rw [hlist, Value.leaves]
      exact joinNonEmpty_map_eq hlist hleaf items
  | .null | .bool _ | .number _ | .string _ | .object _ =>
      rw [hleaf _ (by simp)]
      simp [Value.leaves]

theorem joinNonEmpty_map_eq {f : Value → Text} {rule : Value → List Text}
    (hlist : ∀ items, f (.list items) = joinNonEmpty (items.map f))
    (hleaf : ∀ v, (∀ items, v ≠ .list items) → f v = joinNonEmpty (rule v))
    (items : List Value) :
    joinNonEmpty (items.map f) = joinNonEmpty ((Value.leavesOfEach items).flatMap rule) := by
  match items with
  | [] => rfl
  | v :: vs =>
      rw [List.map_cons, joinNonEmpty_cons, Value.leavesOfEach, List.flatMap_append,
        joinNonEmpty_append, ← eq_joinNonEmpty_leaves hlist hleaf v,
        joinNonEmpty_map_eq hlist hleaf vs]

end

/-- Values without a text make no difference, and neither do the lists in which the others stand. -/
theorem eq_of_leaves_eq {f : Value → Text}
    (hlist : ∀ items, f (.list items) = joinNonEmpty (items.map f)) {v w : Value}
    (h : w.leaves.filter (f · ≠ []) = v.leaves.filter (f · ≠ [])) : f w = f v := by
  have hjoin (u : Value) :
      f u = Text.join separator ((u.leaves.filter (f · ≠ [])).map f) := by
    have hleaves : f u = joinNonEmpty (u.leaves.flatMap fun leaf => [f leaf]) :=
      eq_joinNonEmpty_leaves hlist (fun leaf _ => (joinNonEmpty_singleton (f leaf)).symm) u
    rw [hleaves, joinNonEmpty_eq, ← List.map_eq_flatMap, written, List.filter_map]
    congr 3
    funext leaf
    cases hleaf : f leaf with
    | nil => simp [hleaf]
    | cons c t => simp [hleaf]
  rw [hjoin w, hjoin v, h]

/-! ### Texts and names -/

/-- The texts that a leaf gives to a text field. -/
def leafTexts : Value → List Text
  | .string t => [Text.trim t]
  | .number n => [n.text]
  | _ => []

/-- The texts of a text field, in order. -/
def texts (v : Value) : List Text := v.leaves.flatMap leafTexts

/-- The texts that a leaf gives to a field of persons or organizations. -/
def leafNames : Value → List Text
  | .string t => [Text.trim t]
  | .object members => match members.lookup "name".toList with
    | some v => texts v
    | none => []
  | _ => []

/-- The texts of a field of persons or organizations, in order. -/
def names (v : Value) : List Text := v.leaves.flatMap leafNames

theorem textOf_list (items : List Value) :
    textOf (.list items) = joinNonEmpty (items.map textOf) := by
  rw [textOf, textsOf_eq_map]

theorem namesOf_list (items : List Value) :
    namesOf (.list items) = joinNonEmpty (items.map namesOf) := by
  rw [namesOf, namesOfEach_eq_map]

theorem textOf_eq (v : Value) : textOf v = joinNonEmpty (texts v) := by
  refine eq_joinNonEmpty_leaves textOf_list ?_ v
  intro leaf hleaf
  match leaf with
  | .list items => exact absurd rfl (hleaf items)
  | .string t => exact (joinNonEmpty_singleton _).symm
  | .number n => exact (joinNonEmpty_singleton _).symm
  | .null | .bool _ | .object _ => rfl

theorem namesOf_eq (v : Value) : namesOf v = joinNonEmpty (names v) := by
  refine eq_joinNonEmpty_leaves namesOf_list ?_ v
  intro leaf hleaf
  match leaf with
  | .list items => exact absurd rfl (hleaf items)
  | .string t => exact (joinNonEmpty_singleton _).symm
  | .object members =>
      rw [namesOf, leafNames]
      cases members.lookup "name".toList with
      | none => rfl
      | some v => exact textOf_eq v
  | .null | .bool _ | .number _ => rfl

theorem isBlank_eq_false_of_isNumberChar {c : Char} (h : Json.isNumberChar c = true) :
    Text.isBlank c = false := by
  have hrange : 43 ≤ c.toNat ∧ c.toNat ≤ 101 := by
    simp only [Json.isNumberChar, Char.isDigit, Bool.or_eq_true, Bool.and_eq_true,
      decide_eq_true_eq] at h
    rcases h with (((⟨hlow, hhigh⟩ | rfl) | rfl) | rfl) | rfl
    · have hlow : 48 ≤ c.toNat := hlow
      have hhigh : c.toNat ≤ 57 := hhigh
      omega
    all_goals decide
  simp [Text.isBlank]
  omega

theorem isTrimmed_text (n : Numeral) : Text.IsTrimmed n.text := by
  apply Text.isTrimmed_of_forall
  intro c hc
  rw [← n.text_literal] at hc
  exact isBlank_eq_false_of_isNumberChar
    (Json.Literal.isNumberChar_of_mem_text n.isProper_literal hc)

theorem isTrimmed_of_mem_leafTexts {t : Text} {v : Value} (h : t ∈ leafTexts v) :
    t.IsTrimmed := by
  match v with
  | .string s => exact List.mem_singleton.1 h ▸ Text.isTrimmed_trim s
  | .number n => exact List.mem_singleton.1 h ▸ isTrimmed_text n

theorem isTrimmed_of_mem_texts {t : Text} {v : Value} (h : t ∈ texts v) : t.IsTrimmed := by
  obtain ⟨leaf, -, hleaf⟩ := List.mem_flatMap.1 h
  exact isTrimmed_of_mem_leafTexts hleaf

theorem isTrimmed_of_mem_names {t : Text} {v : Value} (h : t ∈ names v) : t.IsTrimmed := by
  obtain ⟨leaf, -, hleaf⟩ := List.mem_flatMap.1 h
  match leaf with
  | .string s => exact List.mem_singleton.1 hleaf ▸ Text.isTrimmed_trim s
  | .object members =>
      rw [leafNames] at hleaf
      split at hleaf
      · exact isTrimmed_of_mem_texts hleaf
      · cases hleaf

/-- The text of a value is the join of the texts of its leaves that are not empty, and its names are
the join of theirs; so values without a text make no difference, and neither does it in which lists
the others stand.  No item that is written is empty or has white space at its ends, and neither has
the whole. -/
theorem textOf_and_namesOf (v : Value) :
    (textOf v = Text.join separator (written (texts v)) ∧
      namesOf v = Text.join separator (written (names v))) ∧
    (∀ t ∈ written (texts v) ++ written (names v), t ≠ [] ∧ t.IsTrimmed) ∧
    (∀ w : Value,
      (w.leaves.filter (textOf · ≠ []) = v.leaves.filter (textOf · ≠ []) → textOf w = textOf v) ∧
      (w.leaves.filter (namesOf · ≠ []) = v.leaves.filter (namesOf · ≠ []) →
        namesOf w = namesOf v)) ∧
    (textOf v).IsTrimmed ∧ (namesOf v).IsTrimmed := by
  refine ⟨⟨textOf_eq v, namesOf_eq v⟩, ?_, ?_, ?_, ?_⟩
  · intro t ht
    rcases List.mem_append.1 ht with ht | ht
    · obtain ⟨ht, hne⟩ := mem_written.1 ht
      exact ⟨hne, isTrimmed_of_mem_texts ht⟩
    · obtain ⟨ht, hne⟩ := mem_written.1 ht
      exact ⟨hne, isTrimmed_of_mem_names ht⟩
  · intro w
    exact ⟨eq_of_leaves_eq textOf_list, eq_of_leaves_eq namesOf_list⟩
  · rw [textOf_eq]
    exact isTrimmed_joinNonEmpty fun t => isTrimmed_of_mem_texts
  · rw [namesOf_eq]
    exact isTrimmed_joinNonEmpty fun t => isTrimmed_of_mem_names

/-- Lists in lists with nothing, blanks, a number and a person with a list for a name between them,
and the same without the lists and what has no text. -/
theorem textOf_and_namesOf_of_nested_lists :
    let song : Value := .string [' ', 'S', 'o', 'n', 'g', ' ']
    let ada : Value := .object [(['n', 'a', 'm', 'e'], .list [.null, .string ['A', 'd', 'a']])]
    let v : Value := .list [.list [.null, song], .list [.list [.number (.integer 7)], ada],
      .string [' ']]
    let w : Value := .list [song, .number (.integer 7), ada]
    (w.leaves.filter (textOf · ≠ []) = v.leaves.filter (textOf · ≠ []) ∧ textOf w = textOf v) ∧
      (w.leaves.filter (namesOf · ≠ []) = v.leaves.filter (namesOf · ≠ []) ∧
        namesOf w = namesOf v) ∧
      textOf v = ['S', 'o', 'n', 'g', ',', ' ', '7'] ∧
      namesOf v = ['S', 'o', 'n', 'g', ',', ' ', 'A', 'd', 'a'] := by
  intro song ada v w
  obtain ⟨⟨htext, hnames⟩, -, hsame, -⟩ := textOf_and_namesOf v
  have htexts : w.leaves.filter (textOf · ≠ []) = v.leaves.filter (textOf · ≠ []) := by cbv
  have hpersons : w.leaves.filter (namesOf · ≠ []) = v.leaves.filter (namesOf · ≠ []) := by cbv
  refine ⟨⟨htexts, (hsame w).1 htexts⟩, ⟨hpersons, (hsame w).2 hpersons⟩, ?_, ?_⟩
  · rw [htext]
    cbv
  · rw [hnames]
    cbv

end Croissant

end DatasetSearch
