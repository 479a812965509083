import DatasetSearch.Text.Basic
import DatasetSearch.Text.Token

/-! # Places in a text

A byte position is a boundary of a text if a character begins or the text ends there.  The tokens of
a text have boundaries at both ends, none is empty, and each begins where the one before it stops or
later (`Text.placed_tokens`). -/

namespace DatasetSearch

namespace Text

/-! ### Boundaries -/

/-- At a boundary the text can be taken apart. -/
theorem isBoundary_iff {n : Nat} {t : Text} :
    isBoundary n t = true ↔ ∃ s u, t = s ++ u ∧ utf8Size s = n := by
  induction t generalizing n with
  | nil =>
      rw [isBoundary, decide_eq_true_iff]
      constructor
      · rintro rfl
        exact ⟨[], [], rfl, rfl⟩
      · rintro ⟨s, u, h, rfl⟩
        rw [(List.append_eq_nil_iff.1 h.symm).1]
        rfl
  | cons c rest ih =>
      rw [isBoundary, Bool.or_eq_true, Bool.and_eq_true, decide_eq_true_iff, decide_eq_true_iff, ih]
      constructor
      · rintro (rfl | ⟨hc, s, u, rfl, hs⟩)
        · exact ⟨[], c :: rest, rfl, rfl⟩
        · exact ⟨c :: s, u, rfl, by rw [utf8Size_cons]; omega⟩
      · rintro ⟨s, u, h, hs⟩
        cases s with
        | nil => exact .inl hs.symm
        | cons d s =>
            obtain ⟨rfl, rfl⟩ := List.cons_eq_cons.1 h
            rw [utf8Size_cons] at hs
            exact .inr ⟨by omega, s, u, rfl, by omega⟩

theorem isBoundary_utf8Size_append (s u : Text) : isBoundary (utf8Size s) (s ++ u) = true :=
  isBoundary_iff.2 ⟨s, u, rfl, rfl⟩

/-- What stands between two places of a text is the slice between them. -/
theorem slice_append (s part u : Text) :
    slice (utf8Size s) (utf8Size s + utf8Size part) (s ++ part ++ u) = part := by
  rw [slice, List.append_assoc, dropBytes_utf8Size_append, Nat.add_sub_cancel_left,
    takeBytes_utf8Size_append]

/-- Going on from a boundary comes to the same place as going there at once. -/
theorem dropBytes_dropBytes {a b : Nat} {t : Text} (ha : isBoundary a t = true) (hle : a ≤ b) :
    dropBytes (b - a) (dropBytes a t) = dropBytes b t := by
  obtain ⟨s, u, rfl, rfl⟩ := isBoundary_iff.1 ha
  rw [dropBytes_utf8Size_append]
  clear ha
  induction s generalizing b with
  | nil => rfl
  | cons c s ih =>
      rw [utf8Size_cons] at hle ⊢
      rw [List.cons_append, dropBytes, if_pos (by omega), ← ih (by omega), Nat.sub_sub]

theorem eq_nil_of_utf8Size_eq_zero {t : Text} (h : utf8Size t = 0) : t = [] := by
  cases t with
  | nil => rfl
  | cons c rest =>
      have := c.utf8Size_pos
      rw [utf8Size_cons] at h
      omega

theorem utf8Size_pos {t : Text} (h : t ≠ []) : 0 < utf8Size t :=
  Nat.pos_of_ne_zero (mt eq_nil_of_utf8Size_eq_zero h)

/-- At two boundaries the text can be taken apart twice. -/
theorem exists_parts {a b : Nat} {t : Text} (ha : isBoundary a t = true)
    (hb : isBoundary b t = true) (hle : a ≤ b) :
    ∃ s part u, t = s ++ part ++ u ∧ utf8Size s = a ∧ utf8Size (s ++ part) = b := by
  obtain ⟨s, u, rfl, rfl⟩ := isBoundary_iff.1 ha
  obtain ⟨s', u', htext, rfl⟩ := isBoundary_iff.1 hb
  rcases List.append_eq_append_iff.1 htext with ⟨part, rfl, rfl⟩ | ⟨part, rfl, rfl⟩
  · exact ⟨s, part, u', (List.append_assoc ..).symm, rfl, rfl⟩
  · obtain rfl : part = [] := by
      rw [utf8Size_append] at hle
      exact eq_nil_of_utf8Size_eq_zero (by omega)
    exact ⟨s', [], u, by simp, by simp, by simp⟩

theorem utf8Size_slice {a b : Nat} {t : Text} (ha : isBoundary a t = true)
    (hb : isBoundary b t = true) (hle : a ≤ b) : a + utf8Size (slice a b t) = b := by
  obtain ⟨s, part, u, rfl, rfl, rfl⟩ := exists_parts ha hb hle
  rw [utf8Size_append, slice_append]

theorem slice_ne_nil {a b : Nat} {t : Text} (ha : isBoundary a t = true)
    (hb : isBoundary b t = true) (hlt : a < b) : slice a b t ≠ [] := by
  intro hnil
  have hsize := utf8Size_slice ha hb (Nat.le_of_lt hlt)
  rw [hnil, utf8Size_nil] at hsize
  omega

theorem takeBytes_append {n : Nat} {s : Text} (h : utf8Size s ≤ n) (u : Text) :
    takeBytes n (s ++ u) = s ++ takeBytes (n - utf8Size s) u := by
  induction s generalizing n with
  | nil => rfl
  | cons c s ih =>
      rw [utf8Size_cons] at h ⊢
      rw [List.cons_append, takeBytes, if_pos (by omega), ih (by omega), List.cons_append,
        Nat.sub_sub]

/-- A slice goes on where another one ends. -/
theorem slice_append_slice {a b c : Nat} {t : Text} (ha : isBoundary a t = true)
    (hb : isBoundary b t = true) (hab : a ≤ b) (hbc : b ≤ c) :
    slice a b t ++ slice b c t = slice a c t := by
  obtain ⟨s, part, u, rfl, rfl, rfl⟩ := exists_parts ha hb hab
  rw [utf8Size_append] at hbc
  rw [utf8Size_append, slice_append, slice, slice, ← utf8Size_append, dropBytes_utf8Size_append,
    List.append_assoc, dropBytes_utf8Size_append, takeBytes_append (by omega), utf8Size_append,
    Nat.sub_sub]

end Text

/-! ### Places of tokens -/

namespace Token

open Text

/-- The tokens stand in a text whose first byte is byte `position`, one after the other, and none is
empty. -/
inductive Placed : Nat → Text → List Token → Prop
  | nil (position : Nat) (gap : Text) : Placed position gap []
  | cons {position : Nat} {gap word rest : Text} {token : Token} {tokens : List Token} :
      word ≠ [] → token.start = position + utf8Size gap →
      token.stop = token.start + utf8Size word → Placed token.stop rest tokens →
      Placed position (gap ++ (word ++ rest)) (token :: tokens)

namespace Placed

variable {position : Nat} {s t : Text} {tokens more : List Token}

/-- More text before the first token moves the tokens to the right. -/
theorem prepend (h : Placed (position + utf8Size s) t tokens) :
    Placed position (s ++ t) tokens := by
  cases h with
  | nil => exact nil position (s ++ t)
  | cons hword hstart hstop hrest =>
      rw [← List.append_assoc]
      exact cons hword (by rw [utf8Size_append]; omega) hstop hrest

/-- The tokens of two texts, one after the other. -/
theorem append (hs : Placed position s tokens) (ht : Placed (position + utf8Size s) t more) :
    Placed position (s ++ t) (tokens ++ more) := by
  induction hs with
  | nil => exact ht.prepend
  | @cons position gap word rest token tokens hword hstart hstop hrest ih =>
      rw [List.append_assoc, List.append_assoc]
      have hend : token.stop + utf8Size rest =
          position + utf8Size (gap ++ (word ++ rest)) := by
        rw [utf8Size_append, utf8Size_append]
        omega
      exact cons hword hstart hstop (ih (hend ▸ ht))

/-- A token lies in the text and is not empty. -/
theorem bounds (h : Placed position t tokens) {token : Token} (htoken : token ∈ tokens) :
    position ≤ token.start ∧ token.start < token.stop ∧ token.stop ≤ position + utf8Size t := by
  induction h with
  | nil => cases htoken
  | cons hword hstart hstop _ ih =>
      have hpos := utf8Size_pos hword
      rw [utf8Size_append, utf8Size_append]
      rcases List.mem_cons.1 htoken with rfl | htoken
      · omega
      · have := ih htoken
        omega

/-- No token stands in two places. -/
theorem nodup (h : Placed position t tokens) : tokens.Nodup := by
  induction h with
  | nil => exact .nil
  | @cons position gap word rest token tokens hword hstart hstop hrest ih =>
      refine List.nodup_cons.2 ⟨fun htoken => ?_, ih⟩
      have := utf8Size_pos hword
      have := (hrest.bounds htoken).1
      omega

/-- Each token stops before the next one begins. -/
theorem pairwise (h : Placed position t tokens) : tokens.Pairwise fun x y => x.stop ≤ y.start := by
  induction h with
  | nil => exact .nil
  | cons _ _ _ hrest ih => exact List.pairwise_cons.2 ⟨fun y hy => (hrest.bounds hy).1, ih⟩

/-- In an empty text there is no token. -/
theorem eq_nil (h : Placed position [] tokens) : tokens = [] := by
  refine List.eq_nil_iff_forall_not_mem.2 fun token htoken => ?_
  have := h.bounds htoken
  rw [utf8Size_nil] at this
  omega

/-- A token has a boundary of the text at either end. -/
theorem isBoundary (h : Placed (utf8Size s) t tokens) {token : Token} (htoken : token ∈ tokens) :
    Text.isBoundary token.start (s ++ t) = true ∧ Text.isBoundary token.stop (s ++ t) = true := by
  generalize hposition : utf8Size s = position at h
  induction h generalizing s with
  | nil => cases htoken
  | @cons position gap word rest first tokens _ hstart hstop _ ih =>
      have hsize : utf8Size (s ++ gap ++ word) = first.stop := by
        rw [utf8Size_append, utf8Size_append]
        omega
      have htext : s ++ (gap ++ (word ++ rest)) = s ++ gap ++ word ++ rest := by
        simp only [List.append_assoc]
      rw [htext]
      rcases List.mem_cons.1 htoken with rfl | htoken
      · refine ⟨isBoundary_iff.2 ⟨s ++ gap, word ++ rest, List.append_assoc .., ?_⟩,
          isBoundary_iff.2 ⟨s ++ gap ++ word, rest, rfl, hsize⟩⟩
        rw [utf8Size_append]
        omega
      · exact ih htoken hsize

end Placed

end Token

namespace Text

theorem placed_tokensFrom (position : Nat) (t : Text) :
    Token.Placed position t (tokensFrom position t) := by
  fun_induction tokensFrom position t with
  | case1 position => exact .nil position []
  | case2 position c rest _ run ih =>
      have hrest : c :: rest = [] ++ (run ++ rest.dropWhile isAlphanumeric) := by
        rw [List.nil_append, List.cons_append, List.takeWhile_append_dropWhile]
      rw [hrest]
      exact .cons (List.cons_ne_nil c _) rfl rfl ih
  | case3 position c rest _ ih => exact Token.Placed.prepend (s := [c]) ih

/-- The tokens of a text stand in it. -/
theorem placed_tokens (t : Text) : Token.Placed 0 t t.tokens := placed_tokensFrom 0 t

end Text

end DatasetSearch
