import DatasetSearch.Path

/-! # The names of a path

A slash separates names, so the names of a path in a directory are those of the directory and then
its own (`names_join`). -/

namespace DatasetSearch

namespace Text

theorem split_cons_mark (mark : Char) (t : Text) : split mark (mark :: t) = [] :: split mark t := by
  rw [split, if_pos rfl]

theorem split_ne_nil (mark : Char) (t : Text) : split mark t ≠ [] := by
  cases t with
  | nil => exact List.cons_ne_nil _ _
  | cons c t =>
      rw [split]
      split
      · exact List.cons_ne_nil _ _
      · split
        · exact List.cons_ne_nil _ _
        · exact List.cons_ne_nil _ _

theorem split_append_mark (mark : Char) (s t : Text) :
    split mark (s ++ mark :: t) = split mark s ++ split mark t := by
  induction s with
  | nil => exact split_cons_mark mark t
  | cons c s ih =>
      rw [List.cons_append, split, split, ih]
      by_cases hc : c = mark
      · rw [if_pos hc, if_pos hc, List.cons_append]
      · rw [if_neg hc, if_neg hc]
        cases hs : split mark s with
        | nil => exact absurd hs (split_ne_nil mark s)
        | cons piece pieces => rfl

theorem split_of_notMem {mark : Char} {t : Text} (h : mark ∉ t) : split mark t = [t] := by
  induction t with
  | nil => rfl
  | cons c t ih =>
      rw [List.mem_cons, not_or] at h
      rw [split, if_neg (Ne.symm h.1), ih h.2]

end Text

namespace Path

theorem names_append_slash (p q : Text) : names (p ++ '/' :: q) = names p ++ names q := by
  rw [names, Text.split_append_mark, List.filter_append]
  rfl

/-- The names of a path that is not absolute come after those of the directory it is in. -/
theorem names_join {base p : Text} (hp : isAbsolute p = false) :
    names (join base p) = names base ++ names p := by
  rw [join, hp, if_neg Bool.false_ne_true]
  split
  · rename_i hbase
    rcases hbase with hempty | hslash
    · rw [List.isEmpty_iff.1 hempty]
      rfl
    · obtain ⟨front, rfl⟩ := List.getLast?_eq_some_iff.1 hslash
      have hfront : names (front ++ ['/']) = names front := by
        rw [names_append_slash]
        exact List.append_nil _
      rw [hfront, List.append_assoc]
      exact names_append_slash front p
  · exact names_append_slash base p

/-- A path begins as its first part does. -/
theorem isAbsolute_join {base p : Text} (hp : isAbsolute p = false) :
    isAbsolute (join base p) = isAbsolute base := by
  rw [join, hp, if_neg Bool.false_ne_true]
  cases base with
  | nil => exact hp
  | cons c base => split <;> rfl

theorem mem_join_cases {base p : Text} {c : Char} (h : c ∈ join base p) :
    c ∈ base ∨ c ∈ p ∨ c = '/' := by
  unfold join at h
  split at h
  · exact .inr (.inl h)
  · split at h
    · exact (List.mem_append.1 h).imp_right .inl
    · rcases List.mem_append.1 h with h | h
      · exact .inl h
      · exact .inr (List.mem_cons.1 h).symm

/-- A path ends as its last part does. -/
theorem endsInSlash_join {base p : Text} (hp : isAbsolute p = false) (hne : p ≠ []) :
    endsInSlash (join base p) = endsInSlash p := by
  obtain ⟨c, hc⟩ := Option.ne_none_iff_exists'.1 (mt List.getLast?_eq_none_iff.1 hne)
  rw [endsInSlash, join, hp, if_neg Bool.false_ne_true, endsInSlash, hc]
  split
  · rw [List.getLast?_append, hc, Option.some_or]
  · rw [List.getLast?_append, List.getLast?_cons, hc, Option.some_or, Option.getD_some]

end Path

end DatasetSearch
