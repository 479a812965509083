import DatasetSearch.Dictionary
import Mathlib.Tactic.Common

/-! # Looking up in dictionaries

Two dictionaries are the same map if every key has the same value in both; `get?` is all that the
lemmas here speak of.  Each operation has one equation for it. -/

namespace DatasetSearch.Dictionary

variable {κ ν : Type}

/-! ### Lists of entries -/

section lookup

variable [DecidableEq κ] [BEq κ] [LawfulBEq κ]

theorem lookup_eq_none_iff (l : List (κ × ν)) (x : κ) :
    l.lookup x = none ↔ x ∉ l.map Prod.fst := by
  induction l with
  | nil => simp
  | cons entry l ih =>
      rw [lookup_cons, List.map_cons, List.mem_cons, not_or, ← ih]
      by_cases h : x = entry.1
      · simp [h]
      · simp [h]

theorem lookup_eq_some_iff {l : List (κ × ν)} (hl : (l.map Prod.fst).Nodup) {x : κ} {v : ν} :
    l.lookup x = some v ↔ (x, v) ∈ l := by
  induction l with
  | nil => simp
  | cons entry l ih =>
      obtain ⟨k, w⟩ := entry
      rw [List.map_cons, List.nodup_cons] at hl
      rw [lookup_cons, List.mem_cons, Prod.mk.injEq]
      by_cases hx : x = k
      · subst hx
        have hnew : (x, v) ∉ l := fun h => hl.1 (List.mem_map.2 ⟨(x, v), h, rfl⟩)
        rw [if_pos rfl, Option.some_inj]
        simp [hnew, eq_comm]
      · rw [if_neg hx, ih hl.2]
        simp [hx]

end lookup

/-! ### Dictionaries -/

variable [DecidableEq κ]

theorem mem_keys_iff (d : Dictionary κ ν) (k : κ) : k ∈ d.keys ↔ d.get? k ≠ none := by
  rw [get?, Ne, lookup_eq_none_iff, not_not]
  rfl

@[simp] theorem get?_empty (x : κ) : (empty : Dictionary κ ν).get? x = none := rfl

@[simp] theorem get?_insert (d : Dictionary κ ν) (k : κ) (v : ν) (x : κ) :
    (d.insert k v).get? x = if x = k then some v else d.get? x :=
  lookup_setEntry k v d.entries x

theorem isEmpty_insert (d : Dictionary κ ν) (k : κ) (v : ν) : (d.insert k v).isEmpty = false := by
  show (setEntry k v d.entries).isEmpty = false
  cases d.entries with
  | nil => rfl
  | cons entry l =>
      rw [setEntry]
      split
      · rfl
      · rfl

@[simp] theorem get?_erase (d : Dictionary κ ν) (k x : κ) :
    (d.erase k).get? x = if x = k then none else d.get? x :=
  lookup_filter_ne d.entries k x

theorem get?_foldl_insert {l : List (κ × ν)} (hl : (l.map Prod.fst).Nodup) (d : Dictionary κ ν)
    (x : κ) : (l.foldl (fun d entry => d.insert entry.1 entry.2) d).get? x =
      (l.lookup x).or (d.get? x) := by
  induction l generalizing d with
  | nil => rfl
  | cons entry l ih =>
      rw [List.map_cons, List.nodup_cons] at hl
      rw [List.foldl_cons, ih hl.2, get?_insert, lookup_cons]
      by_cases hx : x = entry.1
      · rw [if_pos hx, if_pos hx, hx, (lookup_eq_none_iff l entry.1).2 hl.1, Option.none_or,
          Option.some_or]
      · rw [if_neg hx, if_neg hx]

theorem get?_ofList_eq_some_iff {l : List (κ × ν)} (hl : (l.map Prod.fst).Nodup) {x : κ} {v : ν} :
    (ofList l).get? x = some v ↔ (x, v) ∈ l := by
  rw [ofList, get?_foldl_insert hl, get?_empty, Option.or_none]
  exact lookup_eq_some_iff hl

/-- The values of the second dictionary come before those of the first. -/
@[simp] theorem get?_merge (d e : Dictionary κ ν) (x : κ) :
    (d.merge e).get? x = (e.get? x).or (d.get? x) :=
  get?_foldl_insert e.nodup d x

/-! ### Entries -/

omit [DecidableEq κ] in
theorem ext_entries {d e : Dictionary κ ν} (h : d.entries = e.entries) : d = e := by
  cases d
  cases e
  cases h
  rfl

theorem setEntry_of_notMem {k : κ} (v : ν) {l : List (κ × ν)} (h : k ∉ l.map Prod.fst) :
    setEntry k v l = l ++ [(k, v)] := by
  induction l with
  | nil => rfl
  | cons e l ih =>
      rw [List.map_cons, List.mem_cons, not_or] at h
      rw [setEntry, if_neg (Ne.symm h.1), ih h.2]
      rfl

theorem entries_foldl_insert {l : List (κ × ν)} {d : Dictionary κ ν}
    (h : ((d.entries ++ l).map Prod.fst).Nodup) :
    (l.foldl (fun d entry => d.insert entry.1 entry.2) d).entries = d.entries ++ l := by
  induction l generalizing d with
  | nil => exact (List.append_nil d.entries).symm
  | cons e l ih =>
      have hnew : e.1 ∉ d.entries.map Prod.fst := by
        rw [List.map_append, List.map_cons, List.nodup_append] at h
        exact fun he => h.2.2 _ he _ (List.mem_cons_self ..) rfl
      have hentries : (d.insert e.1 e.2).entries = d.entries ++ [e] :=
        setEntry_of_notMem e.2 hnew
      have hwhole : (d.insert e.1 e.2).entries ++ l = d.entries ++ e :: l := by
        rw [hentries, List.append_assoc]
        rfl
      rw [List.foldl_cons, ih (hwhole ▸ h), hwhole]

/-- A dictionary is made of its entries again. -/
theorem ofList_entries (d : Dictionary κ ν) : ofList d.entries = d :=
  ext_entries (entries_foldl_insert (d := empty) d.nodup)

end DatasetSearch.Dictionary
