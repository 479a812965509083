/-!
# Dictionaries

A finite map with its entries in the order in which the keys were first set.  Setting a key again
replaces its value in place, so every key has one entry.
-/

namespace DatasetSearch

/-- A finite map from `κ` to `ν`. -/
structure Dictionary (κ ν : Type) where
  entries : List (κ × ν) := []
  nodup : (entries.map Prod.fst).Nodup := by simp

namespace Dictionary

variable {κ ν : Type} [DecidableEq κ]

/-- The dictionary without entries. -/
def empty : Dictionary κ ν := {}

instance : Inhabited (Dictionary κ ν) := ⟨empty⟩

/-- The keys, in order. -/
def keys (d : Dictionary κ ν) : List κ := d.entries.map Prod.fst

/-- The value of a key. -/
def get? (d : Dictionary κ ν) (k : κ) : Option ν := d.entries.lookup k

/-- Entries with the value of `k` set to `v`. -/
def setEntry (k : κ) (v : ν) : List (κ × ν) → List (κ × ν)
  | [] => [(k, v)]
  | (k', v') :: rest => if k' = k then (k, v) :: rest else (k', v') :: setEntry k v rest

theorem mem_keys_setEntry {k : κ} {v : ν} {l : List (κ × ν)} {x : κ} :
    x ∈ (setEntry k v l).map Prod.fst ↔ x = k ∨ x ∈ l.map Prod.fst := by
  induction l with
  | nil => simp [setEntry]
  | cons e rest ih =>
    obtain ⟨k', v'⟩ := e
    by_cases h : k' = k
    · simp [setEntry, h]
    · rw [setEntry, if_neg h, List.map_cons, List.mem_cons, ih, List.map_cons, List.mem_cons]
      exact or_left_comm

theorem nodup_setEntry {k : κ} {v : ν} {l : List (κ × ν)} (h : (l.map Prod.fst).Nodup) :
    ((setEntry k v l).map Prod.fst).Nodup := by
  induction l with
  | nil => simp [setEntry]
  | cons e rest ih =>
    obtain ⟨k', v'⟩ := e
    rw [List.map_cons, List.nodup_cons] at h
    by_cases hk : k' = k
    · rw [setEntry, if_pos hk, List.map_cons, List.nodup_cons]
      exact hk ▸ h
    · rw [setEntry, if_neg hk, List.map_cons, List.nodup_cons]
      refine ⟨fun hm => ?_, ih h.2⟩
      rcases mem_keys_setEntry.1 hm with rfl | hm
      · exact hk rfl
      · exact h.1 hm

/-! ### Looking up in entries -/

section lookup

variable [BEq κ] [LawfulBEq κ]

theorem lookup_cons (entry : κ × ν) (l : List (κ × ν)) (x : κ) :
    (entry :: l).lookup x = if x = entry.1 then some entry.2 else l.lookup x := by
  obtain ⟨k, v⟩ := entry
  rw [List.lookup_cons]
  by_cases h : x = k
  · rw [if_pos h, beq_iff_eq.2 h]
  · rw [if_neg h, beq_eq_false_iff_ne.2 h]

theorem lookup_setEntry (k : κ) (v : ν) (l : List (κ × ν)) (x : κ) :
    (setEntry k v l).lookup x = if x = k then some v else l.lookup x := by
  induction l with
  | nil => rw [setEntry, lookup_cons]
  | cons entry l ih =>
      obtain ⟨k', v'⟩ := entry
      by_cases h : k' = k
      · rw [setEntry, if_pos h, lookup_cons, lookup_cons, h]
        by_cases hx : x = k
        · rw [if_pos hx, if_pos hx]
        · rw [if_neg hx, if_neg hx, if_neg hx]
      · rw [setEntry, if_neg h, lookup_cons, lookup_cons, ih]
        by_cases hx : x = k'
        · rw [if_pos hx, if_pos hx, if_neg (hx ▸ h)]
        · rw [if_neg hx, if_neg hx]

theorem lookup_filter_ne (l : List (κ × ν)) (k x : κ) :
    (l.filter fun e => e.1 ≠ k).lookup x = if x = k then none else l.lookup x := by
  induction l with
  | nil => simp
  | cons entry l ih =>
      rw [List.filter_cons, lookup_cons]
      split
      · rename_i hk
        rw [lookup_cons, ih]
        by_cases hx : x = entry.1
        · have hxk : x ≠ k := by simpa [hx] using hk
          rw [if_pos hx, if_neg hxk, if_pos hx]
        · rw [if_neg hx, if_neg hx]
      · rename_i hk
        have hk : entry.1 = k := by simpa using hk
        rw [ih, hk]
        by_cases hx : x = k
        · rw [if_pos hx, if_pos hx]
        · rw [if_neg hx, if_neg hx, if_neg hx]

end lookup

/-! ### Dictionaries -/

/-- Sets the value of a key. -/
def insert (d : Dictionary κ ν) (k : κ) (v : ν) : Dictionary κ ν :=
  ⟨setEntry k v d.entries, nodup_setEntry d.nodup⟩

/-- Removes a key. -/
def erase (d : Dictionary κ ν) (k : κ) : Dictionary κ ν where
  entries := d.entries.filter fun e => e.1 ≠ k
  nodup := (List.filter_sublist.map Prod.fst).nodup d.nodup

/-- Sets the keys of `e` on top of those of `d`. -/
def merge (d e : Dictionary κ ν) : Dictionary κ ν :=
  e.entries.foldl (fun d entry => d.insert entry.1 entry.2) d

/-- The dictionary of a list of entries, in which a later entry of a key wins. -/
def ofList (l : List (κ × ν)) : Dictionary κ ν :=
  l.foldl (fun d entry => d.insert entry.1 entry.2) empty

/-- Whether there are no entries. -/
def isEmpty (d : Dictionary κ ν) : Bool := d.entries.isEmpty

end Dictionary

end DatasetSearch
