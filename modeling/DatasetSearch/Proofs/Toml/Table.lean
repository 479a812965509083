import DatasetSearch.Proofs.Dictionary
import DatasetSearch.Toml
import Mathlib.Data.List.Nodup

/-! # The keys of a document

A line of a document gives a key that is new to its table, or changes what stands under a key that
is there.  So no change makes a key of the outermost table occur twice (`nodup_change`), and what a
document is read to has every key once (`nodup_keys_of_parse?`, by induction on the lines). -/

namespace DatasetSearch.Toml

/-- The keys of a table, in order. -/
abbrev keysOf (es : Entries) : List Text := es.map Prod.fst

section change
variable {es es' : Entries} {key : Text} {item : Item}

theorem nodup_append_of_lookup (hkey : es.lookup key = none) (h : (keysOf es).Nodup) :
    (keysOf (es ++ [(key, item)])).Nodup := by
  rw [keysOf, List.map_append, List.map_singleton, List.nodup_append]
  refine ⟨h, List.nodup_singleton key, fun k hk k' hk' heq => ?_⟩
  have hnew : k = key := heq.trans (List.mem_singleton.1 hk')
  exact (Dictionary.lookup_eq_none_iff es key).1 hkey (hnew ▸ hk)

/-- A change of a table keeps its keys apart if it does so where the path is at its end: on the way
there one key is added, or set again. -/
theorem nodup_change {dotted : Bool} {f : Origin → Entries → Option Entries} {path : List Text}
    {origin : Origin}
    (hf : ∀ origin es es', f origin es = some es' → (keysOf es).Nodup → (keysOf es').Nodup)
    (h : change dotted f path origin es = some es') (hes : (keysOf es).Nodup) :
    (keysOf es').Nodup := by
  cases path with
  | nil => exact hf origin es es' h hes
  | cons k ks =>
      -- The rest of the path changes what stands under `k`, not the keys here.
      rw [change] at h
      cases hlookup : es.lookup k with
      | none =>
          rw [hlookup] at h
          obtain ⟨inside, -, hes'⟩ := Option.bind_eq_some_iff.1 h
          cases hes'
          exact nodup_append_of_lookup hlookup hes
      | some i =>
          rw [hlookup] at h
          cases i with
          | datum d => cases h
          | table origin' inside =>
              dsimp only at h
              split at h
              · cases h
              · obtain ⟨inside', -, hes'⟩ := Option.bind_eq_some_iff.1 h
                cases hes'
                exact Dictionary.nodup_setEntry hes
          | tables elements =>
              obtain ⟨last, -, h⟩ := Option.bind_eq_some_iff.1 h
              obtain ⟨last', -, hes'⟩ := Option.bind_eq_some_iff.1 h
              cases hes'
              exact Dictionary.nodup_setEntry hes

theorem nodup_addKey {d : Datum} (h : addKey key d es = some es') (hes : (keysOf es).Nodup) :
    (keysOf es').Nodup := by
  rw [addKey] at h
  split at h
  · cases h
  · rename_i hnew
    cases h
    exact nodup_append_of_lookup (Option.not_isSome_iff_eq_none.1 hnew) hes

theorem nodup_assign {path : List Text} {d : Datum} (h : assign path key d es = some es')
    (hes : (keysOf es).Nodup) : (keysOf es').Nodup := by
  refine nodup_change (fun origin es es' h => ?_) h hes
  split at h
  · cases h
  · exact nodup_addKey h

theorem nodup_openTable {path : List Text} (h : openTable path key es = some es')
    (hes : (keysOf es).Nodup) : (keysOf es').Nodup := by
  refine nodup_change (fun origin es es' h hes => ?_) h hes
  split at h
  · rename_i hlookup
    cases h
    exact nodup_append_of_lookup hlookup hes
  · cases h
    exact Dictionary.nodup_setEntry hes
  · cases h

theorem nodup_openElement {path : List Text} (h : openElement path key es = some es')
    (hes : (keysOf es).Nodup) : (keysOf es').Nodup := by
  refine nodup_change (fun origin es es' h hes => ?_) h hes
  split at h
  · rename_i hlookup
    cases h
    exact nodup_append_of_lookup hlookup hes
  · cases h
    exact Dictionary.nodup_setEntry hes
  · cases h

end change

/-! ### Lines -/

section lines
variable {path path' : List Text} {es es' : Entries} {s rest : Text}

theorem nodup_readEntry (h : readEntry path es s = some (es', rest)) (hes : (keysOf es).Nodup) :
    (keysOf es').Nodup := by
  obtain ⟨⟨dotted, key, rest₁⟩, -, h⟩ := Option.bind_eq_some_iff.1 h
  obtain ⟨rest₂, -, h⟩ := Option.bind_eq_some_iff.1 h
  obtain ⟨⟨d, rest₃⟩, -, h⟩ := Option.bind_eq_some_iff.1 h
  obtain ⟨rest₄, -, h⟩ := Option.bind_eq_some_iff.1 h
  obtain ⟨es₁, hchange, h⟩ := Option.bind_eq_some_iff.1 h
  cases h
  exact nodup_change (fun _ _ _ => nodup_assign) hchange hes

theorem nodup_readHeader (h : readHeader es s = some (path', es', rest))
    (hes : (keysOf es).Nodup) : (keysOf es').Nodup := by
  obtain ⟨⟨path, key, rest₁⟩, -, h⟩ := Option.bind_eq_some_iff.1 h
  obtain ⟨rest₂, -, h⟩ := Option.bind_eq_some_iff.1 h
  obtain ⟨rest₃, -, h⟩ := Option.bind_eq_some_iff.1 h
  obtain ⟨es₁, hopen, h⟩ := Option.bind_eq_some_iff.1 h
  cases h
  exact nodup_openTable hopen hes

theorem nodup_readElementHeader (h : readElementHeader es s = some (path', es', rest))
    (hes : (keysOf es).Nodup) : (keysOf es').Nodup := by
  obtain ⟨⟨path, key, rest₁⟩, -, h⟩ := Option.bind_eq_some_iff.1 h
  obtain ⟨rest₂, -, h⟩ := Option.bind_eq_some_iff.1 h
  obtain ⟨rest₃, -, h⟩ := Option.bind_eq_some_iff.1 h
  obtain ⟨es₁, hopen, h⟩ := Option.bind_eq_some_iff.1 h
  cases h
  exact nodup_openElement hopen hes

theorem nodup_readDocument {fuel : Nat} (h : readDocument fuel path es s = some es')
    (hes : (keysOf es).Nodup) : (keysOf es').Nodup := by
  induction fuel generalizing path es s with
  | zero => cases h
  | succ fuel ih =>
      rw [readDocument] at h
      split at h
      · cases h
        exact hes
      · obtain ⟨⟨path₁, es₁, rest⟩, hline, h⟩ := Option.bind_eq_some_iff.1 h
        exact ih h (nodup_readElementHeader hline hes)
      · obtain ⟨⟨path₁, es₁, rest⟩, hline, h⟩ := Option.bind_eq_some_iff.1 h
        exact ih h (nodup_readHeader hline hes)
      · obtain ⟨⟨es₁, rest⟩, hline, h⟩ := Option.bind_eq_some_iff.1 h
        exact ih h (nodup_readEntry hline hes)

end lines

theorem map_fst_entriesToData (es : Entries) : (entriesToData es).map Prod.fst = keysOf es := by
  induction es with
  | nil => rw [entriesToData]; rfl
  | cons e es ih =>
      obtain ⟨k, i⟩ := e
      rw [entriesToData, List.map_cons, ih]
      rfl

/-- What a document is read to has every key once. -/
theorem nodup_keys_of_parse? {s : Text} {es : List (Text × Datum)} (h : parse? s = some es) :
    (es.map Prod.fst).Nodup := by
  obtain ⟨es', hread, rfl⟩ := Option.map_eq_some_iff.1 h
  rw [map_fst_entriesToData]
  exact nodup_readDocument hread List.nodup_nil

end DatasetSearch.Toml
