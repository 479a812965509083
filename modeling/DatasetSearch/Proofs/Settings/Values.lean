import DatasetSearch.Proofs.Outcome
import DatasetSearch.Settings.Load
import Mathlib.Tactic.Common

/-! # The values of settings

Each setting has a type and a range, which say what a datum that is given for it means
(`Setting.Means`), and most have a default.  `Settings.ofLayer` first makes sure, setting by
setting, that whatever a layer gives means something, and only then looks for what is missing
(`Settings.ofLayer_eq`).  So a layer gives settings exactly if each of them is by itself what the
layer gives it, or its default if it gives nothing (`Settings.ofLayer_eq_ok_iff`); what is given and
means nothing is the error (`Settings.ofLayer_eq_error`). -/

namespace DatasetSearch

namespace Setting

/-- What a setting is. -/
def Value : Setting → Type
  | collectionName | croissantDir | dataDir | indexDir => Text
  | chunkSize | maxResults | port => Nat
  | minScore => Score

/-- The datum is of the type and in the range of the setting, and means the value. -/
def Means : (s : Setting) → Datum → s.Value → Prop
  | collectionName, d, t | croissantDir, d, t | dataDir, d, t | indexDir, d, t => d = .text t
  | chunkSize, d, (n : Nat) | maxResults, d, (n : Nat) => n ≤ Word.greatest ∧ d = .integer n
  | port, d, (n : Nat) => n ≤ Word.greatestShort ∧ d = .integer n
  | minScore, d, x => (∃ n, d = .integer n ∧ x = Score.ofInt n) ∨
      ∃ negative m, d = .real negative m ∧ x = Score.ofDouble negative m

/-- What a setting is if nothing counts for it. -/
def default? : (s : Setting) → Option s.Value
  | croissantDir => some "croissant".toList
  | indexDir => some "lucene".toList
  | port => some (8001 : Nat)
  | maxResults => some (100000 : Nat)
  | minScore => some (Score.ofInt 1)
  | chunkSize => some (1024 : Nat)
  | collectionName | dataDir => none

end Setting

/-- What a setting is in settings. -/
def Settings.get (st : Settings) : (s : Setting) → s.Value
  | .chunkSize => st.chunkSize
  | .collectionName => st.collectionName
  | .croissantDir => st.croissantDir
  | .dataDir => st.dataDir
  | .indexDir => st.indexDir
  | .maxResults => st.maxResults
  | .minScore => st.minScore
  | .port => st.port

namespace Datum

theorem text?_eq_some_iff {d : Datum} {t : Text} : d.text? = some t ↔ d = .text t := by
  cases d with
  | text t' => exact Option.some_inj.trans ⟨congrArg text, text.inj⟩
  | _ => exact iff_of_false nofun nofun

theorem natural?_eq_some_iff {most : Nat} {d : Datum} {n : Nat} :
    d.natural? most = some n ↔ n ≤ most ∧ d = .integer n := by
  cases d with
  | integer m =>
      rw [natural?, integer.injEq]
      split
      · rw [Option.some_inj]
        omega
      · exact iff_of_false nofun (by omega)
  | _ => exact iff_of_false nofun fun h => nomatch h.2

theorem score?_eq_some_iff {d : Datum} {x : Score} :
    d.score? = some x ↔ (∃ n, d = .integer n ∧ x = .ofInt n) ∨
      ∃ negative m, d = .real negative m ∧ x = .ofDouble negative m := by
  cases d with
  | integer n => simp [score?, eq_comm]
  | real negative m => simp [score?, eq_comm]
  | _ => simp [score?]

end Datum

namespace Setting

/-- What a datum means for a setting, as it is read. -/
def read? : (s : Setting) → Datum → Option s.Value
  | collectionName | croissantDir | dataDir | indexDir => Datum.text?
  | chunkSize | maxResults => Datum.natural? Word.greatest
  | port => Datum.natural? Word.greatestShort
  | minScore => Datum.score?

theorem mem_all (s : Setting) : s ∈ all := by
  cases s <;> decide

theorem read?_eq_some_iff {s : Setting} {d : Datum} {v : s.Value} :
    s.read? d = some v ↔ s.Means d v := by
  cases s with
  | collectionName | croissantDir | dataDir | indexDir => exact Datum.text?_eq_some_iff
  | chunkSize | maxResults | port => exact Datum.natural?_eq_some_iff
  | minScore => exact Datum.score?_eq_some_iff

end Setting

namespace Settings

open Except (bind_eq_ok_iff forM_eq_ok_iff exists_of_forM_eq_error)

/-! ### Settings of a layer -/

/-- What a layer gives a setting. -/
def given (l : Layer) (s : Setting) : Option s.Value := (l.get? s).bind s.read?

/-- Makes sure that what a layer gives a setting, if anything, means something. -/
def check (l : Layer) (s : Setting) : Except LoadError Unit :=
  (valueOf l s s.read?).map fun _ => ()

/-- The settings of values, with the defaults of those that have none. -/
def complete (value : (s : Setting) → Option s.Value) : Except LoadError Settings := do
  let dataDir ← needed .dataDir (value .dataDir)
  let collectionName ← needed .collectionName (value .collectionName)
  let base : Settings := { dataDir, collectionName }
  return { base with
    croissantDir := (value .croissantDir).getD base.croissantDir
    indexDir := (value .indexDir).getD base.indexDir
    port := (value .port).getD base.port
    maxResults := (value .maxResults).getD base.maxResults
    minScore := (value .minScore).getD base.minScore
    chunkSize := (value .chunkSize).getD base.chunkSize }

theorem valueOf_bind {α : Type} (l : Layer) (s : Setting)
    (f : Option s.Value → Except LoadError α) :
    (valueOf l s s.read? >>= f) = check l s >>= fun _ => f (given l s) := by
  rw [check, given, valueOf]
  cases l.get? s with
  | none => rfl
  | some d => cases hread : s.read? d <;> simp [hread, Except.map] <;> rfl

/-- A layer is checked setting by setting before anything is made of it. -/
theorem ofLayer_eq (l : Layer) :
    ofLayer l = Setting.all.forM (check l) >>= fun _ => complete (given l) := by
  simp only [Setting.all, List.forM, bind_assoc, pure_bind]
  -- The checks stand in the order of `Setting.all`, which is that in which the values are read.
  refine (valueOf_bind l .chunkSize _).trans (bind_congr fun _ => ?_)
  refine (valueOf_bind l .collectionName _).trans (bind_congr fun _ => ?_)
  refine (valueOf_bind l .croissantDir _).trans (bind_congr fun _ => ?_)
  refine (valueOf_bind l .dataDir _).trans (bind_congr fun _ => ?_)
  refine (valueOf_bind l .indexDir _).trans (bind_congr fun _ => ?_)
  refine (valueOf_bind l .maxResults _).trans (bind_congr fun _ => ?_)
  refine (valueOf_bind l .minScore _).trans (bind_congr fun _ => ?_)
  exact valueOf_bind l .port _

theorem needed_eq_ok_iff {α : Type} {s : Setting} {x : Option α} {a : α} :
    needed s x = .ok a ↔ x = some a := by
  cases x with
  | none => exact iff_of_false nofun nofun
  | some b =>
      exact ⟨fun h => congrArg some (Except.ok.inj h),
        fun h => congrArg Except.ok (Option.some.inj h)⟩

theorem eq_of_get_eq {st st' : Settings} (h : ∀ s, st.get s = st'.get s) : st = st' := by
  cases st
  cases st'
  rw [Settings.mk.injEq]
  exact ⟨h .dataDir, h .collectionName, h .croissantDir, h .indexDir, h .port, h .maxResults,
    h .minScore, h .chunkSize⟩

theorem complete_eq_ok_iff {value : (s : Setting) → Option s.Value} {st : Settings} :
    complete value = .ok st ↔ ∀ s, (value s).or s.default? = some (st.get s) := by
  constructor
  · intro h
    obtain ⟨dataDir, hdataDir, h⟩ := bind_eq_ok_iff.1 h
    obtain ⟨collectionName, hcollectionName, h⟩ := bind_eq_ok_iff.1 h
    cases h
    intro s
    cases s with
    | dataDir => exact Option.or_none.trans (needed_eq_ok_iff.1 hdataDir)
    | collectionName => exact Option.or_none.trans (needed_eq_ok_iff.1 hcollectionName)
    | _ => exact Option.or_some
  · intro h
    have hdataDir : value .dataDir = some st.dataDir := Option.or_none.symm.trans (h .dataDir)
    have hcollectionName : value .collectionName = some st.collectionName :=
      Option.or_none.symm.trans (h .collectionName)
    rw [complete, needed_eq_ok_iff.2 hdataDir, needed_eq_ok_iff.2 hcollectionName]
    refine congrArg Except.ok (eq_of_get_eq fun s => ?_)
    cases s with
    | dataDir | collectionName => rfl
    | _ => exact Option.some.inj (Option.or_some.symm.trans (h _))

theorem check_eq_ok_iff {l : Layer} {s : Setting} :
    check l s = .ok () ↔ ∀ d, l.get? s = some d → ∃ v, s.Means d v := by
  rw [check, valueOf]
  cases l.get? s with
  | none => exact iff_of_true rfl nofun
  | some d =>
      simp only [Option.some.injEq, forall_eq']
      cases hread : s.read? d with
      | some v => exact iff_of_true rfl ⟨v, Setting.read?_eq_some_iff.1 hread⟩
      | none =>
          refine iff_of_false nofun ?_
          rintro ⟨v, hv⟩
          rw [Setting.read?_eq_some_iff.2 hv] at hread
          cases hread

theorem mistyped_of_check {l : Layer} {s : Setting} {err : LoadError}
    (h : check l s = .error err) : err = .mistyped s := by
  rw [check, Except.map_eq_error_iff, valueOf] at h
  split at h
  · cases h
  · split at h
    · cases h
    · exact (Except.error.inj h).symm

/-- A setting of a layer is what the layer gives it, if that means something, or its default. -/
theorem given_or_default {l : Layer} {s : Setting} {v : s.Value} :
    check l s = .ok () ∧ (given l s).or s.default? = some v ↔
      (∃ d, l.get? s = some d ∧ s.Means d v) ∨ l.get? s = none ∧ s.default? = some v := by
  rw [check_eq_ok_iff, given]
  cases l.get? s with
  | none => simp
  | some d =>
      simp only [Option.some.injEq, forall_eq', exists_eq_left', reduceCtorEq, false_and, or_false,
        Option.bind_some, ← Setting.read?_eq_some_iff]
      cases s.read? d with
      | none => simp
      | some v' => simp

theorem ofLayer_eq_ok_iff {l : Layer} {st : Settings} :
    ofLayer l = .ok st ↔ ∀ s, (∃ d, l.get? s = some d ∧ s.Means d (st.get s)) ∨
      l.get? s = none ∧ s.default? = some (st.get s) := by
  have hcheck : Setting.all.forM (check l) = .ok () ↔ ∀ s, check l s = .ok () :=
    forM_eq_ok_iff.trans ⟨fun h s => h s s.mem_all, fun h s _ => h s⟩
  have hbind : ofLayer l = .ok st ↔
      Setting.all.forM (check l) = .ok () ∧ complete (given l) = .ok st := by
    rw [ofLayer_eq, bind_eq_ok_iff]
    exact ⟨fun ⟨⟨⟩, h⟩ => h, fun h => ⟨(), h⟩⟩
  rw [hbind, hcheck, complete_eq_ok_iff, ← forall_and]
  exact forall_congr' fun s => given_or_default

/-- What a layer gives is never passed over, even if it means nothing. -/
theorem ofLayer_eq_error {l : Layer} {s : Setting} (h : check l s ≠ .ok ()) :
    ∃ s', check l s' ≠ .ok () ∧ ofLayer l = .error (.mistyped s') := by
  cases hchecks : Setting.all.forM (check l) with
  | ok u => exact absurd (forM_eq_ok_iff.1 hchecks s s.mem_all) h
  | error err =>
      obtain ⟨s', -, hs'⟩ := exists_of_forM_eq_error hchecks
      cases mistyped_of_check hs'
      refine ⟨s', hs' ▸ nofun, ?_⟩
      rw [ofLayer_eq, hchecks]
      rfl

end Settings

end DatasetSearch
