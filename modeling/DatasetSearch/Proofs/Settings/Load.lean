import DatasetSearch.Proofs.Settings.Layer
import DatasetSearch.Proofs.Settings.Values
import DatasetSearch.Proofs.Toml.Table
import DatasetSearch.Settings.Load
import Mathlib

/-! # The settings of a process

A setting is what the datum that counts for it means, or its default if nothing counts for it
(`Setting.Decides`); it has nothing to do with the other settings.  A process has settings exactly
if all of them can be decided so and no fault is found in them, and what counts is never passed over
(`Settings.load_by_layers`). -/

namespace DatasetSearch

/-! ### Settings of a file and an environment -/

/-- What a setting is decided to be by a file and an environment: what the datum that counts for it
means, or its default if nothing counts for it. -/
inductive Setting.Decides (file : List (Text × Datum)) (env : Environment) (s : Setting) :
    s.Value → Prop
  | counts {d : Datum} {v : s.Value} : Layer.Counts file env s d → s.Means d v →
      Decides file env s v
  | default {v : s.Value} : (∀ d, ¬ Layer.Counts file env s d) → s.default? = some v →
      Decides file env s v

namespace Settings

/-- The settings file that is found from a directory holds the entries; none if there is no file. -/
def HasFile (d : Disk) (directory : Text) (file : List (Text × Datum)) : Prop :=
  match d.findUpward? fileName directory with
  | some c => readFile c = .ok file
  | none => file = []

theorem nodup_keys_of_hasFile {d : Disk} {directory : Text} {file : List (Text × Datum)}
    (h : HasFile d directory file) : (file.map Prod.fst).Nodup := by
  rw [HasFile] at h
  split at h
  · rename_i c _
    cases c with
    | index documents => cases h
    | link target => cases h
    | bytes bs =>
        rw [readFile] at h
        split at h
        · rename_i es hes
          cases h
          obtain ⟨t, -, hparse⟩ := Option.bind_eq_some_iff.1 hes
          exact Toml.nodup_keys_of_parse? hparse
        · cases h
  · subst h
    exact List.nodup_nil

theorem load_eq_ofSources {d : Disk} {directory : Text} {file : List (Text × Datum)}
    (h : HasFile d directory file) (env : Environment) :
    load d directory env = ofSources file env := by
  rw [HasFile] at h
  rw [load]
  cases hfind : d.findUpward? fileName directory with
  | none =>
      rw [hfind] at h
      subst h
      rfl
  | some c =>
      rw [hfind] at h
      show (readFile c >>= _) = _
      rw [h]
      rfl

theorem ofSources_eq_ok_iff {file : List (Text × Datum)} {env : Environment} {st : Settings} :
    ofSources file env = .ok st ↔ ∃ decided, ofLayer (.ofSources file env) = .ok decided ∧
      st = { decided with dataDir := Path.expand env decided.dataDir } ∧ st.fault? = none := by
  rw [ofSources, Except.bind_eq_ok_iff]
  refine exists_congr fun decided => and_congr_right fun _ => ?_
  dsimp only
  split
  · rename_i f hf
    refine iff_of_false nofun ?_
    rintro ⟨rfl, hvalid⟩
    rw [hf] at hvalid
    cases hvalid
  · rename_i hvalid
    constructor
    · intro h
      cases h
      exact ⟨rfl, hvalid⟩
    · rintro ⟨rfl, -⟩
      rfl

/-- Settings by their values. -/
def ofValues (value : (s : Setting) → s.Value) : Settings where
  dataDir := value .dataDir
  collectionName := value .collectionName
  croissantDir := value .croissantDir
  indexDir := value .indexDir
  port := value .port
  maxResults := value .maxResults
  minScore := value .minScore
  chunkSize := value .chunkSize

theorem get_ofValues (value : (s : Setting) → s.Value) (s : Setting) :
    (ofValues value).get s = value s := by
  cases s <;> rfl

section decides
variable {file : List (Text × Datum)} {env : Environment}
  (hfile : (file.map Prod.fst).Nodup) (henv : env.NamesApart)

include hfile henv

theorem decides_iff {s : Setting} {v : s.Value} :
    s.Decides file env v ↔
      check (.ofSources file env) s = .ok () ∧
        (given (.ofSources file env) s).or s.default? = some v := by
  have hcounts (d : Datum) := Layer.counts_iff hfile henv (s := s) (d := d)
  rw [given_or_default]
  constructor
  · rintro (⟨hd, hmeans⟩ | ⟨hnone, hdefault⟩)
    · exact .inl ⟨_, (hcounts _).1 hd, hmeans⟩
    · refine .inr ⟨Option.eq_none_iff_forall_ne_some.2 fun d hd => ?_, hdefault⟩
      exact hnone d ((hcounts d).2 hd)
  · rintro (⟨d, hd, hmeans⟩ | ⟨hnone, hdefault⟩)
    · exact .counts ((hcounts d).2 hd) hmeans
    · refine .default (fun d hd => ?_) hdefault
      rw [(hcounts d).1 hd] at hnone
      cases hnone

theorem ofLayer_eq_ok_iff_decides {st : Settings} :
    ofLayer (.ofSources file env) = .ok st ↔ ∀ s : Setting, s.Decides file env (st.get s) := by
  rw [ofLayer_eq_ok_iff]
  exact forall_congr' fun s => given_or_default.symm.trans (decides_iff hfile henv).symm

theorem decides_unique {s : Setting} {v v' : s.Value} (h : s.Decides file env v)
    (h' : s.Decides file env v') : v = v' :=
  Option.some.inj (((decides_iff hfile henv).1 h).2.symm.trans ((decides_iff hfile henv).1 h').2)

theorem check_ne_ok_iff {s : Setting} :
    check (.ofSources file env) s ≠ .ok () ↔
      ∃ x, Layer.Counts file env s x ∧ ∀ v, ¬ s.Means x v := by
  rw [Ne, check_eq_ok_iff]
  simp only [Layer.counts_iff hfile henv, not_forall, not_exists, exists_prop]

/-- All settings can be decided if what counts means something and nothing is missing. -/
theorem exists_decided_iff :
    (∃ decided : Settings, ∀ s : Setting, s.Decides file env (decided.get s)) ↔
      (∀ s x, Layer.Counts file env s x → ∃ v, s.Means x v) ∧
        (∃ x, Layer.Counts file env .dataDir x) ∧
        ∃ x, Layer.Counts file env .collectionName x := by
  constructor
  · rintro ⟨decided, hdecided⟩
    refine ⟨fun s x hx => ?_, ?_, ?_⟩
    · by_contra hmeans
      have hbad := (check_ne_ok_iff hfile henv).2 ⟨x, hx, fun v hv => hmeans ⟨v, hv⟩⟩
      exact hbad ((decides_iff hfile henv).1 (hdecided s)).1
    · cases hdecided .dataDir with
      | counts hx _ => exact ⟨_, hx⟩
      | default _ hdefault => cases hdefault
    · cases hdecided .collectionName with
      | counts hx _ => exact ⟨_, hx⟩
      | default _ hdefault => cases hdefault
  · rintro ⟨hmeans, hdataDir, hcollectionName⟩
    have hvalue (s : Setting) : ∃ v, s.Decides file env v := by
      by_cases hx : ∃ x, Layer.Counts file env s x
      · obtain ⟨x, hx⟩ := hx
        obtain ⟨v, hv⟩ := hmeans s x hx
        exact ⟨v, .counts hx hv⟩
      · have hnone (x : Datum) (h : Layer.Counts file env s x) : False := hx ⟨x, h⟩
        cases s with
        | dataDir => exact absurd hdataDir hx
        | collectionName => exact absurd hcollectionName hx
        | _ => exact ⟨_, .default hnone rfl⟩
    choose value hvalue using hvalue
    exact ⟨ofValues value, fun s => get_ofValues value s ▸ hvalue s⟩

theorem ofSources_eq_error {s : Setting} {x : Datum} (hx : Layer.Counts file env s x)
    (hmeans : ∀ v, ¬ s.Means x v) :
    ∃ s' x', Layer.Counts file env s' x' ∧ (∀ v, ¬ s'.Means x' v) ∧
      ofSources file env = .error (.mistyped s') := by
  obtain ⟨s', hbad, herr⟩ := ofLayer_eq_error ((check_ne_ok_iff hfile henv).2 ⟨x, hx, hmeans⟩)
  obtain ⟨x', hx', hmeans'⟩ := (check_ne_ok_iff hfile henv).1 hbad
  refine ⟨s', x', hx', hmeans', ?_⟩
  rw [ofSources, herr]
  rfl

end decides

/-- Each setting is decided by itself: it is what the variable with the mark writes, or else the one
without a mark, or else the file, or else its default; only the data directory is expanded
afterwards.  There are settings exactly if whatever counts is of the type and in the range of its
setting, something counts for the data directory and for the name of the collection, and no fault is
found in what is decided.  What counts and means nothing for its setting is an error of a setting of
which this is so: neither a layer below nor the default stands in for it. -/
theorem load_by_layers {d : Disk} {directory : Text} {env : Environment}
    {file : List (Text × Datum)} (hfile : HasFile d directory file) (henv : env.NamesApart) :
    (∀ st, load d directory env = .ok st ↔
      ∃ decided : Settings, (∀ s : Setting, s.Decides file env (decided.get s)) ∧
        st = { decided with dataDir := Path.expand env decided.dataDir } ∧ st.fault? = none) ∧
    ((∃ st, load d directory env = .ok st) ↔
      (∀ s x, Layer.Counts file env s x → ∃ v, s.Means x v) ∧
        (∃ x, Layer.Counts file env .dataDir x) ∧
        (∃ x, Layer.Counts file env .collectionName x) ∧
        ∀ decided : Settings, (∀ s : Setting, s.Decides file env (decided.get s)) →
          { decided with dataDir := Path.expand env decided.dataDir : Settings }.fault? = none) ∧
    ∀ s x, Layer.Counts file env s x → (∀ v, ¬ s.Means x v) →
      ∃ s' x', Layer.Counts file env s' x' ∧ (∀ v, ¬ s'.Means x' v) ∧
        load d directory env = .error (.mistyped s') := by
  have hkeys := nodup_keys_of_hasFile hfile
  have hload (st : Settings) : load d directory env = .ok st ↔
      ∃ decided : Settings, (∀ s : Setting, s.Decides file env (decided.get s)) ∧
        st = { decided with dataDir := Path.expand env decided.dataDir } ∧ st.fault? = none := by
    rw [load_eq_ofSources hfile, ofSources_eq_ok_iff]
    simp only [ofLayer_eq_ok_iff_decides hkeys henv]
  refine ⟨hload, ?_, fun s x hx hmeans => ?_⟩
  · simp only [hload]
    constructor
    · rintro ⟨st, decided, hdecided, rfl, hvalid⟩
      obtain ⟨hmeans, hdataDir, hcollectionName⟩ :=
        (exists_decided_iff hkeys henv).1 ⟨decided, hdecided⟩
      refine ⟨hmeans, hdataDir, hcollectionName, fun decided' hdecided' => ?_⟩
      -- There is only one way to decide, so the settings without fault are these.
      have hsame : decided' = decided :=
        eq_of_get_eq fun s => decides_unique hkeys henv (hdecided' s) (hdecided s)
      rw [hsame]
      exact hvalid
    · rintro ⟨hmeans, hdataDir, hcollectionName, hvalid⟩
      obtain ⟨decided, hdecided⟩ :=
        (exists_decided_iff hkeys henv).2 ⟨hmeans, hdataDir, hcollectionName⟩
      exact ⟨_, decided, hdecided, rfl, hvalid decided hdecided⟩
  · rw [load_eq_ofSources hfile]
    exact ofSources_eq_error hkeys henv hx hmeans

set_option maxRecDepth 4000 in
/-- The port of the file gives way to that of the variable with the mark. -/
theorem load_by_layers_of_marked_port :
    let content := Text.toBytes "port=9\ndata_dir='/d'".toList
    let d : Disk := { top := [(fileName, .file (.bytes content))] }
    let file := [("port".toList, .integer 9), ("data_dir".toList, .text "/d".toList)]
    let env : Environment :=
      { entries := [("LUCENE_PORT".toList, "80".toList), ("Collection_Name".toList, ['c'])] }
    HasFile d ['/'] file ∧ env.NamesApart ∧ load d ['/'] env =
      .ok { dataDir := "/d".toList, collectionName := ['c'], port := 80 } := by
  intro content d file env
  have hfile : HasFile d ['/'] file := by
    have hfind : d.findUpward? fileName ['/'] = some (.bytes content) := by cbv
    have hread : readFile (.bytes (Text.toBytes "port=9\ndata_dir='/d'".toList)) =
        .ok [("port".toList, .integer 9), ("data_dir".toList, .text "/d".toList)] := by cbv
    rw [HasFile, hfind]
    exact hread
  have henv : env.NamesApart := by
    have hport : Layer.fold "LUCENE_PORT".toList = "lucene_port".toList := by cbv
    have hname : Layer.fold "Collection_Name".toList = "collection_name".toList := by cbv
    refine ⟨by decide, List.pairwise_pair.2 fun s h => ?_, List.pairwise_pair.2 fun s _ h => ?_⟩
    · have hkey := hport.symm.trans h.2
      cases s <;> exact absurd hkey (by decide)
    · obtain ⟨rest, hrest, -⟩ := h
      exact absurd (List.cons.inj (hname.symm.trans hrest)).1 (by decide)
  have hexpand : Path.expand env "/d".toList = "/d".toList := by cbv
  have hlayer : ofLayer (.ofSources file env) =
      .ok { dataDir := "/d".toList, collectionName := ['c'], port := 80 } := rfl
  have hdecided := (ofLayer_eq_ok_iff_decides (nodup_keys_of_hasFile hfile) henv).1 hlayer
  refine ⟨hfile, henv, ((load_by_layers hfile henv).1 _).2 ⟨_, hdecided, ?_, rfl⟩⟩
  rw [hexpand]

end Settings

end DatasetSearch
