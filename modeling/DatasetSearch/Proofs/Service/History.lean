import DatasetSearch.Library
import DatasetSearch.Proofs.Index.Build
import DatasetSearch.Service.Basic
import Mathlib

/-! # Where a served index comes from

`History path d log` says that a disk can come about by starting services on an index directory,
rebuilding their indexes with any builders and changing other things in between, where `log` lists
the runs of builders on the way.  Whatever index is in the directory then is what the last of them
left (`History.lastLeaves`), so a service serves what a build left that completed or one
that failed with an index half made (`History.served`).  The second case is real: where the index
directory is made but the sources are missing, any further start takes the empty index for a
finished one (`Service.start_after_missing`). -/

namespace DatasetSearch

/-! ### Rebuilding -/

namespace Builder

/-- Once there is nothing in its place, an index is built. -/
theorem rebuild_of_build {b : Builder} {d cleared built : Disk} {index source : Text}
    {failure : Option BuildError}
    (hclear : d.clear index = (cleared, none))
    (hbuild : b.build cleared index source = (built, failure)) :
    b.rebuild d index source = (built, failure.map .build) := by
  unfold rebuild
  rw [hclear]
  show ((b.build cleared index source).1, (b.build cleared index source).2.map _) = _
  rw [hbuild]

end Builder

section

variable [IndexReader]

namespace Builder

/-- The run of the builder when an index is built anew; none if what is in its place cannot be
removed. -/
def attempt? (b : Builder) (d : Disk) (index source : Text) : Option Attempt :=
  match d.clear index with
  | (_, some _) => none
  | (cleared, none) => some ⟨b, cleared, index, source⟩

/-- Rebuilding fails before the builder runs, or is a run of the builder where there is no index. -/
theorem rebuild_cases (b : Builder) (d : Disk) (index source : Text) :
    (b.attempt? d index source = none ∧
        ∃ d' e, b.rebuild d index source = (d', some (.removal index e)) ∧ d'.RemainsOf d) ∨
      ∃ cleared, b.attempt? d index source = some ⟨b, cleared, index, source⟩ ∧
        b.rebuild d index source =
          ((b.build cleared index source).1, (b.build cleared index source).2.map .build) ∧
        Index.catalog? cleared index = none := by
  unfold attempt? rebuild
  cases hclear : d.clear index with
  | mk cleared failure =>
      cases failure with
      | some e => exact .inl ⟨rfl, cleared, e, rfl, Disk.remainsOf_clear hclear⟩
      | none => exact .inr ⟨cleared, rfl, rfl, Index.catalog?_of_clear hclear⟩

theorem rebuild_of_attempt? {b : Builder} {d : Disk} {index source : Text} {a : Attempt}
    (h : b.attempt? d index source = some a) :
    a.builder = b ∧ a.index = index ∧ a.source = source ∧ Index.catalog? a.disk index = none ∧
      b.rebuild d index source = (a.result.1, a.result.2.map .build) := by
  rcases b.rebuild_cases d index source with ⟨hnone, -⟩ | ⟨cleared, hsome, hrebuild, hcatalog⟩
  · rw [h] at hnone
    cases hnone
  · rw [h] at hsome
    cases hsome
    exact ⟨rfl, rfl, rfl, hcatalog, hrebuild⟩

end Builder

/-- The last build of the log leaves an index of these documents. -/
def Attempt.LastLeaves (log : List Attempt) (c : Catalog) : Prop :=
  ∃ a, log.getLast? = some a ∧ a.Leaves c

/-- If the last build of a log has left the index that is there before it is built anew, that of the
longer log has left the one that is there afterwards. -/
theorem Builder.lastLeaves_of_rebuild {b : Builder} {d : Disk} {index source : Text}
    {log : List Attempt}
    (hlog : ∀ c, Index.catalog? d index = some c → Attempt.LastLeaves log c) {c : Catalog}
    (h : Index.catalog? (b.rebuild d index source).1 index = some c) :
    Attempt.LastLeaves (log ++ (b.attempt? d index source).toList) c := by
  rcases b.rebuild_cases d index source with
    ⟨hattempt, d', e, hrebuild, hremains⟩ | ⟨cleared, hattempt, hrebuild, hnone⟩
  · rw [hrebuild] at h
    rw [hattempt, Option.toList_none, List.append_nil]
    exact hlog c (Index.catalog?_of_remainsOf hremains h)
  · rw [hrebuild] at h
    rw [hattempt, Option.toList_some]
    exact ⟨_, List.getLast?_concat, hnone, h⟩

/-- An index that was rebuilt has the documents of the build that was just made. -/
theorem Builder.completed_of_rebuild {b : Builder} {d d' : Disk} {index source : Text}
    {ix : Index.Opened} (h : b.rebuild d index source = (d', none))
    (hopen : Index.open? d' index = some ix) :
    ∃ a c, b.attempt? d index source = some a ∧ a.Completed c ∧ ix = .ofCatalog c := by
  obtain ⟨c, hc, hix⟩ := Index.exists_catalog?_of_open? hopen
  rcases b.rebuild_cases d index source with
    ⟨-, d'', e, hremoval, -⟩ | ⟨cleared, hattempt, hrun, hnone⟩
  · rw [h] at hremoval
    cases hremoval
  · rw [h] at hrun
    obtain ⟨rfl, hok⟩ := Prod.mk.inj hrun
    exact ⟨_, c, hattempt, .of_leaves (Option.map_eq_none_iff.1 hok.symm) ⟨hnone, hc⟩, hix⟩

/-! ### Starting -/

namespace Service

/-- The runs of the builder when a service is started: at most one, and none where there is an
index. -/
def attempts (s : Settings) (env : Environment) (b : Builder) (d : Disk) : List Attempt :=
  if s.fault?.isSome ∨ d.isFile (Index.metaFile (s.indexPath env)) then []
  else (b.attempt? d (s.indexPath env) (s.croissantPath env)).toList

/-- Opens the index that is on the disk, unless something went wrong before. -/
def finish (s : Settings) (env : Environment) :
    Disk × Option RebuildError → Disk × Except StartError Service
  | (d, some e) => (d, .error (.rebuild e))
  | (d, none) => match Index.open? d (s.indexPath env) with
    | none => (d, .error (.rebuild (.unreadable (s.indexPath env))))
    | some ix => (d, .ok ⟨s, env, some ix⟩)

theorem disk_finish (s : Settings) (env : Environment) (p : Disk × Option RebuildError) :
    (finish s env p).1 = p.1 := by
  obtain ⟨d, failure⟩ := p
  cases failure with
  | some e => rfl
  | none =>
      rw [finish]
      split
      · rfl
      · rfl

theorem finish_eq_ok_iff {s : Settings} {env : Environment} {p : Disk × Option RebuildError}
    {d : Disk} {service : Service} : finish s env p = (d, .ok service) ↔
      p = (d, none) ∧ ∃ ix, Index.open? d (s.indexPath env) = some ix ∧
        service = ⟨s, env, some ix⟩ := by
  obtain ⟨d', failure⟩ := p
  cases failure with
  | some e =>
      refine iff_of_false (fun h => ?_) fun h => ?_
      · cases (Prod.mk.inj h).2
      · cases (Prod.mk.inj h.1).2
  | none =>
      rw [finish]
      constructor
      · intro h
        split at h
        · cases (Prod.mk.inj h).2
        · rename_i ix hopen
          cases h
          exact ⟨rfl, ix, hopen, rfl⟩
      · rintro ⟨h, ix, hopen, rfl⟩
        cases h
        rw [hopen]

variable {s : Settings} {env : Environment} {d : Disk}

theorem start_of_fault (b : Builder) {fault : Settings.Fault} (h : s.fault? = some fault) :
    start s env b d = (d, .error (.invalid fault)) ∧ attempts s env b d = [] := by
  unfold start attempts
  rw [h]
  exact ⟨rfl, rfl⟩

/-- An index that is there is opened without a build. -/
theorem start_of_isFile (b : Builder) (hvalid : s.fault? = none)
    (hfile : d.isFile (Index.metaFile (s.indexPath env)) = true) :
    start s env b d = finish s env (d, none) ∧ attempts s env b d = [] := by
  refine ⟨?_, if_pos (.inr hfile)⟩
  unfold start
  rw [hvalid]
  dsimp only
  rw [if_pos hfile, finish]
  cases Index.open? d (s.indexPath env) <;> rfl

/-- Where there is none, it is built first. -/
theorem start_of_not_isFile (b : Builder) (hvalid : s.fault? = none)
    (hfile : d.isFile (Index.metaFile (s.indexPath env)) = false) :
    start s env b d = finish s env (b.rebuild d (s.indexPath env) (s.croissantPath env)) ∧
      attempts s env b d = (b.attempt? d (s.indexPath env) (s.croissantPath env)).toList := by
  constructor
  · unfold start
    rw [hvalid]
    dsimp only
    rw [hfile, if_neg Bool.false_ne_true]
    obtain ⟨d', failure⟩ := b.rebuild d (s.indexPath env) (s.croissantPath env)
    cases failure with
    | some e => rfl
    | none =>
        rw [finish]
        cases Index.open? d' (s.indexPath env) <;> rfl
  · rw [attempts, hvalid, hfile]
    exact if_neg (not_or.2 ⟨Bool.false_ne_true, Bool.false_ne_true⟩)

/-- Starting fails at once, opens the index that is there, or builds it anew first. -/
theorem start_cases (s : Settings) (env : Environment) (b : Builder) (d : Disk) :
    (∃ fault, s.fault? = some fault ∧ start s env b d = (d, .error (.invalid fault)) ∧
        attempts s env b d = []) ∨
      (s.fault? = none ∧ d.isFile (Index.metaFile (s.indexPath env)) = true ∧
        start s env b d = finish s env (d, none) ∧ attempts s env b d = []) ∨
      (s.fault? = none ∧ d.isFile (Index.metaFile (s.indexPath env)) = false ∧
        start s env b d =
          finish s env (b.rebuild d (s.indexPath env) (s.croissantPath env)) ∧
        attempts s env b d = (b.attempt? d (s.indexPath env) (s.croissantPath env)).toList) := by
  cases hvalid : s.fault? with
  | some fault => exact .inl ⟨fault, rfl, start_of_fault b hvalid⟩
  | none =>
      cases hfile : d.isFile (Index.metaFile (s.indexPath env)) with
      | true => exact .inr (.inl ⟨rfl, rfl, start_of_isFile b hvalid hfile⟩)
      | false => exact .inr (.inr ⟨rfl, rfl, start_of_not_isFile b hvalid hfile⟩)

theorem lastLeaves_of_start {b : Builder} {log : List Attempt}
    (hlog : ∀ c, Index.catalog? d (s.indexPath env) = some c → Attempt.LastLeaves log c)
    {c : Catalog} (h : Index.catalog? (start s env b d).1 (s.indexPath env) = some c) :
    Attempt.LastLeaves (log ++ attempts s env b d) c := by
  rcases start_cases s env b d with
    ⟨fault, -, hstart, hattempts⟩ | ⟨-, -, hstart, hattempts⟩ | ⟨-, -, hstart, hattempts⟩
  · rw [hstart] at h
    rw [hattempts, List.append_nil]
    exact hlog c h
  · rw [hstart, disk_finish] at h
    rw [hattempts, List.append_nil]
    exact hlog c h
  · rw [hstart, disk_finish] at h
    rw [hattempts]
    exact Builder.lastLeaves_of_rebuild hlog h

/-- Where the index directory is made but there are no sources, a start fails and leaves an index
without documents behind.  The next start takes it as it is, without a build. -/
theorem start_after_missing {w : IndexWriter} {a : Attempt} {made : Disk} {place : List Text}
    (hvalid : s.fault? = none) (hfile : d.isFile (Index.metaFile (s.indexPath env)) = false)
    (hattempt : (Builder.indexing w).attempt? d (s.indexPath env) (s.croissantPath env) = some a)
    (hcreate : Index.create w a.disk (s.indexPath env) = (made, .ok place))
    (hsource : made.isDirectory (s.croissantPath env) = false)
    (hsize : Text.utf8Size (Index.metaFile (s.indexPath env)) ≤ Disk.longestPath)
    (b : Builder) :
    start s env (.indexing w) d =
        (made, .error (.rebuild (.build (.sourceMissing (s.croissantPath env))))) ∧
      a.Abandoned .empty ∧ attempts s env b made = [] ∧
      start s env b made = (made, .ok ⟨s, env, some (.ofCatalog .empty)⟩) := by
  have hmade := Index.made_of_create hcreate
  obtain ⟨hbuilder, hindex, hsources, hnone, hrebuild⟩ := Builder.rebuild_of_attempt? hattempt
  have hresult : a.result = (made, some (.sourceMissing (s.croissantPath env))) := by
    rw [Attempt.result, hbuilder, hindex, hsources]
    exact Builder.build_of_missing hcreate hsource
  have hnext := start_of_isFile b hvalid (hmade.isFile hsize)
  refine ⟨?_, ⟨?_, ?_, ?_⟩, hnext.2, ?_⟩
  · rw [(start_of_not_isFile _ hvalid hfile).1, hrebuild, hresult]
    rfl
  · rw [hresult]
    exact nofun
  · rw [hindex]
    exact hnone
  · rw [hresult, hindex]
    exact Index.catalog?_eq_some_iff.2 ⟨place, hmade.locate, hmade.catalog?⟩
  · rw [hnext.1, finish, hmade.open?]

/-! ### Rebuilding a service's index -/

variable (service : Service)

/-- The run of the builder when a service rebuilds its index. -/
def recreateAttempt? (b : Builder) (d : Disk) : Option Attempt :=
  b.attempt? d (service.settings.indexPath service.environment)
    (service.settings.croissantPath service.environment)

theorem recreate_of_rebuild {service : Service} {b : Builder} {d d' : Disk}
    {ix : Index.Opened}
    (h : b.rebuild d (service.settings.indexPath service.environment)
      (service.settings.croissantPath service.environment) = (d', none))
    (hopen : Index.open? d' (service.settings.indexPath service.environment) = some ix) :
    service.recreate b d = (d', { service with index? := some ix }, none) := by
  unfold recreate
  dsimp only
  rw [h, hopen]

/-- Rebuilding an index succeeds if the builder does and the index that is then on the disk can be
opened. -/
theorem recreate_cases (b : Builder) (d : Disk) :
    ∃ d' failure, b.rebuild d (service.settings.indexPath service.environment)
        (service.settings.croissantPath service.environment) = (d', failure) ∧
      ((∃ e, service.recreate b d = (d', { service with index? := none }, some e)) ∨
        ∃ ix, failure = none ∧
          Index.open? d' (service.settings.indexPath service.environment) = some ix ∧
          service.recreate b d = (d', { service with index? := some ix }, none)) := by
  unfold recreate
  dsimp only
  generalize b.rebuild d (service.settings.indexPath service.environment)
    (service.settings.croissantPath service.environment) = p
  obtain ⟨d', failure⟩ := p
  refine ⟨d', failure, rfl, ?_⟩
  cases failure with
  | some e => exact .inl ⟨e, rfl⟩
  | none =>
      dsimp only
      cases Index.open? d' (service.settings.indexPath service.environment) with
      | none => exact .inl ⟨_, rfl⟩
      | some ix => exact .inr ⟨ix, rfl, rfl, rfl⟩

theorem disk_recreate (b : Builder) (d : Disk) : (service.recreate b d).1 =
    (b.rebuild d (service.settings.indexPath service.environment)
      (service.settings.croissantPath service.environment)).1 := by
  obtain ⟨d', failure, hrebuild, hcases⟩ := service.recreate_cases b d
  rw [hrebuild]
  rcases hcases with ⟨e, hrecreate⟩ | ⟨ix, -, -, hrecreate⟩
  · rw [hrecreate]
  · rw [hrecreate]

/-- A rebuilt index has the documents of the build that was just made. -/
theorem completed_of_recreate {service service' : Service} {b : Builder} {d d' : Disk}
    (h : service.recreate b d = (d', service', none)) :
    ∃ a c, service.recreateAttempt? b d = some a ∧ a.Completed c ∧
      service'.index? = some (.ofCatalog c) := by
  obtain ⟨d'', failure, hrebuild, hcases⟩ := service.recreate_cases b d
  rcases hcases with ⟨e, hrecreate⟩ | ⟨ix, rfl, hopen, hrecreate⟩
  · rw [h] at hrecreate
    cases hrecreate
  · rw [h] at hrecreate
    cases hrecreate
    obtain ⟨a, c, hattempt, hcompleted, rfl⟩ := Builder.completed_of_rebuild hrebuild hopen
    exact ⟨a, c, hattempt, hcompleted, rfl⟩

end Service

/-! ### Histories -/

/-- A disk that comes about by starting services on an index directory, rebuilding their indexes and
changing anything but the index in between, and the runs of builders on the way. -/
inductive History (path : Text) : Disk → List Attempt → Prop
  /-- At first there is no index. -/
  | fresh {d : Disk} : Index.catalog? d path = none → History path d []
  /-- Anything may change, but no index is put into the directory from elsewhere. -/
  | change {d d' : Disk} {log : List Attempt} : History path d log →
      (∀ c, Index.catalog? d' path = some c → Index.catalog? d path = some c) →
      History path d' log
  /-- A service is started, or fails to. -/
  | start {d : Disk} {log : List Attempt} (s : Settings) (env : Environment) (b : Builder) :
      s.indexPath env = path → History path d log →
        History path (Service.start s env b d).1 (log ++ Service.attempts s env b d)
  /-- A service rebuilds its index, or fails to. -/
  | recreate {d : Disk} {log : List Attempt} (service : Service) (b : Builder) :
      service.settings.indexPath service.environment = path → History path d log →
        History path (service.recreate b d).1 (log ++ (service.recreateAttempt? b d).toList)

namespace History

variable {path : Text} {d : Disk} {log : List Attempt}

/-- Every index that is ever in the directory is what the last build has left. -/
theorem lastLeaves (h : History path d log) {c : Catalog}
    (hindex : Index.catalog? d path = some c) : Attempt.LastLeaves log c := by
  -- only runs of builders put an index into the directory, and each finds it without one
  induction h generalizing c with
  | fresh hnone =>
      rw [hnone] at hindex
      cases hindex
  | change h hadds ih => exact ih (hadds c hindex)
  | start s env b hpath h ih =>
      subst hpath
      exact Service.lastLeaves_of_start (fun _ => ih) hindex
  | recreate service b hpath h ih =>
      subst hpath
      rw [Service.disk_recreate] at hindex
      exact Builder.lastLeaves_of_rebuild (fun _ => ih) hindex

/-- A service that starts with a build serves the documents of that build, which has completed.  One
that starts without serves what the last build has left, be it that it completed or that it was
abandoned.  A service that has rebuilt its index serves the documents of that build. -/
theorem served (h : History path d log) :
    (∀ s env b d' service, s.indexPath env = path → Service.start s env b d = (d', .ok service) →
      ∃ c, service.index? = some (.ofCatalog c) ∧
        ((∃ a, Service.attempts s env b d = [a] ∧ a.Completed c) ∨
          Service.attempts s env b d = [] ∧
            ∃ a, log.getLast? = some a ∧ (a.Completed c ∨ a.Abandoned c))) ∧
    ∀ (service : Service) b d' service', service.recreate b d = (d', service', none) →
      ∃ a c, service.recreateAttempt? b d = some a ∧ a.Completed c ∧
        service'.index? = some (.ofCatalog c) := by
  refine ⟨fun s env b d' service hpath hstart => ?_,
    fun service b d' service' => Service.completed_of_recreate⟩
  subst hpath
  rcases Service.start_cases s env b d with
    ⟨fault, -, hinvalid, -⟩ | ⟨-, -, hfinish, hattempts⟩ | ⟨-, -, hfinish, hattempts⟩
  · rw [hstart] at hinvalid
    cases hinvalid
  · rw [hstart] at hfinish
    obtain ⟨hdisk, ix, hopen, rfl⟩ := Service.finish_eq_ok_iff.1 hfinish.symm
    cases hdisk
    obtain ⟨c, hindex, rfl⟩ := Index.exists_catalog?_of_open? hopen
    obtain ⟨a, hlast, hleaves⟩ := h.lastLeaves hindex
    exact ⟨c, rfl, .inr ⟨hattempts, a, hlast, hleaves.completed_or_abandoned⟩⟩
  · rw [hstart] at hfinish
    obtain ⟨hrebuild, ix, hopen, rfl⟩ := Service.finish_eq_ok_iff.1 hfinish.symm
    obtain ⟨a, c, hattempt, hcompleted, rfl⟩ := Builder.completed_of_rebuild hrebuild hopen
    rw [hattempts, hattempt]
    exact ⟨c, rfl, .inl ⟨a, rfl, hcompleted⟩⟩

end History

end

namespace History

set_option maxRecDepth 4000 in
/-- An index of one record is built where there is none, can be opened, and is removed again. -/
theorem exists_build_of_record :
    let record : Node := .file (.bytes (Text.toBytes "\x7b\"name\":\"b\"\x7d".toList))
    let d : Disk := { top := [(['s'], .directory [("a.json".toList, record)])] }
    let c : Catalog := ⟨[⟨0, ⟨['b'], [], [], [], [], []⟩⟩], by decide, by decide⟩
    ∃ built, Builder.croissant.build d ['/', 'i'] ['/', 's'] = (built, none) ∧
      built.isFile (Index.metaFile ['/', 'i']) = true ∧
      Index.open? built ['/', 'i'] = some (.ofCatalog c) ∧
      d.clear ['/', 'i'] = (d, none) ∧ built.clear ['/', 'i'] = (d, none) := by
  intro record d c
  have hbuild : Builder.croissant.build d ['/', 'i'] ['/', 's'] =
      ({ top := [(['s'], .directory [("a.json".toList, record)]), (['i'], .directory
        [(".managed.json".toList, .file SmallIndex.listContent),
          ("meta.json".toList, .file (.index c))])] }, none) := by cbv
  refine ⟨_, hbuild, by cbv, ?_, by cbv, by cbv⟩
  exact Index.open?_eq_some_iff.2 ⟨[['i']], by cbv, by cbv, c, rfl, rfl⟩

set_option maxRecDepth 4000 in
/-- A service that was started once on one record is started again and then rebuilds its index. -/
theorem served_of_record :
    let s : Settings := { dataDir := ['/'], collectionName := ['c'], croissantDir := ['/', 's'],
                          indexDir := ['/', 'i'] }
    let record : Node := .file (.bytes (Text.toBytes "\x7b\"name\":\"b\"\x7d".toList))
    let d : Disk := { top := [(['s'], .directory [("a.json".toList, record)])] }
    let c : Catalog := ⟨[⟨0, ⟨['b'], [], [], [], [], []⟩⟩], by decide, by decide⟩
    let log := Service.attempts s {} .croissant d
    let service : Service := ⟨s, {}, some (.ofCatalog c)⟩
    ∃ d', History (s.indexPath {}) d' log ∧ Service.start s {} .croissant d' = (d', .ok service) ∧
      service.recreate .croissant d' = (d', service, none) ∧
      (∃ c', service.index? = some (.ofCatalog c') ∧
        ((∃ a, Service.attempts s {} .croissant d' = [a] ∧ a.Completed c') ∨
          Service.attempts s {} .croissant d' = [] ∧
            ∃ a, log.getLast? = some a ∧ (a.Completed c' ∨ a.Abandoned c'))) ∧
      ∃ a c', service.recreateAttempt? .croissant d' = some a ∧ a.Completed c' ∧
        service.index? = some (.ofCatalog c') := by
  intro s record d c log service
  have hindex : s.indexPath {} = ['/', 'i'] := by cbv
  have hsource : s.croissantPath {} = ['/', 's'] := by cbv
  have hnofile : d.isFile (Index.metaFile ['/', 'i']) = false := by cbv
  obtain ⟨built, hbuild, hfile, hopen, hfresh, hclear⟩ := exists_build_of_record
  have hfirst : Builder.croissant.rebuild d ['/', 'i'] ['/', 's'] = (built, none) :=
    Builder.rebuild_of_build hfresh hbuild
  have hagain : Builder.croissant.rebuild built ['/', 'i'] ['/', 's'] = (built, none) :=
    Builder.rebuild_of_build hclear hbuild
  have hhistory : History (s.indexPath {}) built log := by
    have hstart : (Service.start s {} .croissant d).1 = built := by
      have hvalid : s.fault? = none := rfl
      have hnone : d.isFile (Index.metaFile (s.indexPath {})) = false := hindex ▸ hnofile
      rw [(Service.start_of_not_isFile .croissant hvalid hnone).1, Service.disk_finish, hindex,
        hsource, hfirst]
    rw [← hstart]
    refine .start s {} .croissant rfl (.fresh ?_)
    rw [hindex]
    exact Index.catalog?_of_clear hfresh
  have hstart : Service.start s {} .croissant built = (built, .ok service) := by
    have hvalid : s.fault? = none := rfl
    rw [← hindex] at hfile hopen
    rw [(Service.start_of_isFile .croissant hvalid hfile).1, Service.finish, hopen]
  have hrecreate : service.recreate .croissant built = (built, service, none) := by
    have hsame : Builder.croissant.rebuild built (s.indexPath {}) (s.croissantPath {}) =
        (built, none) := by rw [hindex, hsource, hagain]
    rw [← hindex] at hopen
    exact Service.recreate_of_rebuild hsame hopen
  obtain ⟨hserved, hrebuilt⟩ := hhistory.served
  exact ⟨built, hhistory, hstart, hrecreate, hserved s {} .croissant built service rfl hstart,
    hrebuilt service .croissant built service hrecreate⟩

set_option maxRecDepth 4000 in
/-- The sources are missing, the first start fails, and the second one serves an index that no build
has completed. -/
theorem start_serves_abandoned :
    let s : Settings :=
      { dataDir := ['/'], collectionName := ['c'], croissantDir := ['s'], indexDir := ['i'] }
    let first := Service.start s {} .croissant {}
    let second := Service.start s {} .croissant first.1
    let log := Service.attempts s {} .croissant {}
    History (s.indexPath {}) first.1 log ∧
      first.2 = .error (.rebuild (.build (.sourceMissing ['/', 'c', '/', 's']))) ∧
      second.2 = .ok ⟨s, {}, some (.ofCatalog .empty)⟩ ∧
      ∀ a ∈ log ++ Service.attempts s {} .croissant first.1, ∀ c, ¬ a.Completed c := by
  intro s first second log
  have hindex : s.indexPath {} = ['/', 'c', '/', 'i'] := by cbv
  have hsource : s.croissantPath {} = ['/', 'c', '/', 's'] := by cbv
  have hclear : Disk.clear {} ['/', 'c', '/', 'i'] = ({}, none) := by cbv
  have hvalid : s.fault? = none := rfl
  have hnofile : Disk.isFile {} (Index.metaFile (s.indexPath {})) = false := by
    rw [hindex]
    cbv
  have hattempt : Builder.croissant.attempt? {} (s.indexPath {}) (s.croissantPath {}) =
      some ⟨.croissant, {}, s.indexPath {}, s.croissantPath {}⟩ := by
    rw [Builder.attempt?, hindex, hclear]
  obtain ⟨made, place, hcreate, hmissing⟩ : ∃ made place,
      Index.create SmallIndex.writer {} (s.indexPath {}) = (made, .ok place) ∧
      made.isDirectory (s.croissantPath {}) = false := by
    rw [hindex, hsource]
    have hcreate : Index.create SmallIndex.writer {} ['/', 'c', '/', 'i'] =
        ({ top := [(['c'], .directory [(['i'], .directory
          [(".managed.json".toList, .file SmallIndex.listContent),
            ("meta.json".toList, .file (.index .empty))])])] }, .ok [['c'], ['i']]) := by cbv
    exact ⟨_, _, hcreate, by cbv⟩
  obtain ⟨hfirst, habandoned, hnone, hsecond⟩ := Service.start_after_missing hvalid hnofile hattempt
    hcreate hmissing (by rw [hindex]; decide) .croissant
  have hmade : first.1 = made := congrArg Prod.fst hfirst
  have hlog : log = [⟨.croissant, {}, s.indexPath {}, s.croissantPath {}⟩] := by
    show Service.attempts s {} .croissant {} = _
    rw [(Service.start_of_not_isFile .croissant hvalid hnofile).2, hattempt]
    rfl
  refine ⟨.start s {} .croissant rfl (.fresh ?_), ?_, ?_, ?_⟩
  · rw [hindex]
    exact Index.catalog?_of_clear hclear
  · rw [← hsource]
    exact congrArg Prod.snd hfirst
  · show (Service.start s {} .croissant first.1).2 = _
    rw [hmade, hsecond]
  · intro a ha c hcompleted
    rw [hmade, hnone, List.append_nil, hlog, List.mem_singleton] at ha
    rw [ha] at hcompleted
    exact habandoned.fails hcompleted.succeeds

end History

end DatasetSearch
