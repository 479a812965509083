import DatasetSearch.Proofs.Disk.Confinement
import DatasetSearch.Proofs.Service.History

/-! # What a service does to its sources

The builder that indexes descriptions touches no file outside of its index directory
(`Builder.isConfined_indexing`), as long as the way there goes over no link in it.  With such a
builder neither does a service that is started or that rebuilds its index
(`Builder.sameOutside_rebuild`), so sources that lie apart from the index stay as they are.  Nothing
keeps the settings from putting the sources inside, though: where the index directory is that of the
sources or one around it, building the index anew removes them first
(`Service.sources_of_start_and_recreate`). -/

namespace DatasetSearch

open Disk (SameOutside LeadsTo EndsAt AddsDirectories)

/-! ### Builders -/

/-- The builder touches no file outside of the index directory that it is given a path to. -/
def Builder.IsConfined (b : Builder) : Prop :=
  ∀ (d : Disk) (index source : Text) (root : List Text), d.EndsAt index root →
    SameOutside root d (b.build d index source).1

section

variable [IndexReader]

/-- Making an index directory touches no file outside of it. -/
theorem Index.sameOutside_create (w : IndexWriter) {d : Disk} {path : Text} {root : List Text}
    (h : d.EndsAt path root) :
    SameOutside root d (Index.create w d path).1 ∧
      ∀ place, (Index.create w d path).2 = .ok place → place = root := by
  unfold create
  cases hcleared : d.clear path with
  | mk cleared failure =>
      have hclear := Disk.sameOutside_clear h.leadsTo hcleared
      cases failure with
      | some e => exact ⟨hclear, nofun⟩
      | none =>
          have hremains := Disk.remainsOf_clear hcleared
          have hadds := AddsDirectories.makeDirectories cleared path
          dsimp only
          cases hmade : cleared.makeDirectories path with
          | mk made failure =>
              rw [hmade] at hadds
              have hsame := hclear.trans (hadds.sameOutside root)
              cases failure with
              | some e => exact ⟨hsame, nofun⟩
              | none =>
                  have hhere : made.here = d.here := hadds.here.trans hremains.here
                  have hends : made.EndsAt path root :=
                    h.of_sameOutside hhere hsame fun hlink => hremains.kind? (hadds.file hlink)
                  dsimp only
                  cases hlocate : made.locate path with
                  | error e => exact ⟨hsame, nofun⟩
                  | ok place =>
                      obtain rfl := hends.locate hlocate
                      dsimp only
                      split
                      · split
                        · exact ⟨hsame.trans (.put _ _ made), nofun⟩
                        · exact ⟨hsame.trans (.put _ _ made), fun _ hok => (Except.ok.inj hok).symm⟩
                      · exact ⟨hsame, nofun⟩

namespace Builder

/-- Indexing descriptions touches no file outside of the index directory. -/
theorem isConfined_indexing (w : IndexWriter) : (indexing w).IsConfined := by
  intro d index source root h
  obtain ⟨hsame, hplace⟩ := Index.sameOutside_create w h
  unfold indexing
  dsimp only
  cases hcreate : Index.create w d index with
  | mk made result =>
      rw [hcreate] at hsame hplace
      cases result with
      | error e => exact hsame
      | ok place =>
          obtain rfl := hplace place rfl
          dsimp only
          split
          · exact hsame
          · exact hsame.trans (.put _ _ made)

end Builder

end

/-- Building an index anew touches no file outside of its directory. -/
theorem Builder.sameOutside_rebuild {b : Builder} (hb : b.IsConfined) {d : Disk} {index : Text}
    {root : List Text} (h : d.LeadsTo index root) (source : Text) :
    SameOutside root d (b.rebuild d index source).1 := by
  unfold rebuild
  cases hcleared : d.clear index with
  | mk cleared failure =>
      have hclear := Disk.sameOutside_clear h hcleared
      cases failure with
      | some e => exact hclear
      | none => exact hclear.trans (hb cleared index source root (Disk.endsAt_of_clear h hcleared))

/-- The disk is what the builder makes of what removing the index directory at `root` leaves, or
only that where removing it fails. -/
def Builder.ClearsFirst (b : Builder) (d : Disk) (index source : Text) (root : List Text)
    (d' : Disk) : Prop :=
  ∃ cleared failure, d.removeTree index = (cleared, failure) ∧
    (d' = if failure.isNone then (b.build cleared index source).1 else cleared) ∧
    (failure = none ∨ (∀ p, root <+: p → d.denied p = false) →
      ∀ p c, root <+: p → cleared.at? p ≠ some (.file c))

theorem Builder.clearsFirst_rebuild (b : Builder) {d : Disk} {index : Text} {root : List Text}
    (h : d.LeadsTo index root) (hdirectory : d.isDirectory index = true) (source : Text) :
    b.ClearsFirst d index source root (b.rebuild d index source).1 := by
  have hcontains : d.contains index = true := by
    obtain ⟨n, hn, -⟩ := (Option.any_eq_true _ _).1 hdirectory
    rw [Disk.contains, hn]
    rfl
  have hclear : d.clear index = d.removeTree index := if_pos hcontains
  unfold rebuild
  rw [hclear]
  cases hremove : d.removeTree index with
  | mk cleared failure =>
      refine ⟨cleared, failure, hremove, ?_, ?_⟩
      · cases failure <;> rfl
      · rintro (rfl | hfree) p c hp
        · exact Disk.not_file_of_removeTree h hremove hp
        · have hgone := Disk.not_file_of_not_denied (c := c) h hdirectory hfree hp
          rwa [hremove] at hgone

namespace Service

/-- The file at a place is the same on both disks, and so is that there is none. -/
def SameFileAt (place : List Text) (d d' : Disk) : Prop :=
  ∀ c, d'.at? place = some (.file c) ↔ d.at? place = some (.file c)

/-- Two directories of which neither is in the other have no place in common. -/
theorem not_prefix_of_apart {root other place : List Text} (h : ¬ root <+: other)
    (h' : ¬ other <+: root) (hplace : other <+: place) : ¬ root <+: place := by
  intro hroot
  exact (List.prefix_or_prefix_of_prefix hroot hplace).elim h h'

section

variable [IndexReader] {s : Settings} {env : Environment} {b : Builder} {d : Disk}
  {root : List Text}

theorem sameOutside_start (hroot : d.LeadsTo (s.indexPath env) root) (hb : b.IsConfined) :
    SameOutside root d (start s env b d).1 := by
  rcases start_cases s env b d with
    ⟨fault, -, hstart, -⟩ | ⟨-, -, hstart, -⟩ | ⟨-, -, hstart, -⟩
  · rw [hstart]
    exact .refl _ d
  · rw [hstart, disk_finish]
    exact .refl _ d
  · rw [hstart, disk_finish]
    exact Builder.sameOutside_rebuild hb hroot _

theorem sameOutside_recreate (service : Service)
    (hroot : d.LeadsTo (service.settings.indexPath service.environment) root)
    (hb : b.IsConfined) : SameOutside root d (service.recreate b d).1 := by
  rw [disk_recreate]
  exact Builder.sameOutside_rebuild hb hroot _

/-- Starting a service and rebuilding its index leave every file outside the index directory as it
is, so every file of the sources where neither directory is in the other.  Where the sources are in
the index directory, they are removed with it before the index is built anew. -/
theorem sources_of_start_and_recreate (ix? : Option Index.Opened)
    (hroot : d.LeadsTo (s.indexPath env) root) (hb : b.IsConfined) :
    (∀ place, ¬ root <+: place →
      SameFileAt place d (start s env b d).1 ∧
        SameFileAt place d (recreate ⟨s, env, ix?⟩ b d).1) ∧
    (∀ sources, d.locate (s.croissantPath env) = .ok sources →
      ¬ root <+: sources → ¬ sources <+: root →
        ∀ place, sources <+: place →
          SameFileAt place d (start s env b d).1 ∧
            SameFileAt place d (recreate ⟨s, env, ix?⟩ b d).1) ∧
    (d.isDirectory (s.indexPath env) = true →
      b.ClearsFirst d (s.indexPath env) (s.croissantPath env) root
          (recreate ⟨s, env, ix?⟩ b d).1 ∧
        (s.fault? = none → d.isFile (Index.metaFile (s.indexPath env)) = false →
          b.ClearsFirst d (s.indexPath env) (s.croissantPath env) root
            (start s env b d).1)) := by
  have hrecreate : SameOutside root d (recreate ⟨s, env, ix?⟩ b d).1 :=
    sameOutside_recreate ⟨s, env, ix?⟩ hroot hb
  have houtside : ∀ place, ¬ root <+: place →
      SameFileAt place d (start s env b d).1 ∧
        SameFileAt place d (recreate ⟨s, env, ix?⟩ b d).1 := fun place hout =>
    ⟨sameOutside_start hroot hb place hout, hrecreate place hout⟩
  refine ⟨houtside, fun sources _ hindex hsource place hplace => ?_, fun hdirectory => ⟨?_, ?_⟩⟩
  · exact houtside place (not_prefix_of_apart hindex hsource hplace)
  · rw [disk_recreate]
    exact b.clearsFirst_rebuild hroot hdirectory _
  · intro hvalid hnone
    rw [(start_of_not_isFile b hvalid hnone).1, disk_finish]
    exact b.clearsFirst_rebuild hroot hdirectory _

end

set_option maxRecDepth 4000 in
/-- The sources of a service beside its index stay, and those inside are removed. -/
theorem sources_of_start_and_recreate_of_record :
    let record : Node := .file (.bytes [])
    let d : Disk :=
      { top := [(['c'], .directory [(['s'], .directory [("a.json".toList, record)])])] }
    let place : List Text := [['c'], ['s'], "a.json".toList]
    let beside : Settings :=
      { dataDir := ['/'], collectionName := ['c'], croissantDir := ['s'], indexDir := ['i'] }
    let around : Settings := { beside with indexDir := [] }
    d.at? place = some record ∧
      (start beside {} .croissant d).1.at? place = some record ∧
      (recreate ⟨beside, {}, none⟩ .croissant d).1.at? place = some record ∧
      ∃ cleared, d.removeTree (around.indexPath {}) = (cleared, none) ∧
        cleared.at? place ≠ some record ∧
        (recreate ⟨around, {}, none⟩ .croissant d).1 =
          (Builder.croissant.build cleared (around.indexPath {}) (around.croissantPath {})).1 := by
  intro record d place beside around
  have hindex : beside.indexPath {} = "/c/i".toList := by cbv
  have hsource : beside.croissantPath {} = "/c/s".toList := by cbv
  have haround : around.indexPath {} = "/c/".toList := by cbv
  have hbeside : d.LeadsTo (beside.indexPath {}) [['c'], ['i']] := by
    have hplace : d.placeOf "/c/i".toList = [['c'], ['i']] := by cbv
    rw [hindex, ← hplace]
    apply Disk.EndsAt.leadsTo
    apply Disk.endsAt_placeOf
    refine ⟨fun target hlink => ?_, fun target hlink => ?_, fun target hlink => ?_⟩ <;> cases hlink
  have hinside : d.LeadsTo (around.indexPath {}) [['c']] := by
    have hplace : d.placeOf "/c/".toList = [['c']] := by cbv
    rw [haround, ← hplace]
    apply Disk.EndsAt.leadsTo
    apply Disk.endsAt_placeOf
    refine ⟨fun target hlink => ?_, fun target hlink => ?_⟩ <;> cases hlink
  have hsources : d.locate (beside.croissantPath {}) = .ok [['c'], ['s']] := by
    rw [hsource]
    cbv
  have hdirectory : d.isDirectory (around.indexPath {}) = true := by
    rw [haround]
    cbv
  have hremove : ∃ cleared, d.removeTree (around.indexPath {}) = (cleared, none) := by
    rw [haround]
    exact ⟨{}, by cbv⟩
  have hconfined : Builder.croissant.IsConfined :=
    @Builder.isConfined_indexing SmallIndex.reader SmallIndex.writer
  have hrecord : d.at? place = some record := rfl
  obtain ⟨-, hapart, -⟩ := sources_of_start_and_recreate none hbeside hconfined
  obtain ⟨hstart, hrecreate⟩ :=
    hapart [['c'], ['s']] hsources (by decide) (by decide) place (by decide)
  obtain ⟨-, -, hwithin⟩ := sources_of_start_and_recreate none hinside hconfined
  obtain ⟨⟨cleared, failure, hcleared, hresult, hgone⟩, -⟩ := hwithin hdirectory
  obtain ⟨cleared', hcleared'⟩ := hremove
  rw [hcleared] at hcleared'
  obtain ⟨rfl, rfl⟩ := Prod.mk.inj hcleared'
  refine ⟨hrecord, (hstart _).2 hrecord, (hrecreate _).2 hrecord, cleared, hcleared, ?_, hresult⟩
  exact hgone (.inl rfl) place _ (by decide)

set_option maxRecDepth 4000 in
/-- Settings without a fault can name the directory of the sources, one around it or one in it as
the index directory, and a start then removes the sources there. -/
theorem start_removes_sources :
    let record : Node := .file (.bytes [])
    let d : Disk := { top := [(['c'], .directory [(['s'], .directory
      [(['i'], .directory [("a.json".toList, record)])])])] }
    let place : List Text := [['c'], ['s'], ['i'], "a.json".toList]
    let settings (dir : Text) : Settings :=
      { dataDir := ['/'], collectionName := ['c'], croissantDir := ['s'], indexDir := dir }
    (settings ['s']).indexPath {} = (settings ['s']).croissantPath {} ∧
      (settings []).indexPath {} = "/c/".toList ∧ (settings []).croissantPath {} = "/c/s".toList ∧
      ∀ dir ∈ [['s'], [], ['s', '/', 'i']],
        (settings dir).fault? = none ∧ d.placeOf ((settings dir).croissantPath {}) <+: place ∧
          d.at? place = some record ∧
          (start (settings dir) {} .croissant d).1.at? place = none := by
  intro record d place settings
  have hsource (dir : Text) : (settings dir).croissantPath {} = "/c/s".toList := by cbv
  have hsame : (settings ['s']).indexPath {} = "/c/s".toList := by cbv
  have hinside : (settings ['s', '/', 'i']).indexPath {} = "/c/s/i".toList := by cbv
  have haround : (settings []).indexPath {} = "/c/".toList := by cbv
  have hbelow : d.placeOf "/c/s".toList <+: place := by
    have hplace : d.placeOf "/c/s".toList = [['c'], ['s']] := by cbv
    rw [hplace]
    decide
  have hlost {dir : Text} (hnone : d.isFile (Index.metaFile ((settings dir).indexPath {})) = false)
      (hrebuild : (Builder.croissant.rebuild d ((settings dir).indexPath {})
        "/c/s".toList).1.at? place = none) :
      (start (settings dir) {} .croissant d).1.at? place = none := by
    rw [(start_of_not_isFile .croissant rfl hnone).1, disk_finish, hsource]
    exact hrebuild
  refine ⟨hsame.trans (hsource _).symm, haround, hsource _, fun dir hdir => ?_⟩
  refine ⟨rfl, by rw [hsource]; exact hbelow, rfl, ?_⟩
  simp only [List.mem_cons, List.not_mem_nil, or_false] at hdir
  rcases hdir with rfl | rfl | rfl
  · exact hlost (by rw [hsame]; cbv) (by rw [hsame]; cbv)
  · exact hlost (by rw [haround]; cbv) (by rw [haround]; cbv)
  · exact hlost (by rw [hinside]; cbv) (by rw [hinside]; cbv)

end Service

end DatasetSearch
