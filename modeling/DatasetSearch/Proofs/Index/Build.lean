import DatasetSearch.Index.Build
import DatasetSearch.Proofs.Disk.Changes
import DatasetSearch.Proofs.Path

/-! # What a build leaves behind

An `Attempt` is one run of a builder, with all that it is given.  If there is an index afterwards
that was not there before, the attempt leaves it (`Attempt.Leaves`): it completed, or it was
abandoned when the index was already made (`Attempt.Leaves.completed_or_abandoned`).  Of the builder
that indexes descriptions a completed run leaves their documents (`Builder.catalog?_of_indexing`).

No index is found at the end of a path from which a tree was removed
(`Index.catalog?_of_clear`), and what removing leaves of another tree holds no index that was
not there before (`Index.catalog?_of_remainsOf`). -/

namespace DatasetSearch

namespace Disk

variable {d d' : Disk} {place : List Text} {path : Text}

/-- Ways through a directory stay if its directories and links do. -/
theorem Keeps.put {es es' : List (Text × Node)} (hes : d.at? place = some (.directory es))
    (h : KeepsWays es es') : Keeps d (d.put (.directory es') place) := by
  have hkind {p : List Text} {kind : Option Content} (hkind : d.kind? p = some kind)
      (hway : kind = none ∨ ∃ target, kind = some (.link target)) :
      (d.put (.directory es') place).kind? p = some kind := by
    by_cases hp : place <+: p
    · obtain ⟨ks, rfl⟩ := hp
      rw [kind?_append hes, Node.kindUnder?_directory] at hkind
      rw [kind?_append (at?_put_directory hes es'), Node.kindUnder?_directory]
      cases ks with
      | nil => exact hkind
      | cons k ks =>
          rw [Node.kindAt?_cons] at hkind ⊢
          obtain ⟨n, hn, hks⟩ := Option.bind_eq_some_iff.1 hkind
          have hway' : n.isDirectory = true ∨ n.target?.isSome = true := by
            cases n with
            | directory inside => exact .inl rfl
            | file c =>
                rw [Node.kindUnder?_file] at hks
                split at hks
                · cases hks
                  rcases hway with hnone | ⟨target, hlink⟩
                  · cases hnone
                  · cases hlink
                    exact .inr rfl
                · cases hks
          rw [h k n hn hway']
          exact hks
    · exact (Node.kindAt?_put_of_not_prefix _ hp).trans hkind
  exact ⟨fun h => hkind h (.inl rfl), fun h => hkind h (.inr ⟨_, rfl⟩)⟩

/-- A path to a directory leads there on every disk that has the directories and links. -/
theorem locate_of_keeps (h : Keeps d d') (hhere : d'.here = d.here)
    (hlocate : d.locate path = .ok place) (hplace : d.kind? place = some none) :
    d'.locate path = .ok place := by
  obtain ⟨names, hnames, hwalk⟩ := Except.bind_eq_ok_iff.1 hlocate
  refine Except.bind_eq_ok_iff.2 ⟨names, hnames, ?_⟩
  rw [start, hhere]
  exact walk_of_keeps h hwalk hplace (h.directory hplace)

/-- What is in a directory is found through a path to the directory. -/
theorem walk_concat {links : Nat} {start names : List Text} {name : Text}
    (hwalk : d.walk true links start names = .ok place) (hplace : d.kind? place = some none)
    (hsize : ¬ longestName < Text.utf8Size name)
    (hlink : (d.at? (Path.step place name)).bind Node.target? = none) :
    d.walk true links start (names ++ [name]) = .ok (Path.step place name) := by
  fun_induction d.walk true links start names with
  | case1 =>
      cases hwalk
      rw [List.nil_append, walk_cons hplace hsize, hlink]
      exact walk_nil d _ _ _
  | case2 => cases hwalk
  | case3 => cases hwalk
  | case4 => cases hwalk
  | case5 links start name' rest es hes hsize' htarget ih =>
      rw [List.cons_append, walk_cons (kind?_eq_some_none_iff.2 ⟨es, hes⟩) hsize', htarget]
      exact ih hwalk
  | case6 links start name' rest es hes hsize' target htarget hlast =>
      rw [Bool.not_true, Bool.and_false] at hlast
      cases hlast
  | case7 => cases hwalk
  | case8 start name' rest es hes hsize' target htarget hlast links ih =>
      rw [List.cons_append, walk_cons (kind?_eq_some_none_iff.2 ⟨es, hes⟩) hsize', htarget]
      dsimp only
      rw [Bool.not_true, Bool.and_false, if_neg Bool.false_ne_true, ← List.append_assoc]
      exact ih hwalk

theorem contains_of_directory (hlocate : d.locate path = .ok place)
    (hplace : d.kind? place = some none) : d.contains path = true := by
  obtain ⟨es, hes⟩ := kind?_eq_some_none_iff.1 hplace
  rw [contains, node?, hlocate]
  dsimp only
  rw [hes]
  rfl

end Disk

namespace Index

variable [IndexReader] {w : IndexWriter} {d d' d₀ made : Disk} {place : List Text} {path : Text}
  {c : Catalog} {ix : Opened}

theorem catalog?_eq_some_iff : catalog? d path = some c ↔
    ∃ place, d.locate path = .ok place ∧ IndexReader.catalog? d place = some c := by
  unfold catalog?
  cases d.locate path with
  | error e => exact iff_of_false nofun nofun
  | ok place =>
      exact ⟨fun h => ⟨place, rfl, h⟩, fun ⟨place', hplace, h⟩ => by cases hplace; exact h⟩

theorem open?_eq_some_iff : open? d path = some ix ↔ ∃ place, d.locate path = .ok place ∧
    IndexReader.isSound d place = true ∧
    ∃ c, IndexReader.catalog? d place = some c ∧ ix = .ofCatalog c := by
  unfold open?
  cases d.locate path with
  | error e => exact iff_of_false nofun nofun
  | ok place =>
      dsimp only
      constructor
      · intro h
        split at h
        · rename_i hsound
          obtain ⟨c, hc, hix⟩ := Option.map_eq_some_iff.1 h
          exact ⟨place, rfl, hsound, c, hc, hix.symm⟩
        · cases h
      · rintro ⟨place', hplace, hsound, c, hc, rfl⟩
        cases hplace
        rw [if_pos hsound, hc]
        rfl

/-- What is opened is the index that is there. -/
theorem exists_catalog?_of_open? (h : open? d path = some ix) :
    ∃ c, catalog? d path = some c ∧ ix = .ofCatalog c := by
  obtain ⟨place, hlocate, -, c, hc, hix⟩ := open?_eq_some_iff.1 h
  exact ⟨c, catalog?_eq_some_iff.2 ⟨place, hlocate, hc⟩, hix⟩

/-- Taking things away adds no index. -/
theorem catalog?_of_remainsOf (h : d.RemainsOf d₀) (hc : catalog? d path = some c) :
    catalog? d₀ path = some c := by
  obtain ⟨place, hlocate, hc⟩ := catalog?_eq_some_iff.1 hc
  refine catalog?_eq_some_iff.2 ⟨place, ?_, IndexReader.catalog?_of_remainsOf h hc⟩
  exact Disk.locate_of_keeps h.keeps h.here.symm hlocate
    (IndexReader.isDirectory_of_catalog? hc)

theorem catalog?_of_not_contains (h : d.contains path = false) : catalog? d path = none := by
  refine Option.eq_none_iff_forall_ne_some.2 fun c hc => ?_
  obtain ⟨place, hlocate, hc⟩ := catalog?_eq_some_iff.1 hc
  rw [Disk.contains_of_directory hlocate (IndexReader.isDirectory_of_catalog? hc)] at h
  cases h

/-- There is no index where everything was removed. -/
theorem catalog?_of_clear (h : d.clear path = (d', none)) : catalog? d' path = none := by
  unfold Disk.clear at h
  split at h
  · refine Option.eq_none_iff_forall_ne_some.2 fun c hc => ?_
    obtain ⟨place, hlocate, hc⟩ := catalog?_eq_some_iff.1 hc
    exact Disk.not_directory_of_removeTree h hlocate (IndexReader.isDirectory_of_catalog? hc)
  · rename_i hcontains
    cases h
    exact catalog?_of_not_contains (Bool.eq_false_iff.2 hcontains)

/-- A directory that was made anew is one of an index without documents, which can be opened. -/
structure Made (d : Disk) (path : Text) (place : List Text) : Prop where
  locate : d.locate path = .ok place
  catalog? : IndexReader.catalog? d place = some .empty
  isSound : IndexReader.isSound d place = true
  file : ∃ content, d.kind? (place ++ [metaName]) = some (some content) ∧
    ∀ target, content ≠ .link target

theorem made_of_create (h : create w d path = (made, .ok place)) : Made made path place := by
  unfold create at h
  split at h
  · cases h
  · split at h
    · cases h
    · rename_i d₁ hmake
      split at h
      · cases h
      · rename_i place' hlocate
        split at h
        · rename_i es hes
          split at h
          · cases h
          · rename_i es' hcreate
            cases h
            obtain ⟨hcatalog, hsound, content, hlookup, htarget⟩ := w.catalog?_create hes hcreate
            have hkeeps : d₁.Keeps (d₁.put (.directory es') place) :=
              .put hes (w.keepsWays_create hes hcreate)
            refine ⟨?_, hcatalog, hsound, content, ?_, ?_⟩
            · exact Disk.locate_of_keeps hkeeps rfl hlocate
                (Disk.kind?_eq_some_none_iff.2 ⟨es, hes⟩)
            · rw [Disk.kind?_child (Disk.at?_put_directory hes es'), hlookup]
              rfl
            · rintro target rfl
              cases htarget
        · cases h

theorem Made.open? (h : Made d path place) : open? d path = some (.ofCatalog .empty) :=
  open?_eq_some_iff.2 ⟨place, h.locate, h.isSound, .empty, h.catalog?, rfl⟩

/-- A directory that was made is taken for that of an index, if its path is not too long. -/
theorem Made.isFile (h : Made d path place)
    (hsize : Text.utf8Size (metaFile path) ≤ Disk.longestPath) :
    d.isFile (metaFile path) = true := by
  obtain ⟨content, hfile, hlink⟩ := h.file
  have habsolute : Path.isAbsolute metaName = false := by decide
  have hnames : Disk.namesOf (metaFile path) = .ok (Path.names path ++ [metaName]) := by
    obtain ⟨names, hpath, -⟩ := Except.bind_eq_ok_iff.1 h.locate
    have hnul : '\x00' ∉ path := by
      unfold Disk.namesOf at hpath
      split at hpath
      · cases hpath
      · rename_i hnul
        simpa using hnul
    have hnul' : '\x00' ∉ metaFile path := fun hmem =>
      (Path.mem_join_cases hmem).elim hnul (by decide)
    rw [Disk.namesOf, if_neg (by simpa using hnul'), if_neg (Nat.not_lt.2 hsize), metaFile,
      Path.names_join habsolute]
    rfl
  have hstep : Path.step place metaName = place ++ [metaName] := rfl
  have hnolink : (d.at? (Path.step place metaName)).bind Node.target? = none := by
    refine Option.eq_none_iff_forall_ne_some.2 fun target htarget => ?_
    rw [Disk.target?_eq_some_iff, hstep, hfile] at htarget
    cases htarget
    exact hlink target rfl
  have hlocate : d.locate (metaFile path) = .ok (place ++ [metaName]) := by
    refine Except.bind_eq_ok_iff.2 ⟨_, hnames, ?_⟩
    have hstart : d.start (metaFile path) = d.start path := by
      rw [Disk.start, Disk.startFrom, metaFile, Path.isAbsolute_join habsolute]
      rfl
    rw [hstart]
    exact Disk.walk_concat (Disk.locate_eq_ok h.locate)
      (IndexReader.isDirectory_of_catalog? h.catalog?) (by decide) hnolink
  have hslash : Path.endsInSlash (metaFile path) = false :=
    Path.endsInSlash_join habsolute (by decide)
  rw [Disk.isFile, Disk.node?, hlocate]
  dsimp only
  rw [Disk.kind?_eq_some_some_iff.1 hfile, Option.filter_some, hslash]
  rfl

end Index

namespace Builder

variable [IndexReader] {w : IndexWriter} {d d' made : Disk} {index source : Text}
  {place : List Text}

/-- An index of descriptions has the documents that are found below their directory once that of
the index is made. -/
theorem catalog?_of_indexing (h : (indexing w).build d index source = (d', none)) :
    ∃ made place c, Index.create w d index = (made, .ok place) ∧
      Index.catalog? d' index = some c ∧ c.documents = made.documents source := by
  unfold indexing at h
  dsimp only at h
  cases hcreate : Index.create w d index with
  | mk made result =>
      rw [hcreate] at h
      cases result with
      | error e => cases h
      | ok place =>
          have hmade := Index.made_of_create hcreate
          obtain ⟨es, hes⟩ := Disk.kind?_eq_some_none_iff.1
            (IndexReader.isDirectory_of_catalog? hmade.catalog?)
          dsimp only at h
          split at h
          · cases h
          · obtain ⟨rfl, hfailure⟩ := Prod.mk.inj h
            have hcommit : w.commit (made.documents source) made place =
                ((w.commit (made.documents source) made place).1, none) := Prod.ext rfl hfailure
            obtain ⟨c, hc, hdocuments⟩ := w.catalog?_commit hes hmade.catalog? hcommit
            refine ⟨made, place, c, rfl, ?_, hdocuments⟩
            refine Index.catalog?_eq_some_iff.2 ⟨place, ?_, hc⟩
            exact Disk.locate_of_keeps (.put hes (w.keepsWays_commit hes hcommit)) rfl
              hmade.locate (Disk.kind?_eq_some_none_iff.2 ⟨es, hes⟩)

/-- That there are no sources is noticed only once the directory is made. -/
theorem build_of_missing (hcreate : Index.create w d index = (made, .ok place))
    (hsource : made.isDirectory source = false) :
    (indexing w).build d index source = (made, some (.sourceMissing source)) := by
  have hmissing : (!made.isDirectory source) = true := by rw [hsource]; rfl
  unfold indexing
  dsimp only
  rw [hcreate]
  exact if_pos hmissing

end Builder

/-- One run of a builder, with the disk and the paths that it is given. -/
structure Attempt where
  builder : Builder
  disk : Disk
  index : Text
  source : Text

namespace Attempt

variable (a : Attempt)

/-- The disk afterwards and what went wrong. -/
def result : Disk × Option BuildError := a.builder.build a.disk a.index a.source

variable [IndexReader]

/-- The run leaves an index of these documents where there was none. -/
def Leaves (c : Catalog) : Prop :=
  Index.catalog? a.disk a.index = none ∧ Index.catalog? a.result.1 a.index = some c

/-- The build succeeds and leaves an index of these documents.  If it is one of descriptions, they
are the documents that it finds below the sources once it has made the index directory. -/
structure Completed (c : Catalog) : Prop where
  succeeds : a.result.2 = none
  leaves : a.Leaves c
  documents : ∀ w, a.builder = .indexing w → ∃ made place,
    Index.create w a.disk a.index = (made, .ok place) ∧ c.documents = made.documents a.source

/-- The build fails, but leaves an index of these documents. -/
structure Abandoned (c : Catalog) : Prop where
  fails : a.result.2 ≠ none
  leaves : a.Leaves c

variable {a} {c : Catalog}

theorem Completed.of_leaves (hok : a.result.2 = none) (h : a.Leaves c) : a.Completed c := by
  refine ⟨hok, h, fun w hw => ?_⟩
  obtain ⟨builder, d, index, source⟩ := a
  obtain rfl : builder = .indexing w := hw
  have hresult : (Builder.indexing w).build d index source =
      (((Builder.indexing w).build d index source).1, none) := Prod.ext rfl hok
  obtain ⟨made, place, c', hcreate, hc', hdocuments⟩ := Builder.catalog?_of_indexing hresult
  have hc : Index.catalog? ((Builder.indexing w).build d index source).1 index = some c := h.2
  rw [hc'] at hc
  cases hc
  exact ⟨made, place, hcreate, hdocuments⟩

/-- A build that leaves an index completed or was abandoned. -/
theorem Leaves.completed_or_abandoned (h : a.Leaves c) : a.Completed c ∨ a.Abandoned c := by
  by_cases hok : a.result.2 = none
  · exact .inl (.of_leaves hok h)
  · exact .inr ⟨hok, h⟩

end Attempt

end DatasetSearch
