import DatasetSearch.Proofs.Disk.Changes

/-! # Changes confined to one directory

`Disk.LeadsTo` says that a path names the directory at a place and goes there over no link that is
in the directory itself.  Then removing the tree at its end touches nothing outside of that place
(`Disk.sameOutside_removeTree`), where a link in the place of the directory is no exception: it
goes, and what it leads to stays.  In the place itself no file is left
(`Disk.not_file_of_removeTree`, `Disk.not_file_of_not_denied`).  Without any links a path leads to
the place that its names spell (`Disk.endsAt_placeOf`). -/

namespace DatasetSearch

namespace Disk

variable {d d' d'' : Disk} {root place p start names : List Text} {path : Text} {c : Content}

/-! ### Files outside a place -/

/-- The files that are not at a place and not below it are the same on both disks. -/
def SameOutside (root : List Text) (d d' : Disk) : Prop :=
  ∀ p, ¬ root <+: p → ∀ c, d'.at? p = some (.file c) ↔ d.at? p = some (.file c)

namespace SameOutside

theorem refl (root : List Text) (d : Disk) : SameOutside root d d := fun _ _ _ => Iff.rfl

theorem trans (h : SameOutside root d d') (h' : SameOutside root d' d'') :
    SameOutside root d d'' := fun p hp c => (h' p hp c).trans (h p hp c)

theorem of_kind? (h : ∀ p, ¬ root <+: p → d'.kind? p = d.kind? p) : SameOutside root d d' := by
  intro p hp c
  rw [← kind?_eq_some_some_iff, h p hp, kind?_eq_some_some_iff]

theorem put (n : Node) (root : List Text) (d : Disk) : SameOutside root d (d.put n root) :=
  of_kind? fun _ hp => Node.kindAt?_put_of_not_prefix n hp

theorem remove (root : List Text) (d : Disk) : SameOutside root d (d.remove root).1 := by
  unfold Disk.remove
  split
  · exact .refl root d
  · exact of_kind? fun _ hp => Node.kindAt?_drop_of_not_prefix hp

end SameOutside

theorem AddsDirectories.sameOutside (h : AddsDirectories d d') (root : List Text) :
    SameOutside root d d' := by
  intro p _ c
  rw [← kind?_eq_some_some_iff, ← kind?_eq_some_some_iff]
  exact ⟨h.file, h.kind?⟩

/-- Writing a file changes no other one. -/
theorem sameOutside_write (h : d.write path c = .ok d') :
    ∃ place, d.locate path = .ok place ∧ SameOutside place d d' := by
  obtain ⟨place, hplace, h⟩ := Except.bind_eq_ok_iff.1 h
  refine ⟨place, hplace, ?_⟩
  split at h
  · cases h
  · cases h
    exact .put _ place d
  · split at h
    · cases h
    · cases h
      exact .put _ place d

/-! ### Ways to a place -/

/-- The way from a place along names leads to `root`, if what is missing is made, and goes over no
link in `root`.  A link that is `root` itself can end the way if links are not followed there. -/
inductive Leads (d : Disk) (follow : Bool) (root : List Text) : List Text → List Text → Prop
  | here : Leads d follow root root []
  | entry {place : List Text} {name : Text} : follow = false → Path.step place name = root →
      Leads d follow root place [name]
  | step {place : List Text} {name : Text} {rest : List Text} :
      (∀ target, d.kind? (Path.step place name) ≠ some (some (.link target))) →
      Leads d follow root (Path.step place name) rest → Leads d follow root place (name :: rest)
  | link {place : List Text} {name : Text} {rest : List Text} {target : Text} :
      d.kind? (Path.step place name) = some (some (.link target)) →
      ¬ root <+: Path.step place name → (rest.isEmpty && !follow) = false →
      Leads d follow root (startFrom place target) (Path.namesWithEnd target ++ rest) →
      Leads d follow root place (name :: rest)

namespace Leads

variable {follow follow' : Bool} {links : Nat}

/-- It is where a walk ends, unless that stops at a link that is not the end. -/
theorem of_walk (h : d.Leads follow root place names) (hfollow : follow' = true → follow = true)
    (hwalk : d.walk follow' links place names = .ok p) :
    p = root ∨ follow ≠ follow' ∧ ∃ target, d.kind? p = some (some (.link target)) := by
  induction h generalizing links with
  | here =>
      rw [walk_nil] at hwalk
      exact .inl (Except.ok.inj hwalk).symm
  | entry hnot hroot =>
      have hnot' : follow' = false := by simpa [hnot] using hfollow
      rcases walk_cons_eq_ok hwalk with ⟨-, hwalk⟩ | ⟨target, -, ⟨-, hp⟩ | ⟨hmore, -⟩⟩
      · rw [walk_nil] at hwalk
        exact .inl ((Except.ok.inj hwalk).symm.trans hroot)
      · exact .inl (hp.trans hroot)
      · simp [hnot'] at hmore
  | step hnone _ ih =>
      rcases walk_cons_eq_ok hwalk with ⟨-, hwalk⟩ | ⟨target, hlink, -⟩
      · exact ih hwalk
      · exact absurd hlink (hnone target)
  | @link place name rest target hlink _ hmore _ ih =>
      rcases walk_cons_eq_ok hwalk with
        ⟨hnone, -⟩ | ⟨target', hlink', ⟨hlast, rfl⟩ | ⟨-, links', hwalk⟩⟩
      · exact absurd hlink (hnone target)
      · refine .inr ⟨?_, target, hlink⟩
        rintro rfl
        rw [hmore] at hlast
        cases hlast
      · rw [hlink] at hlink'
        cases hlink'
        exact ih hwalk

theorem eq_of_walk (h : d.Leads follow root place names)
    (hwalk : d.walk follow links place names = .ok p) : p = root :=
  (h.of_walk id hwalk).elim id fun hne => absurd rfl hne.1

/-- It is the same way on a disk with the same links outside of the place and no new ones. -/
theorem of_sameOutside (h : d.Leads follow root place names) (hsame : SameOutside root d d')
    (hlinks : ∀ {p target}, d'.kind? p = some (some (.link target)) →
      d.kind? p = some (some (.link target))) : d'.Leads follow root place names := by
  induction h with
  | here => exact .here
  | entry hnot hroot => exact .entry hnot hroot
  | step hnone _ ih => exact .step (fun target hlink => hnone target (hlinks hlink)) ih
  | link hlink hout hmore _ ih =>
      refine .link ?_ hout hmore ih
      rw [kind?_eq_some_some_iff] at hlink ⊢
      exact (hsame _ hout _).2 hlink

/-- Where no link is at the end it makes no difference whether it would be followed. -/
theorem followed (h : d.Leads follow root place names)
    (hnone : ∀ target, d.kind? root ≠ some (some (.link target))) :
    d.Leads true root place names := by
  induction h with
  | here => exact .here
  | @entry place name _ hroot =>
      subst hroot
      exact .step hnone .here
  | step hstep _ ih => exact .step hstep ih
  | link hlink hout _ _ ih => exact .link hlink hout (by simp) ih

end Leads

/-- What a path names is at a place, and the way there goes over no link in that place.  There may
be a link at the place itself, but none that leads nowhere. -/
structure LeadsTo (d : Disk) (path : Text) (root : List Text) : Prop where
  way : d.Leads (Path.endsInSlash path) root (d.start path) (Path.names path)
  last : ∀ target, d.kind? root = some (some (.link target)) → d.contains path = true

/-- A path leads to a place at which there is no link. -/
structure EndsAt (d : Disk) (path : Text) (root : List Text) : Prop where
  way : d.Leads (Path.endsInSlash path) root (d.start path) (Path.names path)
  last : ∀ target, d.kind? root ≠ some (some (.link target))

theorem EndsAt.leadsTo (h : d.EndsAt path root) : d.LeadsTo path root :=
  ⟨h.way, fun target hlink => absurd hlink (h.last target)⟩

theorem LeadsTo.endsAt_of_not_contains (h : d.LeadsTo path root)
    (hnone : d.contains path = false) : d.EndsAt path root := by
  refine ⟨h.way, fun target hlink => ?_⟩
  rw [h.last target hlink] at hnone
  cases hnone

theorem LeadsTo.locateEntry (h : d.LeadsTo path root) (hlocate : d.locateEntry path = .ok place) :
    place = root :=
  h.way.eq_of_walk (locateEntry_eq_ok hlocate)

theorem EndsAt.locate (h : d.EndsAt path root) (hlocate : d.locate path = .ok place) :
    place = root :=
  (h.way.followed h.last).eq_of_walk (locate_eq_ok hlocate)

theorem EndsAt.of_sameOutside (h : d.EndsAt path root) (hhere : d'.here = d.here)
    (hsame : SameOutside root d d') (hlinks : ∀ {p target},
      d'.kind? p = some (some (.link target)) → d.kind? p = some (some (.link target))) :
    d'.EndsAt path root := by
  refine ⟨?_, fun target hlink => h.last target (hlinks hlink)⟩
  rw [start, hhere]
  exact h.way.of_sameOutside hsame hlinks

/-! ### Ways without links -/

/-- The place that the names of a path spell, whatever is there. -/
def placeOf (d : Disk) (path : Text) : List Text :=
  (Path.names path).foldl Path.step (d.start path)

/-- There is no link at a place or where names lead from there. -/
def Straight (d : Disk) (place : List Text) : List Text → Prop
  | [] => ∀ target, d.kind? place ≠ some (some (.link target))
  | name :: rest =>
    (∀ target, d.kind? (Path.step place name) ≠ some (some (.link target))) ∧
      Straight d (Path.step place name) rest

/-- Without links a path leads to the place that its names spell. -/
theorem endsAt_placeOf (h : d.Straight (d.start path) (Path.names path)) :
    d.EndsAt path (d.placeOf path) := by
  have hends (place names : List Text) (h : d.Straight place names) :
      d.Leads (Path.endsInSlash path) (names.foldl Path.step place) place names ∧
        ∀ target, d.kind? (names.foldl Path.step place) ≠ some (some (.link target)) := by
    induction names generalizing place with
    | nil => exact ⟨.here, h⟩
    | cons name rest ih =>
        obtain ⟨hway, hlast⟩ := ih _ h.2
        exact ⟨.step h.1 hway, hlast⟩
  exact ⟨(hends _ _ h).1, (hends _ _ h).2⟩

/-! ### Removing a tree -/

theorem sameOutside_removeEmpty {follow : Bool} {failure : Option DiskError}
    (h : d.Leads follow root start names) (hremove : d.removeEmpty start names = (d', failure)) :
    SameOutside root d d' := by
  rcases d.removeEmpty_cases start names with
    ⟨e, he⟩ | ⟨hnone, -⟩ | ⟨place, hwalk, -, hdirectory, hremoved⟩
  · rw [hremove] at he
    cases he
    exact .refl _ d
  · rw [hremove] at hnone
    cases hnone
    exact .refl _ d
  · have hplace : place = root := by
      rcases h.of_walk (absurd · Bool.false_ne_true) hwalk with hplace | ⟨-, target, hlink⟩
      · exact hplace
      · rw [hdirectory] at hlink
        cases hlink
    have hsame := SameOutside.remove place d
    rwa [← hremoved, hremove, hplace] at hsame

/-- Removing a tree touches nothing else. -/
theorem sameOutside_removeTree {failure : Option DiskError} (h : d.LeadsTo path root)
    (hremove : d.removeTree path = (d', failure)) : SameOutside root d d' := by
  rcases d.removeTree_cases path with
    ⟨e, he⟩ | ⟨place, target, hplace, -, hremoved⟩ |
      ⟨place, es, hplace, hes, ⟨left, -, -, hleft⟩ | ⟨hnil, hempty⟩⟩
  · rw [hremove] at he
    cases he
    exact .refl _ d
  · have hsame := SameOutside.remove place d
    rwa [← hremoved, hremove, h.locateEntry hplace] at hsame
  · rw [hremove, h.locateEntry hplace] at hleft
    cases hleft
    exact .put _ _ d
  · have hcleared : (d.put (.directory []) place).RemainsOf d :=
      remainsOf_put hes fun hkind => Node.kindAt?_of_remainsOfEach (hnil ▸ hkind)
    have hput : SameOutside root d (d.put (.directory []) place) := by
      rw [h.locateEntry hplace]
      exact .put _ _ d
    rw [hremove] at hempty
    exact hput.trans
      (sameOutside_removeEmpty (h.way.of_sameOutside hput hcleared.kind?) hempty.symm)

/-! ### Files in a place -/

/-- There is nothing below the place of a directory that was cleared. -/
theorem kind?_put_empty_ne_file {es : List (Text × Node)} (hes : d.at? place = some (.directory es))
    (h : place <+: p) : (d.put (.directory []) place).kind? p ≠ some (some c) := by
  obtain ⟨ks, rfl⟩ := h
  rw [kind?_append (at?_put_directory hes []), Node.kindUnder?_directory]
  cases ks with
  | nil => exact nofun
  | cons k ks => exact nofun

/-- A tree that is removed is gone with its files. -/
theorem not_file_of_removeTree (h : d.LeadsTo path root) (hremove : d.removeTree path = (d', none))
    (hp : root <+: p) : d'.at? p ≠ some (.file c) := by
  rw [Ne, ← kind?_eq_some_some_iff]
  rcases d.removeTree_cases path with
    ⟨e, he⟩ | ⟨place, target, hplace, hlink, hremoved⟩ |
      ⟨place, es, hplace, hes, ⟨left, -, -, hleft⟩ | ⟨-, hempty⟩⟩
  · rw [hremove] at he
    cases he
  · have hne : place ≠ [] := by
      rintro rfl
      cases hlink
    rw [hremove] at hremoved
    rw [h.locateEntry hplace] at hremoved hne
    have hgone : d'.kind? p = none := by
      unfold remove at hremoved
      split at hremoved
      · cases hremoved
      · cases hremoved
        exact Node.kindAt?_drop hne hp
    rw [hgone]
    exact nofun
  · rw [hremove] at hleft
    cases (Prod.mk.inj hleft).2
  · rw [hremove] at hempty
    rw [← h.locateEntry hplace] at hp
    exact fun hfile =>
      kind?_put_empty_ne_file hes hp ((remainsOf_removeEmpty hempty.symm).kind? hfile)

/-- Removing what is at the end of a path touches nothing else. -/
theorem sameOutside_clear {failure : Option DiskError} (h : d.LeadsTo path root)
    (hclear : d.clear path = (d', failure)) : SameOutside root d d' := by
  unfold clear at hclear
  split at hclear
  · exact sameOutside_removeTree h hclear
  · cases hclear
    exact .refl _ d

/-- Once what was at its end is removed, no link is there. -/
theorem endsAt_of_clear (h : d.LeadsTo path root) (hclear : d.clear path = (d', none)) :
    d'.EndsAt path root := by
  have hsame := sameOutside_clear h hclear
  have hremains := remainsOf_clear hclear
  unfold clear at hclear
  split at hclear
  · refine ⟨?_, fun target hlink => ?_⟩
    · rw [hremains.start]
      exact h.way.of_sameOutside hsame hremains.kind?
    · rw [kind?_eq_some_some_iff] at hlink
      exact not_file_of_removeTree h hclear List.prefix_rfl hlink
  · rename_i hcontains
    cases hclear
    exact h.endsAt_of_not_contains (Bool.eq_false_iff.2 hcontains)

/-- A path to a directory names it, or a link. -/
theorem exists_entry_of_isDirectory (h : d.isDirectory path = true) :
    ∃ q, d.locateEntry path = .ok q ∧
      (d.kind? q = some none ∨ ∃ target, d.kind? q = some (some (.link target))) := by
  obtain ⟨n, hn, hdirectory⟩ := (Option.any_eq_true _ _).1 h
  unfold node? at hn
  split at hn
  · cases hn
  · rename_i place hlocate
    obtain ⟨names, hnames, hwalk⟩ := Except.bind_eq_ok_iff.1 hlocate
    have hplace : d.kind? place = some none := by
      rw [kind?, (Option.filter_eq_some_iff.1 hn).1]
      cases n with
      | directory es => rfl
      | file c => cases hdirectory
    have hentry : ∃ q, d.walk (Path.endsInSlash path) mostLinks (d.start path) names = .ok q ∧
        (d.kind? q = some none ∨ ∃ target, d.kind? q = some (some (.link target))) := by
      cases Path.endsInSlash path with
      | true => exact ⟨place, hwalk, .inl hplace⟩
      | false => exact exists_entry_of_walk hwalk hplace
    obtain ⟨q, hq, hkind⟩ := hentry
    exact ⟨q, Except.bind_eq_ok_iff.2 ⟨names, hnames, hq⟩, hkind⟩

/-- Where everything may be removed no file of a directory is left, whatever becomes of the
directory itself. -/
theorem not_file_of_not_denied (h : d.LeadsTo path root) (hdirectory : d.isDirectory path = true)
    (hfree : ∀ p, root <+: p → d.denied p = false) (hp : root <+: p) :
    (d.removeTree path).1.at? p ≠ some (.file c) := by
  obtain ⟨q, hq, hkind⟩ := exists_entry_of_isDirectory hdirectory
  obtain rfl := h.locateEntry hq
  rw [Ne, ← kind?_eq_some_some_iff]
  unfold removeTree
  rw [hq]
  rcases hkind with hkind | ⟨target, hlink⟩
  · obtain ⟨es, hes⟩ := kind?_eq_some_none_iff.1 hkind
    dsimp only
    rw [hes]
    dsimp only
    rw [Node.remainsOfEach_eq_nil hfree]
    exact fun hfile => kind?_put_empty_ne_file hes hp
      ((remainsOf_removeEmpty rfl).kind? hfile)
  · have hne : q ≠ [] := by
      rintro rfl
      cases hlink
    dsimp only
    rw [kind?_eq_some_some_iff.1 hlink]
    dsimp only
    have hgone : (d.remove q).1.kind? p = none := by
      rw [remove, hfree _ List.prefix_rfl]
      exact Node.kindAt?_drop hne hp
    rw [hgone]
    exact nofun

end Disk

end DatasetSearch
