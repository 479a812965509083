import DatasetSearch.Disk
import DatasetSearch.Proofs.Outcome

/-! # What changes to a disk do

What is at a place, apart from what is in a directory there, is its kind (`Disk.kind?`).  Ways
depend on directories and links alone: one that leads somewhere on a disk leads there on any other
disk that has these (`Disk.walk_of_keeps`).

Removing a tree leaves a part of what was there, also where it stops half-way
(`Disk.remainsOf_removeTree`); if it succeeds, its path leads to no directory any more
(`Disk.not_directory_of_removeTree`).  Making directories changes nothing else
(`Disk.AddsDirectories.makeDirectories`). -/

namespace DatasetSearch

open Dictionary (setEntry lookup_cons lookup_setEntry lookup_filter_ne)

namespace Node

variable {n : Node} {es : List (Text × Node)} {place p ks : List Text} {kind : Option Content}

/-- The kind of what is at a place below a directory. -/
def kindAt? (p : List Text) (es : List (Text × Node)) : Option (Option Content) :=
  (at? p es).map content?

/-- The kind of what is at a place below a node. -/
def kindUnder? (n : Node) (ks : List Text) : Option (Option Content) := (n.under? ks).map content?

theorem kindAt?_cons (k : Text) (ks : List Text) (es : List (Text × Node)) :
    kindAt? (k :: ks) es = (es.lookup k).bind fun n => n.kindUnder? ks := by
  rw [kindAt?, at?_cons]
  cases es.lookup k with
  | none => rfl
  | some n => rfl

theorem kindUnder?_directory (ks : List Text) (es : List (Text × Node)) :
    (directory es).kindUnder? ks = kindAt? ks es := rfl

/-- There is nothing below a file but the file itself. -/
theorem kindUnder?_file (ks : List Text) (c : Content) :
    (file c).kindUnder? ks = if ks = [] then some (some c) else none := by
  cases ks with
  | nil => rfl
  | cons k ks => rfl

theorem kindAt?_cons_cons (k : Text) (n : Node) (es : List (Text × Node)) (x : Text)
    (ks : List Text) : kindAt? (x :: ks) ((k, n) :: es) =
      if x = k then n.kindUnder? ks else kindAt? (x :: ks) es := by
  rw [kindAt?_cons, lookup_cons]
  split
  · rfl
  · rw [kindAt?_cons]

theorem kindAt?_setEntry (k : Text) (n : Node) (es : List (Text × Node)) (x : Text)
    (ks : List Text) : kindAt? (x :: ks) (setEntry k n es) =
      if x = k then n.kindUnder? ks else kindAt? (x :: ks) es := by
  rw [kindAt?_cons, lookup_setEntry]
  split
  · rfl
  · rw [kindAt?_cons]

/-- What is not below the place where a node is put stays. -/
theorem kindAt?_put_of_not_prefix (n : Node) (h : ¬ place <+: p) :
    kindAt? p (n.put place es) = kindAt? p es := by
  fun_induction put n place es generalizing p with
  | case1 => exact absurd List.nil_prefix h
  | case2 => rfl
  | case3 k es =>
      cases p with
      | nil => rfl
      | cons x p =>
          have hx : x ≠ k := by
            rintro rfl
            exact h (List.prefix_append [x] p)
          rw [kindAt?_setEntry, if_neg hx]
  | case4 k ks es hks inside hlookup ih =>
      cases p with
      | nil => rfl
      | cons x p =>
          rw [kindAt?_setEntry]
          split
          · rename_i hx
            subst hx
            rw [kindAt?_cons, hlookup]
            exact ih fun hbelow => h (List.cons_prefix_cons.2 ⟨rfl, hbelow⟩)
          · rfl
  | case5 => rfl

/-- What is there after a node was put somewhere was there before or came with the node. -/
theorem kindAt?_put_cases (h : kindAt? p (n.put place es) = some kind) :
    kindAt? p es = some kind ∨ ∃ ks, p = place ++ ks ∧ n.kindUnder? ks = some kind := by
  fun_induction put n place es generalizing p with
  | case1 es inside hinside =>
      rw [hinside]
      exact .inr ⟨p, rfl, h⟩
  | case2 => exact .inl h
  | case3 k es =>
      cases p with
      | nil => exact .inl h
      | cons x p =>
          rw [kindAt?_setEntry] at h
          split at h
          · rename_i hx
            exact .inr ⟨p, by rw [hx]; rfl, h⟩
          · exact .inl h
  | case4 k ks es hks inside hlookup ih =>
      cases p with
      | nil => exact .inl h
      | cons x p =>
          rw [kindAt?_setEntry] at h
          split at h
          · rename_i hx
            rw [kindAt?_cons, hx, hlookup]
            rcases ih h with hold | ⟨rest, rfl, hrest⟩
            · exact .inl hold
            · exact .inr ⟨rest, rfl, hrest⟩
          · exact .inl h
  | case5 => exact .inl h

/-- What is not below the place that is dropped stays. -/
theorem kindAt?_drop_of_not_prefix (h : ¬ place <+: p) :
    kindAt? p (drop place es) = kindAt? p es := by
  fun_induction drop place es generalizing p with
  | case1 => rfl
  | case2 k es =>
      cases p with
      | nil => rfl
      | cons x p =>
          have hx : x ≠ k := by
            rintro rfl
            exact h (List.prefix_append [x] p)
          rw [kindAt?_cons, lookup_filter_ne, if_neg hx, ← kindAt?_cons]
  | case3 k ks es hks inside hlookup ih =>
      cases p with
      | nil => rfl
      | cons x p =>
          rw [kindAt?_setEntry]
          split
          · rename_i hx
            subst hx
            rw [kindAt?_cons, hlookup]
            exact ih fun hbelow => h (List.cons_prefix_cons.2 ⟨rfl, hbelow⟩)
          · rfl
  | case4 => rfl

/-- What is there after something was dropped was there before. -/
theorem kindAt?_of_kindAt?_drop (h : kindAt? p (drop place es) = some kind) :
    kindAt? p es = some kind := by
  fun_induction drop place es generalizing p with
  | case1 => exact h
  | case2 k es =>
      cases p with
      | nil => exact h
      | cons x p =>
          rw [kindAt?_cons, lookup_filter_ne] at h
          split at h
          · cases h
          · rwa [← kindAt?_cons] at h
  | case3 k ks es hks inside hlookup ih =>
      cases p with
      | nil => exact h
      | cons x p =>
          rw [kindAt?_setEntry] at h
          split at h
          · rename_i hx
            rw [kindAt?_cons, hx, hlookup]
            exact ih h
          · exact h
  | case4 => exact h

/-- Nothing is at a place that was dropped or below it. -/
theorem kindAt?_drop (hplace : place ≠ []) (h : place <+: p) :
    kindAt? p (drop place es) = none := by
  obtain ⟨rest, rfl⟩ := h
  fun_induction drop place es with
  | case1 => exact absurd rfl hplace
  | case2 k es =>
      rw [List.cons_append, kindAt?_cons, lookup_filter_ne, if_pos rfl]
      rfl
  | case3 k ks es hks inside hlookup ih =>
      rw [List.cons_append, kindAt?_setEntry, if_pos rfl]
      exact ih hks
  | case4 k ks es hks hlookup =>
      rw [List.cons_append, kindAt?_cons]
      cases hn : es.lookup k with
      | none => rfl
      | some n =>
          cases n with
          | directory inside => exact absurd hn (hlookup inside)
          | file c =>
              rw [Option.bind_some, kindUnder?_file, if_neg]
              exact List.append_ne_nil_of_left_ne_nil hks rest

/-! ### What is left -/

mutual

/-- What is in the remains of a node is in the node. -/
theorem kindUnder?_of_remains {denied : List Text → Bool} {place : List Text} :
    ∀ {n n' : Node} {ks : List Text} {kind : Option Content},
      n.remains denied place = some n' → n'.kindUnder? ks = some kind →
        n.kindUnder? ks = some kind
  | .file c, n', ks, kind, h, hkind => by
      rw [remains] at h
      split at h
      · cases h
        exact hkind
      · cases h
  | .directory es, n', ks, kind, h, hkind => by
      rw [remains] at h
      split at h
      · rename_i hnone
        split at h
        · cases h
          rw [kindUnder?_directory, ← hnone] at hkind
          exact kindAt?_of_remainsOfEach hkind
        · cases h
      · cases h
        exact kindAt?_of_remainsOfEach hkind

/-- What is in the remains of the children of a directory is in the directory. -/
theorem kindAt?_of_remainsOfEach {denied : List Text → Bool} {place : List Text} :
    ∀ {es : List (Text × Node)} {p : List Text} {kind : Option Content},
      kindAt? p (remainsOfEach denied place es) = some kind → kindAt? p es = some kind
  | [], p, kind, h => h
  | (k, n) :: es, [], kind, h => h
  | (k, n) :: es, x :: p, kind, h => by
      rw [remainsOfEach] at h
      rw [kindAt?_cons_cons]
      split at h
      · split at h
        · rename_i n' hn'
          rw [kindAt?_cons_cons] at h
          split at h
          · rename_i hx
            rw [if_pos hx]
            exact kindUnder?_of_remains hn' h
          · cases h
        · cases h
      · rw [kindAt?_cons_cons] at h
        split at h
        · rename_i hx
          rw [if_pos hx]
          exact h
        · rename_i hx
          rw [if_neg hx]
          exact kindAt?_of_remainsOfEach h

end

mutual

/-- Nothing is left of a node where everything may be removed. -/
theorem remains_eq_none {denied : List Text → Bool} {place : List Text} :
    ∀ {n : Node}, (∀ p, place <+: p → denied p = false) → n.remains denied place = none
  | .file c, h => by
      rw [remains, h place List.prefix_rfl]
      rfl
  | .directory es, h => by
      rw [remains, remainsOfEach_eq_nil h]
      exact if_neg (by rw [h place List.prefix_rfl]; exact Bool.false_ne_true)

/-- Nothing is left of the children of a directory where everything may be removed. -/
theorem remainsOfEach_eq_nil {denied : List Text → Bool} {place : List Text} :
    ∀ {es : List (Text × Node)}, (∀ p, place <+: p → denied p = false) →
      remainsOfEach denied place es = []
  | [], _ => rfl
  | (k, n) :: es, h => by
      have hn : n.remains denied (place ++ [k]) = none :=
        remains_eq_none fun p hp => h p ((List.prefix_append place [k]).trans hp)
      rw [remainsOfEach, remainsOfEach_eq_nil h]
      dsimp only
      rw [hn]

end

end Node

namespace Disk

variable {d d' d₀ : Disk} {place p q : List Text} {kind : Option Content}

/-! ### Kinds -/

theorem kind?_eq_some_none_iff : d.kind? p = some none ↔ ∃ es, d.at? p = some (.directory es) := by
  rw [kind?, Option.map_eq_some_iff]
  constructor
  · rintro ⟨n, hn, hkind⟩
    cases n with
    | directory es => exact ⟨es, hn⟩
    | file c => cases hkind
  · rintro ⟨es, hes⟩
    exact ⟨_, hes, rfl⟩

theorem kind?_eq_some_some_iff {c : Content} :
    d.kind? p = some (some c) ↔ d.at? p = some (.file c) := by
  rw [kind?, Option.map_eq_some_iff]
  constructor
  · rintro ⟨n, hn, hkind⟩
    cases n with
    | directory es => cases hkind
    | file c' =>
        cases hkind
        exact hn
  · intro h
    exact ⟨_, h, rfl⟩

theorem target?_eq_some_iff {target : Text} :
    (d.at? p).bind Node.target? = some target ↔ d.kind? p = some (some (.link target)) := by
  rw [kind?_eq_some_some_iff, Option.bind_eq_some_iff]
  constructor
  · rintro ⟨n, hn, htarget⟩
    unfold Node.target? at htarget
    split at htarget
    · cases htarget
      exact hn
    · cases htarget
  · intro h
    exact ⟨_, h, rfl⟩

/-! ### Walking -/

/-- The directories and links of one disk are on another as well. -/
structure Keeps (d d' : Disk) : Prop where
  directory : ∀ {p}, d.kind? p = some none → d'.kind? p = some none
  link : ∀ {p target}, d.kind? p = some (some (.link target)) →
    d'.kind? p = some (some (.link target))

theorem RemainsOf.keeps (h : d.RemainsOf d₀) : Keeps d d₀ := ⟨h.kind?, h.kind?⟩

variable {follow : Bool} {links : Nat} {name : Text} {names rest : List Text}

theorem walk_nil (d : Disk) (follow : Bool) (links : Nat) (place : List Text) :
    d.walk follow links place [] = .ok place := by rw [walk]

/-- A step of a walk from a directory. -/
theorem walk_cons (hplace : d.kind? place = some none)
    (hsize : ¬ longestName < Text.utf8Size name) :
    d.walk follow links place (name :: rest) =
      match (d.at? (Path.step place name)).bind Node.target? with
      | none => d.walk follow links (Path.step place name) rest
      | some target =>
        if rest.isEmpty && !follow then .ok (Path.step place name)
        else match links with
          | 0 => .error .tooManyLinks
          | links + 1 =>
            d.walk follow links (startFrom place target) (Path.namesWithEnd target ++ rest) := by
  obtain ⟨es, hes⟩ := kind?_eq_some_none_iff.1 hplace
  rw [walk, hes]
  exact if_neg hsize

/-- The first step of a walk is taken in a directory. -/
theorem kind?_of_walk_cons (h : d.walk follow links place (name :: rest) = .ok p) :
    d.kind? place = some none := by
  rw [walk] at h
  split at h
  · cases h
  · cases h
  · rename_i es hes
    exact kind?_eq_some_none_iff.2 ⟨es, hes⟩

/-- A step of a walk goes to the next place, or stops at a link there, or goes on where that
leads. -/
theorem walk_cons_eq_ok (h : d.walk follow links place (name :: rest) = .ok p) :
    ((∀ target, d.kind? (Path.step place name) ≠ some (some (.link target))) ∧
        d.walk follow links (Path.step place name) rest = .ok p) ∨
      ∃ target, d.kind? (Path.step place name) = some (some (.link target)) ∧
        ((rest.isEmpty && !follow) = true ∧ p = Path.step place name ∨
          (rest.isEmpty && !follow) = false ∧ ∃ links', d.walk follow links'
            (startFrom place target) (Path.namesWithEnd target ++ rest) = .ok p) := by
  rw [walk] at h
  split at h
  · cases h
  · cases h
  · split at h
    · cases h
    · split at h
      · rename_i hnone
        refine .inl ⟨fun target hlink => ?_, h⟩
        rw [target?_eq_some_iff.2 hlink] at hnone
        cases hnone
      · rename_i target htarget
        refine .inr ⟨target, target?_eq_some_iff.1 htarget, ?_⟩
        split at h
        · rename_i hlast
          exact .inl ⟨hlast, (Except.ok.inj h).symm⟩
        · rename_i hlast
          split at h
          · cases h
          · rename_i links
            exact .inr ⟨Bool.eq_false_iff.2 hlast, links, h⟩

/-- A way leads where it did on a disk that has the directories and links, if what it leads to is
still there. -/
theorem walk_of_keeps (h : Keeps d d') (hwalk : d.walk follow links place names = .ok p)
    (hp : d.kind? p = some kind) (hp' : d'.kind? p = some kind) :
    d'.walk follow links place names = .ok p := by
  have hplace' {place : List Text} {es : List (Text × Node)}
      (hes : d.at? place = some (.directory es)) : d'.kind? place = some none :=
    h.directory (kind?_eq_some_none_iff.2 ⟨es, hes⟩)
  have htarget' {q : List Text} {target : Text}
      (htarget : (d.at? q).bind Node.target? = some target) :
      (d'.at? q).bind Node.target? = some target :=
    target?_eq_some_iff.2 (h.link (target?_eq_some_iff.1 htarget))
  fun_induction d.walk follow links place names with
  | case1 => rw [walk_nil, ← hwalk]
  | case2 => cases hwalk
  | case3 => cases hwalk
  | case4 => cases hwalk
  | case5 links place name rest es hes hsize htarget ih =>
      -- the next place is the last one, or else a directory
      have hnext : ∃ kind, d.kind? (Path.step place name) = some kind ∧
          d'.kind? (Path.step place name) = some kind := by
        cases rest with
        | nil =>
            rw [walk_nil] at hwalk
            cases hwalk
            exact ⟨kind, hp, hp'⟩
        | cons name' rest =>
            exact ⟨none, kind?_of_walk_cons hwalk, h.directory (kind?_of_walk_cons hwalk)⟩
      have hnone : (d'.at? (Path.step place name)).bind Node.target? = none := by
        obtain ⟨kind', hkind, hkind'⟩ := hnext
        refine Option.eq_none_iff_forall_ne_some.2 fun target hsome => ?_
        rw [target?_eq_some_iff, hkind', ← hkind, ← target?_eq_some_iff, htarget] at hsome
        cases hsome
      rw [walk_cons (hplace' hes) hsize, hnone]
      exact ih hwalk
  | case6 links place name rest es hes hsize target htarget hlast =>
      rw [walk_cons (hplace' hes) hsize, htarget' htarget]
      exact (if_pos hlast).trans hwalk
  | case7 => cases hwalk
  | case8 place name rest es hes hsize target htarget hlast links ih =>
      rw [walk_cons (hplace' hes) hsize, htarget' htarget]
      exact (if_neg hlast).trans (ih hwalk)

/-- A way that leads to a directory, over a link at its end or not, is a way to that link or to the
directory. -/
theorem exists_entry_of_walk (h : d.walk true links place names = .ok p)
    (hp : d.kind? p = some none) :
    ∃ q, d.walk false links place names = .ok q ∧
      (d.kind? q = some none ∨ ∃ target, d.kind? q = some (some (.link target))) := by
  fun_induction d.walk true links place names with
  | case1 => 
      cases h
      exact ⟨_, walk_nil d _ _ _, .inl hp⟩
  | case2 => cases h
  | case3 => cases h
  | case4 => cases h
  | case5 links place name rest es hes hsize htarget ih =>
      rw [walk_cons (kind?_eq_some_none_iff.2 ⟨es, hes⟩) hsize, htarget]
      exact ih h
  | case6 links place name rest es hes hsize target htarget hlast =>
      rw [Bool.not_true, Bool.and_false] at hlast
      cases hlast
  | case7 => cases h
  | case8 place name rest es hes hsize target htarget hlast links ih =>
      rw [walk_cons (kind?_eq_some_none_iff.2 ⟨es, hes⟩) hsize, htarget]
      dsimp only
      split
      · exact ⟨_, rfl, .inr ⟨target, target?_eq_some_iff.1 htarget⟩⟩
      · exact ih h

/-! ### Removing -/

theorem kind?_append {n : Node} (h : d.at? place = some n) (ks : List Text) :
    d.kind? (place ++ ks) = n.kindUnder? ks := by
  have hn : Node.at? place d.top = some n := h
  rw [kind?, at?, Node.at?_append, hn]
  rfl

theorem RemainsOf.refl (d : Disk) : d.RemainsOf d := ⟨rfl, id⟩

theorem RemainsOf.trans (h : d'.RemainsOf d) (h' : d.RemainsOf d₀) : d'.RemainsOf d₀ :=
  ⟨h.here.trans h'.here, fun hkind => h'.kind? (h.kind? hkind)⟩

theorem remainsOf_drop (d : Disk) (place : List Text) : (d.drop place).RemainsOf d :=
  ⟨rfl, Node.kindAt?_of_kindAt?_drop⟩

theorem remainsOf_remove (d : Disk) (place : List Text) : (d.remove place).1.RemainsOf d := by
  unfold remove
  split
  · exact .refl d
  · exact remainsOf_drop d place

theorem remainsOf_put {es es' : List (Text × Node)} (hes : d.at? place = some (.directory es))
    (h : ∀ {ks kind}, Node.kindAt? ks es' = some kind → Node.kindAt? ks es = some kind) :
    (d.put (.directory es') place).RemainsOf d := by
  refine ⟨rfl, fun hkind => ?_⟩
  rcases Node.kindAt?_put_cases hkind with hold | ⟨ks, rfl, hks⟩
  · exact hold
  · rw [kind?_append hes]
    exact h hks

/-- An empty directory is removed if there is one, or nothing changes. -/
theorem removeEmpty_cases (d : Disk) (start names : List Text) :
    (∃ e, d.removeEmpty start names = (d, some e)) ∨
      d.removeEmpty start names = (d, none) ∧
        (∀ place, d.walk false mostLinks start names = .ok place → d.kind? place = none) ∨
      ∃ place, d.walk false mostLinks start names = .ok place ∧ place ≠ [] ∧
        d.kind? place = some none ∧ d.removeEmpty start names = d.remove place := by
  unfold removeEmpty
  split
  · rename_i hwalk
    exact .inr (.inl ⟨rfl, fun place hplace => by rw [hwalk] at hplace; cases hplace⟩)
  · exact .inl ⟨_, rfl⟩
  · rename_i place hwalk
    split
    · exact .inl ⟨_, rfl⟩
    · rename_i hne
      split
      · exact .inl ⟨_, rfl⟩
      · split
        · exact .inl ⟨_, rfl⟩
        · split
          · rename_i hnone
            refine .inr (.inl ⟨rfl, fun place' hplace' => ?_⟩)
            rw [hwalk] at hplace'
            cases hplace'
            rw [kind?, hnone]
            rfl
          · exact .inl ⟨_, rfl⟩
          · rename_i hempty
            exact .inr (.inr ⟨place, hwalk, fun hnil => hne (by rw [hnil]; rfl),
              kind?_eq_some_none_iff.2 ⟨[], hempty⟩, rfl⟩)
          · exact .inl ⟨_, rfl⟩

/-- What a path names is a link, which is removed, or a directory, which is cleared and then
removed if nothing is left in it; or else nothing changes. -/
theorem removeTree_cases (d : Disk) (path : Text) :
    (∃ e, d.removeTree path = (d, some e)) ∨
      (∃ place target, d.locateEntry path = .ok place ∧
        d.kind? place = some (some (.link target)) ∧ d.removeTree path = d.remove place) ∨
      ∃ place es, d.locateEntry path = .ok place ∧ d.at? place = some (.directory es) ∧
        ((∃ left, left ≠ [] ∧ Node.remainsOfEach d.denied place es = left ∧
            d.removeTree path = (d.put (.directory left) place, some .denied)) ∨
          Node.remainsOfEach d.denied place es = [] ∧
            d.removeTree path =
              (d.put (.directory []) place).removeEmpty (d.start path) (Path.names path)) := by
  unfold removeTree
  split
  · exact .inl ⟨_, rfl⟩
  · rename_i place hlocate
    split
    · exact .inl ⟨_, rfl⟩
    · rename_i target hlink
      exact .inr (.inl ⟨place, target, hlocate, kind?_eq_some_some_iff.2 hlink, rfl⟩)
    · exact .inl ⟨_, rfl⟩
    · rename_i es hes
      refine .inr (.inr ⟨place, es, hlocate, hes, ?_⟩)
      split
      · rename_i hnil
        exact .inr ⟨hnil, rfl⟩
      · rename_i hne
        exact .inl ⟨_, hne, rfl, rfl⟩

theorem remainsOf_removeEmpty {start names : List Text} {failure : Option DiskError}
    (hremove : d.removeEmpty start names = (d', failure)) : d'.RemainsOf d := by
  rcases d.removeEmpty_cases start names with ⟨e, h⟩ | ⟨h, -⟩ | ⟨place, -, -, -, h⟩
  · rw [hremove] at h
    cases h
    exact .refl d
  · rw [hremove] at h
    cases h
    exact .refl d
  · rw [hremove] at h
    have hplace := remainsOf_remove d place
    rwa [← h] at hplace

/-- Removing a tree leaves a part of what was there. -/
theorem remainsOf_removeTree {path : Text} {failure : Option DiskError}
    (hremove : d.removeTree path = (d', failure)) : d'.RemainsOf d := by
  rcases d.removeTree_cases path with
    ⟨e, h⟩ | ⟨place, target, -, -, h⟩ | ⟨place, es, -, hes, ⟨left, -, rfl, h⟩ | ⟨hnil, h⟩⟩
  · rw [hremove] at h
    cases h
    exact .refl d
  · rw [hremove] at h
    have hplace := remainsOf_remove d place
    rwa [← h] at hplace
  · rw [hremove] at h
    cases h
    exact remainsOf_put hes Node.kindAt?_of_remainsOfEach
  · rw [hremove] at h
    refine (remainsOf_removeEmpty h.symm).trans (remainsOf_put hes fun hkind => ?_)
    rw [← hnil] at hkind
    exact Node.kindAt?_of_remainsOfEach hkind

theorem remainsOf_clear {path : Text} {failure : Option DiskError}
    (h : d.clear path = (d', failure)) : d'.RemainsOf d := by
  unfold clear at h
  split at h
  · exact remainsOf_removeTree h
  · cases h
    exact .refl d

/-- Nothing is at a place from which something was removed. -/
theorem kind?_remove (hplace : place ≠ []) (h : d.remove place = (d', none)) :
    d'.kind? place = none := by
  unfold remove at h
  split at h
  · cases h
  · cases h
    exact Node.kindAt?_drop hplace List.prefix_rfl

theorem namesOf_eq_ok {path : Text} {names : List Text} (h : namesOf path = .ok names) :
    names = Path.names path := by
  unfold namesOf at h
  split at h
  · cases h
  · split at h
    · cases h
    · cases h
      rfl

theorem locate_eq_ok {path : Text} (h : d.locate path = .ok p) :
    d.walk true mostLinks (d.start path) (Path.names path) = .ok p := by
  obtain ⟨names, hnames, hwalk⟩ := Except.bind_eq_ok_iff.1 h
  rwa [namesOf_eq_ok hnames] at hwalk

theorem locateEntry_eq_ok {path : Text} (h : d.locateEntry path = .ok p) :
    d.walk (Path.endsInSlash path) mostLinks (d.start path) (Path.names path) = .ok p := by
  obtain ⟨names, hnames, hwalk⟩ := Except.bind_eq_ok_iff.1 h
  rwa [namesOf_eq_ok hnames] at hwalk

theorem RemainsOf.start (h : d'.RemainsOf d) (path : Text) : d'.start path = d.start path := by
  rw [Disk.start, Disk.start, h.here]

/-- After a directory was removed its path leads to none. -/
theorem not_directory_of_removeEmpty {start names : List Text}
    (h : d.removeEmpty start names = (d', none))
    (hwalk : d'.walk true mostLinks start names = .ok p) : d'.kind? p ≠ some none := by
  intro hp
  obtain ⟨q, hq, hkind⟩ := exists_entry_of_walk hwalk hp
  -- what the path names now was there before, so it is what was removed
  have hsame {kind : Option Content} (hkind : d'.kind? q = some kind) :
      d.walk false mostLinks start names = .ok q ∧ d.kind? q = some kind := by
    have hremains := remainsOf_removeEmpty h
    exact ⟨walk_of_keeps hremains.keeps hq hkind (hremains.kind? hkind), hremains.kind? hkind⟩
  have hgone : ∀ kind, d'.kind? q ≠ some kind := by
    intro kind hkind
    obtain ⟨hwalk', hkind'⟩ := hsame hkind
    rcases d.removeEmpty_cases start names with
      ⟨e, he⟩ | ⟨-, hnone⟩ | ⟨place, hplace, hne, -, hremove⟩
    · rw [h] at he
      cases he
    · rw [hnone q hwalk'] at hkind'
      cases hkind'
    · rw [hwalk'] at hplace
      cases hplace
      rw [h] at hremove
      rw [kind?_remove hne hremove.symm] at hkind
      cases hkind
  rcases hkind with hkind | ⟨target, hkind⟩
  · exact hgone _ hkind
  · exact hgone _ hkind

/-- After a tree was removed its path leads to no directory. -/
theorem not_directory_of_removeTree {path : Text} (h : d.removeTree path = (d', none))
    (hlocate : d'.locate path = .ok p) : d'.kind? p ≠ some none := by
  have hremains := remainsOf_removeTree h
  have hwalk := locate_eq_ok hlocate
  rw [hremains.start] at hwalk
  rcases d.removeTree_cases path with
    ⟨e, he⟩ | ⟨place, target, hplace, hlink, hremove⟩ |
      ⟨place, es, -, -, ⟨left, -, -, hleft⟩ | ⟨-, hempty⟩⟩
  · rw [h] at he
    cases he
  · intro hp
    rw [h] at hremove
    have hne : place ≠ [] := by
      rintro rfl
      cases hlink
    have hgone := kind?_remove hne hremove.symm
    have hplace := locateEntry_eq_ok hplace
    -- the way to the link is the same as before, but the link is gone
    have hfound : ∃ q kind, d'.walk (Path.endsInSlash path) mostLinks (d.start path)
        (Path.names path) = .ok q ∧ d'.kind? q = some kind := by
      cases Path.endsInSlash path with
      | true => exact ⟨p, none, hwalk, hp⟩
      | false =>
          obtain ⟨q, hq, hkind | ⟨target, hkind⟩⟩ := exists_entry_of_walk hwalk hp
          · exact ⟨q, none, hq, hkind⟩
          · exact ⟨q, _, hq, hkind⟩
    obtain ⟨q, kind, hq, hkind⟩ := hfound
    have hq' := walk_of_keeps hremains.keeps hq hkind (hremains.kind? hkind)
    rw [hplace] at hq'
    cases hq'
    rw [hgone] at hkind
    cases hkind
  · rw [h] at hleft
    cases (Prod.mk.inj hleft).2
  · rw [h] at hempty
    exact not_directory_of_removeEmpty hempty.symm hwalk

/-! ### Making directories -/

/-- Nothing has changed but that there are more directories. -/
structure AddsDirectories (d d' : Disk) : Prop where
  here : d'.here = d.here
  kind? : ∀ {p kind}, d.kind? p = some kind → d'.kind? p = some kind
  file : ∀ {p c}, d'.kind? p = some (some c) → d.kind? p = some (some c)

namespace AddsDirectories

variable {start names : List Text}

theorem refl (d : Disk) : AddsDirectories d d := ⟨rfl, id, id⟩

theorem trans {d'' : Disk} (h : AddsDirectories d d') (h' : AddsDirectories d' d'') :
    AddsDirectories d d'' :=
  ⟨h'.here.trans h.here, fun hkind => h'.kind? (h.kind? hkind), fun hfile => h.file (h'.file hfile)⟩

theorem put (h : d.kind? place = none) : AddsDirectories d (d.put (.directory []) place) := by
  have hnone (ks : List Text) : d.kind? (place ++ ks) = none := by
    have hplace : Node.at? place d.top = none := Option.map_eq_none_iff.1 h
    rw [Disk.kind?, at?, Node.at?_append, hplace]
    rfl
  refine ⟨rfl, fun {p kind} hkind => ?_, fun {p c} hfile => ?_⟩
  · have hp : ¬ place <+: p := by
      rintro ⟨ks, rfl⟩
      rw [hnone] at hkind
      cases hkind
    exact (Node.kindAt?_put_of_not_prefix _ hp).trans hkind
  · rcases Node.kindAt?_put_cases hfile with hold | ⟨ks, -, hks⟩
    · exact hold
    · cases ks with
      | nil => cases hks
      | cons k ks => cases hks

theorem makeDirectory (h : d.makeDirectory start names = .ok d') : AddsDirectories d d' := by
  obtain ⟨q, -, hq⟩ := Except.bind_eq_ok_iff.1 h
  split at hq
  · rename_i hnone
    split at hq
    · cases hq
    · cases hq
      exact put (by rw [Disk.kind?, hnone]; rfl)
  · cases hq

theorem settle {result : Except DiskError Disk}
    (h : ∀ d', result = .ok d' → AddsDirectories d d') :
    AddsDirectories d (d.settle start names result).1 := by
  cases result with
  | ok d' => exact h d' rfl
  | error e => exact refl d

theorem makeDirectoriesTo (d : Disk) (start names : List Text) :
    AddsDirectories d (d.makeDirectoriesTo start names).1 := by
  fun_induction Disk.makeDirectoriesTo d start names with
  | case1 => exact refl d
  | case2 names hne hmissing _ d' haround ih =>
      rw [haround] at ih
      exact ih.trans (settle fun _ => makeDirectory)
  | case3 names hne hmissing _ hfailed ih => exact ih
  | case4 names hne result => exact settle fun _ => makeDirectory

/-- Making directories changes nothing else. -/
theorem makeDirectories (d : Disk) (path : Text) :
    AddsDirectories d (d.makeDirectories path).1 := by
  unfold Disk.makeDirectories
  split
  · exact makeDirectoriesTo d _ _
  · exact refl d

end AddsDirectories

end Disk

end DatasetSearch
