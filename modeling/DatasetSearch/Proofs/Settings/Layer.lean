import DatasetSearch.Proofs.Dictionary
import DatasetSearch.Proofs.Path
import DatasetSearch.Settings.Load
import Mathlib.Data.List.Nodup

/-! # What counts of several layers

A variable names a setting after the mark or, for some settings, without it; white space around the
name and the case of its letters do not matter.  `Layer.Counts` says what counts for a setting: the
value of the variable with the mark, or that of the variable without it, or that of the file, each
only if no layer above gives one.

`Layer.counts_iff` is that the layers put on top of each other give what counts, if names have no
dots and no two variables of one layer name the same setting. -/

namespace DatasetSearch

namespace Text

theorem mem_of_mem_trim {c : Char} {t : Text} (h : c ∈ trim t) : c ∈ t := by
  have hend := (List.dropWhile_suffix isBlank).subset (List.mem_reverse.1 h)
  exact (List.dropWhile_suffix isBlank).subset (List.mem_reverse.1 hend)

theorem after?_eq_some_iff {lead t rest : Text} : after? lead t = some rest ↔ t = lead ++ rest := by
  induction lead generalizing t with
  | nil => exact Option.some_inj
  | cons c lead ih =>
      cases t with
      | nil => exact iff_of_false nofun nofun
      | cons d t =>
          rw [after?, List.cons_append, List.cons.injEq]
          by_cases hc : c = d
          · rw [if_pos hc, ih]
            exact (and_iff_right hc.symm).symm
          · rw [if_neg hc]
            exact iff_of_false nofun fun h => hc h.1.symm

theorem toLower_eq_dot {c : Char} (h : c.toLower = '.') : c = '.' := by
  unfold Char.toLower at h
  split at h
  · rename_i hupper
    have hval := congrArg (fun d : Char => d.val.toNat) h
    have hleast : 65 ≤ c.val.toNat := hupper.1
    have hmost : c.val.toNat ≤ 90 := hupper.2
    simp only [UInt32.toNat_add] at hval
    have hdot : ('.' : Char).val.toNat = 46 := rfl
    have hshift : (('a' : Char).val - ('A' : Char).val).toNat = 32 := rfl
    omega
  · exact h

end Text

theorem Setting.ofKey?_eq_some_iff {k : Text} {s : Setting} :
    Setting.ofKey? k = some s ↔ s.key.toList = k := by
  constructor
  · intro h
    simpa using List.find?_some h
  · rintro rfl
    cases s <;> decide

namespace Layer

/-! ### Names of variables -/

/-- A variable of the name gives the setting: one of the settings that need no mark is named so. -/
def NamesPlain (name : Text) (s : Setting) : Prop :=
  s ∈ Setting.plain ∧ fold name = s.key.toList

/-- A variable of the name gives the setting: after the mark the setting is named, or `dir` for the
directory of the index. -/
def NamesMarked (name : Text) (s : Setting) : Prop :=
  ∃ rest, fold name = mark ++ rest ∧
    (Text.trim rest = s.key.toList ∨ rest = "dir".toList ∧ s = .indexDir)

theorem dot_notMem_fold {name : Text} (h : '.' ∉ name) : '.' ∉ fold name := by
  intro hmem
  obtain ⟨c, hc, hlower⟩ := List.mem_map.1 hmem
  rw [Text.toLower_eq_dot hlower] at hc
  exact h (Text.mem_of_mem_trim hc)

theorem plain?_eq_some_iff {entry : Text × Text} {s : Setting} {d : Datum} :
    plain? entry = some (s, d) ↔ NamesPlain entry.1 s ∧ d = Datum.ofVariable entry.2 := by
  rw [plain?, Option.map_eq_some_iff]
  constructor
  · rintro ⟨s', hs, heq⟩
    cases heq
    obtain ⟨hkey, hplain⟩ := Option.filter_eq_some_iff.1 hs
    exact ⟨⟨of_decide_eq_true hplain, (Setting.ofKey?_eq_some_iff.1 hkey).symm⟩, rfl⟩
  · rintro ⟨⟨hplain, hkey⟩, rfl⟩
    exact ⟨s, Option.filter_eq_some_iff.2
      ⟨Setting.ofKey?_eq_some_iff.2 hkey.symm, decide_eq_true hplain⟩, rfl⟩

theorem dot_notMem_rest {name rest : Text} (hdot : '.' ∉ name) (hname : fold name = mark ++ rest) :
    '.' ∉ rest := by
  intro hmem
  exact dot_notMem_fold hdot (hname ▸ List.mem_append_right mark hmem)

/-- The key that the rest of a variable's name gives, if the name has no dots. -/
def keyOf (rest : Text) : Text :=
  if rest = "dir".toList then Setting.indexDir.key.toList else Text.trim rest

theorem keysOf?_of_notMem {rest : Text} (hdot : '.' ∉ rest) :
    keysOf? rest = if (keyOf rest).isEmpty then none else some [keyOf rest] := by
  have hkeys : (if rest = "dir".toList then [Setting.indexDir.key.toList]
      else Text.split '.' (Text.trim rest)) = [keyOf rest] := by
    rw [keyOf]
    split
    · rfl
    · exact Text.split_of_notMem fun h => hdot (Text.mem_of_mem_trim h)
  rw [keysOf?, hkeys, List.any_cons, List.any_nil, Bool.or_false]

theorem keyOf_eq_key_iff {rest : Text} {s : Setting} :
    keyOf rest = s.key.toList ↔
      Text.trim rest = s.key.toList ∨ rest = "dir".toList ∧ s = .indexDir := by
  rw [keyOf]
  split
  · rename_i hdir
    subst hdir
    cases s <;> decide
  · rename_i hdir
    exact ⟨.inl, fun h => h.resolve_right fun h => hdir h.1⟩

theorem marked?_eq_some_iff {entry : Text × Text} (hdot : '.' ∉ entry.1) {s : Setting}
    {d : Datum} :
    marked? entry = some (s, d) ↔ NamesMarked entry.1 s ∧ d = Datum.ofVariable entry.2 := by
  constructor
  · intro h
    obtain ⟨rest, hrest, h⟩ := Option.bind_eq_some_iff.1 h
    obtain ⟨keys, hkeys, h⟩ := Option.bind_eq_some_iff.1 h
    obtain ⟨k, hk, h⟩ := Option.bind_eq_some_iff.1 h
    obtain ⟨s', hs, hvalue⟩ := Option.bind_eq_some_iff.1 h
    have hname := Text.after?_eq_some_iff.1 hrest
    rw [keysOf?_of_notMem (dot_notMem_rest hdot hname)] at hkeys
    split at hkeys
    · cases hkeys
    · cases hkeys
      cases hk
      cases hvalue
      exact ⟨⟨rest, hname, keyOf_eq_key_iff.1 (Setting.ofKey?_eq_some_iff.1 hs).symm⟩, rfl⟩
  · rintro ⟨⟨rest, hname, hkey⟩, rfl⟩
    have hkeys : keysOf? rest = some [s.key.toList] := by
      rw [keysOf?_of_notMem (dot_notMem_rest hdot hname), keyOf_eq_key_iff.2 hkey]
      cases s <;> decide
    rw [marked?, Text.after?_eq_some_iff.2 hname]
    show (keysOf? rest >>= _) = _
    rw [hkeys]
    show (Setting.ofKey? s.key.toList >>= _) = _
    rw [Setting.ofKey?_eq_some_iff.2 rfl]
    rfl

/-! ### One layer -/

section entries
variable {ε : Type} {gives : ε → Option (Setting × Datum)} {entries : List ε}

/-- A layer gives what one of its entries gives, if no two of them give the same setting. -/
theorem get?_ofList_filterMap
    (hapart : entries.Pairwise fun a b => ∀ s d d', gives a = some (s, d) → gives b ≠ some (s, d'))
    {s : Setting} {d : Datum} :
    (Dictionary.ofList (entries.filterMap gives)).get? s = some d ↔
      ∃ entry ∈ entries, gives entry = some (s, d) := by
  have hnodup : ((entries.filterMap gives).map Prod.fst).Nodup := by
    rw [List.Nodup, List.pairwise_map, List.pairwise_filterMap]
    refine hapart.imp fun {a b} h => ?_
    rintro ⟨s, d⟩ ha ⟨s', d'⟩ hb rfl
    exact h s d d' ha hb
  rw [Dictionary.get?_ofList_eq_some_iff hnodup, List.mem_filterMap]

end entries

section named
variable {gives : Text × Text → Option (Setting × Datum)} {names : Text → Setting → Prop}
  {entries : List (Text × Text)}

/-- The layer of the variables whose names name a setting. -/
theorem get?_variables
    (hgives : ∀ entry ∈ entries, ∀ s d,
      gives entry = some (s, d) ↔ names entry.1 s ∧ d = Datum.ofVariable entry.2)
    (hapart : entries.Pairwise fun a b => ∀ s, names a.1 s → ¬ names b.1 s) (s : Setting) :
    (∀ d, (Dictionary.ofList (entries.filterMap gives)).get? s = some d ↔
      ∃ entry ∈ entries, names entry.1 s ∧ d = Datum.ofVariable entry.2) ∧
    ((Dictionary.ofList (entries.filterMap gives)).get? s = none ↔
      ∀ entry ∈ entries, ¬ names entry.1 s) := by
  have hapart' : entries.Pairwise fun a b =>
      ∀ s d d', gives a = some (s, d) → gives b ≠ some (s, d') := by
    refine hapart.imp_of_mem fun {a b} ha hb h s d d' hgive hgive' => ?_
    exact h s ((hgives a ha s d).1 hgive).1 ((hgives b hb s d').1 hgive').1
  have hsome (d : Datum) : (Dictionary.ofList (entries.filterMap gives)).get? s = some d ↔
      ∃ entry ∈ entries, names entry.1 s ∧ d = Datum.ofVariable entry.2 := by
    rw [get?_ofList_filterMap hapart']
    exact exists_congr fun entry => and_congr_right fun hentry => hgives entry hentry s d
  refine ⟨hsome, ?_⟩
  rw [Option.eq_none_iff_forall_ne_some]
  constructor
  · intro h entry hentry hname
    exact h _ ((hsome _).2 ⟨entry, hentry, hname, rfl⟩)
  · intro h d hd
    obtain ⟨entry, hentry, hname, -⟩ := (hsome d).1 hd
    exact h entry hentry hname

end named

theorem get?_ofEntries {file : List (Text × Datum)} (hfile : (file.map Prod.fst).Nodup)
    {s : Setting} {d : Datum} :
    (ofEntries file).get? s = some d ↔ (s.key.toList, d) ∈ file := by
  have hgives (e : Text × Datum) (s : Setting) (d : Datum) :
      (Setting.ofKey? e.1).map (·, e.2) = some (s, d) ↔ e = (s.key.toList, d) := by
    rw [Option.map_eq_some_iff]
    constructor
    · rintro ⟨s', hs, heq⟩
      cases heq
      exact Prod.ext (Setting.ofKey?_eq_some_iff.1 hs).symm rfl
    · rintro rfl
      exact ⟨s, Setting.ofKey?_eq_some_iff.2 rfl, rfl⟩
  rw [ofEntries, get?_ofList_filterMap]
  · constructor
    · rintro ⟨e, he, hgive⟩
      exact (hgives e s d).1 hgive ▸ he
    · intro h
      exact ⟨_, h, (hgives _ s d).2 rfl⟩
  · refine (List.pairwise_map.1 hfile).imp fun {a b} h s d d' ha hb => ?_
    rw [(hgives a s d).1 ha, (hgives b s d').1 hb] at h
    exact h rfl

/-! ### All layers -/

end Layer

/-- No name of a variable has a dot, and no two variables of one layer name the same setting. -/
structure Environment.NamesApart (env : Environment) : Prop where
  no_dot : ∀ entry ∈ env.entries, '.' ∉ entry.1
  plain : env.entries.Pairwise fun a b =>
    ∀ s, Layer.NamesPlain a.1 s → ¬ Layer.NamesPlain b.1 s
  marked : env.entries.Pairwise fun a b =>
    ∀ s, Layer.NamesMarked a.1 s → ¬ Layer.NamesMarked b.1 s

namespace Layer

/-- What counts for a setting: what is written in the variable with the mark that names it, or else
in the variable without a mark, or else what the file gives. -/
inductive Counts (file : List (Text × Datum)) (env : Environment) (s : Setting) : Datum → Prop
  | marked {entry : Text × Text} : entry ∈ env.entries → NamesMarked entry.1 s →
      Counts file env s (Datum.ofVariable entry.2)
  | plain {entry : Text × Text} : (∀ e ∈ env.entries, ¬ NamesMarked e.1 s) →
      entry ∈ env.entries → NamesPlain entry.1 s → Counts file env s (Datum.ofVariable entry.2)
  | file {d : Datum} : (∀ e ∈ env.entries, ¬ NamesMarked e.1 s) →
      (∀ e ∈ env.entries, ¬ NamesPlain e.1 s) → (s.key.toList, d) ∈ file → Counts file env s d

/-- The layers put on top of each other give what counts. -/
theorem counts_iff {file : List (Text × Datum)} {env : Environment}
    (hfile : (file.map Prod.fst).Nodup) (henv : env.NamesApart) {s : Setting} {d : Datum} :
    Counts file env s d ↔ (ofSources file env).get? s = some d := by
  obtain ⟨hmarked, hnotMarked⟩ :=
    get?_variables (fun entry h s d => marked?_eq_some_iff (henv.no_dot entry h)) henv.marked s
  obtain ⟨hplain, hnotPlain⟩ :=
    get?_variables (fun entry _ s d => plain?_eq_some_iff) henv.plain s
  rw [ofSources, Dictionary.get?_merge, Dictionary.get?_merge, Option.or_eq_some_iff,
    Option.or_eq_some_iff, ofMarked, ofPlain, hmarked, hnotMarked, hplain, hnotPlain,
    get?_ofEntries hfile]
  constructor
  · rintro (⟨hentry, hname⟩ | ⟨habove, hentry, hname⟩ | ⟨habove, habove', hd⟩)
    · exact .inl ⟨_, hentry, hname, rfl⟩
    · exact .inr ⟨habove, .inl ⟨_, hentry, hname, rfl⟩⟩
    · exact .inr ⟨habove, .inr ⟨habove', hd⟩⟩
  · rintro (⟨entry, hentry, hname, rfl⟩ | ⟨habove, ⟨entry, hentry, hname, rfl⟩ | ⟨habove', hd⟩⟩)
    · exact .marked hentry hname
    · exact .plain habove hentry hname
    · exact .file habove habove' hd

end Layer

end DatasetSearch
