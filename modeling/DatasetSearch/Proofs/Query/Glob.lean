import DatasetSearch.Query.Glob
import Mathlib.Computability.Language

/-!
# Wildcard patterns and their regular expressions

The matcher of a pattern accepts the language of the pattern, and so does the regular expression
that is written for it.
-/

namespace DatasetSearch

/-! ## The tokens a pattern fits

`Pattern.language` is the set of tokens that can be cut into pieces, one for each glob in order.
`Pattern.matchesToken` decides it (`mem_language_iff_matchesToken`), though it goes back to the last
star only.  `Advance.Fits` says what is left to be decided where `advance` has ended, and the last
star is enough by `fits_advance_of_isSuffix`: whenever an end of the token fits, what is left after
the next star has an end that fits as well. -/

namespace Query

namespace Glob

/-- The pieces of a token a glob stands for. -/
def language : Glob → Language Char
  | run => ⊤
  | one => {piece | ∃ c, piece = [c]}
  | char c => {[c]}

/-- The tokens that can be cut into pieces for the globs. -/
def languageOf (globs : List Glob) : Language Char := (globs.map language).prod

theorem mem_languageOf_cons {g : Glob} {globs : List Glob} {token : Text} :
    token ∈ languageOf (g :: globs) ↔ ∃ s ∈ g.language, ∃ t ∈ languageOf globs, s ++ t = token := by
  rw [languageOf, List.map_cons, List.prod_cons]
  exact Language.mem_mul

theorem mem_language_iff_accepts {g : Glob} (hg : g ≠ run) {piece : Text} :
    piece ∈ g.language ↔ ∃ c, g.accepts c = true ∧ piece = [c] := by
  cases g with
  | run => exact absurd rfl hg
  | one => exact ⟨fun ⟨c, hc⟩ => ⟨c, rfl, hc⟩, fun ⟨c, _, hc⟩ => ⟨c, hc⟩⟩
  | char d =>
      constructor
      · rintro rfl
        exact ⟨d, decide_eq_true rfl, rfl⟩
      · rintro ⟨c, hc, rfl⟩
        rw [of_decide_eq_true hc]
        rfl

/-- A star takes the beginning of the token. -/
theorem mem_languageOf_run {globs : List Glob} {token : Text} :
    token ∈ languageOf (run :: globs) ↔ ∃ u, u <:+ token ∧ u ∈ languageOf globs := by
  rw [mem_languageOf_cons]
  constructor
  · rintro ⟨s, -, u, hu, rfl⟩
    exact ⟨u, List.suffix_append s u, hu⟩
  · rintro ⟨u, ⟨s, rfl⟩, hu⟩
    exact ⟨s, trivial, u, hu, rfl⟩

/-- Any other glob takes one character. -/
theorem mem_languageOf_of_ne_run {g : Glob} (hg : g ≠ run) {globs : List Glob} {token : Text} :
    token ∈ languageOf (g :: globs) ↔
      ∃ c t, g.accepts c = true ∧ t ∈ languageOf globs ∧ token = c :: t := by
  rw [mem_languageOf_cons]
  constructor
  · rintro ⟨s, hs, t, ht, rfl⟩
    obtain ⟨c, hc, rfl⟩ := (mem_language_iff_accepts hg).1 hs
    exact ⟨c, t, hc, ht, rfl⟩
  · rintro ⟨c, t, hc, ht, rfl⟩
    exact ⟨[c], (mem_language_iff_accepts hg).2 ⟨c, hc, rfl⟩, t, ht, rfl⟩

theorem ne_run_of_accepts {g : Glob} {c : Char} (h : g.accepts c = true) : g ≠ run := by
  rintro rfl
  cases h

/-- Only stars fit the empty token. -/
theorem nil_mem_languageOf {globs : List Glob} :
    [] ∈ languageOf globs ↔ globs.all (· = run) = true := by
  induction globs with
  | nil => exact iff_of_true rfl rfl
  | cons g globs ih =>
      by_cases hg : g = run
      · subst hg
        rw [mem_languageOf_run]
        simpa using ih
      · rw [mem_languageOf_of_ne_run hg]
        simp [hg]

/-! ### Between two stars -/

/-- What is still to be decided where `advance` has ended. -/
def Advance.Fits : Advance → Prop
  | .ended globs => [] ∈ languageOf globs
  | .atRun globs token => ∃ u, u <:+ token ∧ u ∈ languageOf globs
  | .mismatch => False

theorem mem_languageOf_iff_fits (globs : List Glob) (token : Text) :
    token ∈ languageOf globs ↔ (advance globs token).Fits := by
  fun_induction advance globs token with
  | case1 globs => exact Iff.rfl
  | case2 c token => exact iff_of_false (List.cons_ne_nil c token) id
  | case3 g globs c token hc ih =>
      rw [mem_languageOf_of_ne_run (ne_run_of_accepts hc), ← ih]
      constructor
      · rintro ⟨_, _, -, ht, heq⟩
        cases heq
        exact ht
      · exact fun ht => ⟨c, token, hc, ht, rfl⟩
  | case4 globs c token _ => exact mem_languageOf_run
  | case5 g globs c token hc hg =>
      rw [mem_languageOf_of_ne_run hg]
      refine iff_of_false ?_ id
      rintro ⟨_, _, hd, -, heq⟩
      cases heq
      exact hc hd

/-- If some end of the token fits, what is left at the end of `advance` fits too. -/
theorem fits_advance_of_isSuffix {globs : List Glob} {token u : Text}
    (hadvance : advance globs token ≠ .mismatch) (hu : u <:+ token) (h : u ∈ languageOf globs) :
    (advance globs token).Fits := by
  fun_induction advance globs token generalizing u with
  | case1 globs =>
      rw [List.suffix_nil.1 hu] at h
      exact h
  | case2 | case5 => exact absurd rfl hadvance
  | case3 g globs c token hc ih =>
      obtain ⟨d, t, -, ht, rfl⟩ := (mem_languageOf_of_ne_run (ne_run_of_accepts hc)).1 h
      have hsuffix : t <:+ token := by
        rcases List.suffix_cons_iff.1 hu with heq | hsuffix
        · exact (List.cons.inj heq).2 ▸ List.suffix_rfl
        · exact (List.suffix_cons d t).trans hsuffix
      exact ih hadvance hsuffix ht
  | case4 globs c token _ =>
      obtain ⟨v, hv, hglobs⟩ := mem_languageOf_run.1 h
      exact ⟨v, hv.trans hu, hglobs⟩

/-- Some end of the token fits exactly if what is left fits, unless the whole token does not. -/
theorem exists_isSuffix_iff_fits {globs : List Glob} {token : Text}
    (hadvance : advance globs token ≠ .mismatch) :
    (∃ u, u <:+ token ∧ u ∈ languageOf globs) ↔ (advance globs token).Fits :=
  ⟨fun ⟨_, hu, h⟩ => fits_advance_of_isSuffix hadvance hu h,
    fun h => ⟨token, List.suffix_rfl, (mem_languageOf_iff_fits globs token).2 h⟩⟩

/-! ### After a star -/

theorem fitsAfterRun_iff (globs : List Glob) (token : Text) :
    fitsAfterRun globs token = true ↔ ∃ u, u <:+ token ∧ u ∈ languageOf globs := by
  fun_induction fitsAfterRun globs token with
  | case1 globs token globs' hadvance =>
      rw [exists_isSuffix_iff_fits (by rw [hadvance]; exact nofun), hadvance]
      exact nil_mem_languageOf.symm
  | case2 globs token globs' token' hadvance ih =>
      rw [exists_isSuffix_iff_fits (by rw [hadvance]; exact nofun), hadvance]
      exact ih
  | case3 globs hadvance =>
      refine iff_of_false Bool.false_ne_true ?_
      rintro ⟨u, hu, h⟩
      rw [List.suffix_nil.1 hu, mem_languageOf_iff_fits, hadvance] at h
      exact h
  | case4 globs c token hadvance ih =>
      have hwhole : c :: token ∉ languageOf globs := by
        rw [mem_languageOf_iff_fits, hadvance]
        exact id
      rw [ih]
      constructor
      · rintro ⟨u, hu, h⟩
        exact ⟨u, hu.trans (List.suffix_cons c token), h⟩
      · rintro ⟨u, hu, h⟩
        rcases List.suffix_cons_iff.1 hu with rfl | hu
        · exact absurd h hwhole
        · exact ⟨u, hu, h⟩

end Glob

namespace Pattern

/-- The tokens that the pattern fits. -/
def language (p : Pattern) : Language Char := Glob.languageOf p.globs

/-- The matcher decides the pattern's language. -/
theorem mem_language_iff_matchesToken (p : Pattern) (token : Text) :
    token ∈ p.language ↔ p.matchesToken token = true := by
  rw [language, Glob.mem_languageOf_iff_fits, matchesToken]
  cases Glob.advance p.globs token with
  | ended globs => exact Glob.nil_mem_languageOf
  | atRun globs token' => exact (Glob.fitsAfterRun_iff globs token').symm
  | mismatch => exact iff_of_false id Bool.false_ne_true

end Pattern

/-! ## Patterns as regular expressions

`Regex.read?` reads a regular expression of single characters, dots and stars with the usual
escapes, and `Regex.languageOf` gives the texts it accepts as a whole.  The expression of a pattern
is read back as one piece for each glob (`read?_regex`), so only the globs that are written `*` and
`?` come to act as operators.  It accepts the tokens that the matcher lets pass, as long as there is
no line feed in them (`read?_regex_and_mem_languageOf_iff`). -/

/-- A piece of a regular expression. -/
inductive Regex
  | dot
  | char (c : Char)
  | star (piece : Regex)
  deriving DecidableEq, Repr

namespace Regex

/-- The characters that stand for themselves with a backslash before them only. -/
def operators : List Char :=
  ['\\', '.', '+', '*', '?', '(', ')', '|', '[', ']', '{', '}', '^', '$']

/-- Reads what follows the pieces `done`, of which the last one stands first. -/
def readAfter? (done : List Regex) : Text → Option (List Regex)
  | [] => some done.reverse
  | '.' :: s => readAfter? (dot :: done) s
  | '*' :: s =>
    match done with
    | [] => none
    | piece :: done => readAfter? (star piece :: done) s
  | '\\' :: c :: s => if c ∈ operators then readAfter? (char c :: done) s else none
  | c :: s => if c ∈ operators then none else readAfter? (char c :: done) s

/-- The pieces of a regular expression; none if it is not well formed or has other operators than
dots and stars. -/
def read? (s : Text) : Option (List Regex) := readAfter? [] s

/-- The texts that a piece accepts. -/
def language : Regex → Language Char
  | dot => {s | ∃ c, c ≠ '\n' ∧ s = [c]}
  | char c => {[c]}
  | star piece => KStar.kstar piece.language

/-- The texts that the pieces accept one after the other. -/
def languageOf (pieces : List Regex) : Language Char := (pieces.map language).prod

/-- The piece that a glob is meant as. -/
def ofGlob : Glob → Regex
  | .run => star dot
  | .one => dot
  | .char c => char c

/-! ### Reading a pattern's expression -/

theorem readAfter?_char {c : Char} (hc : c ∉ operators) (done : List Regex) (s : Text) :
    readAfter? done (c :: s) = readAfter? (char c :: done) s := by
  have hne : ∀ d ∈ operators, c ≠ d := fun d hd heq => hc (heq ▸ hd)
  rw [readAfter?.eq_def]
  split
  · rename_i h
    cases h
  · rename_i h
    exact absurd (List.cons.inj h).1 (hne '.' (by decide))
  · rename_i h
    exact absurd (List.cons.inj h).1 (hne '*' (by decide))
  · rename_i h
    exact absurd (List.cons.inj h).1 (hne '\\' (by decide))
  · rename_i h
    obtain ⟨rfl, rfl⟩ := List.cons.inj h
    rw [if_neg hc]

theorem readAfter?_escaped {c : Char} (hc : c ∈ operators) (done : List Regex) (s : Text) :
    readAfter? done ('\\' :: c :: s) = readAfter? (char c :: done) s :=
  if_pos hc

/-- Every glob is read as one piece, whatever stands before and after it. -/
theorem readAfter?_glob (g : Glob) (done : List Regex) (s : Text) :
    readAfter? done (g.regex ++ s) = readAfter? (ofGlob g :: done) s := by
  cases g with
  | run => rfl
  | one => rfl
  | char c =>
      by_cases hc : c ∈ operators
      · have hmeta : Glob.isMeta c = true := decide_eq_true hc
        rw [Glob.regex, if_pos hmeta]
        exact readAfter?_escaped hc done s
      · have hmeta : ¬ Glob.isMeta c = true := fun h => hc (of_decide_eq_true h)
        rw [Glob.regex, if_neg hmeta]
        exact readAfter?_char hc done s

theorem readAfter?_globs (globs : List Glob) (done : List Regex) :
    readAfter? done (globs.flatMap Glob.regex) = some (done.reverse ++ globs.map ofGlob) := by
  induction globs generalizing done with
  | nil => rw [List.map_nil, List.append_nil]; rfl
  | cons g globs ih =>
      rw [List.flatMap_cons, readAfter?_glob, ih, List.reverse_cons, List.append_assoc]
      rfl

theorem read?_regex (p : Pattern) : read? p.regex = some (p.globs.map ofGlob) :=
  readAfter?_globs p.globs []

/-! ### What it accepts -/

theorem mem_languageOf_cons {piece : Regex} {pieces : List Regex} {token : Text} :
    token ∈ languageOf (piece :: pieces) ↔
      ∃ s ∈ piece.language, ∃ t ∈ languageOf pieces, s ++ t = token := by
  rw [languageOf, List.map_cons, List.prod_cons]
  exact Language.mem_mul

theorem mem_language_dot_star {s : Text} (hs : '\n' ∉ s) : s ∈ (star dot).language := by
  refine Language.mem_kstar.2 ⟨s.map fun c => [c], ?_, ?_⟩
  · induction s with
    | nil => rfl
    | cons c s ih => exact congrArg (c :: ·) (ih fun h => hs (List.mem_cons_of_mem c h))
  · intro piece hpiece
    obtain ⟨c, hc, rfl⟩ := List.mem_map.1 hpiece
    exact ⟨c, fun hnewline => hs (hnewline ▸ hc), rfl⟩

theorem mem_language_ofGlob {g : Glob} {s : Text} (hs : '\n' ∉ s) :
    s ∈ (ofGlob g).language ↔ s ∈ g.language := by
  cases g with
  | run => exact iff_of_true (mem_language_dot_star hs) trivial
  | one =>
      constructor
      · rintro ⟨c, -, hc⟩
        exact ⟨c, hc⟩
      · rintro ⟨c, rfl⟩
        exact ⟨c, fun hnewline => hs (hnewline ▸ List.mem_singleton_self c), rfl⟩
  | char c => exact Iff.rfl

theorem mem_languageOf_ofGlob {globs : List Glob} {token : Text} (htoken : '\n' ∉ token) :
    token ∈ languageOf (globs.map ofGlob) ↔ token ∈ Glob.languageOf globs := by
  induction globs generalizing token with
  | nil => exact Iff.rfl
  | cons g globs ih =>
      rw [List.map_cons, mem_languageOf_cons, Glob.mem_languageOf_cons]
      constructor
      · rintro ⟨s, hs, t, ht, rfl⟩
        obtain ⟨hs', ht'⟩ := not_or.1 (List.mem_append.not.1 htoken)
        exact ⟨s, (mem_language_ofGlob hs').1 hs, t, (ih ht').1 ht, rfl⟩
      · rintro ⟨s, hs, t, ht, rfl⟩
        obtain ⟨hs', ht'⟩ := not_or.1 (List.mem_append.not.1 htoken)
        exact ⟨s, (mem_language_ofGlob hs').2 hs, t, (ih ht').2 ht, rfl⟩

/-- The expression of a pattern is well formed, its pieces are those of the globs, and it accepts a
token without line feeds exactly if the matcher does. -/
theorem read?_regex_and_mem_languageOf_iff (p : Pattern) :
    read? p.regex = some (p.globs.map ofGlob) ∧
      ∀ token, '\n' ∉ token →
        (token ∈ languageOf (p.globs.map ofGlob) ↔ p.matchesToken token = true) := by
  refine ⟨read?_regex p, fun token htoken => ?_⟩
  rw [mem_languageOf_ofGlob htoken]
  exact p.mem_language_iff_matchesToken token

/-- A plus sign, a question mark and a written star are read as they are meant. -/
theorem read?_regex_and_mem_languageOf_iff_of_literals :
    let p : Pattern := ⟨['c', '+', '?', '\\', '*', '*']⟩
    let pieces : List Regex := [char 'c', char '+', dot, char '*', star dot]
    read? p.regex = some pieces ∧ ['c', '+', '.', '*', 'x'] ∈ languageOf pieces ∧
      ['c', 'c', '.', '*', 'x'] ∉ languageOf pieces := by
  intro p pieces
  obtain ⟨hread, haccepts⟩ := read?_regex_and_mem_languageOf_iff p
  have hfits : p.matchesToken ['c', '+', '.', '*', 'x'] = true :=
    (Glob.fitsAfterRun_iff [] ['x']).2 ⟨[], List.nil_suffix, rfl⟩
  refine ⟨hread, (haccepts _ (by decide)).2 hfits, fun h => ?_⟩
  exact Bool.false_ne_true ((haccepts _ (by decide)).1 h)

end Regex

end Query

end DatasetSearch
