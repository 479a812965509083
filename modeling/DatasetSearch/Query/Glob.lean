import DatasetSearch.Text.Token

/-!
# Wildcard patterns

A pattern is a text in lower case in which a star stands for any run of characters, a question mark
for any one character, and a backslash before a character for that character; a backslash at the
end stands for itself.

`Pattern.matchesToken` asks whether a whole token fits.  It goes through the globs and the token
together (`Glob.advance`) as far as the next star.  Past a star it goes back, when the globs after
it do not fit, to that star only and lets it take one character more (`Glob.fitsAfterRun`).
`Pattern.regex` writes the pattern as an anchored regular expression.
-/

namespace DatasetSearch.Query

/-- A wildcard pattern. -/
structure Pattern where
  text : Text
  deriving DecidableEq, Repr, Inhabited

/-- What one place of a pattern stands for. -/
inductive Glob
  | run
  | one
  | char (c : Char)
  deriving DecidableEq, Repr

namespace Glob

/-- The glob fits one character. -/
def accepts : Glob → Char → Bool
  | run, _ => false
  | one, _ => true
  | char c, d => c = d

/-- Where going through globs and a token together ends. -/
inductive Advance
  /-- The token has ended before the globs. -/
  | ended (globs : List Glob)
  /-- The next glob is a star: the globs after it, and what is left of the token. -/
  | atRun (globs : List Glob) (token : Text)
  /-- The next character does not fit. -/
  | mismatch
  deriving DecidableEq, Repr

/-- Goes through the globs and the token, a character for each glob, as far as the next star. -/
def advance : List Glob → Text → Advance
  | globs, [] => .ended globs
  | [], _ :: _ => .mismatch
  | g :: globs, c :: token =>
    if g.accepts c then advance globs token
    else if g = run then .atRun globs (c :: token)
    else .mismatch

theorem length_lt_of_advance_eq_atRun {globs globs' : List Glob} {token token' : Text}
    (h : advance globs token = .atRun globs' token') : globs'.length < globs.length := by
  fun_induction advance globs token with
  | case1 | case2 | case5 => cases h
  | case3 g globs c token _ ih => exact Nat.lt_succ_of_lt (ih h)
  | case4 globs c token => cases h; exact Nat.lt_succ_self _

/-- The globs that follow a star fit some end of the token.  The star takes one character more
whenever they do not fit; at a further star, that one is the star to go back to. -/
def fitsAfterRun (globs : List Glob) (token : Text) : Bool :=
  match _h : advance globs token with
  | .ended globs' => globs'.all (· = run)
  | .atRun globs' token' => fitsAfterRun globs' token'
  | .mismatch =>
    match token with
    | [] => false
    | _ :: token' => fitsAfterRun globs token'
termination_by (globs.length, token.length)
decreasing_by
  · exact Prod.Lex.left _ _ (length_lt_of_advance_eq_atRun _h)
  · exact Prod.Lex.right _ (Nat.lt_succ_self _)

/-- The characters that a regular expression gives a meaning. -/
def isMeta (c : Char) : Bool :=
  c ∈ ['\\', '.', '+', '*', '?', '(', ')', '|', '[', ']', '{', '}', '^', '$']

/-- The glob as part of a regular expression. -/
def regex : Glob → Text
  | run => ['.', '*']
  | one => ['.']
  | char c => if isMeta c then ['\\', c] else [c]

/-- The globs of a text. -/
def ofText : Text → List Glob
  | [] => []
  | ['\\'] => [char '\\']
  | '\\' :: c :: rest => char c :: ofText rest
  | '*' :: rest => run :: ofText rest
  | '?' :: rest => one :: ofText rest
  | c :: rest => char c :: ofText rest

end Glob

namespace Pattern

instance : LT Pattern := ⟨fun p q => p.text < q.text⟩

instance : DecidableLT Pattern := fun p q => inferInstanceAs (Decidable (p.text < q.text))

/-- The pattern of a query term. -/
def ofTerm (t : Text) : Pattern := ⟨Text.lower t⟩

/-- The globs of the pattern. -/
def globs (p : Pattern) : List Glob := Glob.ofText p.text

/-- The pattern fits the whole token. -/
def matchesToken (p : Pattern) (token : Text) : Bool :=
  match Glob.advance p.globs token with
  | .ended globs => globs.all (· = .run)
  | .atRun globs token' => Glob.fitsAfterRun globs token'
  | .mismatch => false

/-- The pattern as a regular expression that a whole token has to match. -/
def regex (p : Pattern) : Text := p.globs.flatMap Glob.regex

end Pattern

/-- What makes the automata that tokens are run through.  It may refuse a regular expression, and
then gives the reason. -/
class Automata where
  refusal? : Text → Option Text

/-- Why there is no automaton for the pattern, if it is refused. -/
def Pattern.refusal? [Automata] (p : Pattern) : Option Text := Automata.refusal? p.regex

end DatasetSearch.Query
