import DatasetSearch.Text.Basic
import DatasetSearch.Text.Token

/-!
# Paths

Paths as texts, the environment of a process, and the expansion of the variables and of the home
directory that a path may name.
-/

namespace DatasetSearch

/-! ## Ways

A path is a text in which slashes separate names.  `Path.names` are the names on the way that it
takes from its start: each leads down into the directory of that name, but a dot leads nowhere and
two dots lead up again (`Path.step`). -/

namespace Path

/-- The path begins at the root. -/
def isAbsolute (p : Text) : Bool := p.head? = some '/'

/-- The path `p` as seen from `base`. -/
def join (base p : Text) : Text :=
  if isAbsolute p then p
  else if base.isEmpty ∨ base.getLast? = some '/' then base ++ p
  else base ++ '/' :: p

/-- The name of where one is. -/
def here : Text := ['.']

/-- The name of the way up. -/
def up : Text := ['.', '.']

/-- The names of a path.  Slashes side by side are one. -/
def names (p : Text) : List Text := (Text.split '/' p).filter fun s => !s.isEmpty

/-- The path can only lead to a directory, as it ends in a slash. -/
def endsInSlash (p : Text) : Bool := p.getLast? = some '/'

/-- The names of a path, with a dot at the end if it can only lead to a directory. -/
def namesWithEnd (p : Text) : List Text := names p ++ if endsInSlash p then [here] else []

/-- The place, as the names on the way there from the top, that a name leads to from another. -/
def step (place : List Text) (name : Text) : List Text :=
  if name = here then place else if name = up then place.dropLast else place ++ [name]

/-- The names without the dots at their end. -/
def withoutDots (names : List Text) : List Text :=
  (names.reverse.dropWhile fun s => s = here).reverse

/-- The names of the path around a path, from which its last name that is not a dot leads to it. -/
def around (names : List Text) : List Text := withoutDots (withoutDots names).dropLast

theorem length_withoutDots_le (names : List Text) : (withoutDots names).length ≤ names.length := by
  have := (List.dropWhile_suffix (fun s => decide (s = here)) (l := names.reverse)).length_le
  simpa [withoutDots] using this

/-- The path around a path is shorter. -/
theorem length_around_lt {names : List Text} (h : names ≠ []) :
    (around names).length < names.length := by
  have h₁ := length_withoutDots_le (withoutDots names).dropLast
  have h₂ := length_withoutDots_le names
  have h₃ := List.length_pos_iff.2 h
  rw [List.length_dropLast] at h₁
  rw [around]
  omega

end Path

/-! ## Environments

The variables that a process is started with, in order.  Each stands in the environment as one line
`NAME=VALUE`, and looking up a name finds the first line that begins with it and an equals sign.  So
`A=B` is found in a variable `A` whose value begins with `B=`. -/

/-- Variables, each with a name and a value, and the home directory of the account that the process
runs under, if it is known. -/
structure Environment where
  entries : List (Text × Text) := []
  accountHome : Option Text := none
  deriving DecidableEq, Repr, Inhabited

namespace Environment

/-- A variable as a line. -/
def line (entry : Text × Text) : Text := entry.1 ++ '=' :: entry.2

/-- The value of a name; the empty name has none. -/
def get? (env : Environment) (name : Text) : Option Text :=
  if name.isEmpty then none
  else env.entries.findSome? fun entry => Text.after? (name ++ ['=']) (line entry)

/-- The home directory of the user: what `HOME` says, unless it is empty. -/
def home? (env : Environment) : Option Text :=
  ((env.get? "HOME".toList).filter fun h => !h.isEmpty).or env.accountHome

end Environment

/-! ## Path expansion

A path may name variables and the home directory:

* `$NAME` and `${NAME}` stand for the value of a variable, and `${NAME:-default}` for the default if
  the variable is not set; `$$` stands for a dollar sign, and so does a dollar sign that begins none
  of these;
* afterwards a tilde in front, alone or before a slash, stands for the home directory.

A path that names a variable which is neither set nor has a default keeps all its dollar signs as
they are written.  Values are not expanded again. -/

namespace Path

/-- A part of a path that may need expansion. -/
inductive Part
  | plain (c : Char)
  | reference (name : Text) (fallback : Option Text)
  deriving DecidableEq, Repr

/-- A character of a variable's name that needs no braces. -/
def isNameChar (c : Char) : Bool := Text.isAlphanumeric c || c = '_'

/-- A text up to the first `:-`, and what follows that. -/
def splitFallback : Text → Text × Option Text
  | [] => ([], none)
  | ':' :: '-' :: rest => ([], some rest)
  | c :: rest => (c :: (splitFallback rest).1, (splitFallback rest).2)

/-- The variable of a text in braces.  Only a name has a default. -/
def braced (inside : Text) : Part :=
  match splitFallback inside with
  | ([], _) => .reference inside none
  | (name, fallback) => .reference name fallback

theorem length_dropWhile_lt {p : Char → Bool} {s : Text} {c : Char} {rest : Text}
    (h : s.dropWhile p = c :: rest) : rest.length < s.length := by
  have := (List.dropWhile_suffix p (l := s)).length_le
  rw [h] at this
  exact this

theorem length_dropWhile_le (p : Char → Bool) (s : Text) : (s.dropWhile p).length ≤ s.length :=
  (List.dropWhile_suffix p).length_le

/-- The parts of a path. -/
def parts (p : Text) : List Part :=
  match p with
  | [] => []
  | '$' :: '{' :: rest =>
    match h : rest.dropWhile (· ≠ '}') with
    | _ :: rest' =>
      have := length_dropWhile_lt h
      braced (rest.takeWhile (· ≠ '}')) :: parts rest'
    | [] => .plain '$' :: .plain '{' :: parts rest
  | '$' :: '$' :: rest => .plain '$' :: parts rest
  | '$' :: c :: rest =>
    if isNameChar c then
      have := length_dropWhile_le isNameChar rest
      .reference (c :: rest.takeWhile isNameChar) none :: parts (rest.dropWhile isNameChar)
    else .plain '$' :: parts (c :: rest)
  | c :: rest => .plain c :: parts rest
termination_by p.length
decreasing_by all_goals simp_all only [List.length_cons]; omega

/-- What a part stands for; nothing for a variable that is not set and has no default. -/
def Part.value? (env : Environment) : Part → Option Text
  | plain c => some [c]
  | .reference name fallback => (env.get? name).or fallback

/-- The path with the values of its variables, if each of them has one. -/
def expandVariables (env : Environment) (p : Text) : Text :=
  match (parts p).mapM (Part.value? env) with
  | some values => values.flatten
  | none => p

/-- The path with the home directory in the place of a tilde. -/
def expandHome (env : Environment) (p : Text) : Text :=
  match p with
  | '~' :: rest =>
    if rest.isEmpty ∨ isAbsolute rest then
      match env.home? with
      | some home => home ++ rest
      | none => p
    else p
  | _ => p

/-- The path that `p` stands for. -/
def expand (env : Environment) (p : Text) : Text := expandHome env (expandVariables env p)

/-- The path that `p` stands for as seen from `base`. -/
def resolve (env : Environment) (base p : Text) : Text := join base (expand env p)

end Path

end DatasetSearch
