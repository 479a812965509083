import DatasetSearch.Answer
import DatasetSearch.Plan
import DatasetSearch.Text.Basic

/-!
# Highlighting

The terms of a query are marked in the tokens of a text, the text is cut into fragments, and those
with marks are rendered, the best one first.
-/

namespace DatasetSearch

/-! ## Marked tokens

A token of a text is marked with the term of the query that it matches.  A word of a phrase is
marked with itself, and only where the whole phrase stands. -/

/-- A token and the term it is marked with, if it is. -/
structure MarkedToken where
  token : Token
  mark : Option Text
  deriving DecidableEq, Repr

namespace MarkedToken

/-- The token is marked. -/
def isMarked (m : MarkedToken) : Bool := m.mark.isSome

end MarkedToken

namespace Terms

/-- For each word of a list, whether it belongs to an occurrence of the phrase; `left` words at the
front belong to an occurrence that began before. -/
def covered (phrase : List Text) (left : Nat) : List Text → List Bool
  | [] => []
  | w :: ws =>
    let left := if phrase.isPrefixOf (w :: ws) then phrase.length else left
    (0 < left : Bool) :: covered phrase (left - 1) ws

/-- For each word of a list, whether it belongs to an occurrence of one of the phrases. -/
def inPhrases (phrases : List (List Text)) (words : List Text) : List Bool :=
  phrases.foldl (fun flags phrase => List.zipWith (· || ·) flags (covered phrase 0 words))
    (words.map fun _ => false)

/-- Marks the tokens of a text. -/
def markTokens (t : Terms) (tokens : List Token) : List MarkedToken :=
  List.zipWith
    (fun token inPhrase => ⟨token, if inPhrase then some token.text else t.matching token.text⟩)
    tokens (inPhrases t.phrases (tokens.map Token.text))

end Terms

/-! ## Fragments

A text is cut before the tokens that would make a piece longer than the fragment size; a piece has
at least one token, however long.  Pieces without a marked token are dropped, and pieces that then
still touch are joined.  A fragment's score is the number of different marks in it. -/

/-- The bytes of a text from `start` up to `stop`, and the tokens in them. -/
structure Fragment where
  start : Nat
  stop : Nat
  tokens : List MarkedToken
  deriving DecidableEq, Repr

namespace Fragment

/-- The number of different marks. -/
def score (f : Fragment) : Nat := (f.tokens.filterMap MarkedToken.mark).eraseDups.length

/-- Cuts the rest of a text of `length` bytes into pieces, of which the first begins at `start` and
has the tokens `current` already. -/
def cutFrom (size length start : Nat) (current : List MarkedToken) :
    List MarkedToken → List Fragment
  | [] => [⟨start, length, current⟩]
  | m :: ms =>
    if start + size < m.token.stop ∧ current ≠ [] then
      ⟨start, m.token.start, current⟩ :: cutFrom size length m.token.start [m] ms
    else cutFrom size length start (current ++ [m]) ms

/-- The pieces of a text of `length` bytes. -/
def cut (size length : Nat) (ms : List MarkedToken) : List Fragment := cutFrom size length 0 [] ms

/-- Joins neighbours that touch. -/
def joinTouching : List Fragment → List Fragment
  | [] => []
  | f :: fs => match joinTouching fs with
    | [] => [f]
    | g :: gs =>
      if f.stop = g.start then ⟨f.start, g.stop, f.tokens ++ g.tokens⟩ :: gs else f :: g :: gs

/-- Comes first when fragments are shown: the greater score, then the earlier place. -/
def noLater (f g : Fragment) : Bool :=
  g.score < f.score || (f.score = g.score && f.start ≤ g.start)

/-- The fragments to show, best first. -/
def select (pieces : List Fragment) : List Fragment :=
  (joinTouching (pieces.filter fun f => 0 < f.score)).mergeSort noLater

end Fragment

/-! ## Highlights

The highlight of a text shows its fragments, best first, each without white space at its ends and
with its marked tokens between `<mark>` and `</mark>`.  It is empty if no token is marked. -/

namespace Highlight

/-- Written before a marked token. -/
def opening : Text := "<mark>".toList

/-- Written after a marked token. -/
def closing : Text := "</mark>".toList

/-- Written between fragments. -/
def separator : Text := " ... ".toList

/-- The fragment size in bytes. -/
def fragmentSize : Nat := 100

end Highlight

namespace Fragment

open Highlight

/-- The bytes from `cursor` up to `stop` with the tokens marked; `rest` is the text from
`cursor`. -/
def markUp (cursor stop : Nat) (rest : Text) : List MarkedToken → Text
  | [] => rest.takeBytes (stop - cursor)
  | m :: ms =>
    if m.isMarked then
      let here := rest.dropBytes (m.token.start - cursor)
      let length := m.token.stop - m.token.start
      rest.takeBytes (m.token.start - cursor) ++ opening ++ here.takeBytes length ++ closing ++
        markUp m.token.stop stop (here.dropBytes length) ms
    else markUp cursor stop rest ms

/-- The fragment as it is shown. -/
def render (text : Text) (f : Fragment) : Text :=
  (markUp f.start f.stop (text.dropBytes f.start) f.tokens).trim

end Fragment

namespace Terms

/-- The highlight of a text with fragments of a given size; empty if nothing in it is marked. -/
def highlightSized (t : Terms) (size : Nat) (text : Text) : Text :=
  let ms := t.markTokens text.tokens
  if ms.any MarkedToken.isMarked then
    Text.join Highlight.separator
      ((Fragment.select (Fragment.cut (max size 1) text.utf8Size ms)).map (Fragment.render text))
  else []

/-- The highlight of a text. -/
def highlight (t : Terms) (text : Text) : Text := t.highlightSized Highlight.fragmentSize text

/-- The highlights of named texts that have one; a later text of the same name replaces an
earlier. -/
def highlightFields (t : Terms) (fields : List (Text × Text)) : FieldHighlights :=
  fields.foldl
    (fun found field =>
      let marked := t.highlight field.2
      if marked.isEmpty then found else found.insert field.1 marked)
    .empty

end Terms

/-! ## Checked places

Highlighting as it is done on a text whose tokens come from elsewhere: every token must lie in the
text with characters beginning at both its ends, and every part of the text that is taken must be
there. -/

namespace Highlight

/-- What is wrong with a place in a text. -/
inductive Fault
  /-- A token does not fit the text of `length` bytes. -/
  | offsets (start stop length : Nat)
  /-- A part is taken that the text does not have. -/
  | slice (start stop : Nat)
  deriving DecidableEq, Repr

/-- The bytes from `start` up to `stop`. -/
def part (text : Text) (start stop : Nat) : Except Fault Text :=
  match text.slice? start stop with
  | some found => .ok found
  | none => .error (.slice start stop)

end Highlight

open Highlight

namespace Token

/-- Refuses a token that does not fit the text. -/
def check (text : Text) (token : Token) : Except Fault Unit :=
  if token.start ≤ token.stop ∧ token.stop ≤ text.utf8Size ∧ text.isBoundary token.start ∧
      text.isBoundary token.stop then .ok ()
  else .error (.offsets token.start token.stop text.utf8Size)

end Token

namespace Fragment

/-- The bytes from `cursor` up to `stop` with the tokens marked. -/
def checkedMarkUp (text : Text) (cursor stop : Nat) : List MarkedToken → Except Fault Text
  | [] => part text cursor stop
  | m :: ms =>
    if m.isMarked then do
      let gap ← part text cursor m.token.start
      let word ← part text m.token.start m.token.stop
      let rest ← checkedMarkUp text m.token.stop stop ms
      return gap ++ opening ++ word ++ closing ++ rest
    else checkedMarkUp text cursor stop ms

/-- The fragment as it is shown. -/
def checkedRender (text : Text) (f : Fragment) : Except Fault Text := do
  let marked ← checkedMarkUp text f.start f.stop f.tokens
  return marked.trim

end Fragment

namespace Terms

/-- The highlight of a text with fragments of a given size. -/
def checkedHighlight (t : Terms) (size : Nat) (text : Text) : Except Fault Text := do
  text.tokens.forM (Token.check text)
  let ms := t.markTokens text.tokens
  if ms.any MarkedToken.isMarked then
    let parts ← (Fragment.select (Fragment.cut (max size 1) text.utf8Size ms)).mapM
      (Fragment.checkedRender text)
    return Text.join separator parts
  else return []

end Terms

end DatasetSearch
