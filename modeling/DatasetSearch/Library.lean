import DatasetSearch.Index.Build
import DatasetSearch.Index.Search
import DatasetSearch.Json.Value
import DatasetSearch.Ranking
import DatasetSearch.Text.Basic

/-!
# The search library

What the service takes from its search library: automata for wildcard terms, scores, and the files
of an index.  The automata are counted out in full and scores follow BM25, but an index is kept in
two files only, as a small one could be.
-/

namespace DatasetSearch

/-! ### Automata

A wildcard term is searched for with a deterministic automaton over the bytes of the tokens.  Its
states are the sets of places that can be reached together: a place is a glob and how far into a
character of that glob the bytes read so far have come.  `Glob.areTooMany` counts the states that
are reached from the first one and stops past `stateLimit`. -/

namespace Query

/-- The byte ranges of a character, first byte first. -/
abbrev Encoding := List (Nat × Nat)

/-- The encodings of all characters but the line feed. -/
def anyCharacter : List Encoding :=
  let more := (0x80, 0xBF)
  [[(0x00, 0x09)], [(0x0B, 0x7F)], [(0xC2, 0xDF), more], [(0xE0, 0xE0), (0xA0, 0xBF), more],
    [(0xE1, 0xEC), more, more], [(0xED, 0xED), (0x80, 0x9F), more], [(0xEE, 0xEF), more, more],
    [(0xF0, 0xF0), (0x90, 0xBF), more, more], [(0xF1, 0xF3), more, more, more],
    [(0xF4, 0xF4), (0x80, 0x8F), more, more]]

/-- The encoding of one character. -/
def encodingOf (c : Char) : Encoding :=
  (String.utf8EncodeChar c).map fun b => (b.toNat, b.toNat)

/-- A place in a pattern: the number of a glob, the number of one of its encodings, and how many
bytes of it were read.  At the start of a character all its encodings are the same place. -/
structure Place where
  glob : Nat
  encoding : Nat
  read : Nat
  deriving DecidableEq

namespace Place

/-- Places in the order of their parts. -/
def before (p q : Place) : Bool :=
  p.glob < q.glob || (p.glob = q.glob &&
    (p.encoding < q.encoding || (p.encoding = q.encoding && p.read < q.read)))

/-- A set of places as an ascending list, with one more place. -/
def insert (p : Place) : List Place → List Place
  | [] => [p]
  | q :: qs => if p = q then q :: qs else if p.before q then p :: q :: qs else q :: insert p qs

end Place

/-- The encodings of a glob. -/
def Glob.encodings : Glob → List Encoding
  | .char c => [encodingOf c]
  | _ => anyCharacter

/-- The places at the start of the `i`-th glob, whose rest is `globs`: a star may be passed over. -/
def startsAt (i : Nat) : List Glob → List Place
  | .run :: globs => ⟨i, 0, 0⟩ :: startsAt (i + 1) globs
  | _ => [⟨i, 0, 0⟩]

/-- A byte range and the places that its bytes lead to. -/
abbrev Move := (Nat × Nat) × List Place

/-- The move on byte `read` of the `k`-th encoding `e` of the `i`-th glob, which is the first of
`globs`.  The last byte of a character leads to the start of the next glob, or of the same one if
it is a star. -/
def moveAt (i : Nat) (globs : List Glob) (k : Nat) (e : Encoding) (read : Nat) : Option Move :=
  e[read]?.map fun range =>
    (range,
      if read + 1 < e.length then [⟨i, k, read + 1⟩]
      else match globs with
        | .run :: _ => startsAt i globs
        | _ => startsAt (i + 1) globs.tail)

/-- The moves from a place. -/
def Place.moves (globs : List Glob) (p : Place) : List Move :=
  match globs.drop p.glob with
  | [] => []
  | g :: rest =>
    if p.read = 0 then
      g.encodings.zipIdx.filterMap fun (e, k) => moveAt p.glob (g :: rest) k e 0
    else
      (g.encodings[p.encoding]?.bind fun e => moveAt p.glob (g :: rest) p.encoding e p.read).toList

/-- The state that a byte leads to by the given moves. -/
def follow (moves : List Move) (b : Nat) : List Place :=
  moves.foldl
    (fun set m => if m.1.1 ≤ b ∧ b ≤ m.1.2 then m.2.foldl (fun set p => p.insert set) set else set)
    []

/-- The different states that the 256 bytes lead to, the empty one aside. -/
def successors (globs : List Glob) (s : List Place) : List (List Place) :=
  let moves := s.flatMap fun p => p.moves globs
  ((List.range 256).map (follow moves)).eraseDups.filter fun s => !s.isEmpty

/-- The greatest number of states. -/
def stateLimit : Nat := 1000

/-- Counts the states: those of `seen` were found, those of `pending` are to be visited, at most
`fuel` of them. -/
def countStates (globs : List Glob) (fuel : Nat) (pending seen : List (List Place)) : Nat :=
  match fuel, pending with
  | fuel + 1, s :: pending =>
    if stateLimit < seen.length then seen.length
    else
      let fresh := (successors globs s).filter fun t => !seen.contains t
      countStates globs fuel (fresh ++ pending) (fresh ++ seen)
  | _, _ => seen.length

/-- The automaton of the globs has more states than are allowed. -/
def Glob.areTooMany (globs : List Glob) : Bool :=
  let first := startsAt 0 globs
  stateLimit < countStates globs (stateLimit + 1) [first] [first]

/-- The globs that a regular expression was written from (`Glob.ofRegex_regexes`). -/
def Glob.ofRegex : Text → List Glob
  | [] => []
  | '.' :: '*' :: rest => run :: ofRegex rest
  | '.' :: rest => one :: ofRegex rest
  | '\\' :: c :: rest => char c :: ofRegex rest
  | c :: rest => char c :: ofRegex rest

theorem Glob.head?_regexes (globs : List Glob) :
    (globs.flatMap regex).head? ≠ some '*' := by
  cases globs with
  | nil => exact nofun
  | cons g globs =>
    cases g with
    | run => exact nofun
    | one => exact nofun
    | char c =>
      intro h
      rw [List.flatMap_cons, regex] at h
      split at h
      · cases h
      · rename_i hmeta
        cases h
        exact hmeta rfl

/-- A glob is read off the front of a regular expression, if no star follows it there. -/
theorem Glob.ofRegex_regex_append (g : Glob) {s : Text} (hs : s.head? ≠ some '*') :
    ofRegex (g.regex ++ s) = g :: ofRegex s := by
  cases g with
  | run => rfl
  | one =>
    cases s with
    | nil => rfl
    | cons c s =>
      have hc : c ≠ '*' := fun h => hs (by rw [h]; rfl)
      show ofRegex ('.' :: c :: s) = one :: ofRegex (c :: s)
      rw [ofRegex]
      rintro rest h
      exact hc (List.cons.inj h).1
  | char c =>
    rw [regex]
    split
    · rfl
    · rename_i hmeta
      have hdot : c ≠ '.' := fun h => hmeta (by rw [h]; rfl)
      have hescape : c ≠ '\\' := fun h => hmeta (by rw [h]; rfl)
      show ofRegex (c :: s) = char c :: ofRegex s
      rw [ofRegex] <;> simp [hdot, hescape]

theorem Glob.ofRegex_regexes (globs : List Glob) : ofRegex (globs.flatMap regex) = globs := by
  induction globs with
  | nil => rfl
  | cons g globs ih => rw [List.flatMap_cons, ofRegex_regex_append g (head?_regexes globs), ih]

/-- The reason for which a wildcard term is refused. -/
def tooManyStates : Text :=
  "An invalid argument was passed: ".toList ++
    "'RegexQueryError: Compiled regex exceeds size limit of 1000 states'".toList

/-- Automata with too many states are refused, so the patterns whose globs have too many
(`Pattern.refusal?_counted`). -/
instance Automata.counted : Automata where
  refusal? regex := if Glob.areTooMany (Glob.ofRegex regex) then some tooManyStates else none

theorem Pattern.refusal?_counted (p : Pattern) :
    p.refusal? = if Glob.areTooMany p.globs then some tooManyStates else none := by
  show (if Glob.areTooMany (Glob.ofRegex p.regex) then some tooManyStates else none) = _
  rw [regex, Glob.ofRegex_regexes]

end Query

/-! ### Scores

How well a document answers a plan, after BM25: a word counts more the rarer it is, the more often
the field has it and the shorter the field is.  A phrase counts as a word as rare as its words
together; a wildcard counts the same wherever it matches.  Weights multiply, and the clauses that
hold add up.

The length of a field is known to the nearest *length class* below it: lengths up to 40 each have a
class, and above that the classes grow wider, eight of each width, the width doubling each time. -/

/-- The greatest length with a class of its own. -/
def exactLengths : Nat := 40

/-- The length class of a field of `n` words. -/
def lengthClass (n : Nat) : Nat :=
  if n ≤ exactLengths then n
  else
    let m := n - 24
    let width := 1 <<< (m.log2 - 3)
    24 + m / width * width

namespace Relevance

/-- How soon further occurrences of a word stop counting. -/
def saturation : Float := 1.2

/-- How much the length of a field counts. -/
def lengthShare : Float := 0.75

/-- How rare a word is that `n` of `total` documents have. -/
def rarity (n total : Nat) : Float :=
  (1 + ((total - n).toFloat + 0.5) / (n.toFloat + 0.5)).log

/-- The part of the weight that `count` occurrences in a field of `length` words are worth, where
the field has `average` words on average. -/
def share (count length : Nat) (average : Float) : Float :=
  let norm :=
    saturation * (1 - lengthShare + lengthShare * (lengthClass length).toFloat / average)
  count.toFloat / (count.toFloat + norm)

/-- A weight as a factor. -/
def factor (w : Weight) : Float := w.tenths.toFloat / 10

variable (st : Statistics)

/-- What `count` occurrences of the words `ts` in a field of a document are worth, without
weights. -/
def worth (e : Entry) (f : Field) (ts : List Text) (count : Nat) : Float :=
  let rare := (ts.map fun t => rarity (st.frequency f t) st.size).foldl (· + ·) 0
  let average := (st.totalLength f).toFloat / st.size.toFloat
  rare * (1 + saturation) * share count (e.length f) average

mutual

/-- How well a document that the plan asks for answers it, times `boost`. -/
def relevance (e : Entry) (boost : Float) : Plan → Float
  | .word f t => boost * worth st e f [t] ((e.words.get f).count t)
  | .phrase f ts => boost * worth st e f ts (occurrences ts (e.words.get f))
  | .wildcard _ _ => boost
  | .boost w plan => relevance e (boost * factor w) plan
  | .clauses cs => relevanceOfEach e boost cs
  | .nothing => 0

/-- The sum over the clauses that hold, those that must not hold aside. -/
def relevanceOfEach (e : Entry) (boost : Float) : List (Occur × Plan) → Float
  | [] => 0
  | (o, plan) :: cs =>
    (if o ≠ .mustNot ∧ plan.holds e.words.get then relevance e boost plan else 0) +
      relevanceOfEach e boost cs

end

end Relevance

/-- Scores are single-precision numbers. -/
instance Relevance.scorer : Scorer where
  score st e plan := .ofFloat (Relevance.relevance st e 1 plan)

/-! ### Small indexes

A small index has all its documents in one file, with another one that lists the files of the
index.  Nothing more is asked of it than what `IndexReader` and `IndexWriter` say. -/

namespace SmallIndex

open Dictionary (setEntry lookup_setEntry)
open Index (metaName)

/-- The name of the file that lists the files of an index. -/
def listName : Text := ".managed.json".toList

/-- What it holds. -/
def listContent : Content := .bytes (Text.toBytes "[\"meta.json\"]".toList)

/-- The content lists files. -/
def isList : Content → Bool
  | .bytes bs => match (Text.ofBytes? bs).bind Json.parse? with
    | some (.list items) => items.all fun
      | .string _ => true
      | _ => false
    | _ => false
  | _ => false

theorem isList_listContent : isList listContent = true := by decide +kernel

/-- Small indexes have their documents in `meta.json`. -/
instance reader : IndexReader where
  catalog? d place := match d.kind? (place ++ [metaName]) with
    | some (some (.index c)) => some c
    | _ => none
  isSound d place := match d.kind? (place ++ [listName]) with
    | none => true
    | some content => content.any isList
  isDirectory_of_catalog? h := by
    split at h
    · rename_i hmeta
      exact Disk.kind?_of_child hmeta
    · cases h
  catalog?_of_remainsOf hremains h := by
    split at h
    · rename_i hmeta
      rw [hremains.kind? hmeta]
      exact h
    · cases h

/-- Makes a small index where there is none. -/
def create (d : Disk) (place : List Text) : List (Text × Node) × Option BuildError :=
  match d.at? place with
  | some (.directory es) =>
    if es.lookup metaName ≠ none then (es, some .occupied)
    else if !reader.isSound d place then (es, some .unlisted)
    else
      (setEntry metaName (.file (.index .empty)) (setEntry listName (.file listContent) es), none)
  | _ => ([], some (.disk .notDirectory))

/-- Adds documents to a small index, as long as they fit. -/
def commit (documents : List Document) (d : Disk) (place : List Text) :
    List (Text × Node) × Option BuildError :=
  match d.at? place, reader.catalog? d place with
  | some (.directory es), some c => match Catalog.ofDocuments? (c.documents ++ documents) with
    | some c => (setEntry metaName (.file (.index c)) es, none)
    | none => (es, some (.other "Too many documents".toList))
  | some (.directory es), none => (es, some .unlisted)
  | _, _ => ([], some (.disk .notDirectory))

variable {documents : List Document} {d : Disk} {place : List Text} {es es' : List (Text × Node)}

theorem create_eq_ok (hes : d.at? place = some (.directory es))
    (h : create d place = (es', none)) :
    es.lookup metaName = none ∧ reader.isSound d place = true ∧
      es' = setEntry metaName (.file (.index .empty))
        (setEntry listName (.file listContent) es) := by
  unfold create at h
  rw [hes] at h
  dsimp only at h
  split at h
  · cases h
  · rename_i hmeta
    split at h
    · cases h
    · rename_i hsound
      exact ⟨Decidable.not_not.1 hmeta, by simpa using hsound, (Prod.mk.inj h).1.symm⟩

theorem commit_eq_ok (hes : d.at? place = some (.directory es))
    (h : commit documents d place = (es', none)) :
    ∃ c c', reader.catalog? d place = some c ∧ c'.documents = c.documents ++ documents ∧
      es' = setEntry metaName (.file (.index c')) es := by
  unfold commit at h
  rw [hes] at h
  cases hc : reader.catalog? d place with
  | none =>
    rw [hc] at h
    cases h
  | some c =>
    rw [hc] at h
    dsimp only at h
    split at h
    · rename_i c' hc'
      exact ⟨c, c', rfl, Catalog.documents_of_ofDocuments? hc', (Prod.mk.inj h).1.symm⟩
    · cases h

theorem catalog?_create (hes : d.at? place = some (.directory es))
    (h : create d place = (es', none)) :
    reader.catalog? (d.put (.directory es') place) place = some .empty ∧
      reader.isSound (d.put (.directory es') place) place = true ∧
      ∃ c, es'.lookup metaName = some (.file c) ∧ (Node.file c).target? = none := by
  obtain ⟨-, -, rfl⟩ := create_eq_ok hes h
  have hchild := Disk.kind?_child (Disk.at?_put_directory hes (setEntry metaName
    (.file (.index .empty)) (setEntry listName (.file listContent) es)))
  have hne : listName ≠ metaName := by decide
  refine ⟨?_, ?_, .index .empty, ?_, rfl⟩
  · simp [IndexReader.catalog?, hchild, lookup_setEntry, Node.content?]
  · simp [IndexReader.isSound, hchild, lookup_setEntry, Node.content?, hne, isList_listContent]
  · rw [lookup_setEntry, if_pos rfl]

theorem catalog?_commit {c : Catalog} (hes : d.at? place = some (.directory es))
    (hc : reader.catalog? d place = some c) (h : commit documents d place = (es', none)) :
    ∃ c', reader.catalog? (d.put (.directory es') place) place = some c' ∧
      c'.documents = c.documents ++ documents := by
  obtain ⟨c₀, c', hc₀, hdocuments, rfl⟩ := commit_eq_ok hes h
  rw [hc] at hc₀
  cases hc₀
  have hchild := Disk.kind?_child
    (Disk.at?_put_directory hes (setEntry metaName (.file (.index c')) es)) metaName
  refine ⟨c', ?_, hdocuments⟩
  simp [IndexReader.catalog?, hchild, lookup_setEntry, Node.content?]

/-- A file that is set leaves the directories and links where it takes the place of none. -/
theorem keepsWays_setEntry {k : Text} (n : Node)
    (h : ∀ m, es.lookup k = some m → m.isDirectory = false ∧ m.target? = none) :
    KeepsWays es (setEntry k n es) := by
  intro x m hm hway
  rw [lookup_setEntry]
  by_cases hx : x = k
  · subst hx
    obtain ⟨hdirectory, htarget⟩ := h m hm
    rw [hdirectory, htarget] at hway
    simp at hway
  · rw [if_neg hx]
    exact hm

theorem keepsWays_create (hes : d.at? place = some (.directory es))
    (h : create d place = (es', none)) : KeepsWays es es' := by
  obtain ⟨hmeta, hsound, rfl⟩ := create_eq_ok hes h
  have hlist : KeepsWays es (setEntry listName (.file listContent) es) := by
    refine keepsWays_setEntry _ fun m hm => ?_
    have hkind := Disk.kind?_child hes listName
    rw [hm] at hkind
    simp only [IndexReader.isSound, hkind] at hsound
    cases m with
    | directory inside => cases hsound
    | file c =>
      cases c with
      | link target => cases hsound
      | bytes bs => exact ⟨rfl, rfl⟩
      | index c => exact ⟨rfl, rfl⟩
  intro x m hm hway
  have hx : x ≠ metaName := by
    rintro rfl
    rw [hmeta] at hm
    cases hm
  rw [lookup_setEntry, if_neg hx]
  exact hlist x m hm hway

theorem keepsWays_commit (hes : d.at? place = some (.directory es))
    (h : commit documents d place = (es', none)) : KeepsWays es es' := by
  obtain ⟨c, c', hc, -, rfl⟩ := commit_eq_ok hes h
  refine keepsWays_setEntry _ fun m hm => ?_
  have hkind := Disk.kind?_child hes metaName
  rw [hm] at hkind
  simp only [IndexReader.catalog?, hkind] at hc
  cases m with
  | directory inside => cases hc
  | file content =>
    cases content with
    | link target => cases hc
    | bytes bs => exact ⟨rfl, rfl⟩
    | index c => exact ⟨rfl, rfl⟩

/-- Small indexes are written by setting the two files. -/
def writer : IndexWriter where
  create := create
  commit := commit
  catalog?_create := catalog?_create
  catalog?_commit := catalog?_commit
  keepsWays_create := keepsWays_create
  keepsWays_commit := keepsWays_commit

end SmallIndex

/-- Makes a small index of descriptions. -/
def Builder.croissant : Builder := .indexing SmallIndex.writer

end DatasetSearch
