import DatasetSearch.Number

/-!
# Ranking

Scores, the order of the hits by them, and the collection of the best hits over the segments of an
index.
-/

namespace DatasetSearch

/-! ## Scores

A score is a single-precision number, kept as its bit pattern.  Ranking compares scores in the
total order of all patterns, in which negative patterns run backwards below the others
(`Score.key`); a threshold compares their values, in which the two zeros are equal and a pattern
that is not a number meets no threshold (`Score.reaches`). -/

/-- A single-precision bit pattern. -/
structure Score where
  bits : UInt32
  deriving DecidableEq, Repr, Inhabited

namespace Score

/-- What the sign bit counts for in a pattern. -/
def signBit : Nat := 2147483648

/-- The sign bit. -/
def isNegative (s : Score) : Bool := signBit ≤ s.bits.toNat

/-- The pattern without its sign bit. -/
def magnitude (s : Score) : Nat := s.bits.toNat % signBit

/-- The score of a sign and a magnitude. -/
def ofMagnitude (negative : Bool) (m : Nat) : Score :=
  ⟨UInt32.ofNat (m % signBit + if negative then signBit else 0)⟩

/-- Not a number. -/
def isNaN (s : Score) : Bool := BinaryFormat.single.infinity < s.magnitude

/-- Neither infinite nor not a number. -/
def isFinite (s : Score) : Bool := s.magnitude < BinaryFormat.single.infinity

/-- The place of the pattern in the total order: patterns compare as their keys. -/
def key (s : Score) : Int := if s.isNegative then -(s.magnitude : Int) - 1 else s.magnitude

/-- The magnitude with its sign; both zeros give `0`.  Numbers compare as these integers. -/
def signed (s : Score) : Int := if s.isNegative then -(s.magnitude : Int) else s.magnitude

/-- The score is a number of at least the value of `least`. -/
def reaches (s least : Score) : Bool :=
  !s.isNaN && !least.isNaN && decide (least.signed ≤ s.signed)

/-- The score nearest to a double-precision number. -/
def ofDouble (negative : Bool) (m : Nat) : Score :=
  ofMagnitude negative (BinaryFormat.double.convert .single m)

/-- The sign bit of a double-precision pattern. -/
def doubleSignBit : Nat := 9223372036854775808

/-- The score nearest to a floating-point number. -/
def ofFloat (x : Float) : Score :=
  let bits := x.toBits.toNat
  ofDouble (doubleSignBit ≤ bits) (bits % doubleSignBit)

/-- The score nearest to an integer. -/
def ofInt (n : Int) : Score := ofMagnitude (n < 0) (BinaryFormat.single.ofNat n.natAbs)

/-- The word for a score that is no finite number, and the shortest decimal for one that is. -/
def text (s : Score) : Text :=
  if s.isNaN then ['N', 'a', 'N']
  else
    (if s.isNegative then ['-'] else []) ++
      if s.isFinite then (Decimal.ofMagnitude .single s.magnitude).text else ['i', 'n', 'f']

end Score

/-! ## Rank order

Hits are ranked by score, the greatest first, and hits of one score by their place in the index. -/

/-- A place in the index: the number of a segment and that of a document in it. -/
structure Address where
  segment : Nat
  doc : Nat
  deriving DecidableEq, Repr, Inhabited

/-- A document that a query found. -/
structure Hit where
  id : Int
  score : Score
  address : Address
  deriving DecidableEq, Repr, Inhabited

namespace Hit

/-- Compares two hits by rank: the smaller one comes first. -/
def rank (a b : Hit) : Ordering :=
  ((compare b.score.key a.score.key).then (compare a.address.segment b.address.segment)).then
    (compare a.address.doc b.address.doc)

/-- The hit comes no later than the other. -/
def noLater (a b : Hit) : Bool := (a.rank b).isLE

/-- The hits by rank; hits of equal rank stay in order. -/
def sort (hits : List Hit) : List Hit := hits.mergeSort noLater

end Hit

/-! ## The best hits

`TopHits` keeps the best of the hits pushed so far, never more than a limit, best first. -/

/-- The best hits so far. -/
structure TopHits where
  limit : Nat
  hits : List Hit
  length_le : hits.length ≤ limit
  deriving DecidableEq, Repr

namespace TopHits

/-- No hits yet. -/
def empty (limit : Nat) : TopHits := ⟨limit, [], Nat.zero_le _⟩

/-- Puts a hit into its place among ranked hits, after those of equal rank. -/
def place (hit : Hit) : List Hit → List Hit
  | [] => [hit]
  | other :: rest => if other.noLater hit then other :: place hit rest else hit :: other :: rest

theorem length_place (hit : Hit) (hits : List Hit) : (place hit hits).length = hits.length + 1 := by
  induction hits with
  | nil => rfl
  | cons other rest ih =>
    rw [place]
    split
    · rw [List.length_cons, ih, List.length_cons]
    · rw [List.length_cons, List.length_cons]

/-- Takes one more hit.  It is kept while there is room; then it takes the place of the last one if
it comes before that. -/
def push (top : TopHits) (hit : Hit) : TopHits :=
  if h : top.hits.length < top.limit then
    ⟨top.limit, place hit top.hits, by rw [length_place]; exact h⟩
  else match hl : top.hits.getLast? with
    | none => top
    | some worst =>
      if hit.rank worst = .lt then
        ⟨top.limit, place hit top.hits.dropLast, by
          have hne : top.hits ≠ [] := fun he => by simp [he] at hl
          rw [length_place, List.length_dropLast]
          have := List.length_pos_iff.2 hne
          have := top.length_le
          omega⟩
      else top

end TopHits

/-! ## Allow-lists

A search can be restricted to some documents.  The empty list restricts nothing. -/

/-- The ids of the documents that may be found, each once. -/
structure AllowList where
  ids : List Int := []
  deriving DecidableEq, Repr, Inhabited

namespace AllowList

/-- The allow-list of some ids. -/
def ofList (ids : List Int) : AllowList := ⟨ids.eraseDups⟩

/-- The list restricts the search. -/
def isActive (a : AllowList) : Bool := !a.ids.isEmpty

/-- The document of this id may be found. -/
def admits (a : AllowList) (id : Int) : Bool := !a.isActive || a.ids.contains id

/-- The number of ids. -/
def size (a : AllowList) : Nat := a.ids.length

end AllowList

/-! ## Collecting hits over segments

Every segment of an index is searched by itself.  A `Collector` takes the scored documents of one
segment, passes over those without an id and those that the allow-list does not admit, counts the
others and keeps the best of them.  `merge` ranks what the segments found together.  Its count is of
all hits, not only of those kept. -/

/-- Ranked hits, and the number of hits they were chosen from. -/
structure Found where
  hits : List Hit
  total : Nat
  deriving DecidableEq, Repr, Inhabited

/-- The state of collecting in one segment. -/
structure Collector where
  segment : Nat
  allow : AllowList
  top : TopHits
  total : Nat
  deriving DecidableEq, Repr

namespace Collector

/-- Begins a segment. -/
def start (segment limit : Nat) (allow : AllowList) : Collector :=
  ⟨segment, allow, .empty limit, 0⟩

/-- Takes one scored document. -/
def collect (c : Collector) (doc : Nat) (id : Option Int) (score : Score) : Collector :=
  match id with
  | none => c
  | some id =>
    if c.allow.admits id then
      { c with top := c.top.push ⟨id, score, ⟨c.segment, doc⟩⟩, total := c.total + 1 }
    else c

/-- What the segment found. -/
def harvest (c : Collector) : Found := ⟨c.top.hits, c.total⟩

end Collector

/-- The best hits of several partitions together. -/
def Found.merge (partitions : List Found) (limit : Nat) : Found where
  hits := (Hit.sort (partitions.flatMap Found.hits)).take limit
  total := partitions.foldr (fun found n => found.total + n) 0

end DatasetSearch
