import DatasetSearch.Dictionary
import DatasetSearch.Document
import DatasetSearch.Path

/-!
# Disks

A disk is a tree of named directories and files.  A place on it is the list of the names on the way
there from the top.  A path leads to a place: from the top if it is absolute and from the working
directory if not, `Disk.walk` follows its names, where every name has to be looked up in a directory
that exists.  A name can be that of a symbolic link; then the way goes on where the target of the
link leads, and after a number of links it is given up.

Changes that can stop half-way (`makeDirectories`, `removeTree`) give the disk as they leave it,
together with the error.  A tree is removed from its leaves up, so where something may not be
removed, it stays with the directories around it and with all that was not reached yet.
-/

namespace DatasetSearch

/-- What a file holds: bytes, the target of a symbolic link, or the documents of an index. -/
inductive Content
  | bytes (bs : List UInt8)
  | link (target : Text)
  | index (catalog : Catalog)
  deriving Inhabited

/-- A file, or a directory with what is in it by name. -/
inductive Node
  | file (content : Content)
  | directory (children : List (Text × Node))
  deriving Inhabited

/-- What is in the directory at the top of a disk, the place of the working directory, and the
places where nothing may be made or removed. -/
structure Disk where
  top : List (Text × Node) := []
  here : List Text := []
  denied : List Text → Bool := fun _ => false
  deriving Inhabited

/-- Why a change to a disk fails. -/
inductive DiskError
  | notFound
  | denied
  | busy
  | alreadyExists
  | notDirectory
  | isDirectory
  | invalidArgument
  | nameTooLong
  | notEmpty
  | tooManyLinks
  | unnameable
  deriving DecidableEq, Repr

/-- The error in words. -/
def DiskError.message : DiskError → Text
  | notFound => "No such file or directory (os error 2)".toList
  | denied => "Permission denied (os error 13)".toList
  | busy => "Device or resource busy (os error 16)".toList
  | alreadyExists => "File exists (os error 17)".toList
  | notDirectory => "Not a directory (os error 20)".toList
  | isDirectory => "Is a directory (os error 21)".toList
  | invalidArgument => "Invalid argument (os error 22)".toList
  | nameTooLong => "File name too long (os error 36)".toList
  | notEmpty => "Directory not empty (os error 39)".toList
  | tooManyLinks => "Too many levels of symbolic links (os error 40)".toList
  | unnameable => "file name contained an unexpected NUL byte".toList

/-! ### Places -/

namespace Node

/-- What is at a place below a directory with the given children. -/
def at? : List Text → List (Text × Node) → Option Node
  | [], es => some (.directory es)
  | k :: ks, es => match es.lookup k with
    | some (.directory inside) => at? ks inside
    | some (.file c) => if ks.isEmpty then some (.file c) else none
    | none => none

/-- The children of a directory with `n` at a place below it.  The directory around the place has to
exist, and only a directory can take the place of the directory itself. -/
def put (n : Node) : List Text → List (Text × Node) → List (Text × Node)
  | [], es => match n with
    | .directory inside => inside
    | .file _ => es
  | [k], es => Dictionary.setEntry k n es
  | k :: ks, es => match es.lookup k with
    | some (.directory inside) => Dictionary.setEntry k (.directory (put n ks inside)) es
    | _ => es

/-- The children of a directory without what is at a place below it. -/
def drop : List Text → List (Text × Node) → List (Text × Node)
  | [], es => es
  | [k], es => es.filter fun e => e.1 ≠ k
  | k :: ks, es => match es.lookup k with
    | some (.directory inside) => Dictionary.setEntry k (.directory (drop ks inside)) es
    | _ => es

/-- Whether this is a directory. -/
def isDirectory : Node → Bool
  | .directory _ => true
  | .file _ => false

/-- Whether this is a file. -/
def isFile : Node → Bool
  | .directory _ => false
  | .file _ => true

/-- What the file holds; nothing for a directory. -/
def content? : Node → Option Content
  | .directory _ => none
  | .file c => some c

/-- The target of the symbolic link that this is. -/
def target? : Node → Option Text
  | .file (.link target) => some target
  | _ => none

/-- What is at a place below a node. -/
def under? : Node → List Text → Option Node
  | .directory es, ks => at? ks es
  | .file c, ks => if ks.isEmpty then some (.file c) else none

theorem under?_nil (n : Node) : n.under? [] = some n := by
  cases n <;> rfl

theorem at?_cons (k : Text) (ks : List Text) (es : List (Text × Node)) :
    at? (k :: ks) es = (es.lookup k).bind fun n => n.under? ks := by
  rw [at?]
  cases es.lookup k with
  | none => rfl
  | some n => cases n <;> rfl

/-- What is at a place further down is below what is at the place. -/
theorem at?_append (place rest : List Text) (es : List (Text × Node)) :
    at? (place ++ rest) es = (at? place es).bind fun n => n.under? rest := by
  induction place generalizing es with
  | nil => rfl
  | cons k ks ih =>
    rw [List.cons_append, at?_cons, at?_cons]
    cases es.lookup k with
    | none => rfl
    | some n =>
      cases n with
      | directory inside => exact ih inside
      | file c =>
        cases ks with
        | nil => rfl
        | cons k' ks => rfl

/-- A directory that is put in the place of another is found there. -/
theorem at?_put_directory {place : List Text} {es inside : List (Text × Node)}
    (h : at? place es = some (.directory inside)) (inside' : List (Text × Node)) :
    at? place ((directory inside').put place es) = some (.directory inside') := by
  fun_induction put (directory inside') place es generalizing inside with
  | case1 es inside'' hinside =>
    cases hinside
    rfl
  | case2 es c hfile => cases hfile
  | case3 k es =>
    rw [at?_cons, Dictionary.lookup_setEntry, if_pos rfl]
    rfl
  | case4 k ks es _ children hlookup ih =>
    rw [at?_cons, hlookup] at h
    rw [at?_cons, Dictionary.lookup_setEntry, if_pos rfl]
    exact ih h
  | case5 k ks es hks hlookup =>
    rw [at?_cons] at h
    obtain ⟨n, hn, hinside⟩ := Option.bind_eq_some_iff.1 h
    cases n with
    | directory children => exact absurd hn (hlookup children)
    | file c =>
      cases ks with
      | nil => exact absurd rfl hks
      | cons k' ks => cases hinside

mutual

/-- The files in a node, each with the names on the way there.  Links are not followed. -/
def files : Node → List (List Text × Content)
  | .file (.link _) => []
  | .file c => [([], c)]
  | .directory es => filesOfEach es

/-- The files in the children of a directory. -/
def filesOfEach : List (Text × Node) → List (List Text × Content)
  | [] => []
  | (k, n) :: es => n.files.map (fun f => (k :: f.1, f.2)) ++ filesOfEach es

end

mutual

/-- What is left of the node at a place when it is removed. -/
def remains (denied : List Text → Bool) (place : List Text) : Node → Option Node
  | .file c => if denied place then some (.file c) else none
  | .directory es => match remainsOfEach denied place es with
    | [] => if denied place then some (.directory []) else none
    | left => some (.directory left)

/-- What is left of the children of the directory at a place when they are removed, the last one
first, up to the first that may not be. -/
def remainsOfEach (denied : List Text → Bool) (place : List Text) :
    List (Text × Node) → List (Text × Node)
  | [] => []
  | (k, n) :: es => match remainsOfEach denied place es with
    | [] => match n.remains denied (place ++ [k]) with
      | some n => [(k, n)]
      | none => []
    | left => (k, n) :: left

end

end Node

namespace Disk

variable (d : Disk)

/-- What is at a place. -/
def at? (place : List Text) : Option Node := Node.at? place d.top

/-- What is at a place, apart from what is in a directory. -/
def kind? (place : List Text) : Option (Option Content) := (d.at? place).map Node.content?

/-- The disk with `n` at a place. -/
def put (n : Node) (place : List Text) : Disk := { d with top := n.put place d.top }

/-- The disk without what is at a place. -/
def drop (place : List Text) : Disk := { d with top := Node.drop place d.top }

/-- The disk is what is left of another one after some of its files and directories went. -/
structure RemainsOf (d d₀ : Disk) : Prop where
  here : d.here = d₀.here
  kind? : ∀ {place kind}, d.kind? place = some kind → d₀.kind? place = some kind

/-- There is a directory around everything. -/
theorem kind?_of_child {d : Disk} {place : List Text} {k : Text} {kind : Option Content}
    (h : d.kind? (place ++ [k]) = some kind) : d.kind? place = some none := by
  rw [kind?, at?, Node.at?_append, Option.map_eq_some_iff] at h
  obtain ⟨n, hn, -⟩ := h
  obtain ⟨around, haround, hn⟩ := Option.bind_eq_some_iff.1 hn
  rw [kind?, at?, haround]
  cases around with
  | directory es => rfl
  | file c => cases hn

theorem kind?_child {d : Disk} {place : List Text} {es : List (Text × Node)}
    (h : d.at? place = some (.directory es)) (k : Text) :
    d.kind? (place ++ [k]) = (es.lookup k).map Node.content? := by
  have hes : Node.at? place d.top = some (.directory es) := h
  rw [kind?, at?, Node.at?_append, hes]
  show (Node.at? [k] es).map Node.content? = _
  rw [Node.at?_cons]
  cases es.lookup k with
  | none => rfl
  | some n => rw [Option.bind_some, Node.under?_nil, Option.map_some]

theorem at?_put_directory {d : Disk} {place : List Text} {es : List (Text × Node)}
    (h : d.at? place = some (.directory es)) (es' : List (Text × Node)) :
    (d.put (.directory es') place).at? place = some (.directory es') :=
  Node.at?_put_directory h es'

/-- The greatest size of a name in bytes. -/
def longestName : Nat := 255

/-- The greatest size of a path in bytes. -/
def longestPath : Nat := 4095

/-- The greatest number of links on a way. -/
def mostLinks : Nat := 40

/-- The place where a path starts that is met in the directory at a place. -/
def startFrom (place : List Text) (p : Text) : List Text := if Path.isAbsolute p then [] else place

/-- The place to which names lead from another place, over at most `links` links.  A link at the end
of the way is taken for what it leads to if `follow` is true, and for itself if not. -/
def walk (follow : Bool) (links : Nat) (place names : List Text) :
    Except DiskError (List Text) :=
  match names with
  | [] => .ok place
  | name :: rest => match d.at? place with
    | none => .error .notFound
    | some (.file _) => .error .notDirectory
    | some (.directory _) =>
      if longestName < Text.utf8Size name then .error .nameTooLong
      else match (d.at? (Path.step place name)).bind Node.target? with
        | none => walk follow links (Path.step place name) rest
        | some target =>
          if rest.isEmpty && !follow then .ok (Path.step place name)
          else match links with
            | 0 => .error .tooManyLinks
            | links + 1 =>
              walk follow links (startFrom place target) (Path.namesWithEnd target ++ rest)
termination_by (links, names.length)

/-- The names of a path that can be looked up. -/
def namesOf (p : Text) : Except DiskError (List Text) :=
  if p.contains '\x00' then .error .unnameable
  else if longestPath < Text.utf8Size p then .error .nameTooLong
  else .ok (Path.names p)

/-- The place where a path starts. -/
def start (p : Text) : List Text := startFrom d.here p

/-- The place to which a path leads. -/
def locate (p : Text) : Except DiskError (List Text) := do
  d.walk true mostLinks (d.start p) (← namesOf p)

/-- The place of what a path names: of a link and not of what it leads to, unless the path ends in a
slash. -/
def locateEntry (p : Text) : Except DiskError (List Text) := do
  d.walk (Path.endsInSlash p) mostLinks (d.start p) (← namesOf p)

/-- What is at the end of a path.  A path that ends in a slash leads to directories only. -/
def node? (p : Text) : Option Node :=
  match d.locate p with
  | .error _ => none
  | .ok place =>
    (d.at? place).filter fun n => n.isDirectory || !Path.endsInSlash p

/-- There is something at the end of a path. -/
def contains (p : Text) : Bool := (d.node? p).isSome

/-- There is a file at the end of a path. -/
def isFile (p : Text) : Bool := (d.node? p).any Node.isFile

/-- There is a directory at the end of a path. -/
def isDirectory (p : Text) : Bool := (d.node? p).any Node.isDirectory

/-- All files below the directory at the end of a path, in the order of their paths, which are
compared name by name. -/
def filesBelow (p : Text) : List (List Text × Content) :=
  match d.node? p with
  | some n => n.files.mergeSort fun f g => !decide (g.1 < f.1)
  | none => []

/-- What the file `name` in the directory at a place holds. -/
def contentIn? (name : Text) (place : List Text) : Option Content :=
  match d.walk true mostLinks place [name] with
  | .error _ => none
  | .ok place => (d.at? place).bind Node.content?

/-- The content of the file `name` in the directory at a place or the nearest one around it. -/
def findUpwardFrom? (name : Text) (place : List Text) : Option Content :=
  match d.contentIn? name place with
  | some c => some c
  | none =>
    if place.isEmpty then none
    else findUpwardFrom? name place.dropLast
termination_by place.length
decreasing_by
  cases place with
  | nil => simp_all
  | cons k ks => simp

/-- The content of the file `name` in the directory at the end of a path or the nearest one around
it. -/
def findUpward? (name p : Text) : Option Content :=
  match d.locate p with
  | .ok place => d.findUpwardFrom? name place
  | .error _ => none

/-! ### Changes -/

/-- Makes a directory where names lead to, in a directory that exists. -/
def makeDirectory (start names : List Text) : Except DiskError Disk := do
  let place ← d.walk false mostLinks start names
  match d.at? place with
  | none => if d.denied place then throw .denied else return d.put (.directory []) place
  | some _ => throw .alreadyExists

/-- There is a directory where names lead to. -/
def hasDirectory (start names : List Text) : Bool :=
  match d.walk true mostLinks start names with
  | .ok place => (d.at? place).any Node.isDirectory
  | .error _ => false

/-- What comes of making a directory, where one that is there already is as good. -/
def settle (start names : List Text) : Except DiskError Disk → Disk × Option DiskError
  | .ok d => (d, none)
  | .error e => (d, if d.hasDirectory start names then none else some e)

/-- Makes a directory where names lead to.  If the way there is missing, what is around the
directory is made first, and then the directory is tried again. -/
def makeDirectoriesTo (d : Disk) (start names : List Text) : Disk × Option DiskError :=
  if h : names = [] then (d, none)
  else match d.makeDirectory start names with
    | .error .notFound =>
      have := Path.length_around_lt h
      match makeDirectoriesTo d start (Path.around names) with
      | (d, none) => d.settle start names (d.makeDirectory start names)
      | failed => failed
    | result => d.settle start names result
termination_by names.length

/-- Makes the directory at the end of a path and those on the way there, as far as they are
missing. -/
def makeDirectories (p : Text) : Disk × Option DiskError :=
  match namesOf p with
  | .ok names => d.makeDirectoriesTo (d.start p) names
  | .error e => (d, some e)

/-- Puts a file at the end of a path, in a directory that exists and in the place of another file,
if any. -/
def write (p : Text) (c : Content) : Except DiskError Disk := do
  let place ← d.locate p
  match d.at? place with
  | some (.directory _) => throw .isDirectory
  | some (.file _) => return d.put (.file c) place
  | none => if d.denied place then throw .denied else return d.put (.file c) place

/-- Removes what is at a place. -/
def remove (place : List Text) : Disk × Option DiskError :=
  if d.denied place then (d, some .denied) else (d.drop place, none)

/-- Removes an empty directory where names lead to.  A dot is no name to remove.  If the way there
is gone, so is the directory. -/
def removeEmpty (start names : List Text) : Disk × Option DiskError :=
  match d.walk false mostLinks start names with
  | .error .notFound => (d, none)
  | .error e => (d, some e)
  | .ok place =>
    if place.isEmpty then (d, some .busy)
    else if names.getLast? = some Path.here then (d, some .invalidArgument)
    else if names.getLast? = some Path.up then (d, some .notEmpty)
    else match d.at? place with
      | none => (d, none)
      | some (.file _) => (d, some .notDirectory)
      | some (.directory []) => d.remove place
      | some (.directory _) => (d, some .notEmpty)

/-- Removes the directory at the end of a path with all that is in it.  What is in it goes first,
and with that possibly the way there.  A link goes without what it leads to. -/
def removeTree (p : Text) : Disk × Option DiskError :=
  match d.locateEntry p with
  | .error e => (d, some e)
  | .ok place => match d.at? place with
    | none => (d, some .notFound)
    | some (.file (.link _)) => d.remove place
    | some (.file _) => (d, some .notDirectory)
    | some (.directory es) => match Node.remainsOfEach d.denied place es with
      | [] => (d.put (.directory []) place).removeEmpty (d.start p) (Path.names p)
      | left => (d.put (.directory left) place, some .denied)

/-- Removes what is at the end of a path, if there is anything. -/
def clear (p : Text) : Disk × Option DiskError :=
  if d.contains p then d.removeTree p else (d, none)

end Disk

end DatasetSearch
