import DatasetSearch.Answer
import DatasetSearch.Index.Build
import DatasetSearch.Index.Search
import DatasetSearch.Settings.Load

/-!
# The search service

What the service does and what it reports of a rebuild.
-/

namespace DatasetSearch

/-! ## Reports on rebuilding

What can go wrong when an index is built anew, and what a service says about it. -/

/-- Why an index is not built anew. -/
inductive RebuildError
  | removal (path : Text) (e : DiskError)
  | build (e : BuildError)
  | unreadable (path : Text)
  deriving DecidableEq, Repr

/-- The error in words. -/
def RebuildError.message : RebuildError → Text
  | removal path e => "removing ".toList ++ path ++ ": ".toList ++ e.message
  | build e => e.message
  | unreadable path => "opening ".toList ++ path

/-- What came of building an index anew. -/
structure RebuildReport where
  success : Bool
  message : Text
  deriving DecidableEq, Repr, Inhabited

/-- Reports on building an index anew. -/
def RebuildReport.ofResult : Option RebuildError → RebuildReport
  | none => ⟨true, "Index successfully recreated".toList⟩
  | some e => ⟨false, "Failed to recreate index: ".toList ++ e.message⟩

/-! ## The service

A service keeps the index open that it answers from.  It starts from the index in its index
directory or builds one there first; later it can be told to build the index anew.  While there is
no index, after a build that failed, every answer is empty.

What the service does to the disk is part of what its operations return. -/

/-- A running service. -/
structure Service where
  settings : Settings
  environment : Environment
  index? : Option Index.Opened

/-- Why a service does not start. -/
inductive StartError
  | invalid (fault : Settings.Fault)
  | rebuild (e : RebuildError)
  deriving DecidableEq, Repr

/-- The error in words. -/
def StartError.message : StartError → Text
  | invalid fault => fault.message
  | rebuild (.build e) => "Index creation failed: ".toList ++ e.message
  | rebuild e => e.message

/-- Removes what is in the place of the index and builds it from the descriptions. -/
def Builder.rebuild (b : Builder) (d : Disk) (index source : Text) : Disk × Option RebuildError :=
  let (d, failure) := d.clear index
  match failure with
  | some e => (d, some (.removal index e))
  | none =>
    let (d, failure) := b.build d index source
    (d, failure.map .build)

namespace Service

section

variable [IndexReader]

/-- Starts a service.  An index directory that holds an index is taken as it is. -/
def start (s : Settings) (env : Environment) (b : Builder) (d : Disk) :
    Disk × Except StartError Service :=
  match s.fault? with
  | some fault => (d, .error (.invalid fault))
  | none =>
    let path := s.indexPath env
    let (d, failure) :=
      if d.isFile (Index.metaFile path) then (d, none) else b.rebuild d path (s.croissantPath env)
    match failure, Index.open? d path with
    | some e, _ => (d, .error (.rebuild e))
    | none, none => (d, .error (.rebuild (.unreadable path)))
    | none, some ix => (d, .ok ⟨s, env, some ix⟩)

/-- Builds the index anew.  Until that has succeeded the service has none. -/
def recreate (s : Service) (b : Builder) (d : Disk) : Disk × Service × Option RebuildError :=
  let path := s.settings.indexPath s.environment
  let (d, failure) := b.rebuild d path (s.settings.croissantPath s.environment)
  match failure, Index.open? d path with
  | some e, _ => (d, { s with index? := none }, some e)
  | none, none => (d, { s with index? := none }, some (.unreadable path))
  | none, some ix => (d, { s with index? := some ix }, none)

end

/-- The service has an index. -/
def isReady (s : Service) : Bool := s.index?.isSome

variable [Scorer] [Query.Automata] (s : Service)

/-- The answer to a request. -/
def evaluate (r : Request) : Answer :=
  match s.index? with
  | some opened => opened.index.search r s.settings.minScore s.settings.maxResults
  | none => .empty

/-- The answer to a request in chunks. -/
def stream (r : Request) : List Chunk := (s.evaluate r).chunks s.settings.chunkSize

end Service

end DatasetSearch
