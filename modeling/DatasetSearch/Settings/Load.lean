import DatasetSearch.Dictionary
import DatasetSearch.Disk
import DatasetSearch.Path
import DatasetSearch.Ranking
import DatasetSearch.Settings.Datum
import DatasetSearch.Toml

/-!
# Loading settings

The settings of the service, the layers of defaults, file and environment that they are merged from,
and where the file is found.
-/

namespace DatasetSearch

/-! ## Settings

What a search service is told when it starts, with the places of its index and of its sources that
follow from it, and the settings under which it refuses to start (`Settings.fault?`). -/

/-- The settings of a search service. -/
structure Settings where
  dataDir : Text
  collectionName : Text
  croissantDir : Text := "croissant".toList
  indexDir : Text := "lucene".toList
  port : Nat := 8001
  maxResults : Nat := 100000
  minScore : Score := .ofInt 1
  chunkSize : Nat := 1024
  deriving DecidableEq, Repr, Inhabited

namespace Settings

/-- What is wrong with settings. -/
inductive Fault
  | blankCollectionName
  | zeroMaxResults
  | zeroChunkSize
  | minScoreNotFinite (score : Score)
  deriving DecidableEq, Repr

/-- The fault in words. -/
def Fault.message : Fault → Text
  | blankCollectionName => "Invalid configuration: COLLECTION_NAME must not be empty".toList
  | zeroMaxResults => "Invalid configuration: max_results must be greater than 0".toList
  | zeroChunkSize => "Invalid configuration: chunk_size must be greater than 0".toList
  | minScoreNotFinite score =>
    "Invalid configuration: min_score must be finite, got ".toList ++ score.text

variable (s : Settings)

/-- The first fault of the settings. -/
def fault? : Option Fault :=
  if (Text.trim s.collectionName).isEmpty then some .blankCollectionName
  else if s.maxResults = 0 then some .zeroMaxResults
  else if s.chunkSize = 0 then some .zeroChunkSize
  else if !s.minScore.isFinite then some (.minScoreNotFinite s.minScore)
  else none

/-- The directory of the collection. -/
def collectionPath : Text := Path.join s.dataDir s.collectionName

/-- The directory of the index. -/
def indexPath (env : Environment) : Text := Path.resolve env s.collectionPath s.indexDir

/-- The directory of the descriptions that are indexed. -/
def croissantPath (env : Environment) : Text := Path.resolve env s.collectionPath s.croissantDir

end Settings

/-! ## Layers of settings

Settings come in layers, each of which gives some of them: the settings file, the variables named
like a setting (only `DATA_DIR`, `COLLECTION_NAME` and `CROISSANT_DIR`) and the variables that begin
with `LUCENE_`.  Of several layers that give a setting the last one counts, whatever it gives
(`Layer.ofSources`).  Keys and variables that name no setting are ignored.

`Settings.ofLayer` reads the settings from what counts. -/

/-- What can be set. -/
inductive Setting
  | chunkSize
  | collectionName
  | croissantDir
  | dataDir
  | indexDir
  | maxResults
  | minScore
  | port
  deriving DecidableEq, Repr

namespace Setting

/-- All settings, by key. -/
def all : List Setting :=
  [chunkSize, collectionName, croissantDir, dataDir, indexDir, maxResults, minScore, port]

/-- The key of a setting. -/
def key : Setting → String
  | chunkSize => "chunk_size"
  | collectionName => "collection_name"
  | croissantDir => "croissant_dir"
  | dataDir => "data_dir"
  | indexDir => "index_dir"
  | maxResults => "max_results"
  | minScore => "min_score"
  | port => "port"

/-- The setting of a key. -/
def ofKey? (k : Text) : Option Setting := all.find? fun s => s.key.toList = k

/-- The settings that a variable of the same name can give. -/
def plain : List Setting := [dataDir, collectionName, croissantDir]

end Setting

/-- What one layer gives. -/
abbrev Layer := Dictionary Setting Datum

namespace Layer

/-- The layer of the keys of a settings file. -/
def ofEntries (es : List (Text × Datum)) : Layer :=
  .ofList (es.filterMap fun e => (Setting.ofKey? e.1).map (·, e.2))

/-- The name of a variable as it is compared. -/
def fold (name : Text) : Text := Text.lowerAscii (Text.trim name)

/-- What a variable gives that is named like a setting. -/
def plain? (entry : Text × Text) : Option (Setting × Datum) :=
  ((Setting.ofKey? (fold entry.1)).filter (· ∈ Setting.plain)).map (·, Datum.ofVariable entry.2)

/-- What variables that give settings begin with. -/
def mark : Text := "lucene_".toList

/-- The keys, from the outermost to the innermost, that the rest of a variable's name gives: parts
between dots, none of them empty, without white space in front of the first.  `dir` and nothing else
stands for the directory of the index. -/
def keysOf? (name : Text) : Option (List Text) :=
  let keys :=
    if name = "dir".toList then [Setting.indexDir.key.toList]
    else Text.split '.' (Text.trim name)
  if keys.any List.isEmpty then none else some keys

/-- What a variable gives that begins with the mark. -/
def marked? (entry : Text × Text) : Option (Setting × Datum) := do
  let name ← Text.after? mark (fold entry.1)
  let keys ← keysOf? name
  let setting ← Setting.ofKey? (← keys.head?)
  return (setting, keys.tail.foldr (fun k d => .table [(k, d)]) (Datum.ofVariable entry.2))

/-- The layer of the variables named like a setting. -/
def ofPlain (env : Environment) : Layer := .ofList (env.entries.filterMap plain?)

/-- The layer of the variables that begin with the mark. -/
def ofMarked (env : Environment) : Layer := .ofList (env.entries.filterMap marked?)

/-- What counts of a settings file and an environment. -/
def ofSources (file : List (Text × Datum)) (env : Environment) : Layer :=
  ((ofEntries file).merge (ofPlain env)).merge (ofMarked env)

end Layer

namespace Datum

/-- A text. -/
def text? : Datum → Option Text
  | .text t => some t
  | _ => none

/-- An integer from zero up to `most`. -/
def natural? (most : Nat) : Datum → Option Nat
  | .integer n => if 0 ≤ n ∧ n ≤ most then some n.toNat else none
  | _ => none

/-- A number, rounded to a score. -/
def score? : Datum → Option Score
  | .integer n => some (.ofInt n)
  | .real negative m => some (.ofDouble negative m)
  | _ => none

end Datum

namespace Settings

/-- Why there are no settings. -/
inductive LoadError
  | malformedFile
  | mistyped (setting : Setting)
  | missing (setting : Setting)
  | invalid (fault : Fault)
  deriving DecidableEq, Repr

/-- The error in words, if it is about a setting as a whole. -/
def LoadError.message? : LoadError → Option Text
  | missing s => some
    ("Missing required configuration: missing field `".toList ++ s.key.toList ++ ['\x60'])
  | invalid f => some f.message
  | malformedFile | mistyped _ => none

/-- The value of a setting in a layer, if it has one. -/
def valueOf {α : Type} (l : Layer) (s : Setting) (read : Datum → Option α) :
    Except LoadError (Option α) :=
  match l.get? s with
  | none => .ok none
  | some d => match read d with
    | some x => .ok (some x)
    | none => .error (.mistyped s)

/-- A value that has to be given. -/
def needed {α : Type} (s : Setting) : Option α → Except LoadError α
  | some x => .ok x
  | none => .error (.missing s)

/-- The settings that a layer gives, with the defaults of those that it does not. -/
def ofLayer (l : Layer) : Except LoadError Settings := do
  let chunkSize ← valueOf l .chunkSize (Datum.natural? Word.greatest)
  let collectionName ← valueOf l .collectionName Datum.text?
  let croissantDir ← valueOf l .croissantDir Datum.text?
  let dataDir ← valueOf l .dataDir Datum.text?
  let indexDir ← valueOf l .indexDir Datum.text?
  let maxResults ← valueOf l .maxResults (Datum.natural? Word.greatest)
  let minScore ← valueOf l .minScore Datum.score?
  let port ← valueOf l .port (Datum.natural? Word.greatestShort)
  let dataDir ← needed .dataDir dataDir
  let collectionName ← needed .collectionName collectionName
  let base : Settings := { dataDir, collectionName }
  return { base with
    croissantDir := croissantDir.getD base.croissantDir
    indexDir := indexDir.getD base.indexDir
    port := port.getD base.port
    maxResults := maxResults.getD base.maxResults
    minScore := minScore.getD base.minScore
    chunkSize := chunkSize.getD base.chunkSize }

/-- The settings of a settings file and an environment. -/
def ofSources (file : List (Text × Datum)) (env : Environment) : Except LoadError Settings := do
  let s ← ofLayer (.ofSources file env)
  let s := { s with dataDir := Path.expand env s.dataDir }
  match s.fault? with
  | some f => throw (.invalid f)
  | none => return s

end Settings

/-! ## The settings file

A process finds its settings file in the directory in which it is started or in the nearest one
around that.  Without a file the environment and the defaults have to do. -/

namespace Settings

/-- The name of the settings file. -/
def fileName : Text := "kwsearch.toml".toList

/-- What a settings file of the given content holds. -/
def readFile : Content → Except LoadError (List (Text × Datum))
  | .bytes bs => match (Text.ofBytes? bs).bind Toml.parse? with
    | some es => .ok es
    | none => .error .malformedFile
  | .index _ | .link _ => .error .malformedFile

/-- The settings of a process that is started in a directory of a disk. -/
def load (d : Disk) (directory : Text) (env : Environment) : Except LoadError Settings := do
  let file ← match d.findUpward? fileName directory with
    | some c => readFile c
    | none => pure []
  ofSources file env

end Settings

end DatasetSearch
