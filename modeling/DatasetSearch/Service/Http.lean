import DatasetSearch.Library
import DatasetSearch.Path
import DatasetSearch.Service.Basic
import DatasetSearch.Text.Basic
import DatasetSearch.Wire.Forms

/-!
# The service over HTTP

Media types, messages, and what the service answers to a request.
-/

namespace DatasetSearch

/-! ## Media types

A media type names a type and a subtype, with a slash between them, and may have parameters after
semicolons.  What follows the last plus sign of a subtype is its suffix. -/

namespace Http

/-- A media type without its parameters, as it is written. -/
structure MediaType where
  kind : Text
  subtype : Text
  suffix : Option Text
  deriving DecidableEq, Repr

namespace MediaType

/-- A character of a name or of a value without quotes. -/
def isToken (c : Char) : Bool := c.isAlphanum || "!#$%&'*+-.^_\x60|~".toList.contains c

/-- A character that a header may hold. -/
def isVisible (c : Char) : Bool := 0x20 ≤ c.toNat && c.toNat < 0x7F

/-- What comes next in a row of parameters; `fresh` if none of it was read yet. -/
inductive Position
  | name (fresh : Bool)
  | value (fresh : Bool)
  | quoted (fresh : Bool)
  | afterQuoted

/-- The text goes on with parameters to its end. -/
def hasParameters : Position → Text → Bool
  | .name fresh, [] => fresh
  | .name true, ' ' :: rest => hasParameters (.name true) rest
  | .name false, '=' :: rest => hasParameters (.value true) rest
  | .name _, c :: rest => isToken c && hasParameters (.name false) rest
  | .value _, [] => true
  | .value true, '"' :: rest => hasParameters (.quoted true) rest
  | .value false, ';' :: rest => hasParameters (.name true) rest
  | .value _, c :: rest => isToken c && hasParameters (.value false) rest
  | .quoted _, [] => false
  | .quoted false, '"' :: rest => hasParameters .afterQuoted rest
  | .quoted _, c :: rest => isVisible c && hasParameters (.quoted false) rest
  | .afterQuoted, [] => true
  | .afterQuoted, ';' :: rest => hasParameters (.name true) rest
  | .afterQuoted, ' ' :: rest => hasParameters .afterQuoted rest
  | .afterQuoted, _ => false

/-- The media type with a type and a subtype that may end in a suffix. -/
def ofNames (kind name : Text) : MediaType :=
  let suffix := (name.reverse.takeWhile (· ≠ '+')).reverse
  if name.length ≤ suffix.length + 1 then ⟨kind, name, none⟩
  else ⟨kind, name.take (name.length - suffix.length - 1), some suffix⟩

/-- The media type that a text names. -/
def parse? (t : Text) : Option MediaType :=
  let kind := t.takeWhile isToken
  match t.dropWhile isToken with
  | '/' :: rest =>
    let name := rest.takeWhile isToken
    if kind.isEmpty ∨ name.isEmpty then none
    else match rest.dropWhile isToken with
      | [] => some (.ofNames kind name)
      | ';' :: rest => if hasParameters (.name true) rest then some (.ofNames kind name) else none
      | _ => none
  | _ => none

/-- JSON, or an application of it.  Letters may be of either case. -/
def isJson (m : MediaType) : Bool :=
  Text.lowerAscii m.kind = "application".toList &&
    (Text.lowerAscii m.subtype = "json".toList ||
      m.suffix.any fun s => Text.lowerAscii s = "json".toList)

end MediaType

/-! ## Requests and responses

The parts of HTTP messages that a service looks at or fills in. -/

/-- What a client sends. -/
structure Request where
  method : Text
  target : Text
  contentType : Option Text
  body : Text
  deriving DecidableEq, Repr

/-- A character of the scheme of an address. -/
def isSchemeChar (c : Char) : Bool := c.isAlphanum || "+-.~".toList.contains c

/-- What follows the scheme of an address and `://`, if there is one in front. -/
def afterScheme? (target : Text) : Option Text :=
  Text.after? "://".toList (target.dropWhile isSchemeChar)

/-- The characters before a query or a fragment. -/
def beforeQuery (target : Text) : Text := target.takeWhile fun c => c ≠ '?' && c ≠ '#'

/-- The path of the target, without a query.  A target is a path, an address with a scheme and a
host, of which the path may be missing, or a host alone, which has none. -/
def Request.path (r : Request) : Text :=
  if Path.isAbsolute r.target then beforeQuery r.target
  else match afterScheme? r.target with
    | none => []
    | some rest =>
      match beforeQuery (rest.dropWhile fun c => c ≠ '/' && c ≠ '?' && c ≠ '#') with
      | [] => ['/']
      | path => path

/-- The request says that its body is JSON. -/
def Request.hasJson (r : Request) : Bool :=
  ((r.contentType.bind MediaType.parse?).any MediaType.isJson)

/-- What a client is sent. -/
structure Response where
  status : Nat
  contentType : Text := []
  body : Text := []
  deriving DecidableEq, Repr, Inhabited

/-- The media type of a JSON value. -/
def json : Text := "application/json".toList

/-- The media type of JSON values on a line each. -/
def jsonLines : Text := "application/x-ndjson".toList

end Http

/-! ## Targets

A service answers requests at four targets (`Target`).  What is wrong with a request is found in
this order: its path, its method, its content type, its body.  A search reads the JSON value in
front of the body and leaves the rest of it alone; rebuilding the index does not look at the body
at all. -/

open Json (Value)

namespace Service

/-- What a service can be asked for. -/
inductive Target
  | evaluate
  | stream
  | recreate
  | health
  deriving DecidableEq, Repr

namespace Target

/-- The target of a path. -/
def ofPath? (path : Text) : Option Target :=
  match String.ofList path with
  | "/evaluate" => some evaluate
  | "/evaluate_stream" => some stream
  | "/recreate_index" => some recreate
  | "/health" => some health
  | _ => none

/-- The methods by which a target can be asked for. -/
def methods : Target → List Text
  | health => ["GET".toList, "HEAD".toList]
  | evaluate | stream | recreate => ["POST".toList]

end Target

/-- The search that a request asks for, or the status that says why it asks for none. -/
def searchOf (r : Http.Request) : Except Nat Request :=
  if !r.hasJson then .error 415
  else match Json.decodeFront Request.decoder r.body with
    | .ok search => .ok search
    | .error .malformed => .error 400
    | .error .mismatch => .error 422

/-- A response that is one JSON value. -/
def respondJson (v : Value) : Http.Response := ⟨200, Http.json, v.text⟩

/-- The chunks of an answer, each on a line. -/
def lines (chunks : List Chunk) : Text := chunks.flatMap fun c => c.toValue.text ++ ['\n']

variable (s : Service)

/-- The state of the service. -/
def healthForm : Value :=
  .record [("status", .string "ok".toList), ("indexLoaded", .bool s.isReady)]

/-- The response to a search. -/
def respondSearch (r : Http.Request) (respond : Request → Http.Response) : Http.Response :=
  match searchOf r with
  | .ok search => respond search
  | .error status => { status }

variable [IndexReader] [Scorer] [Query.Automata]

/-- The response to a request, with the disk and the service afterwards. -/
def respond (b : Builder) (d : Disk) (r : Http.Request) : Disk × Service × Http.Response :=
  match Target.ofPath? r.path with
  | none => (d, s, { status := 404 })
  | some target =>
    if !target.methods.contains r.method then (d, s, { status := 405 })
    else match target with
      | .evaluate => (d, s, respondSearch r fun q => respondJson (s.evaluate q).toValue)
      | .stream => (d, s, respondSearch r fun q => ⟨200, Http.jsonLines, lines (s.stream q)⟩)
      | .health =>
        let response := respondJson s.healthForm
        (d, s, if r.method = "HEAD".toList then { response with body := [] } else response)
      | .recreate => match s.recreate b d with
        | (d, s, some (.build .crash)) => (d, s, { status := 500 })
        | (d, s, result) => (d, s, respondJson (RebuildReport.ofResult result).toValue)

end Service

end DatasetSearch
