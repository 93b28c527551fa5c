import RosettaGateway.Api.Response

/-!
# HTTP

Endpoints take JSON in the body of a POST. A request is looked at from the outside in: its path, its
method, the type of its content, the size of its body, the body itself. The first of these that is
wrong decides, and the answer to it is a status and nothing else. From there on the answer is JSON,
with status 200 or, for an error of the API, 500.
-/

namespace RosettaGateway

/-- A request over HTTP. -/
structure HttpRequest where
  method : String
  target : String
  contentType : Option String
  body : String

/-- The path of a request: its target up to a query or a fragment. -/
def HttpRequest.path (r : HttpRequest) : String :=
  String.ofList (r.target.toList.takeWhile fun c => c != '?' && c != '#')

/-- What an answer over HTTP carries. -/
inductive Content where
  | nothing
  | text (s : String)
  | json (v : Json)

/-- An answer over HTTP. -/
structure HttpResponse where
  status : Nat
  content : Content := .nothing

namespace MediaType

/-- Whether a character may stand in the name of a media type. -/
def isToken (c : Char) : Bool :=
  c.isAlphanum || "!#$%&'*+-.^_`|~".toList.contains c

/-- Where in its parameters a media type has been read to. The flags tell whether a name, a value or
a quoted value has begun. -/
inductive Place where
  | name (begun : Bool)
  | value (begun : Bool)
  | quoted (begun : Bool)
  | behindQuote
  deriving DecidableEq

/-- Whether a row of parameters is well-formed: names and values with an equals sign in between,
blanks only in front of a name and behind a quoted value, and semicolons between the parameters. A
semicolon may also stand at the end. -/
def areParameters : Place → List Char → Bool
  | .name _, [] => false
  | .name false, ' ' :: rest => areParameters (.name false) rest
  | .name true, '=' :: rest => areParameters (.value false) rest
  | .name _, c :: rest => isToken c && areParameters (.name true) rest
  | .value _, [] => true
  | .value false, '"' :: rest => areParameters (.quoted false) rest
  | .value true, ';' :: rest => rest.isEmpty || areParameters (.name false) rest
  | .value _, c :: rest => isToken c && areParameters (.value true) rest
  | .quoted _, [] => false
  | .quoted true, '"' :: rest => areParameters .behindQuote rest
  | .quoted _, c :: rest => ' ' ≤ c && c ≤ '~' && areParameters (.quoted true) rest
  | .behindQuote, [] => true
  | .behindQuote, ' ' :: rest => areParameters .behindQuote rest
  | .behindQuote, ';' :: rest => rest.isEmpty || areParameters (.name false) rest
  | .behindQuote, _ :: _ => false

/-- Whether a subtype is JSON by its name or by one of its parts in front of and behind the last
plus sign. A plus sign at the very front divides nothing. -/
def isJsonSubtype (subtype : List Char) : Bool :=
  let json := "json".toList
  match subtype.reverse.span (· != '+') with
  | (suffix, '+' :: base) => !base.isEmpty && (base.reverse == json || suffix.reverse == json)
  | _ => subtype == json

/-- Whether a media type is JSON. The letters of its names count in either case. -/
def isJson (s : String) : Bool :=
  let (type, rest) := (foldCase s).span isToken
  match rest with
  | '/' :: rest =>
    let (subtype, rest) := rest.span isToken
    type == "application".toList && isJsonSubtype subtype &&
      match rest with
      | [] => true
      | ';' :: parameters => areParameters (.name false) parameters
      | _ => false
  | _ => false

end MediaType

namespace Gateway

/-- The text at the root. -/
def greeting : String := "Theta Rosetta API"

/-- The greatest size of a body in bytes. -/
def maxBodySize : Nat := 2_097_152

/-- The status of a body that cannot be read. -/
def statusOf : Json.Fault → Nat
  | .malformed => 400
  | .mismatch => 422

/-- The answer to a request that an endpoint has read. -/
def respond (g : Gateway) (request : Request) : StateT Ledger Dialogue HttpResponse := do
  match ← (g.answer request).run with
  | .ok response => return ⟨200, .json response.toJson⟩
  | .error e => return ⟨500, .json e.toJson⟩

/-- The answer to a request for the root. -/
def greet (method : String) : HttpResponse :=
  if method = "GET" then ⟨200, .text greeting⟩
  else if method = "HEAD" then ⟨200, .text ""⟩
  else ⟨405, .nothing⟩

/-- The answer to a request. -/
def serve (g : Gateway) (r : HttpRequest) : StateT Ledger Dialogue HttpResponse :=
  -- Browsers ask with `OPTIONS` whether they may ask at all; the gateway allows it everywhere.
  if r.method = "OPTIONS" then return ⟨200, .text ""⟩
  else if r.path = "/" then return greet r.method
  else
    match Endpoint.ofPath? r.path with
    | none => return ⟨404, .nothing⟩
    | some endpoint =>
      if r.method ≠ "POST" then return ⟨405, .nothing⟩
      else if !(r.contentType.any MediaType.isJson) then return ⟨415, .nothing⟩
      else if maxBodySize < r.body.utf8ByteSize then return ⟨413, .nothing⟩
      else
        match endpoint.read r.body with
        | .error fault => return ⟨statusOf fault, .nothing⟩
        | .ok request => g.respond request

end Gateway

end RosettaGateway
