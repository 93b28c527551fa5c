import RosettaGateway.Json.Record
import RosettaGateway.Node.Reply

/-!
# Exchanges with a node

A request travels as JSON over HTTP, numbered from one on. `Exchange` is what becomes of it: no
connection, no answer in time, or an answer with a status and a text. `Exchange.reply` reads the
answer: an envelope with a result or an error. A text that is no envelope counts as an outage if the
status says so, and as a malformed answer otherwise.
-/

namespace RosettaGateway

open Json (Record)

/-- The error in an envelope. -/
structure RemoteError where
  code : Int
  message : String

/-- An answer: a result, or an error that outweighs it. -/
structure Envelope where
  result : Json
  error : Option RemoteError

/-- Errors in envelopes as JSON. -/
def RemoteError.json : Json.Codec RemoteError :=
  (((Record.required "code" Json.Codec.int64).and
    (Record.defaulted "message" Json.Codec.string "")).map
      (fun (code, message) => ⟨code, message⟩)
      (fun e => (e.code, e.message))).codec

/-- Envelopes as JSON. -/
def Envelope.json : Json.Codec Envelope :=
  (((Record.defaulted "result" Json.Codec.free .null).and
    (Record.optional "error" RemoteError.json)).map
      (fun (result, error) => ⟨result, error⟩)
      (fun e => (e.result, e.error))).codec

/-- What becomes of a request. -/
inductive Exchange where
  | failed (reason : String)
  | expired (nanoseconds : Nat)
  | answered (status : Nat) (text : String)

namespace Exchange

/-- The text sent for a request. -/
def request (number : Nat) (method : String) (params : Json) : Json :=
  .object [("jsonrpc", .string "2.0"), ("id", .ofNat number), ("method", .string method),
    ("params", params)]

/-- The names of the statuses that tell of an outage. -/
def statusNames : List (Nat × String) :=
  [(500, "Internal Server Error"), (501, "Not Implemented"), (502, "Bad Gateway"),
    (503, "Service Unavailable"), (504, "Gateway Timeout"), (505, "HTTP Version Not Supported"),
    (506, "Variant Also Negotiates"), (507, "Insufficient Storage"), (508, "Loop Detected"),
    (510, "Not Extended"), (511, "Network Authentication Required")]

/-- A status with its name. -/
def statusText (status : Nat) : String :=
  "HTTP " ++ Numeral.ofNat status ++ " " ++ (statusNames.lookup status).getD "<unknown status code>"

/-- Drops the mark that some senders put in front of a text. -/
def dropMark (text : String) : String :=
  match text.toList with
  | '\ufeff' :: rest => String.ofList rest
  | _ => text

/-- The reply of a node, as the outcome of the exchange tells it. -/
def reply (method : String) : Exchange → NodeReply
  | .failed reason => .error (.unreachable reason)
  | .expired nanoseconds => .error (.timeout nanoseconds)
  | .answered status text =>
    match Envelope.json.ofText (dropMark text) with
    -- An error counts even beside a result.
    | .ok ⟨_, some e⟩ => .error (.remote e.code e.message)
    | .ok ⟨result, none⟩ => .ok result
    | .error _ =>
      if 500 ≤ status ∧ status < 600 then .error (.unreachable (statusText status))
      else .error (.malformed method)

end Exchange

end RosettaGateway
