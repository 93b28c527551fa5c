import RosettaGateway.Api.Backfill
import RosettaGateway.Api.Router
import RosettaGateway.Config.Flags
import RosettaGateway.Node.Exchange

/-!
# The gateway as a program

The program reads its flags and its configuration and serves requests from its standard input, one a
line: a method, a path and a body, with blanks between them. The answer is a line with the status
and the content. No connection to a node is part of this program, so a gateway with a node does not
start.
-/

namespace RosettaGateway

/-- Reads a configuration from a file; a missing file stands for the defaults. -/
def loadConfig (path : String) : IO Config := do
  let text ← try IO.FS.readFile path catch
    | .noFileOrDirectory .. => pure ""
    | e => throw e
  match Config.ofText? text with
  | some c => return c
  | none => throw (IO.userError ("parsing " ++ path))

/-- The outcome of every exchange with a node. -/
def noConnection (call : NodeCall) : NodeReply :=
  Exchange.reply call.method (.failed "no connection")

/-- The request on a line. -/
def requestOf (line : String) : HttpRequest :=
  let (method, rest) := (Numeral.trim line.toList).span (· != ' ')
  let (target, body) := (rest.drop 1).span (· != ' ')
  { method := String.ofList method, target := String.ofList target,
    contentType := some "application/json", body := String.ofList (body.drop 1) }

/-- The line of an answer. -/
def responseLine (r : HttpResponse) : String :=
  Numeral.ofNat r.status ++
    match r.content with
    | .nothing => ""
    | .text s => " " ++ s
    | .json v => " " ++ v.compress

/-- Serves requests until the input ends. -/
partial def serveLines (g : Gateway) (ledger : Ledger) : IO Unit := do
  let line ← (← IO.getStdin).getLine
  unless line.isEmpty do
    let ((response, ledger), _) :=
      ((g.serve (requestOf line)).run ledger).run (fun _ call => noConnection call) 0
    IO.println (responseLine response)
    serveLines g ledger

/-- Ends with a fault. -/
def failWith {α : Type} (message : String) : IO α := throw (IO.userError message)

/-- Starts a gateway as it is configured. -/
def start (c : Config) : IO Unit := do
  match c.validate, c.listenAddress with
  | .error fault, _ => failWith fault.message
  | _, .error fault => failWith fault.message
  | .ok _, .ok _ =>
    match c.mode with
    | .offline => serveLines { chainId := c.node.chainId, online := false } .empty
    | .online =>
      match (Query.status.run.run (fun _ call => noConnection call) 0).1 with
      | .ok status => serveLines { chainId := status.chainId } .empty
      | .error e => failWith ("querying node at " ++ c.node.endpoint ++ ": " ++ e.message)

end RosettaGateway

/-- Reads the flags and the configuration and starts the gateway. -/
def main (args : List String) : IO Unit := do
  match RosettaGateway.Flags.read {} args with
  | .error fault => RosettaGateway.failWith fault.message
  | .ok flags =>
    let c ← RosettaGateway.loadConfig flags.config
    RosettaGateway.start (flags.apply c)
