import RosettaGateway.Config.SocketAddress
import RosettaGateway.Toml.Document

/-!
# Configuration

A gateway is configured by a TOML document with a section for each part. Everything has a default,
so an empty document, or none, gives a gateway in front of a node on the same machine. Unknown keys
are ignored, though a number that cannot be held is refused even there. Like any record a section
may also be given as an array of its values in their order; a time in its place gives none of them.
-/

namespace RosettaGateway

/-- Whether the gateway has a node to ask. -/
inductive Mode where
  | online
  | offline
  deriving DecidableEq

/-- The name of a mode. -/
def Mode.name : Mode → String
  | .online => "online"
  | .offline => "offline"

/-- The mode of a name. -/
def Mode.ofName? (s : String) : Option Mode := [Mode.online, .offline].find? fun m => m.name == s

/-- How to reach the node. The name of the chain is only needed offline; a node knows its own. -/
structure NodeConfig where
  endpoint : String := "http://127.0.0.1:16888/rpc"
  timeoutSeconds : Nat := 30
  chainId : String := ""
  deriving DecidableEq

/-- Where the gateway listens. -/
structure ServerConfig where
  address : String := "0.0.0.0"
  port : Nat := 8080
  deriving DecidableEq

/-- Where the ledger is kept, and whether it is filled from the pools at the start. -/
structure LedgerConfig where
  path : String := "/data/return_stakes"
  snapshotBackfill : Bool := true
  backfillTimeoutSeconds : Nat := 600
  deriving DecidableEq

/-- The configuration of a gateway. -/
structure Config where
  mode : Mode := .online
  node : NodeConfig := {}
  server : ServerConfig := {}
  ledger : LedgerConfig := {}
  logLevel : String := "info"
  deriving DecidableEq

namespace Toml

/-- The values a table gives for its fields. Other members are skipped. -/
def fields? (names : List String) (members : List (String × Toml)) : Option (List (Option Toml)) :=
  if members.all fun (name, v) => names.contains name || v.fits then
    some (names.map fun name => members.lookup name)
  else none

/-- The values a section gives for its fields. An array gives them in order, and what is behind them
is not looked at. -/
def slots (names : List String) : Toml → Option (List (Option Toml))
  | .table members => fields? names members
  | .array items =>
    some ((items.take names.length).map some ++
      List.replicate (names.length - items.length) none)
  | .time _ => fields? names []
  | _ => none

/-- Reads a field, which has a default. -/
def field {α : Type} (read : Toml → Option α) (default : α) : Option Toml → Option α
  | none => some default
  | some v => read v

/-- Reads a string. -/
def asString : Toml → Option String
  | .string s => some s
  | _ => none

/-- Reads a truth value. -/
def asBool : Toml → Option Bool
  | .boolean b => some b
  | _ => none

/-- Reads a number that is not negative and not above a limit. -/
def asNatural (limit : Nat) : Toml → Option Nat
  | .integer i => if 0 ≤ i ∧ i ≤ limit then some i.toNat else none
  | _ => none

/-- Reads a number of seconds. -/
def asSeconds : Toml → Option Nat := asNatural (UInt64.size - 1)

/-- Reads a mode: its name, or a table with an empty value under its name. -/
def asMode : Toml → Option Mode
  | .string s => Mode.ofName? s
  | .table [(name, .table [])] => Mode.ofName? name
  | .table [(name, .array [])] => Mode.ofName? name
  | _ => none

/-- Reads the section of the node. -/
def asNode (v : Toml) : Option NodeConfig := do
  let fields ← slots ["rpc_endpoint", "timeout_secs", "chain_id"] v
  match fields with
  | [endpoint, timeout, chainId] =>
    let d : NodeConfig := {}
    let endpoint ← field asString d.endpoint endpoint
    let timeout ← field asSeconds d.timeoutSeconds timeout
    let chainId ← field asString d.chainId chainId
    return ⟨endpoint, timeout, chainId⟩
  | _ => none

/-- Reads the section of the server. -/
def asServer (v : Toml) : Option ServerConfig := do
  let fields ← slots ["address", "port"] v
  match fields with
  | [address, port] =>
    let d : ServerConfig := {}
    let address ← field asString d.address address
    let port ← field (asNatural (UInt16.size - 1)) d.port port
    return ⟨address, port⟩
  | _ => none

/-- Reads the section of the ledger. -/
def asLedger (v : Toml) : Option LedgerConfig := do
  let fields ← slots ["path", "snapshot_backfill", "backfill_timeout_secs"] v
  match fields with
  | [path, backfill, timeout] =>
    let d : LedgerConfig := {}
    let path ← field asString d.path path
    let backfill ← field asBool d.snapshotBackfill backfill
    let timeout ← field asSeconds d.backfillTimeoutSeconds timeout
    return ⟨path, backfill, timeout⟩
  | _ => none

/-- Reads the section of the log. -/
def asLog (v : Toml) : Option String := do
  let fields ← slots ["level"] v
  match fields with
  | [level] => field asString ({} : Config).logLevel level
  | _ => none

end Toml

namespace Config

/-- Reads a configuration. -/
def ofText? (text : String) : Option Config := do
  let members ← Toml.ofText? text
  let fields ← Toml.fields? ["mode", "theta", "server", "ledger", "log"] members
  match fields with
  | [mode, node, server, ledger, log] =>
    let d : Config := {}
    let mode ← Toml.field Toml.asMode d.mode mode
    let node ← Toml.field Toml.asNode d.node node
    let server ← Toml.field Toml.asServer d.server server
    let ledger ← Toml.field Toml.asLedger d.ledger ledger
    let logLevel ← Toml.field Toml.asLog d.logLevel log
    return ⟨mode, node, server, ledger, logLevel⟩
  | _ => none

/-- Why a configuration cannot be used. -/
inductive Fault where
  | listenAddress (text : String)
  | missingChainId
  | noTimeout
  deriving DecidableEq

/-- The text of a fault. -/
def Fault.message : Fault → String
  | .listenAddress text => "invalid listen address " ++ text
  | .missingChainId => "theta.chain_id is required in offline mode"
  | .noTimeout => "theta.timeout_secs must be positive"

/-- The address the gateway listens at. -/
def listenAddress (c : Config) : Except Fault SocketAddress :=
  let text := c.server.address ++ ":" ++ Numeral.ofNat c.server.port
  match SocketAddress.ofText? text with
  | some a => .ok a
  | none => .error (.listenAddress text)

/-- Checks that a gateway can be run with the configuration. -/
def validate (c : Config) : Except Fault Unit :=
  if c.mode = .offline ∧ c.node.chainId = "" then .error .missingChainId
  else if c.node.timeoutSeconds = 0 then .error .noTimeout
  else .ok ()

end Config

end RosettaGateway
