import RosettaGateway.Config.Basic

/-!
# Flags

The command line names the file of the configuration and may replace the mode, the port and the
endpoint of the node. A value follows its flag, or stands behind an equals sign in the same
argument.
-/

namespace RosettaGateway

/-- What the command line says. -/
structure Flags where
  config : String := "config.toml"
  mode : Option Mode := none
  port : Option Nat := none
  endpoint : Option String := none
  deriving DecidableEq

namespace Flags

/-- Why a command line cannot be used. -/
inductive Fault where
  | unexpected (argument : String)
  | noValue (flag : String)
  | badValue (flag value : String)
  deriving DecidableEq

/-- The text of a fault. -/
def Fault.message : Fault → String
  | .unexpected argument => "unexpected argument " ++ argument
  | .noValue flag => "a value is required for " ++ flag
  | .badValue flag value => "invalid value " ++ value ++ " for " ++ flag

/-- Takes the value of a flag. -/
def set (flags : Flags) (flag value : String) : Except Fault Flags :=
  if flag = "-c" ∨ flag = "--config" then .ok { flags with config := value }
  else if flag = "--mode" then
    match Mode.ofName? value with
    | some mode => .ok { flags with mode := some mode }
    | none => .error (.badValue flag value)
  else if flag = "-p" ∨ flag = "--port" then
    match (Numeral.plain? value.toList).filter (· < UInt16.size) with
    | some port => .ok { flags with port := some port }
    | none => .error (.badValue flag value)
  else if flag = "--rpc-endpoint" then .ok { flags with endpoint := some value }
  else .error (.unexpected flag)

/-- Splits a flag from a value behind an equals sign. -/
def splitValue (argument : String) : String × Option String :=
  match argument.toList.span (· != '=') with
  | (flag, '=' :: value) => (String.ofList flag, some (String.ofList value))
  | _ => (argument, none)

/-- Reads the arguments of a command line. -/
def read (flags : Flags) : List String → Except Fault Flags
  | [] => .ok flags
  | argument :: rest =>
    match splitValue argument, rest with
    | (flag, some value), rest => do
      let flags ← flags.set flag value
      flags.read rest
    | (flag, none), value :: rest => do
      let flags ← flags.set flag value
      flags.read rest
    | (flag, none), [] => .error (.noValue flag)

/-- Replaces what the flags name in a configuration. -/
def apply (flags : Flags) (c : Config) : Config :=
  { c with
    mode := flags.mode.getD c.mode
    server := { c.server with port := flags.port.getD c.server.port }
    node := { c.node with endpoint := flags.endpoint.getD c.node.endpoint } }

end Flags

end RosettaGateway
