import RosettaGateway.Chain.Coins

/-!
# Chain parameters

What the chain fixes: the fee schedule, which changed at one height, the locking period of stakes,
the purposes a stake can have, and the statuses of a block.
-/

namespace RosettaGateway

namespace Chain

/-- The name of the chain in network identifiers. -/
def name : String := "theta"

/-- How many blocks after its withdrawal a stake is paid back. -/
def lockingPeriod : UInt64 := 28800

/-- The height from which the higher fees apply. -/
def feeAdjustmentHeight : UInt64 := 10009000

/-- The least fee of a send between two accounts. -/
def minimumSendFee (height : UInt64) : Nat :=
  if height < feeAdjustmentHeight then 1_000_000_000_000 else 300_000_000_000_000_000

/-- The least price of a unit of gas. -/
def minimumGasPrice (height : UInt64) : Nat :=
  if height < feeAdjustmentHeight then 100_000_000 else 4_000_000_000_000

/-- The most gas a contract call may use. -/
def maxGasLimit (height : UInt64) : UInt64 :=
  if height < feeAdjustmentHeight then 10000000 else 20000000

/-- The gas limit of a contract call that names none. -/
def defaultGasLimit : UInt64 := 10000000

/-- A height plus a distance, or the greatest height if that is smaller. -/
def saturatingAdd (height distance : UInt64) : UInt64 :=
  if height.toNat + distance.toNat < UInt64.size then height + distance
  else UInt64.ofNat (UInt64.size - 1)

/-- The height at which a stake withdrawn at a height is paid back. -/
def returnHeight (height : UInt64) : UInt64 := saturatingAdd height lockingPeriod

theorem toNat_saturatingAdd (height distance : UInt64) :
    (saturatingAdd height distance).toNat =
      min (height.toNat + distance.toNat) (UInt64.size - 1) := by
  unfold saturatingAdd
  split
  · next h_fits =>
    rw [UInt64.toNat_add, Nat.mod_eq_of_lt h_fits]
    omega
  · next h_fits =>
    rw [UInt64.toNat_ofNat_of_lt' (by decide)]
    omega

theorem toNat_returnHeight (height : UInt64) :
    (returnHeight height).toNat = min (height.toNat + 28800) 0xffffffffffffffff :=
  toNat_saturatingAdd height lockingPeriod

end Chain

/-- What a stake backs. -/
inductive StakePurpose where
  | validator
  | guardian
  | eliteEdgeNode
  deriving DecidableEq

namespace StakePurpose

/-- The number of a purpose in transactions. -/
def code : StakePurpose → UInt8
  | .validator => 0
  | .guardian => 1
  | .eliteEdgeNode => 2

/-- The purpose of a number. -/
def ofCode? (code : UInt8) : Option StakePurpose :=
  if code = 0 then some .validator
  else if code = 1 then some .guardian
  else if code = 2 then some .eliteEdgeNode
  else none

/-- The coin that is staked for a purpose. -/
def denom : StakePurpose → Denom
  | .validator => .theta
  | .guardian => .theta
  | .eliteEdgeNode => .tfuel

end StakePurpose

/-- How far a block has come. -/
inductive BlockStatus where
  | pending
  | valid
  | invalid
  | committed
  | directlyFinalized
  | indirectlyFinalized
  | trusted
  | disposed
  deriving DecidableEq

namespace BlockStatus

/-- All statuses, in the order of their numbers. -/
def all : List BlockStatus :=
  [.pending, .valid, .invalid, .committed, .directlyFinalized, .indirectlyFinalized, .trusted,
    .disposed]

/-- The name of a status. -/
def name : BlockStatus → String
  | .pending => "pending"
  | .valid => "valid"
  | .invalid => "invalid"
  | .committed => "committed"
  | .directlyFinalized => "directly_finalized"
  | .indirectlyFinalized => "indirectly_finalized"
  | .trusted => "trusted"
  | .disposed => "disposed"

/-- Whether the operations of a block with this status count as applied. -/
def isSuccessful : BlockStatus → Bool
  | .pending => false
  | .invalid => false
  | _ => true

/-- The status of a number. -/
def ofCode? (code : Nat) : Option BlockStatus := all[code]?

/-- The status of a name. -/
def ofName? (s : String) : Option BlockStatus := all.find? fun status => status.name == s

/-- Reads the number of a status as text: digits behind at most one plus sign. -/
def codeOfText? : List Char → Option Nat
  | '+' :: digits => Numeral.plain? digits
  | digits => Numeral.plain? digits

/-- The status a value stands for: its number, its name, or its number as text. -/
def ofJson? : Json → Option BlockStatus
  | .number n => n.natural?.bind ofCode?
  | .string s =>
    match ofName? s with
    | some status => some status
    | none => (codeOfText? s.toList).bind ofCode?
  | _ => none

/-- Statuses as JSON; they are written by name. -/
def json : Json.Codec BlockStatus :=
  Json.Codec.interpreted ofJson? fun status => .string status.name

end BlockStatus

end RosettaGateway
