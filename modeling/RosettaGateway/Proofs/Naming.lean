import RosettaGateway.Proofs.Json.Renaming
import RosettaGateway.Tx.Wire

/-!
# Transactions under other names

A node tells a transaction under the names of its fields or under the capitalised ones, with members
that nobody has asked for. `Tx.Kind.shape` lists the fields of each kind, and those of the parties,
coins and shares inside of it; `Tx.ofJson?_of_renames` says that it does not matter which names are
used, anywhere inside of a transaction.

The capitalised names are not listed: they follow from the rule for them (`Json.capitalized`). Most
fields have a default, so a name that does not follow it would not fail but lose an amount.
-/

namespace RosettaGateway

open Json (Shape)
open Json.Codec (respects_plain)
open Json.Record.Respects

/-! ### Parts -/

/-- The fields of coins. -/
def Coins.shape : Shape := .record [("thetawei", .plain), ("tfuelwei", .plain)]

theorem Coins.respects_shape : Coins.json.Respects Coins.shape :=
  (((defaulted respects_plain).and (defaulted respects_plain)).map).codec rfl

namespace Tx

/-- The fields of an input. -/
def Input.shape : Shape :=
  .record [("address", .plain), ("coins", Coins.shape), ("sequence", .plain),
    ("signature", .plain)]

theorem Input.respects_shape : Input.json.Respects Input.shape :=
  (((required respects_plain).and <| (defaulted Coins.respects_shape).and <|
    (defaulted respects_plain).and (defaulted respects_plain)).map).codec rfl

/-- The fields of an output. -/
def Output.shape : Shape := .record [("address", .plain), ("coins", Coins.shape)]

theorem Output.respects_shape : Output.json.Respects Output.shape :=
  (((required respects_plain).and (defaulted Coins.respects_shape)).map).codec rfl

/-- The fields of a share. -/
def Split.shape : Shape := .record [("address", .plain), ("percentage", .plain)]

theorem Split.respects_shape : Split.json.Respects Split.shape :=
  (((required respects_plain).and (defaulted respects_plain)).map).codec rfl

/-! ### Bodies -/

/-- The fields of the body of each kind, in their order. -/
def Kind.shape : Kind → Shape
  | .coinbase =>
    .record [("proposer", Input.shape), ("outputs", .list Output.shape), ("block_height", .plain)]
  | .slash =>
    .record [("proposer", Input.shape), ("slashed_address", .plain), ("reserve_sequence", .plain),
      ("slash_proof", .plain)]
  | .send =>
    .record [("fee", Coins.shape), ("inputs", .list Input.shape), ("outputs", .list Output.shape)]
  | .reserveFund =>
    .record [("fee", Coins.shape), ("source", Input.shape), ("resource_ids", .plain),
      ("collateral", Coins.shape), ("duration", .plain)]
  | .releaseFund =>
    .record [("fee", Coins.shape), ("source", Input.shape), ("reserve_sequence", .plain)]
  | .servicePayment =>
    .record [("fee", Coins.shape), ("source", Input.shape), ("target", Input.shape),
      ("payment_sequence", .plain), ("reserve_sequence", .plain), ("resource_id", .plain)]
  | .splitRule =>
    .record [("fee", Coins.shape), ("resource_id", .plain), ("initiator", Input.shape),
      ("splits", .list Split.shape), ("duration", .plain)]
  | .smartContract =>
    .record [("from", Input.shape), ("to", Output.shape), ("gas_limit", .plain),
      ("gas_price", .plain), ("data", .plain)]
  | .depositStake | .withdrawStake =>
    .record [("fee", Coins.shape), ("source", Input.shape), ("holder", Output.shape),
      ("purpose", .plain)]
  | .depositStakeV2 =>
    .record [("fee", Coins.shape), ("source", Input.shape), ("holder", Output.shape),
      ("purpose", .plain), ("bls_pubkey", .plain), ("bls_pop", .plain), ("holder_sig", .plain)]
  | .stakeRewardDistribution =>
    .record [("fee", Coins.shape), ("holder", Input.shape), ("beneficiary", Output.shape),
      ("split_basis_point", .plain)]

theorem Coinbase.respects_shape : Coinbase.json.Respects Kind.coinbase.shape :=
  (((required Input.respects_shape).and <| (defaulted (.list Output.respects_shape)).and
    (defaulted respects_plain)).map).codec rfl

theorem Slash.respects_shape : Slash.json.Respects Kind.slash.shape :=
  (((required Input.respects_shape).and <| (defaulted respects_plain).and <|
    (defaulted respects_plain).and (defaulted respects_plain)).map).codec rfl

theorem Send.respects_shape : Send.json.Respects Kind.send.shape :=
  (((defaulted Coins.respects_shape).and <| (defaulted (.list Input.respects_shape)).and
    (defaulted (.list Output.respects_shape))).map).codec rfl

theorem ReserveFund.respects_shape : ReserveFund.json.Respects Kind.reserveFund.shape :=
  (((defaulted Coins.respects_shape).and <| (required Input.respects_shape).and <|
    (defaulted respects_plain).and <| (defaulted Coins.respects_shape).and
    (defaulted respects_plain)).map).codec rfl

theorem ReleaseFund.respects_shape : ReleaseFund.json.Respects Kind.releaseFund.shape :=
  (((defaulted Coins.respects_shape).and <| (required Input.respects_shape).and
    (defaulted respects_plain)).map).codec rfl

theorem ServicePayment.respects_shape :
    ServicePayment.json.Respects Kind.servicePayment.shape :=
  (((defaulted Coins.respects_shape).and <| (required Input.respects_shape).and <|
    (required Input.respects_shape).and <| (defaulted respects_plain).and <|
    (defaulted respects_plain).and (defaulted respects_plain)).map).codec rfl

theorem SplitRule.respects_shape : SplitRule.json.Respects Kind.splitRule.shape :=
  (((defaulted Coins.respects_shape).and <| (defaulted respects_plain).and <|
    (required Input.respects_shape).and <| (defaulted (.list Split.respects_shape)).and
    (defaulted respects_plain)).map).codec rfl

theorem SmartContract.respects_shape : SmartContract.json.Respects Kind.smartContract.shape :=
  (((required Input.respects_shape).and <| (required Output.respects_shape).and <|
    (defaulted respects_plain).and <| (defaulted respects_plain).and
    (defaulted respects_plain)).map).codec rfl

theorem DepositStake.respects_shape : DepositStake.json.Respects Kind.depositStake.shape :=
  (((defaulted Coins.respects_shape).and <| (required Input.respects_shape).and <|
    (required Output.respects_shape).and (defaulted respects_plain)).map).codec rfl

theorem DepositStakeV2.respects_shape :
    DepositStakeV2.json.Respects Kind.depositStakeV2.shape :=
  (((defaulted Coins.respects_shape).and <| (required Input.respects_shape).and <|
    (required Output.respects_shape).and <| (defaulted respects_plain).and <|
    (defaulted respects_plain).and <| (defaulted respects_plain).and
    (defaulted respects_plain)).map).codec rfl

theorem WithdrawStake.respects_shape : WithdrawStake.json.Respects Kind.withdrawStake.shape :=
  (((defaulted Coins.respects_shape).and <| (required Input.respects_shape).and <|
    (required Output.respects_shape).and (defaulted respects_plain)).map).codec rfl

theorem StakeRewardDistribution.respects_shape :
    StakeRewardDistribution.json.Respects Kind.stakeRewardDistribution.shape :=
  (((defaulted Coins.respects_shape).and <| (required Input.respects_shape).and <|
    (required Output.respects_shape).and (defaulted respects_plain)).map).codec rfl

/-- **A transaction is read the same under either naming.** Take a value for a transaction, and
another one in which any fields have their other names, whether of the transaction itself or of
inputs, outputs, coins and shares in it, and which may have other unknown members. If neither names
a field twice, then either both are read, as one and the same transaction, or none is. -/
theorem ofJson_of_renames {k : Kind} {raw raw' : Json} (h_renames : k.shape.Renames raw raw') :
    ofJson k raw' = ofJson k raw := by
  have h_read : ofJson? k raw' = ofJson? k raw := by
    -- Each kind has a body of its own, whose codec respects the shape of the kind.
    cases k with
    | coinbase => exact congrArg (Option.map _) (Coinbase.respects_shape.ofJson h_renames)
    | slash => exact congrArg (Option.map _) (Slash.respects_shape.ofJson h_renames)
    | send => exact congrArg (Option.map _) (Send.respects_shape.ofJson h_renames)
    | reserveFund => exact congrArg (Option.map _) (ReserveFund.respects_shape.ofJson h_renames)
    | releaseFund => exact congrArg (Option.map _) (ReleaseFund.respects_shape.ofJson h_renames)
    | servicePayment =>
      exact congrArg (Option.map _) (ServicePayment.respects_shape.ofJson h_renames)
    | splitRule => exact congrArg (Option.map _) (SplitRule.respects_shape.ofJson h_renames)
    | smartContract =>
      exact congrArg (Option.map _) (SmartContract.respects_shape.ofJson h_renames)
    | depositStake => exact congrArg (Option.map _) (DepositStake.respects_shape.ofJson h_renames)
    | withdrawStake =>
      exact congrArg (Option.map _) (WithdrawStake.respects_shape.ofJson h_renames)
    | depositStakeV2 =>
      exact congrArg (Option.map _) (DepositStakeV2.respects_shape.ofJson h_renames)
    | stakeRewardDistribution =>
      exact congrArg (Option.map _) (StakeRewardDistribution.respects_shape.ofJson h_renames)
  rw [ofJson, ofJson, h_read]

namespace SampleNaming

/-- An account as nodes write it. -/
def account : Json := .string "0x0000000000000000000000000000000000000000"

/-- A send of one THETA by a single input. -/
def raw : Json :=
  .object [("fee", .object [("tfuelwei", .string "3")]),
    ("inputs", .array [.object [("address", account), ("sequence", .ofNat 7),
      ("coins", .object [("thetawei", .ofNat 1)])]])]

/-- The same send, with some names capitalised, others not, and more members. -/
def raw' : Json :=
  .object [("Gas", .null),
    ("Inputs", .array [.object [("Coins", .object [("ThetaWei", .ofNat 1), ("Unit", .ofNat 18)]),
      ("address", account), ("Sequence", .ofNat 7)]]),
    ("Fee", .object [("tfuelwei", .string "3")])]

/-- The send. -/
def tx : Tx := .send ⟨.ofTfuel 3, [⟨.zero, ⟨1, 0⟩, 7, []⟩], []⟩

theorem coins_renames : Coins.shape.Renames (.object [("thetawei", .ofNat 1)])
    (.object [("ThetaWei", .ofNat 1), ("Unit", .ofNat 18)]) := by
  refine .members (by decide) (by decide) fun f h_mem v v' h_v h_v' => ?_
  simp only [List.mem_cons, List.not_mem_nil, or_false] at h_mem
  -- Only fields that are there have to be compared.
  rcases h_mem with rfl | rfl
  · cases h_v
    cases h_v'
    exact .same _
  · cases h_v

theorem input_renames : Input.shape.Renames
    (.object [("address", account), ("sequence", .ofNat 7),
      ("coins", .object [("thetawei", .ofNat 1)])])
    (.object [("Coins", .object [("ThetaWei", .ofNat 1), ("Unit", .ofNat 18)]),
      ("address", account), ("Sequence", .ofNat 7)]) := by
  refine .members (by decide) (by decide) fun f h_mem v v' h_v h_v' => ?_
  simp only [List.mem_cons, List.not_mem_nil, or_false] at h_mem
  rcases h_mem with rfl | rfl | rfl | rfl
  · cases h_v
    cases h_v'
    exact .same _
  · cases h_v
    cases h_v'
    exact coins_renames
  · cases h_v
    cases h_v'
    exact .same _
  · cases h_v

theorem send_renames : Kind.send.shape.Renames raw raw' := by
  refine .members (by decide) (by decide) fun f h_mem v v' h_v h_v' => ?_
  simp only [List.mem_cons, List.not_mem_nil, or_false] at h_mem
  rcases h_mem with rfl | rfl | rfl
  · cases h_v
    cases h_v'
    exact .same _
  · cases h_v
    cases h_v'
    exact .of_forall₂ (.cons input_renames .nil)
  · cases h_v

/-- Both values are read as the one send. -/
theorem ofJson_renamed : Kind.send.shape.Renames raw raw' ∧
    ofJson .send raw = .ok tx ∧ ofJson .send raw' = .ok tx := by
  have h_raw : ofJson .send raw = .ok tx := rfl
  exact ⟨send_renames, h_raw, (ofJson_of_renames send_renames).trans h_raw⟩

end SampleNaming

end Tx

end RosettaGateway
