import RosettaGateway.Proofs.Layout
import RosettaGateway.Proofs.Metadata

/-!
# Transactions are read back from their operations

A transaction is described by operations and metadata, from which a transaction of the same kind can
be built again. What comes back is `Tx.normalize` of what was described: some coins have no leg, and
they come back as zero. These are the THETA of every fee, the coins of proposers and of holders, and
the THETA of parties that are shown in TFUEL alone. Everything else comes back as it was.

There is one statement for the layout of each kind (`Coinbase.ofOperations_of_shows` and its
siblings), which takes any operations that show the legs of a transaction and reads all of them.
`Tx.ofOperations_of_shows` puts these together. A send without inputs is described but cannot be
built; a contract call is built from what it asks for, not from what it did in a block.
-/

namespace RosettaGateway

namespace Tx

/-! ### What comes back -/

/-- The party with its TFUEL alone. -/
def Input.tfuelOnly (i : Input) : Input := { i with coins := .ofTfuel i.coins.tfuel }

/-- The party without its coins. -/
def Input.coinless (i : Input) : Input := { i with coins := {} }

/-- The party with its TFUEL alone. -/
def Output.tfuelOnly (o : Output) : Output := { o with coins := .ofTfuel o.coins.tfuel }

/-- The party without its coins. -/
def Output.coinless (o : Output) : Output := { o with coins := {} }

/-- The transaction without the coins that no operation shows. -/
def normalize : Tx → Tx
  | .coinbase tx =>
    .coinbase { tx with
      proposer := tx.proposer.coinless, outputs := tx.outputs.map Output.tfuelOnly }
  | .slash tx => .slash { tx with proposer := tx.proposer.coinless }
  | .send tx => .send { tx with fee := .ofTfuel tx.fee.tfuel }
  | .reserveFund tx => .reserveFund { tx with fee := .ofTfuel tx.fee.tfuel }
  | .releaseFund tx => .releaseFund { tx with fee := .ofTfuel tx.fee.tfuel }
  | .servicePayment tx =>
    .servicePayment { tx with
      fee := .ofTfuel tx.fee.tfuel, source := tx.source.tfuelOnly, target := tx.target.tfuelOnly }
  | .splitRule tx =>
    .splitRule { tx with fee := .ofTfuel tx.fee.tfuel, initiator := tx.initiator.tfuelOnly }
  | .smartContract tx => .smartContract tx
  | .depositStake tx =>
    .depositStake { tx with fee := .ofTfuel tx.fee.tfuel, holder := tx.holder.coinless }
  | .withdrawStake tx =>
    .withdrawStake { tx with
      fee := .ofTfuel tx.fee.tfuel, source := tx.source.coinless, holder := tx.holder.coinless }
  | .depositStakeV2 tx =>
    .depositStakeV2 { tx with fee := .ofTfuel tx.fee.tfuel, holder := tx.holder.coinless }
  | .stakeRewardDistribution tx =>
    .stakeRewardDistribution { tx with
      fee := .ofTfuel tx.fee.tfuel, holder := tx.holder.coinless }

/-- The transaction without the fee and without the coins of any party. -/
def coinless : Tx → Tx
  | .coinbase tx =>
    .coinbase { tx with
      proposer := tx.proposer.coinless, outputs := tx.outputs.map Output.coinless }
  | .slash tx => .slash { tx with proposer := tx.proposer.coinless }
  | .send tx =>
    .send {
      fee := {}, inputs := tx.inputs.map Input.coinless, outputs := tx.outputs.map Output.coinless }
  | .reserveFund tx => .reserveFund { tx with fee := {}, source := tx.source.coinless }
  | .releaseFund tx => .releaseFund { tx with fee := {}, source := tx.source.coinless }
  | .servicePayment tx =>
    .servicePayment { tx with
      fee := {}, source := tx.source.coinless, target := tx.target.coinless }
  | .splitRule tx => .splitRule { tx with fee := {}, initiator := tx.initiator.coinless }
  | .smartContract tx =>
    .smartContract { tx with sender := tx.sender.coinless, recipient := tx.recipient.coinless }
  | .depositStake tx =>
    .depositStake { tx with
      fee := {}, source := tx.source.coinless, holder := tx.holder.coinless }
  | .withdrawStake tx =>
    .withdrawStake { tx with
      fee := {}, source := tx.source.coinless, holder := tx.holder.coinless }
  | .depositStakeV2 tx =>
    .depositStakeV2 { tx with
      fee := {}, source := tx.source.coinless, holder := tx.holder.coinless }
  | .stakeRewardDistribution tx =>
    .stakeRewardDistribution { tx with
      fee := {}, holder := tx.holder.coinless, beneficiary := tx.beneficiary.coinless }

/-- Normalizing changes nothing but coins. -/
theorem coinless_normalize (tx : Tx) : tx.normalize.coinless = tx.coinless := by
  cases tx with
  | coinbase tx =>
    show Tx.coinbase { tx with
      proposer := tx.proposer.coinless,
      outputs := (tx.outputs.map Output.tfuelOnly).map Output.coinless } = _
    rw [List.map_map]
    rfl
  | _ => rfl

theorem kind_normalize (tx : Tx) : tx.normalize.kind = tx.kind := by
  cases tx <;> rfl

/-! ### Parties -/

open Operation (Shows exists_append_of_shows exists_of_shows_singleton)

/-- **A party that pays its fee is read back**, wherever it signs. -/
theorem payingParty_of_shows {type : OperationType} (h_type : type ≠ .fee) (k : Kind)
    (i : Input) (fee : Coins) (m : Metadata) {ops : List Operation}
    (h_shows : List.Forall₂ Shows ops (inputAndFee type i fee)) :
    ∃ position, payingParty (.start k ops) type m =
      .ok (.ofTfuel fee.tfuel, i, ⟨k, position, []⟩) := by
  obtain ⟨before, after, rfl, h_before, h_after⟩ := exists_append_of_shows h_shows
  have h_run : Cursor.IsRun type before after := by
    refine Cursor.isRun_of_shows_map h_before (fun _ => rfl) h_after fun leg h_mem => ?_
    rw [List.mem_singleton.mp h_mem]
    exact h_type.symm
  obtain ⟨op, rfl, h_fee⟩ := exists_of_shows_singleton h_after
  obtain ⟨party, h_party, h_cases⟩ := Cursor.party_of_partyLegs k 0 h_before h_run
  refine ⟨0 + before.length + 1, ?_⟩
  rcases h_cases with ⟨rfl, rfl, h_coins⟩ | ⟨first, seen, rfl, h_first⟩
  · -- Without coins there is no leg, so the party signs on its fee.
    have h_legs : inputLegs type i = [] := List.forall₂_nil_left_iff.mp h_before
    have h_signs : op.metadata = some i.metadata := by
      rw [h_fee.metadata_eq, h_legs]
      rfl
    have h_read := Cursor.fee_of_shows h_fee k (0 + 0) [] none (by simp)
    have h_input := Operation.input_of_metadata h_signs m i.address {}
    rw [payingParty, Cursor.start, h_party]
    simp only [bind, Except.bind, pure, Except.pure, List.length_nil, Option.map_none,
      Option.getD_none, h_read, h_input]
    rw [← h_coins]
  · have h_read := Cursor.fee_of_shows h_fee k (0 + before.length) []
      (some i.address) (by simp)
    have h_input := Operation.input_of_metadata h_first m i.address i.coins
    rw [payingParty, Cursor.start, h_party]
    simp only [bind, Except.bind, pure, Except.pure, Option.map_some, Option.getD_some, h_read,
      h_input]

/-- Operations that show one leg for each item are read item by item. -/
theorem mapM_of_shows {α β : Type} {f : Operation → Except TxError α} {leg : β → Leg}
    {result : β → α} {items : List β} {ops : List Operation}
    (h_shows : List.Forall₂ Shows ops (items.map leg))
    (h_read : ∀ b op, op.Shows (leg b) → f op = .ok (result b)) :
    ops.mapM f = .ok (items.map result) := by
  induction items generalizing ops with
  | nil =>
    cases h_shows
    rfl
  | cons b rest ih =>
    cases h_shows with
    | cons h_op h_ops =>
      rw [List.mapM_cons, h_read b _ h_op, ih h_ops]
      rfl

/-- The entry of the holder is read back. -/
theorem holderOf_metadata {tx : Tx} {holder : Output}
    (h_mem : ("holder", Address.json.write holder.address) ∈ tx.entries) :
    holderOf tx.metadata = .ok holder.coinless := by
  rw [holderOf, Metadata.address?_of_get? (get?_metadata h_mem)]
  rfl

/-- The entry of the purpose is read back. -/
theorem purposeOf_metadata {tx : Tx} {purpose : UInt8}
    (h_mem : ("purpose", purposeJson.write purpose) ∈ tx.entries) :
    purposeOf tx.metadata = .ok purpose := by
  rw [purposeOf, Metadata.byte?_of_get? (get?_metadata h_mem)]
  rfl

/-! ### Bodies -/

section Bodies

variable (context : TxContext) {ops : List Operation}

theorem Coinbase.ofOperations_of_shows (tx : Coinbase)
    (h_shows : List.Forall₂ Shows ops ((Tx.coinbase tx).legs context)) :
    ∃ position, Coinbase.ofOperations (.start .coinbase ops) (Tx.coinbase tx).metadata =
      .ok ({ tx with
        proposer := tx.proposer.coinless, outputs := tx.outputs.map Output.tfuelOnly },
        ⟨.coinbase, position, []⟩) := by
  cases h_shows with
  | @cons op _ outputs _ h_op h_outputs =>
    have h_one : Cursor.one ⟨.coinbase, 0, op :: outputs⟩ .coinbaseProposer =
        .ok (⟨op, tx.proposer.address, .tfuel, 0⟩, ⟨.coinbase, 1, outputs⟩) :=
      Cursor.one_of_shows h_op .coinbase 0 outputs
    have h_run : Cursor.IsRun .coinbaseOutput outputs [] :=
      Cursor.isRun_of_shows_map h_outputs (fun _ => rfl) List.Forall₂.nil (by simp)
    have h_take := Cursor.run_of_isRun h_run .coinbase 1
    have h_skip := Cursor.skipRun_of_isRun h_run .coinbase 1
    rw [List.append_nil] at h_take h_skip
    -- An output is an amount of TFUEL and nothing else.
    have h_read : outputs.mapM Coinbase.output = .ok (tx.outputs.map Output.tfuelOnly) := by
      refine mapM_of_shows h_outputs fun o op h_op => ?_
      have h_posting : op.posting = .ok ⟨op, o.address, .tfuel, o.coins.tfuel⟩ := h_op.posting_eq
      rw [Coinbase.output, h_posting]
      simp only [bind, Except.bind, pure, Except.pure, Posting.requireCoin_mk, Posting.credit_mk]
      rfl
    have h_input := Operation.input_of_metadata h_op.metadata_eq (Tx.coinbase tx).metadata
      tx.proposer.address {}
    have h_height : (Tx.coinbase tx).metadata.counterOr "block_height" 0 = .ok tx.blockHeight :=
      Metadata.counterOr_of_get? (get?_metadata (by simp [entries]))
    refine ⟨1 + outputs.length, ?_⟩
    rw [Coinbase.ofOperations, Cursor.start, h_one]
    simp only [bind, Except.bind, pure, Except.pure, h_take, h_skip, h_read, h_input, h_height]
    rfl

theorem Slash.ofOperations_of_shows (tx : Slash)
    (h_shows : List.Forall₂ Shows ops ((Tx.slash tx).legs context)) :
    ∃ position, Slash.ofOperations (.start .slash ops) (Tx.slash tx).metadata =
      .ok ({ tx with proposer := tx.proposer.coinless }, ⟨.slash, position, []⟩) := by
  obtain ⟨op, rfl, h_op⟩ := exists_of_shows_singleton h_shows
  have h_one : Cursor.one ⟨.slash, 0, [op]⟩ .slashProposer =
      .ok (⟨op, tx.proposer.address, .theta, 0⟩, ⟨.slash, 1, []⟩) :=
    Cursor.one_of_shows h_op .slash 0 []
  -- The leg tells what the input needs, and the metadata of the transaction tell the rest.
  have h_input := Operation.input_of_metadata h_op.metadata_eq (Tx.slash tx).metadata
    tx.proposer.address {}
  have h_slashed : (Tx.slash tx).metadata.address? "slashed_address" =
      .ok (some tx.slashedAddress) :=
    Metadata.address?_of_get? (get?_metadata (by simp [entries]))
  have h_sequence : (Tx.slash tx).metadata.counterOr "reserve_sequence" 0 =
      .ok tx.reserveSequence :=
    Metadata.counterOr_of_get? (get?_metadata (by simp [entries]))
  have h_proof : (Tx.slash tx).metadata.bytesOrEmpty "slash_proof" = .ok tx.slashProof :=
    Metadata.bytesOrEmpty_of_get? (get?_metadata (by simp [entries]))
  refine ⟨1, ?_⟩
  rw [Slash.ofOperations, Cursor.start, h_one]
  simp only [bind, Except.bind, pure, Except.pure, h_input, h_slashed, Metadata.demand, h_sequence,
    h_proof]
  rfl

theorem ReserveFund.ofOperations_of_shows (tx : ReserveFund)
    (h_shows : List.Forall₂ Shows ops ((Tx.reserveFund tx).legs context)) :
    ∃ position, ReserveFund.ofOperations (.start .reserveFund ops) (Tx.reserveFund tx).metadata =
      .ok ({ tx with fee := .ofTfuel tx.fee.tfuel }, ⟨.reserveFund, position, []⟩) := by
  obtain ⟨position, h_party⟩ := payingParty_of_shows (by decide) .reserveFund tx.source tx.fee
    (Tx.reserveFund tx).metadata h_shows
  have h_ids : (Tx.reserveFund tx).metadata.typed? "resource_ids" Json.Codec.string.list =
      .ok (some tx.resourceIds) :=
    Metadata.typed?_of_get? Json.Codec.faithful_string.list (get?_metadata (by simp [entries])) rfl
  have h_collateral : (Tx.reserveFund tx).metadata.typed? "collateral" Coins.json =
      .ok (some tx.collateral) :=
    Metadata.typed?_of_get? Coins.faithful_json (get?_metadata (by simp [entries])) rfl
  have h_duration : (Tx.reserveFund tx).metadata.counterOr "duration" 0 = .ok tx.duration :=
    Metadata.counterOr_of_get? (get?_metadata (by simp [entries]))
  refine ⟨position, ?_⟩
  rw [ReserveFund.ofOperations, h_party]
  simp only [bind, Except.bind, pure, Except.pure, h_ids, h_collateral, h_duration,
    Option.getD_some]

theorem ReleaseFund.ofOperations_of_shows (tx : ReleaseFund)
    (h_shows : List.Forall₂ Shows ops ((Tx.releaseFund tx).legs context)) :
    ∃ position, ReleaseFund.ofOperations (.start .releaseFund ops) (Tx.releaseFund tx).metadata =
      .ok ({ tx with fee := .ofTfuel tx.fee.tfuel }, ⟨.releaseFund, position, []⟩) := by
  obtain ⟨position, h_party⟩ := payingParty_of_shows (by decide) .releaseFund tx.source tx.fee
    (Tx.releaseFund tx).metadata h_shows
  have h_sequence : (Tx.releaseFund tx).metadata.counterOr "reserve_sequence" 0 =
      .ok tx.reserveSequence :=
    Metadata.counterOr_of_get? (get?_metadata (by simp [entries]))
  refine ⟨position, ?_⟩
  rw [ReleaseFund.ofOperations, h_party]
  simp only [bind, Except.bind, pure, Except.pure, h_sequence]

theorem DepositStake.ofOperations_of_shows (tx : DepositStake)
    (h_shows : List.Forall₂ Shows ops ((Tx.depositStake tx).legs context)) :
    ∃ position, DepositStake.ofOperations (.start .depositStake ops) (Tx.depositStake tx).metadata =
      .ok ({ tx with fee := .ofTfuel tx.fee.tfuel, holder := tx.holder.coinless },
        ⟨.depositStake, position, []⟩) := by
  obtain ⟨position, h_party⟩ := payingParty_of_shows (by decide) .depositStake tx.source tx.fee
    (Tx.depositStake tx).metadata h_shows
  have h_holder : holderOf (Tx.depositStake tx).metadata = .ok tx.holder.coinless :=
    holderOf_metadata (by simp [entries])
  have h_purpose : purposeOf (Tx.depositStake tx).metadata = .ok tx.purpose :=
    purposeOf_metadata (by simp [entries])
  refine ⟨position, ?_⟩
  rw [DepositStake.ofOperations, h_party]
  simp only [bind, Except.bind, pure, Except.pure, h_holder, h_purpose]

theorem DepositStakeV2.ofOperations_of_shows (tx : DepositStakeV2)
    (h_shows : List.Forall₂ Shows ops ((Tx.depositStakeV2 tx).legs context)) :
    ∃ position,
      DepositStakeV2.ofOperations (.start .depositStakeV2 ops) (Tx.depositStakeV2 tx).metadata =
        .ok ({ tx with fee := .ofTfuel tx.fee.tfuel, holder := tx.holder.coinless },
          ⟨.depositStakeV2, position, []⟩) := by
  obtain ⟨position, h_party⟩ := payingParty_of_shows (by decide) .depositStakeV2 tx.source tx.fee
    (Tx.depositStakeV2 tx).metadata h_shows
  have h_holder : holderOf (Tx.depositStakeV2 tx).metadata = .ok tx.holder.coinless :=
    holderOf_metadata (by simp [entries])
  have h_purpose : purposeOf (Tx.depositStakeV2 tx).metadata = .ok tx.purpose :=
    purposeOf_metadata (by simp [entries])
  -- Each of the byte strings is left out when it is empty, and then read as the empty one.
  have h_pubkey : (Tx.depositStakeV2 tx).metadata.bytesOrEmpty "bls_pub_key" =
      .ok tx.blsPubkey :=
    bytesOrEmpty_metadata fun v => by simp [entries, typeEntry, mem_bytesEntry]
  have h_pop : (Tx.depositStakeV2 tx).metadata.bytesOrEmpty "bls_pop" = .ok tx.blsPop :=
    bytesOrEmpty_metadata fun v => by simp [entries, typeEntry, mem_bytesEntry]
  have h_sig : (Tx.depositStakeV2 tx).metadata.bytesOrEmpty "holder_sig" = .ok tx.holderSig :=
    bytesOrEmpty_metadata fun v => by simp [entries, typeEntry, mem_bytesEntry]
  refine ⟨position, ?_⟩
  rw [DepositStakeV2.ofOperations, h_party]
  simp only [bind, Except.bind, pure, Except.pure, h_holder, h_purpose, h_pubkey, h_pop, h_sig]

theorem WithdrawStake.ofOperations_of_shows (tx : WithdrawStake)
    (h_shows : List.Forall₂ Shows ops ((Tx.withdrawStake tx).legs context)) :
    ∃ position,
      WithdrawStake.ofOperations (.start .withdrawStake ops) (Tx.withdrawStake tx).metadata =
        .ok ({ tx with
          fee := .ofTfuel tx.fee.tfuel, source := tx.source.coinless,
          holder := tx.holder.coinless }, ⟨.withdrawStake, position, []⟩) := by
  obtain ⟨op, rfl, h_op⟩ := exists_of_shows_singleton h_shows
  -- The fee is the only leg, so it is its account that signs.
  have h_fee := Cursor.fee_of_shows h_op .withdrawStake 0 [] none (by simp)
  have h_input := Operation.input_of_metadata h_op.metadata_eq (Tx.withdrawStake tx).metadata
    tx.source.address {}
  have h_holder : holderOf (Tx.withdrawStake tx).metadata = .ok tx.holder.coinless :=
    holderOf_metadata (by simp [entries])
  have h_purpose : purposeOf (Tx.withdrawStake tx).metadata = .ok tx.purpose :=
    purposeOf_metadata (by simp [entries])
  refine ⟨1, ?_⟩
  rw [WithdrawStake.ofOperations, Cursor.start, h_fee]
  simp only [bind, Except.bind, pure, Except.pure, h_input, h_holder, h_purpose]
  rfl

theorem ServicePayment.ofOperations_of_shows (tx : ServicePayment)
    (h_shows : List.Forall₂ Shows ops ((Tx.servicePayment tx).legs context)) :
    ∃ position,
      ServicePayment.ofOperations (.start .servicePayment ops) (Tx.servicePayment tx).metadata =
        .ok ({ tx with
          fee := .ofTfuel tx.fee.tfuel, source := tx.source.tfuelOnly,
          target := tx.target.tfuelOnly }, ⟨.servicePayment, position, []⟩) := by
  cases h_shows with
  | @cons op _ ops _ h_op h_ops =>
    cases h_ops with
    | @cons op' _ ops _ h_op' h_ops =>
      obtain ⟨op'', rfl, h_op''⟩ := exists_of_shows_singleton h_ops
      have h_source : Cursor.one ⟨.servicePayment, 0, [op, op', op'']⟩ .servicePaymentSource =
          .ok (⟨op, tx.source.address, .tfuel, -(tx.source.coins.tfuel : Int)⟩,
            ⟨.servicePayment, 1, [op', op'']⟩) :=
        Cursor.one_of_shows h_op .servicePayment 0 [op', op'']
      have h_target : Cursor.one ⟨.servicePayment, 1, [op', op'']⟩ .servicePaymentTarget =
          .ok (⟨op', tx.target.address, .tfuel, tx.target.coins.tfuel⟩,
            ⟨.servicePayment, 2, [op'']⟩) :=
        Cursor.one_of_shows h_op' .servicePayment 1 [op'']
      -- Here the party that receives pays the fee.
      have h_fee := Cursor.fee_of_shows h_op'' .servicePayment 2 [] (some tx.target.address)
        (by simp)
      have h_input := Operation.input_of_metadata h_op.metadata_eq
        (Tx.servicePayment tx).metadata tx.source.address (.ofTfuel tx.source.coins.tfuel)
      have h_input' := Operation.input_of_metadata h_op'.metadata_eq
        (Tx.servicePayment tx).metadata tx.target.address (.ofTfuel tx.target.coins.tfuel)
      have h_payment : (Tx.servicePayment tx).metadata.counterOr "payment_sequence" 0 =
          .ok tx.paymentSequence :=
        Metadata.counterOr_of_get? (get?_metadata (by simp [entries]))
      have h_reserve : (Tx.servicePayment tx).metadata.counterOr "reserve_sequence" 0 =
          .ok tx.reserveSequence :=
        Metadata.counterOr_of_get? (get?_metadata (by simp [entries]))
      have h_resource : (Tx.servicePayment tx).metadata.stringOrEmpty "resource_id" =
          .ok tx.resourceId :=
        Metadata.stringOrEmpty_of_get? (get?_metadata (by simp [entries]))
      refine ⟨3, ?_⟩
      rw [ServicePayment.ofOperations, Cursor.start, h_source]
      simp only [bind, Except.bind, pure, Except.pure, Posting.requireCoin_mk, Posting.debit_mk,
        Posting.credit_mk, h_target, h_fee, h_input, h_input', h_payment, h_reserve, h_resource]
      rfl

theorem SplitRule.ofOperations_of_shows (tx : SplitRule)
    (h_shows : List.Forall₂ Shows ops ((Tx.splitRule tx).legs context)) :
    ∃ position, SplitRule.ofOperations (.start .splitRule ops) (Tx.splitRule tx).metadata =
      .ok ({ tx with fee := .ofTfuel tx.fee.tfuel, initiator := tx.initiator.tfuelOnly },
        ⟨.splitRule, position, []⟩) := by
  cases h_shows with
  | @cons op _ ops _ h_op h_ops =>
    obtain ⟨op', rfl, h_op'⟩ := exists_of_shows_singleton h_ops
    have h_initiator : Cursor.one ⟨.splitRule, 0, [op, op']⟩ .splitRuleInitiator =
        .ok (⟨op, tx.initiator.address, .tfuel, -(tx.initiator.coins.tfuel : Int)⟩,
          ⟨.splitRule, 1, [op']⟩) :=
      Cursor.one_of_shows h_op .splitRule 0 [op']
    -- The fee has to be paid by the initiator.
    have h_fee := Cursor.fee_of_shows h_op' .splitRule 1 [] (some tx.initiator.address) (by simp)
    have h_input := Operation.input_of_metadata h_op.metadata_eq (Tx.splitRule tx).metadata
      tx.initiator.address (.ofTfuel tx.initiator.coins.tfuel)
    have h_resource : (Tx.splitRule tx).metadata.stringOrEmpty "resource_id" = .ok tx.resourceId :=
      Metadata.stringOrEmpty_of_get? (get?_metadata (by simp [entries]))
    have h_splits : (Tx.splitRule tx).metadata.typed? "splits" Split.json.list =
        .ok (some tx.splits) :=
      Metadata.typed?_of_get? Split.faithful_json.list (get?_metadata (by simp [entries])) rfl
    have h_duration : (Tx.splitRule tx).metadata.counterOr "duration" 0 = .ok tx.duration :=
      Metadata.counterOr_of_get? (get?_metadata (by simp [entries]))
    refine ⟨2, ?_⟩
    rw [SplitRule.ofOperations, Cursor.start, h_initiator]
    simp only [bind, Except.bind, pure, Except.pure, Posting.requireCoin_mk, Posting.debit_mk,
      h_fee, h_input, h_resource, h_splits, h_duration, Option.getD_some]
    rfl

theorem StakeRewardDistribution.ofOperations_of_shows (tx : StakeRewardDistribution)
    (h_shows : List.Forall₂ Shows ops ((Tx.stakeRewardDistribution tx).legs context)) :
    ∃ position,
      StakeRewardDistribution.ofOperations (.start .stakeRewardDistribution ops)
          (Tx.stakeRewardDistribution tx).metadata =
        .ok ({ tx with fee := .ofTfuel tx.fee.tfuel, holder := tx.holder.coinless },
          ⟨.stakeRewardDistribution, position, []⟩) := by
  obtain ⟨before, after, rfl, h_before, h_after⟩ := exists_append_of_shows h_shows
  have h_run : Cursor.IsRun .stakeRewardBeneficiary before after :=
    Cursor.isRun_of_shows_map h_before (fun _ => rfl) h_after (by simp [feeLeg])
  obtain ⟨op, rfl, h_op⟩ := exists_of_shows_singleton h_after
  obtain ⟨party, h_party, h_cases⟩ :=
    Cursor.party_of_partyLegs .stakeRewardDistribution 0 h_before h_run
  have h_fee := Cursor.fee_of_shows h_op .stakeRewardDistribution (0 + before.length) [] none
    (by simp)
  have h_input := Operation.input_of_metadata h_op.metadata_eq
    (Tx.stakeRewardDistribution tx).metadata tx.holder.address {}
  have h_basis : (Tx.stakeRewardDistribution tx).metadata.counterOr "split_basis_point" 0 =
      .ok tx.splitBasisPoint :=
    Metadata.counterOr_of_get? (get?_metadata (by simp [entries]))
  refine ⟨0 + before.length + 1, ?_⟩
  rw [StakeRewardDistribution.ofOperations, Cursor.start, h_party]
  rcases h_cases with ⟨rfl, -, h_coins⟩ | ⟨first, seen, rfl, -⟩
  · -- A beneficiary without coins has no leg, and is named by the metadata alone.
    have h_beneficiary : (Tx.stakeRewardDistribution tx).metadata.address? "beneficiary" =
        .ok (some tx.beneficiary.address) :=
      Metadata.address?_of_get? (get?_metadata (by simp [entries]))
    simp only [bind, Except.bind, pure, Except.pure, h_fee, h_beneficiary, Metadata.demand,
      h_input, h_basis, Option.map_none, Option.getD_none]
    have h_same : (⟨tx.beneficiary.address, {}⟩ : Output) = tx.beneficiary := by
      rw [← h_coins]
    rw [h_same]
    rfl
  · simp only [bind, Except.bind, pure, Except.pure, h_fee, h_input, h_basis, Option.map_some,
      Option.getD_some]
    rfl

/-- The coins of which a contract call always shows a leg, and those it shows if there are any. -/
def SmartContract.shownCoins (coins : Coins) : List Denom :=
  if coins.theta = 0 then [.tfuel] else [.theta, .tfuel]

theorem SmartContract.shownCoins_spec (coins : Coins) :
    shownCoins coins ≠ [] ∧ (shownCoins coins).Nodup ∧
      ∀ d, d ∉ shownCoins coins → coins.get d = 0 := by
  unfold shownCoins
  split
  · next h_zero =>
    refine ⟨by decide, by decide, fun d h_out => ?_⟩
    cases d with
    | theta => exact h_zero
    | tfuel => exact absurd List.mem_cons_self h_out
  · refine ⟨by decide, by decide, fun d h_out => absurd ?_ h_out⟩
    cases d <;> decide

/-- Before it is in a block, a contract call has the legs of two parties. -/
theorem SmartContract.intentLegs_eq (tx : SmartContract) :
    tx.intentLegs =
      (shownCoins tx.sender.coins).map (shareLeg .smartContractFrom tx.sender.address
        tx.sender.coins true (some tx.sender.metadata)) ++
      (shownCoins tx.recipient.coins).map (shareLeg .smartContractTo tx.recipient.address
        tx.recipient.coins false none) := by
  by_cases h_sender : tx.sender.coins.theta = 0
  · by_cases h_recipient : tx.recipient.coins.theta = 0
    · simp only [intentLegs, shownCoins, if_pos h_sender, if_pos h_recipient]
      rfl
    · simp only [intentLegs, shownCoins, if_pos h_sender, if_neg h_recipient]
      rfl
  · by_cases h_recipient : tx.recipient.coins.theta = 0
    · simp only [intentLegs, shownCoins, if_neg h_sender, if_pos h_recipient]
      rfl
    · simp only [intentLegs, shownCoins, if_neg h_sender, if_neg h_recipient]
      rfl

theorem SmartContract.ofOperations_of_shows (tx : SmartContract)
    (h_shows : List.Forall₂ Shows ops tx.intentLegs) :
    ∃ position,
      SmartContract.ofOperations (.start .smartContract ops) (Tx.smartContract tx).metadata =
        .ok (tx, ⟨.smartContract, position, []⟩) := by
  rw [intentLegs_eq] at h_shows
  obtain ⟨before, after, rfl, h_before, h_after⟩ := exists_append_of_shows h_shows
  have h_from : Cursor.IsRun .smartContractFrom before after := by
    refine Cursor.isRun_of_shows_map h_before (fun _ => rfl) h_after fun leg h_mem => ?_
    obtain ⟨d, -, rfl⟩ := List.mem_map.mp h_mem
    simp [shareLeg]
  have h_to : Cursor.IsRun .smartContractTo after [] :=
    Cursor.isRun_of_shows_map h_after (fun _ => rfl) List.Forall₂.nil (by simp)
  -- A party shows its TFUEL in any case and its THETA if it has any, which is all that it has.
  obtain ⟨h_some, h_nodup, h_zero⟩ := shownCoins_spec tx.sender.coins
  obtain ⟨op, seen, h_sender, h_first⟩ :=
    Cursor.party_of_shows .smartContract 0 h_some h_nodup h_zero h_before h_from
  obtain ⟨h_some', h_nodup', h_zero'⟩ := shownCoins_spec tx.recipient.coins
  obtain ⟨op', seen', h_recipient, -⟩ :=
    Cursor.party_of_shows .smartContract (0 + before.length) h_some' h_nodup' h_zero' h_after h_to
  rw [List.append_nil] at h_recipient
  have h_input := Operation.input_of_metadata h_first (Tx.smartContract tx).metadata
    tx.sender.address tx.sender.coins
  have h_limit : (Tx.smartContract tx).metadata.counterOr "gas_limit" Chain.defaultGasLimit =
      .ok tx.gasLimit :=
    Metadata.counterOr_of_get? (get?_metadata (by simp [entries]))
  have h_price : (Tx.smartContract tx).metadata.amount? "gas_price" = .ok (some tx.gasPrice) :=
    Metadata.amount?_of_get? (get?_metadata (by simp [entries]))
  have h_data : (Tx.smartContract tx).metadata.bytesOrEmpty "data" = .ok tx.data :=
    Metadata.bytesOrEmpty_of_get? (get?_metadata (by simp [entries]))
  refine ⟨0 + before.length + after.length, ?_⟩
  rw [SmartContract.ofOperations, Cursor.start, h_sender]
  simp only [bind, Except.bind, pure, Except.pure, h_recipient, h_input, h_limit, h_price, h_data,
    Option.getD_some]

/-- The first input of a send is read with what its TFUEL leg shows. -/
theorem Send.inputOf_first (m : Metadata) (i : Input) (apart : Nat) {op op' : Operation}
    (h_op : op.metadata = some i.metadata) :
    inputOf m 0 ⟨op, i.address, .theta, -(i.coins.theta : Int)⟩
        ⟨op', i.address, .tfuel, -((i.coins.tfuel : Int) - apart)⟩ =
      .ok ((i.coins.tfuel : Int) - apart,
        { i with coins := ⟨i.coins.theta, ((i.coins.tfuel : Int) - apart).toNat⟩ }) := by
  -- The fee may be larger than the amount, so the leg can have either sign and is taken as it is.
  have h_net : -(-((i.coins.tfuel : Int) - apart)) = (i.coins.tfuel : Int) - apart := by omega
  simp only [inputOf, bind, Except.bind, pure, Except.pure, Posting.debit_mk, if_true, h_net,
    Operation.input_of_metadata h_op]

/-- An input behind the first one is read as it is. -/
theorem Send.inputOf_other (m : Metadata) {position : Nat} (h_position : position ≠ 0) (i : Input)
    {op op' : Operation} (h_op : op.metadata = some i.metadata) :
    inputOf m position ⟨op, i.address, .theta, -(i.coins.theta : Int)⟩
        ⟨op', i.address, .tfuel, -((i.coins.tfuel : Int) - (0 : Nat))⟩ =
      .ok ((i.coins.tfuel : Int), i) := by
  have h_debit : Posting.debit .send
      ⟨op', i.address, .tfuel, -((i.coins.tfuel : Int) - (0 : Nat))⟩ = .ok i.coins.tfuel :=
    Posting.debit_of_value (congrArg Neg.neg (Int.sub_zero _))
  simp only [inputOf, bind, Except.bind, pure, Except.pure, Posting.debit_mk, if_neg h_position,
    h_debit, Except.map, Operation.input_of_metadata h_op]
  rfl

/-- The fee makes up for what the first input does not show. -/
theorem Send.withFee_first (i : Input) (fee : Nat) :
    withFee ((i.coins.tfuel : Int) - fee)
        { i with coins := ⟨i.coins.theta, ((i.coins.tfuel : Int) - fee).toNat⟩ } fee = .ok i := by
  have h_sum : (i.coins.tfuel : Int) - fee + fee = i.coins.tfuel := by omega
  rw [withFee, h_sum, if_pos (Int.natCast_nonneg _)]
  rfl

theorem Send.type_of_mem_inputs {payer : Input} {others : List Input} {apart : Nat} {leg : Leg}
    (h_mem : leg ∈ inputPair payer apart ++ others.flatMap (inputPair · 0)) :
    leg.type = .sendInput := by
  have h_pair : ∀ i n, leg ∈ inputPair i n → leg.type = .sendInput := by
    intro i n h_leg
    rcases List.mem_pair.mp h_leg with rfl | rfl
    · rfl
    · rfl
  rcases List.mem_append.mp h_mem with h_first | h_other
  · exact h_pair payer apart h_first
  · obtain ⟨i, -, h_leg⟩ := List.mem_flatMap.mp h_other
    exact h_pair i 0 h_leg

theorem Send.type_of_mem_outputs {outputs : List Output} {leg : Leg}
    (h_mem : leg ∈ outputs.flatMap outputPair) : leg.type = .sendOutput := by
  obtain ⟨o, -, h_leg⟩ := List.mem_flatMap.mp h_mem
  rcases List.mem_pair.mp h_leg with rfl | rfl
  · rfl
  · rfl

/-- The outputs of a send are read back. -/
theorem Send.pairs_outputs (outputs : List Output) (position : Nat)
    {received rest : List Operation} {others : List Leg}
    (h_received : List.Forall₂ Shows received (outputs.flatMap outputPair))
    (h_rest : List.Forall₂ Shows rest others) (h_ends : ∀ leg ∈ others, leg.type ≠ .sendOutput) :
    Cursor.pairs ⟨.send, position, received ++ rest⟩ .sendOutput outputOf =
      .ok (outputs, ⟨.send, position + received.length, rest⟩) := by
  refine Cursor.pairs_of_isRun
    (Cursor.isRun_of_shows h_received (fun _ => type_of_mem_outputs) h_rest h_ends) fun next => ?_
  have h_read : Cursor.pairsOf .send .sendOutput next outputOf position received =
      .ok (outputs.map id) := by
    refine Cursor.pairsOf_of_shows position h_received fun o p op op' _ _ _ => ?_
    show outputOf p ⟨op, o.address, .theta, o.coins.theta⟩ ⟨op', o.address, .tfuel, o.coins.tfuel⟩
      = .ok o
    simp only [outputOf, Posting.credit_mk, bind, Except.bind, pure, Except.pure]
  rw [h_read, List.map_id]

theorem Send.ofOperations_of_shows (fee : Coins) (payer : Input) (others : List Input)
    (outputs : List Output) (m : Metadata)
    (h_shows : List.Forall₂ Shows ops (Send.legs ⟨fee, payer :: others, outputs⟩)) :
    ∃ position, Send.ofOperations (.start .send ops) m =
      .ok (⟨.ofTfuel fee.tfuel, payer :: others, outputs⟩, ⟨.send, position, []⟩) := by
  obtain ⟨parties, last, rfl, h_parties, h_last⟩ := exists_append_of_shows h_shows
  obtain ⟨spent, received, rfl, h_spent, h_received⟩ := exists_append_of_shows h_parties
  obtain ⟨op, rfl, h_op⟩ := exists_of_shows_singleton h_last
  -- The run of the inputs ends at the outputs, or at the fee if there are none.
  have h_run : Cursor.IsRun .sendInput spent (received ++ [op]) := by
    refine Cursor.isRun_of_shows h_spent (fun _ => type_of_mem_inputs)
      (List.rel_append h_received h_last) fun leg h_mem => ?_
    rcases List.mem_append.mp h_mem with h_output | h_fee
    · rw [type_of_mem_outputs h_output]
      decide
    · rw [List.mem_singleton.mp h_fee]
      exact (by decide : OperationType.fee ≠ .sendInput)
  have h_pairs : ∀ next, Cursor.pairsOf .send .sendInput next (inputOf m) 0 spent =
      .ok (((payer.coins.tfuel : Int) - fee.tfuel, { payer with
        coins := ⟨payer.coins.theta, ((payer.coins.tfuel : Int) - fee.tfuel).toNat⟩ }) ::
          others.map fun i => ((i.coins.tfuel : Int), i)) := by
    intro next
    obtain ⟨theta, behind, h_theta, h_behind, rfl⟩ := List.forall₂_cons_right_iff.mp h_spent
    obtain ⟨tfuel, rest, h_tfuel, h_rest, rfl⟩ := List.forall₂_cons_right_iff.mp h_behind
    refine Cursor.pairsOf_cons h_theta h_tfuel
      (inputOf_first m payer fee.tfuel h_theta.metadata_eq) ?_
    -- Behind the first pair no position is zero.
    refine Cursor.pairsOf_of_shows 2 h_rest fun i p op op' h_le h_op h_op' => ?_
    exact inputOf_other m (by omega) i h_op.metadata_eq
  have h_inputs := Cursor.pairs_of_isRun h_run h_pairs
  have h_outputs := pairs_outputs outputs (0 + spent.length) h_received h_last fun leg h_mem => by
    rw [List.mem_singleton.mp h_mem]
    exact (by decide : OperationType.fee ≠ .sendOutput)
  have h_fee := Cursor.fee_of_shows h_op .send (0 + spent.length + received.length) []
    (some payer.address) (by simp)
  refine ⟨0 + spent.length + received.length + 1, ?_⟩
  rw [List.append_assoc, Send.ofOperations, Cursor.start, h_inputs]
  have h_others : (others.map fun i => ((i.coins.tfuel : Int), i)).map Prod.snd = others := by
    rw [List.map_map]
    exact List.map_id others
  simp only [bind, Except.bind, pure, Except.pure, h_outputs, h_fee, withFee_first, h_others]

/-- Without an input there is nobody to pay the fee. -/
theorem Send.ofOperations_of_no_input (fee : Coins) (outputs : List Output) (m : Metadata)
    (h_shows : List.Forall₂ Shows ops (Send.legs ⟨fee, [], outputs⟩)) :
    Send.ofOperations (.start .send ops) m = .error (.layout .send .noInput) := by
  have h_outputs := pairs_outputs outputs 0 h_shows List.Forall₂.nil (by simp)
  rw [List.append_nil] at h_outputs
  have h_run : Cursor.IsRun .sendInput [] ops := by
    refine Cursor.isRun_of_shows List.Forall₂.nil (by simp) h_shows fun leg h_mem => ?_
    rw [type_of_mem_outputs h_mem]
    decide
  have h_inputs : Cursor.pairs ⟨.send, 0, ops⟩ .sendInput (inputOf m) =
      .ok ([], ⟨.send, 0, ops⟩) :=
    Cursor.pairs_of_isRun h_run fun _ => rfl
  rw [Send.ofOperations, Cursor.start, h_inputs]
  simp only [bind, Except.bind, h_outputs]

end Bodies

/-! ### Transactions -/

/-- A transaction that has nobody to pay its fee: a send without inputs. -/
def LacksPayer (tx : Tx) : Prop := tx.kind = .send ∧ tx.signingInputs = []

instance (tx : Tx) : Decidable tx.LacksPayer := inferInstanceAs (Decidable (_ ∧ _))

theorem ofOperations_of_readLayout {k : Kind} {ops : List Operation} {m : Metadata} {tx : Tx}
    (h_read : ∃ position, readLayout m (.start k ops) = .ok (tx, ⟨k, position, []⟩)) :
    ofOperations k ops m = .ok tx := by
  obtain ⟨position, h_layout⟩ := h_read
  rw [ofOperations, h_layout]
  rfl

/-- A body that is read back is a transaction that is read back. -/
theorem readLayout_of_body {α : Type} {make : α → Tx} {body : α} {k : Kind}
    {read : Except TxError (α × Cursor)}
    (h_body : ∃ position, read = .ok (body, ⟨k, position, []⟩)) :
    ∃ position, read.map (.map make id) = .ok (make body, ⟨k, position, []⟩) := by
  obtain ⟨position, rfl⟩ := h_body
  exact ⟨position, rfl⟩

/-- **A transaction is read back** from any operations that show its legs. A contract call has to be
shown as it was asked for, and somebody has to pay the fee of a send. -/
theorem ofOperations_of_shows {tx : Tx} {context : TxContext} {ops : List Operation}
    (h_call : tx.kind = .smartContract → context.changes = none) (h_payer : ¬ tx.LacksPayer)
    (h_shows : List.Forall₂ Operation.Shows ops (tx.legs context)) :
    ofOperations tx.kind ops tx.metadata = .ok tx.normalize := by
  apply ofOperations_of_readLayout
  cases tx with
  | coinbase tx => exact readLayout_of_body (tx.ofOperations_of_shows context h_shows)
  | slash tx => exact readLayout_of_body (tx.ofOperations_of_shows context h_shows)
  | send tx =>
    obtain ⟨fee, inputs, outputs⟩ := tx
    cases inputs with
    | nil => exact absurd ⟨rfl, rfl⟩ h_payer
    | cons payer others =>
      exact readLayout_of_body (Send.ofOperations_of_shows fee payer others outputs _ h_shows)
  | reserveFund tx => exact readLayout_of_body (tx.ofOperations_of_shows context h_shows)
  | releaseFund tx => exact readLayout_of_body (tx.ofOperations_of_shows context h_shows)
  | servicePayment tx => exact readLayout_of_body (tx.ofOperations_of_shows context h_shows)
  | splitRule tx => exact readLayout_of_body (tx.ofOperations_of_shows context h_shows)
  | smartContract tx =>
    have h_intent : (Tx.smartContract tx).legs context = tx.intentLegs := by
      rw [legs, h_call rfl]
    rw [h_intent] at h_shows
    exact readLayout_of_body (tx.ofOperations_of_shows h_shows)
  | depositStake tx => exact readLayout_of_body (tx.ofOperations_of_shows context h_shows)
  | withdrawStake tx => exact readLayout_of_body (tx.ofOperations_of_shows context h_shows)
  | depositStakeV2 tx => exact readLayout_of_body (tx.ofOperations_of_shows context h_shows)
  | stakeRewardDistribution tx =>
    exact readLayout_of_body (tx.ofOperations_of_shows context h_shows)

/-- A send without inputs is not read back. -/
theorem ofOperations_of_lacksPayer {tx : Tx} {context : TxContext} {ops : List Operation}
    (h_payer : tx.LacksPayer) (h_shows : List.Forall₂ Operation.Shows ops (tx.legs context)) :
    ofOperations tx.kind ops tx.metadata = .error (.layout .send .noInput) := by
  obtain ⟨h_kind, h_inputs⟩ := h_payer
  cases tx with
  | send tx =>
    obtain ⟨fee, inputs, outputs⟩ := tx
    cases h_inputs
    have h_body := Send.ofOperations_of_no_input fee outputs (Tx.send ⟨fee, [], outputs⟩).metadata
      h_shows
    show ((Except.map _ (Send.ofOperations (.start .send ops) _)).bind _ : Except TxError Tx) = _
    rw [h_body]
    rfl
  | _ => cases h_kind

/-- **Operations and metadata describe a transaction up to coins that they do not show.** The
transaction that is built from the description of `tx` is `tx.normalize`, which differs from `tx` in
coins alone; so it is `tx` itself just when `tx` has none of the coins that are not shown. The only
transaction that cannot be built is a send without inputs. -/
theorem ofOperations_describe (tx : Tx) (context : TxContext)
    (h_call : tx.kind = .smartContract → context.changes = none) :
    ofOperations tx.kind (tx.describe context).operations (tx.describe context).metadata =
        (if tx.LacksPayer then .error (.layout .send .noInput) else .ok tx.normalize) ∧
      (ofOperations tx.kind (tx.describe context).operations (tx.describe context).metadata =
        .ok tx ↔ ¬ tx.LacksPayer ∧ tx.normalize = tx) ∧
      tx.normalize.kind = tx.kind ∧ tx.normalize.coinless = tx.coinless := by
  have h_shows := Operation.forall₂_ofLegs context.status (tx.legs context)
  have h_built :
      ofOperations tx.kind (tx.describe context).operations (tx.describe context).metadata =
        if tx.LacksPayer then .error (.layout .send .noInput) else .ok tx.normalize := by
    split
    · next h_payer => exact ofOperations_of_lacksPayer h_payer h_shows
    · next h_payer => exact ofOperations_of_shows h_call h_payer h_shows
  refine ⟨h_built, ?_, kind_normalize tx, coinless_normalize tx⟩
  rw [h_built]
  split
  · next h_payer => simp [h_payer]
  · next h_payer => simp [h_payer]

/-- A contract call that moves both coins comes back unchanged. -/
theorem ofOperations_describe_call :
    let call : Tx := .smartContract ⟨⟨.zero, ⟨3, 5⟩, 7, [1, 2]⟩, ⟨.zero, ⟨3, 5⟩⟩, 21000, 4, [0xab]⟩
    let context : TxContext := { status := some "pending" }
    (call.kind = .smartContract → context.changes = none) ∧
      ofOperations .smartContract (call.describe context).operations
        (call.describe context).metadata = .ok call := by
  intro call context
  have h_call : call.kind = .smartContract → context.changes = none := fun _ => rfl
  exact ⟨h_call, (ofOperations_describe call context h_call).2.1.mpr ⟨by decide, rfl⟩⟩

end Tx

end RosettaGateway
