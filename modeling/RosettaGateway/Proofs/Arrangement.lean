import RosettaGateway.Proofs.Signs

/-!
# How operations are arranged

The operations of a transaction are numbered from zero, each names the one before it, and all have
the status of the block (`Operation.WellFormed`); their accounts and amounts can be read. Whatever
is left out for want of coins, the rest stands in the order inputs, outputs, fee, and what belongs
to one party stands together, with THETA in front of TFUEL (`Operation.BlockOf`).

* `Operation.wellFormed_of_ofLegs` — numbers, relations and status, which do not depend on the legs;
* `Tx.arranged_legs` — the legs of each kind of transaction, block by block;
* `Operation.exists_blocks_of_shows` — operations that show blocks of legs are such blocks;
* `Tx.arranged_describe` — what this comes to for the operations of transactions and of stakes that
  come back.

A contract call in a block is shown by what has moved, in the order of the block, and then only the
fee has its place.
-/

namespace RosettaGateway

/-- A party of a transaction: the type that its operations have, and its account. -/
structure Side where
  type : OperationType
  account : Address

namespace Tx

/-- The side of a party that signs. -/
def Input.side (type : OperationType) (i : Input) : Side := ⟨type, i.address⟩

/-- The side of a party that receives. -/
def Output.side (type : OperationType) (o : Output) : Side := ⟨type, o.address⟩

/-- The inputs of a transaction, in their order. -/
def inputSides : Tx → List Side
  | .coinbase tx => [tx.proposer.side .coinbaseProposer]
  | .slash tx => [tx.proposer.side .slashProposer]
  | .send tx => tx.inputs.map (Input.side .sendInput)
  | .reserveFund tx => [tx.source.side .reserveFundSource]
  | .releaseFund tx => [tx.source.side .releaseFundSource]
  | .servicePayment tx => [tx.source.side .servicePaymentSource]
  | .splitRule tx => [tx.initiator.side .splitRuleInitiator]
  | .smartContract tx => [tx.sender.side .smartContractFrom]
  | .depositStake tx => [tx.source.side .depositStakeSource]
  | .withdrawStake tx => [tx.source.side .withdrawStakeSource]
  | .depositStakeV2 tx => [tx.source.side .depositStakeSource]
  | .stakeRewardDistribution tx => [tx.holder.side .stakeRewardHolder]

/-- The outputs of a transaction, in their order. The target of a service payment is one, although
it signs. -/
def outputSides : Tx → List Side
  | .coinbase tx => tx.outputs.map (Output.side .coinbaseOutput)
  | .slash _ => []
  | .send tx => tx.outputs.map (Output.side .sendOutput)
  | .reserveFund _ => []
  | .releaseFund _ => []
  | .servicePayment tx => [tx.target.side .servicePaymentTarget]
  | .splitRule _ => []
  | .smartContract tx => [tx.recipient.side .smartContractTo]
  | .depositStake tx => [tx.holder.side .depositStakeHolder]
  | .withdrawStake tx => [tx.holder.side .withdrawStakeHolder]
  | .depositStakeV2 tx => [tx.holder.side .depositStakeHolder]
  | .stakeRewardDistribution tx => [tx.beneficiary.side .stakeRewardBeneficiary]

/-- No party has operations of the type of fees. -/
theorem type_ne_fee_of_mem_sides {tx : Tx} {s : Side}
    (h_mem : s ∈ tx.inputSides ++ tx.outputSides) : s.type ≠ .fee := by
  cases tx <;>
    simp only [inputSides, outputSides, List.mem_append, List.mem_map, List.mem_singleton,
      List.not_mem_nil, or_false] at h_mem <;>
    grind [Input.side, Output.side]

end Tx

/-! ### Blocks -/

/-- Legs are those of a party: one for each of some coins, with THETA in front of TFUEL. -/
structure Leg.BlockOf (s : Side) (legs : List Leg) : Prop where
  of_side : ∀ leg ∈ legs, leg.type = s.type ∧ leg.account = s.account
  ordered : (legs.map (·.coin)).Sublist [.theta, .tfuel]

/-- Operations are those of a party: one for each of some coins, with THETA in front of TFUEL. -/
structure Operation.BlockOf (s : Side) (ops : List Operation) : Prop where
  of_side : ∀ op ∈ ops, op.type? = some s.type ∧ op.address = .ok s.account
  ordered : (ops.map Operation.coin).Sublist [.ok .theta, .ok .tfuel]

/-- The operation at a place has its number, names the one before it and has the status it is to
have, and it can be read. -/
structure Operation.WellFormed (status : Option String) (i : Nat) (op : Operation) : Prop where
  index_eq : op.index = i
  related_eq : op.related = if i = 0 then [] else [(i : Int) - 1]
  status_eq : op.status = status
  reads_account : ∃ account, op.address = .ok account
  reads_value : ∃ value, op.value = .ok value
  currency_eq : ∃ amount, op.amount = some amount ∧
    (amount.currency = ⟨"THETA", 18⟩ ∨ amount.currency = ⟨"TFUEL", 18⟩)

namespace Leg.BlockOf

variable {type : OperationType} {account : Address}

theorem nil (s : Side) : Leg.BlockOf s [] := ⟨by simp, List.nil_sublist _⟩

theorem single (leg : Leg) : Leg.BlockOf ⟨leg.type, leg.account⟩ [leg] where
  of_side := by simp
  ordered := by
    rw [List.map_singleton, List.singleton_sublist]
    cases leg.coin <;> decide

theorem pair (type : OperationType) (account : Address) (theta tfuel : Int)
    (metadata metadata' : Option Metadata) :
    Leg.BlockOf ⟨type, account⟩
      [Tx.thetaLeg type account theta metadata, Tx.tfuelLeg type account tfuel metadata'] where
  of_side leg h_mem := by
    rcases List.mem_pair.mp h_mem with rfl | rfl <;> exact ⟨rfl, rfl⟩
  ordered := List.Sublist.refl _

theorem partyLegs (type : OperationType) (account : Address) (coins : Coins) (outgoing : Bool)
    (metadata : Option Metadata) :
    Leg.BlockOf ⟨type, account⟩ (Tx.partyLegs type account coins outgoing metadata) where
  of_side leg h_mem := by
    obtain ⟨d, -, rfl⟩ := List.mem_map.mp h_mem
    exact ⟨rfl, rfl⟩
  ordered := by
    -- The coins of a party are all coins in their order, but for those it has none of.
    rw [Tx.partyLegs, List.map_map, Function.comp_def, List.map_id']
    exact List.filter_sublist

/-- The THETA leg of a contract call is left out when there is no THETA. -/
theorem optionalPair (p : Prop) [Decidable p] (type : OperationType) (account : Address)
    (theta tfuel : Int) (metadata : Option Metadata) :
    Leg.BlockOf ⟨type, account⟩ ((if p then [] else [Tx.thetaLeg type account theta metadata]) ++
      [Tx.tfuelLeg type account tfuel metadata]) := by
  split
  · exact single (Tx.tfuelLeg type account tfuel metadata)
  · exact pair type account theta tfuel metadata metadata

/-- One block for each party. -/
theorem forall₂_map {β : Type} {side : β → Side} {legs : β → List Leg}
    (h_block : ∀ b, Leg.BlockOf (side b) (legs b)) (xs : List β) :
    List.Forall₂ Leg.BlockOf (xs.map side) (xs.map legs) := by
  rw [List.forall₂_map_left_iff, List.forall₂_map_right_iff, List.forall₂_same]
  exact fun b _ => h_block b

end Leg.BlockOf

/-- Legs are those of a fee, if there are any. -/
structure Leg.IsFee (legs : List Leg) : Prop where
  type_eq : ∀ leg ∈ legs, leg.type = .fee
  length_le_one : legs.length ≤ 1

/-- Operations are those of a fee, if there are any. -/
structure Operation.IsFee (ops : List Operation) : Prop where
  type_eq : ∀ op ∈ ops, op.type? = some .fee
  length_le_one : ops.length ≤ 1

theorem Leg.isFee_nil : Leg.IsFee [] := ⟨by simp, Nat.zero_le 1⟩

theorem Leg.isFee_single {leg : Leg} (h_type : leg.type = .fee) : Leg.IsFee [leg] :=
  ⟨by simpa using h_type, Nat.le_refl 1⟩

/-- Legs in order: a block for each input, then one for each output, then the fee, if there is one.
-/
inductive Leg.Arranged (inputs outputs : List Side) : List Leg → Prop
  | of_blocks {spent received : List (List Leg)} {fee : List Leg}
      (h_spent : List.Forall₂ Leg.BlockOf inputs spent)
      (h_received : List.Forall₂ Leg.BlockOf outputs received) (h_fee : Leg.IsFee fee) :
      Arranged inputs outputs (spent.flatten ++ received.flatten ++ fee)

/-! ### The legs of each kind -/

namespace Tx

open Leg (BlockOf Arranged isFee_nil isFee_single)

/-- A transaction of which only one input is shown, with its fee. -/
theorem arranged_inputAndFee (type : OperationType) (i : Input) (fee : Coins) {outputs : List Side}
    {received : List (List Leg)} (h_received : List.Forall₂ BlockOf outputs received)
    (h_none : received.flatten = []) : Arranged [i.side type] outputs (inputAndFee type i fee) := by
  have h_block : BlockOf (i.side type) (inputLegs type i) := .partyLegs type _ _ _ _
  have h_legs : inputAndFee type i fee = [inputLegs type i].flatten ++ received.flatten ++
      [feeLeg i.address fee (if (inputLegs type i).isEmpty then some i.metadata else none)] := by
    rw [h_none, List.flatten_singleton, List.append_nil, inputAndFee]
  rw [h_legs]
  exact .of_blocks (.cons h_block .nil) h_received (isFee_single rfl)

theorem Send.arranged_legs (body : Send) : Arranged (Tx.send body).inputSides
    (Tx.send body).outputSides body.legs := by
  have h_received : List.Forall₂ BlockOf (body.outputs.map (Output.side .sendOutput))
      (body.outputs.map outputPair) := Leg.BlockOf.forall₂_map (fun o => .pair _ _ _ _ _ _) _
  rw [legs]
  -- Without an input nobody pays, so there is no fee either.
  split
  · next h_inputs =>
    have h_spent : List.Forall₂ BlockOf (body.inputs.map (Input.side .sendInput)) [] := by
      rw [h_inputs]
      exact .nil
    have h_legs := Arranged.of_blocks h_spent h_received isFee_nil
    rw [List.flatten_nil, List.nil_append, List.append_nil, ← List.flatMap_def] at h_legs
    exact h_legs
  · next payer others h_inputs =>
    -- The first input pays the fee, which its own legs do not show.
    have h_spent : List.Forall₂ BlockOf (body.inputs.map (Input.side .sendInput))
        (inputPair payer body.fee.tfuel :: others.map (inputPair · 0)) := by
      rw [h_inputs]
      exact .cons (.pair _ _ _ _ _ _) (Leg.BlockOf.forall₂_map (fun i => .pair _ _ _ _ _ _) others)
    rw [List.flatMap_def, List.flatMap_def, ← List.flatten_cons]
    exact .of_blocks h_spent h_received (isFee_single rfl)

/-- **The legs of a transaction** are arranged in blocks, unless it is a contract call that is shown
by what has moved. -/
theorem arranged_legs (tx : Tx) {context : TxContext}
    (h_view : ¬ (tx.kind = .smartContract ∧ context.changes.isSome)) :
    Arranged tx.inputSides tx.outputSides (tx.legs context) := by
  cases tx with
  | send body => exact body.arranged_legs
  | reserveFund body => exact arranged_inputAndFee _ body.source body.fee .nil rfl
  | releaseFund body => exact arranged_inputAndFee _ body.source body.fee .nil rfl
  -- The holder of a stake is an output without legs.
  | depositStake body =>
    exact arranged_inputAndFee _ body.source body.fee (.cons (.nil _) .nil) rfl
  | depositStakeV2 body =>
    exact arranged_inputAndFee _ body.source body.fee (.cons (.nil _) .nil) rfl
  | coinbase body =>
    have h_received := Leg.BlockOf.forall₂_map (fun o : Output =>
      Leg.BlockOf.single (tfuelLeg .coinbaseOutput o.address o.coins.tfuel)) body.outputs
    have h_legs := Arranged.of_blocks (.cons (Leg.BlockOf.single (tfuelLeg .coinbaseProposer
      body.proposer.address 0 (some body.proposer.metadata))) .nil) h_received isFee_nil
    rw [← List.flatMap_def, ← List.map_eq_flatMap, List.append_nil] at h_legs
    exact h_legs
  | slash body =>
    exact .of_blocks (.cons (.single (thetaLeg .slashProposer body.proposer.address 0
      (some body.proposer.metadata))) .nil) .nil isFee_nil
  | servicePayment body =>
    exact .of_blocks (.cons (.single (tfuelLeg .servicePaymentSource body.source.address
      (-(body.source.coins.tfuel : Int)) (some body.source.metadata))) .nil)
      (.cons (.single (tfuelLeg .servicePaymentTarget body.target.address body.target.coins.tfuel
        (some body.target.metadata))) .nil) (isFee_single rfl)
  | splitRule body =>
    exact .of_blocks (.cons (.single (tfuelLeg .splitRuleInitiator body.initiator.address
      (-(body.initiator.coins.tfuel : Int)) (some body.initiator.metadata))) .nil) .nil
      (isFee_single rfl)
  | smartContract body =>
    have h_changes : context.changes = none := by
      cases h : context.changes with
      | none => rfl
      | some changes => exact absurd ⟨rfl, by rw [h]; rfl⟩ h_view
    have h_legs := Arranged.of_blocks
      (.cons (Leg.BlockOf.optionalPair (body.sender.coins.theta = 0) .smartContractFrom
        body.sender.address (-(body.sender.coins.theta : Int)) (-(body.sender.coins.tfuel : Int))
        (some body.sender.metadata)) .nil)
      (.cons (Leg.BlockOf.optionalPair (body.recipient.coins.theta = 0) .smartContractTo
        body.recipient.address body.recipient.coins.theta body.recipient.coins.tfuel none) .nil)
      isFee_nil
    rw [List.flatten_singleton, List.flatten_singleton, List.append_nil, ← List.append_assoc]
      at h_legs
    rw [legs, h_changes]
    exact h_legs
  | withdrawStake body =>
    exact .of_blocks (.cons (.nil _) .nil) (.cons (.nil _) .nil) (isFee_single rfl)
  | stakeRewardDistribution body =>
    have h_legs := Arranged.of_blocks (.cons (.nil (body.holder.side .stakeRewardHolder)) .nil)
      (.cons (.partyLegs .stakeRewardBeneficiary body.beneficiary.address body.beneficiary.coins
        false none) .nil)
      (isFee_single (rfl : (feeLeg body.holder.address body.fee
        (some body.holder.metadata)).type = .fee))
    rw [List.flatten_singleton, List.flatten_singleton, List.nil_append] at h_legs
    exact h_legs

/-- No leg of a party is a fee. -/
theorem type_ne_fee_of_blocks {sides : List Side} {blocks : List (List Leg)}
    (h_blocks : List.Forall₂ BlockOf sides blocks) (h_sides : ∀ s ∈ sides, s.type ≠ .fee) :
    ∀ leg ∈ blocks.flatten, leg.type ≠ .fee := by
  induction h_blocks with
  | nil => simp
  | cons h_block _ ih =>
    obtain ⟨h_first, h_rest⟩ := List.forall_mem_cons.mp h_sides
    intro leg h_mem
    rcases List.mem_append.mp h_mem with h_leg | h_leg
    · rw [(h_block.of_side leg h_leg).1]
      exact h_first
    · exact ih h_rest leg h_leg

theorem SmartContract.type_ne_fee_of_changeLeg? {c : BalanceChange} {leg : Leg}
    (h_leg : changeLeg? c = some leg) : leg.type ≠ .fee := by
  unfold changeLeg? at h_leg
  split at h_leg
  · cases h_leg
  · split at h_leg
    · cases h_leg
    · cases h_leg
      cases c.isNegative <;> exact OperationType.noConfusion

/-- **A fee stands behind everything else**, in either view. -/
theorem exists_front_legs (tx : Tx) (context : TxContext) :
    ∃ front fee, tx.legs context = front ++ fee ∧ (∀ leg ∈ front, leg.type ≠ .fee) ∧
      Leg.IsFee fee ∧
      (¬ (tx.kind = .smartContract ∧ context.changes.isSome) → ∃ spent received,
        front = spent.flatten ++ received.flatten ∧ List.Forall₂ BlockOf tx.inputSides spent ∧
          List.Forall₂ BlockOf tx.outputSides received) := by
  by_cases h_view : tx.kind = .smartContract ∧ context.changes.isSome
  · -- A call that is shown by what has moved has no blocks: there is a leg for each change.
    obtain ⟨h_kind, h_some⟩ := h_view
    obtain ⟨changes, h_changes⟩ := Option.isSome_iff_exists.mp h_some
    cases tx with
    | smartContract body =>
      have h_legs : (Tx.smartContract body).legs context =
          body.effectLegs changes context.gasUsed := by rw [legs, h_changes]
      refine ⟨_, _, h_legs, ?_, ?_, fun h_not => absurd ⟨rfl, h_some⟩ h_not⟩
      · intro leg h_mem
        obtain ⟨c, -, h_leg⟩ := List.mem_filterMap.mp h_mem
        exact SmartContract.type_ne_fee_of_changeLeg? h_leg
      · split
        · exact isFee_nil
        · exact isFee_single rfl
    | _ => cases h_kind
  · -- In any other view the sides come in blocks, and none of them is a fee.
    have h_arranged := arranged_legs tx h_view
    generalize tx.legs context = legs at h_arranged
    obtain ⟨h_spent, h_received, h_fee⟩ := h_arranged
    refine ⟨_, _, rfl, ?_, h_fee, fun _ => ⟨_, _, rfl, h_spent, h_received⟩⟩
    intro leg h_mem
    rcases List.mem_append.mp h_mem with h_leg | h_leg
    · exact type_ne_fee_of_blocks h_spent
        (fun s h_s => type_ne_fee_of_mem_sides (List.mem_append_left _ h_s)) leg h_leg
    · exact type_ne_fee_of_blocks h_received
        (fun s h_s => type_ne_fee_of_mem_sides (List.mem_append_right _ h_s)) leg h_leg

end Tx

/-! ### Operations -/

namespace Operation

variable {ops : List Operation} {legs : List Leg}

/-- An operation that was made of a leg is well formed, whatever the leg is. -/
theorem wellFormed_of_ofLegs {status : Option String} {i : Nat} {op : Operation}
    (h_op : (ofLegs status legs)[i]? = some op) : op.WellFormed status i := by
  obtain ⟨leg, -, h_shows⟩ := exists_shows_of_ofLegs h_op
  obtain ⟨-, h_account, -, h_value⟩ := h_shows.reads
  rw [ofLegs, List.getElem?_mapIdx] at h_op
  obtain ⟨leg, -, rfl⟩ := Option.map_eq_some_iff.mp h_op
  refine ⟨rfl, rfl, rfl, ⟨_, h_account⟩, ⟨_, h_value⟩, _, rfl, ?_⟩
  cases leg.coin with
  | theta => exact Or.inl rfl
  | tfuel => exact Or.inr rfl

theorem exists_shows_of_mem (h_shows : List.Forall₂ Shows ops legs) {op : Operation}
    (h_mem : op ∈ ops) : ∃ leg ∈ legs, op.Shows leg := by
  induction h_shows with
  | nil => cases h_mem
  | cons h_first _ ih =>
    rcases List.mem_cons.mp h_mem with rfl | h_rest
    · exact ⟨_, List.mem_cons_self, h_first⟩
    · obtain ⟨leg, h_leg, h_op⟩ := ih h_rest
      exact ⟨leg, List.mem_cons_of_mem _ h_leg, h_op⟩

theorem map_coin_of_shows (h_shows : List.Forall₂ Shows ops legs) :
    ops.map coin = (legs.map (·.coin)).map Except.ok := by
  induction h_shows with
  | nil => rfl
  | cons h_first _ ih => rw [List.map_cons, List.map_cons, List.map_cons, ih, h_first.reads.2.2.1]

/-- Operations that show a block are one. -/
theorem blockOf_of_shows {s : Side} (h_block : Leg.BlockOf s legs)
    (h_shows : List.Forall₂ Shows ops legs) : BlockOf s ops where
  of_side op h_mem := by
    obtain ⟨leg, h_leg, h_op⟩ := exists_shows_of_mem h_shows h_mem
    obtain ⟨h_type, h_account⟩ := h_block.of_side leg h_leg
    rw [h_op.type?_eq, h_op.reads.2.1, h_type, h_account]
    exact ⟨rfl, rfl⟩
  ordered := by
    rw [map_coin_of_shows h_shows]
    exact h_block.ordered.map Except.ok

/-- Operations that show blocks, one behind the other, are such blocks. -/
theorem exists_blocks_of_shows {sides : List Side} {blocks : List (List Leg)}
    (h_blocks : List.Forall₂ Leg.BlockOf sides blocks)
    (h_shows : List.Forall₂ Shows ops blocks.flatten) :
    ∃ shown, ops = shown.flatten ∧ List.Forall₂ BlockOf sides shown := by
  induction h_blocks generalizing ops with
  | nil =>
    cases h_shows
    exact ⟨[], rfl, .nil⟩
  | cons h_block _ ih =>
    -- Operations stand for legs one by one, so they are cut where the blocks of legs are.
    rw [List.flatten_cons] at h_shows
    obtain ⟨first, rest, rfl, h_first, h_rest⟩ := exists_append_of_shows h_shows
    obtain ⟨shown, rfl, h_shown⟩ := ih h_rest
    exact ⟨first :: shown, rfl, .cons (blockOf_of_shows h_block h_first) h_shown⟩

theorem isFee_of_shows (h_fee : Leg.IsFee legs) (h_shows : List.Forall₂ Shows ops legs) :
    IsFee ops where
  type_eq op h_mem := by
    obtain ⟨leg, h_leg, h_op⟩ := exists_shows_of_mem h_shows h_mem
    rw [h_op.type?_eq, h_fee.type_eq leg h_leg]
  length_le_one := h_shows.length_eq ▸ h_fee.length_le_one

theorem type?_ne_fee_of_shows (h_other : ∀ leg ∈ legs, leg.type ≠ .fee)
    (h_shows : List.Forall₂ Shows ops legs) : ∀ op ∈ ops, op.type? ≠ some .fee := by
  intro op h_mem h_fee
  obtain ⟨leg, h_leg, h_op⟩ := exists_shows_of_mem h_shows h_mem
  rw [h_op.type?_eq] at h_fee
  exact h_other leg h_leg (Option.some.inj h_fee)

end Operation

namespace Tx

/-- **Operations are well formed and in order**, for every transaction and every stake that comes
back. The operation at each place has its number, names the one before it and has the given status;
its account is an address, and its amount an integer in THETA or TFUEL. A fee stands behind
everything else, and there is one at most. In front of it there is a block for each input and then
one for each output, unless it is a contract call that is shown by what has moved; in each block the
operation in THETA stands directly in front of the one in TFUEL, if there are both. -/
theorem arranged_describe (tx : Tx) (context : TxContext) :
    (∀ (i : Nat) (op : Operation), (tx.describe context).operations[i]? = some op →
      op.WellFormed context.status i) ∧
    (∃ front fee, (tx.describe context).operations = front ++ fee ∧
      (∀ op ∈ front, op.type? ≠ some .fee) ∧ Operation.IsFee fee ∧
      (¬ (tx.kind = .smartContract ∧ context.changes.isSome) → ∃ spent received,
        front = spent.flatten ++ received.flatten ∧
        List.Forall₂ Operation.BlockOf tx.inputSides spent ∧
        List.Forall₂ Operation.BlockOf tx.outputSides received)) ∧
    ∀ (r : StakeReturn) (status : Option String),
      (∀ (i : Nat) (op : Operation), (r.describe status).operations[i]? = some op →
        op.WellFormed status i) ∧
      Operation.BlockOf (r.tx.source.side .withdrawStakeSource) (r.describe status).operations := by
  refine ⟨fun i op h_op => Operation.wellFormed_of_ofLegs h_op, ?_, fun r status =>
    ⟨fun i op h_op => Operation.wellFormed_of_ofLegs h_op,
      Operation.blockOf_of_shows (.partyLegs _ _ _ _ _) (Operation.forall₂_ofLegs _ _)⟩⟩
  have h_shows := Operation.forall₂_ofLegs context.status (tx.legs context)
  obtain ⟨front, fee, h_legs, h_front, h_fee, h_blocks⟩ := tx.exists_front_legs context
  rw [h_legs] at h_shows
  obtain ⟨before, after, h_ops, h_before, h_after⟩ := Operation.exists_append_of_shows h_shows
  -- The operations are cut where the legs are: at the fee, at the first output and between blocks.
  refine ⟨before, after, ?_, Operation.type?_ne_fee_of_shows h_front h_before,
    Operation.isFee_of_shows h_fee h_after, fun h_view => ?_⟩
  · rw [describe, h_legs, h_ops]
  obtain ⟨spent, received, rfl, h_spent, h_received⟩ := h_blocks h_view
  obtain ⟨paying, paid, rfl, h_paying, h_paid⟩ := Operation.exists_append_of_shows h_before
  obtain ⟨inputs, rfl, h_inputs⟩ := Operation.exists_blocks_of_shows h_spent h_paying
  obtain ⟨outputs, rfl, h_outputs⟩ := Operation.exists_blocks_of_shows h_received h_paid
  exact ⟨inputs, outputs, rfl, h_inputs, h_outputs⟩

end Tx

end RosettaGateway
