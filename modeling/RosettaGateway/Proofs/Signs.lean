import RosettaGateway.Proofs.Layout

/-!
# Signs of operations

What an account pays is negative and what it receives is positive. So the type of an operation, as
it tells which part the account has, goes with a sign (`OperationType.Admits`).

One leg is a difference, and has its sign only as long as the difference has: the fee of a send is
taken off what the first input spends in TFUEL, and nothing makes this input spend as much. When the
others pay for the fee, the leg of the first input shows what is missing as if it were received.

* `Tx.keepsSign_describe` — every operation has the sign of its type, except the second one of such
  a send, and so has every operation of a stake that comes back;
* `Tx.not_keepsSign_describe` — a send in which the exception occurs.
-/

namespace RosettaGateway

/-- An amount has the sign of a type of operation. Proposers are shown with nothing, and there are
no operations of stake holders. -/
def OperationType.Admits (v : Int) : OperationType → Prop
  | .sendInput | .reserveFundSource | .releaseFundSource | .servicePaymentSource
  | .splitRuleInitiator | .smartContractFrom | .depositStakeSource | .fee => v ≤ 0
  | .coinbaseOutput | .sendOutput | .servicePaymentTarget | .smartContractTo
  | .withdrawStakeSource | .stakeRewardBeneficiary => 0 ≤ v
  | .coinbaseProposer | .slashProposer => v = 0
  | .depositStakeHolder | .withdrawStakeHolder | .stakeRewardHolder => False

/-- The amount of a leg has the sign of its type. -/
def Leg.KeepsSign (leg : Leg) : Prop := leg.type.Admits leg.value

/-- The amount of an operation can be read, and has the sign of its type. -/
def Operation.KeepsSign (op : Operation) : Prop :=
  ∃ t v, op.type? = some t ∧ op.value = .ok v ∧ t.Admits v

/-- The type of an operation that shows a leg is the one of the leg. -/
theorem Operation.Shows.type?_eq {op : Operation} {leg : Leg} (h_shows : op.Shows leg) :
    op.type? = some leg.type := by
  rw [type?, h_shows.type_eq, OperationType.ofName?_name]

/-- An operation has its sign when the leg that it shows does. -/
theorem Leg.KeepsSign.operation {op : Operation} {leg : Leg} (h_sign : leg.KeepsSign)
    (h_shows : op.Shows leg) : op.KeepsSign :=
  ⟨leg.type, leg.value, h_shows.type?_eq, h_shows.reads.2.2.2, h_sign⟩

namespace Tx

/-! ### Legs -/

theorem neg_natCast_nonpos (n : Nat) : -(n : Int) ≤ 0 := by omega

/-- The legs of a party have the sign that its type has for what the party pays or receives. -/
theorem keepsSign_partyLegs (type : OperationType) (outgoing : Bool)
    (h_type : ∀ n : Nat, type.Admits (if outgoing then -(n : Int) else n)) (account : Address)
    (coins : Coins) (metadata : Option Metadata) :
    ∀ leg ∈ partyLegs type account coins outgoing metadata, leg.KeepsSign := by
  intro leg h_mem
  obtain ⟨d, -, rfl⟩ := List.mem_map.mp h_mem
  exact h_type (coins.get d)

theorem keepsSign_feeLeg (payer : Address) (fee : Coins) (metadata : Option Metadata) :
    (feeLeg payer fee metadata).KeepsSign := neg_natCast_nonpos fee.tfuel

theorem keepsSign_inputAndFee (type : OperationType)
    (h_type : ∀ n : Nat, type.Admits (-(n : Int))) (i : Input) (fee : Coins) :
    ∀ leg ∈ inputAndFee type i fee, leg.KeepsSign := by
  intro leg h_mem
  rcases List.mem_append.mp h_mem with h_input | h_fee
  · exact keepsSign_partyLegs type true h_type i.address i.coins (some i.metadata) leg h_input
  · rw [List.mem_singleton.mp h_fee]
    exact keepsSign_feeLeg i.address fee _

/-- The legs of an input of which nothing is shown elsewhere. -/
theorem Send.keepsSign_inputPair (i : Input) : ∀ leg ∈ inputPair i 0, leg.KeepsSign := by
  intro leg h_mem
  rcases List.mem_pair.mp h_mem with rfl | rfl
  · exact neg_natCast_nonpos i.coins.theta
  · show -((i.coins.tfuel : Int) - (0 : Nat)) ≤ 0
    omega

theorem Send.keepsSign_outputPair (o : Output) : ∀ leg ∈ outputPair o, leg.KeepsSign := by
  intro leg h_mem
  rcases List.mem_pair.mp h_mem with rfl | rfl
  · exact Int.natCast_nonneg o.coins.theta
  · exact Int.natCast_nonneg o.coins.tfuel

/-- **The legs of a send** have their signs, but for the second one when the fee is more than what
the first input spends. -/
theorem Send.keepsSign_legs {body : Send} {i : Nat} {leg : Leg} (h_leg : body.legs[i]? = some leg) :
    leg.KeepsSign ∨ i = 1 ∧ ∃ payer, body.inputs.head? = some payer ∧
      payer.coins.tfuel < body.fee.tfuel ∧ leg.type = .sendInput ∧
      leg.value = (body.fee.tfuel : Int) - payer.coins.tfuel := by
  unfold legs at h_leg
  split at h_leg
  · refine Or.inl ?_
    obtain ⟨o, -, h_mem⟩ := List.mem_flatMap.mp (List.mem_of_getElem? h_leg)
    exact keepsSign_outputPair o leg h_mem
  · next payer others h_inputs =>
    match i with
    | 0 =>
      cases h_leg
      exact Or.inl (neg_natCast_nonpos payer.coins.theta)
    | 1 =>
      cases h_leg
      by_cases h_covered : body.fee.tfuel ≤ payer.coins.tfuel
      · refine Or.inl ?_
        show -((payer.coins.tfuel : Int) - body.fee.tfuel) ≤ 0
        omega
      · refine Or.inr ⟨rfl, payer, by rw [h_inputs]; rfl, Nat.lt_of_not_le h_covered, rfl, ?_⟩
        show -((payer.coins.tfuel : Int) - body.fee.tfuel) = _
        omega
    | i + 2 =>
      -- Behind the first two legs nothing is a difference.
      refine Or.inl ?_
      have h_mem : leg ∈ others.flatMap (inputPair · 0) ++ body.outputs.flatMap outputPair ++
          [feeLeg payer.address body.fee none] := List.mem_of_getElem? h_leg
      simp only [List.mem_append, List.mem_flatMap, List.mem_singleton] at h_mem
      rcases h_mem with (⟨other, -, h_pair⟩ | ⟨o, -, h_pair⟩) | rfl
      · exact keepsSign_inputPair other leg h_pair
      · exact keepsSign_outputPair o leg h_pair
      · exact keepsSign_feeLeg payer.address body.fee none

/-- What a call has moved is shown with the direction it moved in, and the gas is paid for. -/
theorem SmartContract.keepsSign_effectLegs (body : SmartContract) (changes : List BalanceChange)
    (gasUsed : UInt64) : ∀ leg ∈ body.effectLegs changes gasUsed, leg.KeepsSign := by
  intro leg h_mem
  rcases List.mem_append.mp h_mem with h_change | h_gas
  · obtain ⟨c, -, h_leg⟩ := List.mem_filterMap.mp h_change
    unfold changeLeg? at h_leg
    split at h_leg
    · cases h_leg
    · split at h_leg
      · cases h_leg
      · cases h_leg
        -- The size of a change has no sign, which is told apart.
        cases h_negative : c.isNegative with
        | true => exact neg_natCast_nonpos c.delta
        | false => exact Int.natCast_nonneg c.delta
  · split at h_gas
    · cases h_gas
    · rw [List.mem_singleton.mp h_gas]
      exact neg_natCast_nonpos _

/-- What a call asks for is paid by its sender and received by its recipient. -/
theorem SmartContract.keepsSign_intentLegs (body : SmartContract) :
    ∀ leg ∈ body.intentLegs, leg.KeepsSign := by
  intro leg h_mem
  simp only [intentLegs, List.mem_append, List.mem_singleton] at h_mem
  rcases h_mem with ((h_theta | rfl) | h_theta) | rfl
  · split at h_theta
    · cases h_theta
    · rw [List.mem_singleton.mp h_theta]
      exact neg_natCast_nonpos body.sender.coins.theta
  · exact neg_natCast_nonpos body.sender.coins.tfuel
  · split at h_theta
    · cases h_theta
    · rw [List.mem_singleton.mp h_theta]
      exact Int.natCast_nonneg body.recipient.coins.theta
  · exact Int.natCast_nonneg body.recipient.coins.tfuel

/-- **The legs of every transaction but a send** have their signs. -/
theorem keepsSign_legs {tx : Tx} (h_kind : tx.kind ≠ .send) (context : TxContext) :
    ∀ leg ∈ tx.legs context, leg.KeepsSign := by
  cases tx with
  | send body => exact absurd rfl h_kind
  | coinbase body =>
    rintro leg (_ | ⟨_, h_mem⟩)
    · exact (rfl : (0 : Int) = 0)
    · obtain ⟨o, -, rfl⟩ := List.mem_map.mp h_mem
      exact Int.natCast_nonneg o.coins.tfuel
  | slash body =>
    rintro leg (_ | ⟨_, ⟨⟩⟩)
    exact (rfl : (0 : Int) = 0)
  | reserveFund body =>
    exact keepsSign_inputAndFee .reserveFundSource neg_natCast_nonpos body.source body.fee
  | releaseFund body =>
    exact keepsSign_inputAndFee .releaseFundSource neg_natCast_nonpos body.source body.fee
  | depositStake body =>
    exact keepsSign_inputAndFee .depositStakeSource neg_natCast_nonpos body.source body.fee
  | depositStakeV2 body =>
    exact keepsSign_inputAndFee .depositStakeSource neg_natCast_nonpos body.source body.fee
  | servicePayment body =>
    rintro leg (_ | ⟨_, _ | ⟨_, _ | ⟨_, ⟨⟩⟩⟩⟩)
    · exact neg_natCast_nonpos body.source.coins.tfuel
    · exact Int.natCast_nonneg body.target.coins.tfuel
    · exact keepsSign_feeLeg body.target.address body.fee none
  | splitRule body =>
    rintro leg (_ | ⟨_, _ | ⟨_, ⟨⟩⟩⟩)
    · exact neg_natCast_nonpos body.initiator.coins.tfuel
    · exact keepsSign_feeLeg body.initiator.address body.fee none
  | smartContract body =>
    rw [legs]
    split
    · exact body.keepsSign_effectLegs _ context.gasUsed
    · exact body.keepsSign_intentLegs
  | withdrawStake body =>
    rintro leg (_ | ⟨_, ⟨⟩⟩)
    exact keepsSign_feeLeg body.source.address body.fee _
  | stakeRewardDistribution body =>
    intro leg h_mem
    rcases List.mem_append.mp h_mem with h_party | h_fee
    · exact keepsSign_partyLegs .stakeRewardBeneficiary false Int.natCast_nonneg
        body.beneficiary.address body.beneficiary.coins none leg h_party
    · rw [List.mem_singleton.mp h_fee]
      exact keepsSign_feeLeg body.holder.address body.fee _

/-! ### Operations -/

/-- **Payments are negative and receipts positive**, in every operation of every transaction and of
every stake that comes back, with one exception: the second operation of a send whose first input
spends less TFUEL than the fee shows the difference as received. -/
theorem keepsSign_describe (tx : Tx) (context : TxContext) :
    (∀ (i : Nat) (op : Operation), (tx.describe context).operations[i]? = some op →
      op.KeepsSign ∨ i = 1 ∧ ∃ (body : Send) (payer : Input), tx = .send body ∧
        body.inputs.head? = some payer ∧ payer.coins.tfuel < body.fee.tfuel ∧
        op.type? = some .sendInput ∧
        op.value = .ok ((body.fee.tfuel : Int) - payer.coins.tfuel)) ∧
    ∀ (r : StakeReturn) (status : Option String), ∀ op ∈ (r.describe status).operations,
      op.KeepsSign := by
  refine ⟨fun i op h_op => ?_, fun r status op h_mem => ?_⟩
  · obtain ⟨leg, h_leg, h_shows⟩ := Operation.exists_shows_of_ofLegs h_op
    by_cases h_kind : tx.kind = .send
    · cases tx with
      | send body =>
        rcases Send.keepsSign_legs h_leg with h_sign | ⟨h_second, payer, h_payer, h_less, h_type,
          h_value⟩
        · exact Or.inl (h_sign.operation h_shows)
        · -- The fee is taken off what the second operation spends, and may be more than that.
          refine Or.inr ⟨h_second, body, payer, rfl, h_payer, h_less, ?_, ?_⟩
          · rw [h_shows.type?_eq, h_type]
          · rw [h_shows.reads.2.2.2, h_value]
      | _ => cases h_kind
    · have h_sign := keepsSign_legs h_kind context leg (List.mem_of_getElem? h_leg)
      exact Or.inl (h_sign.operation h_shows)
  · obtain ⟨i, h_op⟩ := List.mem_iff_getElem?.mp h_mem
    obtain ⟨leg, h_leg, h_shows⟩ := Operation.exists_shows_of_ofLegs h_op
    have h_sign : leg.KeepsSign := keepsSign_partyLegs .withdrawStakeSource false
      Int.natCast_nonneg r.tx.source.address r.tx.source.coins _ leg (List.mem_of_getElem? h_leg)
    exact h_sign.operation h_shows

/-- The account of one byte over and over. -/
def repeatedAddress (byte : UInt8) : Address := ⟨List.replicate 20 byte, List.length_replicate⟩

/-- A send of two inputs, of which the second one pays for most of the fee. -/
def sharedFee : Tx :=
  .send ⟨.ofTfuel 50,
    [⟨repeatedAddress 1, ⟨0, 20⟩, 3, []⟩, ⟨repeatedAddress 3, ⟨7, 100⟩, 9, []⟩],
    [⟨repeatedAddress 2, ⟨7, 70⟩⟩]⟩

/-- Not every operation has the sign of its type: the first input of this send is shown to receive
thirty. -/
theorem not_keepsSign_describe :
    ¬ ∀ (tx : Tx) (context : TxContext),
      ∀ op ∈ (tx.describe context).operations, op.KeepsSign := by
  intro h_all
  obtain ⟨op, h_op⟩ : ∃ op, (sharedFee.describe {}).operations[1]? = some op := ⟨_, rfl⟩
  obtain ⟨leg, h_leg, h_shows⟩ := Operation.exists_shows_of_ofLegs h_op
  obtain ⟨t, v, h_type, h_value, h_admits⟩ := h_all sharedFee {} op (List.mem_of_getElem? h_op)
  cases h_leg
  rw [h_shows.type?_eq] at h_type
  rw [h_shows.reads.2.2.2] at h_value
  cases h_type
  cases h_value
  exact absurd h_admits (by decide : ¬ (30 : Int) ≤ 0)

end Tx

end RosettaGateway
