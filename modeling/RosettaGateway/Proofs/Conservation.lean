import RosettaGateway.Proofs.Construction.Payloads
import RosettaGateway.Proofs.Reading
import RosettaGateway.Proofs.RoundTrip
import RosettaGateway.Proofs.Signs

/-!
# Nothing is lost between operations and transactions

The transaction that is built from a list of operations moves what the operations move. This is said
of any list that is accepted, whether it is the description of a transaction or not: a list may have
legs of zero that no description has, may lack legs of zero that every description has, and may show
the coins of a party in the other order.

`Operation.movements` are the legs of a list of operations that move something. There is one
statement for the layout of each kind (`Tx.Send.yields_of_ofOperations` and its siblings), which
compares what the cursor has read with the legs of the body that is built, and
`Tx.movements_ofOperations` puts them together.

The fee of a send is the one amount that is not taken over as it is. It is added to what the first
input spends when the transaction is built, and taken off again when its legs are listed; in between
the amount has to be one that an input can spend.

Proposers are left out here: they have a leg of which the amount is not read (`Proofs/Proposers`).
-/

namespace RosettaGateway

/-! ### Operations that move something -/

/-- What an operation moves, if its texts can be read. -/
def Operation.leg? (op : Operation) : Option Leg :=
  match op.type?, op.posting with
  | some type, .ok p => some (p.leg type)
  | _, _ => none

/-- The legs of operations that move something, in their order. -/
def Operation.movements (ops : List Operation) : List Leg := Leg.nonzero (ops.filterMap leg?)

namespace Operation

variable {op : Operation} {leg : Leg} {ops : List Operation} {legs : List Leg}

theorem leg?_of_moves (h_moves : op.Moves leg) : op.leg? = some leg.bare := by
  have h_shows : op.Shows { leg with metadata := op.metadata } := h_moves
  have h_type : op.type? = some leg.type := h_shows.type?_eq
  have h_posting : op.posting = .ok ⟨op, leg.account, leg.coin, leg.value⟩ := h_moves.posting_eq
  rw [leg?, h_type, h_posting]
  rfl

theorem movements_of_moves (h_ops : List.Forall₂ Moves ops legs) :
    movements ops = (Leg.nonzero legs).map Leg.bare := by
  have h_legs : ops.filterMap leg? = legs.map Leg.bare := by
    induction h_ops with
    | nil => rfl
    | cons h_op _ ih => rw [List.filterMap_cons_some (leg?_of_moves h_op), ih, List.map_cons]
  rw [movements, h_legs, Leg.nonzero_map_bare]

theorem exists_leg?_of_moves (h_ops : List.Forall₂ Moves ops legs) :
    ∀ op ∈ ops, ∃ leg, op.leg? = some leg := by
  intro op h_mem
  induction h_ops with
  | nil => cases h_mem
  | cons h_op _ ih =>
    rcases List.mem_cons.mp h_mem with rfl | h_rest
    · exact ⟨_, leg?_of_moves h_op⟩
    · exact ih h_rest

end Operation

namespace Tx

variable {m : Metadata} {ops : List Operation} {before after : Cursor}

/-! ### Parties -/

/-- **A party that pays its fee** is built with the legs that were read. -/
theorem yields_of_payingParty {type : OperationType} {fee : Coins} {source : Input}
    (h_party : payingParty before type m = .ok (fee, source, after)) :
    Cursor.Yields before ((inputAndFee type source fee).map Leg.bare) after := by
  simp only [payingParty, Outcome.bind_eq_ok_iff, Outcome.pure_eq_ok_iff, Prod.mk.injEq] at h_party
  obtain ⟨⟨party, between⟩, h_legs, ⟨fee', after'⟩, h_fee, source', h_input, rfl, rfl, rfl⟩ :=
    h_party
  obtain ⟨h_reads, h_payer⟩ := Cursor.reads_of_fee h_fee
  obtain ⟨h_address, h_coins⟩ := input_eq_ok h_input
  have h_yields := (Cursor.yields_of_party h_legs h_payer).append h_reads.yields
  rw [inputAndFee, List.map_append, inputLegs, map_bare_partyLegs, h_address, h_coins]
  exact h_yields

/-! ### Sends -/

namespace Send

open Cursor (Reads Yields)

/-- What is read of the legs of an input. -/
theorem inputOf_eq_ok {position : Nat} {theta tfuel : Posting} {net : Int} {i : Input}
    (h_input : inputOf m position theta tfuel = .ok (net, i)) :
    i.address = theta.account ∧ theta.value = -(i.coins.theta : Int) ∧ tfuel.value = -net ∧
      (position ≠ 0 → (i.coins.tfuel : Int) = net) := by
  obtain ⟨paid, h_paid, h_input⟩ := Outcome.bind_eq_ok_iff.mp h_input
  -- Only the first input may have a TFUEL leg that receives.
  obtain ⟨net', h_value, h_sign, h_made⟩ : ∃ net' : Int, tfuel.value = -net' ∧
      (position ≠ 0 → 0 ≤ net') ∧
      (theta.source.input m theta.account ⟨paid, net'.toNat⟩ >>= fun i => pure (net', i)) =
        .ok (net, i) := by
    split at h_input
    · next h_first =>
      obtain ⟨net', h_net, h_made⟩ := Outcome.bind_eq_ok_iff.mp h_input
      cases h_net
      exact ⟨-tfuel.value, (Int.neg_neg _).symm, fun h_other => absurd h_first h_other, h_made⟩
    · obtain ⟨net', h_net, h_made⟩ := Outcome.bind_eq_ok_iff.mp h_input
      obtain ⟨n, h_debit, rfl⟩ := Outcome.map_eq_ok_iff.mp h_net
      exact ⟨n, Posting.value_of_debit h_debit, fun _ => Int.natCast_nonneg n, h_made⟩
  obtain ⟨i', h_source, h_done⟩ := Outcome.bind_eq_ok_iff.mp h_made
  obtain ⟨rfl, rfl⟩ := Prod.mk.inj (Outcome.pure_eq_ok_iff.mp h_done)
  obtain ⟨h_address, h_coins⟩ := input_eq_ok h_source
  rw [h_coins]
  exact ⟨h_address, Posting.value_of_debit h_paid, h_value, fun h_other =>
    Int.toNat_of_nonneg (h_sign h_other)⟩

/-- What is read of the legs of an output. -/
theorem outputOf_eq_ok {position : Nat} {theta tfuel : Posting} {o : Output}
    (h_output : outputOf position theta tfuel = .ok o) :
    o.address = theta.account ∧ theta.value = o.coins.theta ∧ tfuel.value = o.coins.tfuel := by
  simp only [outputOf, Outcome.bind_eq_ok_iff, Outcome.pure_eq_ok_iff] at h_output
  obtain ⟨received, h_theta, receivedTfuel, h_tfuel, rfl⟩ := h_output
  exact ⟨rfl, Posting.value_of_credit h_theta, Posting.value_of_credit h_tfuel⟩

/-- The inputs have the legs that were read, but the first one is still without the fee. -/
theorem reads_of_inputs {net : Int} {payer : Input} {others : List (Int × Input)}
    (h_inputs : (Cursor.start .send ops).pairs .sendInput (inputOf m) =
      .ok ((net, payer) :: others, after)) :
    Reads (.start .send ops)
      ([thetaLeg .sendInput payer.address (-(payer.coins.theta : Int)),
          tfuelLeg .sendInput payer.address (-net)] ++
        (others.map Prod.snd).flatMap fun i => (inputPair i 0).map Leg.bare) after := by
  obtain ⟨items, h_run, h_done⟩ := Outcome.bind_eq_ok_iff.mp h_inputs
  obtain ⟨rfl, rfl⟩ := Prod.mk.inj (Outcome.pure_eq_ok_iff.mp h_done)
  have h_type : ∀ op ∈ (Cursor.start .send ops).run .sendInput,
      op.type = OperationType.sendInput.name := fun op => Cursor.type_of_mem_run
  obtain ⟨op, op', rest, theta, tfuel, h_ops, h_theta, h_tfuel, h_coin, h_coin', h_account, h_read,
    h_rest⟩ := Cursor.pairsOf_eq_ok_cons h_run
  rw [h_ops] at h_type
  obtain ⟨h_address, h_spent, h_net, -⟩ := inputOf_eq_ok h_read
  have h_first : theta.leg .sendInput =
      thetaLeg .sendInput payer.address (-(payer.coins.theta : Int)) :=
    Posting.leg_eq_thetaLeg h_address.symm h_coin h_spent
  have h_second : tfuel.leg .sendInput = tfuelLeg .sendInput payer.address (-net) :=
    Posting.leg_eq_tfuelLeg (h_account.trans h_address.symm) h_coin' h_net
  -- Behind the first pair no position is zero, so what is read there is all that is spent.
  have h_others : List.Forall₂ Operation.Moves rest
      (others.flatMap fun item => (inputPair item.2 0).map Leg.bare) := by
    refine Cursor.forall₂_of_pairsOf (fun op h_mem => h_type op (by simp [h_mem])) ?_ h_rest
    intro p theta tfuel item h_le h_coin h_coin' h_account h_read
    obtain ⟨h_address, h_spent, h_net, h_all⟩ := inputOf_eq_ok h_read
    have h_value : tfuel.value = -((item.2.coins.tfuel : Int) - (0 : Nat)) := by
      rw [h_net, ← h_all (by omega)]
      rfl
    rw [Posting.leg_eq_thetaLeg h_address.symm h_coin h_spent,
      Posting.leg_eq_tfuelLeg (h_account.trans h_address.symm) h_coin' h_value]
    rfl
  refine Cursor.reads_skipRun ?_
  rw [h_ops, ← h_first, ← h_second, List.flatMap_map]
  exact .cons (Operation.moves_of_posting (h_type op (by simp)) h_theta)
    (.cons (Operation.moves_of_posting (h_type op' (by simp)) h_tfuel) h_others)

theorem reads_of_outputs {outputs : List Output}
    (h_outputs : before.pairs .sendOutput outputOf = .ok (outputs, after)) :
    Reads before (outputs.flatMap outputPair) after := by
  refine Cursor.reads_of_pairs ?_ h_outputs
  intro p theta tfuel o _ h_coin h_coin' h_account h_read
  obtain ⟨h_address, h_theta, h_tfuel⟩ := outputOf_eq_ok h_read
  rw [Posting.leg_eq_thetaLeg h_address.symm h_coin h_theta,
    Posting.leg_eq_tfuelLeg (h_account.trans h_address.symm) h_coin' h_tfuel]
  rfl

/-- The fee is added to what the first input spends, and what its leg shows stays as it was. -/
theorem withFee_eq_ok {net : Int} {payer i : Input} {fee : Nat}
    (h_fee : withFee net payer fee = .ok i) :
    i.address = payer.address ∧ i.coins.theta = payer.coins.theta ∧
      (i.coins.tfuel : Int) - fee = net := by
  unfold withFee at h_fee
  split at h_fee
  · cases h_fee
    refine ⟨rfl, rfl, ?_⟩
    show ((net + fee).toNat : Int) - fee = net
    omega
  · cases h_fee

/-- **A send** is built with the legs that were read. -/
theorem yields_of_ofOperations {body : Send}
    (h_build : Send.ofOperations (.start .send ops) m = .ok (body, after)) :
    Yields (.start .send ops) (((Tx.send body).legs {}).map Leg.bare) after := by
  obtain ⟨⟨inputs, behind⟩, h_inputs, h_build⟩ := Outcome.bind_eq_ok_iff.mp h_build
  obtain ⟨⟨outputs, last⟩, h_outputs, h_build⟩ := Outcome.bind_eq_ok_iff.mp h_build
  match inputs with
  | [] => cases h_build
  | (net, payer) :: others =>
    obtain ⟨⟨fee, after'⟩, h_fee, h_build⟩ := Outcome.bind_eq_ok_iff.mp h_build
    obtain ⟨i, h_payer, h_done⟩ := Outcome.bind_eq_ok_iff.mp h_build
    obtain ⟨rfl, rfl⟩ := Prod.mk.inj (Outcome.pure_eq_ok_iff.mp h_done)
    obtain ⟨h_reads, h_pays⟩ := Cursor.reads_of_fee h_fee
    obtain ⟨h_address, h_theta, h_net⟩ := withFee_eq_ok h_payer
    -- The first input shows what it spends without the fee, which is what was read of it.
    have h_all := ((reads_of_inputs h_inputs).append (reads_of_outputs h_outputs)).append h_reads
    rw [h_pays payer.address rfl, ← h_address, ← h_theta, ← h_net] at h_all
    refine Reads.yields ?_
    simp only [Tx.legs, Send.legs, List.map_append, List.map_flatMap]
    exact h_all

end Send

/-! ### Other kinds -/

open Cursor (Reads Yields)

/-- The coins that a contract call shows without having any of them are left out where a party is
shown. -/
theorem SmartContract.nonzero_shownCoins (type : OperationType) (account : Address) (coins : Coins)
    (outgoing : Bool) (metadata : Option Metadata) :
    Leg.nonzero (((shownCoins coins).map (shareLeg type account coins outgoing metadata)).map
      Leg.bare) = Leg.nonzero (partyLegs type account coins outgoing none) := by
  have h_bare : ((shownCoins coins).map (shareLeg type account coins outgoing metadata)).map
      Leg.bare = (shownCoins coins).map (shareLeg type account coins outgoing none) := by
    rw [List.map_map]
    rfl
  -- The coin that is shown in any case is THETA, and it is left out again when there is none of it.
  have h_coins : (shownCoins coins).filter (fun d => coins.get d ≠ 0) =
      Denom.all.filter fun d => coins.get d ≠ 0 := by
    unfold shownCoins
    split
    · next h_zero =>
      have h_none : coins.get .theta = 0 := h_zero
      simp only [Denom.all, List.filter_cons, h_none, ne_eq, not_true_eq_false, decide_false,
        Bool.false_eq_true, if_false]
    · rfl
  rw [h_bare, Leg.nonzero_shares, h_coins, Leg.nonzero_partyLegs]
  rfl

/-- **A contract call** is built with the legs that were read. -/
theorem SmartContract.yields_of_ofOperations {body : SmartContract}
    (h_build : SmartContract.ofOperations before m = .ok (body, after)) :
    Yields before (((Tx.smartContract body).legs {}).map Leg.bare) after := by
  obtain ⟨⟨sender, between⟩, h_sender, h_build⟩ := Outcome.bind_eq_ok_iff.mp h_build
  obtain ⟨⟨recipient, last⟩, h_recipient, h_build⟩ := Outcome.bind_eq_ok_iff.mp h_build
  match sender, recipient with
  | none, _ => cases h_build
  | some _, none => cases h_build
  | some sender, some recipient =>
    simp only [Outcome.bind_eq_ok_iff, Outcome.pure_eq_ok_iff, Prod.mk.injEq] at h_build
    obtain ⟨source, h_input, gasLimit, -, gasPrice, -, data, -, rfl, rfl⟩ := h_build
    obtain ⟨h_address, h_coins⟩ := input_eq_ok h_input
    have h_payer : ∀ a ∈ (some sender).map Party.account, source.address = a :=
      fun a h_mem => h_address.trans (Option.some.inj h_mem)
    obtain ⟨moved, h_reads, h_moved⟩ := (Cursor.yields_of_party h_sender h_payer).append
      (Cursor.yields_of_party h_recipient fun a h_mem => Option.some.inj h_mem)
    refine ⟨moved, h_reads, ?_⟩
    -- Each party has the coins that were read for it, but for a leg of zero.
    show Leg.Reordered _ (Leg.nonzero ((SmartContract.intentLegs _).map Leg.bare))
    rw [intentLegs_eq, List.map_append, Leg.nonzero_append, nonzero_shownCoins, nonzero_shownCoins,
      ← Leg.nonzero_append, h_coins]
    exact h_moved

/-- **A service payment** is built with the legs that were read. -/
theorem ServicePayment.yields_of_ofOperations {body : ServicePayment}
    (h_build : ServicePayment.ofOperations before m = .ok (body, after)) :
    Yields before (((Tx.servicePayment body).legs {}).map Leg.bare) after := by
  simp only [ServicePayment.ofOperations, Outcome.bind_eq_ok_iff, Outcome.pure_eq_ok_iff,
    Prod.mk.injEq] at h_build
  obtain ⟨⟨sourceLeg, behind⟩, h_source, _, h_coin, ⟨targetLeg, behind'⟩, h_target, _, h_coin',
    ⟨fee, last⟩, h_fee, paid, h_paid, source, h_input, received, h_received, target, h_input',
    _, -, _, -, _, -, rfl, rfl⟩ := h_build
  obtain ⟨h_fee, h_payer⟩ := Cursor.reads_of_fee h_fee
  obtain ⟨h_address, h_coins⟩ := input_eq_ok h_input
  obtain ⟨h_address', h_coins'⟩ := input_eq_ok h_input'
  -- There is a leg for the source, one for the target and one for the fee, which the target pays.
  have h_reads :=
    ((Cursor.reads_of_one h_source).append (Cursor.reads_of_one h_target)).append h_fee
  rw [Posting.leg_eq_tfuelLeg h_address.symm (Posting.coin_of_requireCoin h_coin)
      (Posting.value_of_debit h_paid),
    Posting.leg_eq_tfuelLeg h_address'.symm (Posting.coin_of_requireCoin h_coin')
      (Posting.value_of_credit h_received), h_payer targetLeg.account rfl, ← h_address'] at h_reads
  refine Reads.yields ?_
  simp only [Tx.legs, h_coins, h_coins']
  exact h_reads

/-- **A split rule** is built with the legs that were read. -/
theorem SplitRule.yields_of_ofOperations {body : SplitRule}
    (h_build : SplitRule.ofOperations before m = .ok (body, after)) :
    Yields before (((Tx.splitRule body).legs {}).map Leg.bare) after := by
  simp only [SplitRule.ofOperations, Outcome.bind_eq_ok_iff, Outcome.pure_eq_ok_iff,
    Prod.mk.injEq] at h_build
  obtain ⟨⟨leg, behind⟩, h_initiator, _, h_coin, ⟨fee, last⟩, h_fee, _, -, paid, h_paid, initiator,
    h_input, _, -, _, -, rfl, rfl⟩ := h_build
  obtain ⟨h_fee, h_payer⟩ := Cursor.reads_of_fee h_fee
  obtain ⟨h_address, h_coins⟩ := input_eq_ok h_input
  have h_reads := (Cursor.reads_of_one h_initiator).append h_fee
  rw [Posting.leg_eq_tfuelLeg h_address.symm (Posting.coin_of_requireCoin h_coin)
    (Posting.value_of_debit h_paid), h_payer leg.account rfl, ← h_address] at h_reads
  refine Reads.yields ?_
  simp only [Tx.legs, h_coins]
  exact h_reads

/-- **A withdrawal of a stake** is built with the fee that was read, whoever pays it. -/
theorem WithdrawStake.yields_of_ofOperations {body : WithdrawStake}
    (h_build : WithdrawStake.ofOperations before m = .ok (body, after)) :
    Yields before (((Tx.withdrawStake body).legs {}).map Leg.bare) after := by
  simp only [WithdrawStake.ofOperations, Outcome.bind_eq_ok_iff, Outcome.pure_eq_ok_iff,
    Prod.mk.injEq] at h_build
  obtain ⟨⟨fee, last⟩, h_fee, source, h_input, _, -, _, -, rfl, rfl⟩ := h_build
  obtain ⟨h_reads, -⟩ := Cursor.reads_of_fee h_fee
  obtain ⟨h_address, -⟩ := input_eq_ok h_input
  rw [← h_address] at h_reads
  exact h_reads.yields

/-- **A distribution of rewards** is built with the legs that were read. A beneficiary without a leg
is named by the metadata. -/
theorem StakeRewardDistribution.yields_of_ofOperations {body : StakeRewardDistribution}
    (h_build : StakeRewardDistribution.ofOperations before m = .ok (body, after)) :
    Yields before (((Tx.stakeRewardDistribution body).legs {}).map Leg.bare) after := by
  obtain ⟨⟨party, between⟩, h_party, h_build⟩ := Outcome.bind_eq_ok_iff.mp h_build
  obtain ⟨⟨fee, last⟩, h_fee, h_build⟩ := Outcome.bind_eq_ok_iff.mp h_build
  -- The account comes from the legs or, where there is none, from the metadata.
  obtain ⟨account, h_account, h_build⟩ : ∃ account, (∀ a ∈ party.map Party.account, account = a) ∧
      (fee.source.input m fee.payer {} >>= fun holder =>
        m.counterOr "split_basis_point" 0 >>= fun splitBasisPoint =>
          pure ((⟨.ofTfuel fee.amount, holder, ⟨account, (party.map Party.coins).getD {}⟩,
            splitBasisPoint⟩ : StakeRewardDistribution), last)) = .ok (body, after) := by
    cases party with
    | none =>
      obtain ⟨account, -, h_build⟩ := Outcome.bind_eq_ok_iff.mp h_build
      exact ⟨account, nofun, h_build⟩
    | some party => exact ⟨party.account, by simp, h_build⟩
  obtain ⟨holder, h_input, h_build⟩ := Outcome.bind_eq_ok_iff.mp h_build
  obtain ⟨_, -, h_done⟩ := Outcome.bind_eq_ok_iff.mp h_build
  obtain ⟨rfl, rfl⟩ := Prod.mk.inj (Outcome.pure_eq_ok_iff.mp h_done)
  obtain ⟨h_reads, -⟩ := Cursor.reads_of_fee h_fee
  obtain ⟨h_address, -⟩ := input_eq_ok h_input
  rw [← h_address] at h_reads
  have h_yields := (Cursor.yields_of_party h_party h_account).append h_reads.yields
  show Yields before ((partyLegs .stakeRewardBeneficiary _ _ false none ++ [feeLeg _ _ _]).map
    Leg.bare) after
  rw [List.map_append, map_bare_partyLegs]
  exact h_yields

/-! ### Transactions -/

/-- **A transaction** is built with the legs that were read. -/
theorem yields_of_readLayout {k : Kind} {tx : Tx} (h_kind : k ≠ .coinbase ∧ k ≠ .slash)
    (h_read : readLayout m (.start k ops) = .ok (tx, after)) :
    Yields (.start k ops) ((tx.legs {}).map Leg.bare) after := by
  -- A kind with a paying party and settings is settled by the party, any other one by its own
  -- lemma.
  cases k with
  | coinbase => exact absurd rfl h_kind.1
  | slash => exact absurd rfl h_kind.2
  | send =>
    obtain ⟨body, h_body, rfl⟩ := body_of_readLayout .send h_read
    exact Send.yields_of_ofOperations h_body
  | reserveFund =>
    obtain ⟨body, h_body, rfl⟩ := body_of_readLayout .reserveFund h_read
    simp only [ReserveFund.ofOperations, Outcome.bind_eq_ok_iff, Outcome.pure_eq_ok_iff,
      Prod.mk.injEq] at h_body
    obtain ⟨⟨fee, source, last⟩, h_party, _, -, _, -, _, -, rfl, rfl⟩ := h_body
    exact yields_of_payingParty h_party
  | releaseFund =>
    obtain ⟨body, h_body, rfl⟩ := body_of_readLayout .releaseFund h_read
    simp only [ReleaseFund.ofOperations, Outcome.bind_eq_ok_iff, Outcome.pure_eq_ok_iff,
      Prod.mk.injEq] at h_body
    obtain ⟨⟨fee, source, last⟩, h_party, _, -, rfl, rfl⟩ := h_body
    exact yields_of_payingParty h_party
  | servicePayment =>
    obtain ⟨body, h_body, rfl⟩ := body_of_readLayout .servicePayment h_read
    exact ServicePayment.yields_of_ofOperations h_body
  | splitRule =>
    obtain ⟨body, h_body, rfl⟩ := body_of_readLayout .splitRule h_read
    exact SplitRule.yields_of_ofOperations h_body
  | smartContract =>
    obtain ⟨body, h_body, rfl⟩ := body_of_readLayout .smartContract h_read
    exact SmartContract.yields_of_ofOperations h_body
  | depositStake =>
    obtain ⟨body, h_body, rfl⟩ := body_of_readLayout .depositStake h_read
    simp only [DepositStake.ofOperations, Outcome.bind_eq_ok_iff, Outcome.pure_eq_ok_iff,
      Prod.mk.injEq] at h_body
    obtain ⟨⟨fee, source, last⟩, h_party, _, -, _, -, rfl, rfl⟩ := h_body
    exact yields_of_payingParty h_party
  | withdrawStake =>
    obtain ⟨body, h_body, rfl⟩ := body_of_readLayout .withdrawStake h_read
    exact WithdrawStake.yields_of_ofOperations h_body
  | depositStakeV2 =>
    obtain ⟨body, h_body, rfl⟩ := body_of_readLayout .depositStakeV2 h_read
    simp only [DepositStakeV2.ofOperations, Outcome.bind_eq_ok_iff, Outcome.pure_eq_ok_iff,
      Prod.mk.injEq] at h_body
    obtain ⟨⟨fee, source, last⟩, h_party, _, -, _, -, _, -, _, -, _, -, rfl, rfl⟩ := h_body
    exact yields_of_payingParty h_party
  | stakeRewardDistribution =>
    obtain ⟨body, h_body, rfl⟩ := body_of_readLayout .stakeRewardDistribution h_read
    exact StakeRewardDistribution.yields_of_ofOperations h_body

/-- **Nothing is lost and nothing is added** when a transaction is built, except for proposers.
Every operation is read, and read once: the cursor has moved on by one place for each of them, and
none is left. What the operations move is what the description of the transaction moves. At most the
two legs of a party are in the other order. -/
theorem movements_ofOperations {k : Kind} {tx : Tx} (h_kind : k ≠ .coinbase ∧ k ≠ .slash)
    (h_build : ofOperations k ops m = .ok tx) :
    (∀ op ∈ ops, ∃ leg, op.leg? = some leg) ∧
      readLayout m (.start k ops) = .ok (tx, ⟨k, ops.length, []⟩) ∧
      (∀ op ∈ (tx.describe {}).operations, ∃ leg, op.leg? = some leg) ∧
      Leg.Reordered (Operation.movements ops) (Operation.movements (tx.describe {}).operations) ∧
      (Operation.movements ops).Perm (Operation.movements (tx.describe {}).operations) := by
  obtain ⟨last, h_read, h_rest⟩ := readLayout_of_ofOperations h_build
  obtain ⟨moved, h_reads, h_moved⟩ := yields_of_readLayout h_kind h_read
  have h_ops : List.Forall₂ Operation.Moves ops moved := h_reads.forall₂ h_rest
  have h_shown := Operation.moves_ofLegs none (tx.legs {})
  -- Each leg that was read is one operation, so the cursor ends as many places on.
  have h_last : last = ⟨k, ops.length, []⟩ := by
    obtain ⟨h_same, h_position⟩ := h_reads.place_eq
    rw [← h_ops.length_eq] at h_position
    obtain ⟨k', position, rest⟩ := last
    exact congr (congrArg₂ Cursor.mk h_same (h_position.trans (Nat.zero_add _))) h_rest
  have h_reordered : Leg.Reordered (Operation.movements ops)
      (Operation.movements (tx.describe {}).operations) := by
    show Leg.Reordered _ (Operation.movements (Operation.ofLegs none (tx.legs {})))
    rw [Operation.movements_of_moves h_ops, Operation.movements_of_moves h_shown]
    exact h_moved.map_bare
  exact ⟨Operation.exists_leg?_of_moves h_ops, h_last ▸ h_read,
    Operation.exists_leg?_of_moves h_shown, h_reordered, h_reordered.perm⟩

namespace SampleSwap

open Construction.SampleSend (operation)

/-- Operations that show the coins of a sender in the other order, and a coin of which nothing is
received. -/
def asked : List Operation :=
  [operation "SmartContractTxFrom" "0x0000000000000000000000000000000000000000" "-5" "TFUEL",
    operation "SmartContractTxFrom" "0x0000000000000000000000000000000000000000" "-3" "THETA",
    operation "SmartContractTxTo" "0x0000000000000000000000000000000000000000" "5" "TFUEL",
    operation "SmartContractTxTo" "0x0000000000000000000000000000000000000000" "0" "THETA"]

/-- The call that is meant. -/
def call : Tx :=
  .smartContract ⟨⟨.zero, ⟨3, 5⟩, 0, []⟩, ⟨.zero, ⟨0, 5⟩⟩, Chain.defaultGasLimit, 0, []⟩

theorem ofOperations_asked : ofOperations .smartContract asked (.ofList []) = .ok call :=
  Outcome.eq_ok_of_toOption (by decide)

/-- The call moves what is asked for, in another order. -/
theorem movements_ofOperations_swapped :
    (Kind.smartContract ≠ .coinbase ∧ Kind.smartContract ≠ .slash) ∧
      ofOperations .smartContract asked (.ofList []) = .ok call ∧
      (Operation.movements asked).map Leg.coin = [.tfuel, .theta, .tfuel] ∧
      Leg.Reordered (Operation.movements asked)
        (Operation.movements (call.describe {}).operations) := by
  obtain ⟨-, -, -, h_reordered, -⟩ := movements_ofOperations (by decide) ofOperations_asked
  exact ⟨by decide, ofOperations_asked, by decide, h_reordered⟩

end SampleSwap

end Tx

end RosettaGateway
