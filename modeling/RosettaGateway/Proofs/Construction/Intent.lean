import RosettaGateway.Proofs.Construction.Basic
import RosettaGateway.Proofs.Layout

/-!
# Intents are carried out

An operation moves what a leg says (`Operation.Moves`) when it shows the leg but for the metadata.
Where an operation only has to be understood and need not be read back, this is what counts. Two
operations mean the same (`Operation.Agrees`) when their texts do, however they are spelt.

Both intents ask for legs that their parameters determine: an account pays an amount of each coin
and, with a send, a fee. `Intent.Asks` lists them.

* `Intent.exists_asks` — operations with an intent whose accounts have been checked move what the
  intent asks for;
* `Tx.ofOperations_send_eq`, `Tx.ofOperations_call_eq` — what is built from such operations, or for
  what they are refused;
* `Tx.legs_of_asks` — the transaction that is built from them has these legs, and is signed by the
  account of the first one.

In between stands the fee of a send. It is added to what the first input spends when the transaction
is built, and taken off again when its legs are listed.
-/

namespace RosettaGateway

/-! ### Operations with the same meaning -/

/-- The texts of two operations mean the same. -/
structure Operation.Agrees (op op' : Operation) : Prop where
  type_eq : op'.type = op.type
  account : ∃ a, op.address = .ok a ∧ op'.address = .ok a
  coin : ∃ d, op.coin = .ok d ∧ op'.coin = .ok d
  value : ∃ i, op.value = .ok i ∧ op'.value = .ok i

/-- A leg without its metadata. -/
def Leg.bare (leg : Leg) : Leg := { leg with metadata := none }

namespace Operation

variable {op op' : Operation} {leg : Leg}

/-- An operation shows a leg but for the metadata. -/
def Moves (op : Operation) (leg : Leg) : Prop := op.Shows { leg with metadata := op.metadata }

/-- What an operation moves is what its texts say. -/
theorem Moves.reads (h_moves : op.Moves leg) :
    op.type = leg.type.name ∧ op.address = .ok leg.account ∧ op.coin = .ok leg.coin ∧
      op.value = .ok leg.value := by
  have h_shows : op.Shows { leg with metadata := op.metadata } := h_moves
  exact h_shows.reads

/-- A run of another type ends at an operation that moves something. -/
theorem Moves.ends (h_moves : op.Moves leg) (type : OperationType) (h_type : leg.type ≠ type)
    (rest : List Operation) : ∀ other ∈ (op :: rest).head?, other.type ≠ type.name := by
  intro other h_head h_name
  cases h_head
  exact h_type (OperationType.name_injective (h_moves.type_eq.symm.trans h_name))

/-- Operations that move the same mean the same. -/
theorem Moves.agrees (h_moves : op.Moves leg) (h_moves' : op'.Moves leg) : op.Agrees op' := by
  obtain ⟨h_type, h_account, h_coin, h_value⟩ := h_moves.reads
  obtain ⟨h_type', h_account', h_coin', h_value'⟩ := h_moves'.reads
  exact ⟨h_type'.trans h_type.symm, ⟨_, h_account, h_account'⟩, ⟨_, h_coin, h_coin'⟩,
    ⟨_, h_value, h_value'⟩⟩

theorem agrees_of_moves {ops ops' : List Operation} {legs : List Leg}
    (h_ops : List.Forall₂ Moves ops legs) (h_ops' : List.Forall₂ Moves ops' legs) :
    List.Forall₂ Agrees ops ops' := by
  induction h_ops generalizing ops' with
  | nil =>
    cases h_ops'
    exact .nil
  | cons h_op _ ih =>
    cases h_ops' with
    | cons h_op' h_rest => exact .cons (h_op.agrees h_op') (ih h_rest)

/-- An operation that shows a leg moves what is left of the leg without its metadata. -/
theorem Shows.moves (h_shows : op.Shows leg) : op.Moves leg.bare := by
  have h_same : { leg.bare with metadata := op.metadata } = leg := by
    rw [h_shows.metadata_eq]
    rfl
  rw [Moves, h_same]
  exact h_shows

/-- The operations of some legs move what the legs say. -/
theorem moves_ofLegs (status : Option String) (legs : List Leg) :
    List.Forall₂ Moves (ofLegs status legs) (legs.map Leg.bare) :=
  List.forall₂_map_right_iff.mpr
    ((forall₂_ofLegs status legs).imp fun _ _ h_shows => h_shows.moves)

end Operation

theorem Tx.map_bare_partyLegs (type : OperationType) (account : Address) (coins : Coins)
    (outgoing : Bool) (metadata : Option Metadata) :
    (partyLegs type account coins outgoing metadata).map Leg.bare =
      partyLegs type account coins outgoing none := by
  rw [partyLegs, partyLegs, List.map_map]
  rfl

/-! ### Slots -/

namespace Slot

variable {k : Tx.Kind} {position : Nat} {slot : Slot} {op : Operation} {p : Posting}

theorem lift_eq_ok_iff {α : Type} {operand : Except OperandError α} {a : α} :
    lift position operand = .ok a ↔ operand = .ok a := by
  cases operand with
  | error e => simp [lift]
  | ok a' => simp [lift]

/-- An operation fills a slot when it is of the type, the coin and the sign of the slot. -/
theorem fill_eq_ok_iff :
    fill k position slot op = .ok p ↔
      op.type = slot.type.name ∧ op.posting = .ok p ∧ p.coin = slot.coin ∧
        slot.admits p.value = true := by
  rw [Operation.posting_eq_ok_iff, fill]
  by_cases h_type : op.type = slot.type.name
  · simp only [h_type, ne_eq, not_true_eq_false, if_false, Outcome.bind_eq_ok_iff, lift_eq_ok_iff,
      true_and]
    constructor
    · rintro ⟨account, h_account, coin, h_coin, h_rest⟩
      split at h_rest
      · cases h_rest
      · next h_same =>
        obtain ⟨value, h_value, h_rest⟩ := Outcome.bind_eq_ok_iff.mp h_rest
        split at h_rest
        · next h_admits =>
          cases h_rest
          exact ⟨⟨h_account, h_coin, lift_eq_ok_iff.mp h_value, rfl⟩, not_not.mp h_same, h_admits⟩
        · cases h_rest
    · rintro ⟨⟨h_account, h_coin, h_value, h_source⟩, h_same, h_admits⟩
      refine ⟨p.account, h_account, p.coin, h_coin, ?_⟩
      rw [if_neg (not_not.mpr h_same), Outcome.bind_eq_ok_iff]
      refine ⟨p.value, lift_eq_ok_iff.mpr h_value, ?_⟩
      rw [if_pos h_admits, ← h_source]
      rfl
  · simp [h_type]

/-- What fills a slot moves its coin, in the direction of the slot. -/
theorem moves_of_fill (h_fill : fill k position slot op = .ok p) :
    ∃ n : Nat, op.Moves
      { type := slot.type, account := p.account, coin := slot.coin,
        value := if slot.outgoing then -(n : Int) else n } := by
  obtain ⟨h_type, h_posting, h_coin, h_admits⟩ := fill_eq_ok_iff.mp h_fill
  obtain ⟨-, -, -, h_source⟩ := Operation.posting_eq_ok_iff.mp h_posting
  have h_value : p.value = if slot.outgoing then -(p.value.natAbs : Int) else p.value.natAbs := by
    unfold admits at h_admits
    split at h_admits
    · next h_out =>
      rw [if_pos h_out]
      have h_sign : p.value ≤ 0 := of_decide_eq_true h_admits
      omega
    · next h_in =>
      rw [if_neg h_in]
      have h_sign : 0 ≤ p.value := of_decide_eq_true h_admits
      omega
  refine ⟨p.value.natAbs, h_type, ?_, rfl⟩
  rw [h_posting, ← h_value, ← h_coin, ← h_source]
  rfl

end Slot

/-! ### What is asked for -/

namespace Intent

open Operation (Moves)
open Tx (thetaLeg tfuelLeg feeLeg)

variable {ops : List Operation} {intent : Intent}

/-- What operations with an intent ask for: the kind, the signer and the legs of a transaction. -/
inductive Asks : Tx.Kind → Address → List Leg → Prop
  /-- An account sends coins to another one, for a fee. -/
  | send (payer receiver : Address) (spent received : Coins) (fee : Nat) :
    Asks .send payer
      [thetaLeg .sendInput payer (-(spent.theta : Int)),
        tfuelLeg .sendInput payer (-(spent.tfuel : Int)),
        thetaLeg .sendOutput receiver received.theta,
        tfuelLeg .sendOutput receiver received.tfuel,
        feeLeg payer (.ofTfuel fee) none]
  /-- An account calls a contract and gives it TFUEL. -/
  | smartContract (sender recipient : Address) (paid received : Nat) :
    Asks .smartContract sender
      [tfuelLeg .smartContractFrom sender (-(paid : Int)),
        tfuelLeg .smartContractTo recipient received]

theorem ofSend_eq_ok (h_intent : ofSend ops = .ok intent) :
    ∃ a b c d e paidTheta paidTfuel receivedTheta receivedTfuel fee,
      ops = [a, b, c, d, e] ∧
      Slot.fill .send 0 ⟨.sendInput, .theta, true⟩ a = .ok paidTheta ∧
      Slot.fill .send 1 ⟨.sendInput, .tfuel, true⟩ b = .ok paidTfuel ∧
      Slot.fill .send 2 ⟨.sendOutput, .theta, false⟩ c = .ok receivedTheta ∧
      Slot.fill .send 3 ⟨.sendOutput, .tfuel, false⟩ d = .ok receivedTfuel ∧
      Slot.fill .send 4 ⟨.fee, .tfuel, true⟩ e = .ok fee ∧
      intent = .send paidTheta paidTfuel receivedTheta receivedTfuel fee := by
  unfold ofSend at h_intent
  split at h_intent
  · next a b c d e =>
    simp only [Outcome.bind_eq_ok_iff, Outcome.pure_eq_ok_iff] at h_intent
    obtain ⟨paidTheta, h_a, paidTfuel, h_b, receivedTheta, h_c, receivedTfuel, h_d, fee, h_e,
      h_intent⟩ := h_intent
    exact ⟨a, b, c, d, e, _, _, _, _, _, rfl, h_a, h_b, h_c, h_d, h_e, h_intent⟩
  · cases h_intent

theorem ofSmartContract_eq_ok (h_intent : ofSmartContract ops = .ok intent) :
    ∃ a b paid received, ops = [a, b] ∧
      Slot.fill .smartContract 0 ⟨.smartContractFrom, .tfuel, true⟩ a = .ok paid ∧
      Slot.fill .smartContract 1 ⟨.smartContractTo, .tfuel, false⟩ b = .ok received ∧
      intent = .smartContract paid received := by
  unfold ofSmartContract at h_intent
  split at h_intent
  · next a b =>
    simp only [Outcome.bind_eq_ok_iff, Outcome.pure_eq_ok_iff] at h_intent
    obtain ⟨paid, h_a, received, h_b, h_intent⟩ := h_intent
    exact ⟨a, b, _, _, rfl, h_a, h_b, h_intent⟩
  · cases h_intent

/-- The accounts of a send that has been checked: one pays, another one receives. -/
theorem validate_send_eq_ok {paidTheta paidTfuel receivedTheta receivedTfuel fee : Posting}
    {u : Unit}
    (h_valid : validate (.send paidTheta paidTfuel receivedTheta receivedTfuel fee) = .ok u) :
    paidTfuel.account = paidTheta.account ∧ fee.account = paidTheta.account ∧
      receivedTfuel.account = receivedTheta.account ∧
      paidTheta.account ≠ receivedTheta.account := by
  rw [validate] at h_valid
  split at h_valid
  · cases h_valid
  · next h_sender =>
    split at h_valid
    · cases h_valid
    · next h_receiver =>
      split at h_valid
      · cases h_valid
      · next h_other =>
        rw [not_or, not_not, not_not] at h_sender
        rw [not_not] at h_receiver
        refine ⟨h_sender.1.symm, (h_sender.1.trans h_sender.2).symm, h_receiver.symm, ?_⟩
        rw [h_sender.1, h_receiver]
        exact h_other

/-- **Operations with an intent move what it asks for.** -/
theorem exists_asks {u : Unit} (h_intent : ofOperations ops = .ok intent)
    (h_valid : intent.validate = .ok u) :
    ∃ legs, Asks intent.kind intent.signer legs ∧ List.Forall₂ Moves ops legs := by
  unfold ofOperations at h_intent
  split at h_intent
  · next h_send =>
    cases h_intent
    obtain ⟨a, b, c, d, e, paidTheta, paidTfuel, receivedTheta, receivedTfuel, fee, rfl, h_a, h_b,
      h_c, h_d, h_e, rfl⟩ := ofSend_eq_ok h_send
    obtain ⟨h_payer, h_fee, h_receiver, -⟩ := validate_send_eq_ok h_valid
    obtain ⟨theta, h_a⟩ := Slot.moves_of_fill h_a
    obtain ⟨tfuel, h_b⟩ := Slot.moves_of_fill h_b
    obtain ⟨theta', h_c⟩ := Slot.moves_of_fill h_c
    obtain ⟨tfuel', h_d⟩ := Slot.moves_of_fill h_d
    obtain ⟨fee', h_e⟩ := Slot.moves_of_fill h_e
    rw [h_payer] at h_b
    rw [h_receiver] at h_d
    rw [h_fee] at h_e
    exact ⟨_, .send paidTheta.account receivedTheta.account ⟨theta, tfuel⟩ ⟨theta', tfuel'⟩ fee',
      .cons h_a (.cons h_b (.cons h_c (.cons h_d (.cons h_e .nil))))⟩
  · split at h_intent
    · next h_call =>
      cases h_intent
      obtain ⟨a, b, paid, received, rfl, h_a, h_b, rfl⟩ := ofSmartContract_eq_ok h_call
      obtain ⟨n, h_a⟩ := Slot.moves_of_fill h_a
      obtain ⟨n', h_b⟩ := Slot.moves_of_fill h_b
      exact ⟨_, .smartContract paid.account received.account n n', .cons h_a (.cons h_b .nil)⟩
    · cases h_intent

end Intent

/-! ### What is built -/

namespace Tx

open Operation (Moves)

variable {ops : List Operation} {m : Metadata} {cursor : Cursor}

/-- An input has the account and the coins that it is given. -/
theorem input_eq_ok {op : Operation} {account : Address} {coins : Coins} {i : Input}
    (h_input : op.input m account coins = .ok i) : i.address = account ∧ i.coins = coins := by
  rw [Operation.input] at h_input
  simp only [Outcome.bind_eq_ok_iff, Outcome.pure_eq_ok_iff] at h_input
  obtain ⟨sequence, -, signature, -, rfl⟩ := h_input
  exact ⟨rfl, rfl⟩

/-- A run of one pair of legs is read as its reader reads the pair. -/
theorem pairs_of_pair {α : Type} (k : Kind) (position : Nat)
    (read : Nat → Posting → Posting → Except TxError α) {type : OperationType}
    {op op' : Operation} {rest : List Operation} {payer : Address} {x y : Int}
    (h_op : op.Moves (thetaLeg type payer x)) (h_op' : op'.Moves (tfuelLeg type payer y))
    (h_ends : ∀ other ∈ rest.head?, other.type ≠ type.name) :
    Cursor.pairs ⟨k, position, op :: op' :: rest⟩ type read =
      (read position ⟨op, payer, .theta, x⟩ ⟨op', payer, .tfuel, y⟩).map fun a =>
        ([a], ⟨k, position + 2, rest⟩) := by
  have h_run : Cursor.IsRun type [op, op'] rest := by
    refine ⟨fun other h_mem => ?_, h_ends⟩
    rcases List.mem_pair.mp h_mem with rfl | rfl
    · exact h_op.type_eq
    · exact h_op'.type_eq
  have h_posting : op.posting = .ok ⟨op, payer, .theta, x⟩ := h_op.posting_eq
  have h_posting' : op'.posting = .ok ⟨op', payer, .tfuel, y⟩ := h_op'.posting_eq
  have h_account : (⟨op', payer, .tfuel, y⟩ : Posting).requireAccount k payer = .ok () :=
    Posting.requireAccount_of_eq rfl
  have h_taken := Cursor.run_of_isRun h_run k position
  have h_behind := Cursor.skipRun_of_isRun h_run k position
  rw [List.cons_append, List.cons_append, List.nil_append] at h_taken h_behind
  simp only [Cursor.pairs, h_taken, h_behind, Cursor.pairsOf, h_posting, h_posting', h_account,
    bind, Except.bind, pure, Except.pure, Posting.requireCoin_mk]
  cases read position ⟨op, payer, .theta, x⟩ ⟨op', payer, .tfuel, y⟩ with
  | error e => rfl
  | ok a => rfl

/-- The first input is read as it is asked for. -/
theorem Send.inputOf_zero (m : Metadata) (op op' : Operation) (account : Address) (x y : Nat) :
    inputOf m 0 ⟨op, account, .theta, -(x : Int)⟩ ⟨op', account, .tfuel, -(y : Int)⟩ =
      (op.input m account ⟨x, y⟩).map fun i => ((y : Int), i) := by
  simp only [inputOf, Posting.debit_mk, if_true, Int.neg_neg, Int.toNat_natCast, bind, Except.bind,
    pure, Except.pure]
  cases op.input m account ⟨x, y⟩ with
  | error e => rfl
  | ok i => rfl

/-- A send that is asked for is built from the input of the first operation. The fee comes out of the
input. -/
theorem Send.ofOperations_eq {a b c d e : Operation} {payer receiver : Address}
    {spent received : Coins} {fee : Nat}
    (h_a : a.Moves (thetaLeg .sendInput payer (-(spent.theta : Int))))
    (h_b : b.Moves (tfuelLeg .sendInput payer (-(spent.tfuel : Int))))
    (h_c : c.Moves (thetaLeg .sendOutput receiver received.theta))
    (h_d : d.Moves (tfuelLeg .sendOutput receiver received.tfuel))
    (h_e : e.Moves (feeLeg payer (.ofTfuel fee) none)) (m : Metadata) :
    Send.ofOperations (.start .send [a, b, c, d, e]) m =
      (a.input m payer spent).map fun i =>
        (⟨.ofTfuel fee, [{ i with coins := ⟨spent.theta, spent.tfuel + fee⟩ }],
          [⟨receiver, received⟩]⟩, ⟨.send, 5, []⟩) := by
  have h_inputs := pairs_of_pair .send 0 (inputOf m) h_a h_b
    (h_c.ends .sendInput nofun [d, e])
  have h_outputs := pairs_of_pair .send 2 outputOf h_c h_d
    (h_e.ends .sendOutput nofun [])
  have h_output : outputOf 2 ⟨c, receiver, .theta, received.theta⟩
      ⟨d, receiver, .tfuel, received.tfuel⟩ = .ok ⟨receiver, received⟩ := by
    simp only [outputOf, Posting.credit_mk, bind, Except.bind, pure, Except.pure]
  have h_fee : Cursor.fee ⟨.send, 4, [e]⟩ (some payer) = .ok (⟨payer, fee, e⟩, ⟨.send, 5, []⟩) :=
    Cursor.fee_of_shows h_e .send 4 [] (some payer) fun _ h_payer => Option.some.inj h_payer
  rw [h_output] at h_outputs
  rw [Send.ofOperations, Cursor.start, h_inputs, inputOf_zero]
  cases h_input : a.input m payer spent with
  | error e => rfl
  | ok i =>
    obtain ⟨h_address, h_coins⟩ := input_eq_ok h_input
    have h_covered : (0 : Int) ≤ spent.tfuel + fee := by omega
    have h_sum : ((spent.tfuel : Int) + fee).toNat = spent.tfuel + fee := by omega
    simp only [h_outputs, h_address, h_fee, withFee, if_pos h_covered, h_sum, h_coins, bind,
      Except.bind, Except.map, pure, Except.pure, List.map_nil]

/-- **A send that is asked for is built** from the input of the first operation, or it is refused
with this input. -/
theorem ofOperations_send_eq {a b c d e : Operation} {payer receiver : Address} {fee : Nat}
    (spent received : Coins)
    (h_a : a.Moves (thetaLeg .sendInput payer (-(spent.theta : Int))))
    (h_b : b.Moves (tfuelLeg .sendInput payer (-(spent.tfuel : Int))))
    (h_c : c.Moves (thetaLeg .sendOutput receiver received.theta))
    (h_d : d.Moves (tfuelLeg .sendOutput receiver received.tfuel))
    (h_e : e.Moves (feeLeg payer (.ofTfuel fee) none)) :
    ofOperations .send [a, b, c, d, e] m =
      (a.input m payer spent).map fun i =>
        .send ⟨.ofTfuel fee, [{ i with coins := ⟨spent.theta, spent.tfuel + fee⟩ }],
          [⟨receiver, received⟩]⟩ := by
  have h_body := Send.ofOperations_eq h_a h_b h_c h_d h_e m
  rw [ofOperations, readLayout]
  show (Except.map _ (Send.ofOperations (.start .send [a, b, c, d, e]) m) >>= _) = _
  rw [h_body]
  cases a.input m payer spent <;> rfl

/-- A party with a single leg, in TFUEL, is read as its leg says. It signs on the operation of this
leg. -/
theorem party_of_tfuelLeg (k : Kind) (position : Nat) (outgoing : Bool) (rest : List Operation)
    {type : OperationType} {op : Operation} {account : Address} {n : Nat}
    (h_op : op.Moves (tfuelLeg type account (if outgoing then -(n : Int) else n)))
    (h_ends : ∀ other ∈ rest.head?, other.type ≠ type.name) :
    ∃ first seen, Cursor.party ⟨k, position, op :: rest⟩ type outgoing =
      .ok (some ⟨account, first, .ofTfuel n, seen⟩, ⟨k, position + 1, rest⟩) ∧
      first.metadata = op.metadata := by
  have h_run : Cursor.IsRun type [op] rest :=
    ⟨fun other h_mem => List.mem_singleton.mp h_mem ▸ h_op.type_eq, h_ends⟩
  have h_shows : List.Forall₂ Operation.Shows [op]
      ([Denom.tfuel].map (shareLeg type account (.ofTfuel n) outgoing op.metadata)) :=
    .cons h_op .nil
  have h_zero : ∀ d, d ∉ [Denom.tfuel] → (Coins.ofTfuel n).get d = 0 := by
    intro d h_out
    cases d with
    | theta => rfl
    | tfuel => exact absurd List.mem_cons_self h_out
  obtain ⟨first, seen, h_party, h_metadata⟩ := Cursor.party_of_shows k position
    (List.cons_ne_nil Denom.tfuel []) (by decide) h_zero h_shows h_run
  exact ⟨first, seen, h_party, h_metadata⟩

/-- Of an operation only its metadata counts for the input of a signing party. -/
theorem input_congr {op op' : Operation} (h_metadata : op.metadata = op'.metadata) (m : Metadata)
    (account : Address) (coins : Coins) : op.input m account coins = op'.input m account coins := by
  simp only [Operation.input, Operation.sequence, Operation.signature, h_metadata]

/-- A contract call that is asked for is built from the input of the first operation and from the
settings. -/
theorem SmartContract.ofOperations_eq {a b : Operation} {sender recipient : Address}
    {paid received : Nat} (h_a : a.Moves (tfuelLeg .smartContractFrom sender (-(paid : Int))))
    (h_b : b.Moves (tfuelLeg .smartContractTo recipient received)) (m : Metadata) :
    SmartContract.ofOperations (.start .smartContract [a, b]) m = do
      let source ← a.input m sender (.ofTfuel paid)
      let gasLimit ← m.counterOr "gas_limit" Chain.defaultGasLimit
      let gasPrice ← m.amount? "gas_price"
      let data ← m.bytesOrEmpty "data"
      return (⟨source, ⟨recipient, .ofTfuel received⟩, gasLimit, gasPrice.getD 0, data⟩,
        ⟨.smartContract, 2, []⟩) := by
  obtain ⟨first, seen, h_sender, h_metadata⟩ := party_of_tfuelLeg .smartContract 0 true [b] h_a
    (h_b.ends .smartContractFrom nofun [])
  obtain ⟨first', seen', h_recipient, -⟩ := party_of_tfuelLeg .smartContract 1 false [] h_b nofun
  rw [SmartContract.ofOperations, Cursor.start, h_sender, ← input_congr h_metadata]
  show (Cursor.party ⟨.smartContract, 1, [b]⟩ .smartContractTo false >>= _) = _
  rw [h_recipient]
  rfl

/-- **A call that is asked for is built** from the input of the first operation and the settings, or
it is refused with one of these. -/
theorem ofOperations_call_eq {a b : Operation} {sender recipient : Address} {paid received : Nat}
    (h_a : a.Moves (tfuelLeg .smartContractFrom sender (-(paid : Int))))
    (h_b : b.Moves (tfuelLeg .smartContractTo recipient received)) :
    ofOperations .smartContract [a, b] m = do
      let source ← a.input m sender (.ofTfuel paid)
      let gasLimit ← m.counterOr "gas_limit" Chain.defaultGasLimit
      let gasPrice ← m.amount? "gas_price"
      let data ← m.bytesOrEmpty "data"
      return .smartContract
        ⟨source, ⟨recipient, .ofTfuel received⟩, gasLimit, gasPrice.getD 0, data⟩ := by
  have h_body := SmartContract.ofOperations_eq h_a h_b m
  rw [ofOperations, readLayout]
  show (Except.map _ (SmartContract.ofOperations (.start .smartContract [a, b]) m) >>= _) = _
  rw [h_body]
  cases a.input m sender (.ofTfuel paid) with
  | error => rfl
  | ok source =>
    cases m.counterOr "gas_limit" Chain.defaultGasLimit with
    | error => rfl
    | ok gasLimit =>
      cases m.amount? "gas_price" with
      | error => rfl
      | ok gasPrice => cases m.bytesOrEmpty "data" <;> rfl

/-- Of operations that move the legs of a send the first one is signed for and the last one pays the
fee. -/
theorem send_of_moves {payer receiver : Address} {spent received : Coins} {fee : Nat}
    (h_moves : List.Forall₂ Moves ops
      [thetaLeg .sendInput payer (-(spent.theta : Int)),
        tfuelLeg .sendInput payer (-(spent.tfuel : Int)),
        thetaLeg .sendOutput receiver received.theta,
        tfuelLeg .sendOutput receiver received.tfuel,
        feeLeg payer (.ofTfuel fee) none]) :
    ∃ first ∈ ops.head?, ∃ last ∈ ops.getLast?, last.Moves (feeLeg payer (.ofTfuel fee) none) ∧
      ∀ m, ofOperations .send ops m = (first.input m payer spent).map fun i =>
        .send ⟨.ofTfuel fee, [{ i with coins := ⟨spent.theta, spent.tfuel + fee⟩ }],
          [⟨receiver, received⟩]⟩ := by
  simp only [List.forall₂_cons_right_iff, List.forall₂_nil_right_iff] at h_moves
  obtain ⟨a, _, h_a, ⟨b, _, h_b, ⟨c, _, h_c, ⟨d, _, h_d, ⟨e, _, h_e, rfl, rfl⟩, rfl⟩, rfl⟩, rfl⟩,
    rfl⟩ := h_moves
  exact ⟨a, rfl, e, rfl, h_e, fun _ => ofOperations_send_eq spent received h_a h_b h_c h_d h_e⟩

/-- Of operations that move the legs of a call the first one is signed for. -/
theorem call_of_moves {sender recipient : Address} {paid received : Nat}
    (h_moves : List.Forall₂ Moves ops
      [tfuelLeg .smartContractFrom sender (-(paid : Int)),
        tfuelLeg .smartContractTo recipient received]) :
    ∃ first ∈ ops.head?, ∀ m, ofOperations .smartContract ops m = do
      let source ← first.input m sender (.ofTfuel paid)
      let gasLimit ← m.counterOr "gas_limit" Chain.defaultGasLimit
      let gasPrice ← m.amount? "gas_price"
      let data ← m.bytesOrEmpty "data"
      return .smartContract
        ⟨source, ⟨recipient, .ofTfuel received⟩, gasLimit, gasPrice.getD 0, data⟩ := by
  simp only [List.forall₂_cons_right_iff, List.forall₂_nil_right_iff] at h_moves
  obtain ⟨a, _, h_a, ⟨b, _, h_b, rfl, rfl⟩, rfl⟩ := h_moves
  exact ⟨a, rfl, fun _ => ofOperations_call_eq h_a h_b⟩

/-- A body that is built is the transaction that is built. -/
theorem body_of_readLayout {α : Type} (make : α → Tx) {read : Except TxError (α × Cursor)}
    {tx : Tx} (h_read : read.map (.map make id) = .ok (tx, cursor)) :
    ∃ body, read = .ok (body, cursor) ∧ tx = make body := by
  obtain ⟨⟨body, cursor'⟩, h_body, h_make⟩ := Outcome.map_eq_ok_iff.mp h_read
  cases h_make
  exact ⟨body, h_body, rfl⟩

/-- **What is asked for is built.** The transaction has the legs, and is signed by the account of the
first one. -/
theorem legs_of_asks {k : Kind} {signer : Address} {legs : List Leg} {tx : Tx}
    (h_asks : Intent.Asks k signer legs) (h_moves : List.Forall₂ Moves ops legs)
    (h_build : ofOperations k ops m = .ok tx) :
    tx.kind = k ∧ tx.signer? = some signer ∧ (tx.legs {}).map Leg.bare = legs := by
  cases h_asks with
  | send payer receiver spent received fee =>
    obtain ⟨first, -, last, -, -, h_eq⟩ := send_of_moves h_moves
    rw [h_eq] at h_build
    obtain ⟨i, h_input, rfl⟩ := Outcome.map_eq_ok_iff.mp h_build
    obtain ⟨rfl, -⟩ := input_eq_ok h_input
    refine ⟨rfl, rfl, ?_⟩
    -- The fee, which was added to the input, is not part of its leg.
    have h_shown : ((spent.tfuel + fee : Nat) : Int) - (Coins.ofTfuel fee).tfuel = spent.tfuel := by
      have h_fee : (Coins.ofTfuel fee).tfuel = fee := rfl
      rw [h_fee]
      omega
    simp only [legs, Send.legs, Send.inputPair, h_shown]
    rfl
  | smartContract sender recipient paid received =>
    obtain ⟨first, -, h_eq⟩ := call_of_moves h_moves
    rw [h_eq] at h_build
    simp only [Outcome.bind_eq_ok_iff, Outcome.pure_eq_ok_iff] at h_build
    obtain ⟨i, h_input, gasLimit, -, gasPrice, -, data, -, rfl⟩ := h_build
    obtain ⟨h_sender, h_paid⟩ := input_eq_ok h_input
    refine ⟨rfl, congrArg some h_sender, ?_⟩
    simp only [legs, SmartContract.intentLegs, h_sender, h_paid]
    rfl

end Tx

end RosettaGateway
