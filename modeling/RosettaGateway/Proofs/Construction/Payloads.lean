import RosettaGateway.Proofs.Construction.Intent

/-!
# What is signed is what was asked for

`Construction.payloads` turns operations into an unsigned transaction and the hash to sign. On the
way the operations are matched with an intent, built into a transaction and sent out as hex; and
`Construction.parse` takes the hex back to operations. `payloads_ok` says that nothing is lost
between the two ends: a client that looks into what it is about to sign finds the operations it gave,
in the same order and with the same meaning, though their texts may have been spelt in another way.
-/

namespace RosettaGateway.Construction

variable {chainId unsigned : String} {ops : List Operation} {m : Metadata}
  {payload : SigningPayload}

theorem intentOf_eq_ok_iff {intent : Intent} :
    intentOf ops = .ok intent ↔
      Intent.ofOperations ops = .ok intent ∧ intent.validate = .ok () := by
  simp only [intentOf, Outcome.bind_eq_ok_iff, Outcome.mapError_eq_ok_iff, Outcome.pure_eq_ok_iff]
  constructor
  · rintro ⟨_, h_intent, _, h_valid, rfl⟩
    exact ⟨h_intent, h_valid⟩
  · rintro ⟨h_intent, h_valid⟩
    exact ⟨intent, h_intent, (), h_valid, rfl⟩

/-- **An unsigned transaction is made** of operations with an intent and of metadata that tell the
sequence. Its signer is given the hash of the bytes that are to be signed. -/
theorem payloads_eq_ok_iff :
    payloads chainId ops m = .ok (unsigned, payload) ↔
      ∃ intent sequence tx, intentOf ops = .ok intent ∧
        Metadata.demand "sequence" (m.counter? "sequence") = .ok sequence ∧
        Tx.ofOperations intent.kind ops m = .ok tx ∧ unsigned = Hex.plain tx.toBytes ∧
        payload = ⟨.ofAddress intent.signer, Hex.plain (keccak256 (tx.signBytes chainId)).bytes,
          signatureType⟩ := by
  simp only [payloads, Outcome.bind_eq_ok_iff, Outcome.mapError_eq_ok_iff, Outcome.pure_eq_ok_iff,
    Prod.mk.injEq]
  constructor
  · rintro ⟨intent, h_intent, sequence, h_sequence, tx, h_build, h_unsigned, h_payload⟩
    exact ⟨intent, sequence, tx, h_intent, h_sequence, h_build, h_unsigned, h_payload⟩
  · rintro ⟨intent, sequence, tx, h_intent, h_sequence, h_build, h_unsigned, h_payload⟩
    exact ⟨intent, h_intent, sequence, h_sequence, tx, h_build, h_unsigned, h_payload⟩

/-- The kinds of intents are those that can be constructed. -/
theorem kind_of_asks {k : Tx.Kind} {signer : Address} {legs : List Leg}
    (h_asks : Intent.Asks k signer legs) : k = .send ∨ k = .smartContract := by
  cases h_asks with
  | send => exact Or.inl rfl
  | smartContract => exact Or.inr rfl

/-- The first operation is the one of the account that signs. -/
theorem head_of_asks {k : Tx.Kind} {signer : Address} {legs : List Leg}
    (h_asks : Intent.Asks k signer legs) (h_moves : List.Forall₂ Operation.Moves ops legs) :
    ∃ op ∈ ops.head?, op.address = .ok signer := by
  cases h_asks with
  | send =>
    obtain ⟨op, _, h_op, -, rfl⟩ := List.forall₂_cons_right_iff.mp h_moves
    exact ⟨op, rfl, h_op.reads.2.1⟩
  | smartContract =>
    obtain ⟨op, _, h_op, -, rfl⟩ := List.forall₂_cons_right_iff.mp h_moves
    exact ⟨op, rfl, h_op.reads.2.1⟩

/-- What is given out to be signed: a transaction with the legs that the operations ask for, and its
hash for its signer. -/
theorem exists_tx_of_payloads (h_payloads : payloads chainId ops m = .ok (unsigned, payload)) :
    ∃ (tx : Tx) (signer : Address) (legs : List Leg), Intent.Asks tx.kind signer legs ∧
      List.Forall₂ Operation.Moves ops legs ∧ Tx.ofOperations tx.kind ops m = .ok tx ∧
      tx.signer? = some signer ∧ (tx.legs {}).map Leg.bare = legs ∧
      unsigned = Hex.plain tx.toBytes ∧
      payload = ⟨.ofAddress signer, Hex.plain (keccak256 (tx.signBytes chainId)).bytes,
        signatureType⟩ := by
  obtain ⟨intent, -, tx, h_intent, -, h_build, h_unsigned, h_payload⟩ :=
    payloads_eq_ok_iff.mp h_payloads
  obtain ⟨h_intent, h_valid⟩ := intentOf_eq_ok_iff.mp h_intent
  obtain ⟨legs, h_asks, h_moves⟩ := Intent.exists_asks h_intent h_valid
  obtain ⟨h_kind, h_signer, h_legs⟩ := Tx.legs_of_asks h_asks h_moves h_build
  rw [← h_kind] at h_asks h_build
  exact ⟨tx, intent.signer, legs, h_asks, h_moves, h_build, h_signer, h_legs, h_unsigned, h_payload⟩

/-- A transaction that can be constructed is looked into. -/
theorem parse_plain {tx : Tx} {signer : Address} (h_fits : tx.toBytes.length < 2 ^ 64)
    (h_kind : tx.kind = .send ∨ tx.kind = .smartContract) (h_signer : tx.signer? = some signer)
    (signed : Bool) :
    parse (Hex.plain tx.toBytes) signed =
      .ok ⟨tx.describe {}, if signed then some [.ofAddress signer] else none⟩ := by
  have h_constructible : requireConstructible tx.kind = .ok () :=
    requireConstructible_eq_ok_iff.mpr h_kind
  rw [parse, txOf_plain tx h_fits]
  simp only [bind, Except.bind, h_constructible, h_signer]
  cases signed <;> rfl

/-- **What is signed is what was asked for.** The unsigned transaction that is made of some
operations can be looked into, and shows as many operations, each of which agrees in type, account,
coin and value with the one that was given in its place. No signer is told. The account of the
first operation is the signer of the transaction, and the one who gets the payload, which is the hash
of what this transaction has to be signed by on this chain. -/
theorem payloads_ok (h_payloads : payloads chainId ops m = .ok (unsigned, payload))
    (h_fits : unsigned.length < 2 * 2 ^ 64) :
    ∃ (tx : Tx) (parsed : ParsedTransaction) (signer : Address),
      txOf unsigned = .ok tx ∧ parse unsigned false = .ok parsed ∧
      parsed.description.operations.length = ops.length ∧
      List.Forall₂ Operation.Agrees ops parsed.description.operations ∧ parsed.signers = none ∧
      tx.signer? = some signer ∧ payload.account = .ofAddress signer ∧
      (∃ op ∈ ops.head?, op.address = .ok signer) ∧
      payload.hexBytes = Hex.plain (keccak256 (tx.signBytes chainId)).bytes := by
  obtain ⟨tx, signer, legs, h_asks, h_moves, -, h_signer, h_legs, rfl, rfl⟩ :=
    exists_tx_of_payloads h_payloads
  rw [length_plain] at h_fits
  have h_length : tx.toBytes.length < 2 ^ 64 := by omega
  have h_parse := parse_plain h_length (kind_of_asks h_asks) h_signer false
  -- What is shown moves what was asked for, which is what the given operations move.
  have h_shown := Operation.moves_ofLegs none (tx.legs {})
  rw [h_legs] at h_shown
  have h_agrees := Operation.agrees_of_moves h_moves h_shown
  exact ⟨tx, ⟨tx.describe {}, none⟩, signer, txOf_plain tx h_length, h_parse,
    h_agrees.length_eq.symm, h_agrees, rfl, h_signer, rfl, head_of_asks h_asks h_moves, rfl⟩

/-! ### A send in many spellings -/

namespace SampleSend

/-- An operation without a number and without a status. -/
def operation (type account value symbol : String) : Operation where
  index := 0
  type := type
  account := some { address := account }
  amount := some ⟨value, ⟨symbol, Denom.decimals⟩⟩

/-- The account that pays. -/
def payer : Address := ⟨List.replicate 19 0 ++ [0xab], rfl⟩

/-- Ten THETA-wei for the account of zeros, and nothing in TFUEL but the fee. -/
def asked : List Operation :=
  [operation "SendTxInput" "0x00000000000000000000000000000000000000aB" "-1_0" "theta",
    operation "SendTxInput" "00000000000000000000000000000000000000ab" "-0" "TFuelWei",
    operation "SendTxOutput" "0x0000000000000000000000000000000000000000" "+10" "ThetaWei",
    operation "SendTxOutput" "0x0000000000000000000000000000000000000000" "0_" "tfuel",
    operation "TxFee" "0X00000000000000000000000000000000000000AB" "-3" "TFUEL"]

/-- The transaction that is meant. -/
def send : Tx := .send ⟨.ofTfuel 3, [⟨payer, ⟨10, 3⟩, 1, []⟩], [⟨.zero, ⟨10, 0⟩⟩]⟩

theorem payloads_eq :
    payloads "tn" asked (.ofList [("sequence", .string "1")]) =
      .ok (Hex.plain send.toBytes, ⟨.ofAddress payer,
        Hex.plain (keccak256 (send.signBytes "tn")).bytes, signatureType⟩) :=
  payloads_eq_ok_iff.mpr ⟨_, 1, send, rfl, rfl, rfl, rfl, rfl⟩

theorem length_plain_send : (Hex.plain send.toBytes).length < 2 * 2 ^ 64 := by
  rw [length_plain]
  decide +kernel

/-- The send is shown as it was asked for. -/
theorem payloads_ok_spelt :
    let unsigned := Hex.plain send.toBytes
    (∃ payload, payloads "tn" asked (.ofList [("sequence", .string "1")]) =
      .ok (unsigned, payload)) ∧
    unsigned.length < 2 * 2 ^ 64 ∧
      ∃ parsed, parse unsigned false = .ok parsed ∧
        List.Forall₂ Operation.Agrees asked parsed.description.operations := by
  intro unsigned
  obtain ⟨-, parsed, -, -, h_parse, -, h_agrees, -⟩ := payloads_ok payloads_eq length_plain_send
  exact ⟨⟨_, payloads_eq⟩, length_plain_send, parsed, h_parse, h_agrees⟩

end SampleSend

end RosettaGateway.Construction
