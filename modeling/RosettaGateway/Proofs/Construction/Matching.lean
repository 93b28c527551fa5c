import RosettaGateway.Proofs.Construction.Payloads

/-!
# What is matched is built

A list of operations is read twice on its way to a transaction. First it is matched with the slots
of the two intents, place by place (`Intent.ofOperations`); then a cursor walks it, without knowing
of slots, and builds the transaction (`Tx.ofOperations`). The two readings have their own checks of
types, coins, signs and accounts, and this module says that they never disagree.

* `Intent.ofOperations_eq_ok_iff` — a list is matched just when each operation fits its slot, and
  the legs of the intent are what was read of the operations;
* `Intent.carries_ofOperations` — what the cursor makes of such a list: after the match nothing can
  be refused but an entry of the metadata;
* `Intent.ofOperations_makes` — both together.
-/

namespace RosettaGateway

/-! ### Slots that are filled -/

namespace Slot

/-- The slots of a send. -/
def ofSend : List Slot :=
  [⟨.sendInput, .theta, true⟩, ⟨.sendInput, .tfuel, true⟩, ⟨.sendOutput, .theta, false⟩,
    ⟨.sendOutput, .tfuel, false⟩, ⟨.fee, .tfuel, true⟩]

/-- The slots of a contract call. -/
def ofCall : List Slot := [⟨.smartContractFrom, .tfuel, true⟩, ⟨.smartContractTo, .tfuel, false⟩]

/-- An operation fits a slot when it has its type and its coin, names an account, and has a value
that does not have the wrong sign. -/
structure Fits (slot : Slot) (op : Operation) : Prop where
  type_eq : op.type = slot.type.name
  account : ∃ a, op.address = .ok a
  coin_eq : op.coin = .ok slot.coin
  value : ∃ i : Int, op.value = .ok i ∧ if slot.outgoing then i ≤ 0 else 0 ≤ i

variable {k : Tx.Kind} {position : Nat} {slot : Slot} {op : Operation} {p : Posting}

theorem admits_iff {i : Int} : slot.admits i = true ↔ if slot.outgoing then i ≤ 0 else 0 ≤ i := by
  unfold admits
  split <;> exact decide_eq_true_iff

/-- What fills a slot is read from an operation that fits it. -/
theorem fill_eq_ok_iff_fits :
    fill k position slot op = .ok p ↔ slot.Fits op ∧ op.posting = .ok p := by
  rw [fill_eq_ok_iff]
  constructor
  · rintro ⟨h_type, h_posting, h_coin, h_admits⟩
    obtain ⟨h_account, h_read, h_value, -⟩ := Operation.posting_eq_ok_iff.mp h_posting
    exact ⟨⟨h_type, ⟨_, h_account⟩, h_coin ▸ h_read, ⟨_, h_value, admits_iff.mp h_admits⟩⟩,
      h_posting⟩
  · rintro ⟨h_fits, h_posting⟩
    obtain ⟨-, h_read, h_value, -⟩ := Operation.posting_eq_ok_iff.mp h_posting
    obtain ⟨i, h_same, h_sign⟩ := h_fits.value
    obtain rfl : i = p.value := Except.ok.inj (h_same.symm.trans h_value)
    exact ⟨h_fits.type_eq, h_posting, Except.ok.inj (h_read.symm.trans h_fits.coin_eq),
      admits_iff.mpr h_sign⟩

theorem fill_of_fits (h_fits : slot.Fits op) (h_posting : op.posting = .ok p) :
    fill k position slot op = .ok p :=
  fill_eq_ok_iff_fits.mpr ⟨h_fits, h_posting⟩

theorem Fits.posting (h_fits : slot.Fits op) : ∃ p, op.posting = .ok p := by
  obtain ⟨a, h_account⟩ := h_fits.account
  obtain ⟨i, h_value, -⟩ := h_fits.value
  exact ⟨⟨op, a, slot.coin, i⟩,
    Operation.posting_eq_ok_iff.mpr ⟨h_account, h_fits.coin_eq, h_value, rfl⟩⟩

/-- The amount that fills a slot is the one that is moved. -/
theorem exists_moves_of_fill (h_fill : fill k position slot op = .ok p) :
    ∃ n : Nat, p.value = (if slot.outgoing then -(n : Int) else n) ∧
      op.Moves
        { type := slot.type, account := p.account, coin := slot.coin,
          value := if slot.outgoing then -(n : Int) else n } := by
  obtain ⟨n, h_moves⟩ := moves_of_fill h_fill
  obtain ⟨-, h_posting⟩ := fill_eq_ok_iff_fits.mp h_fill
  obtain ⟨-, -, h_value, -⟩ := Operation.posting_eq_ok_iff.mp h_posting
  exact ⟨n, Except.ok.inj (h_value.symm.trans h_moves.reads.2.2.2), h_moves⟩

end Slot

/-! ### Lists that are matched -/

namespace Intent

variable {ops : List Operation} {intent : Intent}

/-- The slots that an intent fills. -/
def slots : Intent → List Slot
  | .send .. => Slot.ofSend
  | .smartContract .. => Slot.ofCall

/-- An intent is read from a list: each operation fits its slot, and the legs of the intent are what
is read of the operations. -/
structure ReadFrom (intent : Intent) (ops : List Operation) : Prop where
  fits : List.Forall₂ Slot.Fits intent.slots ops
  postings : List.Forall₂ (fun op p => op.posting = .ok p) ops intent.legs

theorem ofSend_eq_ok_iff :
    ofSend ops = .ok intent ↔ intent.ReadFrom ops ∧ intent.kind = .send := by
  constructor
  · intro h_send
    obtain ⟨a, b, c, d, e, _, _, _, _, _, rfl, h_a, h_b, h_c, h_d, h_e, rfl⟩ :=
      ofSend_eq_ok h_send
    rw [Slot.fill_eq_ok_iff_fits] at h_a h_b h_c h_d h_e
    exact ⟨⟨.cons h_a.1 (.cons h_b.1 (.cons h_c.1 (.cons h_d.1 (.cons h_e.1 .nil)))),
      .cons h_a.2 (.cons h_b.2 (.cons h_c.2 (.cons h_d.2 (.cons h_e.2 .nil))))⟩, rfl⟩
  · rintro ⟨⟨h_fits, h_postings⟩, h_kind⟩
    cases intent with
    | smartContract => cases h_kind
    | send paidTheta paidTfuel receivedTheta receivedTfuel fee =>
      simp only [legs, List.forall₂_cons_right_iff, List.forall₂_nil_right_iff] at h_postings
      obtain ⟨a, _, h_a, ⟨b, _, h_b, ⟨c, _, h_c, ⟨d, _, h_d, ⟨e, _, h_e, rfl, rfl⟩, rfl⟩, rfl⟩,
        rfl⟩, rfl⟩ := h_postings
      simp only [slots, Slot.ofSend, List.forall₂_cons] at h_fits
      obtain ⟨h_a', h_b', h_c', h_d', h_e', -⟩ := h_fits
      simp only [ofSend, Slot.fill_of_fits h_a' h_a, Slot.fill_of_fits h_b' h_b,
        Slot.fill_of_fits h_c' h_c, Slot.fill_of_fits h_d' h_d, Slot.fill_of_fits h_e' h_e]
      rfl

theorem ofSmartContract_eq_ok_iff :
    ofSmartContract ops = .ok intent ↔ intent.ReadFrom ops ∧ intent.kind = .smartContract := by
  constructor
  · intro h_call
    obtain ⟨a, b, _, _, rfl, h_a, h_b, rfl⟩ := ofSmartContract_eq_ok h_call
    rw [Slot.fill_eq_ok_iff_fits] at h_a h_b
    exact ⟨⟨.cons h_a.1 (.cons h_b.1 .nil), .cons h_a.2 (.cons h_b.2 .nil)⟩, rfl⟩
  · rintro ⟨⟨h_fits, h_postings⟩, h_kind⟩
    cases intent with
    | send => cases h_kind
    | smartContract paid received =>
      simp only [legs, List.forall₂_cons_right_iff, List.forall₂_nil_right_iff] at h_postings
      obtain ⟨a, _, h_a, ⟨b, _, h_b, rfl, rfl⟩, rfl⟩ := h_postings
      simp only [slots, Slot.ofCall, List.forall₂_cons] at h_fits
      obtain ⟨h_a', h_b', -⟩ := h_fits
      simp only [ofSmartContract, Slot.fill_of_fits h_a' h_a, Slot.fill_of_fits h_b' h_b]
      rfl

/-- **A list is matched** with the intents that are read from it. -/
theorem ofOperations_eq_ok_iff : ofOperations ops = .ok intent ↔ intent.ReadFrom ops := by
  unfold ofOperations
  constructor
  · intro h_intent
    split at h_intent
    · next h_send =>
      cases h_intent
      exact (ofSend_eq_ok_iff.mp h_send).1
    · split at h_intent
      · next h_call =>
        cases h_intent
        exact (ofSmartContract_eq_ok_iff.mp h_call).1
      · cases h_intent
  · intro h_read
    cases h_kind : intent.kind with
    | send =>
      have h_send := ofSend_eq_ok_iff.mpr ⟨h_read, h_kind⟩
      rw [h_send]
    | smartContract =>
      have h_call := ofSmartContract_eq_ok_iff.mpr ⟨h_read, h_kind⟩
      obtain ⟨a, b, _, _, rfl, -⟩ := ofSmartContract_eq_ok h_call
      -- Two operations are too few for a send.
      have h_send : ofSend [a, b] = .error (.count .send 5 2) := rfl
      rw [h_send, h_call]
    | _ => cases intent <;> cases h_kind

/-- Lists that fit the slots of a send or of a call are matched, and no others. -/
theorem exists_ofOperations_iff :
    (∃ intent, ofOperations ops = .ok intent) ↔
      List.Forall₂ Slot.Fits Slot.ofSend ops ∨ List.Forall₂ Slot.Fits Slot.ofCall ops := by
  simp only [ofOperations_eq_ok_iff]
  constructor
  · rintro ⟨intent, h_fits, -⟩
    -- The kind of the intent tells which slots are filled.
    cases intent with
    | send => exact Or.inl h_fits
    | smartContract => exact Or.inr h_fits
  · rintro (h_fits | h_fits)
    · have h_each := h_fits
      simp only [Slot.ofSend, List.forall₂_cons_left_iff, List.forall₂_nil_left_iff] at h_each
      obtain ⟨a, _, h_a, ⟨b, _, h_b, ⟨c, _, h_c, ⟨d, _, h_d, ⟨e, _, h_e, rfl, rfl⟩, rfl⟩, rfl⟩,
        rfl⟩, rfl⟩ := h_each
      obtain ⟨p, h_a⟩ := h_a.posting
      obtain ⟨p', h_b⟩ := h_b.posting
      obtain ⟨q, h_c⟩ := h_c.posting
      obtain ⟨q', h_d⟩ := h_d.posting
      obtain ⟨fee, h_e⟩ := h_e.posting
      exact ⟨.send p p' q q' fee, h_fits,
        .cons h_a (.cons h_b (.cons h_c (.cons h_d (.cons h_e .nil))))⟩
    · have h_each := h_fits
      simp only [Slot.ofCall, List.forall₂_cons_left_iff, List.forall₂_nil_left_iff] at h_each
      obtain ⟨a, _, h_a, ⟨b, _, h_b, rfl, rfl⟩, rfl⟩ := h_each
      obtain ⟨p, h_a⟩ := h_a.posting
      obtain ⟨q, h_b⟩ := h_b.posting
      exact ⟨.smartContract p q, h_fits, .cons h_a (.cons h_b .nil)⟩

/-- A list that is not matched is refused with the fault of each intent. -/
theorem ofOperations_eq_error {e : TxError} (h_refused : ofOperations ops = .error e) :
    ∃ sendFault callFault, ofSend ops = .error sendFault ∧
      ofSmartContract ops = .error callFault ∧ e = .unmatched [sendFault, callFault] := by
  unfold ofOperations at h_refused
  split at h_refused
  · cases h_refused
  · next sendFault h_send =>
    split at h_refused
    · cases h_refused
    · next callFault h_call =>
      cases h_refused
      exact ⟨sendFault, callFault, h_send, h_call, rfl⟩

end Intent

/-! ### Entries that are refused -/

section Entries

variable {α : Type} {m : Metadata} {key : String} {op : Operation} {e : TxError}

/-- A refusal blames an entry that stands in the metadata of an operation or of a transaction, but
does not hold what it should. -/
def TxError.Blames (e : TxError) (op : Operation) (m : Metadata) : Prop :=
  ∃ key fault v, e = .invalidEntry key fault ∧
    (op.metadata.bind (·.get? key) = some v ∨ m.get? key = some v)

theorem Metadata.read?_eq_error {reading : Json → Except EntryFault α}
    (h_refused : m.read? key reading = .error e) :
    ∃ fault v, e = .invalidEntry key fault ∧ m.get? key = some v := by
  unfold read? at h_refused
  split at h_refused
  · cases h_refused
  · next v h_present =>
    split at h_refused
    · cases h_refused
    · next fault _ =>
      cases h_refused
      exact ⟨fault, v, rfl, (Option.filter_eq_some_iff.mp h_present).1⟩

theorem Metadata.blames_of_read? {reading : Json → Except EntryFault α}
    (h_refused : m.read? key reading = .error e) (op : Operation) : e.Blames op m := by
  obtain ⟨fault, v, rfl, h_get⟩ := read?_eq_error h_refused
  exact ⟨key, fault, v, rfl, Or.inr h_get⟩

theorem Metadata.blames_of_counterOr {default : UInt64}
    (h_refused : m.counterOr key default = .error e) (op : Operation) : e.Blames op m :=
  blames_of_read? (Outcome.map_eq_error_iff.mp h_refused) op

theorem Metadata.blames_of_bytesOrEmpty (h_refused : m.bytesOrEmpty key = .error e)
    (op : Operation) : e.Blames op m :=
  blames_of_read? (Outcome.map_eq_error_iff.mp h_refused) op

/-- A signing party is refused for one of its entries, or of those of the transaction. -/
theorem Operation.blames_of_input {account : Address} {coins : Coins}
    (h_refused : op.input m account coins = .error e) : e.Blames op m := by
  simp only [input, Outcome.bind_eq_error_iff, pure, Except.pure, reduceCtorEq, and_false,
    exists_false, or_false] at h_refused
  rcases h_refused with h_sequence | ⟨_, -, h_signature⟩
  · -- The sequence is told by the operation, where any entry counts, or by the transaction.
    unfold sequence at h_sequence
    split at h_sequence
    · exact Metadata.blames_of_counterOr h_sequence op
    · next v h_own =>
      split at h_sequence
      · cases h_sequence
      · next fault _ =>
        cases h_sequence
        exact ⟨_, fault, v, rfl, Or.inl h_own⟩
  · -- The signature is told by the operation, where `null` does not count, or by the transaction.
    rw [signature, Outcome.bind_eq_error_iff] at h_signature
    rcases h_signature with h_own | ⟨own, -, h_signature⟩
    · obtain ⟨fault, v, rfl, h_get⟩ := Metadata.read?_eq_error h_own
      cases h_metadata : op.metadata with
      | none =>
        rw [h_metadata] at h_get
        cases h_get
      | some own =>
        rw [h_metadata] at h_get
        exact ⟨_, fault, v, rfl, Or.inl (by rw [h_metadata]; exact h_get)⟩
    · cases own with
      | some bytes => cases h_signature
      | none => exact Metadata.blames_of_bytesOrEmpty h_signature op

end Entries

/-! ### What is built -/

namespace Intent

variable {ops : List Operation} {intent : Intent} {m : Metadata}

/-- A transaction is what an intent was read as: the accounts are those of its legs, and each amount
is the one of its leg without the sign. The fee of a send is in TFUEL and is spent by the input on
top of what its legs say. -/
inductive Makes : Intent → Tx → Prop
  | send {paidTheta paidTfuel receivedTheta receivedTfuel paidFee : Posting} {fee : Coins}
    {i : Tx.Input} {o : Tx.Output}
    (h_fee : fee.theta = 0 ∧
      fee? (.send paidTheta paidTfuel receivedTheta receivedTfuel paidFee) = some (fee.tfuel : Int))
    (h_input : i.address = paidTheta.account ∧ (i.coins.theta : Int) = -paidTheta.value ∧
      (i.coins.tfuel : Int) = -paidTfuel.value + fee.tfuel)
    (h_output : o.address = receivedTheta.account ∧ (o.coins.theta : Int) = receivedTheta.value ∧
      (o.coins.tfuel : Int) = receivedTfuel.value) :
    Makes (.send paidTheta paidTfuel receivedTheta receivedTfuel paidFee) (.send ⟨fee, [i], [o]⟩)
  | smartContract {paid received : Posting} {call : Tx.SmartContract}
    (h_sender : call.sender.address = paid.account ∧ call.sender.coins.theta = 0 ∧
      (call.sender.coins.tfuel : Int) = -paid.value)
    (h_recipient : call.recipient.address = received.account ∧
      call.recipient.coins.theta = 0 ∧ (call.recipient.coins.tfuel : Int) = received.value) :
    Makes (.smartContract paid received) (.smartContract call)

/-- The transaction that an intent makes has its kind and its signer. -/
theorem Makes.kind_eq {tx : Tx} (h_makes : Makes intent tx) :
    tx.kind = intent.kind ∧ tx.signer? = some intent.signer := by
  cases h_makes with
  | send _ h_input _ => exact ⟨rfl, congrArg some h_input.1⟩
  | smartContract h_sender _ => exact ⟨rfl, congrArg some h_sender.1⟩

/-- An outcome is the transaction that an intent makes, or an entry of the metadata is to blame that
it is none. -/
def Carries (intent : Intent) (ops : List Operation) (m : Metadata)
    (outcome : Except TxError Tx) : Prop :=
  (∃ tx, outcome = .ok tx ∧ Makes intent tx) ∨
    ∃ e, outcome = .error e ∧ ∃ op ∈ ops.head?, e.Blames op m

theorem carries_send (h_send : ofSend ops = .ok intent) (h_valid : intent.validate = .ok ())
    (m : Metadata) : intent.Carries ops m (Tx.ofOperations .send ops m) := by
  obtain ⟨a, b, c, d, e, paidTheta, paidTfuel, receivedTheta, receivedTfuel, fee, rfl, h_a, h_b,
    h_c, h_d, h_e, rfl⟩ := ofSend_eq_ok h_send
  obtain ⟨h_payer, h_fee, h_receiver, -⟩ := validate_send_eq_ok h_valid
  obtain ⟨theta, h_theta, h_a⟩ := Slot.exists_moves_of_fill h_a
  obtain ⟨tfuel, h_tfuel, h_b⟩ := Slot.exists_moves_of_fill h_b
  obtain ⟨theta', h_theta', h_c⟩ := Slot.exists_moves_of_fill h_c
  obtain ⟨tfuel', h_tfuel', h_d⟩ := Slot.exists_moves_of_fill h_d
  obtain ⟨fee', h_fee', h_e⟩ := Slot.exists_moves_of_fill h_e
  rw [h_payer] at h_b
  rw [h_receiver] at h_d
  rw [h_fee] at h_e
  simp only [if_true, Bool.false_eq_true, if_false] at h_theta h_tfuel h_theta' h_tfuel' h_fee'
  rw [Tx.ofOperations_send_eq ⟨theta, tfuel⟩ ⟨theta', tfuel'⟩ h_a h_b h_c h_d h_e]
  cases h_input : a.input m paidTheta.account ⟨theta, tfuel⟩ with
  | error blamed =>
    exact Or.inr ⟨blamed, rfl, a, rfl, Operation.blames_of_input h_input⟩
  | ok i =>
    refine Or.inl ⟨_, rfl, .send ⟨rfl, ?_⟩ ⟨(Tx.input_eq_ok h_input).1, ?_, ?_⟩ ⟨rfl, ?_, ?_⟩⟩
    · rw [fee?, h_fee', Int.neg_neg]
      rfl
    · rw [h_theta, Int.neg_neg]
    · -- The fee is spent by the input, but not seen in its leg.
      rw [h_tfuel, Int.neg_neg]
      exact Int.natCast_add tfuel fee'
    · exact h_theta'.symm
    · exact h_tfuel'.symm

theorem carries_call (h_call : ofSmartContract ops = .ok intent) (m : Metadata) :
    intent.Carries ops m (Tx.ofOperations .smartContract ops m) := by
  obtain ⟨a, b, paid, received, rfl, h_a, h_b, rfl⟩ := ofSmartContract_eq_ok h_call
  obtain ⟨n, h_paid, h_a⟩ := Slot.exists_moves_of_fill h_a
  obtain ⟨n', h_received, h_b⟩ := Slot.exists_moves_of_fill h_b
  simp only [if_true, Bool.false_eq_true, if_false] at h_paid h_received
  have h_build := Tx.ofOperations_call_eq (m := m) h_a h_b
  cases h_outcome : Tx.ofOperations .smartContract [a, b] m with
  | ok tx =>
    rw [h_build] at h_outcome
    simp only [Outcome.bind_eq_ok_iff, Outcome.pure_eq_ok_iff] at h_outcome
    obtain ⟨i, h_input, gasLimit, -, gasPrice, -, data, -, rfl⟩ := h_outcome
    obtain ⟨h_address, h_coins⟩ := Tx.input_eq_ok h_input
    refine Or.inl ⟨_, rfl, .smartContract ⟨h_address, ?_, ?_⟩ ⟨rfl, rfl, h_received.symm⟩⟩
    · rw [h_coins]
      rfl
    · rw [h_coins, h_paid, Int.neg_neg]
      rfl
  | error e =>
    refine Or.inr ⟨e, rfl, a, rfl, ?_⟩
    rw [h_build] at h_outcome
    -- What is read is the input and then the settings, and the first fault among these counts.
    simp only [Outcome.bind_eq_error_iff] at h_outcome
    rcases h_outcome with
      h_input | ⟨_, -, h_limit | ⟨_, -, h_price | ⟨_, -, h_data | ⟨_, -, h_done⟩⟩⟩⟩
    · exact Operation.blames_of_input h_input
    · exact Metadata.blames_of_counterOr h_limit a
    · exact Metadata.blames_of_read? h_price a
    · exact Metadata.blames_of_bytesOrEmpty h_data a
    · cases h_done

/-- **What is matched and valid is built**, unless an entry of the metadata is to blame. -/
theorem carries_ofOperations (h_intent : ofOperations ops = .ok intent)
    (h_valid : intent.validate = .ok ()) (m : Metadata) :
    intent.Carries ops m (Tx.ofOperations intent.kind ops m) := by
  have h_read := ofOperations_eq_ok_iff.mp h_intent
  cases intent with
  | send => exact carries_send (ofSend_eq_ok_iff.mpr ⟨h_read, rfl⟩) h_valid m
  | smartContract => exact carries_call (ofSmartContract_eq_ok_iff.mpr ⟨h_read, rfl⟩) m

/-- **What is matched is built.** A list of operations is matched just when it fits the slots of a
send or of a call, and is refused as unmatched otherwise. The legs of the intent are what is read of
the operations. When its accounts are valid, then whatever the metadata the outcome is a transaction
of the same kind and signer that the intent makes, or else an entry is refused, which stands in the
metadata of the first operation or of the transaction. -/
theorem ofOperations_makes (ops : List Operation) (m : Metadata) :
    ((∃ intent, ofOperations ops = .ok intent) ↔
      List.Forall₂ Slot.Fits Slot.ofSend ops ∨ List.Forall₂ Slot.Fits Slot.ofCall ops) ∧
    (∀ e, ofOperations ops = .error e → ∃ faults, e = .unmatched faults) ∧
    ∀ intent, ofOperations ops = .ok intent →
      List.Forall₂ (fun op p => op.posting = .ok p) ops intent.legs ∧
      (intent.validate = .ok () →
        (∃ tx, Tx.ofOperations intent.kind ops m = .ok tx ∧ tx.kind = intent.kind ∧
          tx.signer? = some intent.signer ∧ Makes intent tx) ∨
        ∃ op ∈ ops.head?, ∃ key fault v,
          Tx.ofOperations intent.kind ops m = .error (.invalidEntry key fault) ∧
          (op.metadata.bind (·.get? key) = some v ∨ m.get? key = some v)) := by
  refine ⟨exists_ofOperations_iff, fun e h_refused => ?_, fun intent h_intent => ⟨?_, ?_⟩⟩
  · obtain ⟨sendFault, callFault, -, -, rfl⟩ := ofOperations_eq_error h_refused
    exact ⟨_, rfl⟩
  · exact (ofOperations_eq_ok_iff.mp h_intent).postings
  · intro h_valid
    rcases carries_ofOperations h_intent h_valid m with
      ⟨tx, h_build, h_makes⟩ | ⟨_, h_refused, op, h_head, key, fault, v, rfl, h_entry⟩
    · exact Or.inl ⟨tx, h_build, h_makes.kind_eq.1, h_makes.kind_eq.2, h_makes⟩
    · exact Or.inr ⟨op, h_head, key, fault, v, h_refused, h_entry⟩

open Construction.SampleSend (asked) in
/-- The send in many spellings is built as it is read. -/
theorem ofOperations_makes_spelt :
    ∃ intent, ofOperations asked = .ok intent ∧ intent.validate = .ok () ∧
      intent.fee? = some 3 ∧ Makes intent Construction.SampleSend.send := by
  obtain ⟨intent, h_intent, h_valid, h_fee⟩ : ∃ intent, ofOperations asked = .ok intent ∧
      intent.validate = .ok () ∧ intent.fee? = some 3 := ⟨_, rfl, rfl, rfl⟩
  have h_build : Tx.ofOperations intent.kind asked (.ofList [("sequence", .string "1")]) =
      .ok Construction.SampleSend.send := by
    cases h_intent
    rfl
  rcases ((ofOperations_makes asked (.ofList [("sequence", .string "1")])).2.2
    intent h_intent).2 h_valid with ⟨tx, h_tx, -, -, h_makes⟩ | ⟨_, -, _, _, _, h_refused, -⟩
  · cases h_build.symm.trans h_tx
    exact ⟨intent, h_intent, h_valid, h_fee, h_makes⟩
  · cases h_build.symm.trans h_refused

end Intent

end RosettaGateway
