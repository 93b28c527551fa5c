import RosettaGateway.Proofs.Construction.Flow
import RosettaGateway.Proofs.Construction.Settings
import RosettaGateway.Proofs.Dialogue
import RosettaGateway.Proofs.RoundTrip

/-!
# The steps of a construction agree

What a client asks for goes through three steps before there is a transaction to sign. `preprocess`
hands the settings of the client on as they are spelt; `metadata` reads them, fills in what is
missing for the height of the node, and writes all of them anew, each in its own form; `payloads`
reads them once more, with defaults of its own. In the end the transaction has the values that the
client has chosen, whatever their spelling, and the fee that was suggested is that of the
transaction.

* `Construction.query_against_iff` — what `metadata` asks the node, and what it makes of the
  answers;
* `Construction.get?_written` — what `metadata` writes is found, and there is no signature;
* `Tx.exists_send`, `Tx.exists_call` — what is built from operations without entries of their own;
* `Construction.payloads_of_metadata` — the three steps, one after the other.
-/

namespace RosettaGateway

/-! ### What the node is asked -/

/-- A part that may refuse ends with its result. -/
theorem Query.ends_ofTx_ok_iff {α : Type} {answers : Answers} {outcome : Except TxError α} {a : α} :
    (ofTx outcome).Ends answers (.ok a) ↔ outcome = .ok a := by
  rw [ofTx, ends_ofExcept_iff, eq_comm, Outcome.mapError_eq_ok_iff]

/-- The state of an account, if it has one. -/
def Query.nodeAccount (a : Address) : Query (Option NodeAccount) :=
  find (.account a none) NodeAccount.json fun _ => .accountUnavailable

namespace Construction

variable {options chosen : Metadata} {node : NodeCall → NodeReply} {c : ConstructionMetadata}

/-- **The metadata of a construction** are made of the options and of what the node tells of its
status and of the signer. -/
theorem query_against_iff :
    (ConstructionMetadata.query options).against node = .ok c ↔
      ∃ signer code k status account settings,
        options.address? "signer" = .ok (some signer) ∧
        options.counter? "type" = .ok (some code) ∧ Tx.kindOfCode code = .ok k ∧
        Query.status.against node = .ok status ∧
        (Query.nodeAccount signer).against node = .ok (some account) ∧
        settingsFor k options status.currentHeight = .ok (settings, c.suggestedFee) ∧
        c.metadata = .ofList (("sequence", Counter.toJson (account.sequence + 1)) :: settings) := by
  rw [← Query.ends_fixed_iff, ConstructionMetadata.query]
  simp only [Query.ends_bind_ok_iff, Query.ends_ofTx_ok_iff, Query.ends_demand_ok_iff]
  constructor
  · rintro ⟨_, h_signer, signer, rfl, _, h_code, code, rfl, k, h_kind, status, h_status, _,
      h_account, account, rfl, ⟨settings, fee⟩, h_settings, h_done⟩
    cases Query.ends_pure_iff.mp h_done
    exact ⟨signer, code, k, status, account, settings, h_signer, h_code, h_kind,
      Query.ends_fixed_iff.mp h_status, Query.ends_fixed_iff.mp h_account,
      (Query.ends_ofExcept_iff.mp h_settings).symm, rfl⟩
  · rintro ⟨signer, code, k, status, account, settings, h_signer, h_code, h_kind, h_status,
      h_account, h_settings, h_written⟩
    refine ⟨_, h_signer, signer, rfl, _, h_code, code, rfl, k, h_kind, status,
      Query.ends_fixed_iff.mpr h_status, _, Query.ends_fixed_iff.mpr h_account, account, rfl,
      (settings, c.suggestedFee), Query.ends_ofExcept_iff.mpr h_settings.symm, ?_⟩
    refine Query.ends_pure_iff.mpr ?_
    rw [← h_written]

/-- The settings of a call are those of the client. -/
theorem settingsFor_optionsOf (intent : Intent) (chosen : Metadata) (height : UInt64) :
    settingsFor .smartContract (.ofList (optionsOf intent chosen)) height =
      settingsFor .smartContract chosen height := by
  have h_limit : "gas_limit" ∈ callSettings := by decide
  have h_price : "gas_price" ∈ callSettings := by decide
  have h_data : "data" ∈ callSettings := by decide
  simp only [settingsFor, Metadata.counter?, Metadata.amount?, Metadata.bytes?,
    Metadata.read?_congr (present?_optionsOf h_limit),
    Metadata.read?_congr (present?_optionsOf h_price),
    Metadata.read?_congr (present?_optionsOf h_data)]

theorem settingsFor_send_eq_ok {height : UInt64} {settings : List (String × Json)} {fee : Nat}
    (h_settings : settingsFor .send options height = .ok (settings, fee)) :
    ∃ asked, options.amount? "fee" = .ok asked ∧
      fee = (asked.filter (· ≠ 0)).getD (Chain.minimumSendFee height) ∧
      settings = [("fee", Wei.toJson fee)] := by
  simp only [settingsFor, Outcome.bind_eq_ok_iff, Outcome.mapError_eq_ok_iff,
    Outcome.pure_eq_ok_iff, Prod.mk.injEq] at h_settings
  obtain ⟨asked, h_asked, h_settings, h_fee⟩ := h_settings
  exact ⟨asked, h_asked, h_fee, h_fee ▸ h_settings⟩

theorem settingsFor_smartContract_eq_ok {height : UInt64} {settings : List (String × Json)}
    {fee : Nat} (h_settings : settingsFor .smartContract options height = .ok (settings, fee)) :
    ∃ gasLimit gasPrice data, options.counter? "gas_limit" = .ok gasLimit ∧
      options.amount? "gas_price" = .ok gasPrice ∧ options.bytes? "data" = .ok data ∧
      settings =
        [("gas_limit", .string (Numeral.ofNat
            (gasLimit.getD (Chain.maxGasLimit height)).toNat)),
          ("gas_price", Wei.toJson (gasPrice.getD (Chain.minimumGasPrice height))),
          ("data", .string (Hex.plain (data.getD [])))] ∧
      fee = gasPrice.getD (Chain.minimumGasPrice height) *
        (gasLimit.getD (Chain.maxGasLimit height)).toNat := by
  simp only [settingsFor, Outcome.bind_eq_ok_iff, Outcome.mapError_eq_ok_iff,
    Outcome.pure_eq_ok_iff, Prod.mk.injEq] at h_settings
  obtain ⟨gasLimit, h_limit, gasPrice, h_price, data, h_data, h_settings, h_fee⟩ := h_settings
  exact ⟨gasLimit, gasPrice, data, h_limit, h_price, h_data, h_settings, h_fee⟩

end Construction

/-! ### What is built -/

/-- An operation without entries of its own is signed for with the sequence of the transaction, and
with no signature if the transaction brings none. -/
theorem Operation.input_of_plain {op : Operation} {m : Metadata} {n : UInt64}
    (h_plain : op.metadata.getD .empty = .empty)
    (h_sequence : m.get? "sequence" = some (Counter.toJson n))
    (h_signature : m.get? "signature" = none) (account : Address) (coins : Coins) :
    op.input m account coins = .ok ⟨account, coins, n, []⟩ := by
  -- An entry that is `null` would count, so there must be none at all.
  have h_own : op.metadata.bind (·.get? "sequence") = none := by
    cases h_metadata : op.metadata with
    | none => rfl
    | some own =>
      obtain rfl : own = .empty := by rwa [h_metadata] at h_plain
      rfl
  have h_seq : op.sequence m = .ok n := by
    simp only [Operation.sequence, h_own, Metadata.counterOr_of_get? h_sequence]
  have h_sig : op.signature m = .ok [] := by
    rw [Operation.signature, h_plain]
    exact Metadata.bytesOrEmpty_of_absent h_signature
  rw [Operation.input, h_seq, h_sig]
  rfl

namespace Tx

open Operation (Moves)

variable {ops : List Operation} {signer : Address} {legs : List Leg} {m : Metadata} {n : UInt64}

/-- The send that is asked for is built. Its fee is that of the last operation. -/
theorem exists_send (h_asks : Intent.Asks .send signer legs)
    (h_moves : List.Forall₂ Moves ops legs)
    (h_plain : ∀ op ∈ ops, op.metadata.getD .empty = .empty)
    (h_sequence : m.get? "sequence" = some (Counter.toJson n))
    (h_signature : m.get? "signature" = none) :
    ∃ (coins : Coins) (outputs : List Output) (fee : Nat) (op : Operation),
      ofOperations .send ops m =
        .ok (.send ⟨.ofTfuel fee, [⟨signer, coins, n, []⟩], outputs⟩) ∧
      op ∈ ops.getLast? ∧ op.type = OperationType.fee.name ∧ op.value = .ok (-(fee : Int)) := by
  cases h_asks with
  | send payer receiver spent received fee =>
    obtain ⟨first, h_first, last, h_last, h_fee, h_eq⟩ := send_of_moves h_moves
    have h_input := Operation.input_of_plain (h_plain first (List.mem_of_mem_head? h_first))
      h_sequence h_signature signer spent
    have h_build := h_eq m
    rw [h_input] at h_build
    obtain ⟨h_type, -, -, h_value⟩ := h_fee.reads
    exact ⟨⟨spent.theta, spent.tfuel + fee⟩, [⟨receiver, received⟩], fee, last, h_build, h_last,
      h_type, h_value⟩

/-- The call that is asked for is built, with the settings of the metadata. -/
theorem exists_call {gasLimit : UInt64} {gasPrice : Nat} {data : Octets}
    (h_asks : Intent.Asks .smartContract signer legs) (h_moves : List.Forall₂ Moves ops legs)
    (h_plain : ∀ op ∈ ops, op.metadata.getD .empty = .empty)
    (h_sequence : m.get? "sequence" = some (Counter.toJson n))
    (h_signature : m.get? "signature" = none)
    (h_limit : m.counterOr "gas_limit" Chain.defaultGasLimit = .ok gasLimit)
    (h_price : m.amount? "gas_price" = .ok (some gasPrice))
    (h_data : m.bytesOrEmpty "data" = .ok data) :
    ∃ (coins : Coins) (recipient : Output), ofOperations .smartContract ops m =
      .ok (.smartContract ⟨⟨signer, coins, n, []⟩, recipient, gasLimit, gasPrice, data⟩) := by
  cases h_asks with
  | smartContract sender recipient paid received =>
    obtain ⟨first, h_first, h_eq⟩ := call_of_moves h_moves
    have h_input := Operation.input_of_plain (h_plain first (List.mem_of_mem_head? h_first))
      h_sequence h_signature signer (.ofTfuel paid)
    have h_build := h_eq m
    simp only [h_input, h_limit, h_price, h_data, bind, Except.bind, pure, Except.pure,
      Option.getD_some] at h_build
    exact ⟨.ofTfuel paid, ⟨recipient, .ofTfuel received⟩, h_build⟩

end Tx

/-- The fee that a send is said to have is what its last operation pays. -/
theorem Intent.fee?_of_value {ops : List Operation} {intent : Intent} {op : Operation} {i : Int}
    (h_intent : ofOperations ops = .ok intent) (h_kind : intent.kind = .send)
    (h_last : op ∈ ops.getLast?) (h_value : op.value = .ok i) : intent.fee? = some (-i) := by
  unfold ofOperations at h_intent
  split at h_intent
  · next h_send =>
    cases h_intent
    obtain ⟨a, b, c, d, e, _, _, _, _, fee, rfl, -, -, -, -, h_fill, rfl⟩ := ofSend_eq_ok h_send
    obtain ⟨-, h_posting, -, -⟩ := Slot.fill_eq_ok_iff.mp h_fill
    obtain ⟨-, -, h_paid, -⟩ := Operation.posting_eq_ok_iff.mp h_posting
    cases h_last
    cases h_paid.symm.trans h_value
    rfl
  · -- A call has no fee of this kind.
    split at h_intent
    · next h_call =>
      cases h_intent
      obtain ⟨_, _, _, _, -, -, -, rfl⟩ := ofSmartContract_eq_ok h_call
      cases h_kind
    · cases h_intent

namespace Construction

variable {ops : List Operation} {caller : Option Metadata} {options chosen : Metadata}
  {node : NodeCall → NodeReply} {c : ConstructionMetadata} {status : NodeStatus} {signer : Address}
  {account : NodeAccount}

/-- A transaction waits for its signer: all its inputs are to be signed with the same sequence, and
nobody has signed them. -/
structure Prepared (signer : Address) (sequence : UInt64) (tx : Tx) : Prop where
  signer_eq : tx.signer? = some signer
  inputs_ne : tx.signingInputs ≠ []
  sequence_eq : ∀ i ∈ tx.signingInputs, i.sequence = sequence
  signature_eq : ∀ i ∈ tx.signingInputs, i.signature = []

theorem prepared_of_single {tx : Tx} {coins : Coins} {sequence : UInt64}
    (h_signer : tx.signer? = some signer)
    (h_inputs : tx.signingInputs = [⟨signer, coins, sequence, []⟩]) :
    Prepared signer sequence tx where
  signer_eq := h_signer
  inputs_ne := by
    rw [h_inputs]
    exact List.cons_ne_nil _ _
  sequence_eq i h_mem := by
    rw [h_inputs] at h_mem
    rw [List.mem_singleton.mp h_mem]
  signature_eq i h_mem := by
    rw [h_inputs] at h_mem
    rw [List.mem_singleton.mp h_mem]

/-- What was suggested for a transaction is what it costs: for a send the fee that the last
operation pays, unless it is zero, and for a call the price of all the gas it may use. -/
inductive Quoted (ops : List Operation) (chosen : Metadata) (height : UInt64) : Tx → Nat → Prop
  | send {body : Tx.Send} {op : Operation} {fee : Nat} (h_last : op ∈ ops.getLast?)
    (h_type : op.type = OperationType.fee.name) (h_value : op.value = .ok (-(fee : Int)))
    (h_fee : body.fee = .ofTfuel fee) :
    Quoted ops chosen height (.send body) (if fee = 0 then Chain.minimumSendFee height else fee)
  | smartContract {call : Tx.SmartContract} (h_heeds : Heeds chosen height call) :
    Quoted ops chosen height (.smartContract call) (call.gasLimit.toNat * call.gasPrice)

theorem Quoted.heeds {height : UInt64} {call : Tx.SmartContract} {suggested : Nat}
    (h_quoted : Quoted ops chosen height (.smartContract call) suggested) :
    Heeds chosen height call := by
  generalize h_tx : Tx.smartContract call = tx at h_quoted
  cases h_quoted with
  | send => cases h_tx
  | smartContract h_heeds =>
    cases h_tx
    exact h_heeds

section Written

variable {sequence height : UInt64} {settings : List (String × Json)} {suggested : Nat}
  {intent : Intent} {legs : List Leg} {m : Metadata}

/-- Each kind has settings of its own. -/
theorem keys_settingsFor {k : Tx.Kind}
    (h_settings : settingsFor k options height = .ok (settings, suggested)) :
    (settings.map Prod.fst).Sublist ["fee", "gas_limit", "gas_price", "data"] := by
  cases k with
  | send =>
    obtain ⟨_, -, -, rfl⟩ := settingsFor_send_eq_ok h_settings
    exact List.singleton_sublist.mpr List.mem_cons_self
  | smartContract =>
    obtain ⟨_, _, _, -, -, -, rfl, -⟩ := settingsFor_smartContract_eq_ok h_settings
    exact List.sublist_cons_self "fee" _
  | _ => cases h_settings

/-- What `metadata` writes is found: the next sequence and the settings. There is no signature. -/
theorem get?_written {k : Tx.Kind}
    (h_settings : settingsFor k options height = .ok (settings, suggested))
    (h_written : m = .ofList (("sequence", Counter.toJson sequence) :: settings)) :
    m.get? "sequence" = some (Counter.toJson sequence) ∧ m.get? "signature" = none ∧
      ∀ key v, (key, v) ∈ settings → m.get? key = some v := by
  subst h_written
  have h_keys : ((("sequence", Counter.toJson sequence) :: settings).map Prod.fst).Sublist
      ["sequence", "fee", "gas_limit", "gas_price", "data"] :=
    (keys_settingsFor h_settings).cons_cons "sequence"
  have h_nodup := h_keys.nodup (by decide)
  have h_unsigned : "signature" ∉
      (("sequence", Counter.toJson sequence) :: settings).map Prod.fst :=
    fun h_in => absurd (h_keys.subset h_in) (by decide)
  exact ⟨Metadata.get?_ofList_of_mem h_nodup List.mem_cons_self,
    Metadata.get?_ofList_of_not_mem h_unsigned,
    fun _ _ h_mem => Metadata.get?_ofList_of_mem h_nodup (List.mem_cons_of_mem _ h_mem)⟩

/-- The metadata of a send lead to the send that is asked for, at the fee that was suggested. -/
theorem exists_quoted_send (h_intent : Intent.ofOperations ops = .ok intent)
    (h_kind : intent.kind = .send) (h_asks : Intent.Asks .send signer legs)
    (h_moves : List.Forall₂ Operation.Moves ops legs)
    (h_plain : ∀ op ∈ ops, op.metadata.getD .empty = .empty)
    (h_settings : settingsFor .send (.ofList (optionsOf intent chosen)) height =
      .ok (settings, suggested))
    (h_written : m = .ofList (("sequence", Counter.toJson sequence) :: settings)) :
    ∃ tx, Tx.ofOperations .send ops m = .ok tx ∧ tx.kind = .send ∧ Prepared signer sequence tx ∧
      Quoted ops chosen height tx suggested := by
  obtain ⟨h_sequence, h_signature, -⟩ := get?_written h_settings h_written
  obtain ⟨asked, h_asked, h_suggested, rfl⟩ := settingsFor_send_eq_ok h_settings
  obtain ⟨coins, outputs, fee, op, h_build, h_last, h_type, h_value⟩ :=
    Tx.exists_send h_asks h_moves h_plain h_sequence h_signature
  -- The options name the fee of the last operation, and a fee of zero asks for the least one.
  have h_fee : intent.fee? = some (fee : Int) := by
    rw [Intent.fee?_of_value h_intent h_kind h_last h_value, Int.neg_neg]
  obtain rfl : asked = some fee := Except.ok.inj (h_asked.symm.trans (amount?_fee h_fee chosen))
  have h_suggested : suggested = if fee = 0 then Chain.minimumSendFee height else fee := by
    rw [h_suggested, Option.filter_some]
    by_cases h_zero : fee = 0 <;> simp [h_zero]
  rw [h_suggested]
  exact ⟨_, h_build, rfl, prepared_of_single rfl rfl, .send h_last h_type h_value rfl⟩

/-- The metadata of a call lead to the call that is asked for, with the settings of the client. -/
theorem exists_quoted_call (h_asks : Intent.Asks .smartContract signer legs)
    (h_moves : List.Forall₂ Operation.Moves ops legs)
    (h_plain : ∀ op ∈ ops, op.metadata.getD .empty = .empty)
    (h_settings : settingsFor .smartContract (.ofList (optionsOf intent chosen)) height =
      .ok (settings, suggested))
    (h_written : m = .ofList (("sequence", Counter.toJson sequence) :: settings)) :
    ∃ tx, Tx.ofOperations .smartContract ops m = .ok tx ∧ tx.kind = .smartContract ∧
      Prepared signer sequence tx ∧ Quoted ops chosen height tx suggested := by
  obtain ⟨h_sequence, h_signature, h_entries⟩ := get?_written h_settings h_written
  rw [settingsFor_optionsOf] at h_settings
  obtain ⟨limit, price, data, h_limit, h_price, h_data, rfl, rfl⟩ :=
    settingsFor_smartContract_eq_ok h_settings
  -- Each setting is read as it was written.
  have h_limit' := Metadata.read?_of_get? (h_entries _ _ List.mem_cons_self) rfl
    (Metadata.readCounter_decimal (limit.getD (Chain.maxGasLimit height)))
  have h_price' := Metadata.amount?_of_get?
    (h_entries _ _ (List.mem_cons_of_mem _ List.mem_cons_self))
  have h_data' := Metadata.read?_of_get?
    (h_entries _ _ (List.mem_cons_of_mem _ (List.mem_cons_of_mem _ List.mem_cons_self))) rfl
    (Json.SpellsBytes.plain (data.getD [])).readBytes
  obtain ⟨coins, recipient, h_build⟩ := Tx.exists_call h_asks h_moves h_plain h_sequence
    h_signature (congrArg (Except.map (Option.getD · Chain.defaultGasLimit)) h_limit') h_price'
    (congrArg (Except.map (Option.getD · [])) h_data')
  -- And what was written is what the client has chosen, with the defaults for the height.
  have h_heeds : Heeds chosen height
      ⟨⟨signer, coins, sequence, []⟩, recipient, limit.getD (Chain.maxGasLimit height),
        price.getD (Chain.minimumGasPrice height), data.getD []⟩ :=
    ⟨Metadata.chosen_of_read? h_limit _, Metadata.chosen_of_read? h_price _,
      Metadata.chosen_of_read? h_data _⟩
  rw [Nat.mul_comm]
  exact ⟨_, h_build, rfl, prepared_of_single rfl rfl, .smartContract h_heeds⟩

/-- The metadata lead to the transaction that is asked for, whatever its kind. -/
theorem exists_quoted (h_intent : intentOf ops = .ok intent)
    (h_plain : ∀ op ∈ ops, op.metadata.getD .empty = .empty)
    (h_settings : settingsFor intent.kind (.ofList (optionsOf intent chosen)) height =
      .ok (settings, suggested))
    (h_written : m = .ofList (("sequence", Counter.toJson sequence) :: settings)) :
    ∃ tx, Tx.ofOperations intent.kind ops m = .ok tx ∧ tx.kind = intent.kind ∧
      Prepared intent.signer sequence tx ∧ Quoted ops chosen height tx suggested := by
  obtain ⟨h_ops, h_valid⟩ := intentOf_eq_ok_iff.mp h_intent
  obtain ⟨legs, h_asks, h_moves⟩ := Intent.exists_asks h_ops h_valid
  rcases kind_of_asks h_asks with h_send | h_call
  · rw [h_send] at h_asks h_settings ⊢
    exact exists_quoted_send h_ops h_send h_asks h_moves h_plain h_settings h_written
  · rw [h_call] at h_asks h_settings ⊢
    exact exists_quoted_call h_asks h_moves h_plain h_settings h_written

end Written

/-- **The steps of a construction agree.** Take operations without metadata of their own that
`preprocess` accepts, and a node that lets `metadata` succeed on the options, where it tells its
status and the state of the signer. Then `payloads` succeeds on the operations with these metadata.
The transaction has the kind and the signer that the options name, nobody has signed it, and each
input carries the sequence behind the one of the account. What was suggested is what it costs.

For a call the settings of the client hold in whatever spelling: gas limit and gas price as a
number, in decimal or in marked hexadecimal, and data in hexadecimal with or without a marker. -/
theorem payloads_of_metadata (h_plain : ∀ op ∈ ops, op.metadata.getD .empty = .empty)
    (h_options : preprocess ops caller = .ok options)
    (h_metadata : (ConstructionMetadata.query options).against node = .ok c)
    (h_status : Query.status.against node = .ok status)
    (h_signer : options.address? "signer" = .ok (some signer))
    (h_account : (Query.nodeAccount signer).against node = .ok (some account))
    (h_sequence : account.sequence.toNat < 2 ^ 64 - 1) (chainId : String) :
    ∃ tx : Tx,
      payloads chainId ops c.metadata = .ok (Hex.plain tx.toBytes, ⟨.ofAddress signer,
        Hex.plain (keccak256 (tx.signBytes chainId)).bytes, signatureType⟩) ∧
      (tx.toBytes.length < 2 ^ 64 → txOf (Hex.plain tx.toBytes) = .ok tx) ∧
      options.counter? "type" = .ok (some tx.kind.code.toUInt64) ∧
      Prepared signer (account.sequence + 1) tx ∧
      (account.sequence + 1).toNat = account.sequence.toNat + 1 ∧
      Quoted ops (caller.getD .empty) status.currentHeight tx c.suggestedFee ∧
      ∀ call, tx = .smartContract call → ∀ v,
        (∀ n, (caller.getD .empty).get? "gas_limit" = some v → v.Spells n →
          call.gasLimit.toNat = n) ∧
        (∀ n, (caller.getD .empty).get? "gas_price" = some v → v.Spells n → call.gasPrice = n) ∧
        ∀ bytes, (caller.getD .empty).get? "data" = some v → v.SpellsBytes bytes →
          call.data = bytes := by
  obtain ⟨intent, h_intent, rfl⟩ := preprocess_eq_ok_iff.mp h_options
  obtain ⟨_, _, k, _, _, settings, h_found, h_code, h_kind, h_told, h_state, h_settings,
    h_written⟩ := query_against_iff.mp h_metadata
  -- What `metadata` has asked for is what is said of the node.
  cases h_signer.symm.trans h_found
  cases h_status.symm.trans h_told
  cases h_account.symm.trans h_state
  cases h_signer.symm.trans (address?_signer intent (caller.getD .empty))
  cases h_code.symm.trans (counter?_type intent (caller.getD .empty))
  cases h_kind.symm.trans (Tx.kindOfCode_code intent.kind)
  -- The sequence does not wrap around.
  have h_next : (account.sequence + 1).toNat = account.sequence.toNat + 1 := by
    rw [UInt64.toNat_add, UInt64.toNat_one, Nat.mod_eq_of_lt (by omega)]
  have h_demand : Metadata.demand "sequence" (c.metadata.counter? "sequence") =
      .ok (account.sequence + 1) := by
    obtain ⟨h_get, -⟩ := get?_written h_settings h_written
    rw [Metadata.counter?, Metadata.read?_of_get? h_get rfl (Metadata.readCounter_toJson _)]
    rfl
  obtain ⟨tx, h_build, h_same, h_prepared, h_quoted⟩ :=
    exists_quoted h_intent h_plain h_settings h_written
  refine ⟨tx, payloads_eq_ok_iff.mpr ⟨intent, _, tx, h_intent, h_demand, h_build, rfl, rfl⟩,
    txOf_plain tx, by rw [h_same]; exact h_code, h_prepared, h_next, h_quoted, ?_⟩
  rintro call rfl v
  have h_heeds := h_quoted.heeds
  exact ⟨fun _ => h_heeds.toNat_gasLimit, fun _ => h_heeds.gasPrice_eq, fun _ => h_heeds.data_eq⟩

end Construction

/-! ### A call with settings in many spellings -/

namespace Construction.SampleSettings

open SampleCall (asked signer)

/-- The settings of a client: marked hexadecimal, a number, and digits without a marker. -/
def settings : Metadata :=
  .ofList [("gas_limit", .string "0x5208"), ("gas_price", .ofNat 4), ("data", .string "00ff")]

/-- A node that tells a height and the sequence of every account. -/
def node : NodeCall → NodeReply
  | .status => .ok (.object [("current_height", .string "7")])
  | _ => .ok (.object [("sequence", .string "41")])

theorem intentOf_asked : ∃ intent, intentOf asked = .ok intent ∧ intent.kind = .smartContract ∧
    intent.signer = signer :=
  ⟨_, rfl, rfl, rfl⟩

theorem against_status : ∃ status, Query.status.against node = .ok status :=
  ⟨_, rfl⟩

theorem against_account : (Query.nodeAccount signer).against node = .ok (some ⟨41, {}⟩) := rfl

theorem settingsFor_eq (height : UInt64) :
    ∃ written, settingsFor .smartContract settings height = .ok (written, 84000) := by
  have h_limit : settings.counter? "gas_limit" = .ok (some 21000) := rfl
  have h_price : settings.amount? "gas_price" = .ok (some 4) := rfl
  have h_data : settings.bytes? "data" = .ok (some [0x00, 0xff]) := rfl
  simp only [settingsFor, h_limit, h_price, h_data, bind, Except.bind, Except.mapError, pure,
    Except.pure, Option.getD_some]
  exact ⟨_, rfl⟩

/-- The call has the gas limit, the gas price and the data that were chosen, whatever their
spelling. -/
theorem payloads_of_metadata_spelt :
    ∃ (options : Metadata) (c : ConstructionMetadata),
      preprocess asked (some settings) = .ok options ∧
      (ConstructionMetadata.query options).against node = .ok c ∧ c.suggestedFee = 84000 ∧
      ∃ (call : Tx.SmartContract) (payload : SigningPayload),
        payloads "tn" asked c.metadata =
          .ok (Hex.plain (Tx.smartContract call).toBytes, payload) ∧
        call.sender.address = signer ∧ call.sender.sequence = 42 ∧
        call.gasLimit.toNat = 0x5208 ∧ call.gasPrice = 4 ∧ call.data = [0x00, 0xff] := by
  obtain ⟨intent, h_intent, h_kind, h_signer⟩ := intentOf_asked
  obtain ⟨status, h_status⟩ := against_status
  obtain ⟨written, h_settings⟩ := settingsFor_eq status.currentHeight
  have h_options : preprocess asked (some settings) = .ok (.ofList (optionsOf intent settings)) :=
    preprocess_eq_ok_iff.mpr ⟨intent, h_intent, rfl⟩
  have h_named := address?_signer intent settings
  have h_type := counter?_type intent settings
  rw [h_signer] at h_named
  rw [h_kind] at h_type
  have h_code := Tx.kindOfCode_code .smartContract
  have h_metadata : (ConstructionMetadata.query (.ofList (optionsOf intent settings))).against
      node = .ok ⟨.ofList (("sequence", Counter.toJson 42) :: written), 84000⟩ :=
    query_against_iff.mpr ⟨signer, _, .smartContract, status, ⟨41, {}⟩, written, h_named, h_type,
      h_code, h_status, against_account,
      (settingsFor_optionsOf intent settings _).trans h_settings, rfl⟩
  -- The operations have no entries of their own, which would count first.
  have h_plain : ∀ op ∈ asked, op.metadata.getD .empty = .empty := by
    intro op h_mem
    rcases List.mem_pair.mp h_mem with rfl | rfl <;> rfl
  obtain ⟨tx, h_payloads, -, h_same, h_prepared, -, -, h_chosen⟩ := payloads_of_metadata h_plain
    h_options h_metadata h_status h_named against_account (by decide) "tn"
  -- A call was prepared, so what is built is a call.
  rw [Option.some.inj (Except.ok.inj (h_type.symm.trans h_same)),
    Tx.kindOfCode_code] at h_code
  obtain ⟨call, rfl⟩ : ∃ call, tx = .smartContract call := by
    cases tx with
    | smartContract call => exact ⟨call, rfl⟩
    | _ => cases h_code
  exact ⟨_, _, h_options, h_metadata, rfl, call, _, h_payloads,
    Option.some.inj h_prepared.signer_eq, h_prepared.sequence_eq _ List.mem_cons_self,
    (h_chosen call rfl _).1 0x5208 rfl (.hexadecimal 0x5208),
    (h_chosen call rfl _).2.1 4 rfl (.number 4),
    (h_chosen call rfl _).2.2 [0x00, 0xff] rfl (.plain [0x00, 0xff])⟩

end Construction.SampleSettings

end RosettaGateway
