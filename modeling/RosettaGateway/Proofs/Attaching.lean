import RosettaGateway.Proofs.Layout
import RosettaGateway.Proofs.Signing

/-!
# A signature changes nothing else

A signature is put on the inputs of an account, and each kind of transaction has inputs of its own.
What stays is said kind by kind (`Tx.SameBut`), so that an input that is forgotten, or a field that
is changed on the way, would be seen:

* `Tx.sameBut_iff` — to change the signing inputs is to change all inputs and no other field;
* `Tx.map_mapMetadata_legs_mapInputs` — an account that signs is seen in the metadata of its legs
  and nowhere else; this holds for whatever is looked at in the metadata but signatures;
* `Tx.isSigned_setSignature_iff` — what makes a transaction signed;
* `Tx.setSignature_only` — all that a signature does.
-/

namespace RosettaGateway

namespace Tx

/-! ### Transactions that differ in their inputs -/

/-- Two transactions of one kind are the same but for the inputs that carry signatures, which are
related one by one. -/
inductive SameBut (R : Input → Input → Prop) : Tx → Tx → Prop
  | coinbase {body : Coinbase} {i : Input} (h_input : R body.proposer i) :
      SameBut R (.coinbase body) (.coinbase { body with proposer := i })
  | slash {body : Slash} {i : Input} (h_input : R body.proposer i) :
      SameBut R (.slash body) (.slash { body with proposer := i })
  | send {body : Send} {inputs : List Input} (h_inputs : List.Forall₂ R body.inputs inputs) :
      SameBut R (.send body) (.send { body with inputs })
  | reserveFund {body : ReserveFund} {i : Input} (h_input : R body.source i) :
      SameBut R (.reserveFund body) (.reserveFund { body with source := i })
  | releaseFund {body : ReleaseFund} {i : Input} (h_input : R body.source i) :
      SameBut R (.releaseFund body) (.releaseFund { body with source := i })
  | servicePayment {body : ServicePayment} {i i' : Input} (h_source : R body.source i)
      (h_target : R body.target i') :
      SameBut R (.servicePayment body) (.servicePayment { body with source := i, target := i' })
  | splitRule {body : SplitRule} {i : Input} (h_input : R body.initiator i) :
      SameBut R (.splitRule body) (.splitRule { body with initiator := i })
  | smartContract {body : SmartContract} {i : Input} (h_input : R body.sender i) :
      SameBut R (.smartContract body) (.smartContract { body with sender := i })
  | depositStake {body : DepositStake} {i : Input} (h_input : R body.source i) :
      SameBut R (.depositStake body) (.depositStake { body with source := i })
  | withdrawStake {body : WithdrawStake} {i : Input} (h_input : R body.source i) :
      SameBut R (.withdrawStake body) (.withdrawStake { body with source := i })
  | depositStakeV2 {body : DepositStakeV2} {i : Input} (h_input : R body.source i) :
      SameBut R (.depositStakeV2 body) (.depositStakeV2 { body with source := i })
  | stakeRewardDistribution {body : StakeRewardDistribution} {i : Input}
      (h_input : R body.holder i) :
      SameBut R (.stakeRewardDistribution body)
        (.stakeRewardDistribution { body with holder := i })

/-- A relation that is a function on inputs leaves one transaction: all inputs are changed, and
nothing else is. -/
theorem sameBut_iff {f : Input → Input} {tx tx' : Tx} :
    tx.SameBut (fun i i' => i' = f i) tx' ↔ tx' = tx.mapInputs f := by
  constructor
  · intro h_same
    -- A send has a list of inputs and a service payment two of them; any other kind has one.
    cases h_same with
    | send h_inputs =>
      have h_map : List.Forall₂ (· = ·) _ _ := List.forall₂_map_left_iff.mpr
        (h_inputs.imp fun _ _ h_input => h_input.symm)
      rw [List.forall₂_eq_eq_eq] at h_map
      rw [mapInputs, ← h_map]
    | servicePayment h_source h_target =>
      subst h_source h_target
      rfl
    | _ h_input =>
      subst h_input
      rfl
  · rintro rfl
    cases tx with
    | send body =>
      exact .send (List.forall₂_map_right_iff.mpr (List.forall₂_same.mpr fun _ _ => rfl))
    | servicePayment body => exact .servicePayment rfl rfl
    | _ body => constructor; rfl

/-! ### Legs -/

end Tx

/-- A leg with other metadata. -/
def Leg.mapMetadata (g : Option Metadata → Option Metadata) (leg : Leg) : Leg :=
  { leg with metadata := g leg.metadata }

/-- What changes the metadata of operations changes those of legs. -/
theorem Operation.map_ofLegs {g : Option Metadata → Option Metadata} {f : Operation → Operation}
    (h_metadata : ∀ leg status i, f (Leg.operation leg status i) =
      (leg.mapMetadata g).operation status i) (status : Option String) (legs : List Leg) :
    (ofLegs status legs).map f = ofLegs status (legs.map (Leg.mapMetadata g)) := by
  apply List.ext_getElem?
  intro i
  rw [ofLegs, ofLegs, List.getElem?_map, List.getElem?_mapIdx, List.getElem?_mapIdx,
    List.getElem?_map]
  cases legs[i]? with
  | none => rfl
  | some leg => exact congrArg some (h_metadata leg status i)

namespace Tx

section Inputs

variable {f : Input → Input} {g : Option Metadata → Option Metadata}

/-- A change of signatures alone leaves the account and the coins of an input. -/
theorem Input.eq_of_signature_only
    (h_only : ∀ i, { f i with signature := [] } = { i with signature := [] }) (i : Input) :
    (f i).address = i.address ∧ (f i).coins = i.coins := by
  have h_address := congrArg Input.address (h_only i)
  have h_coins := congrArg Input.coins (h_only i)
  exact ⟨h_address, h_coins⟩

theorem map_mapMetadata_partyLegs (g : Option Metadata → Option Metadata) (type : OperationType)
    (account : Address) (coins : Coins) (outgoing : Bool) (metadata : Option Metadata) :
    (partyLegs type account coins outgoing metadata).map (Leg.mapMetadata g) =
      partyLegs type account coins outgoing (g metadata) := by
  rw [partyLegs, partyLegs, List.map_map]
  rfl

variable (h_only : ∀ i, { f i with signature := [] } = { i with signature := [] })
  (h_view : ∀ i, g (some (f i).metadata) = g (some i.metadata))

include h_only h_view

theorem map_mapMetadata_inputAndFee (type : OperationType) (i : Input) (fee : Coins) :
    (inputAndFee type (f i) fee).map (Leg.mapMetadata g) =
      (inputAndFee type i fee).map (Leg.mapMetadata g) := by
  obtain ⟨h_address, h_coins⟩ := Input.eq_of_signature_only h_only i
  have h_legs : (inputLegs type (f i)).map (Leg.mapMetadata g) =
      (inputLegs type i).map (Leg.mapMetadata g) := by
    rw [inputLegs, inputLegs, map_mapMetadata_partyLegs, map_mapMetadata_partyLegs, h_address,
      h_coins, h_view]
  have h_empty : (inputLegs type (f i)).isEmpty = (inputLegs type i).isEmpty := by
    rw [← List.isEmpty_map, h_legs, List.isEmpty_map]
  rw [inputAndFee, inputAndFee, List.map_append, List.map_append, h_legs, h_empty, h_address]
  -- The input signs on the fee when it has no other leg.
  split
  · simp only [List.map_singleton, Leg.mapMetadata, feeLeg, h_view]
  · rfl

theorem Send.map_mapMetadata_inputPair (i : Input) (apart : Nat) :
    (inputPair (f i) apart).map (Leg.mapMetadata g) =
      (inputPair i apart).map (Leg.mapMetadata g) := by
  obtain ⟨h_address, h_coins⟩ := Input.eq_of_signature_only h_only i
  simp only [inputPair, List.map_cons, List.map_nil, Leg.mapMetadata, thetaLeg, tfuelLeg, h_address,
    h_coins, h_view]

/-- **A change of signatures alone** is seen in the metadata of legs and nowhere else, and there only
by who looks at signatures. -/
theorem map_mapMetadata_legs_mapInputs (context : TxContext) (tx : Tx) :
    ((tx.mapInputs f).legs context).map (Leg.mapMetadata g) =
      (tx.legs context).map (Leg.mapMetadata g) := by
  have h_address : ∀ i, (f i).address = i.address := fun i =>
    (Input.eq_of_signature_only h_only i).1
  have h_coins : ∀ i, (f i).coins = i.coins := fun i => (Input.eq_of_signature_only h_only i).2
  have h_pair := Send.map_mapMetadata_inputPair h_only h_view
  have h_party := map_mapMetadata_inputAndFee h_only h_view
  cases tx with
  | send body =>
    obtain ⟨fee, inputs, outputs⟩ := body
    cases inputs with
    | nil => rfl
    | cons payer others =>
      -- The first input stands apart, for its leg is shown without the fee.
      have h_others :
          (others.map f).flatMap (fun i => (Send.inputPair i 0).map (Leg.mapMetadata g)) =
            others.flatMap fun i => (Send.inputPair i 0).map (Leg.mapMetadata g) := by
        rw [List.flatMap_map]
        exact congrArg (others.flatMap ·) (funext fun i => h_pair i 0)
      simp only [mapInputs, legs, Send.legs, List.map_cons, List.map_append, List.map_flatMap,
        h_pair, h_others, h_address]
  | reserveFund body => exact h_party _ body.source body.fee
  | releaseFund body => exact h_party _ body.source body.fee
  | depositStake body => exact h_party _ body.source body.fee
  | depositStakeV2 body => exact h_party _ body.source body.fee
  | smartContract body =>
    simp only [mapInputs, legs, SmartContract.effectLegs, SmartContract.intentLegs, h_address,
      h_coins]
    split
    · rfl
    · -- The metadata of the sender is on a leg in THETA only when there is one.
      split <;> simp only [List.map_append, List.map_cons, List.map_nil, Leg.mapMetadata, thetaLeg,
        tfuelLeg, h_view]
  | _ =>
    simp only [mapInputs, legs, List.map_append, List.map_cons, List.map_nil, Leg.mapMetadata,
      thetaLeg, tfuelLeg, feeLeg, h_address, h_coins, h_view]

end Inputs

end Tx

/-! ### What is seen of a signature -/

/-- Metadata without the entry of the signature. -/
def Metadata.withoutSignature (m : Metadata) : Metadata :=
  ⟨m.entries.filter fun e => e.1 ≠ "signature", (List.filter_sublist.map Prod.fst).nodup m.nodup⟩

/-- An operation without the signature in its metadata. -/
def Operation.withoutSignature (op : Operation) : Operation :=
  { op with metadata := op.metadata.map Metadata.withoutSignature }

namespace Tx

variable {tx : Tx} {a : Address} {signature : Octets}

/-- The sequence is all that the metadata of an input tells besides the signature. -/
theorem Input.withoutSignature_metadata (i : Input) :
    i.metadata.withoutSignature = .ofList [("sequence", Counter.toJson i.sequence)] := rfl

/-- The operations of a transaction are the same with another signature, but for the entries of
signatures in their metadata. -/
theorem map_withoutSignature_operations_setSignature (tx : Tx) (a : Address) (signature : Octets)
    (context : TxContext) :
    ((tx.setSignature a signature).describe context).operations.map Operation.withoutSignature =
      (tx.describe context).operations.map Operation.withoutSignature := by
  have h_operation : ∀ leg status i, Operation.withoutSignature (Leg.operation leg status i) =
      (leg.mapMetadata (Option.map Metadata.withoutSignature)).operation status i :=
    fun _ _ _ => rfl
  rw [describe, describe, Operation.map_ofLegs h_operation, Operation.map_ofLegs h_operation,
    setSignature, map_mapMetadata_legs_mapInputs (signature_only a signature)]
  intro i
  rw [Option.map_some, Option.map_some, Input.withoutSignature_metadata,
    Input.withoutSignature_metadata]
  split <;> rfl

/-- Nothing about inputs is told with the transaction. -/
theorem metadata_mapInputs (f : Input → Input) (tx : Tx) :
    (tx.mapInputs f).metadata = tx.metadata := by
  cases tx <;> rfl

theorem Input.isSigned_iff {i : Input} : i.isSigned = true ↔ i.signature ≠ [] := by
  rw [isSigned, Bool.not_eq_true', List.isEmpty_eq_false_iff]

theorem signedBy_iff : tx.signedBy a = true ↔ ∃ i ∈ tx.signingInputs, i.address = a := by
  simp only [signedBy, List.any_eq_true, decide_eq_true_eq]

/-- A transaction is signed when a signature was put on an input, or another input had one. -/
theorem isSigned_setSignature_iff (h_owner : tx.signedBy a = true) :
    (tx.setSignature a signature).isSigned = true ↔
      signature ≠ [] ∨ ∃ i ∈ tx.signingInputs, i.address ≠ a ∧ i.isSigned = true := by
  rw [isSigned, setSignature, signingInputs_mapInputs, List.any_map, List.any_eq_true]
  constructor
  · rintro ⟨i, h_mem, h_signed⟩
    rw [Function.comp_apply] at h_signed
    split at h_signed
    · exact Or.inl (Input.isSigned_iff.mp h_signed)
    · next h_other => exact Or.inr ⟨i, h_mem, h_other, h_signed⟩
  · rintro (h_signature | ⟨i, h_mem, h_other, h_signed⟩)
    · obtain ⟨i, h_mem, h_address⟩ := signedBy_iff.mp h_owner
      refine ⟨i, h_mem, ?_⟩
      rw [Function.comp_apply, if_pos h_address]
      exact Input.isSigned_iff.mpr h_signature
    · refine ⟨i, h_mem, ?_⟩
      rw [Function.comp_apply, if_neg h_other]
      exact h_signed

/-- The inputs of the account carry the signature. -/
theorem signature_of_address :
    ∀ i ∈ (tx.setSignature a signature).signingInputs, i.address = a → i.signature = signature := by
  rw [setSignature, signingInputs_mapInputs, List.forall_mem_map]
  intro i _ h_address
  split
  · rfl
  · next h_other =>
    rw [if_neg h_other] at h_address
    exact absurd h_address h_other

theorem unsigned_unsigned (tx : Tx) : tx.unsigned.unsigned = tx.unsigned :=
  mapInputs_mapInputs _ _ tx

/-- **A signature changes nothing else**, in a transaction of whatever kind. It is put somewhere just
if the account owns a signing input. Then each such input carries it, the other inputs are as before
and so is everything besides inputs. The transaction without its signatures stays the same, and so
do the bytes that are signed for any chain. What is shown of the transaction differs in the entries of
signatures at most. The signer always owns an input; after it has signed, the transaction is signed
if the signature is not empty or another account has signed. Without its signatures a transaction is
not signed, and has none to take off. -/
theorem setSignature_only (tx : Tx) (a : Address) (signature : Octets) :
    (tx.signedBy a = true ↔ ∃ i ∈ tx.signingInputs, i.address = a) ∧
    (∀ i ∈ (tx.setSignature a signature).signingInputs, i.address = a → i.signature = signature) ∧
    (∀ tx' : Tx,
      tx.SameBut (fun i i' => i' = if i.address = a then { i with signature } else i) tx' ↔
        tx' = tx.setSignature a signature) ∧
    (tx.setSignature a signature).unsigned = tx.unsigned ∧
    (∀ chainId, (tx.setSignature a signature).signBytes chainId = tx.signBytes chainId) ∧
    (∀ context,
      ((tx.setSignature a signature).describe context).metadata = (tx.describe context).metadata ∧
      ((tx.setSignature a signature).describe context).operations.map Operation.withoutSignature =
        (tx.describe context).operations.map Operation.withoutSignature) ∧
    (∀ signer, tx.signer? = some signer → tx.signedBy signer = true ∧
      ((tx.setSignature signer signature).isSigned = true ↔
        signature ≠ [] ∨ ∃ i ∈ tx.signingInputs, i.address ≠ signer ∧ i.isSigned = true)) ∧
    tx.unsigned.unsigned = tx.unsigned ∧ tx.unsigned.isSigned = false := by
  refine ⟨signedBy_iff, signature_of_address, fun tx' => sameBut_iff,
    unsigned_setSignature tx a signature,
    fun chainId => signBytes_setSignature chainId tx a signature,
    fun context => ⟨metadata_mapInputs _ tx, ?_⟩, ?_, unsigned_unsigned tx, isSigned_unsigned tx⟩
  · exact map_withoutSignature_operations_setSignature tx a signature context
  · intro signer h_signer
    have h_owner := signedBy_of_signer? h_signer
    exact ⟨h_owner, isSigned_setSignature_iff h_owner⟩

end Tx

end RosettaGateway
