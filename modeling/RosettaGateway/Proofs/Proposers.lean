import RosettaGateway.Proofs.Conservation

/-!
# Proposers

A reward for a block and a punishment begin with an operation of the proposer, who neither pays nor
receives anything: the description of either shows a zero there. When a transaction is built, the
account of this operation is taken and its amount is not looked at, as long as it can be read. All
other operations are taken as they are.

* `Tx.ofOperations_proposer_amount` — another amount for the proposer makes no difference;
* `Tx.agrees_behind_proposer` — what the description of the transaction has in common with the
  operations it was built from, and how operations are refused;
* `Tx.SampleReward.not_agrees_ofOperations` — a reward in which an amount is lost.
-/

namespace RosettaGateway

/-! ### Refusals -/

/-- A refusal of operations of a kind: the layout is another one, or a text or an entry is missing
or cannot be read. -/
def TxError.Concerns (k : Tx.Kind) : TxError → Prop
  | .layout k' _ => k' = k
  | .operand _ | .missingEntry _ | .invalidEntry _ _ => True
  | _ => False

/-- A part that gives no other refusals than those of operations of a kind. -/
def Outcome.Concerns {α : Type} (k : Tx.Kind) (outcome : Except TxError α) : Prop :=
  ∀ e, outcome = .error e → e.Concerns k

section Refusals

open Outcome (Concerns)

variable {α β : Type} {k : Tx.Kind}

namespace Outcome

theorem concerns_ok (a : α) : Concerns k (.ok a) := nofun

theorem Concerns.bind {first : Except TxError α} {next : α → Except TxError β}
    (h_first : Concerns k first) (h_next : ∀ a, first = .ok a → Concerns k (next a)) :
    Concerns k (first >>= next) := by
  intro e h_error
  cases h_result : first with
  | error e' =>
    rw [h_result] at h_error
    cases h_error
    exact h_first e h_result
  | ok a =>
    rw [h_result] at h_error
    exact h_next a h_result e h_error

theorem Concerns.map {f : α → β} {outcome : Except TxError α} (h_outcome : Concerns k outcome) :
    Concerns k (outcome.map f) := by
  intro e h_error
  cases outcome with
  | error e' =>
    cases h_error
    exact h_outcome e rfl
  | ok a => cases h_error

theorem Concerns.mapM {f : α → Except TxError β} {as : List α} (h_each : ∀ a, Concerns k (f a)) :
    Concerns k (as.mapM f) := by
  induction as with
  | nil => exact concerns_ok []
  | cons a as ih =>
    rw [List.mapM_cons]
    exact (h_each a).bind fun b _ => ih.bind fun bs _ => concerns_ok (b :: bs)

end Outcome

open Outcome (concerns_ok)

theorem Metadata.concerns_read? (m : Metadata) (key : String)
    (reading : Json → Except EntryFault α) : Concerns k (m.read? key reading) := by
  intro e h_error
  unfold read? at h_error
  split at h_error
  · cases h_error
  · split at h_error
    · cases h_error
    · cases h_error
      trivial

theorem Metadata.concerns_demand {key : String} {outcome : Except TxError (Option α)}
    (h_outcome : Concerns k outcome) : Concerns k (demand key outcome) := by
  intro e h_error
  unfold demand at h_error
  split at h_error
  · cases h_error
  · cases h_error
    trivial
  · cases h_error
    exact h_outcome e rfl

theorem Metadata.concerns_counterOr (m : Metadata) (key : String) (default : UInt64) :
    Concerns k (m.counterOr key default) :=
  (m.concerns_read? key readCounter).bind fun _ _ => concerns_ok _

theorem Metadata.concerns_bytesOrEmpty (m : Metadata) (key : String) :
    Concerns k (m.bytesOrEmpty key) :=
  (m.concerns_read? key readBytes).bind fun _ _ => concerns_ok _

theorem Operation.concerns_input (op : Operation) (m : Metadata) (account : Address)
    (coins : Coins) : Concerns k (op.input m account coins) := by
  have h_sequence : Concerns k (op.sequence m) := by
    unfold sequence
    split
    · exact m.concerns_counterOr "sequence" 0
    · split
      · exact concerns_ok _
      · rintro _ ⟨⟩
        trivial
  have h_signature : Concerns k (op.signature m) := by
    refine (Metadata.concerns_read? _ "signature" Metadata.readBytes).bind fun own _ => ?_
    cases own with
    | none => exact m.concerns_bytesOrEmpty "signature"
    | some bytes => exact concerns_ok bytes
  exact h_sequence.bind fun _ _ => h_signature.bind fun _ _ => concerns_ok _

theorem Operation.concerns_posting (op : Operation) : Concerns k op.posting := by
  intro e h_error
  unfold posting at h_error
  split at h_error <;> cases h_error <;> trivial

theorem Posting.concerns_requireCoin (leg : Posting) (coin : Denom) :
    Concerns k (leg.requireCoin k coin) := by
  intro e h_error
  unfold requireCoin at h_error
  split at h_error <;> cases h_error
  exact rfl

theorem Posting.concerns_credit (leg : Posting) : Concerns k (leg.credit k) := by
  intro e h_error
  unfold credit at h_error
  split at h_error <;> cases h_error
  exact rfl

theorem Cursor.concerns_one (cursor : Cursor) (type : OperationType) :
    Concerns cursor.kind (cursor.one type) := by
  unfold one
  split
  · rintro _ ⟨⟩
    exact rfl
  · split
    · exact (Operation.concerns_posting _).bind fun _ _ => concerns_ok _
    · rintro _ ⟨⟩
      exact rfl

theorem Cursor.concerns_finish (cursor : Cursor) : Concerns cursor.kind cursor.finish := by
  unfold finish
  split
  · exact concerns_ok ()
  · rintro _ ⟨⟩
    exact rfl

theorem Tx.Coinbase.concerns_output (op : Operation) : Concerns .coinbase (output op) := by
  refine op.concerns_posting.bind fun leg _ => ?_
  refine (leg.concerns_requireCoin .tfuel).bind fun _ _ => ?_
  exact leg.concerns_credit.bind fun _ _ => concerns_ok _

end Refusals

/-! ### Amounts that are not looked at -/

/-- An operation with another amount is read as before, but for the amount. -/
theorem Operation.posting_amount {op : Operation} {p : Posting} (h_posting : op.posting = .ok p)
    (value : Int) (coin : Denom) :
    ({ op with amount := some (.ofInt value coin) } : Operation).posting =
      .ok ⟨{ op with amount := some (.ofInt value coin) }, p.account, coin, value⟩ := by
  obtain ⟨h_account, -, -, -⟩ := posting_eq_ok_iff.mp h_posting
  refine posting_eq_ok_iff.mpr ⟨h_account, ?_, ?_, rfl⟩
  · simp only [Operation.coin, Amount.ofInt, Denom.ofCurrency?_currency]
  · simp only [Operation.value, Amount.ofInt, Numeral.integer?_ofInt]

/-- Whether a single leg that can be read is taken is decided by its type. -/
theorem Cursor.one_cons {op : Operation} {p : Posting} (h_posting : op.posting = .ok p)
    (k : Tx.Kind) (position : Nat) (rest : List Operation) (type : OperationType) :
    one ⟨k, position, op :: rest⟩ type =
      if op.type = type.name then .ok (p, ⟨k, position + 1, rest⟩)
      else .error (.layout k (.expected type.name position (some op.type))) := by
  simp only [one, h_posting]
  rfl

namespace Tx

open Cursor (Reads)
open Operation (Moves Agrees)

variable {k : Kind} {ops : List Operation} {m : Metadata} {before after : Cursor}

/-! ### What is read -/

/-- What is read of an output of a reward. -/
theorem Coinbase.moves_of_output {op : Operation} {o : Output} (h_output : output op = .ok o)
    (h_type : op.type = OperationType.coinbaseOutput.name) :
    op.Moves (tfuelLeg .coinbaseOutput o.address o.coins.tfuel) := by
  simp only [output, Outcome.bind_eq_ok_iff, Outcome.pure_eq_ok_iff] at h_output
  obtain ⟨leg, h_posting, _, h_coin, received, h_received, rfl⟩ := h_output
  have h_leg : leg.leg .coinbaseOutput = tfuelLeg .coinbaseOutput leg.account received :=
    Posting.leg_eq_tfuelLeg rfl (Posting.coin_of_requireCoin h_coin)
      (Posting.value_of_credit h_received)
  exact h_leg ▸ Operation.moves_of_posting h_type h_posting

theorem Coinbase.moves_of_mapM {outputs : List Output} {run : List Operation}
    (h_type : ∀ op ∈ run, op.type = OperationType.coinbaseOutput.name)
    (h_outputs : run.mapM output = .ok outputs) :
    List.Forall₂ Moves run
      (outputs.map fun o => tfuelLeg .coinbaseOutput o.address o.coins.tfuel) := by
  induction run generalizing outputs with
  | nil =>
    cases h_outputs
    exact .nil
  | cons op run ih =>
    simp only [List.mapM_cons, Outcome.bind_eq_ok_iff, Outcome.pure_eq_ok_iff] at h_outputs
    obtain ⟨o, h_first, others, h_others, rfl⟩ := h_outputs
    exact .cons (moves_of_output h_first (h_type op List.mem_cons_self))
      (ih (fun op h_mem => h_type op (List.mem_cons_of_mem _ h_mem)) h_others)

/-- The coin in which a proposer is shown with nothing. -/
def Kind.proposerCoin : Kind → Denom
  | .slash => .theta
  | _ => .tfuel

/-- **A transaction with a proposer** is built of a leg of the proposer, of which only the account
is taken, and of the other legs as they are shown. -/
theorem reads_of_proposer {tx : Tx} (h_kind : k = .coinbase ∨ k = .slash)
    (h_read : readLayout m (.start k ops) = .ok (tx, after)) :
    ∃ (type : OperationType) (p : Posting) (others : List Leg),
      Reads (.start k ops) (p.leg type :: others) after ∧
      (tx.legs {}).map Leg.bare =
        { type, account := p.account, value := 0, coin := k.proposerCoin } :: others := by
  rcases h_kind with rfl | rfl
  · obtain ⟨body, h_body, rfl⟩ := body_of_readLayout .coinbase h_read
    simp only [Coinbase.ofOperations, Outcome.bind_eq_ok_iff, Outcome.pure_eq_ok_iff,
      Prod.mk.injEq] at h_body
    obtain ⟨⟨p, behind⟩, h_one, outputs, h_outputs, proposer, h_input, _, -, rfl, rfl⟩ := h_body
    -- Behind the leg of the proposer stand those of the outputs.
    have h_others := Coinbase.moves_of_mapM (fun op => Cursor.type_of_mem_run) h_outputs
    refine ⟨_, p, _, (Cursor.reads_of_one h_one).append (Cursor.reads_skipRun h_others), ?_⟩
    rw [← (input_eq_ok h_input).1]
    simp only [legs, List.map_cons, List.map_map]
    rfl
  · obtain ⟨body, h_body, rfl⟩ := body_of_readLayout .slash h_read
    simp only [Slash.ofOperations, Outcome.bind_eq_ok_iff, Outcome.pure_eq_ok_iff,
      Prod.mk.injEq] at h_body
    obtain ⟨⟨p, behind⟩, h_one, proposer, h_input, _, -, _, -, _, -, rfl, rfl⟩ := h_body
    -- The proposer has the only leg.
    refine ⟨_, p, [], Cursor.reads_of_one h_one, ?_⟩
    rw [← (input_eq_ok h_input).1]
    rfl

/-! ### What is not read -/

/-- **The amount of a proposer makes no difference**, as long as there is one that can be read. -/
theorem ofOperations_proposer_amount (h_kind : k = .coinbase ∨ k = .slash) {op : Operation}
    {p : Posting} (h_posting : op.posting = .ok p) (value : Int) (coin : Denom)
    (rest : List Operation) (m : Metadata) :
    ofOperations k ({ op with amount := some (.ofInt value coin) } :: rest) m =
      ofOperations k (op :: rest) m := by
  obtain ⟨-, -, -, h_source⟩ := Operation.posting_eq_ok_iff.mp h_posting
  have h_other := Operation.posting_amount h_posting value coin
  have h_input : ∀ account, ({ op with amount := some (.ofInt value coin) } : Operation).input m
      account {} = p.source.input m account {} :=
    fun account => input_congr (by rw [h_source]) m account {}
  -- Both readings of the proposer take the account and the metadata alone.
  rcases h_kind with rfl | rfl
  · by_cases h_type : op.type = OperationType.coinbaseProposer.name
    · simp only [ofOperations, readLayout, Cursor.start, Coinbase.ofOperations,
        Cursor.one_cons h_posting, Cursor.one_cons h_other, if_pos h_type, bind, Except.bind,
        h_input]
    · simp only [ofOperations, readLayout, Cursor.start, Coinbase.ofOperations,
        Cursor.one_cons h_posting, Cursor.one_cons h_other, if_neg h_type]
  · by_cases h_type : op.type = OperationType.slashProposer.name
    · simp only [ofOperations, readLayout, Cursor.start, Slash.ofOperations,
        Cursor.one_cons h_posting, Cursor.one_cons h_other, if_pos h_type, bind, Except.bind,
        h_input]
    · simp only [ofOperations, readLayout, Cursor.start, Slash.ofOperations,
        Cursor.one_cons h_posting, Cursor.one_cons h_other, if_neg h_type]

/-! ### How operations are refused -/

theorem concerns_ofOperations (h_kind : k = .coinbase ∨ k = .slash) (ops : List Operation)
    (m : Metadata) : Outcome.Concerns k (ofOperations k ops m) := by
  have h_layout : Outcome.Concerns k (readLayout m (.start k ops)) := by
    rcases h_kind with rfl | rfl
    · refine Outcome.Concerns.map ?_
      refine (Cursor.concerns_one _ _).bind fun _ _ => ?_
      refine (Outcome.Concerns.mapM Coinbase.concerns_output).bind fun _ _ => ?_
      refine (Operation.concerns_input _ _ _ _).bind fun _ _ => ?_
      exact (Metadata.concerns_counterOr _ _ _).bind fun _ _ => Outcome.concerns_ok _
    · refine Outcome.Concerns.map ?_
      refine (Cursor.concerns_one _ _).bind fun _ _ => ?_
      refine (Operation.concerns_input _ _ _ _).bind fun _ _ => ?_
      refine (Metadata.concerns_demand (Metadata.concerns_read? _ _ _)).bind fun _ _ => ?_
      refine (Metadata.concerns_counterOr _ _ _).bind fun _ _ => ?_
      exact (Metadata.concerns_bytesOrEmpty _ _).bind fun _ _ => Outcome.concerns_ok _
  -- What is left over is refused by the cursor, which still is one of the kind.
  refine h_layout.bind fun ⟨tx, last⟩ h_read => ?_
  obtain ⟨type, p, others, h_reads, -⟩ := reads_of_proposer h_kind h_read
  have h_finish : Outcome.Concerns last.kind last.finish := last.concerns_finish
  rw [h_reads.place_eq.1] at h_finish
  exact h_finish.bind fun _ _ => Outcome.concerns_ok tx

/-! ### Transactions with a proposer -/

/-- **A reward or a punishment shows what was asked for, except for the proposer.** The description
of what is built has the operations it was built from, but for the amount of the first one: this can
be any amount that is readable, and it is shown as zero. Operations that are refused are of another
layout, or have a text or an entry that is missing or cannot be read. -/
theorem agrees_behind_proposer (h_kind : k = .coinbase ∨ k = .slash) (ops : List Operation)
    (m : Metadata) :
    (∀ tx, ofOperations k ops m = .ok tx →
      ∃ op rest op' rest', ops = op :: rest ∧ (tx.describe {}).operations = op' :: rest' ∧
        List.Forall₂ Agrees rest rest' ∧
        op'.type = op.type ∧ (∃ a, op.address = .ok a ∧ op'.address = .ok a) ∧
        op'.coin = .ok k.proposerCoin ∧ op'.value = .ok 0 ∧
        (∃ coin value, op.coin = .ok coin ∧ op.value = .ok value) ∧
        ∀ value coin,
          ofOperations k ({ op with amount := some (.ofInt value coin) } :: rest) m = .ok tx) ∧
    ∀ e, ofOperations k ops m = .error e → e.Concerns k := by
  refine ⟨fun tx h_build => ?_, concerns_ofOperations h_kind ops m⟩
  obtain ⟨last, h_read, h_rest⟩ := readLayout_of_ofOperations h_build
  obtain ⟨type, p, others, h_reads, h_legs⟩ := reads_of_proposer h_kind h_read
  have h_ops : List.Forall₂ Moves ops (p.leg type :: others) := h_reads.forall₂ h_rest
  have h_shown := Operation.moves_ofLegs none (tx.legs {})
  rw [h_legs] at h_shown
  -- On both sides the leg of the proposer comes first, and what stands behind it is the same.
  obtain ⟨op, rest, h_op, h_others, rfl⟩ := List.forall₂_cons_right_iff.mp h_ops
  obtain ⟨op', rest', h_op', h_others', h_shown⟩ := List.forall₂_cons_right_iff.mp h_shown
  obtain ⟨h_type, h_account, h_coin, h_value⟩ := h_op.reads
  obtain ⟨h_type', h_account', h_coin', h_value'⟩ := h_op'.reads
  refine ⟨op, rest, op', rest', rfl, h_shown, Operation.agrees_of_moves h_others h_others',
    h_type'.trans h_type.symm, ⟨_, h_account, h_account'⟩, h_coin', h_value',
    ⟨_, _, h_coin, h_value⟩, fun value coin => ?_⟩
  rw [ofOperations_proposer_amount h_kind h_op.posting_eq]
  exact h_build

namespace SampleReward

open Construction.SampleSend (operation)

/-- A reward that shows five for the proposer. -/
def asked : List Operation :=
  [operation "CoinbaseTxProposer" "0x0101010101010101010101010101010101010101" "5" "TFUEL",
    operation "CoinbaseTxOutput" "0x0202020202020202020202020202020202020202" "70" "TFUEL"]

/-- The reward that is built. -/
def reward : Tx :=
  .coinbase ⟨⟨repeatedAddress 1, {}, 0, []⟩, [⟨repeatedAddress 2, .ofTfuel 70⟩], 0⟩

theorem ofOperations_asked : ofOperations .coinbase asked (.ofList []) = .ok reward :=
  Outcome.eq_ok_of_toOption (by decide)

/-- The reward keeps what its output receives, and shows nothing for the proposer. -/
theorem agrees_behind_proposer_reward :
    (Kind.coinbase = .coinbase ∨ Kind.coinbase = .slash) ∧
      ofOperations .coinbase asked (.ofList []) = .ok reward ∧
      ∃ op rest op' rest', asked = op :: rest ∧ (reward.describe {}).operations = op' :: rest' ∧
        List.Forall₂ Agrees rest rest' ∧ op.value = .ok 5 ∧ op'.value = .ok 0 := by
  have h_kind : Kind.coinbase = .coinbase ∨ Kind.coinbase = .slash := Or.inl rfl
  obtain ⟨op, rest, op', rest', h_ops, h_shown, h_rest, -, -, -, h_value, -⟩ :=
    (agrees_behind_proposer h_kind asked (.ofList [])).1 reward ofOperations_asked
  refine ⟨h_kind, ofOperations_asked, op, rest, op', rest', h_ops, h_shown, h_rest, ?_, h_value⟩
  obtain ⟨rfl, -⟩ := List.cons.inj h_ops
  rfl

/-- Not every list that is accepted is shown as it was: the five of the proposer are lost. -/
theorem not_agrees_ofOperations :
    ¬ ∀ (k : Kind) (ops : List Operation) (m : Metadata) (tx : Tx),
      k = .coinbase ∨ k = .slash → ofOperations k ops m = .ok tx →
        List.Forall₂ Agrees ops (tx.describe {}).operations := by
  intro h_all
  have h_agrees := h_all .coinbase asked (.ofList []) reward (Or.inl rfl) ofOperations_asked
  obtain ⟨-, -, -, i, h_asked, h_shown⟩ := (List.forall₂_cons.mp h_agrees).1
  cases h_asked
  cases h_shown

end SampleReward

end Tx

end RosettaGateway
