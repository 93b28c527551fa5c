import RosettaGateway.Proofs.Construction.Settings
import RosettaGateway.Proofs.Layout

/-!
# Entries that are null

Entries of metadata that are `null` count as missing. The readers of `Metadata` see to this, but
the sequence of an operation is looked up past them: there, `null` is zero and hides the sequence
of the transaction.

A transaction is built in many steps, and each of them hands operations on whose metadata it has not
read yet. So the argument is about two runs side by side, over operations that differ in their
metadata (`Operation.mapMetadata`): each step of the second run has the outcome of the first, with
the metadata of what it hands on changed.

* `Tx.ReadsAs.ofOperations_eq` — metadata of which the same is read lead to the same outcome;
* `Tx.ofOperations_withoutNulls` — null entries can be left out, but for the sequence of an
  operation;
* `Tx.SampleNulls.not_ofOperations_withoutNulls` — a sequence that gets lost.
-/

namespace RosettaGateway

/-! ### Outcomes of two chains -/

namespace Outcome

variable {ε α α' β β' : Type}

/-- Two chains of parts have corresponding outcomes when their first parts do and the others do on
corresponding results. -/
theorem bind_of_map {first : Except ε α} {first' : Except ε α'} {f : α → α'}
    {next : α → Except ε β} {next' : α' → Except ε β'} {g : β → β'}
    (h_first : first' = first.map f) (h_next : ∀ a, next' (f a) = (next a).map g) :
    (first' >>= next') = (first >>= next).map g := by
  subst h_first
  cases first with
  | error e => rfl
  | ok a => exact h_next a

/-- Chains whose first parts are the same. -/
theorem bind_of_eq {first first' : Except ε α} {next : α → Except ε β} {next' : α → Except ε β'}
    {g : β → β'} (h_first : first' = first) (h_next : ∀ a, next' a = (next a).map g) :
    (first' >>= next') = (first >>= next).map g := by
  subst h_first
  cases first' with
  | error e => rfl
  | ok a => exact h_next a

/-- Chains whose other parts do not see a difference between the results of the first parts. -/
theorem bind_eq_of_map {first : Except ε α} {first' : Except ε α'} {f : α → α'}
    {next : α → Except ε β} {next' : α' → Except ε β} (h_first : first' = first.map f)
    (h_next : ∀ a, next' (f a) = next a) : (first' >>= next') = (first >>= next) := by
  subst h_first
  cases first with
  | error e => rfl
  | ok a => exact h_next a

end Outcome

/-! ### Steps over other metadata -/

section Layouts

variable (g : Option Metadata → Option Metadata)

/-- An operation with other metadata. -/
def Operation.mapMetadata (op : Operation) : Operation := { op with metadata := g op.metadata }

/-- What was read of an operation, with other metadata for the operation. -/
def Posting.mapMetadata (p : Posting) : Posting := { p with source := p.source.mapMetadata g }

/-- A party whose first operation has other metadata. -/
def Party.mapMetadata (party : Party) : Party := { party with first := party.first.mapMetadata g }

/-- A fee whose operation has other metadata. -/
def FeeLeg.mapMetadata (fee : FeeLeg) : FeeLeg := { fee with source := fee.source.mapMetadata g }

/-- A cursor before operations with other metadata. -/
def Cursor.mapMetadata (cursor : Cursor) : Cursor :=
  { cursor with rest := cursor.rest.map (Operation.mapMetadata g) }

theorem Operation.posting_mapMetadata (op : Operation) :
    (op.mapMetadata g).posting = op.posting.map (Posting.mapMetadata g) := by
  have h_address : (op.mapMetadata g).address = op.address := rfl
  have h_coin : (op.mapMetadata g).coin = op.coin := rfl
  have h_value : (op.mapMetadata g).value = op.value := rfl
  rw [posting, posting, h_address, h_coin, h_value]
  cases op.address with
  | error => rfl
  | ok =>
    cases op.coin with
    | error => rfl
    | ok => cases op.value <;> rfl

namespace Cursor

variable (cursor : Cursor) (type : OperationType)

theorem one_mapMetadata :
    (cursor.mapMetadata g).one type =
      (cursor.one type).map (Prod.map (Posting.mapMetadata g) (mapMetadata g)) := by
  obtain ⟨k, position, rest⟩ := cursor
  cases rest with
  | nil => rfl
  | cons op rest =>
    simp only [one, mapMetadata, List.map_cons]
    by_cases h_type : op.type = type.name
    · have h_type' : (op.mapMetadata g).type = type.name := h_type
      rw [if_pos h_type, if_pos h_type']
      exact Outcome.bind_of_map (op.posting_mapMetadata g) fun _ => rfl
    · have h_type' : (op.mapMetadata g).type ≠ type.name := h_type
      rw [if_neg h_type, if_neg h_type']
      rfl

theorem run_mapMetadata :
    (cursor.mapMetadata g).run type = (cursor.run type).map (Operation.mapMetadata g) :=
  List.takeWhile_map ..

theorem skipRun_mapMetadata :
    (cursor.mapMetadata g).skipRun type = (cursor.skipRun type).mapMetadata g := by
  have h_rest : (cursor.mapMetadata g).rest.dropWhile (fun op => op.type == type.name) =
      (cursor.rest.dropWhile fun op => op.type == type.name).map (Operation.mapMetadata g) :=
    List.dropWhile_map ..
  rw [skipRun, h_rest, run_mapMetadata, List.length_map]
  rfl

end Cursor

theorem Party.add_mapMetadata (k : Tx.Kind) (type : OperationType) (outgoing : Bool)
    (party : Party) (leg : Posting) :
    add k type outgoing (party.mapMetadata g) (leg.mapMetadata g) =
      (add k type outgoing party leg).map (mapMetadata g) := by
  refine Outcome.bind_of_eq rfl fun _ => ?_
  show (if leg.coin ∈ party.seen then _ else _) = _
  split
  · rfl
  · exact Outcome.bind_of_eq rfl fun _ => rfl

theorem Party.foldlM_mapMetadata (k : Tx.Kind) (type : OperationType) (outgoing : Bool)
    (ops : List Operation) (party : Party) :
    (ops.map (Operation.mapMetadata g)).foldlM (addOperation k type outgoing)
        (party.mapMetadata g) =
      (ops.foldlM (addOperation k type outgoing) party).map (mapMetadata g) := by
  -- The party grows along the run, and both runs hand on the same one but for its first operation.
  induction ops generalizing party with
  | nil => rfl
  | cons op ops ih =>
    rw [List.map_cons, List.foldlM_cons, List.foldlM_cons]
    refine Outcome.bind_of_map ?_ ih
    exact Outcome.bind_of_map (op.posting_mapMetadata g) fun leg =>
      add_mapMetadata g k type outgoing party leg

theorem Party.ofRun_mapMetadata (k : Tx.Kind) (type : OperationType) (outgoing : Bool)
    (ops : List Operation) :
    ofRun k type outgoing (ops.map (Operation.mapMetadata g)) =
      (ofRun k type outgoing ops).map (Option.map (mapMetadata g)) := by
  cases ops with
  | nil => rfl
  | cons op others =>
    have h_posting := op.posting_mapMetadata g
    -- The first operation makes the party, and the others are added to it.
    cases h_leg : op.posting with
    | error e =>
      rw [h_leg] at h_posting
      simp only [List.map_cons, ofRun, h_leg, h_posting]
      rfl
    | ok leg =>
      rw [h_leg] at h_posting
      rw [ofRun_cons h_leg, List.map_cons, ofRun_cons h_posting, ← List.map_cons]
      have h_fold := foldlM_mapMetadata g k type outgoing (op :: others) ⟨leg.account, op, {}, []⟩
      refine (congrArg (Except.map some) h_fold).trans ?_
      cases (op :: others).foldlM (addOperation k type outgoing) ⟨leg.account, op, {}, []⟩ <;> rfl

namespace Cursor

variable (cursor : Cursor) (type : OperationType)

theorem party_mapMetadata (outgoing : Bool) :
    (cursor.mapMetadata g).party type outgoing =
      (cursor.party type outgoing).map (Prod.map (Option.map (Party.mapMetadata g))
        (mapMetadata g)) := by
  rw [party, run_mapMetadata, skipRun_mapMetadata]
  exact Outcome.bind_of_map (Party.ofRun_mapMetadata g _ type outgoing _) fun _ => rfl

theorem fee_mapMetadata (payer : Option Address) :
    (cursor.mapMetadata g).fee payer =
      (cursor.fee payer).map (Prod.map (FeeLeg.mapMetadata g) (mapMetadata g)) := by
  refine Outcome.bind_of_map (cursor.one_mapMetadata g .fee) fun ⟨leg, next⟩ => ?_
  refine Outcome.bind_of_eq rfl fun _ => ?_
  cases payer with
  | none => exact Outcome.bind_of_eq rfl fun _ => Outcome.bind_of_eq rfl fun _ => rfl
  | some account => exact Outcome.bind_of_eq rfl fun _ => Outcome.bind_of_eq rfl fun _ => rfl

theorem finish_mapMetadata : (cursor.mapMetadata g).finish = cursor.finish := by
  obtain ⟨k, position, rest⟩ := cursor
  cases rest <;> rfl

section Pairs

variable {α : Type} {read read' : Nat → Posting → Posting → Except TxError α}
  (h_read : ∀ p theta tfuel,
    read' p (theta.mapMetadata g) (tfuel.mapMetadata g) = read p theta tfuel)

include h_read in
theorem pairsOf_mapMetadata (k : Tx.Kind) (next : Option String) :
    ∀ (position : Nat) (ops : List Operation),
      pairsOf k type next read' position (ops.map (Operation.mapMetadata g)) =
        pairsOf k type next read position ops
  | _, [] => rfl
  | _, [op] => Outcome.bind_eq_of_map (op.posting_mapMetadata g) fun _ => rfl
  | position, op :: op' :: rest => by
    refine Outcome.bind_eq_of_map (op.posting_mapMetadata g) fun theta => ?_
    refine bind_congr fun _ => ?_
    refine Outcome.bind_eq_of_map (op'.posting_mapMetadata g) fun tfuel => ?_
    refine bind_congr fun _ => bind_congr fun _ => ?_
    -- The reader sees the metadata of the pair, but reads the same of it.
    rw [h_read, pairsOf_mapMetadata k next (position + 2) rest]

include h_read in
theorem pairs_mapMetadata :
    (cursor.mapMetadata g).pairs type read' =
      (cursor.pairs type read).map (Prod.map id (mapMetadata g)) := by
  have h_next : ((cursor.mapMetadata g).skipRun type).rest.head?.map (·.type) =
      (cursor.skipRun type).rest.head?.map (·.type) := by
    rw [skipRun_mapMetadata]
    show ((cursor.skipRun type).rest.map (Operation.mapMetadata g)).head?.map _ = _
    rw [List.head?_map, Option.map_map]
    rfl
  refine Outcome.bind_of_eq ?_ fun _ => ?_
  · rw [h_next, run_mapMetadata]
    exact pairsOf_mapMetadata g type h_read _ _ _ _
  · rw [skipRun_mapMetadata]
    rfl

end Pairs

end Cursor

end Layouts

/-! ### Entries of the transaction -/

namespace Metadata

variable {m m' : Metadata} {key : String} (h_present : m'.present? key = m.present? key)

include h_present

theorem counterOr_congr (default : UInt64) :
    m'.counterOr key default = m.counterOr key default := by
  rw [counterOr, counter?, read?_congr h_present, counterOr, counter?]

theorem bytesOrEmpty_congr : m'.bytesOrEmpty key = m.bytesOrEmpty key := by
  rw [bytesOrEmpty, bytes?, read?_congr h_present, bytesOrEmpty, bytes?]

theorem stringOrEmpty_congr : m'.stringOrEmpty key = m.stringOrEmpty key := by
  rw [stringOrEmpty, string?, read?_congr h_present, stringOrEmpty, string?]

theorem demand_address_congr :
    demand key (m'.address? key) = demand key (m.address? key) := by
  rw [address?, read?_congr h_present, address?]

end Metadata

theorem Tx.holderOf_congr {m m' : Metadata}
    (h_present : m'.present? "holder" = m.present? "holder") : holderOf m' = holderOf m := by
  rw [holderOf, Metadata.demand_address_congr h_present, holderOf]

theorem Tx.purposeOf_congr {m m' : Metadata}
    (h_present : m'.present? "purpose" = m.present? "purpose") : purposeOf m' = purposeOf m := by
  rw [purposeOf, Metadata.byte?, Metadata.read?_congr h_present, purposeOf, Metadata.byte?]

/-! ### Transactions -/

namespace Tx

variable {g : Option Metadata → Option Metadata} {m m' : Metadata}

/-- Other metadata are read as those of some operations and of a transaction: the entries of the
transaction that are not null are the same, and so is the input of each operation. -/
structure ReadsAs (g : Option Metadata → Option Metadata) (m m' : Metadata) : Prop where
  present?_eq : ∀ key, m'.present? key = m.present? key
  input_eq : ∀ (op : Operation) (account : Address) (coins : Coins),
    (op.mapMetadata g).input m' account coins = op.input m account coins

namespace ReadsAs

variable (h_same : ReadsAs g m m')

include h_same

theorem payingParty_eq (cursor : Cursor) (type : OperationType) :
    payingParty (cursor.mapMetadata g) type m' =
      (payingParty cursor type m).map (Prod.map id (Prod.map id (Cursor.mapMetadata g))) := by
  refine Outcome.bind_of_map (cursor.party_mapMetadata g type true) fun ⟨party, next⟩ => ?_
  have h_account : (party.map (Party.mapMetadata g)).map (·.account) = party.map (·.account) := by
    cases party <;> rfl
  refine Outcome.bind_of_map (f := Prod.map (FeeLeg.mapMetadata g) (Cursor.mapMetadata g)) ?_
    fun ⟨fee, last⟩ => ?_
  · show (next.mapMetadata g).fee ((party.map (Party.mapMetadata g)).map (·.account)) = _
    rw [h_account, Cursor.fee_mapMetadata]
  · refine Outcome.bind_of_eq ?_ fun _ => rfl
    -- Without legs of its own the party signs on the fee.
    cases party with
    | none => exact h_same.input_eq _ _ _
    | some party => exact h_same.input_eq _ _ _

variable (cursor : Cursor)

theorem coinbase_eq :
    Coinbase.ofOperations (cursor.mapMetadata g) m' =
      (Coinbase.ofOperations cursor m).map (Prod.map id (Cursor.mapMetadata g)) := by
  refine Outcome.bind_of_map (cursor.one_mapMetadata g _) fun ⟨proposer, next⟩ => ?_
  have h_output : ∀ op, Coinbase.output (Operation.mapMetadata g op) = Coinbase.output op :=
    fun op => Outcome.bind_eq_of_map (op.posting_mapMetadata g) fun _ => rfl
  refine Outcome.bind_of_eq ?_ fun outputs => ?_
  · show ((next.mapMetadata g).run .coinbaseOutput).mapM Coinbase.output = _
    rw [Cursor.run_mapMetadata, List.mapM_map]
    exact congrArg (List.mapM · _) (funext h_output)
  -- What is left are entries of the metadata, which read alike.
  refine Outcome.bind_of_eq (h_same.input_eq _ _ _) fun _ => ?_
  refine Outcome.bind_of_eq (Metadata.counterOr_congr (h_same.present?_eq _) _) fun _ => ?_
  show Except.ok (_, (next.mapMetadata g).skipRun .coinbaseOutput) = _
  rw [Cursor.skipRun_mapMetadata]
  rfl

theorem slash_eq :
    Slash.ofOperations (cursor.mapMetadata g) m' =
      (Slash.ofOperations cursor m).map (Prod.map id (Cursor.mapMetadata g)) := by
  refine Outcome.bind_of_map (cursor.one_mapMetadata g _) fun ⟨proposer, next⟩ => ?_
  refine Outcome.bind_of_eq (h_same.input_eq _ _ _) fun _ => ?_
  refine Outcome.bind_of_eq (Metadata.demand_address_congr (h_same.present?_eq _)) fun _ => ?_
  refine Outcome.bind_of_eq (Metadata.counterOr_congr (h_same.present?_eq _) _) fun _ => ?_
  exact Outcome.bind_of_eq (Metadata.bytesOrEmpty_congr (h_same.present?_eq _)) fun _ => rfl

theorem send_eq :
    Send.ofOperations (cursor.mapMetadata g) m' =
      (Send.ofOperations cursor m).map (Prod.map id (Cursor.mapMetadata g)) := by
  have h_input : ∀ p theta tfuel, Send.inputOf m' p (Posting.mapMetadata g theta)
      (Posting.mapMetadata g tfuel) = Send.inputOf m p theta tfuel := by
    intro p theta tfuel
    have h_source : ∀ account coins, (Posting.mapMetadata g theta).source.input m' account coins =
        theta.source.input m account coins := h_same.input_eq _
    simp only [Send.inputOf, h_source]
    rfl
  refine Outcome.bind_of_map (cursor.pairs_mapMetadata g _ h_input) fun spent => ?_
  obtain ⟨inputs, next⟩ := spent
  refine Outcome.bind_of_map (next.pairs_mapMetadata g _ fun _ _ _ => rfl) fun received => ?_
  obtain ⟨outputs, last⟩ := received
  cases inputs with
  | nil => rfl
  | cons first others =>
    refine Outcome.bind_of_map (last.fee_mapMetadata g _) fun paid => ?_
    exact Outcome.bind_of_eq rfl fun _ => rfl

theorem reserveFund_eq :
    ReserveFund.ofOperations (cursor.mapMetadata g) m' =
      (ReserveFund.ofOperations cursor m).map (Prod.map id (Cursor.mapMetadata g)) := by
  refine Outcome.bind_of_map (h_same.payingParty_eq cursor _) fun ⟨fee, source, next⟩ => ?_
  refine Outcome.bind_of_eq (Metadata.read?_congr (h_same.present?_eq _)) fun _ => ?_
  refine Outcome.bind_of_eq (Metadata.read?_congr (h_same.present?_eq _)) fun _ => ?_
  exact Outcome.bind_of_eq (Metadata.counterOr_congr (h_same.present?_eq _) _) fun _ => rfl

theorem releaseFund_eq :
    ReleaseFund.ofOperations (cursor.mapMetadata g) m' =
      (ReleaseFund.ofOperations cursor m).map (Prod.map id (Cursor.mapMetadata g)) := by
  refine Outcome.bind_of_map (h_same.payingParty_eq cursor _) fun ⟨fee, source, next⟩ => ?_
  exact Outcome.bind_of_eq (Metadata.counterOr_congr (h_same.present?_eq _) _) fun _ => rfl

theorem servicePayment_eq :
    ServicePayment.ofOperations (cursor.mapMetadata g) m' =
      (ServicePayment.ofOperations cursor m).map (Prod.map id (Cursor.mapMetadata g)) := by
  refine Outcome.bind_of_map (cursor.one_mapMetadata g _) fun ⟨source, next⟩ => ?_
  refine Outcome.bind_of_eq rfl fun _ => ?_
  refine Outcome.bind_of_map (next.one_mapMetadata g _) fun ⟨target, next⟩ => ?_
  refine Outcome.bind_of_eq rfl fun _ => ?_
  refine Outcome.bind_of_map (next.fee_mapMetadata g _) fun ⟨fee, last⟩ => ?_
  refine Outcome.bind_of_eq rfl fun _ => ?_
  -- Behind the legs there are only entries of the metadata.
  refine Outcome.bind_of_eq (h_same.input_eq _ _ _) fun _ => ?_
  refine Outcome.bind_of_eq rfl fun _ => ?_
  refine Outcome.bind_of_eq (h_same.input_eq _ _ _) fun _ => ?_
  refine Outcome.bind_of_eq (Metadata.counterOr_congr (h_same.present?_eq _) _) fun _ => ?_
  refine Outcome.bind_of_eq (Metadata.counterOr_congr (h_same.present?_eq _) _) fun _ => ?_
  exact Outcome.bind_of_eq (Metadata.stringOrEmpty_congr (h_same.present?_eq _)) fun _ => rfl

theorem splitRule_eq :
    SplitRule.ofOperations (cursor.mapMetadata g) m' =
      (SplitRule.ofOperations cursor m).map (Prod.map id (Cursor.mapMetadata g)) := by
  refine Outcome.bind_of_map (cursor.one_mapMetadata g _) fun ⟨initiator, next⟩ => ?_
  refine Outcome.bind_of_eq rfl fun _ => ?_
  refine Outcome.bind_of_map (next.fee_mapMetadata g _) fun ⟨fee, last⟩ => ?_
  refine Outcome.bind_of_eq (Metadata.stringOrEmpty_congr (h_same.present?_eq _)) fun _ => ?_
  refine Outcome.bind_of_eq rfl fun _ => ?_
  refine Outcome.bind_of_eq (h_same.input_eq _ _ _) fun _ => ?_
  refine Outcome.bind_of_eq (Metadata.read?_congr (h_same.present?_eq _)) fun _ => ?_
  exact Outcome.bind_of_eq (Metadata.counterOr_congr (h_same.present?_eq _) _) fun _ => rfl

theorem smartContract_eq :
    SmartContract.ofOperations (cursor.mapMetadata g) m' =
      (SmartContract.ofOperations cursor m).map (Prod.map id (Cursor.mapMetadata g)) := by
  refine Outcome.bind_of_map (cursor.party_mapMetadata g _ _) fun ⟨sender, next⟩ => ?_
  refine Outcome.bind_of_map (next.party_mapMetadata g _ _) fun ⟨recipient, last⟩ => ?_
  -- Without one of the parties nothing else is read.
  cases sender with
  | none => rfl
  | some sender =>
    cases recipient with
    | none => rfl
    | some recipient =>
      refine Outcome.bind_of_eq (h_same.input_eq _ _ _) fun _ => ?_
      refine Outcome.bind_of_eq (Metadata.counterOr_congr (h_same.present?_eq _) _) fun _ => ?_
      refine Outcome.bind_of_eq (Metadata.read?_congr (h_same.present?_eq _)) fun _ => ?_
      exact Outcome.bind_of_eq (Metadata.bytesOrEmpty_congr (h_same.present?_eq _)) fun _ => rfl

theorem depositStake_eq :
    DepositStake.ofOperations (cursor.mapMetadata g) m' =
      (DepositStake.ofOperations cursor m).map (Prod.map id (Cursor.mapMetadata g)) := by
  refine Outcome.bind_of_map (h_same.payingParty_eq cursor _) fun ⟨fee, source, next⟩ => ?_
  refine Outcome.bind_of_eq (holderOf_congr (h_same.present?_eq _)) fun _ => ?_
  exact Outcome.bind_of_eq (purposeOf_congr (h_same.present?_eq _)) fun _ => rfl

theorem depositStakeV2_eq :
    DepositStakeV2.ofOperations (cursor.mapMetadata g) m' =
      (DepositStakeV2.ofOperations cursor m).map (Prod.map id (Cursor.mapMetadata g)) := by
  refine Outcome.bind_of_map (h_same.payingParty_eq cursor _) fun ⟨fee, source, next⟩ => ?_
  refine Outcome.bind_of_eq (holderOf_congr (h_same.present?_eq _)) fun _ => ?_
  refine Outcome.bind_of_eq (purposeOf_congr (h_same.present?_eq _)) fun _ => ?_
  refine Outcome.bind_of_eq (Metadata.bytesOrEmpty_congr (h_same.present?_eq _)) fun _ => ?_
  refine Outcome.bind_of_eq (Metadata.bytesOrEmpty_congr (h_same.present?_eq _)) fun _ => ?_
  exact Outcome.bind_of_eq (Metadata.bytesOrEmpty_congr (h_same.present?_eq _)) fun _ => rfl

theorem withdrawStake_eq :
    WithdrawStake.ofOperations (cursor.mapMetadata g) m' =
      (WithdrawStake.ofOperations cursor m).map (Prod.map id (Cursor.mapMetadata g)) := by
  refine Outcome.bind_of_map (cursor.fee_mapMetadata g _) fun ⟨fee, next⟩ => ?_
  refine Outcome.bind_of_eq (h_same.input_eq _ _ _) fun _ => ?_
  refine Outcome.bind_of_eq (holderOf_congr (h_same.present?_eq _)) fun _ => ?_
  exact Outcome.bind_of_eq (purposeOf_congr (h_same.present?_eq _)) fun _ => rfl

theorem stakeRewardDistribution_eq :
    StakeRewardDistribution.ofOperations (cursor.mapMetadata g) m' =
      (StakeRewardDistribution.ofOperations cursor m).map
        (Prod.map id (Cursor.mapMetadata g)) := by
  refine Outcome.bind_of_map (cursor.party_mapMetadata g _ _) fun ⟨party, next⟩ => ?_
  refine Outcome.bind_of_map (next.fee_mapMetadata g _) fun ⟨fee, last⟩ => ?_
  cases party with
  | none =>
    refine Outcome.bind_of_eq (Metadata.demand_address_congr (h_same.present?_eq _)) fun _ => ?_
    refine Outcome.bind_of_eq (h_same.input_eq _ _ _) fun _ => ?_
    exact Outcome.bind_of_eq (Metadata.counterOr_congr (h_same.present?_eq _) _) fun _ => rfl
  | some party =>
    refine Outcome.bind_of_eq rfl fun _ => ?_
    refine Outcome.bind_of_eq (h_same.input_eq _ _ _) fun _ => ?_
    exact Outcome.bind_of_eq (Metadata.counterOr_congr (h_same.present?_eq _) _) fun _ => rfl

omit h_same in
theorem map_of_body {α : Type} (make : α → Tx) {read read' : Except TxError (α × Cursor)}
    (h_body : read' = read.map (Prod.map id (Cursor.mapMetadata g))) :
    read'.map (.map make id) =
      (read.map (.map make id)).map (Prod.map id (Cursor.mapMetadata g)) := by
  subst h_body
  cases read <;> rfl

theorem readLayout_eq :
    readLayout m' (cursor.mapMetadata g) =
      (readLayout m cursor).map (Prod.map id (Cursor.mapMetadata g)) := by
  obtain ⟨k, position, rest⟩ := cursor
  cases k with
  | coinbase => exact map_of_body _ (h_same.coinbase_eq _)
  | slash => exact map_of_body _ (h_same.slash_eq _)
  | send => exact map_of_body _ (h_same.send_eq _)
  | reserveFund => exact map_of_body _ (h_same.reserveFund_eq _)
  | releaseFund => exact map_of_body _ (h_same.releaseFund_eq _)
  | servicePayment => exact map_of_body _ (h_same.servicePayment_eq _)
  | splitRule => exact map_of_body _ (h_same.splitRule_eq _)
  | smartContract => exact map_of_body _ (h_same.smartContract_eq _)
  | depositStake => exact map_of_body _ (h_same.depositStake_eq _)
  | withdrawStake => exact map_of_body _ (h_same.withdrawStake_eq _)
  | depositStakeV2 => exact map_of_body _ (h_same.depositStakeV2_eq _)
  | stakeRewardDistribution => exact map_of_body _ (h_same.stakeRewardDistribution_eq _)

/-- **Metadata that are read as the same** lead to the same outcome. -/
theorem ofOperations_eq (k : Kind) (ops : List Operation) :
    ofOperations k (ops.map (Operation.mapMetadata g)) m' = ofOperations k ops m := by
  refine Outcome.bind_eq_of_map (h_same.readLayout_eq (.start k ops)) fun ⟨tx, last⟩ => ?_
  show ((last.mapMetadata g).finish >>= _) = _
  rw [Cursor.finish_mapMetadata]
  rfl

end ReadsAs

end Tx

/-! ### Entries that are null -/

namespace Metadata

theorem lookup_eq_none_of_not_mem {key : String} {entries : List (String × Json)}
    (h_absent : key ∉ entries.map Prod.fst) : entries.lookup key = none := by
  rw [List.lookup_eq_none_iff]
  rintro ⟨k, v⟩ h_mem
  have h_ne : key ≠ k := fun h_eq => h_absent (h_eq ▸ List.mem_map_of_mem h_mem)
  simpa using h_ne

/-- An entry that is looked up among those with a property is found when it has the property: no
other entry has its key. -/
theorem lookup_filter_of_nodup (p : Json → Bool) (key : String) {entries : List (String × Json)}
    (h_nodup : (entries.map Prod.fst).Nodup) :
    (entries.filter fun e => p e.2).lookup key = (entries.lookup key).filter p := by
  induction entries with
  | nil => rfl
  | cons e rest ih =>
    obtain ⟨k, v⟩ := e
    rw [List.map_cons, List.nodup_cons] at h_nodup
    have h_rest := ih h_nodup.2
    rw [lookup_cons_eq, List.filter_cons]
    by_cases h_key : key = k
    · subst h_key
      rw [if_pos rfl, Option.filter_some]
      -- If the entry is left out, none of the others takes its place.
      rw [lookup_eq_none_of_not_mem h_nodup.1] at h_rest
      split
      · rw [lookup_cons_eq, if_pos rfl]
      · exact h_rest
    · rw [if_neg h_key, ← h_rest]
      split
      · rw [lookup_cons_eq, if_neg h_key]
      · rfl

/-- The metadata without the entries that are null. -/
def withoutNulls (m : Metadata) : Metadata :=
  ⟨m.entries.filter fun e => !e.2.isNull, (List.filter_sublist.map Prod.fst).nodup m.nodup⟩

/-- What is left are the entries that count. -/
theorem get?_withoutNulls (m : Metadata) (key : String) :
    m.withoutNulls.get? key = m.present? key :=
  lookup_filter_of_nodup (fun v => !v.isNull) key m.nodup

theorem present?_withoutNulls (m : Metadata) (key : String) :
    m.withoutNulls.present? key = m.present? key := by
  rw [present?, get?_withoutNulls, present?, Option.filter_filter]
  simp only [Bool.and_self]

/-- The metadata with a sequence of zero in place of one that is null. -/
def spellSequence (m : Metadata) : Metadata :=
  match m.get? "sequence" with
  | some .null => m.insert "sequence" (.ofNat 0)
  | _ => m

variable {m : Metadata}

theorem spellSequence_of_null (h_null : m.get? "sequence" = some .null) :
    m.spellSequence = m.insert "sequence" (.ofNat 0) := by
  rw [spellSequence, h_null]

theorem spellSequence_of_not_null (h_not : m.get? "sequence" ≠ some .null) :
    m.spellSequence = m := by
  unfold spellSequence
  split
  · next h_null => exact absurd h_null h_not
  · rfl

theorem present?_spellSequence {key : String} (h_key : key ≠ "sequence") (m : Metadata) :
    m.spellSequence.present? key = m.present? key := by
  by_cases h_null : m.get? "sequence" = some .null
  · rw [spellSequence_of_null h_null, present?, get?_insert, if_neg h_key, present?]
  · rw [spellSequence_of_not_null h_null]

end Metadata

namespace Operation

/-- The operation without the entries that are null. -/
def withoutNulls (op : Operation) : Operation := op.mapMetadata (Option.map Metadata.withoutNulls)

/-- The operation with a sequence of zero in place of one that is null. -/
def spellSequence (op : Operation) : Operation :=
  op.mapMetadata (Option.map Metadata.spellSequence)

theorem spellSequence_of_not_null {op : Operation}
    (h_not : op.metadata.bind (·.get? "sequence") ≠ some .null) : op.spellSequence = op := by
  obtain ⟨index, related, type, status, account, amount, metadata⟩ := op
  cases metadata with
  | none => rfl
  | some own =>
    have h_own : own.spellSequence = own := Metadata.spellSequence_of_not_null h_not
    simp only [spellSequence, mapMetadata, Option.map_some, h_own]

variable (op : Operation) (m : Metadata)

/-- A sequence that counts is the one that is spelt. -/
theorem sequence_spelt : op.spellSequence.withoutNulls.sequence m.withoutNulls = op.sequence m := by
  have h_own : op.spellSequence.withoutNulls.metadata.bind (·.get? "sequence") =
      op.metadata.bind fun own => own.spellSequence.present? "sequence" := by
    show ((op.metadata.map _).map _).bind _ = _
    rw [Option.bind_map, Option.bind_map]
    exact congrArg op.metadata.bind (funext fun own => Metadata.get?_withoutNulls _ _)
  rw [sequence, h_own, sequence]
  cases op.metadata with
  | none => exact Metadata.counterOr_congr (m.present?_withoutNulls _) 0
  | some own =>
    simp only [Option.bind_some]
    by_cases h_null : own.get? "sequence" = some .null
    · -- The null is read as the zero in its place.
      rw [Metadata.spellSequence_of_null h_null, Metadata.present?, Metadata.get?_insert,
        if_pos rfl, h_null]
      rfl
    · rw [Metadata.spellSequence_of_not_null h_null, Metadata.present?]
      cases h_get : own.get? "sequence" with
      | none => exact Metadata.counterOr_congr (m.present?_withoutNulls _) 0
      | some v =>
        have h_counts : (!v.isNull) = true := by
          cases v with
          | null => exact absurd h_get h_null
          | _ => rfl
        rw [Option.filter_some, if_pos h_counts]

theorem signature_spelt :
    op.spellSequence.withoutNulls.signature m.withoutNulls = op.signature m := by
  have h_own : (op.spellSequence.withoutNulls.metadata.getD .empty).bytes? "signature" =
      (op.metadata.getD .empty).bytes? "signature" := by
    refine Metadata.read?_congr ?_
    show (((op.metadata.map _).map _).getD Metadata.empty).present? _ = _
    cases op.metadata with
    | none => rfl
    | some own =>
      exact (Metadata.present?_withoutNulls _ _).trans
        (Metadata.present?_spellSequence (by decide) own)
  rw [signature, h_own, Metadata.bytesOrEmpty_congr (m.present?_withoutNulls _), signature]

end Operation

namespace Tx

/-- What counts of the entries is still read without the others. -/
theorem readsAs_withoutNulls (m : Metadata) :
    ReadsAs (fun own => (own.map Metadata.spellSequence).map Metadata.withoutNulls) m
      m.withoutNulls where
  present?_eq := m.present?_withoutNulls
  input_eq op account coins := by
    have h_sequence := op.sequence_spelt m
    have h_signature := op.signature_spelt m
    show Operation.input op.spellSequence.withoutNulls _ _ _ = _
    rw [Operation.input, h_sequence, h_signature, Operation.input]

/-- **An entry that is null counts as missing**, except for the sequence of an operation. In the
metadata of the transaction and of the operations, null entries can be left out without making a
difference to the outcome, if each null sequence of an operation is replaced with zero. So they can
be left out when there are none of these. -/
theorem ofOperations_withoutNulls (k : Kind) (ops : List Operation) (m : Metadata) :
    ofOperations k (ops.map fun op => op.spellSequence.withoutNulls) m.withoutNulls =
      ofOperations k ops m ∧
    ((∀ op ∈ ops, op.metadata.bind (·.get? "sequence") ≠ some .null) →
      ofOperations k (ops.map Operation.withoutNulls) m.withoutNulls = ofOperations k ops m) := by
  have h_spelt := (readsAs_withoutNulls m).ofOperations_eq k ops
  refine ⟨h_spelt, fun h_not => ?_⟩
  have h_same : ops.map Operation.withoutNulls =
      ops.map fun op => op.spellSequence.withoutNulls := by
    refine List.map_congr_left fun op h_mem => ?_
    rw [Operation.spellSequence_of_not_null (h_not op h_mem)]
  rw [h_same]
  exact h_spelt

namespace SampleNulls

open Construction.SampleSend (operation payer)

/-- A send whose first operation has some entries. -/
def asked (own : Metadata) : List Operation :=
  [{ operation "SendTxInput" "0x00000000000000000000000000000000000000ab" "-10" "THETA" with
      metadata := some own },
    operation "SendTxInput" "0x00000000000000000000000000000000000000ab" "0" "TFUEL",
    operation "SendTxOutput" "0x0000000000000000000000000000000000000000" "10" "THETA",
    operation "SendTxOutput" "0x0000000000000000000000000000000000000000" "0" "TFUEL",
    operation "TxFee" "0x00000000000000000000000000000000000000ab" "-3" "TFUEL"]

/-- The send that is built. -/
def built (sequence : UInt64) : Tx :=
  .send ⟨.ofTfuel 3, [⟨payer, ⟨10, 3⟩, sequence, []⟩], [⟨.zero, ⟨10, 0⟩⟩]⟩

/-- Entries of the first operation that are null. -/
def own : Metadata := .ofList [("signature", .null), ("memo", .null)]

/-- Entries of the transaction, one of which is null. -/
def told : Metadata := .ofList [("sequence", .string "1"), ("type", .null)]

theorem ofOperations_asked : ofOperations .send (asked own) told = .ok (built 1) :=
  Outcome.eq_ok_of_toOption (by decide)

/-- The send is built with the sequence of the transaction, with the null entries and without. -/
theorem ofOperations_withoutNulls_send :
    (∀ op ∈ asked own, op.metadata.bind (·.get? "sequence") ≠ some .null) ∧
      ofOperations .send (asked own) told = .ok (built 1) ∧
      ofOperations .send ((asked own).map Operation.withoutNulls) told.withoutNulls =
        .ok (built 1) := by
  have h_not : ∀ op ∈ asked own, op.metadata.bind (·.get? "sequence") ≠ some .null := by
    intro op h_mem h_null
    simp only [asked, List.mem_cons, List.not_mem_nil, or_false] at h_mem
    rcases h_mem with rfl | rfl | rfl | rfl | rfl <;> cases h_null
  exact ⟨h_not, ofOperations_asked,
    ((ofOperations_withoutNulls .send (asked own) told).2 h_not).trans ofOperations_asked⟩

/-- The entries of an operation with a sequence that is null. -/
def ownSequence : Metadata := .ofList [("sequence", .null)]

/-- The sequence of an operation that is null hides that of the transaction. -/
theorem not_ofOperations_withoutNulls :
    ¬ ∀ (k : Kind) (ops : List Operation) (m : Metadata),
      ofOperations k (ops.map Operation.withoutNulls) m.withoutNulls = ofOperations k ops m := by
  intro h_all
  have h_null : ofOperations .send (asked ownSequence) told = .ok (built 0) :=
    Outcome.eq_ok_of_toOption (by decide)
  have h_without : ofOperations .send ((asked ownSequence).map Operation.withoutNulls)
      told.withoutNulls = .ok (built 1) := Outcome.eq_ok_of_toOption (by decide)
  cases h_null.symm.trans ((h_all .send (asked ownSequence) told).symm.trans h_without)

end SampleNulls

end Tx

end RosettaGateway
