import RosettaGateway.Proofs.Block

/-!
# Stakes come back

A withdrawal pays its fee in its own block; the stake is shown 28800 blocks later, once and in full,
whatever other blocks are asked for in between and however often (`StakeReturn.comes_back`).

The node is one whose answers do not change, and its blocks have to be those of a chain
(`Answers.IsChain`): one block per height, and no hash on two transactions. Two facts about every
request for a block carry the proof over a run of such requests (`Update.ledgerAfter`):

* what the ledger holds stems from withdrawals in blocks of the node (`StakeReturn.Stems`), and as
  hashes are distinct, a record tells which one;
* the list at each height only grows at its end, so what has been scheduled stays.
-/

namespace RosettaGateway

/-! ### Chains -/

/-- A block that the node has. -/
def NodeBlock.IsOf (b : NodeBlock) (answers : Answers) : Prop :=
  ∃ identifier, (Query.namedBlock identifier).Ends answers (.ok b)

/-- The blocks that the node has are those of a chain. -/
structure Answers.IsChain (answers : Answers) : Prop where
  height_injective : ∀ b b' : NodeBlock, b.IsOf answers → b'.IsOf answers →
    b.height = b'.height → b = b'
  hashes_nodup : ∀ b : NodeBlock, b.IsOf answers → (b.txs.map (·.hash)).Nodup
  hashes_apart : ∀ b b' : NodeBlock, b.IsOf answers → b'.IsOf answers → b.height ≠ b'.height →
    ∀ tx ∈ b.txs, ∀ tx' ∈ b'.txs, tx.hash ≠ tx'.hash

/-- In a chain a hash tells the transaction and its block. -/
theorem Answers.IsChain.eq_of_hash {answers : Answers} (h_chain : answers.IsChain)
    {b b' : NodeBlock} (h_of : b.IsOf answers) (h_of' : b'.IsOf answers) {tx tx' : BlockTx}
    (h_tx : tx ∈ b.txs) (h_tx' : tx' ∈ b'.txs) (h_hash : tx.hash = tx'.hash) :
    b = b' ∧ tx = tx' := by
  have h_height : b.height = b'.height := by
    -- Blocks at different heights have no hash in common.
    by_contra h_ne
    exact h_chain.hashes_apart b b' h_of h_of' h_ne tx h_tx tx' h_tx' h_hash
  obtain rfl := h_chain.height_injective b b' h_of h_of' h_height
  exact ⟨rfl, List.inj_on_of_nodup_map (h_chain.hashes_nodup b h_of) h_tx h_tx' h_hash⟩

/-! ### Where records come from -/

/-- A record at a height stems from a withdrawal in a block of the node, of which the locking period
ends at this height. -/
def StakeReturn.Stems (answers : Answers) (height : UInt64) (r : StakeReturn) : Prop :=
  ∃ b : NodeBlock, b.IsOf answers ∧ Chain.returnHeight b.height = height ∧
    ∃ tx ∈ b.txs, ∃ w amount, Tx.ofNode tx.code tx.raw = .ok (.withdrawStake w) ∧
      (Query.resolveStake b.height w).Ends answers (.ok amount) ∧
      r = .ofWithdrawal tx.hash w amount

namespace Update

variable {answers : Answers} {identifier : PartialBlockIdentifier}
  {outcome : Except ApiError Block} {before after : Ledger}

/-- A request for a block takes nothing away. -/
theorem BlockEnds.due_prefix (h_ends : BlockEnds answers identifier before outcome after)
    (height : UInt64) : before.due height <+: after.due height := by
  rcases h_ends.exists_put with rfl | ⟨b, txs, ts, returns, -, -, -, rfl⟩
  · exact List.prefix_rfl
  · exact Ledger.due_prefix_put _ height returns before

/-- A request for a block writes only what stems from a withdrawal. -/
theorem BlockEnds.stems (h_ends : BlockEnds answers identifier before outcome after)
    (h_before : ∀ height, ∀ r ∈ before.due height, r.Stems answers height) :
    ∀ height, ∀ r ∈ after.due height, r.Stems answers height := by
  intro height r h_mem
  rcases h_ends.exists_of_mem_due h_mem with h_old | ⟨b, h_block, h_rest⟩
  · exact h_before height r h_old
  · exact ⟨b, ⟨identifier, h_block⟩, h_rest⟩

/-- When a request is answered, each withdrawal of its block is in the ledger. -/
theorem BlockEnds.exists_due {shown : Block}
    (h_ends : BlockEnds answers identifier before (.ok shown) after) :
    ∃ b, (Query.namedBlock identifier).Ends answers (.ok b) ∧
      ∀ tx ∈ b.txs, ∀ w, Tx.ofNode tx.code tx.raw = .ok (.withdrawStake w) →
        ∃ r ∈ after.due (Chain.returnHeight b.height), r.hash = tx.hash := by
  cases h_ends with
  | answered h_block h_shown =>
    refine ⟨_, h_block, fun tx h_tx w h_read => ?_⟩
    obtain ⟨i, h_lt, h_get⟩ := List.getElem_of_mem h_tx
    obtain ⟨t, own, -, h_own, h_subset⟩ :=
      h_shown.getElem? (List.getElem?_eq_some_iff.mpr ⟨h_lt, h_get⟩) []
    obtain ⟨amount, -, -, rfl⟩ := h_own.of_withdrawal h_read
    exact Ledger.exists_mem_due_put (h_subset List.mem_cons_self) before

/-- The answer to a request shows the transactions of its block, and then the returns that are due
when the request is over. -/
theorem BlockEnds.exists_shown {shown : Block}
    (h_ends : BlockEnds answers identifier before (.ok shown) after) :
    ∃ b ts returns, (Query.namedBlock identifier).Ends answers (.ok b) ∧
      b.Shown answers b.txs ts returns ∧ shown = .ofNode b
        (ts ++ (after.due b.height).map (Transaction.ofReturn b.status.name)) := by
  cases h_ends with
  | answered h_block h_shown => exact ⟨_, _, _, h_block, h_shown, rfl⟩

/-! ### Runs -/

/-- The ledger after requests for blocks, one after the other, whether they are answered or not. -/
def ledgerAfter (node : NodeCall → NodeReply) (start : Ledger)
    (requests : List PartialBlockIdentifier) : Ledger :=
  requests.foldl (fun l identifier => ((block identifier).against node l).2) start

theorem blockEnds_against (node : NodeCall → NodeReply) (l : Ledger)
    (identifier : PartialBlockIdentifier) :
    BlockEnds (.fixed node) identifier l ((block identifier).against node l).1
      ((block identifier).against node l).2 :=
  ends_block (ends_fixed_iff.mpr rfl)

/-- A request is answered if its block has no transaction that stops it. -/
theorem exists_shown_against {node : NodeCall → NodeReply} {identifier : PartialBlockIdentifier}
    {b : NodeBlock} (h_block : (Query.namedBlock identifier).against node = .ok b)
    (h_stop : ∀ tx ∈ b.txs, ∀ e, ¬ tx.Stops (.fixed node) b e) (l : Ledger) :
    ∃ shown, ((block identifier).against node l).1 = .ok shown := by
  have h_ends := blockEnds_against node l identifier
  obtain ⟨after, h_after⟩ : ∃ after, ((block identifier).against node l).2 = after := ⟨_, rfl⟩
  cases h_outcome : ((block identifier).against node l).1 with
  | ok shown => exact ⟨shown, rfl⟩
  | error e =>
    rw [h_outcome, h_after] at h_ends
    cases h_ends with
    | missing h_missing =>
      rw [Query.ends_fixed_iff, h_block] at h_missing
      cases h_missing
    | stopped h_of h_txs _ h_stopped =>
      obtain rfl := Query.eq_of_against h_block h_of
      exact absurd h_stopped (h_stop _ (h_txs ▸ by simp) e)

/-- What each request preserves is preserved by a run of requests. -/
theorem ledgerAfter_induction {node : NodeCall → NodeReply} {P : Ledger → Prop}
    (h_step : ∀ identifier outcome before after,
      BlockEnds (.fixed node) identifier before outcome after → P before → P after)
    {start : Ledger} (h_start : P start) (requests : List PartialBlockIdentifier) :
    P (ledgerAfter node start requests) := by
  induction requests generalizing start with
  | nil => exact h_start
  | cons identifier rest ih =>
    exact ih (h_step _ _ _ _ (blockEnds_against node start identifier) h_start)

/-- Requests take nothing away. -/
theorem due_prefix_ledgerAfter (node : NodeCall → NodeReply) (start : Ledger)
    (requests : List PartialBlockIdentifier) (height : UInt64) :
    start.due height <+: (ledgerAfter node start requests).due height := by
  refine ledgerAfter_induction (P := fun l => start.due height <+: l.due height) ?_
    List.prefix_rfl requests
  intro identifier outcome before after h_ends h_prefix
  exact h_prefix.trans (h_ends.due_prefix height)

/-- All that requests have written stems from withdrawals. -/
theorem stems_ledgerAfter (node : NodeCall → NodeReply) (requests : List PartialBlockIdentifier) :
    ∀ height, ∀ r ∈ (ledgerAfter node .empty requests).due height,
      r.Stems (.fixed node) height := by
  refine ledgerAfter_induction
    (P := fun l => ∀ height, ∀ r ∈ l.due height, r.Stems (.fixed node) height) ?_ ?_ requests
  · intro identifier outcome before after h_ends h_before
    exact h_ends.stems h_before
  · intro height r h_mem
    cases h_mem

theorem ledgerAfter_append (node : NodeCall → NodeReply) (start : Ledger)
    (requests others : List PartialBlockIdentifier) :
    ledgerAfter node start (requests ++ others) =
      ledgerAfter node (ledgerAfter node start requests) others :=
  List.foldl_append

end Update

/-! ### What is shown of a withdrawal -/

namespace StakeReturn

/-- The stake of a purpose comes back in the coin that is staked for it. -/
theorem coinOf_of_purpose {code : UInt8} {purpose : StakePurpose}
    (h_purpose : StakePurpose.ofCode? code = some purpose) :
    coinOf code = if purpose = .eliteEdgeNode then .tfuel else .theta := by
  rw [coinOf, h_purpose]
  cases purpose <;> rfl

/-- A stake that comes back is one operation, which credits the account that had staked it. -/
theorem operations_ofReturn (status : String) (hash : Hash) (w : Tx.WithdrawStake) {amount : Nat}
    (h_pos : 0 < amount) :
    (Transaction.ofReturn status (ofWithdrawal hash w amount)).description.operations =
      [{ index := 0, type := "WithdrawStakeTxSource", status := some status,
         account := some (.ofAddress w.source.address),
         amount := some (.ofInt amount (coinOf w.purpose)),
         metadata := some w.source.metadata }] := by
  have h_ne : amount ≠ 0 := Nat.pos_iff_ne_zero.mp h_pos
  -- There is one coin, so there is one leg.
  have h_shown : (Denom.all.filter fun d =>
      (({} : Coins).set (coinOf w.purpose) amount).get d ≠ 0) = [coinOf w.purpose] := by
    cases coinOf w.purpose with
    | theta => simp [Denom.all, Coins.set, Coins.get, h_ne]
    | tfuel => simp [Denom.all, Coins.set, Coins.get, h_ne]
  show Operation.ofLegs (some status) (Tx.partyLegs _ _ (({} : Coins).set (coinOf w.purpose) amount)
    false _) = _
  rw [Tx.partyLegs, h_shown]
  show [Leg.operation ⟨_, _, ((({} : Coins).set (coinOf w.purpose) amount).get _ : Nat), _, _⟩ _ 0]
    = _
  rw [Coins.get_set]
  rfl

end StakeReturn

/-- A stake that is found has a known purpose. -/
theorem Query.purpose_of_resolveStake {answers : Answers} {height : UInt64} {w : Tx.WithdrawStake}
    {amount : Nat} (h_amount : (Query.resolveStake height w).Ends answers (.ok amount)) :
    ∃ purpose, StakePurpose.ofCode? w.purpose = some purpose := by
  cases h_purpose : StakePurpose.ofCode? w.purpose with
  | some purpose => exact ⟨purpose, rfl⟩
  | none =>
    rw [Query.resolveStake, h_purpose] at h_amount
    cases h_amount

/-- Unless heights end before, a stake comes back when the locking period is over. -/
theorem Chain.returnHeight_eq {height due : UInt64} (h_due : due.toNat = height.toNat + 28800) :
    Chain.returnHeight height = due := by
  have h_lt := due.toNat_lt
  apply UInt64.toNat_inj.mp
  rw [toNat_returnHeight, h_due]
  omega

/-! ### The return of a stake -/

namespace StakeReturn

open Update (ledgerAfter BlockEnds)

variable {node : NodeCall → NodeReply}

/-- In a chain the hash of a record tells the withdrawal it stems from. -/
theorem Stems.eq_of_hash (h_chain : (Answers.fixed node).IsChain) {height : UInt64}
    {r : StakeReturn} (h_stems : r.Stems (.fixed node) height) {b : NodeBlock}
    (h_of : b.IsOf (.fixed node)) {tx : BlockTx} (h_tx : tx ∈ b.txs) {w : Tx.WithdrawStake}
    (h_read : Tx.ofNode tx.code tx.raw = .ok (.withdrawStake w)) {amount : Nat}
    (h_amount : (Query.resolveStake b.height w).against node = .ok amount)
    (h_hash : r.hash = tx.hash) : r = .ofWithdrawal tx.hash w amount := by
  obtain ⟨b', h_of', -, tx', h_tx', w', amount', h_read', h_amount', rfl⟩ := h_stems
  obtain ⟨rfl, rfl⟩ := h_chain.eq_of_hash h_of' h_of h_tx' h_tx h_hash
  -- The same text is read as the same withdrawal, and its stake is found once more.
  rw [h_read] at h_read'
  cases h_read'
  rw [Query.eq_of_against h_amount h_amount']

/-- **Once the block of a withdrawal has been answered**, the return of the stake is in the ledger
at the end of the locking period, whatever is asked for afterwards, and nothing else there has its
hash. -/
theorem due_ledgerAfter (h_chain : (Answers.fixed node).IsChain)
    (earlier : List PartialBlockIdentifier) {first : PartialBlockIdentifier}
    {b : NodeBlock} {shown : Block} {tx : BlockTx} {w : Tx.WithdrawStake} {amount : Nat}
    (h_first : ((Update.block first).against node (ledgerAfter node .empty earlier)).1 = .ok shown)
    (h_block : (Query.namedBlock first).against node = .ok b) (h_tx : tx ∈ b.txs)
    (h_read : Tx.ofNode tx.code tx.raw = .ok (.withdrawStake w))
    (h_amount : (Query.resolveStake b.height w).against node = .ok amount)
    (others : List PartialBlockIdentifier) :
    ((ledgerAfter node .empty (earlier ++ first :: others)).due
      (Chain.returnHeight b.height)).filter (·.hash = tx.hash) =
        [.ofWithdrawal tx.hash w amount] := by
  have h_ends := Update.blockEnds_against node (ledgerAfter node .empty earlier) first
  rw [h_first] at h_ends
  obtain ⟨b', h_block', h_due⟩ := h_ends.exists_due
  obtain rfl := Query.eq_of_against h_block h_block'
  -- The record is there after the first request, and requests take nothing away.
  obtain ⟨r, h_mem, h_hash⟩ := h_due tx h_tx w h_read
  have h_later : r ∈ (ledgerAfter node .empty (earlier ++ first :: others)).due
      (Chain.returnHeight b.height) := by
    rw [Update.ledgerAfter_append]
    exact (Update.due_prefix_ledgerAfter node _ others _).subset h_mem
  have h_stems := Update.stems_ledgerAfter node (earlier ++ first :: others) _ r h_later
  have h_record : r = .ofWithdrawal tx.hash w amount :=
    h_stems.eq_of_hash h_chain ⟨first, h_block'⟩ h_tx h_read h_amount h_hash
  have h_only := Ledger.filter_due h_later
  rw [h_hash] at h_only
  rw [h_only, h_record]

/-- **A stake comes back once, in full, at the right height.** Take any run of requests for blocks
in which the block at some height was answered and holds a withdrawal whose stake was found, and any
later answer for the block 28800 heights above. The transactions of the later block come first, in
their order. Behind them stands exactly one transaction with the hash of the withdrawal, and it has
exactly one operation, which credits the whole stake to its source. The withdrawal itself was shown
under an identifier of its own, with the fee as its only operation. -/
theorem comes_back (h_chain : (Answers.fixed node).IsChain)
    (earlier between : List PartialBlockIdentifier) {first later : PartialBlockIdentifier}
    {b b' : NodeBlock} {shown shown' : Block} {i : Nat} {tx : BlockTx} {w : Tx.WithdrawStake}
    {amount : Nat}
    (h_first : ((Update.block first).against node (ledgerAfter node .empty earlier)).1 = .ok shown)
    (h_block : (Query.namedBlock first).against node = .ok b) (h_tx : b.txs[i]? = some tx)
    (h_read : Tx.ofNode tx.code tx.raw = .ok (.withdrawStake w))
    (h_amount : (Query.resolveStake b.height w).against node = .ok amount) (h_pos : 0 < amount)
    (h_later : ((Update.block later).against node
      (ledgerAfter node .empty (earlier ++ first :: between))).1 = .ok shown')
    (h_block' : (Query.namedBlock later).against node = .ok b')
    (h_height : b'.height.toNat = b.height.toNat + 28800) :
    (∃ purpose, StakePurpose.ofCode? w.purpose = some purpose ∧
      ∃ t : Transaction, (shown'.transactions.drop b'.txs.length).filter (·.hash = tx.hash) = [t] ∧
        t.description.operations =
          [{ index := 0, type := "WithdrawStakeTxSource", status := some b'.status.name,
             account := some (.ofAddress w.source.address),
             amount := some
              (.ofInt amount (if purpose = .eliteEdgeNode then .tfuel else .theta)),
             metadata := some w.source.metadata }]) ∧
    (∀ (j : Nat) (tx' : BlockTx), b'.txs[j]? = some tx' →
      ∃ t : Transaction, shown'.transactions[j]? = some t ∧
        (t.hash = tx'.hash ∨ t.hash = withdrawalIdentifier tx'.hash)) ∧
    ∃ t : Transaction, shown.transactions[i]? = some t ∧ t.hash = withdrawalIdentifier tx.hash ∧
      t.description.operations =
        [{ index := 0, type := "TxFee", status := some b.status.name,
           account := some (.ofAddress w.source.address),
           amount := some (.ofInt (-(w.fee.tfuel : Int)) .tfuel),
           metadata := some w.source.metadata }] := by
  have h_ends := Update.blockEnds_against node (ledgerAfter node .empty earlier) first
  have h_ends' := Update.blockEnds_against node
    (ledgerAfter node .empty (earlier ++ first :: between)) later
  rw [h_first] at h_ends
  rw [h_later] at h_ends'
  obtain ⟨_, ts, _, h_of, h_txs, rfl⟩ := h_ends.exists_shown
  obtain ⟨_, ts', _, h_of', h_txs', rfl⟩ := h_ends'.exists_shown
  obtain rfl := Query.eq_of_against h_block h_of
  obtain rfl := Query.eq_of_against h_block' h_of'
  -- When the later request is over, the ledger is that of the run with this request at its end.
  have h_only : ((((Update.block later).against node (ledgerAfter node .empty
      (earlier ++ first :: between))).2.due b'.height).filter (·.hash = tx.hash)) =
        [.ofWithdrawal tx.hash w amount] := by
    have h_due := due_ledgerAfter h_chain earlier h_first h_block (List.mem_of_getElem? h_tx) h_read
      h_amount (between ++ [later])
    rw [Chain.returnHeight_eq h_height, ← List.cons_append, ← List.append_assoc,
      Update.ledgerAfter_append] at h_due
    exact h_due
  refine ⟨?_, ?_, ?_⟩
  · obtain ⟨purpose, h_purpose⟩ :=
      Query.purpose_of_resolveStake (Query.ends_fixed_iff.mpr h_amount)
    refine ⟨purpose, h_purpose, .ofReturn b'.status.name (.ofWithdrawal tx.hash w amount), ?_, ?_⟩
    · show ((ts' ++ _).drop b'.txs.length).filter _ = _
      rw [← h_txs'.length_eq, List.drop_left, List.filter_map]
      exact congrArg (List.map _) h_only
    · rw [operations_ofReturn _ _ _ h_pos, coinOf_of_purpose h_purpose]
  · intro j tx' h_tx'
    obtain ⟨t, _, h_t, h_own, -⟩ := h_txs'.getElem? h_tx' _
    exact ⟨t, h_t, h_own.hash_eq⟩
  · obtain ⟨t, _, h_t, h_own, -⟩ := h_txs.getElem? h_tx _
    obtain ⟨_, -, rfl, -⟩ := h_own.of_withdrawal h_read
    exact ⟨_, h_t, rfl, rfl⟩

end StakeReturn

/-! ### A chain with one withdrawal -/

namespace SampleChain

/-- The text of an account, as nodes give it. -/
def account : Json := .string (Hex.plain Address.zero.bytes)

/-- The hash of the withdrawal. -/
def txHash : Hash := ⟨List.replicate 32 7, List.length_replicate⟩

/-- The withdrawal: a validator's stake, for a fee of three. -/
def withdrawal : Tx.WithdrawStake :=
  ⟨.ofTfuel 3, { address := .zero, sequence := 1 }, { address := .zero }, 0⟩

/-- The withdrawal as the node tells it. -/
def raw : Json :=
  .object [("fee", .object [("tfuelwei", .string "3")]),
    ("source", .object [("address", account), ("sequence", .ofNat 1)]),
    ("holder", .object [("address", account)])]

/-- The withdrawal in its block. -/
def blockTx : BlockTx := ⟨raw, 9, txHash, none, none⟩

/-- A block of the chain. -/
def block (height : UInt64) (txs : List BlockTx) : NodeBlock :=
  ⟨"", height, .zero, .zero, .zero, .zero, 0, .zero, .trusted, some txs⟩

/-- A block as the node tells it. -/
def blockJson (height : UInt64) (txs : List Json) : Json :=
  .object [("height", Counter.toJson height), ("hash", .string Hash.zero.toText),
    ("status", .string "trusted"), ("transactions", .array txs)]

/-- The transaction of a block as the node tells it. -/
def txJson : Json :=
  .object [("raw", raw), ("type", .ofNat 9), ("hash", .string txHash.toText)]

/-- The pool of validators, with a stake of five. -/
def pool : Json :=
  .object [("BlockHashVcpPairs", .array [.object [("Vcp", .object [("SortedCandidates",
    .array [.object [("Holder", account), ("Stakes",
      .array [.object [("source", account), ("amount", .string "5")]])]])])]])]

/-- The node has a block with the withdrawal, and the one in which the stake comes back. -/
def node : NodeCall → NodeReply
  | .blockAt height =>
    if height = 1 then .ok (blockJson 1 [txJson])
    else if height = 28801 then .ok (blockJson 28801 [])
    else .ok .null
  | .stakePool .validator _ => .ok pool
  | _ => .ok .null

theorem against_namedBlock :
    (Query.namedBlock ⟨some 1, none⟩).against node = .ok (block 1 [blockTx]) ∧
      (Query.namedBlock ⟨some 28801, none⟩).against node = .ok (block 28801 []) :=
  ⟨rfl, rfl⟩

theorem ofNode_blockTx : Tx.ofNode blockTx.code blockTx.raw = .ok (.withdrawStake withdrawal) := rfl

theorem against_resolveStake : (Query.resolveStake 1 withdrawal).against node = .ok 5 := rfl

/-- The node has a block at two heights. -/
theorem eq_of_blockAt {height : UInt64} {b : NodeBlock}
    (h_block : (Query.block (.blockAt height)).against node = .ok b) :
    b = block 1 [blockTx] ∨ b = block 28801 [] := by
  by_cases h_first : height = 1
  · subst h_first
    exact Or.inl (Except.ok.inj h_block).symm
  · by_cases h_second : height = 28801
    · subst h_second
      exact Or.inr (Except.ok.inj h_block).symm
    · -- At any other height the reply is `null`, which is no block.
      have h_node : node (.blockAt height) = .ok .null := by
        rw [node, if_neg h_first, if_neg h_second]
      have h_null : (Query.block (.blockAt height)).against node = .error .blockNotFound := by
        rw [Query.against, Query.block, Query.find, Query.ask, ExceptT.run_bind, ExceptT.run_mk,
          Dialogue.ask_bind, Dialogue.run_ask, h_node]
        rfl
      rw [h_null] at h_block
      cases h_block

/-- The node has no other blocks. -/
theorem eq_of_isOf {b : NodeBlock} (h_of : b.IsOf (.fixed node)) :
    b = block 1 [blockTx] ∨ b = block 28801 [] := by
  obtain ⟨⟨index, hash⟩, h_ends⟩ := h_of
  rw [Query.ends_fixed_iff] at h_ends
  cases index with
  | none =>
    cases hash with
    | none => cases h_ends
    -- The node finds blocks by their height alone.
    | some s =>
      rw [Query.namedBlock, Query.blockWithHash, Query.hashOf] at h_ends
      cases h_hash : Hash.ofText? s with
      | none =>
        rw [h_hash] at h_ends
        cases h_ends
      | some hash =>
        rw [h_hash] at h_ends
        cases h_ends
  | some index =>
    rw [Query.namedBlock, Query.blockWithIndex, Query.heightOf] at h_ends
    by_cases h_neg : index < 0
    · rw [if_pos h_neg] at h_ends
      cases h_ends
    · rw [if_neg h_neg] at h_ends
      exact eq_of_blockAt h_ends

/-- The blocks of the node are those of a chain. -/
theorem isChain : (Answers.fixed node).IsChain where
  height_injective b b' h_of h_of' h_height := by
    rcases eq_of_isOf h_of with rfl | rfl <;> rcases eq_of_isOf h_of' with rfl | rfl
    · rfl
    · exact absurd h_height (by decide)
    · exact absurd h_height (by decide)
    · rfl
  hashes_nodup b h_of := by
    rcases eq_of_isOf h_of with rfl | rfl
    · exact List.nodup_singleton _
    · exact List.nodup_nil
  hashes_apart b b' h_of h_of' h_height tx h_tx tx' h_tx' := by
    rcases eq_of_isOf h_of with rfl | rfl <;> rcases eq_of_isOf h_of' with rfl | rfl
    · exact absurd rfl h_height
    · cases h_tx'
    · cases h_tx
    · cases h_tx

/-- Requests for the first block are answered. -/
theorem not_stops (e : ApiError) : ¬ blockTx.Stops (.fixed node) (block 1 [blockTx]) e := by
  intro h_stop
  cases h_stop with
  | unread h_read =>
    rw [ofNode_blockTx] at h_read
    cases h_read
  | unresolved h_read h_amount =>
    rw [ofNode_blockTx] at h_read
    cases h_read
    rw [Query.ends_fixed_iff] at h_amount
    cases against_resolveStake.symm.trans h_amount

/-- The stake comes back when both blocks are asked for, and the first one twice. -/
theorem comes_back_once : ∃ shown shown' : Block,
    ((Update.block ⟨some 1, none⟩).against node .empty).1 = .ok shown ∧
    ((Update.block ⟨some 28801, none⟩).against node (Update.ledgerAfter node .empty
      [⟨some 1, none⟩, ⟨some 1, none⟩])).1 = .ok shown' ∧
    ∃ t : Transaction, shown'.transactions.filter (·.hash = txHash) = [t] ∧
      t.description.operations =
        [{ index := 0, type := "WithdrawStakeTxSource", status := some "trusted",
           account := some (.ofAddress .zero), amount := some (.ofInt 5 .theta),
           metadata := some withdrawal.source.metadata }] := by
  obtain ⟨shown, h_shown⟩ := Update.exists_shown_against against_namedBlock.1
    (fun tx h_tx e => List.mem_singleton.mp h_tx ▸ not_stops e) .empty
  obtain ⟨shown', h_shown'⟩ := Update.exists_shown_against against_namedBlock.2
    (fun tx h_tx => absurd h_tx List.not_mem_nil)
    (Update.ledgerAfter node .empty [⟨some 1, none⟩, ⟨some 1, none⟩])
  obtain ⟨⟨purpose, h_purpose, h_back⟩, -, -⟩ := StakeReturn.comes_back isChain []
    [⟨some 1, none⟩] h_shown against_namedBlock.1 (i := 0) rfl ofNode_blockTx against_resolveStake
    (by decide) h_shown' against_namedBlock.2 rfl
  cases h_purpose
  exact ⟨shown, shown', h_shown, h_shown', h_back⟩

end SampleChain

end RosettaGateway
