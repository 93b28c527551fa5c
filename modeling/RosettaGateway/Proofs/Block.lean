import RosettaGateway.Api.Block
import RosettaGateway.Proofs.Dialogue
import RosettaGateway.Proofs.Stake.Ledger

/-!
# What a request for a block does

A request for a block finds the block, shows its transactions one after the other, and then the
returns that are due at its height. This module says what it can end with, and what it writes, as
relations that read like the prose:

* `BlockTx.Shown` and `BlockTx.Stops` — a transaction is shown and schedules returns, or it stops
  the request;
* `NodeBlock.Shown` — transactions are shown one after the other;
* `Update.BlockEnds` — the ends of a request, of which there are three: there is no block, a
  transaction has stopped it, or it is answered.

`Update.ends_block` reads them off the definition. Whatever the end, all that has been written are
returns at one height (`Update.BlockEnds.exists_put`), which stay when the request fails later.
-/

namespace RosettaGateway

/-! ### One transaction -/

namespace BlockTx

variable {answers : Answers} {b : NodeBlock} {tx : BlockTx}

/-- A transaction of a block can be shown, and schedules returns when it is. -/
inductive Shown (answers : Answers) (b : NodeBlock) (tx : BlockTx) :
    Transaction → List StakeReturn → Prop
  | unread {e : TxError} (h_read : Tx.ofNode tx.code tx.raw = .error e)
      (h_code : tx.code ≠ Tx.Kind.withdrawStake.code.toUInt64) :
      Shown answers b tx (.unread tx.hash tx.code) []
  | withdrawal {w : Tx.WithdrawStake} {amount : Nat}
      (h_read : Tx.ofNode tx.code tx.raw = .ok (.withdrawStake w))
      (h_amount : (Query.resolveStake b.height w).Ends answers (.ok amount)) :
      Shown answers b tx
        ⟨StakeReturn.withdrawalIdentifier tx.hash,
          (Tx.withdrawStake w).describe (tx.context b.status)⟩
        [.ofWithdrawal tx.hash w amount]
  | other {body : Tx} (h_read : Tx.ofNode tx.code tx.raw = .ok body)
      (h_kind : body.kind ≠ .withdrawStake) :
      Shown answers b tx ⟨tx.hash, body.describe (tx.context b.status)⟩ []

/-- A transaction of a block can stop the request: a withdrawal that cannot be read, or whose stake
cannot be found. -/
inductive Stops (answers : Answers) (b : NodeBlock) (tx : BlockTx) : ApiError → Prop
  | unread {e : TxError} (h_read : Tx.ofNode tx.code tx.raw = .error e)
      (h_code : tx.code = Tx.Kind.withdrawStake.code.toUInt64) :
      Stops answers b tx (.unreadableTransaction (tx.hash.toText ++ ": " ++ e.message))
  | unresolved {w : Tx.WithdrawStake} {e : ApiError}
      (h_read : Tx.ofNode tx.code tx.raw = .ok (.withdrawStake w))
      (h_amount : (Query.resolveStake b.height w).Ends answers (.error e)) :
      Stops answers b tx e

/-- A withdrawal that is shown has its stake found, and schedules the return of it. -/
theorem Shown.of_withdrawal {t : Transaction} {returns : List StakeReturn}
    (h_shown : tx.Shown answers b t returns) {w : Tx.WithdrawStake}
    (h_read : Tx.ofNode tx.code tx.raw = .ok (.withdrawStake w)) :
    ∃ amount, (Query.resolveStake b.height w).Ends answers (.ok amount) ∧
      t = ⟨StakeReturn.withdrawalIdentifier tx.hash,
        (Tx.withdrawStake w).describe (tx.context b.status)⟩ ∧
      returns = [.ofWithdrawal tx.hash w amount] := by
  cases h_shown with
  | unread h_error =>
    rw [h_read] at h_error
    cases h_error
  | withdrawal h_body h_amount =>
    rw [h_read] at h_body
    cases h_body
    exact ⟨_, h_amount, rfl, rfl⟩
  | other h_body h_kind =>
    rw [h_read] at h_body
    cases h_body
    exact absurd rfl h_kind

/-- A transaction is shown under its own hash, or under the identifier of a withdrawal. -/
theorem Shown.hash_eq {t : Transaction} {returns : List StakeReturn}
    (h_shown : tx.Shown answers b t returns) :
    t.hash = tx.hash ∨ t.hash = StakeReturn.withdrawalIdentifier tx.hash := by
  cases h_shown with
  | unread => exact Or.inl rfl
  | withdrawal => exact Or.inr rfl
  | other => exact Or.inl rfl

end BlockTx

namespace Update

variable {answers : Answers} {b : NodeBlock} {before after : Ledger}

theorem ends_scheduleReturn {height : UInt64} {hash : Hash} {w : Tx.WithdrawStake} {amount : Nat}
    {outcome : Except ApiError Unit}
    (h_ends : Ends answers (scheduleReturn height hash w amount) before outcome after) :
    outcome = .ok () ∧
      after = (before.put (Chain.returnHeight height) [.ofWithdrawal hash w amount]).1 := by
  rcases ends_bind_iff.mp h_ends with ⟨l, between, h_ledger, h_set⟩ | ⟨e, h_ledger, -⟩
  · obtain ⟨h_ok, rfl⟩ := ends_ledger_iff.mp h_ledger
    cases h_ok
    exact ends_setLedger_iff.mp h_set
  · cases (ends_ledger_iff.mp h_ledger).1

/-- **A transaction is shown or stops the request**, and what it schedules is put at the height at
which the locking period ends. -/
theorem ends_blockTransaction {tx : BlockTx} {outcome : Except ApiError Transaction}
    (h_ends : Ends answers (blockTransaction b tx) before outcome after) :
    (∃ t returns, tx.Shown answers b t returns ∧ outcome = .ok t ∧
      after = (before.put (Chain.returnHeight b.height) returns).1) ∨
    ∃ e, tx.Stops answers b e ∧ outcome = .error e ∧ after = before := by
  unfold blockTransaction at h_ends
  split at h_ends
  · next e h_read =>
    split at h_ends
    · next h_code =>
      obtain ⟨h_fail, rfl⟩ := ends_toUpdate_iff.mp h_ends
      exact Or.inr ⟨_, .unread h_read h_code, Query.ends_ofExcept_iff.mp h_fail, rfl⟩
    · next h_code =>
      obtain ⟨rfl, rfl⟩ := ends_pure_iff.mp h_ends
      exact Or.inl ⟨_, [], .unread h_read h_code, rfl, rfl⟩
  · next body h_read =>
    cases body with
    | withdrawStake w =>
      rcases ends_bind_iff.mp h_ends with ⟨amount, between, h_query, h_rest⟩ | ⟨e, h_query, rfl⟩
      · obtain ⟨h_amount, rfl⟩ := ends_toUpdate_iff.mp h_query
        -- Once its stake is found a withdrawal cannot fail any more.
        rcases ends_bind_iff.mp h_rest with ⟨_, written, h_write, h_done⟩ | ⟨e, h_write, -⟩
        · obtain ⟨rfl, rfl⟩ := ends_pure_iff.mp h_done
          exact Or.inl ⟨_, _, .withdrawal h_read h_amount, rfl, (ends_scheduleReturn h_write).2⟩
        · cases (ends_scheduleReturn h_write).1
      · obtain ⟨h_amount, rfl⟩ := ends_toUpdate_iff.mp h_query
        exact Or.inr ⟨e, .unresolved h_read h_amount, rfl, rfl⟩
    | _ =>
      obtain ⟨rfl, rfl⟩ := ends_pure_iff.mp h_ends
      exact Or.inl ⟨_, [], .other h_read (by simp [Tx.kind]), rfl, rfl⟩

end Update

/-! ### All transactions -/

/-- Transactions of a block can be shown one after the other, and schedule returns in this order. -/
inductive NodeBlock.Shown (answers : Answers) (b : NodeBlock) :
    List BlockTx → List Transaction → List StakeReturn → Prop
  | nil : Shown answers b [] [] []
  | cons {tx : BlockTx} {t : Transaction} {returns : List StakeReturn} {txs : List BlockTx}
      {ts : List Transaction} {others : List StakeReturn} (h_first : tx.Shown answers b t returns)
      (h_rest : Shown answers b txs ts others) :
      Shown answers b (tx :: txs) (t :: ts) (returns ++ others)

namespace Update

variable {answers : Answers} {b : NodeBlock} {before after : Ledger}

/-- Transactions are shown up to the end, or up to one that stops the request. What those in front
of it have scheduled is written. -/
theorem ends_mapM_blockTransaction {txs : List BlockTx}
    {outcome : Except ApiError (List Transaction)}
    (h_ends : Ends answers (txs.mapM (blockTransaction b)) before outcome after) :
    (∃ ts returns, b.Shown answers txs ts returns ∧ outcome = .ok ts ∧
      after = (before.put (Chain.returnHeight b.height) returns).1) ∨
    ∃ shown tx rest ts returns e, txs = shown ++ tx :: rest ∧ b.Shown answers shown ts returns ∧
      tx.Stops answers b e ∧ outcome = .error e ∧
      after = (before.put (Chain.returnHeight b.height) returns).1 := by
  -- The first transaction stops the request, or it is shown and the others decide.
  induction txs generalizing before outcome with
  | nil =>
    rw [List.mapM_nil] at h_ends
    obtain ⟨rfl, rfl⟩ := ends_pure_iff.mp h_ends
    exact Or.inl ⟨[], [], .nil, rfl, rfl⟩
  | cons tx txs ih =>
    rw [List.mapM_cons] at h_ends
    rcases ends_bind_iff.mp h_ends with ⟨t, between, h_tx, h_rest⟩ | ⟨e, h_tx, rfl⟩
    · rcases ends_blockTransaction h_tx with ⟨_, returns, h_shown, h_ok, rfl⟩ | ⟨e, -, h_fail, -⟩
      · cases h_ok
        rcases ends_bind_iff.mp h_rest with ⟨ts, written, h_txs, h_done⟩ | ⟨e, h_txs, rfl⟩
        · obtain ⟨rfl, rfl⟩ := ends_pure_iff.mp h_done
          rcases ih h_txs with ⟨_, others, h_others, h_ok, rfl⟩ |
            ⟨_, _, _, _, _, _, _, _, _, h_ok, _⟩
          · cases h_ok
            -- Returns that are written one transaction after the other might be written at once.
            rw [← Ledger.put_append]
            exact Or.inl ⟨_, _, .cons h_shown h_others, rfl, rfl⟩
          · cases h_ok
        · rcases ih h_txs with ⟨_, _, _, h_ok, _⟩ |
            ⟨shown, stop, rest, ts, others, _, rfl, h_others, h_stop, h_fail, rfl⟩
          · cases h_ok
          · cases h_fail
            rw [← Ledger.put_append]
            exact Or.inr
              ⟨_, stop, rest, _, _, e, rfl, .cons h_shown h_others, h_stop, rfl, rfl⟩
      · cases h_fail
    · rcases ends_blockTransaction h_tx with ⟨_, _, _, h_ok, _⟩ | ⟨_, h_stop, h_fail, rfl⟩
      · cases h_ok
      · cases h_fail
        exact Or.inr ⟨[], tx, txs, [], [], e, rfl, .nil, h_stop, rfl, rfl⟩

/-! ### Blocks -/

/-- What a request for a block can end with, and the ledger after it. -/
inductive BlockEnds (answers : Answers) (identifier : PartialBlockIdentifier) (before : Ledger) :
    Except ApiError Block → Ledger → Prop
  | missing {e : ApiError} (h_block : (Query.namedBlock identifier).Ends answers (.error e)) :
      BlockEnds answers identifier before (.error e) before
  | stopped {b : NodeBlock} {shown : List BlockTx} {tx : BlockTx} {rest : List BlockTx}
      {ts : List Transaction} {returns : List StakeReturn} {e : ApiError}
      (h_block : (Query.namedBlock identifier).Ends answers (.ok b))
      (h_txs : b.txs = shown ++ tx :: rest) (h_shown : b.Shown answers shown ts returns)
      (h_stop : tx.Stops answers b e) :
      BlockEnds answers identifier before (.error e)
        (before.put (Chain.returnHeight b.height) returns).1
  | answered {b : NodeBlock} {ts : List Transaction} {returns : List StakeReturn}
      (h_block : (Query.namedBlock identifier).Ends answers (.ok b))
      (h_shown : b.Shown answers b.txs ts returns) :
      BlockEnds answers identifier before
        (.ok (.ofNode b (ts ++
          ((before.put (Chain.returnHeight b.height) returns).1.due b.height).map
            (Transaction.ofReturn b.status.name))))
        (before.put (Chain.returnHeight b.height) returns).1

theorem ends_returns {outcome : Except ApiError (List Transaction)}
    (h_ends : Ends answers (returns b) before outcome after) :
    outcome = .ok ((before.due b.height).map (Transaction.ofReturn b.status.name)) ∧
      after = before := by
  rcases ends_bind_iff.mp h_ends with ⟨l, between, h_ledger, h_done⟩ | ⟨e, h_ledger, -⟩
  · obtain ⟨h_ok, rfl⟩ := ends_ledger_iff.mp h_ledger
    cases h_ok
    exact ends_pure_iff.mp h_done
  · cases (ends_ledger_iff.mp h_ledger).1

/-- **A request for a block** ends in one of these ways. The returns that are shown are those that
are due when the transactions of the block have been gone through. -/
theorem ends_block {identifier : PartialBlockIdentifier} {outcome : Except ApiError Block}
    (h_ends : Ends answers (block identifier) before outcome after) :
    BlockEnds answers identifier before outcome after := by
  rcases ends_bind_iff.mp h_ends with ⟨b, between, h_query, h_rest⟩ | ⟨e, h_query, rfl⟩
  · obtain ⟨h_block, rfl⟩ := ends_toUpdate_iff.mp h_query
    rcases ends_bind_iff.mp h_rest with ⟨ts, written, h_txs, h_returns⟩ | ⟨e, h_txs, rfl⟩
    · rcases ends_mapM_blockTransaction h_txs with ⟨_, returns, h_shown, h_ok, rfl⟩ |
        ⟨_, _, _, _, _, _, _, _, _, h_ok, _⟩
      · cases h_ok
        -- Once all transactions are shown nothing can fail.
        rcases ends_bind_iff.mp h_returns with ⟨due, last, h_due, h_done⟩ | ⟨e, h_due, -⟩
        · obtain ⟨h_ok, rfl⟩ := ends_returns h_due
          cases h_ok
          obtain ⟨rfl, rfl⟩ := ends_pure_iff.mp h_done
          exact .answered h_block h_shown
        · cases (ends_returns h_due).1
      · cases h_ok
    · rcases ends_mapM_blockTransaction h_txs with ⟨_, _, _, h_ok, _⟩ |
        ⟨shown, tx, rest, ts, returns, _, h_split, h_shown, h_stop, h_fail, rfl⟩
      · cases h_ok
      · cases h_fail
        exact .stopped h_block h_split h_shown h_stop
  · obtain ⟨h_block, rfl⟩ := ends_toUpdate_iff.mp h_query
    exact .missing h_block

/-- All that a request writes are returns of transactions of its block, at one height. -/
theorem BlockEnds.exists_put {identifier : PartialBlockIdentifier}
    {outcome : Except ApiError Block} (h_ends : BlockEnds answers identifier before outcome after) :
    after = before ∨ ∃ b txs ts returns,
      (Query.namedBlock identifier).Ends answers (.ok b) ∧ txs <+: b.txs ∧
      b.Shown answers txs ts returns ∧
      after = (before.put (Chain.returnHeight b.height) returns).1 := by
  cases h_ends with
  | missing h_block => exact Or.inl rfl
  | stopped h_block h_txs h_shown h_stop =>
    exact Or.inr ⟨_, _, _, _, h_block, h_txs ▸ List.prefix_append _ _, h_shown, rfl⟩
  | answered h_block h_shown =>
    exact Or.inr ⟨_, _, _, _, h_block, List.prefix_rfl, h_shown, rfl⟩

end Update

/-! ### What is shown -/

namespace NodeBlock.Shown

variable {answers : Answers} {b : NodeBlock} {txs : List BlockTx} {ts : List Transaction}
  {returns : List StakeReturn}

/-- There is one transaction for each transaction of the node. -/
theorem length_eq (h_shown : b.Shown answers txs ts returns) : ts.length = txs.length := by
  induction h_shown with
  | nil => rfl
  | cons _ _ ih => rw [List.length_cons, List.length_cons, ih]

/-- Each transaction is shown in its place, whatever stands behind, and what it schedules is
scheduled. -/
theorem getElem? (h_shown : b.Shown answers txs ts returns) {i : Nat} {tx : BlockTx}
    (h_tx : txs[i]? = some tx) (behind : List Transaction) :
    ∃ t own, (ts ++ behind)[i]? = some t ∧ tx.Shown answers b t own ∧ own ⊆ returns := by
  induction h_shown generalizing i with
  | nil => cases h_tx
  | @cons _ t own _ _ others h_first _ ih =>
    cases i with
    | zero =>
      cases h_tx
      exact ⟨t, own, rfl, h_first, List.subset_append_left _ _⟩
    | succ i =>
      obtain ⟨t', own', h_t, h_own, h_subset⟩ := ih h_tx
      exact ⟨t', own', h_t, h_own, List.subset_append_of_subset_right _ h_subset⟩

/-- What is scheduled is the return of a withdrawal in the block. -/
theorem exists_of_mem (h_shown : b.Shown answers txs ts returns) {r : StakeReturn}
    (h_mem : r ∈ returns) :
    ∃ tx ∈ txs, ∃ w amount, Tx.ofNode tx.code tx.raw = .ok (.withdrawStake w) ∧
      (Query.resolveStake b.height w).Ends answers (.ok amount) ∧
      r = .ofWithdrawal tx.hash w amount := by
  induction h_shown with
  | nil => cases h_mem
  | cons h_first _ ih =>
    rcases List.mem_append.mp h_mem with h_own | h_other
    · cases h_first with
      | unread => cases h_own
      | other => cases h_own
      | withdrawal h_read h_amount =>
        exact ⟨_, List.mem_cons_self, _, _, h_read, h_amount, List.mem_singleton.mp h_own⟩
    · obtain ⟨tx, h_tx, h_rest⟩ := ih h_other
      exact ⟨tx, List.mem_cons_of_mem _ h_tx, h_rest⟩

end NodeBlock.Shown

/-! ### What is written -/

namespace Update

variable {answers : Answers} {identifier : PartialBlockIdentifier}
  {outcome : Except ApiError Block} {before after : Ledger}

/-- **A record that is new** after a request is the return of a withdrawal in its block, at the end of
the locking period. -/
theorem BlockEnds.exists_of_mem_due (h_ends : BlockEnds answers identifier before outcome after)
    {height : UInt64} {r : StakeReturn} (h_mem : r ∈ after.due height) :
    r ∈ before.due height ∨
      ∃ b, (Query.namedBlock identifier).Ends answers (.ok b) ∧
        Chain.returnHeight b.height = height ∧
        ∃ tx ∈ b.txs, ∃ w amount, Tx.ofNode tx.code tx.raw = .ok (.withdrawStake w) ∧
          (Query.resolveStake b.height w).Ends answers (.ok amount) ∧
          r = .ofWithdrawal tx.hash w amount := by
  rcases h_ends.exists_put with rfl | ⟨b, txs, ts, returns, h_block, h_txs, h_shown, rfl⟩
  · exact Or.inl h_mem
  · rcases Ledger.mem_due_put h_mem with h_old | ⟨h_height, h_new⟩
    · exact Or.inl h_old
    · obtain ⟨tx, h_tx, h_rest⟩ := h_shown.exists_of_mem h_new
      exact Or.inr ⟨b, h_block, h_height, tx, h_txs.subset h_tx, h_rest⟩

/-- Whether a backfill has run is not a matter of requests for blocks. -/
theorem BlockEnds.backfilled_eq (h_ends : BlockEnds answers identifier before outcome after) :
    after.backfilled = before.backfilled := by
  rcases h_ends.exists_put with rfl | ⟨b, txs, ts, returns, -, -, -, rfl⟩
  · rfl
  · exact Ledger.backfilled_put _ returns before

end Update

end RosettaGateway
