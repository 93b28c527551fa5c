import RosettaGateway.Proofs.Assembly

/-!
# Replays and failures

Requests for blocks are repeated, come in any order, and are cut off when the node is out of reach
for a moment. A request that is cut off leaves the returns of the withdrawals in front of it in the
ledger. None of this matters in the end: once the block has been answered, the ledger holds at the
end of its locking period the returns of its withdrawals, in their order, and nothing else.

* `Answers.failing` — the node of a chain, each request to which may fail. A failure never looks like
  an answer (`Query.namedBlock_of_failing`, `Query.resolveStake_of_failing`), as all that a request
  for a block asks for has to be there;
* `NodeBlock.returns` — the returns of a block, which depend on the chain alone;
* `Ledger.due_put_within` — a prefix of some records, put where there is a prefix of the same
  records, leaves the longer one of the two;
* `Attempt.due_play_within` — the invariant of a run, that the list is a prefix of the returns;
* `Attempt.due_ledgerAfter_attempts` — what it comes to at the end of a run.
-/

namespace RosettaGateway

/-! ### Nodes that fail now and then -/

/-- The answers of a node that always gives the same reply to the same request, unless it fails. -/
def Answers.failing (node : NodeCall → NodeReply) : Answers :=
  fun call reply => reply = node call ∨ ∃ e, reply = .error e

namespace NodeReply

variable {α : Type} {call : NodeCall}

/-- A failure tells of an object at most that it is missing. -/
theorem read_orNull_error {reading : Json → Option (Option α)} (h_null : reading .null = some none)
    (e : NodeError) (a : α) : read call reading (orNull (.error e)) ≠ .ok (some a) := by
  rw [orNull]
  split
  · rw [read, h_null]
    exact nofun
  · exact nofun

theorem find_error (reading : Json → Option α) (e : NodeError) (a : α) :
    find call reading (.error e) ≠ .ok (some a) :=
  read_orNull_error rfl e a

end NodeReply

namespace Query

variable {α : Type} {node : NodeCall → NodeReply}

/-- What cannot be read from a failure has been answered by the node. -/
theorem ask_of_failing {call : NodeCall} {interpret : NodeReply → Except NodeError α}
    {otherwise : NodeError → ApiError} {a : α} (h_error : ∀ e, interpret (.error e) ≠ .ok a)
    (h_ends : (ask call interpret otherwise).Ends (.failing node) (.ok a)) :
    (ask call interpret otherwise).Ends (.fixed node) (.ok a) := by
  obtain ⟨reply, h_reply, h_read⟩ := ends_ask_iff.mp h_ends
  rcases h_reply with rfl | ⟨e, rfl⟩
  · exact ends_ask_iff.mpr ⟨_, rfl, h_read⟩
  · cases h_interpret : interpret (.error e) with
    | ok a' =>
      rw [h_interpret] at h_read
      cases h_read
      exact absurd h_interpret (h_error e)
    | error e' =>
      rw [h_interpret] at h_read
      cases h_read

/-- A block that a request has found is that of the chain. -/
theorem block_of_failing {call : NodeCall} {b : NodeBlock}
    (h_ends : (block call).Ends (.failing node) (.ok b)) :
    (block call).Ends (.fixed node) (.ok b) := by
  obtain ⟨found, h_find, h_demand⟩ := ends_bind_ok_iff.mp h_ends
  obtain rfl := ends_demand_ok_iff.mp h_demand
  exact ends_bind_ok_iff.mpr
    ⟨_, ask_of_failing (fun e => NodeReply.find_error _ e b) h_find, ends_demand_ok_iff.mpr rfl⟩

/-- Any block that a request has found is that of the chain. -/
theorem namedBlock_of_failing {identifier : PartialBlockIdentifier} {b : NodeBlock}
    (h_ends : (namedBlock identifier).Ends (.failing node) (.ok b)) :
    (namedBlock identifier).Ends (.fixed node) (.ok b) := by
  obtain ⟨index, hash⟩ := identifier
  cases index with
  | some index =>
    obtain ⟨height, h_height, h_block⟩ := ends_bind_ok_iff.mp h_ends
    refine ends_bind_ok_iff.mpr ⟨height, ?_, block_of_failing h_block⟩
    unfold heightOf at h_height ⊢
    split at h_height
    · cases ends_ofExcept_iff.mp h_height
    · next h_neg =>
      rw [if_neg h_neg]
      exact ends_ofExcept_iff.mpr (ends_ofExcept_iff.mp h_height)
  | none =>
    cases hash with
    | some s =>
      obtain ⟨hash, h_hash, h_block⟩ := ends_bind_ok_iff.mp h_ends
      exact ends_bind_ok_iff.mpr ⟨hash, ends_demand_ok_iff.mpr (ends_demand_ok_iff.mp h_hash),
        block_of_failing h_block⟩
    | none => cases ends_ofExcept_iff.mp h_ends

/-- A stake that was found in its pool or by the node is the one that the chain has. -/
theorem withdrawnStake_of_failing {purpose : StakePurpose} {height : UInt64}
    {source holder : Address} {stake : Stake}
    (h_ends : (withdrawnStake purpose height source holder).Ends (.failing node)
      (.ok (some stake))) :
    (withdrawnStake purpose height source holder).Ends (.fixed node) (.ok (some stake)) := by
  -- An elite edge node is asked for by itself, any other stake is looked up in its pool.
  cases purpose with
  | eliteEdgeNode =>
    obtain ⟨found, h_find, h_join⟩ := ends_bind_ok_iff.mp h_ends
    obtain rfl : found = some (some stake) :=
      Option.join_eq_some_iff.mp (Except.ok.inj (ends_pure_iff.mp h_join)).symm
    exact ends_bind_ok_iff.mpr
      ⟨_, ask_of_failing (fun e => NodeReply.find_error _ e (some stake)) h_find,
        ends_pure_iff.mpr rfl⟩
  | _ =>
    obtain ⟨found, h_pool, h_rest⟩ := ends_bind_ok_iff.mp h_ends
    obtain ⟨snapshot, h_snapshot, h_stake⟩ := ends_bind_ok_iff.mp h_rest
    obtain rfl := ends_demand_ok_iff.mp h_snapshot
    exact ends_bind_ok_iff.mpr
      ⟨_, ask_of_failing (fun e => NodeReply.read_orNull_error rfl e snapshot) h_pool,
        ends_bind_ok_iff.mpr ⟨snapshot, ends_demand_ok_iff.mpr rfl,
          ends_pure_iff.mpr (ends_pure_iff.mp h_stake)⟩⟩

theorem resolveStake_of_failing {height : UInt64} {w : Tx.WithdrawStake} {amount : Nat}
    (h_ends : (resolveStake height w).Ends (.failing node) (.ok amount)) :
    (resolveStake height w).Ends (.fixed node) (.ok amount) := by
  obtain ⟨purpose, h_purpose, h_rest⟩ := ends_bind_ok_iff.mp h_ends
  obtain ⟨found, h_found, h_amount⟩ := ends_bind_ok_iff.mp h_rest
  obtain ⟨stake, h_stake, h_amount⟩ := ends_bind_ok_iff.mp h_amount
  obtain rfl := ends_demand_ok_iff.mp h_stake
  exact ends_bind_ok_iff.mpr ⟨purpose, ends_demand_ok_iff.mpr (ends_demand_ok_iff.mp h_purpose),
    ends_bind_ok_iff.mpr ⟨_, withdrawnStake_of_failing h_found,
      ends_bind_ok_iff.mpr ⟨stake, ends_demand_ok_iff.mpr rfl,
        ends_pure_iff.mpr (ends_pure_iff.mp h_amount)⟩⟩⟩

end Query

/-- A transaction that was shown could be shown by the chain. -/
theorem BlockTx.Shown.of_failing {node : NodeCall → NodeReply} {b : NodeBlock} {tx : BlockTx}
    {t : Transaction} {returns : List StakeReturn}
    (h_shown : tx.Shown (.failing node) b t returns) : tx.Shown (.fixed node) b t returns := by
  cases h_shown with
  | unread h_read h_code => exact .unread h_read h_code
  | withdrawal h_read h_amount => exact .withdrawal h_read (Query.resolveStake_of_failing h_amount)
  | other h_read h_kind => exact .other h_read h_kind

theorem NodeBlock.Shown.of_failing {node : NodeCall → NodeReply} {b : NodeBlock}
    {txs : List BlockTx} {ts : List Transaction} {returns : List StakeReturn}
    (h_shown : b.Shown (.failing node) txs ts returns) : b.Shown (.fixed node) txs ts returns := by
  induction h_shown with
  | nil => exact .nil
  | cons h_first _ ih => exact .cons h_first.of_failing ih

/-! ### The returns of a block -/

/-- The return of a withdrawal, as the chain tells it. -/
def BlockTx.return? (node : NodeCall → NodeReply) (b : NodeBlock) (tx : BlockTx) :
    Option StakeReturn :=
  match Tx.ofNode tx.code tx.raw with
  | .ok (.withdrawStake w) =>
    ((Query.resolveStake b.height w).against node).toOption.map (.ofWithdrawal tx.hash w)
  | _ => none

/-- The returns of the withdrawals of a block, in their order. -/
def NodeBlock.returns (node : NodeCall → NodeReply) (b : NodeBlock) : List StakeReturn :=
  b.txs.filterMap (BlockTx.return? node b)

section

variable {node : NodeCall → NodeReply} {b : NodeBlock}

theorem BlockTx.hash_of_return? {tx : BlockTx} {r : StakeReturn}
    (h_return : tx.return? node b = some r) : r.hash = tx.hash := by
  unfold return? at h_return
  split at h_return
  · obtain ⟨amount, -, rfl⟩ := Option.map_eq_some_iff.mp h_return
    rfl
  · cases h_return

/-- What a transaction that is shown has scheduled is its return. -/
theorem BlockTx.Shown.toList_return? {tx : BlockTx} {t : Transaction} {returns : List StakeReturn}
    (h_shown : tx.Shown (.fixed node) b t returns) : (tx.return? node b).toList = returns := by
  rw [return?]
  cases h_shown with
  | unread h_read => rw [h_read]; rfl
  | withdrawal h_read h_amount =>
    rw [h_read]
    simp only [Query.ends_fixed_iff.mp h_amount]
    rfl
  | @other body h_read h_kind =>
    rw [h_read]
    cases body with
    | withdrawStake w => exact absurd rfl h_kind
    | _ => rfl

theorem NodeBlock.Shown.eq_filterMap {txs : List BlockTx} {ts : List Transaction}
    {returns : List StakeReturn} (h_shown : b.Shown (.fixed node) txs ts returns) :
    returns = txs.filterMap (BlockTx.return? node b) := by
  induction h_shown with
  | nil => rfl
  | @cons tx _ _ txs _ _ h_first _ ih =>
    rw [List.filterMap_eq_flatMap_toList, List.flatMap_cons, h_first.toList_return?, ih,
      List.filterMap_eq_flatMap_toList]

/-- A withdrawal that is shown has a return, and nothing else has one. -/
theorem BlockTx.Shown.isSome_return? {tx : BlockTx} {t : Transaction} {returns : List StakeReturn}
    (h_shown : tx.Shown (.fixed node) b t returns) :
    (tx.return? node b).isSome ↔ tx.IsWithdrawal := by
  have h_return := h_shown.toList_return?
  cases h_shown with
  | unread h_read h_code =>
    rw [Option.toList_eq_nil_iff.mp h_return]
    exact iff_of_false nofun h_code
  | withdrawal h_read h_amount =>
    rw [Option.toList_eq_singleton_iff.mp h_return]
    exact iff_of_true rfl ((isWithdrawal_iff h_read).mpr rfl)
  | other h_read h_kind =>
    rw [Option.toList_eq_nil_iff.mp h_return]
    exact iff_of_false nofun (h_kind ∘ (isWithdrawal_iff h_read).mp)

/-- The returns that transactions have scheduled are those of the withdrawals among them, in their
order. -/
theorem NodeBlock.Shown.hashes_eq {txs : List BlockTx} {ts : List Transaction}
    {returns : List StakeReturn} (h_shown : b.Shown (.fixed node) txs ts returns) :
    (txs.filterMap (BlockTx.return? node b)).map (·.hash) =
      (txs.filter (·.IsWithdrawal)).map (·.hash) := by
  induction h_shown with
  | nil => rfl
  | @cons tx _ _ txs _ _ h_first _ ih =>
    have h_some := h_first.isSome_return?
    cases h_return : tx.return? node b with
    | none =>
      have h_other : ¬ tx.IsWithdrawal := by rw [← h_some, h_return]; exact nofun
      rw [List.filterMap_cons_none h_return, ih, List.filter_cons_of_neg (by simpa using h_other)]
    | some r =>
      have h_withdrawal : tx.IsWithdrawal := by rw [← h_some, h_return]; rfl
      rw [List.filterMap_cons_some h_return, List.filter_cons_of_pos (by simpa using h_withdrawal),
        List.map_cons, List.map_cons, ih, BlockTx.hash_of_return? h_return]

/-- The hashes of returns are those of some of the transactions. -/
theorem NodeBlock.hashes_sublist (txs : List BlockTx) :
    ((txs.filterMap (BlockTx.return? node b)).map (·.hash)).Sublist (txs.map (·.hash)) := by
  induction txs with
  | nil => exact .slnil
  | cons tx txs ih =>
    cases h_return : tx.return? node b with
    | none =>
      rw [List.filterMap_cons_none h_return]
      exact ih.cons _
    | some r =>
      rw [List.filterMap_cons_some h_return, List.map_cons, List.map_cons,
        BlockTx.hash_of_return? h_return]
      exact ih.cons_cons _

/-- In a chain the returns of a block have different hashes. -/
theorem NodeBlock.nodup_returns (h_chain : (Answers.fixed node).IsChain)
    (h_of : b.IsOf (.fixed node)) : ((b.returns node).map (·.hash)).Nodup :=
  (NodeBlock.hashes_sublist b.txs).nodup (h_chain.hashes_nodup b h_of)

end

/-! ### Lists in the ledger -/

namespace Ledger

variable {l : Ledger} {height : UInt64} {full : List StakeReturn}

/-- Adding the next one of some records to a list that is a prefix of them, and that has those in
front of it, does nothing or adds it at the end. -/
theorem due_add_within (h_nodup : (full.map (·.hash)).Nodup) {done : List StakeReturn}
    {r : StakeReturn} (h_full : done ++ [r] <+: full) (h_due : l.due height <+: full)
    (h_done : done <+: l.due height) :
    (l.add height r).due height <+: full ∧ done ++ [r] <+: (l.add height r).due height := by
  -- Either the record is there already, or the list ends in front of it.
  have h_or : done ++ [r] <+: l.due height ∨ l.due height = done := by
    rcases List.prefix_or_prefix_of_prefix h_full h_due with h_there | h_short
    · exact Or.inl h_there
    · rcases List.prefix_concat_iff.mp h_short with h_eq | h_before
      · exact Or.inl (h_eq ▸ List.prefix_rfl)
      · exact Or.inr (h_before.eq_of_length_le h_done.length_le)
  rw [due_add_self]
  rcases h_or with h_there | h_eq
  · have h_known : l.knows height r.hash = true :=
      knows_iff.mpr ⟨r, h_there.subset (List.mem_append_right _ List.mem_cons_self), rfl⟩
    rw [if_pos h_known]
    exact ⟨h_due, h_there⟩
  · have h_new : ¬ l.knows height r.hash = true := by
      rw [knows_iff, h_eq]
      rintro ⟨r', h_mem, h_hash⟩
      have h_apart := (h_full.sublist.map (·.hash)).nodup h_nodup
      rw [List.map_append, List.nodup_append] at h_apart
      exact h_apart.2.2 _ (List.mem_map_of_mem h_mem) _ List.mem_cons_self h_hash
    rw [if_neg h_new, h_eq]
    exact ⟨h_full, List.prefix_rfl⟩

/-- **The longer of two prefixes wins.** Records that are a prefix of others, put where there is a
prefix of the same others, leave such a prefix, which begins with them. -/
theorem due_put_within (h_nodup : (full.map (·.hash)).Nodup) {done returns : List StakeReturn}
    (h_full : done ++ returns <+: full) (h_due : l.due height <+: full)
    (h_done : done <+: l.due height) :
    (l.put height returns).1.due height <+: full ∧
      done ++ returns <+: (l.put height returns).1.due height := by
  induction returns generalizing l done with
  | nil => exact ⟨h_due, (List.append_nil done).symm ▸ h_done⟩
  | cons r rest ih =>
    rw [← List.singleton_append, ← List.append_assoc] at h_full ⊢
    obtain ⟨h_due', h_done'⟩ :=
      due_add_within h_nodup ((List.prefix_append _ rest).trans h_full) h_due h_done
    exact ih h_full h_due' h_done'

end Ledger

/-! ### Requests that may fail -/

/-- A request for a block, with what the node replies while it is answered. -/
structure Attempt where
  identifier : PartialBlockIdentifier
  replies : Nat → NodeCall → NodeReply

namespace Attempt

open Update (BlockEnds)

variable {node : NodeCall → NodeReply} {before : Ledger} {b : NodeBlock} {due : UInt64}

/-- Each reply is the one of the chain, or a failure. -/
def IsTo (node : NodeCall → NodeReply) (a : Attempt) : Prop :=
  ∀ n call, Answers.failing node call (a.replies n call)

/-- What the request is answered, and the ledger after it. -/
def play (a : Attempt) (before : Ledger) : Except ApiError Block × Ledger :=
  ((Update.block a.identifier).play a.replies 0 before).1

/-- The ledger after requests, one after the other. -/
def ledgerAfter (start : Ledger) (attempts : List Attempt) : Ledger :=
  attempts.foldl (fun l a => (a.play l).2) start

/-- A request to a node that never fails is one to the chain. -/
theorem play_eq_against (identifier : PartialBlockIdentifier) (before : Ledger) :
    (⟨identifier, fun _ => node⟩ : Attempt).play before =
      (Update.block identifier).against node before := rfl

theorem blockEnds_play {a : Attempt} (h_to : a.IsTo node) (before : Ledger) :
    BlockEnds (.failing node) a.identifier before (a.play before).1 (a.play before).2 := by
  have h_ends : Update.Ends (.failing node) (Update.block a.identifier) before _ _ :=
    Update.ends_play h_to _ 0 before
  exact Update.ends_block h_ends

/-- All that a request writes are returns of its block, up to some transaction. -/
theorem exists_put_of_play {a : Attempt} (h_to : a.IsTo node) (before : Ledger) :
    (a.play before).2 = before ∨ ∃ (b : NodeBlock) (txs : List BlockTx), b.IsOf (.fixed node) ∧
      txs <+: b.txs ∧ (a.play before).2 = (before.put (Chain.returnHeight b.height)
        (txs.filterMap (BlockTx.return? node b))).1 := by
  rcases (blockEnds_play h_to before).exists_put with
    h_same | ⟨b, txs, ts, returns, h_block, h_txs, h_shown, h_after⟩
  · exact Or.inl h_same
  · rw [h_shown.of_failing.eq_filterMap] at h_after
    exact Or.inr ⟨b, txs, ⟨_, Query.namedBlock_of_failing h_block⟩, h_txs, h_after⟩

/-- A request that is answered writes all returns of its block, and these are the returns of its
withdrawals. -/
theorem put_of_answered {a : Attempt} (h_to : a.IsTo node) {shown : Block}
    (h_shown : (a.play before).1 = .ok shown)
    (h_block : (Query.namedBlock a.identifier).against node = .ok b) :
    (a.play before).2 = (before.put (Chain.returnHeight b.height) (b.returns node)).1 ∧
      (b.returns node).map (·.hash) = (b.txs.filter (·.IsWithdrawal)).map (·.hash) := by
  have h_ends := blockEnds_play h_to before
  rw [h_shown] at h_ends
  obtain ⟨after, h_after⟩ : ∃ after, (a.play before).2 = after := ⟨_, rfl⟩
  rw [h_after] at h_ends ⊢
  cases h_ends with
  | answered h_found h_txs =>
    obtain rfl := Query.eq_of_against h_block (Query.namedBlock_of_failing h_found)
    rw [h_txs.of_failing.eq_filterMap]
    exact ⟨rfl, h_txs.of_failing.hashes_eq⟩

/-- **What a request preserves**: the list at the end of the locking period is a prefix of the
returns of the block. -/
theorem due_play_within (h_chain : (Answers.fixed node).IsChain) (h_of : b.IsOf (.fixed node))
    (h_due : due.toNat = b.height.toNat + 28800) (h_max : due.toNat < 2 ^ 64 - 1) {a : Attempt}
    (h_to : a.IsTo node) (h_before : before.due due <+: b.returns node) :
    (a.play before).2.due due <+: b.returns node := by
  rcases exists_put_of_play h_to before with h_same | ⟨b', txs, h_of', h_txs, h_after⟩
  · rw [h_same]
    exact h_before
  rw [h_after]
  by_cases h_height : Chain.returnHeight b'.height = due
  · -- Below the last height there is but one block that has its returns here.
    have h_nat := congrArg UInt64.toNat h_height
    rw [Chain.toNat_returnHeight, h_due] at h_nat
    obtain rfl : b' = b := h_chain.height_injective b' b h_of' h_of
      (UInt64.toNat_inj.mp (by omega))
    rw [h_height]
    exact (Ledger.due_put_within (NodeBlock.nodup_returns h_chain h_of) (h_txs.filterMap _) h_before
      List.nil_prefix).1
  · rw [Ledger.due_put_of_ne h_height]
    exact h_before

/-- A run of requests preserves it as well. -/
theorem due_ledgerAfter_within (h_chain : (Answers.fixed node).IsChain)
    (h_of : b.IsOf (.fixed node)) (h_due : due.toNat = b.height.toNat + 28800)
    (h_max : due.toNat < 2 ^ 64 - 1) {attempts : List Attempt}
    (h_to : ∀ a ∈ attempts, a.IsTo node) (h_before : before.due due <+: b.returns node) :
    (ledgerAfter before attempts).due due <+: b.returns node := by
  induction attempts generalizing before with
  | nil => exact h_before
  | cons a rest ih =>
    obtain ⟨h_first, h_rest⟩ := List.forall_mem_cons.mp h_to
    exact ih h_rest (due_play_within h_chain h_of h_due h_max h_first h_before)

/-- Requests take nothing away. -/
theorem prefix_due_ledgerAfter (due : UInt64) {attempts : List Attempt}
    (h_to : ∀ a ∈ attempts, a.IsTo node) (before : Ledger) :
    before.due due <+: (ledgerAfter before attempts).due due := by
  induction attempts generalizing before with
  | nil => exact List.prefix_rfl
  | cons a rest ih =>
    obtain ⟨h_first, h_rest⟩ := List.forall_mem_cons.mp h_to
    have h_step := BlockEnds.due_prefix (blockEnds_play h_first before) due
    exact h_step.trans (ih h_rest (a.play before).2)

/-- Among requests there is one for a block that is answered. -/
def Answered (node : NodeCall → NodeReply) (attempts : List Attempt) (b : NodeBlock) : Prop :=
  ∃ earlier a later shown, attempts = earlier ++ a :: later ∧
    (Query.namedBlock a.identifier).against node = .ok b ∧
    (a.play (ledgerAfter .empty earlier)).1 = .ok shown

/-- Once a block has been answered, the list is that of its returns, and each of its withdrawals has
one. -/
theorem due_eq_of_answered (h_chain : (Answers.fixed node).IsChain)
    (h_due : due.toNat = b.height.toNat + 28800)
    (h_max : due.toNat < 2 ^ 64 - 1) {attempts : List Attempt}
    (h_to : ∀ a ∈ attempts, a.IsTo node) (h_answered : Answered node attempts b) :
    (ledgerAfter .empty attempts).due due = b.returns node ∧
      (b.returns node).map (·.hash) = (b.txs.filter (·.IsWithdrawal)).map (·.hash) := by
  obtain ⟨earlier, a, later, shown, rfl, h_block, h_shown⟩ := h_answered
  have h_of : b.IsOf (.fixed node) := ⟨_, Query.ends_fixed_iff.mpr h_block⟩
  have h_a := h_to a (List.mem_append_right _ List.mem_cons_self)
  obtain ⟨h_put, h_hashes⟩ := put_of_answered h_a h_shown h_block
  refine ⟨?_, h_hashes⟩
  have h_earlier : (ledgerAfter .empty earlier).due due <+: b.returns node :=
    due_ledgerAfter_within h_chain h_of h_due h_max
      (fun a' h_mem => h_to a' (List.mem_append_left _ h_mem)) List.nil_prefix
  have h_all : (ledgerAfter .empty (earlier ++ a :: later)).due due <+: b.returns node :=
    due_ledgerAfter_within h_chain h_of h_due h_max h_to List.nil_prefix
  -- All returns are there when the request is answered, and stay there.
  have h_there : b.returns node <+: (a.play (ledgerAfter .empty earlier)).2.due due := by
    rw [h_put, Chain.returnHeight_eq h_due]
    exact (Ledger.due_put_within (NodeBlock.nodup_returns h_chain h_of) List.prefix_rfl h_earlier
      List.nil_prefix).2
  have h_later : b.returns node <+: (ledgerAfter .empty (earlier ++ a :: later)).due due := by
    rw [ledgerAfter, List.foldl_append]
    exact h_there.trans (prefix_due_ledgerAfter due
      (fun a' h_mem => h_to a' (List.mem_append_right _ (List.mem_cons_of_mem _ h_mem))) _)
  exact h_all.eq_of_length_le h_later.length_le

/-- **Replays, reordering and failures do no harm.** Take a chain whose node may fail at any request,
and any run of requests for blocks, starting with an empty ledger. The list at the end of the locking
period of a block is a prefix of the returns of the block. If the block has been answered at least
once, the list is that of all its returns, one for each of its withdrawals, in their order and with
different hashes; so it is the same in all runs in which the block has been answered. -/
theorem due_ledgerAfter_attempts (h_chain : (Answers.fixed node).IsChain)
    (h_of : b.IsOf (.fixed node)) (h_due : due.toNat = b.height.toNat + 28800)
    (h_max : due.toNat < 2 ^ 64 - 1) {attempts : List Attempt}
    (h_to : ∀ a ∈ attempts, a.IsTo node) :
    (ledgerAfter .empty attempts).due due <+: b.returns node ∧
    (Answered node attempts b →
      (ledgerAfter .empty attempts).due due = b.returns node ∧
      (b.returns node).map (·.hash) = (b.txs.filter (·.IsWithdrawal)).map (·.hash) ∧
      ((b.returns node).map (·.hash)).Nodup) ∧
    ∀ others : List Attempt, (∀ a ∈ others, a.IsTo node) → Answered node attempts b →
      Answered node others b →
      (ledgerAfter .empty others).due due = (ledgerAfter .empty attempts).due due := by
  refine ⟨due_ledgerAfter_within h_chain h_of h_due h_max h_to List.nil_prefix, ?_, ?_⟩
  · intro h_answered
    obtain ⟨h_eq, h_hashes⟩ := due_eq_of_answered h_chain h_due h_max h_to h_answered
    exact ⟨h_eq, h_hashes, NodeBlock.nodup_returns h_chain h_of⟩
  · intro others h_others h_answered h_answered'
    rw [(due_eq_of_answered h_chain h_due h_max h_to h_answered).1,
      (due_eq_of_answered h_chain h_due h_max h_others h_answered').1]

end Attempt

/-! ### A request that is cut off -/

namespace SampleAttempts

/-- A request for the block with the withdrawal, whose stake cannot be looked up any more. -/
def cut : Attempt :=
  ⟨⟨some 1, none⟩, fun n call => if n = 0 then SampleChain.node call else .error (.timeout 0)⟩

/-- The same request without a failure. -/
def whole : Attempt := ⟨⟨some 1, none⟩, fun _ => SampleChain.node⟩

theorem isTo {a : Attempt} (h_mem : a ∈ [cut, whole, cut]) : a.IsTo SampleChain.node := by
  intro n call
  have h_or : a = cut ∨ a = whole := by
    simp only [List.mem_cons, List.not_mem_nil, or_false] at h_mem
    rcases h_mem with h_first | h_second | h_third
    · exact Or.inl h_first
    · exact Or.inr h_second
    · exact Or.inl h_third
  rcases h_or with rfl | rfl
  · -- The attempt that is cut off gets its first reply and no other one.
    by_cases h_first : n = 0
    · exact Or.inl (if_pos h_first)
    · exact Or.inr ⟨_, if_neg h_first⟩
  · exact Or.inl rfl

/-- The block with the withdrawal. -/
def block : NodeBlock := SampleChain.block 1 [SampleChain.blockTx]

theorem isOf : block.IsOf (.fixed SampleChain.node) :=
  ⟨⟨some 1, none⟩, Query.ends_fixed_iff.mpr SampleChain.against_namedBlock.1⟩

theorem returns_eq : block.returns SampleChain.node =
    [.ofWithdrawal SampleChain.txHash SampleChain.withdrawal 5] := rfl

theorem answered : Attempt.Answered SampleChain.node [cut, whole, cut] block := by
  obtain ⟨shown, h_shown⟩ := Update.exists_shown_against SampleChain.against_namedBlock.1
    (fun tx h_tx e => List.mem_singleton.mp h_tx ▸ SampleChain.not_stops e)
    (Attempt.ledgerAfter .empty [cut])
  rw [← Attempt.play_eq_against] at h_shown
  exact ⟨[cut], whole, [cut], shown, rfl, SampleChain.against_namedBlock.1, h_shown⟩

/-- One answer among failures, and the return is in the ledger. -/
theorem due_ledgerAfter_attempts_cut :
    (Attempt.ledgerAfter .empty [cut, whole, cut]).due 28801 =
      [.ofWithdrawal SampleChain.txHash SampleChain.withdrawal 5] := by
  have h_due : (28801 : UInt64).toNat = block.height.toNat + 28800 := rfl
  obtain ⟨-, h_answered, -⟩ := Attempt.due_ledgerAfter_attempts SampleChain.isChain isOf h_due
    (by decide) (fun a h_mem => isTo h_mem)
  rw [(h_answered answered).1, returns_eq]

end SampleAttempts

end RosettaGateway
