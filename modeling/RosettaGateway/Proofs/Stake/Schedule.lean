import Mathlib.Data.List.Perm.Subperm
import RosettaGateway.Proofs.Backfill
import RosettaGateway.Proofs.Stake.Return

/-!
# A stake is scheduled once

The return of a stake comes to be known in two ways: from the block with its withdrawal, at the
return height and under the hash of the withdrawal, or from a pool, one block later and under the
identifier of its place. Hashes cannot tell that two such records are of one stake; only its parties
and its purpose can, which `Ledger.recordsOf` goes by.

The events are those of a node whose answers do not change: backfills and requests for blocks, in any
order and any number of times (`LedgerEvent.run`). A withdrawn stake in a pool has to stem from a
withdrawal in a block (`Answers.HasOrigins`). A backfill looks for records of a stake before it puts
one down, but a request for a block does not:

* `LedgerEvent.scheduled_once` — there is one record of a stake at most, provided that no request
  comes upon its withdrawal for the first time after the backfill (`LedgerEvent.InTime`);
* `LedgerEvent.two_le_length_recordsOf` — there are two, from then on, if a request does and is
  answered.

The first is carried by `Ledger.ScheduledOnce`, which says where the records of the stake stand, and
which each event preserves.
-/

namespace RosettaGateway

/-! ### The records of a stake -/

namespace Ledger

variable {l : Ledger} {height : UInt64} {key : StakeKey}

/-- The records of a stake that are due at its return height or one block after. -/
def recordsOf (l : Ledger) (height : UInt64) (key : StakeKey) :
    List (UInt64 × StakeReturn) :=
  l.entries.filter fun e =>
    (e.1 = height ∨ e.1 = Chain.saturatingAdd height 1) ∧ e.2.tx.key = key

theorem mem_recordsOf_iff {due : UInt64} {r : StakeReturn} :
    (due, r) ∈ l.recordsOf height key ↔
      r ∈ l.due due ∧ (due = height ∨ due = Chain.saturatingAdd height 1) ∧ r.tx.key = key := by
  rw [recordsOf, List.mem_filter, decide_eq_true_eq, mem_due_iff]

/-- A stake is scheduled when there is a record of it. -/
theorem alreadyScheduled_iff {w : Tx.WithdrawStake} :
    l.alreadyScheduled height w = true ↔ ∃ e, e ∈ l.recordsOf height w.key := by
  have h_returns : ∀ due, l.hasReturnOf due w = true ↔ ∃ r ∈ l.due due, r.tx.key = w.key := by
    intro due
    simp only [hasReturnOf, List.any_eq_true, decide_eq_true_eq, Tx.WithdrawStake.key,
      StakeKey.mk.injEq]
  rw [alreadyScheduled, Bool.or_eq_true, h_returns, h_returns]
  constructor
  · rintro (⟨r, h_mem, h_key⟩ | ⟨r, h_mem, h_key⟩)
    · exact ⟨(_, r), mem_recordsOf_iff.mpr ⟨h_mem, Or.inl rfl, h_key⟩⟩
    · exact ⟨(_, r), mem_recordsOf_iff.mpr ⟨h_mem, Or.inr rfl, h_key⟩⟩
  · rintro ⟨⟨due, r⟩, h_record⟩
    obtain ⟨h_mem, rfl | rfl, h_key⟩ := mem_recordsOf_iff.mp h_record
    · exact Or.inl ⟨r, h_mem, h_key⟩
    · exact Or.inr ⟨r, h_mem, h_key⟩

/-- All records of a stake stand at one height, under one hash. -/
def RecordsAt (l : Ledger) (height : UInt64) (key : StakeKey) (due : UInt64)
    (hash : Hash) : Prop :=
  ∀ height' r, (height', r) ∈ l.recordsOf height key → height' = due ∧ r.hash = hash

/-- Records at one height and under one hash are one record at most. -/
theorem RecordsAt.length_le_one {due : UInt64} {hash : Hash}
    (h_records : l.RecordsAt height key due hash) : (l.recordsOf height key).length ≤ 1 := by
  have h_nodup : ((l.recordsOf height key).map fun e => (e.1, e.2.hash)).Nodup :=
    (List.Sublist.map _ List.filter_sublist).nodup l.nodup
  have h_same : (l.recordsOf height key).map (fun e => (e.1, e.2.hash)) =
      List.replicate (l.recordsOf height key).length (due, hash) := by
    rw [List.eq_replicate_iff, List.length_map]
    refine ⟨rfl, fun e h_mem => ?_⟩
    obtain ⟨⟨height', r⟩, h_record, rfl⟩ := List.mem_map.mp h_mem
    obtain ⟨rfl, rfl⟩ := h_records height' r h_record
    rfl
  rw [h_same] at h_nodup
  exact List.nodup_replicate.mp h_nodup

end Ledger

/-! ### Where stakes and records come from -/

/-- A block of the node withdraws a stake that comes back at a height. The transaction is told by its
hash. -/
def Answers.Withdraws (answers : Answers) (key : StakeKey) (height : UInt64)
    (hash : Hash) : Prop :=
  ∃ b : NodeBlock, b.IsOf answers ∧ Chain.returnHeight b.height = height ∧
    ∃ tx ∈ b.txs, tx.hash = hash ∧
      ∃ w, Tx.ofNode tx.code tx.raw = .ok (.withdrawStake w) ∧ w.key = key

/-- Withdrawn stakes in the pools of the node have origins. There is one at most for each source and
holder, and it stems from a withdrawal in a block, which is the only one of the stake that comes back
at its return height or one block after. -/
structure Answers.HasOrigins (answers : Answers) : Prop where
  sources_nodup : ∀ purpose p, Backfill.IsPool answers purpose p →
    (p.withdrawn.map fun e => (e.1, e.2.source)).Nodup
  stems : ∀ purpose holder stake, Backfill.InPool answers purpose holder stake →
    ∃ hash, answers.Withdraws (Backfill.withdrawal purpose holder stake).key
        stake.returnHeight hash ∧
      ∀ height' hash', height' = stake.returnHeight ∨
          height' = Chain.saturatingAdd stake.returnHeight 1 →
        answers.Withdraws (Backfill.withdrawal purpose holder stake).key height' hash' →
        height' = stake.returnHeight ∧ hash' = hash

namespace Backfill

variable {node : NodeCall → NodeReply} {purpose : StakePurpose}

/-- A node whose answers do not change has one pool for each purpose. -/
theorem IsPool.eq {p p' : PoolSnapshot} (h_pool : IsPool (.fixed node) purpose p)
    (h_pool' : IsPool (.fixed node) purpose p') : p = p' := by
  obtain ⟨status, h_status, h_found⟩ := h_pool
  obtain ⟨status', h_status', h_found'⟩ := h_pool'
  obtain rfl := Query.eq_of_against (Query.ends_fixed_iff.mp h_status) h_status'
  exact Option.some.inj (Query.eq_of_against (Query.ends_fixed_iff.mp h_found) h_found')

/-- In a list of withdrawn stakes, one for each source and holder, these tell the place. -/
theorem eq_of_sources {xs : List (Address × Stake)}
    (h_nodup : (xs.map fun e => (e.1, e.2.source)).Nodup) {i j : Nat} {holder : Address}
    {stake stake' : Stake} (h_i : xs[i]? = some (holder, stake))
    (h_j : xs[j]? = some (holder, stake')) (h_source : stake.source = stake'.source) :
    i = j ∧ stake = stake' := by
  have h_same : (xs.map fun e => (e.1, e.2.source))[i]? =
      (xs.map fun e => (e.1, e.2.source))[j]? := by
    rw [List.getElem?_map, List.getElem?_map, h_i, h_j, Option.map_some, Option.map_some, h_source]
  have h_lt : i < (xs.map fun e => (e.1, e.2.source)).length := by
    rw [List.length_map]
    exact (List.getElem?_eq_some_iff.mp h_i).1
  obtain rfl := (List.getElem?_inj h_lt h_nodup).mp h_same
  rw [h_i] at h_j
  cases h_j
  exact ⟨rfl, rfl⟩

end Backfill

theorem StakePurpose.code_injective {p p' : StakePurpose} (h_code : p.code = p'.code) : p = p' := by
  cases p <;> cases p' <;> first | rfl | exact absurd h_code (by decide)

/-- What a backfill puts down of a stake stands one block after its return height, under the
identifier of its place in the pool. -/
theorem Answers.HasOrigins.exists_identifier {node : NodeCall → NodeReply}
    (h_node : (Answers.fixed node).HasOrigins) {purpose : StakePurpose} {holder : Address}
    {stake : Stake} (h_stake : Backfill.InPool (.fixed node) purpose holder stake) :
    ∃ identifier, ∀ before height r, StakeReturn.Found (.fixed node) before height r →
      r.tx.key = (Backfill.withdrawal purpose holder stake).key →
      before.alreadyScheduled stake.returnHeight (Backfill.withdrawal purpose holder stake) = false ∧
        height = Chain.saturatingAdd stake.returnHeight 1 ∧ r.hash = identifier := by
  obtain ⟨p, h_pool, h_mem⟩ := h_stake
  obtain ⟨place, h_lt, h_place⟩ := List.getElem_of_mem h_mem
  have h_place : p.withdrawn[place]? = some (holder, stake) :=
    List.getElem?_eq_some_iff.mpr ⟨h_lt, h_place⟩
  refine ⟨StakeReturn.snapshotIdentifier purpose.poolName p.block place, ?_⟩
  intro before height r h_found h_key
  cases h_found with
  | @of_place purpose' p' place' holder' stake' h_pool' h_place' h_new =>
    -- Purpose, holder and source tell the pool and the place in it.
    simp only [Tx.WithdrawStake.key, StakeReturn.ofWithdrawal, Backfill.withdrawal,
      StakeKey.mk.injEq] at h_key
    obtain ⟨h_source, h_holder, h_purpose⟩ := h_key
    obtain rfl := StakePurpose.code_injective h_purpose
    obtain rfl := h_holder
    obtain rfl := h_pool.eq h_pool'
    obtain ⟨rfl, rfl⟩ :=
      Backfill.eq_of_sources (h_node.sources_nodup _ _ h_pool) h_place' h_place h_source
    exact ⟨h_new, rfl, rfl⟩

/-! ### Steps -/

/-- What changes the ledger: a backfill, or a request for a block. -/
inductive LedgerEvent where
  | backfill
  | block (identifier : PartialBlockIdentifier)

namespace LedgerEvent

/-- The ledger after an event, whether it succeeds or not. -/
def after (node : NodeCall → NodeReply) (l : Ledger) : LedgerEvent → Ledger
  | .backfill => (Backfill.run.against node l).2
  | .block identifier => ((Update.block identifier).against node l).2

/-- The ledger after some events, one after the other. -/
def run (node : NodeCall → NodeReply) (start : Ledger) (events : List LedgerEvent) : Ledger :=
  events.foldl (after node) start

/-- A request for a block is in time for a stake when no backfill has run yet, or what the block
withdraws of the stake is known from the block already. -/
def InTime (node : NodeCall → NodeReply) (height : UInt64) (key : StakeKey)
    (l : Ledger) : LedgerEvent → Prop
  | .backfill => True
  | .block identifier => l.backfilled = true →
    ∀ b : NodeBlock, (Query.namedBlock identifier).against node = .ok b →
      Chain.returnHeight b.height = height → ∀ tx ∈ b.txs, ∀ w,
        Tx.ofNode tx.code tx.raw = .ok (.withdrawStake w) → w.key = key →
        l.knows height tx.hash = true

/-- All requests of a run are in time for a stake. -/
def AllInTime (node : NodeCall → NodeReply) (height : UInt64) (key : StakeKey) :
    Ledger → List LedgerEvent → Prop
  | _, [] => True
  | l, event :: rest =>
    event.InTime node height key l ∧ AllInTime node height key (event.after node l) rest

end LedgerEvent

/-- A stake is scheduled once: from its block, or, when a backfill has run, from its pool. -/
def Ledger.ScheduledOnce (l : Ledger) (height : UInt64) (key : StakeKey)
    (hash identifier : Hash) : Prop :=
  l.RecordsAt height key height hash ∨
    l.backfilled = true ∧ l.RecordsAt height key (Chain.saturatingAdd height 1) identifier

/-- Records of one height and one hash are the same. -/
theorem Ledger.eq_of_hash {l : Ledger} {height : UInt64} {r r' : StakeReturn}
    (h_mem : r ∈ l.due height) (h_mem' : r' ∈ l.due height) (h_hash : r.hash = r'.hash) : r = r' :=
  List.inj_on_of_nodup_map (l.nodup_due height) h_mem h_mem' h_hash

namespace Update

variable {height : UInt64} {key : StakeKey} {hash identifier : Hash}
  {before after : Ledger}

/-- A backfill leaves a stake that is scheduled as it is, and schedules another one once. -/
theorem BackfillEnds.scheduledOnce {answers : Answers} {outcome : Except ApiError Nat}
    (h_ends : BackfillEnds answers before outcome after)
    (h_found : ∀ due r, StakeReturn.Found answers before due r → r.tx.key = key →
      (¬ ∃ e, e ∈ before.recordsOf height key) ∧ due = Chain.saturatingAdd height 1 ∧
        r.hash = identifier)
    (h_before : before.ScheduledOnce height key hash identifier) :
    after.ScheduledOnce height key hash identifier := by
  have h_record : ∀ due r, (due, r) ∈ after.recordsOf height key →
      (due, r) ∈ before.recordsOf height key ∨ r.Found answers before due ∧ r.tx.key = key := by
    intro due r h_mem
    obtain ⟨h_due, h_height, h_key⟩ := Ledger.mem_recordsOf_iff.mp h_mem
    rcases h_ends.found_of_mem_due h_due with h_old | h_new
    · exact Or.inl (Ledger.mem_recordsOf_iff.mpr ⟨h_old, h_height, h_key⟩)
    · exact Or.inr ⟨h_new, h_key⟩
  cases h_ends with
  | again => exact h_before
  | failed => exact h_before
  | searched h_first =>
    have h_live : before.RecordsAt height key height hash := by
      refine h_before.resolve_right fun h_done => ?_
      rw [h_first] at h_done
      exact Bool.false_ne_true h_done.1
    by_cases h_some : ∃ e, e ∈ before.recordsOf height key
    · -- The stake is scheduled, so that nothing is put down of it.
      refine Or.inl fun due r h_mem => ?_
      rcases h_record due r h_mem with h_old | ⟨h_new, h_key⟩
      · exact h_live due r h_old
      · exact absurd h_some (h_found _ _ h_new h_key).1
    · -- There is no record of the stake but what is put down now.
      refine Or.inr ⟨rfl, fun due r h_mem => ?_⟩
      rcases h_record due r h_mem with h_old | ⟨h_new, h_key⟩
      · exact absurd ⟨_, h_old⟩ h_some
      · exact (h_found _ _ h_new h_key).2

/-- A request for a block that is in time leaves a stake scheduled once. -/
theorem BlockEnds.scheduledOnce {node : NodeCall → NodeReply}
    {request : PartialBlockIdentifier} {outcome : Except ApiError Block}
    (h_ends : BlockEnds (.fixed node) request before outcome after)
    (h_origin : ∀ height' hash', height' = height ∨ height' = Chain.saturatingAdd height 1 →
      (Answers.fixed node).Withdraws key height' hash' → height' = height ∧ hash' = hash)
    (h_time : (LedgerEvent.block request).InTime node height key before)
    (h_before : before.ScheduledOnce height key hash identifier) :
    after.ScheduledOnce height key hash identifier := by
  -- A record is an old one, or it has been written in time for the withdrawal of the stake.
  have h_record : ∀ due r, (due, r) ∈ after.recordsOf height key →
      (due, r) ∈ before.recordsOf height key ∨ due = height ∧ r.hash = hash ∧
        (before.backfilled = true → before.knows height r.hash = true) := by
    intro due r h_mem
    obtain ⟨h_due, h_height, h_key⟩ := Ledger.mem_recordsOf_iff.mp h_mem
    rcases h_ends.exists_of_mem_due h_due with h_old |
      ⟨b, h_block, h_return, tx, h_tx, w, amount, h_read, -, rfl⟩
    · exact Or.inl (Ledger.mem_recordsOf_iff.mpr ⟨h_old, h_height, h_key⟩)
    · have h_withdraws : (Answers.fixed node).Withdraws key due tx.hash :=
        ⟨b, ⟨request, h_block⟩, h_return, tx, h_tx, rfl, w, h_read, h_key⟩
      obtain ⟨rfl, h_hash⟩ := h_origin due tx.hash h_height h_withdraws
      have h_known : before.backfilled = true → before.knows due tx.hash = true := by
        intro h_done
        exact h_time h_done b (Query.ends_fixed_iff.mp h_block) h_return tx h_tx w h_read h_key
      exact Or.inr ⟨rfl, h_hash, h_known⟩
  rcases h_before with h_live | ⟨h_done, h_pooled⟩
  · refine Or.inl fun due r h_mem => ?_
    rcases h_record due r h_mem with h_old | ⟨h_due, h_hash, -⟩
    · exact h_live due r h_old
    · exact ⟨h_due, h_hash⟩
  · refine Or.inr ⟨h_ends.backfilled_eq.trans h_done, fun due r h_mem => ?_⟩
    rcases h_record due r h_mem with h_old | ⟨rfl, -, h_known⟩
    · exact h_pooled due r h_old
    · -- The withdrawal is known, and what is known is not written again.
      obtain ⟨r', h_old, h_same⟩ := Ledger.knows_iff.mp (h_known h_done)
      obtain ⟨h_due, h_height, h_key⟩ := Ledger.mem_recordsOf_iff.mp h_mem
      have h_kept := (h_ends.due_prefix due).subset h_old
      obtain rfl := Ledger.eq_of_hash h_kept h_due h_same
      exact h_pooled due r' (Ledger.mem_recordsOf_iff.mpr ⟨h_old, h_height, h_key⟩)

/-- A request that is answered has a record of each stake that its block withdraws, at the end of the
locking period. -/
theorem BlockEnds.exists_record {node : NodeCall → NodeReply} {request : PartialBlockIdentifier}
    {shown : Block} (h_ends : BlockEnds (.fixed node) request before (.ok shown) after)
    {b : NodeBlock} (h_block : (Query.namedBlock request).against node = .ok b)
    (h_nodup : (b.txs.map (·.hash)).Nodup) (h_height : Chain.returnHeight b.height = height)
    {tx : BlockTx} (h_tx : tx ∈ b.txs) {w : Tx.WithdrawStake}
    (h_read : Tx.ofNode tx.code tx.raw = .ok (.withdrawStake w))
    (h_new : before.knows height tx.hash = false) :
    ∃ r, (height, r) ∈ after.recordsOf height w.key := by
  obtain ⟨b', h_block', h_due⟩ := h_ends.exists_due
  obtain rfl := Query.eq_of_against h_block h_block'
  obtain ⟨r, h_mem, h_hash⟩ := h_due tx h_tx w h_read
  rw [h_height] at h_mem
  have h_stake : r.tx.key = w.key := by
    rcases h_ends.exists_of_mem_due h_mem with h_old |
      ⟨b', h_block', -, tx', h_tx', w', amount, h_read', -, rfl⟩
    · -- Nothing was known under this hash, so the record is not an old one.
      rw [Ledger.knows_iff.mpr ⟨r, h_old, h_hash⟩] at h_new
      cases h_new
    · obtain rfl := Query.eq_of_against h_block h_block'
      obtain rfl := List.inj_on_of_nodup_map h_nodup h_tx' h_tx h_hash
      rw [h_read] at h_read'
      cases h_read'
      rfl
  exact ⟨r, Ledger.mem_recordsOf_iff.mpr ⟨h_mem, Or.inl rfl, h_stake⟩⟩

end Update

/-! ### Runs -/

namespace LedgerEvent

variable {node : NodeCall → NodeReply} {purpose : StakePurpose} {holder : Address} {stake : Stake}

/-- Events that are in time keep a stake scheduled once. -/
theorem scheduledOnce_run (h_node : (Answers.fixed node).HasOrigins)
    (h_stake : Backfill.InPool (.fixed node) purpose holder stake) :
    ∃ hash identifier, ∀ (events : List LedgerEvent) (start : Ledger),
      AllInTime node stake.returnHeight (Backfill.withdrawal purpose holder stake).key start events →
      start.ScheduledOnce stake.returnHeight (Backfill.withdrawal purpose holder stake).key hash
        identifier →
      (run node start events).ScheduledOnce stake.returnHeight
        (Backfill.withdrawal purpose holder stake).key hash identifier := by
  obtain ⟨hash, -, h_origin⟩ := h_node.stems purpose holder stake h_stake
  obtain ⟨identifier, h_identifier⟩ := h_node.exists_identifier h_stake
  refine ⟨hash, identifier, fun events => ?_⟩
  induction events with
  | nil => exact fun start _ h_start => h_start
  | cons event rest ih =>
    intro start h_time h_start
    refine ih (event.after node start) h_time.2 ?_
    cases event with
    | backfill =>
      refine (Update.backfillEnds_against node start).scheduledOnce ?_ h_start
      intro due r h_found h_key
      obtain ⟨h_new, h_due, h_hash⟩ := h_identifier _ _ _ h_found h_key
      rw [← Ledger.alreadyScheduled_iff, h_new]
      exact ⟨Bool.false_ne_true, h_due, h_hash⟩
    | block request =>
      exact (Update.blockEnds_against node start request).scheduledOnce h_origin h_time.1 h_start

/-- **A stake is scheduled once**, in whatever order a backfill and requests for blocks come, as long
as no request finds its withdrawal for the first time after the backfill. -/
theorem scheduled_once (h_node : (Answers.fixed node).HasOrigins)
    (h_stake : Backfill.InPool (.fixed node) purpose holder stake) (events : List LedgerEvent)
    (h_time : AllInTime node stake.returnHeight (Backfill.withdrawal purpose holder stake).key .empty
      events) :
    ((run node .empty events).recordsOf stake.returnHeight
      (Backfill.withdrawal purpose holder stake).key).length ≤ 1 := by
  obtain ⟨hash, identifier, h_run⟩ := scheduledOnce_run h_node h_stake
  have h_empty : Ledger.empty.ScheduledOnce stake.returnHeight
      (Backfill.withdrawal purpose holder stake).key hash identifier := Or.inl nofun
  rcases h_run events .empty h_time h_empty with h_live | ⟨-, h_pooled⟩
  · exact h_live.length_le_one
  · exact h_pooled.length_le_one

theorem run_append (start : Ledger) (events others : List LedgerEvent) :
    run node start (events ++ others) = run node (run node start events) others :=
  List.foldl_append

/-- Events take nothing away. -/
theorem due_prefix_run (start : Ledger) (events : List LedgerEvent) (height : UInt64) :
    start.due height <+: (run node start events).due height := by
  induction events generalizing start with
  | nil => exact List.prefix_rfl
  | cons event rest ih =>
    refine List.IsPrefix.trans ?_ (ih (event.after node start))
    cases event with
    | backfill =>
      have h_ends := Update.backfillEnds_against node start
      exact h_ends.due_prefix height
    | block request =>
      have h_ends := Update.blockEnds_against node start request
      exact h_ends.due_prefix height

variable (node) in
theorem mem_recordsOf_run {start : Ledger} {height due : UInt64} {key : StakeKey} {r : StakeReturn}
    (h_record : (due, r) ∈ start.recordsOf height key) (events : List LedgerEvent) :
    (due, r) ∈ (run node start events).recordsOf height key := by
  obtain ⟨h_mem, h_rest⟩ := Ledger.mem_recordsOf_iff.mp h_record
  exact Ledger.mem_recordsOf_iff.mpr ⟨(due_prefix_run start events due).subset h_mem, h_rest⟩

/-- **A request that comes too late schedules a stake once more**, and for good. The stake has a
record from its pool when the request is made, and the block withdraws it under a hash that is not
known yet. Once the request has been answered there are two records. -/
theorem two_le_length_recordsOf (earlier later : List LedgerEvent)
    {request : PartialBlockIdentifier} {shown : Block} {height : UInt64} {r : StakeReturn}
    {b : NodeBlock} {tx : BlockTx} {w : Tx.WithdrawStake}
    (h_answer : ((Update.block request).against node (run node .empty earlier)).1 = .ok shown)
    (h_pooled : (Chain.saturatingAdd height 1, r) ∈
      (run node .empty earlier).recordsOf height w.key)
    (h_apart : Chain.saturatingAdd height 1 ≠ height)
    (h_block : (Query.namedBlock request).against node = .ok b)
    (h_nodup : (b.txs.map (·.hash)).Nodup) (h_height : Chain.returnHeight b.height = height)
    (h_tx : tx ∈ b.txs) (h_read : Tx.ofNode tx.code tx.raw = .ok (.withdrawStake w))
    (h_new : (run node .empty earlier).knows height tx.hash = false) :
    2 ≤ ((run node .empty (earlier ++ .block request :: later)).recordsOf height w.key).length := by
  have h_ends := Update.blockEnds_against node (run node .empty earlier) request
  rw [h_answer] at h_ends
  obtain ⟨r', h_live⟩ := h_ends.exists_record h_block h_nodup h_height h_tx h_read h_new
  rw [run_append]
  -- What is there before the request, and what is there after it, is there in the end.
  have h_kept := mem_recordsOf_run node h_pooled (.block request :: later)
  have h_later := mem_recordsOf_run node h_live later
  have h_distinct : [(Chain.saturatingAdd height 1, r), (height, r')].Nodup := by
    rw [List.nodup_cons, List.mem_singleton, Prod.mk.injEq]
    exact ⟨fun h_same => h_apart h_same.1, List.nodup_singleton _⟩
  exact (h_distinct.subperm (List.cons_subset.mpr
    ⟨h_kept, List.cons_subset.mpr ⟨h_later, List.nil_subset _⟩⟩)).length_le

end LedgerEvent

/-! ### A pool that shows a withdrawal -/

namespace SampleSnapshot

open SampleChain (account txHash blockTx withdrawal block)

/-- The stake of the withdrawal, which comes back at height 28801. -/
def stake : Stake := ⟨.zero, 5, true, 28801⟩

/-- The pool of validators. -/
def snapshot : PoolSnapshot := ⟨.zero, [⟨.zero, [stake]⟩]⟩

/-- The pool as the node tells it. -/
def pool : Json :=
  .object [("BlockHashVcpPairs", .array [.object [("Vcp", .object [("SortedCandidates",
    .array [.object [("Holder", account), ("Stakes", .array [.object [("source", account),
      ("amount", .string "5"), ("withdrawn", .bool true), ("return_height", .ofNat 28801)]])]])])]])]

/-- The node has the blocks of the chain with one withdrawal, and shows the stake in its pool. -/
def node : NodeCall → NodeReply
  | .status => .ok (.object [("snapshot_block_height", .string "100")])
  | .stakePool .validator _ => .ok pool
  | call => SampleChain.node call

/-- A block that is told in the same way is the same. -/
theorem against_block {call : NodeCall} (h_call : node call = SampleChain.node call) :
    (Query.block call).against node = (Query.block call).against SampleChain.node := by
  simp only [Query.against, Query.block, Query.find, Query.ask, ExceptT.run_bind, ExceptT.run_mk,
    Dialogue.ask_bind, Dialogue.run_ask, h_call, Dialogue.done_bind]
  -- After the one reply the node is not asked again.
  cases (NodeReply.find call NodeBlock.json.ofJson (SampleChain.node call)).mapError
      (ApiError.ofNode fun _ => ApiError.blockUnavailable) with
  | error e => rfl
  | ok found => cases found <;> rfl

/-- The blocks of the node are those of the chain. -/
theorem against_namedBlock (identifier : PartialBlockIdentifier) :
    (Query.namedBlock identifier).against node =
      (Query.namedBlock identifier).against SampleChain.node := by
  obtain ⟨index, hash⟩ := identifier
  cases index with
  | some index =>
    rw [Query.namedBlock, Query.blockWithIndex, Query.heightOf]
    by_cases h_neg : index < 0
    · rw [if_pos h_neg]
      rfl
    · rw [if_neg h_neg]
      exact against_block rfl
  | none =>
    cases hash with
    | none => rfl
    | some s =>
      rw [Query.namedBlock, Query.blockWithHash, Query.hashOf]
      cases Hash.ofText? s with
      | none => rfl
      | some hash => exact against_block rfl

theorem isOf_iff {b : NodeBlock} : b.IsOf (.fixed node) ↔ b.IsOf (.fixed SampleChain.node) := by
  simp only [NodeBlock.IsOf, Query.ends_fixed_iff, against_namedBlock]

/-- The node tells of one pool. -/
theorem eq_of_isPool {purpose : StakePurpose} {p : PoolSnapshot}
    (h_pool : Backfill.IsPool (.fixed node) purpose p) : purpose = .validator ∧ p = snapshot := by
  obtain ⟨status, h_status, h_found⟩ := h_pool
  rw [Query.ends_fixed_iff] at h_status h_found
  cases h_status
  cases purpose with
  | validator =>
    cases h_found
    exact ⟨rfl, rfl⟩
  | guardian => cases h_found
  | eliteEdgeNode => cases h_found

theorem isPool : Backfill.IsPool (.fixed node) .validator snapshot :=
  ⟨_, Query.ends_fixed_iff.mpr rfl, Query.ends_fixed_iff.mpr rfl⟩

/-- The stake is withdrawn in the pool. -/
theorem inPool : Backfill.InPool (.fixed node) .validator .zero stake :=
  ⟨snapshot, isPool, by decide⟩

/-- The only withdrawal of the node is the one of the chain. -/
theorem eq_of_withdraws {key : StakeKey} {height : UInt64} {hash : Hash}
    (h_withdraws : (Answers.fixed node).Withdraws key height hash) :
    height = 28801 ∧ hash = txHash := by
  obtain ⟨b, h_of, rfl, tx, h_tx, rfl, -⟩ := h_withdraws
  rcases SampleChain.eq_of_isOf (isOf_iff.mp h_of) with rfl | rfl
  · obtain rfl := List.mem_singleton.mp h_tx
    exact ⟨by decide, rfl⟩
  · cases h_tx

/-- The stake in the pool has an origin. -/
theorem hasOrigins : (Answers.fixed node).HasOrigins where
  sources_nodup purpose p h_pool := by
    obtain ⟨rfl, rfl⟩ := eq_of_isPool h_pool
    decide
  stems purpose holder stake' h_stake := by
    obtain ⟨p, h_pool, h_mem⟩ := h_stake
    obtain ⟨rfl, rfl⟩ := eq_of_isPool h_pool
    have h_withdrawn : snapshot.withdrawn = [(.zero, stake)] := by decide
    rw [h_withdrawn, List.mem_singleton] at h_mem
    cases h_mem
    have h_block : (block 1 [blockTx]).IsOf (.fixed node) :=
      ⟨⟨some 1, none⟩, Query.ends_fixed_iff.mpr rfl⟩
    refine ⟨txHash, ⟨_, h_block, by decide, blockTx, List.mem_cons_self, rfl, withdrawal,
      SampleChain.ofNode_blockTx, rfl⟩, ?_⟩
    intro height' hash' _ h_withdraws
    exact eq_of_withdraws h_withdraws

/-- The stake as withdrawals tell it. -/
def key : StakeKey := (Backfill.withdrawal .validator .zero stake).key

/-- A request that is made before the backfill is in time when it is made once more. -/
theorem scheduled_once_repeated :
    let events : List LedgerEvent :=
      [.block ⟨some 1, none⟩, .backfill, .block ⟨some 1, none⟩, .backfill]
    (Answers.fixed node).HasOrigins ∧ Backfill.InPool (.fixed node) .validator .zero stake ∧
      LedgerEvent.AllInTime node 28801 key .empty events ∧
      ((LedgerEvent.run node .empty events).recordsOf 28801 key).length ≤ 1 := by
  intro events
  have h_time : LedgerEvent.AllInTime node 28801 key .empty events := by
    -- Only the second request comes behind a backfill, and by then its withdrawal is known.
    refine ⟨nofun, trivial, ?_, trivial, trivial⟩
    intro _ b h_block _ tx h_tx w _ _
    cases h_block
    obtain rfl := List.mem_singleton.mp h_tx
    decide +kernel
  exact ⟨hasOrigins, inPool, h_time,
    LedgerEvent.scheduled_once hasOrigins inPool events h_time⟩

/-- When the backfill comes first, the request for the block schedules the stake once more. -/
theorem scheduled_twice_after_backfill :
    (Answers.fixed node).HasOrigins ∧ Backfill.InPool (.fixed node) .validator .zero stake ∧
      ((LedgerEvent.run node .empty [.backfill, .block ⟨some 1, none⟩]).recordsOf 28801 key).length =
        2 :=
  ⟨hasOrigins, inPool, by decide +kernel⟩

end SampleSnapshot

end RosettaGateway
