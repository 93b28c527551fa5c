import RosettaGateway.Api.Backfill
import RosettaGateway.Proofs.Dialogue
import RosettaGateway.Proofs.Stake.Ledger

/-!
# What a backfill does

A backfill that has not run yet reads the pools at the snapshot of the node, and puts down a return
for each withdrawn stake in them that has none. As for a request for a block, what it can end with
and what it writes is said by relations:

* `Backfill.InPool` — a stake that is withdrawn, in the pool of its purpose;
* `StakeReturn.Found` — a record that a backfill puts down at a height, made from such a stake;
* `Update.BackfillEnds` — the ends of a backfill, of which there are three: it has run before, the
  node fails it, or it puts a schedule down.

`Update.ends_backfill` reads them off the definition.
-/

namespace RosettaGateway

/-! ### Schedules -/

namespace Schedule

variable {height height' : UInt64} {r r' : StakeReturn} {s : Schedule}

/-- A schedule has a return at a height. -/
def Holds (s : Schedule) (height : UInt64) (r : StakeReturn) : Prop :=
  ∃ returns, (height, returns) ∈ s ∧ r ∈ returns

theorem not_holds_nil : ¬ Holds [] height r := by
  rintro ⟨returns, h_mem, -⟩
  cases h_mem

theorem holds_cons_iff {returns : List StakeReturn} :
    Holds ((height', returns) :: s) height r ↔ height = height' ∧ r ∈ returns ∨ s.Holds height r := by
  simp only [Holds, List.mem_cons, Prod.mk.injEq]
  constructor
  · rintro ⟨_, ⟨rfl, rfl⟩ | h_mem, h_r⟩
    · exact Or.inl ⟨rfl, h_r⟩
    · exact Or.inr ⟨_, h_mem, h_r⟩
  · rintro (⟨rfl, h_r⟩ | ⟨_, h_mem, h_r⟩)
    · exact ⟨_, Or.inl ⟨rfl, rfl⟩, h_r⟩
    · exact ⟨_, Or.inr h_mem, h_r⟩

/-- A schedule gets the return that is added to it, and keeps those it has. -/
theorem holds_insert_iff :
    (insert height' r' s).Holds height r ↔ height = height' ∧ r = r' ∨ s.Holds height r := by
  induction s with
  | nil => rw [insert, holds_cons_iff, List.mem_singleton]
  | cons entry rest ih =>
    obtain ⟨h, returns⟩ := entry
    rw [insert]
    split
    · next h_eq =>
      rw [holds_cons_iff, holds_cons_iff, List.mem_append, List.mem_singleton, h_eq]
      tauto
    · split
      · rw [holds_cons_iff, List.mem_singleton]
      · rw [holds_cons_iff, holds_cons_iff, ih]
        tauto

/-- A schedule has just the returns it was made of, each at its height. -/
theorem holds_ofList_iff {returns : List (UInt64 × StakeReturn)} :
    (ofList returns).Holds height r ↔ (height, r) ∈ returns := by
  -- By induction for any schedule that is there already.
  have h_fold : ∀ s : Schedule,
      (returns.foldl (fun s e => insert e.1 e.2 s) s : Schedule).Holds height r ↔
        s.Holds height r ∨ (height, r) ∈ returns := by
    induction returns with
    | nil => simp
    | cons e rest ih =>
      intro s
      rw [List.foldl_cons, ih, holds_insert_iff, List.mem_cons, Prod.ext_iff]
      tauto
  rw [ofList, h_fold []]
  exact or_iff_right not_holds_nil

end Schedule

namespace Ledger

/-- The list at each height only ever grows at its end. -/
theorem due_prefix_putAll (s : Schedule) (l : Ledger) (height : UInt64) :
    l.due height <+: (l.putAll s).1.due height := by
  induction s generalizing l with
  | nil => exact List.prefix_rfl
  | cons entry rest ih =>
    exact (due_prefix_put entry.1 height entry.2 l).trans (ih (l.put entry.1 entry.2).1)

/-- What is there after a schedule was put down was there before, or is in the schedule. -/
theorem mem_due_putAll {s : Schedule} {l : Ledger} {height : UInt64} {r : StakeReturn}
    (h_mem : r ∈ (l.putAll s).1.due height) : r ∈ l.due height ∨ s.Holds height r := by
  induction s generalizing l with
  | nil => exact Or.inl h_mem
  | cons entry rest ih =>
    rw [Schedule.holds_cons_iff]
    rcases ih h_mem with h_between | h_rest
    · rcases mem_due_put h_between with h_old | ⟨rfl, h_new⟩
      · exact Or.inl h_old
      · exact Or.inr (Or.inl ⟨rfl, h_new⟩)
    · exact Or.inr (Or.inr h_rest)

end Ledger

/-! ### Withdrawn stakes -/

/-- What tells a stake, wherever it comes from: its parties and its purpose. -/
structure StakeKey where
  source : Address
  holder : Address
  purpose : UInt8
  deriving DecidableEq

/-- The stake that a withdrawal takes back. -/
def Tx.WithdrawStake.key (w : Tx.WithdrawStake) : StakeKey :=
  ⟨w.source.address, w.holder.address, w.purpose⟩

namespace Backfill

variable {answers : Answers}

/-- A pool that the node tells of at its snapshot. -/
def IsPool (answers : Answers) (purpose : StakePurpose) (p : PoolSnapshot) : Prop :=
  ∃ status : NodeStatus, Query.status.Ends answers (.ok status) ∧
    (Query.pool purpose status.snapshotHeight).Ends answers (.ok (some p))

/-- The stake that a holder has in the pool of a purpose at the snapshot of the node is withdrawn. -/
def InPool (answers : Answers) (purpose : StakePurpose) (holder : Address) (stake : Stake) : Prop :=
  ∃ p, IsPool answers purpose p ∧ (holder, stake) ∈ p.withdrawn

end Backfill

/-- A record at a height is one that a backfill puts down: the return of a stake in a pool, one block
after its return height and under the identifier of its place. No return of the stake was due. -/
inductive StakeReturn.Found (answers : Answers) (before : Ledger) : UInt64 → StakeReturn → Prop
  | of_place {purpose : StakePurpose} {p : PoolSnapshot} {place : Nat} {holder : Address}
      {stake : Stake} (h_pool : Backfill.IsPool answers purpose p)
      (h_place : p.withdrawn[place]? = some (holder, stake))
      (h_new : before.alreadyScheduled stake.returnHeight
        (Backfill.withdrawal purpose holder stake) = false) :
      Found answers before (Chain.saturatingAdd stake.returnHeight 1)
        (.ofWithdrawal (StakeReturn.snapshotIdentifier purpose.poolName p.block place)
          (Backfill.withdrawal purpose holder stake) stake.amount)

namespace Backfill

variable {answers : Answers} {before after : Ledger}

/-- What a pool gives rise to is the return of a withdrawn stake in it that has none yet. -/
theorem exists_place_of_mem_returnsOf {purpose : StakePurpose} {p : PoolSnapshot} {height : UInt64}
    {r : StakeReturn} (h_mem : (height, r) ∈ returnsOf before purpose (some p)) :
    ∃ place holder stake, p.withdrawn[place]? = some (holder, stake) ∧
      before.alreadyScheduled stake.returnHeight (withdrawal purpose holder stake) = false ∧
      height = Chain.saturatingAdd stake.returnHeight 1 ∧
      r = .ofWithdrawal (StakeReturn.snapshotIdentifier purpose.poolName p.block place)
        (withdrawal purpose holder stake) stake.amount := by
  rw [returnsOf, List.mem_filterMap] at h_mem
  obtain ⟨⟨⟨holder, stake⟩, place⟩, h_place, h_return⟩ := h_mem
  rw [List.mk_mem_zipIdx_iff_getElem?] at h_place
  simp only [return?] at h_return
  split at h_return
  · cases h_return
  · next h_new =>
    cases h_return
    exact ⟨place, holder, stake, h_place, Bool.eq_false_iff.mpr h_new, rfl, rfl⟩

theorem found_of_mem_returnsOf {purpose : StakePurpose} {p : PoolSnapshot} {height : UInt64}
    {r : StakeReturn} (h_pool : IsPool answers purpose p)
    (h_mem : (height, r) ∈ returnsOf before purpose (some p)) : r.Found answers before height := by
  obtain ⟨place, holder, stake, h_place, h_new, rfl, rfl⟩ := exists_place_of_mem_returnsOf h_mem
  exact .of_place h_pool h_place h_new

/-- The pools are gone through purpose by purpose, and each that is read is the one of its purpose.
-/
theorem ends_pools {height : UInt64} {found : List (StakePurpose × Option PoolSnapshot)}
    (h_ends : (pools height).Ends answers (.ok found)) :
    found.map Prod.fst = StakePurpose.all ∧
      ∀ e ∈ found, (Query.pool e.1 height).Ends answers (.ok e.2) := by
  unfold pools at h_ends
  -- The induction is on the purposes, whichever they are.
  generalize StakePurpose.all = purposes at h_ends ⊢
  induction purposes generalizing found with
  | nil =>
    rw [List.mapM_nil, Query.ends_pure_iff] at h_ends
    cases h_ends
    exact ⟨rfl, nofun⟩
  | cons purpose rest ih =>
    rw [List.mapM_cons] at h_ends
    obtain ⟨first, h_first, h_ends⟩ := Query.ends_bind_ok_iff.mp h_ends
    obtain ⟨others, h_others, h_ends⟩ := Query.ends_bind_ok_iff.mp h_ends
    obtain ⟨pool, h_pool, h_first⟩ := Query.ends_bind_ok_iff.mp h_first
    cases Query.ends_pure_iff.mp h_first
    cases Query.ends_pure_iff.mp h_ends
    obtain ⟨h_purposes, h_rest⟩ := ih h_others
    refine ⟨by rw [List.map_cons, h_purposes], ?_⟩
    intro e h_mem
    rcases List.mem_cons.mp h_mem with rfl | h_other
    · exact h_pool
    · exact h_rest e h_other

/-- What a schedule holds stems from one of the pools that were found. -/
theorem exists_pool_of_holds {found : List (StakePurpose × Option PoolSnapshot)} {height : UInt64}
    {r : StakeReturn} (h_holds : (scheduleOf before found).Holds height r) :
    ∃ purpose p, (purpose, some p) ∈ found ∧ (height, r) ∈ returnsOf before purpose (some p) := by
  rw [scheduleOf, Schedule.holds_ofList_iff, List.mem_flatMap] at h_holds
  obtain ⟨⟨purpose, pool⟩, h_found, h_mem⟩ := h_holds
  cases pool with
  | none => cases h_mem
  | some p => exact ⟨purpose, p, h_found, h_mem⟩

/-- What the pools give rise to are records that a backfill puts down. -/
theorem found_of_holds {status : NodeStatus}
    (h_status : Query.status.Ends answers (.ok status))
    {found : List (StakePurpose × Option PoolSnapshot)}
    (h_pools : (pools status.snapshotHeight).Ends answers (.ok found)) {height : UInt64}
    {r : StakeReturn} (h_holds : (scheduleOf before found).Holds height r) :
    r.Found answers before height := by
  obtain ⟨purpose, p, h_found, h_mem⟩ := exists_pool_of_holds h_holds
  exact found_of_mem_returnsOf ⟨status, h_status, (ends_pools h_pools).2 _ h_found⟩ h_mem

end Backfill

namespace Update

variable {answers : Answers} {before after : Ledger}

/-- What a backfill can end with, and the ledger after it. -/
inductive BackfillEnds (answers : Answers) (before : Ledger) : Except ApiError Nat → Ledger → Prop
  | again (h_done : before.backfilled = true) : BackfillEnds answers before (.ok 0) before
  | failed {e : ApiError} : BackfillEnds answers before (.error e) before
  | searched {s : Schedule} (h_first : before.backfilled = false)
      (h_found : ∀ height r, s.Holds height r → r.Found answers before height) :
      BackfillEnds answers before (.ok (before.putAll s).2) (before.putAll s).1.mark

/-- A backfill has run before, or the node fails it, or it puts down the schedule of all pools. -/
theorem ends_backfill_run {outcome : Except ApiError Nat}
    (h_ends : Ends answers Backfill.run before outcome after) :
    (before.backfilled = true ∧ outcome = .ok 0 ∧ after = before) ∨
    (∃ e, outcome = .error e ∧ after = before) ∨
    ∃ status found, before.backfilled = false ∧ Query.status.Ends answers (.ok status) ∧
      (Backfill.pools status.snapshotHeight).Ends answers (.ok found) ∧
      outcome = .ok (before.putAll (Backfill.scheduleOf before found)).2 ∧
      after = (before.putAll (Backfill.scheduleOf before found)).1.mark := by
  -- Looking at the ledger and writing it cannot fail, so only the two queries can.
  rcases ends_bind_iff.mp h_ends with ⟨l, between, h_ledger, h_rest⟩ | ⟨e, h_ledger, -⟩
  · obtain ⟨h_ok, rfl⟩ := ends_ledger_iff.mp h_ledger
    cases h_ok
    split at h_rest
    · next h_done =>
      obtain ⟨rfl, rfl⟩ := ends_pure_iff.mp h_rest
      exact Or.inl ⟨h_done, rfl, rfl⟩
    · next h_first =>
      rcases ends_bind_iff.mp h_rest with ⟨status, _, h_query, h_rest⟩ | ⟨e, h_query, rfl⟩
      · obtain ⟨h_status, rfl⟩ := ends_toUpdate_iff.mp h_query
        rcases ends_bind_iff.mp h_rest with ⟨found, _, h_query, h_rest⟩ | ⟨e, h_query, rfl⟩
        · obtain ⟨h_pools, rfl⟩ := ends_toUpdate_iff.mp h_query
          rcases ends_bind_iff.mp h_rest with ⟨_, written, h_write, h_done⟩ | ⟨e, h_write, -⟩
          · obtain ⟨-, rfl⟩ := ends_setLedger_iff.mp h_write
            obtain ⟨rfl, rfl⟩ := ends_pure_iff.mp h_done
            exact Or.inr (Or.inr
              ⟨status, found, Bool.eq_false_iff.mpr h_first, h_status, h_pools, rfl, rfl⟩)
          · cases (ends_setLedger_iff.mp h_write).1
        · obtain ⟨-, rfl⟩ := ends_toUpdate_iff.mp h_query
          exact Or.inr (Or.inl ⟨e, rfl, rfl⟩)
      · obtain ⟨-, rfl⟩ := ends_toUpdate_iff.mp h_query
        exact Or.inr (Or.inl ⟨e, rfl, rfl⟩)
  · cases (ends_ledger_iff.mp h_ledger).1

/-- **A backfill** ends in one of these ways. When the node fails it, nothing is written, and it can
be run once more. -/
theorem ends_backfill {outcome : Except ApiError Nat}
    (h_ends : Ends answers Backfill.run before outcome after) :
    BackfillEnds answers before outcome after := by
  rcases ends_backfill_run h_ends with ⟨h_done, rfl, rfl⟩ | ⟨e, rfl, rfl⟩ |
    ⟨status, found, h_first, h_status, h_pools, rfl, rfl⟩
  · exact .again h_done
  · exact .failed
  · exact .searched h_first fun height r h_holds => Backfill.found_of_holds h_status h_pools h_holds

theorem backfillEnds_against (node : NodeCall → NodeReply) (before : Ledger) :
    BackfillEnds (.fixed node) before (Backfill.run.against node before).1
      (Backfill.run.against node before).2 :=
  ends_backfill (ends_fixed_iff.mpr rfl)

/-- A record that is new after a backfill is one that the backfill puts down. -/
theorem BackfillEnds.found_of_mem_due {outcome : Except ApiError Nat}
    (h_ends : BackfillEnds answers before outcome after) {height : UInt64} {r : StakeReturn}
    (h_mem : r ∈ after.due height) : r ∈ before.due height ∨ r.Found answers before height := by
  cases h_ends with
  | again => exact Or.inl h_mem
  | failed => exact Or.inl h_mem
  | searched _ h_found => exact (Ledger.mem_due_putAll h_mem).imp_right (h_found height r)

/-- A backfill takes nothing away. -/
theorem BackfillEnds.due_prefix {outcome : Except ApiError Nat}
    (h_ends : BackfillEnds answers before outcome after) (height : UInt64) :
    before.due height <+: after.due height := by
  cases h_ends with
  | again => exact List.prefix_rfl
  | failed => exact List.prefix_rfl
  | searched => exact Ledger.due_prefix_putAll _ before height

end Update

end RosettaGateway
