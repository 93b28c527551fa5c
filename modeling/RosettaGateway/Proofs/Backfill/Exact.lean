import Mathlib.Data.List.Sigma
import RosettaGateway.Proofs.Backfill.Schedule
import RosettaGateway.Proofs.Stake.Identifiers

/-!
# A backfill adds what is missing

Against a node whose answers do not change, a backfill that has not run yet reads the status and the
three pools, and then nothing can go wrong any more. It asks each of them once, so a node that
changes its answers would make no difference. What it plans is said by the places of withdrawn
stakes in the pools (`Backfill.places`): those of stakes that have no record yet give one each
(`Backfill.flatMap_returnsOf`), sorted by height.

Records are told by their identifiers. Where the identifiers that are used are new and differ
(`Backfill.MintsFresh`), the ledger takes all that is planned, so that a backfill adds the records
that are missing, no others, and tells how many there were (`Backfill.run_exact`). A query that
fails ends the backfill before anything is put down.
-/

namespace RosettaGateway

namespace Backfill

variable {answers : Answers} {node : NodeCall → NodeReply} {before l : Ledger}
  {found : List (StakePurpose × Option PoolSnapshot)}

/-! ### Places -/

/-- The place of a withdrawn stake in the pool of a purpose, with the block of the pool. -/
structure Place where
  purpose : StakePurpose
  block : Hash
  index : Nat
  holder : Address
  stake : Stake
  deriving DecidableEq

namespace Place

/-- The withdrawal of the stake. -/
def withdrawal (q : Place) : Tx.WithdrawStake := Backfill.withdrawal q.purpose q.holder q.stake

/-- The text behind the identifier of the place. -/
def text (q : Place) : String := StakeReturn.snapshotText q.purpose.poolName q.block q.index

/-- The return of the stake, with its height. -/
def record (q : Place) : UInt64 × StakeReturn :=
  (Chain.saturatingAdd q.stake.returnHeight 1,
    .ofWithdrawal (keccakText q.text) q.withdrawal q.stake.amount)

/-- Whether a ledger has a record of the stake. -/
def scheduled (l : Ledger) (q : Place) : Bool :=
  l.alreadyScheduled q.stake.returnHeight q.withdrawal

/-- A record is one of the stake, be it from the pool or not: it stands at the return height or one
block after, and has the parties and the purpose of the stake. -/
def Has (q : Place) (e : UInt64 × StakeReturn) : Prop :=
  (e.1 = q.stake.returnHeight ∨ e.1 = Chain.saturatingAdd q.stake.returnHeight 1) ∧
    e.2.tx.key = q.withdrawal.key

theorem has_record (q : Place) : q.Has q.record := ⟨Or.inr rfl, rfl⟩

theorem mem_recordsOf_iff {q : Place} {e : UInt64 × StakeReturn} :
    e ∈ l.recordsOf q.stake.returnHeight q.withdrawal.key ↔ e ∈ l.entries ∧ q.Has e := by
  rw [Ledger.recordsOf, List.mem_filter, decide_eq_true_eq]
  exact Iff.rfl

theorem scheduled_iff {q : Place} : q.scheduled l = true ↔ ∃ e ∈ l.entries, q.Has e :=
  Ledger.alreadyScheduled_iff.trans (exists_congr fun _ => mem_recordsOf_iff)

/-- What comes back is in the coin of the pool. -/
theorem coins_record (q : Place) : q.record.2.tx.source.coins =
    if q.purpose = .eliteEdgeNode then ⟨0, q.stake.amount⟩ else ⟨q.stake.amount, 0⟩ := by
  obtain ⟨purpose, block, i, holder, stake⟩ := q
  cases purpose <;> rfl

end Place

/-- The places of a pool, of which there are none if it is missing. -/
def placesOf (purpose : StakePurpose) : Option PoolSnapshot → List Place
  | none => []
  | some p =>
    p.withdrawn.zipIdx.map fun ((holder, stake), i) => ⟨purpose, p.block, i, holder, stake⟩

/-- The places of all pools. -/
def places (found : List (StakePurpose × Option PoolSnapshot)) : List Place :=
  found.flatMap fun e => placesOf e.1 e.2

theorem mem_placesOf_iff {purpose : StakePurpose} {p : PoolSnapshot} {q : Place} :
    q ∈ placesOf purpose (some p) ↔ q.purpose = purpose ∧ q.block = p.block ∧
      p.withdrawn[q.index]? = some (q.holder, q.stake) := by
  rw [placesOf, List.mem_map]
  constructor
  · rintro ⟨⟨⟨holder, stake⟩, i⟩, h_place, rfl⟩
    exact ⟨rfl, rfl, List.mk_mem_zipIdx_iff_getElem?.mp h_place⟩
  · obtain ⟨_, _, i, holder, stake⟩ := q
    rintro ⟨rfl, rfl, h_place⟩
    exact ⟨((holder, stake), i), List.mk_mem_zipIdx_iff_getElem?.mpr h_place, rfl⟩

theorem mem_places_iff {q : Place} :
    q ∈ places found ↔ ∃ p, (q.purpose, some p) ∈ found ∧ q.block = p.block ∧
      p.withdrawn[q.index]? = some (q.holder, q.stake) := by
  rw [places, List.mem_flatMap]
  constructor
  · rintro ⟨⟨purpose, pool⟩, h_found, h_place⟩
    cases pool with
    | none => cases h_place
    | some p =>
      obtain ⟨rfl, h_block, h_stake⟩ := mem_placesOf_iff.mp h_place
      exact ⟨p, h_found, h_block, h_stake⟩
  · rintro ⟨p, h_found, h_block, h_stake⟩
    exact ⟨_, h_found, mem_placesOf_iff.mpr ⟨rfl, h_block, h_stake⟩⟩

/-- A pool gives rise to the records of the places whose stakes have none. -/
theorem returnsOf_eq (l : Ledger) (purpose : StakePurpose) (pool : Option PoolSnapshot) :
    returnsOf l purpose pool =
      ((placesOf purpose pool).filter fun q => !q.scheduled l).map Place.record := by
  cases pool with
  | none => rfl
  | some p =>
    rw [placesOf, ← List.filterMap_eq_map, List.filterMap_filter, List.filterMap_map, returnsOf]
    apply List.filterMap_congr
    rintro ⟨⟨holder, stake⟩, i⟩ -
    simp only [return?, Function.comp_apply]
    -- A stake is passed over just when its place has a record.
    split
    · next h_old => rw [if_neg (by simpa [Place.scheduled, Place.withdrawal] using h_old)]
    · next h_new =>
      rw [if_pos (by simpa [Place.scheduled, Place.withdrawal] using h_new)]
      rfl

theorem flatMap_returnsOf (l : Ledger) (found : List (StakePurpose × Option PoolSnapshot)) :
    (found.flatMap fun (purpose, pool) => returnsOf l purpose pool) =
      ((places found).filter fun q => !q.scheduled l).map Place.record := by
  rw [places, List.filter_flatMap, List.map_flatMap]
  exact congrArg (found.flatMap ·) (funext fun e => returnsOf_eq l e.1 e.2)

/-- The plan of a backfill consists of the records of places whose stakes have none. -/
theorem mem_records_scheduleOf_iff {e : UInt64 × StakeReturn} :
    e ∈ (scheduleOf l found).records ↔
      ∃ q ∈ places found, q.scheduled l = false ∧ q.record = e := by
  rw [scheduleOf, (Schedule.perm_records_ofList _).mem_iff, flatMap_returnsOf, List.mem_map]
  simp only [List.mem_filter, Bool.not_eq_true', and_assoc]

/-- Places that are told apart are listed once. -/
theorem nodup_places (h_purposes : (found.map Prod.fst).Nodup) : (places found).Nodup := by
  rw [places, List.nodup_flatMap]
  constructor
  · -- The places of a pool are numbered.
    rintro ⟨purpose, pool⟩ -
    cases pool with
    | none => exact List.nodup_nil
    | some p =>
      refine List.Nodup.of_map Place.index ?_
      rw [placesOf, List.map_map]
      exact List.nodup_zipIdx_map_snd p.withdrawn
  · -- Places of two pools differ in their purpose.
    refine (List.pairwise_map.mp h_purposes).imp fun {e e'} h_ne q h_mem h_mem' => h_ne ?_
    obtain ⟨purpose, pool⟩ := e
    obtain ⟨purpose', pool'⟩ := e'
    cases pool with
    | none => cases h_mem
    | some p =>
      cases pool' with
      | none => cases h_mem'
      | some p' => exact (mem_placesOf_iff.mp h_mem).1.symm.trans (mem_placesOf_iff.mp h_mem').1

/-- What is planned is told apart by whatever tells the places apart. -/
theorem nodup_map_records {β : Type} (h_purposes : (found.map Prod.fst).Nodup)
    {f : UInt64 × StakeReturn → β}
    (h_apart : ∀ q ∈ places found, q.scheduled l = false → ∀ q' ∈ places found,
      q'.scheduled l = false → f q.record = f q'.record → q = q') :
    ((scheduleOf l found).records.map f).Nodup := by
  rw [scheduleOf, ((Schedule.perm_records_ofList _).map f).nodup_iff, flatMap_returnsOf,
    List.map_map]
  refine List.Nodup.map_on ?_ ((nodup_places h_purposes).filter _)
  intro q h_q q' h_q' h_eq
  obtain ⟨h_mem, h_new⟩ := List.mem_filter.mp h_q
  obtain ⟨h_mem', h_new'⟩ := List.mem_filter.mp h_q'
  rw [Bool.not_eq_true'] at h_new h_new'
  exact h_apart q h_mem h_new q' h_mem' h_new' h_eq

/-! ### What a node shows -/

/-- What a node whose answers do not change tells of the pools at its snapshot. -/
def Shows (node : NodeCall → NodeReply) (found : List (StakePurpose × Option PoolSnapshot)) :
    Prop :=
  ∃ status : NodeStatus, Query.status.against node = .ok status ∧
    (pools status.snapshotHeight).against node = .ok found

/-- A list of all pools has one of each purpose, or none in its place. -/
theorem exists_pool_of_purposes (h_purposes : found.map Prod.fst = StakePurpose.all)
    (purpose : StakePurpose) : ∃ pool, (purpose, pool) ∈ found := by
  have h_mem : purpose ∈ found.map Prod.fst := by
    rw [h_purposes]
    cases purpose <;> decide
  obtain ⟨⟨_, pool⟩, h_found, rfl⟩ := List.mem_map.mp h_mem
  exact ⟨pool, h_found⟩

/-- All pools can be read when each of them can. -/
theorem exists_ends_pools {height : UInt64}
    (h_each : ∀ purpose, ∃ pool, (Query.pool purpose height).Ends answers (.ok pool)) :
    ∃ found, (pools height).Ends answers (.ok found) := by
  unfold pools
  generalize StakePurpose.all = purposes
  induction purposes with
  | nil =>
    rw [List.mapM_nil]
    exact ⟨[], Query.ends_pure_iff.mpr rfl⟩
  | cons purpose rest ih =>
    obtain ⟨pool, h_pool⟩ := h_each purpose
    obtain ⟨others, h_others⟩ := ih
    rw [List.mapM_cons]
    refine ⟨(purpose, pool) :: others, Query.ends_bind_ok_iff.mpr ⟨(purpose, pool), ?_, ?_⟩⟩
    · exact Query.ends_bind_ok_iff.mpr ⟨pool, h_pool, Query.ends_pure_iff.mpr rfl⟩
    · exact Query.ends_bind_ok_iff.mpr ⟨others, h_others, Query.ends_pure_iff.mpr rfl⟩

/-- A node shows something when its status and each of its pools can be read. -/
theorem exists_shows_iff :
    (∃ found, Shows node found) ↔ ∃ status : NodeStatus, Query.status.against node = .ok status ∧
      ∀ purpose, ∃ pool, (Query.pool purpose status.snapshotHeight).against node = .ok pool := by
  constructor
  · rintro ⟨found, status, h_status, h_pools⟩
    refine ⟨status, h_status, fun purpose => ?_⟩
    obtain ⟨h_purposes, h_each⟩ := ends_pools (Query.ends_fixed_iff.mpr h_pools)
    obtain ⟨pool, h_found⟩ := exists_pool_of_purposes h_purposes purpose
    exact ⟨pool, Query.ends_fixed_iff.mp (h_each _ h_found)⟩
  · rintro ⟨status, h_status, h_each⟩
    have h_ends : ∀ purpose, ∃ pool,
        (Query.pool purpose status.snapshotHeight).Ends (.fixed node) (.ok pool) := fun purpose =>
      (h_each purpose).imp fun _ h_pool => Query.ends_fixed_iff.mpr h_pool
    obtain ⟨found, h_pools⟩ := exists_ends_pools h_ends
    exact ⟨found, status, h_status, Query.ends_fixed_iff.mp h_pools⟩

namespace Shows

variable (h_shows : Shows node found)

include h_shows

theorem purposes_nodup : (found.map Prod.fst).Nodup := by
  obtain ⟨status, -, h_pools⟩ := h_shows
  rw [(ends_pools (Query.ends_fixed_iff.mpr h_pools)).1]
  decide

/-- The pools that are shown are those of the node. -/
theorem isPool_iff {purpose : StakePurpose} {p : PoolSnapshot} :
    IsPool (.fixed node) purpose p ↔ (purpose, some p) ∈ found := by
  obtain ⟨status, h_status, h_pools⟩ := h_shows
  obtain ⟨h_purposes, h_each⟩ := ends_pools (Query.ends_fixed_iff.mpr h_pools)
  constructor
  · rintro ⟨status', h_status', h_query⟩
    obtain ⟨pool, h_found⟩ := exists_pool_of_purposes h_purposes purpose
    -- The node is asked for the status and for the pool only once, and replies in one way.
    obtain rfl := Query.eq_of_against h_status h_status'
    obtain rfl := Query.eq_of_against (Query.ends_fixed_iff.mp (h_each _ h_found)) h_query
    exact h_found
  · exact fun h_found => ⟨status, Query.ends_fixed_iff.mpr h_status, h_each _ h_found⟩

/-- A stake that is withdrawn in a pool has a place. -/
theorem inPool_iff {purpose : StakePurpose} {holder : Address} {stake : Stake} :
    InPool (.fixed node) purpose holder stake ↔
      ∃ q ∈ places found, q.purpose = purpose ∧ q.holder = holder ∧ q.stake = stake := by
  constructor
  · rintro ⟨p, h_pool, h_mem⟩
    obtain ⟨i, h_lt, h_place⟩ := List.getElem_of_mem h_mem
    have h_place : p.withdrawn[i]? = some (holder, stake) :=
      List.getElem?_eq_some_iff.mpr ⟨h_lt, h_place⟩
    exact ⟨⟨purpose, p.block, i, holder, stake⟩,
      mem_places_iff.mpr ⟨p, h_shows.isPool_iff.mp h_pool, rfl, h_place⟩, rfl, rfl, rfl⟩
  · rintro ⟨q, h_mem, rfl, rfl, rfl⟩
    obtain ⟨p, h_found, -, h_place⟩ := mem_places_iff.mp h_mem
    exact ⟨p, h_shows.isPool_iff.mpr h_found, List.mem_of_getElem? h_place⟩

/-- The plan of a backfill consists of the records that it is to put down. -/
theorem found_iff {height : UInt64} {r : StakeReturn} :
    r.Found (.fixed node) l height ↔ (height, r) ∈ (scheduleOf l found).records := by
  rw [mem_records_scheduleOf_iff]
  constructor
  · rintro ⟨h_pool, h_place, h_new⟩
    have h_found := h_shows.isPool_iff.mp h_pool
    exact ⟨⟨_, _, _, _, _⟩, mem_places_iff.mpr ⟨_, h_found, rfl, h_place⟩, h_new, rfl⟩
  · rintro ⟨⟨purpose, block, i, holder, stake⟩, h_mem, h_new, h_record⟩
    obtain ⟨p, h_found, rfl, h_place⟩ := mem_places_iff.mp h_mem
    obtain ⟨rfl, rfl⟩ := Prod.mk.inj h_record
    exact .of_place (h_shows.isPool_iff.mpr h_found) h_place h_new

/-- **A backfill that has not run yet** puts its plan down. -/
theorem run_against (h_first : l.backfilled = false) :
    run.against node l =
      (.ok (l.putAll (scheduleOf l found)).2, (l.putAll (scheduleOf l found)).1.mark) := by
  obtain ⟨status, h_status, h_pools⟩ := h_shows
  rw [← Update.ends_fixed_iff, run]
  refine Update.ends_bind_iff.mpr (.inl ⟨l, l, Update.ends_ledger_iff.mpr ⟨rfl, rfl⟩, ?_⟩)
  rw [if_neg (Bool.eq_false_iff.mp h_first)]
  refine Update.ends_bind_iff.mpr (.inl ⟨status, l, Update.ends_toUpdate_iff.mpr
    ⟨Query.ends_fixed_iff.mpr h_status, rfl⟩, ?_⟩)
  refine Update.ends_bind_iff.mpr (.inl ⟨found, l, Update.ends_toUpdate_iff.mpr
    ⟨Query.ends_fixed_iff.mpr h_pools, rfl⟩, ?_⟩)
  exact Update.ends_bind_iff.mpr (.inl ⟨(), _, Update.ends_setLedger_iff.mpr ⟨rfl, rfl⟩,
    Update.ends_pure_iff.mpr ⟨rfl, rfl⟩⟩)

end Shows

/-- A backfill that has run changes nothing. -/
theorem run_against_of_backfilled (node : NodeCall → NodeReply) (h_done : l.backfilled = true) :
    run.against node l = (.ok 0, l) := by
  rw [← Update.ends_fixed_iff, run]
  refine Update.ends_bind_iff.mpr (.inl ⟨l, l, Update.ends_ledger_iff.mpr ⟨rfl, rfl⟩, ?_⟩)
  rw [if_pos h_done]
  exact Update.ends_pure_iff.mpr ⟨rfl, rfl⟩

/-- A backfill that has not run yet ends with an error, or the node shows its pools. -/
theorem exists_error_or_shows (node : NodeCall → NodeReply) (h_first : l.backfilled = false) :
    (∃ e, run.against node l = (.error e, l)) ∨ ∃ found, Shows node found := by
  have h_ends : Update.Ends (.fixed node) run l (run.against node l).1 (run.against node l).2 :=
    Update.ends_fixed_iff.mpr rfl
  rcases Update.ends_backfill_run h_ends with ⟨h_done, -⟩ | ⟨e, h_outcome, h_after⟩ |
    ⟨status, found, -, h_status, h_pools, -⟩
  · exact absurd (h_first.symm.trans h_done) Bool.false_ne_true
  · exact Or.inl ⟨e, Prod.ext h_outcome h_after⟩
  · exact Or.inr ⟨found, status, Query.ends_fixed_iff.mp h_status, Query.ends_fixed_iff.mp h_pools⟩

/-! ### New identifiers -/

/-- The text behind an identifier that a backfill uses: that of the place of a stake that has no
record. -/
inductive Mints (answers : Answers) (before : Ledger) : String → Prop
  | of_place {purpose : StakePurpose} {p : PoolSnapshot} {place : Nat} {holder : Address}
      {stake : Stake} (h_pool : IsPool answers purpose p)
      (h_place : p.withdrawn[place]? = some (holder, stake))
      (h_new : before.alreadyScheduled stake.returnHeight
        (withdrawal purpose holder stake) = false) :
      Mints answers before (StakeReturn.snapshotText purpose.poolName p.block place)

/-- The identifiers that a backfill uses differ, and no record has one of them. -/
structure MintsFresh (answers : Answers) (before : Ledger) : Prop where
  digest_injective : ∀ s s', Mints answers before s → Mints answers before s' →
    keccakText s = keccakText s' → s = s'
  unused : ∀ s, Mints answers before s → ∀ e ∈ before.entries, e.2.hash ≠ keccakText s

namespace Shows

variable (h_shows : Shows node found)

include h_shows

theorem mints_iff {s : String} :
    Mints (.fixed node) l s ↔ ∃ q ∈ places found, q.scheduled l = false ∧ q.text = s := by
  constructor
  · rintro ⟨h_pool, h_place, h_new⟩
    have h_found := h_shows.isPool_iff.mp h_pool
    exact ⟨⟨_, _, _, _, _⟩, mem_places_iff.mpr ⟨_, h_found, rfl, h_place⟩, h_new, rfl⟩
  · rintro ⟨⟨purpose, block, i, holder, stake⟩, h_mem, h_new, rfl⟩
    obtain ⟨p, h_found, rfl, h_place⟩ := mem_places_iff.mp h_mem
    exact .of_place (h_shows.isPool_iff.mpr h_found) h_place h_new

/-- The text of a place tells it. -/
theorem eq_of_text {q q' : Place} (h_mem : q ∈ places found) (h_mem' : q' ∈ places found)
    (h_text : q.text = q'.text) : q = q' := by
  obtain ⟨purpose, block, i, holder, stake⟩ := q
  obtain ⟨purpose', block', i', holder', stake'⟩ := q'
  obtain ⟨h_name, rfl, rfl⟩ := StakeReturn.snapshotText_injective h_text
  obtain rfl := StakePurpose.poolName_injective h_name
  obtain ⟨p, h_found, -, h_place⟩ := mem_places_iff.mp h_mem
  obtain ⟨p', h_found', -, h_place'⟩ := mem_places_iff.mp h_mem'
  cases List.inj_on_of_nodup_map h_shows.purposes_nodup h_found h_found' rfl
  cases h_place.symm.trans h_place'
  rfl

/-- What is planned is new, to the ledger and among itself. -/
theorem nodup_hashes (h_fresh : MintsFresh (.fixed node) l) :
    ((scheduleOf l found).records.map fun e => (e.1, e.2.hash)).Nodup := by
  refine nodup_map_records h_shows.purposes_nodup ?_
  intro q h_mem h_new q' h_mem' h_new' h_eq
  have h_mints := h_shows.mints_iff.mpr ⟨q, h_mem, h_new, rfl⟩
  have h_mints' := h_shows.mints_iff.mpr ⟨q', h_mem', h_new', rfl⟩
  exact h_shows.eq_of_text h_mem h_mem'
    (h_fresh.digest_injective _ _ h_mints h_mints' (Prod.mk.inj h_eq).2)

theorem knows_eq_false (h_fresh : MintsFresh (.fixed node) l) {e : UInt64 × StakeReturn}
    (h_mem : e ∈ (scheduleOf l found).records) : l.knows e.1 e.2.hash = false := by
  obtain ⟨q, h_place, h_new, rfl⟩ := mem_records_scheduleOf_iff.mp h_mem
  rw [Bool.eq_false_iff, ne_eq, Ledger.knows_eq_true_iff]
  intro h_known
  obtain ⟨e, h_entry, h_same⟩ := List.mem_map.mp h_known
  exact h_fresh.unused _ (h_shows.mints_iff.mpr ⟨q, h_place, h_new, rfl⟩) e h_entry
    (Prod.mk.inj h_same).2

/-- The ledger takes all that is planned. -/
theorem entries_putAll (h_fresh : MintsFresh (.fixed node) l) :
    (l.putAll (scheduleOf l found)).1.entries = l.entries ++ (scheduleOf l found).records := by
  rw [Ledger.putAll_fst]
  exact Ledger.entries_addAll_of_new (fun e h_mem => h_shows.knows_eq_false h_fresh h_mem)
    (h_shows.nodup_hashes h_fresh)

/-- After a backfill each withdrawn stake has a record, be it an old one or a new one. -/
theorem exists_mem_recordsOf (h_fresh : MintsFresh (.fixed node) l) {q : Place}
    (h_mem : q ∈ places found) :
    ∃ e, e ∈ (l.putAll (scheduleOf l found)).1.mark.recordsOf q.stake.returnHeight
      q.withdrawal.key := by
  have h_entries : (l.putAll (scheduleOf l found)).1.mark.entries =
      l.entries ++ (scheduleOf l found).records := h_shows.entries_putAll h_fresh
  simp only [Place.mem_recordsOf_iff, h_entries, List.mem_append]
  cases h_new : q.scheduled l with
  | true =>
    obtain ⟨e, h_entry, h_has⟩ := Place.scheduled_iff.mp h_new
    exact ⟨e, Or.inl h_entry, h_has⟩
  | false =>
    have h_planned := mem_records_scheduleOf_iff.mpr ⟨q, h_mem, h_new, rfl⟩
    exact ⟨q.record, Or.inr h_planned, q.has_record⟩

end Shows

theorem withdrawn_of_inPool {purpose : StakePurpose} {holder : Address} {stake : Stake}
    (h_stake : InPool answers purpose holder stake) : stake.withdrawn = true := by
  obtain ⟨p, -, h_mem⟩ := h_stake
  exact (List.mem_filter.mp h_mem).2

/-- **A backfill is complete and exact, and fails as a whole.** Let the ledger not be marked yet. A
backfill succeeds if the status and the three pools can be read, where a missing pool is no failure,
and otherwise the ledger stays as it is. Let it succeed, and let the identifiers it uses be new and
different. Then the ledger is marked, and each withdrawn stake in a pool has a record at its return
height or one block after. What was there is still there, and as many records as are told stand
behind it. They are those of stakes that are withdrawn and had no record: each stands one block
after the return height of the stake, with its source, its holder, the purpose of the pool and the
amount, in the coin of the pool. -/
theorem run_exact (node : NodeCall → NodeReply) {before : Ledger}
    (h_first : before.backfilled = false) :
    ((∃ count, (run.against node before).1 = .ok count) ↔
      ∃ status : NodeStatus, Query.status.against node = .ok status ∧
        ∀ purpose, ∃ pool, (Query.pool purpose status.snapshotHeight).against node = .ok pool) ∧
    (∀ e, (run.against node before).1 = .error e → (run.against node before).2 = before) ∧
    ∀ count after, run.against node before = (.ok count, after) →
      MintsFresh (.fixed node) before →
      after.backfilled = true ∧
      (∀ purpose holder stake, InPool (.fixed node) purpose holder stake →
        ∃ e, e ∈ after.recordsOf stake.returnHeight ⟨stake.source, holder, purpose.code⟩) ∧
      ∃ added, after.entries = before.entries ++ added ∧ added.length = count ∧ added.Nodup ∧
        (∀ due r, (due, r) ∈ added ↔ r.Found (.fixed node) before due) ∧
        ∀ e ∈ added, ∃ purpose holder stake, InPool (.fixed node) purpose holder stake ∧
          stake.withdrawn = true ∧ e.1 = Chain.saturatingAdd stake.returnHeight 1 ∧
          e.2.tx.key = ⟨stake.source, holder, purpose.code⟩ ∧
          e.2.tx.source.coins =
            if purpose = .eliteEdgeNode then ⟨0, stake.amount⟩ else ⟨stake.amount, 0⟩ := by
  rw [← exists_shows_iff]
  rcases exists_error_or_shows node h_first with ⟨e, h_run⟩ | ⟨found, h_shows⟩
  · -- Something cannot be read. Then nothing is written.
    rw [h_run]
    refine ⟨?_, fun _ _ => rfl, ?_⟩
    · constructor
      · rintro ⟨count, h_ok⟩
        cases h_ok
      · rintro ⟨found, h_shows⟩
        rw [h_shows.run_against h_first] at h_run
        cases h_run
    · intro count after h_ok
      cases h_ok
  · rw [h_shows.run_against h_first]
    refine ⟨iff_of_true ⟨_, rfl⟩ ⟨found, h_shows⟩, ?_, ?_⟩
    · intro e h_error
      cases h_error
    intro count after h_ok h_fresh
    obtain ⟨h_count, rfl⟩ := Prod.mk.inj h_ok
    obtain rfl := Except.ok.inj h_count
    -- Nothing that is planned is known yet, so all of it stands behind what was there.
    refine ⟨rfl, ?_, (scheduleOf before found).records, h_shows.entries_putAll h_fresh, ?_, ?_, ?_,
      ?_⟩
    · intro purpose holder stake h_stake
      obtain ⟨q, h_mem, rfl, rfl, rfl⟩ := h_shows.inPool_iff.mp h_stake
      exact h_shows.exists_mem_recordsOf h_fresh h_mem
    · have h_length := Ledger.length_entries_putAll before (scheduleOf before found)
      rw [h_shows.entries_putAll h_fresh, List.length_append] at h_length
      exact Nat.add_left_cancel h_length
    · exact List.Nodup.of_map _ (h_shows.nodup_hashes h_fresh)
    · exact fun due r => h_shows.found_iff.symm
    · intro e h_mem
      obtain ⟨q, h_place, -, rfl⟩ := mem_records_scheduleOf_iff.mp h_mem
      have h_stake : InPool (.fixed node) q.purpose q.holder q.stake :=
        h_shows.inPool_iff.mpr ⟨q, h_place, rfl, rfl, rfl⟩
      exact ⟨q.purpose, q.holder, q.stake, h_stake, withdrawn_of_inPool h_stake, rfl, rfl,
        q.coins_record⟩

end Backfill

/-! ### Stakes in two pools -/

namespace SamplePools

open Backfill (Shows Mints MintsFresh)
open SampleChain (account)
open StakeReturn (snapshotText)

/-- Another account than the one of all zeros. -/
def other : Address := ⟨List.replicate 20 7, List.length_replicate⟩

/-- The pool of validators: a stake that has a record, one that is not withdrawn, and one that is
withdrawn and has no record. -/
def validators : PoolSnapshot :=
  ⟨.zero, [⟨.zero, [⟨.zero, 5, true, 28801⟩, ⟨other, 9, false, 0⟩, ⟨other, 7, true, 100⟩]⟩]⟩

/-- The pool of elite edge nodes: a stake that comes back at the last height of all. -/
def edgeNodes : PoolSnapshot := ⟨.zero, [⟨.zero, [⟨.zero, 3, true, 18446744073709551615⟩]⟩]⟩

/-- What the node shows. -/
def found : List (StakePurpose × Option PoolSnapshot) :=
  [(.validator, some validators), (.guardian, none), (.eliteEdgeNode, some edgeNodes)]

/-- A stake as the node tells it. -/
def stakeJson (source : Address) (amount : String) (withdrawn : Bool) (height : Nat) : Json :=
  .object [("source", .string (Hex.plain source.bytes)), ("amount", .string amount),
    ("withdrawn", .bool withdrawn), ("return_height", .ofNat height)]

/-- The node has no pool of guardians. -/
def node : NodeCall → NodeReply
  | .status => .ok (.object [("snapshot_block_height", .string "100")])
  | .stakePool .validator _ => .ok (.object [("BlockHashVcpPairs", .array [.object [("Vcp",
      .object [("SortedCandidates", .array [.object [("Holder", account), ("Stakes",
        .array [stakeJson .zero "5" true 28801, stakeJson other "9" false 0,
          stakeJson other "7" true 100])]])])]])])
  | .stakePool .eliteEdgeNode _ => .ok (.object [("BlockHashEenpPairs", .array [.object [("EENs",
      .array [.object [("Holder", account), ("Stakes",
        .array [stakeJson .zero "3" true 18446744073709551615])]])]])])
  | _ => .ok .null

theorem shows_found : Shows node found := ⟨_, rfl, rfl⟩

/-- The ledger has the return of one of the stakes, under the hash of its withdrawal. -/
def before : Ledger :=
  (Ledger.empty.put 28801
    [.ofWithdrawal SampleChain.txHash (Backfill.withdrawal .validator .zero ⟨.zero, 5, true, 28801⟩)
      5]).1

/-- The places of stakes without a record. That of the other one in the pool counts all the same. -/
theorem filter_places : (Backfill.places found).filter (fun q => !q.scheduled before) =
    [⟨.validator, .zero, 1, .zero, ⟨other, 7, true, 100⟩⟩,
      ⟨.eliteEdgeNode, .zero, 0, .zero, ⟨.zero, 3, true, 18446744073709551615⟩⟩] := by
  decide

/-- Two texts are hashed. -/
theorem eq_of_mints {s : String} (h_mints : Mints (.fixed node) before s) :
    s = snapshotText "vcp" .zero 1 ∨ s = snapshotText "eenp" .zero 0 := by
  obtain ⟨q, h_place, h_new, rfl⟩ := shows_found.mints_iff.mp h_mints
  have h_mem : q ∈ (Backfill.places found).filter (fun q => !q.scheduled before) :=
    List.mem_filter.mpr ⟨h_place, by rw [h_new]; rfl⟩
  rw [filter_places, List.mem_cons, List.mem_singleton] at h_mem
  rcases h_mem with rfl | rfl
  · exact Or.inl rfl
  · exact Or.inr rfl

theorem head?_digests :
    (keccakText (snapshotText "vcp" .zero 1)).bytes.head? = some 217 ∧
      (keccakText (snapshotText "eenp" .zero 0)).bytes.head? = some 185 := by
  simp only [keccakText, Keccak.keccak256_eq]
  decide +kernel

theorem digest_ne : keccakText (snapshotText "vcp" .zero 1) ≠
    keccakText (snapshotText "eenp" .zero 0) := by
  obtain ⟨h_validator, h_edgeNode⟩ := head?_digests
  exact Hash.ne_of_head? h_validator h_edgeNode (by decide)

/-- The first bytes tell the two digests and the hash of the withdrawal, which is all sevens, apart.
-/
theorem mintsFresh : MintsFresh (.fixed node) before where
  digest_injective s s' h_mints h_mints' h_eq := by
    rcases eq_of_mints h_mints with rfl | rfl <;> rcases eq_of_mints h_mints' with rfl | rfl
    · rfl
    · exact absurd h_eq digest_ne
    · exact absurd h_eq.symm digest_ne
    · rfl
  unused s h_mints e h_mem := by
    obtain ⟨h_validator, h_edgeNode⟩ := head?_digests
    have h_head : e.2.hash.bytes.head? = some 7 := by
      rw [List.mem_singleton.mp h_mem]
      rfl
    rcases eq_of_mints h_mints with rfl | rfl
    · exact Hash.ne_of_head? h_head h_validator (by decide)
    · exact Hash.ne_of_head? h_head h_edgeNode (by decide)

/-- Two records are added. -/
theorem run_exact_pools : before.backfilled = false ∧ MintsFresh (.fixed node) before ∧
    ∃ after added, Backfill.run.against node before = (.ok 2, after) ∧ after.backfilled = true ∧
      after.entries = before.entries ++ added ∧ added.length = 2 ∧
      ∀ due r, (due, r) ∈ added ↔ r.Found (.fixed node) before due := by
  have h_first : before.backfilled = false := rfl
  obtain ⟨-, -, h_exact⟩ := Backfill.run_exact node h_first
  have h_run : Backfill.run.against node before =
      (.ok 2, (before.putAll (Backfill.scheduleOf before found)).1.mark) := by
    have h_count : (before.putAll (Backfill.scheduleOf before found)).2 = 2 := by decide
    rw [shows_found.run_against h_first, h_count]
  obtain ⟨h_marked, -, added, h_entries, h_length, -, h_added, -⟩ := h_exact 2 _ h_run mintsFresh
  exact ⟨h_first, mintsFresh, _, added, h_run, h_marked, h_entries, h_length, h_added⟩

end SamplePools

end RosettaGateway
