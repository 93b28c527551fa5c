import RosettaGateway.Proofs.Backfill.Exact

/-!
# A backfill that was stopped is made up for

A backfill puts its plan down height by height, and marks the ledger behind the last one. If it
stops in between, the ledger it leaves behind (`Ledger.stages`) is not marked, and the next backfill
makes a plan of its own. It finds the stakes whose records are down already by their parties, at the two
heights it looks at; the others have their old places, since places count stakes that are scheduled
as well. So the new plan is what is left of the old one (`Backfill.Told.records_scheduleOf_addAll`),
and both end in the same ledger (`Backfill.run_resumed`), however often the backfill is stopped
(`Backfill.run_stopped`).

For this the stakes of a pool have to be told apart by their sources and holders (`Backfill.Told`).
Identifiers may well collide: the record that is put second is left out in either run.
-/

namespace RosettaGateway

namespace Ledger

variable {l l' : Ledger}

/-- The ledgers that are left behind when a schedule is put down and the gateway stops before a
height or behind the last one. -/
def stages (l : Ledger) : Schedule → List Ledger
  | [] => [l]
  | (height, returns) :: rest => l :: (l.put height returns).1.stages rest

/-- **The stages** are the ledgers with a first part of the schedule put down. -/
theorem mem_stages_iff {s : Schedule} :
    l' ∈ l.stages s ↔ ∃ first rest, s = first ++ rest ∧ l' = (l.putAll first).1 := by
  induction s generalizing l with
  | nil =>
    rw [stages, List.mem_singleton]
    constructor
    · rintro rfl
      exact ⟨[], [], rfl, rfl⟩
    · rintro ⟨first, rest, h_split, rfl⟩
      obtain ⟨rfl, -⟩ := List.append_eq_nil_iff.mp h_split.symm
      rfl
  | cons entry others ih =>
    rw [stages, List.mem_cons, ih]
    constructor
    · rintro (rfl | ⟨first, rest, rfl, rfl⟩)
      · exact ⟨[], entry :: others, rfl, rfl⟩
      · exact ⟨entry :: first, rest, rfl, rfl⟩
    · rintro ⟨first, rest, h_split, rfl⟩
      cases first with
      | nil => exact Or.inl rfl
      | cons entry' first =>
        obtain ⟨rfl, h_rest⟩ := List.cons.inj h_split
        exact Or.inr ⟨first, rest, h_rest, rfl⟩

theorem backfilled_of_mem_stages {s : Schedule} (h_mem : l' ∈ l.stages s) :
    l'.backfilled = l.backfilled := by
  obtain ⟨first, -, -, rfl⟩ := mem_stages_iff.mp h_mem
  rw [putAll_fst, backfilled_addAll]

/-- Records that are put down once more add nothing, so it is enough to leave those out that the
ledger has. -/
theorem addAll_filter_not_mem {xs ys : List (UInt64 × StakeReturn)}
    (h_left : ∀ e ∈ ys, e ∉ (l.addAll xs).entries) :
    (l.addAll xs).addAll ((xs ++ ys).filter (· ∉ (l.addAll xs).entries)) = l.addAll (xs ++ ys) := by
  have h_known : ∀ e ∈ xs.filter (· ∉ (l.addAll xs).entries),
      (l.addAll xs).knows e.1 e.2.hash = true :=
    fun e h_mem => knows_addAll (List.mem_filter.mp h_mem).1 l
  -- None of the others is there, so all of them are left.
  have h_all : ys.filter (· ∉ (l.addAll xs).entries) = ys :=
    List.filter_eq_self.mpr fun e h_mem => decide_eq_true (h_left e h_mem)
  rw [List.filter_append, addAll_append, addAll_of_known h_known, h_all, addAll_append]

end Ledger

namespace Backfill

variable {node again : NodeCall → NodeReply} {l stopped : Ledger}
  {found : List (StakePurpose × Option PoolSnapshot)}

/-- Pools of different purposes, in which source and holder tell a withdrawn stake. -/
structure Told (found : List (StakePurpose × Option PoolSnapshot)) : Prop where
  purposes_nodup : (found.map Prod.fst).Nodup
  sources_nodup : ∀ purpose p, (purpose, some p) ∈ found →
    (p.withdrawn.map fun e => (e.1, e.2.source)).Nodup

namespace Told

variable (h_told : Told found)

include h_told

/-- The stake tells the place. -/
theorem eq_of_key {q q' : Place} (h_mem : q ∈ places found) (h_mem' : q' ∈ places found)
    (h_key : q.withdrawal.key = q'.withdrawal.key) : q = q' := by
  obtain ⟨purpose, block, i, holder, stake⟩ := q
  obtain ⟨purpose', block', i', holder', stake'⟩ := q'
  obtain ⟨h_source, rfl, h_purpose⟩ := StakeKey.mk.inj h_key
  obtain rfl := StakePurpose.code_injective h_purpose
  obtain ⟨p, h_found, rfl, h_place⟩ := mem_places_iff.mp h_mem
  obtain ⟨p', h_found', rfl, h_place'⟩ := mem_places_iff.mp h_mem'
  cases List.inj_on_of_nodup_map h_told.purposes_nodup h_found h_found' rfl
  obtain ⟨rfl, rfl⟩ :=
    eq_of_sources (h_told.sources_nodup _ _ h_found) h_place h_place' h_source
  rfl

/-- No record is planned twice. -/
theorem nodup_records (l : Ledger) : (scheduleOf l found).records.Nodup := by
  have h_keys : ((scheduleOf l found).records.map (·.2.tx.key)).Nodup :=
    nodup_map_records h_told.purposes_nodup fun q h_mem _ q' h_mem' _ h_key =>
      h_told.eq_of_key h_mem h_mem' h_key
  exact List.Nodup.of_map _ h_keys

end Told

/-- A place has a record when its own record is in the ledger. -/
theorem Place.scheduled_of_mem {q : Place} (h_mem : q.record ∈ l.entries) :
    q.scheduled l = true :=
  scheduled_iff.mpr ⟨q.record, h_mem, q.has_record⟩

/-- A record that is there stays. -/
theorem Place.scheduled_mono {q : Place} {l' : Ledger} (h_le : l.entries <+: l'.entries)
    (h_old : q.scheduled l = true) : q.scheduled l' = true := by
  obtain ⟨e, h_mem, h_has⟩ := scheduled_iff.mp h_old
  exact scheduled_iff.mpr ⟨e, h_le.subset h_mem, h_has⟩

namespace Told

variable (h_told : Told found) {first : List (UInt64 × StakeReturn)}

include h_told

/-- When a part of the plan is down, a stake that had no record has one just if the record is its
own. -/
theorem scheduled_addAll_iff (h_first : ∀ e ∈ first, e ∈ (scheduleOf l found).records) {q : Place}
    (h_mem : q ∈ places found) (h_new : q.scheduled l = false) :
    q.scheduled (l.addAll first) = true ↔ q.record ∈ (l.addAll first).entries := by
  refine ⟨fun h_old => ?_, Place.scheduled_of_mem⟩
  obtain ⟨e, h_entry, h_has⟩ := Place.scheduled_iff.mp h_old
  rcases Ledger.mem_entries_addAll h_entry with h_before | h_down
  · -- The record was there before the first run, but then the stake would not be new.
    have h_known : q.scheduled l = true := Place.scheduled_iff.mpr ⟨e, h_before, h_has⟩
    exact absurd (h_new.symm.trans h_known) Bool.false_ne_true
  · obtain ⟨q', h_mem', -, rfl⟩ := mem_records_scheduleOf_iff.mp (h_first e h_down)
    obtain rfl := h_told.eq_of_key h_mem' h_mem h_has.2
    exact h_entry

/-- **The plan of a second run** is the first one without the records that are down. -/
theorem records_scheduleOf_addAll (h_first : ∀ e ∈ first, e ∈ (scheduleOf l found).records) :
    (scheduleOf (l.addAll first) found).records =
      (scheduleOf l found).records.filter (· ∉ (l.addAll first).entries) := by
  rw [scheduleOf, scheduleOf, flatMap_returnsOf, flatMap_returnsOf,
    ← Schedule.records_ofList_filter, List.filter_map, List.filter_filter]
  congr 3
  refine List.filter_congr fun q h_mem => ?_
  rw [Function.comp_apply, Bool.and_comm]
  -- A place that had a record before the first run is left out of both plans.
  cases h_new : q.scheduled l with
  | true =>
    rw [Place.scheduled_mono (Ledger.entries_prefix_addAll l first) h_new]
    rfl
  | false =>
    have h_iff := h_told.scheduled_addAll_iff h_first h_mem h_new
    rw [Bool.not_false, Bool.true_and, Bool.eq_iff_iff, Bool.not_eq_true', decide_eq_true_eq,
      ← h_iff, Bool.not_eq_true]

/-- **A stage leads to the same end** as the ledger that the first run began with. -/
theorem putAll_of_mem_stages (h_stopped : stopped ∈ l.stages (scheduleOf l found)) :
    (stopped.putAll (scheduleOf stopped found)).1 = (l.putAll (scheduleOf l found)).1 := by
  obtain ⟨first, rest, h_plan, rfl⟩ := Ledger.mem_stages_iff.mp h_stopped
  have h_records : (scheduleOf l found).records =
      Schedule.records first ++ Schedule.records rest := by
    rw [h_plan, Schedule.records_append]
  have h_first : ∀ e ∈ Schedule.records first, e ∈ (scheduleOf l found).records := fun e h_mem =>
    h_records ▸ List.mem_append_left _ h_mem
  have h_left : ∀ e ∈ Schedule.records rest, e ∉ (l.addAll (Schedule.records first)).entries := by
    intro e h_rest h_entry
    have h_nodup := h_told.nodup_records l
    rw [h_records] at h_nodup
    rcases Ledger.mem_entries_addAll h_entry with h_before | h_down
    · -- Stakes with a record are not planned.
      obtain ⟨q, -, h_new, rfl⟩ :=
        mem_records_scheduleOf_iff.mp (h_records ▸ List.mem_append_right _ h_rest)
      exact absurd (h_new.symm.trans (Place.scheduled_of_mem h_before)) Bool.false_ne_true
    · exact (List.nodup_append.mp h_nodup).2.2 e h_down e h_rest rfl
  rw [Ledger.putAll_fst, Ledger.putAll_fst, Ledger.putAll_fst,
    h_told.records_scheduleOf_addAll h_first, h_records, Ledger.addAll_filter_not_mem h_left]

end Told

/-- Backfills have been stopped, one after the other, and have left a ledger behind. -/
inductive Stops (found : List (StakePurpose × Option PoolSnapshot)) (l : Ledger) : Ledger → Prop
  | start : Stops found l l
  | again {between stopped : Ledger} (h_earlier : Stops found l between)
      (h_stopped : stopped ∈ between.stages (scheduleOf between found)) : Stops found l stopped

/-- Stops leave the ledger unmarked, and change nothing about where a backfill leads. -/
theorem Stops.putAll_eq (h_told : Told found) (h_stops : Stops found l stopped) :
    stopped.backfilled = l.backfilled ∧
      (stopped.putAll (scheduleOf stopped found)).1 = (l.putAll (scheduleOf l found)).1 := by
  induction h_stops with
  | start => exact ⟨rfl, rfl⟩
  | again _ h_stopped ih =>
    exact ⟨(Ledger.backfilled_of_mem_stages h_stopped).trans ih.1,
      (h_told.putAll_of_mem_stages h_stopped).trans ih.2⟩

/-- However often a backfill was stopped, the next one that is not ends where the first one would
have ended. -/
theorem run_stopped (h_shows : Shows node found) (h_again : Shows again found) (h_told : Told found)
    (h_first : l.backfilled = false) (h_stops : Stops found l stopped) :
    ∃ count count' done, run.against node l = (.ok count, done) ∧
      run.against again stopped = (.ok count', done) ∧
      ∀ later, run.against later done = (.ok 0, done) := by
  obtain ⟨h_marker, h_end⟩ := h_stops.putAll_eq h_told
  refine ⟨(l.putAll (scheduleOf l found)).2, (stopped.putAll (scheduleOf stopped found)).2,
    (l.putAll (scheduleOf l found)).1.mark, h_shows.run_against h_first, ?_,
    fun later => run_against_of_backfilled later rfl⟩
  rw [h_again.run_against (h_marker.trans h_first), h_end]

/-- **A backfill that was stopped can be run again.** Let a node show the same pools each time it is
asked, in which no two withdrawn stakes of one pool have the same source and holder. A first
backfill of a ledger that is not marked has put down the lists of some heights, the lowest ones,
when it stops. The next one ends with the ledger that the first one would have ended with, and from
then on a backfill adds nothing, whatever the node replies. -/
theorem run_resumed (h_shows : Shows node found) (h_again : Shows again found)
    (h_first : l.backfilled = false)
    (h_sources : ∀ purpose p, (purpose, some p) ∈ found →
      (p.withdrawn.map fun e => (e.1, e.2.source)).Nodup)
    (h_stopped : stopped ∈ l.stages (scheduleOf l found)) :
    ∃ count count' done, run.against node l = (.ok count, done) ∧
      run.against again stopped = (.ok count', done) ∧
      ∀ later, run.against later done = (.ok 0, done) :=
  run_stopped h_shows h_again ⟨h_shows.purposes_nodup, h_sources⟩ h_first (.again .start h_stopped)

end Backfill

/-! ### A stop in between -/

namespace SamplePools

open Backfill (scheduleOf)

/-- The first of the two records is down. -/
def stopped : Ledger := (before.putAll ((scheduleOf before found).take 1)).1

theorem run_resumed_pools : before.backfilled = false ∧ stopped.backfilled = false ∧
    stopped.entries.length = before.entries.length + 1 ∧
    stopped ∈ before.stages (scheduleOf before found) ∧
    ∃ count count' done, Backfill.run.against node before = (.ok count, done) ∧
      Backfill.run.against node stopped = (.ok count', done) ∧
      ∀ later, Backfill.run.against later done = (.ok 0, done) := by
  have h_stopped : stopped ∈ before.stages (scheduleOf before found) :=
    List.mem_cons_of_mem _ List.mem_cons_self
  refine ⟨rfl, rfl, by decide, h_stopped,
    Backfill.run_resumed shows_found shows_found rfl ?_ h_stopped⟩
  intro purpose p h_mem
  simp only [found, List.mem_cons, Prod.mk.injEq, Option.some.injEq, reduceCtorEq, and_false,
    List.not_mem_nil, or_false, false_or] at h_mem
  rcases h_mem with ⟨-, rfl⟩ | ⟨-, rfl⟩ <;> decide

end SamplePools

end RosettaGateway
