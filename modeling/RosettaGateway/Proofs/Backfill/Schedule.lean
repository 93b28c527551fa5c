import Mathlib.Data.List.Perm.Basic
import RosettaGateway.Proofs.Stake.Multimap

/-!
# What a schedule puts down

A schedule is a list of lists, and a ledger is a list of records with their heights. This module
reads the one as the other. The records of a schedule (`Schedule.records`) are those it was made of,
sorted by height, and records of one height keep their order:

* `Schedule.ascending_ofList` — the heights ascend, and each has one place;
* `Schedule.perm_records_ofList` — no record is lost, and none is made up;
* `Schedule.filter_records_ofList` — the records of a height are in the order they were given in.

Order and heights determine the records (`Schedule.eq_of_filter_height`), so it makes no difference
whether some of them are left out before or after they are sorted
(`Schedule.records_ofList_filter`).

To put a schedule down is to add its records one by one (`Ledger.putAll_fst`). Records that are
known add nothing (`Ledger.addAll_of_known`), and records that are new to the ledger and to each
other all stand behind what was there (`Ledger.entries_addAll_of_new`).
-/

namespace RosettaGateway

namespace Schedule

variable {height : UInt64} {r : StakeReturn} {s : Schedule}

/-- The returns of a schedule with their heights, in the order in which they are put down. -/
def records (s : Schedule) : List (UInt64 × StakeReturn) :=
  s.flatMap fun entry => entry.2.map fun r => (entry.1, r)

@[simp] theorem records_nil : records [] = [] := rfl

@[simp] theorem records_cons (height : UInt64) (returns : List StakeReturn) (s : Schedule) :
    records ((height, returns) :: s) = (returns.map fun r => (height, r)) ++ records s := rfl

theorem records_append (s s' : Schedule) : records (s ++ s') = records s ++ records s' :=
  List.flatMap_append

/-- No record is lost and none is made up when one is added. -/
theorem perm_records_insert (height : UInt64) (r : StakeReturn) (s : Schedule) :
    ((s.insert height r).records).Perm ((height, r) :: s.records) := by
  induction s with
  | nil => exact List.Perm.refl _
  | cons entry rest ih =>
    obtain ⟨h, returns⟩ := entry
    rw [insert]
    split
    · next h_eq =>
      -- The height has returns already, and this one goes behind them.
      rw [records_cons, records_cons, List.map_append, List.append_assoc, h_eq]
      exact List.perm_middle
    · split
      · exact List.Perm.refl _
      · rw [records_cons, records_cons]
        exact (ih.append_left _).trans List.perm_middle

theorem perm_records_ofList (returns : List (UInt64 × StakeReturn)) :
    ((ofList returns).records).Perm returns := by
  have h_fold : ∀ s : Schedule,
      (records (returns.foldl (fun s e => insert e.1 e.2 s) s)).Perm (s.records ++ returns) := by
    induction returns with
    | nil => simp
    | cons e rest ih =>
      intro s
      have h_first := (perm_records_insert e.1 e.2 s).append_right rest
      exact (ih (s.insert e.1 e.2)).trans (h_first.trans List.perm_middle.symm)
  exact h_fold []

/-! ### Heights ascend -/

/-- The heights of a schedule ascend, so that each has one place. -/
def Ascending (s : Schedule) : Prop := s.Pairwise (·.1 < ·.1)

/-- The heights of a schedule are those of before and the one at which a return is added. -/
theorem height_of_mem_insert {entry : UInt64 × List StakeReturn}
    (h_mem : entry ∈ s.insert height r) : entry.1 = height ∨ ∃ old ∈ s, old.1 = entry.1 := by
  induction s with
  | nil => exact Or.inl (List.mem_singleton.mp h_mem ▸ rfl)
  | cons first rest ih =>
    obtain ⟨h, returns⟩ := first
    rw [insert] at h_mem
    split at h_mem
    · next h_eq =>
      rcases List.mem_cons.mp h_mem with rfl | h_rest
      · exact Or.inl h_eq.symm
      · exact Or.inr ⟨entry, List.mem_cons_of_mem _ h_rest, rfl⟩
    · split at h_mem
      · -- Here the return comes in as an entry of its own.
        rcases List.mem_cons.mp h_mem with rfl | h_old
        · exact Or.inl rfl
        · exact Or.inr ⟨entry, h_old, rfl⟩
      · rcases List.mem_cons.mp h_mem with rfl | h_rest
        · exact Or.inr ⟨(h, returns), List.mem_cons_self, rfl⟩
        · refine (ih h_rest).imp_right ?_
          rintro ⟨old, h_old, h_same⟩
          exact ⟨old, List.mem_cons_of_mem _ h_old, h_same⟩

theorem Ascending.insert (h_asc : s.Ascending) (height : UInt64) (r : StakeReturn) :
    (s.insert height r).Ascending := by
  induction s with
  | nil => exact List.pairwise_singleton _ _
  | cons entry rest ih =>
    obtain ⟨h, returns⟩ := entry
    obtain ⟨h_first, h_rest⟩ := List.pairwise_cons.mp h_asc
    rw [Schedule.insert]
    split
    · exact List.pairwise_cons.mpr ⟨h_first, h_rest⟩
    · next h_ne =>
      split
      · next h_lt =>
        refine List.pairwise_cons.mpr ⟨fun entry h_mem => ?_, h_asc⟩
        rcases List.mem_cons.mp h_mem with rfl | h_later
        · exact h_lt
        · exact UInt64.lt_trans h_lt (h_first entry h_later)
      · next h_not =>
        have h_gt : h < height :=
          UInt64.lt_of_le_of_ne (UInt64.not_lt.mp h_not) (Ne.symm h_ne)
        -- Whatever comes next after the insertion, the return or what was next before, is later
        -- than this.
        refine List.pairwise_cons.mpr ⟨fun entry h_mem => ?_, ih h_rest⟩
        rcases height_of_mem_insert h_mem with h_new | ⟨old, h_old, h_same⟩
        · exact h_new ▸ h_gt
        · exact h_same ▸ h_first old h_old

/-- The heights of a schedule ascend, in whatever order its returns were given. -/
theorem ascending_ofList (returns : List (UInt64 × StakeReturn)) : (ofList returns).Ascending := by
  have h_fold : ∀ s : Schedule, s.Ascending →
      Ascending (returns.foldl (fun s e => insert e.1 e.2 s) s) := by
    induction returns with
    | nil => exact fun _ h_asc => h_asc
    | cons e rest ih => exact fun s h_asc => ih _ (h_asc.insert e.1 e.2)
  exact h_fold [] List.Pairwise.nil

theorem exists_of_mem_records {e : UInt64 × StakeReturn} (h_mem : e ∈ s.records) :
    ∃ entry ∈ s, entry.1 = e.1 := by
  obtain ⟨entry, h_entry, h_record⟩ := List.mem_flatMap.mp h_mem
  obtain ⟨r, -, rfl⟩ := List.mem_map.mp h_record
  exact ⟨entry, h_entry, rfl⟩

/-- The records of a schedule whose heights ascend are sorted by height. -/
theorem Ascending.sorted_records (h_asc : s.Ascending) : s.records.Pairwise (·.1 ≤ ·.1) := by
  induction s with
  | nil => exact List.Pairwise.nil
  | cons entry rest ih =>
    obtain ⟨h, returns⟩ := entry
    obtain ⟨h_first, h_rest⟩ := List.pairwise_cons.mp h_asc
    refine List.pairwise_append.mpr ⟨?_, ih h_rest, ?_⟩
    · exact List.pairwise_map.mpr (List.pairwise_of_forall fun _ _ => UInt64.le_refl h)
    · intro e h_mem e' h_mem'
      obtain ⟨r, -, rfl⟩ := List.mem_map.mp h_mem
      obtain ⟨later, h_later, h_height⟩ := exists_of_mem_records h_mem'
      exact h_height ▸ UInt64.le_of_lt (h_first later h_later)

/-! ### The order at each height -/

/-- Where a schedule has no place there are no records. -/
theorem filter_records_eq_nil (h_other : ∀ entry ∈ s, entry.1 ≠ height) :
    s.records.filter (·.1 = height) = [] := by
  refine List.filter_eq_nil_iff.mpr fun e h_mem h_height => ?_
  obtain ⟨entry, h_entry, h_same⟩ := exists_of_mem_records h_mem
  exact h_other entry h_entry (h_same.trans (of_decide_eq_true h_height))

/-- A record of a height that a schedule does not have may stand in front of it or behind it. -/
theorem filter_records_comm (h_other : ∀ entry ∈ s, entry.1 ≠ height) (r : StakeReturn)
    (other : UInt64) :
    s.records.filter (·.1 = other) ++ [(height, r)].filter (·.1 = other) =
      [(height, r)].filter (·.1 = other) ++ s.records.filter (·.1 = other) := by
  by_cases h_at : height = other
  · rw [← h_at, filter_records_eq_nil h_other, List.append_nil, List.nil_append]
  · rw [List.filter_cons_of_neg (by simpa using h_at), List.filter_nil, List.append_nil,
      List.nil_append]

/-- A return goes behind those that are there at its height. -/
theorem Ascending.filter_records_insert (h_asc : s.Ascending) (other : UInt64) :
    (s.insert height r).records.filter (·.1 = other) =
      s.records.filter (·.1 = other) ++ [(height, r)].filter (·.1 = other) := by
  induction s with
  | nil => rfl
  | cons entry rest ih =>
    obtain ⟨h, returns⟩ := entry
    obtain ⟨h_first, h_rest⟩ := List.pairwise_cons.mp h_asc
    rw [Schedule.insert]
    split
    · next h_eq =>
      -- It goes behind those of its height, and nothing further on is of this height.
      have h_later : ∀ entry ∈ rest, entry.1 ≠ height := fun entry h_mem h_same =>
        UInt64.ne_of_lt (h_first entry h_mem) (h_eq.symm.trans h_same.symm)
      rw [records_cons, records_cons, List.map_append, List.filter_append, List.filter_append,
        List.filter_append, List.append_assoc, List.append_assoc,
        filter_records_comm h_later r other, h_eq]
      rfl
    · split
      · next h_lt =>
        -- All heights from here on are later, so there is no other return at its height.
        have h_later : ∀ entry ∈ (h, returns) :: rest, entry.1 ≠ height := by
          intro entry h_mem h_same
          rcases List.mem_cons.mp h_mem with rfl | h_mem
          · exact UInt64.ne_of_lt h_lt h_same.symm
          · exact UInt64.ne_of_lt (UInt64.lt_trans h_lt (h_first entry h_mem)) h_same.symm
        rw [filter_records_comm h_later r other, records_cons height, List.filter_append]
        rfl
      · rw [records_cons, records_cons, List.filter_append, List.filter_append, ih h_rest,
          List.append_assoc]

/-- **The records of a height** are in the order in which they were given. -/
theorem filter_records_ofList (returns : List (UInt64 × StakeReturn)) (height : UInt64) :
    (ofList returns).records.filter (·.1 = height) = returns.filter (·.1 = height) := by
  have h_fold : ∀ s : Schedule, s.Ascending →
      (records (returns.foldl (fun s e => insert e.1 e.2 s) s)).filter (·.1 = height) =
        s.records.filter (·.1 = height) ++ returns.filter (·.1 = height) := by
    induction returns with
    | nil => exact fun s _ => (List.append_nil _).symm
    | cons e rest ih =>
      intro s h_asc
      rw [List.foldl_cons, ih _ (h_asc.insert e.1 e.2), h_asc.filter_records_insert,
        List.append_assoc, ← List.filter_append]
      rfl
  exact h_fold [] List.Pairwise.nil

/-! ### Leaving records out -/

theorem mem_iff_of_filter_height {xs ys : List (UInt64 × StakeReturn)}
    (h_heights : ∀ height, xs.filter (·.1 = height) = ys.filter (·.1 = height))
    (e : UInt64 × StakeReturn) : e ∈ xs ↔ e ∈ ys := by
  have h_iff : e ∈ xs.filter (·.1 = e.1) ↔ e ∈ ys.filter (·.1 = e.1) := by rw [h_heights]
  simpa using h_iff

/-- The first of some sorted records is of the lowest height. -/
theorem height_le_of_mem {x e : UInt64 × StakeReturn} {xs : List (UInt64 × StakeReturn)}
    (h_sorted : (x :: xs).Pairwise (·.1 ≤ ·.1)) (h_mem : e ∈ x :: xs) : x.1 ≤ e.1 := by
  rcases List.mem_cons.mp h_mem with rfl | h_later
  · exact UInt64.le_refl _
  · exact (List.pairwise_cons.mp h_sorted).1 e h_later

/-- Records that are sorted by height are told by those of each height. -/
theorem eq_of_filter_height {xs ys : List (UInt64 × StakeReturn)}
    (h_xs : xs.Pairwise (·.1 ≤ ·.1)) (h_ys : ys.Pairwise (·.1 ≤ ·.1))
    (h_heights : ∀ height, xs.filter (·.1 = height) = ys.filter (·.1 = height)) : xs = ys := by
  have h_mem := mem_iff_of_filter_height h_heights
  induction xs generalizing ys with
  | nil =>
    have h_none : ∀ e, e ∉ ys := fun e h_y => List.not_mem_nil ((h_mem e).mpr h_y)
    exact (List.eq_nil_iff_forall_not_mem.mpr h_none).symm
  | cons x xs ih =>
    cases ys with
    | nil => exact absurd ((h_mem x).mp List.mem_cons_self) List.not_mem_nil
    | cons y ys =>
      -- Both begin with the first record of the lowest height.
      have h_low : y.1 = x.1 := UInt64.le_antisymm
        (height_le_of_mem h_ys ((h_mem x).mp List.mem_cons_self))
        (height_le_of_mem h_xs ((h_mem y).mpr List.mem_cons_self))
      have h_first := h_heights x.1
      rw [List.filter_cons_of_pos (by simp), List.filter_cons_of_pos (by simpa using h_low)]
        at h_first
      obtain ⟨rfl, -⟩ := List.cons.inj h_first
      have h_rest : ∀ height, xs.filter (·.1 = height) = ys.filter (·.1 = height) := by
        intro height
        have h_both := h_heights height
        rw [← List.singleton_append, ← @List.singleton_append _ x ys, List.filter_append,
          List.filter_append] at h_both
        exact List.append_cancel_left h_both
      rw [ih (List.pairwise_cons.mp h_xs).2 (List.pairwise_cons.mp h_ys).2 h_rest
        (mem_iff_of_filter_height h_rest)]

/-- **Records may be left out** before they are sorted or after. -/
theorem records_ofList_filter (p : UInt64 × StakeReturn → Bool)
    (returns : List (UInt64 × StakeReturn)) :
    (ofList (returns.filter p)).records = (ofList returns).records.filter p := by
  refine eq_of_filter_height (ascending_ofList _).sorted_records
    ((ascending_ofList returns).sorted_records.filter p) fun height => ?_
  calc (ofList (returns.filter p)).records.filter (·.1 = height)
      = (returns.filter p).filter (·.1 = height) := filter_records_ofList _ height
    _ = (returns.filter (·.1 = height)).filter p := List.filter_comm _ _ _
    _ = ((ofList returns).records.filter (·.1 = height)).filter p := by
      rw [filter_records_ofList]
    _ = ((ofList returns).records.filter p).filter (·.1 = height) := List.filter_comm _ _ _

end Schedule

/-! ### Putting records down -/

namespace Ledger

variable {l : Ledger} {records : List (UInt64 × StakeReturn)}

/-- Adds records one after the other. -/
def addAll (l : Ledger) (records : List (UInt64 × StakeReturn)) : Ledger :=
  records.foldl (fun l e => l.add e.1 e.2) l

@[simp] theorem addAll_cons (l : Ledger) (e : UInt64 × StakeReturn)
    (records : List (UInt64 × StakeReturn)) :
    l.addAll (e :: records) = (l.add e.1 e.2).addAll records := rfl

theorem addAll_append (l : Ledger) (xs ys : List (UInt64 × StakeReturn)) :
    l.addAll (xs ++ ys) = (l.addAll xs).addAll ys := List.foldl_append

theorem put_fst (l : Ledger) (height : UInt64) (returns : List StakeReturn) :
    (l.put height returns).1 = l.addAll (returns.map fun r => (height, r)) := by
  induction returns generalizing l with
  | nil => rfl
  | cons r rest ih => exact ih (l.add height r)

/-- To put a schedule down is to add its records. -/
theorem putAll_fst (l : Ledger) (s : Schedule) : (l.putAll s).1 = l.addAll s.records := by
  induction s generalizing l with
  | nil => rfl
  | cons entry rest ih =>
    obtain ⟨height, returns⟩ := entry
    calc ((l.put height returns).1.putAll rest).1
        = (l.put height returns).1.addAll (Schedule.records rest) := ih _
      _ = l.addAll (Schedule.records ((height, returns) :: rest)) := by
        rw [put_fst, Schedule.records_cons, addAll_append]

theorem backfilled_addAll (l : Ledger) (records : List (UInt64 × StakeReturn)) :
    (l.addAll records).backfilled = l.backfilled := by
  induction records generalizing l with
  | nil => rfl
  | cons e rest ih => exact (ih (l.add e.1 e.2)).trans (backfilled_add l e.1 e.2)

theorem entries_add (l : Ledger) (height : UInt64) (r : StakeReturn) :
    (l.add height r).entries =
      l.entries ++ if l.knows height r.hash then [] else [(height, r)] := by
  unfold add
  split
  · exact (List.append_nil _).symm
  · rfl

/-- A record that is put is counted when it is new. -/
theorem length_entries_put (l : Ledger) (height : UInt64) (returns : List StakeReturn) :
    (l.put height returns).1.entries.length = l.entries.length + (l.put height returns).2 := by
  induction returns generalizing l with
  | nil => rfl
  | cons r rest ih =>
    have h_rest := ih (l.add height r)
    rw [entries_add, List.length_append] at h_rest
    simp only [put]
    split at h_rest <;> rename_i h_known
    · rw [if_pos h_known, h_rest, List.length_nil, Nat.add_zero]
    · rw [if_neg h_known, h_rest, List.length_singleton]
      omega

/-- The number that is told of a schedule is the number of records that are new. -/
theorem length_entries_putAll (l : Ledger) (s : Schedule) :
    (l.putAll s).1.entries.length = l.entries.length + (l.putAll s).2 := by
  induction s generalizing l with
  | nil => rfl
  | cons entry rest ih =>
    obtain ⟨height, returns⟩ := entry
    have h_first := length_entries_put l height returns
    have h_rest := ih (l.put height returns).1
    simp only [putAll]
    omega

theorem entries_prefix_addAll (l : Ledger) (records : List (UInt64 × StakeReturn)) :
    l.entries <+: (l.addAll records).entries := by
  induction records generalizing l with
  | nil => exact List.prefix_rfl
  | cons e rest ih =>
    refine List.IsPrefix.trans ?_ (ih (l.add e.1 e.2))
    rw [entries_add]
    exact List.prefix_append _ _

/-- What is in a ledger after records were added was there before, or is one of them. -/
theorem mem_entries_addAll {e : UInt64 × StakeReturn} (h_mem : e ∈ (l.addAll records).entries) :
    e ∈ l.entries ∨ e ∈ records := by
  induction records generalizing l with
  | nil => exact Or.inl h_mem
  | cons first rest ih =>
    rcases ih h_mem with h_old | h_rest
    · rw [entries_add, List.mem_append] at h_old
      refine h_old.imp_right fun h_new => ?_
      split at h_new
      · cases h_new
      · exact List.mem_singleton.mp h_new ▸ List.mem_cons_self
    · exact Or.inr (List.mem_cons_of_mem _ h_rest)

theorem knows_eq_true_iff {height : UInt64} {hash : Hash} :
    l.knows height hash = true ↔ (height, hash) ∈ l.entries.map fun e => (e.1, e.2.hash) := by
  rw [knows, List.contains_eq_mem, decide_eq_true_eq]

theorem knows_mono {l' : Ledger} (h_le : l.entries <+: l'.entries) {height : UInt64}
    {hash : Hash} (h_known : l.knows height hash = true) : l'.knows height hash = true :=
  knows_eq_true_iff.mpr ((h_le.map _).subset (knows_eq_true_iff.mp h_known))

theorem knows_add (l : Ledger) (height : UInt64) (r : StakeReturn) :
    (l.add height r).knows height r.hash = true := by
  obtain ⟨r', h_mem, h_hash⟩ := exists_mem_due_add height r l
  exact knows_iff.mpr ⟨r', h_mem, h_hash⟩

/-- A record that was added is known. -/
theorem knows_addAll {e : UInt64 × StakeReturn} (h_mem : e ∈ records) (l : Ledger) :
    (l.addAll records).knows e.1 e.2.hash = true := by
  induction records generalizing l with
  | nil => cases h_mem
  | cons first rest ih =>
    rcases List.mem_cons.mp h_mem with rfl | h_rest
    · exact knows_mono (entries_prefix_addAll _ rest) (knows_add l e.1 e.2)
    · exact ih h_rest (l.add first.1 first.2)

/-- **Records that are known** add nothing. -/
theorem addAll_of_known (h_known : ∀ e ∈ records, l.knows e.1 e.2.hash = true) :
    l.addAll records = l := by
  induction records with
  | nil => rfl
  | cons e rest ih =>
    obtain ⟨h_first, h_rest⟩ := List.forall_mem_cons.mp h_known
    rw [addAll_cons, add_of_known h_first, ih h_rest]

/-- **Records that are new**, to the ledger and to each other, all stand behind what was there. -/
theorem entries_addAll_of_new (h_new : ∀ e ∈ records, l.knows e.1 e.2.hash = false)
    (h_nodup : (records.map fun e => (e.1, e.2.hash)).Nodup) :
    (l.addAll records).entries = l.entries ++ records := by
  induction records generalizing l with
  | nil => exact (List.append_nil _).symm
  | cons e rest ih =>
    obtain ⟨h_first, h_rest⟩ := List.forall_mem_cons.mp h_new
    obtain ⟨h_other, h_nodup⟩ := List.nodup_cons.mp h_nodup
    have h_entries : (l.add e.1 e.2).entries = l.entries ++ [e] := by
      rw [entries_add, h_first]
      rfl
    have h_still : ∀ e' ∈ rest, (l.add e.1 e.2).knows e'.1 e'.2.hash = false := by
      intro e' h_mem
      rw [Bool.eq_false_iff, ne_eq, knows_eq_true_iff, h_entries, List.map_append, List.mem_append,
        ← knows_eq_true_iff, h_rest e' h_mem]
      rintro (h_old | h_same)
      · exact Bool.false_ne_true h_old
      · -- The record in front has another height or another hash.
        exact h_other (List.mem_singleton.mp h_same ▸ List.mem_map_of_mem h_mem)
    rw [addAll_cons, ih h_still h_nodup, h_entries, List.append_assoc, List.singleton_append]

end Ledger

end RosettaGateway
