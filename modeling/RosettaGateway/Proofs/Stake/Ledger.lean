import Mathlib.Data.List.Nodup
import RosettaGateway.Stake.Ledger

/-!
# What the ledger holds

Every change of the ledger is a `Ledger.put` at one height. The list at each height before it is a
prefix of the list after it (`Ledger.due_prefix_put`); a record that is new was among those that
were put (`Ledger.mem_due_put`), and for each that was put there is one of its hash
(`Ledger.exists_mem_due_put`). A height has no two records of one hash, so a record is the only one
of its hash there (`Ledger.filter_due`).
-/

namespace RosettaGateway.Ledger

/-- Records put at a height one after the other are put there at once. -/
theorem put_append (height : UInt64) (xs ys : List StakeReturn) (l : Ledger) :
    (l.put height (xs ++ ys)).1 = ((l.put height xs).1.put height ys).1 := by
  induction xs generalizing l with
  | nil => rfl
  | cons r rest ih => exact ih (l.add height r)

/-- The list at each height only ever grows at its end. -/
theorem due_prefix_put (height other : UInt64) (returns : List StakeReturn) (l : Ledger) :
    l.due other <+: (l.put height returns).1.due other := by
  by_cases h_eq : height = other
  · rw [h_eq]
    exact prefix_due_put other returns l
  · have h_same := due_put_of_ne h_eq returns l
    exact h_same ▸ List.prefix_rfl

theorem backfilled_put (height : UInt64) (returns : List StakeReturn) (l : Ledger) :
    (l.put height returns).1.backfilled = l.backfilled := by
  induction returns generalizing l with
  | nil => rfl
  | cons r rest ih => exact (ih (l.add height r)).trans (backfilled_add l height r)

theorem mem_due_iff {height : UInt64} {r : StakeReturn} {l : Ledger} :
    r ∈ l.due height ↔ (height, r) ∈ l.entries := by
  rw [due, List.mem_map]
  constructor
  · rintro ⟨⟨height', r'⟩, h_mem, rfl⟩
    obtain ⟨h_entry, h_height⟩ := List.mem_filter.mp h_mem
    obtain rfl : height' = height := of_decide_eq_true h_height
    exact h_entry
  · intro h_entry
    exact ⟨(height, r), List.mem_filter.mpr ⟨h_entry, decide_eq_true rfl⟩, rfl⟩

theorem mem_due_add {height : UInt64} {r r' : StakeReturn} {l : Ledger}
    (h_mem : r' ∈ (l.add height r).due height) : r' ∈ l.due height ∨ r' = r := by
  rw [due_add_self] at h_mem
  split at h_mem
  · exact Or.inl h_mem
  · rcases List.mem_append.mp h_mem with h_old | h_new
    · exact Or.inl h_old
    · exact Or.inr (List.mem_singleton.mp h_new)

/-- What is there after a put was there before, or was put. -/
theorem mem_due_put {height other : UInt64} {returns : List StakeReturn} {r : StakeReturn}
    {l : Ledger} (h_mem : r ∈ (l.put height returns).1.due other) :
    r ∈ l.due other ∨ height = other ∧ r ∈ returns := by
  by_cases h_eq : height = other
  · subst h_eq
    induction returns generalizing l with
    | nil => exact Or.inl h_mem
    | cons r' rest ih =>
      rcases ih h_mem with h_old | ⟨_, h_new⟩
      · rcases mem_due_add h_old with h_before | rfl
        · exact Or.inl h_before
        · exact Or.inr ⟨rfl, List.mem_cons_self⟩
      · exact Or.inr ⟨rfl, List.mem_cons_of_mem _ h_new⟩
  · rw [due_put_of_ne h_eq] at h_mem
    exact Or.inl h_mem

theorem exists_mem_due_add (height : UInt64) (r : StakeReturn) (l : Ledger) :
    ∃ r' ∈ (l.add height r).due height, r'.hash = r.hash := by
  rw [due_add_self]
  split
  · next h_known => exact knows_iff.mp h_known
  · exact ⟨r, List.mem_append_right _ List.mem_cons_self, rfl⟩

/-- For each record that was put there is one of its hash, be it the one that was there first. -/
theorem exists_mem_due_put {height : UInt64} {returns : List StakeReturn} {r : StakeReturn}
    (h_mem : r ∈ returns) (l : Ledger) :
    ∃ r' ∈ (l.put height returns).1.due height, r'.hash = r.hash := by
  induction returns generalizing l with
  | nil => cases h_mem
  | cons r' rest ih =>
    rcases List.mem_cons.mp h_mem with rfl | h_rest
    · obtain ⟨r', h_due, h_hash⟩ := exists_mem_due_add height r l
      exact ⟨r', (prefix_due_put height rest (l.add height r)).subset h_due, h_hash⟩
    · exact ih h_rest (l.add height r')

/-- A height has no two records of one hash. -/
theorem nodup_due (l : Ledger) (height : UInt64) : ((l.due height).map (·.hash)).Nodup := by
  have h_keys : ((l.entries.filter (·.1 = height)).map fun e => (e.1, e.2.hash)).Nodup :=
    (List.Sublist.map _ List.filter_sublist).nodup l.nodup
  -- At one height the hash alone tells the records apart.
  have h_same : ((l.entries.filter (·.1 = height)).map fun e => (e.1, e.2.hash)) =
      ((l.due height).map (·.hash)).map fun hash => (height, hash) := by
    rw [due, List.map_map, List.map_map]
    apply List.map_congr_left
    intro e h_mem
    have h_height : e.1 = height := of_decide_eq_true (List.mem_filter.mp h_mem).2
    rw [Function.comp_apply, Function.comp_apply, h_height]
  rw [h_same] at h_keys
  exact List.Nodup.of_map _ h_keys

theorem filter_eq_singleton {xs : List StakeReturn} {r : StakeReturn}
    (h_nodup : (xs.map (·.hash)).Nodup) (h_mem : r ∈ xs) :
    xs.filter (·.hash = r.hash) = [r] := by
  induction xs with
  | nil => cases h_mem
  | cons r' rest ih =>
    rw [List.map_cons, List.nodup_cons] at h_nodup
    rcases List.mem_cons.mp h_mem with rfl | h_rest
    · have h_none : rest.filter (·.hash = r.hash) = [] := by
        apply List.filter_eq_nil_iff.mpr
        intro r' h_other h_eq
        exact h_nodup.1 (of_decide_eq_true h_eq ▸ List.mem_map_of_mem h_other)
      rw [List.filter_cons, if_pos (decide_eq_true rfl), h_none]
    · have h_ne : ¬ decide (r'.hash = r.hash) = true := by
        intro h_eq
        exact h_nodup.1 (of_decide_eq_true h_eq ▸ List.mem_map_of_mem h_rest)
      rw [List.filter_cons, if_neg h_ne, ih h_nodup.2 h_rest]

/-- A record is the only one of its hash at its height. -/
theorem filter_due {l : Ledger} {height : UInt64} {r : StakeReturn} (h_mem : r ∈ l.due height) :
    (l.due height).filter (·.hash = r.hash) = [r] :=
  filter_eq_singleton (l.nodup_due height) h_mem

end RosettaGateway.Ledger
