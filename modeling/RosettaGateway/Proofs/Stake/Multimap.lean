import RosettaGateway.Proofs.Backfill

/-!
# The ledger as a multimap

Whatever returns are put at whatever heights, the list of a height is what was put there, in the
order of the calls, without the records whose hash is that of a record in front of them. So the
order in which a height is served with others does not matter, and neither does repeating a call.

* `StakeReturn.firsts` — the records of a list that come first under their hash. Cutting a list down
  in between makes no difference (`StakeReturn.firsts_firsts_append`), which carries the inductions;
* `StakeReturn.putAt` — what some calls have put at a height, one list behind the other;
* `Ledger.due_putAll` — the list of a height after calls, from any ledger;
* `Ledger.put_of_known` — records that are known change nothing;
* `Ledger.multimap_putAll` — what all this says of a ledger that started empty.
-/

namespace RosettaGateway

/-! ### Records that come first under their hash -/

namespace StakeReturn

/-- The records of a list whose hash no record in front of them has. -/
def firsts : List StakeReturn → List StakeReturn
  | [] => []
  | r :: rest => r :: (firsts rest).filter (·.hash ≠ r.hash)

@[simp] theorem firsts_nil : firsts [] = [] := rfl

theorem firsts_eq_nil_iff {records : List StakeReturn} : firsts records = [] ↔ records = [] := by
  cases records with
  | nil => exact Iff.rfl
  | cons r rest => exact iff_of_false nofun nofun

/-- A list behind another one loses the records whose hash the other one has. -/
theorem firsts_append (xs ys : List StakeReturn) :
    firsts (xs ++ ys) = firsts xs ++ (firsts ys).filter (·.hash ∉ xs.map (·.hash)) := by
  induction xs with
  | nil =>
    have h_all : ∀ r ∈ firsts ys, decide (r.hash ∉ List.map (·.hash) ([] : List StakeReturn)) := by
      simp
    rw [List.filter_eq_self.mpr h_all, List.nil_append, firsts_nil, List.nil_append]
  | cons r rest ih =>
    have h_filter : ((firsts ys).filter (·.hash ∉ rest.map (·.hash))).filter (·.hash ≠ r.hash) =
        (firsts ys).filter (·.hash ∉ (r :: rest).map (·.hash)) := by
      rw [List.filter_filter]
      apply List.filter_congr
      intro r' _
      simp [List.mem_cons, not_or]
    rw [List.cons_append, firsts, ih, List.filter_append, h_filter, firsts, List.cons_append]

/-- No hash is lost. -/
theorem mem_hashes_firsts {records : List StakeReturn} {hash : Hash} :
    hash ∈ (firsts records).map (·.hash) ↔ hash ∈ records.map (·.hash) := by
  induction records with
  | nil => exact Iff.rfl
  | cons r rest ih =>
    -- Records are only taken away for the hash in front of them, and that one stays.
    by_cases h_eq : hash = r.hash
    · subst h_eq
      exact iff_of_true (List.mem_cons_self) (List.mem_cons_self)
    · have h_filter : hash ∈ ((firsts rest).filter (·.hash ≠ r.hash)).map (·.hash) ↔
          hash ∈ (firsts rest).map (·.hash) := by
        simp only [List.mem_map, List.mem_filter, decide_eq_true_eq]
        constructor
        · rintro ⟨r', ⟨h_mem, -⟩, rfl⟩
          exact ⟨r', h_mem, rfl⟩
        · rintro ⟨r', h_mem, rfl⟩
          exact ⟨r', ⟨h_mem, h_eq⟩, rfl⟩
      rw [firsts, List.map_cons, List.mem_cons, List.map_cons, List.mem_cons, h_filter, ih]

theorem nodup_firsts (records : List StakeReturn) : ((firsts records).map (·.hash)).Nodup := by
  induction records with
  | nil => exact List.nodup_nil
  | cons r rest ih =>
    rw [firsts, List.map_cons, List.nodup_cons]
    constructor
    · intro h_mem
      obtain ⟨r', h_filter, h_hash⟩ := List.mem_map.mp h_mem
      exact of_decide_eq_true (List.mem_filter.mp h_filter).2 h_hash
    · exact (List.Sublist.map StakeReturn.hash List.filter_sublist).nodup ih

/-- Where all hashes differ, each record comes first. -/
theorem firsts_of_nodup {records : List StakeReturn} (h_nodup : (records.map (·.hash)).Nodup) :
    firsts records = records := by
  induction records with
  | nil => rfl
  | cons r rest ih =>
    rw [List.map_cons, List.nodup_cons] at h_nodup
    have h_all : ∀ r' ∈ rest, decide (r'.hash ≠ r.hash) := by
      intro r' h_mem
      exact decide_eq_true fun h_hash => h_nodup.1 (h_hash ▸ List.mem_map_of_mem h_mem)
    rw [firsts, ih h_nodup.2, List.filter_eq_self.mpr h_all]

/-- Whether the list in front is cut down before or after makes no difference. -/
theorem firsts_firsts_append (xs ys : List StakeReturn) :
    firsts (firsts xs ++ ys) = firsts (xs ++ ys) := by
  rw [firsts_append, firsts_append, firsts_of_nodup (nodup_firsts xs)]
  simp only [mem_hashes_firsts]

/-- What some calls have put at a height, in the order of the calls. -/
def putAt (height : UInt64) (calls : List (UInt64 × List StakeReturn)) : List StakeReturn :=
  (calls.filter (·.1 = height)).flatMap Prod.snd

theorem putAt_cons_self (height : UInt64) (returns : List StakeReturn)
    (calls : List (UInt64 × List StakeReturn)) :
    putAt height ((height, returns) :: calls) = returns ++ putAt height calls := by
  rw [putAt, List.filter_cons, if_pos (decide_eq_true rfl), List.flatMap_cons, putAt]

theorem putAt_cons_of_ne {height other : UInt64} (h_ne : other ≠ height)
    (returns : List StakeReturn) (calls : List (UInt64 × List StakeReturn)) :
    putAt height ((other, returns) :: calls) = putAt height calls := by
  rw [putAt, List.filter_cons, if_neg (by simpa using h_ne), putAt]

end StakeReturn

/-! ### The list of a height after any calls -/

namespace Ledger

open StakeReturn (firsts firsts_append firsts_firsts_append firsts_of_nodup putAt putAt_cons_self
  putAt_cons_of_ne)

variable {l : Ledger} {height : UInt64} {returns : List StakeReturn}

theorem due_add (l : Ledger) (height : UInt64) (r : StakeReturn) :
    (l.add height r).due height = firsts (l.due height ++ [r]) := by
  have h_known : l.knows height r.hash = true ↔ r.hash ∈ (l.due height).map (·.hash) := by
    rw [knows_iff, List.mem_map]
  have h_one : firsts [r] = [r] := rfl
  rw [due_add_self, firsts_append, firsts_of_nodup (l.nodup_due height), h_one]
  split
  · next h_there =>
    have h_gone : ¬ decide (r.hash ∉ (l.due height).map (·.hash)) = true := by
      simpa using h_known.mp h_there
    rw [List.filter_cons, if_neg h_gone, List.filter_nil, List.append_nil]
  · next h_new =>
    have h_stays : decide (r.hash ∉ (l.due height).map (·.hash)) = true :=
      decide_eq_true (mt h_known.mpr h_new)
    rw [List.filter_cons, if_pos h_stays, List.filter_nil]

/-- What is put at a height goes behind what is there, as far as its hash is new. -/
theorem due_put (height : UInt64) (returns : List StakeReturn) (l : Ledger) :
    (l.put height returns).1.due height = firsts (l.due height ++ returns) := by
  induction returns generalizing l with
  | nil => rw [put, List.append_nil, firsts_of_nodup (l.nodup_due height)]
  | cons r rest ih =>
    -- The list that is there is cut down after each record, which is the same as once at the end.
    calc ((l.add height r).put height rest).1.due height
        = firsts ((l.add height r).due height ++ rest) := ih (l.add height r)
      _ = firsts (firsts (l.due height ++ [r]) ++ rest) := by rw [due_add]
      _ = firsts (l.due height ++ r :: rest) := by
        rw [firsts_firsts_append, List.append_assoc, List.singleton_append]

/-- The list of a height after any calls: what the calls have put there goes behind what was there,
as far as its hash is new. -/
theorem due_putAll (height : UInt64) (calls : List (UInt64 × List StakeReturn)) (l : Ledger) :
    (l.putAll calls).1.due height = firsts (l.due height ++ putAt height calls) := by
  induction calls generalizing l with
  | nil =>
    have h_none : putAt height [] = [] := rfl
    rw [putAll, h_none, List.append_nil, firsts_of_nodup (l.nodup_due height)]
  | cons call rest ih =>
    obtain ⟨other, returns⟩ := call
    have h_step : ((l.putAll ((other, returns) :: rest)).1).due height =
        firsts ((l.put other returns).1.due height ++ putAt height rest) :=
      ih (l.put other returns).1
    rw [h_step]
    -- A call at another height leaves this one alone.
    by_cases h_eq : other = height
    · subst h_eq
      rw [due_put, firsts_firsts_append, putAt_cons_self, List.append_assoc]
    · rw [due_put_of_ne h_eq, putAt_cons_of_ne h_eq]

theorem get_eq_error_iff {e : Missing} :
    l.get height = .error e ↔ l.due height = [] ∧ e = .noReturns height := by
  unfold get
  cases l.due height with
  | nil => exact ⟨fun h_error => ⟨rfl, (Except.error.inj h_error).symm⟩, fun h_e => h_e.2 ▸ rfl⟩
  | cons r rest => exact iff_of_false nofun fun h_e => List.cons_ne_nil r rest h_e.1

theorem get_eq_ok_iff :
    l.get height = .ok returns ↔ l.due height ≠ [] ∧ returns = l.due height := by
  unfold get
  cases l.due height with
  | nil => exact iff_of_false nofun fun h_returns => h_returns.1 rfl
  | cons r rest =>
    constructor
    · exact fun h_ok => ⟨List.cons_ne_nil r rest, (Except.ok.inj h_ok).symm⟩
    · exact fun h_returns => congrArg Except.ok h_returns.2.symm

/-! ### Calls that are repeated -/

theorem add_of_known {r : StakeReturn} (h_known : l.knows height r.hash = true) :
    l.add height r = l := by
  rw [add, dif_pos h_known]

/-- Records whose hashes are there already change nothing. -/
theorem put_of_known (h_known : ∀ r ∈ returns, l.knows height r.hash = true) :
    l.put height returns = (l, 0) := by
  induction returns with
  | nil => rfl
  | cons r rest ih =>
    obtain ⟨h_first, h_rest⟩ := List.forall_mem_cons.mp h_known
    simp only [put, add_of_known h_first, ih h_rest, if_pos h_first]

/-- A call that is repeated, whatever has been put in between, changes nothing. -/
theorem put_put_after_calls (height : UInt64) (returns : List StakeReturn)
    (later : List (UInt64 × List StakeReturn)) (l : Ledger) :
    (((l.put height returns).1.putAll later).1).put height returns =
      (((l.put height returns).1.putAll later).1, 0) := by
  apply put_of_known
  intro r h_mem
  obtain ⟨r', h_there, h_hash⟩ := exists_mem_due_put h_mem l
  exact knows_iff.mpr ⟨r', (due_prefix_putAll later _ height).subset h_there, h_hash⟩

/-- **The ledger is a multimap in which the first record of a hash wins.** Take any calls that put
returns at heights, one after the other and starting with an empty ledger. The list of a height is
what the calls have put there, in their order, without the records whose hash is that of a record in
front of them. The height is missing if and only if nothing has been put there. One more call tells
by how much the list of its height has grown, and when it is repeated after any others, it changes
nothing and tells zero. -/
theorem multimap_putAll (calls : List (UInt64 × List StakeReturn)) (height : UInt64) :
    let l := (empty.putAll calls).1
    let records := putAt height calls
    l.due height = firsts records ∧
    (∀ returns, l.get height = .ok returns ↔ records ≠ [] ∧ returns = firsts records) ∧
    (∀ e, l.get height = .error e ↔ records = [] ∧ e = .noReturns height) ∧
    ∀ returns,
      ((l.put height returns).1.due height).length =
        (l.due height).length + (l.put height returns).2 ∧
      ∀ later, (((l.put height returns).1.putAll later).1).put height returns =
        (((l.put height returns).1.putAll later).1, 0) := by
  intro l records
  have h_due : l.due height = firsts records := by
    rw [due_putAll, due_empty, List.nil_append]
  have h_nil : l.due height = [] ↔ records = [] := by
    rw [h_due, StakeReturn.firsts_eq_nil_iff]
  refine ⟨h_due, ?_, ?_, ?_⟩
  · intro returns
    rw [get_eq_ok_iff, ne_eq, h_nil, h_due]
  · intro e
    rw [get_eq_error_iff, h_nil]
  · intro returns
    exact ⟨length_due_put height returns l, fun later => put_put_after_calls height returns later l⟩

end Ledger

end RosettaGateway
