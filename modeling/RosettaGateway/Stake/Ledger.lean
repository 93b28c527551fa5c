import RosettaGateway.Stake.Return

/-!
# The ledger of stake returns

The ledger holds the returns that are due at each height, in the order in which they came to be
known. A return that is known already is not added again: what counts is its hash, and the first
record wins. Besides, the ledger remembers whether the pools have been searched for stakes that were
withdrawn before the gateway looked.

The records stand in one list with their heights. `Ledger.due` is the view of one height, and each
operation is said by what it does to this view. Main statements: returns put at one height leave the
others alone (`due_put_of_ne`), they follow what is there (`prefix_due_put`), and the number told is
the growth of the list (`length_due_put`).
-/

namespace RosettaGateway

/-- The returns that are due, each with its height. -/
structure Ledger where
  entries : List (UInt64 × StakeReturn) := []
  backfilled : Bool := false
  nodup : (entries.map fun e => (e.1, e.2.hash)).Nodup := by simp

namespace Ledger

/-- A ledger without records. -/
def empty : Ledger := {}

instance : Inhabited Ledger := ⟨empty⟩

/-- The returns that are due at a height, in the order in which they were added. -/
def due (ledger : Ledger) (height : UInt64) : List StakeReturn :=
  (ledger.entries.filter (·.1 = height)).map Prod.snd

/-- Whether a return is known at a height. -/
def knows (ledger : Ledger) (height : UInt64) (hash : Hash) : Bool :=
  (ledger.entries.map fun e => (e.1, e.2.hash)).contains (height, hash)

/-- Adds one return at a height, unless its hash is known there. -/
def add (ledger : Ledger) (height : UInt64) (r : StakeReturn) : Ledger :=
  if h : ledger.knows height r.hash then ledger
  else
    { ledger with
      entries := ledger.entries ++ [(height, r)]
      nodup := by
        have := ledger.nodup
        simp only [knows, List.contains_eq_mem, decide_eq_true_eq] at h
        rw [List.map_append, List.nodup_append]
        refine ⟨this, by simp, ?_⟩
        intro a ha b hb hab
        simp only [List.map_cons, List.map_nil, List.mem_singleton] at hb
        exact h (by rw [← hb, ← hab]; exact ha) }

/-- Adds returns at a height, one after the other, and counts those that were not known. -/
def put (ledger : Ledger) (height : UInt64) : List StakeReturn → Ledger × Nat
  | [] => (ledger, 0)
  | r :: rest =>
    let (after, count) := (ledger.add height r).put height rest
    (after, if ledger.knows height r.hash then count else count + 1)

/-- Why a height cannot be read. -/
inductive Missing where
  | noReturns (height : UInt64)
  deriving DecidableEq

/-- The text of a refusal. -/
def Missing.message : Missing → String
  | .noReturns height => "No stake returns at height " ++ Numeral.ofNat height.toNat

/-- The returns that are due at a height, of which there has to be one. -/
def get (ledger : Ledger) (height : UInt64) : Except Missing (List StakeReturn) :=
  match ledger.due height with
  | [] => .error (.noReturns height)
  | returns => .ok returns

/-- Notes that the pools have been searched. -/
def mark (ledger : Ledger) : Ledger := { ledger with backfilled := true }

/-! ### Views -/

@[simp] theorem due_empty (height : UInt64) : empty.due height = [] := rfl

@[simp] theorem due_mark (ledger : Ledger) (height : UInt64) :
    ledger.mark.due height = ledger.due height := rfl

theorem knows_iff {ledger : Ledger} {height : UInt64} {hash : Hash} :
    ledger.knows height hash = true ↔ ∃ r ∈ ledger.due height, r.hash = hash := by
  simp only [knows, List.contains_eq_mem, List.mem_map, decide_eq_true_eq, Ledger.due,
    List.mem_filter]
  grind

theorem due_add_self (ledger : Ledger) (height : UInt64) (r : StakeReturn) :
    (ledger.add height r).due height =
      if ledger.knows height r.hash then ledger.due height else ledger.due height ++ [r] := by
  unfold add
  split <;> simp [Ledger.due, List.filter_append]

theorem due_add_of_ne {ledger : Ledger} {height other : UInt64} (r : StakeReturn)
    (h : height ≠ other) : (ledger.add height r).due other = ledger.due other := by
  unfold add
  split
  · rfl
  · simp [Ledger.due, List.filter_append, h]

/-- Returns put at one height leave the other heights alone. -/
theorem due_put_of_ne {height other : UInt64} (h : height ≠ other) (returns : List StakeReturn)
    (ledger : Ledger) : (ledger.put height returns).1.due other = ledger.due other := by
  induction returns generalizing ledger with
  | nil => rfl
  | cons r rest ih => exact (ih (ledger.add height r)).trans (due_add_of_ne r h)

/-- What is put at a height only ever follows what is there. -/
theorem prefix_due_put (height : UInt64) (returns : List StakeReturn) (ledger : Ledger) :
    ledger.due height <+: (ledger.put height returns).1.due height := by
  induction returns generalizing ledger with
  | nil => exact List.prefix_rfl
  | cons r rest ih =>
    have h : ledger.due height <+: (ledger.add height r).due height := by
      rw [due_add_self]
      split
      · exact List.prefix_rfl
      · exact List.prefix_append _ _
    exact h.trans (ih (ledger.add height r))

/-- The number that is told is by how much the list at the height has grown. -/
theorem length_due_put (height : UInt64) (returns : List StakeReturn) (ledger : Ledger) :
    ((ledger.put height returns).1.due height).length =
      (ledger.due height).length + (ledger.put height returns).2 := by
  induction returns generalizing ledger with
  | nil => rfl
  | cons r rest ih =>
    have h := ih (ledger.add height r)
    rw [due_add_self] at h
    simp only [put]
    split at h <;> rename_i known
    · rw [if_pos known, h]
    · rw [if_neg known, h, List.length_append, List.length_singleton]
      omega

@[simp] theorem backfilled_add (ledger : Ledger) (height : UInt64) (r : StakeReturn) :
    (ledger.add height r).backfilled = ledger.backfilled := by
  unfold add
  split <;> rfl

end Ledger

end RosettaGateway
