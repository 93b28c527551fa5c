import Mathlib.Data.List.Nodup
import Mathlib.Data.List.TakeWhile
import RosettaGateway.Proofs.Construction.Intent

/-!
# What a cursor has read

A layout that shows legs is read (`Proofs/Layout`). This module has the converse: when a cursor gets
from one place to another, the operations in between move what was read from them, and there is no
operation that it has passed over.

`Cursor.Reads` relates two places of a cursor to the legs in between, one operation for each leg.
The legs of a party may come in either order of the coins (`Leg.Reordered`), and a coin may have a
leg of zero or none (`Leg.nonzero`). So what is read is given by other legs than those that were
there, and `Cursor.Yields` is `Cursor.Reads` up to these two. Each step of a cursor has a statement
that ends with one or the other:

* `Cursor.reads_of_one`, `Cursor.reads_of_fee` — a single leg;
* `Cursor.reads_of_pairs` — legs in pairs;
* `Cursor.yields_of_party` — the legs of a party.
-/

namespace RosettaGateway

open Operation (Moves)

/-! ### Legs in another order -/

namespace Leg

/-- The same legs in almost the same order: where the first list has a leg in TFUEL right in front
of a leg in THETA of the same party, the second one may have the leg in THETA first. -/
inductive Reordered : List Leg → List Leg → Prop
  | nil : Reordered [] []
  | cons (leg : Leg) {legs legs' : List Leg} (h_rest : Reordered legs legs') :
    Reordered (leg :: legs) (leg :: legs')
  | swap {tfuel theta : Leg} {legs legs' : List Leg} (h_type : tfuel.type = theta.type)
    (h_account : tfuel.account = theta.account) (h_tfuel : tfuel.coin = .tfuel)
    (h_theta : theta.coin = .theta) (h_rest : Reordered legs legs') :
    Reordered (tfuel :: theta :: legs) (theta :: tfuel :: legs')

namespace Reordered

variable {legs legs' others others' : List Leg}

theorem refl (legs : List Leg) : Reordered legs legs := by
  induction legs with
  | nil => exact .nil
  | cons leg _ ih => exact .cons leg ih

theorem append (h_legs : Reordered legs legs') (h_others : Reordered others others') :
    Reordered (legs ++ others) (legs' ++ others') := by
  induction h_legs with
  | nil => exact h_others
  | cons leg _ ih => exact .cons leg ih
  | swap h_type h_account h_tfuel h_theta _ ih => exact .swap h_type h_account h_tfuel h_theta ih

/-- No leg is lost and none is added. -/
theorem perm (h_legs : Reordered legs legs') : legs.Perm legs' := by
  induction h_legs with
  | nil => exact .nil
  | cons leg _ ih => exact ih.cons leg
  | swap _ _ _ _ _ ih => exact ((ih.cons _).cons _).trans (.swap _ _ _)

theorem map_bare (h_legs : Reordered legs legs') :
    Reordered (legs.map bare) (legs'.map bare) := by
  induction h_legs with
  | nil => exact .nil
  | cons leg _ ih => exact .cons leg.bare ih
  | swap h_type h_account h_tfuel h_theta _ ih => exact .swap h_type h_account h_tfuel h_theta ih

end Reordered

/-- The legs that move something. -/
def nonzero (legs : List Leg) : List Leg := legs.filter fun leg => leg.value ≠ 0

theorem nonzero_append (legs others : List Leg) :
    nonzero (legs ++ others) = nonzero legs ++ nonzero others := List.filter_append ..

theorem nonzero_map_bare (legs : List Leg) : nonzero (legs.map bare) = (nonzero legs).map bare :=
  List.filter_map

end Leg

/-! ### Legs of a party -/

section Party

open Tx (shareLeg partyLegs)

/-- A list that has no coin twice is in the order of the coins, or it is both coins the other way
round. -/
theorem Denom.eq_of_nodup {ds : List Denom} (h_nodup : ds.Nodup) :
    ds = all.filter (fun d => d ∈ ds) ∨ ds = [.tfuel, .theta] := by
  match ds with
  | [] => exact Or.inl rfl
  | [d] => cases d <;> decide
  | [d, d'] => cases d <;> cases d' <;> simp_all [all]
  | d :: d' :: d'' :: _ => cases d <;> cases d' <;> cases d'' <;> simp at h_nodup

variable (type : OperationType) (account : Address) (coins : Coins) (outgoing : Bool)

theorem Tx.value_shareLeg_ne_zero (d : Denom) :
    (shareLeg type account coins outgoing none d).value ≠ 0 ↔ coins.get d ≠ 0 := by
  show (if outgoing then -(coins.get d : Int) else coins.get d) ≠ 0 ↔ _
  split <;> omega

/-- The legs of a party that move something are those of the coins it has any of. -/
theorem Leg.nonzero_shares (ds : List Denom) :
    nonzero (ds.map (shareLeg type account coins outgoing none)) =
      (ds.filter fun d => coins.get d ≠ 0).map (shareLeg type account coins outgoing none) := by
  rw [nonzero, List.filter_map]
  refine congrArg _ (List.filter_congr fun d _ => ?_)
  exact decide_eq_decide.mpr (Tx.value_shareLeg_ne_zero type account coins outgoing d)

/-- All legs of a party move something. -/
theorem Leg.nonzero_partyLegs :
    nonzero (partyLegs type account coins outgoing none) =
      partyLegs type account coins outgoing none := by
  have h_shown : partyLegs type account coins outgoing none =
      nonzero (Denom.all.map (shareLeg type account coins outgoing none)) :=
    (nonzero_shares type account coins outgoing Denom.all).symm
  rw [h_shown, nonzero, nonzero, List.filter_filter]
  simp only [Bool.and_self]

/-- Legs of a party, whatever their order, are the legs of the coins that it has any of. -/
theorem Leg.reordered_partyLegs {ds : List Denom} (h_nodup : ds.Nodup)
    (h_zero : ∀ d, d ∉ ds → coins.get d = 0) :
    Reordered (nonzero (ds.map (shareLeg type account coins outgoing none)))
      (partyLegs type account coins outgoing none) := by
  have h_nonzero : Denom.all.filter (fun d => coins.get d ≠ 0) =
      Denom.all.filter fun d => d ∈ ds.filter fun d => coins.get d ≠ 0 := by
    refine List.filter_congr fun d _ => decide_eq_decide.mpr ?_
    rw [List.mem_filter, decide_eq_true_iff]
    exact ⟨fun h_some => ⟨by_contra fun h_out => h_some (h_zero d h_out), h_some⟩, And.right⟩
  show Reordered _ ((Denom.all.filter fun d => coins.get d ≠ 0).map
    (shareLeg type account coins outgoing none))
  rw [nonzero_shares, h_nonzero]
  -- Either the coins are in their order, and so are the legs, or both are the other way round.
  rcases Denom.eq_of_nodup (List.Nodup.filter (fun d => decide (coins.get d ≠ 0)) h_nodup) with
    h_same | h_other
  · rw [← h_same]
    exact .refl _
  · rw [h_other]
    exact .swap rfl rfl rfl rfl .nil

end Party

/-! ### Places of a cursor -/

/-- What has been read from an operation of a type, as a leg. -/
def Posting.leg (type : OperationType) (p : Posting) : Leg :=
  { type, account := p.account, value := p.value, coin := p.coin }

/-- An operation moves what is read from it. -/
theorem Operation.moves_of_posting {op : Operation} {type : OperationType} {p : Posting}
    (h_type : op.type = type.name) (h_posting : op.posting = .ok p) : op.Moves (p.leg type) := by
  obtain ⟨-, -, -, rfl⟩ := posting_eq_ok_iff.mp h_posting
  exact ⟨h_type, h_posting, rfl⟩

namespace Cursor

variable {before between after : Cursor} {type : OperationType}

/-- From one place of a cursor to another there is one operation for each of the legs, which it
moves. -/
inductive Reads : Cursor → List Leg → Cursor → Prop
  | done (cursor : Cursor) : Reads cursor [] cursor
  | step {k : Tx.Kind} {position : Nat} {op : Operation} {rest : List Operation} {leg : Leg}
    {legs : List Leg} {after : Cursor} (h_op : op.Moves leg)
    (h_rest : Reads ⟨k, position + 1, rest⟩ legs after) :
    Reads ⟨k, position, op :: rest⟩ (leg :: legs) after

namespace Reads

variable {legs others : List Leg}

theorem append (h_first : Reads before legs between) (h_second : Reads between others after) :
    Reads before (legs ++ others) after := by
  induction h_first with
  | done => exact h_second
  | step h_op _ ih => exact .step h_op (ih h_second)

/-- The position counts the operations that have been read, and the kind stays. -/
theorem place_eq (h_reads : Reads before legs after) :
    after.kind = before.kind ∧ after.position = before.position + legs.length := by
  induction h_reads with
  | done => exact ⟨rfl, rfl⟩
  | @step k position op rest leg legs after _ _ ih =>
    refine ⟨ih.1, ?_⟩
    show after.position = position + (legs.length + 1)
    rw [ih.2, Nat.add_right_comm]
    rfl

/-- When nothing is left over, every operation has been read. -/
theorem forall₂ (h_reads : Reads before legs after) (h_rest : after.rest = []) :
    List.Forall₂ Moves before.rest legs := by
  induction h_reads with
  | done =>
    rw [h_rest]
    exact .nil
  | step h_op _ ih => exact .cons h_op (ih h_rest)

/-- Operations that move some legs are read. -/
theorem of_forall₂ {ops : List Operation} (h_ops : List.Forall₂ Moves ops legs) (k : Tx.Kind)
    (position : Nat) (rest : List Operation) :
    Reads ⟨k, position, ops ++ rest⟩ legs ⟨k, position + ops.length, rest⟩ := by
  induction h_ops generalizing position with
  | nil => exact .done _
  | @cons op leg ops legs h_op _ ih =>
    have h_rest := ih (position + 1)
    rw [Nat.add_right_comm] at h_rest
    exact .step h_op h_rest

end Reads

/-- From one place of a cursor to another the operations move what the legs move, but for legs of
zero and for the order of the coins of a party. -/
def Yields (before : Cursor) (legs : List Leg) (after : Cursor) : Prop :=
  ∃ moved, Reads before moved after ∧ Leg.Reordered (Leg.nonzero moved) (Leg.nonzero legs)

variable {legs others : List Leg}

theorem Reads.yields (h_reads : Reads before legs after) : Yields before legs after :=
  ⟨legs, h_reads, .refl _⟩

theorem Yields.append (h_first : Yields before legs between)
    (h_second : Yields between others after) : Yields before (legs ++ others) after := by
  obtain ⟨moved, h_reads, h_moved⟩ := h_first
  obtain ⟨moved', h_reads', h_moved'⟩ := h_second
  refine ⟨moved ++ moved', h_reads.append h_reads', ?_⟩
  rw [Leg.nonzero_append, Leg.nonzero_append]
  exact h_moved.append h_moved'

/-! ### Single legs -/

theorem reads_of_one {leg : Posting} (h_one : before.one type = .ok (leg, after)) :
    Reads before [leg.leg type] after := by
  obtain ⟨k, position, ops⟩ := before
  unfold one at h_one
  split at h_one
  · cases h_one
  · next op rest h_rest =>
    obtain rfl : ops = op :: rest := h_rest
    split at h_one
    · next h_type =>
      obtain ⟨p, h_posting, h_done⟩ := Outcome.bind_eq_ok_iff.mp h_one
      obtain ⟨rfl, rfl⟩ := Prod.mk.inj (Outcome.pure_eq_ok_iff.mp h_done)
      exact .step (Operation.moves_of_posting h_type h_posting) (.done _)
    · cases h_one

end Cursor

namespace Posting

variable {k : Tx.Kind} {leg : Posting} {n : Nat}

theorem value_of_debit (h_debit : leg.debit k = .ok n) : leg.value = -(n : Int) := by
  unfold debit at h_debit
  split at h_debit
  · cases h_debit
    omega
  · cases h_debit

theorem value_of_credit (h_credit : leg.credit k = .ok n) : leg.value = n := by
  unfold credit at h_credit
  split at h_credit
  · cases h_credit
    omega
  · cases h_credit

theorem value_of_amount {outgoing : Bool} (h_amount : leg.amount k outgoing = .ok n) :
    leg.value = if outgoing then -(n : Int) else n := by
  cases outgoing with
  | true => exact value_of_debit h_amount
  | false => exact value_of_credit h_amount

theorem coin_of_requireCoin {coin : Denom} {u : Unit} (h_coin : leg.requireCoin k coin = .ok u) :
    leg.coin = coin := by
  unfold requireCoin at h_coin
  split at h_coin
  · next h_same => exact h_same
  · cases h_coin

theorem leg_eq_thetaLeg {type : OperationType} {account : Address} {value : Int}
    (h_account : leg.account = account) (h_coin : leg.coin = .theta) (h_value : leg.value = value) :
    leg.leg type = Tx.thetaLeg type account value := by
  rw [Posting.leg, h_account, h_coin, h_value]
  rfl

theorem leg_eq_tfuelLeg {type : OperationType} {account : Address} {value : Int}
    (h_account : leg.account = account) (h_coin : leg.coin = .tfuel) (h_value : leg.value = value) :
    leg.leg type = Tx.tfuelLeg type account value := by
  rw [Posting.leg, h_account, h_coin, h_value]
  rfl

theorem account_of_requireAccount {account : Address} {u : Unit}
    (h_account : leg.requireAccount k account = .ok u) : leg.account = account := by
  unfold requireAccount at h_account
  split at h_account
  · next h_same => exact h_same
  · cases h_account

end Posting

namespace Cursor

open Tx (feeLeg)

variable {before after : Cursor} {type : OperationType}

/-- A fee that is read is paid by the account that has to pay it. -/
theorem reads_of_fee {payer : Option Address} {fee : FeeLeg}
    (h_fee : before.fee payer = .ok (fee, after)) :
    Reads before [feeLeg fee.payer (.ofTfuel fee.amount) none] after ∧
      ∀ a ∈ payer, fee.payer = a := by
  rw [Cursor.fee, Outcome.bind_eq_ok_iff] at h_fee
  obtain ⟨⟨leg, next⟩, h_one, h_fee⟩ := h_fee
  obtain ⟨_, h_coin, h_fee⟩ := Outcome.bind_eq_ok_iff.mp h_fee
  -- Whether the payer is given decides if the account is checked; what is read is the same.
  obtain ⟨h_payer, amount, h_amount, h_done⟩ : (∀ a ∈ payer, leg.account = a) ∧
      ∃ amount, leg.debit next.kind = .ok amount ∧
        (⟨leg.account, amount, leg.source⟩, next) = (fee, after) := by
    cases payer with
    | none =>
      obtain ⟨_, -, h_fee⟩ := Outcome.bind_eq_ok_iff.mp h_fee
      obtain ⟨amount, h_amount, h_done⟩ := Outcome.bind_eq_ok_iff.mp h_fee
      refine ⟨?_, amount, h_amount, (Outcome.pure_eq_ok_iff.mp h_done).symm⟩
      rintro _ ⟨⟩
    | some a =>
      obtain ⟨_, h_account, h_fee⟩ := Outcome.bind_eq_ok_iff.mp h_fee
      obtain ⟨amount, h_amount, h_done⟩ := Outcome.bind_eq_ok_iff.mp h_fee
      refine ⟨?_, amount, h_amount, (Outcome.pure_eq_ok_iff.mp h_done).symm⟩
      rintro _ ⟨⟩
      exact Posting.account_of_requireAccount h_account
  obtain ⟨rfl, rfl⟩ := Prod.mk.inj h_done
  have h_leg : leg.leg .fee = feeLeg leg.account (.ofTfuel amount) none :=
    Posting.leg_eq_tfuelLeg rfl (Posting.coin_of_requireCoin h_coin)
      (Posting.value_of_debit h_amount)
  exact ⟨h_leg ▸ reads_of_one h_one, h_payer⟩

/-! ### Runs -/

/-- A run is read when each of its operations is. -/
theorem reads_skipRun {legs : List Leg} (h_run : List.Forall₂ Moves (before.run type) legs) :
    Reads before legs (before.skipRun type) := by
  obtain ⟨k, position, rest⟩ := before
  have h_reads := Reads.of_forall₂ h_run k position (rest.dropWhile fun op => op.type == type.name)
  rw [run, List.takeWhile_append_dropWhile] at h_reads
  exact h_reads

theorem type_of_mem_run {op : Operation} (h_mem : op ∈ before.run type) : op.type = type.name :=
  eq_of_beq (List.mem_takeWhile_imp (p := fun op : Operation => op.type == type.name) h_mem)

end Cursor

/-! ### Parties -/

namespace Party

open Tx (shareLeg)

variable {k : Tx.Kind} {type : OperationType} {outgoing : Bool} {party result : Party}

/-- A party has been made of some legs. -/
structure MadeOf (party : Party) (type : OperationType) (outgoing : Bool) (legs : List Leg) :
    Prop where
  legs_eq : legs =
    party.seen.reverse.map (shareLeg type party.account party.coins outgoing none)
  nodup : party.seen.Nodup
  get_eq_zero : ∀ d, d ∉ party.seen → party.coins.get d = 0

/-- A leg that is added to a party is in a coin that the party did not have. -/
theorem madeOf_add {legs : List Leg} (h_made : party.MadeOf type outgoing legs) {leg : Posting}
    (h_add : party.add k type outgoing leg = .ok result) :
    result.MadeOf type outgoing (legs ++ [leg.leg type]) := by
  rw [add, Outcome.bind_eq_ok_iff] at h_add
  obtain ⟨_, h_account, h_add⟩ := h_add
  split at h_add
  · cases h_add
  next h_new =>
  obtain ⟨amount, h_amount, h_done⟩ := Outcome.bind_eq_ok_iff.mp h_add
  obtain rfl := Outcome.pure_eq_ok_iff.mp h_done
  obtain ⟨rfl, h_nodup, h_zero⟩ := h_made
  refine ⟨?_, List.nodup_cons.mpr ⟨h_new, h_nodup⟩, fun d h_out => ?_⟩
  · rw [List.reverse_cons, List.map_append]
    congr 1
    · -- The coins that were there before have the amounts they had.
      refine List.map_congr_left fun d h_mem => ?_
      have h_ne : leg.coin ≠ d := fun h_same => h_new (h_same ▸ List.mem_reverse.mp h_mem)
      simp only [shareLeg, Coins.get_set_of_ne party.coins h_ne]
    · simp only [List.map_cons, List.map_nil, shareLeg, Posting.leg, Coins.get_set,
        Posting.account_of_requireAccount h_account, Posting.value_of_amount h_amount]
  · rw [List.mem_cons, not_or] at h_out
    rw [Coins.get_set_of_ne party.coins (Ne.symm h_out.1)]
    exact h_zero d h_out.2

/-- A run of legs that is added to a party is part of what the party is made of. -/
theorem madeOf_foldlM {ops : List Operation} (h_type : ∀ op ∈ ops, op.type = type.name)
    {legs : List Leg} (h_made : party.MadeOf type outgoing legs)
    (h_fold : ops.foldlM (addOperation k type outgoing) party = .ok result) :
    ∃ added, List.Forall₂ Moves ops added ∧ result.MadeOf type outgoing (legs ++ added) := by
  -- The party that is made so far is the accumulator of the fold, so it changes with each step.
  induction ops generalizing party legs with
  | nil =>
    cases h_fold
    exact ⟨[], .nil, by rwa [List.append_nil]⟩
  | cons op ops ih =>
    rw [List.foldlM_cons, Outcome.bind_eq_ok_iff] at h_fold
    obtain ⟨next, h_add, h_fold⟩ := h_fold
    obtain ⟨leg, h_posting, h_add⟩ := Outcome.bind_eq_ok_iff.mp h_add
    have h_op : op.Moves (leg.leg type) :=
      Operation.moves_of_posting (h_type op List.mem_cons_self) h_posting
    obtain ⟨added, h_ops, h_result⟩ := ih (fun op h_mem => h_type op (List.mem_cons_of_mem _ h_mem))
      (madeOf_add h_made h_add) h_fold
    exact ⟨leg.leg type :: added, .cons h_op h_ops, by rwa [List.append_cons]⟩

/-- What a party is made of, whatever the order, are its legs. -/
theorem MadeOf.reordered {legs : List Leg} (h_made : party.MadeOf type outgoing legs) :
    Leg.Reordered (Leg.nonzero legs)
      (Tx.partyLegs type party.account party.coins outgoing none) := by
  rw [h_made.legs_eq]
  refine Leg.reordered_partyLegs type party.account party.coins outgoing
    (List.nodup_reverse.mpr h_made.nodup) fun d h_out => ?_
  exact h_made.get_eq_zero d (mt List.mem_reverse.mpr h_out)

end Party

namespace Cursor

open Tx (partyLegs)

variable {before after : Cursor} {type : OperationType}

/-- **A party that is read** has the legs that were read, but for their order and for legs of zero.
It is missing when there was no leg; then it has no coins, whatever its account. -/
theorem yields_of_party {outgoing : Bool} {party : Option Party} {account : Address}
    (h_party : before.party type outgoing = .ok (party, after))
    (h_account : ∀ a ∈ party.map Party.account, account = a) :
    Yields before
      (partyLegs type account ((party.map Party.coins).getD {}) outgoing none) after := by
  obtain ⟨party', h_run, h_done⟩ := Outcome.bind_eq_ok_iff.mp h_party
  obtain ⟨rfl, rfl⟩ := Prod.mk.inj (Outcome.pure_eq_ok_iff.mp h_done)
  have h_type : ∀ op ∈ before.run type, op.type = type.name := fun op => type_of_mem_run
  cases h_ops : before.run type with
  | nil =>
    rw [h_ops] at h_run
    cases h_run
    exact (reads_skipRun (h_ops ▸ .nil)).yields
  | cons op others =>
    rw [h_ops] at h_run h_type
    obtain ⟨leg, h_posting, -⟩ := Outcome.bind_eq_ok_iff.mp h_run
    -- The first leg gives the account, and is then added like all the others.
    rw [Party.ofRun_cons h_posting] at h_run
    obtain ⟨p, h_fold, rfl⟩ := Outcome.map_eq_ok_iff.mp h_run
    have h_empty : Party.MadeOf ⟨leg.account, op, {}, []⟩ type outgoing [] :=
      ⟨rfl, List.nodup_nil, fun d _ => by cases d <;> rfl⟩
    obtain ⟨legs, h_legs, h_made⟩ := Party.madeOf_foldlM h_type h_empty h_fold
    refine ⟨legs, reads_skipRun (h_ops ▸ h_legs), ?_⟩
    rw [h_account p.account rfl, Leg.nonzero_partyLegs]
    exact h_made.reordered

/-! ### Pairs -/

section Pairs

variable {α : Type} {k : Tx.Kind} {next : Option String}
  {read : Nat → Posting → Posting → Except TxError α} {position : Nat} {ops : List Operation}

/-- The first pair of a run, and the run behind it. -/
theorem pairsOf_eq_ok_cons {a : α} {items : List α}
    (h_pairs : pairsOf k type next read position ops = .ok (a :: items)) :
    ∃ op op' rest theta tfuel, ops = op :: op' :: rest ∧ op.posting = .ok theta ∧
      op'.posting = .ok tfuel ∧ theta.coin = .theta ∧ tfuel.coin = .tfuel ∧
      tfuel.account = theta.account ∧ read position theta tfuel = .ok a ∧
      pairsOf k type next read (position + 2) rest = .ok items := by
  unfold pairsOf at h_pairs
  split at h_pairs
  · cases h_pairs
  · simp only [Outcome.bind_eq_ok_iff] at h_pairs
    obtain ⟨_, -, _, -, h_never⟩ := h_pairs
    cases h_never
  · next op op' rest =>
    simp only [Outcome.bind_eq_ok_iff, Outcome.pure_eq_ok_iff] at h_pairs
    obtain ⟨theta, h_theta, _, h_coin, tfuel, h_tfuel, _, h_coin', _, h_account, a', h_read, items',
      h_rest, h_cons⟩ := h_pairs
    obtain ⟨rfl, rfl⟩ := List.cons.inj h_cons
    exact ⟨op, op', rest, theta, tfuel, rfl, h_theta, h_tfuel,
      Posting.coin_of_requireCoin h_coin, Posting.coin_of_requireCoin h_coin',
      Posting.account_of_requireAccount h_account, h_read, h_rest⟩

theorem pairsOf_eq_ok_nil (h_pairs : pairsOf k type next read position ops = .ok []) :
    ops = [] := by
  unfold pairsOf at h_pairs
  split at h_pairs
  · rfl
  · simp only [Outcome.bind_eq_ok_iff] at h_pairs
    obtain ⟨_, -, _, -, h_never⟩ := h_pairs
    cases h_never
  · simp only [Outcome.bind_eq_ok_iff, Outcome.pure_eq_ok_iff] at h_pairs
    obtain ⟨_, -, _, -, _, -, _, -, _, -, _, -, _, -, h_cons⟩ := h_pairs
    cases h_cons

/-- The legs in a run of pairs are those of the items, if each item has the legs of its pair. -/
theorem forall₂_of_pairsOf {shown : α → List Leg} {items : List α}
    (h_type : ∀ op ∈ ops, op.type = type.name)
    (h_shown : ∀ p theta tfuel a, position ≤ p → theta.coin = .theta → tfuel.coin = .tfuel →
      tfuel.account = theta.account → read p theta tfuel = .ok a →
      [theta.leg type, tfuel.leg type] = shown a)
    (h_pairs : pairsOf k type next read position ops = .ok items) :
    List.Forall₂ Moves ops (items.flatMap shown) := by
  -- A run is read two operations at a time, so the induction is on the items and not on the run.
  induction items generalizing ops position with
  | nil =>
    rw [pairsOf_eq_ok_nil h_pairs]
    exact .nil
  | cons a items ih =>
    obtain ⟨op, op', rest, theta, tfuel, rfl, h_theta, h_tfuel, h_coin, h_coin', h_account, h_read,
      h_rest⟩ := pairsOf_eq_ok_cons h_pairs
    have h_others := ih (fun op h_mem => h_type op (by simp [h_mem]))
      (fun p theta tfuel a h_le => h_shown p theta tfuel a (by omega)) h_rest
    rw [List.flatMap_cons,
      ← h_shown position theta tfuel a (Nat.le_refl _) h_coin h_coin' h_account h_read]
    exact .cons (Operation.moves_of_posting (h_type op (by simp)) h_theta)
      (.cons (Operation.moves_of_posting (h_type op' (by simp)) h_tfuel) h_others)

/-- **Pairs of legs that are read** are those of the items that are read. -/
theorem reads_of_pairs {shown : α → List Leg} {items : List α}
    (h_shown : ∀ p theta tfuel a, before.position ≤ p → theta.coin = .theta → tfuel.coin = .tfuel →
      tfuel.account = theta.account → read p theta tfuel = .ok a →
      [theta.leg type, tfuel.leg type] = shown a)
    (h_pairs : before.pairs type read = .ok (items, after)) :
    Reads before (items.flatMap shown) after := by
  obtain ⟨items', h_run, h_done⟩ := Outcome.bind_eq_ok_iff.mp h_pairs
  obtain ⟨rfl, rfl⟩ := Prod.mk.inj (Outcome.pure_eq_ok_iff.mp h_done)
  exact reads_skipRun (forall₂_of_pairsOf (fun op => type_of_mem_run) h_shown h_run)

end Pairs

/-! ### The end -/

theorem rest_eq_nil_of_finish {cursor : Cursor} {u : Unit} (h_finish : cursor.finish = .ok u) :
    cursor.rest = [] := by
  unfold finish at h_finish
  split at h_finish
  · next h_nil => exact h_nil
  · cases h_finish

end Cursor

/-- A transaction that is built has been read, and nothing is left over. -/
theorem Tx.readLayout_of_ofOperations {k : Kind} {ops : List Operation} {m : Metadata} {tx : Tx}
    (h_build : ofOperations k ops m = .ok tx) :
    ∃ last, readLayout m (.start k ops) = .ok (tx, last) ∧ last.rest = [] := by
  obtain ⟨⟨tx', last⟩, h_read, h_build⟩ := Outcome.bind_eq_ok_iff.mp h_build
  obtain ⟨_, h_finish, h_done⟩ := Outcome.bind_eq_ok_iff.mp h_build
  obtain rfl := Outcome.pure_eq_ok_iff.mp h_done
  exact ⟨last, h_read, Cursor.rest_eq_nil_of_finish h_finish⟩

end RosettaGateway
