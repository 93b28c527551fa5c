import Mathlib.Data.List.Forall2
import RosettaGateway.Operation.ToTx
import RosettaGateway.Operation.OfTx
import RosettaGateway.Proofs.Text

/-!
# Layouts are read back

An operation shows a leg (`Operation.Shows`) when its texts mean what the leg says. The operations
made of a list of legs show them one by one (`Operation.forall₂_ofLegs`), and this is all that the
readers of a layout need to know: number, relation and status of an operation do not matter to them.

For each step of a `Cursor` there is one statement about operations that show the right legs:

* `Cursor.one_of_shows`, `Cursor.fee_of_shows` — a single leg;
* `Cursor.party_of_shows` — the legs of a party, of whatever coins, if it has nothing of the others;
* `Cursor.pairsOf_of_shows` — legs in pairs.

Where a run of legs ends is decided by the type of the operation behind it, so types have to have
different names (`OperationType.name_injective`).
-/

namespace RosettaGateway

/-! ### Types -/

namespace OperationType

theorem ofName?_name (t : OperationType) : ofName? t.name = some t := by
  cases t <;> decide

/-- Types have different names. -/
theorem name_injective {t t' : OperationType} (h_name : t.name = t'.name) : t = t' := by
  have h_read := ofName?_name t
  rw [h_name, ofName?_name t'] at h_read
  exact (Option.some.inj h_read).symm

end OperationType

theorem Denom.ofCurrency?_currency (d : Denom) : Denom.ofCurrency? d.currency = some d := by
  cases d <;> decide

/-! ### Operations that show legs -/

/-- What is read from an operation that shows a leg. -/
def Leg.posting (leg : Leg) (op : Operation) : Posting := ⟨op, leg.account, leg.coin, leg.value⟩

/-- The texts of an operation mean what a leg says. -/
structure Operation.Shows (op : Operation) (leg : Leg) : Prop where
  type_eq : op.type = leg.type.name
  posting_eq : op.posting = .ok (leg.posting op)
  metadata_eq : op.metadata = leg.metadata

/-- The operation of a leg shows it. -/
theorem Leg.operation_shows (leg : Leg) (status : Option String) (index : Nat) :
    (leg.operation status index).Shows leg where
  type_eq := rfl
  metadata_eq := rfl
  posting_eq := by
    have h_address : (leg.operation status index).address = .ok leg.account := by
      simp only [Operation.address, operation, AccountIdentifier.ofAddress, Address.ofText?_toText]
    have h_coin : (leg.operation status index).coin = .ok leg.coin := by
      simp only [Operation.coin, operation, Amount.ofInt, Denom.ofCurrency?_currency]
    have h_value : (leg.operation status index).value = .ok leg.value := by
      simp only [Operation.value, operation, Amount.ofInt, Numeral.integer?_ofInt]
    rw [Operation.posting, h_address, h_coin, h_value]
    rfl

namespace Operation

/-- Operations show the legs they were made of. -/
theorem forall₂_ofLegs (status : Option String) (legs : List Leg) :
    List.Forall₂ Shows (ofLegs status legs) legs := by
  rw [List.forall₂_iff_get]
  refine ⟨List.length_mapIdx, fun i _ _ => ?_⟩
  simp only [ofLegs, List.get_eq_getElem, List.getElem_mapIdx]
  exact Leg.operation_shows _ status i

/-- The operation at a place shows the leg there. -/
theorem exists_shows_of_ofLegs {status : Option String} {legs : List Leg} {i : Nat}
    {op : Operation} (h_op : (ofLegs status legs)[i]? = some op) :
    ∃ leg, legs[i]? = some leg ∧ op.Shows leg := by
  rw [ofLegs, List.getElem?_mapIdx] at h_op
  obtain ⟨leg, h_leg, rfl⟩ := Option.map_eq_some_iff.mp h_op
  exact ⟨leg, h_leg, leg.operation_shows status i⟩

theorem posting_eq_ok_iff {op : Operation} {p : Posting} :
    op.posting = .ok p ↔
      op.address = .ok p.account ∧ op.coin = .ok p.coin ∧ op.value = .ok p.value ∧
        p.source = op := by
  unfold posting
  cases op.address with
  | error e => simp
  | ok account =>
    cases op.coin with
    | error e => simp
    | ok coin =>
      cases op.value with
      | error e => simp
      | ok value =>
        simp only [Except.ok.injEq]
        constructor
        · rintro rfl
          exact ⟨rfl, rfl, rfl, rfl⟩
        · rintro ⟨rfl, rfl, rfl, rfl⟩
          rfl

/-- What is read from an operation that shows a leg is what the leg says. -/
theorem Shows.reads {op : Operation} {leg : Leg} (h_shows : op.Shows leg) :
    op.type = leg.type.name ∧ op.address = .ok leg.account ∧ op.coin = .ok leg.coin ∧
      op.value = .ok leg.value := by
  obtain ⟨h_account, h_coin, h_value, -⟩ := posting_eq_ok_iff.mp h_shows.posting_eq
  exact ⟨h_shows.type_eq, h_account, h_coin, h_value⟩

/-- Operations that show the legs of two lists are those of one and then those of the other. -/
theorem exists_append_of_shows {ops : List Operation} {legs others : List Leg}
    (h_shows : List.Forall₂ Shows ops (legs ++ others)) :
    ∃ before after, ops = before ++ after ∧ List.Forall₂ Shows before legs ∧
      List.Forall₂ Shows after others :=
  ⟨ops.take legs.length, ops.drop legs.length, (List.take_append_drop _ _).symm,
    List.forall₂_take_append ops legs others h_shows,
    List.forall₂_drop_append ops legs others h_shows⟩

theorem exists_of_shows_singleton {ops : List Operation} {leg : Leg}
    (h_shows : List.Forall₂ Shows ops [leg]) : ∃ op, ops = [op] ∧ op.Shows leg := by
  cases h_shows with
  | cons h_op h_rest =>
    cases h_rest
    exact ⟨_, rfl, h_op⟩

end Operation

/-! ### Single legs -/

namespace Posting

theorem debit_of_value {k : Tx.Kind} {leg : Posting} {n : Nat} (h_value : leg.value = -(n : Int)) :
    leg.debit k = .ok n := by
  rw [debit, if_pos (by omega), h_value]
  congr 1
  omega

theorem credit_of_value {k : Tx.Kind} {leg : Posting} {n : Nat} (h_value : leg.value = n) :
    leg.credit k = .ok n := by
  rw [credit, if_pos (by omega), h_value]
  rfl

theorem requireCoin_of_eq {k : Tx.Kind} {leg : Posting} {coin : Denom} (h_coin : leg.coin = coin) :
    leg.requireCoin k coin = .ok () := if_pos h_coin

theorem requireAccount_of_eq {k : Tx.Kind} {leg : Posting} {account : Address}
    (h_account : leg.account = account) : leg.requireAccount k account = .ok () := if_pos h_account

section Read

variable (k : Tx.Kind) (op : Operation) (account : Address) (coin : Denom)

@[simp] theorem debit_mk (n : Nat) :
    debit k ⟨op, account, coin, -(n : Int)⟩ = .ok n := debit_of_value rfl

@[simp] theorem credit_mk (n : Nat) : credit k ⟨op, account, coin, n⟩ = .ok n := credit_of_value rfl

@[simp] theorem requireCoin_mk (value : Int) :
    requireCoin k ⟨op, account, coin, value⟩ coin = .ok () := requireCoin_of_eq rfl

end Read

end Posting

namespace Cursor

/-- A leg of the right type is read. -/
theorem one_of_shows {op : Operation} {leg : Leg} (h_shows : op.Shows leg) (k : Tx.Kind)
    (position : Nat) (rest : List Operation) :
    one ⟨k, position, op :: rest⟩ leg.type = .ok (leg.posting op, ⟨k, position + 1, rest⟩) := by
  simp only [one, if_pos h_shows.type_eq, h_shows.posting_eq, bind, Except.bind, pure, Except.pure]

/-- A fee is read, by whomever it has to be paid. -/
theorem fee_of_shows {op : Operation} {payer : Address} {fee : Coins} {metadata : Option Metadata}
    (h_shows : op.Shows (Tx.feeLeg payer fee metadata)) (k : Tx.Kind) (position : Nat)
    (rest : List Operation) (account : Option Address) (h_payer : ∀ a ∈ account, payer = a) :
    Cursor.fee ⟨k, position, op :: rest⟩ account =
      .ok (⟨payer, fee.tfuel, op⟩, ⟨k, position + 1, rest⟩) := by
  have h_one := one_of_shows h_shows k position rest
  have h_coin : ((Tx.feeLeg payer fee metadata).posting op).requireCoin k .tfuel = .ok () :=
    Posting.requireCoin_of_eq rfl
  have h_amount : ((Tx.feeLeg payer fee metadata).posting op).debit k = .ok fee.tfuel :=
    Posting.debit_of_value rfl
  rw [Cursor.fee, show OperationType.fee = (Tx.feeLeg payer fee metadata).type from rfl, h_one]
  -- Whose fee it is counts only when an account is given.
  cases account with
  | none =>
    simp only [bind, Except.bind, pure, Except.pure, h_coin, h_amount]
    rfl
  | some a =>
    have h_account : ((Tx.feeLeg payer fee metadata).posting op).requireAccount k a = .ok () :=
      Posting.requireAccount_of_eq (h_payer a rfl)
    simp only [bind, Except.bind, pure, Except.pure, h_coin, h_amount, h_account]
    rfl

/-! ### Runs -/

/-- Operations of a type, with an operation of another type behind them or none. -/
structure IsRun (type : OperationType) (ops rest : List Operation) : Prop where
  type_eq : ∀ op ∈ ops, op.type = type.name
  ends : ∀ op ∈ rest.head?, op.type ≠ type.name

/-- Operations that show legs of a type are a run, if those behind them show legs of other types. -/
theorem isRun_of_shows {type : OperationType} {ops rest : List Operation} {legs others : List Leg}
    (h_ops : List.Forall₂ Operation.Shows ops legs) (h_type : ∀ leg ∈ legs, leg.type = type)
    (h_rest : List.Forall₂ Operation.Shows rest others)
    (h_ends : ∀ leg ∈ others, leg.type ≠ type) : IsRun type ops rest where
  type_eq op h_mem := by
    obtain ⟨i, h_lt, h_get⟩ := List.getElem_of_mem h_mem
    obtain ⟨h_length, h_each⟩ := List.forall₂_iff_get.mp h_ops
    have h_shows := h_each i h_lt (h_length ▸ h_lt)
    rw [← h_get, show ops[i] = ops.get ⟨i, h_lt⟩ from rfl, h_shows.type_eq,
      h_type _ (List.get_mem _ _)]
  ends op h_head h_name := by
    cases h_rest with
    | nil => cases h_head
    | cons h_op =>
      cases h_head
      -- Only the names of types are compared, and different types have different names.
      have h_same := OperationType.name_injective (h_op.type_eq.symm.trans h_name)
      exact h_ends _ List.mem_cons_self h_same

/-- Operations that show one leg of a type for each item are a run. -/
theorem isRun_of_shows_map {β : Type} {type : OperationType} {ops rest : List Operation}
    {leg : β → Leg} {items : List β} {others : List Leg}
    (h_ops : List.Forall₂ Operation.Shows ops (items.map leg)) (h_type : ∀ b, (leg b).type = type)
    (h_rest : List.Forall₂ Operation.Shows rest others)
    (h_ends : ∀ leg ∈ others, leg.type ≠ type) : IsRun type ops rest := by
  refine isRun_of_shows h_ops ?_ h_rest h_ends
  intro shown h_mem
  obtain ⟨b, -, rfl⟩ := List.mem_map.mp h_mem
  exact h_type b

section Runs

variable {type : OperationType} {ops rest : List Operation}

theorem takeWhile_rest (h_ends : ∀ op ∈ rest.head?, op.type ≠ type.name) :
    rest.takeWhile (fun op => op.type == type.name) = [] ∧
      rest.dropWhile (fun op => op.type == type.name) = rest := by
  cases rest with
  | nil => exact ⟨rfl, rfl⟩
  | cons op tail =>
    have h_other : (op.type == type.name) = false := beq_eq_false_iff_ne.mpr (h_ends op rfl)
    rw [List.takeWhile_cons, List.dropWhile_cons, h_other]
    exact ⟨rfl, rfl⟩

/-- A run is what the cursor takes for one. -/
theorem run_of_isRun (h_run : IsRun type ops rest) (k : Tx.Kind) (position : Nat) :
    run ⟨k, position, ops ++ rest⟩ type = ops := by
  have h_all : ∀ op ∈ ops, (op.type == type.name) = true := fun op h_mem =>
    beq_iff_eq.mpr (h_run.type_eq op h_mem)
  rw [run, List.takeWhile_append_of_pos h_all, (takeWhile_rest h_run.ends).1, List.append_nil]

/-- Behind a run is what follows it. -/
theorem skipRun_of_isRun (h_run : IsRun type ops rest) (k : Tx.Kind) (position : Nat) :
    skipRun ⟨k, position, ops ++ rest⟩ type = ⟨k, position + ops.length, rest⟩ := by
  have h_all : ∀ op ∈ ops, (op.type == type.name) = true := fun op h_mem =>
    beq_iff_eq.mpr (h_run.type_eq op h_mem)
  rw [skipRun, run_of_isRun h_run, List.dropWhile_append_of_pos h_all,
    (takeWhile_rest h_run.ends).2]

end Runs

end Cursor

/-! ### Parties -/

/-- Coins are equal if they are equal in each coin. -/
theorem Coins.ext_get {c c' : Coins} (h_get : ∀ d, c.get d = c'.get d) : c = c' := by
  cases c
  cases c'
  exact congrArg₂ Coins.mk (h_get .theta) (h_get .tfuel)

theorem Coins.get_set_eq_ite (c : Coins) (d other : Denom) (n : Nat) :
    (c.set d n).get other = if d = other then n else c.get other := by
  split
  · next h_eq => rw [h_eq, Coins.get_set]
  · next h_ne => rw [Coins.get_set_of_ne c h_ne]

/-- The leg of a party in one coin. -/
def Tx.shareLeg (type : OperationType) (account : Address) (coins : Coins) (outgoing : Bool)
    (metadata : Option Metadata) (d : Denom) : Leg :=
  { type, account, coin := d, metadata,
    value := if outgoing then -(coins.get d : Int) else coins.get d }

section Party

variable {type : OperationType} {account : Address} {coins : Coins} {outgoing : Bool}
  {metadata : Option Metadata}

open Tx (shareLeg)

theorem amount_shareLeg (k : Tx.Kind) (d : Denom) (op : Operation) :
    ((shareLeg type account coins outgoing metadata d).posting op).amount k outgoing =
      .ok (coins.get d) := by
  cases outgoing with
  | true =>
    rw [Posting.amount, if_pos rfl]
    exact Posting.debit_of_value rfl
  | false =>
    rw [Posting.amount, if_neg Bool.false_ne_true]
    exact Posting.credit_of_value rfl

/-- A leg in a coin that the party has not shown yet is added to it. -/
theorem Party.add_shareLeg (k : Tx.Kind) (party : Party) (h_account : party.account = account)
    {d : Denom} (h_new : d ∉ party.seen) (op : Operation) :
    party.add k type outgoing ((shareLeg type account coins outgoing metadata d).posting op) =
      .ok { party with coins := party.coins.set d (coins.get d), seen := d :: party.seen } := by
  have h_same : ((shareLeg type account coins outgoing metadata d).posting op).requireAccount k
      party.account = .ok () := Posting.requireAccount_of_eq h_account.symm
  have h_coin : ((shareLeg type account coins outgoing metadata d).posting op).coin = d := rfl
  simp only [Party.add, h_same, h_coin, if_neg h_new, amount_shareLeg, bind, Except.bind, pure,
    Except.pure]

/-- Reads an operation and adds it to a party. -/
def Party.addOperation (k : Tx.Kind) (type : OperationType) (outgoing : Bool) (party : Party)
    (op : Operation) : Except TxError Party := do
  let leg ← op.posting
  party.add k type outgoing leg

/-- Legs in different coins are added one after the other. -/
theorem Party.foldlM_addOperation (k : Tx.Kind) {ds : List Denom} (h_nodup : ds.Nodup)
    {ops : List Operation}
    (h_shows : List.Forall₂ Operation.Shows ops
      (ds.map (shareLeg type account coins outgoing metadata)))
    (party : Party) (h_account : party.account = account) (h_new : ∀ d ∈ ds, d ∉ party.seen) :
    ∃ result : Party, ops.foldlM (Party.addOperation k type outgoing) party = .ok result ∧
      result.account = account ∧ result.first = party.first ∧
      ∀ d, result.coins.get d = if d ∈ ds then coins.get d else party.coins.get d := by
  induction ds generalizing ops party with
  | nil =>
    cases h_shows
    exact ⟨party, rfl, h_account, rfl, fun d => (if_neg List.not_mem_nil).symm⟩
  | cons d ds ih =>
    cases h_shows with
    | @cons op _ ops _ h_op h_ops =>
      rw [List.nodup_cons] at h_nodup
      have h_add : party.add k type outgoing
          ((shareLeg type account coins outgoing metadata d).posting op) =
            .ok { party with
              coins := party.coins.set d (coins.get d), seen := d :: party.seen } :=
        Party.add_shareLeg k party h_account (h_new d List.mem_cons_self) op
      -- The coin of this leg is seen from now on, and the legs behind it are in other coins.
      obtain ⟨result, h_fold, h_acc, h_first, h_coins⟩ := ih h_nodup.2 h_ops
        { party with coins := party.coins.set d (coins.get d), seen := d :: party.seen } h_account
        (fun d' h_mem => by
          rw [List.mem_cons, not_or]
          exact ⟨fun h_eq => h_nodup.1 (h_eq ▸ h_mem), h_new d' (List.mem_cons_of_mem _ h_mem)⟩)
      refine ⟨result, ?_, h_acc, h_first, fun d' => ?_⟩
      · rw [List.foldlM_cons, Party.addOperation, h_op.posting_eq]
        simp only [bind, Except.bind, h_add]
        exact h_fold
      · rw [h_coins d', Coins.get_set_eq_ite]
        grind

/-- A run of legs is added to a party that has the account of the first leg and no coins yet. -/
theorem Party.ofRun_cons {k : Tx.Kind} {op : Operation} {leg : Posting}
    (h_posting : op.posting = .ok leg) (others : List Operation) :
    Party.ofRun k type outgoing (op :: others) =
      ((op :: others).foldlM (Party.addOperation k type outgoing)
        ⟨leg.account, op, {}, []⟩).map some := by
  rw [Party.ofRun, List.foldlM_cons, Party.addOperation, h_posting]
  simp only [bind, Except.bind, pure, Except.pure]
  cases Party.add k type outgoing ⟨leg.account, op, {}, []⟩ leg with
  | error e => rfl
  | ok party => rfl

/-- **The legs of a party are read back**, with the metadata of the first one. A coin without a leg
is one the party has nothing of. -/
theorem Cursor.party_of_shows (k : Tx.Kind) (position : Nat) {ds : List Denom} (h_some : ds ≠ [])
    (h_nodup : ds.Nodup) (h_zero : ∀ d, d ∉ ds → coins.get d = 0) {ops rest : List Operation}
    (h_shows : List.Forall₂ Operation.Shows ops
      (ds.map (shareLeg type account coins outgoing metadata)))
    (h_run : IsRun type ops rest) :
    ∃ op seen, Cursor.party ⟨k, position, ops ++ rest⟩ type outgoing =
        .ok (some ⟨account, op, coins, seen⟩, ⟨k, position + ops.length, rest⟩) ∧
      op.metadata = metadata := by
  obtain ⟨d, ds, rfl⟩ := List.exists_cons_of_ne_nil h_some
  obtain ⟨op, ops, h_op, -, rfl⟩ := List.forall₂_cons_right_iff.mp h_shows
  obtain ⟨result, h_fold, h_account, h_first, h_coins⟩ :=
    Party.foldlM_addOperation k h_nodup h_shows ⟨account, op, {}, []⟩ rfl
      (fun _ _ => List.not_mem_nil)
  have h_same : result.coins = coins := by
    refine Coins.ext_get fun d' => ?_
    rw [h_coins d']
    split
    · rfl
    · next h_out =>
      -- A coin without a leg is left as it was at the start, which is zero.
      rw [h_zero d' h_out]
      cases d' <;> rfl
  have h_result : result = ⟨account, op, coins, result.seen⟩ := by
    rw [← h_account, ← h_same, ← show result.first = op from h_first]
  have h_party : Party.ofRun k type outgoing (op :: ops) = .ok (some result) := by
    rw [Party.ofRun_cons h_op.posting_eq]
    exact congrArg (Except.map some) h_fold
  refine ⟨op, result.seen, ?_, h_op.metadata_eq⟩
  rw [Cursor.party, run_of_isRun h_run, skipRun_of_isRun h_run, h_party, ← h_result]
  rfl

/-- A party without a leg is not there. -/
theorem Cursor.party_of_ends (k : Tx.Kind) (position : Nat) {rest : List Operation}
    (h_ends : ∀ op ∈ rest.head?, op.type ≠ type.name) :
    Cursor.party ⟨k, position, rest⟩ type outgoing = .ok (none, ⟨k, position, rest⟩) := by
  have h_run : IsRun type [] rest := ⟨fun _ h_mem => absurd h_mem List.not_mem_nil, h_ends⟩
  have h_take := run_of_isRun h_run k position
  have h_skip := skipRun_of_isRun h_run k position
  rw [List.nil_append] at h_take h_skip
  rw [Cursor.party, h_take, h_skip]
  rfl

/-- **A party is read back**, with the metadata of its first leg; it is missing if it has no coins.
-/
theorem Cursor.party_of_partyLegs (k : Tx.Kind) (position : Nat) {ops rest : List Operation}
    (h_shows : List.Forall₂ Operation.Shows ops
      (Tx.partyLegs type account coins outgoing metadata))
    (h_run : IsRun type ops rest) :
    ∃ party : Option Party, Cursor.party ⟨k, position, ops ++ rest⟩ type outgoing =
        .ok (party, ⟨k, position + ops.length, rest⟩) ∧
      (party = none ∧ ops = [] ∧ coins = {} ∨
        ∃ op seen, party = some ⟨account, op, coins, seen⟩ ∧ op.metadata = metadata) := by
  have h_zero : ∀ d, d ∉ Denom.all.filter (fun d => coins.get d ≠ 0) → coins.get d = 0 := by
    intro d h_out
    by_contra h_some
    refine h_out (List.mem_filter.mpr ⟨?_, decide_eq_true h_some⟩)
    cases d <;> decide
  have h_nodup : (Denom.all.filter (fun d => coins.get d ≠ 0)).Nodup :=
    List.filter_sublist.nodup (by decide)
  unfold Tx.partyLegs at h_shows
  cases h_shown : Denom.all.filter (fun d => coins.get d ≠ 0) with
  | nil =>
    rw [h_shown] at h_shows h_zero
    cases h_shows
    -- There is no leg, and so there are no coins.
    refine ⟨none, Cursor.party_of_ends k position h_run.ends, Or.inl ⟨rfl, rfl, ?_⟩⟩
    exact Coins.ext_get fun d => (h_zero d List.not_mem_nil).trans (by cases d <;> rfl)
  | cons d ds =>
    rw [h_shown] at h_shows h_zero h_nodup
    obtain ⟨op, seen, h_party, h_first⟩ :=
      Cursor.party_of_shows k position (List.cons_ne_nil d ds) h_nodup h_zero h_shows h_run
    exact ⟨_, h_party, Or.inr ⟨op, seen, rfl, h_first⟩⟩

end Party

/-! ### Pairs -/

section Pairs

open Tx (thetaLeg tfuelLeg)

variable {α β : Type} {type : OperationType} {account : β → Address} {theta tfuel : β → Int}
  {metadata : β → Option Metadata}

/-- A pair of legs is read, and then those behind it. -/
theorem Cursor.pairsOf_cons {k : Tx.Kind} {next : Option String}
    {read : Nat → Posting → Posting → Except TxError α} {position : Nat} {op op' : Operation}
    {ops : List Operation} {payer : Address} {x y : Int} {entries : Option Metadata} {a : α}
    {as : List α} (h_op : op.Shows (thetaLeg type payer x entries))
    (h_op' : op'.Shows (tfuelLeg type payer y entries))
    (h_pair : read position ((thetaLeg type payer x entries).posting op)
      ((tfuelLeg type payer y entries).posting op') = .ok a)
    (h_rest : pairsOf k type next read (position + 2) ops = .ok as) :
    pairsOf k type next read position (op :: op' :: ops) = .ok (a :: as) := by
  have h_theta : ((thetaLeg type payer x entries).posting op).requireCoin k .theta = .ok () :=
    Posting.requireCoin_of_eq rfl
  have h_tfuel : ((tfuelLeg type payer y entries).posting op').requireCoin k .tfuel = .ok () :=
    Posting.requireCoin_of_eq rfl
  have h_account : ((tfuelLeg type payer y entries).posting op').requireAccount k
      ((thetaLeg type payer x entries).posting op).account = .ok () :=
    Posting.requireAccount_of_eq rfl
  rw [pairsOf, h_op.posting_eq, h_op'.posting_eq]
  simp only [bind, Except.bind, pure, Except.pure, h_theta, h_tfuel, h_account, h_pair, h_rest]

/-- Pairs of legs are read one after the other, if each pair can be read wherever it stands. -/
theorem Cursor.pairsOf_of_shows {k : Tx.Kind} {next : Option String}
    {read : Nat → Posting → Posting → Except TxError α} {result : β → α} {items : List β}
    {ops : List Operation} (position : Nat)
    (h_shows : List.Forall₂ Operation.Shows ops (items.flatMap fun b =>
      [thetaLeg type (account b) (theta b) (metadata b),
        tfuelLeg type (account b) (tfuel b) (metadata b)]))
    (h_read : ∀ b p op op', position ≤ p →
      op.Shows (thetaLeg type (account b) (theta b) (metadata b)) →
      op'.Shows (tfuelLeg type (account b) (tfuel b) (metadata b)) →
      read p ((thetaLeg type (account b) (theta b) (metadata b)).posting op)
        ((tfuelLeg type (account b) (tfuel b) (metadata b)).posting op') = .ok (result b)) :
    pairsOf k type next read position ops = .ok (items.map result) := by
  induction items generalizing ops position with
  | nil =>
    cases h_shows
    rfl
  | cons b rest ih =>
    cases h_shows with
    | cons h_op h_ops =>
      cases h_ops with
      | cons h_op' h_ops =>
        -- What can be read from `position` on can be read from behind this pair on.
        have h_rest := ih (position + 2) h_ops fun b' p op op' h_le =>
          h_read b' p op op' (by omega)
        exact pairsOf_cons h_op h_op' (h_read b position _ _ (Nat.le_refl _) h_op h_op') h_rest

/-- **Pairs of legs are read back.** -/
theorem Cursor.pairs_of_isRun {k : Tx.Kind} {position : Nat} {ops rest : List Operation}
    {read : Nat → Posting → Posting → Except TxError α} {items : List α}
    (h_run : IsRun type ops rest)
    (h_items : ∀ next, pairsOf k type next read position ops = .ok items) :
    Cursor.pairs ⟨k, position, ops ++ rest⟩ type read =
      .ok (items, ⟨k, position + ops.length, rest⟩) := by
  rw [Cursor.pairs, run_of_isRun h_run, skipRun_of_isRun h_run]
  simp only [h_items, bind, Except.bind, pure, Except.pure]

end Pairs

end RosettaGateway
