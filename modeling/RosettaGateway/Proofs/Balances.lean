import Mathlib
import RosettaGateway.Proofs.Layout

/-!
# Operations add up to what a transaction moves

The operations of an account in one coin have a sum (`Operation.net`). For two kinds of transactions
it is not a matter of one operation for each amount:

* a send shows its fee twice, once taken off what the first input spends and once as an operation of
  its own, and the account that pays it may be the one of other inputs or of outputs;
* a contract call in a block shows changes of balances, of which there may be many for one account,
  some of zero and some in tokens that are neither of the two coins.

`Tx.net_describe` says that the sum is what one expects: for a send, what the account receives less
what it spends; for a call, all its changes less the price of the gas.
-/

namespace RosettaGateway

/-! ### Sums -/

/-- What a leg moves on an account in a coin. -/
def Leg.share (a : Address) (d : Denom) (leg : Leg) : Int :=
  if leg.account = a ∧ leg.coin = d then leg.value else 0

/-- What some legs together move on an account in a coin. -/
def Leg.net (a : Address) (d : Denom) (legs : List Leg) : Int := (legs.map (share a d)).sum

/-- What an operation moves on an account in a coin. An operation that cannot be read moves nothing.
-/
def Operation.share (a : Address) (d : Denom) (op : Operation) : Int :=
  match op.posting with
  | .ok p => if p.account = a ∧ p.coin = d then p.value else 0
  | .error _ => 0

/-- What some operations together move on an account in a coin. -/
def Operation.net (a : Address) (d : Denom) (ops : List Operation) : Int :=
  (ops.map (share a d)).sum

section Sums

variable (a : Address) (d : Denom)

@[simp] theorem Leg.net_nil : net a d [] = 0 := rfl

@[simp] theorem Leg.net_cons (leg : Leg) (legs : List Leg) :
    net a d (leg :: legs) = leg.share a d + net a d legs := by
  rw [net, net, List.map_cons, List.sum_cons]

@[simp] theorem Leg.net_append (legs others : List Leg) :
    net a d (legs ++ others) = net a d legs + net a d others := by
  rw [net, net, net, List.map_append, List.sum_append]

/-- When each item has legs of the account and the coin or none that count, the legs of all items
add up to the items that have. -/
theorem Leg.net_flatMap {α : Type} {legs : α → List Leg} {p : α → Prop} [DecidablePred p]
    {moved : α → Int} (h_item : ∀ item, net a d (legs item) = if p item then moved item else 0)
    (items : List α) : net a d (items.flatMap legs) = ((items.filter p).map moved).sum := by
  have h_each : net a d (items.flatMap legs) =
      (items.map fun item => if p item then moved item else 0).sum := by
    induction items with
    | nil => rfl
    | cons item items ih =>
      rw [List.flatMap_cons, net_append, ih, h_item, List.map_cons, List.sum_cons]
  rw [h_each, List.sum_map_ite, List.map_const', List.sum_replicate, smul_zero, add_zero]

/-- An operation that shows a leg moves what the leg says. -/
theorem Operation.Shows.share_eq {op : Operation} {leg : Leg} (h_shows : op.Shows leg) :
    op.share a d = leg.share a d := by
  rw [share, h_shows.posting_eq]
  rfl

/-- Operations move what the legs say that they were made of. -/
theorem Operation.net_ofLegs (status : Option String) (legs : List Leg) :
    net a d (ofLegs status legs) = Leg.net a d legs := by
  have h_shows := forall₂_ofLegs status legs
  generalize ofLegs status legs = ops at h_shows
  induction h_shows with
  | nil => rfl
  | cons h_op _ ih =>
    rw [Leg.net_cons, ← ih, net, List.map_cons, List.sum_cons, h_op.share_eq]
    rfl

end Sums

/-- The operations of a description can be read. -/
theorem Tx.exists_posting_of_describe (tx : Tx) (context : TxContext) :
    ∀ op ∈ (tx.describe context).operations, ∃ p, op.posting = .ok p := by
  intro op h_mem
  obtain ⟨i, h_op⟩ := List.mem_iff_getElem?.mp h_mem
  obtain ⟨leg, -, h_shows⟩ := Operation.exists_shows_of_ofLegs h_op
  exact ⟨_, h_shows.posting_eq⟩

namespace Tx

variable (a : Address) (d : Denom)

/-! ### Sends -/

/-- What an account spends in a coin. -/
def spent (inputs : List Input) : Int :=
  ((inputs.filter fun i => i.address = a).map fun i => (i.coins.get d : Int)).sum

/-- What an account receives in a coin. -/
def received (outputs : List Output) : Int :=
  ((outputs.filter fun o => o.address = a).map fun o => (o.coins.get d : Int)).sum

theorem spent_cons (i : Input) (inputs : List Input) :
    spent a d (i :: inputs) =
      (if i.address = a then (i.coins.get d : Int) else 0) + spent a d inputs := by
  by_cases h_account : i.address = a
  · simp [spent, h_account]
  · simp [spent, h_account]

/-- The fee, as far as it is one of an account in a coin. -/
def feeShare (payer : Address) (fee : Nat) : Int := if payer = a ∧ d = .tfuel then fee else 0

theorem share_feeLeg (payer : Address) (fee : Coins) (metadata : Option Metadata) :
    (feeLeg payer fee metadata).share a d = -feeShare a d payer fee.tfuel := by
  unfold Leg.share feeShare
  by_cases h_account : payer = a
  · cases d <;> simp [feeLeg, h_account]
  · simp [feeLeg, h_account]

/-- Both legs of an input add up to what it spends, without the part that is shown elsewhere. -/
theorem Send.net_inputPair (i : Input) (apart : Nat) :
    Leg.net a d (inputPair i apart) =
      -(if i.address = a then (i.coins.get d : Int) else 0) + feeShare a d i.address apart := by
  by_cases h_account : i.address = a
  · cases d <;> simp [inputPair, Leg.share, thetaLeg, tfuelLeg, feeShare, Coins.get, h_account]
    ring
  · cases d <;> simp [inputPair, Leg.share, thetaLeg, tfuelLeg, feeShare, h_account]

theorem Send.net_inputs (inputs : List Input) :
    Leg.net a d (inputs.flatMap (inputPair · 0)) = -spent a d inputs := by
  have h_pair : ∀ i : Input, Leg.net a d (inputPair i 0) =
      if i.address = a then -(i.coins.get d : Int) else 0 := by
    intro i
    have h_none : feeShare a d i.address 0 = 0 := by simp [feeShare]
    rw [net_inputPair, h_none, add_zero, neg_ite, neg_zero]
  rw [Leg.net_flatMap a d h_pair, spent, List.sum_neg, List.map_map]
  rfl

theorem Send.net_outputs (outputs : List Output) :
    Leg.net a d (outputs.flatMap outputPair) = received a d outputs := by
  refine Leg.net_flatMap a d (fun o => ?_) outputs
  by_cases h_account : o.address = a
  · cases d <;> simp [outputPair, Leg.share, thetaLeg, tfuelLeg, Coins.get, h_account]
  · cases d <;> simp [outputPair, Leg.share, thetaLeg, tfuelLeg, h_account]

/-- **The legs of a send** add up to what is received less what is spent. The fee is taken off what
the first input shows as spent, and paid by a leg of its own. -/
theorem Send.net_legs (body : Send) :
    Leg.net a d body.legs = received a d body.outputs - spent a d body.inputs := by
  obtain ⟨fee, inputs, outputs⟩ := body
  cases inputs with
  | nil =>
    show Leg.net a d (outputs.flatMap outputPair) = received a d outputs - 0
    rw [net_outputs, sub_zero]
  | cons payer others =>
    -- Only the first input shows less than it spends, and the leg of the fee makes up for it.
    show Leg.net a d (inputPair payer fee.tfuel ++ others.flatMap (inputPair · 0) ++
      outputs.flatMap outputPair ++ [feeLeg payer.address fee none]) = _
    rw [Leg.net_append, Leg.net_append, Leg.net_append, net_inputPair, net_inputs, net_outputs,
      Leg.net_cons, Leg.net_nil, share_feeLeg, spent_cons]
    ring

end Tx

/-! ### Contract calls -/

/-- The number of the token that a coin is. -/
def Denom.token : Denom → UInt64
  | .theta => 0
  | .tfuel => 1

namespace BalanceChange

/-- By how much a balance grew. -/
def growth (c : BalanceChange) : Int := if c.isNegative then -(c.delta : Int) else c.delta

theorem coin?_eq_some_iff {c : BalanceChange} {d : Denom} :
    c.coin? = some d ↔ c.token = d.token := by
  unfold coin?
  cases d <;> simp only [Denom.token] <;> grind

end BalanceChange

namespace Tx

variable (a : Address) (d : Denom)

/-- What an account got of a coin by some changes of balances. -/
def grown (changes : List BalanceChange) : Int :=
  ((changes.filter fun c => c.address = a ∧ c.token = d.token).map BalanceChange.growth).sum

/-- A change has a leg of the account and the coin when it is a change of them, and no leg if it is
none. -/
theorem SmartContract.net_changeLeg (c : BalanceChange) :
    Leg.net a d (changeLeg? c).toList =
      if c.address = a ∧ c.token = d.token then c.growth else 0 := by
  unfold changeLeg?
  cases h_coin : c.coin? with
  | none =>
    -- A change in another token has no leg, and does not count as one of the coin.
    have h_other : ¬ (c.address = a ∧ c.token = d.token) := by
      rintro ⟨-, h_token⟩
      rw [BalanceChange.coin?_eq_some_iff.mpr h_token] at h_coin
      cases h_coin
    exact (if_neg h_other).symm
  | some d' =>
    have h_same : d' = d ↔ c.token = d.token := by
      rw [← BalanceChange.coin?_eq_some_iff, h_coin, Option.some.injEq]
    simp only [← h_same]
    by_cases h_zero : c.delta = 0
    · simp [h_zero, BalanceChange.growth]
    · simp only [h_zero, if_false, Option.toList_some, Leg.net_cons, Leg.net_nil, add_zero]
      rfl

theorem SmartContract.net_changes (changes : List BalanceChange) :
    Leg.net a d (changes.filterMap changeLeg?) = grown a d changes := by
  rw [List.filterMap_eq_flatMap_toList]
  exact Leg.net_flatMap a d (net_changeLeg a d) changes

/-- **The legs of a call in a block** add up to the changes of balances less the price of the gas.
-/
theorem SmartContract.net_effectLegs (body : SmartContract) (changes : List BalanceChange)
    (gasUsed : UInt64) :
    Leg.net a d (body.effectLegs changes gasUsed) = grown a d changes -
      feeShare a d body.sender.address (body.gasPrice * gasUsed.toNat) := by
  rw [effectLegs, Leg.net_append, net_changes, sub_eq_add_neg]
  congr 1
  split
  · next h_none =>
    rw [h_none]
    simp [feeShare]
  · rw [Leg.net_cons, Leg.net_nil, add_zero]
    exact share_feeLeg a d body.sender.address (.ofTfuel (body.gasPrice * gasUsed.toNat)) none

/-! ### Operations -/

/-- **The operations of a transaction add up.** For every account and coin, those of a send come to
what the account receives less what it spends; so the payer of the fee, who spends it, pays it once.
Those of a contract call in a block come to the changes of balances that the block tells for the
account and the token of the coin, less the price of the gas for the one who calls. And there is no
operation, of any transaction, that cannot be read. -/
theorem net_describe (a : Address) (d : Denom) :
    (∀ (body : Send) (context : TxContext),
      Operation.net a d ((Tx.send body).describe context).operations =
        received a d body.outputs - spent a d body.inputs) ∧
    (∀ (body : SmartContract) (context : TxContext) (changes : List BalanceChange),
      Operation.net a d
          ((Tx.smartContract body).describe { context with changes := some changes }).operations =
        grown a d changes - (if a = body.sender.address ∧ d = .tfuel then
          ((body.gasPrice * context.gasUsed.toNat : Nat) : Int) else 0)) ∧
    ∀ (tx : Tx) (context : TxContext), ∀ op ∈ (tx.describe context).operations,
      ∃ p, op.posting = .ok p := by
  refine ⟨fun body context => ?_, fun body context changes => ?_, exists_posting_of_describe⟩
  · exact (Operation.net_ofLegs a d _ _).trans (Send.net_legs a d body)
  · refine ((Operation.net_ofLegs a d _ _).trans
      (SmartContract.net_effectLegs a d body changes context.gasUsed)).trans ?_
    simp only [feeShare, eq_comm (a := a)]

end Tx

end RosettaGateway
