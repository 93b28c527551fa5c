import RosettaGateway.Proofs.Assembly
import RosettaGateway.Proofs.Keccak
import RosettaGateway.Proofs.Stake.Schedule
import RosettaGateway.Proofs.Text

/-!
# Identifiers are not shared

Transactions are published under identifiers of four sorts: the hash of a transaction, the digest of
a text about a withdrawal, the hash of a withdrawal once more for the return of its stake, and the
digest of a text about a place in a pool. All four meet in the same answers.

The texts are told apart by what stands behind their last underscore, which is a hash for
withdrawals and a number for places; so they are all different
(`StakeReturn.withdrawalText_injective`, `StakeReturn.snapshotText_injective`,
`StakeReturn.withdrawalText_ne_snapshotText`). What is known of digests is just that those of the
texts in question differ from each other and from the hashes of the chain (`Answers.TellsApart`).

* `Source` — what an identifier stands for, with the height that it is published at;
* `Source.eq_of_hash` — an identifier stands for one thing;
* `Ledger.Traced` — the invariant of a run: each record of the ledger has a source, and all places
  are those of one search of the pools;
* `Turn.identifiers_apart` — what this comes to for the answers of a run.
-/

namespace RosettaGateway

/-! ### Texts -/

theorem Numeral.ofNat_injective : Function.Injective Numeral.ofNat := by
  intro n n' h_eq
  have h_read := Numeral.unsigned?_ofNat n
  rw [h_eq, Numeral.unsigned?_ofNat] at h_read
  exact (Option.some.inj h_read).symm

/-- No digit of a number is an underscore. -/
theorem Numeral.underscore_not_mem (n : Nat) : '_' ∉ (Numeral.ofNat n).toList := by
  intro h_mem
  rw [Numeral.toList_ofNat] at h_mem
  exact absurd (Numeral.isDigit_of_mem_toDigits n _ h_mem) (by decide)

theorem Hex.underscore_not_mem_digits (bytes : Octets) : '_' ∉ Hex.digits bytes := by
  have h_digit : ∀ n ∈ List.range 16, '_' ≠ Hex.digit n := by decide
  induction bytes with
  | nil => exact nofun
  | cons b rest ih =>
    have h_byte : b.toNat < 256 := b.toNat_lt
    rw [Hex.digits, List.mem_cons, List.mem_cons, not_or, not_or]
    exact ⟨h_digit _ (List.mem_range.mpr (by omega)), h_digit _ (List.mem_range.mpr (by omega)), ih⟩

namespace Hash

/-- Hashes differ if their first bytes do. -/
theorem ne_of_head? {h h' : Hash} {b b' : UInt8} (h_head : h.bytes.head? = some b)
    (h_head' : h'.bytes.head? = some b') (h_ne : b ≠ b') : h ≠ h' := by
  rintro rfl
  exact h_ne (Option.some.inj (h_head.symm.trans h_head'))

theorem toList_toText (h : Hash) : h.toText.toList = '0' :: 'x' :: Hex.digits h.bytes := by
  rw [toText, Hex.marked, String.toList_ofList]

theorem underscore_not_mem (h : Hash) : '_' ∉ h.toText.toList := by
  rw [toList_toText, List.mem_cons, List.mem_cons, not_or, not_or]
  exact ⟨by decide, by decide, Hex.underscore_not_mem_digits h.bytes⟩

theorem length_toText (h : Hash) : h.toText.toList.length = 66 := by
  rw [toList_toText, List.length_cons, List.length_cons, Hex.length_digits, h.length_eq]

theorem toText_injective : Function.Injective toText := by
  intro h h' h_eq
  have h_read := ofText?_toText h
  rw [h_eq, ofText?_toText] at h_read
  exact (Option.some.inj h_read).symm

end Hash

namespace StakeReturn

/-- Texts that agree are cut at their first underscore in the same way. -/
theorem eq_of_first_underscore {xs ys xs' ys' : List Char} (h_xs : '_' ∉ xs) (h_xs' : '_' ∉ xs')
    (h_eq : xs ++ '_' :: ys = xs' ++ '_' :: ys') : xs = xs' ∧ ys = ys' := by
  induction xs generalizing xs' with
  | nil =>
    cases xs' with
    | nil => exact ⟨rfl, (List.cons.inj h_eq).2⟩
    | cons c rest => exact absurd ((List.cons.inj h_eq).1 ▸ List.mem_cons_self) h_xs'
  | cons c rest ih =>
    rw [List.mem_cons, not_or] at h_xs
    cases xs' with
    | nil => exact absurd (List.cons.inj h_eq).1.symm h_xs.1
    | cons c' rest' =>
      rw [List.mem_cons, not_or] at h_xs'
      obtain ⟨rfl, h_rest⟩ := List.cons.inj h_eq
      obtain ⟨rfl, rfl⟩ := ih h_xs.2 h_xs'.2 h_rest
      exact ⟨rfl, rfl⟩

/-- Texts that agree are cut at their last underscore in the same way. -/
theorem eq_of_last_underscore {xs ys xs' ys' : List Char} (h_ys : '_' ∉ ys) (h_ys' : '_' ∉ ys')
    (h_eq : xs ++ '_' :: ys = xs' ++ '_' :: ys') : xs = xs' ∧ ys = ys' := by
  have h_reverse : ys.reverse ++ '_' :: xs.reverse = ys'.reverse ++ '_' :: xs'.reverse := by
    have h := congrArg List.reverse h_eq
    simpa using h
  obtain ⟨h_behind, h_front⟩ :=
    eq_of_first_underscore (by simpa using h_ys) (by simpa using h_ys') h_reverse
  exact ⟨List.reverse_injective h_front, List.reverse_injective h_behind⟩

theorem toList_withdrawalText (hash : Hash) :
    (withdrawalText hash).toList = "stake_withdraw".toList ++ '_' :: hash.toText.toList := by
  rw [withdrawalText, String.toList_append]
  rfl

theorem toList_snapshotText (pool : String) (block : Hash) (place : Nat) :
    (snapshotText pool block place).toList =
      (pool.toList ++ "_stake_return_".toList ++ block.toText.toList) ++
        '_' :: (Numeral.ofNat place).toList := by
  rw [snapshotText, String.toList_append, String.toList_append, String.toList_append,
    String.toList_append, List.append_assoc]
  rfl

/-- The texts of withdrawals differ. -/
theorem withdrawalText_injective : Function.Injective withdrawalText := by
  intro hash hash' h_eq
  have h_list := congrArg String.toList h_eq
  rw [toList_withdrawalText, toList_withdrawalText] at h_list
  obtain ⟨-, h_text⟩ :=
    eq_of_last_underscore hash.underscore_not_mem hash'.underscore_not_mem h_list
  exact Hash.toText_injective (String.toList_injective h_text)

/-- The texts of places differ, whatever the names of the pools may be. -/
theorem snapshotText_injective {pool pool' : String} {block block' : Hash} {place place' : Nat}
    (h_eq : snapshotText pool block place = snapshotText pool' block' place') :
    pool = pool' ∧ block = block' ∧ place = place' := by
  have h_list := congrArg String.toList h_eq
  rw [toList_snapshotText, toList_snapshotText] at h_list
  obtain ⟨h_front, h_place⟩ := eq_of_last_underscore (Numeral.underscore_not_mem place)
    (Numeral.underscore_not_mem place') h_list
  -- All hashes have the same length, so the one in front is cut off from behind.
  obtain ⟨h_pool, h_block⟩ := List.append_inj' h_front (by rw [Hash.length_toText, Hash.length_toText])
  exact ⟨String.toList_injective (List.append_cancel_right h_pool),
    Hash.toText_injective (String.toList_injective h_block),
    Numeral.ofNat_injective (String.toList_injective h_place)⟩

/-- The text of a withdrawal ends in a hash, and that of a place in a number. -/
theorem withdrawalText_ne_snapshotText (hash : Hash) (pool : String) (block : Hash) (place : Nat) :
    withdrawalText hash ≠ snapshotText pool block place := by
  intro h_eq
  have h_list := congrArg String.toList h_eq
  rw [toList_withdrawalText, toList_snapshotText] at h_list
  obtain ⟨-, h_end⟩ :=
    eq_of_last_underscore hash.underscore_not_mem (Numeral.underscore_not_mem place) h_list
  have h_marker : 'x' ∈ (Numeral.ofNat place).toList := by
    rw [← h_end, Hash.toList_toText]
    exact List.mem_cons_of_mem _ List.mem_cons_self
  rw [Numeral.toList_ofNat] at h_marker
  exact absurd (Numeral.isDigit_of_mem_toDigits place _ h_marker) (by decide)

end StakeReturn

/-! ### What is known of digests -/

/-- A text is hashed for an identifier: that of a withdrawal in a block of the node, or that of a
place in one of its pools. -/
inductive Answers.Hashes (answers : Answers) : String → Prop
  | withdrawal {b : NodeBlock} {tx : BlockTx} {w : Tx.WithdrawStake} (h_of : b.IsOf answers)
      (h_tx : tx ∈ b.txs) (h_read : Tx.ofNode tx.code tx.raw = .ok (.withdrawStake w)) :
      Hashes answers (StakeReturn.withdrawalText tx.hash)
  | place {purpose : StakePurpose} {p : PoolSnapshot} {place : Nat}
      (h_pool : Backfill.IsPool answers purpose p) (h_place : place < p.withdrawn.length) :
      Hashes answers (StakeReturn.snapshotText purpose.poolName p.block place)

/-- The digests of the texts that are hashed differ, and none is the hash of a transaction. -/
structure Answers.TellsApart (answers : Answers) : Prop where
  digest_injective : ∀ s s', answers.Hashes s → answers.Hashes s' →
    keccakText s = keccakText s' → s = s'
  digest_fresh : ∀ s, answers.Hashes s → ∀ b : NodeBlock, b.IsOf answers → ∀ tx ∈ b.txs,
    tx.hash ≠ keccakText s

/-! ### What identifiers stand for -/

/-- What an identifier stands for: a transaction under its own hash, or the return of its stake if it
is a withdrawal; a withdrawal in its block; or a withdrawn stake at its place in a pool. -/
inductive Source where
  | transaction (b : NodeBlock) (tx : BlockTx)
  | withdrawal (b : NodeBlock) (tx : BlockTx)
  | place (purpose : StakePurpose) (p : PoolSnapshot) (i : Nat) (stake : Stake)

namespace Source

/-- The identifier. -/
def identifier : Source → Hash
  | .transaction _ tx => tx.hash
  | .withdrawal _ tx => StakeReturn.withdrawalIdentifier tx.hash
  | .place purpose p i _ => StakeReturn.snapshotIdentifier purpose.poolName p.block i

/-- The height of the block in which the identifier is published. -/
def height : Source → UInt64
  | .transaction b tx => if tx.IsWithdrawal then Chain.returnHeight b.height else b.height
  | .withdrawal b _ => b.height
  | .place _ _ _ stake => Chain.saturatingAdd stake.returnHeight 1

/-- The identifier is that of a stake that comes back. -/
def IsReturn : Source → Prop
  | .transaction _ tx => tx.IsWithdrawal
  | .withdrawal _ _ => False
  | .place _ _ _ _ => True

/-- The source is in the chain, or in one of the pools that were found. -/
def IsOf (answers : Answers) (pools : List (StakePurpose × Option PoolSnapshot)) : Source → Prop
  | .transaction b tx => b.IsOf answers ∧ tx ∈ b.txs
  | .withdrawal b tx => b.IsOf answers ∧ tx ∈ b.txs ∧
      ∃ w, Tx.ofNode tx.code tx.raw = .ok (.withdrawStake w)
  | .place purpose p i stake => (purpose, some p) ∈ pools ∧
      ∃ holder, p.withdrawn[i]? = some (holder, stake)

end Source

/-- Pools are those of one search: one of each purpose at most, and each is one that the node tells
of. -/
structure Answers.Finds (answers : Answers) (pools : List (StakePurpose × Option PoolSnapshot)) :
    Prop where
  purposes_nodup : (pools.map Prod.fst).Nodup
  isPool : ∀ purpose p, (purpose, some p) ∈ pools → Backfill.IsPool answers purpose p

theorem StakePurpose.poolName_injective : Function.Injective StakePurpose.poolName := by
  intro purpose purpose' h_name
  cases purpose <;> cases purpose' <;> first | rfl | exact absurd h_name (by decide)

namespace Source

variable {answers : Answers} {pools : List (StakePurpose × Option PoolSnapshot)}

/-- The text behind the identifier of a place is hashed. -/
theorem hashes_of_place (h_pools : answers.Finds pools) {purpose : StakePurpose} {p : PoolSnapshot}
    {place : Nat} {stake : Stake} (h_of : (Source.place purpose p place stake).IsOf answers pools) :
    answers.Hashes (StakeReturn.snapshotText purpose.poolName p.block place) := by
  obtain ⟨h_pool, holder, h_place⟩ := h_of
  exact .place (h_pools.isPool purpose p h_pool) (List.getElem?_eq_some_iff.mp h_place).1

/-- **An identifier stands for one thing.** -/
theorem eq_of_hash (h_chain : answers.IsChain) (h_apart : answers.TellsApart)
    (h_pools : answers.Finds pools) {s s' : Source} (h_of : s.IsOf answers pools)
    (h_of' : s'.IsOf answers pools) (h_eq : s.identifier = s'.identifier) : s = s' := by
  -- Own hashes differ from digests, and texts of withdrawals from those of places.
  cases s with
  | transaction b tx =>
    obtain ⟨h_block, h_tx⟩ := h_of
    cases s' with
    | transaction b' tx' =>
      obtain ⟨rfl, rfl⟩ := h_chain.eq_of_hash h_block h_of'.1 h_tx h_of'.2 h_eq
      rfl
    | withdrawal b' tx' =>
      obtain ⟨h_block', h_tx', w, h_read⟩ := h_of'
      exact absurd h_eq
        (h_apart.digest_fresh _ (.withdrawal h_block' h_tx' h_read) b h_block tx h_tx)
    | place purpose p place stake =>
      exact absurd h_eq
        (h_apart.digest_fresh _ (hashes_of_place h_pools h_of') b h_block tx h_tx)
  | withdrawal b tx =>
    obtain ⟨h_block, h_tx, w, h_read⟩ := h_of
    have h_text : answers.Hashes (StakeReturn.withdrawalText tx.hash) :=
      .withdrawal h_block h_tx h_read
    cases s' with
    | transaction b' tx' =>
      exact absurd h_eq.symm (h_apart.digest_fresh _ h_text b' h_of'.1 tx' h_of'.2)
    | withdrawal b' tx' =>
      obtain ⟨h_block', h_tx', w', h_read'⟩ := h_of'
      have h_same :=
        h_apart.digest_injective _ _ h_text (.withdrawal h_block' h_tx' h_read') h_eq
      obtain ⟨rfl, rfl⟩ := h_chain.eq_of_hash h_block h_block' h_tx h_tx'
        (StakeReturn.withdrawalText_injective h_same)
      rfl
    | place purpose p place stake =>
      have h_same := h_apart.digest_injective _ _ h_text (hashes_of_place h_pools h_of') h_eq
      exact absurd h_same (StakeReturn.withdrawalText_ne_snapshotText _ _ _ _)
  | place purpose p place stake =>
    have h_text := hashes_of_place h_pools h_of
    cases s' with
    | transaction b' tx' =>
      exact absurd h_eq.symm (h_apart.digest_fresh _ h_text b' h_of'.1 tx' h_of'.2)
    | withdrawal b' tx' =>
      obtain ⟨h_block', h_tx', w', h_read'⟩ := h_of'
      have h_same :=
        h_apart.digest_injective _ _ h_text (.withdrawal h_block' h_tx' h_read') h_eq
      exact absurd h_same.symm (StakeReturn.withdrawalText_ne_snapshotText _ _ _ _)
    | place purpose' p' place' stake' =>
      have h_same := h_apart.digest_injective _ _ h_text (hashes_of_place h_pools h_of') h_eq
      obtain ⟨h_name, -, rfl⟩ := StakeReturn.snapshotText_injective h_same
      obtain rfl := StakePurpose.poolName_injective h_name
      obtain ⟨h_pool, holder, h_place⟩ := h_of
      obtain ⟨h_pool', holder', h_place'⟩ := h_of'
      cases List.inj_on_of_nodup_map h_pools.purposes_nodup h_pool h_pool' rfl
      rw [h_place] at h_place'
      cases h_place'
      rfl

/-- What a transaction of a block is shown as. -/
def ofTx (b : NodeBlock) (tx : BlockTx) : Source :=
  if tx.IsWithdrawal then .withdrawal b tx else .transaction b tx

theorem ofTx_injective (b : NodeBlock) : Function.Injective (ofTx b) := by
  intro tx tx' h_eq
  unfold ofTx at h_eq
  split at h_eq <;> split at h_eq <;> cases h_eq <;> rfl

theorem identifier_ofTx (b : NodeBlock) (tx : BlockTx) :
    (ofTx b tx).identifier = tx.identifier := by
  unfold ofTx BlockTx.identifier
  split <;> rfl

theorem not_isReturn_ofTx (b : NodeBlock) (tx : BlockTx) : ¬ (ofTx b tx).IsReturn := by
  unfold ofTx
  split
  · exact id
  · next h_other => exact h_other

theorem height_ofTx (b : NodeBlock) (tx : BlockTx) : (ofTx b tx).height = b.height := by
  unfold ofTx
  split
  · rfl
  · next h_other => exact if_neg h_other

end Source

/-- Transactions that are shown have sources in the chain. -/
theorem NodeBlock.Shown.isOf_ofTx {answers : Answers}
    {pools : List (StakePurpose × Option PoolSnapshot)} {b : NodeBlock} {ts : List Transaction}
    {returns : List StakeReturn} (h_of : b.IsOf answers) (h_shown : b.Shown answers b.txs ts returns)
    {tx : BlockTx} (h_tx : tx ∈ b.txs) : (Source.ofTx b tx).IsOf answers pools := by
  unfold Source.ofTx
  split
  · next h_withdrawal =>
    obtain ⟨i, h_lt, h_get⟩ := List.getElem_of_mem h_tx
    obtain ⟨t, own, -, h_own, -⟩ :=
      h_shown.getElem? (List.getElem?_eq_some_iff.mpr ⟨h_lt, h_get⟩) []
    cases h_own with
    | unread _ h_code => exact absurd h_withdrawal h_code
    | withdrawal h_read _ => exact ⟨h_of, h_tx, _, h_read⟩
    | other h_read h_kind => exact absurd ((BlockTx.isWithdrawal_iff h_read).mp h_withdrawal) h_kind
  · exact ⟨h_of, h_tx⟩

theorem BlockTx.hash_view (status : BlockStatus) (tx : BlockTx) :
    (tx.view status).hash = tx.identifier := by
  unfold view
  split <;> rfl

/-! ### What the ledger holds -/

/-- Each record has a source among the withdrawals of the chain and the places of one search of the
pools. Before a search there are no places. -/
def Ledger.Traced (answers : Answers) (l : Ledger) : Prop :=
  ∃ pools, answers.Finds pools ∧ (l.backfilled = false → pools = []) ∧
    ∀ height, ∀ r ∈ l.due height, ∃ s : Source, s.IsOf answers pools ∧ s.IsReturn ∧
      s.identifier = r.hash ∧ s.height = height

namespace Ledger

variable {answers : Answers} {before after : Ledger}

theorem traced_empty : empty.Traced answers :=
  ⟨[], ⟨List.nodup_nil, nofun⟩, fun _ => rfl, fun _ _ h_mem => nomatch h_mem⟩

/-- A request for a block writes returns of withdrawals of the chain. -/
theorem Traced.blockEnds {identifier : PartialBlockIdentifier} {outcome : Except ApiError Block}
    (h_before : before.Traced answers)
    (h_ends : Update.BlockEnds answers identifier before outcome after) : after.Traced answers := by
  obtain ⟨pools, h_pools, h_search, h_records⟩ := h_before
  refine ⟨pools, h_pools, h_ends.backfilled_eq ▸ h_search, ?_⟩
  intro height r h_mem
  rcases h_ends.exists_of_mem_due h_mem with h_old |
    ⟨b, h_block, rfl, tx, h_tx, w, amount, h_read, -, rfl⟩
  · exact h_records height r h_old
  · have h_withdrawal : tx.IsWithdrawal := (BlockTx.isWithdrawal_iff h_read).mpr rfl
    exact ⟨.transaction b tx, ⟨⟨identifier, h_block⟩, h_tx⟩, h_withdrawal, rfl,
      if_pos h_withdrawal⟩

/-- A backfill that searches the pools writes places in them, and is the only one that does. -/
theorem Traced.backfillEnds {outcome : Except ApiError Nat} (h_before : before.Traced answers)
    (h_ends : Update.Ends answers Backfill.run before outcome after) : after.Traced answers := by
  rcases Update.ends_backfill_run h_ends with ⟨-, -, rfl⟩ | ⟨e, -, rfl⟩ |
    ⟨status, found, h_first, h_status, h_found, -, rfl⟩
  · exact h_before
  · exact h_before
  obtain ⟨pools, -, h_search, h_records⟩ := h_before
  obtain rfl := h_search h_first
  obtain ⟨h_purposes, h_each⟩ := Backfill.ends_pools h_found
  refine ⟨found, ⟨?_, fun purpose p h_mem => ⟨status, h_status, h_each _ h_mem⟩⟩, nofun, ?_⟩
  · rw [h_purposes]
    decide
  intro height r h_mem
  rcases mem_due_putAll h_mem with h_old | h_new
  · -- There were no places so far, so the source is a withdrawal.
    obtain ⟨s, h_of, h_return, h_identifier, h_height⟩ := h_records height r h_old
    refine ⟨s, ?_, h_return, h_identifier, h_height⟩
    cases s with
    | transaction b tx => exact h_of
    | withdrawal b tx => exact h_return.elim
    | place purpose p place stake => exact nomatch h_of.1
  · obtain ⟨purpose, p, h_pool, h_return⟩ := Backfill.exists_pool_of_holds h_new
    obtain ⟨place, holder, stake, h_place, -, rfl, rfl⟩ :=
      Backfill.exists_place_of_mem_returnsOf h_return
    exact ⟨.place purpose p place stake, ⟨h_pool, holder, h_place⟩, trivial, rfl, rfl⟩

end Ledger

/-! ### Answers of a run -/

/-- A turn of the gateway: a backfill or a request for a block, with what the node replies meanwhile.
-/
structure Turn where
  event : LedgerEvent
  replies : Nat → NodeCall → NodeReply

namespace Turn

variable {answers : Answers} {start : Ledger} {turns : List Turn}

/-- The block that a request is answered with, if there is one, and the ledger after the turn. -/
def play (before : Ledger) : Turn → Option Block × Ledger
  | ⟨.backfill, replies⟩ => (none, (Backfill.run.play replies 0 before).1.2)
  | ⟨.block identifier, replies⟩ =>
    let (outcome, after) := ((Update.block identifier).play replies 0 before).1
    (outcome.toOption, after)

/-- The ledger after turns, one after the other. -/
def ledgerAfter (start : Ledger) (turns : List Turn) : Ledger :=
  turns.foldl (fun before t => (t.play before).2) start

/-- The blocks that are answered in turns, one after the other. -/
def published : Ledger → List Turn → List Block
  | _, [] => []
  | before, t :: rest => (t.play before).1.toList ++ published (t.play before).2 rest

/-- The node replies what it may. -/
def IsTo (answers : Answers) (t : Turn) : Prop := ∀ n call, answers call (t.replies n call)

end Turn

/-- An answer shows the transactions of a block of the node, and behind them the first of the returns
that a ledger has at its height. -/
def Block.Tells (answers : Answers) (l : Ledger) (shown : Block) : Prop :=
  ∃ (b : NodeBlock) (ts : List Transaction) (returns due : List StakeReturn), b.IsOf answers ∧
    b.Shown answers b.txs ts returns ∧ due <+: l.due b.height ∧
    shown = .ofNode b (ts ++ due.map (Transaction.ofReturn b.status.name))

theorem Block.Tells.mono {answers : Answers} {l l' : Ledger} {shown : Block}
    (h_tells : shown.Tells answers l) (h_le : ∀ height, l.due height <+: l'.due height) :
    shown.Tells answers l' := by
  obtain ⟨b, ts, returns, due, h_of, h_shown, h_due, h_eq⟩ := h_tells
  exact ⟨b, ts, returns, due, h_of, h_shown, h_due.trans (h_le b.height), h_eq⟩

namespace Turn

variable {answers : Answers} {start : Ledger} {turns : List Turn}

/-- What a turn preserves, and what it shows. -/
theorem play_traced {t : Turn} (h_to : t.IsTo answers) {before : Ledger}
    (h_before : before.Traced answers) :
    (t.play before).2.Traced answers ∧
      (∀ height, before.due height <+: (t.play before).2.due height) ∧
      ∀ shown ∈ (t.play before).1, shown.Tells answers (t.play before).2 := by
  obtain ⟨event, replies⟩ := t
  cases event with
  | backfill =>
    have h_ends := Update.ends_play h_to Backfill.run 0 before
    have h_kept := Update.ends_backfill h_ends
    exact ⟨h_before.backfillEnds h_ends, h_kept.due_prefix, nofun⟩
  | block identifier =>
    have h_ends := Update.ends_block (Update.ends_play h_to (Update.block identifier) 0 before)
    refine ⟨h_before.blockEnds h_ends, h_ends.due_prefix, ?_⟩
    intro shown h_shown
    -- Only a request that has succeeded shows something.
    have h_some : ((Update.block identifier).play replies 0 before).1.1.toOption = some shown :=
      h_shown
    have h_ok : ((Update.block identifier).play replies 0 before).1.1 = .ok shown := by
      cases h_outcome : ((Update.block identifier).play replies 0 before).1.1 with
      | ok shown' =>
        rw [h_outcome] at h_some
        exact congrArg Except.ok (Option.some.inj h_some)
      | error e =>
        rw [h_outcome] at h_some
        cases h_some
    rw [h_ok] at h_ends
    obtain ⟨b, ts, returns, h_block, h_txs, rfl⟩ := h_ends.exists_shown
    exact ⟨b, ts, returns, _, ⟨identifier, h_block⟩, h_txs, List.prefix_rfl, rfl⟩

/-- What a run preserves, and what its answers show: the ledger at the end has all that was there
when they were given. -/
theorem ledgerAfter_traced (h_to : ∀ t ∈ turns, t.IsTo answers) (h_start : start.Traced answers) :
    (ledgerAfter start turns).Traced answers ∧
      (∀ height, start.due height <+: (ledgerAfter start turns).due height) ∧
      ∀ shown ∈ published start turns, shown.Tells answers (ledgerAfter start turns) := by
  induction turns generalizing start with
  | nil => exact ⟨h_start, fun _ => List.prefix_rfl, nofun⟩
  | cons t rest ih =>
    obtain ⟨h_first, h_rest⟩ := List.forall_mem_cons.mp h_to
    obtain ⟨h_after, h_le, h_shown⟩ := play_traced h_first h_start
    obtain ⟨h_last, h_le', h_others⟩ := ih h_rest h_after
    refine ⟨h_last, fun height => (h_le height).trans (h_le' height), ?_⟩
    intro shown h_mem
    rcases List.mem_append.mp h_mem with h_now | h_later
    · exact (h_shown shown (Option.mem_toList.mp h_now)).mono h_le'
    · exact h_others shown h_later

end Turn

/-! ### No identifier twice -/

namespace Block

variable {answers : Answers} {pools : List (StakePurpose × Option PoolSnapshot)} {l : Ledger}
  {shown : Block}

/-- Each identifier in an answer has a source at its height. -/
theorem exists_source {b : NodeBlock} {ts : List Transaction} {returns due : List StakeReturn}
    (h_records : ∀ height, ∀ r ∈ l.due height, ∃ s : Source, s.IsOf answers pools ∧ s.IsReturn ∧
      s.identifier = r.hash ∧ s.height = height)
    (h_of : b.IsOf answers) (h_shown : b.Shown answers b.txs ts returns)
    (h_due : due <+: l.due b.height) {t : Transaction}
    (h_mem : t ∈ ts ++ due.map (Transaction.ofReturn b.status.name)) :
    ∃ s : Source, s.IsOf answers pools ∧ s.identifier = t.hash ∧ s.height = b.height := by
  rw [h_shown.eq_map_view] at h_mem
  rcases List.mem_append.mp h_mem with h_own | h_return
  · obtain ⟨tx, h_tx, rfl⟩ := List.mem_map.mp h_own
    refine ⟨.ofTx b tx, h_shown.isOf_ofTx h_of h_tx, ?_, Source.height_ofTx b tx⟩
    rw [Source.identifier_ofTx, BlockTx.hash_view]
  · obtain ⟨r, h_r, rfl⟩ := List.mem_map.mp h_return
    obtain ⟨s, h_source, -, h_identifier, h_height⟩ := h_records _ r (h_due.subset h_r)
    exact ⟨s, h_source, h_identifier, h_height⟩

/-- The identifiers of transactions differ, and so do those of the returns behind them; the former
have sources that are no returns. -/
theorem nodup_hashes (h_chain : answers.IsChain) (h_apart : answers.TellsApart)
    (h_traced : l.Traced answers) (h_tells : shown.Tells answers l) :
    (shown.transactions.map (·.hash)).Nodup := by
  obtain ⟨pools, h_pools, -, h_records⟩ := h_traced
  obtain ⟨b, ts, returns, due, h_of, h_shown, h_due, rfl⟩ := h_tells
  have h_txs : ts.map (·.hash) = b.txs.map fun tx => (Source.ofTx b tx).identifier := by
    rw [h_shown.eq_map_view, List.map_map]
    apply List.map_congr_left
    intro tx _
    rw [Source.identifier_ofTx]
    exact BlockTx.hash_view b.status tx
  show ((ts ++ due.map (Transaction.ofReturn b.status.name)).map (·.hash)).Nodup
  rw [List.map_append, List.nodup_append, h_txs, List.map_map]
  refine ⟨?_, ?_, ?_⟩
  · -- Transactions with the same identifier have the same source, and are the same.
    apply List.Nodup.map_on _ (List.Nodup.of_map _ (h_chain.hashes_nodup b h_of))
    intro tx h_tx tx' h_tx' h_eq
    exact Source.ofTx_injective b (Source.eq_of_hash h_chain h_apart h_pools
      (h_shown.isOf_ofTx h_of h_tx) (h_shown.isOf_ofTx h_of h_tx') h_eq)
  · -- The ledger has a hash once at each height.
    exact (h_due.sublist.map _).nodup (l.nodup_due b.height)
  · -- The source of a return is never a transaction that is shown as it is.
    intro hash h_own hash' h_return h_eq
    obtain ⟨tx, h_tx, rfl⟩ := List.mem_map.mp h_own
    obtain ⟨r, h_r, rfl⟩ := List.mem_map.mp h_return
    obtain ⟨s, h_source, h_is, h_identifier, -⟩ := h_records _ r (h_due.subset h_r)
    obtain rfl := Source.eq_of_hash h_chain h_apart h_pools (h_shown.isOf_ofTx h_of h_tx) h_source
      (h_eq.trans h_identifier.symm)
    exact Source.not_isReturn_ofTx b tx h_is

end Block

/-- Different heights have different indices. -/
theorem indexOfHeight_injective : Function.Injective indexOfHeight := by
  intro height height' h_eq
  have h_signed : height.toInt64 = height'.toInt64 := Int64.toInt_inj.mp h_eq
  exact congrArg Int64.toUInt64 h_signed

/-- Answers for different heights have no identifier in common. -/
theorem Block.hash_ne {answers : Answers} {l : Ledger} {shown shown' : Block}
    (h_chain : answers.IsChain) (h_apart : answers.TellsApart) (h_traced : l.Traced answers)
    (h_tells : shown.Tells answers l) (h_tells' : shown'.Tells answers l)
    (h_index : shown.identifier.index ≠ shown'.identifier.index) {t t' : Transaction}
    (h_mem : t ∈ shown.transactions) (h_mem' : t' ∈ shown'.transactions) : t.hash ≠ t'.hash := by
  obtain ⟨pools, h_pools, -, h_records⟩ := h_traced
  obtain ⟨b, ts, returns, due, h_of, h_shown, h_due, rfl⟩ := h_tells
  obtain ⟨b', ts', returns', due', h_of', h_shown', h_due', rfl⟩ := h_tells'
  intro h_eq
  obtain ⟨s, h_source, h_identifier, h_height⟩ := exists_source h_records h_of h_shown h_due h_mem
  obtain ⟨s', h_source', h_identifier', h_height'⟩ :=
    exists_source h_records h_of' h_shown' h_due' h_mem'
  -- An identifier has one source, and a source is shown at one height.
  obtain rfl := Source.eq_of_hash h_chain h_apart h_pools h_source h_source'
    (h_identifier.trans (h_eq.trans h_identifier'.symm))
  apply h_index
  show indexOfHeight b.height = indexOfHeight b'.height
  rw [← h_height, ← h_height']

namespace Turn

variable {answers : Answers} {turns : List Turn}

open StakeReturn (withdrawalText snapshotText)

/-- **Identifiers do not collide.** Let the blocks of the node be those of a chain, and let digests be
told apart from each other and from the hashes of the chain. Take any requests for blocks and any
backfills, starting with an empty ledger, of which some may fail. All identifiers in an answer are
different, and answers for blocks of different heights have none in common. As for the texts that
are hashed, those of withdrawals and of places are all different, whatever the pools are called. -/
theorem identifiers_apart (h_chain : answers.IsChain) (h_apart : answers.TellsApart)
    (h_to : ∀ t ∈ turns, t.IsTo answers) :
    (∀ shown ∈ published .empty turns, (shown.transactions.map (·.hash)).Nodup) ∧
    (∀ shown ∈ published .empty turns, ∀ shown' ∈ published .empty turns,
      ∀ height height', shown.identifier.index = indexOfHeight height →
        shown'.identifier.index = indexOfHeight height' → height ≠ height' →
        ∀ t ∈ shown.transactions, ∀ t' ∈ shown'.transactions, t.hash ≠ t'.hash) ∧
    Function.Injective withdrawalText ∧
    (∀ pool block place pool' block' place',
      snapshotText pool block place = snapshotText pool' block' place' →
        pool = pool' ∧ block = block' ∧ place = place') ∧
    ∀ hash pool block place, withdrawalText hash ≠ snapshotText pool block place := by
  obtain ⟨h_traced, -, h_tells⟩ := ledgerAfter_traced h_to Ledger.traced_empty
  refine ⟨?_, ?_, StakeReturn.withdrawalText_injective, ?_,
    StakeReturn.withdrawalText_ne_snapshotText⟩
  · intro shown h_mem
    exact Block.nodup_hashes h_chain h_apart h_traced (h_tells shown h_mem)
  · intro shown h_mem shown' h_mem' height height' h_height h_height' h_ne t h_t t' h_t'
    have h_index : shown.identifier.index ≠ shown'.identifier.index := by
      rw [h_height, h_height']
      exact fun h_eq => h_ne (indexOfHeight_injective h_eq)
    exact Block.hash_ne h_chain h_apart h_traced (h_tells shown h_mem) (h_tells shown' h_mem')
      h_index h_t h_t'
  · intro pool block place pool' block' place' h_eq
    exact StakeReturn.snapshotText_injective h_eq

end Turn

/-! ### A withdrawal that is in a pool as well -/

namespace SampleIdentifiers

open SampleSnapshot (node snapshot stake)
open StakeReturn (withdrawalText snapshotText)

/-- The blocks of the node are those of the chain with one withdrawal. -/
theorem isChain : (Answers.fixed node).IsChain where
  height_injective b b' h_of h_of' := SampleChain.isChain.height_injective b b'
    (SampleSnapshot.isOf_iff.mp h_of) (SampleSnapshot.isOf_iff.mp h_of')
  hashes_nodup b h_of := SampleChain.isChain.hashes_nodup b (SampleSnapshot.isOf_iff.mp h_of)
  hashes_apart b b' h_of h_of' := SampleChain.isChain.hashes_apart b b'
    (SampleSnapshot.isOf_iff.mp h_of) (SampleSnapshot.isOf_iff.mp h_of')

/-- The only transaction is the withdrawal. -/
theorem hash_eq {b : NodeBlock} (h_of : b.IsOf (.fixed node)) {tx : BlockTx} (h_tx : tx ∈ b.txs) :
    tx.hash = SampleChain.txHash := by
  rcases SampleChain.eq_of_isOf (SampleSnapshot.isOf_iff.mp h_of) with rfl | rfl
  · rw [List.mem_singleton.mp h_tx]
    rfl
  · cases h_tx

/-- Two texts are hashed: that of the withdrawal and that of the one place. -/
theorem eq_of_hashes {s : String} (h_hashes : (Answers.fixed node).Hashes s) :
    s = withdrawalText SampleChain.txHash ∨ s = snapshotText "vcp" .zero 0 := by
  cases h_hashes with
  | withdrawal h_of h_tx h_read =>
    rw [hash_eq h_of h_tx]
    exact Or.inl rfl
  | place h_pool h_place =>
    obtain ⟨rfl, rfl⟩ := SampleSnapshot.eq_of_isPool h_pool
    have h_one : snapshot.withdrawn.length = 1 := by decide
    obtain rfl := Nat.lt_one_iff.mp (h_one ▸ h_place)
    exact Or.inr rfl

/-- The first bytes tell the two digests and the hash of the withdrawal, which is all sevens, apart.
-/
theorem head?_digests :
    (keccakText (withdrawalText SampleChain.txHash)).bytes.head? = some 144 ∧
      (keccakText (snapshotText "vcp" .zero 0)).bytes.head? = some 178 := by
  simp only [keccakText, Keccak.keccak256_eq]
  decide +kernel

theorem digest_ne : keccakText (withdrawalText SampleChain.txHash) ≠
    keccakText (snapshotText "vcp" .zero 0) := by
  obtain ⟨h_withdrawal, h_place⟩ := head?_digests
  exact Hash.ne_of_head? h_withdrawal h_place (by decide)

theorem digest_ne_txHash {s : String} (h_hashes : (Answers.fixed node).Hashes s) :
    SampleChain.txHash ≠ keccakText s := by
  obtain ⟨h_withdrawal, h_place⟩ := head?_digests
  have h_hash : SampleChain.txHash.bytes.head? = some 7 := rfl
  rcases eq_of_hashes h_hashes with rfl | rfl
  · exact Hash.ne_of_head? h_hash h_withdrawal (by decide)
  · exact Hash.ne_of_head? h_hash h_place (by decide)

theorem tellsApart : (Answers.fixed node).TellsApart where
  digest_injective s s' h_hashes h_hashes' h_eq := by
    rcases eq_of_hashes h_hashes with rfl | rfl <;> rcases eq_of_hashes h_hashes' with rfl | rfl
    · rfl
    · exact absurd h_eq digest_ne
    · exact absurd h_eq.symm digest_ne
    · rfl
  digest_fresh s h_hashes b h_of tx h_tx := by
    rw [hash_eq h_of h_tx]
    exact digest_ne_txHash h_hashes

/-- The pools are searched first, so that the stake is in the ledger twice. -/
def turns : List Turn :=
  [⟨.backfill, fun _ => node⟩, ⟨.block ⟨some 1, none⟩, fun _ => node⟩,
    ⟨.block ⟨some 28801, none⟩, fun _ => node⟩]

/-- Two blocks are answered, with one transaction each. -/
theorem identifiers_apart_turns :
    (Turn.published .empty turns).map (fun b => (b.identifier.index, b.transactions.length)) =
      [(1, 1), (28801, 1)] ∧
    (Answers.fixed node).IsChain ∧ (Answers.fixed node).TellsApart ∧
    (∀ t ∈ turns, t.IsTo (.fixed node)) ∧
    ∀ shown ∈ Turn.published .empty turns, ∀ shown' ∈ Turn.published .empty turns,
      shown.identifier.index = 1 → shown'.identifier.index = 28801 →
        ∀ t ∈ shown.transactions, ∀ t' ∈ shown'.transactions, t.hash ≠ t'.hash := by
  have h_to : ∀ t ∈ turns, t.IsTo (.fixed node) := by
    intro t h_mem n call
    simp only [turns, List.mem_cons, List.not_mem_nil, or_false] at h_mem
    rcases h_mem with rfl | rfl | rfl <;> rfl
  refine ⟨by decide +kernel, isChain, tellsApart, h_to, ?_⟩
  intro shown h_shown shown' h_shown' h_first h_later
  exact (Turn.identifiers_apart isChain tellsApart h_to).2.1 shown h_shown shown' h_shown' 1 28801
    h_first h_later (by decide)

end SampleIdentifiers

end RosettaGateway
