import RosettaGateway.Proofs.Stake.Return
import RosettaGateway.Proofs.Wire

/-!
# What a block shows

The answer to a request for a block leaves nothing out and adds nothing: it shows the transactions of
the node's block in their order, and then the records that the ledger holds at its height.

* `BlockTx.view` — what is shown of one transaction. It does not depend on the node or the ledger,
  also for a withdrawal, of which they only decide whether the request goes on;
* `NodeBlock.Shown.eq_map_view` — a request that goes through has shown each transaction so;
* `Update.found_of_mapM` — and has found the stake of each withdrawal by the reply that it was given
  for this one, as each takes one call;
* `Update.block_assembles` — all this for a request to any node, and what becomes of requests for
  blocks without withdrawals, which cannot fail and write nothing.

That the records at the height are the same before and after the request is for the height: what is
written goes to another one, as long as heights do not end (`Chain.returnHeight_ne`).
-/

namespace RosettaGateway

/-! ### One transaction -/

theorem Tx.kind_of_ofJson? {k : Kind} {raw : Json} {tx : Tx} (h_read : ofJson? k raw = some tx) :
    tx.kind = k := by
  cases k <;>
    obtain ⟨body, -, rfl⟩ := Option.map_eq_some_iff.mp h_read <;>
    rfl

/-- The number of a transaction tells the kind of its body. -/
theorem Tx.code_of_ofNode {code : UInt64} {raw : Json} {tx : Tx}
    (h_read : Tx.ofNode code raw = .ok tx) : tx.kind.code.toUInt64 = code := by
  unfold Tx.ofNode Tx.kindOfCode at h_read
  split at h_read
  · next k h_kind =>
    simp only [bind, Except.bind, Tx.ofJson] at h_read
    split at h_read
    · next h_body =>
      cases h_read
      rw [kind_of_ofJson? h_body, Kind.toUInt64_code_of_ofCode? h_kind]
    · cases h_read
  · cases h_read

namespace BlockTx

/-- Whether a transaction is a withdrawal by its number. -/
def IsWithdrawal (tx : BlockTx) : Prop := tx.code = Tx.Kind.withdrawStake.code.toUInt64

instance (tx : BlockTx) : Decidable tx.IsWithdrawal :=
  inferInstanceAs (Decidable (tx.code = Tx.Kind.withdrawStake.code.toUInt64))

/-- The identifier of a transaction. That of a withdrawal is its own, as the hash is for its return.
-/
def identifier (tx : BlockTx) : Hash :=
  if tx.IsWithdrawal then StakeReturn.withdrawalIdentifier tx.hash else tx.hash

/-- What a block with a given status shows of a transaction. Of one that cannot be read it shows the
number of the kind and no operations. -/
def view (status : BlockStatus) (tx : BlockTx) : Transaction :=
  match Tx.ofNode tx.code tx.raw with
  | .error _ => ⟨tx.identifier, ⟨.ofList [("type", Counter.toJson tx.code)], []⟩⟩
  | .ok body => ⟨tx.identifier,
      body.describe ⟨some status.name, tx.receipt.getD 0, some (tx.changes.getD [])⟩⟩

variable {answers : Answers} {b : NodeBlock} {tx : BlockTx}

theorem isWithdrawal_iff {body : Tx} (h_read : Tx.ofNode tx.code tx.raw = .ok body) :
    tx.IsWithdrawal ↔ body.kind = .withdrawStake := by
  rw [IsWithdrawal, ← Tx.code_of_ofNode h_read]
  cases body.kind <;> decide

theorem Shown.eq_view {t : Transaction} {returns : List StakeReturn}
    (h_shown : tx.Shown answers b t returns) : t = tx.view b.status := by
  cases h_shown with
  | unread h_read h_code =>
    rw [view, h_read, identifier, if_neg (show ¬ tx.IsWithdrawal from h_code)]
    rfl
  | withdrawal h_read h_amount =>
    rw [view, h_read, identifier, if_pos ((isWithdrawal_iff h_read).mpr rfl)]
    rfl
  | other h_read h_kind =>
    rw [view, h_read, identifier, if_neg (h_kind ∘ (isWithdrawal_iff h_read).mp)]
    rfl

/-- A transaction that is no withdrawal is shown without asking or writing anything. -/
theorem blockTransaction_eq (h_other : ¬ tx.IsWithdrawal) :
    Update.blockTransaction b tx = pure (tx.view b.status) := by
  rw [Update.blockTransaction, view, identifier, if_neg h_other]
  cases h_read : Tx.ofNode tx.code tx.raw with
  | error e => exact if_neg (show ¬ tx.code = _ from h_other)
  | ok body =>
    have h_kind := h_other ∘ (isWithdrawal_iff h_read).mpr
    cases body with
    | withdrawStake w => exact absurd rfl h_kind
    | _ => rfl

end BlockTx

/-! ### All transactions -/

namespace NodeBlock

variable {answers : Answers} {b : NodeBlock} {txs : List BlockTx}

theorem Shown.eq_map_view {ts : List Transaction} {returns : List StakeReturn}
    (h_shown : b.Shown answers txs ts returns) : ts = txs.map (BlockTx.view b.status) := by
  induction h_shown with
  | nil => rfl
  | cons h_first _ ih => rw [List.map_cons, h_first.eq_view, ih]

/-- Transactions of which none is a withdrawal are shown without asking or writing anything. -/
theorem mapM_blockTransaction_eq (h_other : ∀ tx ∈ txs, ¬ tx.IsWithdrawal) :
    txs.mapM (Update.blockTransaction b) = pure (txs.map (BlockTx.view b.status)) := by
  induction txs with
  | nil => rfl
  | cons tx txs ih =>
    obtain ⟨h_first, h_rest⟩ := List.forall_mem_cons.mp h_other
    rw [List.mapM_cons, BlockTx.blockTransaction_eq h_first, ih h_rest, pure_bind, pure_bind]
    rfl

end NodeBlock

/-! ### Withdrawals -/

namespace Query

/-- A query that is followed by something that asks nothing asks what it asks alone. -/
theorem calls_bind {α β : Type} {node : Nat → NodeCall → NodeReply} {n : Nat} {q : Query α}
    {f : α → Query β} (h_silent : ∀ a m, ((f a).play node m).2 = []) {b : β}
    {calls : List NodeCall} (h_play : (q >>= f).play node n = (.ok b, calls)) :
    (q.play node n).2 = calls := by
  obtain ⟨a, first, rest, h_first, h_second, rfl⟩ := play_bind_eq_ok_iff.mp h_play
  obtain rfl : rest = [] := (congrArg Prod.snd h_second).symm.trans (h_silent a _)
  rw [h_first, List.append_nil]

theorem length_calls_withdrawnStake {node : Nat → NodeCall → NodeReply} {n : Nat}
    {purpose : StakePurpose} {height : UInt64} {source holder : Address} {found : Option Stake}
    {calls : List NodeCall}
    (h_play : (withdrawnStake purpose height source holder).play node n = (.ok found, calls)) :
    calls.length = 1 := by
  cases purpose with
  | eliteEdgeNode =>
    rw [← calls_bind (fun _ _ => rfl) h_play]
    rfl
  | _ =>
    rw [← calls_bind (fun snapshot _ => by cases snapshot <;> rfl) h_play]
    rfl

/-- A stake that is found has taken one request. -/
theorem length_calls_resolveStake {node : Nat → NodeCall → NodeReply} {n : Nat} {height : UInt64}
    {w : Tx.WithdrawStake} {amount : Nat} {calls : List NodeCall}
    (h_play : (resolveStake height w).play node n = (.ok amount, calls)) : calls.length = 1 := by
  rw [resolveStake] at h_play
  cases h_purpose : StakePurpose.ofCode? w.purpose with
  | none =>
    rw [h_purpose] at h_play
    cases h_play
  | some purpose =>
    rw [h_purpose] at h_play
    obtain ⟨_, _, rest, h_demand, h_rest, rfl⟩ := play_bind_eq_ok_iff.mp h_play
    cases h_demand
    -- Only the node is asked; what is made of its answer takes no request.
    have h_calls := calls_bind (fun stake _ => by cases stake <;> rfl) h_rest
    obtain ⟨found, first, _, h_found, -, -⟩ := play_bind_eq_ok_iff.mp h_rest
    rw [h_found] at h_calls
    rw [List.nil_append, ← h_calls, length_calls_withdrawnStake h_found]

end Query

namespace Update

variable {node : Nat → NodeCall → NodeReply} {n : Nat} {before after : Ledger} {b : NodeBlock}
  {calls : List NodeCall}

/-- A withdrawal that is shown has been read, and its stake has been found by the one request that
was made for it. -/
theorem play_blockTransaction {tx : BlockTx} {t : Transaction} (h_withdrawal : tx.IsWithdrawal)
    (h_play : (blockTransaction b tx).play node n before = ((.ok t, after), calls)) :
    calls.length = 1 ∧ ∃ w amount, Tx.ofNode tx.code tx.raw = .ok (.withdrawStake w) ∧
      ((Query.resolveStake b.height w).play node n).1 = .ok amount := by
  unfold blockTransaction at h_play
  cases h_read : Tx.ofNode tx.code tx.raw with
  | error e =>
    rw [h_read] at h_play
    simp only [if_pos (show tx.code = _ from h_withdrawal)] at h_play
    cases h_play
  | ok body =>
    rw [h_read] at h_play
    cases body with
    | withdrawStake w =>
      obtain ⟨amount, between, first, rest, h_query, h_rest, rfl⟩ := play_bind_eq_ok_iff.mp h_play
      obtain ⟨h_found, rfl⟩ := play_toUpdate_eq_iff.mp h_query
      -- To write the return and to show the withdrawal asks nothing.
      cases h_rest
      rw [List.append_nil]
      exact ⟨Query.length_calls_resolveStake h_found, w, amount, rfl, congrArg Prod.fst h_found⟩
    | _ => cases (BlockTx.isWithdrawal_iff h_read).mp h_withdrawal

/-- **Each withdrawal that is shown has been read and its stake found**, by the request with the
number of the withdrawals in front of it. -/
theorem found_of_mapM {txs : List BlockTx} {ts : List Transaction}
    (h_play : (txs.mapM (blockTransaction b)).play node n before = ((.ok ts, after), calls))
    {i : Nat} {tx : BlockTx} (h_tx : txs[i]? = some tx) (h_withdrawal : tx.IsWithdrawal) :
    ∃ w amount, Tx.ofNode tx.code tx.raw = .ok (.withdrawStake w) ∧
      ((Query.resolveStake b.height w).play node
        (n + (txs.take i).countP (·.IsWithdrawal))).1 = .ok amount := by
  -- Behind a withdrawal the number of the next request is one more.
  induction txs generalizing n before after i ts calls with
  | nil => cases h_tx
  | cons first rest ih =>
    rw [List.mapM_cons] at h_play
    obtain ⟨t, between, asked, _, h_first, h_others, rfl⟩ := play_bind_eq_ok_iff.mp h_play
    obtain ⟨_, _, _, _, h_rest, -, rfl⟩ := play_bind_eq_ok_iff.mp h_others
    cases i with
    | zero =>
      cases h_tx
      exact (play_blockTransaction h_withdrawal h_first).2
    | succ i =>
      have h_asked : asked.length = if first.IsWithdrawal then 1 else 0 := by
        split
        · next h_is => exact (play_blockTransaction h_is h_first).1
        · next h_other =>
          rw [BlockTx.blockTransaction_eq h_other] at h_first
          cases h_first
          rfl
      have h_number : n + asked.length + (rest.take i).countP (·.IsWithdrawal) =
          n + ((first :: rest).take (i + 1)).countP (·.IsWithdrawal) := by
        simp only [List.take_succ_cons, List.countP_cons, decide_eq_true_eq, h_asked]
        omega
      rw [← h_number]
      exact ih h_rest h_tx

end Update

/-! ### Blocks -/

theorem Operation.status_of_mem_ofLegs {status : Option String} {legs : List Leg} {op : Operation}
    (h_mem : op ∈ ofLegs status legs) : op.status = status := by
  obtain ⟨i, h_lt, rfl⟩ := List.mem_mapIdx.mp h_mem
  rfl

/-- Every operation that a block shows carries the status of the block. -/
theorem BlockTx.status_of_mem_view {status : BlockStatus} {tx : BlockTx} {op : Operation}
    (h_mem : op ∈ (tx.view status).description.operations) : op.status = some status.name := by
  unfold view at h_mem
  split at h_mem
  · cases h_mem
  · exact Operation.status_of_mem_ofLegs h_mem

/-- Unless heights end before, a stake does not come back at the height of its withdrawal. -/
theorem Chain.returnHeight_ne {height : UInt64} (h_height : height.toNat < 2 ^ 64 - 1) :
    Chain.returnHeight height ≠ height := by
  intro h_eq
  have h_nat := congrArg UInt64.toNat h_eq
  rw [toNat_returnHeight] at h_nat
  omega

namespace Update

variable {node : Nat → NodeCall → NodeReply} {n : Nat} {before after : Ledger}
  {identifier : PartialBlockIdentifier} {calls : List NodeCall}

/-- A request that is answered has found its block, gone through the transactions, and shows behind
them what the ledger then holds at the height. -/
theorem play_block {shown : Block}
    (h_play : (block identifier).play node n before = ((.ok shown, after), calls)) :
    ∃ b asked ts others, (Query.namedBlock identifier).play node n = (.ok b, asked) ∧
      (b.txs.mapM (blockTransaction b)).play node (n + asked.length) before =
        ((.ok ts, after), others) ∧
      shown = .ofNode b (ts ++ (after.due b.height).map (Transaction.ofReturn b.status.name)) := by
  obtain ⟨b, _, asked, _, h_query, h_rest, -⟩ := play_bind_eq_ok_iff.mp h_play
  obtain ⟨h_block, rfl⟩ := play_toUpdate_eq_iff.mp h_query
  obtain ⟨ts, between, others, _, h_txs, h_returns, -⟩ := play_bind_eq_ok_iff.mp h_rest
  -- What comes last only reads the ledger.
  cases h_returns
  exact ⟨b, asked, ts, others, h_block, h_txs, rfl⟩

/-- The transactions that are shown are those of the block, and what is written are returns at one
height. -/
theorem exists_put_of_mapM {b : NodeBlock} {ts : List Transaction}
    (h_play : (b.txs.mapM (blockTransaction b)).play node n before = ((.ok ts, after), calls)) :
    ts = b.txs.map (BlockTx.view b.status) ∧
      ∃ returns, after = (before.put (Chain.returnHeight b.height) returns).1 := by
  have h_ends : Ends (fun call reply => ∃ m, reply = node m call) _ before _ _ :=
    ends_play (fun m _ => ⟨m, rfl⟩) (b.txs.mapM (blockTransaction b)) n before
  rw [h_play] at h_ends
  rcases ends_mapM_blockTransaction h_ends with ⟨_, returns, h_shown, h_ok, h_after⟩ |
    ⟨_, _, _, _, _, _, _, _, _, h_ok, _⟩
  · cases h_ok
    exact ⟨h_shown.eq_map_view, returns, h_after⟩
  · cases h_ok

/-- Nothing is written at the height of the block. -/
theorem play_mapM_blockTransaction {b : NodeBlock} {ts : List Transaction}
    (h_play : (b.txs.mapM (blockTransaction b)).play node n before = ((.ok ts, after), calls))
    (h_height : b.height.toNat < 2 ^ 64 - 1) :
    ts = b.txs.map (BlockTx.view b.status) ∧ after.due b.height = before.due b.height := by
  obtain ⟨h_ts, returns, rfl⟩ := exists_put_of_mapM h_play
  exact ⟨h_ts, Ledger.due_put_of_ne (Chain.returnHeight_ne h_height) _ _⟩

/-- A block without withdrawals is shown with nothing asked but for the block, and nothing written. -/
theorem play_block_of_others {b : NodeBlock} {asked : List NodeCall}
    (h_block : (Query.namedBlock identifier).play node n = (.ok b, asked))
    (h_other : ∀ tx ∈ b.txs, ¬ tx.IsWithdrawal) :
    (block identifier).play node n before =
      ((.ok (.ofNode b (b.txs.map (BlockTx.view b.status) ++
        (before.due b.height).map (Transaction.ofReturn b.status.name))), before), asked) := by
  refine play_bind_eq_ok_iff.mpr ⟨b, before, asked, [], play_toUpdate_eq_iff.mpr ⟨h_block, rfl⟩,
    play_bind_eq_ok_iff.mpr ⟨_, before, [], [], ?_, rfl, rfl⟩, (List.append_nil asked).symm⟩
  rw [NodeBlock.mapM_blockTransaction_eq h_other]
  rfl

/-- **A block is complete and in order.** Take any run of a request for a block, with any ledger and
against any node. If it is answered, the node has given a block, and the answer shows each of its
transactions in its place, then the records the ledger holds at its height, before and after the
request, in their order, and nothing else. All operations carry the status of the block.

A withdrawal that cannot be read, or whose stake is not found by the request that is its turn, fails
the whole request. A block without withdrawals is always answered, and nothing is written. -/
theorem block_assembles {outcome : Except ApiError Block}
    (h_play : (block identifier).play node n before = ((outcome, after), calls)) :
    (∀ shown, outcome = .ok shown →
      ∃ b asked, (Query.namedBlock identifier).play node n = (.ok b, asked)) ∧
    ∀ b asked, (Query.namedBlock identifier).play node n = (.ok b, asked) →
      (∀ shown, outcome = .ok shown → b.height.toNat < 2 ^ 64 - 1 →
        shown.transactions = b.txs.map (BlockTx.view b.status) ++
          (before.due b.height).map (Transaction.ofReturn b.status.name) ∧
        after.due b.height = before.due b.height ∧
        ∀ t ∈ shown.transactions, ∀ op ∈ t.description.operations,
          op.status = some b.status.name) ∧
      (∀ (i : Nat) (tx : BlockTx), b.txs[i]? = some tx → tx.IsWithdrawal →
        ((∃ e, Tx.ofNode tx.code tx.raw = .error e) ∨
          ∃ w e, Tx.ofNode tx.code tx.raw = .ok (.withdrawStake w) ∧
            ((Query.resolveStake b.height w).play node
              (n + asked.length + (b.txs.take i).countP (·.IsWithdrawal))).1 = .error e) →
        ∃ e, outcome = .error e) ∧
      ((∀ tx ∈ b.txs, ¬ tx.IsWithdrawal) → (∃ shown, outcome = .ok shown) ∧ after = before) := by
  refine ⟨?_, fun b asked h_block => ⟨?_, ?_, ?_⟩⟩
  · rintro shown rfl
    obtain ⟨b, asked, -, -, h_block, -⟩ := play_block h_play
    exact ⟨b, asked, h_block⟩
  · rintro shown rfl h_height
    obtain ⟨_, _, ts, _, h_block', h_txs, rfl⟩ := play_block h_play
    obtain ⟨h_ok, -⟩ := Prod.mk.inj (h_block.symm.trans h_block')
    cases h_ok
    obtain ⟨rfl, h_due⟩ := play_mapM_blockTransaction h_txs h_height
    refine ⟨congrArg _ (congrArg _ h_due), h_due, fun t h_mem op h_op => ?_⟩
    rcases List.mem_append.mp h_mem with h_tx | h_return
    · obtain ⟨tx, -, rfl⟩ := List.mem_map.mp h_tx
      exact BlockTx.status_of_mem_view h_op
    · obtain ⟨r, -, rfl⟩ := List.mem_map.mp h_return
      exact Operation.status_of_mem_ofLegs h_op
  · intro i tx h_tx h_withdrawal h_stop
    -- A block that is shown has found the stakes of all its withdrawals.
    cases outcome with
    | error e => exact ⟨e, rfl⟩
    | ok shown =>
      obtain ⟨_, _, ts, _, h_block', h_txs, -⟩ := play_block h_play
      cases h_block.symm.trans h_block'
      obtain ⟨w, amount, h_read, h_amount⟩ := found_of_mapM h_txs h_tx h_withdrawal
      rcases h_stop with ⟨e, h_error⟩ | ⟨w', e, h_read', h_error⟩
      · cases h_read.symm.trans h_error
      · cases h_read.symm.trans h_read'
        cases h_amount.symm.trans h_error
  · intro h_other
    cases h_play.symm.trans (play_block_of_others h_block h_other)
    exact ⟨⟨_, rfl⟩, rfl⟩

end Update

/-! ### A block with an unknown transaction -/

namespace SampleBlock

/-- A transaction of a kind that does not exist. -/
def unknown : BlockTx := ⟨.null, 99, .zero, none, none⟩

/-- The block, with a withdrawal in front of the unknown transaction. -/
def block : NodeBlock := SampleChain.block 1 [SampleChain.blockTx, unknown]

/-- The node has this block and the pool. -/
def node : NodeCall → NodeReply
  | .blockAt _ => .ok (SampleChain.blockJson 1 [SampleChain.txJson,
      .object [("type", .ofNat 99), ("hash", .string Hash.zero.toText)]])
  | .stakePool .validator _ => .ok SampleChain.pool
  | _ => .ok .null

/-- The node after the first request: it is out of reach. -/
def lost (n : Nat) (call : NodeCall) : NodeReply :=
  if n = 0 then node call else .error (.timeout 0)

/-- The return that is due in the block. -/
def due : StakeReturn := .ofWithdrawal .zero SampleChain.withdrawal 5

/-- A ledger with this return. -/
def ledger : Ledger := (Ledger.empty.put 1 [due]).1

theorem play_namedBlock : (Query.namedBlock ⟨some 1, none⟩).play (fun _ => node) 0 =
    (.ok block, [.blockAt 1]) := rfl

theorem play_namedBlock_lost : (Query.namedBlock ⟨some 1, none⟩).play lost 0 =
    (.ok block, [.blockAt 1]) := rfl

theorem against_resolveStake :
    (Query.resolveStake 1 SampleChain.withdrawal).against node = .ok 5 := rfl

theorem ofNode_unknown : Tx.ofNode unknown.code unknown.raw = .error (.unknownKind 99) := rfl

theorem not_stops {tx : BlockTx} (h_tx : tx ∈ block.txs) (e : ApiError) :
    ¬ tx.Stops (.fixed node) block e := by
  intro h_stop
  rcases List.mem_pair.mp h_tx with rfl | rfl
  · cases h_stop with
    | unread h_read => cases SampleChain.ofNode_blockTx.symm.trans h_read
    | unresolved h_read h_amount =>
      cases SampleChain.ofNode_blockTx.symm.trans h_read
      cases against_resolveStake.symm.trans (Query.ends_fixed_iff.mp h_amount)
  · cases h_stop with
    | unread _ h_code => exact absurd h_code (by decide)
    | unresolved h_read => cases ofNode_unknown.symm.trans h_read

/-- The block is shown with the return at its end, and not at all when the stake of the withdrawal
cannot be looked up. -/
theorem block_assembles_unknown :
    (∃ shown after calls,
      (Update.block ⟨some 1, none⟩).play (fun _ => node) 0 ledger = ((.ok shown, after), calls) ∧
      shown.transactions = [SampleChain.blockTx.view .trusted, unknown.view .trusted,
        .ofReturn "trusted" due]) ∧
    ∃ e after calls,
      (Update.block ⟨some 1, none⟩).play lost 0 ledger = ((.error e, after), calls) := by
  constructor
  · obtain ⟨shown, h_shown⟩ := Update.exists_shown_against (congrArg Prod.fst play_namedBlock)
      (fun tx h_tx e => not_stops h_tx e) ledger
    obtain ⟨⟨⟨outcome, after⟩, calls⟩, h_play⟩ : ∃ result,
        (Update.block ⟨some 1, none⟩).play (fun _ => node) 0 ledger = result := ⟨_, rfl⟩
    rw [Update.against_eq_play, h_play] at h_shown
    obtain ⟨h_view, -⟩ := (Update.block_assembles h_play).2 _ _ play_namedBlock
    obtain rfl : outcome = .ok shown := h_shown
    exact ⟨shown, after, calls, h_play, (h_view shown rfl (by decide)).1⟩
  · obtain ⟨⟨⟨outcome, after⟩, calls⟩, h_play⟩ : ∃ result,
        (Update.block ⟨some 1, none⟩).play lost 0 ledger = result := ⟨_, rfl⟩
    obtain ⟨-, h_stop, -⟩ := (Update.block_assembles h_play).2 _ _ play_namedBlock_lost
    -- The withdrawal comes first, so its stake is what is asked for next.
    obtain ⟨e, rfl⟩ := h_stop 0 _ rfl rfl (Or.inr ⟨_, _, SampleChain.ofNode_blockTx, rfl⟩)
    exact ⟨e, after, calls, h_play⟩

end SampleBlock

end RosettaGateway
