import RosettaGateway.Api.Router
import RosettaGateway.Proofs.Assembly

/-!
# Serving

Requests of all sorts reach the gateway, for good paths and bad ones, and the node may reply to them
whatever it likes. Only a request for a block changes the ledger, and all that it does is to put
returns of withdrawals in this block at the end of the locking period, even if it fails afterwards.

* `Endpoint.eq_block_of_read` — no other endpoint reads a request for a block;
* `Update.play_block_writes` — what a request for a block writes;
* `Gateway.play_writes` — what any request writes, which is the step of a run;
* `Gateway.ledgerAfter_concat_writes` — the same within a run from an empty ledger.
-/

namespace RosettaGateway

/-! ### Which requests are for a block -/

namespace Endpoint

theorem exists_of_body_eq_ok {α : Type} {fields : Json.Record α} {make : α → Request}
    {text : String} {request : Request} (h_read : body fields make text = .ok request) :
    ∃ a, fields.codec.ofText text = .ok a ∧ request = make a := by
  unfold body at h_read
  cases h_text : fields.codec.ofText text with
  | error fault =>
    rw [h_text] at h_read
    cases h_read
  | ok a =>
    rw [h_text] at h_read
    exact ⟨a, rfl, (Except.ok.inj h_read).symm⟩

/-- Only the endpoint for blocks reads requests for blocks. -/
theorem eq_block_of_read {endpoint : Endpoint} {text : String} {n : Option NetworkIdentifier}
    {identifier : PartialBlockIdentifier}
    (h_read : endpoint.read text = .ok (.block n identifier)) : endpoint = .block := by
  cases endpoint with
  | block => rfl
  | _ =>
    -- Any other endpoint makes a request of its own sort.
    obtain ⟨a, -, h_make⟩ := exists_of_body_eq_ok h_read
    cases h_make

theorem path_of_ofPath? {path : String} {endpoint : Endpoint}
    (h_path : ofPath? path = some endpoint) : endpoint.path = path := by
  rw [ofPath?] at h_path
  have h_beq := List.find?_some h_path
  exact eq_of_beq h_beq

end Endpoint

/-! ### What a request for a block writes -/

namespace Update

variable {α β : Type} {replies : Nat → NodeCall → NodeReply} {n : Nat} {before : Ledger}

/-- The ledger after an update is that after its first part, if this fails, and else that after the
second part. -/
theorem play_bind_ledger (replies : Nat → NodeCall → NodeReply) (n : Nat) (before : Ledger)
    (u : Update α) (f : α → Update β) :
    ((u >>= f).play replies n before).1.2 = (u.play replies n before).1.2 ∨
      ∃ a between calls, u.play replies n before = ((.ok a, between), calls) ∧
        ((u >>= f).play replies n before).1.2 =
          ((f a).play replies (n + calls.length) between).1.2 := by
  obtain ⟨⟨outcome, between⟩, calls, h_first⟩ :
      ∃ first calls, u.play replies n before = (first, calls) := ⟨_, _, rfl⟩
  unfold play at h_first ⊢
  rw [ExceptT.run_bind, StateT.run_bind, Dialogue.run_bind, h_first]
  cases outcome with
  | ok a => exact Or.inr ⟨a, between, calls, rfl, rfl⟩
  | error e => exact Or.inl rfl

theorem play_toUpdate_ledger (q : Query α) : (q.toUpdate.play replies n before).1.2 = before :=
  (play_toUpdate_eq_iff.mp rfl).2

/-- What is left to do once the block is found puts returns of its withdrawals at the end of the
locking period. -/
theorem exists_put_of_ends_rest {answers : Answers} {b : NodeBlock} {after : Ledger}
    {outcome : Except ApiError Block}
    (h_ends : Ends answers
      (do
        let shown ← b.txs.mapM (blockTransaction b)
        let returned ← returns b
        return .ofNode b (shown ++ returned))
      before outcome after) :
    ∃ returns, (∀ r ∈ returns, ∃ tx ∈ b.txs, tx.code = 9 ∧ r.hash = tx.hash) ∧
      after = (before.put (Chain.returnHeight b.height) returns).1 := by
  -- Only the first part writes, so it is enough to see what it has written when it ends.
  obtain ⟨outcome', h_txs⟩ : ∃ outcome', Ends answers (b.txs.mapM (blockTransaction b)) before
      outcome' after := by
    rcases ends_bind_iff.mp h_ends with ⟨ts, written, h_txs, h_rest⟩ | ⟨e, h_txs, -⟩
    · rcases ends_bind_iff.mp h_rest with ⟨due, last, h_due, h_done⟩ | ⟨e, h_due, -⟩
      · obtain ⟨-, rfl⟩ := ends_pure_iff.mp h_done
        obtain ⟨-, rfl⟩ := ends_returns h_due
        exact ⟨_, h_txs⟩
      · cases (ends_returns h_due).1
    · exact ⟨_, h_txs⟩
  obtain ⟨txs, ts, returns, h_prefix, h_shown, h_after⟩ : ∃ txs ts returns, txs <+: b.txs ∧
      b.Shown answers txs ts returns ∧
      after = (before.put (Chain.returnHeight b.height) returns).1 := by
    rcases ends_mapM_blockTransaction h_txs with ⟨ts, returns, h_shown, -, h_after⟩ |
      ⟨shown, tx, rest, ts, returns, e, h_split, h_shown, -, -, h_after⟩
    · exact ⟨_, ts, returns, List.prefix_rfl, h_shown, h_after⟩
    · exact ⟨shown, ts, returns, h_split ▸ List.prefix_append _ _, h_shown, h_after⟩
  refine ⟨returns, ?_, h_after⟩
  intro r h_mem
  obtain ⟨tx, h_tx, w, amount, h_read, -, rfl⟩ := h_shown.exists_of_mem h_mem
  exact ⟨tx, h_prefix.subset h_tx, (Tx.code_of_ofNode h_read).symm, rfl⟩

/-- **What a request for a block writes.** Either nothing, or returns of withdrawals of the block
that it has found, at the end of the locking period of this block. -/
theorem play_block_writes (replies : Nat → NodeCall → NodeReply) (n : Nat) (before : Ledger)
    (identifier : PartialBlockIdentifier) :
    ((block identifier).play replies n before).1.2 = before ∨
      ∃ b calls returns, (Query.namedBlock identifier).play replies n = (.ok b, calls) ∧
        (∀ r ∈ returns, ∃ tx ∈ b.txs, tx.code = 9 ∧ r.hash = tx.hash) ∧
        ((block identifier).play replies n before).1.2 =
          (before.put (Chain.returnHeight b.height) returns).1 := by
  rcases play_bind_ledger replies n before
    (Query.namedBlock identifier).toUpdate _ with h_missing | ⟨b, between, calls, h_found, h_rest⟩
  · exact Or.inl (h_missing.trans (play_toUpdate_ledger _))
  · obtain ⟨h_block, rfl⟩ := play_toUpdate_eq_iff.mp h_found
    -- What was replied at some time is all that the node has to be known by from here on.
    let answers : Answers := fun call reply => ∃ m, reply = replies m call
    have h_replies : ∀ m call, answers call (replies m call) := fun m _ => ⟨m, rfl⟩
    obtain ⟨returns, h_returns, h_after⟩ :=
      exists_put_of_ends_rest (ends_play h_replies _ (n + calls.length) between)
    exact Or.inr ⟨b, calls, returns, h_block, h_returns, h_rest.trans h_after⟩

end Update

/-! ### What a request writes -/

/-- A request over HTTP, with what the node replies while it is answered. -/
structure Visit where
  request : HttpRequest
  replies : Nat → NodeCall → NodeReply

namespace Gateway

/-- What a request is answered, and the ledger after it. -/
def play (g : Gateway) (before : Ledger) (v : Visit) : HttpResponse × Ledger :=
  (((g.serve v.request).run before).run v.replies 0).1

/-- The ledger after requests, one after the other. -/
def ledgerAfter (g : Gateway) (start : Ledger) (visits : List Visit) : Ledger :=
  visits.foldl (fun before v => (g.play before v).2) start

/-- A response is put into words after the ledger has been written. -/
theorem run_respond_ledger (g : Gateway) (request : Request)
    (replies : Nat → NodeCall → NodeReply) (before : Ledger) :
    (((g.respond request).run before).run replies 0).1.2 =
      ((g.answer request).play replies 0 before).1.2 := by
  obtain ⟨⟨outcome, after⟩, calls, h_play⟩ :
      ∃ first calls, (g.answer request).play replies 0 before = (first, calls) := ⟨_, _, rfl⟩
  have h_run : Dialogue.run replies 0 (StateT.run (ExceptT.run (g.answer request)) before) =
      ((outcome, after), calls) := h_play
  rw [h_play, respond, StateT.run_bind, Dialogue.run_bind, h_run]
  cases outcome with
  | ok response => rfl
  | error e => rfl

/-- A request that is refused before its body is understood, and one that is no request for a block,
leaves the ledger alone. -/
theorem play_ledger (g : Gateway) (before : Ledger) (v : Visit) :
    (g.play before v).2 = before ∨
      ∃ n identifier, v.request.path = "/block" ∧
        Endpoint.block.read v.request.body = .ok (.block n identifier) ∧
        (g.play before v).2 = ((Update.block identifier).play v.replies 0 before).1.2 := by
  unfold play serve
  -- Whatever is refused before the body is understood does without the ledger.
  split
  · exact Or.inl rfl
  split
  · exact Or.inl rfl
  split
  · exact Or.inl rfl
  next endpoint h_path =>
  split
  · exact Or.inl rfl
  split
  · exact Or.inl rfl
  split
  · exact Or.inl rfl
  split
  · exact Or.inl rfl
  next request h_read =>
  rw [run_respond_ledger]
  cases request with
  | block n identifier =>
    obtain rfl := Endpoint.eq_block_of_read h_read
    -- The network is checked first, and a request that is refused has written nothing.
    rcases Update.play_bind_ledger v.replies 0 before
      (Query.ofExcept (g.allow n)).toUpdate _ with h_refused | ⟨_, between, calls, h_allowed, h_rest⟩
    · exact Or.inl (h_refused.trans (Update.play_toUpdate_ledger _))
    · obtain ⟨h_allow, rfl⟩ := Update.play_toUpdate_eq_iff.mp h_allowed
      obtain rfl : calls = [] := (Prod.mk.inj h_allow).2.symm
      refine Or.inr ⟨n, identifier, (Endpoint.path_of_ofPath? h_path).symm, h_read, h_rest.trans ?_⟩
      rcases Update.play_bind_ledger v.replies 0 between
        (Update.block identifier) _ with h_failed | ⟨block, written, calls, h_block, h_done⟩
      · exact h_failed
      · rw [h_block]
        exact h_done
  | _ => exact Or.inl (Update.play_toUpdate_ledger _)

/-- **Only requests for blocks write.** -/
theorem play_writes (g : Gateway) (before : Ledger) (v : Visit) :
    (g.play before v).2 = before ∨
      ∃ n identifier b calls returns, v.request.path = "/block" ∧
        Endpoint.block.read v.request.body = .ok (.block n identifier) ∧
        (Query.namedBlock identifier).play v.replies 0 = (.ok b, calls) ∧
        (∀ r ∈ returns, ∃ tx ∈ b.txs, tx.code = 9 ∧ r.hash = tx.hash) ∧
        (g.play before v).2 = (before.put (Chain.returnHeight b.height) returns).1 := by
  rcases g.play_ledger before v with h_same | ⟨n, identifier, h_path, h_read, h_block⟩
  · exact Or.inl h_same
  rw [h_block]
  rcases Update.play_block_writes v.replies 0 before identifier with
    h_same | ⟨b, calls, returns, h_found, h_returns, h_after⟩
  · exact Or.inl h_same
  · exact Or.inr ⟨n, identifier, b, calls, returns, h_path, h_read, h_found, h_returns, h_after⟩

/-- **Only requests for blocks write, and the ledger only grows.** Take any requests, one after the
other and starting with an empty ledger, whatever the node replies while they are answered, and one
more of them. The list of each height before it is a prefix of the list after it, and no height has
two records of one hash. If its path is not that of blocks, it leaves the ledger as it is. Else the
ledger changes at one height at most, which is that of the block that the request has found plus the
locking period, or the last height, and what is new there has the hash of a withdrawal of this block;
whether the request succeeds does not matter. -/
theorem ledgerAfter_concat_writes (g : Gateway) (earlier : List Visit) (v : Visit) :
    let before := g.ledgerAfter .empty earlier
    let after := g.ledgerAfter .empty (earlier ++ [v])
    (∀ height, before.due height <+: after.due height) ∧
    (∀ height, ((after.due height).map (·.hash)).Nodup) ∧
    (v.request.path ≠ "/block" → after = before) ∧
    (after = before ∨
      ∃ n identifier b calls, ∃ due : UInt64,
        Endpoint.block.read v.request.body = .ok (.block n identifier) ∧
        (Query.namedBlock identifier).play v.replies 0 = (.ok b, calls) ∧
        due.toNat = min (b.height.toNat + 28800) (2 ^ 64 - 1) ∧
        (∀ height, height ≠ due → after.due height = before.due height) ∧
        ∀ r ∈ after.due due, r ∈ before.due due ∨ ∃ tx ∈ b.txs, tx.code = 9 ∧ r.hash = tx.hash) := by
  intro before after
  have h_after : after = (g.play before v).2 := List.foldl_concat ..
  rcases g.play_writes before v with
    h_same | ⟨n, identifier, b, calls, returns, h_path, h_read, h_found, h_returns, h_put⟩
  · rw [h_after, h_same]
    exact ⟨fun height => List.prefix_rfl, before.nodup_due, fun _ => rfl, Or.inl rfl⟩
  · refine ⟨?_, after.nodup_due, fun h_ne => absurd h_path h_ne, Or.inr
      ⟨n, identifier, b, calls, Chain.returnHeight b.height, h_read, h_found,
        Chain.toNat_returnHeight b.height, ?_, ?_⟩⟩ <;> rw [h_after, h_put]
    · exact fun height => Ledger.due_prefix_put _ height returns before
    · exact fun height h_ne => Ledger.due_put_of_ne (Ne.symm h_ne) returns before
    · intro r h_mem
      exact (Ledger.mem_due_put h_mem).imp_right fun h_new => h_returns r h_new.2

/-- A request for the block with the withdrawal, whose body is given as an array. -/
example :
    let request : HttpRequest :=
      ⟨"POST", "/block?pretty", some "application/json", "[[\"theta\", \"testnet\"], [1, null]]"⟩
    (Gateway.play ⟨"testnet", true, ""⟩ .empty ⟨request, fun _ => SampleChain.node⟩).2.due 28801 =
      [.ofWithdrawal SampleChain.txHash SampleChain.withdrawal 5] := by
  decide +kernel

end Gateway

end RosettaGateway
