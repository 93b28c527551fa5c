import RosettaGateway.Proofs.Answering
import RosettaGateway.Proofs.Stake.Schedule

/-!
# The block at which an account is read

An answer about an account names a block. For balances, the node has been asked for the account at
the height of this block, and this was the last thing it was asked (`Query.play_balances`). For
coins the node is asked for the latest state of the account, whatever block the answer names
(`Query.play_coins`).

Indices are signed numbers and heights are not, so the two agree only where an index is not
negative. It may be negative in two cases: a request gives it itself, together with a hash, and so
it is never looked up; or a node tells a height beyond the signed numbers, which
`Answers.FitsIndices` rules out.

`Gateway.account_at_block` puts this together for requests over HTTP, and
`Gateway.SampleAccount.not_account_at_block` is about the two cases in which the account is read
elsewhere.
-/

namespace RosettaGateway

/-! ### Heights and indices -/

/-- The signed number with the bits of a number of 64 bits. -/
def wrapped (n : Nat) : Int := if n < 2 ^ 63 then n else n - 0x10000000000000000

theorem indexOfHeight_eq_wrapped (height : UInt64) :
    indexOfHeight height = wrapped height.toNat := by
  rw [indexOfHeight, ← Int64.toInt_toBitVec, UInt64.toBitVec_toInt64, BitVec.toInt_eq_toNat_cond,
    UInt64.toNat_toBitVec, wrapped]
  split <;> split <;> omega

/-- Among the signed numbers a height is its own index. -/
theorem indexOfHeight_eq {height : UInt64} (h_lt : height.toNat < 2 ^ 63) :
    indexOfHeight height = height.toNat := by
  rw [indexOfHeight_eq_wrapped, wrapped, if_pos h_lt]

/-- An index that is not negative is its own height. -/
theorem toNat_heightOfIndex {index : Int} (h_nonneg : 0 ≤ index)
    (h_lt : index < 0x8000000000000000) : ((heightOfIndex index).toNat : Int) = index := by
  show (((Int64.ofInt index).toBitVec.toNat : Nat) : Int) = index
  rw [Int64.toBitVec_ofInt, BitVec.toNat_ofInt]
  omega

/-- A node tells no heights that are beyond the signed numbers. -/
structure Answers.FitsIndices (answers : Answers) : Prop where
  block : ∀ b : NodeBlock, b.IsOf answers → b.height.toNat < 2 ^ 63
  status : ∀ s : NodeStatus, Query.status.Ends answers (.ok s) → s.finalizedHeight.toNat < 2 ^ 63

/-- What the node replies during a visit. -/
def Visit.answers (v : Visit) : Answers := fun call reply => ∃ n, reply = v.replies n call

theorem Visit.answers_of_fixed (r : HttpRequest) (node : NodeCall → NodeReply) :
    (Visit.mk r fun _ => node).answers = .fixed node := by
  funext call reply
  exact propext ⟨fun ⟨_, h_reply⟩ => h_reply, fun h_reply => ⟨0, h_reply⟩⟩

/-! ### Plays -/

namespace Query

variable {α : Type} {answers : Answers} {node : Nat → NodeCall → NodeReply} {n : Nat}
  {calls : List NodeCall}

/-- What a query is played to is something it can end with. -/
theorem ends_of_play {q : Query α} {outcome : Except ApiError α}
    (h_node : ∀ n call, answers call (node n call)) (h_play : q.play node n = (outcome, calls)) :
    q.Ends answers outcome := by
  have h_ends := Dialogue.ends_run h_node (ExceptT.run q) n
  have h_run : Dialogue.run node n (ExceptT.run q) = (outcome, calls) := h_play
  rwa [h_run] at h_ends

/-- One thing is asked, and the reply to it decides. -/
theorem play_ask_eq_iff {call : NodeCall} {interpret : NodeReply → Except NodeError α}
    {otherwise : NodeError → ApiError} {outcome : Except ApiError α} :
    (ask call interpret otherwise).play node n = (outcome, calls) ↔
      (interpret (node n call)).mapError (.ofNode otherwise) = outcome ∧ calls = [call] := by
  refine Prod.mk.injEq .. |>.to_iff.trans ?_
  rw [eq_comm (a := calls)]

theorem play_ofExcept_eq_iff {outcome outcome' : Except ApiError α} :
    (ofExcept outcome).play node n = (outcome', calls) ↔ outcome = outcome' ∧ calls = [] := by
  refine Prod.mk.injEq .. |>.to_iff.trans ?_
  rw [eq_comm (a := calls)]

/-- A query that fails is not followed by another. -/
theorem play_bind_of_error {β : Type} {q : Query α} {f : α → Query β} {e : ApiError}
    (h_play : q.play node n = (.error e, calls)) :
    (q >>= f).play node n = (.error e, calls) := by
  unfold play at h_play ⊢
  rw [ExceptT.run_bind, Dialogue.run_bind_eq_iff]
  exact ⟨_, calls, [], h_play, rfl, (List.append_nil calls).symm⟩

theorem play_demand_eq_ok_iff {e : ApiError} {found : Option α} {a : α} :
    (demand e found).play node n = (.ok a, calls) ↔ found = some a ∧ calls = [] := by
  cases found with
  | none => exact play_ofExcept_eq_iff.trans (by simp)
  | some a' => exact play_ofExcept_eq_iff.trans (by simp)

theorem play_pure_eq_ok_iff {a b : α} :
    (pure a : Query α).play node n = (.ok b, calls) ↔ a = b ∧ calls = [] :=
  play_ofExcept_eq_iff.trans (by rw [Except.ok.injEq])

/-- A check that passes is followed by the rest, and nothing is asked for it. -/
theorem play_check_eq_ok {β : Type} {outcome : Except ApiError α} {f : α → Query β} {b : β}
    (h_play : (ofExcept outcome >>= f).play node n = (.ok b, calls)) :
    ∃ a, outcome = .ok a ∧ (f a).play node n = (.ok b, calls) := by
  obtain ⟨a, _, _, h_check, h_rest, rfl⟩ := play_bind_eq_ok_iff.mp h_play
  obtain ⟨rfl, rfl⟩ := play_ofExcept_eq_iff.mp h_check
  exact ⟨a, rfl, h_rest⟩

theorem play_need_eq_ok {β : Type} {e : ApiError} {found : Option α} {f : α → Query β}
    {b : β} (h_play : (demand e found >>= f).play node n = (.ok b, calls)) :
    ∃ a, found = some a ∧ (f a).play node n = (.ok b, calls) := by
  obtain ⟨a, _, _, h_demand, h_rest, rfl⟩ := play_bind_eq_ok_iff.mp h_play
  obtain ⟨rfl, rfl⟩ := play_demand_eq_ok_iff.mp h_demand
  exact ⟨a, rfl, h_rest⟩

/-! ### Which block is meant -/

/-- How a request for balances comes by its block. -/
inductive Resolves (answers : Answers) : Option PartialBlockIdentifier → BlockIdentifier → Prop
  | given (index : Int) (hash : String) :
    Resolves answers (some ⟨some index, some hash⟩) ⟨index, hash⟩
  | named {id : PartialBlockIdentifier} {b : NodeBlock} (h_half : id.index = none ∨ id.hash = none)
    (h_named : (namedBlock id).Ends answers (.ok b)) :
    Resolves answers (some id) (.ofBlock b.height b.hash)
  | finalized {id : Option PartialBlockIdentifier} {s : NodeStatus} (h_neither : id.getD {} = {})
    (h_status : status.Ends answers (.ok s)) :
    Resolves answers id (.ofBlock s.finalizedHeight s.finalizedHash)

theorem resolves_of_ends {id : Option PartialBlockIdentifier} {block : BlockIdentifier}
    (h_ends : (resolveBlock id).Ends answers (.ok block)) : Resolves answers id block := by
  -- An identifier has both of its parts, one of them or none, and may be missing as a whole.
  match id, h_ends with
  | none, h_ends | some ⟨none, none⟩, h_ends =>
    obtain ⟨s, h_status, h_done⟩ := ends_bind_ok_iff.mp h_ends
    obtain rfl := Except.ok.inj (ends_pure_iff.mp h_done)
    exact .finalized rfl h_status
  | some ⟨some index, some hash⟩, h_ends =>
    obtain rfl := Except.ok.inj (ends_ofExcept_iff.mp h_ends)
    exact .given index hash
  | some ⟨some index, none⟩, h_ends =>
    obtain ⟨b, h_block, h_done⟩ := ends_bind_ok_iff.mp h_ends
    obtain rfl := Except.ok.inj (ends_pure_iff.mp h_done)
    exact .named (Or.inr rfl) h_block
  | some ⟨none, some hash⟩, h_ends =>
    obtain ⟨b, h_block, h_done⟩ := ends_bind_ok_iff.mp h_ends
    obtain rfl := Except.ok.inj (ends_pure_iff.mp h_done)
    exact .named (Or.inl rfl) h_block

/-- A block that the node names has an index that is not negative, and so has one that is given with
a hash and is not negative. -/
theorem Resolves.index_bounds {id : Option PartialBlockIdentifier} {block : BlockIdentifier}
    (h_resolves : Resolves answers id block) (h_fits : answers.FitsIndices)
    (h_given : ∀ i s, id = some ⟨some i, some s⟩ → 0 ≤ i ∧ i < 0x8000000000000000) :
    0 ≤ block.index ∧ block.index < 0x8000000000000000 := by
  have h_height : ∀ (height : UInt64) (hash : Hash), height.toNat < 2 ^ 63 →
      0 ≤ (BlockIdentifier.ofBlock height hash).index ∧
        (BlockIdentifier.ofBlock height hash).index < 0x8000000000000000 := by
    intro height hash h_lt
    have h_index : (BlockIdentifier.ofBlock height hash).index = height.toNat :=
      indexOfHeight_eq h_lt
    omega
  cases h_resolves with
  | given index hash => exact h_given index hash rfl
  | named _ h_named => exact h_height _ _ (h_fits.block _ ⟨_, h_named⟩)
  | finalized _ h_status => exact h_height _ _ (h_fits.status _ h_status)

/-! ### What the node is asked -/

theorem play_status {s : NodeStatus} (h_play : status.play node n = (.ok s, calls)) :
    calls = [.status] ∧
      NodeReply.read .status NodeStatus.json.ofJson (node n .status) = .ok s := by
  obtain ⟨h_reply, rfl⟩ := play_ask_eq_iff.mp h_play
  exact ⟨rfl, Outcome.mapError_eq_ok_iff.mp h_reply⟩

theorem play_block {call : NodeCall} {b : NodeBlock}
    (h_play : (block call).play node n = (.ok b, calls)) :
    calls = [call] ∧ NodeReply.find call NodeBlock.json.ofJson (node n call) = .ok (some b) := by
  obtain ⟨found, _, _, h_find, h_demand, rfl⟩ := play_bind_eq_ok_iff.mp h_play
  obtain ⟨h_reply, rfl⟩ := play_ask_eq_iff.mp h_find
  obtain ⟨rfl, rfl⟩ := play_demand_eq_ok_iff.mp h_demand
  exact ⟨rfl, Outcome.mapError_eq_ok_iff.mp h_reply⟩

theorem play_finalizedBlock {block : BlockIdentifier}
    (h_play : finalizedBlock.play node n = (.ok block, calls)) :
    ∃ s, calls = [.status] ∧
      NodeReply.read .status NodeStatus.json.ofJson (node n .status) = .ok s ∧
      block = .ofBlock s.finalizedHeight s.finalizedHash := by
  obtain ⟨s, _, _, h_status, h_done, rfl⟩ := play_bind_eq_ok_iff.mp h_play
  obtain ⟨rfl, h_told⟩ := play_status h_status
  obtain ⟨rfl, rfl⟩ := play_pure_eq_ok_iff.mp h_done
  exact ⟨s, rfl, h_told, rfl⟩

theorem calls_heightOf {index : Int} {height : UInt64}
    (h_play : (heightOf index).play node n = (.ok height, calls)) : calls = [] := by
  unfold heightOf at h_play
  split at h_play
  · cases (play_ofExcept_eq_iff.mp h_play).1
  · exact (play_ofExcept_eq_iff.mp h_play).2

/-- A block is found without any account. -/
theorem account_not_mem_of_resolveBlock {id : Option PartialBlockIdentifier}
    {block : BlockIdentifier} (h_play : (resolveBlock id).play node n = (.ok block, calls))
    (address : Address) (height : Option UInt64) : .account address height ∉ calls := by
  match id, h_play with
  | none, h_play | some ⟨none, none⟩, h_play =>
    obtain ⟨s, rfl, -⟩ := play_finalizedBlock h_play
    simp
  | some ⟨some index, some hash⟩, h_play =>
    rw [(play_ofExcept_eq_iff.mp h_play).2]
    exact List.not_mem_nil
  | some ⟨some index, none⟩, h_play =>
    obtain ⟨b, first, rest, h_named, h_done, rfl⟩ := play_bind_eq_ok_iff.mp h_play
    obtain ⟨-, rfl⟩ := play_pure_eq_ok_iff.mp h_done
    obtain ⟨height, first, rest, h_height, h_block, rfl⟩ := play_bind_eq_ok_iff.mp h_named
    -- The index is checked before the node is asked for the block.
    rw [calls_heightOf h_height, (play_block h_block).1]
    simp
  | some ⟨none, some hash⟩, h_play =>
    obtain ⟨b, first, rest, h_named, h_done, rfl⟩ := play_bind_eq_ok_iff.mp h_play
    obtain ⟨-, rfl⟩ := play_pure_eq_ok_iff.mp h_done
    obtain ⟨hash, first, rest, h_hash, h_block, rfl⟩ := play_bind_eq_ok_iff.mp h_named
    obtain ⟨-, rfl⟩ := play_demand_eq_ok_iff.mp h_hash
    rw [(play_block h_block).1]
    simp

/-- An account is what the node replies to one request, and nothing if there is none. -/
theorem play_account {address : Address} {height : Option UInt64} {a : NodeAccount}
    (h_play : (account address height).play node n = (.ok a, calls)) :
    calls = [.account address height] ∧
      ∃ found, NodeReply.find (.account address height) NodeAccount.json.ofJson
        (node n (.account address height)) = .ok found ∧ a = found.getD {} := by
  obtain ⟨found, first, rest, h_find, h_done, rfl⟩ := play_bind_eq_ok_iff.mp h_play
  obtain ⟨h_reply, rfl⟩ := play_ask_eq_iff.mp h_find
  obtain ⟨rfl, rfl⟩ := play_pure_eq_ok_iff.mp h_done
  exact ⟨rfl, found, Outcome.mapError_eq_ok_iff.mp h_reply, rfl⟩

/-- **Balances are read at the block that they name.** The node is asked for the account last and
once, at the height of this block. -/
theorem play_balances (h_node : ∀ n call, answers call (node n call)) {text : String}
    {id : Option PartialBlockIdentifier} {currencies : Option (List Currency)}
    {state : AccountState}
    (h_play : (balances text id currencies).play node n = (.ok state, calls)) :
    ∃ address asked found, Resolves answers id state.block ∧
      calls = asked ++ [.account address (some (heightOfIndex state.block.index))] ∧
      (∀ other height, .account other height ∉ asked) ∧
      Address.ofText? text = some address ∧
      NodeReply.find (.account address (some (heightOfIndex state.block.index)))
        NodeAccount.json.ofJson (node (n + asked.length)
          (.account address (some (heightOfIndex state.block.index)))) = .ok found ∧
      state = .ofNode state.block currencies (found.getD {}) := by
  -- The address is read without the node, then the block is found, then the account.
  obtain ⟨address, first, rest, h_address, h_rest, rfl⟩ := play_bind_eq_ok_iff.mp h_play
  obtain ⟨h_text, rfl⟩ := play_demand_eq_ok_iff.mp h_address
  obtain ⟨block, asked, rest, h_block, h_state, rfl⟩ := play_bind_eq_ok_iff.mp h_rest
  obtain ⟨a, last, rest, h_account, h_done, rfl⟩ := play_bind_eq_ok_iff.mp h_state
  obtain ⟨rfl, found, h_found, rfl⟩ := play_account h_account
  obtain ⟨rfl, rfl⟩ := play_pure_eq_ok_iff.mp h_done
  exact ⟨address, asked, found, resolves_of_ends (ends_of_play h_node h_block), rfl,
    account_not_mem_of_resolveBlock h_block, h_text, h_found, rfl⟩

/-- **Coins are read at the latest state**, and the block that they name is the last final one. -/
theorem play_coins (h_node : ∀ n call, answers call (node n call)) {text : String}
    {currencies : Option (List Currency)} {state : AccountState}
    (h_play : (coins text currencies).play node n = (.ok state, calls)) :
    ∃ address found, Resolves answers none state.block ∧
      calls = [.status, .account address none] ∧
      Address.ofText? text = some address ∧
      NodeReply.find (.account address none) NodeAccount.json.ofJson
        (node (n + 1) (.account address none)) = .ok found ∧
      state = .ofNode state.block currencies (found.getD {}) := by
  obtain ⟨address, first, rest, h_address, h_rest, rfl⟩ := play_bind_eq_ok_iff.mp h_play
  obtain ⟨h_text, rfl⟩ := play_demand_eq_ok_iff.mp h_address
  obtain ⟨block, asked, rest, h_block, h_state, rfl⟩ := play_bind_eq_ok_iff.mp h_rest
  obtain ⟨s, rfl, -⟩ := play_finalizedBlock h_block
  obtain ⟨a, last, rest, h_account, h_done, rfl⟩ := play_bind_eq_ok_iff.mp h_state
  obtain ⟨rfl, found, h_found, rfl⟩ := play_account h_account
  obtain ⟨rfl, rfl⟩ := play_pure_eq_ok_iff.mp h_done
  exact ⟨address, found, resolves_of_ends (ends_of_play h_node h_block), rfl, h_text, h_found, rfl⟩

/-- A negative index without a hash ends a request for balances before the node is asked. -/
theorem play_balances_of_neg {text : String} {address : Address} {index : Int}
    (h_text : Address.ofText? text = some address) (h_neg : index < 0)
    (currencies : Option (List Currency)) :
    (balances text (some ⟨some index, none⟩) currencies).play node n =
      (.error (.invalidInput ("negative block index " ++ Numeral.ofInt index)), []) := by
  rw [balances, addressOf, h_text, resolveBlock, blockWithIndex, heightOf, if_pos h_neg]
  rfl

end Query

/-! ### Requests over HTTP -/

namespace Gateway

variable {g : Gateway} {v : Visit}

/-- What has been admitted and then found is the answer. -/
theorem play_of_allowed {α : Type} {n : Option NetworkIdentifier} {q : Query α}
    {make : α → Response} {result : Response} {calls : List NodeCall}
    (h_play : (do
      Query.ofExcept (g.allow n)
      let a ← q
      return make a : Query Response).play v.replies 0 = (.ok result, calls)) :
    ∃ a, q.play v.replies 0 = (.ok a, calls) ∧ result = make a := by
  obtain ⟨_, first, rest, h_allow, h_rest, rfl⟩ := Query.play_bind_eq_ok_iff.mp h_play
  obtain ⟨-, rfl⟩ := Query.play_ofExcept_eq_iff.mp h_allow
  obtain ⟨a, asked, last, h_found, h_done, rfl⟩ := Query.play_bind_eq_ok_iff.mp h_rest
  obtain ⟨rfl, rfl⟩ := Query.play_pure_eq_ok_iff.mp h_done
  refine ⟨a, ?_, rfl⟩
  rw [List.nil_append, List.append_nil]
  exact h_found

/-- **An account is read at the block that is reported**, for balances. Whenever a request for
balances succeeds, the node has been asked for the account last and once, and the answer tells the
block and what the node has replied. The height in this question is the index of the block, unless
the request itself gives a negative index together with a hash or the node tells a height that is
beyond the signed numbers. A negative index without a hash is always refused before the node is
asked, if the request is admitted and its address is valid.

For coins it is otherwise: the answer tells the last final block, and the account is read at the
latest state. -/
theorem account_at_block (g : Gateway) (before : Ledger) (v : Visit)
    (network : Option NetworkIdentifier) (account : AccountIdentifier)
    (currencies : Option (List Currency)) :
    (∀ id, v.request.Asks .accountBalance (.accountBalance network account id currencies) →
      (g.converse before v).1.1.status = 200 →
      ∃ address height asked found block,
        Address.ofText? account.address = some address ∧
        g.converse before v =
          ((⟨200, .json (Response.balances (.ofNode block currencies (found.getD {}))).toJson⟩,
            before), asked ++ [.account address (some height)]) ∧
        (∀ other h, .account other h ∉ asked) ∧
        NodeReply.find (.account address (some height)) NodeAccount.json.ofJson
          (v.replies asked.length (.account address (some height))) = .ok found ∧
        (v.answers.FitsIndices → (∀ i s, id = some ⟨some i, some s⟩ → 0 ≤ i) →
          (height.toNat : Int) = block.index)) ∧
    (∀ index address,
      v.request.Asks .accountBalance
        (.accountBalance network account (some ⟨some index, none⟩) currencies) →
      g.allow network = .ok () → Address.ofText? account.address = some address → index < 0 →
      g.converse before v =
        ((⟨500, .json (ApiError.invalidInput ("negative block index " ++
          Numeral.ofInt index)).toJson⟩, before), [])) ∧
    (∀ includeMempool,
      v.request.Asks .accountCoins (.accountCoins network account includeMempool currencies) →
      (g.converse before v).1.1.status = 200 →
      ∃ address found block,
        Address.ofText? account.address = some address ∧
        g.converse before v =
          ((⟨200, .json (Response.coins (.ofNode block currencies (found.getD {}))).toJson⟩,
            before), [.status, .account address none]) ∧
        NodeReply.find (.account address none) NodeAccount.json.ofJson
          (v.replies 1 (.account address none)) = .ok found ∧
        (v.answers.FitsIndices → 0 ≤ block.index)) := by
  have h_replies : ∀ n call, v.answers call (v.replies n call) := fun n _ => ⟨n, rfl⟩
  refine ⟨fun id h_asks h_status => ?_, fun index address h_asks h_allow h_text h_neg => ?_,
    fun includeMempool h_asks h_status => ?_⟩
  · obtain ⟨result, calls, h_play, h_converse⟩ := exists_look_of_status h_asks (by decide) h_status
    obtain ⟨state, h_balances, rfl⟩ := play_of_allowed h_play
    obtain ⟨address, asked, found, h_block, rfl, h_none, h_text, h_found, h_state⟩ :=
      Query.play_balances h_replies h_balances
    rw [Nat.zero_add] at h_found
    refine ⟨address, _, asked, found, state.block, h_text, ?_, h_none, h_found, ?_⟩
    · rw [h_converse, ← h_state]
    · intro h_fits h_given
      -- An index in a request is a signed number, so it is its own height if it is not negative.
      have h_bounds := h_block.index_bounds h_fits fun i s h_id => by
        subst h_id
        exact ⟨h_given i s rfl, (Endpoint.fits_of_read_accountBalance h_asks.read_eq i rfl).2⟩
      exact toNat_heightOfIndex h_bounds.1 h_bounds.2
  · have h_refused : (g.look (.accountBalance network account (some ⟨some index, none⟩)
        currencies)).play v.replies 0 =
        (.error (.invalidInput ("negative block index " ++ Numeral.ofInt index)), []) := by
      rw [look, h_allow]
      show Query.play v.replies 0 (Query.balances account.address (some ⟨some index, none⟩)
        currencies >>= fun state => pure (Response.balances state)) = _
      exact Query.play_bind_of_error (Query.play_balances_of_neg h_text h_neg currencies)
    exact converse_of_look h_asks (by decide) h_refused
  · obtain ⟨result, calls, h_play, h_converse⟩ := exists_look_of_status h_asks (by decide) h_status
    obtain ⟨state, h_coins, rfl⟩ := play_of_allowed h_play
    obtain ⟨address, found, h_block, rfl, h_text, h_found, h_state⟩ :=
      Query.play_coins h_replies h_coins
    refine ⟨address, found, state.block, h_text, ?_, h_found, ?_⟩
    · rw [h_converse, ← h_state]
    · intro h_fits
      exact (h_block.index_bounds h_fits fun i s h_id => by cases h_id).1

end Gateway

/-! ### Accounts of a sample node -/

/-- The index of the block that an answer names. -/
def HttpResponse.blockIndex? (response : HttpResponse) : Option Int :=
  match response.content with
  | .json v => ((v.get? "block_identifier").bind (·.get? "index")).bind Json.Codec.integer?
  | _ => none

namespace SampleAccount

/-- The text of the account of zero bytes. -/
def addressText : String := "0x0000000000000000000000000000000000000000"

/-- The network of the account. -/
def network : NetworkIdentifier := ⟨"theta", "testnet", none⟩

/-- A request whose body has the network and some more items. -/
def asked (endpoint : Endpoint) (items : String) : HttpRequest :=
  ⟨"POST", endpoint.path, some "application/json", "[[\"theta\", \"testnet\"]" ++ items ++ "]"⟩

/-- The account as an item of a body. -/
def accountItem : String := ", [\"" ++ addressText ++ "\"]"

/-- The block of a request for balances of the account in all coins. -/
def balancesOf? : Request → Option (Option PartialBlockIdentifier)
  | .accountBalance n a id none =>
    if n = some network ∧ a.address = addressText then some id else none
  | _ => none

/-- Whether the mempool counts, of a request for coins of the account of all sorts. -/
def coinsOf? : Request → Option Bool
  | .accountCoins n a includeMempool none =>
    if n = some network ∧ a.address = addressText then some includeMempool else none
  | _ => none

theorem eq_of_balancesOf? {request : Request} {id : Option PartialBlockIdentifier}
    (h_request : balancesOf? request = some id) : ∃ account : AccountIdentifier,
      account.address = addressText ∧ request = .accountBalance (some network) account id none := by
  unfold balancesOf? at h_request
  split at h_request
  · split at h_request
    · next h_same =>
      obtain ⟨rfl, h_address⟩ := h_same
      cases h_request
      exact ⟨_, h_address, rfl⟩
    · cases h_request
  · cases h_request

theorem eq_of_coinsOf? {request : Request} {includeMempool : Bool}
    (h_request : coinsOf? request = some includeMempool) : ∃ account : AccountIdentifier,
      account.address = addressText ∧
        request = .accountCoins (some network) account includeMempool none := by
  unfold coinsOf? at h_request
  split at h_request
  · split at h_request
    · next h_same =>
      obtain ⟨rfl, h_address⟩ := h_same
      cases h_request
      exact ⟨_, h_address, rfl⟩
    · cases h_request
  · cases h_request

theorem path_asked (endpoint : Endpoint) (items : String) :
    (asked endpoint items).path = endpoint.path := by
  show String.ofList (endpoint.path.toList.takeWhile fun c => c != '?' && c != '#') = endpoint.path
  cases endpoint <;> decide

/-- A body with few items is not too large. -/
theorem size_asked {items : String} (h_items : items.utf8ByteSize ≤ 200) (endpoint : Endpoint) :
    (asked endpoint items).body.utf8ByteSize ≤ Gateway.maxBodySize := by
  have h_front : "[[\"theta\", \"testnet\"]".utf8ByteSize = 21 := by decide
  have h_back : "]".utf8ByteSize = 1 := by decide
  show ("[[\"theta\", \"testnet\"]" ++ items ++ "]").utf8ByteSize ≤ 2_097_152
  rw [String.utf8ByteSize_append, String.utf8ByteSize_append, h_front, h_back]
  omega

/-- What is read from a request of the sample. -/
def readOf (endpoint : Endpoint) (items : String) : Option Request :=
  (endpoint.read (asked endpoint items).body).toOption

/-- A request of the sample is well-formed if something can be said of what is read from it. -/
theorem exists_asks {α : Type} {endpoint : Endpoint} {items : String} {view : Request → Option α}
    {a : α} (h_items : items.utf8ByteSize ≤ 200)
    (h_view : (readOf endpoint items).bind view = some a) :
    ∃ request, (asked endpoint items).Asks endpoint request ∧ view request = some a := by
  obtain ⟨request, h_some, h_request⟩ := Option.bind_eq_some_iff.mp h_view
  have h_json : (asked endpoint items).contentType.any MediaType.isJson = true := by
    show MediaType.isJson "application/json" = true
    decide
  exact ⟨request, ⟨rfl, path_asked endpoint items, h_json, size_asked h_items endpoint,
    Outcome.eq_ok_of_toOption h_some⟩, h_request⟩

/-- A request of the sample is well-formed if its network can be read. -/
theorem exists_asks_of_network {endpoint : Endpoint} {items : String}
    (h_items : items.utf8ByteSize ≤ 200)
    (h_view : (readOf endpoint items).bind Request.network = some network) :
    ∃ request, (asked endpoint items).Asks endpoint request := by
  obtain ⟨request, h_asks, -⟩ := exists_asks h_items h_view
  exact ⟨request, h_asks⟩

/-- The gateway and its node. -/
def gateway : Gateway := ⟨"testnet", true, ""⟩

/-- A request to the gateway, with the node that shows a withdrawal in its pool. -/
def visit (endpoint : Endpoint) (items : String) : Visit :=
  ⟨asked endpoint items, fun _ => SampleSnapshot.node⟩

/-- The node tells no heights beyond the signed numbers. -/
theorem fitsIndices (endpoint : Endpoint) (items : String) :
    (visit endpoint items).answers.FitsIndices := by
  rw [visit, Visit.answers_of_fixed]
  constructor
  · intro b h_of
    rcases SampleChain.eq_of_isOf (SampleSnapshot.isOf_iff.mp h_of) with rfl | rfl
    · decide
    · decide
  · intro s h_status
    rw [Query.ends_fixed_iff] at h_status
    cases h_status
    decide

/-- What is read from three requests, and how the two that are not refused are answered. -/
theorem read_and_answered :
    ((readOf .accountBalance (accountItem ++ ", [1, null]")).bind balancesOf? =
        some (some ⟨some 1, none⟩) ∧
      (readOf .accountBalance (accountItem ++ ", [-1, null]")).bind balancesOf? =
        some (some ⟨some (-1), none⟩) ∧
      (readOf .accountCoins accountItem).bind coinsOf? = some false) ∧
    ((gateway.converse .empty
        (visit .accountBalance (accountItem ++ ", [1, null]"))).1.1.status = 200 ∧
      (gateway.converse .empty (visit .accountBalance (accountItem ++ ", [1, null]"))).2 =
        [.blockAt 1] ++ [.account .zero (some 1)]) ∧
    (gateway.converse .empty (visit .accountCoins accountItem)).1.1.status = 200 := by
  decide +kernel

theorem exists_asks_first : ∃ account : AccountIdentifier,
    (asked .accountBalance (accountItem ++ ", [1, null]")).Asks .accountBalance
      (.accountBalance (some network) account (some ⟨some 1, none⟩) none) := by
  obtain ⟨⟨h_view, -⟩, -⟩ := read_and_answered
  obtain ⟨request, h_asks, h_request⟩ := exists_asks (by decide) h_view
  obtain ⟨account, -, rfl⟩ := eq_of_balancesOf? h_request
  exact ⟨account, h_asks⟩

theorem exists_asks_coins : ∃ account : AccountIdentifier, account.address = addressText ∧
    (asked .accountCoins accountItem).Asks .accountCoins
      (.accountCoins (some network) account false none) := by
  obtain ⟨⟨-, -, h_view⟩, -⟩ := read_and_answered
  obtain ⟨request, h_asks, h_request⟩ := exists_asks (by decide) h_view
  obtain ⟨account, h_address, rfl⟩ := eq_of_coinsOf? h_request
  exact ⟨account, h_address, h_asks⟩

/-- The account is read at the first block when it is asked for there, it is not read at a block
before all others, and its coins are those of the latest state. -/
theorem account_at_block_first :
    (∃ found block, gateway.converse .empty (visit .accountBalance (accountItem ++ ", [1, null]")) =
      ((⟨200, .json (Response.balances (.ofNode block none found)).toJson⟩, .empty),
        [.blockAt 1, .account .zero (some 1)]) ∧ block.index = 1) ∧
    gateway.converse .empty (visit .accountBalance (accountItem ++ ", [-1, null]")) =
      ((⟨500, .json (ApiError.invalidInput "negative block index -1").toJson⟩, .empty), []) ∧
    ∃ found block, gateway.converse .empty (visit .accountCoins accountItem) =
      ((⟨200, .json (Response.coins (.ofNode block none found)).toJson⟩, .empty),
        [.status, .account .zero none]) ∧ 0 ≤ block.index := by
  have h_zero : Address.ofText? addressText = some .zero := by decide
  obtain ⟨⟨-, h_view, -⟩, ⟨h_status, h_calls⟩, h_status'⟩ := read_and_answered
  refine ⟨?_, ?_, ?_⟩
  · -- What the account holds besides its address does not matter, so it is not spelled out.
    obtain ⟨account, h_asks⟩ := exists_asks_first
    obtain ⟨h_balances, -, -⟩ := gateway.account_at_block .empty
      (visit .accountBalance (accountItem ++ ", [1, null]")) (some network) account none
    obtain ⟨address, height, calls, found, block, -, h_converse, -, -, h_height⟩ :=
      h_balances _ h_asks h_status
    -- The last call tells the address and the height that the theorem leaves open.
    rw [h_converse] at h_calls
    obtain ⟨rfl, h_last⟩ := List.append_inj' h_calls rfl
    cases h_last
    exact ⟨_, block, h_converse, (h_height (fitsIndices _ _) (by simp)).symm⟩
  · obtain ⟨request, h_asks, h_request⟩ := exists_asks (by decide) h_view
    obtain ⟨account, h_address, rfl⟩ := eq_of_balancesOf? h_request
    obtain ⟨-, h_refused, -⟩ := gateway.account_at_block .empty
      (visit .accountBalance (accountItem ++ ", [-1, null]")) (some network) account none
    exact h_refused _ .zero h_asks (by decide) (h_address ▸ h_zero) (by decide)
  · obtain ⟨account, h_address, h_asks⟩ := exists_asks_coins
    obtain ⟨-, -, h_coins⟩ := gateway.account_at_block .empty (visit .accountCoins accountItem)
      (some network) account none
    obtain ⟨address, found, block, h_text, h_converse, -, h_index⟩ := h_coins _ h_asks h_status'
    rw [h_address, h_zero] at h_text
    cases h_text
    exact ⟨_, block, h_converse, h_index (fitsIndices _ _)⟩

/-- The node is at height 42, and the account has changed since then. -/
def laterNode : NodeCall → NodeReply
  | .status => .ok (.object [("latest_finalized_block_height", .string "42")])
  | .account _ none => .ok (.object [("sequence", .ofNat 7)])
  | .account _ (some _) => .ok (.object [("sequence", .ofNat 5)])
  | _ => .ok .null

/-- The coins of the account are asked for. -/
def coinsVisit : Visit := ⟨asked .accountCoins accountItem, fun _ => laterNode⟩

/-- The balances of the account are asked for at a block in front of all others. -/
def balancesVisit : Visit :=
  ⟨asked .accountBalance (accountItem ++ ", [-1, \"" ++ Hash.zero.toText ++ "\"]"),
    fun _ => laterNode⟩

/-- **An account is not always read at the block that is reported.** Coins are reported at block 42,
but the account is read without a height. Balances are reported at a block in front of all others,
but the account is read at the last height of all. -/
theorem not_account_at_block :
    ((gateway.converse .empty coinsVisit).1.1.status = 200 ∧
      (gateway.converse .empty coinsVisit).1.1.blockIndex? = some 42 ∧
      (gateway.converse .empty coinsVisit).2 = [.status, .account .zero none]) ∧
    (gateway.converse .empty balancesVisit).1.1.status = 200 ∧
      (gateway.converse .empty balancesVisit).1.1.blockIndex? = some (-1) ∧
      (gateway.converse .empty balancesVisit).2 = [.account .zero (some 0xffffffffffffffff)] := by
  decide +kernel

end SampleAccount

end RosettaGateway
