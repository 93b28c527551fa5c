import RosettaGateway.Proofs.Assembly
import RosettaGateway.Proofs.PartialIdentifiers

/-!
# What the options publish

The answer to a request for options publishes the types and the statuses of operations. What blocks
and transactions show is measured by it (`Operation.IsPublished`).

Every operation comes from a leg of a transaction, and so its type is a published one. As for its
status there are two ways. The status of a block has been read, so all operations of a block have a
published status. The status of a single transaction is passed on as the node has put it: it is a
published one just if it happens to be the name of a status of blocks.
`Gateway.operations_published` says so for requests over HTTP, and
`SamplePublished.not_operations_published` shows what becomes of another status.
-/

namespace RosettaGateway

/-! ### Options -/

namespace HttpResponse

/-- What an answer allows under a name. -/
def allowed (response : HttpResponse) (name : String) : List Json :=
  match response.content with
  | .json v =>
    match (v.get? "allow").bind (·.get? name) with
    | some (.array items) => items
    | _ => []
  | _ => []

/-- The types of operations that an answer publishes. -/
def types (response : HttpResponse) : List String :=
  (response.allowed "operation_types").filterMap Json.string?

/-- The statuses of operations that an answer publishes. -/
def statuses (response : HttpResponse) : List String :=
  (response.allowed "operation_statuses").filterMap fun item =>
    (item.get? "status").bind Json.string?

end HttpResponse

/-- The type and the status of an operation are among those that are published. -/
structure Operation.IsPublished (op : Operation) (options : HttpResponse) : Prop where
  type : op.type ∈ options.types
  status : ∃ s ∈ options.statuses, op.status = some s

theorem OperationType.mem_all (t : OperationType) : t ∈ all := by cases t <;> decide

theorem BlockStatus.mem_all (s : BlockStatus) : s ∈ all := by cases s <;> decide

namespace Gateway

/-- The options publish all types. -/
theorem name_mem_types (g : Gateway) (t : OperationType) :
    t.name ∈ (HttpResponse.mk 200 (.json g.options)).types :=
  List.mem_map_of_mem (f := OperationType.name) t.mem_all

/-- The options publish the statuses of blocks, and no others. -/
theorem mem_statuses_iff (g : Gateway) (name : String) :
    name ∈ (HttpResponse.mk 200 (.json g.options)).statuses ↔ ∃ s : BlockStatus, name = s.name := by
  have h_statuses : (HttpResponse.mk 200 (.json g.options)).statuses =
      BlockStatus.all.map BlockStatus.name := rfl
  rw [h_statuses, List.mem_map]
  constructor
  · rintro ⟨s, -, rfl⟩
    exact ⟨s, rfl⟩
  · rintro ⟨s, rfl⟩
    exact ⟨s, s.mem_all, rfl⟩

end Gateway

/-! ### Operations -/

/-- An operation that has become of legs has the type of one of them. -/
theorem Operation.type_of_mem_ofLegs {status : Option String} {legs : List Leg} {op : Operation}
    (h_mem : op ∈ ofLegs status legs) : ∃ t : OperationType, op.type = t.name := by
  obtain ⟨i, h_lt, rfl⟩ := List.mem_mapIdx.mp h_mem
  exact ⟨legs[i].type, rfl⟩

/-- An operation that has become of legs is published if its status is. -/
theorem Operation.isPublished_of_mem_ofLegs {g : Gateway} {s : BlockStatus} {legs : List Leg}
    {op : Operation} (h_mem : op ∈ ofLegs (some s.name) legs) :
    op.IsPublished ⟨200, .json g.options⟩ where
  type := by
    obtain ⟨t, h_type⟩ := type_of_mem_ofLegs h_mem
    exact h_type ▸ g.name_mem_types t
  status := ⟨s.name, (g.mem_statuses_iff _).mpr ⟨s, rfl⟩, status_of_mem_ofLegs h_mem⟩

/-- What a block shows of a transaction is published. -/
theorem BlockTx.isPublished_of_mem_view {g : Gateway} {s : BlockStatus} {tx : BlockTx}
    {op : Operation} (h_mem : op ∈ (tx.view s).description.operations) :
    op.IsPublished ⟨200, .json g.options⟩ := by
  unfold view at h_mem
  split at h_mem
  · cases h_mem
  · exact Operation.isPublished_of_mem_ofLegs h_mem

/-! ### Blocks and transactions -/

section Plays

variable {node : Nat → NodeCall → NodeReply} {n : Nat} {calls : List NodeCall}

/-- **All operations of a block are published.** -/
theorem Update.isPublished_of_block {id : PartialBlockIdentifier} {before after : Ledger}
    {shown : Block} (h_play : (block id).play node n before = ((.ok shown, after), calls))
    (g : Gateway) {t : Transaction} (h_t : t ∈ shown.transactions) {op : Operation}
    (h_op : op ∈ t.description.operations) : op.IsPublished ⟨200, .json g.options⟩ := by
  obtain ⟨b, _, ts, _, -, h_txs, rfl⟩ := play_block h_play
  obtain ⟨rfl, -⟩ := exists_put_of_mapM h_txs
  rcases List.mem_append.mp h_t with h_tx | h_return
  · obtain ⟨tx, -, rfl⟩ := List.mem_map.mp h_tx
    exact BlockTx.isPublished_of_mem_view h_op
  · obtain ⟨r, -, rfl⟩ := List.mem_map.mp h_return
    exact Operation.isPublished_of_mem_ofLegs h_op

/-- **A transaction is shown with the status that the node tells**, and each of its operations has a
type. -/
theorem Query.play_transaction {text : String} {otherwise : ApiError} {shown : Transaction}
    (h_play : (transaction text otherwise).play node n = (.ok shown, calls)) :
    ∃ hash told, calls = [.transaction hash] ∧
      NodeReply.find (.transaction hash) NodeTransaction.json.ofJson
        (node n (.transaction hash)) = .ok (some told) ∧
      ∀ op ∈ shown.description.operations,
        (∃ t : OperationType, op.type = t.name) ∧ op.status = some told.status := by
  obtain ⟨hash, -, h_asked⟩ := play_need_eq_ok h_play
  obtain ⟨found, _, _, h_find, h_seen, rfl⟩ := play_bind_eq_ok_iff.mp h_asked
  obtain ⟨h_reply, rfl⟩ := play_ask_eq_iff.mp h_find
  obtain ⟨told, h_filter, h_shown⟩ := play_need_eq_ok h_seen
  obtain ⟨rfl, -⟩ := Option.filter_eq_some_iff.mp h_filter
  have h_found := Outcome.mapError_eq_ok_iff.mp h_reply
  -- One that cannot be read has no operations.
  cases h_read : Tx.ofNode told.code told.raw with
  | error e =>
    rw [h_read] at h_shown
    obtain ⟨rfl, rfl⟩ := play_pure_eq_ok_iff.mp h_shown
    exact ⟨hash, told, rfl, h_found, nofun⟩
  | ok body =>
    rw [h_read] at h_shown
    obtain ⟨rfl, rfl⟩ := play_pure_eq_ok_iff.mp h_shown
    exact ⟨hash, told, rfl, h_found, fun op h_op =>
      ⟨Operation.type_of_mem_ofLegs h_op, Operation.status_of_mem_ofLegs h_op⟩⟩

end Plays

/-! ### Requests over HTTP -/

namespace Gateway

variable {g : Gateway} {before : Ledger} {v : Visit} {endpoint : Endpoint} {request : Request}

/-- A request for options that succeeds is answered with the options. -/
theorem converse_options (h_asks : v.request.Asks .networkOptions request)
    (h_status : (g.converse before v).1.1.status = 200) :
    (g.converse before v).1.1 = ⟨200, .json g.options⟩ := by
  obtain ⟨result, calls, h_play, h_converse⟩ := exists_look_of_status h_asks (by decide) h_status
  have h_endpoint := Endpoint.endpoint_eq_of_read h_asks.read_eq
  cases request with
  | networkOptions n m =>
    obtain ⟨_, _, _, _, h_done, -⟩ := Query.play_bind_eq_ok_iff.mp h_play
    obtain ⟨rfl, -⟩ := Query.play_pure_eq_ok_iff.mp h_done
    exact congrArg (·.1.1) h_converse
  | _ => cases h_endpoint

/-- A request for a block that succeeds is answered with the block. -/
theorem exists_block_of_status {network : Option NetworkIdentifier} {id : PartialBlockIdentifier}
    (h_asks : v.request.Asks .block (.block network id))
    (h_status : (g.converse before v).1.1.status = 200) :
    ∃ shown after calls, (Update.block id).play v.replies 0 before = ((.ok shown, after), calls) ∧
      g.converse before v = ((⟨200, .json (Response.block shown).toJson⟩, after), calls) := by
  obtain ⟨result, after, calls, h_play, h_converse⟩ := exists_answer_of_status h_asks h_status
  -- The request is admitted first, and what is left is the block.
  obtain ⟨_, _, _, _, h_admitted, h_found, rfl⟩ := Update.play_bind_eq_ok_iff.mp h_play
  obtain ⟨h_allow, rfl⟩ := Update.play_toUpdate_eq_iff.mp h_admitted
  obtain ⟨-, rfl⟩ := Query.play_ofExcept_eq_iff.mp h_allow
  obtain ⟨shown, _, asked, _, h_block, h_done, rfl⟩ := Update.play_bind_eq_ok_iff.mp h_found
  cases h_done
  rw [List.nil_append, List.append_nil] at h_converse
  exact ⟨shown, after, asked, h_block, h_converse⟩

/-- A request for a transaction that succeeds is answered with the transaction. -/
theorem exists_transaction_of_status (h_asks : v.request.Asks endpoint request)
    (h_endpoint : endpoint = .blockTransaction ∨ endpoint = .mempoolTransaction)
    (h_status : (g.converse before v).1.1.status = 200) :
    ∃ text otherwise shown calls,
      (Query.transaction text otherwise).play v.replies 0 = (.ok shown, calls) ∧
      g.converse before v =
        ((⟨200, .json (Response.transaction shown).toJson⟩, before), calls) := by
  obtain ⟨result, calls, h_play, h_converse⟩ :=
    exists_look_of_status h_asks (by rintro rfl; simp at h_endpoint) h_status
  have h_request := Endpoint.endpoint_eq_of_read h_asks.read_eq
  cases request with
  | blockTransaction n _ text =>
    obtain ⟨shown, h_shown, rfl⟩ := play_of_allowed h_play
    exact ⟨text, _, shown, calls, h_shown, h_converse⟩
  | mempoolTransaction n text =>
    obtain ⟨shown, h_shown, rfl⟩ := play_of_allowed h_play
    exact ⟨text, _, shown, calls, h_shown, h_converse⟩
  | _ => rcases h_endpoint with rfl | rfl <;> cases h_request

/-- **Blocks show what is published, and so do transactions whose status is one of blocks.** Let a
request for options be answered. Every operation of a block that is answered has a type and a status
that the options publish. Every operation of a transaction has such a type, and its status is the
text that the node has replied; so it is published just if this text is the name of a status of
blocks. -/
theorem operations_published (g : Gateway) (l before : Ledger) (o v : Visit) {listed : Request}
    (h_options : o.request.Asks .networkOptions listed)
    (h_listed : (g.converse l o).1.1.status = 200) (h_asks : v.request.Asks endpoint request)
    (h_status : (g.converse before v).1.1.status = 200) :
    (endpoint = .block → ∃ shown : Block,
      (g.converse before v).1.1 = ⟨200, .json (Response.block shown).toJson⟩ ∧
      ∀ t ∈ shown.transactions, ∀ op ∈ t.description.operations,
        op.IsPublished (g.converse l o).1.1) ∧
    (endpoint = .blockTransaction ∨ endpoint = .mempoolTransaction → ∃ hash told shown,
      g.converse before v =
        ((⟨200, .json (Response.transaction shown).toJson⟩, before), [.transaction hash]) ∧
      NodeReply.find (.transaction hash) NodeTransaction.json.ofJson
        (v.replies 0 (.transaction hash)) = .ok (some told) ∧
      ∀ op ∈ shown.description.operations,
        op.type ∈ (g.converse l o).1.1.types ∧ op.status = some told.status ∧
        (op.IsPublished (g.converse l o).1.1 ↔ ∃ s : BlockStatus, told.status = s.name)) := by
  rw [converse_options h_options h_listed]
  constructor
  · rintro rfl
    have h_request := Endpoint.endpoint_eq_of_read h_asks.read_eq
    cases request with
    | block n id =>
      obtain ⟨shown, _, _, h_block, h_converse⟩ := exists_block_of_status h_asks h_status
      exact ⟨shown, congrArg (·.1.1) h_converse, fun t h_t op h_op =>
        Update.isPublished_of_block h_block g h_t h_op⟩
    | _ => cases h_request
  · intro h_endpoint
    obtain ⟨_, _, shown, _, h_play, h_converse⟩ :=
      exists_transaction_of_status h_asks h_endpoint h_status
    obtain ⟨hash, told, rfl, h_found, h_ops⟩ := Query.play_transaction h_play
    refine ⟨hash, told, shown, h_converse, h_found, fun op h_op => ?_⟩
    obtain ⟨⟨t, h_type⟩, h_told⟩ := h_ops op h_op
    -- The type is taken from a list, the status is whatever the node has told.
    have h_published := h_type ▸ g.name_mem_types t
    refine ⟨h_published, h_told, ?_⟩
    rw [← g.mem_statuses_iff]
    constructor
    · rintro ⟨-, s, h_mem, h_s⟩
      obtain rfl : told.status = s := Option.some.inj (h_told.symm.trans h_s)
      exact h_mem
    · intro h_mem
      exact ⟨h_published, told.status, h_mem, h_told⟩

end Gateway

/-! ### A transaction with a status -/

namespace SamplePublished

open SampleAccount (asked exists_asks_of_network gateway network readOf)
open SampleNames (asks_block)

/-- What the node tells of the withdrawal, with a status. -/
def transactionJson (status : String) : Json :=
  .object [("status", .string status), ("type", .ofNat 9), ("transaction", SampleChain.raw)]

/-- The node has a block with the withdrawal, and tells its status when it is asked for it alone. -/
def node (status : String) : NodeCall → NodeReply
  | .transaction _ => .ok (transactionJson status)
  | call => SampleBlock.node call

/-- A request to the gateway of this node. -/
def visit (endpoint : Endpoint) (items status : String) : Visit :=
  ⟨asked endpoint items, fun _ => node status⟩

/-- The withdrawal as the last item of a body. -/
def transactionItem : String := ", [\"" ++ SampleChain.txHash.toText ++ "\"]"

/-- The answer to a request for options. -/
def options : HttpResponse := (gateway.converse .empty (visit .networkOptions "" "")).1.1

/-- The statuses of the operations of a transaction that is answered. -/
def shownStatuses (response : HttpResponse) : List (Option String) :=
  match response.content with
  | .json v =>
    match (v.get? "transaction").bind (·.get? "operations") with
    | some (.array ops) => ops.map fun op => (op.get? "status").bind Json.string?
    | _ => []
  | _ => []

/-- What is read from two requests, and that the options, the block and a committed transaction are
told. -/
theorem read_and_answered :
    ((readOf .networkOptions "").bind Request.network = some network ∧
      (readOf .mempoolTransaction transactionItem).bind Request.network = some network) ∧
    (gateway.converse .empty (visit .networkOptions "" "")).1.1.status = 200 ∧
    (gateway.converse .empty (visit .block ", [1, null]" "")).1.1.status = 200 ∧
    (gateway.converse .empty
      (visit .mempoolTransaction transactionItem "committed")).1.1.status = 200 := by
  decide +kernel

theorem exists_asks_transaction : ∃ request,
    (asked .mempoolTransaction transactionItem).Asks .mempoolTransaction request := by
  obtain ⟨⟨-, h_view⟩, -⟩ := read_and_answered
  exact exists_asks_of_network (by decide) h_view

/-- The block is shown with published operations, and so is a committed transaction. -/
theorem operations_published_committed :
    (∃ shown : Block, (gateway.converse .empty (visit .block ", [1, null]" "")).1.1 =
        ⟨200, .json (Response.block shown).toJson⟩ ∧
      ∀ t ∈ shown.transactions, ∀ op ∈ t.description.operations, op.IsPublished options) ∧
    ∃ hash shown, gateway.converse .empty (visit .mempoolTransaction transactionItem "committed") =
        ((⟨200, .json (Response.transaction shown).toJson⟩, .empty), [.transaction hash]) ∧
      ∀ op ∈ shown.description.operations, op.IsPublished options := by
  obtain ⟨⟨h_view, -⟩, h_listed, h_status, h_status'⟩ := read_and_answered
  obtain ⟨listed, h_options⟩ := exists_asks_of_network (by decide) h_view
  constructor
  · obtain ⟨h_block, -⟩ := gateway.operations_published .empty .empty
      (visit .networkOptions "" "") (visit .block ", [1, null]" "") h_options h_listed
      asks_block h_status
    exact h_block rfl
  · obtain ⟨request, h_asks⟩ := exists_asks_transaction
    obtain ⟨-, h_transaction⟩ := gateway.operations_published .empty .empty
      (visit .networkOptions "" "") (visit .mempoolTransaction transactionItem "committed")
      h_options h_listed h_asks h_status'
    obtain ⟨hash, told, shown, h_converse, h_found, h_ops⟩ := h_transaction (Or.inr rfl)
    -- The node tells the status that was put into its reply.
    have h_committed : told.status = "committed" := by
      cases h_found
      rfl
    exact ⟨hash, shown, h_converse, fun op h_op =>
      (h_ops op h_op).2.2.mpr ⟨.committed, h_committed⟩⟩

/-- **Not all operations that are shown are published.** The node calls the transaction finalized,
and the gateway passes this on, but the options do not publish such a status. -/
theorem not_operations_published :
    (∃ request, (visit .mempoolTransaction transactionItem "finalized").request.Asks
      .mempoolTransaction request) ∧
    (gateway.converse .empty
      (visit .mempoolTransaction transactionItem "finalized")).1.1.status = 200 ∧
    shownStatuses (gateway.converse .empty
      (visit .mempoolTransaction transactionItem "finalized")).1.1 = [some "finalized"] ∧
    options.status = 200 ∧ "finalized" ∉ options.statuses :=
  ⟨exists_asks_transaction, by decide +kernel⟩

end SamplePublished

end RosettaGateway
