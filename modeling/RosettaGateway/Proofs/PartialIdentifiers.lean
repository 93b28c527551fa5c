import RosettaGateway.Proofs.Accounts

/-!
# Blocks that are asked for by half

A block is asked for by its index, its hash, both or neither. Requests for blocks and requests for
balances each make something of their own out of this:

* for a block the index outweighs the hash, so a hash beside an index is not looked at
  (`Query.served_of_namedBlock`);
* for balances an index and a hash together are taken as they are, and nothing is asked
  (`Query.Resolves.given`); one of them alone names a block as it does in a request for a block.

What the node answers is not checked either, so an answer names the right block only if the node is
truthful (`Answers.Truthful`). `Gateway.identifiers_honoured` says what holds then, and
`Gateway.SampleNames.not_identifiers_honoured` shows both requests with an index and a hash that
belong to different blocks.
-/

namespace RosettaGateway

/-- A node is truthful when it serves blocks of some heights and hashes: it answers only such
blocks, and those only to requests for their height or for their hash, and its last final block is
one of them. Heights are signed numbers. -/
structure Answers.Truthful (answers : Answers) (serves : UInt64 → Hash → Prop) : Prop where
  height_lt : ∀ height hash, serves height hash → height.toNat < 2 ^ 63
  blockAt : ∀ height b, (Query.block (.blockAt height)).Ends answers (.ok b) →
    b.height = height ∧ serves b.height b.hash
  blockOf : ∀ hash b, (Query.block (.blockOf hash)).Ends answers (.ok b) →
    b.hash = hash ∧ serves b.height b.hash
  status : ∀ s, Query.status.Ends answers (.ok s) → serves s.finalizedHeight s.finalizedHash

/-- An identifier is that of a block which is served: the height is its index, and the hash is
written out. -/
def BlockIdentifier.Names (block : BlockIdentifier) (serves : UInt64 → Hash → Prop)
    (height : UInt64) (hash : Hash) : Prop :=
  serves height hash ∧ block.index = height.toNat ∧ block.hash = hash.toText

namespace Query

variable {answers : Answers} {serves : UInt64 → Hash → Prop} {id : PartialBlockIdentifier}

theorem names_of_serves (h_truthful : answers.Truthful serves) {height : UInt64} {hash : Hash}
    (h_serves : serves height hash) :
    (BlockIdentifier.ofBlock height hash).Names serves height hash :=
  ⟨h_serves, indexOfHeight_eq (h_truthful.height_lt height hash h_serves), rfl⟩

/-- An index that is asked for is its own height. -/
theorem ends_heightOf_ok {index : Int} {height : UInt64} (h_lt : index < 0x8000000000000000)
    (h_ends : (heightOf index).Ends answers (.ok height)) : (height.toNat : Int) = index := by
  unfold heightOf at h_ends
  split at h_ends
  · cases ends_ofExcept_iff.mp h_ends
  · next h_nonneg =>
    obtain rfl := Except.ok.inj (ends_ofExcept_iff.mp h_ends)
    have h_small : index.toNat < 2 ^ 64 := by omega
    rw [UInt64.toNat_ofNat_of_lt' h_small]
    omega

/-- **A block that is named** has the index that is asked for, and if none is, the hash. -/
theorem served_of_namedBlock (h_truthful : answers.Truthful serves) (h_fits : id.Fits)
    {b : NodeBlock} (h_ends : (namedBlock id).Ends answers (.ok b)) :
    serves b.height b.hash ∧ (∀ i ∈ id.index, (b.height.toNat : Int) = i) ∧
      (id.index = none → ∀ s ∈ id.hash, Hash.ofText? s = some b.hash) := by
  obtain ⟨index, hash⟩ := id
  -- The hash is looked at only where there is no index.
  cases index with
  | some index =>
    obtain ⟨height, h_height, h_block⟩ := ends_bind_ok_iff.mp h_ends
    obtain ⟨rfl, h_serves⟩ := h_truthful.blockAt height b h_block
    refine ⟨h_serves, ?_, nofun⟩
    rintro i ⟨⟩
    exact ends_heightOf_ok (h_fits index rfl).2 h_height
  | none =>
    cases hash with
    | none => cases ends_ofExcept_iff.mp h_ends
    | some s =>
      obtain ⟨hash, h_hash, h_block⟩ := ends_bind_ok_iff.mp h_ends
      obtain ⟨rfl, h_serves⟩ := h_truthful.blockOf hash b h_block
      refine ⟨h_serves, nofun, fun _ => ?_⟩
      rintro _ ⟨⟩
      exact ends_demand_ok_iff.mp h_hash

/-- **The block of balances** has the index and the hash that are asked for, and is served unless
both are. -/
theorem Resolves.honours {id : Option PartialBlockIdentifier} {block : BlockIdentifier}
    (h_resolves : Resolves answers id block) (h_truthful : answers.Truthful serves)
    (h_fits : ∀ p ∈ id, p.Fits) :
    (∀ p ∈ id, (∀ i ∈ p.index, block.index = i) ∧ ∀ s ∈ p.hash, block.hash = s ∨
      ∃ hash, Hash.ofText? s = some hash ∧ block.hash = hash.toText) ∧
    ((∀ i s, id ≠ some ⟨some i, some s⟩) → ∃ height hash, block.Names serves height hash) := by
  cases h_resolves with
  | given index hash =>
    refine ⟨?_, fun h_half => absurd rfl (h_half index hash)⟩
    rintro _ ⟨⟩
    refine ⟨?_, ?_⟩
    · rintro _ ⟨⟩
      rfl
    · rintro _ ⟨⟩
      exact Or.inl rfl
  | @named p b h_half h_named =>
    obtain ⟨h_serves, h_index, h_hash⟩ := served_of_namedBlock h_truthful (h_fits p rfl) h_named
    have h_names := names_of_serves h_truthful h_serves
    refine ⟨?_, fun _ => ⟨_, _, h_names⟩⟩
    rintro _ ⟨⟩
    refine ⟨fun i h_mem => h_names.2.1.trans (h_index i h_mem), fun s h_mem => Or.inr ?_⟩
    -- There is a hash, so there is no index that could outweigh it.
    have h_none : p.index = none := h_half.resolve_right fun h_absent => by
      rw [h_absent] at h_mem
      cases h_mem
    exact ⟨b.hash, h_hash h_none s h_mem, rfl⟩
  | @finalized _ s h_neither h_status =>
    have h_names := names_of_serves h_truthful (h_truthful.status s h_status)
    refine ⟨fun p h_mem => ?_, fun _ => ⟨_, _, h_names⟩⟩
    cases h_mem
    obtain rfl : p = {} := h_neither
    exact ⟨nofun, nofun⟩

end Query

/-! ### Requests over HTTP -/

namespace Gateway

/-- **Identifiers of blocks are honoured.** Let the node be truthful. A request for a block that
succeeds names a block that is served, which has the index that is asked for, and if none is, the
hash. A request for balances that succeeds names a block with the index and the hash that are asked
for, which is served unless both are. A hash may be asked for in another spelling. -/
theorem identifiers_honoured (g : Gateway) (before : Ledger) (v : Visit)
    (network : Option NetworkIdentifier) {serves : UInt64 → Hash → Prop}
    (h_truthful : v.answers.Truthful serves)
    (h_status : (g.converse before v).1.1.status = 200) :
    (∀ id, v.request.Asks .block (.block network id) →
      ∃ (block : Block) (height : UInt64) (hash : Hash),
        (g.converse before v).1.1 = ⟨200, .json (Response.block block).toJson⟩ ∧
        block.identifier.Names serves height hash ∧ (∀ i ∈ id.index, (height.toNat : Int) = i) ∧
        (id.index = none → ∀ s ∈ id.hash, Hash.ofText? s = some hash)) ∧
    (∀ account id currencies,
      v.request.Asks .accountBalance (.accountBalance network account id currencies) →
      ∃ state : AccountState,
        (g.converse before v).1.1 = ⟨200, .json (Response.balances state).toJson⟩ ∧
        (∀ p ∈ id, (∀ i ∈ p.index, state.block.index = i) ∧ ∀ s ∈ p.hash, state.block.hash = s ∨
          ∃ hash, Hash.ofText? s = some hash ∧ state.block.hash = hash.toText) ∧
        ((∀ i s, id ≠ some ⟨some i, some s⟩) →
          ∃ height hash, state.block.Names serves height hash)) := by
  have h_replies : ∀ n call, v.answers call (v.replies n call) := fun n _ => ⟨n, rfl⟩
  refine ⟨fun id h_asks => ?_, fun account id currencies h_asks => ?_⟩
  · obtain ⟨result, after, calls, h_play, h_converse⟩ := exists_answer_of_status h_asks h_status
    -- The request is admitted first, and what is left is the block.
    obtain ⟨_, _, _, _, _, h_found, -⟩ := Update.play_bind_eq_ok_iff.mp h_play
    obtain ⟨shown, _, _, _, h_block, h_done, -⟩ := Update.play_bind_eq_ok_iff.mp h_found
    obtain ⟨b, _, ts, _, h_named, -, rfl⟩ := Update.play_block h_block
    obtain ⟨h_serves, h_index, h_hash⟩ := Query.served_of_namedBlock h_truthful
      (Endpoint.fits_of_read_block h_asks.read_eq) (Query.ends_of_play h_replies h_named)
    cases h_done
    exact ⟨_, b.height, b.hash, congrArg (·.1.1) h_converse,
      Query.names_of_serves h_truthful h_serves, h_index, h_hash⟩
  · obtain ⟨result, calls, h_play, h_converse⟩ := exists_look_of_status h_asks (by decide) h_status
    obtain ⟨state, h_balances, rfl⟩ := play_of_allowed h_play
    obtain ⟨_, _, _, h_resolves, -⟩ := Query.play_balances h_replies h_balances
    obtain ⟨h_honours, h_names⟩ := h_resolves.honours h_truthful fun p h_mem => by
      cases h_mem
      exact Endpoint.fits_of_read_accountBalance h_asks.read_eq
    exact ⟨state, congrArg (·.1.1) h_converse, h_honours, h_names⟩

end Gateway

/-! ### A node with one block -/

/-- The hash of the block that an answer names. -/
def HttpResponse.blockHash? (response : HttpResponse) : Option String :=
  match response.content with
  | .json v =>
    -- An answer for a block has its identifier inside of the block.
    ((((v.get? "block").getD v).get? "block_identifier").bind (·.get? "hash")).bind Json.string?
  | _ => none

namespace SampleNames

open SampleAccount (asked accountItem network balancesOf? gateway)

/-- The node has one block, at height 1. -/
def node (call : NodeCall) : NodeReply :=
  if call = .status then
    .ok (.object [("latest_finalized_block_height", .string "1"),
      ("latest_finalized_block_hash", .string Hash.zero.toText)])
  else if call = .blockAt 1 ∨ call = .blockOf .zero then .ok (SampleChain.blockJson 1 [])
  else .ok .null

/-- The block that is served. -/
def serves (height : UInt64) (hash : Hash) : Prop := height = 1 ∧ hash = .zero

theorem eq_of_ends_block {call : NodeCall} {b : NodeBlock}
    (h_ends : (Query.block call).Ends (.fixed node) (.ok b)) (h_call : call ≠ .status) :
    (call = .blockAt 1 ∨ call = .blockOf .zero) ∧ b = SampleChain.block 1 [] := by
  obtain ⟨found, h_find, h_demand⟩ := Query.ends_bind_ok_iff.mp h_ends
  obtain ⟨reply, rfl, h_reply⟩ := Query.ends_ask_iff.mp h_find
  obtain rfl := Query.ends_demand_ok_iff.mp h_demand
  rw [node, if_neg h_call] at h_reply
  split at h_reply
  · next h_first =>
    refine ⟨h_first, ?_⟩
    cases h_reply
    rfl
  · cases h_reply

theorem truthful : (Answers.fixed node).Truthful serves where
  height_lt height hash h_serves := by
    obtain ⟨rfl, -⟩ := h_serves
    decide
  blockAt height b h_ends := by
    obtain ⟨h_call, rfl⟩ := eq_of_ends_block h_ends nofun
    obtain rfl : height = 1 := by simpa using h_call
    exact ⟨rfl, rfl, rfl⟩
  blockOf hash b h_ends := by
    obtain ⟨h_call, rfl⟩ := eq_of_ends_block h_ends nofun
    obtain rfl : hash = .zero := by simpa using h_call
    exact ⟨rfl, rfl, rfl⟩
  status s h_ends := by
    obtain ⟨reply, rfl, h_reply⟩ := Query.ends_ask_iff.mp h_ends
    cases h_reply
    exact ⟨rfl, rfl⟩

/-- A request to the gateway, with the node that has one block. -/
def visit (endpoint : Endpoint) (items : String) : Visit := ⟨asked endpoint items, fun _ => node⟩

/-- The block of a request for a block. -/
def blockOf? : Request → Option PartialBlockIdentifier
  | .block n id => if n = some network then some id else none
  | _ => none

theorem eq_of_blockOf? {request : Request} {id : PartialBlockIdentifier}
    (h_request : blockOf? request = some id) : request = .block (some network) id := by
  unfold blockOf? at h_request
  split at h_request
  · split at h_request
    · next h_same =>
      cases h_request
      rw [h_same]
    · cases h_request
  · cases h_request

/-- A request for balances by a hash, which is spelled in another way than it is answered. -/
def hashItems : String :=
  accountItem ++ ", [null, \"" ++ String.ofList (List.replicate 64 '0') ++ "\"]"

/-- What is read from a request for the block and one for balances, and how they are answered. -/
theorem read_and_answered :
    hashItems.utf8ByteSize ≤ 200 ∧
    ((SampleAccount.readOf .block ", [1, null]").bind blockOf? = some ⟨some 1, none⟩ ∧
      (SampleAccount.readOf .accountBalance hashItems).bind balancesOf? =
        some (some ⟨none, some (String.ofList (List.replicate 64 '0'))⟩)) ∧
    (gateway.converse .empty (visit .block ", [1, null]")).1.1.status = 200 ∧
    (gateway.converse .empty (visit .accountBalance hashItems)).1.1.status = 200 := by
  decide +kernel

theorem asks_block : (asked .block ", [1, null]").Asks .block
    (.block (some network) ⟨some 1, none⟩) := by
  obtain ⟨-, ⟨h_view, -⟩, -⟩ := read_and_answered
  obtain ⟨request, h_asks, h_request⟩ := SampleAccount.exists_asks (by decide) h_view
  exact eq_of_blockOf? h_request ▸ h_asks

/-- The block is found by its index, and by another spelling of its hash. -/
theorem identifiers_honoured_first :
    (∃ (block : Block) (height : UInt64) (hash : Hash),
      (gateway.converse .empty (visit .block ", [1, null]")).1.1 =
        ⟨200, .json (Response.block block).toJson⟩ ∧
      block.identifier.Names serves height hash ∧ (height.toNat : Int) = 1) ∧
    ∃ state : AccountState,
      (gateway.converse .empty (visit .accountBalance hashItems)).1.1 =
        ⟨200, .json (Response.balances state).toJson⟩ ∧
      ∃ height hash, state.block.Names serves height hash := by
  obtain ⟨h_items, ⟨-, h_view⟩, h_status, h_status'⟩ := read_and_answered
  constructor
  · have h_truthful := Visit.answers_of_fixed (asked .block ", [1, null]") node ▸ truthful
    obtain ⟨h_block, -⟩ := gateway.identifiers_honoured .empty (visit .block ", [1, null]")
      (some network) h_truthful h_status
    obtain ⟨block, height, hash, h_answer, h_names, h_index, -⟩ := h_block _ asks_block
    exact ⟨block, height, hash, h_answer, h_names, h_index 1 rfl⟩
  · obtain ⟨request, h_asks, h_request⟩ := SampleAccount.exists_asks h_items h_view
    obtain ⟨account, -, rfl⟩ := SampleAccount.eq_of_balancesOf? h_request
    have h_truthful := Visit.answers_of_fixed (asked .accountBalance hashItems) node ▸ truthful
    obtain ⟨-, h_balances⟩ := gateway.identifiers_honoured .empty (visit .accountBalance hashItems)
      (some network) h_truthful h_status'
    obtain ⟨state, h_answer, -, h_names⟩ := h_balances _ _ _ h_asks
    exact ⟨state, h_answer, h_names (by simp)⟩

/-- The index of a block with the hash of another one. -/
def contradiction (index : String) : String :=
  ", [" ++ index ++ ", \"" ++ SampleChain.txHash.toText ++ "\"]"

/-- **Identifiers are not honoured in full**, although the node is truthful. The block at the index
is shown when another hash is asked for with it, and balances are told for a block that is not
served. -/
theorem not_identifiers_honoured :
    (Answers.fixed node).Truthful serves ∧
    ((gateway.converse .empty (visit .block (contradiction "1"))).1.1.status = 200 ∧
      (gateway.converse .empty (visit .block (contradiction "1"))).1.1.blockHash? =
        some Hash.zero.toText ∧
      Hash.ofText? SampleChain.txHash.toText ≠ some .zero) ∧
    (gateway.converse .empty
        (visit .accountBalance (accountItem ++ contradiction "7"))).1.1.status = 200 ∧
      (gateway.converse .empty
        (visit .accountBalance (accountItem ++ contradiction "7"))).1.1.blockIndex? = some 7 ∧
      ∀ height hash, serves height hash → (height.toNat : Int) ≠ 7 := by
  refine ⟨truthful, by decide +kernel, by decide +kernel, by decide +kernel, ?_⟩
  rintro height hash ⟨rfl, -⟩
  decide

end SampleNames

end RosettaGateway
