import RosettaGateway.Proofs.Construction.Agreement
import RosettaGateway.Proofs.Outages
import RosettaGateway.Proofs.PartialIdentifiers
import RosettaGateway.Proofs.Published

/-!
# Numbers of the node

A node tells heights, times and sequences as numbers of 64 bits without a sign. Clients are told

* heights as signed numbers with the same bits (`ShowsHeight`);
* times as milliseconds of such a number, held within its range (`ShowsSeconds`);
* the sequence behind that of an account, which is 0 behind the last one of all.

So what clients are told is right below a bound, which is exact, and another number from there on.
`Gateway.numbers_told` says this for all answers with numbers of the node, and
`SampleNumbers.not_numbers_told` shows an answer of each sort with a number that is wrong.
-/

namespace RosettaGateway

/-! ### What is shown of a number -/

/-- An index has the bits of a height, and so it is this height just below the signed bound. -/
structure ShowsHeight (index : Int) (height : Nat) : Prop where
  eq_wrapped : index = wrapped height
  eq_iff : index = height ↔ height < 2 ^ 63

/-- A timestamp is in milliseconds, which are cut off at the greatest number. The seconds have to be
below the signed bound for this, too. -/
structure ShowsSeconds (timestamp : Int) (seconds : Nat) : Prop where
  eq_held : timestamp = max (-0x8000000000000000) (min 0x7fffffffffffffff (1000 * wrapped seconds))
  eq_iff : timestamp = min (1000 * seconds) 0x7fffffffffffffff ↔ seconds < 2 ^ 63

/-- Heights are shown by their indices. -/
theorem showsHeight_indexOfHeight (height : UInt64) :
    ShowsHeight (indexOfHeight height) height.toNat where
  eq_wrapped := indexOfHeight_eq_wrapped height
  eq_iff := by
    rw [indexOfHeight_eq_wrapped, wrapped]
    split <;> omega

/-- Seconds are shown by milliseconds. -/
theorem showsSeconds_milliseconds (seconds : UInt64) :
    ShowsSeconds (milliseconds seconds) seconds.toNat := by
  have h_lt := seconds.toNat_lt
  have h_held : milliseconds seconds =
      max (-0x8000000000000000) (min 0x7fffffffffffffff (1000 * wrapped seconds.toNat)) := by
    rw [milliseconds, indexOfHeight_eq_wrapped]
    omega
  refine ⟨h_held, ?_⟩
  -- From the bound on the seconds count as negative, while the greatest number is not.
  rw [h_held, wrapped]
  split <;> omega

theorem NodeBlock.toNat_parentHeight (b : NodeBlock) :
    b.parentHeight.toNat = b.height.toNat - 1 := by
  unfold parentHeight
  split
  · next h_zero =>
    rw [h_zero]
    rfl
  · next h_pos =>
    -- Behind the first block nothing is lost by the subtraction of words.
    have h_le : (1 : UInt64) ≤ b.height := by
      rw [UInt64.le_iff_toNat_le]
      exact Nat.one_le_iff_ne_zero.mpr fun h_nat => h_pos (UInt64.toNat.inj h_nat)
    exact UInt64.toNat_sub_of_le _ _ h_le

/-! ### What the node has told -/

/-- The node tells a height in its reply, either that of a block or that of the last final block. -/
inductive NodeCall.Tells : NodeCall → NodeReply → UInt64 → Prop
  | block {call : NodeCall} {reply : NodeReply} {b : NodeBlock}
      (h_block : NodeReply.find call NodeBlock.json.ofJson reply = .ok (some b)) :
    Tells call reply b.height
  | status {reply : NodeReply} {s : NodeStatus}
      (h_status : NodeReply.read .status NodeStatus.json.ofJson reply = .ok s) :
    Tells .status reply s.finalizedHeight

namespace Query

variable {node : Nat → NodeCall → NodeReply} {n : Nat} {calls : List NodeCall}

/-- A block that is named has been told by the node, by its height or by its hash. -/
theorem play_namedBlock {id : PartialBlockIdentifier} {b : NodeBlock}
    (h_play : (namedBlock id).play node n = (.ok b, calls)) :
    ∃ call, calls = [call] ∧
      NodeReply.find call NodeBlock.json.ofJson (node n call) = .ok (some b) := by
  match id, h_play with
  | ⟨some index, _⟩, h_play =>
    obtain ⟨height, first, _, h_height, h_block, rfl⟩ := play_bind_eq_ok_iff.mp h_play
    obtain rfl : first = [] := calls_heightOf h_height
    exact ⟨_, play_block h_block⟩
  | ⟨none, some hash⟩, h_play =>
    obtain ⟨hash, _, _, h_hash, h_block, rfl⟩ := play_bind_eq_ok_iff.mp h_play
    obtain ⟨-, rfl⟩ := play_demand_eq_ok_iff.mp h_hash
    exact ⟨_, play_block h_block⟩
  | ⟨none, none⟩, h_play => cases (play_ofExcept_eq_iff.mp h_play).1

/-- The height of a block that is named has been told first. -/
theorem tells_of_play (id : PartialBlockIdentifier) {block : BlockIdentifier}
    (h_play : (do
      let b ← namedBlock id
      return .ofBlock b.height b.hash : Query BlockIdentifier).play node n = (.ok block, calls)) :
    ∃ call height, calls = [call] ∧ call.Tells (node n call) height ∧
      block.index = indexOfHeight height := by
  obtain ⟨b, _, _, h_named, h_done, rfl⟩ := play_bind_eq_ok_iff.mp h_play
  obtain ⟨call, rfl, h_told⟩ := play_namedBlock h_named
  obtain ⟨rfl, rfl⟩ := play_pure_eq_ok_iff.mp h_done
  exact ⟨call, b.height, rfl, .block h_told, rfl⟩

/-- The block of balances is given by the request, or the node has told its height first. -/
theorem play_resolveBlock {id : Option PartialBlockIdentifier} {block : BlockIdentifier}
    (h_play : (resolveBlock id).play node n = (.ok block, calls)) :
    (∃ index hash, id = some ⟨some index, some hash⟩ ∧ block = ⟨index, hash⟩) ∨
    ∃ call height, calls = [call] ∧ call.Tells (node n call) height ∧
      block.index = indexOfHeight height := by
  match id, h_play with
  | none, h_play | some ⟨none, none⟩, h_play =>
    obtain ⟨s, rfl, h_told, rfl⟩ := play_finalizedBlock h_play
    exact Or.inr ⟨.status, s.finalizedHeight, rfl, .status h_told, rfl⟩
  | some ⟨some index, some hash⟩, h_play =>
    obtain ⟨h_given, -⟩ := play_ofExcept_eq_iff.mp h_play
    exact Or.inl ⟨index, hash, rfl, (Except.ok.inj h_given).symm⟩
  | some ⟨some index, none⟩, h_play => exact Or.inr (tells_of_play ⟨some index, none⟩ h_play)
  | some ⟨none, some hash⟩, h_play => exact Or.inr (tells_of_play ⟨none, some hash⟩ h_play)

/-- The state of an account is told at the block that was found for it. -/
theorem play_state {text : String} {q : Query BlockIdentifier}
    {height : BlockIdentifier → Option UInt64} {currencies : Option (List Currency)}
    {state : AccountState}
    (h_play : (do
      let address ← addressOf text
      let block ← q
      let a ← account address (height block)
      return .ofNode block currencies a : Query AccountState).play node n = (.ok state, calls)) :
    ∃ asked, q.play node n = (.ok state.block, asked) := by
  obtain ⟨address, -, h_found⟩ := play_need_eq_ok h_play
  obtain ⟨block, asked, _, h_block, h_state, rfl⟩ := play_bind_eq_ok_iff.mp h_found
  obtain ⟨a, _, _, -, h_done, rfl⟩ := play_bind_eq_ok_iff.mp h_state
  obtain ⟨rfl, -⟩ := play_pure_eq_ok_iff.mp h_done
  exact ⟨asked, h_block⟩

end Query

/-- The status of a network has the numbers of the status that the node has told first. -/
theorem NetworkStatus.play_query {node : Nat → NodeCall → NodeReply} {n : Nat}
    {calls : List NodeCall} {m : Option Metadata} {told : NetworkStatus}
    (h_play : (query m).play node n = (.ok told, calls)) :
    ∃ s, NodeReply.read .status NodeStatus.json.ofJson (node n .status) = .ok s ∧
      told.block.index = indexOfHeight s.finalizedHeight ∧
      told.currentIndex = indexOfHeight s.finalizedHeight ∧
      told.targetIndex = indexOfHeight s.currentHeight ∧
      told.timestamp = milliseconds s.finalizedTime := by
  obtain ⟨s, _, _, h_status, h_peers, rfl⟩ := Query.play_bind_eq_ok_iff.mp h_play
  obtain ⟨rfl, h_told⟩ := Query.play_status h_status
  obtain ⟨peers, _, _, -, h_done, rfl⟩ := Query.play_bind_eq_ok_iff.mp h_peers
  obtain ⟨rfl, -⟩ := Query.play_pure_eq_ok_iff.mp h_done
  exact ⟨s, h_told, rfl, rfl, rfl, rfl⟩

/-- The metadata of a construction has the sequence behind that of the account, which the node has
told second. -/
theorem ConstructionMetadata.play_query {node : Nat → NodeCall → NodeReply} {n : Nat}
    {calls : List NodeCall} {options : Metadata} {told : ConstructionMetadata}
    (h_play : (query options).play node n = (.ok told, calls)) :
    ∃ signer account, NodeReply.find (.account signer none) NodeAccount.json.ofJson
        (node (n + 1) (.account signer none)) = .ok (some account) ∧
      told.metadata.get? "sequence" = some (Counter.toJson (account.sequence + 1)) := by
  obtain ⟨_, -, h_signer⟩ := Query.play_check_eq_ok h_play
  obtain ⟨signer, -, h_code⟩ := Query.play_need_eq_ok h_signer
  obtain ⟨_, -, h_code⟩ := Query.play_check_eq_ok h_code
  obtain ⟨code, -, h_kind⟩ := Query.play_need_eq_ok h_code
  obtain ⟨k, -, h_asked⟩ := Query.play_check_eq_ok h_kind
  -- The options have been read, and the node is asked.
  obtain ⟨s, _, _, h_status, h_rest, rfl⟩ := Query.play_bind_eq_ok_iff.mp h_asked
  obtain ⟨rfl, -⟩ := Query.play_status h_status
  obtain ⟨found, _, _, h_find, h_found, rfl⟩ := Query.play_bind_eq_ok_iff.mp h_rest
  obtain ⟨h_reply, rfl⟩ := Query.play_ask_eq_iff.mp h_find
  obtain ⟨account, rfl, h_settings⟩ := Query.play_need_eq_ok h_found
  obtain ⟨⟨settings, fee⟩, h_ok, h_done⟩ := Query.play_check_eq_ok h_settings
  obtain ⟨rfl, -⟩ := Query.play_pure_eq_ok_iff.mp h_done
  exact ⟨signer, account, Outcome.mapError_eq_ok_iff.mp h_reply,
    (Construction.get?_written h_ok rfl).1⟩

/-! ### Requests over HTTP -/

namespace Gateway

variable {g : Gateway} {before : Ledger} {v : Visit} {endpoint : Endpoint} {request : Request}

/-- A sequence is told as the one behind it, and behind the last one there is the first. -/
theorem sequence_told (h_asks : v.request.Asks .metadata request)
    (h_status : (g.converse before v).1.1.status = 200) :
    ∃ signer account told, NodeReply.find (.account signer none) NodeAccount.json.ofJson
        (v.replies 1 (.account signer none)) = .ok (some account) ∧
      (g.converse before v).1.1 = ⟨200, .json (Response.metadata told).toJson⟩ ∧
      told.metadata.get? "sequence" = some (.ofNat ((account.sequence.toNat + 1) % 2 ^ 64)) := by
  obtain ⟨result, calls, h_play, h_converse⟩ := exists_look_of_status h_asks (by decide) h_status
  have h_endpoint := Endpoint.endpoint_eq_of_read h_asks.read_eq
  cases request with
  | metadata n options =>
    obtain ⟨told, h_query, rfl⟩ := play_of_allowed h_play
    obtain ⟨signer, account, h_account, h_sequence⟩ := ConstructionMetadata.play_query h_query
    -- Words are added modulo their size.
    rw [Counter.toJson, UInt64.toNat_add] at h_sequence
    exact ⟨signer, account, told, h_account, congrArg (·.1.1) h_converse, h_sequence⟩
  | _ => cases h_endpoint

/-- A block is told with its height, the height of its parent and its time. -/
theorem block_told {network : Option NetworkIdentifier} {id : PartialBlockIdentifier}
    (h_asks : v.request.Asks endpoint (.block network id))
    (h_status : (g.converse before v).1.1.status = 200) :
    ∃ call b shown, (Query.namedBlock id).play v.replies 0 = (.ok b, [call]) ∧
      NodeReply.find call NodeBlock.json.ofJson (v.replies 0 call) = .ok (some b) ∧
      (g.converse before v).1.1 = ⟨200, .json (Response.block shown).toJson⟩ ∧
      ShowsHeight shown.identifier.index b.height.toNat ∧
      ShowsHeight shown.parent.index (b.height.toNat - 1) ∧
      ShowsSeconds shown.timestamp b.timestamp.toNat := by
  obtain rfl : Endpoint.block = endpoint := Endpoint.endpoint_eq_of_read h_asks.read_eq
  obtain ⟨shown, _, _, h_block, h_converse⟩ := exists_block_of_status h_asks h_status
  obtain ⟨b, _, ts, _, h_named, -, rfl⟩ := Update.play_block h_block
  obtain ⟨call, rfl, h_told⟩ := Query.play_namedBlock h_named
  exact ⟨call, b, _, h_named, h_told, congrArg (·.1.1) h_converse,
    showsHeight_indexOfHeight b.height,
    b.toNat_parentHeight ▸ showsHeight_indexOfHeight b.parentHeight,
    showsSeconds_milliseconds b.timestamp⟩

/-- The status of the network is told with both heights of the node and the time of the first. -/
theorem status_told (h_asks : v.request.Asks .networkStatus request)
    (h_status : (g.converse before v).1.1.status = 200) :
    ∃ s told, NodeReply.read .status NodeStatus.json.ofJson (v.replies 0 .status) = .ok s ∧
      (g.converse before v).1.1 = ⟨200, .json (Response.status told).toJson⟩ ∧
      ShowsHeight told.block.index s.finalizedHeight.toNat ∧
      ShowsHeight told.currentIndex s.finalizedHeight.toNat ∧
      ShowsHeight told.targetIndex s.currentHeight.toNat ∧
      ShowsSeconds told.timestamp s.finalizedTime.toNat := by
  obtain ⟨result, calls, h_play, h_converse⟩ := exists_look_of_status h_asks (by decide) h_status
  have h_endpoint := Endpoint.endpoint_eq_of_read h_asks.read_eq
  cases request with
  | networkStatus n m =>
    obtain ⟨told, h_query, rfl⟩ := play_of_allowed h_play
    obtain ⟨s, h_told, h_block, h_current, h_target, h_time⟩ := NetworkStatus.play_query h_query
    refine ⟨s, told, h_told, congrArg (·.1.1) h_converse, ?_⟩
    rw [h_block, h_current, h_target, h_time]
    exact ⟨showsHeight_indexOfHeight _, showsHeight_indexOfHeight _, showsHeight_indexOfHeight _,
      showsSeconds_milliseconds _⟩
  | _ => cases h_endpoint

/-- Balances are told with the height of the block that was looked up for them. -/
theorem balances_told {network : Option NetworkIdentifier} {account : AccountIdentifier}
    {id : Option PartialBlockIdentifier} {currencies : Option (List Currency)}
    (h_asks : v.request.Asks endpoint (.accountBalance network account id currencies))
    (h_status : (g.converse before v).1.1.status = 200)
    (h_asked : ∀ index hash, id ≠ some ⟨some index, some hash⟩) :
    ∃ (call : NodeCall) (height : UInt64) (state : AccountState),
      (Query.resolveBlock id).play v.replies 0 = (.ok state.block, [call]) ∧
      call.Tells (v.replies 0 call) height ∧
      (g.converse before v).1.1 = ⟨200, .json (Response.balances state).toJson⟩ ∧
      ShowsHeight state.block.index height.toNat := by
  obtain rfl : Endpoint.accountBalance = endpoint :=
    Endpoint.endpoint_eq_of_read h_asks.read_eq
  obtain ⟨result, calls, h_play, h_converse⟩ := exists_look_of_status h_asks (by decide) h_status
  obtain ⟨state, h_balances, rfl⟩ := play_of_allowed h_play
  obtain ⟨asked, h_block⟩ := Query.play_state h_balances
  rcases Query.play_resolveBlock h_block with ⟨index, hash, h_given, -⟩ |
    ⟨call, height, rfl, h_told, h_index⟩
  · exact absurd h_given (h_asked index hash)
  · exact ⟨call, height, state, h_block, h_told, congrArg (·.1.1) h_converse,
      h_index ▸ showsHeight_indexOfHeight height⟩

/-- Coins are told with the height of the last final block. -/
theorem coins_told (h_asks : v.request.Asks .accountCoins request)
    (h_status : (g.converse before v).1.1.status = 200) :
    ∃ s state, NodeReply.read .status NodeStatus.json.ofJson (v.replies 0 .status) = .ok s ∧
      (g.converse before v).1.1 = ⟨200, .json (Response.coins state).toJson⟩ ∧
      ShowsHeight state.block.index s.finalizedHeight.toNat := by
  obtain ⟨result, calls, h_play, h_converse⟩ := exists_look_of_status h_asks (by decide) h_status
  have h_endpoint := Endpoint.endpoint_eq_of_read h_asks.read_eq
  cases request with
  | accountCoins n account m currencies =>
    obtain ⟨state, h_coins, rfl⟩ := play_of_allowed h_play
    obtain ⟨asked, h_block⟩ := Query.play_state h_coins
    obtain ⟨s, -, h_told, h_final⟩ := Query.play_finalizedBlock h_block
    refine ⟨s, state, h_told, congrArg (·.1.1) h_converse, ?_⟩
    rw [h_final]
    exact showsHeight_indexOfHeight s.finalizedHeight
  | _ => cases h_endpoint

/-- **What clients are told of the numbers of the node.** Take any request that succeeds.

* The metadata of a construction have the sequence behind that of the account, and 0 behind the last
  one.
* A block has the height of the node's block as its index, the height before, or 0, as that of its
  parent, and the time in milliseconds up to the greatest number.
* So does the status of the network, with the last final block and the height of the node.
* The block of an account has its height as index, unless the request itself has told the index and
  the hash.

All this holds just for heights and seconds below the signed bound; from there on, what is told is
the signed number with the same bits (`ShowsHeight`, `ShowsSeconds`). -/
theorem numbers_told (g : Gateway) (before : Ledger) (v : Visit)
    (h_asks : v.request.Asks endpoint request)
    (h_status : (g.converse before v).1.1.status = 200) :
    (endpoint = .metadata → ∃ signer account told,
      NodeReply.find (.account signer none) NodeAccount.json.ofJson
        (v.replies 1 (.account signer none)) = .ok (some account) ∧
      (g.converse before v).1.1 = ⟨200, .json (Response.metadata told).toJson⟩ ∧
      told.metadata.get? "sequence" = some (.ofNat ((account.sequence.toNat + 1) % 2 ^ 64))) ∧
    (∀ network id, request = .block network id → ∃ call b shown,
      (Query.namedBlock id).play v.replies 0 = (.ok b, [call]) ∧
      NodeReply.find call NodeBlock.json.ofJson (v.replies 0 call) = .ok (some b) ∧
      (g.converse before v).1.1 = ⟨200, .json (Response.block shown).toJson⟩ ∧
      ShowsHeight shown.identifier.index b.height.toNat ∧
      ShowsHeight shown.parent.index (b.height.toNat - 1) ∧
      ShowsSeconds shown.timestamp b.timestamp.toNat) ∧
    (endpoint = .networkStatus → ∃ s told,
      NodeReply.read .status NodeStatus.json.ofJson (v.replies 0 .status) = .ok s ∧
      (g.converse before v).1.1 = ⟨200, .json (Response.status told).toJson⟩ ∧
      ShowsHeight told.block.index s.finalizedHeight.toNat ∧
      ShowsHeight told.currentIndex s.finalizedHeight.toNat ∧
      ShowsHeight told.targetIndex s.currentHeight.toNat ∧
      ShowsSeconds told.timestamp s.finalizedTime.toNat) ∧
    (∀ network account id currencies, request = .accountBalance network account id currencies →
      (∀ index hash, id ≠ some ⟨some index, some hash⟩) →
      ∃ (call : NodeCall) (height : UInt64) (state : AccountState),
        (Query.resolveBlock id).play v.replies 0 = (.ok state.block, [call]) ∧
        call.Tells (v.replies 0 call) height ∧
        (g.converse before v).1.1 = ⟨200, .json (Response.balances state).toJson⟩ ∧
        ShowsHeight state.block.index height.toNat) ∧
    (endpoint = .accountCoins → ∃ s state,
      NodeReply.read .status NodeStatus.json.ofJson (v.replies 0 .status) = .ok s ∧
      (g.converse before v).1.1 = ⟨200, .json (Response.coins state).toJson⟩ ∧
      ShowsHeight state.block.index s.finalizedHeight.toNat) := by
  refine ⟨?_, ?_, ?_, ?_, ?_⟩
  · rintro rfl
    exact sequence_told h_asks h_status
  · rintro network id rfl
    exact block_told h_asks h_status
  · rintro rfl
    exact status_told h_asks h_status
  · rintro network account id currencies rfl h_asked
    exact balances_told h_asks h_status h_asked
  · rintro rfl
    exact coins_told h_asks h_status

end Gateway

/-! ### A node with one number -/

namespace SampleNumbers

open SampleAccount (asked accountItem gateway)
open SampleNames (asks_block)
open SampleOutage (optionsItem exists_asks_metadata)

/-- An account with a sequence. -/
def accountJson (n : Nat) : Json := .object [("sequence", .ofNat n)]

/-- A block whose height and time are the same number. -/
def blockJson (n : Nat) : Json :=
  .object [("height", .ofNat n), ("hash", .string Hash.zero.toText), ("status", .string "trusted"),
    ("timestamp", .ofNat n)]

/-- The node tells the same number for all heights, times and sequences. -/
def node (n : Nat) : NodeCall → NodeReply
  | .status => .ok (.object [("latest_finalized_block_height", .ofNat n),
      ("latest_finalized_block_time", .ofNat n), ("current_height", .ofNat n)])
  | .account _ _ => .ok (accountJson n)
  | .blockAt _ => .ok (blockJson n)
  | _ => .ok .null

/-- A request to the gateway of this node. -/
def visit (endpoint : Endpoint) (items : String) (n : Nat) : Visit :=
  ⟨asked endpoint items, fun _ => node n⟩

/-- The number that an answer tells under some names, each inside of the one before. -/
def numberAt? (response : HttpResponse) (names : List String) : Option Int :=
  match response.content with
  | .json v => (names.foldlM (fun (v : Json) name => v.get? name) v).bind Json.Codec.integer?
  | _ => none

/-- What is read of the replies of the node, and that small numbers are told. -/
theorem read_and_answered :
    (NodeAccount.json.ofJson (accountJson 41)).map NodeAccount.sequence = some 41 ∧
    (NodeBlock.json.ofJson (blockJson 1)).map (fun b => (b.height, b.timestamp)) = some (1, 1) ∧
    (gateway.converse .empty (visit .metadata optionsItem 41)).1.1.status = 200 ∧
    (gateway.converse .empty (visit .block ", [1, null]" 1)).1.1.status = 200 := by
  decide +kernel

/-- Small numbers are told as they are. -/
theorem numbers_told_small :
    (∃ told, (gateway.converse .empty (visit .metadata optionsItem 41)).1.1 =
        ⟨200, .json (Response.metadata told).toJson⟩ ∧
      told.metadata.get? "sequence" = some (.ofNat 42)) ∧
    ∃ shown : Block, (gateway.converse .empty (visit .block ", [1, null]" 1)).1.1 =
        ⟨200, .json (Response.block shown).toJson⟩ ∧
      shown.identifier.index = 1 ∧ shown.parent.index = 0 ∧ shown.timestamp = 1000 := by
  obtain ⟨h_sequence_read, h_numbers_read, h_status, h_status'⟩ := read_and_answered
  constructor
  · obtain ⟨request, h_asks⟩ := exists_asks_metadata
    obtain ⟨h_metadata, -⟩ := gateway.numbers_told .empty (visit .metadata optionsItem 41) h_asks
      h_status
    obtain ⟨signer, account, told, h_account, h_answer, h_sequence⟩ := h_metadata rfl
    obtain ⟨v, h_reply, -, h_read⟩ := NodeReply.find_eq_ok_some_iff.mp h_account
    cases h_reply
    rw [h_read] at h_sequence_read
    rw [Option.some.inj h_sequence_read] at h_sequence
    exact ⟨told, h_answer, h_sequence⟩
  · obtain ⟨-, h_block, -⟩ := gateway.numbers_told .empty (visit .block ", [1, null]" 1) asks_block
      h_status'
    obtain ⟨call, b, shown, h_named, h_told, h_answer, h_index, h_parent, h_time⟩ :=
      h_block _ _ rfl
    -- The node has been asked for the block at the index.
    obtain rfl : .blockAt 1 = call := by
      have h_calls := congrArg Prod.snd h_named
      exact List.head_eq_of_cons_eq h_calls
    obtain ⟨v, h_reply, -, h_read⟩ := NodeReply.find_eq_ok_some_iff.mp h_told
    cases h_reply
    rw [h_read] at h_numbers_read
    obtain ⟨h_height, h_timestamp⟩ := Prod.mk.inj (Option.some.inj h_numbers_read)
    rw [h_height] at h_index h_parent
    rw [h_timestamp] at h_time
    exact ⟨shown, h_answer, h_index.eq_wrapped, h_parent.eq_wrapped, h_time.eq_held⟩

/-- **Great numbers of the node are told as others.** The sequence behind the last one of all is
told as 0. A height and a time at the signed bound are told as negative numbers, although 1000 times
this time is more than the greatest number. -/
theorem not_numbers_told :
    ((gateway.converse .empty (visit .metadata optionsItem (2 ^ 64 - 1))).1.1.status = 200 ∧
      numberAt? (gateway.converse .empty (visit .metadata optionsItem (2 ^ 64 - 1))).1.1
        ["metadata", "sequence"] = some 0) ∧
    ((gateway.converse .empty (visit .block ", [1, null]" (2 ^ 63))).1.1.status = 200 ∧
      numberAt? (gateway.converse .empty (visit .block ", [1, null]" (2 ^ 63))).1.1
        ["block", "block_identifier", "index"] = some (-0x8000000000000000) ∧
      numberAt? (gateway.converse .empty (visit .block ", [1, null]" (2 ^ 63))).1.1
        ["block", "timestamp"] = some (-0x8000000000000000)) ∧
    (numberAt? (gateway.converse .empty (visit .networkStatus "" (2 ^ 63))).1.1
        ["current_block_identifier", "index"] = some (-0x8000000000000000)) ∧
      numberAt? (gateway.converse .empty (visit .accountCoins accountItem (2 ^ 63))).1.1
        ["block_identifier", "index"] = some (-0x8000000000000000) := by
  decide +kernel

end SampleNumbers

end RosettaGateway
