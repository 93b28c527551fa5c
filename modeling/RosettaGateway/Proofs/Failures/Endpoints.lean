import RosettaGateway.Proofs.Failures

/-!
# What clients are told of failures

For every request of a client, what it is answered is explained by the requests to the node that it
has made (`Gateway.explained_answer`). The proof goes through the endpoints part by part.

Apart from failures a request may be refused: it is not admitted, it does not fit, or the node does
not have what is needed. All these refusals are final (`ApiError.IsFinal`) but one: the metadata of
a construction is refused by an error that is flagged as one that may pass, when the node does not
have the account (`ConstructionMetadata.MayRefuse`).
-/

namespace RosettaGateway

/-! ### Refusals -/

/-- An error is final: its flag says that the same request will not succeed later either. -/
def ApiError.IsFinal (e : ApiError) : Prop := e.isRetriable = false

/-- Whatever a computation refuses with is final. -/
def Outcome.Final {α : Type} (outcome : Except ApiError α) : Prop :=
  ∀ e, outcome = .error e → e.IsFinal

namespace Outcome

variable {α β : Type}

theorem final_ok (a : α) : Final (.ok a) := nofun

theorem final_error {e : ApiError} (h_final : e.IsFinal) :
    Final (.error e : Except ApiError α) := by
  rintro _ ⟨⟩
  exact h_final

theorem Final.bind {first : Except ApiError α} {next : α → Except ApiError β}
    (h_first : Final first) (h_next : ∀ a, Final (next a)) : Final (first >>= next) := by
  intro e h_error
  rcases bind_eq_error_iff.mp h_error with h_e | ⟨a, -, h_e⟩
  · exact h_first e h_e
  · exact h_next a e h_e

/-- What a part refuses is final. -/
theorem final_mapError_ofTx (outcome : Except TxError α) : Final (outcome.mapError .ofTx) := by
  cases outcome with
  | ok a => exact final_ok a
  | error cause =>
    refine final_error ?_
    cases cause with
    | operand fault => cases fault <;> rfl
    | _ => rfl

theorem final_mapError_ofKey (outcome : Except KeyError α) : Final (outcome.mapError .ofKey) := by
  cases outcome with
  | ok a => exact final_ok a
  | error cause => cases cause <;> exact final_error rfl

end Outcome

open Outcome (final_ok final_error final_mapError_ofTx final_mapError_ofKey)

namespace Construction

open Outcome (Final)

theorem final_bytesOf (s : String) : Final (bytesOf s) := by
  unfold bytesOf
  split
  · exact final_ok _
  · exact final_error rfl

theorem final_txOf (s : String) : Final (txOf s) := by
  refine (final_bytesOf s).bind fun bytes => ?_
  split
  · exact final_ok _
  · exact final_error rfl

theorem final_requireConstructible (k : Tx.Kind) : Final (requireConstructible k) := by
  unfold requireConstructible
  split
  · exact final_ok _
  · exact final_error rfl

theorem final_derive (key : Option KeyText) : Final (derive key) := by
  cases key with
  | none => exact final_error rfl
  | some key =>
    rw [derive]
    split
    · exact final_error rfl
    · refine (final_bytesOf key.hexBytes).bind fun bytes => ?_
      split
      · exact final_error rfl
      · split
        · exact final_ok _
        · exact final_error rfl

theorem final_intentOf (ops : List Operation) : Final (intentOf ops) :=
  (final_mapError_ofTx _).bind fun intent =>
    (final_mapError_ofTx intent.validate).bind fun _ => final_ok intent

theorem final_preprocess (ops : List Operation) (m : Option Metadata) : Final (preprocess ops m) :=
  (final_intentOf ops).bind fun _ => final_ok _

theorem final_payloads (chainId : String) (ops : List Operation) (m : Metadata) :
    Final (payloads chainId ops m) :=
  (final_intentOf ops).bind fun intent => (final_mapError_ofTx _).bind fun _ =>
    (final_mapError_ofTx (Tx.ofOperations intent.kind ops m)).bind fun _ => final_ok _

theorem final_parse (transaction : String) (signed : Bool) : Final (parse transaction signed) := by
  refine (final_txOf transaction).bind fun tx =>
    (final_requireConstructible tx.kind).bind fun _ => ?_
  split
  · split
    · exact final_ok _
    · exact final_error rfl
  · exact final_ok _

theorem final_attach (chainId : String) (tx : Tx) (s : SignatureText) :
    Final (attach chainId tx s) := by
  unfold attach
  split
  · exact final_error rfl
  · split
    · exact final_error rfl
    · exact (final_bytesOf s.hexBytes).bind fun signature =>
        (final_mapError_ofKey _).bind fun _ => final_ok _

theorem final_combine (chainId unsigned : String) (signatures : List SignatureText) :
    Final (combine chainId unsigned signatures) := by
  unfold combine
  split
  · next s =>
    exact (final_txOf unsigned).bind fun tx => (final_requireConstructible tx.kind).bind fun _ =>
      (final_attach chainId tx s).bind fun _ => final_ok _
  · exact final_error rfl

theorem final_hash (transaction : String) : Final (hash transaction) :=
  (final_bytesOf transaction).bind fun _ => (final_txOf transaction).bind fun _ => final_ok _

theorem final_settingsFor (k : Tx.Kind) (options : Metadata) (height : UInt64) :
    Final (settingsFor k options height) := by
  cases k with
  | send => exact (final_mapError_ofTx (options.amount? "fee")).bind fun _ => final_ok _
  | smartContract =>
    exact (final_mapError_ofTx (options.counter? "gas_limit")).bind fun _ =>
      (final_mapError_ofTx (options.amount? "gas_price")).bind fun _ =>
        (final_mapError_ofTx (options.bytes? "data")).bind fun _ => final_ok _
  | _ => exact final_error rfl

end Construction

namespace Gateway

open Outcome (Final)

theorem final_checkNetwork (g : Gateway) (n : Option NetworkIdentifier) :
    Final (g.checkNetwork n) := by
  cases n with
  | none => exact final_error rfl
  | some n =>
    unfold checkNetwork
    dsimp only
    split
    · exact final_error rfl
    split
    · exact final_error rfl
    split
    · exact final_error rfl
    · exact final_ok ()

theorem final_checkNetworkIfGiven (g : Gateway) (n : Option NetworkIdentifier) :
    Final (g.checkNetworkIfGiven n) := by
  cases n with
  | none => exact final_ok ()
  | some n => exact g.final_checkNetwork (some n)

theorem final_allow (g : Gateway) (n : Option NetworkIdentifier) : Final (g.allow n) := by
  refine Final.bind ?_ fun _ => g.final_checkNetwork n
  unfold requireOnline
  split
  · exact final_ok ()
  · exact final_error rfl

end Gateway

/-! ### Endpoints -/

namespace Query

theorem explained_refusal {α : Type} {e : ApiError} (h_final : e.isRetriable = false) :
    (fail e : Query α).Explained ApiError.IsFinal :=
  explained_fail h_final

theorem explained_need {α : Type} {e : ApiError} (h_final : e.isRetriable = false)
    (found : Option α) : (demand e found).Explained ApiError.IsFinal :=
  explained_demand h_final found

theorem explained_ofTx {α : Type} (outcome : Except TxError α) :
    (ofTx outcome).Explained ApiError.IsFinal :=
  explained_ofExcept (final_mapError_ofTx outcome)

theorem explained_status : status.Explained ApiError.IsFinal :=
  explained_ask (NodeCall.understood_read rfl fun _ => rfl) .status

theorem explained_account (address : Address) (height : Option UInt64) :
    (account address height).Explained ApiError.IsFinal :=
  (explained_ask (NodeCall.understood_find rfl fun _ => rfl) (.account address height)).bind
    fun _ => explained_pure _

/-- A block is asked for by its height or by its hash. -/
theorem explained_block {call : NodeCall}
    (h_call : (∃ height, call = .blockAt height) ∨ ∃ hash, call = .blockOf hash) :
    (block call).Explained ApiError.IsFinal := by
  refine Explained.bind ?_ fun found => explained_need rfl found
  rcases h_call with ⟨height, rfl⟩ | ⟨hash, rfl⟩
  · exact explained_ask (NodeCall.understood_find rfl fun _ => rfl) (.blockAt height)
  · exact explained_ask (NodeCall.understood_find rfl fun _ => rfl) (.blockOf hash)

theorem explained_blockWithIndex (index : Int) :
    (blockWithIndex index).Explained ApiError.IsFinal := by
  refine Explained.bind ?_ fun height => explained_block (Or.inl ⟨height, rfl⟩)
  unfold heightOf
  split
  · exact explained_refusal rfl
  · exact explained_pure _

theorem explained_blockWithHash (s : String) : (blockWithHash s).Explained ApiError.IsFinal :=
  (explained_need rfl (Hash.ofText? s)).bind fun hash => explained_block (Or.inr ⟨hash, rfl⟩)

theorem explained_finalizedBlock : finalizedBlock.Explained ApiError.IsFinal :=
  explained_status.bind fun _ => explained_pure _

theorem explained_resolveBlock (id : Option PartialBlockIdentifier) :
    (resolveBlock id).Explained ApiError.IsFinal := by
  match id with
  | none | some ⟨none, none⟩ => exact explained_finalizedBlock
  | some ⟨some index, some hash⟩ => exact explained_pure _
  | some ⟨some index, none⟩ => exact (explained_blockWithIndex index).bind fun _ => explained_pure _
  | some ⟨none, some hash⟩ => exact (explained_blockWithHash hash).bind fun _ => explained_pure _

theorem explained_balances (text : String) (id : Option PartialBlockIdentifier)
    (currencies : Option (List Currency)) :
    (balances text id currencies).Explained ApiError.IsFinal :=
  (explained_need rfl (Address.ofText? text)).bind fun address =>
    (explained_resolveBlock id).bind fun _ =>
      (explained_account address _).bind fun _ => explained_pure _

theorem explained_coins (text : String) (currencies : Option (List Currency)) :
    (coins text currencies).Explained ApiError.IsFinal :=
  (explained_need rfl (Address.ofText? text)).bind fun address =>
    explained_finalizedBlock.bind fun _ =>
      (explained_account address none).bind fun _ => explained_pure _

theorem explained_networkStatus (m : Option Metadata) :
    (NetworkStatus.query m).Explained ApiError.IsFinal := by
  refine explained_status.bind fun s => ?_
  exact (explained_ask (NodeCall.understood_find rfl fun _ => rfl) (.peers _)).bind
    fun _ => explained_pure _

theorem explained_pending : Gateway.pending.Explained ApiError.IsFinal :=
  (explained_ask (NodeCall.understood_find rfl fun _ => rfl) .pendingTransactions).bind
    fun _ => explained_pure _

/-- Both endpoints for transactions call a failure by a name of their own. -/
theorem explained_transaction {otherwise : ApiError}
    (h_fallback : ∀ hash cause, NodeCall.Fallback (.transaction hash) cause otherwise)
    (s : String) : (transaction s otherwise).Explained ApiError.IsFinal := by
  refine (explained_need rfl (Hash.ofText? s)).bind fun hash => ?_
  refine (explained_ask (NodeCall.understood_find rfl fun _ => rfl) (h_fallback hash)).bind
    fun found => (explained_need rfl _).bind fun tx => ?_
  -- A transaction that cannot be read is shown all the same.
  cases Tx.ofNode tx.code tx.raw with
  | ok body => exact explained_pure _
  | error e => exact explained_pure _

theorem explained_pool (purpose : StakePurpose) (height : UInt64) :
    (pool purpose height).Explained ApiError.IsFinal :=
  explained_ask (NodeCall.understood_orNull rfl (fun _ => rfl) rfl) (.stakePool purpose height)

theorem explained_withdrawnStake (purpose : StakePurpose) (height : UInt64)
    (source holder : Address) :
    (withdrawnStake purpose height source holder).Explained ApiError.IsFinal := by
  -- Edge nodes are asked for one stake, and the pools of the other purposes as a whole.
  cases purpose with
  | eliteEdgeNode =>
    exact (explained_ask (NodeCall.understood_find rfl fun _ => rfl)
      (.edgeNodeStake height source holder)).bind fun _ => explained_pure _
  | validator | guardian =>
    exact (explained_pool _ height).bind fun found =>
      (explained_need rfl found).bind fun _ => explained_pure _

theorem explained_resolveStake (height : UInt64) (w : Tx.WithdrawStake) :
    (resolveStake height w).Explained ApiError.IsFinal :=
  (explained_need rfl _).bind fun purpose =>
    (explained_withdrawnStake purpose height _ _).bind fun found =>
      (explained_need rfl found).bind fun _ => explained_pure _

theorem explained_submit (s : String) : (submit s).Explained ApiError.IsFinal :=
  (explained_ofExcept (Construction.final_bytesOf s)).bind fun wire =>
    explained_ask (NodeCall.understood_read rfl fun _ => rfl) (.broadcast wire)

theorem explained_namedBlock (id : PartialBlockIdentifier) :
    (namedBlock id).Explained ApiError.IsFinal := by
  match id with
  | ⟨some index, _⟩ => exact explained_blockWithIndex index
  | ⟨none, some hash⟩ => exact explained_blockWithHash hash
  | ⟨none, none⟩ => exact explained_refusal rfl

end Query

namespace Update

theorem explained_scheduleReturn (height : UInt64) (hash : Hash) (w : Tx.WithdrawStake)
    (amount : Nat) : (scheduleReturn height hash w amount).Explained ApiError.IsFinal :=
  explained_of_silent fun _ _ _ => ⟨(), _, rfl⟩

theorem explained_blockTransaction (b : NodeBlock) (tx : BlockTx) :
    (blockTransaction b tx).Explained ApiError.IsFinal := by
  unfold blockTransaction
  split
  · split
    · exact explained_toUpdate (Query.explained_refusal rfl)
    · exact explained_pure _
  · next body _ =>
    cases body with
    | withdrawStake w =>
      exact (explained_toUpdate (Query.explained_resolveStake b.height w)).bind fun amount =>
        (explained_scheduleReturn b.height tx.hash w amount).bind fun _ => explained_pure _
    | _ => exact explained_pure _

/-- However many withdrawals a block has, each of them is looked up by a request of its own. -/
theorem explained_block (id : PartialBlockIdentifier) :
    (block id).Explained ApiError.IsFinal :=
  (explained_toUpdate (Query.explained_namedBlock id)).bind fun b =>
    (explained_mapM (explained_blockTransaction b) b.txs).bind fun _ =>
      (explained_of_silent fun _ _ before => ⟨_, before, rfl⟩).bind fun _ => explained_pure _

end Update

namespace ConstructionMetadata

/-- What the metadata of a construction may be refused with. An account that the node does not have
is not told from one that it could not tell of. -/
def MayRefuse (e : ApiError) : Prop := e.IsFinal ∨ e = .accountUnavailable

open Query (explained_ofTx explained_need explained_status)

theorem explained_query (options : Metadata) : (query options).Explained MayRefuse := by
  have h_own : ∀ e : ApiError, e.IsFinal → MayRefuse e := fun _ => Or.inl
  -- The options and the settings are refused for good; the account is the exception.
  refine ((explained_ofTx _).mono h_own).bind fun signer =>
    ((explained_need rfl signer).mono h_own).bind fun signer =>
    ((explained_ofTx _).mono h_own).bind fun code =>
    ((explained_need rfl code).mono h_own).bind fun code =>
    ((explained_ofTx _).mono h_own).bind fun k =>
    (explained_status.mono h_own).bind fun s =>
    (Query.explained_ask (NodeCall.understood_find rfl fun _ => rfl) (.account signer none)).bind
    fun found => (Query.explained_demand (Or.inr rfl) found).bind fun _ =>
    ((Query.explained_ofExcept (Construction.final_settingsFor k options _)).mono h_own).bind
    fun _ => Query.explained_pure _

end ConstructionMetadata

/-- What a request may be refused with, when no request to the node has failed. -/
def Request.MayRefuse (request : Request) (e : ApiError) : Prop :=
  e.IsFinal ∨ request.endpoint = .metadata ∧ e = .accountUnavailable

namespace Gateway

open Query (explained_ofExcept explained_pure)

/-- What is not admitted is refused, and what is admitted is explained by what it does. -/
theorem explained_of_allowed {α : Type} {own : ApiError → Prop} {checked : Except ApiError Unit}
    {q : Query α} {make : α → Response} (h_checked : Outcome.Final checked)
    (h_q : q.Explained ApiError.IsFinal) (h_own : ∀ e, ApiError.IsFinal e → own e) :
    (do
      Query.ofExcept checked
      let a ← q
      return make a : Query Response).Explained own :=
  ((explained_ofExcept h_checked).bind fun _ => h_q.bind fun _ => explained_pure _).mono h_own

theorem explained_look (g : Gateway) (request : Request) :
    (g.look request).Explained request.MayRefuse := by
  -- What an endpoint refuses itself is final; only construction metadata may miss an account, too.
  have h_own : ∀ e : ApiError, e.IsFinal → request.MayRefuse e := fun _ => Or.inl
  cases request with
  | networkList => exact explained_pure _
  | networkStatus n m =>
    exact explained_of_allowed (g.final_allow n) (Query.explained_networkStatus m) h_own
  | networkOptions n =>
    exact ((explained_ofExcept (g.final_checkNetwork n)).bind fun _ => explained_pure _).mono h_own
  | accountBalance n account id currencies =>
    exact explained_of_allowed (g.final_allow n)
      (Query.explained_balances account.address id currencies) h_own
  | accountCoins n account _ currencies =>
    exact explained_of_allowed (g.final_allow n)
      (Query.explained_coins account.address currencies) h_own
  | block => exact (Query.explained_refusal rfl).mono h_own
  | blockTransaction n _ hash =>
    exact explained_of_allowed (g.final_allow n)
      (Query.explained_transaction .blockTransaction hash) h_own
  | mempool n => exact explained_of_allowed (g.final_allow n) Query.explained_pending h_own
  | mempoolTransaction n hash =>
    exact explained_of_allowed (g.final_allow n)
      (Query.explained_transaction .mempoolTransaction hash) h_own
  | derive n key =>
    exact (explained_ofExcept ((g.final_checkNetworkIfGiven n).bind fun _ =>
      (Construction.final_derive key).bind fun _ => final_ok _)).mono h_own
  | preprocess n ops m =>
    exact (explained_ofExcept ((g.final_checkNetwork n).bind fun _ =>
      (Construction.final_preprocess ops m).bind fun _ => final_ok _)).mono h_own
  | metadata n options =>
    have h_query : (ConstructionMetadata.query (options.getD .empty)).Explained
        (Request.metadata n options).MayRefuse :=
      (ConstructionMetadata.explained_query _).mono fun _ => Or.imp_right fun h_e => ⟨rfl, h_e⟩
    exact ((explained_ofExcept (g.final_allow n)).mono h_own).bind fun _ =>
      h_query.bind fun _ => explained_pure _
  | payloads n ops m =>
    exact (explained_ofExcept ((g.final_checkNetwork n).bind fun _ =>
      (Construction.final_payloads g.chainId ops _).bind fun _ => final_ok _)).mono h_own
  | parse n signed transaction =>
    exact (explained_ofExcept ((g.final_checkNetwork n).bind fun _ =>
      (Construction.final_parse transaction signed).bind fun _ => final_ok _)).mono h_own
  | combine n unsigned signatures =>
    exact (explained_ofExcept ((g.final_checkNetwork n).bind fun _ =>
      (Construction.final_combine g.chainId unsigned signatures).bind fun _ => final_ok _)).mono
      h_own
  | hash n transaction =>
    exact (explained_ofExcept ((g.final_checkNetworkIfGiven n).bind fun _ =>
      (Construction.final_hash transaction).bind fun _ => final_ok _)).mono h_own
  | submit n transaction =>
    exact explained_of_allowed (g.final_allow n) (Query.explained_submit transaction) h_own

/-- **What any request is answered is explained** by the requests to the node that it has made. -/
theorem explained_answer (g : Gateway) (request : Request) :
    (g.answer request).Explained request.MayRefuse := by
  -- Only a request for a block is more than a look at the node.
  cases request with
  | block n id =>
    have h_own : ∀ e : ApiError, e.IsFinal → (Request.block n id).MayRefuse e := fun _ => Or.inl
    exact (Update.explained_toUpdate ((explained_ofExcept (g.final_allow n)).mono h_own)).bind
      fun _ => Update.Explained.bind (fun node n before =>
        (Update.explained_block id node n before).mono h_own) fun _ => Update.explained_pure _
  | _ => exact Update.explained_toUpdate (g.explained_look _)

end Gateway

end RosettaGateway
