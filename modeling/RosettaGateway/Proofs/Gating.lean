import RosettaGateway.Proofs.Construction.Basic
import RosettaGateway.Proofs.Serving

/-!
# Requests are checked before anything else

Each endpoint checks its requests in a way of its own: some need the node and some do not, some need
a network and some take a request without one. `Gateway.admission` says for every request how it is
checked. What is checked comes first: a request that is not admitted is answered with the error of
the check, and neither the node nor the ledger has any part in it.

* `Gateway.run_answer_of_refused` — a request that is not admitted ends there, whatever it asks for;
* `Gateway.exists_run_respond_of_offline` — without a node no request asks anything;
* `Gateway.session_of_offline` — the same for requests one after the other;
* `Gateway.gated` — which requests are refused, and with which errors.
-/

namespace RosettaGateway

/-! ### Requests and their networks -/

namespace Request

/-- The endpoint that reads a request. -/
def endpoint : Request → Endpoint
  | .networkList .. => .networkList
  | .networkStatus .. => .networkStatus
  | .networkOptions .. => .networkOptions
  | .accountBalance .. => .accountBalance
  | .accountCoins .. => .accountCoins
  | .block .. => .block
  | .blockTransaction .. => .blockTransaction
  | .mempool .. => .mempool
  | .mempoolTransaction .. => .mempoolTransaction
  | .derive .. => .derive
  | .preprocess .. => .preprocess
  | .metadata .. => .metadata
  | .payloads .. => .payloads
  | .parse .. => .parse
  | .combine .. => .combine
  | .hash .. => .hash
  | .submit .. => .submit

/-- The network that a request names. -/
def network : Request → Option NetworkIdentifier
  | .networkList _ => none
  | .networkStatus n _ | .networkOptions n _ | .accountBalance n _ _ _ | .accountCoins n _ _ _
  | .block n _ | .blockTransaction n _ _ | .mempool n _ | .mempoolTransaction n _ | .derive n _ _
  | .preprocess n _ _ | .metadata n _ | .payloads n _ _ | .parse n _ _ | .combine n _ _ | .hash n _
  | .submit n _ => n

end Request

namespace Endpoint

/-- An endpoint reads requests of its own form alone. -/
theorem endpoint_eq_of_read {endpoint : Endpoint} {text : String} {request : Request}
    (h_read : endpoint.read text = .ok request) : request.endpoint = endpoint := by
  cases endpoint <;> obtain ⟨a, -, rfl⟩ := exists_of_body_eq_ok h_read <;> rfl

theorem ofPath?_path (endpoint : Endpoint) : ofPath? endpoint.path = some endpoint := by
  cases endpoint <;> decide

theorem path_ne_root (endpoint : Endpoint) : endpoint.path ≠ "/" := by
  cases endpoint <;> decide

/-- The endpoints that need the node. -/
def ofNode : List Endpoint :=
  [.networkStatus, .accountBalance, .accountCoins, .block, .blockTransaction, .mempool,
    .mempoolTransaction, .metadata, .submit]

/-- The endpoints that take requests without a network. -/
def ofAnyNetwork : List Endpoint := [.networkList, .derive, .hash]

end Endpoint

/-- A request over HTTP is well-formed: an endpoint reads a request from it. -/
structure HttpRequest.Asks (r : HttpRequest) (endpoint : Endpoint) (request : Request) : Prop where
  method_eq : r.method = "POST"
  path_eq : r.path = endpoint.path
  isJson : r.contentType.any MediaType.isJson = true
  size_le : r.body.utf8ByteSize ≤ Gateway.maxBodySize
  read_eq : endpoint.read r.body = .ok request

/-- An answer is an error of the API with the given number. -/
def HttpResponse.Refuses (response : HttpResponse) (code : Nat) : Prop :=
  ∃ e : ApiError, e.code = code ∧ response = ⟨500, .json e.toJson⟩

namespace Gateway

/-- A request does not name the network of the gateway, with the number of the error for it. The
first of these that holds is the one that counts: there is no network, it is of another blockchain,
it is a part of a network, or it is another network of the blockchain. -/
inductive Misnames (g : Gateway) : Option NetworkIdentifier → Nat → Prop
  | missing : Misnames g none 5
  | blockchain {n : NetworkIdentifier}
    (h_blockchain : foldCase n.blockchain ≠ foldCase Chain.name) : Misnames g (some n) 2
  | subNetwork {n : NetworkIdentifier} (h_blockchain : foldCase n.blockchain = foldCase Chain.name)
    (h_part : n.subNetwork ≠ none) : Misnames g (some n) 3
  | network {n : NetworkIdentifier} (h_blockchain : foldCase n.blockchain = foldCase Chain.name)
    (h_whole : n.subNetwork = none) (h_network : foldCase n.network ≠ foldCase g.chainId) :
    Misnames g (some n) 4

theorem exists_checkNetwork_of_misnames {g : Gateway} {n : Option NetworkIdentifier} {code : Nat}
    (h_misnames : g.Misnames n code) : ∃ e, g.checkNetwork n = .error e ∧ e.code = code := by
  cases h_misnames with
  | missing => exact ⟨.missingNetwork, rfl, rfl⟩
  | blockchain h_blockchain => exact ⟨.invalidBlockchain, if_pos h_blockchain, rfl⟩
  | subNetwork h_blockchain h_part =>
    refine ⟨.invalidSubnetwork, ?_, rfl⟩
    rw [checkNetwork, if_neg (not_not.mpr h_blockchain),
      if_pos (Option.isSome_iff_ne_none.mpr h_part)]
  | network h_blockchain h_whole h_network =>
    refine ⟨.invalidNetwork, ?_, rfl⟩
    rw [checkNetwork, if_neg (not_not.mpr h_blockchain), h_whole, Option.isSome_none,
      if_neg Bool.false_ne_true, if_pos h_network]

/-! ### Admission -/

/-- How a request is checked. -/
def admission (g : Gateway) (request : Request) : Except ApiError Unit :=
  if request.endpoint ∈ Endpoint.ofNode then g.allow request.network
  else if request.endpoint ∈ Endpoint.ofAnyNetwork then g.checkNetworkIfGiven request.network
  else g.checkNetwork request.network

/-- **A request that is not admitted ends with the error of the check**, before anything is asked
and before anything is written. -/
theorem run_answer_of_refused {g : Gateway} {request : Request} {e : ApiError}
    (h_refused : g.admission request = .error e) (before : Ledger) :
    StateT.run (ExceptT.run (g.answer request)) before = .done (.error e, before) := by
  cases request with
  | networkList => cases h_refused
  -- The endpoints of a case make the same check, before anything else.
  | networkStatus n | accountBalance n | accountCoins n | block n | blockTransaction n | mempool n
  | mempoolTransaction n | metadata n | submit n =>
    have h_allow : g.allow n = .error e := h_refused
    simp only [answer, look, h_allow]
    rfl
  | networkOptions n | preprocess n | payloads n | parse n | combine n =>
    have h_check : g.checkNetwork n = .error e := h_refused
    simp only [answer, look, h_check]
    rfl
  | derive n | hash n =>
    have h_check : g.checkNetworkIfGiven n = .error e := h_refused
    simp only [answer, look, h_check]
    rfl

variable {g : Gateway} {request : Request} {before : Ledger}

/-- Without a node, no request that needs one is admitted. -/
theorem admission_of_offline (h_offline : g.online = false)
    (h_node : request.endpoint ∈ Endpoint.ofNode) :
    g.admission request = .error .unavailableOffline := by
  have h_require : g.requireOnline = .error .unavailableOffline := by
    rw [requireOnline, h_offline, if_neg Bool.false_ne_true]
  rw [admission, if_pos h_node, allow, h_require]
  rfl

/-- With a node, all that counts for most requests is the network. -/
theorem admission_of_online (h_online : g.online = true)
    (h_network : request.endpoint ∉ Endpoint.ofAnyNetwork) :
    g.admission request = g.checkNetwork request.network := by
  have h_require : g.requireOnline = .ok () := by rw [requireOnline, if_pos h_online]
  rw [admission, if_neg h_network, allow, h_require]
  exact ite_self _

/-! ### Answers -/

/-- A request that ends at once is answered at once. -/
theorem run_respond_of_done {outcome : Except ApiError Response}
    (h_done : StateT.run (ExceptT.run (g.answer request)) before = .done (outcome, before)) :
    ∃ response : HttpResponse, StateT.run (g.respond request) before = .done (response, before) ∧
      ∀ e, outcome = .error e → response = ⟨500, .json e.toJson⟩ := by
  rw [respond, StateT.run_bind, h_done]
  cases outcome with
  | ok result =>
    refine ⟨_, rfl, ?_⟩
    rintro _ ⟨⟩
  | error e =>
    refine ⟨_, rfl, ?_⟩
    rintro _ ⟨⟩
    rfl

/-- A request that is not admitted is refused with the error of the check. -/
theorem run_respond_of_refused {e : ApiError} (h_refused : g.admission request = .error e)
    (before : Ledger) :
    StateT.run (g.respond request) before = .done (⟨500, .json e.toJson⟩, before) := by
  obtain ⟨response, h_run, h_error⟩ := run_respond_of_done (run_answer_of_refused h_refused before)
  rw [h_run, h_error e rfl]

/-- **Without a node no request asks anything or writes anything.** Those that need the node are not
admitted, and the others are answered out of themselves. -/
theorem exists_run_respond_of_offline (h_offline : g.online = false) (request : Request)
    (before : Ledger) :
    ∃ response, StateT.run (g.respond request) before = .done (response, before) := by
  obtain ⟨outcome, h_done⟩ : ∃ outcome, StateT.run (ExceptT.run (g.answer request)) before =
      .done (outcome, before) := by
    by_cases h_node : request.endpoint ∈ Endpoint.ofNode
    · exact ⟨_, run_answer_of_refused (admission_of_offline h_offline h_node) before⟩
    · -- All but one of the others end by definition; the options of a network still check it.
      cases request with
      | networkOptions n =>
        simp only [answer, look]
        cases g.checkNetwork n with
        | ok _ => exact ⟨_, rfl⟩
        | error e => exact ⟨_, rfl⟩
      | networkList | derive | preprocess | payloads | parse | combine | hash => exact ⟨_, rfl⟩
      | _ => simp [Request.endpoint, Endpoint.ofNode] at h_node
  obtain ⟨response, h_run, -⟩ := run_respond_of_done h_done
  exact ⟨response, h_run⟩

/-! ### Visits -/

/-- A well-formed request reaches its endpoint. -/
theorem serve_of_asks {r : HttpRequest} {endpoint : Endpoint} (h_asks : r.Asks endpoint request) :
    g.serve r = g.respond request := by
  have h_options : r.method ≠ "OPTIONS" := by
    rw [h_asks.method_eq]
    decide
  have h_root : r.path ≠ "/" := by
    rw [h_asks.path_eq]
    exact Endpoint.path_ne_root _
  have h_json : ¬ (!r.contentType.any MediaType.isJson) = true := by
    rw [h_asks.isJson]
    decide
  rw [serve, if_neg h_options, if_neg h_root, h_asks.path_eq, Endpoint.ofPath?_path]
  simp only [h_asks.read_eq]
  rw [if_neg (not_not.mpr h_asks.method_eq), if_neg h_json, if_neg (Nat.not_lt.mpr h_asks.size_le)]

theorem exists_run_serve_of_offline (h_offline : g.online = false) (r : HttpRequest)
    (before : Ledger) : ∃ response, StateT.run (g.serve r) before = .done (response, before) := by
  unfold serve
  -- Whatever is refused before its body is read is answered with a status alone.
  split
  · exact ⟨_, rfl⟩
  split
  · exact ⟨_, rfl⟩
  split
  · exact ⟨_, rfl⟩
  split
  · exact ⟨_, rfl⟩
  split
  · exact ⟨_, rfl⟩
  split
  · exact ⟨_, rfl⟩
  split
  · exact ⟨_, rfl⟩
  · exact exists_run_respond_of_offline h_offline _ before

/-- What a request is answered, the ledger after it, and what the node is asked. -/
def converse (g : Gateway) (before : Ledger) (v : Visit) :
    (HttpResponse × Ledger) × List NodeCall :=
  ((g.serve v.request).run before).run v.replies 0

/-- Requests one after the other: the answers, the ledger after them, and what the node is asked. -/
def session (g : Gateway) : Ledger → List Visit → List HttpResponse × Ledger × List NodeCall
  | before, [] => ([], before, [])
  | before, v :: visits =>
    let first := g.converse before v
    let rest := g.session first.1.2 visits
    (first.1.1 :: rest.1, rest.2.1, first.2 ++ rest.2.2)

theorem converse_of_done {v : Visit} {response : HttpResponse}
    (h_done : StateT.run (g.serve v.request) before = .done (response, before)) :
    g.converse before v = ((response, before), []) := by
  rw [converse, h_done]
  rfl

/-- **Requests one after the other, without a node**, are each answered as if it were the only one,
and nothing has happened in the end. -/
theorem session_of_offline (h_offline : g.online = false) (start : Ledger) (visits : List Visit) :
    g.session start visits = (visits.map fun v => (g.converse start v).1.1, start, []) := by
  induction visits with
  | nil => rfl
  | cons v visits ih =>
    -- The first visit leaves the ledger as it was, so the others start where it started.
    obtain ⟨response, h_done⟩ := exists_run_serve_of_offline h_offline v.request start
    have h_first := converse_of_done h_done
    simp only [session, h_first, ih, List.map_cons, List.nil_append]

/-- **Requests are checked before anything else.** A gateway without a node never asks anything and
never writes anything, whatever requests come one after the other, and it refuses every well-formed
request that needs the node with error 32. A gateway with a node refuses every well-formed request
that does not name its network, unless the endpoint does without, with error 5, 2, 3 or 4; then it
has asked nothing and written nothing, whatever is in the ledger and whatever the node would reply.
-/
theorem gated (g : Gateway) :
    (g.online = false → ∀ (start : Ledger) (visits : List Visit),
      (g.session start visits).2 = (start, []) ∧
      ∀ (i : Nat) (v : Visit) (endpoint : Endpoint) (request : Request), visits[i]? = some v →
        v.request.Asks endpoint request → endpoint ∈ Endpoint.ofNode →
          ∃ response, (g.session start visits).1[i]? = some response ∧ response.Refuses 32) ∧
    (g.online = true → ∀ (before : Ledger) (v : Visit) (endpoint : Endpoint) (request : Request)
      (code : Nat), v.request.Asks endpoint request → endpoint ∉ Endpoint.ofAnyNetwork →
        g.Misnames request.network code →
          ∃ response, g.converse before v = ((response, before), []) ∧ response.Refuses code) := by
  constructor
  · intro h_offline start visits
    rw [session_of_offline h_offline]
    refine ⟨rfl, fun i v endpoint request h_visit h_asks h_node => ?_⟩
    rw [← Endpoint.endpoint_eq_of_read h_asks.read_eq] at h_node
    -- Each visit is refused for itself, since the ledger never changes.
    have h_refused := admission_of_offline h_offline h_node
    have h_done := run_respond_of_refused h_refused start
    rw [← serve_of_asks h_asks] at h_done
    refine ⟨_, ?_, .unavailableOffline, rfl, rfl⟩
    rw [List.getElem?_map, h_visit, Option.map_some, converse_of_done h_done]
  · intro h_online before v endpoint request code h_asks h_network h_misnames
    rw [← Endpoint.endpoint_eq_of_read h_asks.read_eq] at h_network
    obtain ⟨e, h_check, h_code⟩ := exists_checkNetwork_of_misnames h_misnames
    -- A gateway with a node checks the network and nothing else.
    have h_refused : g.admission request = .error e :=
      (admission_of_online h_online h_network).trans h_check
    have h_done := run_respond_of_refused h_refused before
    rw [← serve_of_asks h_asks] at h_done
    exact ⟨_, converse_of_done h_done, e, h_code, rfl⟩

namespace SampleGate

/-- A request for a block that names no network. -/
def asked : HttpRequest := ⟨"POST", "/block?pretty", some "application/json", "\x7b\x7d"⟩

theorem exists_asks : ∃ r : Request, asked.Asks .block r ∧ r.network = none := by
  have h_some : (Endpoint.block.read asked.body).toOption.map Request.network = some none := by
    decide
  obtain ⟨r, h_read, h_network⟩ := Option.map_eq_some_iff.mp h_some
  have h_ok : Endpoint.block.read asked.body = .ok r := Outcome.eq_ok_of_toOption h_read
  exact ⟨r, ⟨rfl, by decide, by decide, by decide, h_ok⟩, h_network⟩

/-- The request, with a node that has blocks. -/
def visit : Visit := ⟨asked, fun _ => SampleChain.node⟩

/-- Without the node the request is refused because of that, and with it because it names no
network. -/
theorem gated_block :
    let offline : Gateway := ⟨"testnet", false, ""⟩
    let online : Gateway := ⟨"testnet", true, ""⟩
    ∃ request : Request, asked.Asks .block request ∧ Endpoint.block ∈ Endpoint.ofNode ∧
      Endpoint.block ∉ Endpoint.ofAnyNetwork ∧ online.Misnames request.network 5 ∧
      (offline.session .empty [visit, visit]).2 = (.empty, []) ∧
      (∃ response, (offline.session .empty [visit, visit]).1[1]? = some response ∧
        response.Refuses 32) ∧
      ∃ response, online.converse .empty visit = ((response, .empty), []) ∧ response.Refuses 5 := by
  intro offline online
  obtain ⟨request, h_asks, h_none⟩ := exists_asks
  have h_misnames : online.Misnames request.network 5 := by
    rw [h_none]
    exact .missing
  obtain ⟨h_nothing, h_refused⟩ := (gated offline).1 rfl .empty [visit, visit]
  exact ⟨request, h_asks, by decide, by decide, h_misnames, h_nothing,
    h_refused 1 visit .block request rfl h_asks (by decide),
    (gated online).2 rfl .empty visit .block request 5 h_asks (by decide) h_misnames⟩

end SampleGate

end Gateway

end RosettaGateway
