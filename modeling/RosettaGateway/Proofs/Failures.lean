import RosettaGateway.Proofs.Accounts

/-!
# Requests to the node that fail

A request to the node fails when the node cannot be reached or does not answer in time, when it
answers with an error, and when its answer cannot be read. There is one exception: where the node
may not have what is asked for, an error that says so is no failure, but an answer
(`NodeCall.failure?`).

No failure is passed over. Whatever a client asks for, the gateway stops at the first request to the
node that fails, and what it tells the client is said by this request and its failure alone:

* `NodeCall.Fallback` — what a failure is called, unless it is an outage;
* `Ended` — an end that is explained: a result, a refusal, or the first failure;
* `Query.Explained`, `Update.Explained` — a computation all of whose ends are, and how this property
  passes from the parts of a computation to the whole.
-/

namespace RosettaGateway

/-! ### Failures -/

namespace NodeCall

/-- Whether the node may not have what it is asked for. It always has a status, and a transaction
that is sent is not looked for. -/
def isSearch : NodeCall → Bool
  | .status | .broadcast _ => false
  | .account _ _ | .blockAt _ | .blockOf _ | .transaction _ | .pendingTransactions | .peers _
  | .stakePool _ _ | .edgeNodeStake _ _ _ => true

/-- Whether an answer can be read as one to a request. -/
def reads : NodeCall → Json → Bool
  | .status, v => (NodeStatus.json.ofJson v).isSome
  | .account _ _, v => v.isNull || (NodeAccount.json.ofJson v).isSome
  | .blockAt _, v | .blockOf _, v => v.isNull || (NodeBlock.json.ofJson v).isSome
  | .transaction _, v => v.isNull || (NodeTransaction.json.ofJson v).isSome
  | .pendingTransactions, v => v.isNull || (pendingJson.ofJson v).isSome
  | .peers _, v => v.isNull || (peersJson.ofJson v).isSome
  | .stakePool purpose _, v => (purpose.readSnapshot? v).isSome
  | .edgeNodeStake _ _ _, v => v.isNull || (edgeNodeStakeJson.ofJson v).isSome
  | .broadcast _, v => (broadcastJson.ofJson v).isSome

/-- Why a request fails by a reply. It does not fail if the reply tells that there is no such
object. -/
def failure? (call : NodeCall) : NodeReply → Option NodeError
  | .error e => if call.isSearch && e.isNotFound then none else some e
  | .ok v => if call.reads v then none else some (.malformed call.method)

/-- A request fails by an error, which is its cause, or by an answer that cannot be read. -/
theorem failure?_eq_some_iff {call : NodeCall} {reply : NodeReply} {cause : NodeError} :
    call.failure? reply = some cause ↔
      reply = .error cause ∧ (call.isSearch && cause.isNotFound) = false ∨
      ∃ v, reply = .ok v ∧ call.reads v = false ∧ cause = .malformed call.method := by
  cases reply with
  | error e =>
    cases h_found : call.isSearch && e.isNotFound <;> grind [failure?]
  | ok v =>
    cases h_reads : call.reads v <;> grind [failure?]

/-- What a failure of a request is called when it is final. Transactions are asked for by two
endpoints, each with an error of its own. -/
inductive Fallback : NodeCall → NodeError → ApiError → Prop
  | status (cause : NodeError) : Fallback .status cause .nodeStatusUnavailable
  | account (address : Address) (height : Option UInt64) (cause : NodeError) :
    Fallback (.account address height) cause .accountUnavailable
  | blockAt (height : UInt64) (cause : NodeError) :
    Fallback (.blockAt height) cause .blockUnavailable
  | blockOf (hash : Hash) (cause : NodeError) : Fallback (.blockOf hash) cause .blockUnavailable
  | blockTransaction (hash : Hash) (cause : NodeError) :
    Fallback (.transaction hash) cause .blockTransactionUnavailable
  | mempoolTransaction (hash : Hash) (cause : NodeError) :
    Fallback (.transaction hash) cause .mempoolTransactionUnavailable
  | pendingTransactions (cause : NodeError) :
    Fallback .pendingTransactions cause .mempoolUnavailable
  | peers (skipEdgeNode : Bool) (cause : NodeError) :
    Fallback (.peers skipEdgeNode) cause .nodeStatusUnavailable
  | stakePool (purpose : StakePurpose) (height : UInt64) (cause : NodeError) :
    Fallback (.stakePool purpose height) cause (.stakeUnresolved cause.message)
  | edgeNodeStake (height : UInt64) (source holder : Address) (cause : NodeError) :
    Fallback (.edgeNodeStake height source holder) cause (.stakeUnresolved cause.message)
  | broadcast (wire : Octets) (cause : NodeError) :
    Fallback (.broadcast wire) cause (.submitFailed cause.message)

/-- A way of reading replies to a request refuses just those by which the request fails. -/
def Understood {α : Type} (call : NodeCall) (interpret : NodeReply → Except NodeError α) : Prop :=
  ∀ reply cause, interpret reply = .error cause ↔ call.failure? reply = some cause

variable {α : Type} {call : NodeCall} {reading : Json → Option α}

theorem understood_read (h_search : call.isSearch = false)
    (h_reads : ∀ v, call.reads v = (reading v).isSome) :
    call.Understood (NodeReply.read call reading) := by
  intro reply cause
  cases reply with
  | error e => simp [NodeReply.read, failure?, h_search]
  | ok v =>
    simp only [NodeReply.read, failure?, h_reads]
    cases reading v <;> simp

/-- Where the node may not have the object, it is the same to say so and to answer `null`. -/
theorem understood_orNull (h_search : call.isSearch = true)
    (h_reads : ∀ v, call.reads v = (reading v).isSome) (h_null : (reading .null).isSome = true) :
    call.Understood fun reply => NodeReply.read call reading reply.orNull := by
  intro reply cause
  cases reply with
  | error e =>
    obtain ⟨a, h_a⟩ := Option.isSome_iff_exists.mp h_null
    cases h_found : e.isNotFound <;> simp [NodeReply.read, NodeReply.orNull, failure?, *]
  | ok v =>
    simp only [NodeReply.read, NodeReply.orNull, failure?, h_reads]
    cases reading v <;> simp

theorem understood_find (h_search : call.isSearch = true)
    (h_reads : ∀ v, call.reads v = (v.isNull || (reading v).isSome)) :
    call.Understood (NodeReply.find call reading) := by
  refine understood_orNull h_search (fun v => ?_) rfl
  rw [h_reads]
  cases v.isNull <;> simp

end NodeCall

/-! ### Ends that are explained -/

/-- No request fails, of those that are made from a number on. -/
def Smooth (node : Nat → NodeCall → NodeReply) (n : Nat) (calls : List NodeCall) : Prop :=
  ∀ (i : Nat) (call : NodeCall), calls[i]? = some call → call.failure? (node (n + i) call) = none

theorem smooth_nil (node : Nat → NodeCall → NodeReply) (n : Nat) : Smooth node n [] := by
  intro i call h_call
  cases h_call

theorem smooth_singleton {node : Nat → NodeCall → NodeReply} {n : Nat} {call : NodeCall}
    (h_none : call.failure? (node n call) = none) : Smooth node n [call] := by
  intro i other h_other
  cases i with
  | zero =>
    cases h_other
    exact h_none
  | succ i => cases h_other

theorem Smooth.append {node : Nat → NodeCall → NodeReply} {n : Nat} {first rest : List NodeCall}
    (h_first : Smooth node n first) (h_rest : Smooth node (n + first.length) rest) :
    Smooth node n (first ++ rest) := by
  intro i call h_call
  rcases Nat.lt_or_ge i first.length with h_lt | h_ge
  · rw [List.getElem?_append_left h_lt] at h_call
    exact h_first i call h_call
  · rw [List.getElem?_append_right h_ge] at h_call
    have h_smooth := h_rest (i - first.length) call h_call
    rwa [show n + first.length + (i - first.length) = n + i by omega] at h_smooth

theorem Smooth.rest {node : Nat → NodeCall → NodeReply} {n : Nat} {first rest : List NodeCall}
    (h_smooth : Smooth node n (first ++ rest)) : Smooth node (n + first.length) rest := by
  intro i call h_call
  have h_none := h_smooth (first.length + i) call (by
    rw [List.getElem?_append_right (Nat.le_add_right _ _), Nat.add_sub_cancel_left, h_call])
  rwa [← Nat.add_assoc] at h_none

/-- An end is explained by the requests that have been made. Either none of them has failed, and
there is a result or a refusal of some sort; or just the last one has failed, and this is what is
told, either as an outage or as what this failure is called. -/
inductive Ended (own : ApiError → Prop) (node : Nat → NodeCall → NodeReply) (n : Nat) {α : Type} :
    Except ApiError α → List NodeCall → Prop
  | result {a : α} {calls : List NodeCall} (h_smooth : Smooth node n calls) :
    Ended own node n (.ok a) calls
  | refused {e : ApiError} {calls : List NodeCall} (h_smooth : Smooth node n calls)
      (h_own : own e) : Ended own node n (.error e) calls
  | failed {asked : List NodeCall} {call : NodeCall} {cause : NodeError} {e : ApiError}
      (h_smooth : Smooth node n asked)
      (h_failure : call.failure? (node (n + asked.length) call) = some cause)
      (h_fallback : call.Fallback cause e) :
    Ended own node n (.error (.ofNode (fun _ => e) cause)) (asked ++ [call])

namespace Ended

variable {α β : Type} {own own' : ApiError → Prop} {node : Nat → NodeCall → NodeReply} {n : Nat}
  {calls more : List NodeCall}

theorem mono {outcome : Except ApiError α} (h_own : ∀ e, own e → own' e)
    (h_ended : Ended own node n outcome calls) : Ended own' node n outcome calls := by
  cases h_ended with
  | result h_smooth => exact .result h_smooth
  | refused h_smooth h_e => exact .refused h_smooth (h_own _ h_e)
  | failed h_smooth h_failure h_fallback => exact .failed h_smooth h_failure h_fallback

/-- What comes after requests that have not failed explains the end of the whole. -/
theorem behind {outcome : Except ApiError α} (h_smooth : Smooth node n calls)
    (h_ended : Ended own node (n + calls.length) outcome more) :
    Ended own node n outcome (calls ++ more) := by
  cases h_ended with
  | result h_rest => exact .result (h_smooth.append h_rest)
  | refused h_rest h_own => exact .refused (h_smooth.append h_rest) h_own
  | failed h_rest h_failure h_fallback =>
    rw [← List.append_assoc]
    refine .failed (h_smooth.append h_rest) ?_ h_fallback
    rwa [List.length_append, ← Nat.add_assoc]

/-- An error ends whatever it is part of. -/
theorem of_error {e : ApiError} (h_ended : Ended own node n (.error e : Except ApiError α) calls) :
    Ended own node n (.error e : Except ApiError β) calls := by
  cases h_ended with
  | refused h_smooth h_own => exact .refused h_smooth h_own
  | failed h_smooth h_failure h_fallback => exact .failed h_smooth h_failure h_fallback

theorem smooth_of_ok {a : α} (h_ended : Ended own node n (.ok a) calls) : Smooth node n calls := by
  cases h_ended with
  | result h_smooth => exact h_smooth

end Ended

/-! ### Queries -/

/-- However a query is played, its end is explained. -/
def Query.Explained {α : Type} (own : ApiError → Prop) (q : Query α) : Prop :=
  ∀ node n, Ended own node n (q.play node n).1 (q.play node n).2

namespace Query

variable {α β : Type} {own own' : ApiError → Prop}

theorem Explained.mono {q : Query α} (h_own : ∀ e, own e → own' e) (h_q : q.Explained own) :
    q.Explained own' := fun node n => (h_q node n).mono h_own

theorem explained_ofExcept {outcome : Except ApiError α}
    (h_own : ∀ e, outcome = .error e → own e) : (ofExcept outcome).Explained own := by
  intro node n
  cases outcome with
  | ok a => exact .result (smooth_nil node n)
  | error e => exact .refused (smooth_nil node n) (h_own e rfl)

theorem explained_pure (a : α) : (pure a : Query α).Explained own :=
  show (ofExcept (.ok a)).Explained own from explained_ofExcept nofun

theorem explained_fail {e : ApiError} (h_own : own e) : (fail e : Query α).Explained own :=
  explained_ofExcept (by rintro _ ⟨⟩; exact h_own)

theorem explained_demand {e : ApiError} (h_own : own e) (found : Option α) :
    (demand e found).Explained own := by
  cases found with
  | none => exact explained_fail h_own
  | some a => exact explained_pure a

/-- A query that succeeds is followed by another. -/
theorem play_bind_of_ok {node : Nat → NodeCall → NodeReply} {n : Nat} {calls : List NodeCall}
    {q : Query α} {f : α → Query β} {a : α} (h_play : q.play node n = (.ok a, calls)) :
    (q >>= f).play node n = (((f a).play node (n + calls.length)).1,
      calls ++ ((f a).play node (n + calls.length)).2) := by
  unfold play at h_play ⊢
  rw [ExceptT.run_bind, Dialogue.run_bind_eq_iff]
  exact ⟨.ok a, calls, _, h_play, rfl, rfl⟩

/-- A request is explained if it is understood and its failures are called by their names. -/
theorem explained_ask {call : NodeCall} {interpret : NodeReply → Except NodeError α}
    {otherwise : NodeError → ApiError} (h_understood : call.Understood interpret)
    (h_fallback : ∀ cause, call.Fallback cause (otherwise cause)) :
    (ask call interpret otherwise).Explained own := by
  intro node n
  obtain ⟨outcome, h_outcome⟩ : ∃ outcome, interpret (node n call) = outcome := ⟨_, rfl⟩
  have h_play : (ask call interpret otherwise).play node n =
      (outcome.mapError (.ofNode otherwise), [call]) :=
    play_ask_eq_iff.mpr ⟨congrArg _ h_outcome, rfl⟩
  rw [h_play]
  cases outcome with
  | ok a =>
    -- Had the request failed, its reply would not have been read.
    have h_none : call.failure? (node n call) = none := by
      refine Option.eq_none_iff_forall_ne_some.mpr fun cause h_failure => ?_
      rw [(h_understood _ _).mpr h_failure] at h_outcome
      cases h_outcome
    exact .result (smooth_singleton h_none)
  | error cause =>
    exact .failed (smooth_nil node n) ((h_understood _ _).mp h_outcome) (h_fallback cause)

/-- One query after another. -/
theorem Explained.bind {q : Query α} {f : α → Query β} (h_q : q.Explained own)
    (h_f : ∀ a, (f a).Explained own) : (q >>= f).Explained own := by
  intro node n
  have h_first := h_q node n
  obtain ⟨outcome, calls, h_play⟩ : ∃ outcome calls, q.play node n = (outcome, calls) :=
    ⟨_, _, rfl⟩
  rw [h_play] at h_first
  cases outcome with
  | error e =>
    -- What has ended the first query ends the whole.
    rw [play_bind_of_error h_play]
    exact h_first.of_error
  | ok a =>
    -- The first query has a result, so no request of it has failed, and the second one explains
    -- the end.
    rw [play_bind_of_ok h_play]
    exact (h_f a _ _).behind h_first.smooth_of_ok

end Query

/-! ### Updates -/

/-- However an update is played, its end is explained. -/
def Update.Explained {α : Type} (own : ApiError → Prop) (u : Update α) : Prop :=
  ∀ node n before, Ended own node n (u.play node n before).1.1 (u.play node n before).2

namespace Update

variable {α β : Type} {own : ApiError → Prop}

/-- An update that asks nothing and does not fail. -/
theorem explained_of_silent {u : Update α}
    (h_silent : ∀ node n before, ∃ a after, u.play node n before = ((.ok a, after), [])) :
    u.Explained own := by
  intro node n before
  obtain ⟨a, after, h_play⟩ := h_silent node n before
  rw [h_play]
  exact .result (smooth_nil node n)

theorem explained_pure (a : α) : Update.Explained own (pure a : Update α) :=
  explained_of_silent fun _ _ before => ⟨a, before, rfl⟩

theorem explained_toUpdate {q : Query α} (h_q : q.Explained own) : q.toUpdate.Explained own := by
  intro node n before
  have h_play : q.toUpdate.play node n before =
      (((q.play node n).1, before), (q.play node n).2) :=
    play_toUpdate_eq_iff.mpr ⟨rfl, rfl⟩
  rw [h_play]
  exact h_q node n

/-- An update that fails is not followed by another. -/
theorem play_bind_of_error {node : Nat → NodeCall → NodeReply} {n : Nat} {before after : Ledger}
    {calls : List NodeCall} {u : Update α} {f : α → Update β} {e : ApiError}
    (h_play : u.play node n before = ((.error e, after), calls)) :
    (u >>= f).play node n before = ((.error e, after), calls) := by
  unfold play at h_play ⊢
  rw [ExceptT.run_bind, StateT.run_bind, Dialogue.run_bind_eq_iff]
  exact ⟨_, calls, [], h_play, rfl, (List.append_nil calls).symm⟩

/-- An update that succeeds is followed by another. -/
theorem play_bind_of_ok {node : Nat → NodeCall → NodeReply} {n : Nat} {before between : Ledger}
    {calls : List NodeCall} {u : Update α} {f : α → Update β} {a : α}
    (h_play : u.play node n before = ((.ok a, between), calls)) :
    (u >>= f).play node n before = (((f a).play node (n + calls.length) between).1,
      calls ++ ((f a).play node (n + calls.length) between).2) := by
  unfold play at h_play ⊢
  rw [ExceptT.run_bind, StateT.run_bind, Dialogue.run_bind_eq_iff]
  exact ⟨(.ok a, between), calls, _, h_play, rfl, rfl⟩

/-- One update after another. -/
theorem Explained.bind {u : Update α} {f : α → Update β} (h_u : u.Explained own)
    (h_f : ∀ a, (f a).Explained own) : Update.Explained own (u >>= f) := by
  intro node n before
  have h_first := h_u node n before
  obtain ⟨outcome, between, calls, h_play⟩ : ∃ outcome between calls,
      u.play node n before = ((outcome, between), calls) := ⟨_, _, _, rfl⟩
  rw [h_play] at h_first
  cases outcome with
  | error e =>
    rw [play_bind_of_error h_play]
    exact h_first.of_error
  | ok a =>
    rw [play_bind_of_ok h_play]
    exact (h_f a _ _ between).behind h_first.smooth_of_ok

/-- One update for each item of a list. -/
theorem explained_mapM {f : α → Update β} (h_f : ∀ a, (f a).Explained own) (as : List α) :
    Update.Explained own (as.mapM f) := by
  induction as with
  | nil => exact explained_pure []
  | cons a as ih =>
    rw [List.mapM_cons]
    exact (h_f a).bind fun b => ih.bind fun bs => explained_pure (b :: bs)

end Update

end RosettaGateway
