import RosettaGateway.Proofs.Failures.Endpoints

/-!
# Outages

An outage is told as an outage, and as nothing else is: a request is answered with error 38 just
when the first request to the node that fails has not reached it or was not answered in time
(`Gateway.outage_told_iff`).

When there is no outage, a failure is final, and so is the lack of an object. Some errors are
flagged otherwise, since the flag goes with the name of an error and not with its cause. So what is
flagged as passing is told by the request to the node that has failed (`NodeCall.invitesRetry`), and
by one lack of an object (`Gateway.retriable_iff`).
-/

namespace RosettaGateway

open Outcome (final_error final_mapError_ofTx)

/-- A node cannot be reached, or does not answer in time. -/
inductive NodeReply.IsOutage : NodeReply → Prop
  | unreachable (reason : String) : IsOutage (.error (.unreachable reason))
  | timeout (nanoseconds : Nat) : IsOutage (.error (.timeout nanoseconds))

/-- A node does not have what it was asked for: it answers `null`, or an error with the number for
this. -/
inductive NodeReply.IsAbsent : NodeReply → Prop
  | null : IsAbsent (.ok .null)
  | notFound (message : String) : IsAbsent (.error (.remote (-32000) message))

namespace NodeCall

variable {call : NodeCall} {reply : NodeReply} {cause : NodeError} {e : ApiError}

/-- Whether an error that tells of a final failure of a request is flagged as one that may pass. -/
def invitesRetry : NodeCall → Bool
  | .status | .account _ _ | .transaction _ | .pendingTransactions | .peers _ => true
  | .blockAt _ | .blockOf _ | .stakePool _ _ | .edgeNodeStake _ _ _ | .broadcast _ => false

theorem Fallback.isRetriable_eq (h_fallback : call.Fallback cause e) :
    e.isRetriable = call.invitesRetry := by
  cases h_fallback <;> rfl

/-- No final failure is called an outage. -/
theorem Fallback.code_ne (h_fallback : call.Fallback cause e) : e.code ≠ 38 := by
  cases h_fallback <;> simp [ApiError.code]

/-- An outage is a failure of any request. -/
theorem exists_failure_of_isOutage (h_outage : reply.IsOutage) :
    ∃ cause, call.failure? reply = some cause ∧ cause.isTransient = true := by
  cases h_outage with
  | unreachable reason =>
    exact ⟨_, failure?_eq_some_iff.mpr (Or.inl ⟨rfl, Bool.and_false _⟩), rfl⟩
  | timeout t => exact ⟨_, failure?_eq_some_iff.mpr (Or.inl ⟨rfl, Bool.and_false _⟩), rfl⟩

/-- A failure that may pass is an outage. -/
theorem isOutage_of_failure (h_failure : call.failure? reply = some cause)
    (h_transient : cause.isTransient = true) : reply.IsOutage := by
  rcases failure?_eq_some_iff.mp h_failure with ⟨rfl, -⟩ | ⟨v, -, -, rfl⟩
  · cases cause with
    | unreachable reason => exact .unreachable reason
    | timeout t => exact .timeout t
    | _ => cases h_transient
  · cases h_transient

end NodeCall

namespace ApiError

theorem ofNode_of_transient {otherwise : NodeError → ApiError} {cause : NodeError}
    (h_transient : cause.isTransient = true) :
    ofNode otherwise cause = .nodeUnavailable cause.message := if_pos h_transient

theorem ofNode_of_final {otherwise : NodeError → ApiError} {cause : NodeError}
    (h_final : cause.isTransient = false) : ofNode otherwise cause = otherwise cause :=
  if_neg (by rw [h_final]; decide)

/-- Errors that are told in the same way have the same number and the same flag. -/
theorem eq_of_toJson_eq {e e' : ApiError} (h_json : e.toJson = e'.toJson) :
    e.code = e'.code ∧ e.isRetriable = e'.isRetriable := by
  simp only [toJson, jsonWith, Json.object.injEq, List.cons.injEq, Prod.mk.injEq,
    Json.bool.injEq] at h_json
  have h_code := congrArg Json.Codec.natural? h_json.1.2
  exact ⟨Option.some.inj h_code, h_json.2.2.1.2⟩

theorem isRetriable_of_code {e : ApiError} (h_code : e.code = 38) : e.isRetriable = true := by
  cases e with
  | nodeUnavailable reason => rfl
  | _ => simp [code] at h_code

end ApiError

/-- The flag of the error that an answer tells. -/
def HttpResponse.retriable? (response : HttpResponse) : Option Bool :=
  match response.content with
  | .json v => (v.get? "retriable").bind Json.bool?
  | _ => none

theorem HttpResponse.retriable?_error (e : ApiError) :
    (HttpResponse.ofOutcome (.error e)).retriable? = some e.isRetriable := rfl

/-- An answer that tells an error has come from an error with the same number and the same flag. -/
theorem HttpResponse.exists_error_of_ofOutcome_eq {outcome : Except ApiError Response}
    {e : ApiError} (h_response : HttpResponse.ofOutcome outcome = .ofOutcome (.error e)) :
    ∃ e', outcome = .error e' ∧ e'.code = e.code ∧ e'.isRetriable = e.isRetriable := by
  cases outcome with
  | ok result => exact absurd (congrArg HttpResponse.status h_response) (by decide : ¬ (200 = 500))
  | error e' =>
    have h_json : e'.toJson = e.toJson := by simpa [HttpResponse.ofOutcome] using h_response
    exact ⟨e', rfl, ApiError.eq_of_toJson_eq h_json⟩

theorem HttpResponse.refuses_ofOutcome_iff {outcome : Except ApiError Response} {code : Nat} :
    (HttpResponse.ofOutcome outcome).Refuses code ↔ ∃ e, outcome = .error e ∧ e.code = code := by
  constructor
  · rintro ⟨e', h_code, h_response⟩
    obtain ⟨e, rfl, h_same, -⟩ := exists_error_of_ofOutcome_eq h_response
    exact ⟨e, rfl, h_same.trans h_code⟩
  · rintro ⟨e, rfl, h_code⟩
    exact ⟨e, h_code, rfl⟩

/-! ### Ends and outages -/

namespace Ended

variable {α : Type} {own : ApiError → Prop} {node : Nat → NodeCall → NodeReply}
  {outcome : Except ApiError α} {calls : List NodeCall}

/-- An end tells of an outage just if the first request that has failed did so by an outage. -/
theorem outage_iff (h_ended : Ended own node 0 outcome calls) (h_own : ∀ e, own e → e.code ≠ 38) :
    (∃ e, outcome = .error e ∧ e.code = 38) ↔
      ∃ (i : Nat) (call : NodeCall), calls[i]? = some call ∧ (node i call).IsOutage ∧
        ∀ (j : Nat) (earlier : NodeCall), j < i → calls[j]? = some earlier →
          earlier.failure? (node j earlier) = none := by
  constructor
  · rintro ⟨e, rfl, h_code⟩
    cases h_ended with
    | refused _ h_e => exact absurd h_code (h_own e h_e)
    | @failed asked call cause _ h_smooth h_failure h_fallback =>
      cases h_transient : cause.isTransient with
      | false =>
        rw [ApiError.ofNode_of_final h_transient] at h_code
        exact absurd h_code h_fallback.code_ne
      | true =>
        rw [Nat.zero_add] at h_failure
        refine ⟨asked.length, call, List.getElem?_concat_length, ?_, ?_⟩
        · exact NodeCall.isOutage_of_failure h_failure h_transient
        · intro j earlier h_lt h_earlier
          rw [List.getElem?_append_left h_lt] at h_earlier
          have h_none := h_smooth j earlier h_earlier
          rwa [Nat.zero_add] at h_none
  · rintro ⟨i, call, h_call, h_outage, h_before⟩
    obtain ⟨cause, h_failure, h_transient⟩ :
        ∃ cause, call.failure? (node i call) = some cause ∧ cause.isTransient = true :=
      NodeCall.exists_failure_of_isOutage h_outage
    -- Among requests that have not failed there is none like this one.
    have h_rough {asked : List NodeCall} (h_smooth : Smooth node 0 asked) :
        asked[i]? ≠ some call := by
      intro h_asked
      have h_none := h_smooth i call h_asked
      rw [Nat.zero_add, h_failure] at h_none
      cases h_none
    cases h_ended with
    | result h_smooth => exact absurd h_call (h_rough h_smooth)
    | refused h_smooth => exact absurd h_call (h_rough h_smooth)
    | @failed asked last cause' e h_smooth h_last h_fallback =>
      rcases Nat.lt_trichotomy i asked.length with h_lt | rfl | h_gt
      · rw [List.getElem?_append_left h_lt] at h_call
        exact absurd h_call (h_rough h_smooth)
      · rw [List.getElem?_concat_length] at h_call
        cases h_call
        rw [Nat.zero_add, h_failure] at h_last
        cases h_last
        rw [ApiError.ofNode_of_transient h_transient]
        exact ⟨_, rfl, rfl⟩
      · rw [List.getElem?_eq_none (by simp; omega)] at h_call
        cases h_call

/-- Without an outage, an error is a refusal, or it tells of a final failure of the last request. -/
theorem error_cases {e : ApiError}
    (h_ended : Ended own node 0 (.error e : Except ApiError α) calls)
    (h_up : ∀ (i : Nat) (call : NodeCall), calls[i]? = some call → ¬ (node i call).IsOutage) :
    Smooth node 0 calls ∧ own e ∨ ∃ asked call, calls = asked ++ [call] ∧
      call.failure? (node asked.length call) ≠ none ∧ e.isRetriable = call.invitesRetry := by
  cases h_ended with
  | refused h_smooth h_own => exact Or.inl ⟨h_smooth, h_own⟩
  | @failed asked call cause e h_smooth h_failure h_fallback =>
    rw [Nat.zero_add] at h_failure
    refine Or.inr ⟨asked, call, rfl, by rw [h_failure]; exact Option.some_ne_none cause, ?_⟩
    cases h_transient : cause.isTransient with
    | true =>
      exact absurd (NodeCall.isOutage_of_failure h_failure h_transient)
        (h_up _ call List.getElem?_concat_length)
    | false => rw [ApiError.ofNode_of_final h_transient, h_fallback.isRetriable_eq]

end Ended

/-! ### An account that is not there -/

namespace NodeReply

variable {α : Type} {call : NodeCall} {reading : Json → Option α} {reply : NodeReply}

theorem isAbsent_of_isNull {v : Json} (h_null : v.isNull = true) :
    NodeReply.IsAbsent (.ok v) := by
  cases v with
  | null => exact .null
  | _ => cases h_null

/-- Nothing is found just if the node does not have it. -/
theorem find_eq_ok_none_iff : find call reading reply = .ok none ↔ reply.IsAbsent := by
  constructor
  · intro h_find
    cases reply with
    | error e =>
      cases e with
      | remote code message =>
        by_cases h_code : code = NodeError.notFoundCode
        · subst h_code
          exact .notFound message
        · simp [find, read, orNull, NodeError.isNotFound, h_code] at h_find
      | _ => simp [find, read, orNull, NodeError.isNotFound] at h_find
    | ok v =>
      -- What is read from anything but `null` is an object.
      refine isAbsent_of_isNull (by_contra fun h_null => ?_)
      cases h_reading : reading v <;> simp [find, read, orNull, h_null, h_reading] at h_find
  · intro h_absent
    cases h_absent <;> rfl

/-- What is found has been read from an answer that is not `null`. -/
theorem find_eq_ok_some_iff {a : α} :
    find call reading reply = .ok (some a) ↔
      ∃ v, reply = .ok v ∧ v.isNull = false ∧ reading v = some a := by
  constructor
  · intro h_find
    cases reply with
    | error e =>
      cases h_found : e.isNotFound <;> simp [find, read, orNull, h_found, Json.isNull] at h_find
    | ok v =>
      refine ⟨v, rfl, ?_⟩
      cases h_null : v.isNull <;> cases h_reading : reading v <;>
        simp_all [find, read, orNull]
  · rintro ⟨v, rfl, h_null, h_reading⟩
    simp [find, read, orNull, h_null, h_reading]

theorem IsAbsent.failure?_eq_none (h_absent : reply.IsAbsent) (address : Address)
    (height : Option UInt64) : (NodeCall.account address height).failure? reply = none := by
  cases h_absent <;> rfl

end NodeReply

namespace Query

variable {α β : Type} {node : Nat → NodeCall → NodeReply} {n : Nat} {e : ApiError}
  {calls : List NodeCall}

/-- One query after another fails where the first one does, or where the second one does. -/
theorem play_bind_eq_error {q : Query α} {f : α → Query β}
    (h_play : (q >>= f).play node n = (.error e, calls)) :
    q.play node n = (.error e, calls) ∨ ∃ a first rest, q.play node n = (.ok a, first) ∧
      (f a).play node (n + first.length) = (.error e, rest) ∧ calls = first ++ rest := by
  obtain ⟨outcome, first, h_first⟩ : ∃ outcome first, q.play node n = (outcome, first) :=
    ⟨_, _, rfl⟩
  cases outcome with
  | error e' =>
    rw [play_bind_of_error h_first] at h_play
    cases h_play
    exact Or.inl h_first
  | ok a =>
    rw [play_bind_of_ok h_first] at h_play
    obtain ⟨h_second, rfl⟩ := Prod.mk.inj h_play
    exact Or.inr ⟨a, first, _, h_first, Prod.ext h_second rfl, rfl⟩

/-- A check that fails does so before anything is asked, and if it passes what follows fails. -/
theorem play_check_eq_error {outcome : Except ApiError α} {f : α → Query β}
    (h_final : Outcome.Final outcome)
    (h_play : (ofExcept outcome >>= f).play node n = (.error e, calls)) :
    calls = [] ∧ e.IsFinal ∨ ∃ a, outcome = .ok a ∧ (f a).play node n = (.error e, calls) := by
  rcases play_bind_eq_error h_play with h_check | ⟨a, first, rest, h_check, h_rest, rfl⟩
  · obtain ⟨rfl, rfl⟩ := play_ofExcept_eq_iff.mp h_check
    exact Or.inl ⟨rfl, h_final e rfl⟩
  · obtain ⟨rfl, rfl⟩ := play_ofExcept_eq_iff.mp h_check
    exact Or.inr ⟨a, rfl, h_rest⟩

theorem play_need_eq_error {e' : ApiError} {found : Option α} {f : α → Query β}
    (h_final : e'.isRetriable = false)
    (h_play : (demand e' found >>= f).play node n = (.error e, calls)) :
    calls = [] ∧ e.IsFinal ∨ ∃ a, found = some a ∧ (f a).play node n = (.error e, calls) := by
  cases found with
  | none =>
    rcases play_check_eq_error (final_error h_final) h_play with h_check | ⟨a, h_ok, -⟩
    · exact Or.inl h_check
    · cases h_ok
  | some a => exact Or.inr ⟨a, rfl, h_play⟩

/-- A request that ends with an error has failed. -/
theorem not_smooth_of_ask {call : NodeCall} {interpret : NodeReply → Except NodeError α}
    {otherwise : NodeError → ApiError} (h_understood : call.Understood interpret)
    (h_play : (ask call interpret otherwise).play node n = (.error e, calls)) :
    ¬ Smooth node n calls := by
  obtain ⟨h_error, rfl⟩ := play_ask_eq_iff.mp h_play
  intro h_smooth
  cases h_outcome : interpret (node n call) with
  | ok a =>
    rw [h_outcome] at h_error
    cases h_error
  | error cause =>
    have h_none := h_smooth 0 call rfl
    rw [Nat.add_zero, (h_understood _ _).mp h_outcome] at h_none
    cases h_none

end Query

namespace ConstructionMetadata

open Query (play_bind_eq_error play_check_eq_error play_need_eq_error)

variable {node : Nat → NodeCall → NodeReply} {n : Nat} {e : ApiError} {calls : List NodeCall}

/-- **The metadata of a construction is refused** before the node is asked, or behind the account of
the signer; only the lack of this account is flagged as one that may pass. -/
theorem play_query_eq_error {options : Metadata}
    (h_play : (query options).play node n = (.error e, calls)) (h_smooth : Smooth node n calls) :
    calls = [] ∧ e.IsFinal ∨ ∃ signer, calls = [.status, .account signer none] ∧
      (e.isRetriable = true ↔ (node (n + 1) (.account signer none)).IsAbsent) := by
  rcases play_check_eq_error (final_mapError_ofTx _) h_play with h_end | ⟨signer, -, h_signer⟩
  · exact Or.inl h_end
  rcases play_need_eq_error rfl h_signer with h_end | ⟨signer, rfl, h_code⟩
  · exact Or.inl h_end
  rcases play_check_eq_error (final_mapError_ofTx _) h_code with h_end | ⟨code, -, h_code⟩
  · exact Or.inl h_end
  rcases play_need_eq_error rfl h_code with h_end | ⟨code, rfl, h_kind⟩
  · exact Or.inl h_end
  rcases play_check_eq_error (final_mapError_ofTx _) h_kind with h_end | ⟨k, -, h_asked⟩
  · exact Or.inl h_end
  -- From here on the node is asked, for its status and then for the account.
  rcases play_bind_eq_error h_asked with h_status | ⟨s, _, rest, h_status, h_rest, rfl⟩
  · exact absurd h_smooth
      (Query.not_smooth_of_ask (NodeCall.understood_read rfl fun _ => rfl) h_status)
  obtain ⟨-, rfl⟩ := Query.play_ask_eq_iff.mp h_status
  rcases play_bind_eq_error h_rest with h_find | ⟨found, _, last, h_find, h_last, rfl⟩
  · exact absurd h_smooth.rest
      (Query.not_smooth_of_ask (NodeCall.understood_find rfl fun _ => rfl) h_find)
  obtain ⟨h_found, rfl⟩ := Query.play_ask_eq_iff.mp h_find
  have h_found := Outcome.mapError_eq_ok_iff.mp h_found
  refine Or.inr ⟨signer, ?_⟩
  cases found with
  | none =>
    cases h_last
    exact ⟨rfl, iff_of_true rfl (NodeReply.find_eq_ok_none_iff.mp h_found)⟩
  | some account =>
    rcases play_check_eq_error (Construction.final_settingsFor k options _) h_last with
      ⟨rfl, h_final⟩ | ⟨settings, -, h_done⟩
    · refine ⟨rfl, iff_of_false (by rw [h_final]; decide) fun h_absent => ?_⟩
      cases h_found.symm.trans (NodeReply.find_eq_ok_none_iff.mpr h_absent)
    · cases h_done

end ConstructionMetadata

namespace Gateway

variable {g : Gateway} {before : Ledger} {v : Visit} {endpoint : Endpoint} {request : Request}

/-- A well-formed request is answered by an end that is explained. -/
theorem ended_converse (h_asks : v.request.Asks endpoint request) (g : Gateway) (before : Ledger) :
    ∃ outcome, (g.converse before v).1.1 = .ofOutcome outcome ∧
      Ended request.MayRefuse v.replies 0 outcome (g.converse before v).2 := by
  obtain ⟨⟨outcome, after⟩, calls, h_play⟩ : ∃ first calls,
      (g.answer request).play v.replies 0 before = (first, calls) := ⟨_, _, rfl⟩
  have h_ended := g.explained_answer request v.replies 0 before
  rw [h_play] at h_ended
  rw [converse_of_asks h_asks h_play]
  exact ⟨outcome, rfl, h_ended⟩

theorem code_ne_of_mayRefuse {e : ApiError} (h_own : request.MayRefuse e) : e.code ≠ 38 := by
  intro h_code
  rcases h_own with h_final | ⟨-, rfl⟩
  · rw [ApiError.IsFinal, ApiError.isRetriable_of_code h_code] at h_final
    cases h_final
  · cases h_code

/-- **Outages are told as outages.** A request to the gateway is answered with error 38 just when
the first request to the node behind it that fails has not reached the node, or was not answered in
time. To have no such object is not to fail. Error 38 is flagged as one that may pass. -/
theorem outage_told_iff (g : Gateway) (before : Ledger) (v : Visit)
    (h_asks : v.request.Asks endpoint request) :
    ((g.converse before v).1.1.Refuses 38 ↔
      ∃ (i : Nat) (call : NodeCall), (g.converse before v).2[i]? = some call ∧
        (v.replies i call).IsOutage ∧
        ∀ (j : Nat) (earlier : NodeCall), j < i → (g.converse before v).2[j]? = some earlier →
          earlier.failure? (v.replies j earlier) = none) ∧
    ((g.converse before v).1.1.Refuses 38 → (g.converse before v).1.1.retriable? = some true) := by
  obtain ⟨outcome, h_response, h_ended⟩ := ended_converse h_asks g before
  rw [h_response, HttpResponse.refuses_ofOutcome_iff]
  refine ⟨h_ended.outage_iff fun e h_own => code_ne_of_mayRefuse h_own, ?_⟩
  rintro ⟨e, rfl, h_code⟩
  rw [HttpResponse.retriable?_error, ApiError.isRetriable_of_code h_code]

/-- A request for metadata that is refused is so before the node is asked, or behind the account. -/
theorem converse_metadata_refused (h_asks : v.request.Asks .metadata request) {e : ApiError}
    (h_response : (g.converse before v).1.1 = .ofOutcome (.error e))
    (h_smooth : Smooth v.replies 0 (g.converse before v).2) :
    (g.converse before v).2 = [] ∧ e.isRetriable = false ∨ ∃ signer,
      (g.converse before v).2 = [.status, .account signer none] ∧
      (e.isRetriable = true ↔ (v.replies 1 (.account signer none)).IsAbsent) := by
  obtain ⟨outcome, calls, h_play⟩ : ∃ outcome calls,
      (g.look request).play v.replies 0 = (outcome, calls) := ⟨_, _, rfl⟩
  rw [converse_of_look h_asks (by decide) h_play] at h_response h_smooth ⊢
  obtain ⟨e', rfl, -, h_flag⟩ := HttpResponse.exists_error_of_ofOutcome_eq h_response
  rw [← h_flag]
  have h_endpoint := Endpoint.endpoint_eq_of_read h_asks.read_eq
  cases request with
  | metadata n options =>
    -- The check refuses it or the query does; what is made of the answer never fails.
    rcases Query.play_check_eq_error (g.final_allow n) h_play with h_end | ⟨_, -, h_rest⟩
    · exact Or.inl h_end
    rcases Query.play_bind_eq_error h_rest with h_query | ⟨_, _, _, -, h_done, -⟩
    · exact ConstructionMetadata.play_query_eq_error h_query h_smooth
    · cases h_done
  | _ => cases h_endpoint

/-- When no request to the node has failed, an error is flagged as passing only for the lack of the
account of a signer. -/
theorem isRetriable_iff_of_smooth (h_asks : v.request.Asks endpoint request) {e : ApiError}
    (h_response : (g.converse before v).1.1 = .ofOutcome (.error e))
    (h_smooth : Smooth v.replies 0 (g.converse before v).2) (h_own : request.MayRefuse e) :
    e.isRetriable = true ↔ endpoint = .metadata ∧ ∃ asked signer,
      (g.converse before v).2 = asked ++ [.account signer none] ∧
      (v.replies asked.length (.account signer none)).IsAbsent := by
  have h_endpoint := Endpoint.endpoint_eq_of_read h_asks.read_eq
  by_cases h_metadata : endpoint = .metadata
  · subst h_metadata
    rcases converse_metadata_refused h_asks h_response h_smooth with
      ⟨h_nil, h_final⟩ | ⟨signer, h_calls, h_iff⟩
    · rw [h_nil, h_final]
      refine iff_of_false nofun ?_
      rintro ⟨-, asked, signer, h_last, -⟩
      exact List.append_ne_nil_of_right_ne_nil asked (List.cons_ne_nil _ []) h_last.symm
    · rw [h_iff, h_calls]
      constructor
      · intro h_absent
        exact ⟨rfl, [.status], signer, rfl, h_absent⟩
      · rintro ⟨-, asked, other, h_last, h_absent⟩
        have h_same : [.status] ++ [.account signer none] = asked ++ [.account other none] := h_last
        obtain ⟨rfl, h_call⟩ := List.append_inj' h_same rfl
        cases h_call
        exact h_absent
  · -- Of all other requests the refusals are final.
    have h_final : e.isRetriable = false :=
      h_own.resolve_right fun h_account => h_metadata (h_endpoint.symm.trans h_account.1)
    rw [h_final]
    exact iff_of_false nofun fun h_account => h_metadata h_account.1

/-- **What is flagged as passing without an outage.** A request to the gateway is made, and no
request to the node behind it meets an outage. An error that is then told is flagged as passing just
when the last request to the node has failed and is for the status, an account, a transaction, the
pending transactions or the peers; or when the metadata of a construction was asked for, and the
node does not have the account of the signer. -/
theorem retriable_iff (g : Gateway) (before : Ledger) (v : Visit)
    (h_asks : v.request.Asks endpoint request)
    (h_up : ∀ (i : Nat) (call : NodeCall), (g.converse before v).2[i]? = some call →
      ¬ (v.replies i call).IsOutage)
    (h_error : (g.converse before v).1.1.status = 500) :
    ∃ flag, (g.converse before v).1.1.retriable? = some flag ∧
      (flag = true ↔ ∃ asked call, (g.converse before v).2 = asked ++ [call] ∧
        (call.invitesRetry = true ∧ call.failure? (v.replies asked.length call) ≠ none ∨
          endpoint = .metadata ∧ (∃ signer, call = .account signer none) ∧
            (v.replies asked.length call).IsAbsent)) := by
  obtain ⟨outcome, h_response, h_ended⟩ := ended_converse h_asks g before
  rw [h_response] at h_error ⊢
  cases outcome with
  | ok result => exact absurd h_error (by decide : ¬ (200 = 500))
  | error e =>
  refine ⟨e.isRetriable, rfl, ?_⟩
  rcases h_ended.error_cases h_up with ⟨h_smooth, h_own⟩ | ⟨asked, call, h_calls, h_failure, h_flag⟩
  · rw [isRetriable_iff_of_smooth h_asks h_response h_smooth h_own]
    constructor
    · rintro ⟨h_metadata, asked, signer, h_last, h_absent⟩
      exact ⟨asked, _, h_last, Or.inr ⟨h_metadata, ⟨signer, rfl⟩, h_absent⟩⟩
    · rintro ⟨asked, call, h_last, ⟨-, h_failed⟩ | ⟨h_metadata, ⟨signer, rfl⟩, h_absent⟩⟩
      · -- The last request would be the one that has failed, and there is none.
        have h_none := h_smooth asked.length call (by rw [h_last, List.getElem?_concat_length])
        rw [Nat.zero_add] at h_none
        exact absurd h_none h_failed
      · exact ⟨h_metadata, asked, signer, h_last, h_absent⟩
  · -- The last request has failed, and so it has not told that there is no account.
    rw [h_calls, h_flag]
    constructor
    · intro h_invites
      exact ⟨asked, call, rfl, Or.inl ⟨h_invites, h_failure⟩⟩
    · rintro ⟨asked', call', h_last, h_cause⟩
      obtain ⟨rfl, h_call⟩ := List.append_inj' h_last rfl
      cases h_call
      rcases h_cause with ⟨h_invites, -⟩ | ⟨-, ⟨signer, rfl⟩, h_absent⟩
      · exact h_invites
      · exact absurd (h_absent.failure?_eq_none signer none) h_failure

end Gateway

/-! ### A node that fails -/

namespace SampleOutage

open SampleAccount (asked accountItem addressText exists_asks_coins exists_asks_first
  exists_asks_of_network gateway laterNode network readOf)

/-- The node tells its status, and it replies in one way to all else. -/
def node (reply : NodeReply) : NodeCall → NodeReply
  | .status => laterNode .status
  | _ => reply

/-- A request to the gateway of such a node. -/
def visit (endpoint : Endpoint) (items : String) (reply : NodeReply) : Visit :=
  ⟨asked endpoint items, fun _ => node reply⟩

/-- The node answers that something is wrong with itself. -/
def broken : NodeReply := .error (.remote (-32603) "internal")

theorem not_isOutage_remote (code : Int) (message : String) :
    ¬ NodeReply.IsOutage (.error (.remote code message)) := by
  rintro ⟨⟩

theorem not_isOutage_ok (v : Json) : ¬ NodeReply.IsOutage (.ok v) := by
  rintro ⟨⟩

/-- The node is no more out than its reply to all else is. -/
theorem not_isOutage_node {reply : NodeReply} (h_reply : ¬ reply.IsOutage) (call : NodeCall) :
    ¬ (node reply call).IsOutage := by
  cases call with
  | status => exact not_isOutage_ok _
  | _ => exact h_reply

/-- The options of a construction as an item of a body. -/
def optionsItem : String := ", \x7b\"signer\": \"" ++ addressText ++ "\", \"type\": 2\x7d"

/-- Two requests are read. The status is told, and it is asked for in front of an account, but not
in front of a block. -/
theorem read_and_asked :
    ((readOf .networkStatus "").bind Request.network = some network ∧
      (readOf .metadata optionsItem).bind Request.network = some network) ∧
    NodeCall.status.failure? (laterNode .status) = none ∧
    (gateway.converse .empty
      (visit .accountCoins accountItem (.error (.timeout 5000000000)))).2 =
        [.status, .account .zero none] ∧
    ((gateway.converse .empty (visit .accountCoins accountItem broken)).1.1.status = 500 ∧
      (gateway.converse .empty (visit .accountCoins accountItem broken)).2 =
        [.status] ++ [.account .zero none]) ∧
    (gateway.converse .empty
        (visit .accountBalance (accountItem ++ ", [1, null]") broken)).1.1.status = 500 ∧
      (gateway.converse .empty (visit .accountBalance (accountItem ++ ", [1, null]") broken)).2 =
        [] ++ [.blockAt 1] := by
  decide +kernel

theorem exists_asks_metadata :
    ∃ request, (asked .metadata optionsItem).Asks .metadata request := by
  obtain ⟨⟨-, h_view⟩, -⟩ := read_and_asked
  exact exists_asks_of_network (by decide) h_view

/-- An account that is not read in time is told as an outage, and an error of the node with the
same number is not. -/
theorem outage_told_account :
    (gateway.converse .empty
      (visit .accountCoins accountItem (.error (.timeout 5000000000)))).1.1.Refuses 38 ∧
    ¬ (gateway.converse .empty
      (visit .accountCoins accountItem (.error (.remote 38 "timeout")))).1.1.Refuses 38 := by
  obtain ⟨account, -, h_asks⟩ := exists_asks_coins
  obtain ⟨-, h_told, h_calls, -⟩ := read_and_asked
  constructor
  · refine (gateway.outage_told_iff .empty (visit .accountCoins accountItem
      (.error (.timeout 5000000000))) h_asks).1.mpr ⟨1, .account .zero none, ?_, .timeout _, ?_⟩
    · rw [h_calls]
      rfl
    · -- Before the account there is only the status, which the node tells.
      intro j earlier h_lt h_earlier
      obtain rfl : j = 0 := by omega
      rw [h_calls] at h_earlier
      cases h_earlier
      exact h_told
  · intro h_refuses
    obtain ⟨i, call, -, h_outage, -⟩ := (gateway.outage_told_iff .empty
      (visit .accountCoins accountItem (.error (.remote 38 "timeout"))) h_asks).1.mp h_refuses
    exact not_isOutage_node (not_isOutage_remote _ _) call h_outage

/-- An error of the node is flagged as passing where it was asked for an account, and as final where
it was asked for a block. -/
theorem retriable_account_block :
    (gateway.converse .empty (visit .accountCoins accountItem broken)).1.1.retriable? =
      some true ∧
    (gateway.converse .empty
      (visit .accountBalance (accountItem ++ ", [1, null]") broken)).1.1.retriable? =
      some false := by
  obtain ⟨-, -, -, ⟨h_status, h_calls⟩, h_status', h_calls'⟩ := read_and_asked
  constructor
  · obtain ⟨account, -, h_asks⟩ := exists_asks_coins
    obtain ⟨flag, h_flag, h_iff⟩ := gateway.retriable_iff .empty
      (visit .accountCoins accountItem broken) h_asks
      (fun _ call _ => not_isOutage_node (not_isOutage_remote _ _) call) h_status
    have h_passing : flag = true :=
      h_iff.mpr ⟨[.status], .account .zero none, h_calls, Or.inl ⟨rfl, nofun⟩⟩
    rw [h_flag, h_passing]
  · obtain ⟨account, h_asks⟩ := exists_asks_first
    obtain ⟨flag, h_flag, h_iff⟩ := gateway.retriable_iff .empty
      (visit .accountBalance (accountItem ++ ", [1, null]") broken) h_asks
      (fun _ call _ => not_isOutage_node (not_isOutage_remote _ _) call) h_status'
    rw [h_flag]
    refine congrArg some (Bool.eq_false_iff.mpr fun h_passing => ?_)
    obtain ⟨asked, call, h_last, h_cause⟩ := h_iff.mp h_passing
    obtain ⟨-, h_call⟩ := List.append_inj' (h_calls'.symm.trans h_last) rfl
    cases h_call
    -- A request for a block is none of those that invite to try again.
    rcases h_cause with ⟨h_invites, -⟩ | ⟨h_metadata, -⟩
    · cases h_invites
    · cases h_metadata

/-- The number of the error that an answer tells. -/
def errorCode? (response : HttpResponse) : Option Nat :=
  match response.content with
  | .json v => (v.get? "code").bind Json.Codec.natural?
  | _ => none

/-- The node answers with an error to all requests, and the status is asked for. -/
def brokenVisit : Visit := ⟨asked .networkStatus "", fun _ _ => broken⟩

/-- The metadata of a construction is asked for an account that the node does not have. -/
def absentVisit : Visit := visit .metadata optionsItem (.ok .null)

/-- **Final failures are flagged as passing.** The node can be reached and answers in time. But an
error of the node, and the lack of the account of the signer, are told as errors that may pass. -/
theorem not_final_of_no_outage :
    ((∃ request, brokenVisit.request.Asks .networkStatus request) ∧
      (∀ n call, ¬ (brokenVisit.replies n call).IsOutage) ∧
      (gateway.converse .empty brokenVisit).2 = [.status] ∧
      errorCode? (gateway.converse .empty brokenVisit).1.1 = some 18 ∧
      (gateway.converse .empty brokenVisit).1.1.retriable? = some true) ∧
    (∃ request, absentVisit.request.Asks .metadata request) ∧
      (∀ n call, ¬ (absentVisit.replies n call).IsOutage) ∧
      (gateway.converse .empty absentVisit).2 = [.status, .account .zero none] ∧
      errorCode? (gateway.converse .empty absentVisit).1.1 = some 8 ∧
      (gateway.converse .empty absentVisit).1.1.retriable? = some true := by
  obtain ⟨⟨h_view, -⟩, -⟩ := read_and_asked
  refine ⟨⟨exists_asks_of_network (by decide) h_view, fun _ _ => not_isOutage_remote _ _, ?_⟩,
    exists_asks_metadata, fun _ call => not_isOutage_node (not_isOutage_ok _) call, ?_⟩
  · decide +kernel
  · decide +kernel

end SampleOutage

end RosettaGateway
