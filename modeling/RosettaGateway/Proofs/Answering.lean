import RosettaGateway.Proofs.Gating

/-!
# Requests and their answers

A well-formed request is answered by what `Gateway.answer` makes of it, put into JSON and a status
(`Gateway.converse_of_asks`). Of all requests but those for a block this is a query, which leaves
the ledger alone (`Gateway.converse_of_look`). So a statement about answers over HTTP is one about
plays of queries and updates.

What a request holds has been read by a codec, and a codec may promise something of all that it
reads: `Json.Codec.Ensures`. By such a promise the index of a block in a request is a signed number
of 64 bits (`Endpoint.fits_of_read_accountBalance`, `Endpoint.fits_of_read_block`).
-/

namespace RosettaGateway

/-! ### Promises of codecs -/

namespace Json

variable {α β : Type}

/-- Whatever a codec reads has a property. -/
def Codec.Ensures (P : α → Prop) (c : Codec α) : Prop := ∀ v a, c.read v = some a → P a

/-- Whatever a record reads has a property. -/
def Record.Ensures (P : α → Prop) (r : Record α) : Prop := ∀ slots a, r.read slots = some a → P a

/-- What is read from a text has been read from a value. -/
theorem Codec.Ensures.of_ofText {P : α → Prop} {c : Codec α} (hc : c.Ensures P) {text : String}
    {a : α} (h_read : c.ofText text = .ok a) : P a := by
  unfold Codec.ofText at h_read
  dsimp only at h_read
  -- A fault, something behind the value, or a value that is not read: none of these gives `a`.
  split at h_read
  · cases h_read
  split at h_read
  · split at h_read
    · next h_some =>
      cases h_read
      exact hc _ _ h_some
    · cases h_read
  · cases h_read

theorem Codec.ensures_integer (low high : Int) :
    (Codec.integer low high).Ensures fun i => low ≤ i ∧ i ≤ high := by
  intro v i h_read
  obtain ⟨-, h_bounds⟩ := Option.filter_eq_some_iff.mp h_read
  exact of_decide_eq_true h_bounds

theorem Codec.Ensures.nullable {P : α → Prop} {c : Codec α} (hc : c.Ensures P) :
    c.nullable.Ensures fun found => ∀ a ∈ found, P a := by
  intro v found h_read a h_mem
  cases v with
  | null =>
    obtain rfl : none = found := Option.some.inj h_read
    cases h_mem
  | _ =>
    -- Anything but null is read by the codec inside.
    obtain ⟨a', h_value, rfl⟩ := Option.map_eq_some_iff.mp h_read
    obtain rfl : a' = a := Option.some.inj h_mem
    exact hc _ _ h_value

namespace Record

theorem ensures_true (r : Record α) : r.Ensures fun _ => True := fun _ _ _ => trivial

theorem Ensures.optional {P : α → Prop} {c : Codec α} (hc : c.Ensures P) (name : String)
    (aliases : List String) :
    (Record.optional name c aliases).Ensures fun found => ∀ a ∈ found, P a := by
  intro slots found h_read
  match slots, h_read with
  | [some v], h_read => exact hc.nullable v found h_read
  | [none], h_read =>
    obtain rfl : none = found := Option.some.inj h_read
    exact fun a h_mem => by cases h_mem

theorem Ensures.defaulted {P : α → Prop} {c : Codec α} (hc : c.Ensures P) (name : String)
    {default : α} (h_default : P default) (aliases : List String) :
    (Record.defaulted name c default aliases).Ensures P := by
  intro slots a h_read
  match slots, h_read with
  | [some v], h_read => exact hc v a h_read
  | [none], h_read => exact Option.some.inj h_read ▸ h_default

theorem Ensures.and {P : α → Prop} {Q : β → Prop} {a : Record α} {b : Record β}
    (ha : a.Ensures P) (hb : b.Ensures Q) : (a.and b).Ensures fun p => P p.1 ∧ Q p.2 := by
  intro slots p h_read
  simp only [Record.and] at h_read
  split at h_read
  · next h_left h_right =>
    cases h_read
    exact ⟨ha _ _ h_left, hb _ _ h_right⟩
  · cases h_read

theorem Ensures.map {P : α → Prop} {r : Record α} (hr : r.Ensures P) (make : α → β)
    (parts : β → α) {Q : β → Prop} (h_make : ∀ a, P a → Q (make a)) :
    (r.map make parts).Ensures Q := by
  intro slots b h_read
  obtain ⟨a, h_some, rfl⟩ := Option.map_eq_some_iff.mp h_read
  exact h_make a (hr slots a h_some)

theorem Ensures.codec {P : α → Prop} {r : Record α} (hr : r.Ensures P) : r.codec.Ensures P := by
  intro v a h_read
  obtain ⟨slots, -, h_some⟩ := Option.bind_eq_some_iff.mp h_read
  exact hr slots a h_some

end Record

end Json

/-! ### Indices of blocks in requests -/

/-- The index, if there is one, is a signed number of 64 bits. -/
def PartialBlockIdentifier.Fits (id : PartialBlockIdentifier) : Prop :=
  ∀ i ∈ id.index, -0x8000000000000000 ≤ i ∧ i < 0x8000000000000000

theorem PartialBlockIdentifier.ensures_fits : PartialBlockIdentifier.json.Ensures Fits := by
  refine ((Json.Record.Ensures.optional (Json.Codec.ensures_integer _ _) _ _).and
    (Json.Record.ensures_true _)).map _ _ ?_ |>.codec
  rintro ⟨index, hash⟩ ⟨h_index, -⟩ i h_mem
  -- The codec has the greatest number as its bound, and here it is the one behind it.
  obtain ⟨h_low, h_high⟩ := h_index i h_mem
  exact ⟨by omega, by omega⟩

namespace Endpoint

variable {text : String} {n : Option NetworkIdentifier}

theorem fits_of_read_accountBalance {account : AccountIdentifier}
    {currencies : Option (List Currency)} {id : PartialBlockIdentifier}
    (h_read : accountBalance.read text = .ok (.accountBalance n account (some id) currencies)) :
    id.Fits := by
  obtain ⟨⟨n', a, block, cs⟩, h_text, h_make⟩ := exists_of_body_eq_ok h_read
  cases h_make
  have h_all := ((Json.Record.ensures_true network).and <|
    (Json.Record.ensures_true Endpoint.account).and <|
    (Json.Record.Ensures.optional PartialBlockIdentifier.ensures_fits "block_identifier" []).and
    (Json.Record.ensures_true Endpoint.currencies)).codec.of_ofText h_text
  exact h_all.2.2.1 id rfl

theorem fits_of_read_block {id : PartialBlockIdentifier}
    (h_read : block.read text = .ok (.block n id)) : id.Fits := by
  obtain ⟨⟨n', id'⟩, h_text, h_make⟩ := exists_of_body_eq_ok h_read
  cases h_make
  have h_default : PartialBlockIdentifier.Fits {} := fun i h_mem => by cases h_mem
  have h_all := ((Json.Record.ensures_true network).and <|
    Json.Record.Ensures.defaulted PartialBlockIdentifier.ensures_fits "block_identifier" h_default
      []).codec.of_ofText h_text
  exact h_all.2

end Endpoint

/-! ### Answers -/

/-- The answer that tells what a request has given. -/
def HttpResponse.ofOutcome : Except ApiError Response → HttpResponse
  | .ok result => ⟨200, .json result.toJson⟩
  | .error e => ⟨500, .json e.toJson⟩

/-- An answer with status 200 tells a result. -/
theorem HttpResponse.exists_of_status {outcome : Except ApiError Response}
    (h_status : (HttpResponse.ofOutcome outcome).status = 200) :
    ∃ result, outcome = .ok result := by
  cases outcome with
  | ok result => exact ⟨result, rfl⟩
  | error e => exact absurd h_status (by decide : ¬ (500 = 200))

namespace Gateway

variable {g : Gateway} {before after : Ledger} {v : Visit} {endpoint : Endpoint} {request : Request}

/-- **A well-formed request is answered by what it gives.** -/
theorem converse_of_asks (h_asks : v.request.Asks endpoint request)
    {outcome : Except ApiError Response} {calls : List NodeCall}
    (h_play : (g.answer request).play v.replies 0 before = ((outcome, after), calls)) :
    g.converse before v = ((.ofOutcome outcome, after), calls) := by
  rw [converse, serve_of_asks h_asks, respond, StateT.run_bind]
  -- Once the outcome is there nothing more is asked, so its calls are all of them.
  refine Dialogue.run_bind_eq_iff.mpr ⟨_, calls, [], h_play, ?_, (List.append_nil calls).symm⟩
  cases outcome with
  | ok result => rfl
  | error e => rfl

/-- A request that is not for a block is a query. -/
theorem answer_eq_toUpdate {r : HttpRequest} (h_asks : r.Asks endpoint request)
    (h_other : endpoint ≠ .block) : g.answer request = (g.look request).toUpdate := by
  -- The endpoint tells of what sort the request is.
  have h_endpoint := Endpoint.endpoint_eq_of_read h_asks.read_eq
  cases request with
  | block => exact absurd h_endpoint.symm h_other
  | _ => rfl

/-- Where a request is not for a block, its answer is that of a query. -/
theorem converse_of_look (h_asks : v.request.Asks endpoint request) (h_other : endpoint ≠ .block)
    {outcome : Except ApiError Response} {calls : List NodeCall}
    (h_play : (g.look request).play v.replies 0 = (outcome, calls)) :
    g.converse before v = ((.ofOutcome outcome, before), calls) := by
  refine converse_of_asks h_asks ?_
  rw [answer_eq_toUpdate h_asks h_other]
  exact Update.play_toUpdate_eq_iff.mpr ⟨h_play, rfl⟩

/-- A well-formed request that is answered with status 200 has given a result. -/
theorem exists_answer_of_status (h_asks : v.request.Asks endpoint request)
    (h_status : (g.converse before v).1.1.status = 200) :
    ∃ result after calls,
      (g.answer request).play v.replies 0 before = ((.ok result, after), calls) ∧
      g.converse before v = ((⟨200, .json result.toJson⟩, after), calls) := by
  obtain ⟨⟨outcome, after⟩, calls, h_play⟩ : ∃ first calls,
      (g.answer request).play v.replies 0 before = (first, calls) := ⟨_, _, rfl⟩
  have h_converse : g.converse before v = ((.ofOutcome outcome, after), calls) :=
    converse_of_asks h_asks h_play
  -- Had it failed, the status would be another one.
  rw [h_converse] at h_status
  obtain ⟨result, rfl⟩ := HttpResponse.exists_of_status h_status
  exact ⟨result, after, calls, h_play, h_converse⟩

/-- Of all requests but those for a block this is the result of a query. -/
theorem exists_look_of_status (h_asks : v.request.Asks endpoint request)
    (h_other : endpoint ≠ .block)
    (h_status : (g.converse before v).1.1.status = 200) :
    ∃ result calls, (g.look request).play v.replies 0 = (.ok result, calls) ∧
      g.converse before v = ((⟨200, .json result.toJson⟩, before), calls) := by
  obtain ⟨result, after, calls, h_play, h_converse⟩ := exists_answer_of_status h_asks h_status
  rw [answer_eq_toUpdate h_asks h_other] at h_play
  obtain ⟨h_look, rfl⟩ := Update.play_toUpdate_eq_iff.mp h_play
  exact ⟨result, calls, h_look, h_converse⟩

end Gateway

end RosettaGateway
