import RosettaGateway.Api.Query

/-!
# What a dialogue can end with

`Dialogue.run` plays a dialogue against one node. Statements about all nodes, or about nodes that
fail now and then, are easier to make about `Dialogue.Ends`: a dialogue can end with a value if
there are replies, each of which the node may give, that lead there. Which replies the node may give
to a request is a relation, an `Answers`.

* `Dialogue.ends_run` — what a run ends with is something the dialogue can end with;
* `Dialogue.ends_fixed_iff` — against a node whose answers do not change it is the only thing;
* `Dialogue.ends_bind_iff` — one dialogue after another.

`Query.Ends` and `Update.Ends` say the same of queries and of updates, the latter with the ledger
before and after. Each way of building a query or an update has a statement that turns its ends into
those of the parts, so that what an update does is read off its definition.

Where it matters which reply was given to which request, `Query.play` and `Update.play` are the runs
themselves, with the requests that were made. A part of a run starts with the number of the requests
in front of it.
-/

namespace RosettaGateway

/-- The replies a node may give to a request. -/
abbrev Answers := NodeCall → NodeReply → Prop

/-- The answers of a node that always gives the same reply to the same request. -/
def Answers.fixed (node : NodeCall → NodeReply) : Answers := fun call reply => reply = node call

namespace Dialogue

variable {α β : Type} {answers : Answers}

/-- A dialogue can end with a value. -/
inductive Ends (answers : Answers) {α : Type} : Dialogue α → α → Prop
  | done (a : α) : Ends answers (.done a) a
  | ask {call : NodeCall} {next : NodeReply → Dialogue α} {reply : NodeReply} {a : α}
      (h_reply : answers call reply) (h_next : Ends answers (next reply) a) :
      Ends answers (.ask call next) a

theorem ends_done_iff {a b : α} : Ends answers (.done a) b ↔ b = a := by
  constructor
  · intro h_ends
    cases h_ends
    rfl
  · rintro rfl
    exact .done b

theorem ends_ask_iff {call : NodeCall} {next : NodeReply → Dialogue α} {a : α} :
    Ends answers (.ask call next) a ↔
      ∃ reply, answers call reply ∧ Ends answers (next reply) a := by
  constructor
  · intro h_ends
    cases h_ends with
    | ask h_reply h_next => exact ⟨_, h_reply, h_next⟩
  · rintro ⟨reply, h_reply, h_next⟩
    exact .ask h_reply h_next

/-- One dialogue after another ends where the second one ends. -/
theorem ends_bind_iff {d : Dialogue α} {f : α → Dialogue β} {b : β} :
    Ends answers (d >>= f) b ↔ ∃ a, Ends answers d a ∧ Ends answers (f a) b := by
  induction d with
  | done a =>
    rw [done_bind]
    constructor
    · intro h_ends
      exact ⟨a, .done a, h_ends⟩
    · rintro ⟨a', h_done, h_ends⟩
      rw [ends_done_iff.mp h_done] at h_ends
      exact h_ends
  | ask call next ih =>
    rw [ask_bind, ends_ask_iff]
    constructor
    · rintro ⟨reply, h_reply, h_next⟩
      obtain ⟨a, h_first, h_second⟩ := (ih reply).mp h_next
      exact ⟨a, .ask h_reply h_first, h_second⟩
    · rintro ⟨a, h_first, h_second⟩
      obtain ⟨reply, h_reply, h_next⟩ := ends_ask_iff.mp h_first
      exact ⟨reply, h_reply, (ih reply).mpr ⟨a, h_next, h_second⟩⟩

/-- What a run ends with is something the dialogue can end with. -/
theorem ends_run {node : Nat → NodeCall → NodeReply} (h_node : ∀ n call, answers call (node n call))
    (d : Dialogue α) (n : Nat) : Ends answers d (d.run node n).1 := by
  induction d generalizing n with
  | done a => exact .done a
  | ask call next ih =>
    rw [run_ask]
    exact .ask (h_node n call) (ih _ (n + 1))

/-- One dialogue after another is played from where the first one has stopped. -/
theorem run_bind_eq_iff {node : Nat → NodeCall → NodeReply} {n : Nat} {d : Dialogue α}
    {f : α → Dialogue β} {b : β} {calls : List NodeCall} :
    (d >>= f).run node n = (b, calls) ↔
      ∃ a first rest, d.run node n = (a, first) ∧
        (f a).run node (n + first.length) = (b, rest) ∧ calls = first ++ rest := by
  rw [run_bind]
  constructor
  · intro h_run
    obtain ⟨h_second, rfl⟩ := Prod.mk.inj h_run
    exact ⟨_, _, _, rfl, Prod.ext h_second rfl, rfl⟩
  · rintro ⟨a, first, rest, h_first, h_second, rfl⟩
    simp only [h_first, h_second]

/-- **Against a node whose answers do not change** a dialogue ends with what a run ends with, and
with nothing else. -/
theorem ends_fixed_iff {node : NodeCall → NodeReply} {d : Dialogue α} {a : α} (n : Nat) :
    Ends (.fixed node) d a ↔ (d.run (fun _ => node) n).1 = a := by
  constructor
  · intro h_ends
    -- The node gives the same reply whatever the number of requests, so this number is free.
    induction h_ends generalizing n with
    | done a => rfl
    | ask h_reply _ ih =>
      rw [run_ask, ← h_reply]
      exact ih (n + 1)
  · rintro rfl
    have h_node : ∀ m call, Answers.fixed node call ((fun _ : Nat => node) m call) :=
      fun _ _ => rfl
    exact ends_run h_node d n

end Dialogue

namespace Query

variable {α β : Type} {answers : Answers}

/-- A query can end with a result or an error. -/
def Ends (answers : Answers) (q : Query α) (outcome : Except ApiError α) : Prop :=
  Dialogue.Ends answers (ExceptT.run q) outcome

/-- The outcome of a query and what is asked, when the first request has the given number. -/
def play (node : Nat → NodeCall → NodeReply) (n : Nat) (q : Query α) :
    Except ApiError α × List NodeCall :=
  Dialogue.run node n (ExceptT.run q)

/-- One query after another is played from where the first one has stopped. -/
theorem play_bind_eq_ok_iff {node : Nat → NodeCall → NodeReply} {n : Nat} {q : Query α}
    {f : α → Query β} {b : β} {calls : List NodeCall} :
    (q >>= f).play node n = (.ok b, calls) ↔
      ∃ a first rest, q.play node n = (.ok a, first) ∧
        (f a).play node (n + first.length) = (.ok b, rest) ∧ calls = first ++ rest := by
  unfold play
  rw [ExceptT.run_bind, Dialogue.run_bind_eq_iff]
  constructor
  · rintro ⟨outcome, first, rest, h_first, h_second, rfl⟩
    cases outcome with
    | ok a => exact ⟨a, first, rest, h_first, h_second, rfl⟩
    | error e => cases (Prod.mk.inj h_second).1
  · rintro ⟨a, first, rest, h_first, h_second, rfl⟩
    exact ⟨.ok a, first, rest, h_first, h_second, rfl⟩

/-- The outcome of a query against a node whose answers do not change. -/
def against (node : NodeCall → NodeReply) (q : Query α) : Except ApiError α :=
  (Dialogue.run (fun _ => node) 0 (ExceptT.run q)).1

theorem ends_fixed_iff {node : NodeCall → NodeReply} {q : Query α} {outcome : Except ApiError α} :
    q.Ends (.fixed node) outcome ↔ q.against node = outcome :=
  Dialogue.ends_fixed_iff 0

/-- A result against a node whose answers do not change is the only one. -/
theorem eq_of_against {node : NodeCall → NodeReply} {q : Query α} {a b : α}
    (h_against : q.against node = .ok a) (h_ends : q.Ends (.fixed node) (.ok b)) : a = b := by
  rw [ends_fixed_iff, h_against] at h_ends
  exact Except.ok.inj h_ends

theorem ends_ofExcept_iff {outcome outcome' : Except ApiError α} :
    (ofExcept outcome).Ends answers outcome' ↔ outcome' = outcome :=
  Dialogue.ends_done_iff

/-- A demand is met by a value and by nothing else. -/
theorem ends_demand_ok_iff {e : ApiError} {found : Option α} {a : α} :
    (demand e found).Ends answers (.ok a) ↔ found = some a := by
  cases found with
  | none => exact ends_ofExcept_iff.trans (by simp)
  | some a' => exact ends_ofExcept_iff.trans (by simp [eq_comm])

/-- A request ends with what is read from one reply. -/
theorem ends_ask_iff {call : NodeCall} {interpret : NodeReply → Except NodeError α}
    {otherwise : NodeError → ApiError} {outcome : Except ApiError α} :
    (ask call interpret otherwise).Ends answers outcome ↔
      ∃ reply, answers call reply ∧
        outcome = (interpret reply).mapError (.ofNode otherwise) := by
  refine Dialogue.ends_ask_iff.trans (exists_congr fun reply => and_congr_right fun _ => ?_)
  exact Dialogue.ends_done_iff

theorem ends_pure_iff {a : α} {outcome : Except ApiError α} :
    (pure a : Query α).Ends answers outcome ↔ outcome = .ok a :=
  Dialogue.ends_done_iff

/-- One query after another ends with a result if both do. -/
theorem ends_bind_ok_iff {q : Query α} {f : α → Query β} {b : β} :
    (q >>= f).Ends answers (.ok b) ↔ ∃ a, q.Ends answers (.ok a) ∧ (f a).Ends answers (.ok b) := by
  unfold Ends
  rw [ExceptT.run_bind, Dialogue.ends_bind_iff]
  constructor
  · rintro ⟨first, h_first, h_second⟩
    cases first with
    | ok a => exact ⟨a, h_first, h_second⟩
    | error e => cases Dialogue.ends_done_iff.mp h_second
  · rintro ⟨a, h_first, h_second⟩
    exact ⟨.ok a, h_first, h_second⟩

end Query

namespace Update

variable {α β : Type} {answers : Answers} {before after : Ledger}

/-- An update that starts with one ledger can end with a result or an error, and with another
ledger. -/
def Ends (answers : Answers) (u : Update α) (before : Ledger) (outcome : Except ApiError α)
    (after : Ledger) : Prop :=
  Dialogue.Ends answers (StateT.run (ExceptT.run u) before) (outcome, after)

/-- The outcome of an update, the ledger after it and what is asked, when the first request has the
given number. -/
def play (node : Nat → NodeCall → NodeReply) (n : Nat) (before : Ledger) (u : Update α) :
    (Except ApiError α × Ledger) × List NodeCall :=
  Dialogue.run node n (StateT.run (ExceptT.run u) before)

/-- What an update is played to is something it can end with. -/
theorem ends_play {node : Nat → NodeCall → NodeReply}
    (h_node : ∀ n call, answers call (node n call)) (u : Update α) (n : Nat) (before : Ledger) :
    u.Ends answers before (u.play node n before).1.1 (u.play node n before).1.2 :=
  Dialogue.ends_run h_node _ n

/-- One update after another is played from where the first one has stopped. -/
theorem play_bind_eq_ok_iff {node : Nat → NodeCall → NodeReply} {n : Nat} {u : Update α}
    {f : α → Update β} {b : β} {calls : List NodeCall} :
    (u >>= f).play node n before = ((.ok b, after), calls) ↔
      ∃ a between first rest, u.play node n before = ((.ok a, between), first) ∧
        (f a).play node (n + first.length) between = ((.ok b, after), rest) ∧
        calls = first ++ rest := by
  unfold play
  rw [ExceptT.run_bind, StateT.run_bind, Dialogue.run_bind_eq_iff]
  constructor
  · rintro ⟨⟨outcome, between⟩, first, rest, h_first, h_second, rfl⟩
    cases outcome with
    | ok a => exact ⟨a, between, first, rest, h_first, h_second, rfl⟩
    | error e => cases (Prod.mk.inj h_second).1
  · rintro ⟨a, between, first, rest, h_first, h_second, rfl⟩
    exact ⟨(.ok a, between), first, rest, h_first, h_second, rfl⟩

/-- A query that is played leaves the ledger alone. -/
theorem play_toUpdate_eq_iff {node : Nat → NodeCall → NodeReply} {n : Nat} {q : Query α}
    {outcome : Except ApiError α} {calls : List NodeCall} :
    q.toUpdate.play node n before = ((outcome, after), calls) ↔
      q.play node n = (outcome, calls) ∧ after = before := by
  show Dialogue.run node n (ExceptT.run q >>= fun o => .done (o, before)) = _ ↔ _
  rw [Dialogue.run_bind_eq_iff]
  constructor
  · rintro ⟨o, first, rest, h_query, h_done, rfl⟩
    cases h_done
    rw [List.append_nil]
    exact ⟨h_query, rfl⟩
  · rintro ⟨h_query, rfl⟩
    exact ⟨outcome, calls, [], h_query, rfl, (List.append_nil calls).symm⟩

/-- The outcome of an update, and the ledger after it, against a node whose answers do not change.
-/
def against (node : NodeCall → NodeReply) (before : Ledger) (u : Update α) :
    Except ApiError α × Ledger :=
  (Dialogue.run (fun _ => node) 0 (StateT.run (ExceptT.run u) before)).1

theorem against_eq_play (node : NodeCall → NodeReply) (before : Ledger) (u : Update α) :
    u.against node before = (u.play (fun _ => node) 0 before).1 := rfl

theorem ends_fixed_iff {node : NodeCall → NodeReply} {u : Update α}
    {outcome : Except ApiError α} :
    u.Ends (.fixed node) before outcome after ↔ u.against node before = (outcome, after) :=
  Dialogue.ends_fixed_iff 0

/-! ### Parts of updates -/

theorem ends_pure_iff {a : α} {outcome : Except ApiError α} :
    Ends answers (pure a) before outcome after ↔ outcome = .ok a ∧ after = before := by
  show Dialogue.Ends answers (.done (.ok a, before)) (outcome, after) ↔ _
  rw [Dialogue.ends_done_iff, Prod.mk.injEq]

/-- An update after another starts with the ledger of the first, which keeps what it has written
when it fails. -/
theorem ends_bind_iff {u : Update α} {f : α → Update β} {outcome : Except ApiError β} :
    Ends answers (u >>= f) before outcome after ↔
      (∃ a between, Ends answers u before (.ok a) between ∧
        Ends answers (f a) between outcome after) ∨
      ∃ e, Ends answers u before (.error e) after ∧ outcome = .error e := by
  unfold Ends
  rw [ExceptT.run_bind, StateT.run_bind, Dialogue.ends_bind_iff]
  constructor
  · rintro ⟨⟨first, between⟩, h_first, h_second⟩
    cases first with
    | ok a => exact Or.inl ⟨a, between, h_first, h_second⟩
    | error e =>
      obtain ⟨rfl, rfl⟩ := Prod.mk.inj (Dialogue.ends_done_iff.mp h_second)
      exact Or.inr ⟨e, h_first, rfl⟩
  · rintro (⟨a, between, h_first, h_second⟩ | ⟨e, h_first, rfl⟩)
    · exact ⟨(.ok a, between), h_first, h_second⟩
    · exact ⟨(.error e, after), h_first, .done _⟩

/-- A query leaves the ledger alone. -/
theorem ends_toUpdate_iff {q : Query α} {outcome : Except ApiError α} :
    Ends answers q.toUpdate before outcome after ↔ q.Ends answers outcome ∧ after = before := by
  show Dialogue.Ends answers (ExceptT.run q >>= fun o => .done (o, before)) (outcome, after) ↔ _
  rw [Dialogue.ends_bind_iff]
  constructor
  · rintro ⟨o, h_query, h_done⟩
    obtain ⟨rfl, rfl⟩ := Prod.mk.inj (Dialogue.ends_done_iff.mp h_done)
    exact ⟨h_query, rfl⟩
  · rintro ⟨h_query, rfl⟩
    exact ⟨outcome, h_query, .done _⟩

theorem ends_ledger_iff {outcome : Except ApiError Ledger} :
    Ends answers ledger before outcome after ↔ outcome = .ok before ∧ after = before := by
  show Dialogue.Ends answers (.done (.ok before, before)) (outcome, after) ↔ _
  rw [Dialogue.ends_done_iff, Prod.mk.injEq]

theorem ends_setLedger_iff {l : Ledger} {outcome : Except ApiError Unit} :
    Ends answers (setLedger l) before outcome after ↔ outcome = .ok () ∧ after = l := by
  show Dialogue.Ends answers (.done (.ok (), l)) (outcome, after) ↔ _
  rw [Dialogue.ends_done_iff, Prod.mk.injEq]

end Update

end RosettaGateway
