import RosettaGateway.Proofs.Wire

/-!
# Steps of a construction

Each step of a construction is a chain of parts that may refuse, and it succeeds when all of them
do. `Outcome.bind_eq_ok_iff` takes such a chain apart at its first part, in both directions.

Between the steps a transaction travels as plain hex of its wire form. `Construction.txOf_plain`
says that it arrives, `Construction.txOf_eq_ok_iff` what else may be sent in its place: the wire
form in any spelling of hex.
-/

namespace RosettaGateway

/-! ### Outcomes -/

namespace Outcome

variable {ε ε' α β : Type}

/-- A chain of parts succeeds when its first part does and the others do with the result. -/
theorem bind_eq_ok_iff {first : Except ε α} {next : α → Except ε β} {b : β} :
    (first >>= next) = .ok b ↔ ∃ a, first = .ok a ∧ next a = .ok b := by
  cases first with
  | error e => simp [bind, Except.bind]
  | ok a => simp [bind, Except.bind]

/-- What a refusal is called has no influence on success. -/
theorem mapError_eq_ok_iff {outcome : Except ε α} {f : ε → ε'} {a : α} :
    outcome.mapError f = .ok a ↔ outcome = .ok a := by
  cases outcome with
  | error e => simp [Except.mapError]
  | ok a' => simp [Except.mapError]

/-- What is made of the result has no influence on success either. -/
theorem map_eq_ok_iff {outcome : Except ε α} {f : α → β} {b : β} :
    outcome.map f = .ok b ↔ ∃ a, outcome = .ok a ∧ f a = b := by
  cases outcome with
  | error e => simp [Except.map]
  | ok a => simp [Except.map]

/-- A chain of parts refuses when its first part does, or when the others do with its result. -/
theorem bind_eq_error_iff {first : Except ε α} {next : α → Except ε β} {e : ε} :
    (first >>= next) = .error e ↔ first = .error e ∨ ∃ a, first = .ok a ∧ next a = .error e := by
  cases first with
  | error e' => simp [bind, Except.bind]
  | ok a => simp [bind, Except.bind]

theorem map_eq_error_iff {outcome : Except ε α} {f : α → β} {e : ε} :
    outcome.map f = .error e ↔ outcome = .error e := by
  cases outcome with
  | error e' => simp [Except.map]
  | ok a => simp [Except.map]

/-- A part that never refuses succeeds with its own result. -/
theorem pure_eq_ok_iff {a b : α} : (pure a : Except ε α) = .ok b ↔ b = a := by
  simp [pure, Except.pure, eq_comm]

theorem eq_ok_of_toOption {outcome : Except ε α} {a : α} (h_some : outcome.toOption = some a) :
    outcome = .ok a := by
  cases outcome with
  | error e => cases h_some
  | ok a' => exact congrArg Except.ok (Option.some.inj h_some)

end Outcome

/-! ### Transactions in hex -/

namespace Construction

theorem bytesOf_eq_ok_iff {s : String} {bytes : Octets} :
    bytesOf s = .ok bytes ↔ Hex.ofText? s = some bytes := by
  unfold bytesOf
  cases Hex.ofText? s with
  | none => simp
  | some bytes' => simp

/-- A transaction is read from any spelling of its wire form in hex. -/
theorem txOf_eq_ok_iff {s : String} {tx : Tx} :
    txOf s = .ok tx ↔ ∃ bytes, Hex.ofText? s = some bytes ∧ Tx.ofBytes bytes = .ok tx := by
  rw [txOf, Outcome.bind_eq_ok_iff]
  refine exists_congr fun bytes => and_congr bytesOf_eq_ok_iff ?_
  cases Tx.ofBytes bytes with
  | error e => simp
  | ok tx' => simp

/-- **A transaction that travels as plain hex arrives.** -/
theorem txOf_plain (tx : Tx) (h_fits : tx.toBytes.length < 2 ^ 64) :
    txOf (Hex.plain tx.toBytes) = .ok tx := by
  have h_read := Tx.ofBytes_toBytes_append tx [] h_fits
  rw [List.append_nil, if_pos rfl] at h_read
  exact txOf_eq_ok_iff.mpr ⟨_, Hex.ofText?_plain _, h_read⟩

/-- Plain hex has two digits for each byte. -/
theorem length_plain (bytes : Octets) : (Hex.plain bytes).length = 2 * bytes.length := by
  rw [Hex.plain, String.length_ofList, Hex.length_digits]

theorem requireConstructible_eq_ok_iff {k : Tx.Kind} {u : Unit} :
    requireConstructible k = .ok u ↔ k = .send ∨ k = .smartContract := by
  unfold requireConstructible
  split
  · next h_kind => exact ⟨fun _ => h_kind, fun _ => rfl⟩
  · next h_kind => exact ⟨nofun, fun h_or => absurd h_or h_kind⟩

end Construction

end RosettaGateway
