import RosettaGateway.Operation.OfTx
import RosettaGateway.Proofs.Json.Checking
import RosettaGateway.Stake.Pool
import RosettaGateway.Tx.Wire

/-!
# JSON forms are read back

Transactions, stake returns, balance changes, stakes and operations are written as JSON and read
again: a body of a transaction is taken over from a value, and a ledger keeps the texts of returns.
`JsonForms.read_back` says that all of these come back as they were.

Only operations carry values that are free, in their own metadata and in those of their account.
With these the two ways of reading differ. A value that is taken over may get another spelling for
its numbers, so an operation comes back with its free values spelled anew (`Operation.mapFree`), and
as it was exactly if they keep their spelling. A text has them as they are, but is refused exactly
when they are nested too deep. `JsonForms.not_read_back` has an example for each.

The laws are put together field by field as the codecs are, once for reading (`keeps_json`,
`yields_json`) and, for what is read from texts, once for the checks (`accepts_json`).
-/

namespace RosettaGateway

open Json (Relays)

/-! ### Metadata -/

namespace Metadata

/-- All values of the metadata have a property. -/
def All (p : Json → Prop) (m : Metadata) : Prop := ∀ e ∈ m.entries, p e.2

/-- Entries with new keys are set behind those that are there. -/
theorem entries_foldl_insert (members : List (String × Json)) (m : Metadata)
    (h_nodup : ((m.entries ++ members).map Prod.fst).Nodup) :
    (members.foldl (fun m e => m.insert e.1 e.2) m).entries = m.entries ++ members := by
  induction members generalizing m with
  | nil => exact (List.append_nil _).symm
  | cons e rest ih =>
    -- The keys are all different, so the next one is not there yet.
    have h_new : e.1 ∉ m.entries.map Prod.fst := by
      rw [List.map_append, List.map_cons, List.nodup_append] at h_nodup
      exact fun h_mem => h_nodup.2.2 e.1 h_mem e.1 List.mem_cons_self rfl
    have h_insert : (m.insert e.1 e.2).entries = m.entries ++ [e] :=
      Json.setMember_of_not_mem h_new
    rw [List.append_cons, ← h_insert] at h_nodup
    rw [List.foldl_cons, ih _ h_nodup, h_insert, ← List.append_cons]

theorem eq_of_entries {m n : Metadata} (h_entries : m.entries = n.entries) : m = n := by
  cases m
  exact (mk.injEq ..).mpr h_entries

/-- Metadata are the list of their entries. -/
theorem ofList_entries (m : Metadata) : ofList m.entries = m :=
  eq_of_entries (entries_foldl_insert m.entries empty m.nodup)

/-- The metadata with another value for each value. -/
def mapValues (f : Json → Json) (m : Metadata) : Metadata where
  entries := Json.relayMembers f m.entries
  nodup := by
    have h_keys : (Json.relayMembers f m.entries).map Prod.fst = m.entries.map Prod.fst :=
      List.map_map
    exact h_keys ▸ m.nodup

theorem mapValues_eq_self_iff {f : Json → Json} {m : Metadata} :
    m.mapValues f = m ↔ m.All fun v => f v = v := by
  refine ⟨fun h_same e h_mem => ?_, fun h_free => eq_of_entries ?_⟩
  · have h_entries : m.entries.map (fun e => (e.1, f e.2)) = m.entries.map id := by
      rw [List.map_id]
      exact congrArg entries h_same
    -- Lists of pairs are the same pair by pair, and a pair has the same key in both.
    exact congrArg Prod.snd (List.map_inj_left.mp h_entries e h_mem)
  · calc m.entries.map (fun e => (e.1, f e.2))
      _ = m.entries.map id := List.map_congr_left fun e h_mem => Prod.ext rfl (h_free e h_mem)
      _ = m.entries := List.map_id _

theorem yields_json {f : Json → Json} (hf : Relays f) (m : Metadata) :
    json.Yields f m (m.mapValues f) := by
  show json.read (f (.object m.entries)) = some (m.mapValues f)
  rw [hf.object]
  exact congrArg some (ofList_entries (m.mapValues f))

theorem accepts_json {depth : Nat} {m : Metadata} (h_free : m.All fun v => v.fits depth) :
    json.Accepts (depth + 1) m where
  fits := Json.fits_object m.nodup h_free
  check := by
    have h_value := Document.value?_ofJson _ (Json.fits_object m.nodup h_free)
    show Json.checkFree (depth + 1) (.ofJson (.object m.entries)) = none
    rw [Json.checkFree, h_value]

/-- Metadata in which no fault is found have values that fit. -/
theorem fits_of_check {depth : Nat} {m : Metadata} (h_formed : m.All Json.WellFormed)
    (h_check : json.nullable.check (depth + 1) (.ofJson (json.write m)) = none) :
    m.All fun v => v.fits depth := by
  have h_free : Json.checkFree (depth + 1) (.object (Document.ofMembers m.entries)) = none :=
    h_check
  rw [Json.checkFree] at h_free
  split at h_free
  · next v h_value =>
    obtain ⟨vs, h_members, -⟩ := Option.map_eq_some_iff.mp h_value
    exact Json.fitsMembers_iff.mp (Document.fits_of_memberValues? m.entries h_formed h_members)
  · cases h_free

end Metadata

/-! ### Operations whose numbers have their sizes -/

/-- The decimals are a number of 32 bits. -/
def Currency.InRange (c : Currency) : Prop := c.decimals < UInt32.size

namespace Operation

/-- A number of an operation has 64 bits, one of them for the sign. -/
def IsIndex (i : Int) : Prop := -0x8000000000000000 ≤ i ∧ i ≤ 0x7fffffffffffffff

/-- The numbers of an operation have the sizes in which they are held. -/
structure InRange (op : Operation) : Prop where
  index : IsIndex op.index
  related : ∀ i ∈ op.related, IsIndex i
  currency : ∀ a ∈ op.amount, a.currency.InRange

/-- The free values of an operation have a property, which may be another one for those that stand
in the account. -/
structure Free (own account : Json → Prop) (op : Operation) : Prop where
  own : ∀ m ∈ op.metadata, m.All own
  account : ∀ a ∈ op.account, ∀ m ∈ a.metadata, m.All account

end Operation

/-! ### Free values -/

theorem Option.map_eq_self_iff {α : Type} {change : α → α} {given : Option α} :
    given.map change = given ↔ ∀ a ∈ given, change a = a := by
  cases given <;> simp

/-- The account with another value for each free value. -/
def AccountIdentifier.mapFree (f : Json → Json) (a : AccountIdentifier) : AccountIdentifier :=
  { a with metadata := a.metadata.map (Metadata.mapValues f) }

theorem AccountIdentifier.mapFree_eq_self_iff {f : Json → Json} {a : AccountIdentifier} :
    a.mapFree f = a ↔ ∀ m ∈ a.metadata, m.All fun v => f v = v := by
  cases a
  simp only [mapFree, mk.injEq, true_and, Option.map_eq_self_iff, Metadata.mapValues_eq_self_iff]

/-- The operation with another value for each free value. -/
def Operation.mapFree (f : Json → Json) (op : Operation) : Operation :=
  { op with
    account := op.account.map (AccountIdentifier.mapFree f)
    metadata := op.metadata.map (Metadata.mapValues f) }

/-- An operation is the same with other values only if its free values are. -/
theorem Operation.mapFree_eq_self_iff {f : Json → Json} {op : Operation} :
    op.mapFree f = op ↔ op.Free (fun v => f v = v) fun v => f v = v := by
  have h_parts : op.mapFree f = op ↔
      (∀ a ∈ op.account, a.mapFree f = a) ∧ ∀ m ∈ op.metadata, m.mapValues f = m := by
    cases op
    simp only [mapFree, mk.injEq, true_and, Option.map_eq_self_iff]
  simp only [h_parts, AccountIdentifier.mapFree_eq_self_iff, Metadata.mapValues_eq_self_iff]
  exact ⟨fun h_same => ⟨h_same.2, h_same.1⟩, fun h_free => ⟨h_free.account, h_free.own⟩⟩

/-! ### Reading -/

section Keeping

variable {f : Json → Json} (hf : Relays f)
include hf

open Json.Record.Yields
open Json.Record.Keeps (listed)
open Json.Codec (keeps_string keeps_bool)
open Json.Codec.Keeps (list)

namespace Tx

theorem keeps_purposeJson (n : UInt8) : purposeJson.Keeps f n := by
  have h_le : n.toNat ≤ 255 := Nat.le_of_lt_succ n.toNat_lt
  have h_small : n.toNat < 0x100000000000000000000000000000000 :=
    Nat.lt_trans n.toNat_lt (by decide)
  have h_read : (Json.Codec.natural 255).Keeps f n.toNat :=
    Json.Codec.keeps_natural hf h_le (Json.isMachine_ofNat h_small)
  show ((Json.Codec.natural 255).read (f (.ofNat n.toNat))).map UInt8.ofNat = some n
  rw [show (Json.Codec.natural 255).read (f (.ofNat n.toNat)) = some n.toNat from h_read,
    Option.map_some, UInt8.ofNat_toNat]

theorem Coinbase.keeps_json (tx : Coinbase) : Coinbase.json.Keeps f tx :=
  (((required (Input.keeps_json hf _)).and <|
    (defaulted (list hf fun o _ => Output.keeps_json hf o)).and
    (defaulted (Counter.keeps_json hf _))).map rfl).codec hf rfl

theorem Slash.keeps_json (tx : Slash) : Slash.json.Keeps f tx :=
  (((required (Input.keeps_json hf _)).and <|
    (defaulted (Address.keeps_json hf _)).and <|
    (defaulted (Counter.keeps_json hf _)).and
    (defaulted (Octets.keeps_json hf _))).map rfl).codec hf rfl

theorem Send.keeps_json (tx : Send) : Send.json.Keeps f tx :=
  (((defaulted (Coins.keeps_json hf _)).and <|
    (defaulted (list hf fun i _ => Input.keeps_json hf i)).and
    (defaulted (list hf fun o _ => Output.keeps_json hf o))).map rfl).codec hf rfl

theorem ReserveFund.keeps_json (tx : ReserveFund) : ReserveFund.json.Keeps f tx :=
  (((defaulted (Coins.keeps_json hf _)).and <|
    (required (Input.keeps_json hf _)).and <|
    (defaulted (list hf fun s _ => keeps_string hf s)).and <|
    (defaulted (Coins.keeps_json hf _)).and
    (defaulted (Counter.keeps_json hf _))).map rfl).codec hf rfl

theorem ReleaseFund.keeps_json (tx : ReleaseFund) : ReleaseFund.json.Keeps f tx :=
  (((defaulted (Coins.keeps_json hf _)).and <|
    (required (Input.keeps_json hf _)).and
    (defaulted (Counter.keeps_json hf _))).map rfl).codec hf rfl

theorem ServicePayment.keeps_json (tx : ServicePayment) : ServicePayment.json.Keeps f tx :=
  (((defaulted (Coins.keeps_json hf _)).and <|
    (required (Input.keeps_json hf _)).and <|
    (required (Input.keeps_json hf _)).and <|
    (defaulted (Counter.keeps_json hf _)).and <|
    (defaulted (Counter.keeps_json hf _)).and
    (defaulted (keeps_string hf _))).map rfl).codec hf rfl

theorem SplitRule.keeps_json (tx : SplitRule) : SplitRule.json.Keeps f tx :=
  (((defaulted (Coins.keeps_json hf _)).and <|
    (defaulted (keeps_string hf _)).and <|
    (required (Input.keeps_json hf _)).and <|
    (defaulted (list hf fun s _ => Split.keeps_json hf s)).and
    (defaulted (Counter.keeps_json hf _))).map rfl).codec hf rfl

theorem SmartContract.keeps_json (tx : SmartContract) : SmartContract.json.Keeps f tx :=
  (((required (Input.keeps_json hf _)).and <|
    (required (Output.keeps_json hf _)).and <|
    (defaulted (Counter.keeps_json hf _)).and <|
    (defaulted (Wei.keeps_json hf _)).and
    (defaulted (Octets.keeps_json hf _))).map rfl).codec hf rfl

theorem DepositStake.keeps_json (tx : DepositStake) : DepositStake.json.Keeps f tx :=
  (((defaulted (Coins.keeps_json hf _)).and <|
    (required (Input.keeps_json hf _)).and <|
    (required (Output.keeps_json hf _)).and
    (defaulted (keeps_purposeJson hf _))).map rfl).codec hf rfl

theorem DepositStakeV2.keeps_json (tx : DepositStakeV2) : DepositStakeV2.json.Keeps f tx :=
  (((defaulted (Coins.keeps_json hf _)).and <|
    (required (Input.keeps_json hf _)).and <|
    (required (Output.keeps_json hf _)).and <|
    (defaulted (keeps_purposeJson hf _)).and <|
    (defaulted (Octets.keeps_json hf _)).and <|
    (defaulted (Octets.keeps_json hf _)).and
    (defaulted (Octets.keeps_json hf _))).map rfl).codec hf rfl

theorem WithdrawStake.keeps_json (tx : WithdrawStake) : WithdrawStake.json.Keeps f tx :=
  (((defaulted (Coins.keeps_json hf _)).and <|
    (required (Input.keeps_json hf _)).and <|
    (required (Output.keeps_json hf _)).and
    (defaulted (keeps_purposeJson hf _))).map rfl).codec hf rfl

theorem StakeRewardDistribution.keeps_json (tx : StakeRewardDistribution) :
    StakeRewardDistribution.json.Keeps f tx :=
  (((defaulted (Coins.keeps_json hf _)).and <|
    (required (Input.keeps_json hf _)).and <|
    (required (Output.keeps_json hf _)).and
    (defaulted (Counter.keeps_json hf _))).map rfl).codec hf rfl

end Tx

theorem StakeReturn.keeps_json (r : StakeReturn) : StakeReturn.json.Keeps f r :=
  (((required (Hash.keeps_json hf _)).and
    (required (Tx.WithdrawStake.keeps_json hf _))).map rfl).codec hf rfl

theorem BalanceChange.keeps_json (c : BalanceChange) : BalanceChange.json.Keeps f c :=
  (((required (Address.keeps_json hf _)).and <|
    (defaulted (Counter.keeps_json hf _)).and <|
    (defaulted (keeps_bool hf _)).and
    (defaulted (Wei.keeps_json hf _))).map rfl).codec hf rfl

theorem Stake.keeps_json (s : Stake) : Stake.json.Keeps f s :=
  (((required (Address.keeps_json hf _)).and <|
    (defaulted (Wei.keeps_json hf _)).and <|
    (defaulted (keeps_bool hf _)).and
    (defaulted (Counter.keeps_json hf _))).map rfl).codec hf rfl

/-! ### Operations -/

theorem Currency.keeps_json {c : Currency} (h_range : c.InRange) : Currency.json.Keeps f c := by
  have h_le : c.decimals ≤ UInt32.size - 1 := Nat.le_sub_one_of_lt h_range
  have h_small : c.decimals < 0x100000000000000000000000000000000 :=
    Nat.lt_trans h_range (by decide)
  exact (((required (keeps_string hf _)).and
    (required (Json.Codec.keeps_natural hf h_le
      (Json.isMachine_ofNat h_small)))).map rfl).codec hf rfl

theorem Amount.keeps_json {a : Amount} (h_range : a.currency.InRange) : Amount.json.Keeps f a :=
  (((required (keeps_string hf _)).and
    (required (Currency.keeps_json hf h_range))).map rfl).codec hf rfl

theorem AccountIdentifier.yields_json (a : AccountIdentifier) :
    AccountIdentifier.json.Yields f a (a.mapFree f) :=
  Json.Record.Yields.codec hf (.map (.and (required (keeps_string hf _)) <|
    .and (Json.Record.Keeps.optional rfl fun _ _ => (required (keeps_string hf _)).codec hf rfl) <|
    optional rfl (Metadata.mapValues f) fun m _ => m.yields_json hf) rfl) rfl

theorem Operation.keeps_identifierJson {i : Int} (h_range : IsIndex i) :
    identifierJson.Keeps f i :=
  (required (Json.Codec.keeps_int64 hf h_range.1 h_range.2)).codec hf rfl

/-- An operation comes back with its free values as they have been handed on. -/
theorem Operation.yields_json {op : Operation} (h_range : op.InRange) :
    Operation.json.Yields f op (op.mapFree f) :=
  Json.Record.Yields.codec hf (.map (.and (required (keeps_identifierJson hf h_range.index)) <|
    .and (listed (list hf fun i h_mem => keeps_identifierJson hf (h_range.related i h_mem))) <|
    .and (required (keeps_string hf _)) <|
    .and (Json.Record.Keeps.optional rfl fun _ _ => keeps_string hf _) <|
    .and (optional rfl (AccountIdentifier.mapFree f) fun a _ => a.yields_json hf) <|
    .and (Json.Record.Keeps.optional rfl fun a h_mem => a.keeps_json hf (h_range.currency a h_mem)) <|
    optional rfl (Metadata.mapValues f) fun m _ => m.yields_json hf) rfl) rfl

end Keeping

/-! ### Checking -/

section Accepting

variable {depth : Nat}

open Json.Record.Accepts
open Json.Codec (accepts_string accepts_bool)
open Json.Codec.Accepts (list)

theorem Wei.accepts_json (n : Nat) : Wei.json.Accepts depth n :=
  Json.Codec.Accepts.interpreted rfl (Wei.ofJson?_toJson n)

theorem Counter.accepts_json (n : UInt64) : Counter.json.Accepts depth n :=
  Json.Codec.Accepts.interpreted rfl (Counter.ofJson?_toJson n)

theorem Hash.accepts_json (h : Hash) : Hash.json.Accepts depth h :=
  Json.Codec.Accepts.text (Hash.ofText?_toText h)

theorem Address.accepts_json (a : Address) : Address.json.Accepts depth a :=
  Json.Codec.Accepts.text (Address.ofText?_toText a)

theorem Octets.accepts_json (bytes : Octets) : Octets.json.Accepts depth bytes where
  fits := rfl
  check := by
    have h_text : (Json.Codec.text Hex.ofText? Hex.marked).Accepts depth bytes :=
      Json.Codec.Accepts.text (Hex.ofText?_marked bytes)
    exact h_text.check

theorem Coins.accepts_json (c : Coins) : Coins.json.Accepts (depth + 1) c :=
  ((defaulted (Wei.accepts_json _)).and (defaulted (Wei.accepts_json _))).map.codec rfl

namespace Tx

theorem Output.accepts_json (o : Output) : Output.json.Accepts (depth + 2) o :=
  ((required (Address.accepts_json _)).and (defaulted (Coins.accepts_json _))).map.codec rfl

theorem Input.accepts_json (i : Input) : Input.json.Accepts (depth + 2) i :=
  ((required (Address.accepts_json _)).and <|
    (defaulted (Coins.accepts_json _)).and <|
    (defaulted (Counter.accepts_json _)).and
    (defaulted (Octets.accepts_json _))).map.codec rfl

theorem accepts_purposeJson (n : UInt8) : purposeJson.Accepts depth n := by
  have h_le : n.toNat ≤ 255 := Nat.le_of_lt_succ n.toNat_lt
  have h_natural : (Json.Codec.natural 255).Accepts depth n.toNat :=
    Json.Codec.accepts_natural h_le (Nat.lt_trans n.toNat_lt (by decide))
  exact ⟨h_natural.fits, h_natural.check⟩

theorem WithdrawStake.accepts_json (tx : WithdrawStake) :
    WithdrawStake.json.Accepts (depth + 3) tx :=
  ((defaulted (Coins.accepts_json _)).and <|
    (required (Input.accepts_json _)).and <|
    (required (Output.accepts_json _)).and
    (defaulted (accepts_purposeJson _))).map.codec rfl

end Tx

theorem StakeReturn.accepts_json (r : StakeReturn) : StakeReturn.json.Accepts (depth + 4) r :=
  ((required (Hash.accepts_json _)).and
    (required (Tx.WithdrawStake.accepts_json _))).map.codec rfl

theorem BalanceChange.accepts_json (c : BalanceChange) :
    BalanceChange.json.Accepts (depth + 1) c :=
  ((required (Address.accepts_json _)).and <|
    (defaulted (Counter.accepts_json _)).and <|
    (defaulted (accepts_bool _)).and
    (defaulted (Wei.accepts_json _))).map.codec rfl

theorem Stake.accepts_json (s : Stake) : Stake.json.Accepts (depth + 1) s :=
  ((required (Address.accepts_json _)).and <|
    (defaulted (Wei.accepts_json _)).and <|
    (defaulted (accepts_bool _)).and
    (defaulted (Counter.accepts_json _))).map.codec rfl

/-! ### Operations in texts -/

theorem Currency.accepts_json {c : Currency} (h_range : c.InRange) :
    Currency.json.Accepts (depth + 1) c := by
  have h_le : c.decimals ≤ UInt32.size - 1 := Nat.le_sub_one_of_lt h_range
  have h_small : c.decimals < UInt64.size := Nat.lt_trans h_range (by decide)
  exact ((required (accepts_string _)).and
    (required (Json.Codec.accepts_natural h_le h_small))).map.codec rfl

theorem Amount.accepts_json {a : Amount} (h_range : a.currency.InRange) :
    Amount.json.Accepts (depth + 2) a :=
  ((required (accepts_string _)).and (required (Currency.accepts_json h_range))).map.codec rfl

theorem AccountIdentifier.accepts_json {a : AccountIdentifier}
    (h_free : ∀ m ∈ a.metadata, m.All fun v => v.fits depth) :
    AccountIdentifier.json.Accepts (depth + 2) a :=
  ((required (accepts_string _)).and <|
    (Json.Record.Accepts.optional fun _ _ => (required (accepts_string _)).codec rfl).and
    (optional fun m h_mem => m.accepts_json (h_free m h_mem))).map.codec rfl

theorem Operation.accepts_identifierJson {i : Int} (h_range : IsIndex i) :
    identifierJson.Accepts (depth + 1) i :=
  (required (Json.Codec.accepts_int64 h_range.1 h_range.2)).codec rfl

theorem Operation.accepts_json {op : Operation} (h_range : op.InRange)
    (h_free : op.Free (fun v => v.fits (depth + 1)) fun v => v.fits depth) :
    Operation.json.Accepts (depth + 3) op :=
  ((required (accepts_identifierJson h_range.index)).and <|
    (listed (list fun i h_mem => accepts_identifierJson (h_range.related i h_mem))).and <|
    (required (accepts_string _)).and <|
    (optional fun _ _ => accepts_string _).and <|
    (optional fun a h_mem => a.accepts_json (h_free.account a h_mem)).and <|
    (optional fun a h_mem => a.accepts_json (h_range.currency a h_mem)).and
    (optional fun m h_mem => m.accepts_json (h_free.own m h_mem))).map.codec rfl

/-- Accounts in which no fault is found have free values that fit. -/
theorem AccountIdentifier.fits_of_check {a : AccountIdentifier}
    (h_formed : ∀ m ∈ a.metadata, m.All Json.WellFormed)
    (h_check : json.nullable.check (depth + 2) (.ofJson (json.write a)) = none) :
    ∀ m ∈ a.metadata, m.All fun v => v.fits depth := by
  intro m h_given
  -- An account is never written as null, so its own check decides.
  have h_account : json.check (depth + 2) (.ofJson (json.write a)) = none := h_check
  obtain ⟨address, subAccount, metadata⟩ := a
  obtain rfl : metadata = some m := h_given
  have h_metadata := Json.Record.check_of_codec h_account (m := ("metadata", Metadata.json.write m))
    (List.mem_append_right _ (List.mem_append_right _ (List.mem_singleton_self _))) rfl
  exact m.fits_of_check (h_formed m rfl) h_metadata

/-- Operations in which no fault is found have free values that fit. -/
theorem Operation.free_of_check {op : Operation}
    (h_formed : op.Free Json.WellFormed Json.WellFormed)
    (h_check : json.check (depth + 3) (.ofJson (json.write op)) = none) :
    op.Free (fun v => v.fits (depth + 1)) fun v => v.fits depth where
  own m h_given := by
    -- The metadata are the last member that is written.
    obtain ⟨index, related, type, status, account, amount, metadata⟩ := op
    obtain rfl : metadata = some m := h_given
    have h_metadata := Json.Record.check_of_codec h_check
      (m := ("metadata", Metadata.json.write m))
      (List.mem_append_right _ <| List.mem_append_right _ <| List.mem_append_right _ <|
        List.mem_append_right _ <| List.mem_append_right _ <| List.mem_append_right _ <|
        List.mem_singleton_self _) rfl
    exact m.fits_of_check (h_formed.own m rfl) h_metadata
  account a h_given := by
    -- The account is the fifth member.
    obtain ⟨index, related, type, status, account, amount, metadata⟩ := op
    obtain rfl : account = some a := h_given
    have h_account := Json.Record.check_of_codec h_check
      (m := ("account", AccountIdentifier.json.write a))
      (List.mem_append_right _ <| List.mem_append_right _ <| List.mem_append_right _ <|
        List.mem_append_right _ <| List.mem_append_left _ <| List.mem_singleton_self _) rfl
    exact a.fits_of_check (h_formed.account a rfl) h_account

end Accepting

/-! ### Forms -/

/-- The body of a transaction is read back. -/
theorem Tx.ofJson?_toJson (tx : Tx) : Tx.ofJson? tx.kind tx.toJson = some tx := by
  have hf := Json.relays_short
  cases tx with
  | coinbase body => exact (body.keeps_json hf).map_ofJson Tx.coinbase
  | slash body => exact (body.keeps_json hf).map_ofJson Tx.slash
  | send body => exact (body.keeps_json hf).map_ofJson Tx.send
  | reserveFund body => exact (body.keeps_json hf).map_ofJson Tx.reserveFund
  | releaseFund body => exact (body.keeps_json hf).map_ofJson Tx.releaseFund
  | servicePayment body => exact (body.keeps_json hf).map_ofJson Tx.servicePayment
  | splitRule body => exact (body.keeps_json hf).map_ofJson Tx.splitRule
  | smartContract body => exact (body.keeps_json hf).map_ofJson Tx.smartContract
  | depositStake body => exact (body.keeps_json hf).map_ofJson Tx.depositStake
  | withdrawStake body => exact (body.keeps_json hf).map_ofJson Tx.withdrawStake
  | depositStakeV2 body => exact (body.keeps_json hf).map_ofJson Tx.depositStakeV2
  | stakeRewardDistribution body => exact (body.keeps_json hf).map_ofJson Tx.stakeRewardDistribution

namespace JsonForms

/-- A value comes back when what is written for it is taken over, and when its text is read. -/
def ReadBack {α : Type} (c : Json.Codec α) (a : α) : Prop :=
  c.ofJson (c.write a) = some a ∧ c.ofText (c.toText a) = .ok a

theorem readBack_of_keeps {α : Type} {c : Json.Codec α} {a : α}
    (h_keeps : ∀ {f}, Relays f → c.Keeps f a) (h_accepts : c.Accepts Document.maxDepth a) :
    ReadBack c a :=
  ⟨h_keeps Json.relays_short, Json.Codec.ofText_toText (h_keeps Json.relays_id) h_accepts⟩

/-- An operation comes back with its free values as they are spelled when they are taken over. -/
theorem ofJson_operation {op : Operation} (h_range : op.InRange) :
    Operation.json.ofJson (Operation.json.write op) = some (op.mapFree Json.short) :=
  op.yields_json Json.relays_short h_range

/-- The text of an operation is read exactly if the free values fit into it, and then as the
operation. -/
theorem ofText_operation {op other : Operation} (h_range : op.InRange)
    (h_formed : op.Free Json.WellFormed Json.WellFormed) :
    Operation.json.ofText (Operation.json.toText op) = .ok other ↔
      op.Free (fun v => v.fits 125) (fun v => v.fits 124) ∧ other = op := by
  -- In a text free values stay as they are.
  have h_same : op.mapFree id = op := by
    have h_all : ∀ m : Metadata, m.All fun v => id v = v := fun _ _ _ => rfl
    exact Operation.mapFree_eq_self_iff.mpr ⟨fun m _ => h_all m, fun _ _ m _ => h_all m⟩
  have h_keeps : Operation.json.Keeps id op := by
    have h_yields := op.yields_json Json.relays_id h_range
    rwa [h_same] at h_yields
  have h_text (h_free : op.Free (fun v => v.fits 125) fun v => v.fits 124) :
      Operation.json.ofText (Operation.json.toText op) = .ok op :=
    Json.Codec.ofText_toText h_keeps (Operation.accepts_json h_range h_free)
  constructor
  · intro h_read
    -- What has been read has passed the checks, and these look at all free values.
    have h_free := Operation.free_of_check h_formed (Json.Codec.check_of_ofText_toText h_read)
    exact ⟨h_free, Except.ok.inj (h_read.symm.trans (h_text h_free))⟩
  · rintro ⟨h_free, rfl⟩
    exact h_text h_free

/-- **JSON forms are read back.** The body of any transaction gives the transaction back, read with
its kind. Stake returns, lists of them, balance changes and stakes come back when they are taken
over and from their texts. An operation that is taken over comes back with its free values spelled
as they are then, hence as it was exactly if they keep their spelling; its text is read exactly if
these values are not nested too deep for it, and then as the operation. -/
theorem read_back :
    (∀ tx : Tx, Tx.ofJson tx.kind tx.toJson = .ok tx) ∧
    (∀ r : StakeReturn, ReadBack StakeReturn.json r) ∧
    (∀ returns : List StakeReturn, ReadBack StakeReturn.json.list returns) ∧
    (∀ c : BalanceChange, ReadBack BalanceChange.json c) ∧
    (∀ s : Stake, ReadBack Stake.json s) ∧
    ∀ op : Operation, op.InRange → op.Free Json.WellFormed Json.WellFormed →
      Operation.json.ofJson (Operation.json.write op) = some (op.mapFree Json.short) ∧
      (Operation.json.ofJson (Operation.json.write op) = some op ↔
        op.Free (fun v => v.short = v) (fun v => v.short = v)) ∧
      ∀ other, Operation.json.ofText (Operation.json.toText op) = .ok other ↔
        op.Free (fun v => v.fits 125) (fun v => v.fits 124) ∧ other = op := by
  refine ⟨fun tx => ?_, fun r => ?_, fun returns => ?_, fun c => ?_, fun s => ?_,
    fun op h_range h_formed => ⟨ofJson_operation h_range, ?_, fun other =>
      ofText_operation h_range h_formed⟩⟩
  · rw [Tx.ofJson, Tx.ofJson?_toJson]
  · exact readBack_of_keeps (fun hf => r.keeps_json hf) r.accepts_json
  · exact readBack_of_keeps (fun hf => Json.Codec.Keeps.list hf fun r _ => r.keeps_json hf)
      (Json.Codec.Accepts.list fun r _ => r.accepts_json)
  · exact readBack_of_keeps (fun hf => c.keeps_json hf) c.accepts_json
  · exact readBack_of_keeps (fun hf => s.keeps_json hf) s.accepts_json
  · rw [ofJson_operation h_range, Option.some_inj, Operation.mapFree_eq_self_iff]

/-! ### Operations with a note -/

/-- An operation with a free value in its metadata and one in those of its account. -/
def noted (own account : Json) : Operation where
  index := 1
  related := [0]
  type := "SendTxInput"
  account := some ⟨"0x0000000000000000000000000000000000000000", none,
    some (.insert .empty "tag" account)⟩
  amount := some (.ofInt (-5) .tfuel)
  metadata := some (.insert .empty "note" own)

theorem inRange_noted (own account : Json) : (noted own account).InRange where
  index := by
    show Operation.IsIndex 1
    exact ⟨by decide, by decide⟩
  related i h_mem := by
    rw [List.mem_singleton.mp h_mem]
    exact ⟨by decide, by decide⟩
  currency a h_mem := by
    obtain rfl := Option.some.inj h_mem
    show Denom.decimals < UInt32.size
    decide

theorem free_noted {own account : Json} {p q : Json → Prop} (h_own : p own)
    (h_account : q account) : (noted own account).Free p q where
  own m h_mem := by
    obtain rfl := Option.some.inj h_mem
    intro e h_entry
    rw [List.mem_singleton.mp h_entry]
    exact h_own
  account a h_mem m h_mem' := by
    obtain rfl := Option.some.inj h_mem
    obtain rfl := Option.some.inj h_mem'
    intro e h_entry
    rw [List.mem_singleton.mp h_entry]
    exact h_account

/-- The note of an operation, if it is a number, as it is spelled. -/
def noteText (op : Operation) : Option String :=
  match op.metadata.bind fun m => m.get? "note" with
  | some (.number n) => some n.text
  | _ => none

/-- A note of several sorts of values. -/
def note : Json := .array [.ofInt (-7), .string "a \"b\"", .object [("c", .null)]]

/-- An operation with notes comes back in both ways. -/
theorem read_back_noted :
    Operation.json.ofJson (Operation.json.write (noted note (.bool true))) =
        some (noted note (.bool true)) ∧
      Operation.json.ofText (Operation.json.toText (noted note (.bool true))) =
        .ok (noted note (.bool true)) := by
  obtain ⟨-, -, -, -, -, h_operations⟩ := read_back
  obtain ⟨-, h_value, h_text⟩ := h_operations (noted note (.bool true)) (inRange_noted _ _)
    (free_noted ⟨2, rfl⟩ ⟨0, rfl⟩)
  exact ⟨h_value.mpr (free_noted rfl rfl), (h_text _).mpr ⟨free_noted rfl rfl, rfl⟩⟩

/-- An operation whose note, a number of forty digits, is spelled anew when it is taken over. -/
def lengthy : Operation := noted (.ofNat (Nat.pow 10 39)) .null

theorem noteText_lengthy : noteText lengthy ≠ some "1e+39" := by decide

/-- An array in an array, and so on. -/
def nested : Nat → Json
  | 0 => .null
  | depth + 1 => .array [nested depth]

theorem fits_nested (depth : Nat) : (nested depth).fits depth := by
  induction depth with
  | zero => rfl
  | succ depth ih => rw [nested, Json.fits, Json.fitsItems, ih, Json.fitsItems, Bool.and_self]

/-- An operation whose note is nested too deep for a text. -/
def deep : Operation := noted (nested 126) .null

/-- The note of the one operation is spelled anew, and the text of the other is refused. -/
theorem respelled_and_refused :
    (Operation.json.ofJson (Operation.json.write lengthy)).bind noteText = some "1e+39" ∧
      Operation.json.check Document.maxDepth (.ofJson (Operation.json.write deep)) =
        some .malformed := by
  decide +kernel

/-- **Operations need not come back**, neither when they are taken over nor from their texts. -/
theorem not_read_back :
    (lengthy.InRange ∧ lengthy.Free Json.WellFormed Json.WellFormed ∧
      Operation.json.ofJson (Operation.json.write lengthy) ≠ some lengthy) ∧
    deep.InRange ∧ deep.Free Json.WellFormed Json.WellFormed ∧
      Operation.json.ofText (Operation.json.toText deep) ≠ .ok deep := by
  obtain ⟨h_respelled, h_refused⟩ := respelled_and_refused
  refine ⟨⟨inRange_noted _ _, free_noted ⟨0, rfl⟩ ⟨0, rfl⟩, fun h_same => ?_⟩,
    inRange_noted _ _, free_noted ⟨126, fits_nested 126⟩ ⟨0, rfl⟩, fun h_same => ?_⟩
  · refine noteText_lengthy (Eq.trans ?_ h_respelled)
    exact (congrArg (Option.bind · noteText) h_same).symm
  · rw [Json.Codec.ofText_toText_of_fault h_refused] at h_same
    cases h_same

end JsonForms

end RosettaGateway
