import RosettaGateway.Proofs.Text
import RosettaGateway.Tx.Parts

/-!
# Typed JSON is read back

What is written for a value is handed on before it is read: through a text, in which it stays what
it is, or by being taken over, which may spell numbers anew. `Json.Relays f` says what both have in
common. `Json.Codec.Yields f c a b` says that `c` reads `b` where `a` was written and `f` has handed
it on, `Json.Codec.Keeps f c a` that it reads `a` back, and `Json.Codec.Faithful c` that it does so
for all values that are taken over. The codecs of amounts, counters, addresses, byte strings, coins
and shares keep everything, and lists keep what is kept of their items.

For a record the law has to speak about a whole object, of which the record's own members are only a
part. `Json.Record.Yields f r a b` says that all members are written under names of the fields, and
that an object whose members under such names are the ones written for `a` is read as `b` — whatever
other members it has, and wherever they stand. In this form the law passes from two records to the
record of all their fields (`Record.Yields.and`). It holds as long as no name belongs to two fields,
which is looked at when the record is complete (`Record.distinct`).
-/

namespace RosettaGateway.Json

/-! ### Handing on -/

theorem shortItems_eq_map (items : List Json) : shortItems items = items.map short := by
  induction items with
  | nil => rfl
  | cons item rest ih => rw [shortItems, ih, List.map_cons]

/-- The members of an object with each value handed on. -/
def relayMembers (f : Json → Json) (members : List (String × Json)) : List (String × Json) :=
  members.map fun m => (m.1, f m.2)

theorem shortMembers_eq_relayMembers (members : List (String × Json)) :
    shortMembers members = relayMembers short members := by
  induction members with
  | nil => rfl
  | cons m rest ih => rw [shortMembers, ih, relayMembers, relayMembers, List.map_cons]

theorem short_object (members : List (String × Json)) :
    (object members).short = object (shortMembers members) := by
  rw [short]

theorem short_string (s : String) : (string s).short = string s := by
  rw [short]

theorem isMachine_ofNat {n : Nat} (h_lt : n < 0x100000000000000000000000000000000) :
    (Number.ofNat n).isMachine := by
  have h_whole : (Number.ofNat n).integer? = some (n : Int) := rfl
  rw [Number.isMachine, h_whole, Option.any_some]
  exact Numeral.fits_natCast h_lt

theorem isMachine_ofInt {i : Int} (h_low : -0x8000000000000000 ≤ i)
    (h_high : i ≤ 0x7fffffffffffffff) : (Number.ofInt i).isMachine := by
  rw [Number.isMachine, Number.integer?_ofInt, Option.any_some, Numeral.fits, Bool.and_eq_true]
  exact ⟨decide_eq_true (by omega), decide_eq_true (by omega)⟩

/-- A way in which values are handed on. Arrays and objects keep their parts, strings and booleans
stay, and so do integers of at most 128 bits. -/
structure Relays (f : Json → Json) : Prop where
  bool : ∀ b, f (.bool b) = .bool b
  string : ∀ s, f (.string s) = .string s
  number : ∀ n : Number, n.isMachine → f (.number n) = .number n
  array : ∀ items, f (.array items) = .array (items.map f)
  object : ∀ members, f (.object members) = .object (relayMembers f members)

/-- What is read from a text is what was written. -/
theorem relays_id : Relays id where
  bool _ := rfl
  string _ := rfl
  number _ _ := rfl
  array items := congrArg array (List.map_id items).symm
  object members := congrArg object (List.map_id members).symm

/-- What is taken over is what was written, but for the spelling of some numbers. -/
theorem relays_short : Relays short where
  bool b := by rw [short]
  string s := short_string s
  number n h_machine := by rw [short, Number.short_of_isMachine h_machine]
  array items := by rw [short, shortItems_eq_map]
  object members := by rw [short_object, shortMembers_eq_relayMembers]

namespace Codec

variable {α : Type} {f : Json → Json} {c : Codec α} {a : α}

/-- A value is read where another one was written and has been handed on. -/
def Yields (f : Json → Json) (c : Codec α) (a b : α) : Prop := c.read (f (c.write a)) = some b

/-- A value is read back after what is written for it has been handed on. -/
abbrev Keeps (f : Json → Json) (c : Codec α) (a : α) : Prop := c.Yields f a a

/-- What is taken over and read back can be put into another type. -/
theorem Keeps.map_ofJson {β : Type} (make : α → β) (hc : c.Keeps short a) :
    (c.ofJson (c.write a)).map make = some (make a) :=
  congrArg (Option.map make) hc

/-- Reading undoes writing. -/
def Faithful (c : Codec α) : Prop := ∀ a, c.ofJson (c.write a) = some a

/-! ### Scalars and lists -/

theorem Keeps.text (hf : Relays f) {parse : String → Option α} {print : α → String}
    (h_parse : parse (print a) = some a) : (Codec.text parse print).Keeps f a := by
  show (Codec.text parse print).read (f (.string (print a))) = some a
  rw [hf.string]
  exact h_parse

theorem keeps_string (hf : Relays f) (s : String) : Codec.string.Keeps f s := Keeps.text hf rfl

theorem keeps_bool (hf : Relays f) (b : Bool) : Codec.bool.Keeps f b := by
  show Codec.bool.read (f (.bool b)) = some b
  rw [hf.bool]
  rfl

theorem keeps_natural (hf : Relays f) {high n : Nat} (h_high : n ≤ high)
    (h_machine : (Number.ofNat n).isMachine) : (Codec.natural high).Keeps f n := by
  show (Codec.natural high).read (f (.number (.ofNat n))) = some n
  rw [hf.number _ h_machine]
  show ((Number.ofNat n).natural?).filter (fun i => decide (i ≤ high)) = some n
  rw [Number.natural?_ofNat, Option.filter_some, if_pos (decide_eq_true h_high)]

theorem keeps_int64 (hf : Relays f) {i : Int} (h_low : -0x8000000000000000 ≤ i)
    (h_high : i ≤ 0x7fffffffffffffff) : Codec.int64.Keeps f i := by
  show Codec.int64.read (f (.number (.ofInt i))) = some i
  rw [hf.number _ (isMachine_ofInt h_low h_high)]
  show ((Number.ofInt i).integer?).filter _ = some i
  rw [Number.integer?_ofInt, Option.filter_some, if_pos (decide_eq_true ⟨h_low, h_high⟩)]

/-- A list is read back if its items are. -/
theorem Keeps.list (hf : Relays f) {as : List α} (hc : ∀ a ∈ as, c.Keeps f a) :
    c.list.Keeps f as := by
  show c.list.read (f (array (as.map c.write))) = some as
  -- Items are handed on one by one, so each is read as it would be alone.
  rw [hf.array, List.map_map]
  show (as.map (f ∘ c.write)).mapM c.read = some as
  induction as with
  | nil => rfl
  | cons a rest ih =>
    have h_head : c.read (f (c.write a)) = some a := hc a List.mem_cons_self
    have h_rest := ih fun b h_mem => hc b (List.mem_cons_of_mem a h_mem)
    rw [List.map_cons, List.mapM_cons, Function.comp_apply, h_head, h_rest]
    rfl

theorem faithful_string : Codec.string.Faithful := keeps_string relays_short

/-- Lists of values that are read back are read back. -/
theorem Faithful.list (hc : c.Faithful) : c.list.Faithful := fun _ =>
  Keeps.list relays_short fun a _ => hc a

end Codec

/-! ### Records -/

namespace Record

variable {α β : Type}

/-- Whether a key names a field of the record. -/
def names (r : Record α) (key : String) : Bool := r.fields.any fun f => f.names key

/-- All names of the fields. -/
def keys (r : Record α) : List String := r.fields.flatMap fun f => f.name :: f.aliases

theorem names_iff (r : Record α) (key : String) : r.names key ↔ key ∈ r.keys := by
  simp only [names, keys, Field.names, List.any_eq_true, List.mem_flatMap, List.mem_cons,
    Bool.or_eq_true, beq_iff_eq, List.contains_iff_mem]

theorem keys_and (a : Record α) (b : Record β) : (a.and b).keys = a.keys ++ b.keys :=
  List.flatMap_append

/-- Whether no name is given twice. -/
def distinct (r : Record α) : Bool := decide r.keys.Nodup

/-- The members are written under names of the fields, and an object whose members under such names
are the written ones, handed on, is read as another value. -/
structure Yields (f : Json → Json) (r : Record α) (a b : α) : Prop where
  names_write : ∀ m ∈ r.write a, r.names m.1
  reads : r.keys.Nodup → ∀ members,
    members.filter (fun m => r.names m.1) = relayMembers f (r.write a) →
    ∃ slots, r.fields.mapM (slotOf · members) = some slots ∧ slots.length = r.fields.length ∧
      r.read slots = some b

/-- An object whose members are the written ones, handed on, is read as what was written. -/
abbrev Keeps (f : Json → Json) (r : Record α) (a : α) : Prop := r.Yields f a a

variable {f : Json → Json}

theorem relayMembers_append (xs ys : List (String × Json)) :
    relayMembers f (xs ++ ys) = relayMembers f xs ++ relayMembers f ys :=
  List.map_append

/-- Values are handed on under their keys. -/
theorem filter_relayMembers (p : String → Bool) (members : List (String × Json)) :
    (relayMembers f members).filter (fun m => p m.1) =
      relayMembers f (members.filter fun m => p m.1) := by
  rw [relayMembers, List.filter_map]
  rfl

theorem filter_eq_self_of_keys {p : String → Bool} {members : List (String × Json)}
    (h_all : ∀ m ∈ members, p m.1) :
    (relayMembers f members).filter (fun m => p m.1) = relayMembers f members := by
  rw [filter_relayMembers, List.filter_eq_self.mpr h_all]

theorem filter_eq_nil_of_keys {p : String → Bool} {members : List (String × Json)}
    (h_none : ∀ m ∈ members, p m.1 = false) :
    (relayMembers f members).filter (fun m => p m.1) = [] := by
  have h_nil : members.filter (fun m => p m.1) = [] :=
    List.filter_eq_nil_iff.mpr fun m h_mem => by simp [h_none m h_mem]
  rw [filter_relayMembers, h_nil]
  rfl

/-- The slot of a field that is given once. -/
theorem slotOf_of_filter {field : Field} {members : List (String × Json)} {m : String × Json}
    (h_filter : members.filter (fun m => field.names m.1) = [m]) :
    slotOf field members = some (some m.2) := by
  rw [slotOf, h_filter]

/-- A record of one field is read as the value that is written for it is. -/
theorem Yields.single (field : Field) {read : List (Option Json) → Option α}
    {write : α → List (String × Json)} {a b : α} {v : Json} (h_write : write a = [(field.name, v)])
    (h_read : read [some (f v)] = some b) : Yields f ⟨[field], read, write⟩ a b where
  names_write m h_mem := by
    have h_only : m ∈ [(field.name, v)] := h_write ▸ h_mem
    rw [List.mem_singleton.mp h_only]
    simp [names, Field.names]
  reads _ members h_members := by
    simp only [names, List.any_cons, List.any_nil, Bool.or_false, h_write] at h_members
    refine ⟨[some (f v)], ?_, rfl, h_read⟩
    show [field].mapM (slotOf · members) = _
    rw [List.mapM_cons, slotOf_of_filter h_members]
    rfl

/-- A record of one field, for which nothing is written, is read as what a missing field means. -/
theorem Yields.absent (field : Field) {read : List (Option Json) → Option α}
    {write : α → List (String × Json)} {a b : α} (h_write : write a = [])
    (h_read : read [none] = some b) : Yields f ⟨[field], read, write⟩ a b where
  names_write m h_mem := by
    have h_never : m ∈ [] := h_write ▸ h_mem
    cases h_never
  reads _ members h_members := by
    simp only [names, List.any_cons, List.any_nil, Bool.or_false, h_write] at h_members
    refine ⟨[none], ?_, rfl, h_read⟩
    show [field].mapM (slotOf · members) = _
    rw [List.mapM_cons, slotOf, h_members]
    rfl

section Fields

variable {name : String} {c : Codec α} {aliases : List String} {a b : α}

theorem Yields.required (hc : c.Yields f a b) : (Record.required name c aliases).Yields f a b :=
  Yields.single ⟨name, aliases, true, c.check⟩ rfl hc

theorem Yields.defaulted {default : α} (hc : c.Yields f a b) :
    (Record.defaulted name c default aliases).Yields f a b :=
  Yields.single ⟨name, aliases, false, c.check⟩ rfl hc

/-- An optional field is read as its value is, which may not be written as null. -/
theorem Yields.optional (h_null : c.read .null = none) {given : Option α} (change : α → α)
    (hc : ∀ a ∈ given, c.Yields f a (change a)) :
    (Record.optional name c aliases).Yields f given (given.map change) := by
  cases given with
  | none => exact Yields.absent ⟨name, aliases, false, c.nullable.check⟩ rfl rfl
  | some a =>
    have h_value : c.read (f (c.write a)) = some (change a) := hc a rfl
    refine Yields.single ⟨name, aliases, false, c.nullable.check⟩ rfl ?_
    show c.nullable.read (f (c.write a)) = some (some (change a))
    -- A change that made a null of the value would make it unreadable, against what is given.
    cases h_written : f (c.write a) with
    | null =>
      rw [h_written, h_null] at h_value
      cases h_value
    | _ =>
      rw [h_written] at h_value
      simp only [Codec.nullable, h_value, Option.map_some]

/-- An optional field is read back if its value is. -/
theorem Keeps.optional (h_null : c.read .null = none) {given : Option α}
    (hc : ∀ a ∈ given, c.Keeps f a) : (Record.optional name c aliases).Keeps f given := by
  have h_same : (Record.optional name c aliases).Yields f given (given.map id) :=
    Yields.optional h_null id hc
  rwa [Option.map_id, id_eq] at h_same

theorem Keeps.listed {as : List α} (hc : c.list.Keeps f as) :
    (Record.listed name c aliases).Keeps f as := by
  cases as with
  | nil => exact Yields.absent ⟨name, aliases, false, c.list.check⟩ rfl rfl
  | cons a rest => exact Yields.single ⟨name, aliases, false, c.list.check⟩ rfl hc

end Fields

/-- Two records are read together. -/
theorem Yields.and {a : Record α} {b : Record β} {p q : α × β} (ha : a.Yields f p.1 q.1)
    (hb : b.Yields f p.2 q.2) : (a.and b).Yields f p q where
  names_write m h_mem := by
    have h_names : (a.and b).names m.1 = (a.names m.1 || b.names m.1) := List.any_append
    rw [h_names, Bool.or_eq_true]
    rcases List.mem_append.mp h_mem with h_left | h_right
    · exact Or.inl (ha.names_write _ h_left)
    · exact Or.inr (hb.names_write _ h_right)
  reads h_nodup members h_members := by
    rw [keys_and, List.nodup_append] at h_nodup
    obtain ⟨h_nodup_left, h_nodup_right, h_disjoint⟩ := h_nodup
    have h_names : ∀ key, (a.and b).names key = (a.names key || b.names key) := fun _ =>
      List.any_append
    have h_apart : ∀ key, a.names key → b.names key = false := by
      intro key h_left
      refine Bool.eq_false_iff.mpr fun h_right => ?_
      exact h_disjoint key ((names_iff a key).mp h_left) key ((names_iff b key).mp h_right) rfl
    have h_split : members.filter (fun m => a.names m.1 || b.names m.1) =
        relayMembers f (a.write p.1) ++ relayMembers f (b.write p.2) := by
      rw [← relayMembers_append, ← show (a.and b).write p = a.write p.1 ++ b.write p.2 from rfl,
        ← h_members]
      simp only [h_names]
    -- The names of either record pick its own members out of those of both.
    have h_left : members.filter (fun m => a.names m.1) = relayMembers f (a.write p.1) := by
      have h_picked := congrArg (List.filter fun m => a.names m.1) h_split
      rw [List.filter_filter, List.filter_append, filter_eq_self_of_keys ha.names_write,
        filter_eq_nil_of_keys, List.append_nil] at h_picked
      · rw [← h_picked]
        congr 1
        funext m
        cases a.names m.1 <;> rfl
      · intro m h_mem
        cases h_named : a.names m.1 with
        | false => rfl
        | true => exact (hb.names_write m h_mem).symm.trans (h_apart m.1 h_named)
    have h_right : members.filter (fun m => b.names m.1) = relayMembers f (b.write p.2) := by
      have h_picked := congrArg (List.filter fun m => b.names m.1) h_split
      rw [List.filter_filter, List.filter_append, filter_eq_self_of_keys hb.names_write,
        filter_eq_nil_of_keys, List.nil_append] at h_picked
      · rw [← h_picked]
        congr 1
        funext m
        cases a.names m.1 <;> cases b.names m.1 <;> rfl
      · exact fun m h_mem => h_apart m.1 (ha.names_write m h_mem)
    obtain ⟨xs, h_xs, h_length, h_first⟩ := ha.reads h_nodup_left members h_left
    obtain ⟨ys, h_ys, h_length', h_second⟩ := hb.reads h_nodup_right members h_right
    refine ⟨xs ++ ys, ?_, ?_, ?_⟩
    · show (a.fields ++ b.fields).mapM (slotOf · members) = _
      rw [List.mapM_append, h_xs, h_ys]
      rfl
    · show _ = (a.fields ++ b.fields).length
      rw [List.length_append, List.length_append, h_length, h_length']
    · simp only [Record.and]
      rw [← h_length, List.take_left, List.drop_left, h_first, h_second]

/-- Other names for what is read make no difference, if they can be taken back. -/
theorem Yields.map {r : Record α} {make : α → β} {parts : β → α} {a b : β}
    (hr : r.Yields f (parts a) (parts b)) (h_make : make (parts b) = b) :
    (r.map make parts).Yields f a b where
  names_write := hr.names_write
  reads h_nodup members h_members := by
    obtain ⟨slots, h_slots, h_length, h_read⟩ := hr.reads h_nodup members h_members
    refine ⟨slots, h_slots, h_length, ?_⟩
    show (r.read slots).map make = _
    rw [h_read, Option.map_some, h_make]

/-- The codec of a record reads what the record does, if no name is given twice. -/
theorem Yields.codec (hf : Relays f) {r : Record α} {a b : α} (hr : r.Yields f a b)
    (h_distinct : r.distinct = true) : r.codec.Yields f a b := by
  show (slots r.fields (f (object (r.write a)))).bind r.read = some b
  obtain ⟨given, h_slots, -, h_read⟩ := hr.reads (of_decide_eq_true h_distinct)
    (relayMembers f (r.write a)) (filter_eq_self_of_keys hr.names_write)
  rw [hf.object, slots, h_slots, Option.bind_some, h_read]

end Record

end RosettaGateway.Json

/-! ### Quantities, addresses, byte strings -/

namespace RosettaGateway

/-- An amount is read back. -/
theorem Wei.ofJson?_toJson (n : Nat) : ofJson? (toJson n) = some n := Numeral.unsigned?_ofNat n

theorem Counter.ofNat?_toNat (n : UInt64) : ofNat? n.toNat = some n := by
  rw [ofNat?, if_pos n.toNat_lt, UInt64.ofNat_toNat]

/-- A counter is read back. -/
theorem Counter.ofJson?_toJson (n : UInt64) : ofJson? (toJson n) = some n := by
  rw [toJson, Json.ofNat, ofJson?, Json.Number.natural?_ofNat, Option.bind_some, ofNat?_toNat]

section Quantities

variable {f : Json → Json} (hf : Json.Relays f)
include hf

theorem Wei.keeps_json (n : Nat) : Wei.json.Keeps f n := by
  show ofJson? (f (.string (Numeral.ofNat n))) = some n
  rw [hf.string]
  exact ofJson?_toJson n

theorem Counter.keeps_json (n : UInt64) : Counter.json.Keeps f n := by
  show ofJson? (f (.number (.ofNat n.toNat))) = some n
  -- Counters are small enough to stay as they are.
  rw [hf.number _ (Json.isMachine_ofNat (Nat.lt_trans n.toNat_lt (by decide)))]
  exact ofJson?_toJson n

theorem Hash.keeps_json (h : Hash) : Hash.json.Keeps f h :=
  Json.Codec.Keeps.text hf (Hash.ofText?_toText h)

theorem Address.keeps_json (a : Address) : Address.json.Keeps f a :=
  Json.Codec.Keeps.text hf (Address.ofText?_toText a)

theorem Octets.keeps_json (bytes : Octets) : Octets.json.Keeps f bytes := by
  show Octets.json.read (f (.string (Hex.marked bytes))) = some bytes
  rw [hf.string]
  exact Hex.ofText?_marked bytes

end Quantities

/-! ### Coins and parts -/

section Parts

variable {f : Json → Json} (hf : Json.Relays f)
include hf

open Json.Record.Yields

theorem Coins.keeps_json (c : Coins) : Coins.json.Keeps f c :=
  (((defaulted (Wei.keeps_json hf _)).and (defaulted (Wei.keeps_json hf _))).map rfl).codec hf rfl

theorem Tx.Split.keeps_json (s : Split) : Split.json.Keeps f s :=
  (((required (Address.keeps_json hf _)).and
    (defaulted (Counter.keeps_json hf _))).map rfl).codec hf rfl

theorem Tx.Output.keeps_json (o : Output) : Output.json.Keeps f o :=
  (((required (Address.keeps_json hf _)).and
    (defaulted (Coins.keeps_json hf _))).map rfl).codec hf rfl

theorem Tx.Input.keeps_json (i : Input) : Input.json.Keeps f i :=
  (((required (Address.keeps_json hf _)).and <|
    (defaulted (Coins.keeps_json hf _)).and <|
    (defaulted (Counter.keeps_json hf _)).and
    (defaulted (Octets.keeps_json hf _))).map rfl).codec hf rfl

end Parts

theorem Coins.faithful_json : Coins.json.Faithful := Coins.keeps_json Json.relays_short

theorem Tx.Split.faithful_json : Tx.Split.json.Faithful := Tx.Split.keeps_json Json.relays_short

end RosettaGateway
