import Mathlib.Data.List.Forall2
import RosettaGateway.Proofs.Json.Faithful

/-!
# Two names for a field

Nodes write the fields of a record under names of two kinds: in lower case, with underscores between
words, or capitalised. `capitalized` is the rule that leads from one to the other. A `Shape` says
where in a value there are records, and what their fields are called; `Shape.Renames` relates two
values of a shape that differ only in the names they use for fields, and in members that nobody
asked for.

A codec respects a shape if it reads related values in the same way (`Codec.Respects`). For a record
this is a matter of two things that have nothing to do with each other: its fields have the names of
the shape, which is a look at its list of fields, and what it makes of its slots depends on their
values only up to renaming (`Record.Respects`). The latter passes from parts to wholes.
-/

namespace RosettaGateway.Json

/-! ### Capitalised names -/

/-- A word of a capitalised name. Two sorts of words are not just given a capital letter: an
abbreviation is all capitals, and the unit of a coin is two words. -/
def capitalizedWord (word : List Char) : List Char :=
  if word = "id".toList then "ID".toList
  else if word = "ids".toList then "IDs".toList
  else if word = "thetawei".toList then "ThetaWei".toList
  else if word = "tfuelwei".toList then "TFuelWei".toList
  else
    match word with
    | [] => []
    | c :: rest => c.toUpper :: rest

/-- The capitalised name of a field: its words without the underscores between them. -/
def capitalized (name : String) : String :=
  String.ofList ((name.toList.splitOn '_').flatMap capitalizedWord)

/-! ### Shapes -/

/-- Where in a value there are records, and what their fields are called. -/
inductive Shape where
  | plain
  | list (item : Shape)
  | record (fields : List (String × Shape))

/-- The values that members have under either name of a field. -/
def given (name : String) (members : List (String × Json)) : List Json :=
  (members.filter fun m => m.1 == name || m.1 == capitalized name).map Prod.snd

/-- One value is the other one with some names of fields exchanged for their other names, and with
other members that are no fields. Every field is named once at most in each of them, and their order
does not matter. A record that is given as an array has no names, but its items may have. -/
inductive Shape.Renames : Shape → Json → Json → Prop
  | same {s : Shape} (v : Json) : Renames s v v
  | list {s : Shape} {vs vs' : List Json} (h_length : vs.length = vs'.length)
    (h_items : ∀ (i : Nat) v v', vs[i]? = some v → vs'[i]? = some v' → Renames s v v') :
    Renames (.list s) (.array vs) (.array vs')
  | items {fields : List (String × Shape)} {vs vs' : List Json} (h_length : vs.length = vs'.length)
    (h_items : ∀ (i : Nat) f v v', fields[i]? = some f → vs[i]? = some v → vs'[i]? = some v' →
      Renames f.2 v v') :
    Renames (.record fields) (.array vs) (.array vs')
  | members {fields : List (String × Shape)} {members members' : List (String × Json)}
    (h_once : ∀ f ∈ fields, (given f.1 members).length ≤ 1)
    (h_both : ∀ f ∈ fields, (given f.1 members).length = (given f.1 members').length)
    (h_given : ∀ f ∈ fields, ∀ v v', given f.1 members = [v] → given f.1 members' = [v'] →
      Renames f.2 v v') :
    Renames (.record fields) (.object members) (.object members')

/-- Lists differ only in names if their items do. -/
theorem Shape.Renames.of_forall₂ {s : Shape} {vs vs' : List Json}
    (h_items : List.Forall₂ s.Renames vs vs') :
    (Shape.list s).Renames (.array vs) (.array vs') := by
  refine .list h_items.length_eq fun i v v' h_v h_v' => ?_
  rw [List.getElem?_eq_some_iff] at h_v h_v'
  obtain ⟨h_i, rfl⟩ := h_v
  obtain ⟨h_i', rfl⟩ := h_v'
  exact h_items.get h_i h_i'

theorem given_shortMembers (name : String) (members : List (String × Json)) :
    given name (shortMembers members) = (given name members).map short := by
  induction members with
  | nil => rfl
  | cons m rest ih =>
    unfold given at ih ⊢
    rw [shortMembers, List.filter_cons, List.filter_cons]
    split
    · rw [List.map_cons, ih, List.map_cons, List.map_cons]
    · exact ih

/-- What differs only in names does so after it is taken over. -/
theorem Shape.Renames.short {s : Shape} {v v' : Json} (h_renames : s.Renames v v') :
    s.Renames v.short v'.short := by
  induction h_renames with
  | same v => exact .same _
  | list h_length _ ih =>
    rw [Json.short, Json.short, shortItems_eq_map, shortItems_eq_map]
    refine .list (by simpa using h_length) fun i w w' h_at h_at' => ?_
    rw [List.getElem?_map, Option.map_eq_some_iff] at h_at h_at'
    obtain ⟨v, h_v, rfl⟩ := h_at
    obtain ⟨v', h_v', rfl⟩ := h_at'
    exact ih i v v' h_v h_v'
  | items h_length _ ih =>
    rw [Json.short, Json.short, shortItems_eq_map, shortItems_eq_map]
    refine .items (by simpa using h_length) fun i f w w' h_field h_at h_at' => ?_
    rw [List.getElem?_map, Option.map_eq_some_iff] at h_at h_at'
    obtain ⟨v, h_v, rfl⟩ := h_at
    obtain ⟨v', h_v', rfl⟩ := h_at'
    exact ih i f v v' h_field h_v h_v'
  | members h_once h_both _ ih =>
    -- No member comes or goes, so what is given once stays so.
    rw [Json.short, Json.short]
    refine .members (fun f h_mem => ?_) (fun f h_mem => ?_) fun f h_mem w w' h_given h_given' => ?_
    · rw [given_shortMembers, List.length_map]
      exact h_once f h_mem
    · rw [given_shortMembers, given_shortMembers, List.length_map, List.length_map]
      exact h_both f h_mem
    · rw [given_shortMembers, List.map_eq_singleton_iff] at h_given h_given'
      obtain ⟨v, h_v, rfl⟩ := h_given
      obtain ⟨v', h_v', rfl⟩ := h_given'
      exact ih f h_mem v v' h_v h_v'

/-! ### Codecs -/

namespace Codec

variable {α : Type}

/-- What differs only in names is read in the same way. -/
def Respects (s : Shape) (c : Codec α) : Prop := ∀ v v', s.Renames v v' → c.read v' = c.read v

/-- Without records there is nothing to differ in. -/
theorem respects_plain {c : Codec α} : c.Respects .plain := by
  intro v v' h_renames
  cases h_renames
  rfl

theorem Respects.list {s : Shape} {c : Codec α} (hc : c.Respects s) :
    c.list.Respects (.list s) := by
  intro v v' h_renames
  cases h_renames with
  | same => rfl
  | @list _ vs vs' h_length h_items =>
    have h_map : vs'.map c.read = vs.map c.read := by
      refine List.ext_getElem (by simpa using h_length.symm) fun i h_i h_i' => ?_
      rw [List.getElem_map, List.getElem_map]
      exact hc _ _ (h_items i _ _ (List.getElem?_eq_getElem _) (List.getElem?_eq_getElem _))
    -- A list is read from what its items are read as, whatever they were.
    have h_mapM : ∀ items : List Json, items.mapM c.read = (items.map c.read).mapM id := by
      intro items
      rw [List.mapM_map]
      rfl
    show vs'.mapM c.read = vs.mapM c.read
    rw [h_mapM, h_mapM, h_map]

/-- The same holds of a value that is taken over. -/
theorem Respects.ofJson {s : Shape} {c : Codec α} (hc : c.Respects s) {v v' : Json}
    (h_renames : s.Renames v v') : c.ofJson v' = c.ofJson v :=
  hc _ _ h_renames.short

end Codec

/-! ### Slots -/

/-- Slots of fields whose values differ only in names. -/
inductive SlotsRename : List (String × Shape) → List (Option Json) → List (Option Json) → Prop
  | nil : SlotsRename [] [] []
  | absent {f : String × Shape} {fields : List (String × Shape)} {slots slots' : List (Option Json)}
    (h_rest : SlotsRename fields slots slots') :
    SlotsRename (f :: fields) (none :: slots) (none :: slots')
  | present {f : String × Shape} {fields : List (String × Shape)}
    {slots slots' : List (Option Json)} {v v' : Json} (h_renames : f.2.Renames v v')
    (h_rest : SlotsRename fields slots slots') :
    SlotsRename (f :: fields) (some v :: slots) (some v' :: slots')

namespace SlotsRename

variable {fields others : List (String × Shape)} {slots slots' : List (Option Json)}

/-- Slots of some fields and others are those of either. -/
theorem split (h_slots : SlotsRename (fields ++ others) slots slots') :
    SlotsRename fields (slots.take fields.length) (slots'.take fields.length) ∧
      SlotsRename others (slots.drop fields.length) (slots'.drop fields.length) := by
  induction fields generalizing slots slots' with
  | nil => exact ⟨.nil, h_slots⟩
  | cons f fields ih =>
    cases h_slots with
    | absent h_rest => exact ⟨.absent (ih h_rest).1, (ih h_rest).2⟩
    | present h_renames h_rest => exact ⟨.present h_renames (ih h_rest).1, (ih h_rest).2⟩

/-- Fields without a value have no slots that could differ. -/
theorem replicate (fields : List (String × Shape)) :
    SlotsRename fields (List.replicate fields.length none) (List.replicate fields.length none) := by
  induction fields with
  | nil => exact .nil
  | cons f fields ih => exact .absent ih

/-- The items of two arrays that stand for records. Trailing fields may be left out. -/
theorem of_items {vs vs' : List Json} (h_length : vs.length = vs'.length)
    (h_fit : vs.length ≤ fields.length)
    (h_items : ∀ (i : Nat) f v v', fields[i]? = some f → vs[i]? = some v → vs'[i]? = some v' →
      f.2.Renames v v') :
    SlotsRename fields (vs.map some ++ List.replicate (fields.length - vs.length) none)
      (vs'.map some ++ List.replicate (fields.length - vs'.length) none) := by
  induction fields generalizing vs vs' with
  | nil =>
    obtain rfl : vs = [] := List.eq_nil_of_length_eq_zero (Nat.le_zero.mp h_fit)
    obtain rfl : vs' = [] := List.eq_nil_of_length_eq_zero h_length.symm
    exact .nil
  | cons f fields ih =>
    -- The arrays are equally long, so they end at the same field.
    match vs, vs', h_length with
    | [], [], _ => exact replicate (f :: fields)
    | v :: vs, v' :: vs', h_length =>
      have h_rest := ih (Nat.succ.inj h_length) (Nat.le_of_succ_le_succ h_fit)
        fun i => h_items (i + 1)
      simp only [List.map_cons, List.cons_append, List.length_cons, Nat.add_sub_add_right]
      exact .present (h_items 0 f v v' rfl rfl rfl) h_rest

/-- The slots that two objects give to fields. -/
theorem of_members {members members' : List (String × Json)}
    (h_once : ∀ f ∈ fields, (given f.1 members).length ≤ 1)
    (h_both : ∀ f ∈ fields, (given f.1 members).length = (given f.1 members').length)
    (h_given : ∀ f ∈ fields, ∀ v v', given f.1 members = [v] → given f.1 members' = [v'] →
      f.2.Renames v v') :
    SlotsRename fields (fields.map fun f => (given f.1 members).head?)
      (fields.map fun f => (given f.1 members').head?) := by
  induction fields with
  | nil => exact .nil
  | cons f fields ih =>
    have h_rest := ih (fun f h_mem => h_once f (List.mem_cons_of_mem _ h_mem))
      (fun f h_mem => h_both f (List.mem_cons_of_mem _ h_mem))
      fun f h_mem => h_given f (List.mem_cons_of_mem _ h_mem)
    have h_one := h_once f List.mem_cons_self
    have h_same := h_both f List.mem_cons_self
    have h_value := h_given f List.mem_cons_self
    rw [List.map_cons, List.map_cons]
    -- A field has no value in both objects or one in both.
    match given f.1 members, given f.1 members', h_one, h_same, h_value with
    | [], [], _, _, _ => exact .absent h_rest
    | [v], [v'], _, _, h_value => exact .present (h_value v v' rfl rfl) h_rest

end SlotsRename

/-- The slot of a field that is named once at most. -/
theorem slotOf_eq_head? {f : Field} {members : List (String × Json)}
    (h_aliases : f.aliases = [capitalized f.name]) (h_once : (given f.name members).length ≤ 1) :
    slotOf f members = some (given f.name members).head? := by
  have h_filter : members.filter (fun m => f.names m.1) =
      members.filter fun m => m.1 == f.name || m.1 == capitalized f.name := by
    simp only [Field.names, h_aliases, List.contains_cons, List.contains_nil, Bool.or_false]
  unfold given at h_once ⊢
  rw [slotOf, h_filter]
  generalize members.filter (fun m => m.1 == f.name || m.1 == capitalized f.name) = named
    at h_once ⊢
  cases named with
  | nil => rfl
  | cons m rest =>
    cases rest with
    | nil => rfl
    | cons m' rest => exact absurd h_once (by simp)

/-- The slots of fields that have the names of a shape and are each named once at most. -/
theorem mapM_slotOf {fs : List Field} {fields : List (String × Shape)}
    {members : List (String × Json)}
    (h_names : (fs.map fun f => (f.name, f.aliases)) = fields.map fun f => (f.1, [capitalized f.1]))
    (h_once : ∀ f ∈ fields, (given f.1 members).length ≤ 1) :
    fs.mapM (slotOf · members) = some (fields.map fun f => (given f.1 members).head?) := by
  induction fs generalizing fields with
  | nil =>
    obtain rfl : fields = [] := List.map_eq_nil_iff.mp h_names.symm
    rfl
  | cons f fs ih =>
    match fields, h_names, h_once with
    | field :: fields, h_names, h_once =>
      rw [List.map_cons, List.map_cons, List.cons.injEq, Prod.mk.injEq] at h_names
      obtain ⟨⟨h_name, h_aliases⟩, h_rest⟩ := h_names
      have h_first := h_once field List.mem_cons_self
      -- The field goes by the name that the shape has for it.
      rw [← h_name] at h_aliases h_first
      rw [List.mapM_cons, slotOf_eq_head? h_aliases h_first,
        ih h_rest fun f h_mem => h_once f (List.mem_cons_of_mem _ h_mem), h_name]
      rfl

/-! ### Records -/

namespace Record

variable {α β : Type}

/-- What a record makes of its slots does not depend on names inside of their values. -/
def Respects (fields : List (String × Shape)) (r : Record α) : Prop :=
  r.fields.length = fields.length ∧
    ∀ slots slots', SlotsRename fields slots slots' → r.read slots' = r.read slots

theorem Respects.required {s : Shape} {c : Codec α} {name : String} {aliases : List String}
    (hc : c.Respects s) : (Record.required name c aliases).Respects [(name, s)] := by
  refine ⟨rfl, fun slots slots' h_slots => ?_⟩
  cases h_slots with
  | absent h_rest =>
    cases h_rest
    rfl
  | present h_renames h_rest =>
    cases h_rest
    exact hc _ _ h_renames

theorem Respects.defaulted {s : Shape} {c : Codec α} {name : String} {default : α}
    {aliases : List String} (hc : c.Respects s) :
    (Record.defaulted name c default aliases).Respects [(name, s)] := by
  refine ⟨rfl, fun slots slots' h_slots => ?_⟩
  cases h_slots with
  | absent h_rest =>
    cases h_rest
    rfl
  | present h_renames h_rest =>
    cases h_rest
    exact hc _ _ h_renames

theorem Respects.and {fields others : List (String × Shape)} {a : Record α} {b : Record β}
    (ha : a.Respects fields) (hb : b.Respects others) : (a.and b).Respects (fields ++ others) := by
  refine ⟨?_, fun slots slots' h_slots => ?_⟩
  · show (a.fields ++ b.fields).length = _
    rw [List.length_append, List.length_append, ha.1, hb.1]
  · obtain ⟨h_first, h_second⟩ := h_slots.split
    simp only [Record.and, ha.1, ha.2 _ _ h_first, hb.2 _ _ h_second]

theorem Respects.map {fields : List (String × Shape)} {r : Record α} {make : α → β}
    {parts : β → α} (hr : r.Respects fields) : (r.map make parts).Respects fields := by
  refine ⟨hr.1, fun slots slots' h_slots => ?_⟩
  show (r.read slots').map make = (r.read slots).map make
  rw [hr.2 slots slots' h_slots]

/-- **A record under either of its names** is read in the same way, if its fields have the names of
the shape and the capitalised names for them. -/
theorem Respects.codec {fields : List (String × Shape)} {r : Record α} (hr : r.Respects fields)
    (h_names : (r.fields.map fun f => (f.name, f.aliases)) =
      fields.map fun f => (f.1, [capitalized f.1])) :
    r.codec.Respects (.record fields) := by
  intro v v' h_renames
  show (slots r.fields v').bind r.read = (slots r.fields v).bind r.read
  cases h_renames with
  | same => rfl
  | @items _ vs vs' h_length h_items =>
    -- Both arrays have too many items for the record, or neither has.
    rw [slots, slots, hr.1, ← h_length]
    split
    · next h_fit =>
      have h_slots := SlotsRename.of_items h_length h_fit h_items
      rw [← h_length] at h_slots
      exact hr.2 _ _ h_slots
    · rfl
  | @members _ members members' h_once h_both h_given =>
    have h_once' : ∀ f ∈ fields, (given f.1 members').length ≤ 1 := fun f h_mem =>
      h_both f h_mem ▸ h_once f h_mem
    rw [slots, slots, mapM_slotOf h_names h_once, mapM_slotOf h_names h_once']
    exact hr.2 _ _ (.of_members h_once h_both h_given)

end Record

end RosettaGateway.Json
