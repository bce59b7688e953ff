import Mathlib.Data.List.Nodup
import PlcGateway.Json5.Basic

/-!
# Fields of a record in JSON5

`HasField` says where a field of a record stands, without reading it: beside its name in an object,
or at the place of its name in an array. What is read as the fields of a record holds each field
that stands there (`lookup_of_fields?`), so a field is given its own value and no other.
-/

namespace PlcGateway.Json5

/-- A record has a field: it is given by its name, or in an array by its place among the names. -/
inductive HasField (names : List String) (name : String) (field : Json5) : Json5 → Prop where
  | named {members : List (Option String × Json5)} (given : (some name, field) ∈ members) :
      HasField names name field (.object members)
  | placed {items : List Json5} {place : Nat} (listed : names[place]? = some name)
      (given : items[place]? = some field) : HasField names name field (.array items)

variable {names : List String} {name : String} {field value : Json5}

theorem lookup_of_mem {fields : Fields} (distinct : (fields.map (·.1)).Nodup)
    (h : (name, field) ∈ fields) : fields.lookup name = some field := by
  induction fields with
  | nil => cases h
  | cons first fields ih =>
    obtain ⟨other, value⟩ := first
    rw [List.map_cons, List.nodup_cons] at distinct
    rcases List.mem_cons.1 h with heq | hmem
    · obtain ⟨rfl, rfl⟩ := Prod.mk.inj heq
      exact List.lookup_cons_self
    · have hne : name ≠ other := by
        rintro rfl
        exact distinct.1 (List.mem_map.2 ⟨_, hmem, rfl⟩)
      rw [List.lookup_cons, beq_false_of_ne hne]
      exact ih distinct.2 hmem

theorem mem_of_named? {members : List (Option String × Json5)} {fields : Fields}
    (h : named? members = some fields) (given : (some name, field) ∈ members) :
    (name, field) ∈ fields := by
  induction members generalizing fields with
  | nil => cases given
  | cons first members ih =>
    obtain ⟨other, value⟩ := first
    obtain ⟨other, rfl, h⟩ := Option.bind_eq_some_iff.1 h
    obtain ⟨rest, hrest, h⟩ := Option.bind_eq_some_iff.1 h
    obtain rfl := Option.some.inj h
    rcases List.mem_cons.1 given with heq | hmem
    · obtain ⟨hname, rfl⟩ := Prod.mk.inj heq
      obtain rfl := Option.some.inj hname
      exact List.mem_cons_self
    · exact List.mem_cons_of_mem _ (ih hrest hmem)

theorem map_fst_zip_sublist (names : List String) (items : List Json5) :
    ((names.zip items).map (·.1)).Sublist names := by
  induction names generalizing items with
  | nil => exact List.Sublist.slnil
  | cons name names ih =>
    cases items with
    | nil => exact List.nil_sublist _
    | cons item items => exact (ih items).cons_cons name

/-- What is read as the fields of a record has every field of the record. -/
theorem HasField.lookup_of_fields? {fields : Fields} (has : HasField names name field value)
    (distinct : names.Nodup) (known : name ∈ names) (h : value.fields? names = some fields) :
    fields.lookup name = some field := by
  cases has with
  | @named members given =>
    obtain ⟨all, hall, h⟩ := Option.bind_eq_some_iff.1 h
    simp only at h
    split at h
    · next hvalid =>
      obtain rfl := Option.some.inj h
      rw [Bool.and_eq_true, Fields.distinct, decide_eq_true_eq] at hvalid
      apply lookup_of_mem hvalid.1
      rw [List.mem_filter]
      exact ⟨mem_of_named? hall given, List.contains_iff_mem.2 known⟩
    · cases h
  | @placed items place listed given =>
    obtain rfl : names.zip items = fields := Option.some.inj h
    apply lookup_of_mem
    · exact (map_fst_zip_sublist names items).nodup distinct
    · exact List.mem_of_getElem? (List.getElem?_zip_eq_some.2 ⟨listed, given⟩)

/-- A field that stands there is read, and its default is not asked for. -/
theorem getD_of_lookup {α : Type} {fields : Fields} (h : fields.lookup name = some field)
    (read : Json5 → Option α) (default : α) : fields.getD name read default = read field := by
  rw [Fields.getD, h]

theorem get?_of_lookup {α : Type} {fields : Fields} (h : fields.lookup name = some field)
    (read : Json5 → Option α) : fields.get? name read = read field := by
  rw [Fields.get?, h, Option.bind_some]

/-- Every item of a list is read, in its place. -/
theorem exists_of_list? {α : Type} {read : Json5 → Option α} {items : List Json5}
    {values : List α} (h : (array items).list? read = some values) {place : Nat} {item : Json5}
    (entry : items[place]? = some item) :
    ∃ v, values[place]? = some v ∧ read item = some v := by
  have hmapM : items.mapM read = some values := h
  clear h
  induction items generalizing values place with
  | nil => simp at entry
  | cons first items ih =>
    rw [List.mapM_cons] at hmapM
    obtain ⟨v, hv, hmapM⟩ := Option.bind_eq_some_iff.1 hmapM
    obtain ⟨rest, hrest, hmapM⟩ := Option.bind_eq_some_iff.1 hmapM
    obtain rfl := Option.some.inj hmapM
    cases place with
    | zero =>
      obtain rfl := Option.some.inj entry
      exact ⟨v, rfl, hv⟩
    | succ place =>
      rw [List.getElem?_cons_succ] at entry ⊢
      exact ih entry hrest

end PlcGateway.Json5
