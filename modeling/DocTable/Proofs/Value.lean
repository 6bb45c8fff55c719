import DocTable.Value

/-!
# Values and their parts

* `Value.induction` — what holds of a container as soon as it holds of all its members holds of
  every value.
* `Value.parts` — a value and all values inside it.
-/

set_option autoImplicit false

namespace DocTable.Value

/-! ## Induction over members -/

@[elab_as_elim]
theorem induction {motive : Value → Prop} (scalar : ∀ s, motive (scalar s))
    (array : ∀ items, (∀ v ∈ items, motive v) → motive (array items))
    (document : ∀ fields, (∀ field ∈ fields, motive field.2) → motive (document fields)) :
    ∀ v : Value, motive v
  | .scalar s => scalar s
  | .array items => array items fun v _ => induction scalar array document v
  | .document fields => document fields fun field _ => induction scalar array document field.2
termination_by v => sizeOf v
decreasing_by
  · have := List.sizeOf_lt_of_mem ‹v ∈ items›
    simp only [Value.array.sizeOf_spec]
    omega
  · have := List.sizeOf_lt_of_mem ‹field ∈ fields›
    cases field
    simp only [Value.document.sizeOf_spec, Prod.mk.sizeOf_spec] at *
    omega

/-! ## Depth -/

theorem depth_le_depthItems {v : Value} {items : List Value} (h : v ∈ items) :
    v.depth ≤ depthItems items := by
  induction items with
  | nil => cases h
  | cons w items ih =>
    rw [depthItems]
    rcases List.mem_cons.1 h with rfl | h
    · exact Nat.le_max_left _ _
    · exact Nat.le_trans (ih h) (Nat.le_max_right _ _)

theorem depth_le_depthFields {field : String × Value} {fields : List (String × Value)}
    (h : field ∈ fields) : field.2.depth ≤ depthFields fields := by
  induction fields with
  | nil => cases h
  | cons head fields ih =>
    rw [depthFields]
    rcases List.mem_cons.1 h with rfl | h
    · exact Nat.le_max_left _ _
    · exact Nat.le_trans (ih h) (Nat.le_max_right _ _)

/-! ## Parts -/

mutual

/-- A value and all values inside it. -/
def parts : Value → List Value
  | scalar s => [scalar s]
  | array items => array items :: partsOfItems items
  | document fields => document fields :: partsOfFields fields

/-- The items of an array and all values inside them. -/
def partsOfItems : List Value → List Value
  | [] => []
  | v :: items => parts v ++ partsOfItems items

/-- The values of fields and all values inside them. -/
def partsOfFields : List (String × Value) → List Value
  | [] => []
  | (_, v) :: fields => parts v ++ partsOfFields fields

end

/-- All documents in a value, itself included. -/
def documents (v : Value) : List Document :=
  v.parts.filterMap fun
    | document fields => some fields
    | _ => none

/-- All decimals in a value. -/
def decimals (v : Value) : List Decimal128 :=
  v.parts.filterMap fun
    | scalar (.decimal d) => some d
    | _ => none

theorem mem_parts_self (v : Value) : v ∈ v.parts := by
  cases v <;> exact List.mem_cons_self

theorem mem_partsOfItems {v w : Value} {items : List Value} (hv : v ∈ items) (hw : w ∈ v.parts) :
    w ∈ partsOfItems items := by
  induction items with
  | nil => cases hv
  | cons u items ih =>
    rw [partsOfItems]
    rcases List.mem_cons.1 hv with rfl | hv
    · exact List.mem_append_left _ hw
    · exact List.mem_append_right _ (ih hv)

theorem mem_partsOfFields {field : String × Value} {w : Value} {fields : List (String × Value)}
    (hfield : field ∈ fields) (hw : w ∈ field.2.parts) : w ∈ partsOfFields fields := by
  induction fields with
  | nil => cases hfield
  | cons head fields ih =>
    rw [partsOfFields]
    rcases List.mem_cons.1 hfield with rfl | hfield
    · exact List.mem_append_left _ hw
    · exact List.mem_append_right _ (ih hfield)

theorem parts_subset_of_item {v : Value} {items : List Value} (h : v ∈ items) :
    v.parts ⊆ (array items).parts :=
  fun _ hw => List.mem_cons_of_mem _ (mem_partsOfItems h hw)

theorem parts_subset_of_field {field : String × Value} {fields : List (String × Value)}
    (h : field ∈ fields) : field.2.parts ⊆ (document fields).parts :=
  fun _ hw => List.mem_cons_of_mem _ (mem_partsOfFields h hw)

theorem documents_subset {v w : Value} (h : v.parts ⊆ w.parts) : v.documents ⊆ w.documents :=
  List.filterMap_subset _ h

theorem decimals_subset {v w : Value} (h : v.parts ⊆ w.parts) : v.decimals ⊆ w.decimals :=
  List.filterMap_subset _ h

theorem mem_documents_self (fields : List (String × Value)) :
    fields ∈ (document fields).documents :=
  List.mem_filterMap.2 ⟨_, mem_parts_self _, rfl⟩

theorem mem_decimals_self (d : Decimal128) : d ∈ (scalar (.decimal d)).decimals :=
  List.mem_filterMap.2 ⟨_, mem_parts_self _, rfl⟩

end DocTable.Value
