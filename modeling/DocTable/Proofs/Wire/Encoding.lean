import DocTable.Proofs.Text.Integer
import DocTable.Proofs.Wire.Element

/-!
# What is written, and when

* `encode_eq_ok_iff` — a document is written exactly when it nests no deeper than `maxDepth` and no
  field name at any level holds a NUL byte, and what is written is then its layout.
* `namesFit_ofValue` — the keys that are made up for the elements of arrays never stand in the way.

The writer counts the depth from the outside; `valueBytes_eq_ok` carries the levels already spent.
-/

set_option autoImplicit false

namespace DocTable

namespace Value

mutual

/-- The names of all fields of a value, at every level. -/
def fieldNames : Value → List String
  | scalar _ => []
  | array items => fieldNamesOfItems items
  | document fields => fieldNamesOfFields fields

/-- The names of all fields of the items of an array, at every level. -/
def fieldNamesOfItems : List Value → List String
  | [] => []
  | v :: items => fieldNames v ++ fieldNamesOfItems items

/-- The names of fields and of all fields below them. -/
def fieldNamesOfFields : List (String × Value) → List String
  | [] => []
  | (name, v) :: fields => name :: (fieldNames v ++ fieldNamesOfFields fields)

end

end Value

namespace Wire

theorem nameFits_natText (n : Nat) : nameFits (natText n) = true := by
  have hascii := decimalDigits_ascii n
  rw [nameFits_iff, Utf8.bytes, natText, String.toList_ofList,
    Utf8.encode_ascii fun c hc => (hascii c hc).2, List.mem_map]
  rintro ⟨c, hc, h0⟩
  have := congrArg UInt8.toNat h0
  rw [UInt8.toNat_ofNat', Nat.mod_eq_of_lt (Nat.lt_trans (hascii c hc).2 (by decide))] at this
  exact absurd this (Nat.ne_of_gt (hascii c hc).1)

/-- Every name of a list can stand in front of a NUL byte. -/
def AllFit (names : List String) : Prop :=
  ∀ name ∈ names, nameFits name = true

theorem allFit_nil : AllFit [] := fun _ h => by cases h

theorem allFit_append {xs ys : List String} : AllFit (xs ++ ys) ↔ AllFit xs ∧ AllFit ys := by
  simp [AllFit, or_imp, forall_and]

theorem allFit_cons {name : String} {names : List String} :
    AllFit (name :: names) ↔ nameFits name = true ∧ AllFit names := by
  simp [AllFit]

mutual

theorem namesFit_ofValue : ∀ v : Value, (Form.ofValue v).NamesFit ↔ AllFit v.fieldNames
  | .scalar _ => by simp [Form.ofValue, Form.NamesFit, Value.fieldNames, AllFit]
  | .array items => by
    rw [Form.ofValue, Form.NamesFit, Value.fieldNames, fieldNamesFit_ofItems 0 items]
  | .document fields => by
    rw [Form.ofValue, Form.NamesFit, Value.fieldNames, fieldNamesFit_ofFields fields]

theorem fieldNamesFit_ofItems : ∀ (index : Nat) (items : List Value),
    Form.FieldNamesFit (Form.ofItems index items) ↔ AllFit (Value.fieldNamesOfItems items)
  | _, [] => by simp [Form.ofItems, Form.FieldNamesFit, Value.fieldNamesOfItems, AllFit]
  | index, v :: items => by
    rw [Form.ofItems, Form.FieldNamesFit, Value.fieldNamesOfItems, allFit_append,
      namesFit_ofValue v, fieldNamesFit_ofItems (index + 1) items]
    exact and_iff_right (nameFits_natText index)

theorem fieldNamesFit_ofFields : ∀ fields : List (String × Value),
    Form.FieldNamesFit (Form.ofFields fields) ↔ AllFit (Value.fieldNamesOfFields fields)
  | [] => by simp [Form.ofFields, Form.FieldNamesFit, Value.fieldNamesOfFields, AllFit]
  | (name, v) :: fields => by
    rw [Form.ofFields, Form.FieldNamesFit, Value.fieldNamesOfFields, allFit_cons, allFit_append,
      namesFit_ofValue v, fieldNamesFit_ofFields fields]

end

/-- A container at depth `depth` is written if it may be and its elements are. -/
theorem container_eq_ok {depth : Nat} {elements : Except Error Bytes} {bytes : Bytes} :
    (if maxDepth ≤ depth then .error (.malformed none .tooDeep)
      else do
        let es ← elements
        .ok (containerBytes es)) = Except.ok bytes ↔
      depth < maxDepth ∧ ∃ es, elements = .ok es ∧ bytes = containerBytes es := by
  split
  · rename_i h
    constructor
    · intro h'
      cases h'
    · rintro ⟨h', -⟩
      omega
  · rename_i h
    rw [Steps.bind_eq_ok]
    constructor
    · rintro ⟨es, hes, h'⟩
      cases h'
      exact ⟨by omega, es, hes, rfl⟩
    · rintro ⟨-, es, hes, rfl⟩
      exact ⟨es, hes, rfl⟩

mutual

/-- A value inside `depth` containers is written if and only if it nests no deeper than is left and
its names can be written; its bytes are then those of its form. -/
theorem valueBytes_eq_ok : ∀ (v : Value) {depth : Nat} (_ : depth ≤ maxDepth) {bytes : Bytes},
    valueBytes depth v = .ok bytes ↔
      depth + v.depth ≤ maxDepth ∧ AllFit v.fieldNames ∧ bytes = (Form.ofValue v).bytes
  | .scalar s, depth, hd, bytes => by
    rw [valueBytes, Value.depth, Value.fieldNames, Form.ofValue, Form.bytes]
    constructor
    · intro h
      cases h
      exact ⟨hd, allFit_nil, rfl⟩
    · rintro ⟨-, -, rfl⟩
      rfl
  | .array items, depth, hd, bytes => by
    rw [valueBytes, container_eq_ok, Value.depth, Value.fieldNames, Form.ofValue, Form.bytes]
    constructor
    · rintro ⟨hlt, es, hes, rfl⟩
      obtain ⟨hdepth, hfit, rfl⟩ := (itemsBytes_eq_ok items 0 hlt).1 hes
      exact ⟨by omega, hfit, rfl⟩
    · rintro ⟨hdepth, hfit, rfl⟩
      exact ⟨by omega, _, (itemsBytes_eq_ok items 0 (by omega)).2 ⟨by omega, hfit, rfl⟩, rfl⟩
  | .document fields, depth, hd, bytes => by
    rw [valueBytes, container_eq_ok, Value.depth, Value.fieldNames, Form.ofValue, Form.bytes]
    constructor
    · rintro ⟨hlt, es, hes, rfl⟩
      obtain ⟨hdepth, hfit, rfl⟩ := (fieldsBytes_eq_ok fields hlt).1 hes
      exact ⟨by omega, hfit, rfl⟩
    · rintro ⟨hdepth, hfit, rfl⟩
      exact ⟨by omega, _, (fieldsBytes_eq_ok fields (by omega)).2 ⟨by omega, hfit, rfl⟩, rfl⟩

theorem itemsBytes_eq_ok : ∀ (items : List Value) (index : Nat) {depth : Nat}
    (_ : depth ≤ maxDepth) {bytes : Bytes},
    itemsBytes depth index items = .ok bytes ↔
      depth + Value.depthItems items ≤ maxDepth ∧ AllFit (Value.fieldNamesOfItems items) ∧
        bytes = Form.elementBytes (Form.ofItems index items)
  | [], index, depth, hd, bytes => by
    rw [itemsBytes, Value.depthItems, Value.fieldNamesOfItems, Form.ofItems, Form.elementBytes]
    constructor
    · intro h
      cases h
      exact ⟨hd, allFit_nil, rfl⟩
    · rintro ⟨-, -, rfl⟩
      rfl
  | v :: items, index, depth, hd, bytes => by
    rw [itemsBytes, Value.depthItems, Value.fieldNamesOfItems, allFit_append, Form.ofItems,
      Form.elementBytes, Form.kind_ofValue]
    constructor
    · intro h
      obtain ⟨bs, hbs, h⟩ := Steps.bind_eq_ok.1 h
      obtain ⟨rest, hrest, h⟩ := Steps.bind_eq_ok.1 h
      cases h
      obtain ⟨hdepth, hfit, rfl⟩ := (valueBytes_eq_ok v hd).1 hbs
      obtain ⟨hdepths, hfits, rfl⟩ := (itemsBytes_eq_ok items (index + 1) hd).1 hrest
      exact ⟨by omega, ⟨hfit, hfits⟩, rfl⟩
    · rintro ⟨hdepth, ⟨hfit, hfits⟩, rfl⟩
      rw [(valueBytes_eq_ok v hd).2 ⟨by omega, hfit, rfl⟩, Steps.ok_bind,
        (itemsBytes_eq_ok items (index + 1) hd).2 ⟨by omega, hfits, rfl⟩, Steps.ok_bind]

theorem fieldsBytes_eq_ok : ∀ (fields : List (String × Value)) {depth : Nat}
    (_ : depth ≤ maxDepth) {bytes : Bytes},
    fieldsBytes depth fields = .ok bytes ↔
      depth + Value.depthFields fields ≤ maxDepth ∧ AllFit (Value.fieldNamesOfFields fields) ∧
        bytes = Form.elementBytes (Form.ofFields fields)
  | [], depth, hd, bytes => by
    rw [fieldsBytes, Value.depthFields, Value.fieldNamesOfFields, Form.ofFields, Form.elementBytes]
    constructor
    · intro h
      cases h
      exact ⟨hd, allFit_nil, rfl⟩
    · rintro ⟨-, -, rfl⟩
      rfl
  | (name, v) :: fields, depth, hd, bytes => by
    rw [fieldsBytes, Value.depthFields, Value.fieldNamesOfFields, allFit_cons, allFit_append,
      Form.ofFields, Form.elementBytes, Form.kind_ofValue]
    constructor
    · intro h
      split at h
      · rename_i hname
        obtain ⟨bs, hbs, h⟩ := Steps.bind_eq_ok.1 h
        obtain ⟨rest, hrest, h⟩ := Steps.bind_eq_ok.1 h
        cases h
        obtain ⟨hdepth, hfit, rfl⟩ := (valueBytes_eq_ok v hd).1 hbs
        obtain ⟨hdepths, hfits, rfl⟩ := (fieldsBytes_eq_ok fields hd).1 hrest
        exact ⟨by omega, ⟨hname, hfit, hfits⟩, rfl⟩
      · cases h
    · rintro ⟨hdepth, ⟨hname, hfit, hfits⟩, rfl⟩
      rw [if_pos hname, (valueBytes_eq_ok v hd).2 ⟨by omega, hfit, rfl⟩, Steps.ok_bind,
        (fieldsBytes_eq_ok fields hd).2 ⟨by omega, hfits, rfl⟩, Steps.ok_bind]

end

end Wire

namespace Document

open Wire

/-- **Which documents are written, and as what.** -/
theorem encode_eq_ok_iff {doc : Document} {bytes : Bytes} :
    encode doc = .ok bytes ↔
      doc.depth ≤ maxDepth ∧ AllFit (Value.document doc).fieldNames ∧ bytes = doc.layout := by
  rw [encode, valueBytes_eq_ok (.document doc) (Nat.zero_le _), Nat.zero_add]
  rfl

end Document

end DocTable
