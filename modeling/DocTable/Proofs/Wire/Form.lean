import DocTable.Wire.Document

/-!
# Wire forms

The bytes of a document say a little more than the document: every element of an array carries a
key, which reading drops.  A *form* is a value together with those keys.  It has one layout, and a
document may have many forms.

* `Form.value` forgets the keys, `Form.bytes` lays a form out, `Form.NamesFit` says that its keys
  and names can stand in front of a NUL byte.
* `Form.ofValue` is the form that is written: the elements of an array are keyed by their index.
* `Document.layout` are the bytes of that form, for any document, whether it may be written or not.
* `Document.IsWireForm` relates bytes to the document that they are a form of.
-/

set_option autoImplicit false

namespace DocTable

namespace Wire

/-- A value with the keys that the elements of its arrays carry on the wire. -/
inductive Form where
  | scalar (s : Scalar)
  | array (items : List (String × Form))
  | document (fields : List (String × Form))

namespace Form

/-- The kind of the value. -/
def kind : Form → Kind
  | scalar s => s.kind
  | array _ => .array
  | document _ => .document

mutual

/-- The value, without the keys of array elements. -/
def value : Form → Value
  | scalar s => .scalar s
  | array items => .array ((fieldValues items).map (·.2))
  | document fields => .document (fieldValues fields)

/-- The values of named forms. -/
def fieldValues : List (String × Form) → Document
  | [] => []
  | (name, f) :: fields => (name, value f) :: fieldValues fields

end

mutual

/-- The bytes of a form. -/
def bytes : Form → Bytes
  | scalar s => scalarBytes s
  | array items => containerBytes (elementBytes items)
  | document fields => containerBytes (elementBytes fields)

/-- The bytes of the elements of a container, each with its kind and its key in front. -/
def elementBytes : List (String × Form) → Bytes
  | [] => []
  | (name, f) :: fields => headerBytes f.kind name ++ bytes f ++ elementBytes fields

end

mutual

/-- Every key and every name of a form is free of NUL bytes. -/
def NamesFit : Form → Prop
  | scalar _ => True
  | array items => FieldNamesFit items
  | document fields => FieldNamesFit fields

/-- Every key and every name of named forms is free of NUL bytes, their own included. -/
def FieldNamesFit : List (String × Form) → Prop
  | [] => True
  | (name, f) :: fields => nameFits name = true ∧ NamesFit f ∧ FieldNamesFit fields

end

mutual

/-- The form in which a value is written. -/
def ofValue : Value → Form
  | .scalar s => scalar s
  | .array items => array (ofItems 0 items)
  | .document fields => document (ofFields fields)

/-- The elements of an array from the one at `index` on, each keyed by its index. -/
def ofItems (index : Nat) : List Value → List (String × Form)
  | [] => []
  | v :: items => (natText index, ofValue v) :: ofItems (index + 1) items

/-- The fields of a document, each with its name. -/
def ofFields : List (String × Value) → List (String × Form)
  | [] => []
  | (name, v) :: fields => (name, ofValue v) :: ofFields fields

end

mutual

/-- Two forms are alike if they differ in nothing but the keys of array elements. -/
def Alike : Form → Form → Prop
  | scalar s, scalar t => s = t
  | array xs, array ys => ItemsAlike xs ys
  | document xs, document ys => FieldsAlike xs ys
  | _, _ => False

/-- The elements of two arrays are alike, whatever their keys. -/
def ItemsAlike : List (String × Form) → List (String × Form) → Prop
  | [], [] => True
  | (_, f) :: xs, (_, g) :: ys => Alike f g ∧ ItemsAlike xs ys
  | _, _ => False

/-- The fields of two documents have the same names and are alike. -/
def FieldsAlike : List (String × Form) → List (String × Form) → Prop
  | [], [] => True
  | (name, f) :: xs, (other, g) :: ys => name = other ∧ Alike f g ∧ FieldsAlike xs ys
  | _, _ => False

end

mutual

/-- The elements of every array are keyed by their index. -/
def IndexKeyed : Form → Prop
  | scalar _ => True
  | array items => ItemsIndexKeyed 0 items
  | document fields => FieldsIndexKeyed fields

/-- The elements of an array from the one at `index` on are keyed by their index. -/
def ItemsIndexKeyed (index : Nat) : List (String × Form) → Prop
  | [] => True
  | (key, f) :: items => key = natText index ∧ IndexKeyed f ∧ ItemsIndexKeyed (index + 1) items

/-- The elements of every array inside fields are keyed by their index. -/
def FieldsIndexKeyed : List (String × Form) → Prop
  | [] => True
  | (_, f) :: fields => IndexKeyed f ∧ FieldsIndexKeyed fields

end

/-- The form is one of the document, and can stand on the wire. -/
structure IsFormOf (f : Form) (doc : Document) : Prop where
  value_eq : f.value = .document doc
  namesFit : f.NamesFit

end Form

end Wire

namespace Document

/-- The layout of a document, whatever its depth and its names. -/
def layout (doc : Document) : Bytes :=
  (Wire.Form.ofValue (.document doc)).bytes

/-- The bytes are those of a form of the document: the layout of the document, save that any key
free of NUL bytes may stand in front of an element of an array. -/
def IsWireForm (bytes : Bytes) (doc : Document) : Prop :=
  ∃ form : Wire.Form, form.IsFormOf doc ∧ form.bytes = bytes

end Document

/-! ## Facts about forms -/

namespace Wire.Form

@[simp] theorem kind_value (f : Form) : f.value.kind = f.kind := by
  cases f <;> rfl

theorem depthItems_map_snd (fields : List (String × Value)) :
    Value.depthItems (fields.map (·.2)) = Value.depthFields fields := by
  induction fields with
  | nil => rfl
  | cons field fields ih =>
    simp only [List.map_cons, Value.depthItems, Value.depthFields, ih]

@[simp] theorem depth_value_array (items : List (String × Form)) :
    (array items).value.depth = Value.depthFields (fieldValues items) + 1 := by
  rw [value, Value.depth, depthItems_map_snd]

@[simp] theorem depth_value_document (fields : List (String × Form)) :
    (document fields).value.depth = Value.depthFields (fieldValues fields) + 1 := by
  rw [value, Value.depth]

@[simp] theorem kind_ofValue (v : Value) : (ofValue v).kind = v.kind := by
  cases v <;> rfl

mutual

theorem value_ofValue : ∀ v : Value, (ofValue v).value = v
  | .scalar _ => rfl
  | .array items => by rw [ofValue, value, fieldValues_ofItems 0 items]
  | .document fields => by rw [ofValue, value, fieldValues_ofFields fields]

theorem fieldValues_ofItems : ∀ (index : Nat) (items : List Value),
    (fieldValues (ofItems index items)).map (·.2) = items
  | _, [] => rfl
  | index, v :: items => by
    rw [ofItems, fieldValues, List.map_cons, value_ofValue v, fieldValues_ofItems (index + 1) items]

theorem fieldValues_ofFields : ∀ fields : List (String × Value),
    fieldValues (ofFields fields) = fields
  | [] => rfl
  | (name, v) :: fields => by
    rw [ofFields, fieldValues, value_ofValue v, fieldValues_ofFields fields]

end

mutual

theorem eq_ofValue_of_indexKeyed : ∀ f : Form, f.IndexKeyed → f = ofValue f.value
  | scalar _, _ => rfl
  | array items, h => by
    rw [value, ofValue, ← eq_ofItems_of_itemsIndexKeyed 0 items h]
  | document fields, h => by
    rw [value, ofValue, ← eq_ofFields_of_fieldsIndexKeyed fields h]

theorem eq_ofItems_of_itemsIndexKeyed : ∀ (index : Nat) (items : List (String × Form)),
    ItemsIndexKeyed index items → items = ofItems index ((fieldValues items).map (·.2))
  | _, [], _ => rfl
  | index, (key, f) :: items, h => by
    obtain ⟨rfl, hf, hitems⟩ := h
    rw [fieldValues, List.map_cons, ofItems, ← eq_ofValue_of_indexKeyed f hf,
      ← eq_ofItems_of_itemsIndexKeyed (index + 1) items hitems]

theorem eq_ofFields_of_fieldsIndexKeyed : ∀ fields : List (String × Form),
    FieldsIndexKeyed fields → fields = ofFields (fieldValues fields)
  | [], _ => rfl
  | (name, f) :: fields, h => by
    obtain ⟨hf, hfields⟩ := h
    rw [fieldValues, ofFields, ← eq_ofValue_of_indexKeyed f hf,
      ← eq_ofFields_of_fieldsIndexKeyed fields hfields]

end

mutual

/-- Forms of one value differ in nothing but the keys of array elements. -/
theorem alike_of_value_eq : ∀ f g : Form, f.value = g.value → f.Alike g
  | scalar _, scalar _, h => Value.scalar.inj h
  | array xs, array ys, h => itemsAlike_of_values_eq xs ys (Value.array.inj h)
  | document xs, document ys, h => fieldsAlike_of_values_eq xs ys (Value.document.inj h)
  | scalar _, array _, h | scalar _, document _, h | array _, scalar _, h
  | array _, document _, h | document _, scalar _, h | document _, array _, h => by
    simp only [value] at h
    cases h

theorem itemsAlike_of_values_eq : ∀ xs ys : List (String × Form),
    (fieldValues xs).map (·.2) = (fieldValues ys).map (·.2) → ItemsAlike xs ys
  | [], [], _ => trivial
  | (_, f) :: xs, (_, g) :: ys, h => by
    simp only [fieldValues, List.map_cons, List.cons.injEq] at h
    exact ⟨alike_of_value_eq f g h.1, itemsAlike_of_values_eq xs ys h.2⟩
  | [], _ :: _, h | _ :: _, [], h => by
    simp [fieldValues] at h

theorem fieldsAlike_of_values_eq : ∀ xs ys : List (String × Form),
    fieldValues xs = fieldValues ys → FieldsAlike xs ys
  | [], [], _ => trivial
  | (name, f) :: xs, (other, g) :: ys, h => by
    simp only [fieldValues, List.cons.injEq, Prod.mk.injEq] at h
    exact ⟨h.1.1, alike_of_value_eq f g h.1.2, fieldsAlike_of_values_eq xs ys h.2⟩
  | [], _ :: _, h | _ :: _, [], h => by
    simp [fieldValues] at h

end

theorem length_containerBytes (elements : Bytes) :
    (containerBytes elements).length = elements.length + minDocumentLength := by
  simp [containerBytes, minDocumentLength]
  omega

theorem length_headerBytes (kind : Kind) (name : String) :
    (headerBytes kind name).length = (Utf8.bytes name).length + 2 := by
  simp [headerBytes]

end Wire.Form

end DocTable
