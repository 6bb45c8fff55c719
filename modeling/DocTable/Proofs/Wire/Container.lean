import DocTable.Proofs.Wire.Element

/-!
# Containers on the wire

The fields of a container are read from the bytes of a form and from nothing else, at any offset
and whatever stands behind the container.

* `fieldsAt_containerBytes` — the bytes of named forms that nest no deeper than `levels` are read
  as the values of those forms.
* `form_of_fieldsAt` — a container that is read with `levels` starts with the bytes of named forms
  whose values are the fields, and nests no deeper.

Both are inductions on the levels: a container inside is read with one level less, and the walk over
its elements is settled by `Wire.elementsAt` in either direction.
-/

set_option autoImplicit false

namespace DocTable.Wire

/-- The reader of the containers inside a container that is read with `levels`. -/
def innerAt : (levels : Nat) → Nat → Bytes → Except Error Document
  | 0 => fun offset _ => .error (.malformed (some offset) .tooDeep)
  | levels + 1 => fieldsAt levels

theorem fieldsAt_eq (levels offset : Nat) (bytes : Bytes) :
    fieldsAt levels offset bytes =
      elementsAt offset bytes >>= fun es => es.mapM (Element.field (innerAt levels)) := by
  cases levels <;> rfl

/-! ## From forms to fields -/

/-- The container of named forms is read with `levels` as their values. -/
def ReadsForms (levels : Nat) : Prop :=
  ∀ fields : List (String × Form), Form.FieldNamesFit fields →
    (containerBytes (Form.elementBytes fields)).length < 2 ^ 31 →
    Value.depthFields (Form.fieldValues fields) ≤ levels →
    ∀ (offset : Nat) (tail : Bytes),
      fieldsAt levels offset (containerBytes (Form.elementBytes fields) ++ tail) =
        .ok (Form.fieldValues fields)

theorem innerAt_containerBytes {levels : Nat} (ih : ∀ l, levels = l + 1 → ReadsForms l)
    {fields : List (String × Form)} (hfit : Form.FieldNamesFit fields)
    (hlen : (containerBytes (Form.elementBytes fields)).length < 2 ^ 31)
    (hdepth : Value.depthFields (Form.fieldValues fields) + 1 ≤ levels) (offset : Nat)
    (tail : Bytes) :
    innerAt levels offset (containerBytes (Form.elementBytes fields) ++ tail) =
      .ok (Form.fieldValues fields) := by
  obtain ⟨l, rfl⟩ : ∃ l, levels = l + 1 := ⟨levels - 1, by omega⟩
  exact ih l rfl fields hfit hlen (by omega) offset tail

theorem value_bytes {levels : Nat} (ih : ∀ l, levels = l + 1 → ReadsForms l) {f : Form}
    (hfit : f.NamesFit) (hlen : f.bytes.length < 2 ^ 31) (hdepth : f.value.depth ≤ levels)
    (name : String) (offset : Nat) (rest : Bytes) :
    Element.value (innerAt levels) ⟨f.kind, name, offset, f.bytes.length, f.bytes ++ rest⟩ =
      .ok f.value := by
  cases f with
  | scalar s => exact value_scalarBytes hlen _ name offset rest
  | array items =>
    rw [Form.depth_value_array] at hdepth
    have hinner := innerAt_containerBytes ih hfit hlen hdepth offset rest
    simp only [Element.value, Form.kind, Form.bytes, hinner, Steps.ok_bind, Form.value]
  | document fields =>
    rw [Form.depth_value_document] at hdepth
    have hinner := innerAt_containerBytes ih hfit hlen hdepth offset rest
    simp only [Element.value, Form.kind, Form.bytes, hinner, Steps.map_ok, Form.value]

theorem mapM_elements {levels : Nat} (ih : ∀ l, levels = l + 1 → ReadsForms l)
    {fields : List (String × Form)} (hfit : Form.FieldNamesFit fields)
    (hlen : (Form.elementBytes fields).length < 2 ^ 31)
    (hdepth : Value.depthFields (Form.fieldValues fields) ≤ levels) (tail : Bytes) (offset : Nat) :
    (Form.elements tail offset fields).mapM (Element.field (innerAt levels)) =
      .ok (Form.fieldValues fields) := by
  induction fields generalizing offset with
  | nil => rfl
  | cons field fields ihf =>
    obtain ⟨name, f⟩ := field
    obtain ⟨-, hfitf, hfits⟩ := hfit
    simp only [Form.elementBytes, List.length_append] at hlen
    simp only [Form.fieldValues, Value.depthFields] at hdepth
    rw [Form.elements, List.mapM_cons, Element.field,
      value_bytes ih hfitf (by omega) (by omega), Steps.ok_bind, Steps.ok_bind,
      ihf hfits (by omega) (by omega), Steps.ok_bind, Form.fieldValues]
    rfl

theorem readsForms_step {levels : Nat} (ih : ∀ l, levels = l + 1 → ReadsForms l) :
    ReadsForms levels := by
  intro fields hfit hlen hdepth offset tail
  rw [fieldsAt_eq, elementsAt_containerBytes hfit hlen, Steps.ok_bind]
  rw [Form.length_containerBytes] at hlen
  exact mapM_elements ih hfit (by omega) hdepth _ _

/-- **The bytes of named forms are read as the values of those forms.** -/
theorem fieldsAt_containerBytes (levels : Nat) : ReadsForms levels := by
  induction levels with
  | zero => exact readsForms_step fun l hl => absurd hl (Nat.succ_ne_zero l).symm
  | succ levels ih => exact readsForms_step fun l hl => by cases hl; exact ih

/-! ## From fields to forms -/

/-- What reading a container with `levels` tells about its bytes. -/
structure HoldsForms (levels offset : Nat) (bytes : Bytes) (doc : Document)
    (fields : List (String × Form)) : Prop where
  namesFit : Form.FieldNamesFit fields
  values : Form.fieldValues fields = doc
  depth_le : Value.depthFields doc ≤ levels
  length_lt : (containerBytes (Form.elementBytes fields)).length < 2 ^ 31
  length_eq : documentLengthAt offset bytes =
    .ok (containerBytes (Form.elementBytes fields)).length
  bytes_eq : ∃ tail, bytes = containerBytes (Form.elementBytes fields) ++ tail

/-- Every container that is read with `levels` holds the bytes of forms. -/
def FormsRead (levels : Nat) : Prop :=
  ∀ (offset : Nat) (bytes : Bytes) (doc : Document), fieldsAt levels offset bytes = .ok doc →
    ∃ fields, HoldsForms levels offset bytes doc fields

theorem form_of_innerAt {levels offset : Nat} {bytes : Bytes} {doc : Document}
    (ih : ∀ l, levels = l + 1 → FormsRead l) (h : innerAt levels offset bytes = .ok doc) :
    ∃ l fields, levels = l + 1 ∧ HoldsForms l offset bytes doc fields := by
  cases levels with
  | zero => cases h
  | succ l =>
    obtain ⟨fields, hfields⟩ := ih l rfl offset bytes doc h
    exact ⟨l, fields, rfl, hfields⟩

theorem HoldsForms.payload {l : Nat} {e : Element} {doc : Document}
    {fields : List (String × Form)} (h : HoldsForms l e.offset e.bytes doc fields)
    (hsize : documentLengthAt e.offset e.bytes = .ok e.size) :
    containerBytes (Form.elementBytes fields) = e.payload := by
  obtain ⟨tail, htail⟩ := h.bytes_eq
  rw [h.length_eq] at hsize
  rw [Element.payload, ← Except.ok.inj hsize, htail, List.take_left]

theorem form_of_value {levels : Nat} (ih : ∀ l, levels = l + 1 → FormsRead l) {e : Element}
    (he : e.Measured) {v : Value} (h : e.value (innerAt levels) = .ok v) :
    ∃ f : Form, f.NamesFit ∧ f.value = v ∧ v.depth ≤ levels ∧ f.kind = e.kind ∧
      f.bytes = e.payload := by
  have hsize := he.size_eq
  by_cases harray : e.kind = .array
  · simp only [Element.value, harray] at h hsize
    obtain ⟨doc, hdoc, h⟩ := Steps.bind_eq_ok.1 h
    cases h
    obtain ⟨l, fields, rfl, hforms⟩ := form_of_innerAt ih hdoc
    refine ⟨.array fields, hforms.namesFit, by rw [Form.value, hforms.values], ?_, harray.symm,
      hforms.payload hsize⟩
    rw [Value.depth, Form.depthItems_map_snd]
    exact Nat.succ_le_succ hforms.depth_le
  by_cases hdocument : e.kind = .document
  · simp only [Element.value, hdocument] at h hsize
    obtain ⟨doc, hdoc, rfl⟩ := Steps.map_eq_ok.1 h
    obtain ⟨l, fields, rfl, hforms⟩ := form_of_innerAt ih hdoc
    refine ⟨.document fields, hforms.namesFit, by rw [Form.value, hforms.values], ?_,
      hdocument.symm, hforms.payload hsize⟩
    rw [Value.depth]
    exact Nat.succ_le_succ hforms.depth_le
  · obtain ⟨s, rfl, hkind, hbytes⟩ := scalarBytes_of_value he harray hdocument h
    exact ⟨.scalar s, trivial, rfl, Nat.zero_le _, hkind, hbytes.symm⟩

theorem forms_of_mapM {levels : Nat} (ih : ∀ l, levels = l + 1 → FormsRead l) {es : List Element}
    (hes : ∀ e ∈ es, e.Measured ∧ nameFits e.name = true) {doc : Document}
    (h : es.mapM (Element.field (innerAt levels)) = .ok doc) :
    ∃ fields, Form.FieldNamesFit fields ∧ Form.fieldValues fields = doc ∧
      Value.depthFields doc ≤ levels ∧ Form.elementBytes fields = es.flatMap Element.layout := by
  have h := Steps.mapM_eq_ok.1 h
  induction h with
  | nil => exact ⟨[], trivial, rfl, Nat.zero_le _, rfl⟩
  | @cons e field es doc hfield hrest ihf =>
    obtain ⟨fields, hfits, hvalues, hdepth, hbytes⟩ :=
      ihf (fun d hd => hes d (List.mem_cons_of_mem e hd)) (Steps.mapM_eq_ok.2 hrest)
    obtain ⟨hmeasured, hname⟩ := hes e List.mem_cons_self
    obtain ⟨v, hv, hfield⟩ := Steps.bind_eq_ok.1 hfield
    cases hfield
    obtain ⟨f, hfit, hvalue, hdepthf, hkind, hpayload⟩ := form_of_value ih hmeasured hv
    refine ⟨(e.name, f) :: fields, ⟨hname, hfit, hfits⟩, ?_, ?_, ?_⟩
    · rw [Form.fieldValues, hvalue, hvalues]
    · rw [Value.depthFields]
      exact Nat.max_le.2 ⟨hdepthf, hdepth⟩
    · rw [Form.elementBytes, List.flatMap_cons, hbytes, Element.layout, hkind, hpayload]

theorem forms_of_fieldsAt {levels : Nat} (ih : ∀ l, levels = l + 1 → FormsRead l) :
    FormsRead levels := by
  intro offset bytes doc h
  rw [fieldsAt_eq] at h
  obtain ⟨es, hes, h⟩ := Steps.bind_eq_ok.1 h
  obtain ⟨htail, hlength, hlt, hall⟩ := layout_of_elementsAt hes
  obtain ⟨fields, hfits, hvalues, hdepth, hbytes⟩ := forms_of_mapM ih hall h
  rw [← hbytes] at htail hlength hlt
  exact ⟨fields, hfits, hvalues, hdepth, hlt, hlength, htail⟩

/-- **A container that is read holds the bytes of forms**, and nests as deep as it was read. -/
theorem form_of_fieldsAt (levels : Nat) : FormsRead levels := by
  induction levels with
  | zero => exact forms_of_fieldsAt fun l hl => absurd hl (Nat.succ_ne_zero l).symm
  | succ levels ih => exact forms_of_fieldsAt fun l hl => by cases hl; exact ih

end DocTable.Wire
