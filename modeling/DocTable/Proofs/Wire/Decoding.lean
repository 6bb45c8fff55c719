import DocTable.Proofs.Wire.Container
import DocTable.Proofs.Wire.Encoding

/-!
# What is read, and as what

* `decode_eq_ok_iff` — a buffer is read as a document exactly when it is a wire form of it, shorter
  than `2 ^ 31` bytes and nested no deeper than `maxDepth`.
* `encode_fails_or_decodes_back` — when a document cannot be written, and that it is read back else.
* `Form.eq_of_bytes_eq` — the bytes of a form determine the form, the keys of array elements
  included.
* `decode_accepts_exactly_wireForms` — the grammar of what is read: one document for each accepted
  buffer, buffers of one document alike but for array keys, and the written form among them.
-/

set_option autoImplicit false

namespace DocTable

namespace Wire.Form

theorem IsFormOf.eq_document {f : Form} {doc : Document} (h : f.IsFormOf doc) :
    ∃ fields, f = document fields ∧ fieldValues fields = doc ∧ FieldNamesFit fields := by
  cases f with
  | scalar s => cases h.value_eq
  | array items => cases h.value_eq
  | document fields => exact ⟨fields, rfl, Value.document.inj h.value_eq, h.namesFit⟩

end Wire.Form

namespace Document

open Wire

/-- **Which buffers are read, and as what.** -/
theorem decode_eq_ok_iff {bytes : Bytes} {doc : Document} :
    decode bytes = .ok doc ↔
      bytes.length < 2 ^ 31 ∧ doc.depth ≤ maxDepth ∧ IsWireForm bytes doc := by
  constructor
  · intro h
    obtain ⟨length, hlength, h⟩ := Steps.bind_eq_ok.1 h
    split at h
    · cases h
    · rename_i hall
      obtain ⟨fields, hforms⟩ := form_of_fieldsAt _ 0 bytes doc h
      obtain ⟨tail, htail⟩ := hforms.bytes_eq
      have hlen : length = (containerBytes (Form.elementBytes fields)).length := by
        have := hforms.length_eq
        rw [hlength] at this
        exact Except.ok.inj this
      have hnil : tail = [] := by
        have := congrArg List.length htail
        rw [List.length_append, ← hlen] at this
        exact List.length_eq_zero_iff.1 (by omega)
      rw [hnil, List.append_nil] at htail
      refine ⟨htail ▸ hforms.length_lt, ?_, .document fields, ?_, htail.symm⟩
      · rw [Document.depth, Value.depth]
        exact Nat.succ_le_succ hforms.depth_le
      · exact ⟨congrArg Value.document hforms.values, hforms.namesFit⟩
  · rintro ⟨hlt, hdepth, f, hform, rfl⟩
    obtain ⟨fields, rfl, rfl, hfit⟩ := hform.eq_document
    rw [Document.depth, Value.depth] at hdepth
    have hread := fieldsAt_containerBytes (maxDepth - 1) fields hfit hlt
      (Nat.le_sub_one_of_lt hdepth) 0 []
    have hlength := documentLengthAt_containerBytes hlt 0 []
    rw [List.append_nil] at hread hlength
    unfold decode
    rw [Form.bytes, hlength, Steps.ok_bind, if_neg (not_not_intro rfl), hread]

/-- A document that nests no deeper than `maxDepth` is read back from any of its forms. -/
theorem decode_bytes_of_isFormOf {f : Form} {doc : Document} (hform : f.IsFormOf doc)
    (hlt : f.bytes.length < 2 ^ 31) (hdepth : doc.depth ≤ maxDepth) :
    decode f.bytes = .ok doc :=
  decode_eq_ok_iff.2 ⟨hlt, hdepth, f, hform, rfl⟩

end Document

namespace Wire.Form

/-! ## The form is determined by its bytes -/

theorem length_elements_lt {elements : Bytes} (h : (containerBytes elements).length < 2 ^ 31) :
    elements.length < 2 ^ 31 := by
  rw [length_containerBytes] at h
  omega

theorem scalar_eq_of_bytes_eq {s t : Scalar} (hlt : (scalarBytes s).length < 2 ^ 31)
    (hkind : s.kind = t.kind) (hbytes : scalarBytes s = scalarBytes t) : s = t := by
  have hs := value_scalarBytes hlt (innerAt 0) "" 0 []
  rw [hkind, hbytes, value_scalarBytes (hbytes ▸ hlt)] at hs
  exact (Value.scalar.inj (Except.ok.inj hs)).symm

/-- Containers with the same bytes have the same elements. -/
theorem elements_eq_of_bytes_eq {xs ys : List (String × Form)} (hx : FieldNamesFit xs)
    (hy : FieldNamesFit ys) (hlt : (containerBytes (elementBytes xs)).length < 2 ^ 31)
    (hbytes : containerBytes (elementBytes xs) = containerBytes (elementBytes ys)) :
    elements [0] 4 xs = elements [0] 4 ys := by
  have hxs := elementsAt_containerBytes hx hlt 0 []
  rw [hbytes, elementsAt_containerBytes hy (hbytes ▸ hlt)] at hxs
  exact (Except.ok.inj hxs).symm

mutual

/-- **The bytes of a form determine the form**, given its kind. -/
theorem eq_of_bytes_eq : ∀ (f g : Form), f.NamesFit → g.NamesFit → f.bytes.length < 2 ^ 31 →
    f.kind = g.kind → f.bytes = g.bytes → f = g
  | scalar _, scalar _, _, _, hlt, hkind, hbytes =>
    congrArg scalar (scalar_eq_of_bytes_eq hlt hkind hbytes)
  | array xs, array ys, hx, hy, hlt, _, hbytes =>
    congrArg array (eq_of_elements_eq xs ys hx hy (length_elements_lt hlt)
      (elements_eq_of_bytes_eq hx hy hlt hbytes))
  | document xs, document ys, hx, hy, hlt, _, hbytes =>
    congrArg document (eq_of_elements_eq xs ys hx hy (length_elements_lt hlt)
      (elements_eq_of_bytes_eq hx hy hlt hbytes))
  | scalar s, array _, _, _, _, hkind, _ | scalar s, document _, _, _, _, hkind, _
  | array _, scalar s, _, _, _, hkind, _ | document _, scalar s, _, _, _, hkind, _ => by
    cases s <;> cases hkind
  | array _, document _, _, _, _, hkind, _ | document _, array _, _, _, _, hkind, _ => by
    cases hkind

theorem eq_of_elements_eq {tail : Bytes} {offset : Nat} : ∀ (xs ys : List (String × Form)),
    FieldNamesFit xs → FieldNamesFit ys → (elementBytes xs).length < 2 ^ 31 →
    elements tail offset xs = elements tail offset ys → xs = ys
  | [], [], _, _, _, _ => rfl
  | (name, f) :: xs, (other, g) :: ys, hx, hy, hlt, h => by
    obtain ⟨-, hfit, hfits⟩ := hx
    obtain ⟨-, hgit, hgits⟩ := hy
    simp only [elementBytes, List.length_append] at hlt
    simp only [elements, List.cons.injEq, Element.mk.injEq] at h
    obtain ⟨⟨hkind, rfl, -, hlength, happend⟩, hrest⟩ := h
    rw [hkind, hlength] at hrest
    have hbytes := (List.append_inj happend hlength).1
    rw [eq_of_bytes_eq f g hfit hgit (by omega) hkind hbytes,
      eq_of_elements_eq xs ys hfits hgits (by omega) hrest]
  | [], (_, _) :: _, _, _, _, h | (_, _) :: _, [], _, _, _, h => by
    simp [elements] at h

end

end Wire.Form

namespace Document

open Wire

/-! ## The round trip -/

theorem isFormOf_ofValue {doc : Document} (h : AllFit (Value.document doc).fieldNames) :
    (Form.ofValue (.document doc)).IsFormOf doc :=
  ⟨Form.value_ofValue _, (namesFit_ofValue _).2 h⟩

theorem decode_of_encode {doc : Document} {bytes : Bytes} (h : encode doc = .ok bytes)
    (hlt : bytes.length < 2 ^ 31) : decode bytes = .ok doc := by
  obtain ⟨hdepth, hfit, rfl⟩ := encode_eq_ok_iff.1 h
  exact decode_bytes_of_isFormOf (isFormOf_ofValue hfit) hlt hdepth

theorem not_allFit_iff {names : List String} :
    ¬ AllFit names ↔ ∃ name ∈ names, 0 ∈ Utf8.bytes name := by
  simp [AllFit, nameFits_iff]

theorem encode_eq_error_iff {doc : Document} :
    (∃ error, encode doc = .error error) ↔
      maxDepth < doc.depth ∨ ∃ name ∈ (Value.document doc).fieldNames, 0 ∈ Utf8.bytes name := by
  rw [← not_allFit_iff, ← Nat.not_le, ← not_and_or]
  constructor
  · rintro ⟨error, herror⟩ ⟨hdepth, hfit⟩
    rw [encode_eq_ok_iff.2 ⟨hdepth, hfit, rfl⟩] at herror
    cases herror
  · intro h
    cases hdoc : encode doc with
    | error error => exact ⟨error, rfl⟩
    | ok bytes =>
      obtain ⟨hdepth, hfit, -⟩ := encode_eq_ok_iff.1 hdoc
      exact absurd ⟨hdepth, hfit⟩ h

/-- **The round trip on the wire.**  A document whose layout is in range cannot be written only if
it nests too deep or a name at some level holds a NUL byte; else it is written, and read back as it
was. -/
theorem encode_fails_or_decodes_back (doc : Document) (hlt : doc.layout.length < 2 ^ 31) :
    ((∃ error, encode doc = .error error) ↔
      100 < doc.depth ∨ ∃ name ∈ (Value.document doc).fieldNames, 0 ∈ Utf8.bytes name) ∧
    (¬ (100 < doc.depth ∨ ∃ name ∈ (Value.document doc).fieldNames, 0 ∈ Utf8.bytes name) →
      ∃ bytes, encode doc = .ok bytes ∧ decode bytes = .ok doc) := by
  refine ⟨encode_eq_error_iff, fun h => ?_⟩
  cases hdoc : encode doc with
  | error error => exact absurd (encode_eq_error_iff.1 ⟨error, hdoc⟩) h
  | ok bytes =>
    obtain ⟨-, -, hbytes⟩ := encode_eq_ok_iff.1 hdoc
    exact ⟨bytes, rfl, decode_of_encode hdoc (hbytes ▸ hlt)⟩

/-- A repeated name, a document in an array, an old binary and a quiet NaN come back. -/
theorem decodes_back_nested :
    ∃ bytes,
      encode [("k", .array [.document [("", .null)], .scalar (.binary 2 [7, 8])]),
        ("k", .scalar (.double ⟨0x7ff8000000000001⟩))] = .ok bytes ∧
      decode bytes = .ok [("k", .array [.document [("", .null)], .scalar (.binary 2 [7, 8])]),
        ("k", .scalar (.double ⟨0x7ff8000000000001⟩))] :=
  (encode_fails_or_decodes_back _ (by decide)).2 (by decide)

/-! ## The grammar of what is read -/

/-- The form of an accepted buffer is the only one. -/
theorem existsUnique_form {bytes : Bytes} {doc : Document} (h : decode bytes = .ok doc) :
    ∃! form : Form, form.IsFormOf doc ∧ form.bytes = bytes := by
  obtain ⟨hlt, -, form, hform, hbytes⟩ := decode_eq_ok_iff.1 h
  refine ⟨form, ⟨hform, hbytes⟩, ?_⟩
  rintro other ⟨hother, hother_bytes⟩
  have hkind : other.kind = form.kind := by
    rw [← Form.kind_value, ← Form.kind_value, hform.value_eq, hother.value_eq]
  rw [← hother_bytes] at hlt hbytes
  exact Form.eq_of_bytes_eq other form hother.namesFit hform.namesFit hlt hkind hbytes.symm

/-- A document is written as its form with the elements of arrays keyed by their index. -/
theorem encode_of_indexKeyed {form : Form} {doc : Document} (hform : form.IsFormOf doc)
    (hdepth : doc.depth ≤ maxDepth) (hkeys : form.IndexKeyed) :
    encode doc = .ok form.bytes := by
  have hform_eq := Form.eq_ofValue_of_indexKeyed form hkeys
  rw [hform.value_eq] at hform_eq
  have hfit := hform.namesFit
  rw [hform_eq, namesFit_ofValue] at hfit
  exact encode_eq_ok_iff.2 ⟨hdepth, hfit, congrArg Form.bytes hform_eq⟩

/-- **The grammar of what is read.**  A buffer is read as a document exactly when it is one of its
wire forms within the limits.  An accepted buffer has a single form, which differs from that of any
other buffer of the document in the keys of array elements only; where these are the indices, the
buffer is the one that is written. -/
theorem decode_accepts_exactly_wireForms (bytes : Bytes) (doc : Document) :
    (decode bytes = .ok doc ↔
      bytes.length < 2 ^ 31 ∧ doc.depth ≤ 100 ∧ IsWireForm bytes doc) ∧
    (decode bytes = .ok doc →
      ∃ form : Form, (∀ f : Form, f.IsFormOf doc ∧ f.bytes = bytes ↔ f = form) ∧
        (∀ other : Bytes, decode other = .ok doc →
          ∃ g : Form, g.IsFormOf doc ∧ g.bytes = other ∧ form.Alike g) ∧
        (form.IndexKeyed → encode doc = .ok bytes)) := by
  refine ⟨decode_eq_ok_iff, fun h => ?_⟩
  obtain ⟨form, ⟨hform, hbytes⟩, hunique⟩ := existsUnique_form h
  refine ⟨form, fun f => ⟨hunique f, ?_⟩, ?_, ?_⟩
  · rintro rfl
    exact ⟨hform, hbytes⟩
  · intro other hother
    obtain ⟨-, -, g, hg, hg_bytes⟩ := decode_eq_ok_iff.1 hother
    exact ⟨g, hg, hg_bytes, Form.alike_of_value_eq form g (hform.value_eq.trans hg.value_eq.symm)⟩
  · intro hkeys
    rw [← hbytes]
    exact encode_of_indexKeyed hform (decode_eq_ok_iff.1 h).2.1 hkeys

/-- An array whose only element is keyed `x` is read, and its document is written otherwise. -/
theorem decode_accepts_a_foreign_key :
    IsWireForm [17, 0, 0, 0, 4, 97, 0, 9, 0, 0, 0, 8, 120, 0, 1, 0, 0]
        [("a", .array [.scalar (.bool true)])] ∧
      encode [("a", .array [.scalar (.bool true)])] =
        .ok [17, 0, 0, 0, 4, 97, 0, 9, 0, 0, 0, 8, 48, 0, 1, 0, 0] :=
  ⟨((decode_accepts_exactly_wireForms _ _).1.1 rfl).2.2, rfl⟩

end Document

end DocTable
