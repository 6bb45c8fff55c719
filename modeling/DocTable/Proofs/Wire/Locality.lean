import DocTable.Proofs.Wire.Bounds
import DocTable.Proofs.Wire.Decoding

/-!
# Containers are read on their own

The lengths inside a container are read without regard to its end, and only then compared with it.
Still nothing outside a container has a say in what is read from it.

* `valueSize_take` — the size of a value is told by the bytes of the value, wherever they stand.
* `elementsAt_layout` — what elements were told apart in is told apart again, into as many: the
  converse of `layout_of_elementsAt`.
* `countAt_eq_ok_iff`, `fieldsAt_eq_ok_iff` — counting the elements of a container and reading its
  fields, told by the bytes of its elements alone. Neither mentions the place of the container or
  what stands behind it.
* `reads_slice_iff` — whatever is told by these bytes is told by the container cut out of its buffer.
* `Guarded.walk_of_visit` — a walk that reads the values meets the elements that a walk which only
  counts them meets.
* `containers_read_on_their_own` — reading, counting, and that the two agree.
-/

set_option autoImplicit false

namespace DocTable

namespace Wire

/-! ## Counting elements and reading items -/

/-- The number of elements of the container that starts here. -/
def countAt (offset : Nat) (bytes : Bytes) : Except Error Nat :=
  List.length <$> elementsAt offset bytes

/-- The items of the array that starts here, with containers nested in it to `levels`. -/
def itemsAt (levels offset : Nat) (bytes : Bytes) : Except Error (List Value) :=
  List.map (·.2) <$> fieldsAt levels offset bytes

/-- So many bytes of a buffer, from a place on. -/
def slice (buffer : Bytes) (start length : Nat) : Bytes :=
  (buffer.drop start).take length

/-- An array has the items that are read where it starts. -/
theorem Element.value_array {e : Element} (h : e.kind = .array) (levels : Nat) :
    e.value (fieldsAt levels) = .array <$> itemsAt levels e.offset e.bytes := by
  rw [Element.value, h, itemsAt]
  cases fieldsAt levels e.offset e.bytes <;> rfl

theorem itemsAt_eq_ok_iff {levels offset : Nat} {bytes : Bytes} {items : List Value} :
    itemsAt levels offset bytes = .ok items ↔
      ∃ doc, fieldsAt levels offset bytes = .ok doc ∧ doc.map (·.2) = items :=
  Steps.map_eq_ok

variable {offset other : Nat} {bytes : Bytes}

/-! ## Values are measured by their own bytes -/

/-- Four bytes are read as the same number anywhere. -/
theorem int32At_congr {more : Bytes} {n : Int} (htake : more.take 4 = bytes.take 4)
    (h : int32At offset bytes = .ok n) : int32At other more = .ok n := by
  unfold int32At littleAt? at h ⊢
  rw [htake]
  split at h
  · exact h
  · cases h

theorem documentLengthAt_eq_ok_iff {length : Nat} :
    documentLengthAt offset bytes = .ok length ↔
      minDocumentLength ≤ length ∧ length < 2 ^ 31 ∧ bytes.take 4 = little 4 length := by
  constructor
  · exact little_of_documentLengthAt
  · rintro ⟨hmin, hlt, htake⟩
    rw [← List.take_append_drop 4 bytes, htake]
    exact documentLengthAt_little hmin hlt offset _

theorem take_four_take {size : Nat} (hfour : 4 ≤ size) (hsize : size ≤ bytes.length)
    (rest : Bytes) : (bytes.take size ++ rest).take 4 = bytes.take 4 := by
  rw [List.take_append_of_le_length (by rw [List.length_take]; omega), List.take_take,
    Nat.min_eq_left hfour]

/-- A size that is computed from a length is told by the bytes of that size, as the length is among
them. -/
theorem sizeFrom_take {least : Int} {extra size : Nat} (fault : Nat → Int → Error)
    (hextra : 4 ≤ extra) (hsize : size ≤ bytes.length)
    (h : (do
      let length ← int32At offset bytes
      if length < least then .error (fault offset length) else .ok (extra + length.toNat)) =
        .ok size) (rest : Bytes) :
    (do
      let length ← int32At other (bytes.take size ++ rest)
      if length < least then .error (fault other length) else .ok (extra + length.toNat)) =
        .ok size := by
  have hle := least_le_of_size h
  obtain ⟨length, hlength, h⟩ := Steps.bind_eq_ok.1 h
  have htake := take_four_take (by omega) hsize rest
  rw [int32At_congr htake hlength, Steps.ok_bind]
  split at h
  · cases h
  · rename_i hleast
    rw [if_neg hleast, h]

/-- **The size of a value is told by the bytes of the value**, wherever they stand. -/
theorem valueSize_take {kind : Kind} {size : Nat} (hsize : size ≤ bytes.length)
    (h : valueSize kind offset bytes = .ok size) (rest : Bytes) :
    valueSize kind other (bytes.take size ++ rest) = .ok size := by
  cases kind with
  | null | bool | int32 | int64 | double | decimal | objectId | dateTime | timestamp => exact h
  | string | code | symbol =>
    exact sizeFrom_take (fun offset length => .malformed (some offset) (.stringLength length))
      (Nat.le_refl 4) hsize h rest
  | binary =>
    exact sizeFrom_take (fun offset length => .malformed (some offset) (.binaryLength length))
      (Nat.le_succ 4) hsize h rest
  | array | document =>
    obtain ⟨hmin, hlt, hlittle⟩ := documentLengthAt_eq_ok_iff.1 h
    have hfour : 4 ≤ size := Nat.le_of_succ_le hmin
    refine documentLengthAt_eq_ok_iff.2 ⟨hmin, hlt, ?_⟩
    rw [take_four_take hfour hsize, hlittle]

theorem Element.Measured.valueSize_payload {e : Element} (h : e.Measured) (offset : Nat)
    (rest : Bytes) : valueSize e.kind offset (e.payload ++ rest) = .ok e.size :=
  valueSize_take h.size_le h.size_eq rest

/-! ## Elements are told apart by their own bytes -/

theorem elementsFrom_layout {es : List Element}
    (hes : ∀ e ∈ es, e.Measured ∧ nameFits e.name = true) {fuel : Nat}
    (hfuel : (es.flatMap Element.layout).length ≤ fuel) (offset : Nat) (tail : Bytes) :
    ∃ found, elementsFrom fuel offset (es.flatMap Element.layout).length
      (es.flatMap Element.layout ++ tail) = .ok found ∧ found.length = es.length := by
  induction es generalizing fuel offset with
  | nil => exact ⟨[], by cases fuel <;> rfl, rfl⟩
  | cons e es ih =>
    obtain ⟨⟨hmeasured, hfit⟩, hes⟩ := List.forall_mem_cons.1 hes
    have hpayload := hmeasured.length_payload
    have hlength : ((e :: es).flatMap Element.layout).length =
        (headerBytes e.kind e.name).length + e.size + (es.flatMap Element.layout).length := by
      simp only [List.flatMap_cons, List.length_append, Element.layout, hpayload]
    have hheader := Form.length_headerBytes e.kind e.name
    obtain ⟨fuel, rfl⟩ : ∃ k, fuel = k + 1 := ⟨fuel - 1, by omega⟩
    have hroom : (es.flatMap Element.layout).length ≤ fuel := by omega
    obtain ⟨found, hfound, hcount⟩ := ih hes hroom
      (offset + (headerBytes e.kind e.name).length + e.size)
    have hsize := hmeasured.valueSize_payload (offset + (headerBytes e.kind e.name).length)
      (es.flatMap Element.layout ++ tail)
    rw [hlength, List.flatMap_cons, Element.layout, List.append_assoc, List.append_assoc,
      elementsFrom_header hfit hsize, List.drop_left' hpayload, hfound, Steps.ok_bind]
    exact ⟨_, rfl, congrArg (· + 1) hcount⟩

/-- **What elements were told apart in is told apart again**, into as many of them, wherever it
stands. -/
theorem elementsAt_layout {es : List Element}
    (hes : ∀ e ∈ es, e.Measured ∧ nameFits e.name = true)
    (hlt : (containerBytes (es.flatMap Element.layout)).length < 2 ^ 31) (offset : Nat)
    (tail : Bytes) :
    ∃ found, elementsAt offset (containerBytes (es.flatMap Element.layout) ++ tail) = .ok found ∧
      found.length = es.length := by
  obtain ⟨found, hfound, hcount⟩ := elementsFrom_layout hes (Nat.le_refl _) (offset + 4) (0 :: tail)
  exact ⟨found, by rw [elementsAt_containerBytes_append hlt, hfound], hcount⟩

/-! ## What the bytes of the elements tell -/

theorem countAt_eq_ok_iff {count : Nat} :
    countAt offset bytes = .ok count ↔
      ∃ elements tail, bytes = containerBytes elements ++ tail ∧
        (containerBytes elements).length < 2 ^ 31 ∧
        ∃ es : List Element, es.flatMap Element.layout = elements ∧ es.length = count ∧
          ∀ e ∈ es, e.Measured ∧ nameFits e.name = true := by
  constructor
  · intro h
    obtain ⟨es, hes, hcount⟩ := Steps.map_eq_ok.1 h
    obtain ⟨⟨tail, htail⟩, -, hlt, hall⟩ := layout_of_elementsAt hes
    exact ⟨_, tail, htail, hlt, es, rfl, hcount, hall⟩
  · rintro ⟨_, tail, rfl, hlt, es, rfl, rfl, hall⟩
    obtain ⟨found, hfound, hcount⟩ := elementsAt_layout hall hlt offset tail
    exact Steps.map_eq_ok.2 ⟨found, hfound, hcount⟩

theorem fieldsAt_eq_ok_iff {levels : Nat} {doc : Document} :
    fieldsAt levels offset bytes = .ok doc ↔
      ∃ elements tail, bytes = containerBytes elements ++ tail ∧
        (containerBytes elements).length < 2 ^ 31 ∧
        ∃ fields, Form.elementBytes fields = elements ∧ Form.FieldNamesFit fields ∧
          Form.fieldValues fields = doc ∧ Value.depthFields doc ≤ levels := by
  constructor
  · intro h
    obtain ⟨fields, hforms⟩ := form_of_fieldsAt levels offset bytes doc h
    obtain ⟨tail, htail⟩ := hforms.bytes_eq
    exact ⟨_, tail, htail, hforms.length_lt, fields, rfl, hforms.namesFit, hforms.values,
      hforms.depth_le⟩
  · rintro ⟨_, tail, rfl, hlt, fields, rfl, hfit, rfl, hdepth⟩
    exact fieldsAt_containerBytes levels fields hfit hlt hdepth offset tail

/-! ## Containers that are cut out -/

variable {buffer : Bytes} {start length : Nat}

/-- A container stands in front of some bytes exactly if so many of them as it announces are its
own. -/
theorem exists_append_iff {elements : Bytes} (hlength : documentLengthAt offset bytes = .ok length)
    (hlt : (containerBytes elements).length < 2 ^ 31) :
    (∃ tail, bytes = containerBytes elements ++ tail) ↔ bytes.take length = containerBytes elements := by
  constructor
  · rintro ⟨tail, rfl⟩
    rw [documentLengthAt_containerBytes hlt] at hlength
    rw [← Except.ok.inj hlength, List.take_left]
  · intro htake
    exact ⟨bytes.drop length, by rw [← htake, List.take_append_drop]⟩

theorem documentLengthAt_slice (hlength : documentLengthAt start (buffer.drop start) = .ok length) :
    documentLengthAt 0 (slice buffer start length) = .ok length := by
  obtain ⟨hmin, hlt, hlittle⟩ := documentLengthAt_eq_ok_iff.1 hlength
  refine documentLengthAt_eq_ok_iff.2 ⟨hmin, hlt, ?_⟩
  rw [slice, List.take_take, Nat.min_eq_left (Nat.le_of_succ_le hmin), hlittle]

/-- **What is told by the bytes of the elements is told by the container alone**, cut out of its
buffer. -/
theorem reads_slice_iff (Reads : Nat → Bytes → Prop) {Tells : Bytes → Prop}
    (hreads : ∀ offset bytes, Reads offset bytes ↔
      ∃ elements tail, bytes = containerBytes elements ++ tail ∧
        (containerBytes elements).length < 2 ^ 31 ∧ Tells elements)
    (hlength : documentLengthAt start (buffer.drop start) = .ok length) :
    Reads start (buffer.drop start) ↔ Reads 0 (slice buffer start length) := by
  have hfront : ∀ {offset : Nat} {bytes : Bytes}, documentLengthAt offset bytes = .ok length →
      (Reads offset bytes ↔ ∃ elements, bytes.take length = containerBytes elements ∧
        (containerBytes elements).length < 2 ^ 31 ∧ Tells elements) := by
    intro offset bytes hlength
    rw [hreads]
    constructor
    · rintro ⟨elements, tail, htail, hlt, htells⟩
      exact ⟨elements, (exists_append_iff hlength hlt).1 ⟨tail, htail⟩, hlt, htells⟩
    · rintro ⟨elements, htake, hlt, htells⟩
      obtain ⟨tail, htail⟩ := (exists_append_iff hlength hlt).2 htake
      exact ⟨elements, tail, htail, hlt, htells⟩
  rw [hfront hlength, hfront (documentLengthAt_slice hlength), slice, List.take_take, Nat.min_self]

theorem fieldsAt_slice_iff (hlength : documentLengthAt start (buffer.drop start) = .ok length)
    {levels : Nat} {doc : Document} :
    fieldsAt levels start (buffer.drop start) = .ok doc ↔
      fieldsAt levels 0 (slice buffer start length) = .ok doc :=
  reads_slice_iff (fun offset bytes => fieldsAt levels offset bytes = .ok doc)
    (fun _ _ => fieldsAt_eq_ok_iff) hlength

theorem countAt_slice_iff (hlength : documentLengthAt start (buffer.drop start) = .ok length)
    {count : Nat} :
    countAt start (buffer.drop start) = .ok count ↔
      countAt 0 (slice buffer start length) = .ok count :=
  reads_slice_iff (fun offset bytes => countAt offset bytes = .ok count)
    (fun _ _ => countAt_eq_ok_iff) hlength

/-! ## Counting and reading agree -/

/-- As many fields are read as elements are counted. -/
theorem countAt_of_fieldsAt {levels : Nat} {doc : Document}
    (h : fieldsAt levels offset bytes = .ok doc) : countAt offset bytes = .ok doc.length := by
  rw [fieldsAt_eq] at h
  obtain ⟨es, hes, hfields⟩ := Steps.bind_eq_ok.1 h
  rw [countAt, hes, Steps.map_ok, (Steps.mapM_eq_ok.1 hfields).length_eq]

/-- A buffer that is read as a document is counted as such, whatever stands behind it. -/
theorem countFields_of_decode {doc : Document} (h : Document.decode bytes = .ok doc)
    (tail : Bytes) : Document.countFields (bytes ++ tail) = .ok doc.length := by
  obtain ⟨hlt, -, form, hform, rfl⟩ := Document.decode_eq_ok_iff.1 h
  obtain ⟨fields, rfl, rfl, hfit⟩ := hform.eq_document
  have hread := fieldsAt_containerBytes _ fields hfit hlt (Nat.le_refl _) 0 tail
  exact countAt_of_fieldsAt hread

namespace Guarded

/-- **A walk that reads values meets the elements that are counted**, whatever it reads. -/
theorem walk_of_visit {α : Type} {visit : Header → Except Stop α} {fuel place stop : Nat}
    {found : List α} (h : walk visit buffer stop fuel place = .ok found) :
    walk (fun _ => .ok ()) buffer stop fuel place = .ok (found.map fun _ => ()) := by
  induction fuel generalizing place found with
  | zero =>
    rw [walk] at h ⊢
    split at h
    · rename_i hend
      cases h
      exact if_pos hend
    · cases h
  | succ fuel ih =>
    rw [walk] at h ⊢
    split at h
    · rename_i hend
      cases h
      exact if_pos hend
    · rename_i hinside
      obtain ⟨header, hheader, h⟩ := Steps.bind_eq_ok.1 h
      obtain ⟨first, -, h⟩ := Steps.bind_eq_ok.1 h
      obtain ⟨others, hothers, h⟩ := Steps.bind_eq_ok.1 h
      cases h
      rw [if_neg hinside, hheader, Steps.ok_bind, Steps.ok_bind, ih hothers, Steps.ok_bind,
        List.map_cons]

theorem walkAt_of_fieldsAt {levels : Nat} {doc : Document}
    (h : fieldsAt buffer levels start = .ok doc) :
    walkAt (fun _ => .ok ()) buffer start = .ok (doc.map fun _ => ()) := by
  obtain ⟨guarded, hguarded⟩ : ∃ guarded, fieldsAt buffer levels = containerAt guarded buffer := by
    cases levels with
    | zero => exact ⟨_, rfl⟩
    | succ levels => exact ⟨_, rfl⟩
  rw [hguarded] at h
  obtain ⟨_, -, hread⟩ := Steps.bind_eq_ok.1 h
  obtain ⟨bounds, hbounds, hread⟩ := Steps.bind_eq_ok.1 hread
  rw [walkAt, hbounds, Steps.ok_bind]
  exact walk_of_visit hread

theorem allow_eq_ok_iff {α : Type} {result : Except Error α} {a : α} :
    allow result = .ok a ↔ result = .ok a := by
  cases result <;> simp [allow, Except.mapError]

theorem fieldsAt_slice_iff (hlength : documentLengthAt start (buffer.drop start) = .ok length)
    (hfits : start + length ≤ buffer.length) {levels : Nat} {doc : Document} :
    fieldsAt buffer levels start = .ok doc ↔
      fieldsAt (slice buffer start length) levels 0 = .ok doc := by
  have hstart : Fits buffer start := by
    intro declared hdeclared
    rw [hlength] at hdeclared
    cases hdeclared
    exact hfits
  have hslice : Fits (slice buffer start length) 0 := by
    intro declared hdeclared
    rw [List.drop_zero, documentLengthAt_slice hlength] at hdeclared
    cases hdeclared
    rw [slice, List.length_take, List.length_drop]
    omega
  rw [fieldsAt_eq levels hstart, fieldsAt_eq levels hslice, List.drop_zero, allow_eq_ok_iff,
    allow_eq_ok_iff]
  exact Wire.fieldsAt_slice_iff hlength

end Guarded

/-- **Containers are read on their own.**  Where a container announces a length that the buffer
holds, its fields, its items and the number of its elements are those of the same bytes cut out of
the buffer, at every level and for both readers; in particular neither is refused where the other is
not.  Wherever fields or items are read, as many elements are counted there, also by the reader that
walks over a container twice; and the fields of a document are counted whatever stands behind it. -/
theorem containers_read_on_their_own (buffer : Bytes) (start : Nat) :
    (∀ length, documentLengthAt start (buffer.drop start) = .ok length →
      start + length ≤ buffer.length →
      (∀ levels doc, fieldsAt levels start (buffer.drop start) = .ok doc ↔
        fieldsAt levels 0 (slice buffer start length) = .ok doc) ∧
      (∀ levels items, itemsAt levels start (buffer.drop start) = .ok items ↔
        itemsAt levels 0 (slice buffer start length) = .ok items) ∧
      (∀ count, countAt start (buffer.drop start) = .ok count ↔
        countAt 0 (slice buffer start length) = .ok count) ∧
      (∀ levels doc, Guarded.fieldsAt buffer levels start = .ok doc ↔
        Guarded.fieldsAt (slice buffer start length) levels 0 = .ok doc)) ∧
    (∀ levels doc, fieldsAt levels start (buffer.drop start) = .ok doc →
      countAt start (buffer.drop start) = .ok doc.length) ∧
    (∀ levels items, itemsAt levels start (buffer.drop start) = .ok items →
      countAt start (buffer.drop start) = .ok items.length) ∧
    (∀ levels doc, Guarded.fieldsAt buffer levels start = .ok doc →
      List.length <$> Guarded.walkAt (fun _ => .ok ()) buffer start = .ok doc.length) ∧
    ∀ doc, Document.decode buffer = .ok doc →
      ∀ tail, Document.countFields (buffer ++ tail) = .ok doc.length := by
  refine ⟨fun length hlength hfits => ⟨?_, ?_, ?_, ?_⟩, ?_, ?_, ?_, ?_⟩
  · exact fun levels doc => fieldsAt_slice_iff hlength
  · intro levels items
    simp only [itemsAt_eq_ok_iff, fieldsAt_slice_iff hlength]
  · exact fun count => countAt_slice_iff hlength
  · exact fun levels doc => Guarded.fieldsAt_slice_iff hlength hfits
  · exact fun levels doc => countAt_of_fieldsAt
  · intro levels items h
    obtain ⟨doc, hdoc, rfl⟩ := itemsAt_eq_ok_iff.1 h
    rw [countAt_of_fieldsAt hdoc, List.length_map]
  · intro levels doc h
    rw [Guarded.walkAt_of_fieldsAt h, Steps.map_ok, List.length_map]
  · exact fun doc => countFields_of_decode

/-- An array amid other bytes holds a text. Where the text announces a byte more than it has, the
buffer would still hold it, but the array does not: it is refused in the buffer as it is alone. -/
theorem array_amid_other_bytes :
    ∃ (sound long : Bytes) (items : List Value),
      sound = [7, 16, 0, 0, 0, 2, 48, 0, 4, 0, 0, 0, 104, 105, 33, 0, 0, 0, 9] ∧
      long = [7, 16, 0, 0, 0, 2, 48, 0, 6, 0, 0, 0, 104, 105, 33, 0, 0, 0, 9] ∧
      items = [.scalar (.string "hi!")] ∧
      documentLengthAt 1 (sound.drop 1) = .ok 16 ∧ 1 + 16 ≤ sound.length ∧
      itemsAt 3 1 (sound.drop 1) = .ok items ∧ itemsAt 3 0 (slice sound 1 16) = .ok items ∧
      countAt 1 (sound.drop 1) = .ok 1 ∧
      documentLengthAt 1 (long.drop 1) = .ok 16 ∧ 1 + 16 ≤ long.length ∧
      (∀ count, countAt 0 (slice long 1 16) ≠ .ok count) ∧
      ∀ count, countAt 1 (long.drop 1) ≠ .ok count := by
  obtain ⟨hslice, -, hcount, -⟩ := containers_read_on_their_own
    [7, 16, 0, 0, 0, 2, 48, 0, 4, 0, 0, 0, 104, 105, 33, 0, 0, 0, 9] 1
  obtain ⟨hlong, -⟩ := containers_read_on_their_own
    [7, 16, 0, 0, 0, 2, 48, 0, 6, 0, 0, 0, 104, 105, 33, 0, 0, 0, 9] 1
  have hrefused : ∀ count, countAt 0
      (slice [7, 16, 0, 0, 0, 2, 48, 0, 6, 0, 0, 0, 104, 105, 33, 0, 0, 0, 9] 1 16) ≠ .ok count :=
    fun count h => by cases h
  refine ⟨_, _, [.scalar (.string "hi!")], rfl, rfl, rfl, rfl, by decide, rfl, ?_, ?_, rfl,
    by decide, hrefused, fun count h => ?_⟩
  · exact ((hslice 16 rfl (by decide)).2.1 3 _).1 rfl
  · exact hcount 3 [.scalar (.string "hi!")] rfl
  · exact hrefused count (((hlong 16 rfl (by decide)).2.2.1 count).1 h)

end Wire

end DocTable
