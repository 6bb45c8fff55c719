import DocTable.Proofs.Wire.Refusal

/-!
# Reading keeps to the buffer

`Wire.fieldsAt` hands on the bytes that are left. `Guarded.fieldsAt` is the same reader with one
buffer and places in it: every byte and every range of bytes that it takes has to be there, and where
a check repeats what was settled before, its failure is an ending of its own.

* `Guarded.Stop` — the endings. Only one of them is an error of a document.
* `headerAt_eq` — an element is told apart from bytes that are there.
* `walk_of_elements`, `walk_of_refused` — what a walk over a container makes of its elements; the
  elements are walked over twice, once to tell them apart and once to read their values.
* `value_eq` — an element that was told apart has all the bytes that its kind asks for.
* `Guarded.fieldsAt_eq`, `Guarded.decode_eq` — both readers agree, so the endings that are no error
  are never met.
* `decode_keeps_to_the_buffer` — this, and where the errors point.
-/

set_option autoImplicit false

namespace DocTable

namespace Wire

namespace Guarded

/-! ## A reader of places -/

/-- How reading may end without a document. -/
inductive Stop where
  /-- A byte or a range of bytes is taken that is not in the buffer. -/
  | outside
  /-- A walk does not get to its end. -/
  | endless
  /-- A check fails that repeats what was settled before; the error is what it would report. -/
  | unforeseen (error : Error)
  | refused (error : Error)

/-- What is refused, among the endings. -/
def allow {α : Type} (result : Except Error α) : Except Stop α :=
  result.mapError .refused

/-- The byte at a place. -/
def byteAt (bytes : Bytes) (place : Nat) : Except Stop UInt8 :=
  match bytes[place]? with
  | some byte => .ok byte
  | none => .error .outside

/-- The bytes from a place up to another one. -/
def range (bytes : Bytes) (first stop : Nat) : Except Stop Bytes :=
  if first ≤ stop ∧ stop ≤ bytes.length then .ok ((bytes.drop first).take (stop - first))
  else .error .outside

/-- The bytes from a place on, if there are any. -/
def rest (bytes : Bytes) (place : Nat) : Except Stop Bytes :=
  range bytes (min place bytes.length) bytes.length

/-- An element as it is told apart. -/
structure Header where
  tag : UInt8
  name : String
  offset : Nat
  payload : Bytes

/-- The element at a place, in a container whose last byte is at `stop`. -/
def headerAt (buffer : Bytes) (place stop : Nat) : Except Stop Header := do
  let tag ← byteAt buffer place
  let names ← range buffer (place + 1) stop
  match names.findIdx? (· == 0) with
  | none => .error (.refused (.malformed (some (place + 1)) .nameUnterminated))
  | some length =>
    let name ← range buffer (place + 1) (place + 1 + length)
    match Utf8.decode name with
    | .error valid => .error (.refused (.malformed (some (place + 1 + valid)) .nameNotText))
    | .ok text =>
      let offset := place + 1 + length + 1
      match Kind.ofTag? tag with
      | none => .error (.refused (.unsupportedType tag text))
      | some kind =>
        let behind ← rest buffer offset
        let size ← allow (valueSize kind offset behind)
        if stop < offset + size then
          .error (.refused (.malformed (some offset) (.overrun text)))
        else
          let payload ← range buffer offset (offset + size)
          .ok ⟨tag, text, offset, payload⟩

namespace Header

variable (header : Header)

/-- The first `width` bytes. -/
def word (width : Nat) : Except Stop Bytes :=
  if width ≤ header.payload.length then .ok (header.payload.take width)
  else .error (.unforeseen (.malformed (some header.offset) (.truncated width)))

/-- The truth value of the first byte. -/
def truth : Except Stop Scalar := do
  let byte ← byteAt header.payload 0
  if byte = 0 then .ok (.bool false)
  else if byte = 1 then .ok (.bool true)
  else .error (.refused (.malformed (some header.offset) (.booleanByte byte)))

/-- The text behind a length. -/
def text : Except Stop String := do
  let body ← range header.payload 4 header.payload.length
  match body.getLast? with
  | none =>
    .error (.unforeseen (.malformed (some header.offset) (.reported "empty string payload")))
  | some last =>
    if last ≠ 0 then
      .error (.refused
        (.malformed (some (header.offset + header.payload.length - 1)) .stringUnterminated))
    else
      match Utf8.decode body.dropLast with
      | .ok text => .ok text
      | .error valid =>
        .error (.refused (.malformed (some (header.offset + 4 + valid)) .stringNotText))

/-- The binary behind a length and a subtype. -/
def binary : Except Stop Scalar := do
  let subtype ← byteAt header.payload 4
  let content ← range header.payload 5 header.payload.length
  if subtype = oldBinary then do
    let front ← rest content 0
    let inner ← allow (int32At (header.offset + 5) front)
    if inner < 0 ∨ inner + 4 ≠ content.length then
      .error (.refused (.malformed (some (header.offset + 5)) (.innerLength inner)))
    else do
      let bytes ← range content 4 content.length
      .ok (.binary subtype bytes)
  else .ok (.binary subtype content)

/-- The value, given the reader of the fields of a container at a place. -/
def value (fieldsAt : Nat → Except Stop Document) : Except Stop Value :=
  match Kind.ofTag? header.tag with
  | none => .error (.unforeseen (.unsupportedType header.tag header.name))
  | some .null => .ok .null
  | some .bool => .scalar <$> header.truth
  | some .int32 => (fun word => .scalar (.int32 (Int32.ofNat (ofLittle word)))) <$> header.word 4
  | some .int64 => (fun word => .scalar (.int64 (Int64.ofNat (ofLittle word)))) <$> header.word 8
  | some .double => (fun word => .scalar (.double ⟨UInt64.ofNat (ofLittle word)⟩)) <$> header.word 8
  | some .decimal => (fun word => .scalar (.decimal (Decimal128.ofBytes word))) <$> header.word 16
  | some .string => (.scalar ∘ .string) <$> header.text
  | some .code => (.scalar ∘ .code) <$> header.text
  | some .symbol => (.scalar ∘ .symbol) <$> header.text
  | some .objectId =>
    (fun word => .scalar (.objectId (ObjectId.ofNat (ofLittle word)))) <$> header.word 12
  | some .binary => .scalar <$> header.binary
  | some .dateTime =>
    (fun word => .scalar (.dateTime (Int64.ofNat (ofLittle word)))) <$> header.word 8
  | some .timestamp =>
    (fun word => .scalar (.timestamp (UInt32.ofNat (ofLittle word / 0x100000000))
      (UInt32.ofNat (ofLittle word)))) <$> header.word 8
  | some .array => (fun fields => .array (fields.map (·.2))) <$> fieldsAt header.offset
  | some .document => .document <$> fieldsAt header.offset

/-- The field, given the reader of the fields of a container at a place. -/
def field (fieldsAt : Nat → Except Stop Document) : Except Stop (String × Value) := do
  let value ← header.value fieldsAt
  .ok (header.name, value)

end Header

/-- Where the elements of the container at a place start, and where its last byte is. -/
def boundsAt (buffer : Bytes) (start : Nat) : Except Stop (Nat × Nat) := do
  let front ← rest buffer start
  let length ← allow (documentLengthAt start front)
  if buffer.length < start + length then
    .error (.unforeseen
      (.malformed (some start) (.beyondBuffer length (buffer.length - start))))
  else do
    let last ← byteAt buffer (start + length - 1)
    if last ≠ 0 then
      .error (.refused (.malformed (some (start + length - 1)) .documentUnterminated))
    else .ok (start + 4, start + length - 1)

/-- What a visit of each element up to the last byte of a container gives. -/
def walk {α : Type} (visit : Header → Except Stop α) (buffer : Bytes) (stop : Nat) :
    (fuel place : Nat) → Except Stop (List α)
  | 0, place => if stop ≤ place then .ok [] else .error .endless
  | fuel + 1, place =>
    if stop ≤ place then .ok []
    else do
      let header ← headerAt buffer place stop
      let first ← visit header
      let others ← walk visit buffer stop fuel (header.offset + header.payload.length)
      .ok (first :: others)

/-- What a visit of each element of the container at a place gives. An element takes up at least one
byte. -/
def walkAt {α : Type} (visit : Header → Except Stop α) (buffer : Bytes) (start : Nat) :
    Except Stop (List α) := do
  let bounds ← boundsAt buffer start
  walk visit buffer bounds.2 (bounds.2 - bounds.1) bounds.1

/-- The fields of the container at a place. Its elements are told apart before any value is read. -/
def containerAt (fieldsAt : Nat → Except Stop Document) (buffer : Bytes) (start : Nat) :
    Except Stop Document := do
  let _ ← walkAt (fun _ => .ok ()) buffer start
  walkAt (Header.field · fieldsAt) buffer start

/-- The fields of the container at a place, with containers nested in it to `levels`. -/
def fieldsAt (buffer : Bytes) : (levels : Nat) → (start : Nat) → Except Stop Document
  | 0 => containerAt (fun offset => .error (.refused (.malformed (some offset) .tooDeep))) buffer
  | levels + 1 => containerAt (fieldsAt buffer levels) buffer

/-- The document that a buffer holds and fills. -/
def decode (bytes : Bytes) : Except Stop Document := do
  let front ← rest bytes 0
  let length ← allow (documentLengthAt 0 front)
  if length ≠ bytes.length then
    .error (.refused (.malformed (some 0) (.lengthMismatch length bytes.length)))
  else fieldsAt bytes (maxDepth - 1) 0

/-! ## Bytes that are there -/

variable {α β : Type} {bytes buffer : Bytes} {place start stop : Nat} {error : Error}

@[simp] theorem allow_ok (a : α) : allow (.ok a) = .ok a := rfl

@[simp] theorem allow_error (error : Error) :
    allow (.error error : Except Error α) = .error (.refused error) := rfl

theorem allow_bind (x : Except Error α) (f : α → Except Error β) :
    allow (x >>= f) = allow x >>= fun a => allow (f a) := by
  cases x <;> rfl

theorem allow_map (f : α → β) (x : Except Error α) : allow (f <$> x) = f <$> allow x := by
  cases x <;> rfl

/-- What is allowed for each item is allowed for all of them. -/
theorem mapM_eq_allow {f : α → Except Error β} {g : α → Except Stop β} {xs : List α}
    (h : ∀ x ∈ xs, g x = allow (f x)) : xs.mapM g = allow (xs.mapM f) := by
  induction xs with
  | nil => rfl
  | cons x xs ih =>
    obtain ⟨hx, hxs⟩ := List.forall_mem_cons.1 h
    rw [List.mapM_cons, List.mapM_cons, allow_bind, hx, ih hxs]
    simp only [allow_bind]
    rfl

theorem byteAt_of_lt (h : place < bytes.length) : byteAt bytes place = .ok bytes[place] := by
  simp only [byteAt, List.getElem?_eq_getElem h]

theorem range_of_le {first : Nat} (hfirst : first ≤ stop) (hstop : stop ≤ bytes.length) :
    range bytes first stop = .ok ((bytes.drop first).take (stop - first)) :=
  if_pos ⟨hfirst, hstop⟩

theorem range_to_end {first : Nat} (h : first ≤ bytes.length) :
    range bytes first bytes.length = .ok (bytes.drop first) := by
  rw [range_of_le h (Nat.le_refl _), List.take_of_length_le (by rw [List.length_drop])]

theorem rest_eq (bytes : Bytes) (place : Nat) : rest bytes place = .ok (bytes.drop place) := by
  rw [rest, range_to_end (Nat.min_le_right _ _)]
  rcases Nat.le_total place bytes.length with hle | hge
  · rw [Nat.min_eq_left hle]
  · rw [Nat.min_eq_right hge, List.drop_of_length_le (Nat.le_refl _), List.drop_of_length_le hge]

theorem room_le (hstop : stop ≤ buffer.length) (place : Nat) :
    stop - place ≤ (buffer.drop place).length := by
  rw [List.length_drop]
  omega

/-! ## Telling elements apart -/

/-- An element, with all that is told of it. -/
def Header.ofElement (e : Element) : Header :=
  ⟨e.kind.tag, e.name, e.offset, e.payload⟩

/-- A name ends at the first NUL byte of the room that is left, if there is one. -/
theorem findIdx?_take {room : Nat} (h : room ≤ bytes.length) :
    (bytes.take room).findIdx? (· == 0) =
      if (bytes.takeWhile (· != 0)).length < room then some (bytes.takeWhile (· != 0)).length
      else none := by
  induction bytes generalizing room with
  | nil =>
    obtain rfl : room = 0 := Nat.le_zero.1 h
    rfl
  | cons b bytes ih =>
    cases room with
    | zero => rfl
    | succ room =>
      rw [List.take_succ_cons, List.findIdx?_cons, List.takeWhile_cons]
      by_cases hb : b = 0
      · simp [hb]
      · rw [ih (Nat.le_of_succ_le_succ h)]
        by_cases hroom : (bytes.takeWhile (· != 0)).length < room <;> simp [hb, hroom]

/-- **An element is told apart from bytes that are there.** -/
theorem headerAt_eq (hplace : place < stop) (hstop : stop ≤ buffer.length) :
    headerAt buffer place stop =
      allow (Header.ofElement <$> elementAt buffer[place] (place + 1) (stop - (place + 1))
        (buffer.drop (place + 1))) := by
  have hroom := room_le hstop (place + 1)
  unfold headerAt elementAt nameAt
  rw [byteAt_of_lt (Nat.lt_of_lt_of_le hplace hstop), Steps.ok_bind, range_of_le hplace hstop,
    Steps.ok_bind, findIdx?_take hroom]
  simp only
  by_cases hname : ((buffer.drop (place + 1)).takeWhile (· != 0)).length < stop - (place + 1)
  · have hnames : range buffer (place + 1)
        (place + 1 + ((buffer.drop (place + 1)).takeWhile (· != 0)).length) =
        .ok ((buffer.drop (place + 1)).takeWhile (· != 0)) := by
      rw [range_of_le (by omega) (by omega), Nat.add_sub_cancel_left,
        ← List.prefix_iff_eq_take.1 (List.takeWhile_prefix _)]
    rw [if_pos hname, if_pos hname]
    simp only [hnames, Steps.ok_bind]
    generalize (buffer.drop (place + 1)).takeWhile (· != 0) = name at hname
    cases Utf8.decode name with
    | error valid => rfl
    | ok text =>
      simp only [Steps.ok_bind]
      cases hkind : Kind.ofTag? buffer[place] with
      | none => rfl
      | some kind =>
        simp only [rest_eq, Steps.ok_bind, List.drop_drop]
        rw [Nat.add_assoc (place + 1)]
        cases valueSize kind (place + 1 + (name.length + 1))
            (buffer.drop (place + 1 + (name.length + 1))) with
        | error error => rfl
        | ok size =>
          simp only [allow_ok, Steps.ok_bind]
          by_cases hover : stop < place + 1 + (name.length + 1) + size
          · rw [if_pos hover, if_pos (by omega)]
            rfl
          · rw [if_neg hover, if_neg (by omega), range_of_le (by omega) (by omega),
              Steps.ok_bind, Nat.add_sub_cancel_left, ← Kind.tag_of_ofTag? hkind]
            rfl
  · rw [if_neg hname, if_neg hname]
    rfl

/-! ## Walking over a container -/

/-- What stands behind the name of an element is the buffer from the place of its value on. -/
theorem bytes_of_elementAt {tag : UInt8} {room : Nat} {e : Element}
    (hroom : room ≤ (buffer.drop place).length)
    (he : elementAt tag place room (buffer.drop place) = .ok e) :
    e.bytes = buffer.drop e.offset := by
  obtain ⟨-, -, -, hoffset, -, hbytes⟩ := layout_of_elementAt hroom he
  rw [hoffset, ← List.drop_drop, hbytes]
  simp

/-- The walk over the elements, told by places. -/
theorem elementsFrom_succ {fuel : Nat} (hplace : place < stop) (hstop : stop ≤ buffer.length) :
    elementsFrom (fuel + 1) place (stop - place) (buffer.drop place) =
      elementAt buffer[place] (place + 1) (stop - (place + 1)) (buffer.drop (place + 1)) >>=
        fun e => elementsFrom fuel (e.offset + e.size) (stop - (e.offset + e.size))
          (buffer.drop (e.offset + e.size)) >>= fun others => .ok (e :: others) := by
  have hroom := room_le hstop (place + 1)
  rw [show stop - place = stop - (place + 1) + 1 by omega,
    List.drop_eq_getElem_cons (Nat.lt_of_lt_of_le hplace hstop), elementsFrom]
  cases he : elementAt buffer[place] (place + 1) (stop - (place + 1))
      (buffer.drop (place + 1)) with
  | error error => rfl
  | ok e =>
    simp only [Steps.ok_bind, bytes_of_elementAt hroom he, List.drop_drop]
    rw [show place + 1 + (stop - (place + 1)) = stop by omega]

theorem walk_succ {α : Type} {visit : Header → Except Stop α} {fuel : Nat} (hplace : place < stop)
    (hstop : stop ≤ buffer.length) :
    walk visit buffer stop (fuel + 1) place =
      allow (elementAt buffer[place] (place + 1) (stop - (place + 1))
        (buffer.drop (place + 1))) >>= fun e => visit (.ofElement e) >>= fun first =>
          walk visit buffer stop fuel (e.offset + e.size) >>= fun others =>
            .ok (first :: others) := by
  have hroom := room_le hstop (place + 1)
  rw [walk, if_neg (Nat.not_le.2 hplace), headerAt_eq hplace hstop, allow_map]
  cases he : elementAt buffer[place] (place + 1) (stop - (place + 1))
      (buffer.drop (place + 1)) with
  | error error => rfl
  | ok e =>
    obtain ⟨hmeasured, -⟩ := layout_of_elementAt hroom he
    simp only [allow_ok, Steps.map_ok, Steps.ok_bind, Header.ofElement,
      hmeasured.length_payload]

/-- **Elements that are told apart are visited one by one.** -/
theorem walk_of_elements {α : Type} {visit : Header → Except Stop α} {fuel : Nat}
    {es : List Element} (hstop : stop ≤ buffer.length) (hfuel : stop - place ≤ fuel)
    (h : elementsFrom fuel place (stop - place) (buffer.drop place) = .ok es) :
    walk visit buffer stop fuel place = es.mapM (fun e => visit (.ofElement e)) ∧
      ∀ e ∈ es, e.bytes = buffer.drop e.offset := by
  induction fuel generalizing place es with
  | zero =>
    cases h
    rw [walk, if_pos (by omega)]
    exact ⟨rfl, nofun⟩
  | succ fuel ih =>
    by_cases hplace : place < stop
    · have hroom := room_le hstop (place + 1)
      rw [elementsFrom_succ hplace hstop] at h
      obtain ⟨e, he, h⟩ := Steps.bind_eq_ok.1 h
      obtain ⟨others, hothers, h⟩ := Steps.bind_eq_ok.1 h
      cases h
      obtain ⟨hfirst, -⟩ := rest_of_elementAt hroom he
      obtain ⟨hwalk, hbytes⟩ := ih (by omega) hothers
      refine ⟨?_, List.forall_mem_cons.2 ⟨bytes_of_elementAt hroom he, hbytes⟩⟩
      rw [walk_succ hplace hstop, he, allow_ok, Steps.ok_bind, hwalk, List.mapM_cons]
      rfl
    · rw [show stop - place = 0 by omega] at h
      cases h
      rw [walk, if_pos (Nat.not_lt.1 hplace)]
      exact ⟨rfl, nofun⟩

/-- **Elements that cannot be told apart** are refused by a walk that only tells them apart. -/
theorem walk_of_refused {fuel : Nat} (hstop : stop ≤ buffer.length) (hfuel : stop - place ≤ fuel)
    (h : elementsFrom fuel place (stop - place) (buffer.drop place) = .error error) :
    walk (fun _ => .ok ()) buffer stop fuel place = .error (.refused error) := by
  induction fuel generalizing place with
  | zero => cases h
  | succ fuel ih =>
    by_cases hplace : place < stop
    · have hroom := room_le hstop (place + 1)
      rw [elementsFrom_succ hplace hstop] at h
      rw [walk_succ hplace hstop]
      rcases Steps.bind_eq_error.1 h with he | ⟨e, he, h⟩
      · rw [he]
        rfl
      · obtain ⟨hfirst, -⟩ := rest_of_elementAt hroom he
        rcases Steps.bind_eq_error.1 h with hothers | ⟨others, -, hdone⟩
        · rw [he, allow_ok, Steps.ok_bind, Steps.ok_bind, ih (by omega) hothers]
          rfl
        · cases hdone
    · rw [show stop - place = 0 by omega] at h
      cases h

/-- The container at a place is no longer than the buffer, if it tells its length at all. -/
def Fits (buffer : Bytes) (start : Nat) : Prop :=
  ∀ length, documentLengthAt start (buffer.drop start) = .ok length →
    start + length ≤ buffer.length

/-- A container that fits is refused by its length or its last byte, or its elements are those
between the two. -/
theorem boundsAt_cases (hfits : Fits buffer start) :
    (∃ error, boundsAt buffer start = .error (.refused error) ∧
      elementsAt start (buffer.drop start) = .error error) ∨
    ∃ stop, stop ≤ buffer.length ∧ boundsAt buffer start = .ok (start + 4, stop) ∧
      elementsAt start (buffer.drop start) =
        elementsFrom (stop - (start + 4)) (start + 4) (stop - (start + 4))
          (buffer.drop (start + 4)) := by
  unfold boundsAt elementsAt
  rw [rest_eq, Steps.ok_bind]
  cases hlength : documentLengthAt start (buffer.drop start) with
  | error error => exact .inl ⟨error, rfl, rfl⟩
  | ok length =>
    have hfit := hfits length hlength
    have hmin := (little_of_documentLengthAt hlength).1
    simp only [minDocumentLength] at hmin
    have hlast : start + length - 1 < buffer.length := by omega
    have hget : (buffer.drop start)[length - 1]? = some buffer[start + length - 1] := by
      rw [List.getElem?_drop, ← Nat.add_sub_assoc (by omega), List.getElem?_eq_getElem hlast]
    simp only [allow_ok, Steps.ok_bind, if_neg (Nat.not_lt.2 hfit), byteAt_of_lt hlast, hget]
    by_cases hzero : buffer[start + length - 1] = 0
    · refine .inr ⟨start + length - 1, by omega, ?_, ?_⟩
      · rw [if_neg (not_not_intro hzero)]
      · rw [if_neg (not_not_intro hzero), List.drop_drop, minDocumentLength,
          show start + length - 1 - (start + 4) = length - 5 by omega]
    · refine .inl ⟨.malformed (some (start + length - 1)) .documentUnterminated, ?_, ?_⟩
      · rw [if_pos hzero]
      · rw [if_pos hzero]

theorem walkAt_of_elements {α : Type} (visit : Header → Except Stop α) {es : List Element}
    (hfits : Fits buffer start) (h : elementsAt start (buffer.drop start) = .ok es) :
    walkAt visit buffer start = es.mapM (fun e => visit (.ofElement e)) ∧
      ∀ e ∈ es, e.bytes = buffer.drop e.offset := by
  rcases boundsAt_cases hfits with ⟨error, -, herror⟩ | ⟨stop, hstop, hbounds, helements⟩
  · rw [herror] at h
    cases h
  · rw [helements] at h
    rw [walkAt, hbounds, Steps.ok_bind]
    exact walk_of_elements hstop (Nat.le_refl _) h

theorem walkAt_of_refused (hfits : Fits buffer start)
    (h : elementsAt start (buffer.drop start) = .error error) :
    walkAt (fun _ => .ok ()) buffer start = .error (.refused error) := by
  rcases boundsAt_cases hfits with ⟨found, hbounds, herror⟩ | ⟨stop, hstop, hbounds, helements⟩
  · rw [herror] at h
    cases h
    rw [walkAt, hbounds, Steps.error_bind]
  · rw [helements] at h
    rw [walkAt, hbounds, Steps.ok_bind]
    exact walk_of_refused hstop (Nat.le_refl _) h

/-! ## Values -/

namespace Header

variable {e : Element}

/-- A value of `width` bytes has them. -/
theorem word_eq (he : e.Measured) {width : Nat} (hsize : e.size = width) :
    (ofElement e).word width = .ok e.payload := by
  have hlength : e.payload.length = width := he.length_payload.trans hsize
  simp only [word, ofElement, hlength, Nat.le_refl, if_true]
  rw [List.take_of_length_le (Nat.le_of_eq hlength)]

theorem truth_eq (he : e.Measured) (hsize : e.size = 1) :
    (ofElement e).truth = allow (boolValue e.offset e.payload) := by
  obtain ⟨b, hb⟩ := List.length_eq_one_iff.1 (he.length_payload.trans hsize)
  simp only [truth, ofElement, hb]
  rw [byteAt_of_lt (by simp), Steps.ok_bind, List.getElem_cons_zero]
  by_cases hzero : b = 0
  · subst hzero
    rfl
  · by_cases hone : b = 1
    · subst hone
      rfl
    · rw [if_neg hzero, if_neg hone]
      simp [boolValue, hzero, hone]

/-- A text has at least the NUL byte at its end. -/
theorem text_eq (he : e.Measured) (hsize : 5 ≤ e.size) :
    (ofElement e).text = allow (stringValue e.offset e.payload) := by
  have hlength := he.length_payload
  have hne : e.payload.drop 4 ≠ [] := by
    apply List.length_pos_iff.1
    rw [List.length_drop]
    omega
  simp only [text, ofElement, stringValue]
  rw [range_to_end (by omega), Steps.ok_bind, List.getLast?_eq_some_getLast hne]
  simp only [ne_eq, Option.some.injEq]
  split
  · rfl
  · cases Utf8.decode (e.payload.drop 4).dropLast <;> rfl

/-- A binary has at least its subtype. -/
theorem binary_eq (he : e.Measured) (hsize : 5 ≤ e.size) :
    (ofElement e).binary = allow (binaryValue e.offset e.payload) := by
  have hlength := he.length_payload
  have hlt : 4 < e.payload.length := by omega
  simp only [binary, ofElement, binaryValue]
  rw [byteAt_of_lt hlt, range_to_end (by omega), List.drop_eq_getElem_cons hlt]
  simp only [Steps.ok_bind, rest_eq, List.drop_zero]
  split
  · rw [allow_bind]
    cases int32At (e.offset + 5) (e.payload.drop 5) with
    | error error => rfl
    | ok inner =>
      simp only [allow_ok, Steps.ok_bind]
      split
      · rfl
      · rename_i hinner
        rw [range_to_end (by omega)]
        rfl
  · rfl

/-- **An element that was told apart has all the bytes that its kind asks for.** -/
theorem value_eq (he : e.Measured) {inner : Nat → Bytes → Except Error Document}
    {guarded : Nat → Except Stop Document}
    (hinner : e.kind = .array ∨ e.kind = .document →
      guarded e.offset = allow (inner e.offset e.bytes)) :
    (ofElement e).value guarded = allow (e.value inner) := by
  have hsize := he.size_eq
  have htag : Kind.ofTag? (ofElement e).tag = some e.kind := Kind.ofTag?_tag e.kind
  unfold value Element.value
  rw [htag]
  cases hkind : e.kind <;> simp only [hkind, valueSize, Except.ok.injEq] at hsize hinner ⊢
  case null => rfl
  case bool => rw [truth_eq he hsize.symm, allow_map]
  case int32 | int64 | double | decimal | objectId | dateTime | timestamp =>
    rw [word_eq he hsize.symm]
    rfl
  case string | code | symbol => rw [text_eq he (least_le_of_size hsize), allow_map]
  case binary => rw [binary_eq he (least_le_of_size hsize), allow_map]
  case array =>
    rw [show (ofElement e).offset = e.offset from rfl, hinner (.inl trivial)]
    cases inner e.offset e.bytes <;> rfl
  case document =>
    rw [show (ofElement e).offset = e.offset from rfl, hinner (.inr trivial), allow_map]

theorem field_eq (he : e.Measured) {inner : Nat → Bytes → Except Error Document}
    {guarded : Nat → Except Stop Document}
    (hinner : e.kind = .array ∨ e.kind = .document →
      guarded e.offset = allow (inner e.offset e.bytes)) :
    (ofElement e).field guarded = allow (e.field inner) := by
  rw [field, value_eq he hinner, Element.field, allow_bind]
  rfl

end Header

/-! ## Containers -/

/-- A container that was told apart as an element fits into the buffer. -/
theorem fits_of_measured {e : Element} (he : e.Measured) (hbytes : e.bytes = buffer.drop e.offset)
    (hkind : e.kind = .array ∨ e.kind = .document) : Fits buffer e.offset := by
  intro length hlength
  have hsize : documentLengthAt e.offset e.bytes = .ok e.size := by
    rw [← he.size_eq]
    rcases hkind with hkind | hkind <;> rw [hkind] <;> rfl
  rw [← hbytes, hsize] at hlength
  cases hlength
  have hmin := (little_of_documentLengthAt hsize).1
  have hle := he.size_le
  rw [hbytes, List.length_drop] at hle
  simp only [minDocumentLength] at hmin
  omega

/-- **A container is read by places as it is read from the bytes there**, if the containers inside
it are. -/
theorem containerAt_eq {inner : Nat → Bytes → Except Error Document}
    {guarded : Nat → Except Stop Document} (hfits : Fits buffer start)
    (hinner : ∀ offset, Fits buffer offset →
      guarded offset = allow (inner offset (buffer.drop offset))) :
    containerAt guarded buffer start =
      allow (elementsAt start (buffer.drop start) >>= fun es =>
        es.mapM (Element.field inner)) := by
  cases hes : elementsAt start (buffer.drop start) with
  | error error =>
    rw [containerAt, walkAt_of_refused hfits hes]
    rfl
  | ok es =>
    obtain ⟨hcount, hbytes⟩ := walkAt_of_elements (fun _ => .ok ()) hfits hes
    obtain ⟨hfields, -⟩ := walkAt_of_elements (Header.field · guarded) hfits hes
    have hall : ∀ e ∈ es, (Header.ofElement e).field guarded = allow (e.field inner) := by
      intro e he
      have hmeasured := ((layout_of_elementsAt hes).2.2.2 e he).1
      apply Header.field_eq hmeasured
      intro hkind
      rw [hinner _ (fits_of_measured hmeasured (hbytes e he) hkind), hbytes e he]
    have hpure : es.mapM (fun _ => (.ok () : Except Stop Unit)) = .ok (es.map fun _ => ()) :=
      List.mapM_pure
    rw [containerAt, hcount, hpure, Steps.ok_bind, hfields, Steps.ok_bind, mapM_eq_allow hall]

/-- **Both readers agree on a container**, with containers nested in it to any number of levels. -/
theorem fieldsAt_eq (levels : Nat) (hfits : Fits buffer start) :
    fieldsAt buffer levels start = allow (Wire.fieldsAt levels start (buffer.drop start)) := by
  induction levels generalizing start with
  | zero =>
    rw [Wire.fieldsAt_eq]
    exact containerAt_eq hfits fun _ _ => rfl
  | succ levels ih =>
    rw [Wire.fieldsAt_eq]
    exact containerAt_eq hfits fun _ hoffset => ih hoffset

/-- **Both readers agree on a buffer.** -/
theorem decode_eq (bytes : Bytes) : decode bytes = allow (Document.decode bytes) := by
  unfold decode Document.decode
  rw [rest_eq, Steps.ok_bind, List.drop_zero, allow_bind]
  cases hlength : documentLengthAt 0 bytes with
  | error error => rfl
  | ok length =>
    simp only [allow_ok, Steps.ok_bind]
    split
    · rfl
    · rename_i hfull
      have hfits : Fits bytes 0 := by
        intro declared hdeclared
        rw [List.drop_zero, hlength] at hdeclared
        cases hdeclared
        omega
      rw [fieldsAt_eq _ hfits, List.drop_zero]

end Guarded

/-! ## Numbers that are cut off -/

variable {e : Element} {at? : Option Nat} {width : Nat}

theorem boolValue_ne_truncated {offset : Nat} {b : UInt8} :
    boolValue offset [b] ≠ .error (.malformed at? (.truncated width)) := by
  intro h
  unfold boolValue at h
  split at h <;> cases h
  contradiction

theorem stringValue_ne_truncated {offset : Nat} {payload : Bytes} :
    stringValue offset payload ≠ .error (.malformed at? (.truncated width)) := by
  intro h
  unfold stringValue at h
  simp only at h
  split at h
  · cases h
  · split at h <;> cases h

theorem truncated_binaryValue_iff (he : e.Measured) (hsize : 5 ≤ e.size) :
    binaryValue e.offset e.payload = .error (.malformed at? (.truncated width)) ↔
      e.payload[4]? = some oldBinary ∧ e.size < 9 ∧ at? = some (e.offset + 5) ∧ width = 4 := by
  have hlength := he.length_payload
  have hlt : 4 < e.payload.length := by omega
  have hcontent : (e.payload.drop 5).length < 4 ↔ e.size < 9 := by
    rw [List.length_drop]
    omega
  rw [binaryValue, List.drop_eq_getElem_cons hlt, List.getElem?_eq_getElem hlt, Option.some_inj]
  simp only
  by_cases hold : e.payload[4] = oldBinary
  · rw [if_pos hold, Steps.bind_eq_error, int32At_eq_error_iff, hcontent]
    constructor
    · rintro (⟨hshort, hinner⟩ | ⟨inner, -, hinner⟩)
      · cases hinner
        exact ⟨hold, hshort, rfl, rfl⟩
      · split at hinner <;> cases hinner
    · rintro ⟨-, hshort, rfl, rfl⟩
      exact .inl ⟨hshort, rfl⟩
  · simp [hold]

/-- **The value of an element that was told apart is cut off in one place only**: an old binary may
be too short for the length that it repeats. -/
theorem truncated_value_iff (he : e.Measured) (harray : e.kind ≠ .array)
    (hdocument : e.kind ≠ .document) {inner : Nat → Bytes → Except Error Document} :
    e.value inner = .error (.malformed at? (.truncated width)) ↔
      e.kind = .binary ∧ e.payload[4]? = some oldBinary ∧ e.size < 9 ∧
        at? = some (e.offset + 5) ∧ width = 4 := by
  have hsize := he.size_eq
  unfold Element.value
  cases hkind : e.kind <;> simp only [hkind, valueSize] at hsize ⊢
  case array => exact absurd hkind harray
  case document => exact absurd hkind hdocument
  case binary =>
    rw [Steps.map_eq_error, truncated_binaryValue_iff he (least_le_of_size hsize)]
    simp
  case bool =>
    obtain ⟨b, hb⟩ := List.length_eq_one_iff.1 (he.length_payload.trans (Except.ok.inj hsize).symm)
    simp [Steps.map_eq_error, hb, boolValue_ne_truncated]
  case string | code | symbol => simp [Steps.map_eq_error, stringValue_ne_truncated]
  all_goals simp

end Wire

namespace Document

/-- **Reading keeps to the buffer.**  No byte and no range of bytes is taken that is not there, and
no check fails that repeats what was settled before, except that an old binary may be too short for
the length that it repeats.  Whatever is refused is a tag that stands for no kind, or is found in
the buffer. -/
theorem decode_keeps_to_the_buffer (bytes : Bytes) :
    Wire.Guarded.decode bytes = (decode bytes).mapError .refused ∧
      (∀ error, decode bytes = .error error →
        (∃ tag field, error = .unsupportedType tag field ∧ ∀ kind : Kind, kind.tag ≠ tag) ∨
        ∃ offset fault, error = .malformed (some offset) fault ∧
          (offset < bytes.length ∨ bytes = [] ∧ offset = 0)) ∧
      ∀ (start : Nat) (es : List Wire.Element), Wire.elementsAt start (bytes.drop start) = .ok es →
        ∀ e ∈ es, e.kind ≠ .array → e.kind ≠ .document →
          ∀ (inner : Nat → Bytes → Except Error Document) (at? : Option Nat) (width : Nat),
            e.value inner = .error (.malformed at? (.truncated width)) ↔
              e.kind = .binary ∧ e.payload[4]? = some Wire.oldBinary ∧ e.size < 9 ∧
                at? = some (e.offset + 5) ∧ width = 4 := by
  refine ⟨Wire.Guarded.decode_eq bytes, ?_, ?_⟩
  · intro error herror
    by_cases hbytes : bytes = []
    · subst hbytes
      cases herror
      exact .inr ⟨0, _, rfl, .inr ⟨rfl, rfl⟩⟩
    · have hfound := foundIn_of_decode hbytes herror
      rcases hfound.cases with ⟨tag, field, rfl⟩ | ⟨offset, fault, rfl, -, hlt⟩
      · refine .inl ⟨tag, field, rfl, ?_⟩
        rintro kind rfl
        rw [Error.FoundIn, Kind.ofTag?_tag] at hfound
        cases hfound
      · exact .inr ⟨offset, fault, rfl, .inl hlt⟩
  · intro start es hes e he harray hdocument inner at? width
    have hmeasured := ((Wire.layout_of_elementsAt hes).2.2.2 e he).1
    exact Wire.truncated_value_iff hmeasured harray hdocument

/-- An old binary of two bytes is refused behind its subtype, where the length of its content should
stand once more. -/
theorem decode_keeps_to_short_old_binary :
    ∃ (bytes : Bytes) (e : Wire.Element) (error : Error),
      bytes = [15, 0, 0, 0, 5, 98, 0, 2, 0, 0, 0, 2, 7, 7, 0] ∧
      error = .malformed (some 12) (.truncated 4) ∧
      Wire.Guarded.decode bytes = .error (.refused error) ∧ decode bytes = .error error ∧
      (12 < bytes.length ∨ bytes = [] ∧ 12 = 0) ∧
      Wire.elementsAt 0 (bytes.drop 0) = .ok [e] ∧ e ∈ [e] ∧ e.kind ≠ .array ∧
      e.kind ≠ .document ∧ e.value (Wire.innerAt 0) = .error error := by
  obtain ⟨hguarded, hfound, hvalues⟩ :=
    decode_keeps_to_the_buffer [15, 0, 0, 0, 5, 98, 0, 2, 0, 0, 0, 2, 7, 7, 0]
  have hinside : 12 < 15 ∨ ([15, 0, 0, 0, 5, 98, 0, 2, 0, 0, 0, 2, 7, 7, 0] : Bytes) = [] ∧
      12 = 0 := by
    rcases hfound (.malformed (some 12) (.truncated 4)) rfl with
      ⟨tag, field, herror, -⟩ | ⟨offset, fault, herror, hinside⟩
    · cases herror
    · cases herror
      exact hinside
  have hvalue := (hvalues 0 _ rfl _ List.mem_cons_self nofun nofun (Wire.innerAt 0) (some 12) 4).2
    ⟨rfl, rfl, by decide, rfl, rfl⟩
  exact ⟨_, _, _, rfl, rfl, hguarded, rfl, hinside, rfl, List.mem_cons_self, nofun, nofun, hvalue⟩

/-- An old binary without content is told apart as an element, and then found to be cut off. -/
theorem old_binary_without_content_is_cut_off :
    (∃ e, Wire.elementsAt 0 [13, 0, 0, 0, 5, 98, 0, 0, 0, 0, 0, 2, 0] = .ok [e] ∧
      ∀ inner, e.value inner = .error (.malformed (some 12) (.truncated 4))) ∧
    decode [13, 0, 0, 0, 5, 98, 0, 0, 0, 0, 0, 2, 0] =
      .error (.malformed (some 12) (.truncated 4)) ∧
    (Error.malformed (some 12) (.truncated 4)).message =
      "malformed document at byte 12: truncated input: expected 4 bytes" :=
  ⟨⟨_, rfl, fun _ => rfl⟩, rfl, rfl⟩

end Document

end DocTable
