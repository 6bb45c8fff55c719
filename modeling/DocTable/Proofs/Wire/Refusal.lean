import DocTable.Proofs.Wire.Container

/-!
# Where a fault is found

Whatever keeps a buffer from being read is found inside the buffer: lengths and names are read
without regard to the end of their container, but never behind the end of the buffer.

* `Error.FoundIn` — the error names an offset in a range, or a tag that stands for no kind.
* `Element.LiesIn` — the value of an element that was told apart lies in the buffer, and at least
  one more byte behind it.
* `foundIn_value` and `foundIn_fieldsAt` — the faults of a value are found in it, by induction on
  the levels of containers.
* `Document.foundIn_of_decode` — the faults of a buffer are found in the buffer.
-/

set_option autoImplicit false

namespace DocTable

/-- The error names an offset from `first` on and before `stop`, or a tag that stands for no
kind. -/
def Error.FoundIn (first stop : Nat) : Error → Prop
  | .malformed (some offset) _ => first ≤ offset ∧ offset < stop
  | .unsupportedType tag _ => Kind.ofTag? tag = none
  | _ => False

namespace Error.FoundIn

theorem mono {first stop first' stop' : Nat} {error : Error} (h : error.FoundIn first stop)
    (hfirst : first' ≤ first) (hstop : stop ≤ stop') : error.FoundIn first' stop' := by
  unfold FoundIn at h ⊢
  split at h
  · exact ⟨Nat.le_trans hfirst h.1, Nat.lt_of_lt_of_le h.2 hstop⟩
  · exact h
  · exact h.elim

theorem cases {first stop : Nat} {error : Error} (h : error.FoundIn first stop) :
    (∃ tag field, error = .unsupportedType tag field) ∨
      ∃ offset fault, error = .malformed (some offset) fault ∧ first ≤ offset ∧ offset < stop := by
  unfold FoundIn at h
  split at h
  · exact .inr ⟨_, _, rfl, h⟩
  · exact .inl ⟨_, _, rfl⟩
  · exact h.elim

theorem ne_exhausted {first stop : Nat} {error : Error} (h : error.FoundIn first stop) :
    error ≠ .exhausted := by
  rintro rfl
  exact h

/-- An error of a document that starts at offset `base` is moved along with the document. -/
theorem rebased {first stop : Nat} {error : Error} (base : Nat) (h : error.FoundIn first stop) :
    (error.rebased base).FoundIn (base + first) (base + stop) := by
  unfold FoundIn at h
  split at h
  · obtain ⟨hfirst, hstop⟩ := h
    simp only [Error.rebased, FoundIn]
    omega
  · exact h
  · exact h.elim

end Error.FoundIn

namespace Wire

variable {offset room : Nat} {bytes : Bytes} {error : Error}

/-! ## Lengths and names -/

theorem foundIn_int32At (h : int32At offset bytes = .error error) :
    error.FoundIn offset (offset + 1) := by
  unfold int32At at h
  split at h
  · cases h
  · cases h
    exact ⟨Nat.le_refl _, Nat.lt_succ_self _⟩

/-- A length is refused where it stands, be it missing or too small. -/
theorem foundIn_checkedLength {α : Type} {least : Int} {fault : Int → Fault} {size : Int → α}
    (h : (do
      let length ← int32At offset bytes
      if length < least then .error (.malformed (some offset) (fault length))
      else .ok (size length)) = .error error) : error.FoundIn offset (offset + 1) := by
  rcases Steps.bind_eq_error.1 h with hlength | ⟨length, -, hleast⟩
  · exact foundIn_int32At hlength
  · split at hleast
    · cases hleast
      exact ⟨Nat.le_refl _, Nat.lt_succ_self _⟩
    · cases hleast

theorem foundIn_documentLengthAt (h : documentLengthAt offset bytes = .error error) :
    error.FoundIn offset (offset + 1) :=
  foundIn_checkedLength h

theorem foundIn_valueSize {kind : Kind} (h : valueSize kind offset bytes = .error error) :
    error.FoundIn offset (offset + 1) := by
  cases kind with
  | null | bool | int32 | int64 | double | decimal | objectId | dateTime | timestamp => cases h
  | string | code | symbol | binary => exact foundIn_checkedLength h
  | array | document => exact foundIn_documentLengthAt h

theorem foundIn_nameAt (h : nameAt offset room bytes = .error error) :
    error.FoundIn offset (offset + room + 1) := by
  unfold nameAt at h
  simp only at h
  split at h
  · rename_i hroom
    split at h
    · cases h
    · rename_i valid hvalid
      have hlt := Utf8.lt_of_decode_eq_error hvalid
      cases h
      simp only [Error.FoundIn]
      omega
  · cases h
    simp only [Error.FoundIn]
    omega

/-! ## Elements -/

theorem foundIn_elementAt {tag : UInt8} (hroom : room ≤ bytes.length)
    (h : elementAt tag offset room bytes = .error error) :
    error.FoundIn offset (offset + room + 1) := by
  rcases Steps.bind_eq_error.1 h with hname | ⟨⟨name, skipped⟩, hname, h⟩
  · exact foundIn_nameAt hname
  · obtain ⟨-, -, hskipped, -⟩ := name_of_nameAt hroom hname
    simp only at h
    split at h
    · rename_i hkind
      cases h
      exact hkind
    · rcases Steps.bind_eq_error.1 h with hsize | ⟨size, -, hover⟩
      · exact (foundIn_valueSize hsize).mono (by omega) (by omega)
      · split at hover
        · cases hover
          simp only [Error.FoundIn]
          omega
        · cases hover

/-- What the walk over a container does behind an element that was told apart: the rest of the
room starts where the value ends. -/
theorem rest_of_elementAt {tag : UInt8} {e : Element} (hroom : room ≤ bytes.length)
    (he : elementAt tag offset room bytes = .ok e) :
    offset ≤ e.offset ∧ e.offset + e.size ≤ offset + room ∧
      e.offset + e.bytes.length = offset + bytes.length := by
  obtain ⟨-, -, -, hoffset, hsize, hbytes⟩ := layout_of_elementAt hroom he
  have hlength := congrArg List.length hbytes
  simp only [List.length_append, List.length_cons] at hlength
  omega

theorem foundIn_elementsFrom {fuel : Nat} (hroom : room ≤ bytes.length)
    (h : elementsFrom fuel offset room bytes = .error error) :
    error.FoundIn offset (offset + room + 1) := by
  induction fuel generalizing offset room bytes with
  | zero => cases h
  | succ fuel ih =>
    match room, bytes, hroom with
    | 0, _, _ => cases h
    | room + 1, tag :: bytes, hroom =>
      rw [List.length_cons] at hroom
      rcases Steps.bind_eq_error.1 h with he | ⟨e, he, h⟩
      · exact (foundIn_elementAt (by omega) he).mono (by omega) (by omega)
      · obtain ⟨hfirst, hstop, hlength⟩ := rest_of_elementAt (by omega) he
        rcases Steps.bind_eq_error.1 h with hrest | ⟨rest, -, h⟩
        · have hleft : offset + 1 + room - (e.offset + e.size) ≤
              (e.bytes.drop e.size).length := by
            rw [List.length_drop]
            omega
          exact (ih hleft hrest).mono (by omega) (by omega)
        · cases h

theorem foundIn_elementsAt (hbytes : bytes ≠ []) (h : elementsAt offset bytes = .error error) :
    error.FoundIn offset (offset + bytes.length) := by
  have hpositive := List.length_pos_iff.2 hbytes
  rcases Steps.bind_eq_error.1 h with hlength | ⟨length, hlength, h⟩
  · exact (foundIn_documentLengthAt hlength).mono (by omega) (by omega)
  · have hmin := (little_of_documentLengthAt hlength).1
    simp only [minDocumentLength] at hmin
    split at h
    · cases h
      simp only [Error.FoundIn]
      omega
    · rename_i last hlast
      have hle := (List.getElem?_eq_some_iff.1 hlast).1
      split at h
      · cases h
        simp only [Error.FoundIn]
        omega
      · simp only [minDocumentLength] at h
        have hroom : length - 5 ≤ (bytes.drop 4).length := by
          rw [List.length_drop]
          omega
        exact (foundIn_elementsFrom hroom h).mono (by omega) (by omega)

/-- The value of an element starts at `first` or behind it, and a buffer that ends at `stop` holds
it and at least one more byte. -/
structure Element.LiesIn (first stop : Nat) (e : Element) : Prop where
  first_le : first ≤ e.offset
  stop_eq : e.offset + e.bytes.length = stop
  size_lt : e.size < e.bytes.length

theorem liesIn_of_elementsFrom {fuel : Nat} {es : List Element} (hroom : room < bytes.length)
    (h : elementsFrom fuel offset room bytes = .ok es) :
    ∀ e ∈ es, e.LiesIn offset (offset + bytes.length) := by
  induction fuel generalizing offset room bytes es with
  | zero =>
    cases h
    simp
  | succ fuel ih =>
    match room, bytes, hroom with
    | 0, _, _ =>
      cases h
      simp
    | room + 1, tag :: bytes, hroom =>
      rw [List.length_cons] at hroom ⊢
      obtain ⟨e, he, h⟩ := Steps.bind_eq_ok.1 h
      obtain ⟨rest, hrest, h⟩ := Steps.bind_eq_ok.1 h
      cases h
      obtain ⟨hfirst, hstop, hlength⟩ := rest_of_elementAt (by omega) he
      intro d hd
      rcases List.mem_cons.1 hd with rfl | hd
      · exact ⟨by omega, by omega, by omega⟩
      · have hleft : offset + 1 + room - (e.offset + e.size) < (e.bytes.drop e.size).length := by
          rw [List.length_drop]
          omega
        have hlies := ih hleft hrest d hd
        have hstop' := hlies.stop_eq
        rw [List.length_drop] at hstop'
        exact ⟨by have := hlies.first_le; omega, by omega, hlies.size_lt⟩

theorem liesIn_of_elementsAt {es : List Element} (h : elementsAt offset bytes = .ok es) :
    ∀ e ∈ es, e.LiesIn offset (offset + bytes.length) := by
  obtain ⟨length, hlength, h⟩ := Steps.bind_eq_ok.1 h
  have hmin := (little_of_documentLengthAt hlength).1
  simp only [minDocumentLength] at hmin h
  split at h
  · cases h
  · rename_i last hlast
    have hle := (List.getElem?_eq_some_iff.1 hlast).1
    split at h
    · cases h
    · have hroom : length - 5 < (bytes.drop 4).length := by
        rw [List.length_drop]
        omega
      intro e he
      have hlies := liesIn_of_elementsFrom hroom h e he
      have hstop := hlies.stop_eq
      rw [List.length_drop] at hstop
      exact ⟨by have := hlies.first_le; omega, by omega, hlies.size_lt⟩

/-! ## Values -/

variable {e : Element} {first stop : Nat}

theorem foundIn_stringValue (hlies : e.LiesIn first stop) (he : e.Measured) (hsize : 4 ≤ e.size)
    (h : stringValue e.offset e.payload = .error error) : error.FoundIn e.offset stop := by
  have hlength := he.length_payload
  have hstop := hlies.stop_eq
  have hlt := hlies.size_lt
  unfold stringValue at h
  simp only at h
  split at h
  · cases h
    simp only [Error.FoundIn]
    omega
  · split at h
    · cases h
    · rename_i valid hvalid
      have hvalid := Utf8.lt_of_decode_eq_error hvalid
      rw [List.length_dropLast, List.length_drop] at hvalid
      cases h
      simp only [Error.FoundIn]
      omega

theorem foundIn_binaryValue (hlies : e.LiesIn first stop) (hsize : 5 ≤ e.size)
    (h : binaryValue e.offset e.payload = .error error) : error.FoundIn e.offset stop := by
  have hstop := hlies.stop_eq
  have hlt := hlies.size_lt
  unfold binaryValue at h
  split at h
  · cases h
    simp only [Error.FoundIn]
    omega
  · split at h
    · rcases Steps.bind_eq_error.1 h with hinner | ⟨inner, -, hfits⟩
      · exact (foundIn_int32At hinner).mono (by omega) (by omega)
      · split at hfits
        · cases hfits
          simp only [Error.FoundIn]
          omega
        · cases hfits
    · cases h

theorem foundIn_boolValue (hlies : e.LiesIn first stop) {payload : Bytes}
    (h : boolValue e.offset payload = .error error) : error.FoundIn e.offset stop := by
  have hstop := hlies.stop_eq
  have hlt := hlies.size_lt
  unfold boolValue at h
  split at h <;> cases h <;> simp only [Error.FoundIn] <;> omega

/-- **The faults of a value are found in the value**, provided that those of the containers inside
it are. -/
theorem foundIn_value {inner : Nat → Bytes → Except Error Document} (hlies : e.LiesIn first stop)
    (he : e.Measured)
    (hinner : ∀ error, inner e.offset e.bytes = .error error → error.FoundIn e.offset stop)
    (h : e.value inner = .error error) : error.FoundIn e.offset stop := by
  have hsize := he.size_eq
  unfold Element.value at h
  cases hkind : e.kind <;> simp only [hkind] at h hsize
  case null | int32 | int64 | double | decimal | objectId | dateTime | timestamp => cases h
  case bool => exact foundIn_boolValue hlies (Steps.map_eq_error.1 h)
  case string | code | symbol =>
    obtain ⟨n, hn, -⟩ := length_of_size (by decide) hsize
    exact foundIn_stringValue hlies he (by omega) (Steps.map_eq_error.1 h)
  case binary =>
    obtain ⟨n, hn, -⟩ := length_of_size (by decide) hsize
    exact foundIn_binaryValue hlies (by omega) (Steps.map_eq_error.1 h)
  case array =>
    rcases Steps.bind_eq_error.1 h with hfields | ⟨fields, -, hdone⟩
    · exact hinner error hfields
    · cases hdone
  case document => exact hinner error (Steps.map_eq_error.1 h)

/-! ## Containers -/

/-- Whatever keeps a container from being read with `levels` is found in the buffer. -/
def FaultsFoundIn (levels : Nat) : Prop :=
  ∀ (offset : Nat) (bytes : Bytes) (error : Error), bytes ≠ [] →
    fieldsAt levels offset bytes = .error error → error.FoundIn offset (offset + bytes.length)

theorem foundIn_innerAt {levels : Nat} (ih : ∀ l, levels = l + 1 → FaultsFoundIn l)
    (hbytes : bytes ≠ []) (h : innerAt levels offset bytes = .error error) :
    error.FoundIn offset (offset + bytes.length) := by
  cases levels with
  | zero =>
    have hpositive := List.length_pos_iff.2 hbytes
    cases h
    simp only [Error.FoundIn]
    omega
  | succ l => exact ih l rfl offset bytes error hbytes h

theorem foundIn_fieldsAt_step {levels : Nat} (ih : ∀ l, levels = l + 1 → FaultsFoundIn l) :
    FaultsFoundIn levels := by
  intro offset bytes error hbytes h
  rw [fieldsAt_eq] at h
  rcases Steps.bind_eq_error.1 h with hes | ⟨es, hes, h⟩
  · exact foundIn_elementsAt hbytes hes
  · obtain ⟨e, hmem, h⟩ := Steps.exists_of_mapM_eq_error h
    have hlies := liesIn_of_elementsAt hes e hmem
    have hmeasured := ((layout_of_elementsAt hes).2.2.2 e hmem).1
    rcases Steps.bind_eq_error.1 h with hvalue | ⟨value, -, hdone⟩
    · have hne : e.bytes ≠ [] :=
        List.length_pos_iff.1 (Nat.lt_of_le_of_lt (Nat.zero_le _) hlies.size_lt)
      have hfound : error.FoundIn e.offset (offset + bytes.length) := by
        apply foundIn_value hlies hmeasured _ hvalue
        intro error herror
        rw [← hlies.stop_eq]
        exact foundIn_innerAt ih hne herror
      exact hfound.mono hlies.first_le (Nat.le_refl _)
    · cases hdone

/-- **The faults of a container are found in the buffer.** -/
theorem foundIn_fieldsAt (levels : Nat) : FaultsFoundIn levels := by
  induction levels with
  | zero => exact foundIn_fieldsAt_step fun l hl => absurd hl (Nat.succ_ne_zero l).symm
  | succ levels ih => exact foundIn_fieldsAt_step fun l hl => by cases hl; exact ih

end Wire

/-- **The faults of a buffer are found in the buffer**, unless there is no byte at which they could
be. -/
theorem Document.foundIn_of_decode {bytes : Bytes} {error : Error} (hbytes : bytes ≠ [])
    (h : decode bytes = .error error) : error.FoundIn 0 bytes.length := by
  have hpositive := List.length_pos_iff.2 hbytes
  rcases Steps.bind_eq_error.1 h with hlength | ⟨length, -, h⟩
  · exact (Wire.foundIn_documentLengthAt hlength).mono (Nat.le_refl _) hpositive
  · split at h
    · cases h
      exact ⟨Nat.le_refl _, hpositive⟩
    · have hfound := Wire.foundIn_fieldsAt _ 0 bytes error hbytes h
      rwa [Nat.zero_add] at hfound

end DocTable
