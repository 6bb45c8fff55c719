import DocTable.Proofs.Wire.Form
import DocTable.Proofs.Wire.Scalar
import Mathlib.Data.List.TakeWhile

/-!
# Elements on the wire

The walk over the elements of a container tells them apart exactly as they were laid out.

* `elementAt_header` and `layout_of_elementAt` — one element, in both directions.
* `elementsAt_containerBytes` — the elements of a laid out container are found one by one, whatever
  stands behind the container.
* `layout_of_elementsAt` — elements that are found fill their container without a gap, up to its
  last byte, which is NUL.

A container is walked with fuel equal to its room.  Every element takes at least two bytes, so the
fuel never decides anything; both directions carry `room ≤ fuel`.
-/

set_option autoImplicit false

namespace DocTable

/-! ## Kinds and names -/

@[simp] theorem Kind.ofTag?_tag (kind : Kind) : Kind.ofTag? kind.tag = some kind := by
  cases kind <;> rfl

theorem Kind.tag_of_ofTag? {tag : UInt8} {kind : Kind} (h : Kind.ofTag? tag = some kind) :
    kind.tag = tag := by
  simpa using List.find?_some h

namespace Wire

theorem nameFits_iff {name : String} : nameFits name = true ↔ 0 ∉ Utf8.bytes name := by
  simp [nameFits]

theorem takeWhile_name {name rest : Bytes} (h : (0 : UInt8) ∉ name) :
    (name ++ 0 :: rest).takeWhile (· != 0) = name := by
  have hname : ∀ b ∈ name, (b != 0) = true := fun b hb => by
    have : b ≠ 0 := fun h0 => h (h0 ▸ hb)
    simpa using this
  rw [List.takeWhile_append_of_pos hname]
  simp

/-- Bytes in front of the first NUL byte, when there is one. -/
theorem eq_takeWhile_append {bytes : Bytes} (h : (bytes.takeWhile (· != 0)).length < bytes.length) :
    bytes = bytes.takeWhile (· != 0) ++
      0 :: bytes.drop ((bytes.takeWhile (· != 0)).length + 1) := by
  induction bytes with
  | nil => simp at h
  | cons b bytes ih =>
    by_cases hb : b = 0
    · simp [hb]
    · have hb' : (b != 0) = true := by simpa using hb
      simp only [List.takeWhile_cons, hb', if_true, List.length_cons,
        Nat.add_lt_add_iff_right] at h ⊢
      rw [List.drop_succ_cons, List.cons_append, ← ih h]

theorem nameAt_name {name : String} (hfit : nameFits name = true) {room : Nat}
    (hroom : (Utf8.bytes name).length < room) (offset : Nat) (rest : Bytes) :
    nameAt offset room (Utf8.bytes name ++ 0 :: rest) =
      .ok (name, (Utf8.bytes name).length + 1) := by
  unfold nameAt
  simp only [takeWhile_name (nameFits_iff.1 hfit), if_pos hroom, Utf8.decode_bytes]

theorem name_of_nameAt {offset room skipped : Nat} {bytes : Bytes} {name : String}
    (hroom : room ≤ bytes.length) (h : nameAt offset room bytes = .ok (name, skipped)) :
    nameFits name = true ∧ skipped = (Utf8.bytes name).length + 1 ∧ skipped ≤ room ∧
      bytes = Utf8.bytes name ++ 0 :: bytes.drop skipped := by
  unfold nameAt at h
  simp only at h
  split at h
  · rename_i hlt
    split at h
    · rename_i text htext
      cases h
      have hbytes := Utf8.bytes_of_decode htext
      have hsplit := eq_takeWhile_append (Nat.lt_of_lt_of_le hlt hroom)
      rw [← hbytes] at hsplit hlt
      refine ⟨?_, by rw [hbytes], by rw [← hbytes]; exact hlt, by rw [← hbytes]; exact hsplit⟩
      rw [nameFits_iff, hbytes]
      intro h0
      simpa using List.mem_takeWhile_imp h0
    · cases h
  · cases h

/-! ## One element -/

/-- The bytes that an element takes up. -/
def Element.layout (e : Element) : Bytes :=
  headerBytes e.kind e.name ++ e.payload

theorem elementAt_header {kind : Kind} {name : String} {offset room size : Nat} {value : Bytes}
    (hfit : nameFits name = true)
    (hsize : valueSize kind (offset + ((Utf8.bytes name).length + 1)) value = .ok size)
    (hroom : (Utf8.bytes name).length + 1 + size ≤ room) :
    elementAt kind.tag offset room (Utf8.bytes name ++ 0 :: value) =
      .ok ⟨kind, name, offset + ((Utf8.bytes name).length + 1), size, value⟩ := by
  have hdrop : (Utf8.bytes name ++ 0 :: value).drop ((Utf8.bytes name).length + 1) = value := by
    simp
  unfold elementAt
  rw [nameAt_name hfit (by omega), Steps.ok_bind]
  simp only [Kind.ofTag?_tag, hdrop, hsize, Steps.ok_bind]
  rw [if_neg (by omega)]

theorem layout_of_elementAt {tag : UInt8} {offset room : Nat} {bytes : Bytes} {e : Element}
    (hroom : room ≤ bytes.length) (h : elementAt tag offset room bytes = .ok e) :
    e.Measured ∧ nameFits e.name = true ∧ e.kind.tag = tag ∧
      e.offset = offset + ((Utf8.bytes e.name).length + 1) ∧
      (Utf8.bytes e.name).length + 1 + e.size ≤ room ∧
      bytes = Utf8.bytes e.name ++ 0 :: e.bytes := by
  obtain ⟨⟨name, skipped⟩, hname, h⟩ := Steps.bind_eq_ok.1 h
  obtain ⟨hfit, hskipped, hle, hbytes⟩ := name_of_nameAt hroom hname
  simp only at h
  split at h
  · cases h
  · rename_i kind hkind
    obtain ⟨size, hsize, h⟩ := Steps.bind_eq_ok.1 h
    split at h
    · cases h
    · rename_i hover
      cases h
      have hsize_le : size ≤ (bytes.drop skipped).length := by
        rw [List.length_drop]
        omega
      have hroom_le : (Utf8.bytes name).length + 1 + size ≤ room := by omega
      exact ⟨⟨hsize, hsize_le⟩, hfit, Kind.tag_of_ofTag? hkind, by rw [hskipped], hroom_le, hbytes⟩

/-! ## All elements of a container -/

/-- The elements of a container whose first one starts at `offset`, with `tail` behind them. -/
def Form.elements (tail : Bytes) (offset : Nat) : List (String × Form) → List Element
  | [] => []
  | (name, f) :: fields =>
    let start := offset + (headerBytes f.kind name).length
    ⟨f.kind, name, start, f.bytes.length, f.bytes ++ (elementBytes fields ++ tail)⟩ ::
      elements tail (start + f.bytes.length) fields

theorem documentLengthAt_little {n : Nat} (hmin : minDocumentLength ≤ n) (hn : n < 2 ^ 31)
    (offset : Nat) (rest : Bytes) : documentLengthAt offset (little 4 n ++ rest) = .ok n := by
  unfold documentLengthAt
  rw [int32At_little hn, Steps.ok_bind, if_neg (by exact_mod_cast Nat.not_lt.2 hmin),
    Int.toNat_natCast]

theorem little_of_documentLengthAt {offset n : Nat} {bytes : Bytes}
    (h : documentLengthAt offset bytes = .ok n) :
    minDocumentLength ≤ n ∧ n < 2 ^ 31 ∧ bytes.take 4 = little 4 n := by
  obtain ⟨length, hlength, h⟩ := Steps.bind_eq_ok.1 h
  split at h
  · cases h
  · rename_i hmin
    have hn : length = (n : Int) := by
      have := Except.ok.inj h
      have hpos : (0 : Int) ≤ minDocumentLength := Int.natCast_nonneg _
      omega
    subst hn
    exact ⟨by exact_mod_cast Int.not_lt.1 hmin, little_of_int32At hlength⟩

theorem documentLengthAt_containerBytes {elements : Bytes}
    (h : (containerBytes elements).length < 2 ^ 31) (offset : Nat) (tail : Bytes) :
    documentLengthAt offset (containerBytes elements ++ tail) =
      .ok (containerBytes elements).length := by
  rw [Form.length_containerBytes] at h ⊢
  rw [containerBytes, List.append_assoc, List.append_assoc]
  exact documentLengthAt_little (Nat.le_add_left _ _) h offset _

/-- The bytes of a form tell their own number, whatever follows them. -/
theorem valueSize_bytes {f : Form} (h : f.bytes.length < 2 ^ 31) (offset : Nat) (rest : Bytes) :
    valueSize f.kind offset (f.bytes ++ rest) = .ok f.bytes.length := by
  cases f with
  | scalar s => exact valueSize_scalarBytes h offset rest
  | array items => exact documentLengthAt_containerBytes h offset rest
  | document fields => exact documentLengthAt_containerBytes h offset rest

/-- One element more in front of others. -/
theorem elementsFrom_header {kind : Kind} {name : String} {fuel offset size left : Nat}
    {value : Bytes} (hfit : nameFits name = true)
    (hsize : valueSize kind (offset + (headerBytes kind name).length) value = .ok size) :
    elementsFrom (fuel + 1) offset ((headerBytes kind name).length + size + left)
        (headerBytes kind name ++ value) =
      elementsFrom fuel (offset + (headerBytes kind name).length + size) left (value.drop size) >>=
        fun rest => .ok (⟨kind, name, offset + (headerBytes kind name).length, size, value⟩ ::
          rest) := by
  have hheader := Form.length_headerBytes kind name
  have hstart : offset + (headerBytes kind name).length =
      offset + 1 + ((Utf8.bytes name).length + 1) := by omega
  have hroom : (headerBytes kind name).length + size + left =
      (Utf8.bytes name).length + 1 + size + left + 1 := by omega
  have hleft : offset + 1 + ((Utf8.bytes name).length + 1 + size + left) -
      (offset + 1 + ((Utf8.bytes name).length + 1) + size) = left := by omega
  have hbytes : headerBytes kind name ++ value = kind.tag :: (Utf8.bytes name ++ 0 :: value) := by
    simp [headerBytes]
  rw [hstart] at hsize ⊢
  rw [hbytes, hroom, elementsFrom, elementAt_header hfit hsize (by omega), Steps.ok_bind]
  simp only [hleft]

theorem elementsFrom_elementBytes {fields : List (String × Form)}
    (hfit : Form.FieldNamesFit fields) (hlen : (Form.elementBytes fields).length < 2 ^ 31)
    {fuel : Nat} (hfuel : (Form.elementBytes fields).length ≤ fuel) (offset : Nat) (tail : Bytes) :
    elementsFrom fuel offset (Form.elementBytes fields).length (Form.elementBytes fields ++ tail) =
      .ok (Form.elements tail offset fields) := by
  induction fields generalizing fuel offset with
  | nil => cases fuel <;> rfl
  | cons field fields ih =>
    obtain ⟨name, f⟩ := field
    obtain ⟨hname, -, hfits⟩ := hfit
    have hlength : (Form.elementBytes ((name, f) :: fields)).length =
        (headerBytes f.kind name).length + f.bytes.length + (Form.elementBytes fields).length := by
      simp only [Form.elementBytes, List.length_append]
    have hheader := Form.length_headerBytes f.kind name
    obtain ⟨fuel, rfl⟩ : ∃ k, fuel = k + 1 := ⟨fuel - 1, by omega⟩
    have hsize := valueSize_bytes (f := f) (by omega) (offset + (headerBytes f.kind name).length)
      (Form.elementBytes fields ++ tail)
    rw [hlength, Form.elementBytes, List.append_assoc, List.append_assoc,
      elementsFrom_header hname hsize, List.drop_left, ih hfits (by omega) (by omega),
      Steps.ok_bind, Form.elements]

/-- The elements of a container are looked for between its length and the NUL at its end. -/
theorem elementsAt_containerBytes_append {elements : Bytes}
    (hlen : (containerBytes elements).length < 2 ^ 31) (offset : Nat) (tail : Bytes) :
    elementsAt offset (containerBytes elements ++ tail) =
      elementsFrom elements.length (offset + 4) elements.length (elements ++ 0 :: tail) := by
  have hlast : (containerBytes elements ++ tail)[(containerBytes elements).length - 1]? =
      some 0 := by
    rw [List.getElem?_append_left (by rw [Form.length_containerBytes]; simp [minDocumentLength]),
      ← List.getLast?_eq_getElem?, containerBytes, List.getLast?_concat]
  have hdrop : (containerBytes elements ++ tail).drop 4 = elements ++ 0 :: tail := by
    rw [containerBytes, List.append_assoc, List.append_assoc,
      List.drop_left' (length_little _ _)]
    rfl
  have hroom : (containerBytes elements).length - minDocumentLength = elements.length := by
    rw [Form.length_containerBytes, Nat.add_sub_cancel]
  unfold elementsAt
  rw [documentLengthAt_containerBytes hlen, Steps.ok_bind]
  simp only [hlast, ne_eq, not_true, if_false, hdrop, hroom]

/-- **The elements of a laid out container are found one by one.** -/
theorem elementsAt_containerBytes {fields : List (String × Form)}
    (hfit : Form.FieldNamesFit fields)
    (hlen : (containerBytes (Form.elementBytes fields)).length < 2 ^ 31) (offset : Nat)
    (tail : Bytes) :
    elementsAt offset (containerBytes (Form.elementBytes fields) ++ tail) =
      .ok (Form.elements (0 :: tail) (offset + 4) fields) := by
  rw [elementsAt_containerBytes_append hlen]
  rw [Form.length_containerBytes] at hlen
  exact elementsFrom_elementBytes hfit (by omega) (Nat.le_refl _) _ _

theorem layout_of_elementsFrom {fuel offset room : Nat} {bytes : Bytes} {es : List Element}
    (hfuel : room ≤ fuel) (hroom : room ≤ bytes.length)
    (h : elementsFrom fuel offset room bytes = .ok es) :
    bytes.take room = es.flatMap Element.layout ∧
      ∀ e ∈ es, e.Measured ∧ nameFits e.name = true := by
  induction fuel generalizing offset room bytes es with
  | zero =>
    cases h
    obtain rfl : room = 0 := Nat.le_zero.1 hfuel
    simp
  | succ fuel ih =>
    match room, bytes, hroom with
    | 0, _, _ =>
      cases h
      simp
    | room + 1, tag :: bytes, hroom =>
      rw [List.length_cons] at hroom
      obtain ⟨e, he, h⟩ := Steps.bind_eq_ok.1 h
      obtain ⟨rest, hrest, h⟩ := Steps.bind_eq_ok.1 h
      cases h
      obtain ⟨hmeasured, hfit, htag, hoffset, hle, hbytes⟩ := layout_of_elementAt (by omega) he
      have hlength : bytes.length = (Utf8.bytes e.name).length + 1 + e.bytes.length := by
        conv_lhs => rw [hbytes]
        simp only [List.length_append, List.length_cons]
        omega
      -- what is left of the room behind this element
      obtain ⟨left, hleft⟩ : ∃ left, room = (Utf8.bytes e.name).length + 1 + e.size + left :=
        ⟨room - ((Utf8.bytes e.name).length + 1 + e.size), by omega⟩
      have hstop : offset + 1 + room - (e.offset + e.size) = left := by omega
      rw [hstop] at hrest
      obtain ⟨htake, hall⟩ := ih (by omega) (by rw [List.length_drop]; omega) hrest
      refine ⟨?_, ?_⟩
      · rw [List.flatMap_cons, ← htake, Element.layout, Element.payload, headerBytes, htag,
          List.take_succ_cons]
        conv_lhs => rw [hbytes]
        rw [hleft, Nat.add_assoc, Nat.add_assoc, List.take_append,
          List.take_of_length_le (by omega),
          Nat.add_sub_cancel_left, Nat.add_comm 1, List.take_succ_cons, List.take_add]
        simp
      · intro d hd
        rcases List.mem_cons.1 hd with rfl | hd
        · exact ⟨hmeasured, hfit⟩
        · exact hall d hd

/-- A length, so many bytes behind it and a NUL after them make up a container. -/
theorem eq_containerBytes_append {room : Nat} {bytes elements : Bytes}
    (hlittle : bytes.take 4 = little 4 (room + minDocumentLength))
    (htake : (bytes.drop 4).take room = elements) (hroom : elements.length = room)
    (hget : bytes[4 + room]? = some 0) :
    bytes = containerBytes elements ++ bytes.drop (4 + room + 1) := by
  obtain ⟨hlt, hzero⟩ := List.getElem?_eq_some_iff.1 hget
  have hsplit : bytes.drop (4 + room) = 0 :: bytes.drop (4 + room + 1) := by
    rw [List.drop_eq_getElem_cons hlt, hzero]
  rw [containerBytes, hroom, ← hlittle, ← htake, List.append_assoc, List.append_assoc,
    List.singleton_append, ← hsplit, ← List.drop_drop, List.take_append_drop,
    List.take_append_drop]

/-- **Elements that are found fill their container**, from the first byte behind its length to the
last one before the NUL at its end. -/
theorem layout_of_elementsAt {offset : Nat} {bytes : Bytes} {es : List Element}
    (h : elementsAt offset bytes = .ok es) :
    (∃ tail, bytes = containerBytes (es.flatMap Element.layout) ++ tail) ∧
      documentLengthAt offset bytes = .ok (containerBytes (es.flatMap Element.layout)).length ∧
      (containerBytes (es.flatMap Element.layout)).length < 2 ^ 31 ∧
      ∀ e ∈ es, e.Measured ∧ nameFits e.name = true := by
  obtain ⟨length, hlength, h⟩ := Steps.bind_eq_ok.1 h
  obtain ⟨hmin, hlt, hlittle⟩ := little_of_documentLengthAt hlength
  split at h
  · cases h
  · rename_i last hlast
    split at h
    · cases h
    · rename_i hzero
      obtain rfl : last = 0 := not_ne_iff.1 hzero
      have hle : length - 1 < bytes.length := (List.getElem?_eq_some_iff.1 hlast).1
      obtain ⟨room, rfl⟩ : ∃ room, length = room + minDocumentLength :=
        ⟨length - minDocumentLength, by omega⟩
      simp only [minDocumentLength] at hle hlast
      rw [Nat.add_sub_cancel] at h
      obtain ⟨htake, hall⟩ := layout_of_elementsFrom (Nat.le_refl room)
        (by rw [List.length_drop]; omega) h
      have hroom : (es.flatMap Element.layout).length = room := by
        rw [← htake, List.length_take, List.length_drop]
        omega
      have hget : bytes[4 + room]? = some 0 := by
        rw [← hlast]
        congr 1
        omega
      have hbytes := eq_containerBytes_append hlittle htake hroom hget
      rw [Form.length_containerBytes, hroom]
      exact ⟨⟨_, hbytes⟩, hlength, hlt, hall⟩

end Wire

end DocTable
