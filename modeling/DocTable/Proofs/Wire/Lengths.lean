import DocTable.Proofs.Wire.Locality
import Mathlib.Algebra.Group.Int.Defs

/-!
# Lengths on the wire

Containers, texts and binaries are announced by their length, written in four bytes that are read as a
signed number. A length that does not fit is written as its low bytes, so it is read as another one.

* `Form.lengths` — the lengths in a layout: where each stands, and the bytes that it announces.
* `Form.standsIn_of_mem_lengths` — each of them, and what it announces, is found there in the buffer.
* `Length.StandsIn.isTrueIn_iff` — which lengths are read as what they announce.
* `Document.decode_of_overlong` — a document with too long a layout is refused for its own length.
* `Document.lengths_true_iff` — the lengths of a document are true if it is short enough as a whole.
* `Document.lengths_of_encode` — what the lengths of a written document are read as, whether they are
  true, and whether it is read back.
-/

set_option autoImplicit false

namespace DocTable

namespace Wire

/-! ## The lengths in a layout -/

/-- A length on the wire. -/
structure Length where
  /-- Where its four bytes stand. -/
  place : Nat
  /-- Where the bytes start that it announces; a container's length is among these. -/
  start : Nat
  announced : Bytes

/-- The length in front of a scalar that starts at `place`: of a text with its NUL, of a binary
without its subtype. The content of an old binary is announced a second time. -/
def scalarLengths (place : Nat) : Scalar → List Length
  | .string s | .code s | .symbol s => [⟨place, place + 4, Utf8.bytes s ++ [0]⟩]
  | .binary subtype content =>
    if subtype = oldBinary then
      [⟨place, place + 5, little 4 content.length ++ content⟩, ⟨place + 5, place + 9, content⟩]
    else [⟨place, place + 5, content⟩]
  | _ => []

namespace Form

mutual

/-- The lengths in the bytes of a form that start at `place`. -/
def lengths (place : Nat) : Form → List Length
  | scalar s => scalarLengths place s
  | array items =>
    ⟨place, place, containerBytes (elementBytes items)⟩ :: elementLengths (place + 4) items
  | document fields =>
    ⟨place, place, containerBytes (elementBytes fields)⟩ :: elementLengths (place + 4) fields

/-- The lengths in the bytes of elements that start at `place`. -/
def elementLengths (place : Nat) : List (String × Form) → List Length
  | [] => []
  | (name, f) :: fields =>
    let value := place + (headerBytes f.kind name).length
    lengths value f ++ elementLengths (value + f.bytes.length) fields

end

end Form

/-! ## Lengths in their buffer -/

/-- The length is written in its place, and the bytes that it announces are in theirs. -/
structure Length.StandsIn (l : Length) (buffer : Bytes) : Prop where
  written : slice buffer l.place 4 = little 4 l.announced.length
  announced : slice buffer l.start l.announced.length = l.announced

theorem slice_of_eq {buffer : Bytes} {start length : Nat} (before middle after : Bytes)
    (hbuffer : buffer = before ++ (middle ++ after)) (hstart : start = before.length)
    (hlength : length = middle.length) : slice buffer start length = middle := by
  subst hbuffer hstart hlength
  rw [slice, List.drop_left, List.take_left]

/-- A length with what stands between it and what it announces. -/
theorem standsIn_of_eq {place start : Nat} {announced buffer : Bytes}
    (before between after : Bytes)
    (hbuffer : buffer = before ++ (little 4 announced.length ++ (between ++ (announced ++ after))))
    (hplace : place = before.length) (hstart : start = before.length + 4 + between.length) :
    Length.StandsIn ⟨place, start, announced⟩ buffer := by
  refine ⟨slice_of_eq before _ _ hbuffer hplace (length_little 4 _).symm, ?_⟩
  refine slice_of_eq (before ++ (little 4 announced.length ++ between)) _ after ?_ ?_ rfl
  · rw [hbuffer, List.append_assoc, List.append_assoc]
  · rw [hstart, List.length_append, List.length_append, length_little, Nat.add_assoc]

theorem standsIn_string (text : String) (before after : Bytes) :
    Length.StandsIn ⟨before.length, before.length + 4, Utf8.bytes text ++ [0]⟩
      (before ++ (stringBytes text ++ after)) :=
  standsIn_of_eq before [] after (by simp [stringBytes]) rfl rfl

theorem standsIn_of_mem_scalarLengths {s : Scalar} {before after : Bytes} {l : Length}
    (h : l ∈ scalarLengths before.length s) : l.StandsIn (before ++ (scalarBytes s ++ after)) := by
  cases s with
  | string text | code text | symbol text =>
    cases List.mem_singleton.1 h
    exact standsIn_string text before after
  | binary subtype content =>
    rw [scalarLengths] at h
    rw [scalarBytes, binaryBytes]
    split at h
    · rename_i hold
      rw [if_pos hold]
      rcases List.mem_pair.1 h with rfl | rfl
      · exact standsIn_of_eq before [subtype] after (by simp [Nat.add_comm 4]) rfl rfl
      · exact standsIn_of_eq (before ++ (little 4 (content.length + 4) ++ [subtype])) [] after
          (by simp) (by simp) (by simp)
    · rename_i hnew
      rw [if_neg hnew]
      cases List.mem_singleton.1 h
      exact standsIn_of_eq before [subtype] after (by simp) rfl rfl
  | _ => cases h

namespace Form

/-- A container announces itself, its length included. -/
theorem standsIn_container (elements before after : Bytes) :
    Length.StandsIn ⟨before.length, before.length, containerBytes elements⟩
      (before ++ (containerBytes elements ++ after)) := by
  refine ⟨?_, slice_of_eq before _ after rfl rfl rfl⟩
  refine slice_of_eq before _ (elements ++ ([0] ++ after)) ?_ rfl (length_little 4 _).symm
  rw [length_containerBytes, containerBytes]
  simp

mutual

/-- **Every length stands in its place**, in front of what it announces, whatever is around the form. -/
theorem standsIn_of_mem_lengths : ∀ (f : Form) (before after : Bytes),
    ∀ l ∈ f.lengths before.length, l.StandsIn (before ++ (f.bytes ++ after))
  | scalar s, before, after, l, h => standsIn_of_mem_scalarLengths h
  | array items, before, after, l, h => standsIn_of_mem_containerLengths items before after l h
  | document fields, before, after, l, h =>
    standsIn_of_mem_containerLengths fields before after l h

theorem standsIn_of_mem_containerLengths : ∀ (fields : List (String × Form)) (before after : Bytes),
    ∀ l ∈ (⟨before.length, before.length, containerBytes (elementBytes fields)⟩ : Length) ::
        elementLengths (before.length + 4) fields,
      l.StandsIn (before ++ (containerBytes (elementBytes fields) ++ after))
  | fields, before, after, l, h => by
    rcases List.mem_cons.1 h with rfl | h
    · exact standsIn_container _ before after
    · have hinner := standsIn_of_mem_elementLengths fields
        (before ++ little 4 ((elementBytes fields).length + minDocumentLength)) ([0] ++ after) l
        (by simpa using h)
      simpa [containerBytes] using hinner

theorem standsIn_of_mem_elementLengths : ∀ (fields : List (String × Form)) (before after : Bytes),
    ∀ l ∈ elementLengths before.length fields, l.StandsIn (before ++ (elementBytes fields ++ after))
  | [], _, _, _, h => by cases h
  | (name, f) :: fields, before, after, l, h => by
    rw [elementLengths, List.mem_append] at h
    rcases h with h | h
    · have hvalue := standsIn_of_mem_lengths f (before ++ headerBytes f.kind name)
        (elementBytes fields ++ after) l (by simpa using h)
      simpa [elementBytes] using hvalue
    · have hrest := standsIn_of_mem_elementLengths fields
        (before ++ (headerBytes f.kind name ++ f.bytes)) after l (by simpa [Nat.add_assoc] using h)
      simpa [elementBytes] using hrest

end

end Form

theorem Length.StandsIn.length_le {l : Length} {buffer : Bytes} (h : l.StandsIn buffer) :
    l.announced.length ≤ buffer.length := by
  have hlength := congrArg List.length h.announced
  rw [slice, List.length_take, List.length_drop] at hlength
  omega

/-! ## Reading lengths -/

/-- The length is read as the number of bytes that it announces. -/
def Length.IsTrueIn (l : Length) (buffer : Bytes) : Prop :=
  int32At l.place (buffer.drop l.place) = .ok (l.announced.length : Int)

namespace Length.StandsIn

variable {l : Length} {buffer : Bytes}

theorem int32At_eq (h : l.StandsIn buffer) :
    int32At l.place (buffer.drop l.place) = .ok ((l.announced.length : Int).bmod (2 ^ 32)) := by
  have hwritten : (buffer.drop l.place).take 4 = little 4 l.announced.length := h.written
  rw [← List.take_append_drop 4 (buffer.drop l.place), hwritten]
  exact int32At_little_bmod _ _ _

/-- A length is true if it fits in four bytes with a sign, and not else. -/
theorem isTrueIn_iff (h : l.StandsIn buffer) :
    l.IsTrueIn buffer ↔ l.announced.length < 2 ^ 31 := by
  rw [IsTrueIn, h.int32At_eq, Except.ok.injEq, Int.bmod]
  split <;> omega

end Length.StandsIn

end Wire

namespace Document

open Wire

/-- The lengths in the layout of a document. -/
def lengths (doc : Document) : List Length :=
  (Form.ofValue (.document doc)).lengths 0

theorem standsIn_of_mem_lengths {doc : Document} {l : Length} (h : l ∈ doc.lengths) :
    l.StandsIn doc.layout := by
  have hstands := Form.standsIn_of_mem_lengths (Form.ofValue (.document doc)) [] [] l h
  rwa [List.nil_append, List.append_nil] at hstands

/-- The first of the lengths announces the whole document. -/
theorem exists_lengths_eq (doc : Document) :
    ∃ inner, doc.lengths = ⟨0, 0, doc.layout⟩ :: inner :=
  ⟨_, rfl⟩

/-- **A document that is too long is refused**, for the number that is left of its length. -/
theorem decode_of_overlong {doc : Document} (hlength : 2 ^ 31 ≤ doc.layout.length) :
    decode doc.layout = .error (.malformed (some 0)
      (if (doc.layout.length : Int).bmod (2 ^ 32) < minDocumentLength then
        .documentLength ((doc.layout.length : Int).bmod (2 ^ 32))
      else .lengthMismatch ((doc.layout.length : Int).bmod (2 ^ 32)).toNat doc.layout.length)) := by
  obtain ⟨inner, hinner⟩ := exists_lengths_eq doc
  have hstands := standsIn_of_mem_lengths (hinner ▸ List.mem_cons_self)
  have hread : int32At 0 doc.layout = .ok ((doc.layout.length : Int).bmod (2 ^ 32)) :=
    hstands.int32At_eq
  have hlt : (doc.layout.length : Int).bmod (2 ^ 32) < 2 ^ 31 := by
    rw [Int.bmod]
    split <;> omega
  unfold decode documentLengthAt
  rw [hread, Steps.ok_bind]
  split
  · rfl
  · rw [Steps.ok_bind, if_pos (by omega)]

/-- All lengths of a document are true if it is short enough as a whole, and not else. -/
theorem lengths_true_iff (doc : Document) :
    (∀ l ∈ doc.lengths, l.IsTrueIn doc.layout) ↔ doc.layout.length < 2 ^ 31 := by
  constructor
  · intro h
    obtain ⟨inner, hinner⟩ := exists_lengths_eq doc
    have hmem : (⟨0, 0, doc.layout⟩ : Length) ∈ doc.lengths := hinner ▸ List.mem_cons_self
    exact (standsIn_of_mem_lengths hmem).isTrueIn_iff.1 (h _ hmem)
  · intro hlength l hl
    have hstands := standsIn_of_mem_lengths hl
    exact hstands.isTrueIn_iff.2 (Nat.lt_of_le_of_lt hstands.length_le hlength)

/-- **The lengths of a written document.** Each stands in front of the bytes that it announces, and is
read as their number, reduced to four bytes with a sign. So all of them are true exactly if the document
is shorter than `2 ^ 31` bytes. Then it is read back; a longer one is written all the same, and refused
for its own length. -/
theorem lengths_of_encode {doc : Document} {bytes : Bytes} (h : encode doc = .ok bytes) :
    (∀ l ∈ doc.lengths, l.StandsIn bytes ∧
      int32At l.place (bytes.drop l.place) = .ok ((l.announced.length : Int).bmod (2 ^ 32))) ∧
    ((∀ l ∈ doc.lengths, l.IsTrueIn bytes) ↔ bytes.length < 2 ^ 31) ∧
    (bytes.length < 2 ^ 31 → decode bytes = .ok doc) ∧
    (2 ^ 31 ≤ bytes.length → decode bytes = .error (.malformed (some 0)
      (if (bytes.length : Int).bmod (2 ^ 32) < minDocumentLength then
        .documentLength ((bytes.length : Int).bmod (2 ^ 32))
      else .lengthMismatch ((bytes.length : Int).bmod (2 ^ 32)).toNat bytes.length))) := by
  obtain ⟨-, -, rfl⟩ := encode_eq_ok_iff.1 h
  refine ⟨fun l hl => ?_, lengths_true_iff doc, decode_of_encode h, decode_of_overlong⟩
  have hstands := standsIn_of_mem_lengths hl
  exact ⟨hstands, hstands.int32At_eq⟩

/-- A text and an old binary have four lengths, that of the document and two of the binary among
them. -/
theorem lengths_of_encode_old_binary :
    ∃ (doc : Document) (bytes : Bytes),
      doc = [("s", .scalar (.string "x")), ("o", .scalar (.binary 2 [7]))] ∧
      bytes = [0x1b, 0, 0, 0, 0x02, 0x73, 0, 2, 0, 0, 0, 0x78, 0,
        0x05, 0x6f, 0, 5, 0, 0, 0, 2, 1, 0, 0, 0, 7, 0] ∧
      encode doc = .ok bytes ∧
      doc.lengths.map (fun l => (l.place, l.announced.length)) = [(0, 27), (7, 2), (16, 5), (21, 1)] ∧
      (∀ l ∈ doc.lengths, l.IsTrueIn bytes) ∧ decode bytes = .ok doc := by
  refine ⟨_, _, rfl, rfl, ?hencode, ?_, ?_, ?_⟩
  case hencode => with_unfolding_all rfl
  · with_unfolding_all rfl
  · exact (lengths_of_encode (by with_unfolding_all rfl)).2.1.2 (by decide)
  · exact (lengths_of_encode (by with_unfolding_all rfl)).2.2.1 (by decide)

/-! ## A document that is too long -/

/-- A document of a single binary. -/
def ofBinary (content : Bytes) : Document :=
  [("a", .scalar (.binary 0 content))]

theorem encode_ofBinary (content : Bytes) :
    encode (ofBinary content) = .ok (ofBinary content).layout := by
  have hdepth : (ofBinary content).depth = 1 := rfl
  have hnames : (Value.document (ofBinary content)).fieldNames = ["a"] := rfl
  have hfit : nameFits "a" = true := by with_unfolding_all rfl
  refine encode_eq_ok_iff.2 ⟨by rw [hdepth]; decide, ?_, rfl⟩
  rw [hnames, allFit_cons]
  exact ⟨hfit, allFit_nil⟩

theorem length_layout_ofBinary (content : Bytes) :
    (ofBinary content).layout.length = content.length + 13 := by
  have hlayout : (ofBinary content).layout =
      containerBytes (headerBytes .binary "a" ++ binaryBytes 0 content ++ []) := rfl
  have hname : (Utf8.bytes "a").length = 1 := by with_unfolding_all rfl
  rw [hlayout, Form.length_containerBytes, List.append_nil, List.length_append,
    Form.length_headerBytes, length_binaryBytes, if_neg (by decide), hname, minDocumentLength]
  omega

/-- The shortest binary that makes a document too long: its own length is still true, but that of the
document is read as a negative number. The document is written, and then refused. -/
theorem encode_wraps_length :
    ∃ (doc : Document) (bytes : Bytes),
      doc = [("a", .scalar (.binary 0 (List.replicate (2 ^ 31 - 13) 0)))] ∧
      encode doc = .ok bytes ∧ bytes.length = 2 ^ 31 ∧
      (∃ l ∈ doc.lengths, ¬ l.IsTrueIn bytes) ∧
      decode bytes = .error (.malformed (some 0) (.documentLength (-(2 ^ 31)))) := by
  obtain ⟨content, hcontent⟩ : ∃ content : Bytes, content = List.replicate (2 ^ 31 - 13) 0 :=
    ⟨_, rfl⟩
  have hlength : (ofBinary content).layout.length = 2 ^ 31 := by
    rw [length_layout_ofBinary, hcontent, List.length_replicate]
    exact Nat.sub_add_cancel (by decide)
  have hfalse : ¬ ∀ l ∈ (ofBinary content).lengths, l.IsTrueIn (ofBinary content).layout := by
    rw [lengths_true_iff, hlength]
    exact Nat.lt_irrefl _
  have hdecode := decode_of_overlong (Nat.le_of_eq hlength.symm)
  rw [hlength] at hdecode
  refine ⟨ofBinary content, _, by rw [hcontent]; rfl, encode_ofBinary content, hlength, ?_, hdecode⟩
  by_contra hnone
  exact hfalse fun l hl => by_contra fun h => hnone ⟨l, hl, h⟩

end Document

end DocTable
