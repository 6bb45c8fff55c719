import DocTable.Proofs.Source.Calls
import DocTable.Proofs.Wire.Refusal
import Mathlib.Algebra.GroupWithZero.Nat

/-!
# Reading a stream of documents

* `WireStream.Stops` — a read that fails, at the end of the stream or inside the bytes left.
* `next_cases` — one read fails so, or it takes a document off the stream.
* `Reads` — a run of reads that succeed, as the pieces of the stream that they take off.
* `exists_reads` — every stream is read up to its first error.
* `reads_whole_documents_in_front` — what that run gives, where it ends, and that nothing is read
  after a failure.
-/

set_option autoImplicit false

namespace DocTable

namespace Wire

/-- A number of four bytes is read from four bytes. -/
theorem int32At_take (offset : Nat) (bytes : Bytes) :
    int32At offset (bytes.take 4) = int32At offset bytes := by
  unfold int32At littleAt?
  rw [List.take_take, Nat.min_self]

theorem documentLengthAt_take (offset : Nat) (bytes : Bytes) :
    documentLengthAt offset (bytes.take 4) = documentLengthAt offset bytes := by
  unfold documentLengthAt
  rw [int32At_take]

end Wire

/-- A buffer that is read announces its own length. -/
theorem Document.length_of_decode {bytes : Bytes} {doc : Document} (h : decode bytes = .ok doc) :
    Wire.documentLengthAt 0 bytes = .ok bytes.length := by
  obtain ⟨length, hlength, h⟩ := Steps.bind_eq_ok.1 h
  split at h
  · cases h
  · rename_i hsame
    rw [hlength, not_not.1 hsame]

theorem Document.five_le_of_decode {bytes : Bytes} {doc : Document}
    (h : decode bytes = .ok doc) : 5 ≤ bytes.length :=
  (Wire.little_of_documentLengthAt (length_of_decode h)).1

namespace WireStream

variable {stream last : WireStream}

/-! ## One read -/

/-- The stream behind the document in front, which takes `length` bytes. -/
def advance (stream : WireStream) (length : Nat) : WireStream :=
  { stream with
    rest := stream.rest.drop length
    offset := stream.offset + length
    documents := stream.documents + 1 }

@[simp] theorem advance_rest (stream : WireStream) (length : Nat) :
    (stream.advance length).rest = stream.rest.drop length := rfl

/-- The stream after a read that failed. -/
def fail (stream : WireStream) : WireStream :=
  { stream with failed := true }

/-- The length in front of a stream is looked at when there are bytes enough, whatever follows
them. -/
theorem documentLength_eq_ok_iff {length : Nat} :
    stream.documentLength = .ok length ↔
      4 ≤ stream.rest.length ∧ Wire.documentLengthAt 0 stream.rest = .ok length ∧
        length ≤ maxDocumentLength := by
  unfold documentLength
  simp only [Wire.documentLengthAt_take, List.length_take]
  constructor
  · intro h
    split at h
    · cases h
    · rename_i hlong
      split at h
      · cases h
      · rename_i declared hdeclared
        split at h
        · cases h
        · rename_i hlimit
          cases h
          exact ⟨by omega, hdeclared, Nat.not_lt.1 hlimit⟩
  · rintro ⟨hlong, hlength, hlimit⟩
    rw [if_neg (by omega), hlength]
    exact if_neg (Nat.not_lt.2 hlimit)

theorem document_of_piece {piece rest : Bytes} {doc : Document}
    (hrest : stream.rest = piece ++ rest) (hdoc : Document.decode piece = .ok doc)
    (hlimit : piece.length ≤ maxDocumentLength) :
    stream.document = .ok (doc, piece.length) := by
  have hfive := Document.five_le_of_decode hdoc
  have htake : stream.rest.take 4 = piece.take 4 := by
    rw [hrest, List.take_append_of_le_length (by omega)]
  have hlength : stream.documentLength = .ok piece.length := by
    apply documentLength_eq_ok_iff.2
    refine ⟨by rw [hrest, List.length_append]; omega, ?_, hlimit⟩
    rw [← Wire.documentLengthAt_take, htake, Wire.documentLengthAt_take]
    exact Document.length_of_decode hdoc
  unfold document
  rw [hlength, Steps.ok_bind, hrest]
  simp only [List.take_left, Nat.lt_irrefl, if_false, hdoc]

theorem piece_of_document {doc : Document} {length : Nat}
    (h : stream.document = .ok (doc, length)) :
    Document.decode (stream.rest.take length) = .ok doc ∧
      (stream.rest.take length).length = length ∧ length ≤ maxDocumentLength := by
  obtain ⟨declared, hdeclared, h⟩ := Steps.bind_eq_ok.1 h
  have hlimit := (documentLength_eq_ok_iff.1 hdeclared).2.2
  simp only at h
  split at h
  · cases h
  · rename_i hlong
    split at h
    · cases h
    · rename_i doc' hdoc
      cases h
      refine ⟨hdoc, ?_, hlimit⟩
      rw [List.length_take] at hlong ⊢
      omega

theorem foundIn_documentLength {error : Error} (hclean : stream.ending = .clean)
    (h : stream.documentLength = .error error) :
    error.FoundIn stream.offset (stream.offset + 1) := by
  unfold documentLength at h
  simp only at h
  split at h
  · rw [cutOff, hclean] at h
    cases h
    exact ⟨Nat.le_refl _, Nat.lt_succ_self _⟩
  · split at h
    · rename_i error' herror
      cases h
      exact (Wire.foundIn_documentLengthAt herror).rebased stream.offset
    · split at h
      · cases h
        exact ⟨Nat.le_refl _, Nat.lt_succ_self _⟩
      · cases h

/-- The error of a read is found in the bytes that are left. -/
theorem foundIn_document {error : Error} (hclean : stream.ending = .clean)
    (hrest : stream.rest ≠ []) (h : stream.document = .error error) :
    error.FoundIn stream.offset (stream.offset + stream.rest.length) := by
  have hpositive := List.length_pos_iff.2 hrest
  rcases Steps.bind_eq_error.1 h with hlength | ⟨length, hlength, h⟩
  · exact (foundIn_documentLength hclean hlength).mono (Nat.le_refl _) (by omega)
  · obtain ⟨-, hdeclared, -⟩ := documentLength_eq_ok_iff.1 hlength
    have hfive := (Wire.little_of_documentLengthAt hdeclared).1
    simp only [Wire.minDocumentLength] at hfive
    simp only at h
    split at h
    · rw [cutOff, hclean] at h
      cases h
      exact ⟨Nat.le_refl _, by omega⟩
    · rename_i hlong
      split at h
      · rename_i error' herror
        cases h
        have hbuffer : stream.rest.take length ≠ [] := List.length_pos_iff.1 (by omega)
        have hfound := (Document.foundIn_of_decode hbuffer herror).rebased stream.offset
        rw [List.length_take] at hfound
        exact hfound.mono (Nat.le_refl _) (by omega)
      · cases h

theorem next_of_document {result : Document × Nat} (hfailed : stream.failed = false)
    (hrest : stream.rest ≠ []) (h : stream.document = .ok result) :
    stream.next = (.ok result.1, stream.advance result.2) := by
  obtain ⟨b, bytes, hcons⟩ := List.exists_cons_of_ne_nil hrest
  unfold next advance
  rw [hfailed, hcons, h]
  rfl

theorem next_of_document_error {error : Error} (hfailed : stream.failed = false)
    (hrest : stream.rest ≠ []) (h : stream.document = .error error) :
    stream.next = (.error error, stream.fail) := by
  obtain ⟨b, bytes, hcons⟩ := List.exists_cons_of_ne_nil hrest
  unfold next fail
  rw [hfailed, hcons, h]
  rfl

theorem next_of_nil (hclean : stream.ending = .clean) (hrest : stream.rest = []) :
    stream.next = (.error .exhausted, stream) := by
  unfold next
  rw [hrest, hclean]
  split <;> rfl

theorem rest_ne_nil_of_piece {piece rest : Bytes} {doc : Document}
    (hrest : stream.rest = piece ++ rest) (hdoc : Document.decode piece = .ok doc) :
    stream.rest ≠ [] := by
  have hfive := Document.five_le_of_decode hdoc
  apply List.length_pos_iff.1
  rw [hrest, List.length_append]
  omega

/-- A document in front that is within the limit is taken off the stream. -/
theorem next_of_piece {piece rest : Bytes} {doc : Document} (hfailed : stream.failed = false)
    (hrest : stream.rest = piece ++ rest) (hdoc : Document.decode piece = .ok doc)
    (hlimit : piece.length ≤ maxDocumentLength) :
    stream.next = (.ok doc, stream.advance piece.length) :=
  next_of_document hfailed (rest_ne_nil_of_piece hrest hdoc) (document_of_piece hrest hdoc hlimit)

/-- A read fails, at the end of the stream or inside the bytes that are left, and takes nothing off
the stream. -/
structure Stops (stream : WireStream) (error : Error) (last : WireStream) : Prop where
  next_eq : stream.next = (.error error, last)
  offset_eq : last.offset = stream.offset
  documents_eq : last.documents = stream.documents
  exhausted_iff : error = .exhausted ↔ stream.rest = []
  found : stream.rest ≠ [] → error.FoundIn stream.offset (stream.offset + stream.rest.length)
  failed : stream.rest ≠ [] → last.failed = true

theorem stops_of_nil (hclean : stream.ending = .clean) (hrest : stream.rest = []) :
    stream.Stops .exhausted stream where
  next_eq := next_of_nil hclean hrest
  offset_eq := rfl
  documents_eq := rfl
  exhausted_iff := by simp [hrest]
  found hne := absurd hrest hne
  failed hne := absurd hrest hne

theorem stops_of_document_error {error : Error} (hclean : stream.ending = .clean)
    (hfailed : stream.failed = false) (hrest : stream.rest ≠ [])
    (h : stream.document = .error error) : stream.Stops error stream.fail := by
  have hfound := foundIn_document hclean hrest h
  exact
    { next_eq := next_of_document_error hfailed hrest h
      offset_eq := rfl
      documents_eq := rfl
      exhausted_iff := by simp [hrest, hfound.ne_exhausted]
      found := fun _ => hfound
      failed := fun _ => rfl }

/-- **One read** of a stream that ends cleanly and has not failed: it fails, or it takes a document
within the limit off the stream. -/
theorem next_cases (hclean : stream.ending = .clean) (hfailed : stream.failed = false) :
    (∃ error last, stream.Stops error last) ∨
    ∃ piece rest doc, stream.rest = piece ++ rest ∧ Document.decode piece = .ok doc ∧
      piece.length ≤ maxDocumentLength := by
  by_cases hrest : stream.rest = []
  · exact .inl ⟨_, _, stops_of_nil hclean hrest⟩
  · cases hdocument : stream.document with
    | error error => exact .inl ⟨_, _, stops_of_document_error hclean hfailed hrest hdocument⟩
    | ok result =>
      obtain ⟨doc, length⟩ := result
      obtain ⟨hdoc, hlength, hlimit⟩ := piece_of_document hdocument
      rw [← hlength] at hlimit
      exact .inr ⟨_, _, doc, (List.take_append_drop length stream.rest).symm, hdoc, hlimit⟩

theorem hasMore_iff_of_clean (hclean : stream.ending = .clean) (hfailed : stream.failed = false) :
    stream.hasMore = true ↔ stream.rest ≠ [] := by
  simp [hasMore, hclean, hfailed]

/-- A stream that has failed gives nothing more and stays as it is. -/
theorem answer_of_failed (hfailed : stream.failed = true) (call : Source.Call) :
    (Source.wire stream).answer call = (Source.Answer.exhausted call, .wire stream) := by
  cases call with
  | hasMore => simp [Source.answer, Source.hasMore, hasMore, hfailed, Source.Answer.exhausted]
  | next => simp [Source.answer, Source.next, next, hfailed, Source.Answer.exhausted]

/-! ## A run of reads -/

/-- The pieces in front of a stream are documents within the limit, and reading them leaves another
stream. -/
inductive Reads : WireStream → List (Bytes × Document) → WireStream → Prop
  | nil (stream : WireStream) : Reads stream [] stream
  | cons {stream last : WireStream} {piece rest : Bytes} {doc : Document}
      {pieces : List (Bytes × Document)} : stream.rest = piece ++ rest →
      Document.decode piece = .ok doc → piece.length ≤ maxDocumentLength →
      Reads (stream.advance piece.length) pieces last → Reads stream ((piece, doc) :: pieces) last

namespace Reads

variable {pieces : List (Bytes × Document)}

theorem rest_eq (h : Reads stream pieces last) :
    stream.rest = pieces.flatMap (·.1) ++ last.rest := by
  induction h with
  | nil => rfl
  | cons hrest _ _ _ ih =>
    rw [advance_rest, hrest, List.drop_left] at ih
    rw [hrest, ih, List.flatMap_cons, List.append_assoc]

theorem offset_eq (h : Reads stream pieces last) :
    last.offset = stream.offset + (pieces.map (·.1.length)).sum := by
  induction h with
  | nil => rfl
  | cons _ _ _ _ ih =>
    rw [ih, advance, List.map_cons, List.sum_cons, Nat.add_assoc]

theorem documents_eq (h : Reads stream pieces last) :
    last.documents = stream.documents + pieces.length := by
  induction h with
  | nil => rfl
  | cons _ _ _ _ ih =>
    simp only [ih, advance, List.length_cons]
    omega

theorem ending_eq (h : Reads stream pieces last) : last.ending = stream.ending := by
  induction h with
  | nil => rfl
  | cons _ _ _ _ ih => rw [ih, advance]

theorem failed_eq (h : Reads stream pieces last) : last.failed = stream.failed := by
  induction h with
  | nil => rfl
  | cons _ _ _ _ ih => rw [ih, advance]

theorem decode_eq (h : Reads stream pieces last) :
    ∀ piece ∈ pieces, Document.decode piece.1 = .ok piece.2 ∧
      piece.1.length ≤ maxDocumentLength := by
  induction h with
  | nil => simp
  | cons _ hdoc hlimit _ ih => exact List.forall_mem_cons.2 ⟨⟨hdoc, hlimit⟩, ih⟩

/-- The pieces are what the reads give. -/
theorem answers_eq (h : Reads stream pieces last) (hfailed : stream.failed = false) :
    (Source.wire stream).answers (List.replicate pieces.length .next) =
      (pieces.map fun piece => .document (.ok piece.2), .wire last) := by
  induction h with
  | nil => rfl
  | @cons stream last piece rest doc pieces hrest hdoc hlimit _ ih =>
    have hnext := next_of_piece hfailed hrest hdoc hlimit
    rw [List.length_cons, List.replicate_succ, Source.answers_cons]
    simp only [Source.answer, Source.next, hnext]
    rw [ih hfailed, List.map_cons]

end Reads

/-- **Every stream is read up to its first error.**  A document takes at least one byte, so the
induction is on the number of bytes that are left. -/
theorem exists_reads (hclean : stream.ending = .clean) (hfailed : stream.failed = false) :
    ∃ pieces stop error last, Reads stream pieces stop ∧ stop.Stops error last := by
  induction hlength : stream.rest.length using Nat.strongRecOn generalizing stream with
  | ind length ih =>
    rcases next_cases hclean hfailed with ⟨error, last, hstops⟩ | ⟨piece, rest, doc, hpiece⟩
    · exact ⟨[], stream, error, last, .nil stream, hstops⟩
    · obtain ⟨hrest, hdoc, hlimit⟩ := hpiece
      have hfive := Document.five_le_of_decode hdoc
      have hshorter : (stream.advance piece.length).rest.length < length := by
        rw [← hlength, advance_rest, hrest, List.drop_left, List.length_append]
        omega
      obtain ⟨pieces, stop, error, last, hreads, hstops⟩ :=
        @ih _ hshorter (stream.advance piece.length) hclean hfailed rfl
      exact ⟨(piece, doc) :: pieces, stop, error, last, .cons hrest hdoc hlimit hreads, hstops⟩

/-- Where a read fails, no document within the limit is in front. -/
theorem decode_ne_ok_of_next {error : Error} {after : WireStream} (hfailed : stream.failed = false)
    (hnext : stream.next = (.error error, after)) {piece : Bytes} (hpiece : piece <+: stream.rest)
    (hlimit : piece.length ≤ maxDocumentLength) (doc : Document) :
    Document.decode piece ≠ .ok doc := by
  intro hdoc
  obtain ⟨rest, hrest⟩ := hpiece
  rw [next_of_piece hfailed hrest.symm hdoc hlimit] at hnext
  cases hnext

/-! ## What a stream gives -/

/-- How a run of reads over a stream of bytes ends: behind the documents in front, with an error. -/
structure EndsBehind (bytes : Bytes) (pieces : List (Bytes × Document)) (rest : Bytes)
    (error : Error) (last : WireStream) : Prop where
  bytes_eq : bytes = pieces.flatMap (·.1) ++ rest
  decode_eq : ∀ piece ∈ pieces, Document.decode piece.1 = .ok piece.2 ∧
    piece.1.length ≤ 16 * 1024 * 1024
  offset_eq : last.offset = (pieces.map (·.1.length)).sum
  documents_eq : last.documents = pieces.length
  /-- No further document could have been read. -/
  decode_ne : ∀ (front : Bytes) (doc : Document), front <+: rest →
    front.length ≤ 16 * 1024 * 1024 → Document.decode front ≠ .ok doc
  exhausted_iff : error = .exhausted ↔ rest = []
  /-- A failure lies in the bytes behind the documents. -/
  found : rest ≠ [] → (∃ tag field, error = .unsupportedType tag field) ∨
    ∃ offset fault, error = .malformed (some offset) fault ∧ last.offset ≤ offset ∧
      offset < bytes.length
  /-- A failure is final: there is nothing more, and neither offset nor count changes again. -/
  final : error ≠ .exhausted → ∀ calls : List Source.Call,
    (Source.wire last).answers calls = (calls.map Source.Answer.exhausted, .wire last)

/-- **A stream gives the documents in front of it and nothing else.**  The reads of any bytes give
one document after another up to the first error, and that error is met exactly where the rest does
not start with a document. -/
theorem reads_whole_documents_in_front (bytes : Bytes) :
    ∃ (pieces : List (Bytes × Document)) (rest : Bytes) (error : Error) (last : WireStream),
      (Source.wire (ofBytes bytes .clean)).answers (List.replicate (pieces.length + 1) .next) =
        (pieces.map (fun piece => .document (.ok piece.2)) ++ [.document (.error error)],
          .wire last) ∧
      EndsBehind bytes pieces rest error last := by
  obtain ⟨pieces, stop, error, last, hreads, hstops⟩ := @exists_reads (ofBytes bytes .clean) rfl rfl
  have hbytes : bytes = pieces.flatMap (·.1) ++ stop.rest := hreads.rest_eq
  have hoffset : last.offset = (pieces.map (·.1.length)).sum := by
    rw [hstops.offset_eq, hreads.offset_eq, ofBytes, Nat.zero_add]
  have hdocuments : last.documents = pieces.length := by
    rw [hstops.documents_eq, hreads.documents_eq, ofBytes, Nat.zero_add]
  refine ⟨pieces, stop.rest, error, last, ?_,
    hbytes, hreads.decode_eq, hoffset, hdocuments, ?_, hstops.exhausted_iff, ?_, ?_⟩
  · rw [List.replicate_succ', Source.answers_append, hreads.answers_eq rfl]
    simp only [Source.answers_cons, Source.answers_nil, Source.answer, Source.next, hstops.next_eq]
  · intro front doc hfront hlimit
    exact decode_ne_ok_of_next hreads.failed_eq hstops.next_eq hfront hlimit doc
  · intro hrest
    have hlength : bytes.length = stop.offset + stop.rest.length := by
      rw [hbytes, List.length_append, List.length_flatMap, ← hoffset, hstops.offset_eq]
    have hfound := hstops.found hrest
    rw [← hlength, ← hstops.offset_eq] at hfound
    exact hfound.cases
  · intro hne calls
    have hfailed := hstops.failed (mt hstops.exhausted_iff.2 hne)
    exact Source.answers_of_spent (answer_of_failed hfailed) calls

end WireStream

end DocTable
