import DocTable.Proofs.Source.WireStream
import DocTable.Proofs.Table.Flatten
import DocTable.Proofs.Wire.Decoding

/-!
# Streams that are cut

Documents are written end to end, and only the first bytes of them are read.

* `WireStream.IsBoundary` — where a cut does not go through a document.
* `next_of_cut` — a document of which a part is missing is refused where it starts.
* `exists_reads_of_cut` — the reads of a cut stream, by induction on the documents written.
* `Reads.items_eq`, `fill_eq_error` — what was read are items of the stream, and a table that needs the
  document behind them is not made.
* `cut_gives_whole_documents` — a cut stream gives the documents that are wholly there, and then
  ends or fails as the cut is a boundary or not; no table is made of it in the second case.
-/

set_option autoImplicit false

namespace DocTable.WireStream

variable {stream last : WireStream}

/-- The cut falls between two pieces laid end to end, or at either end of them. -/
def IsBoundary (pieces : List Bytes) (cut : Nat) : Prop :=
  ∃ count ≤ pieces.length, (pieces.take count).flatten.length = cut

/-- The bytes are those of a document as it is written, within the limit. -/
def IsWritten (doc : Document) (bytes : Bytes) : Prop :=
  doc.encode = .ok bytes ∧ bytes.length ≤ maxDocumentLength

theorem IsWritten.decode_eq {doc : Document} {bytes : Bytes} (h : IsWritten doc bytes) :
    Document.decode bytes = .ok doc :=
  Document.decode_of_encode h.1 (Nat.lt_of_le_of_lt h.2 (by decide))

theorem IsWritten.length_pos {doc : Document} {bytes : Bytes} (h : IsWritten doc bytes) :
    0 < bytes.length :=
  Nat.lt_of_lt_of_le (by decide) (Document.five_le_of_decode h.decode_eq)

/-! ## Boundaries -/

theorem isBoundary_cons_of_le {piece : Bytes} {pieces : List Bytes} {cut : Nat}
    (hpos : 0 < piece.length) (hcut : piece.length ≤ cut) :
    IsBoundary (piece :: pieces) cut ↔ IsBoundary pieces (cut - piece.length) := by
  constructor
  · rintro ⟨count, hcount, hlength⟩
    cases count with
    | zero =>
      simp only [List.take_zero, List.flatten_nil, List.length_nil] at hlength
      omega
    | succ count =>
      simp only [List.take_succ_cons, List.flatten_cons, List.length_append] at hlength
      exact ⟨count, Nat.le_of_succ_le_succ hcount, by omega⟩
  · rintro ⟨count, hcount, hlength⟩
    refine ⟨count + 1, Nat.succ_le_succ hcount, ?_⟩
    simp only [List.take_succ_cons, List.flatten_cons, List.length_append]
    omega

theorem isBoundary_cons_of_lt {piece : Bytes} {pieces : List Bytes} {cut : Nat}
    (hcut : cut < piece.length) : IsBoundary (piece :: pieces) cut ↔ cut = 0 := by
  constructor
  · rintro ⟨count, -, hlength⟩
    cases count with
    | zero => exact hlength.symm
    | succ count =>
      simp only [List.take_succ_cons, List.flatten_cons, List.length_append] at hlength
      omega
  · rintro rfl
    exact ⟨0, Nat.zero_le _, rfl⟩

/-! ## Reading up to the cut -/

/-- A document of which a part is missing is refused where it starts. -/
theorem next_of_cut {piece : Bytes} {doc : Document} {cut : Nat} (hclean : stream.ending = .clean)
    (hfailed : stream.failed = false) (hdoc : Document.decode piece = .ok doc)
    (hlimit : piece.length ≤ maxDocumentLength) (hrest : stream.rest = piece.take cut)
    (hpos : 0 < cut) (hcut : cut < piece.length) :
    ∃ fault, stream.next = (.error (.malformed (some stream.offset) fault), stream.fail) := by
  have hlength : stream.rest.length = cut := by
    rw [hrest, List.length_take, Nat.min_eq_left (Nat.le_of_lt hcut)]
  have hne : stream.rest ≠ [] := List.length_pos_iff.1 (by omega)
  suffices h : ∃ fault, stream.document = .error (.malformed (some stream.offset) fault) by
    obtain ⟨fault, hfault⟩ := h
    exact ⟨fault, next_of_document_error hfailed hne hfault⟩
  by_cases hshort : cut < 4
  · -- not even the length in front is whole
    refine ⟨.endInLength, ?_⟩
    have hlength' :
        stream.documentLength = .error (.malformed (some stream.offset) .endInLength) := by
      unfold documentLength
      simp only [List.length_take, hlength]
      rw [if_pos (by omega), cutOff, hclean]
    unfold document
    rw [hlength']
    rfl
  · refine ⟨.endInDocument (piece.length - 4), ?_⟩
    have hlength' : stream.documentLength = .ok piece.length := by
      apply documentLength_eq_ok_iff.2
      refine ⟨by omega, ?_, hlimit⟩
      rw [← Wire.documentLengthAt_take, hrest, List.take_take, Nat.min_eq_left (by omega),
        Wire.documentLengthAt_take]
      exact Document.length_of_decode hdoc
    unfold document
    rw [hlength', Steps.ok_bind]
    simp only [List.length_take, hlength]
    rw [if_pos (by omega), cutOff, hclean]

/-- **The reads of a cut stream.**  The induction is on the documents that were written; as long as
one lies wholly in front of the cut, it is taken off both. -/
theorem exists_reads_of_cut {docs : List Document} {encodings : List Bytes} {cut : Nat}
    (hwritten : List.Forall₂ IsWritten docs encodings) (hcut : cut ≤ encodings.flatten.length)
    (hclean : stream.ending = .clean) (hfailed : stream.failed = false)
    (hrest : stream.rest = encodings.flatten.take cut) :
    ∃ whole pieces last, Reads stream pieces last ∧ whole ≤ docs.length ∧
      pieces.map (·.2) = docs.take whole ∧ pieces.map (·.1) = encodings.take whole ∧
      (∀ i < docs.length, i < whole ↔ (encodings.take (i + 1)).flatten.length ≤ cut) ∧
      ((IsBoundary encodings cut ∧ last.rest = []) ∨
        (¬ IsBoundary encodings cut ∧ last.rest ≠ [] ∧ ∃ fault,
          last.next = (.error (.malformed (some last.offset) fault), last.fail))) := by
  induction hwritten generalizing stream cut with
  | nil =>
    obtain rfl : cut = 0 := Nat.le_zero.1 hcut
    refine ⟨0, [], stream, .nil stream, Nat.le_refl _, rfl, rfl, ?_, .inl ⟨?_, ?_⟩⟩
    · intro i hi
      cases hi
    · exact ⟨0, Nat.le_refl _, rfl⟩
    · rw [hrest, List.take_zero]
  | @cons doc piece docs encodings hpiece _ ih =>
    rw [List.flatten_cons] at hrest hcut
    rw [List.length_append] at hcut
    have hpos := hpiece.length_pos
    by_cases hle : piece.length ≤ cut
    · -- the first document is wholly there
      rw [List.take_append, List.take_of_length_le hle] at hrest
      have hadvance : (stream.advance piece.length).rest =
          encodings.flatten.take (cut - piece.length) := by
        rw [advance_rest, hrest, List.drop_left]
      obtain ⟨whole, pieces, last, hreads, hwhole, hdocs, hencodings, hiff, hend⟩ :=
        @ih (stream.advance piece.length) _ (by omega) hclean hfailed hadvance
      refine ⟨whole + 1, (piece, doc) :: pieces, last,
        .cons hrest hpiece.decode_eq hpiece.2 hreads, Nat.succ_le_succ hwhole, ?_, ?_, ?_, ?_⟩
      · rw [List.map_cons, hdocs, List.take_succ_cons]
      · rw [List.map_cons, hencodings, List.take_succ_cons]
      · intro i hi
        rw [List.take_succ_cons, List.flatten_cons, List.length_append]
        cases i with
        | zero =>
          simp only [List.take_zero, List.flatten_nil, List.length_nil]
          omega
        | succ i =>
          have := hiff i (Nat.lt_of_succ_lt_succ hi)
          omega
      · rw [isBoundary_cons_of_le hpos hle]
        exact hend
    · -- the cut goes through the first document, or in front of it
      have hlt : cut < piece.length := Nat.lt_of_not_le hle
      rw [List.take_append_of_le_length (Nat.le_of_lt hlt)] at hrest
      refine ⟨0, [], stream, .nil stream, Nat.zero_le _, rfl, rfl, ?_, ?_⟩
      · intro i _
        rw [List.take_succ_cons, List.flatten_cons, List.length_append]
        omega
      · rw [isBoundary_cons_of_lt hlt]
        rcases Nat.eq_zero_or_pos cut with rfl | hcutpos
        · exact .inl ⟨rfl, by rw [hrest, List.take_zero]⟩
        · refine .inr ⟨Nat.ne_of_gt hcutpos, ?_, ?_⟩
          · apply List.length_pos_iff.1
            rw [hrest, List.length_take]
            omega
          · exact next_of_cut hclean hfailed hpiece.decode_eq hpiece.2 hrest hcutpos hlt

/-! ## Tables of a stream that fails -/

/-- The documents of a run of reads are the first items of the stream. -/
theorem Reads.items_eq {pieces : List (Bytes × Document)} (h : Reads stream pieces last)
    (hclean : stream.ending = .clean) (hfailed : stream.failed = false) (more : Nat) :
    (Source.wire stream).items (pieces.length + more) =
      pieces.map (fun piece => .ok piece.2) ++ (Source.wire last).items more := by
  induction h with
  | nil => rw [List.length_nil, Nat.zero_add, List.map_nil, List.nil_append]
  | @cons stream last piece rest doc pieces hrest hdoc hlimit _ ih =>
    have hmore := (hasMore_iff_of_clean hclean hfailed).2 (rest_ne_nil_of_piece hrest hdoc)
    have hnext := next_of_piece hfailed hrest hdoc hlimit
    rw [List.length_cons, Nat.succ_add, @Source.items_succ_of_hasMore (.wire stream) _ hmore]
    simp only [Source.next, hnext]
    rw [ih hclean hfailed, List.map_cons, List.cons_append]

/-- A table that needs the document at which a stream fails is not made. -/
theorem fill_eq_error {pieces : List (Bytes × Document)} {rows : Nat} {error : Error}
    {after : WireStream} (options : Options) (table : Table) (hreads : Reads stream pieces last)
    (hclean : stream.ending = .clean) (hfailed : stream.failed = false)
    (hrest : last.rest ≠ []) (hnext : last.next = (.error error, after))
    (hrows : pieces.length < rows) :
    ∃ error, ((Source.wire stream).fill options rows table).1 = .error error := by
  obtain ⟨more, rfl⟩ := Nat.exists_eq_add_of_lt hrows
  have hlast : last.hasMore = true :=
    (hasMore_iff_of_clean (hreads.ending_eq.trans hclean) (hreads.failed_eq.trans hfailed)).2 hrest
  apply Source.fill_eq_error_of_mem
  show Except.error error ∈ _
  rw [Nat.add_assoc, hreads.items_eq hclean hfailed,
    @Source.items_succ_of_hasMore (.wire last) _ hlast]
  simp [Source.next, hnext]

/-- **A stream that is cut is not taken for a shorter one.**  It gives the documents that lie wholly
in front of the cut, as they were written. At a boundary it is then over; anywhere else it still has
more, the next read fails where the cut document starts, and no table with room for that document
is made. -/
theorem cut_gives_whole_documents {docs : List Document} {encodings : List Bytes} {cut : Nat}
    (hwritten : List.Forall₂ IsWritten docs encodings) (hcut : cut ≤ encodings.flatten.length) :
    ∃ (whole : Nat) (last : WireStream), whole ≤ docs.length ∧
      (∀ i < docs.length, i < whole ↔ (encodings.take (i + 1)).flatten.length ≤ cut) ∧
      (Source.wire (ofBytes (encodings.flatten.take cut) .clean)).answers
          (List.replicate whole .next) =
        ((docs.take whole).map (fun doc => .document (.ok doc)), .wire last) ∧
      (IsBoundary encodings cut →
        last.hasMore = false ∧ last.next = (.error .exhausted, last)) ∧
      (¬ IsBoundary encodings cut →
        last.hasMore = true ∧
        (∃ fault, last.next.1 =
          .error (.malformed (some (encodings.take whole).flatten.length) fault)) ∧
        ∀ options maxRows, whole < maxRows → ∃ error,
          ((Source.wire (ofBytes (encodings.flatten.take cut) .clean)).flatten options maxRows).1 =
            .error error) := by
  obtain ⟨whole, pieces, last, hreads, hwhole, hdocs, hencodings, hiff, hend⟩ :=
    @exists_reads_of_cut (ofBytes (encodings.flatten.take cut) .clean) _ _ _ hwritten hcut
      rfl rfl rfl
  have hclean : last.ending = .clean := hreads.ending_eq
  have hfailed : last.failed = false := hreads.failed_eq
  have hlength : pieces.length = whole := by
    have := congrArg List.length hdocs
    rwa [List.length_map, List.length_take, Nat.min_eq_left hwhole] at this
  have hmore := hasMore_iff_of_clean hclean hfailed
  refine ⟨whole, last, hwhole, hiff, ?_, ?_, ?_⟩
  · have hanswers := hreads.answers_eq rfl
    rw [hlength] at hanswers
    rw [hanswers, ← hdocs, List.map_map]
    rfl
  · intro hboundary
    have hrest : last.rest = [] := by
      rcases hend with ⟨-, hrest⟩ | ⟨hnot, -⟩
      · exact hrest
      · exact absurd hboundary hnot
    refine ⟨?_, next_of_nil hclean hrest⟩
    rw [Bool.eq_false_iff, ne_eq, hmore]
    exact not_not.2 hrest
  · intro hnot
    obtain ⟨hrest, fault, hnext⟩ : last.rest ≠ [] ∧ ∃ fault,
        last.next = (.error (.malformed (some last.offset) fault), last.fail) := by
      rcases hend with ⟨hboundary, -⟩ | ⟨-, h⟩
      · exact absurd hboundary hnot
      · exact h
    refine ⟨hmore.2 hrest, ⟨fault, ?_⟩, ?_⟩
    · have hoffset : last.offset = (encodings.take whole).flatten.length := by
        rw [hreads.offset_eq, ← hencodings, List.length_flatten, List.map_map, ofBytes,
          Nat.zero_add]
        rfl
      rw [hnext, hoffset]
    · intro options maxRows hrows
      obtain ⟨error, herror⟩ :=
        fill_eq_error options .empty hreads rfl rfl hrest hnext (hlength ▸ hrows)
      refine ⟨error, ?_⟩
      rw [Source.flatten_of_pos (Nat.lt_of_le_of_lt (Nat.zero_le _) hrows)]
      simp only [herror]
      rfl

/-- Two documents of twelve and nine bytes, cut inside the second one: the first one is read, the
read of the second one fails where it starts, and there is no table of two rows. -/
theorem cut_inside_second_document :
    ∃ (bytes : Bytes) (last : WireStream),
      bytes = [12, 0, 0, 0, 16, 97, 0, 1, 0, 0, 0, 0, 9, 0, 0] ∧
      (Source.wire (ofBytes bytes .clean)).answers [.next] =
        ([.document (.ok [("a", .scalar (.int32 1))])], .wire last) ∧
      last.hasMore = true ∧ (∃ fault, last.next.1 = .error (.malformed (some 12) fault)) ∧
      ∃ error, ((Source.wire (ofBytes bytes .clean)).flatten Options.default 2).1 =
        .error error := by
  have hwritten : List.Forall₂ IsWritten
      [[("a", .scalar (.int32 1))], [("b", .scalar (.bool true))]]
      [[12, 0, 0, 0, 16, 97, 0, 1, 0, 0, 0, 0], [9, 0, 0, 0, 8, 98, 0, 1, 0]] :=
    .cons ⟨rfl, by decide⟩ (.cons ⟨rfl, by decide⟩ .nil)
  have hinside : ¬ IsBoundary
      [[12, 0, 0, 0, 16, 97, 0, 1, 0, 0, 0, 0], [9, 0, 0, 0, 8, 98, 0, 1, 0]] 15 := by
    rw [isBoundary_cons_of_le (by decide) (by decide), isBoundary_cons_of_lt (by decide)]
    decide
  obtain ⟨whole, last, hwhole, hiff, hanswers, -, hcut⟩ :=
    @cut_gives_whole_documents _ _ 15 hwritten (by decide)
  obtain ⟨hmore, hfault, hflatten⟩ := hcut hinside
  obtain rfl : whole = 1 := by
    have hfirst := (hiff 0 (by decide)).2 (by decide)
    have hsecond := mt (hiff 1 (by decide)).1 (by decide)
    omega
  exact ⟨_, last, rfl, hanswers, hmore, hfault, hflatten _ 2 (by decide)⟩

end DocTable.WireStream
