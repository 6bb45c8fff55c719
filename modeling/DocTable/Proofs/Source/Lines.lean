import DocTable.Proofs.Depth
import DocTable.Proofs.Json.Unambiguity
import DocTable.Proofs.Source.Probe

/-!
# Lines of JSON, one by one

What is read from a text of lines is what its lines give, each for itself; only the numbers in the
errors of lines are numbers of the text.

* `Lines.laid_iff` — how a text is made up of lines.
* `JsonLines.Gives` — what a line gives, by what it is: nothing, an error of three kinds, or a
  document. Which lines are JSON is told by the grammar.
* `outcomes_eq_readLines`, `taken_of_readLines` — one search for the next line that holds something:
  what it finds comes first among the outcomes of the lines, and it counts lines of text only.
* `pending_hasMore`, `next_eq`, `Reached` — what one call does; `reached_answers` and
  `reads_eq_pending` — what any calls do.
* `reads_one_outcome_a_line` — the outcomes of the lines are read, in order, and then the end.
* `counts_lines_of_text` — the number of a line leaves out those that are not text.
-/

set_option autoImplicit false

namespace DocTable

/-! ## The lines of a text -/

namespace Lines

/-- A text is laid out as lines. A line ends at a line feed, and with it goes the carriage return
before it; bytes behind the last line feed are a line as they stand. -/
inductive Laid : Bytes → List Bytes → Prop
  | nil : Laid [] []
  | last {line : Bytes} : line ≠ [] → 10 ∉ line → Laid line [line]
  | cons {line rest : Bytes} {lines : List Bytes} :
      10 ∉ line → Laid rest lines → Laid (line ++ 10 :: rest) (trimReturn line :: lines)

theorem split_of_not_mem {line : Bytes} (h : 10 ∉ line) : split line = ([], line) := by
  induction line with
  | nil => rfl
  | cons b line ih =>
    rw [split, ih (List.not_mem_of_not_mem_cons h)]
    simp only
    rw [if_neg (List.ne_of_not_mem_cons h).symm]

theorem split_append {line : Bytes} (h : 10 ∉ line) (rest : Bytes) :
    split (line ++ 10 :: rest) = (line :: (split rest).1, (split rest).2) := by
  induction line with
  | nil => rfl
  | cons b line ih =>
    rw [List.cons_append, split, ih (List.not_mem_of_not_mem_cons h)]
    simp only
    rw [if_neg (List.ne_of_not_mem_cons h).symm]

theorem ofBytes_append {line : Bytes} (h : 10 ∉ line) (rest : Bytes) :
    ofBytes (line ++ 10 :: rest) .clean = trimReturn line :: ofBytes rest .clean := by
  unfold ofBytes
  rw [split_append h]
  simp only [List.map_cons]
  split <;> rfl

/-- The lines of a text are the only ones that it is laid out as. -/
theorem eq_ofBytes_of_laid {bytes : Bytes} {lines : List Bytes} (h : Laid bytes lines) :
    lines = ofBytes bytes .clean := by
  induction h with
  | nil => rfl
  | last hne hline =>
    unfold ofBytes
    rw [split_of_not_mem hline]
    simp [hne]
  | cons hline _ ih => rw [ofBytes_append hline, ← ih]

theorem exists_laid (bytes : Bytes) : ∃ lines, Laid bytes lines := by
  induction bytes with
  | nil => exact ⟨[], .nil⟩
  | cons b bytes ih =>
    obtain ⟨lines, hlines⟩ := ih
    by_cases hb : b = 10
    · subst hb
      exact ⟨_, .cons List.not_mem_nil hlines⟩
    · have hcons : ∀ {line : Bytes}, 10 ∉ line → 10 ∉ b :: line := fun hline =>
        List.not_mem_cons_of_ne_of_not_mem (Ne.symm hb) hline
      cases hlines with
      | nil => exact ⟨_, .last (List.cons_ne_nil _ _) (hcons List.not_mem_nil)⟩
      | last _ hline => exact ⟨_, .last (List.cons_ne_nil _ _) (hcons hline)⟩
      | cons hline hrest => exact ⟨_, .cons (hcons hline) hrest⟩

/-- **A text is laid out as its lines**, and as nothing else. -/
theorem laid_iff {bytes : Bytes} {lines : List Bytes} :
    Laid bytes lines ↔ lines = ofBytes bytes .clean := by
  refine ⟨eq_ofBytes_of_laid, ?_⟩
  rintro rfl
  obtain ⟨lines, hlines⟩ := exists_laid bytes
  rwa [← eq_ofBytes_of_laid hlines]

/-- Whether the bytes of a line are text. -/
def isText (line : Bytes) : Bool :=
  match Utf8.decode line with
  | .ok _ => true
  | .error _ => false

theorem isText_iff {line : Bytes} : isText line = true ↔ ∃ text, Utf8.bytes text = line := by
  unfold isText
  constructor
  · intro h
    split at h
    · rename_i text htext
      exact ⟨text, Utf8.bytes_of_decode htext⟩
    · cases h
  · rintro ⟨text, rfl⟩
    rw [Utf8.decode_bytes]

/-- So many lines of text as lines: there are no others. -/
theorem countP_isText_eq_length_iff {lines : List Bytes} :
    lines.countP isText = lines.length ↔ ∀ line ∈ lines, ∃ text, Utf8.bytes text = line := by
  rw [List.countP_eq_length]
  exact forall₂_congr fun _ _ => isText_iff

end Lines

/-- The error without the number of its line. -/
def Error.unnumbered : Error → Error
  | .malformed offset (.atLine _ fault) => .malformed offset fault
  | error => error

namespace JsonLines

/-! ## The outcome of a line -/

/-- What a line gives if its text is read by `read`, unless it is blank. -/
def outcomeBy (read : String → Except Error Document) (line : Bytes) :
    Option (Except Error Document) :=
  match Utf8.decode line with
  | .error _ => some (.error (.io notText))
  | .ok text => if isBlankText text then none else some (read text)

/-- What a line gives as line `number`. -/
def outcomeAt (number : Nat) : Bytes → Option (Except Error Document) :=
  outcomeBy (documentOf number)

/-- What a line gives for itself. -/
def outcome? : Bytes → Option (Except Error Document) :=
  outcomeBy Document.parse

/-- What a line gives, by what it is. Its text is told by the grammar of JSON, and so is what of that
is refused: arrays and objects in one another to more than 127 levels, a number that is beyond the
finite doubles as it is computed, and a string or name that escapes one half of a character without
the other. -/
inductive Gives (line : Bytes) : Option (Except Error Document) → Prop
  | notText : (∀ text, Utf8.bytes text ≠ line) → Gives line (some (.error (.io notText)))
  | blank {text : String} : Utf8.bytes text = line → isBlankText text = true → Gives line none
  | notJson {text : String} {fault : Json.Fault} : Utf8.bytes text = line →
      isBlankText text = false →
      (∀ w, Json.TextOf w text → 127 < w.levels ∨ (∃ numeral ∈ w.numerals, numeral.value? = none) ∨
        ∃ pieces ∈ w.strings, Json.charsOf? pieces = none) →
      Gives line (some (.error (.json fault)))
  | malformed {text : String} {w : Json.Written} {j : Json} {fault : Fault} :
      Utf8.bytes text = line → isBlankText text = false → Json.TextOf w text → w.levels ≤ 127 →
      w.value? Json.Numeral.value? = some j →
      (∀ members, j = .object members →
        ¬ (Json.MembersWellWrapped members ∧ Json.depthMembers members + 1 ≤ 100)) →
      Gives line (some (.error (.malformed none fault)))
  | document {text : String} {w : Json.Written} {members : Json.Members} {doc : Document} :
      Utf8.bytes text = line → isBlankText text = false → Json.TextOf w text → w.levels ≤ 127 →
      w.value? Json.Numeral.value? = some (.object members) →
      Json.MembersWellWrapped members → Json.depthMembers members + 1 ≤ 100 →
      Document.ofJson (.object members) = .ok doc → Gives line (some (.ok doc))

/-- A text that is not blank gives what its JSON is. -/
theorem gives_parse {line : Bytes} {text : String} (hbytes : Utf8.bytes text = line)
    (hblank : isBlankText text = false) : Gives line (some (Document.parse text)) := by
  unfold Document.parse
  cases hread : Json.read text with
  | error fault => exact .notJson hbytes hblank (Json.exists_read_eq_error_iff.1 ⟨fault, hread⟩)
  | ok j =>
    obtain ⟨w, hw, hlevels, hvalue⟩ := Json.read_eq_ok_iff.1 hread
    cases hdoc : Document.ofJson j with
    | error error =>
      obtain ⟨fault, rfl⟩ := Document.isPlaceless_of_ofJson hdoc
      simp only [hdoc]
      apply Gives.malformed hbytes hblank hw hlevels hvalue
      rintro members rfl hdocument
      obtain ⟨doc, hok⟩ := Document.exists_ofJson_iff.2 hdocument
      rw [hok] at hdoc
      cases hdoc
    | ok doc =>
      simp only [hdoc]
      cases j with
      | object members =>
        obtain ⟨hwell, hdepth⟩ := Document.exists_ofJson_iff.1 ⟨doc, hdoc⟩
        exact .document hbytes hblank hw hlevels hvalue hwell hdepth hdoc
      | null | bool | number | string | array => cases hdoc

/-- **A line gives what it is.** -/
theorem gives_outcome? (line : Bytes) : Gives line (outcome? line) := by
  unfold outcome? outcomeBy
  cases htext : Utf8.decode line with
  | error valid =>
    apply Gives.notText
    rintro text rfl
    rw [Utf8.decode_bytes] at htext
    cases htext
  | ok text =>
    have hbytes := Utf8.bytes_of_decode htext
    simp only
    cases hblank : isBlankText text with
    | true => exact .blank hbytes hblank
    | false =>
      rw [if_neg Bool.false_ne_true]
      exact gives_parse hbytes hblank

/-- The number of a line is all that its outcome takes from the lines before it. -/
theorem unnumbered_documentOf (number : Nat) (text : String) :
    (documentOf number text).mapError Error.unnumbered = Document.parse text := by
  unfold documentOf
  cases hparse : Document.parse text with
  | ok doc => rfl
  | error error =>
    rcases Document.error_of_parse hparse with ⟨fault, rfl⟩ | ⟨fault, rfl⟩ <;> rfl

theorem unnumbered_outcomeAt (number : Nat) (line : Bytes) :
    (outcomeAt number line).map (·.mapError Error.unnumbered) = outcome? line := by
  unfold outcomeAt outcome? outcomeBy
  cases Utf8.decode line with
  | error valid => rfl
  | ok text =>
    simp only
    split
    · rfl
    · exact congrArg some (unnumbered_documentOf number text)

/-- A malformed line names itself. -/
theorem atLine_of_outcomeAt {number : Nat} {line : Bytes} {offset : Option Nat} {fault : Fault}
    (h : outcomeAt number line = some (.error (.malformed offset fault))) :
    ∃ inner, offset = none ∧ fault = .atLine number inner ∧
      outcome? line = some (.error (.malformed none inner)) := by
  have hsame := unnumbered_outcomeAt number line
  rw [h] at hsame
  unfold outcomeAt outcomeBy at h
  split at h
  · cases h
  · split at h
    · cases h
    · unfold documentOf at h
      split at h
      · cases h
      · rename_i error herror
        rcases Document.error_of_parse herror with ⟨json, rfl⟩ | ⟨inner, rfl⟩
        · cases h
        · cases h
          exact ⟨inner, rfl, rfl, hsame.symm⟩

/-! ## Looking for the next line -/

/-- What lines give, with `number` lines counted before them. A line that is not text does not
count. -/
def outcomes : (number : Nat) → List Bytes → List (Except Error Document)
  | _, [] => []
  | number, line :: lines =>
    (outcomeAt (number + 1) line).toList ++
      outcomes (number + if Lines.isText line then 1 else 0) lines

theorem unnumbered_outcomes (number : Nat) (lines : List Bytes) :
    (outcomes number lines).map (·.mapError Error.unnumbered) = lines.filterMap outcome? := by
  induction lines generalizing number with
  | nil => rfl
  | cons line lines ih =>
    rw [outcomes, List.map_append, ih, List.filterMap_cons, ← unnumbered_outcomeAt (number + 1)]
    cases outcomeAt (number + 1) line <;> rfl

theorem length_filterMap_cons (line : Bytes) (lines : List Bytes) :
    ((line :: lines).filterMap outcome?).length =
      (outcome? line).toList.length + (lines.filterMap outcome?).length := by
  rw [List.filterMap_cons]
  cases outcome? line with
  | none => exact (Nat.zero_add _).symm
  | some result => exact Nat.add_comm _ _

/-- An outcome is that of one line, with the number that the lines of text before it make. -/
theorem line_of_outcomes {number i : Nat} {lines : List Bytes} {result : Except Error Document}
    (h : (outcomes number lines)[i]? = some result) :
    ∃ before line after, lines = before ++ line :: after ∧
      (before.filterMap outcome?).length = i ∧
      outcomeAt (number + before.countP Lines.isText + 1) line = some result := by
  induction lines generalizing number i with
  | nil => cases h
  | cons line lines ih =>
    rw [outcomes] at h
    have hsame := unnumbered_outcomeAt (number + 1) line
    -- an outcome further on is one of the other lines, and its place moves by what this line gives
    have hmoved : ∀ j, (outcomes (number + if Lines.isText line then 1 else 0) lines)[j]? =
        some result → ((outcome? line).toList.length + j = i) →
        ∃ before other after, line :: lines = before ++ other :: after ∧
          (before.filterMap outcome?).length = i ∧
          outcomeAt (number + before.countP Lines.isText + 1) other = some result := by
      intro j hj hi
      obtain ⟨before, other, after, rfl, hlength, hother⟩ := ih hj
      refine ⟨line :: before, other, after, rfl, ?_, ?_⟩
      · rw [length_filterMap_cons, hlength, hi]
      · rw [List.countP_cons, ← hother]
        congr 1
        omega
    cases houtcome : outcomeAt (number + 1) line with
    | none =>
      rw [houtcome] at h hsame
      exact hmoved i h (by rw [← hsame]; simp)
    | some first =>
      rw [houtcome] at h hsame
      cases i with
      | zero =>
        cases h
        exact ⟨[], line, lines, rfl, rfl, houtcome⟩
      | succ i => exact hmoved i h (by rw [← hsame]; simp; omega)

/-- **A search** finds the first outcome, and leaves the lines of the others. -/
theorem outcomes_eq_readLines (number : Nat) (lines : List Bytes) :
    outcomes number lines =
      (readLines .clean number lines).1.toList ++
        outcomes (readLines .clean number lines).2.2 (readLines .clean number lines).2.1 := by
  induction lines generalizing number with
  | nil => rfl
  | cons line lines ih =>
    rw [outcomes, readLines]
    unfold outcomeAt outcomeBy Lines.isText
    cases Utf8.decode line with
    | error valid => rfl
    | ok text =>
      simp only
      split
      · rw [← ih]
        rfl
      · rfl

/-- **A search** takes lines from the front, and counts those of them that are text. -/
theorem taken_of_readLines (number : Nat) (lines : List Bytes) :
    ∃ taken, taken ++ (readLines .clean number lines).2.1 = lines ∧
      (readLines .clean number lines).2.2 = number + taken.countP Lines.isText := by
  induction lines generalizing number with
  | nil => exact ⟨[], rfl, rfl⟩
  | cons line lines ih =>
    rw [readLines]
    cases htext : Utf8.decode line with
    | error valid =>
      have hline : Lines.isText line = false := by simp only [Lines.isText, htext]
      exact ⟨[line], rfl, by simp [hline]⟩
    | ok text =>
      have hline : Lines.isText line = true := by simp only [Lines.isText, htext]
      simp only
      split
      · obtain ⟨taken, hlines, hnumber⟩ := ih (number + 1)
        refine ⟨line :: taken, by rw [List.cons_append, hlines], ?_⟩
        rw [hnumber, List.countP_cons_of_pos hline]
        omega
      · exact ⟨[line], rfl, by simp [hline]⟩

/-! ## One call -/

/-- What is still to be read: what was looked at, and what the lines that are left give. -/
def pending (source : JsonLines) : List (Except Error Document) :=
  source.peeked.toList ++ outcomes source.lineNumber source.lines

variable {source : JsonLines}

theorem readNext_of_clean (hclean : source.ending = .clean) :
    source.readNext =
      ((readLines .clean source.lineNumber source.lines).1,
        ⟨(readLines .clean source.lineNumber source.lines).2.1, .clean,
          (readLines .clean source.lineNumber source.lines).2.2, none⟩) := by
  rw [readNext, hclean]

theorem pending_of_unpeeked (hclean : source.ending = .clean) (hpeeked : source.peeked = none) :
    source.pending = source.readNext.1.toList ++ source.readNext.2.pending := by
  rw [pending, hpeeked, outcomes_eq_readLines, readNext_of_clean hclean]
  rfl

/-- Where nothing is found, nothing is left. -/
theorem pending_of_none (hclean : source.ending = .clean) (h : source.readNext.1 = none) :
    source.readNext.2.pending = [] := by
  rw [readNext_of_clean hclean] at h ⊢
  simp only [pending, (readLines_of_none h).2]
  rfl

/-- **A question** leaves all that is to be read. -/
theorem pending_hasMore (hclean : source.ending = .clean) :
    source.hasMore.2.pending = source.pending := by
  cases hpeeked : source.peeked with
  | some result => rw [hasMore_of_peeked hpeeked]
  | none =>
    rw [hasMore_of_unpeeked hpeeked, pending_of_unpeeked hclean hpeeked]
    rfl

/-- **A read** takes the first of what is to be read, or meets the end. -/
theorem next_eq (hclean : source.ending = .clean) :
    source.next.1 = source.pending.headD (.error .exhausted) ∧
      source.next.2.pending = source.pending.tail := by
  cases hpeeked : source.peeked with
  | some result =>
    rw [next_of_peeked hpeeked, pending, hpeeked]
    exact ⟨rfl, rfl⟩
  | none =>
    rw [next_of_unpeeked hpeeked, pending_of_unpeeked hclean hpeeked]
    cases hread : source.readNext.1 with
    | some result => exact ⟨rfl, rfl⟩
    | none =>
      rw [pending_of_none hclean hread]
      exact ⟨rfl, rfl⟩

/-- What holds after any calls, of a text with these lines: some of them are taken, and those of them
that are text are counted. -/
structure Reached (lines : List Bytes) (source : JsonLines) : Prop where
  clean : source.ending = .clean
  taken : ∃ taken, taken ++ source.lines = lines ∧ source.lineNumber = taken.countP Lines.isText

namespace Reached

variable {lines : List Bytes}

theorem readNext (h : Reached lines source) : Reached lines source.readNext.2 := by
  obtain ⟨taken, hlines, hnumber⟩ := h.taken
  obtain ⟨more, hmore, hcount⟩ := taken_of_readLines source.lineNumber source.lines
  rw [readNext_of_clean h.clean]
  refine ⟨rfl, taken ++ more, ?_, ?_⟩
  · rw [List.append_assoc, hmore, hlines]
  · rw [List.countP_append, ← hnumber]
    exact hcount

theorem hasMore (h : Reached lines source) : Reached lines source.hasMore.2 := by
  cases hpeeked : source.peeked with
  | some result => rwa [hasMore_of_peeked hpeeked]
  | none =>
    rw [hasMore_of_unpeeked hpeeked]
    exact ⟨h.readNext.clean, h.readNext.taken⟩

theorem next (h : Reached lines source) : Reached lines source.next.2 := by
  cases hpeeked : source.peeked with
  | some result =>
    rw [next_of_peeked hpeeked]
    exact ⟨h.clean, h.taken⟩
  | none =>
    rw [next_of_unpeeked hpeeked]
    exact h.readNext

end Reached

/-! ## Any calls -/

open Source (reads)

/-- **Any calls** leave the numbers of the lines that are taken. -/
theorem reached_answers {lines : List Bytes} (h : Reached lines source)
    (calls : List Source.Call) :
    ∃ after, ((Source.jsonLines source).answers calls).2 = .jsonLines after ∧
      Reached lines after := by
  induction calls generalizing source with
  | nil => exact ⟨source, rfl, h⟩
  | cons call calls ih =>
    cases call with
    | hasMore => exact ih h.hasMore
    | next => exact ih h.next

/-- **Any calls** read what is to be read, and then the end. -/
theorem reads_eq_pending {lines : List Bytes} (h : Reached lines source)
    (calls : List Source.Call) :
    reads ((Source.jsonLines source).answers calls).1 =
      source.pending.take (calls.count .next) ++
        .replicate (calls.count .next - source.pending.length) (.error .exhausted) := by
  induction calls generalizing source with
  | nil => simp [reads]
  | cons call calls ih =>
    cases call with
    | hasMore =>
      rw [Source.answers_hasMore_cons, List.count_cons_of_ne (by decide), ← pending_hasMore h.clean]
      exact ih h.hasMore
    | next =>
      obtain ⟨hhead, htail⟩ := next_eq h.clean
      have hrest := ih h.next
      rw [htail] at hrest
      rw [Source.answers_next_cons, List.count_cons_self]
      refine (congrArg₂ List.cons hhead hrest).trans ?_
      cases source.pending with
      | nil => simp [List.replicate_succ]
      | cons first others => simp

theorem reached_ofBytes (bytes : Bytes) :
    Reached (Lines.ofBytes bytes .clean) (ofBytes bytes .clean) :=
  ⟨rfl, [], rfl, rfl⟩

/-- **The outcomes of the lines are read, and then the end.**  A text has its lines in one way.
Whatever is asked in between, reads give what these lines give one after the other, each for itself,
but for the numbers of lines in errors: nothing where a line is blank, an error where it is not text,
not JSON or JSON that is refused, or not the JSON of a document, and else its document. -/
theorem reads_one_outcome_a_line (bytes : Bytes) (calls : List Source.Call) :
    ∃ lines, (∀ other, Lines.Laid bytes other ↔ other = lines) ∧
      (∀ line ∈ lines, Gives line (outcome? line)) ∧
      (reads ((Source.jsonLines (ofBytes bytes .clean)).answers calls).1).map
          (·.mapError Error.unnumbered) =
        (lines.filterMap outcome?).take (calls.count .next) ++
          .replicate (calls.count .next - (lines.filterMap outcome?).length)
            (.error .exhausted) := by
  refine ⟨_, fun _ => Lines.laid_iff, fun line _ => gives_outcome? line, ?_⟩
  have hreads := reads_eq_pending (reached_ofBytes bytes) calls
  have houtcomes := unnumbered_outcomes 0 (Lines.ofBytes bytes .clean)
  rw [hreads, List.map_append, List.map_take, List.map_replicate, ← houtcomes, List.length_map]
  rfl

/-- A blank line, one that is not text and an object without a line feed, and a question in front. -/
theorem reads_object_after_blank :
    ∃ lines, lines = [[32], [255], [123, 125]] ∧
      Lines.Laid [32, 10, 255, 10, 123, 125] lines ∧
      [123, 125] ∈ lines ∧ Gives [123, 125] (some (.ok [])) ∧
      (reads ((Source.jsonLines (ofBytes [32, 10, 255, 10, 123, 125] .clean)).answers
          [.hasMore, .next, .next, .next]).1).map (·.mapError Error.unnumbered) =
        [.error (.io notText), .ok [], .error .exhausted] := by
  obtain ⟨lines, hlines, hgives, hreads⟩ :=
    reads_one_outcome_a_line [32, 10, 255, 10, 123, 125] [.hasMore, .next, .next, .next]
  obtain rfl : [[32], [255], [123, 125]] = lines := (hlines _).1 (Lines.laid_iff.2 rfl)
  have hmem : [123, 125] ∈ ([[32], [255], [123, 125]] : List Bytes) := by decide
  have hobject : outcome? [123, 125] = some (.ok []) := by with_unfolding_all rfl
  refine ⟨_, rfl, (hlines _).2 rfl, hmem, ?_, ?_⟩
  · rw [← hobject]
    exact hgives _ hmem
  · rw [hreads]
    with_unfolding_all rfl

/-- The first thing that is read from a text of one line is the outcome of the line. -/
theorem reads_of_one_line {line : Bytes} (hne : line ≠ []) (hline : 10 ∉ line)
    {result : Except Error Document} (h : outcomeAt 1 line = some result) :
    reads ((Source.jsonLines (ofBytes line .clean)).answers [.next]).1 = [result] := by
  have hlines := Lines.eq_ofBytes_of_laid (.last hne hline)
  have hpending : (ofBytes line .clean).pending = [result] := by
    rw [pending, ofBytes, ← hlines, outcomes, h]
    rfl
  rw [reads_eq_pending (reached_ofBytes _), hpending]
  rfl

theorem bytes_brackets (depth : Nat) :
    Utf8.bytes (String.ofList (Json.brackets depth)) =
      List.replicate (depth + 1) 91 ++ List.replicate (depth + 1) 93 := by
  have hascii : ∀ c ∈ Json.brackets depth, c.toNat < 128 := by
    intro c hc
    rw [Json.brackets, List.mem_append, List.mem_replicate, List.mem_replicate] at hc
    rcases hc with ⟨-, rfl⟩ | ⟨-, rfl⟩ <;> decide
  rw [Utf8.bytes, String.toList_ofList, Utf8.encode_ascii hascii, Json.brackets, List.map_append,
    List.map_replicate, List.map_replicate]
  rfl

/-- What is read from one line of JSON that is refused. -/
theorem reads_of_refused {text : String} {w : Json.Written} (h : Json.TextOf w text)
    (hw : 127 < w.levels ∨ w.value? Json.Numeral.value? = none) (hblank : isBlankText text = false)
    (hne : Utf8.bytes text ≠ []) (hline : 10 ∉ Utf8.bytes text) :
    ∃ fault, reads ((Source.jsonLines (ofBytes (Utf8.bytes text) .clean)).answers [.next]).1 =
      [.error (.json fault)] := by
  obtain ⟨fault, hread⟩ := Json.read_eq_error_of_textOf h hw
  have houtcome : outcomeAt 1 (Utf8.bytes text) = some (.error (.json fault)) := by
    unfold outcomeAt outcomeBy documentOf Document.parse
    rw [Utf8.decode_bytes]
    simp only [hblank, hread]
    rfl
  exact ⟨fault, reads_of_one_line hne hline houtcome⟩

/-- A number beyond the finite doubles is JSON in an array, and has no value. -/
theorem textOf_large :
    ∃ w, Json.TextOf (.array [w]) (String.ofList ['[', '1', 'e', '9', '9', '9', ']']) ∧
      Json.Written.value? Json.Numeral.value? (.array [w]) = none := by
  have hwhole : Json.IsWhole ['1'] := ⟨Json.isDigits_of_all rfl, by decide⟩
  have hdigits : Json.IsDigits ['9', '9', '9'] := Json.isDigits_of_all rfl
  have hnumeral : Json.NumeralText ⟨false, ['1'], none, some (digitsValue 10 ['9', '9', '9'])⟩
      ['1', 'e', '9', '9', '9'] := .mk hwhole .none (.plain (.inl rfl) hdigits)
  have hvalue : Json.ElementText (.array [.number _]) ['[', '1', 'e', '9', '9', '9', ']'] [] :=
    .mk .none (.array (.last (.mk .none (.number hnumeral rfl) .none))) .none
  exact ⟨_, Json.textOf_ofList hvalue, by with_unfolding_all rfl⟩

/-- One half of a character is JSON in an array, and has no value. -/
theorem textOf_half :
    ∃ w, Json.TextOf (.array [w])
        (String.ofList ['[', '"', '\\', 'u', 'd', '8', '0', '0', '"', ']']) ∧
      Json.Written.value? Json.Numeral.value? (.array [w]) = none := by
  have hunit : Json.UnitText (((13 * 16 + 8) * 16 + 0) * 16 + 0) ['d', '8', '0', '0', '"', ']']
      ['"', ']'] := .mk rfl rfl rfl rfl
  have hvalue : Json.ElementText (.array [.string _])
      ['[', '"', '\\', 'u', 'd', '8', '0', '0', '"', ']'] [] :=
    .mk .none (.array (.last (.mk .none (.string (.unit hunit .done)) .none))) .none
  exact ⟨_, Json.textOf_ofList hvalue, rfl⟩

/-- The line is the JSON of an array, and it is not refused as an array, but as no JSON. -/
def IsRefusedArray (line : Bytes) : Prop :=
  ∃ text items fault, Utf8.bytes text = line ∧ Json.TextOf (.array items) text ∧
    reads ((Source.jsonLines (ofBytes line .clean)).answers [.next]).1 = [.error (.json fault)]

/-- Arrays in one another to 128 levels, a number beyond the doubles and one half of a character. -/
theorem refused_lines_of_json :
    IsRefusedArray (List.replicate 128 91 ++ List.replicate 128 93) ∧
      IsRefusedArray [91, 49, 101, 57, 57, 57, 93] ∧
      IsRefusedArray [91, 34, 92, 117, 100, 56, 48, 48, 34, 93] := by
  refine ⟨?_, ?_, ?_⟩
  · have hbytes := bytes_brackets 127
    have hblank : isBlankText (String.ofList (Json.brackets 127)) = false := by
      rw [isBlankText, String.toList_ofList]
      rfl
    have hline : 10 ∉ (List.replicate 128 91 ++ List.replicate 128 93 : Bytes) := by
      rw [List.mem_append, List.mem_replicate, List.mem_replicate]
      rintro (⟨-, h⟩ | ⟨-, h⟩) <;> exact absurd h (by decide)
    have hdeep : 127 < (Json.nest 127).levels := by rw [Json.levels_nest]; decide
    have htext := Json.textOf_brackets 127
    obtain ⟨fault, hreads⟩ := reads_of_refused htext (.inl hdeep) hblank
      (hbytes ▸ List.cons_ne_nil _ _) (hbytes ▸ hline)
    rw [hbytes] at hreads
    exact ⟨_, _, fault, hbytes, htext, hreads⟩
  · obtain ⟨w, htext, hvalue⟩ := textOf_large
    obtain ⟨fault, hreads⟩ := reads_of_refused htext (.inr hvalue) (by decide)
      (List.cons_ne_nil _ _) (by decide)
    exact ⟨_, _, fault, rfl, htext, hreads⟩
  · obtain ⟨w, htext, hvalue⟩ := textOf_half
    obtain ⟨fault, hreads⟩ := reads_of_refused htext (.inr hvalue) (by decide)
      (List.cons_ne_nil _ _) (by decide)
    exact ⟨_, _, fault, rfl, htext, hreads⟩

/-- **The number of a line leaves out those that are not text.**  After any calls, the lines of text
are counted among those that are taken, so that the count is that of all of them only where there
are no others. An error of a malformed line has the number that the line gets in this way. -/
theorem counts_lines_of_text (bytes : Bytes) (calls : List Source.Call) :
    ∃ lines after taken, (∀ other, Lines.Laid bytes other ↔ other = lines) ∧
      ((Source.jsonLines (ofBytes bytes .clean)).answers calls).2 = .jsonLines after ∧
      taken ++ after.lines = lines ∧ after.lineNumber = taken.countP Lines.isText ∧
      (after.lineNumber = taken.length ↔ ∀ line ∈ taken, ∃ text, Utf8.bytes text = line) ∧
      ∀ (i : Nat) (offset : Option Nat) (fault : Fault),
        (reads ((Source.jsonLines (ofBytes bytes .clean)).answers calls).1)[i]? =
            some (.error (.malformed offset fault)) →
          ∃ before line rest number inner, lines = before ++ line :: rest ∧
            (before.filterMap outcome?).length = i ∧
            outcome? line = some (.error (.malformed none inner)) ∧
            offset = none ∧ fault = .atLine number inner ∧
            number = before.countP Lines.isText + 1 ∧
            (number = before.length + 1 ↔ ∀ other ∈ before, ∃ text, Utf8.bytes text = other) := by
  obtain ⟨after, hafter, hreached⟩ := reached_answers (reached_ofBytes bytes) calls
  obtain ⟨taken, htaken, hnumber⟩ := hreached.taken
  refine ⟨_, after, taken, fun _ => Lines.laid_iff, hafter, htaken, hnumber, ?_, ?_⟩
  · rw [hnumber, Lines.countP_isText_eq_length_iff]
  · intro i offset fault h
    have hreads := reads_eq_pending (reached_ofBytes bytes) calls
    have hpending : (outcomes 0 (Lines.ofBytes bytes .clean))[i]? =
        some (.error (.malformed offset fault)) := by
      rw [hreads, List.getElem?_append] at h
      split at h
      · rw [List.getElem?_take] at h
        split at h
        · exact h
        · cases h
      · rw [List.getElem?_replicate] at h
        split at h <;> cases h
    obtain ⟨before, line, rest, hlines, hlength, houtcome⟩ := line_of_outcomes hpending
    rw [Nat.zero_add] at houtcome
    obtain ⟨inner, hoffset, hfault, hline⟩ := atLine_of_outcomeAt houtcome
    refine ⟨before, line, rest, _, inner, hlines, hlength, hline, hoffset, hfault, rfl, ?_⟩
    rw [Nat.add_right_cancel_iff, Lines.countP_isText_eq_length_iff]

/-- A blank line is counted, and the line behind it is the second. -/
theorem counts_a_blank_line :
    (reads ((Source.jsonLines (ofBytes [10, 91, 49, 93, 10] .clean)).answers
        [.hasMore, .next]).1)[0]? =
      some (.error (.malformed none (.atLine 2 (.notAnObject (.array [.ofInt32 1]))))) ∧
    ∃ before line rest, Lines.ofBytes [10, 91, 49, 93, 10] .clean = before ++ line :: rest ∧
      (before.filterMap outcome?).length = 0 ∧ before.countP Lines.isText + 1 = 2 := by
  have hread : (reads ((Source.jsonLines (ofBytes [10, 91, 49, 93, 10] .clean)).answers
        [.hasMore, .next]).1)[0]? =
      some (.error (.malformed none (.atLine 2 (.notAnObject (.array [.ofInt32 1]))))) := by
    with_unfolding_all rfl
  obtain ⟨lines, after, taken, hlines, -, -, -, -, herrors⟩ :=
    counts_lines_of_text [10, 91, 49, 93, 10] [.hasMore, .next]
  obtain ⟨before, line, rest, number, inner, heq, hlength, -, -, hfault, hnumber, -⟩ :=
    herrors 0 none _ hread
  obtain ⟨rfl, -⟩ := Fault.atLine.inj hfault
  exact ⟨hread, before, line, rest, ((hlines _).1 (Lines.laid_iff.2 rfl)).trans heq, hlength,
    hnumber.symm⟩

/-- A line that is not text is taken and not counted, and the line behind it has its number. -/
theorem line_behind_no_text_is_misnumbered :
    (∃ after taken,
      ((Source.jsonLines (ofBytes [255, 10, 91, 49, 93, 10] .clean)).answers
        [.next, .next]).2 = .jsonLines after ∧
      Lines.ofBytes [255, 10, 91, 49, 93, 10] .clean = taken ++ after.lines ∧
      taken.length = 2 ∧ after.lineNumber = 1) ∧
    reads ((Source.jsonLines (ofBytes [255, 10, 91, 49, 93, 10] .clean)).answers
        [.next, .next]).1 =
      [.error (.io notText),
        .error (.malformed none (.atLine 1 (.notAnObject (.array [.ofInt32 1]))))] :=
  ⟨⟨_, [[255], [91, 49, 93]], rfl, rfl, rfl, rfl⟩, by with_unfolding_all rfl⟩

end JsonLines

end DocTable
