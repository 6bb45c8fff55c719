import DocTable.Proofs.ExtendedJson.Refusal
import DocTable.Proofs.Source.WireStream

/-!
# Asking whether there is more

To answer whether there is more, a source may have to read ahead.

* `next_hasMore`, `hasMore_hasMore` — what is read next, and what a second question is answered, is
  the same whether the source was asked before or not.
* `next_of_hasMore_eq_false` — where there is nothing more, a read meets the end.
* `Source.Truthful` — no item that waits to be read is the end itself. Every call keeps this, and so
  a source has more unless a read meets the end.
* `reads_answers` — questions in between do not change what is read.
* `hasMore_faithful_and_harmless` — both together, for every source and any calls.
-/

set_option autoImplicit false

namespace DocTable

/-! ## Streams of documents -/

namespace WireStream

variable {stream : WireStream}

theorem cutOff_ne_exhausted (fault : Fault) : stream.cutOff fault ≠ .exhausted := by
  unfold cutOff
  split <;> exact nofun

theorem rebased_ne_exhausted {error : Error} (base : Nat) (h : error ≠ .exhausted) :
    error.rebased base ≠ .exhausted := by
  unfold Error.rebased
  split
  · exact nofun
  · exact h

theorem documentLength_ne_exhausted : stream.documentLength ≠ .error .exhausted := by
  intro h
  unfold documentLength at h
  simp only at h
  split at h
  · exact cutOff_ne_exhausted _ (Except.error.inj h)
  · split at h
    · rename_i error herror
      have hfound := Wire.foundIn_documentLengthAt herror
      exact rebased_ne_exhausted _ hfound.ne_exhausted (Except.error.inj h)
    · split at h <;> cases h

/-- A document that cannot be read is not the end of the stream. -/
theorem document_ne_exhausted : stream.document ≠ .error .exhausted := by
  intro h
  rcases Steps.bind_eq_error.1 h with hlength | ⟨length, hlength, h⟩
  · exact documentLength_ne_exhausted hlength
  · simp only at h
    split at h
    · exact cutOff_ne_exhausted _ (Except.error.inj h)
    · rename_i hlong
      split at h
      · rename_i error herror
        obtain ⟨hfour, hdeclared, -⟩ := documentLength_eq_ok_iff.1 hlength
        have hfive := (Wire.little_of_documentLengthAt hdeclared).1
        simp only [Wire.minDocumentLength] at hfive
        have hbuffer : stream.rest.take length ≠ [] := List.length_pos_iff.1 (by omega)
        have hfound := Document.foundIn_of_decode hbuffer herror
        exact rebased_ne_exhausted _ hfound.ne_exhausted (Except.error.inj h)
      · cases h

theorem next_of_hasMore_eq_false (h : stream.hasMore = false) :
    stream.next = (.error .exhausted, stream) := by
  unfold hasMore at h
  unfold next
  cases hfailed : stream.failed with
  | true => simp
  | false =>
    simp only [hfailed, Bool.not_false, Bool.true_and, Bool.or_eq_false_iff, ne_eq,
      decide_eq_false_iff_not, not_not] at h
    simp [h.1, h.2]

/-- As long as there is more, a read does not meet the end. -/
theorem next_ne_exhausted (h : stream.hasMore = true) : stream.next.1 ≠ .error .exhausted := by
  unfold hasMore at h
  unfold next
  simp only [Bool.and_eq_true, Bool.not_eq_true', Bool.or_eq_true, ne_eq, decide_eq_true_eq] at h
  obtain ⟨hfailed, hmore⟩ := h
  rw [hfailed]
  simp only [Bool.false_eq_true, if_false]
  split
  · simp_all
  · exact nofun
  · cases hdocument : stream.document with
    | error error =>
      intro hexhausted
      cases hexhausted
      exact document_ne_exhausted hdocument
    | ok result => exact nofun

end WireStream

/-! ## Lines of JSON -/

namespace JsonLines

variable {lines : JsonLines}

theorem documentOf_ne_exhausted (number : Nat) (line : String) :
    documentOf number line ≠ .error .exhausted := by
  intro h
  unfold documentOf at h
  split at h
  · cases h
  · rename_i error herror
    rcases Document.error_of_parse herror with ⟨fault, rfl⟩ | ⟨fault, rfl⟩ <;> cases h

/-- A line is never the end of the text. -/
theorem readLines_ne_exhausted (ending : Ending) (number : Nat) (lines : List Bytes) :
    (readLines ending number lines).1 ≠ some (.error .exhausted) := by
  induction lines generalizing number with
  | nil => cases ending <;> exact nofun
  | cons line lines ih =>
    rw [readLines]
    split
    · exact nofun
    · split
      · exact ih _
      · exact fun h => documentOf_ne_exhausted _ _ (Option.some.inj h)

/-- Nothing is left where nothing was found. -/
theorem readLines_of_none {ending : Ending} {number : Nat} {lines : List Bytes}
    (h : (readLines ending number lines).1 = none) :
    ending = .clean ∧ (readLines ending number lines).2.1 = [] := by
  induction lines generalizing number with
  | nil =>
    cases ending with
    | clean => exact ⟨rfl, rfl⟩
    | failure text => cases h
  | cons line lines ih =>
    rw [readLines] at h ⊢
    split at h
    · cases h
    · split at h
      · rename_i hblank
        rw [if_pos hblank]
        exact ih h
      · cases h

theorem hasMore_of_peeked {result : Except Error Document} (h : lines.peeked = some result) :
    lines.hasMore = (true, lines) := by
  unfold hasMore
  rw [h]

theorem hasMore_of_unpeeked (h : lines.peeked = none) :
    lines.hasMore =
      (lines.readNext.1.isSome, { lines.readNext.2 with peeked := lines.readNext.1 }) := by
  unfold hasMore
  rw [h]

theorem next_of_peeked {result : Except Error Document} (h : lines.peeked = some result) :
    lines.next = (result, { lines with peeked := none }) := by
  unfold next
  rw [h]

theorem next_of_unpeeked (h : lines.peeked = none) :
    lines.next = (lines.readNext.1.getD (.error .exhausted), lines.readNext.2) := by
  unfold next
  rw [h]

/-- Behind the last line nothing is found again. -/
theorem readNext_of_none (h : lines.readNext.1 = none) :
    lines.readNext.2.readNext = (none, lines.readNext.2) := by
  obtain ⟨hclean, hrest⟩ := readLines_of_none h
  unfold readNext
  simp only [hrest]
  rw [hclean]
  rfl

theorem hasMore_of_end (hpeeked : lines.peeked = none) (hread : lines.readNext.1 = none) :
    lines.hasMore = (false, lines.readNext.2) := by
  rw [hasMore_of_unpeeked hpeeked, hread]
  rfl

/-- A line that was looked at is the next one to be read. -/
theorem next_hasMore (lines : JsonLines) : lines.hasMore.2.next = lines.next := by
  cases hpeeked : lines.peeked with
  | some result => rw [hasMore_of_peeked hpeeked]
  | none =>
    cases hread : lines.readNext.1 with
    | some result =>
      rw [hasMore_of_unpeeked hpeeked, next_of_unpeeked hpeeked, hread]
      rfl
    | none =>
      rw [hasMore_of_end hpeeked hread, next_of_unpeeked hpeeked, next_of_unpeeked rfl,
        readNext_of_none hread, hread]

theorem hasMore_hasMore (lines : JsonLines) : lines.hasMore.2.hasMore = lines.hasMore := by
  cases hpeeked : lines.peeked with
  | some result => rw [hasMore_of_peeked hpeeked, hasMore_of_peeked hpeeked]
  | none =>
    cases hread : lines.readNext.1 with
    | some result =>
      rw [hasMore_of_unpeeked hpeeked, hread]
      exact hasMore_of_peeked rfl
    | none =>
      rw [hasMore_of_end hpeeked hread]
      have hagain := readNext_of_none hread
      rw [hasMore_of_end rfl (by rw [hagain]), hagain]

theorem next_of_hasMore_eq_false (h : lines.hasMore.1 = false) :
    lines.next = (.error .exhausted, lines.hasMore.2) := by
  cases hpeeked : lines.peeked with
  | some result =>
    rw [hasMore_of_peeked hpeeked] at h
    cases h
  | none =>
    cases hread : lines.readNext.1 with
    | some result =>
      rw [hasMore_of_unpeeked hpeeked, hread] at h
      cases h
    | none =>
      rw [hasMore_of_end hpeeked hread, next_of_unpeeked hpeeked, hread]
      rfl

/-- As long as there is more, a read does not meet the end. -/
theorem next_ne_exhausted (hpeeked : lines.peeked ≠ some (.error .exhausted))
    (h : lines.hasMore.1 = true) : lines.next.1 ≠ .error .exhausted := by
  cases hlooked : lines.peeked with
  | some result =>
    rw [next_of_peeked hlooked]
    rintro rfl
    exact hpeeked hlooked
  | none =>
    cases hread : lines.readNext.1 with
    | some result =>
      rw [next_of_unpeeked hlooked, hread, Option.getD_some]
      rintro rfl
      exact readLines_ne_exhausted _ _ _ hread
    | none =>
      rw [hasMore_of_end hlooked hread] at h
      cases h

end JsonLines

/-! ## All sources -/

namespace Source

/-- What is read next does not depend on whether the source was asked before. -/
theorem next_hasMore (source : Source) : source.hasMore.2.next = source.next := by
  cases source with
  | queue docs => rfl
  | feed items => rfl
  | wire stream => rfl
  | jsonLines lines =>
    simp only [hasMore, next, JsonLines.next_hasMore]

/-- A source that is asked twice answers twice the same. -/
theorem hasMore_hasMore (source : Source) : source.hasMore.2.hasMore = source.hasMore := by
  cases source with
  | queue docs => rfl
  | feed items => rfl
  | wire stream => rfl
  | jsonLines lines =>
    simp only [hasMore, JsonLines.hasMore_hasMore]

/-- Where there is nothing more, a read meets the end. -/
theorem next_of_hasMore_eq_false {source : Source} (h : source.hasMore.1 = false) :
    source.next = (.error .exhausted, source.hasMore.2) := by
  cases source with
  | queue docs =>
    cases docs with
    | nil => rfl
    | cons doc docs => cases h
  | feed items =>
    cases items with
    | nil => rfl
    | cons item items => cases h
  | wire stream =>
    simp only [hasMore, next, WireStream.next_of_hasMore_eq_false h]
  | jsonLines lines =>
    simp only [hasMore, next, JsonLines.next_of_hasMore_eq_false h]

/-- No item that waits to be read is the end of the source. -/
def Truthful : Source → Prop
  | queue _ => True
  | feed items => .error .exhausted ∉ items
  | wire _ => True
  | jsonLines lines => lines.peeked ≠ some (.error .exhausted)

namespace Truthful

variable {source : Source}

/-- Reading meets the end exactly where there is nothing more. -/
theorem hasMore_eq_false_iff (h : source.Truthful) :
    source.hasMore.1 = false ↔ source.next.1 = .error .exhausted := by
  refine ⟨fun hmore => by rw [next_of_hasMore_eq_false hmore], fun hnext => ?_⟩
  rw [← Bool.not_eq_true]
  intro hmore
  cases source with
  | queue docs =>
    cases docs with
    | nil => cases hmore
    | cons doc docs => cases hnext
  | feed items =>
    cases items with
    | nil => cases hmore
    | cons item items =>
      have hitem : item = .error .exhausted := hnext
      exact h (hitem ▸ List.mem_cons_self)
  | wire stream => exact WireStream.next_ne_exhausted hmore hnext
  | jsonLines lines => exact JsonLines.next_ne_exhausted h hmore hnext

theorem hasMore (h : source.Truthful) : source.hasMore.2.Truthful := by
  cases source with
  | queue docs => exact h
  | feed items => exact h
  | wire stream => exact h
  | jsonLines lines =>
    cases hpeeked : lines.peeked with
    | some result =>
      simp only [Source.hasMore, JsonLines.hasMore_of_peeked hpeeked]
      exact h
    | none =>
      simp only [Source.hasMore, JsonLines.hasMore_of_unpeeked hpeeked]
      exact JsonLines.readLines_ne_exhausted _ _ _

theorem next (h : source.Truthful) : source.next.2.Truthful := by
  cases source with
  | queue docs => cases docs <;> exact h
  | feed items =>
    cases items with
    | nil => exact h
    | cons item items => exact fun hmem => h (List.mem_cons_of_mem item hmem)
  | wire stream => exact trivial
  | jsonLines lines =>
    cases hpeeked : lines.peeked with
    | some result =>
      simp only [Source.next, JsonLines.next_of_peeked hpeeked]
      exact (Option.some_ne_none _).symm
    | none =>
      simp only [Source.next, JsonLines.next_of_unpeeked hpeeked]
      exact (Option.some_ne_none _).symm

/-- **One call** keeps it. -/
theorem answer (h : source.Truthful) (call : Call) : (source.answer call).2.Truthful := by
  cases call with
  | hasMore => exact h.hasMore
  | next => exact h.next

/-- **Any calls** keep it. -/
theorem answers (h : source.Truthful) (calls : List Call) : (source.answers calls).2.Truthful := by
  induction calls generalizing source with
  | nil => exact h
  | cons call calls ih => exact ih (h.answer call)

end Truthful

/-- A source that was not asked anything yet. What it feeds may fail, but does not feign the end. -/
inductive AtStart : Source → Prop
  | queue (docs : List Document) : AtStart (queue docs)
  | feed {items : List (Except Error Document)} :
      (∀ item ∈ items, item ≠ .error .exhausted) → AtStart (feed items)
  | wire (bytes : Bytes) (ending : Ending) : AtStart (wire (WireStream.ofBytes bytes ending))
  | jsonLines (bytes : Bytes) (ending : Ending) :
      AtStart (jsonLines (JsonLines.ofBytes bytes ending))

theorem AtStart.truthful {source : Source} (h : source.AtStart) : source.Truthful := by
  cases h with
  | queue docs => exact trivial
  | feed hitems => exact fun hmem => hitems _ hmem rfl
  | wire bytes ending => exact trivial
  | jsonLines bytes ending => exact nofun

/-! ## Questions in between -/

/-- What was read, if the answer is that to a read. -/
def Answer.read? : Answer → Option (Except Error Document)
  | more _ => none
  | document result => some result

/-- What was read, in order. -/
def reads (answers : List Answer) : List (Except Error Document) :=
  answers.filterMap Answer.read?

theorem answers_next_cons (source : Source) (calls : List Call) :
    reads (source.answers (.next :: calls)).1 =
      source.next.1 :: reads (source.next.2.answers calls).1 := rfl

theorem answers_hasMore_cons (source : Source) (calls : List Call) :
    reads (source.answers (.hasMore :: calls)).1 =
      reads (source.hasMore.2.answers calls).1 := rfl

/-- A question in front of reads does not change what is read. -/
theorem reads_of_hasMore (source : Source) (count : Nat) :
    reads (source.hasMore.2.answers (.replicate count .next)).1 =
      reads (source.answers (.replicate count .next)).1 := by
  cases count with
  | zero => rfl
  | succ count => rw [List.replicate_succ, answers_next_cons, answers_next_cons, next_hasMore]

/-- **Questions in between** do not change what is read: only the number of reads counts. -/
theorem reads_answers (source : Source) (calls : List Call) :
    reads (source.answers calls).1 =
      reads (source.answers (.replicate (calls.count .next) .next)).1 := by
  induction calls generalizing source with
  | nil => rfl
  | cons call calls ih =>
    cases call with
    | hasMore =>
      rw [answers_hasMore_cons, ih, reads_of_hasMore, List.count_cons_of_ne (by decide)]
    | next =>
      rw [answers_next_cons, ih, List.count_cons_self, List.replicate_succ, answers_next_cons]

/-- **Asking whether there is more is faithful and harmless.**  Whatever a source was asked before,
it has nothing more exactly if a read right after the question meets the end; and two series of
calls that differ only in how often and where they ask read the same. -/
theorem hasMore_faithful_and_harmless {source : Source} (h : source.AtStart) :
    (∀ calls : List Call, (source.answers calls).2.hasMore.1 = false ↔
      (source.answers calls).2.hasMore.2.next.1 = .error .exhausted) ∧
    ∀ calls others : List Call,
      calls.filter (· ≠ .hasMore) = others.filter (· ≠ .hasMore) →
        reads (source.answers calls).1 = reads (source.answers others).1 := by
  refine ⟨fun calls => ?_, fun calls others hsame => ?_⟩
  · rw [next_hasMore]
    exact (h.truthful.answers calls).hasMore_eq_false_iff
  · have hcount : calls.count .next = others.count .next := by
      have hfilter := congrArg (List.count Call.next) hsame
      rwa [List.count_filter (by decide), List.count_filter (by decide)] at hfilter
    rw [reads_answers source calls, reads_answers source others, hcount]

/-- A blank line, one that is not text, and then a failure that every read meets again: after the
question and the read of the second line there is more, and it is the failure. -/
theorem hasMore_before_failure :
    ∃ (source : Source) (failure : Except Error Document),
      source = .jsonLines (JsonLines.ofBytes [32, 10, 255, 10] (.failure "gone")) ∧
      failure = .error (.io "gone") ∧ source.AtStart ∧
      ((source.answers [.hasMore, .next]).2.hasMore.1 = false ↔
        (source.answers [.hasMore, .next]).2.hasMore.2.next.1 = .error .exhausted) ∧
      (source.answers [.hasMore, .next]).2.hasMore.1 = true ∧
      (source.answers [.hasMore, .next]).2.hasMore.2.next.1 = failure ∧
      [Call.hasMore, .next, .hasMore, .hasMore, .next].filter (· ≠ .hasMore) =
        [Call.next, .hasMore, .next].filter (· ≠ .hasMore) ∧
      reads (source.answers [.hasMore, .next, .hasMore, .hasMore, .next]).1 =
        reads (source.answers [.next, .hasMore, .next]).1 := by
  have hstart := AtStart.jsonLines [32, 10, 255, 10] (.failure "gone")
  obtain ⟨hfaithful, hharmless⟩ := hasMore_faithful_and_harmless hstart
  exact ⟨_, _, rfl, rfl, hstart, hfaithful _, by with_unfolding_all rfl,
    by with_unfolding_all rfl, rfl, hharmless _ _ rfl⟩

end Source

end DocTable
