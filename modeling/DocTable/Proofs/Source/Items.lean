import DocTable.Proofs.Steps
import DocTable.Proofs.Source.Probe
import DocTable.Source.Pages

/-!
# The items of a source

* `Source.items` — what a source gives, documents and errors, up to its end.
* `Delivers.length_le_bound` — there are no more documents than the bound of the source says.
* `reads_eq_items` — this is what successive reads give before they meet the end.
* `fill_eq_foldlM`, `flatten_congr` — a page is made of the next items and nothing else, whatever
  kind of source gives them.
* `items_of_flatten` — a page that is made leaves the items behind its own to the next one.
* `docs_of_flatten` — the items of a page that is made are documents; `fill_eq_error_of_mem` — so an
  error among them keeps it from being made.
-/

set_option autoImplicit false

namespace DocTable

/-! ## What a document takes of its source -/

namespace WireStream

variable {stream : WireStream} {doc : Document}

/-- What is read from a stream stands in front of it. -/
theorem document_of_next (h : stream.next.1 = .ok doc) :
    stream.failed = false ∧ stream.rest ≠ [] ∧ ∃ length, stream.document = .ok (doc, length) := by
  unfold next at h
  split at h
  · cases h
  · rename_i hfailed
    refine ⟨Bool.eq_false_iff.2 hfailed, ?_⟩
    split at h
    · cases h
    · cases h
    · rename_i hrest
      refine ⟨by rw [hrest]; exact List.cons_ne_nil _ _, ?_⟩
      split at h
      · cases h
      · rename_i doc' length hdocument
        cases h
        exact ⟨length, hdocument⟩

/-- A document takes at least one byte of its stream. -/
theorem length_rest_next (h : stream.next.1 = .ok doc) :
    stream.next.2.rest.length < stream.rest.length := by
  obtain ⟨hfailed, hrest, length, hdocument⟩ := document_of_next h
  obtain ⟨hdoc, hlength, -⟩ := piece_of_document hdocument
  have hfive := Document.five_le_of_decode hdoc
  have hpos := List.length_pos_iff.2 hrest
  rw [next_of_document hfailed hrest hdocument, advance_rest, List.length_drop]
  omega

end WireStream

namespace JsonLines

variable {lines : JsonLines}

/-- A line is read, or the text is at its end. -/
theorem length_of_readLines {ending : Ending} {number : Nat} {list : List Bytes} {doc : Document}
    (h : (readLines ending number list).1 = some (.ok doc)) :
    (readLines ending number list).2.1.length < list.length := by
  induction list generalizing number with
  | nil => cases ending <;> cases h
  | cons line list ih =>
    rw [readLines] at h ⊢
    split at h
    · cases h
    · split at h
      · rename_i hblank
        rw [if_pos hblank]
        exact Nat.lt_succ_of_lt (ih h)
      · rename_i hline
        rw [if_neg hline]
        exact Nat.lt_succ_self _

/-- How many documents can still be read: one a line, and the one that was looked at. -/
def room (lines : JsonLines) : Nat :=
  lines.lines.length + if lines.peeked.isSome then 1 else 0

theorem room_next {doc : Document} (h : lines.next.1 = .ok doc) :
    lines.next.2.room < lines.room := by
  cases hpeeked : lines.peeked with
  | some result =>
    rw [next_of_peeked hpeeked]
    simp [room, hpeeked]
  | none =>
    rw [next_of_unpeeked hpeeked] at h ⊢
    have hread : lines.readNext.1 = some (.ok doc) := by
      cases hread : lines.readNext.1 with
      | some result =>
        rw [hread] at h
        exact congrArg some h
      | none =>
        rw [hread] at h
        cases h
    have hlength := length_of_readLines hread
    simpa [room, readNext, hpeeked] using hlength

end JsonLines

namespace Source

/-! ## What a source gives -/

/-- What up to `count` reads give, as long as there is more. -/
def items : (count : Nat) → Source → List (Except Error Document)
  | 0, _ => []
  | count + 1, source =>
    if source.hasMore.1 then source.next.1 :: items count source.next.2 else []

variable {source other : Source} {count : Nat}

theorem items_of_hasMore_eq_false (count : Nat) (h : source.hasMore.1 = false) :
    source.items count = [] := by
  cases count with
  | zero => rfl
  | succ count =>
    rw [items, h]
    rfl

theorem items_succ_of_hasMore (count : Nat) (h : source.hasMore.1 = true) :
    source.items (count + 1) = source.next.1 :: source.next.2.items count := by
  rw [items, if_pos h]

theorem items_eq_nil_iff (h : 0 < count) :
    source.items count = [] ↔ source.hasMore.1 = false := by
  obtain ⟨fewer, rfl⟩ := Nat.exists_eq_succ_of_ne_zero (Nat.ne_of_gt h)
  cases hmore : source.hasMore.1 with
  | false => simp [items_of_hasMore_eq_false _ hmore]
  | true => simp [items_succ_of_hasMore _ hmore]

theorem length_items_le (count : Nat) (source : Source) :
    (source.items count).length ≤ count := by
  induction count generalizing source with
  | zero => exact Nat.le_refl _
  | succ count ih =>
    rw [items]
    split
    · exact Nat.succ_le_succ (ih _)
    · exact Nat.zero_le _

/-- Fewer reads give the first of the items. -/
theorem items_add (count more : Nat) (source : Source) :
    source.items count = (source.items (count + more)).take count := by
  induction count generalizing source with
  | zero => rw [List.take_zero, items]
  | succ count ih =>
    cases hmore : source.hasMore.1 with
    | false => rw [items_of_hasMore_eq_false _ hmore, items_of_hasMore_eq_false _ hmore]; rfl
    | true =>
      rw [Nat.succ_add, items_succ_of_hasMore _ hmore, items_succ_of_hasMore _ hmore,
        List.take_succ_cons, ← ih]

theorem items_feed (count : Nat) (list : List (Except Error Document)) :
    (feed list).items count = list.take count := by
  induction count generalizing list with
  | zero => rfl
  | succ count ih =>
    cases list with
    | nil => rfl
    | cons item list =>
      rw [items_succ_of_hasMore _ rfl, List.take_succ_cons, ← ih]
      rfl

theorem items_queue (count : Nat) (docs : List Document) :
    (queue docs).items count = (docs.take count).map .ok := by
  induction count generalizing docs with
  | zero => rfl
  | succ count ih =>
    cases docs with
    | nil => rfl
    | cons doc docs =>
      rw [items_succ_of_hasMore _ rfl, List.take_succ_cons, List.map_cons, ← ih]
      rfl

/-- The source gives these documents and then ends. -/
def Delivers (source : Source) (docs : List Document) : Prop :=
  ∀ count, source.items count = (docs.take count).map .ok

theorem delivers_queue (docs : List Document) : (queue docs).Delivers docs :=
  fun count => items_queue count docs

/-! ## How many documents there are -/

/-- How many documents the source can still give: each takes an item, a byte or a line, unless it is
read already. -/
def room : Source → Nat
  | queue docs => docs.length
  | feed items => items.length
  | wire stream => stream.rest.length
  | jsonLines lines => lines.room

theorem room_le_bound (source : Source) : source.room ≤ source.bound := by
  cases source with
  | queue docs => exact Nat.le_refl _
  | feed items => exact Nat.le_refl _
  | wire stream => exact Nat.le_refl _
  | jsonLines lines =>
    unfold room bound JsonLines.room
    dsimp only
    split <;> omega

/-- Reading a document takes up room. -/
theorem room_next {doc : Document} (h : source.next.1 = .ok doc) :
    source.next.2.room < source.room := by
  cases source with
  | queue docs =>
    cases docs with
    | nil => cases h
    | cons doc docs => exact Nat.lt_succ_self _
  | feed items =>
    cases items with
    | nil => cases h
    | cons item items => exact Nat.lt_succ_self _
  | wire stream => exact WireStream.length_rest_next h
  | jsonLines lines => exact JsonLines.room_next h

theorem length_le_room {docs : List Document} (h : source.items count = docs.map .ok) :
    docs.length ≤ source.room := by
  induction docs generalizing source count with
  | nil => exact Nat.zero_le _
  | cons doc docs ih =>
    cases count with
    | zero => cases h
    | succ count =>
      rw [items] at h
      split at h
      · obtain ⟨hdoc, hdocs⟩ := List.cons.inj h
        exact Nat.lt_of_le_of_lt (ih hdocs) (room_next hdoc)
      · cases h

theorem Delivers.length_le_bound {docs : List Document} (h : source.Delivers docs) :
    docs.length ≤ source.bound := by
  have hitems := h docs.length
  rw [List.take_length] at hitems
  exact Nat.le_trans (length_le_room hitems) source.room_le_bound

/-- Reading on and on gives the items and then the end, again and again. -/
theorem reads_eq_items (count : Nat) (source : Source) :
    reads (source.answers (.replicate count .next)).1 =
      source.items count ++
        .replicate (count - (source.items count).length) (.error .exhausted) := by
  induction count generalizing source with
  | zero => rfl
  | succ count ih =>
    rw [List.replicate_succ, answers_next_cons]
    cases hmore : source.hasMore.1 with
    | true =>
      rw [ih, items_succ_of_hasMore _ hmore, List.length_cons, Nat.add_sub_add_right,
        List.cons_append]
    | false =>
      have hagain : source.hasMore.2.hasMore.1 = false := by rw [hasMore_hasMore, hmore]
      rw [next_of_hasMore_eq_false hmore, ih, items_of_hasMore_eq_false _ hmore,
        items_of_hasMore_eq_false _ hagain]
      simp [List.replicate_succ]

end Source

/-! ## One page -/

/-- The table with the row of an item, if the item is a document. -/
def Table.appendItem (options : Options) (table : Table) :
    Except Error Document → Except Error Table
  | .ok doc => table.append options doc
  | .error error => .error error

@[simp] theorem Table.appendItem_ok (options : Options) (table : Table) (doc : Document) :
    table.appendItem options (.ok doc) = table.append options doc := rfl

namespace Source

variable {source other : Source} {options : Options} {table longer filled : Table}
  {rows size : Nat} {error : Error}

theorem fill_of_end (h : source.hasMore.1 = false) :
    source.fill options (rows + 1) table = (.ok table, source.hasMore.2) := by
  have hsource : source.hasMore = (false, source.hasMore.2) := Prod.ext h rfl
  rw [fill, hsource]

theorem fill_of_refused (h : source.hasMore.1 = true)
    (happend : table.appendItem options source.next.1 = .error error) :
    source.fill options (rows + 1) table = (.error error, source.next.2) := by
  have hsource : source.hasMore = (true, source.hasMore.2) := Prod.ext h rfl
  have hnext : source.next = (source.next.1, source.next.2) := rfl
  rw [fill, hsource]
  simp only [next_hasMore]
  rw [hnext]
  cases hitem : source.next.1 with
  | error failure =>
    rw [hitem] at happend
    cases happend
    rfl
  | ok doc =>
    rw [hitem, Table.appendItem_ok] at happend
    simp only [happend]

theorem fill_of_appended (h : source.hasMore.1 = true)
    (happend : table.appendItem options source.next.1 = .ok longer) :
    source.fill options (rows + 1) table = source.next.2.fill options rows longer := by
  have hsource : source.hasMore = (true, source.hasMore.2) := Prod.ext h rfl
  have hnext : source.next = (source.next.1, source.next.2) := rfl
  rw [fill, hsource]
  simp only [next_hasMore]
  rw [hnext]
  cases hitem : source.next.1 with
  | error failure =>
    rw [hitem] at happend
    cases happend
  | ok doc =>
    rw [hitem, Table.appendItem_ok] at happend
    simp only [happend]

/-- Filling a table appends the next items to it. -/
theorem fill_eq_foldlM (rows : Nat) (table : Table) (source : Source) :
    (source.fill options rows table).1 =
      (source.items rows).foldlM (Table.appendItem options) table := by
  induction rows generalizing table source with
  | zero => rfl
  | succ rows ih =>
    cases hmore : source.hasMore.1 with
    | false =>
      rw [fill_of_end hmore, items_of_hasMore_eq_false _ hmore]
      rfl
    | true =>
      rw [items_succ_of_hasMore _ hmore, List.foldlM_cons]
      cases happend : table.appendItem options source.next.1 with
      | error error => rw [fill_of_refused hmore happend, Steps.error_bind]
      | ok longer => rw [fill_of_appended hmore happend, Steps.ok_bind, ih]

/-- A table that is filled leaves the items behind its own. -/
theorem items_of_fill (count : Nat) (h : (source.fill options rows table).1 = .ok filled) :
    (source.fill options rows table).2.items count =
      (source.items (rows + count)).drop rows := by
  induction rows generalizing table source with
  | zero =>
    rw [Nat.zero_add]
    rfl
  | succ rows ih =>
    cases hmore : source.hasMore.1 with
    | false =>
      have hagain : source.hasMore.2.hasMore.1 = false := by rw [hasMore_hasMore, hmore]
      rw [fill_of_end hmore, items_of_hasMore_eq_false _ hmore,
        items_of_hasMore_eq_false _ hagain]
      rfl
    | true =>
      cases happend : table.appendItem options source.next.1 with
      | error error =>
        rw [fill_of_refused hmore happend] at h
        cases h
      | ok longer =>
        rw [fill_of_appended hmore happend] at h ⊢
        rw [Nat.succ_add, items_succ_of_hasMore _ hmore, List.drop_succ_cons]
        exact ih h

/-- A page is filled and then finished. -/
theorem flatten_of_pos (h : 0 < size) :
    source.flatten options size =
      ((source.fill options size Table.empty).1.map Table.finish,
        (source.fill options size Table.empty).2) := by
  unfold flatten
  rw [if_neg (Nat.ne_of_gt h)]

theorem flatten_eq_ok (h : (source.flatten options size).1 = .ok table) :
    0 < size ∧ ∃ filled, (source.fill options size Table.empty).1 = .ok filled ∧
      filled.finish = table := by
  rcases Nat.eq_zero_or_pos size with rfl | hpos
  · cases h
  · rw [flatten_of_pos hpos] at h
    obtain ⟨filled, hfilled, hfinish⟩ := Steps.map_eq_ok.1 h
    exact ⟨hpos, filled, hfilled, hfinish⟩

/-- **A page is made of the next items**, whatever kind of source gives them. -/
theorem flatten_congr (h : source.items size = other.items size) :
    (source.flatten options size).1 = (other.flatten options size).1 := by
  rcases Nat.eq_zero_or_pos size with rfl | hsize
  · rfl
  · rw [flatten_of_pos hsize, flatten_of_pos hsize]
    simp only [fill_eq_foldlM, h]

/-- A page that is made leaves the items behind its own. -/
theorem items_of_flatten (count : Nat) (h : (source.flatten options size).1 = .ok table) :
    (source.flatten options size).2.items count = (source.items (size + count)).drop size := by
  obtain ⟨hsize, filled, hfilled, -⟩ := flatten_eq_ok h
  rw [flatten_of_pos hsize]
  exact items_of_fill count hfilled

/-- Only documents have rows. -/
theorem docs_of_foldlM {items : List (Except Error Document)}
    (h : items.foldlM (Table.appendItem options) table = .ok filled) :
    ∃ docs : List Document, items = docs.map .ok ∧
      docs.foldlM (Table.append options) table = .ok filled := by
  induction items generalizing table with
  | nil => exact ⟨[], rfl, h⟩
  | cons item items ih =>
    rw [List.foldlM_cons] at h
    obtain ⟨longer, happend, h⟩ := Steps.bind_eq_ok.1 h
    obtain ⟨docs, rfl, hdocs⟩ := ih h
    cases item with
    | error error => cases happend
    | ok doc =>
      rw [Table.appendItem_ok] at happend
      refine ⟨doc :: docs, rfl, ?_⟩
      rw [List.foldlM_cons, happend]
      exact hdocs

/-- An error among the items of a table keeps it from being made. -/
theorem fill_eq_error_of_mem (h : .error error ∈ source.items rows) :
    ∃ failure, (source.fill options rows table).1 = .error failure := by
  cases hfill : (source.fill options rows table).1 with
  | error failure => exact ⟨failure, rfl⟩
  | ok filled =>
    rw [fill_eq_foldlM] at hfill
    obtain ⟨docs, hitems, -⟩ := docs_of_foldlM hfill
    rw [hitems] at h
    simp at h

/-- The items of a page that is made are documents, and its rows are theirs. -/
theorem docs_of_flatten (h : (source.flatten options size).1 = .ok table) :
    ∃ (docs : List Document) (filled : Table), source.items size = docs.map .ok ∧
      docs.foldlM (Table.append options) Table.empty = .ok filled ∧ filled.finish = table := by
  obtain ⟨-, filled, hfilled, hfinish⟩ := flatten_eq_ok h
  rw [fill_eq_foldlM] at hfilled
  obtain ⟨docs, hitems, hdocs⟩ := docs_of_foldlM hfilled
  exact ⟨docs, filled, hitems, hdocs, hfinish⟩

end Source

end DocTable
