import DocTable.Proofs.Table.Flatten

/-!
# Pages and the items they are made of

* `Pages.after`, `Pages.result` — the pages after any number of calls, and what a call gives.
* `next_of_error`, `next_of_empty`, `next_of_table` — one call, in its three cases.
* `pageItems` — the items of a page, told by the items of the source.
* `result_of_ok`, `result_of_error` — a run of calls: one page after another as long as they can be
  made, and nothing behind one that cannot.
* `pages_part_items` — the items of a source are parted into pages, none left out and none
  taken twice.
* `chunks_of_all` — all pages together: the documents, cut into pieces, with one table a piece.
-/

set_option autoImplicit false

namespace DocTable

namespace Source

variable {source other : Source} {options : Options} {size : Nat}

/-! ## The items of a page -/

/-- The items of page number `page`, counted from 0, where every page takes `size` items. -/
def pageItems (source : Source) (size page : Nat) : List (Except Error Document) :=
  (source.items ((page + 1) * size)).drop (page * size)

/-- The table of page number `page`: that of its items alone. -/
def page (source : Source) (options : Options) (size page : Nat) : Except Error Table :=
  ((feed (source.pageItems size page)).flatten options size).1

/-- The items of the first pages, laid end to end, are the first items. -/
theorem flatMap_pageItems (source : Source) (size pages : Nat) :
    (List.range pages).flatMap (source.pageItems size) = source.items (pages * size) := by
  induction pages with
  | zero =>
    rw [Nat.zero_mul]
    rfl
  | succ pages ih =>
    have hfirst := items_add (pages * size) size source
    rw [← Nat.succ_mul] at hfirst
    rw [List.range_succ, List.flatMap_append, ih, List.flatMap_singleton, hfirst]
    exact List.take_append_drop _ _

theorem length_pageItems_le (source : Source) (size page : Nat) :
    (source.pageItems size page).length ≤ size := by
  have hlength := source.length_items_le ((page + 1) * size)
  rw [Nat.succ_mul] at hlength
  rw [pageItems, List.length_drop, Nat.succ_mul]
  omega

theorem pageItems_zero (source : Source) (size : Nat) :
    source.pageItems size 0 = source.items size := by
  rw [pageItems, Nat.zero_mul, List.drop_zero, Nat.zero_add, Nat.one_mul]

theorem page_zero (source : Source) (options : Options) (size : Nat) :
    source.page options size 0 = (source.flatten options size).1 := by
  unfold page
  apply flatten_congr
  rw [items_feed, pageItems_zero, List.take_of_length_le (source.length_items_le size)]

/-- The pages behind a page that is made are those of the items behind its own. -/
theorem pageItems_succ {table : Table} (h : (source.flatten options size).1 = .ok table)
    (page : Nat) :
    (source.flatten options size).2.pageItems size page = source.pageItems size (page + 1) := by
  have hcount : size + (page + 1) * size = (page + 1 + 1) * size := by
    rw [Nat.succ_mul (page + 1), Nat.add_comm]
  have hfront : size + page * size = (page + 1) * size := by
    rw [Nat.succ_mul, Nat.add_comm]
  rw [pageItems, pageItems, items_of_flatten _ h, List.drop_drop, hcount, hfront]

theorem page_succ {table : Table} (h : (source.flatten options size).1 = .ok table) (page : Nat) :
    (source.flatten options size).2.page options size page = source.page options size (page + 1) := by
  unfold Source.page
  rw [pageItems_succ h]

/-- Items that agree on the first pages make the same pages. -/
theorem pageItems_congr {page last : Nat} (hpage : page ≤ last)
    (h : source.items ((last + 1) * size) = other.items ((last + 1) * size)) :
    source.pageItems size page = other.pageItems size page := by
  obtain ⟨more, hmore⟩ := Nat.exists_eq_add_of_le (Nat.mul_le_mul_right size (Nat.succ_le_succ hpage))
  rw [pageItems, pageItems, items_add _ more, items_add _ more other, ← hmore, h]

theorem page_of_nil (hsize : 0 < size) {page : Nat} (h : source.pageItems size page = []) :
    source.page options size page = .ok Table.empty := by
  rw [Source.page, h, flatten_of_pos hsize, fill_eq_foldlM, items_feed, List.take_nil]
  rfl

/-- A page has a row exactly if it has an item. -/
theorem isEmpty_iff_of_flatten {table : Table} (h : (source.flatten options size).1 = .ok table) :
    table.isEmpty = true ↔ source.items size = [] := by
  obtain ⟨docs, hitems, htable⟩ := isTableOf_of_flatten h
  rw [Table.isEmpty, decide_eq_true_iff, htable.rowCount_eq, hitems, List.map_eq_nil_iff,
    List.length_eq_zero_iff]

/-- Where there are no items for a first page, there are none for a later one. -/
theorem pageItems_of_items_eq_nil (hsize : 0 < size) (h : source.items size = []) (page : Nat) :
    source.pageItems size page = [] := by
  have hmore := (items_eq_nil_iff hsize).1 h
  rw [pageItems, items_of_hasMore_eq_false _ hmore, List.drop_nil]

theorem pageItems_of_delivers {docs : List Document} (h : source.Delivers docs) (page : Nat) :
    source.pageItems size page = ((docs.drop (page * size)).take size).map .ok := by
  have hsize : (page + 1) * size - page * size = size := by
    rw [Nat.succ_mul]
    omega
  rw [pageItems, h, ← List.map_drop, List.drop_take, hsize]

/-- Behind a page the rest of the documents is delivered. -/
theorem Delivers.flatten {docs : List Document} {table : Table} (h : source.Delivers docs)
    (hpage : (source.flatten options size).1 = .ok table) :
    (source.flatten options size).2.Delivers (docs.drop size) := by
  intro count
  rw [items_of_flatten count hpage, h, ← List.map_drop, List.drop_take, Nat.add_sub_cancel_left]

theorem Delivers.foldlM {docs : List Document} {table : Table} (h : source.Delivers docs)
    (hpage : (source.flatten options size).1 = .ok table) :
    (docs.take size).foldlM (Table.append options) Table.empty = .ok table := by
  obtain ⟨taken, hitems, htable⟩ := foldlM_of_flatten hpage
  rw [h] at hitems
  rwa [List.map_injective_iff.2 (fun _ _ => Except.ok.inj) hitems]

end Source

namespace Pages

variable {pages : Pages} {source other : Source} {options : Options} {size : Nat}

/-- The pages after they were asked for so many times. -/
def after : (calls : Nat) → Pages → Pages
  | 0, pages => pages
  | calls + 1, pages => after calls pages.next.2

/-- What the call number `call` gives, counted from 0. -/
def result (pages : Pages) (call : Nat) : Option (Except Error Table) :=
  (pages.after call).next.1

theorem after_succ (pages : Pages) (calls : Nat) :
    pages.after (calls + 1) = (pages.after calls).next.2 := by
  induction calls generalizing pages with
  | zero => rfl
  | succ calls ih => exact ih pages.next.2

theorem result_succ (pages : Pages) (call : Nat) :
    pages.result (call + 1) = pages.next.2.result call := rfl

/-! ## One call -/

theorem next_of_done (h : pages.done = true) : pages.next = (none, pages) := by
  unfold next
  rw [if_pos h]

theorem next_of_error {error : Error} (hdone : pages.done = false)
    (h : (pages.source.flatten pages.options pages.pageSize).1 = .error error) :
    pages.next = (some (.error error),
      { pages with
        source := (pages.source.flatten pages.options pages.pageSize).2
        done := true }) := by
  have hflatten : pages.source.flatten pages.options pages.pageSize =
      (.error error, (pages.source.flatten pages.options pages.pageSize).2) := Prod.ext h rfl
  unfold next
  rw [hdone, hflatten]
  rfl

theorem next_of_empty {table : Table} (hdone : pages.done = false)
    (h : (pages.source.flatten pages.options pages.pageSize).1 = .ok table)
    (hempty : table.isEmpty = true) :
    pages.next = (none,
      { pages with
        source := (pages.source.flatten pages.options pages.pageSize).2
        done := true }) := by
  have hflatten : pages.source.flatten pages.options pages.pageSize =
      (.ok table, (pages.source.flatten pages.options pages.pageSize).2) := Prod.ext h rfl
  unfold next
  rw [hdone, hflatten]
  simp only [Bool.false_eq_true, if_false, hempty, if_true]

theorem next_of_table {table : Table} (hdone : pages.done = false)
    (h : (pages.source.flatten pages.options pages.pageSize).1 = .ok table)
    (hempty : table.isEmpty = false) :
    pages.next = (some (.ok table),
      { pages with
        source := (pages.source.flatten pages.options pages.pageSize).2
        count := pages.count + 1 }) := by
  have hflatten : pages.source.flatten pages.options pages.pageSize =
      (.ok table, (pages.source.flatten pages.options pages.pageSize).2) := Prod.ext h rfl
  unfold next
  rw [hdone, hflatten]
  simp only [Bool.false_eq_true, if_false, hempty]

/-- A call that gives no table is the last one that is answered. -/
theorem done_of_next (h : ∀ table, pages.next.1 ≠ some (.ok table)) : pages.next.2.done = true := by
  cases hdone : pages.done with
  | true => rw [next_of_done hdone, hdone]
  | false =>
    cases hpage : (pages.source.flatten pages.options pages.pageSize).1 with
    | error error => rw [next_of_error hdone hpage]
    | ok table =>
      cases hempty : table.isEmpty with
      | true => rw [next_of_empty hdone hpage hempty]
      | false =>
        rw [next_of_table hdone hpage hempty] at h
        exact absurd rfl (h table)

/-! ## A run of calls -/

/-- Pages that have ended give nothing more. -/
theorem after_of_done (h : pages.done = true) (calls : Nat) : pages.after calls = pages := by
  induction calls with
  | zero => rfl
  | succ calls ih => rw [after, next_of_done h, ih]

theorem result_of_done (h : pages.done = true) (call : Nat) : pages.result call = none := by
  rw [result, after_of_done h, next_of_done h]

theorem after_add (pages : Pages) (first more : Nat) :
    pages.after (first + more) = (pages.after first).after more := by
  induction first generalizing pages with
  | zero => rw [Nat.zero_add, after]
  | succ first ih =>
    rw [Nat.succ_add, after, after]
    exact ih pages.next.2

/-- **The end is final.**  Behind a call that gives no table there is nothing. -/
theorem result_eq_none_of_ended {call later : Nat}
    (hend : ∀ table, pages.result call ≠ some (.ok table)) (hlater : call < later) :
    pages.result later = none := by
  obtain ⟨more, rfl⟩ := Nat.exists_eq_add_of_lt hlater
  have hdone : (pages.after (call + 1)).done = true := by
    rw [after_succ]
    exact done_of_next hend
  rw [result, Nat.add_right_comm, after_add, after_of_done hdone, next_of_done hdone]

/-- Whether a call gives a table. -/
def isTable : Option (Except Error Table) → Bool
  | some (.ok _) => true
  | _ => false

theorem next_count (pages : Pages) :
    pages.next.2.count = pages.count + if isTable pages.next.1 then 1 else 0 := by
  cases hdone : pages.done with
  | true =>
    rw [next_of_done hdone]
    rfl
  | false =>
    cases hpage : (pages.source.flatten pages.options pages.pageSize).1 with
    | error error =>
      rw [next_of_error hdone hpage]
      rfl
    | ok table =>
      cases hempty : table.isEmpty with
      | true =>
        rw [next_of_empty hdone hpage hempty]
        rfl
      | false =>
        rw [next_of_table hdone hpage hempty]
        rfl

/-- **Counting.**  The pages are counted as they are given. -/
theorem count_after (pages : Pages) (calls : Nat) :
    (pages.after calls).count =
      pages.count + (List.range calls).countP fun call => isTable (pages.result call) := by
  induction calls with
  | zero => rfl
  | succ calls ih =>
    rw [after_succ, next_count, ih, List.range_succ, List.countP_append, List.countP_singleton,
      Nat.add_assoc]
    rfl

/-- **One page after another**, as long as they can be made. The induction is on the calls: those
behind the first one are calls for the pages behind the first page. -/
theorem result_of_ok (hdone : pages.done = false) (hsize : 0 < pages.pageSize) (call : Nat)
    (h : ∀ earlier < call, ∃ table,
      pages.source.page pages.options pages.pageSize earlier = .ok table) :
    pages.result call =
      if pages.source.pageItems pages.pageSize call = [] then none
      else some (pages.source.page pages.options pages.pageSize call) := by
  induction call generalizing pages with
  | zero =>
    rw [Source.pageItems_zero, Source.page_zero]
    show pages.next.1 = _
    cases hpage : (pages.source.flatten pages.options pages.pageSize).1 with
    | error error =>
      have hitems : pages.source.items pages.pageSize ≠ [] := by
        intro hnil
        rw [← Source.page_zero, Source.page_of_nil hsize] at hpage
        · cases hpage
        · rw [Source.pageItems_zero, hnil]
      rw [next_of_error hdone hpage, if_neg hitems]
    | ok table =>
      have hiff := Source.isEmpty_iff_of_flatten hpage
      cases hempty : table.isEmpty with
      | true => rw [next_of_empty hdone hpage hempty, if_pos (hiff.1 hempty)]
      | false =>
        rw [next_of_table hdone hpage hempty, if_neg]
        rw [← hiff, hempty]
        exact Bool.false_ne_true
  | succ call ih =>
    obtain ⟨table, hpage⟩ := h 0 (Nat.succ_pos call)
    rw [Source.page_zero] at hpage
    rw [result_succ]
    cases hempty : table.isEmpty with
    | true =>
      have hnil := (Source.isEmpty_iff_of_flatten hpage).1 hempty
      rw [next_of_empty hdone hpage hempty, result_of_done rfl,
        if_pos (Source.pageItems_of_items_eq_nil hsize hnil _)]
    | false =>
      rw [next_of_table hdone hpage hempty, ← Source.pageItems_succ hpage, ← Source.page_succ hpage]
      apply ih
      · exact hdone
      · exact hsize
      · intro earlier hearlier
        rw [Source.page_succ hpage]
        exact h (earlier + 1) (Nat.succ_lt_succ hearlier)

/-- A page that cannot be made ends the pages, unless one before it does. -/
theorem result_of_error (hdone : pages.done = false) (hsize : 0 < pages.pageSize)
    {call earlier : Nat} {error : Error} (hearlier : earlier < call)
    (h : pages.source.page pages.options pages.pageSize earlier = .error error) :
    pages.result call = none := by
  induction earlier using Nat.strongRecOn generalizing error with
  | ind earlier ih =>
    by_cases hbefore : ∀ first < earlier, ∃ table,
        pages.source.page pages.options pages.pageSize first = .ok table
    · have hresult := result_of_ok hdone hsize earlier hbefore
      refine result_eq_none_of_ended (fun table htable => ?_) hearlier
      rw [htable] at hresult
      split at hresult
      · cases hresult
      · rw [h] at hresult
        cases hresult
    · obtain ⟨first, hfirst, hfail⟩ : ∃ first < earlier, ∀ table,
          pages.source.page pages.options pages.pageSize first ≠ .ok table := by
        simpa using hbefore
      cases hpage : pages.source.page pages.options pages.pageSize first with
      | ok table => exact absurd hpage (hfail table)
      | error error => exact ih first hfirst (Nat.lt_trans hfirst hearlier) hpage

/-! ## The pages of a source -/

theorem result_ofSource_of_ok (hsize : 0 < size) (call : Nat)
    (h : ∀ earlier < call, ∃ table, source.page options size earlier = .ok table) :
    (ofSource options size source).result call =
      if source.pageItems size call = [] then none else some (source.page options size call) :=
  result_of_ok rfl hsize call h

theorem result_ofSource_of_error (hsize : 0 < size) {call earlier : Nat} {error : Error}
    (hearlier : earlier < call) (h : source.page options size earlier = .error error) :
    (ofSource options size source).result call = none :=
  result_of_error rfl hsize hearlier h

/-- **Only the items count.**  What a call gives depends on the items up to the end of its page. -/
theorem result_congr (hsize : 0 < size) {call : Nat}
    (h : source.items ((call + 1) * size) = other.items ((call + 1) * size)) :
    (ofSource options size source).result call = (ofSource options size other).result call := by
  have hpage : ∀ page ≤ call, source.page options size page = other.page options size page := by
    intro page hle
    unfold Source.page
    rw [Source.pageItems_congr hle h]
  by_cases hmade : ∀ earlier < call, ∃ table, source.page options size earlier = .ok table
  · have hother : ∀ earlier < call, ∃ table, other.page options size earlier = .ok table := by
      intro earlier hearlier
      rw [← hpage earlier (Nat.le_of_lt hearlier)]
      exact hmade earlier hearlier
    rw [result_ofSource_of_ok hsize call hmade, result_ofSource_of_ok hsize call hother,
      Source.pageItems_congr (Nat.le_refl call) h, hpage call (Nat.le_refl call)]
  · obtain ⟨earlier, hearlier, hfail⟩ : ∃ earlier < call, ∀ table,
        source.page options size earlier ≠ .ok table := by
      simpa using hmade
    cases herror : source.page options size earlier with
    | ok table => exact absurd herror (hfail table)
    | error error =>
      rw [result_ofSource_of_error hsize hearlier herror]
      rw [hpage earlier (Nat.le_of_lt hearlier)] at herror
      rw [result_ofSource_of_error hsize hearlier herror]

/-- Where no call fails, every page can be made. -/
theorem page_ok_of_results (hsize : 0 < size)
    (h : ∀ call error, (ofSource options size source).result call ≠ some (.error error))
    (page : Nat) : ∃ table, source.page options size page = .ok table := by
  induction page using Nat.strongRecOn with
  | ind page ih =>
    cases hpage : source.page options size page with
    | ok table => exact ⟨table, rfl⟩
    | error error =>
      have hresult := result_ofSource_of_ok hsize page ih
      split at hresult
      · rename_i hnil
        rw [Source.page_of_nil hsize hnil] at hpage
        cases hpage
      · rw [hpage] at hresult
        exact absurd hresult (h page error)

/-- A page starts before the end of the documents if it is one of those that they fill. -/
theorem mul_lt_iff {docs : Nat} (hsize : 0 < size) (page : Nat) :
    page * size < docs ↔ page < (docs + size - 1) / size := by
  rw [Nat.lt_iff_add_one_le, Nat.lt_iff_add_one_le, Nat.le_div_iff_mul_le hsize, Nat.succ_mul]
  omega

/-- The pages of documents that can all be put in tables are full, but for the last one. -/
theorem result_of_delivers {docs : List Document} (hsize : 0 < size) (hdocs : source.Delivers docs)
    (h : ∀ call error, (ofSource options size source).result call ≠ some (.error error))
    (call : Nat) :
    (call < (docs.length + size - 1) / size →
      ∃ table, (ofSource options size source).result call = some (.ok table) ∧
        table.rowCount = min size (docs.length - call * size) ∧
        table.IsTableOf options ((docs.drop (call * size)).take size)) ∧
    ((docs.length + size - 1) / size ≤ call →
      (ofSource options size source).result call = none) := by
  have hmade := page_ok_of_results hsize h
  have hitems := @Source.pageItems_of_delivers _ size docs hdocs call
  have hresult := result_ofSource_of_ok hsize call fun earlier _ => hmade earlier
  have hnil : source.pageItems size call = [] ↔ ¬ call < (docs.length + size - 1) / size := by
    rw [← mul_lt_iff hsize, hitems, List.map_eq_nil_iff, List.take_eq_nil_iff,
      List.drop_eq_nil_iff]
    omega
  constructor
  · intro hcall
    obtain ⟨table, hpage⟩ := hmade call
    rw [if_neg (fun hnone => hnil.1 hnone hcall), hpage] at hresult
    obtain ⟨taken, htaken, htable⟩ := Source.isTableOf_of_flatten hpage
    rw [Source.items_feed, List.take_of_length_le (source.length_pageItems_le size call),
      hitems] at htaken
    rw [← List.map_injective_iff.2 (fun _ _ => Except.ok.inj) htaken] at htable
    refine ⟨table, hresult, ?_, htable⟩
    rw [htable.rowCount_eq, List.length_take, List.length_drop]
  · intro hcall
    rw [hresult, if_pos (hnil.2 (Nat.not_lt.2 hcall))]

/-! ## Pages and items -/

/-- How the items of a source are parted into pages of `size` items. -/
structure Parts (options : Options) (size : Nat) (source : Source) : Prop where
  /-- The items are what successive reads give until they meet the end. -/
  reads_eq : ∀ count, Source.reads (source.answers (.replicate count .next)).1 =
    source.items count ++
      .replicate (count - (source.items count).length) (.error .exhausted)
  /-- No item is left out between two pages, and none is taken twice. -/
  items_eq : ∀ pages, (List.range pages).flatMap (source.pageItems size) =
    source.items (pages * size)
  /-- As long as no page before it has failed, a call gives the table of the items of its page. -/
  result_eq : ∀ call,
    (∀ earlier < call, ∃ table,
      ((Source.feed (source.pageItems size earlier)).flatten options size).1 = .ok table) →
    (ofSource options size source).result call =
      if source.pageItems size call = [] then none
      else some ((Source.feed (source.pageItems size call)).flatten options size).1
  /-- Behind a call that gives nothing or an error there is nothing. -/
  final : ∀ call, (∀ table, (ofSource options size source).result call ≠ some (.ok table)) →
    ∀ later > call, (ofSource options size source).result later = none
  count_eq : ∀ calls, ((ofSource options size source).after calls).count =
    (List.range calls).countP fun call => isTable ((ofSource options size source).result call)
  /-- Another source that gives the same items up to the end of a page gives the same page. -/
  result_congr : ∀ (other : Source) (call : Nat),
    source.items ((call + 1) * size) = other.items ((call + 1) * size) →
      (ofSource options size source).result call = (ofSource options size other).result call
  /-- Documents that make no error fill their pages, but for the last one. -/
  result_of_docs : ∀ docs : List Document, source.Delivers docs →
    (∀ call error, (ofSource options size source).result call ≠ some (.error error)) →
    ∀ call,
      (call < (docs.length + size - 1) / size →
        ∃ table, (ofSource options size source).result call = some (.ok table) ∧
          table.rowCount = min size (docs.length - call * size) ∧
          table.IsTableOf options ((docs.drop (call * size)).take size)) ∧
      ((docs.length + size - 1) / size ≤ call →
        (ofSource options size source).result call = none)

/-- **Pages part the items of a source.**  This holds for every source and every page size; pages
without rows are refused once, and nothing is read for them. -/
theorem pages_part_items (options : Options) (source : Source) {size : Nat} (hsize : 0 < size) :
    Parts options size source ∧
    (ofSource options 0 source).result 0 = some (.error .invalidPageSize) ∧
    ∀ calls, ((ofSource options 0 source).after calls).source = source ∧
      (0 < calls → (ofSource options 0 source).result calls = none) := by
  refine ⟨⟨?_, ?_, ?_, ?_, ?_, ?_, ?_⟩, rfl, fun calls => ⟨?_, ?_⟩⟩
  · exact fun count => source.reads_eq_items count
  · exact source.flatMap_pageItems size
  · exact result_ofSource_of_ok hsize
  · exact fun call hend later hlater => result_eq_none_of_ended hend hlater
  · intro calls
    rw [count_after]
    exact Nat.zero_add _
  · exact fun other call h => result_congr hsize h
  · exact fun docs hdocs h call => result_of_delivers hsize hdocs h call
  · cases calls with
    | zero => rfl
    | succ calls => rw [after, after_of_done rfl]; rfl
  · intro hcalls
    exact @result_eq_none_of_ended _ 0 _ nofun hcalls

/-- Three documents and a failure behind them, in pages of two: the first page has two rows, the
second one fails, and there is no third. -/
theorem pages_part_failing_items :
    ∃ (source : Source) (failure : Error), failure = .io "gone" ∧
      source = .feed [.ok [("a", .scalar (.int32 1))], .ok [("b", .null)], .ok [],
        .error failure] ∧
      0 < 2 ∧ Parts Options.default 2 source ∧
      (∃ table, (ofSource Options.default 2 source).result 0 = some (.ok table) ∧
        table.rowCount = 2 ∧ table.names = ["b", "a"]) ∧
      (ofSource Options.default 2 source).result 1 = some (.error failure) ∧
      ∀ later > 1, (ofSource Options.default 2 source).result later = none := by
  obtain ⟨hparts, -⟩ := @pages_part_items Options.default
    (.feed [.ok [("a", .scalar (.int32 1))], .ok [("b", .null)], .ok [], .error (.io "gone")])
    2 (by decide)
  refine ⟨_, _, rfl, rfl, by decide, hparts, ⟨_, by with_unfolding_all rfl, rfl, rfl⟩,
    by with_unfolding_all rfl, hparts.final 1 ?_⟩
  exact nofun

/-! ## All pages -/

/-- Each table has the rows of one piece of the documents. -/
abbrev AreTablesOf (options : Options) (chunks : List (List Document)) (tables : List Table) : Prop :=
  List.Forall₂ (fun chunk table => chunk.foldlM (Table.append options) Table.empty = .ok table)
    chunks tables

/-- **Pages of documents** are tables of pieces that, laid end to end, are the first documents. -/
theorem chunks_of_take {docs : List Document} {tables : List Table} {limit : Nat}
    (h : pages.take limit = .ok tables) (hdone : pages.done = false) (hsize : 0 < pages.pageSize)
    (hdocs : pages.source.Delivers docs) :
    ∃ chunks : List (List Document), chunks.flatten = docs.take (limit * pages.pageSize) ∧
      AreTablesOf pages.options chunks tables := by
  induction limit generalizing pages docs tables with
  | zero =>
    cases h
    rw [Nat.zero_mul]
    exact ⟨[], rfl, .nil⟩
  | succ limit ih =>
    rw [take] at h
    cases hpage : (pages.source.flatten pages.options pages.pageSize).1 with
    | error error =>
      rw [next_of_error hdone hpage] at h
      cases h
    | ok table =>
      cases hempty : table.isEmpty with
      | true =>
        rw [next_of_empty hdone hpage hempty] at h
        cases h
        have hnil := (Source.isEmpty_iff_of_flatten hpage).1 hempty
        rw [hdocs, List.map_eq_nil_iff, List.take_eq_nil_iff] at hnil
        obtain rfl := hnil.resolve_left (Nat.ne_of_gt hsize)
        exact ⟨[], List.take_nil.symm, .nil⟩
      | false =>
        rw [next_of_table hdone hpage hempty] at h
        obtain ⟨more, hmore, h⟩ := Steps.bind_eq_ok.1 h
        cases h
        obtain ⟨chunks, hchunks, htables⟩ := ih hmore hdone hsize (hdocs.flatten hpage)
        refine ⟨docs.take pages.pageSize :: chunks, ?_, .cons (hdocs.foldlM hpage) htables⟩
        rw [List.flatten_cons, hchunks, Nat.succ_mul, Nat.add_comm (limit * pages.pageSize),
          List.take_add]

/-- Pages without rows are refused. -/
theorem size_pos_of_all {tables : List Table}
    (h : (ofSource options size source).all = .ok tables) : 0 < size := by
  rcases Nat.eq_zero_or_pos size with rfl | hsize
  · cases h
  · exact hsize

/-- **All pages** together have all documents. -/
theorem chunks_of_all {docs : List Document} {tables : List Table} (hdocs : source.Delivers docs)
    (h : (ofSource options size source).all = .ok tables) :
    ∃ chunks : List (List Document), chunks.flatten = docs ∧ AreTablesOf options chunks tables := by
  have hsize := size_pos_of_all h
  obtain ⟨chunks, hchunks, htables⟩ := chunks_of_take h rfl hsize hdocs
  refine ⟨chunks, ?_, htables⟩
  have hlength : docs.length ≤ (source.bound + 1) * size :=
    Nat.le_trans (Nat.le_succ_of_le hdocs.length_le_bound) (Nat.le_mul_of_pos_right _ hsize)
  rw [hchunks]
  exact List.take_of_length_le hlength

end Pages

end DocTable
