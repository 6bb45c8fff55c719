import DocTable.Proofs.Table.Flatten
import Mathlib.Data.List.Induction

/-!
# How the columns of a table come about

Columns are never dropped, renamed or reordered. A document adds one for each field that finds no
column of its name behind the place where the matching stands.

* `Continue` — the columns there were keep their order; any other is missing in the rows there were.
* `length_place_of_sublist` — the forward search is as good as any: if all fields could be matched,
  they are.
* `Birth` — the row and the field that a column was started with; `BornOf` — the births of the columns
  of a table, and the warnings that come of them.
* `BornOf.append` — one document more adds its births among those there were and its warnings behind
  those there were.
* `columns_evolve` — what this means for every document, every run over documents and every page.
-/

set_option autoImplicit false

open scoped List

namespace DocTable

namespace Table

open Column

variable {options : Options} {row : Nat} {columns placed : List Column}
  {fields : List (String × Value)} {warnings : List Warning}

/-! ## Old names and new ones -/

theorem Placed.names_sublist (h : Placed options row columns fields placed) :
    columns.map Column.name <+ placed.map Column.name := by
  induction h with
  | nil => exact .slnil
  | skip column _ ih => exact .cons_cons _ ih
  | store _ hwide _ ih =>
    rw [List.map_cons, List.map_cons, insert?_name hwide]
    exact .cons_cons _ ih
  | start _ _ ih => exact .cons _ ih

/-- Each field has a column of its name, from left to right. -/
theorem Placed.keys_sublist (h : Placed options row columns fields placed) :
    fields.map Prod.fst <+ placed.map Column.name := by
  induction h with
  | nil => exact .slnil
  | skip column _ ih => exact .cons _ ih
  | store hname hwide _ ih =>
    rw [List.map_cons, List.map_cons, insert?_name hwide, hname]
    exact .cons_cons _ ih
  | start hwide _ ih =>
    rw [List.map_cons, List.map_cons, insert?_name hwide]
    exact .cons_cons _ ih

/-- The columns there were are still there in their order, each with one more cell, and any other is
missing in the first `row` rows. -/
def Continue (row : Nat) (columns placed : List Column) : Prop :=
  ∃ kept : Fin columns.length → Fin placed.length, StrictMono kept ∧
    (∀ i, ∃ cell, (columns.get i).insert? cell = some (placed.get (kept i))) ∧
    ∀ j, (∀ i, kept i ≠ j) → ∀ earlier < row, (placed.get j).MissingAt earlier

theorem Continue.keep {column wide : Column} {cell : Cell} (h : Continue row columns placed)
    (hwide : column.insert? cell = some wide) :
    Continue row (column :: columns) (wide :: placed) := by
  obtain ⟨kept, hmono, hgrown, hnew⟩ := h
  refine ⟨Fin.cons 0 fun i => (kept i).succ, ?_, ?_, ?_⟩
  · exact Fin.strictMono_cons.2 ⟨fun j => Fin.succ_pos _, Fin.strictMono_succ.comp hmono⟩
  · intro i
    cases i using Fin.cases with
    | zero => exact ⟨cell, hwide⟩
    | succ i => exact hgrown i
  · intro j hj
    cases j using Fin.cases with
    | zero => exact absurd rfl (hj 0)
    | succ j => exact hnew j fun i hi => hj i.succ (congrArg Fin.succ hi)

theorem Continue.start {wide : Column} (h : Continue row columns placed)
    (hwide : ∀ earlier < row, wide.MissingAt earlier) : Continue row columns (wide :: placed) := by
  obtain ⟨kept, hmono, hgrown, hnew⟩ := h
  refine ⟨fun i => (kept i).succ, Fin.strictMono_succ.comp hmono, hgrown, ?_⟩
  intro j hj
  cases j using Fin.cases with
  | zero => exact hwide
  | succ j => exact hnew j fun i hi => hj i (congrArg Fin.succ hi)

theorem Placed.continue (h : Placed options row columns fields placed) :
    Continue row columns placed := by
  induction h with
  | nil => exact ⟨id, strictMono_id, fun i => i.elim0, fun j => j.elim0⟩
  | skip column _ ih => exact ih.keep (insert?_missing column)
  | store _ hwide _ ih => exact ih.keep hwide
  | start hwide _ ih =>
    exact ih.start fun earlier hlt => (startAt_missing _ _ hlt).insert? hwide

/-! ## When no column is added -/

/-- The first column of the name of the first field leaves all the columns behind it that the other
fields could be matched with. -/
theorem splitAtName?_of_sublist {name : String} {names : List String}
    (h : name :: names <+ columns.map Column.name) :
    ∃ before found after, splitAtName? name columns = some (before, found, after) ∧
      names <+ after.map Column.name := by
  induction columns with
  | nil => cases h
  | cons column columns ih =>
    rw [splitAtName?]
    by_cases hname : column.name = name
    · rw [List.map_cons, hname] at h
      rw [if_pos hname]
      exact ⟨[], column, columns, rfl, List.cons_sublist_cons.1 h⟩
    · have htail : name :: names <+ columns.map Column.name := by
        cases h with
        | cons _ h => exact h
        | cons_cons => exact absurd rfl hname
      obtain ⟨before, found, after, hsplit, hrest⟩ := ih htail
      rw [if_neg hname, hsplit]
      exact ⟨column :: before, found, after, rfl, hrest⟩

/-- **Fields that can be matched are matched.** -/
theorem length_place_of_sublist (hsub : fields.map Prod.fst <+ columns.map Column.name)
    (h : place options row columns fields = .ok (placed, warnings)) :
    placed.length = columns.length := by
  induction fields generalizing columns placed warnings with
  | nil =>
    cases h
    exact List.length_map _
  | cons field fields ih =>
    obtain ⟨name, value⟩ := field
    obtain ⟨before, found, after, hsplit, hrest⟩ := splitAtName?_of_sublist hsub
    obtain ⟨rfl, -⟩ := splitAtName?_eq_some hsplit
    rw [place, hsplit] at h
    obtain ⟨wide, -, h⟩ := Steps.bind_eq_ok.1 h
    obtain ⟨⟨rest, more⟩, hplace, h⟩ := Steps.bind_eq_ok.1 h
    cases h
    simp only [List.length_append, List.length_map, List.length_cons, ih hrest hplace]

/-- A document adds no column exactly if its fields can be matched with the columns there are. -/
theorem length_place_eq_iff (h : place options row columns fields = .ok (placed, warnings)) :
    placed.length = columns.length ↔ fields.map Prod.fst <+ columns.map Column.name := by
  refine ⟨fun hlength => ?_, fun hsub => length_place_of_sublist hsub h⟩
  have hplaced := placed_of_place h
  have hnames := hplaced.names_sublist.eq_of_length (by rw [List.length_map, List.length_map, hlength])
  rw [hnames]
  exact hplaced.keys_sublist

/-! ## Births of columns -/

/-- The row in which a column was started, and the field that it was started for. -/
structure Birth where
  row : Nat
  field : String × Value

/-- The warning that a column was started for a null. -/
def Birth.warning (birth : Birth) : Warning :=
  .nullDefaultedToBool birth.field.1 birth.row

/-- The births in a row, from left to right. -/
def bornIn (row : Nat) (births : List Birth) : List Birth :=
  births.filter (·.row = row)

/-- The births in the rows before. -/
def bornBefore (row : Nat) (births : List Birth) : List Birth :=
  births.filter (·.row < row)

/-- What is said about the births in a row: a warning for each null. -/
def warningsIn (row : Nat) (births : List Birth) : List Warning :=
  ((bornIn row births).filter (·.field.2 = .null)).map Birth.warning

/-- The column has the name of the field, holds its value in the row of its birth and is missing in the
rows before. -/
structure BornAs (options : Options) (birth : Birth) (column : Column) : Prop where
  keeps : column.Keeps options birth.row birth.field
  missing : ∀ earlier < birth.row, column.MissingAt earlier

/-- The births of the columns from left to right, and the warnings. -/
structure BornOf (options : Options) (docs : List Document) (table : Table) (births : List Birth) :
    Prop where
  born : List.Forall₂ (BornAs options) births table.columns
  row_lt : ∀ birth ∈ births, birth.row < docs.length
  /-- Columns are started from left to right. -/
  fields_sublist : ∀ (row : Nat) (doc : Document), docs[row]? = some doc →
    (bornIn row births).map Birth.field <+ doc
  /-- One warning for each column that was started for a null, in the order of their births. -/
  warnings_eq : table.warnings =
    (List.range docs.length).flatMap fun row => warningsIn row births

/-- What a document of row `row` adds to births in rows before. -/
structure AddedTo (options : Options) (row : Nat) (births : List Birth)
    (fields : List (String × Value)) (placed : List Column) (warnings : List Warning)
    (all : List Birth) : Prop where
  born : List.Forall₂ (BornAs options) all placed
  row_le : ∀ birth ∈ all, birth.row ≤ row
  earlier_eq : bornBefore row all = births
  fields_sublist : (bornIn row all).map Birth.field <+ fields
  warnings_eq : warnings = warningsIn row all

variable {births all old : List Birth} {column wide : Column} {cell : Cell} {birth : Birth}
  {field : String × Value}

theorem BornAs.insert? (h : BornAs options birth column) (hwide : column.insert? cell = some wide) :
    BornAs options birth wide :=
  ⟨h.keeps.insert? hwide, fun earlier hlt => (h.missing earlier hlt).insert? hwide⟩

theorem BornAs.insertMissing (h : BornAs options birth column) :
    BornAs options birth column.insertMissing :=
  h.insert? (insert?_missing column)

/-- The birth of a column. -/
theorem bornAs_of_startAt {name : String} {value : Value}
    (h : (startAt row name (Cell.ofValue options value)).insert? (Cell.ofValue options value) =
      some wide) : BornAs options ⟨row, name, value⟩ wide := by
  have hkeeps := keeps_of_insert? h
  rw [startAt_size] at hkeeps
  exact ⟨hkeeps, fun earlier hlt => (startAt_missing _ _ hlt).insert? h⟩

theorem bornAs_insertMissing (h : List.Forall₂ (BornAs options) births columns) :
    List.Forall₂ (BornAs options) births (columns.map Column.insertMissing) := by
  rw [List.forall₂_map_right_iff]
  exact h.imp fun _ _ => BornAs.insertMissing

/-! ### One document -/

theorem bornBefore_eq_self (h : ∀ birth ∈ births, birth.row < row) :
    bornBefore row births = births :=
  List.filter_eq_self.2 fun birth hbirth => decide_eq_true (h birth hbirth)

theorem bornIn_eq_nil (h : ∀ birth ∈ births, birth.row < row) : bornIn row births = [] :=
  List.filter_eq_nil_iff.2 fun birth hbirth => by
    simpa using Nat.ne_of_lt (h birth hbirth)

theorem bornBefore_append : bornBefore row (old ++ all) = bornBefore row old ++ bornBefore row all :=
  List.filter_append ..

theorem bornIn_append : bornIn row (old ++ all) = bornIn row old ++ bornIn row all :=
  List.filter_append ..

theorem warningsIn_append : warningsIn row (old ++ all) = warningsIn row old ++ warningsIn row all := by
  rw [warningsIn, bornIn_append, List.filter_append, List.map_append]
  rfl

theorem warningsIn_eq_nil (h : ∀ birth ∈ births, birth.row < row) : warningsIn row births = [] := by
  rw [warningsIn, bornIn_eq_nil h]
  rfl

theorem bornIn_bornBefore {earlier : Nat} (h : earlier < row) :
    bornIn earlier (bornBefore row births) = bornIn earlier births := by
  rw [bornIn, bornBefore, List.filter_filter]
  refine List.filter_congr fun birth _ => ?_
  rw [← Bool.decide_and, decide_eq_decide]
  omega

theorem bornBefore_bornBefore {earlier : Nat} (h : earlier ≤ row) :
    bornBefore earlier (bornBefore row births) = bornBefore earlier births := by
  rw [bornBefore, bornBefore, List.filter_filter]
  refine List.filter_congr fun birth _ => ?_
  rw [← Bool.decide_and, decide_eq_decide]
  omega

theorem addedTo_nil : AddedTo options row [] [] [] [] [] :=
  ⟨.nil, nofun, rfl, .slnil, rfl⟩

/-- Columns that are passed over or matched keep their births. -/
theorem AddedTo.append_left (h : AddedTo options row births fields placed warnings all)
    (hborn : List.Forall₂ (BornAs options) old columns) (hold : ∀ birth ∈ old, birth.row < row) :
    AddedTo options row (old ++ births) fields (columns ++ placed) warnings (old ++ all) := by
  refine ⟨List.rel_append hborn h.born, ?_, ?_, ?_, ?_⟩
  · rw [List.forall_mem_append]
    exact ⟨fun birth hbirth => Nat.le_of_lt (hold birth hbirth), h.row_le⟩
  · rw [bornBefore_append, bornBefore_eq_self hold, h.earlier_eq]
  · rw [bornIn_append, bornIn_eq_nil hold, List.nil_append]
    exact h.fields_sublist
  · rw [warningsIn_append, warningsIn_eq_nil hold, List.nil_append, h.warnings_eq]

/-- A field that is matched starts no column. -/
theorem AddedTo.matched (h : AddedTo options row births fields placed warnings all) :
    AddedTo options row births (field :: fields) placed warnings all :=
  { h with fields_sublist := .cons _ h.fields_sublist }

/-- A field that is not matched does, and a null gives a warning. -/
theorem AddedTo.start (h : AddedTo options row births fields placed warnings all)
    (hborn : BornAs options ⟨row, field⟩ column) :
    AddedTo options row births (field :: fields) (column :: placed)
      (warningsIn row [⟨row, field⟩] ++ warnings) (⟨row, field⟩ :: all) := by
  refine ⟨.cons hborn h.born, List.forall_mem_cons.2 ⟨Nat.le_refl _, h.row_le⟩, ?_, ?_, ?_⟩
  · rw [bornBefore, List.filter_cons_of_neg (by simp)]
    exact h.earlier_eq
  · rw [bornIn, List.filter_cons_of_pos (by simp)]
    exact .cons_cons _ h.fields_sublist
  · rw [h.warnings_eq, ← warningsIn_append]
    rfl

theorem startColumn_warnings {name : String} {value : Value}
    (h : startColumn options row name value = .ok (column, warnings)) :
    warnings = warningsIn row [⟨row, name, value⟩] := by
  obtain ⟨found, -, h⟩ := Steps.bind_eq_ok.1 h
  cases h
  simp only [Cell.isMissing_iff, Cell.ofValue_eq_missing]
  by_cases hnull : value = .null
  · simp [warningsIn, bornIn, Birth.warning, hnull]
  · simp [warningsIn, bornIn, hnull]

/-- The births on both sides of a column. -/
theorem exists_births_around {before after : List Column}
    (h : List.Forall₂ (BornAs options) births (before ++ column :: after)) :
    ∃ left birth right, births = left ++ birth :: right ∧
      List.Forall₂ (BornAs options) left before ∧ BornAs options birth column ∧
      List.Forall₂ (BornAs options) right after := by
  have hleft := List.forall₂_take_append _ _ _ h
  obtain ⟨birth, right, hborn, hright, hdrop⟩ :=
    List.forall₂_cons_right_iff.1 (List.forall₂_drop_append _ _ _ h)
  refine ⟨_, birth, right, ?_, hleft, hborn, hright⟩
  rw [← hdrop, List.take_append_drop]

/-- **One document** adds births in its row, and their warnings. -/
theorem exists_addedTo_of_place (hborn : List.Forall₂ (BornAs options) births columns)
    (hrows : ∀ birth ∈ births, birth.row < row)
    (h : place options row columns fields = .ok (placed, warnings)) :
    ∃ all, AddedTo options row births fields placed warnings all := by
  induction fields generalizing births columns placed warnings with
  | nil =>
    cases h
    refine ⟨births, ?_⟩
    have hadded := addedTo_nil.append_left (bornAs_insertMissing hborn) hrows
    simpa only [List.append_nil] using hadded
  | cons field fields ih =>
    obtain ⟨name, value⟩ := field
    rw [place] at h
    split at h
    · rename_i before found after hsplit
      obtain ⟨rfl, -⟩ := splitAtName?_eq_some hsplit
      obtain ⟨wide, hwide, h⟩ := Steps.bind_eq_ok.1 h
      obtain ⟨⟨rest, more⟩, hrest, h⟩ := Steps.bind_eq_ok.1 h
      cases h
      obtain ⟨left, birth, right, rfl, hleft, hfound, hright⟩ := exists_births_around hborn
      obtain ⟨hleft_rows, hright_rows⟩ := List.forall_mem_append.1 hrows
      obtain ⟨hbirth_row, hright_rows⟩ := List.forall_mem_cons.1 hright_rows
      obtain ⟨all, hall⟩ := ih hright hright_rows hrest
      have hwide_born : List.Forall₂ (BornAs options) [birth] [wide] :=
        .cons (hfound.insert? (store_eq_ok.1 hwide)) .nil
      have hrest_added := hall.append_left hwide_born (List.forall_mem_singleton.2 hbirth_row)
      exact ⟨_, hrest_added.matched.append_left (bornAs_insertMissing hleft) hleft_rows⟩
    · obtain ⟨⟨wide, started⟩, hwide, h⟩ := Steps.bind_eq_ok.1 h
      obtain ⟨⟨rest, more⟩, hrest, h⟩ := Steps.bind_eq_ok.1 h
      cases h
      obtain ⟨all, hall⟩ := ih hborn hrows hrest
      rw [startColumn_warnings hwide]
      exact ⟨_, hall.start (bornAs_of_startAt (startColumn_eq_ok hwide))⟩

/-! ### A run over documents -/

variable {docs : List Document} {doc : Document} {table result : Table}

theorem bornOf_empty : BornOf options [] empty [] :=
  ⟨.nil, nofun, fun row doc h => by simp at h, rfl⟩

/-- **One document more** adds its births to those there were and its warnings behind them. -/
theorem BornOf.append (h : BornOf options docs table births)
    (hrows : table.rowCount = docs.length) (hresult : table.append options doc = .ok result) :
    ∃ all, BornOf options (docs ++ [doc]) result all ∧ bornBefore docs.length all = births := by
  obtain ⟨⟨columns, warnings⟩, hplace, hresult⟩ := Steps.bind_eq_ok.1 hresult
  cases hresult
  rw [hrows] at hplace
  obtain ⟨all, hall⟩ := exists_addedTo_of_place h.born h.row_lt hplace
  refine ⟨all, ⟨hall.born, ?_, ?_, ?_⟩, hall.earlier_eq⟩
  · intro birth hbirth
    rw [List.length_append, List.length_singleton]
    exact Nat.lt_succ_of_le (hall.row_le birth hbirth)
  · intro row old hold
    rcases row_of_concat hold with ⟨hlt, hold⟩ | ⟨rfl, rfl⟩
    · rw [← bornIn_bornBefore hlt, hall.earlier_eq]
      exact h.fields_sublist row old hold
    · exact hall.fields_sublist
  · have hbefore : ∀ row ∈ List.range docs.length, warningsIn row births = warningsIn row all := by
      intro row hrow
      rw [← hall.earlier_eq, warningsIn, bornIn_bornBefore (List.mem_range.1 hrow)]
      rfl
    rw [List.length_append, List.length_singleton, List.range_succ, List.flatMap_append, h.warnings_eq,
      hall.warnings_eq, List.flatMap_congr hbefore, List.flatMap_singleton]

/-- **The births of a run** are those of the runs that it begins with, and the rest of it adds. -/
theorem exists_births_of_foldlM (h : docs.foldlM (append options) empty = .ok table) :
    ∃ births, BornOf options docs table births ∧
      ∀ (k : Nat) (between : Table), (docs.take k).foldlM (append options) empty = .ok between →
        BornOf options (docs.take k) between (bornBefore k births) := by
  induction docs using List.reverseRecOn generalizing table with
  | nil =>
    cases h
    refine ⟨[], bornOf_empty, fun k between hbetween => ?_⟩
    rw [List.take_nil] at hbetween ⊢
    cases hbetween
    exact bornOf_empty
  | append_singleton docs doc ih =>
    have hrun := h
    rw [List.foldlM_append] at h
    obtain ⟨before, hbefore, hlast⟩ := Steps.bind_eq_ok.1 h
    rw [List.foldlM_cons] at hlast
    obtain ⟨result, hresult, hlast⟩ := Steps.bind_eq_ok.1 hlast
    cases hlast
    obtain ⟨births, hborn, hprefixes⟩ := ih hbefore
    obtain ⟨all, hall, hearlier⟩ :=
      hborn.append (isTableOf_of_foldlM hbefore).rowCount_eq hresult
    refine ⟨all, hall, fun k between hbetween => ?_⟩
    by_cases hk : k ≤ docs.length
    · rw [List.take_append_of_le_length hk] at hbetween ⊢
      rw [← bornBefore_bornBefore hk, hearlier]
      exact hprefixes k between hbetween
    · -- nothing is left to add
      have htake : (docs ++ [doc]).take k = docs ++ [doc] := by
        apply List.take_of_length_le
        rw [List.length_append, List.length_singleton]
        omega
      rw [htake, hrun] at hbetween
      cases hbetween
      rw [htake, bornBefore_eq_self]
      · exact hall
      · intro birth hbirth
        have hrow := hall.row_lt birth hbirth
        rw [List.length_append, List.length_singleton] at hrow
        omega

/-! ## Every document, every run and every page -/

/-- **How columns come about.**  A document leaves the columns in their order and puts others between
them, such that both the names there were and the keys of the document can be read off from left to
right; it adds none exactly if its keys could be read off before. A column that it adds is missing in
all earlier rows. Over a run each column has one birth, which is in the row of the document that added
it, and the warnings are one for each birth from a null, in the order of births. A page is the outcome
of such a run. -/
theorem columns_evolve (options : Options) :
    (∀ (table result : Table) (doc : Document), table.append options doc = .ok result →
      table.names <+ result.names ∧ doc.map Prod.fst <+ result.names ∧
      (result.columns.length = table.columns.length ↔ doc.map Prod.fst <+ table.names) ∧
      Continue table.rowCount table.columns result.columns) ∧
    (∀ (docs : List Document) (table : Table), docs.foldlM (append options) empty = .ok table →
      ∃ births, BornOf options docs table births ∧
        ∀ (k : Nat) (between : Table), (docs.take k).foldlM (append options) empty = .ok between →
          BornOf options (docs.take k) between (bornBefore k births)) ∧
    ∀ (source : Source) (maxRows : Nat) (table : Table),
      (source.flatten options maxRows).1 = .ok table →
      ∃ docs : List Document, source.items maxRows = docs.map .ok ∧
        docs.foldlM (append options) empty = .ok table := by
  refine ⟨fun table result doc hresult => ?_, fun docs table => exists_births_of_foldlM,
    fun source maxRows table => Source.foldlM_of_flatten⟩
  obtain ⟨⟨columns, warnings⟩, hplace, hresult⟩ := Steps.bind_eq_ok.1 hresult
  cases hresult
  have hplaced := placed_of_place hplace
  exact ⟨hplaced.names_sublist, hplaced.keys_sublist, length_place_eq_iff hplace, hplaced.continue⟩

/-- A second column of a name, started for a null in front of a column that another null started. -/
theorem columns_evolve_reordered :
    ∃ (first second : Document) (between page : Table) (births : List Birth),
      first = [("a", .scalar (.int32 1)), ("b", .null)] ∧
      second = [("c", .null), ("b", .scalar (.bool true)), ("a", .scalar (.int32 2))] ∧
      page = ⟨[⟨"c", .bool, #[.missing, .missing]⟩, ⟨"a", .int32, #[.int32 1, .missing]⟩,
        ⟨"b", .bool, #[.missing, .bool true]⟩, ⟨"a", .int32, #[.missing, .int32 2]⟩], 2,
        [.nullDefaultedToBool "b" 0, .nullDefaultedToBool "c" 1]⟩ ∧
      between.append Options.default second = .ok page ∧
      between.names <+ page.names ∧ second.map Prod.fst <+ page.names ∧
      Continue 1 between.columns page.columns ∧
      BornOf Options.default [first, second] page births ∧
      BornOf Options.default [first] between (bornBefore 1 births) ∧
      ((Source.queue [first, second]).flatten Options.default 5).1 = .ok page ∧
      ∃ docs : List Document, (Source.queue [first, second]).items 5 = docs.map .ok ∧
        docs.foldlM (append Options.default) empty = .ok page := by
  obtain ⟨hdoc, hrun, hpage⟩ := columns_evolve Options.default
  obtain ⟨hnames, hkeys, -, hcontinue⟩ := hdoc
    ⟨[⟨"a", .int32, #[.int32 1]⟩, ⟨"b", .bool, #[.missing]⟩], 1, [.nullDefaultedToBool "b" 0]⟩ _
    [("c", .null), ("b", .scalar (.bool true)), ("a", .scalar (.int32 2))]
    (by with_unfolding_all rfl)
  obtain ⟨births, hborn, hprefixes⟩ := hrun
    [[("a", .scalar (.int32 1)), ("b", .null)],
      [("c", .null), ("b", .scalar (.bool true)), ("a", .scalar (.int32 2))]] _
    (by with_unfolding_all rfl)
  exact ⟨_, _, _, _, births, rfl, rfl, rfl, by with_unfolding_all rfl, hnames, hkeys, hcontinue, hborn,
    hprefixes 1 _ (by with_unfolding_all rfl), by with_unfolding_all rfl,
    hpage (Source.queue [_, _]) 5 _ (by with_unfolding_all rfl)⟩

end Table

end DocTable
