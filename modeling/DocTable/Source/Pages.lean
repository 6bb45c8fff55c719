import DocTable.Source.Basic
import DocTable.Table.Fill

/-!
# Pages

A source is flattened page by page, each page a table of at most a given number of rows. The pages
end where the source does, or at the first error, which is given once.
-/

set_option autoImplicit false

namespace DocTable

namespace Source

/-- Appends up to `rows` documents to a table. -/
def fill (options : Options) : (rows : Nat) → Table → Source → Except Error Table × Source
  | 0, table, source => (.ok table, source)
  | rows + 1, table, source =>
    match source.hasMore with
    | (false, source) => (.ok table, source)
    | (true, source) =>
      match source.next with
      | (.error error, source) => (.error error, source)
      | (.ok doc, source) =>
        match table.append options doc with
        | .error error => (.error error, source)
        | .ok table => fill options rows table source

/-- The table of the next `maxRows` documents, or of all that are left. -/
def flatten (options : Options) (maxRows : Nat) (source : Source) : Except Error Table × Source :=
  if maxRows = 0 then (.error .invalidPageSize, source)
  else
    let (result, source) := source.fill options maxRows Table.empty
    (result.map Table.finish, source)

end Source

/-- The rest of the pages of a source. -/
structure Pages where
  source : Source
  pageSize : Nat
  options : Options
  /-- The number of pages given so far. -/
  count : Nat
  /-- Whether the pages have ended. -/
  done : Bool
  deriving Repr

namespace Pages

/-- The pages of a source. -/
def ofSource (options : Options) (pageSize : Nat) (source : Source) : Pages :=
  ⟨source, pageSize, options, 0, false⟩

/-- Takes the next page; none when the pages have ended. -/
def next (pages : Pages) : Option (Except Error Table) × Pages :=
  if pages.done then (none, pages)
  else
    match pages.source.flatten pages.options pages.pageSize with
    | (.error error, source) => (some (.error error), { pages with source, done := true })
    | (.ok table, source) =>
      if table.isEmpty then (none, { pages with source, done := true })
      else (some (.ok table), { pages with source, count := pages.count + 1 })

/-- The next pages, at most `limit` of them, or the first error among them. -/
def take : (limit : Nat) → Pages → Except Error (List Table)
  | 0, _ => .ok []
  | limit + 1, pages =>
    match pages.next with
    | (none, _) => .ok []
    | (some (.error error), _) => .error error
    | (some (.ok table), pages) => do
      let tables ← take limit pages
      .ok (table :: tables)

/-- All pages that are left, or the first error among them. A page takes at least one document, so
there are no more pages than documents. -/
def all (pages : Pages) : Except Error (List Table) :=
  pages.take (pages.source.bound + 1)

/-- At most `limit` pages if there is a limit, else all of them. -/
def collect (limit : Option Nat) (pages : Pages) : Except Error (List Table) :=
  match limit with
  | some limit => pages.take limit
  | none => pages.all

end Pages

end DocTable
