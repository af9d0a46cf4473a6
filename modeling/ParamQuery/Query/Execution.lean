import ParamQuery.Query.Basic
import ParamQuery.StableSort

/-!
# Running a reference query over rows

Rows are kept if they are in scope and satisfy the predicate, then ordered, cut to the window
and projected. Missing and null cells come before all others in ascending order, and cells that
are not comparable tie. So the keys need not order the rows, and a sort that finds this out may
give up: then there is no answer.
-/

namespace ParamQuery

/-- Orders two cells of one column, absent ones first. -/
def compareCells : Option Value → Option Value → Ordering
  | none, none => .eq
  | none, some _ => .lt
  | some _, none => .gt
  | some a, some b => (a.compare b).getD .eq

def SortKey.compare (key : SortKey) (a b : Row) : Ordering :=
  let ascending := compareCells (a.present? key.field) (b.present? key.field)
  match key.direction with
  | .asc => ascending
  | .desc => ascending.swap

/-- The first key that tells two rows apart decides. -/
def compareRows (keys : List SortKey) (a b : Row) : Ordering :=
  keys.foldr (fun key rest => (key.compare a b).then rest) .eq

/-- The rows in the order of the keys. Without a key nothing is sorted. -/
def arrange (sorter : StableSort Row) (keys : List SortKey) (rows : List Row) :
    Option (List Row) :=
  if keys.isEmpty then some rows else sorter.sort (compareRows keys) rows

/-- A qualified column `table.column` reads the bare column. -/
def bareColumn (column : String) : String :=
  String.ofList (column.toList.reverse.takeWhile (· != '.')).reverse

/-- The selected columns that the row has, each once. -/
def Row.select (row : Row) (columns : List String) : Row :=
  (columns.map bareColumn).eraseDups.filterMap fun column =>
    (row.get? column).map fun value => (column, value)

/-- The rows that come back, or nothing where the sort gives up. -/
abbrev Answer := Option (List Row)

/-- What is read off the rows of an answer; nothing if there is none. -/
def Answer.map {β : Type} (read : Row → β) (answer : Answer) : List β :=
  (answer.getD []).map read

namespace Query

/-- Whether the scope shows a row; a model without soft deletion shows every row. -/
def inScope (q : Query) (row : Row) : Bool :=
  match q.model.softDelete with
  | none => true
  | some column =>
    let trashed := (row.present? column).isSome
    match q.scope with
    | .withoutTrashed => !trashed
    | .withTrashed => true
    | .onlyTrashed => trashed

def accepts (q : Query) (row : Row) : Bool :=
  q.inScope row && q.predicate.all (·.eval row)

def count (q : Query) (rows : List Row) : Nat := rows.countP q.accepts

def project (q : Query) (row : Row) : Row :=
  match q.projection with
  | some (.columns names) => row.select names
  | _ => row

def window (q : Query) (rows : List Row) : List Row :=
  let rest := rows.drop q.offset.toNat
  match q.limit with
  | none => rest
  | some limit => rest.take limit.toNat

def execute (q : Query) (rows : List Row) (sorter : StableSort Row := .standard) : Answer :=
  (arrange sorter q.order (rows.filter q.accepts)).map fun arranged =>
    (q.window arranged).map q.project

end Query

end ParamQuery
