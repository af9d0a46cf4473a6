import ParamQuery.Value.Basic

/-!
# Rows

A row maps column names to values. A missing column and a null column are different, although
most of the query operations treat them alike.
-/

namespace ParamQuery

/-- Columns with their values, each column once. -/
abbrev Row := List (String × Value)

namespace Row

def get? (row : Row) (column : String) : Option Value := List.lookup column row

/-- The value of a column that is present and not null. -/
def present? (row : Row) (column : String) : Option Value :=
  (row.get? column).filter fun v => !v.isNull

end Row

end ParamQuery
