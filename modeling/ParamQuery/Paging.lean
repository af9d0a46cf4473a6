import ParamQuery.Parameters
import ParamQuery.Text.Blank
import ParamQuery.Text.Numeral

/-!
# Paging

The page that a request asks for by its reserved parameters. Pages count from one. A number
that cannot be used falls back to its default, and paging can be turned off, which makes the
whole result one page.
-/

namespace ParamQuery

/-- The page size of hosts that choose none. -/
def standardPageSize : UInt64 := 15

structure PageRequest where
  page : UInt64 := 1
  pageSize : UInt64 := standardPageSize
  deriving DecidableEq, Repr

namespace PageRequest

/-- The number of rows before the page, or the largest number if there are more. -/
def offset (request : PageRequest) : UInt64 :=
  UInt64.ofNat
    (min ((request.page.toNat - 1) * request.pageSize.toNat) Numeral.largestUInt64)

end PageRequest

def positive? (raw : String) : Option UInt64 :=
  (Numeral.uint64? (Text.trim raw.toList)).filter (0 < ·)

/-- A page size that is given wins over the flag that turns paging off. -/
def pageSizeOf (reserved : ReservedNames) (defaultSize : UInt64) (params : Parameters)
    (total : UInt64) : UInt64 :=
  match params.first? reserved.perPage with
  | some raw => (positive? raw).getD defaultSize
  | none =>
    if params.first? reserved.paginate = some "no" then max total 1 else defaultSize

def PageRequest.ofParameters (reserved : ReservedNames) (defaultSize : UInt64)
    (params : Parameters) (total : UInt64) : PageRequest where
  page := ((params.first? reserved.page).bind positive?).getD 1
  pageSize := pageSizeOf reserved defaultSize params total

end ParamQuery
