import ParamQuery.Toml.Basic
import ParamQuery.Toml.DateTime

/-!
# TOML scalars without quotes

A scalar is the text up to a comment, a line end or a structural mark, without the blanks before
it: a boolean, an integer in one of four bases, a float or a date-time. A space separates a date
from its time and stands in no other scalar. A decimal integer with grouping marks is kept as it
is written: only the places of the marks are checked here, and `integerOf?` checks the digits
when the value is asked for.
-/

namespace ParamQuery.Toml

def hasValueBelow (base : Nat) (c : Char) : Bool := (Numeral.hexValue? c).any (· < base)

/-- The value of an optional sign and digits of a base. -/
def integerOf? (base : Nat) (text : List Char) : Option Int :=
  let (negative, digits) := Decimal.signed text
  let size := digits.foldl (fun n c => base * n + (Numeral.hexValue? c).getD 0) 0
  if digits ≠ [] ∧ digits.all (hasValueBelow base) then some (if negative then -size else size)
  else none

def withoutMarks (text : List Char) : List Char := text.filter (· != '_')

/-- Grouping marks stand between two digits. -/
def marksFit (isDigit : Char → Bool) (text : List Char) : Bool :=
  text.head? != some '_' && text.getLast? != some '_' &&
    (text.zip text.tail).all fun (a, b) => (a != '_' || isDigit b) && (b != '_' || isDigit a)

/-- The digits after the mark of a base; there may be none. -/
def based? (base : Nat) (text : List Char) : Option Toml :=
  if text.all (fun c => c == '_' || hasValueBelow base c) && marksFit (hasValueBelow base) text then
    some (.integer base (withoutMarks text))
  else none

def groupedDigits : Reader (List Char) := do
  let found ← Reader.takeWhile fun c => c.isDigit || c == '_'
  guard (found.any Char.isDigit)
  return found

/-- A decimal after its sign: no needless zero in front, a fraction, an exponent or both. -/
def floatBody : Reader Unit := do
  let whole ← groupedDigits
  guard (whole.head? ≠ some '0' ∨ whole.countP Char.isDigit = 1)
  if ← Reader.accept "." then
    let _ ← groupedDigits
  match ← Reader.peek? with
  | some 'e' | some 'E' =>
    let _ ← Reader.next
    match ← Reader.peek? with
    | some '+' | some '-' =>
      let _ ← Reader.next
      let _ ← groupedDigits
    | _ =>
      let _ ← groupedDigits
  | _ => return

def isFloat (text : List Char) : Bool :=
  (floatBody.run? (Decimal.signed text).2).isSome && marksFit Char.isDigit text

/-- An integer has no needless zero in front. -/
def decimal? (text : List Char) : Option Toml :=
  let (_, body) := Decimal.signed text
  if body.head? = some '0' ∧ body ≠ ['0'] then none
  else if marksFit (hasValueBelow 16) text then some (.integer 10 (withoutMarks text))
  else none

/-- What follows the first digits tells a date-time, a float and an integer apart. -/
def number? (text : List Char) : Option Toml :=
  let (_, body) := Decimal.signed text
  let rest := body.dropWhile Char.isDigit
  if rest.head? = some '-' ∨ rest.head? = some ':' then
    if isDateTime text then some (.dateTime text) else none
  else if rest.contains ' ' then none
  else if rest.any fun c => c == '.' || c == 'e' || c == 'E' then
    if isFloat text then some (.float text) else none
  else if body ≠ [] ∧ (rest = [] ∨ rest.head? = some '_') then decimal? text
  else none

def scalar? (text : List Char) : Option Toml :=
  match text with
  | '0' :: 'x' :: digits => based? 16 digits
  | '0' :: 'o' :: digits => based? 8 digits
  | '0' :: 'b' :: digits => based? 2 digits
  | _ =>
    match String.ofList text with
    | "true" => some (.boolean true)
    | "false" => some (.boolean false)
    | "inf" | "+inf" | "-inf" | "nan" | "+nan" | "-nan" => some (.float text)
    | _ => number? text

def endsRun (c : Char) : Bool := " \t\n\r#=,[]\x7b\x7d".contains c

/-- Whether a further run of a scalar follows the blanks; quoted text is no such run. -/
def runFollows (text : List Char) : Bool :=
  (text.dropWhile fun c => c == ' ' || c == '\t').head?.any fun c =>
    !endsRun c && c != '.' && c != '"' && c != '\x27'

/-- The runs of a scalar with the blanks between them. -/
def scalarText : Reader (List Char)
  | [] => some ([], [])
  | c :: rest =>
    if endsRun c && !((c == ' ' || c == '\t') && runFollows rest) then some ([], c :: rest)
    else (scalarText rest).map fun (text, rest) => (c :: text, rest)

def plainScalar : Reader Toml := do
  match scalar? (← scalarText) with
  | some scalar => return scalar
  | none => failure

end ParamQuery.Toml
