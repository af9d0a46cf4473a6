import ParamQuery.Binary64.Decimal
import ParamQuery.Text.Reader

/-!
# Date-times

A date, a time of day, or both with an optional offset from UTC. Days exist in their month of
the proleptic Gregorian calendar; the seconds may be left out and reach 60 for a leap second.
-/

namespace ParamQuery.Toml

def fixedDigits (count : Nat) : Reader Nat := do
  let digits ← Reader.digits
  guard (digits.length = count)
  return Decimal.natOfDigits digits

def isLeapYear (year : Nat) : Bool := year % 4 == 0 && (year % 100 != 0 || year % 400 == 0)

def daysInMonth (year month : Nat) : Nat :=
  match month with
  | 2 => if isLeapYear year then 29 else 28
  | 4 | 6 | 9 | 11 => 30
  | _ => 31

def date : Reader Unit := do
  let year ← fixedDigits 4
  Reader.expect "-"
  let month ← fixedDigits 2
  Reader.expect "-"
  let day ← fixedDigits 2
  guard (1 ≤ month ∧ month ≤ 12 ∧ 1 ≤ day ∧ day ≤ daysInMonth year month)

def hourAndMinute : Reader Unit := do
  let hour ← fixedDigits 2
  Reader.expect ":"
  let minute ← fixedDigits 2
  guard (hour ≤ 23 ∧ minute ≤ 59)

def timeOfDay : Reader Unit := do
  hourAndMinute
  if ← Reader.accept ":" then
    let second ← fixedDigits 2
    guard (second ≤ 60)
    if ← Reader.accept "." then
      let _ ← Reader.digits

def offset : Reader Unit := do
  match ← Reader.next with
  | 'Z' | 'z' => return
  | '+' | '-' => hourAndMinute
  | _ => failure

/-- A time after a date, with an optional offset. -/
def dateRest : Reader Unit := do
  match ← Reader.next with
  | 'T' | 't' | ' ' =>
    timeOfDay
    match ← Reader.peek? with
    | none => return
    | some _ => offset
  | _ => failure

def isDateTime (text : List Char) : Bool :=
  [date, date *> dateRest, timeOfDay].any fun reader => (reader.run? text).isSome

end ParamQuery.Toml
