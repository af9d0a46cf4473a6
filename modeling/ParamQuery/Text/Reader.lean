import ParamQuery.Text.Numeral

/-!
# Readers

A reader takes a part from the front of a text or fails. Readers of nested documents recurse on
a depth that the length of the text bounds.
-/

namespace ParamQuery

abbrev Reader (α : Type) := StateT (List Char) Option α

namespace Reader

/-- The next character, which stays in the text. -/
def peek? : Reader (Option Char) := fun text => some (text.head?, text)

def next : Reader Char
  | [] => none
  | c :: rest => some (c, rest)

def takeWhile (p : Char → Bool) : Reader (List Char) := fun text =>
  some (text.takeWhile p, text.dropWhile p)

def expect (expected : String) : Reader Unit := fun text =>
  if expected.toList.isPrefixOf text then some ((), text.drop expected.length) else none

def accept (expected : String) : Reader Bool := fun text =>
  if expected.toList.isPrefixOf text then some (true, text.drop expected.length)
  else some (false, text)

def digits : Reader (List Char) := do
  let found ← takeWhile Char.isDigit
  guard !found.isEmpty
  return found

def hex : Nat → Reader Nat
  | 0 => return 0
  | count + 1 => do
    let leading ← hex count
    match Numeral.hexValue? (← next) with
    | none => failure
    | some last => return 16 * leading + last

def run? {α : Type} (reader : Reader α) (text : List Char) : Option α :=
  match reader text with
  | some (a, []) => some a
  | _ => none

end Reader

end ParamQuery
