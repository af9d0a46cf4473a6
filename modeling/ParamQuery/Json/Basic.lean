import ParamQuery.Text.Reader

/-!
# JSON documents

A document is read into a tree that keeps what its readers may still refuse: the digits of a
number, and a string's escapes, which may name half a surrogate pair. What is only skipped need
not denote anything.
-/

namespace ParamQuery

/-- A unit of a string: a character or one half of a surrogate pair. -/
inductive JsonUnit where
  | character (c : Char)
  | surrogate (code : Nat)
  deriving DecidableEq, Repr

structure JsonNumber where
  negative : Bool
  whole : List Char
  fraction : Option (List Char)
  /-- The sign and the digits of the exponent. -/
  exponent : Option (Bool × List Char)
  deriving DecidableEq, Repr

inductive Json where
  | null
  | bool (b : Bool)
  | number (n : JsonNumber)
  | string (units : List JsonUnit)
  | array (elements : List Json)
  | object (members : List (List JsonUnit × Json))

namespace Json

/-- The characters of a string, unless some half of a surrogate pair stands alone. -/
def characters? : List JsonUnit → Option (List Char)
  | [] => some []
  | .character c :: rest => (characters? rest).map (c :: ·)
  | .surrogate high :: .surrogate low :: rest =>
    if high < 0xDC00 ∧ 0xDC00 ≤ low then
      let code := 0x10000 + (high - 0xD800) * 0x400 + (low - 0xDC00)
      (characters? rest).map (Char.ofNat code :: ·)
    else none
  | .surrogate _ :: _ => none

def textOf? (units : List JsonUnit) : Option String := (characters? units).map String.ofList

def text? : Json → Option String
  | .string units => textOf? units
  | _ => none

def isSpace (c : Char) : Bool := c == ' ' || c == '\t' || c == '\n' || c == '\r'

def space : Reader Unit := do
  let _ ← Reader.takeWhile isSpace

def unitOfCode (code : Nat) : JsonUnit :=
  if 0xD800 ≤ code ∧ code < 0xE000 then .surrogate code else .character (Char.ofNat code)

def escape : Reader JsonUnit := do
  match ← Reader.next with
  | '"' => return .character '"'
  | '\\' => return .character '\\'
  | '/' => return .character '/'
  | 'b' => return .character '\x08'
  | 'f' => return .character '\x0c'
  | 'n' => return .character '\n'
  | 'r' => return .character '\r'
  | 't' => return .character '\t'
  | 'u' => return unitOfCode (← Reader.hex 4)
  | _ => failure

def stringRest : Nat → Reader (List JsonUnit)
  | 0 => failure
  | depth + 1 => do
    match ← Reader.next with
    | '"' => return []
    | '\\' => return (← escape) :: (← stringRest depth)
    | c =>
      guard (0x20 ≤ c.toNat)
      return .character c :: (← stringRest depth)

/-- A number does not begin with a needless zero. -/
def readNumber : Reader JsonNumber := do
  let negative ← Reader.accept "-"
  let whole ← Reader.digits
  guard (whole.head? != some '0' || whole.length == 1)
  let fraction ← if ← Reader.accept "." then some <$> Reader.digits else pure none
  match ← Reader.peek? with
  | some 'e' | some 'E' =>
    let _ ← Reader.next
    let negativeExponent ← Reader.accept "-"
    let _ ← if negativeExponent then pure false else Reader.accept "+"
    let digits ← Reader.digits
    return ⟨negative, whole, fraction, some (negativeExponent, digits)⟩
  | _ => return ⟨negative, whole, fraction, none⟩

mutual

def value : Nat → Reader Json
  | 0 => failure
  | depth + 1 => do
    space
    match ← Reader.peek? with
    | some 'n' => Reader.expect "null"; return .null
    | some 't' => Reader.expect "true"; return .bool true
    | some 'f' => Reader.expect "false"; return .bool false
    | some '"' =>
      let _ ← Reader.next
      return .string (← stringRest depth)
    | some '[' =>
      let _ ← Reader.next
      space
      if ← Reader.accept "]" then return .array [] else return .array (← elements depth)
    | some '\x7b' =>
      let _ ← Reader.next
      space
      if ← Reader.accept "\x7d" then return .object [] else return .object (← members depth)
    | _ => return .number (← readNumber)

def elements : Nat → Reader (List Json)
  | 0 => failure
  | depth + 1 => do
    let first ← value depth
    space
    match ← Reader.next with
    | ',' => return first :: (← elements depth)
    | ']' => return [first]
    | _ => failure

def members : Nat → Reader (List (List JsonUnit × Json))
  | 0 => failure
  | depth + 1 => do
    space
    Reader.expect "\""
    let key ← stringRest depth
    space
    Reader.expect ":"
    let first ← value depth
    space
    match ← Reader.next with
    | ',' => return (key, first) :: (← members depth)
    | '\x7d' => return [(key, first)]
    | _ => failure

end

def document (depth : Nat) : Reader Json := do
  let json ← value depth
  space
  return json

/-- Every step down or along the document takes a character or goes from a list to a value. -/
def ofText? (text : String) : Option Json :=
  (document (2 * text.length + 2)).run? text.toList

end Json

end ParamQuery
