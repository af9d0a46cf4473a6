import ParamQuery.Toml.Basic

/-!
# Quoted text in TOML

Strings are basic with escapes or literal without, on one line or several. A line end is a line
feed, with or without a carriage return; a carriage return stands nowhere else.
-/

namespace ParamQuery.Toml

def isBlank (c : Char) : Bool := c == ' ' || c == '\t'

/-- The characters that strings and comments may hold on one line. -/
def isPlain (c : Char) : Bool := c == '\t' || (0x20 ≤ c.toNat && c.toNat != 0x7F)

def isBare (c : Char) : Bool := c.isAlphanum || c == '_' || c == '-'

def character (code : Nat) : Reader Char := do
  guard code.isValidChar
  return Char.ofNat code

def escape : Reader Char := do
  match ← Reader.next with
  | 'b' => return '\x08'
  | 't' => return '\t'
  | 'n' => return '\n'
  | 'f' => return '\x0c'
  | 'r' => return '\r'
  | 'e' => return '\x1b'
  | '"' => return '"'
  | '\\' => return '\\'
  | 'x' => character (← Reader.hex 2)
  | 'u' => character (← Reader.hex 4)
  | 'U' => character (← Reader.hex 8)
  | _ => failure

def newline : Reader Unit := do
  let _ ← Reader.accept "\r"
  Reader.expect "\n"

def lineRest (quote : Char) : Nat → Reader (List Char)
  | 0 => failure
  | depth + 1 => do
    let c ← Reader.next
    if c = quote then return []
    else if c = '\\' ∧ quote = '"' then return (← escape) :: (← lineRest quote depth)
    else
      guard (isPlain c)
      return c :: (← lineRest quote depth)

def dropLines : List Char → List Char
  | '\r' :: '\n' :: rest => dropLines rest
  | c :: rest => if isBlank c || c == '\n' then dropLines rest else c :: rest
  | [] => []

/-- Drops the blanks and line ends that follow a backslash at the end of a line. -/
def continueLine : Reader Bool := fun text =>
  match text.dropWhile isBlank with
  | '\n' :: rest | '\r' :: '\n' :: rest => some (true, dropLines rest)
  | _ => some (false, text)

/-- The rest of a string on several lines; up to two quotes may stand before the closing three. -/
def linesRest (quote : Char) : Nat → Reader (List Char)
  | 0 => failure
  | depth + 1 => do
    let quotes ← Reader.takeWhile (· == quote)
    if 3 ≤ quotes.length then
      guard (quotes.length ≤ 5)
      return quotes.drop 3
    else
      let c ← Reader.next
      let read ←
        if c = '\\' ∧ quote = '"' then
          if ← continueLine then pure [] else pure [← escape]
        else
          guard (isPlain c || c == '\n' || (c == '\r' && (← Reader.peek?) == some '\n'))
          pure [c]
      return quotes ++ read ++ (← linesRest quote depth)

/-- A string from its opening quotes; a line end right after three of them is dropped. -/
def quotedText (depth : Nat) (quote : Char) : Reader String := do
  if ← Reader.accept (String.ofList [quote, quote, quote]) then
    if ← Reader.accept "\n" then pure () else let _ ← Reader.accept "\r\n"
    return String.ofList (← linesRest quote depth)
  else
    Reader.expect (String.ofList [quote])
    return String.ofList (← lineRest quote depth)

end ParamQuery.Toml
