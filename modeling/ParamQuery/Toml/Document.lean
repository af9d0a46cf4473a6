import ParamQuery.Toml.Quoted
import ParamQuery.Toml.Scalar

/-!
# Reading TOML

A document is read line by line: blank lines, comments, headers that open a table and
assignments. Arrays and inline tables may stretch over lines and end with a comma. Nesting and
dotted paths are bounded. Arrays of tables are not read.
-/

namespace ParamQuery.Toml

def blanks : Reader Unit := do
  let _ ← Reader.takeWhile isBlank

def comment : Reader Unit := do
  if ← Reader.accept "#" then
    let _ ← Reader.takeWhile isPlain

def gap : Nat → Reader Unit
  | 0 => failure
  | depth + 1 => do
    blanks
    comment
    match ← Reader.peek? with
    | some '\n' | some '\r' => newline; gap depth
    | _ => return

def key (depth : Nat) : Reader String := do
  match ← Reader.peek? with
  | some '"' => Reader.expect "\""; return String.ofList (← lineRest '"' depth)
  | some '\x27' => Reader.expect "'"; return String.ofList (← lineRest '\x27' depth)
  | _ =>
    let name ← Reader.takeWhile isBare
    guard !name.isEmpty
    return String.ofList name

/-- Keys between dots, with the blanks around them. -/
def keys : Nat → Reader Path
  | 0 => failure
  | depth + 1 => do
    blanks
    let first ← key depth
    blanks
    if ← Reader.accept "." then return first :: (← keys depth) else return [first]

/-- The most keys of a path. -/
def longestPath : Nat := 80

def path (depth : Nat) : Reader Path := do
  let found ← keys depth
  guard (found.length ≤ longestPath)
  return found

/-- The most arrays and inline tables one in another. -/
def deepestNesting : Nat := 80

mutual

/-- A value with room for so many arrays and inline tables one in another. -/
def value : Nat → Nat → Reader Toml
  | 0, _ => failure
  | depth + 1, room => do
    match ← Reader.peek? with
    | some '"' => return .string (← quotedText depth '"')
    | some '\x27' => return .string (← quotedText depth '\x27')
    | some '[' =>
      Reader.expect "["
      guard (0 < room)
      return .array (← elements depth (room - 1))
    | some '\x7b' =>
      Reader.expect "\x7b"
      guard (0 < room)
      let found ← inlineAssignments depth (room - 1)
      match tableOf? [⟨[], found⟩] with
      | some entries => return .table entries
      | none => failure
    | _ => plainScalar
termination_by structural depth => depth

def elements : Nat → Nat → Reader (List Toml)
  | 0, _ => failure
  | depth + 1, room => do
    gap depth
    if ← Reader.accept "]" then return []
    else
      let first ← value depth room
      gap depth
      if ← Reader.accept "," then return first :: (← elements depth room)
      else
        Reader.expect "]"
        return [first]

def inlineAssignments : Nat → Nat → Reader (List (Path × Toml))
  | 0, _ => failure
  | depth + 1, room => do
    gap depth
    if ← Reader.accept "\x7d" then return []
    else
      let first ← assignment depth (gap depth) room
      gap depth
      if ← Reader.accept "," then return first :: (← inlineAssignments depth room)
      else
        Reader.expect "\x7d"
        return [first]

def assignment : Nat → Reader Unit → Nat → Reader (Path × Toml)
  | 0, _, _ => failure
  | depth + 1, space, room => do
    let target ← path depth
    space
    Reader.expect "="
    space
    return (target, ← value depth room)

end

def lineEnd : Reader Unit := do
  blanks
  comment
  match ← Reader.peek? with
  | none => return
  | some _ => newline

/-- The lines up to the end, as sections; the assignments go to the section given. -/
def sections (current : Section) : Nat → Reader (List Section)
  | 0 => failure
  | depth + 1 => do
    gap depth
    match ← Reader.peek? with
    | none => return [current]
    | some '[' =>
      Reader.expect "["
      let target ← path depth
      Reader.expect "]"
      lineEnd
      return current :: (← sections ⟨target, []⟩ depth)
    | some _ =>
      let next ← assignment depth blanks deepestNesting
      lineEnd
      sections { current with assignments := current.assignments ++ [next] } depth

def dropMark : List Char → List Char
  | '\uFEFF' :: rest => rest
  | text => text

/-- Every step takes a character or goes from one kind of part to the next. -/
def ofText? (text : String) : Option Entries :=
  ((sections ⟨[], []⟩ (4 * text.length + 4)).run? (dropMark text.toList)).bind tableOf?

end ParamQuery.Toml
