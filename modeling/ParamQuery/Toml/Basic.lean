import ParamQuery.Text.Reader

/-!
# TOML documents

A document is a tree of tables. It is written as sections, each a table's path and assignments
to paths below it. `tableOf?` puts the assignments together; it refuses a path that is
assigned twice, a path through a value and a table that is opened twice.
-/

namespace ParamQuery

inductive Toml where
  | string (text : String)
  /-- An integer as written, without the mark of its base and grouping marks. -/
  | integer (base : Nat) (digits : List Char)
  | boolean (b : Bool)
  /-- A float as written. -/
  | float (digits : List Char)
  /-- A date, a time or both, as written. -/
  | dateTime (text : List Char)
  | array (elements : List Toml)
  | table (entries : List (String × Toml))

namespace Toml

abbrev Path := List String

abbrev Entries := List (String × Toml)

/-- A table's path and what is assigned below it. -/
structure Section where
  path : Path
  assignments : List (Path × Toml)

def put (key : String) (value : Toml) : Entries → Entries
  | [] => [(key, value)]
  | (known, existing) :: rest =>
    if known = key then (known, value) :: rest else (known, existing) :: put key value rest

def entriesAt (key : String) (entries : Entries) : Entries :=
  match entries.lookup key with
  | some (.table inner) => inner
  | _ => []

/-- Makes a table at a path, with the tables on the way. -/
def openTable : Path → Entries → Entries
  | [], entries => entries
  | key :: rest, entries => put key (.table (openTable rest (entriesAt key entries))) entries

def assign (value : Toml) : Path → Entries → Entries
  | [], entries => entries
  | [key], entries => put key value entries
  | key :: rest, entries => put key (.table (assign value rest (entriesAt key entries))) entries

namespace Section

def leaves (s : Section) : List Path := s.assignments.map fun (path, _) => s.path ++ path

/-- The tables that the section's assignments pass through. -/
def passed (s : Section) : List Path :=
  s.assignments.flatMap fun (path, _) =>
    (List.range path.length).tail.map fun count => s.path ++ path.take count

def addTo (entries : Entries) (s : Section) : Entries :=
  s.assignments.foldl (fun entries (path, value) => assign value (s.path ++ path) entries)
    (openTable s.path entries)

end Section

/-- Whether a document opens each table once and assigns each value once. -/
def consistent (sections : List Section) : Bool :=
  let tables := sections.map Section.path
  let leaves := sections.flatMap Section.leaves
  let passed := sections.flatMap Section.passed
  let distinct := fun (paths : List Path) => paths.eraseDups.length == paths.length
  distinct tables && distinct leaves && passed.all (fun path => !tables.contains path) &&
    leaves.all fun leaf => !(tables ++ passed).any fun path => leaf.isPrefixOf path

def tableOf? (sections : List Section) : Option Entries :=
  if consistent sections then some (sections.foldl Section.addTo []) else none

end Toml

end ParamQuery
