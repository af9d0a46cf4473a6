import ParamQuery.Settings.Basic
import ParamQuery.Toml.Document

/-!
# Settings documents

Settings are written in TOML as the tables `reserved`, `pagination` and `directives`. What is
left out keeps its default, an unknown key is refused, and a table may also be given as the
array of its values in order.
-/

namespace ParamQuery.Settings

def stringOf? : Toml → Option String
  | .string text => some text
  | _ => none

def sizeOf? : Toml → Option UInt64
  | .integer base digits => do
    let i ← Toml.integerOf? base digits
    if 0 ≤ i ∧ i ≤ Numeral.largestUInt64 then some (UInt64.ofNat i.toNat) else none
  | _ => none

def stringsOf? : Toml → Option (List String)
  | .array elements => elements.mapM stringOf?
  | _ => none

/-- The values of a table in the order of its keys; other keys are refused. -/
def fields? (keys : List String) : Toml → Option (List (Option Toml))
  | .table entries =>
    if entries.all fun entry => keys.contains entry.1 then
      some (keys.map fun key => entries.lookup key)
    else none
  | .array elements => some ((List.range keys.length).map fun i => elements[i]?)
  | _ => none

/-- The reading of a value, or the default for none. -/
def readOr {α : Type} (default : α) (read : Toml → Option α) : Option Toml → Option α
  | none => some default
  | some value => read value

def reservedOf? (toml : Toml) : Option ReservedNames := do
  let [page, perPage, paginate] ← fields? ["page", "per_page", "paginate"] toml | none
  let default : ReservedNames := {}
  return {
    page := ← readOr default.page stringOf? page
    perPage := ← readOr default.perPage stringOf? perPage
    paginate := ← readOr default.paginate stringOf? paginate }

def pageSizeOf? (toml : Toml) : Option UInt64 := do
  let [size] ← fields? ["default_per_page"] toml | none
  readOr ({} : Settings).defaultPageSize sizeOf? size

def disabledOf? (toml : Toml) : Option (List String) := do
  let [names] ← fields? ["disabled"] toml | none
  readOr [] stringsOf? names

def ofTable? (entries : Toml.Entries) : Option Settings := do
  let [reserved, pagination, directives] ←
    fields? ["reserved", "pagination", "directives"] (.table entries) | none
  let default : Settings := {}
  return {
    reserved := ← readOr default.reserved reservedOf? reserved
    defaultPageSize := ← readOr default.defaultPageSize pageSizeOf? pagination
    disabled := ← readOr default.disabled disabledOf? directives }

def ofToml (text : String) : Except SettingsError Settings := do
  match (Toml.ofText? text).bind ofTable? with
  | none => throw .malformed
  | some settings =>
    settings.validate
    return settings

end ParamQuery.Settings
