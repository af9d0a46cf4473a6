import ParamQuery.Paging
import ParamQuery.Problem

/-!
# Settings

A host chooses the names of the paging parameters, the default page size and the directives
that it disables. Names have to be distinct and not blank, and a page has at least one row.
-/

namespace ParamQuery

inductive SettingsError where
  | missingFile (path : String)
  | malformed
  | emptyReservedName (slot : String)
  | duplicateReservedName (name : String)
  | zeroPageSize
  | unknownDirective (name : String)
  deriving DecidableEq, Repr

namespace SettingsError

def message : SettingsError → String
  | .missingFile path =>
    s!"failed to read config '{path}': No such file or directory (os error 2)"
  | .malformed => "invalid config"
  | .emptyReservedName slot => s!"reserved key name for '{slot}' is empty"
  | .duplicateReservedName name => s!"reserved key '{name}' is used more than once"
  | .zeroPageSize => "default_per_page must be greater than zero"
  | .unknownDirective name => s!"cannot disable unknown directive '{name}'"

def problem (fault : SettingsError) : Problem := ⟨.config, none, fault.message⟩

end SettingsError

structure Settings where
  reserved : ReservedNames := {}
  defaultPageSize : UInt64 := standardPageSize
  disabled : List String := []
  deriving DecidableEq, Repr

def firstRepeated? : List String → Option String
  | [] => none
  | name :: rest => if name ∈ rest then some name else firstRepeated? rest

namespace ReservedNames

def slots (reserved : ReservedNames) : List (String × String) :=
  [("page", reserved.page), ("per_page", reserved.perPage), ("paginate", reserved.paginate)]

def validate (reserved : ReservedNames) : Except SettingsError Unit :=
  match reserved.slots.find? fun slot => (Text.trim slot.2.toList).isEmpty with
  | some (slot, _) => .error (.emptyReservedName slot)
  | none =>
    match firstRepeated? (reserved.slots.map Prod.snd) with
    | some name => .error (.duplicateReservedName name)
    | none => .ok ()

end ReservedNames

namespace Settings

/-- The checks that need no registry. -/
def validate (settings : Settings) : Except SettingsError Unit := do
  settings.reserved.validate
  if settings.defaultPageSize = 0 then throw .zeroPageSize

def restrict (settings : Settings) (registry : Registry) : Except SettingsError Registry :=
  match registry.remove settings.disabled with
  | (smaller, none) => .ok smaller
  | (_, some name) => .error (.unknownDirective name)

end Settings

end ParamQuery
