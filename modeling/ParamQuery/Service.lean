import ParamQuery.Dialect
import ParamQuery.FormUrlencoded
import ParamQuery.Settings.Basic

/-!
# Services

A service answers requests for one host: it compiles their directives in the dialect that the
settings leave, and reads the page that they ask for.
-/

namespace ParamQuery

structure Service where
  dialect : Dialect := {}
  defaultPageSize : UInt64 := standardPageSize

namespace Service

/-- A service over a registry of the host's own. -/
def ofParts (settings : Settings) (registry : Registry) : Except SettingsError Service := do
  settings.validate
  let registry ← settings.restrict registry
  return ⟨⟨registry, settings.reserved⟩, settings.defaultPageSize⟩

def ofSettings (settings : Settings) : Except SettingsError Service :=
  ofParts settings .builtin

def compile {Query : Type} (service : Service) (params : Parameters) (entity : Entity Query) :
    Except Problem (Compiled Query) :=
  (service.dialect.compile params entity).mapError CompileError.problem

def compileQueryString {Query : Type} (service : Service) (query : String)
    (entity : Entity Query) : Except Problem (Compiled Query) :=
  service.compile (Parameters.ofQueryString query) entity

def pageRequest (service : Service) (params : Parameters) (total : UInt64) : PageRequest :=
  PageRequest.ofParameters service.dialect.reserved service.defaultPageSize params total

end Service

end ParamQuery
