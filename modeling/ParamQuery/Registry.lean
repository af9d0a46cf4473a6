import ParamQuery.Blame
import ParamQuery.Directive.Basic
import ParamQuery.Lookup
import ParamQuery.Text.Quoted

/-!
# Registries

A registry binds names to directives, each name once. The built-in registry holds the whole
directive language; hosts add bindings of their own or remove some.
-/

namespace ParamQuery

inductive RegistryError where
  | alreadyRegistered (name : String)
  | notRegistered (name : String)
  | alreadyInstalled
  deriving DecidableEq, Repr

namespace RegistryError

def message : RegistryError → String
  | .alreadyRegistered name => s!"directive '{name}' already registered"
  | .notRegistered name => s!"directive '{name}' is not registered"
  | .alreadyInstalled => "process-wide directive registry already installed"

def blame (_ : RegistryError) : Blame := .internal

end RegistryError

structure Registry where
  bindings : List (String × Directive) := []

namespace Registry

def get? (registry : Registry) (name : String) : Option Directive :=
  registry.bindings.lookup name

def contains (registry : Registry) (name : String) : Bool := (registry.get? name).isSome

def size (registry : Registry) : Nat := registry.bindings.length

/-- The bound names in the order of their code points. -/
def names (registry : Registry) : List String :=
  (registry.bindings.map Prod.fst).mergeSort fun a b => a ≤ b

def register (registry : Registry) (name : String) (directive : Directive) :
    Except RegistryError Registry :=
  if registry.contains name then .error (.alreadyRegistered name)
  else .ok ⟨registry.bindings ++ [(name, directive)]⟩

def unregister (registry : Registry) (name : String) : Except RegistryError Registry :=
  if registry.contains name then .ok ⟨registry.bindings.filter fun binding => binding.1 != name⟩
  else .error (.notRegistered name)

/-- Removes names up to the first one that is not bound, which is returned. -/
def remove (registry : Registry) : List String → Registry × Option String
  | [] => (registry, none)
  | name :: rest =>
    match registry.unregister name with
    | .ok smaller => smaller.remove rest
    | .error _ => (registry, some name)

def describe (registry : Registry) : String :=
  let names := ", ".intercalate (registry.names.map Text.quoted)
  s!"DirectiveRegistry \x7b names: [{names}] \x7d"

theorem get?_register {registry next : Registry} {name : String} {directive : Directive}
    (h : registry.register name directive = .ok next) (other : String) :
    next.get? other = if other = name then some directive else registry.get? other := by
  rw [register] at h
  split at h
  · exact absurd h (by simp)
  · rename_i hfree
    cases h
    have hnone : registry.bindings.lookup name = none := by
      rw [contains, get?] at hfree
      exact Option.not_isSome_iff_eq_none.mp hfree
    rw [get?, List.lookup_append, lookup_cons_eq]
    by_cases ho : other = name
    · simp [ho, hnone]
    · simp [ho, get?]

theorem get?_unregister {registry next : Registry} {name : String}
    (h : registry.unregister name = .ok next) (other : String) :
    next.get? other = if other = name then none else registry.get? other := by
  rw [unregister] at h
  split at h
  · cases h
    have hother := lookup_filter_key (· != name) registry.bindings other
    by_cases ho : other = name
    · simpa [get?, ho] using hother
    · simpa [get?, ho] using hother
  · exact absurd h (by simp)

def builtin : Registry where
  bindings := [
    ("with_trashed", .fixed [] [.withScope .withTrashed]),
    ("only_trashed", .fixed [] [.withScope .onlyTrashed]),
    ("force", .force),
    ("where", .filter .and .comparison),
    ("or_where", .filter .or .comparison),
    ("where_in", .filter .and (.membership false)),
    ("where_not_in", .filter .and (.membership true)),
    ("or_where_in", .filter .or (.membership false)),
    ("or_where_not_in", .filter .or (.membership true)),
    ("where_between", .filter .and (.range false)),
    ("where_not_between", .filter .and (.range true)),
    ("or_where_between", .filter .or (.range false)),
    ("or_where_not_between", .filter .or (.range true)),
    ("where_null", .filter .and (.nullness false)),
    ("where_not_null", .filter .and (.nullness true)),
    ("order_by", .orderBy),
    ("columns", .columns),
    ("with", .relations),
    ("limit", .limit),
    ("offset", .offset)]

/-- Installs the registry that a process shares, which is possible once. -/
def install (installed : Option Registry) (registry : Registry) :
    Except RegistryError Registry :=
  match installed with
  | some _ => .error .alreadyInstalled
  | none => .ok registry

end Registry

end ParamQuery
