import ParamQuery.Argument.Filter
import ParamQuery.Entity

/-!
# Directives

A directive reads one argument into tokens and the fragment that it contributes to a query. A
handler is one use of a directive. It writes its tokens and its fragment while it reads, one after
the other, so what a refusal leaves behind hangs on the place at which an argument is refused.
-/

namespace ParamQuery

structure Reading where
  tokens : List String
  fragment : Fragment

/-- The calls of a reading as long as all of them are taken. -/
def Reading.calls (reading : Reading) : List Call := reading.fragment.calls

@[simp]
theorem Reading.calls_issuing (tokens : List String) (calls : List Call) :
    Reading.calls ⟨tokens, .issuing calls⟩ = calls := Fragment.calls_issuing calls

/-- A computation on the reading of a handler. What was written before a refusal stays. -/
abbrev Tokenizer := EStateM ArgumentError Reading

namespace Tokenizer

def keepTokens (tokens : List String) : Tokenizer Unit :=
  modify fun reading => { reading with tokens }

def keepFragment (fragment : Fragment) : Tokenizer Unit :=
  modify fun reading => { reading with fragment }

/-- Keeps calls that are to be made up to the first refused one. -/
def keepCalls (calls : List Call) : Tokenizer Unit := keepFragment (.issuing calls)

end Tokenizer

structure Directive where
  /-- What a handler contributes that has read nothing. -/
  initially : Fragment := .done
  tokenizer : String → Tokenizer Unit

structure Handler where
  directive : Directive
  reading : Reading

namespace Handler

/-- Reads an argument, and says why if it is refused. -/
def tokenize (handler : Handler) (raw : String) : Handler × Option ArgumentError :=
  match (handler.directive.tokenizer raw).run handler.reading with
  | .ok _ reading => ({ handler with reading }, none)
  | .error fault reading => ({ handler with reading }, some fault)

def apply {Query : Type} (handler : Handler) (entity : Entity Query) (query : Query) :
    Query × Option QueryError :=
  entity.follow query handler.reading.fragment

end Handler

namespace Directive

open MonadExcept (ofExcept)
open Tokenizer (keepTokens keepCalls)

def handler (directive : Directive) : Handler := ⟨directive, ⟨[], directive.initially⟩⟩

/-- What a handler that has read nothing makes of an argument. -/
def read (directive : Directive) (raw : String) : Except ArgumentError Reading :=
  match directive.handler.tokenize raw with
  | (handler, none) => .ok handler.reading
  | (_, some fault) => .error fault

/-- A directive whose calls do not depend on its argument. -/
def fixed (tokens : List String) (calls : List Call) : Directive where
  initially := .issuing calls
  tokenizer _ := do
    keepTokens tokens
    keepCalls calls

def filter (conjunction : Conjunction) (form : FilterForm) : Directive where
  tokenizer raw := do
    let filter ← ofExcept (form.read raw.toList)
    keepTokens filter.tokens
    keepCalls [.filter conjunction filter.predicate]

def orderBy : Directive where
  tokenizer raw := do
    let items ← ofExcept (Argument.list "field[,field...]" raw.toList)
    let keys ← ofExcept (items.mapM Argument.sortKey)
    keepCalls (keys.map .orderBy)
    keepTokens items

def columns : Directive where
  tokenizer raw := do
    let names ← ofExcept (Argument.list "column[,column...]" raw.toList)
    keepTokens names
    keepCalls [.select (.columns names)]

def relations : Directive where
  tokenizer raw := do
    let names ← ofExcept (Argument.list "relation[,relation...]" raw.toList)
    keepTokens names
    keepCalls (names.map .withRelation)

/-- Keeps a count as the call that it makes of it. -/
def counting (call : UInt32 → Call) : Directive where
  tokenizer raw := do
    let count ← ofExcept (Argument.count raw.toList)
    keepCalls [call count]
    keepTokens [toString count.toNat]

def limit : Directive := counting .limit

def offset : Directive := counting .offset

def force : Directive where
  tokenizer raw := do
    let scope ← ofExcept (Argument.scope raw.toList)
    keepCalls [.withScope scope]
    keepTokens [scope.name]

end Directive

end ParamQuery
