import ParamQuery.Json.Basic
import ParamQuery.Problem

/-!
# Problems in JSON

A problem is an object with the members `kind`, `message` and perhaps `directive`, each once,
or an array of kind, directive and message. Other members are skipped.
-/

namespace ParamQuery.Problem

/-- A kind is its name, also as the only member of an object. -/
def kindOfJson? : Json → Option ProblemKind
  | .string units => (Json.textOf? units).bind ProblemKind.ofName?
  | .object [(name, .null)] => (Json.textOf? name).bind ProblemKind.ofName?
  | _ => none

def directiveOfJson? : Json → Option (Option String)
  | .null => some none
  | json => json.text?.map some

def ofParts? (kind directive message : Json) : Option Problem := do
  return ⟨← kindOfJson? kind, ← directiveOfJson? directive, ← message.text?⟩

def membersOf (name : String) (members : List (String × Json)) : List Json :=
  (members.filter fun member => member.1 == name).map Prod.snd

def ofMembers? (members : List (String × Json)) : Option Problem :=
  match membersOf "kind" members, membersOf "directive" members, membersOf "message" members with
  | [kind], [], [message] => ofParts? kind .null message
  | [kind], [directive], [message] => ofParts? kind directive message
  | _, _, _ => none

def ofJson? : Json → Option Problem
  | .object members => do
    ofMembers? (← members.mapM fun (name, json) => return (← Json.textOf? name, json))
  | .array [kind, directive, message] => ofParts? kind directive message
  | _ => none

def ofJsonText? (text : String) : Option Problem := (Json.ofText? text).bind ofJson?

end ParamQuery.Problem
