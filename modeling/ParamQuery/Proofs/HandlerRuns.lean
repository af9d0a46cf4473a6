import ParamQuery.Proofs.Catalogue

/-!
# Handlers that read again

A handler of a built-in directive may be given one argument after another. Each of them is judged as
a fresh handler would judge it. One that is refused leaves no trace and one that is accepted
replaces all that was read before, so what the handler holds in the end comes from the last accepted
argument.
-/

namespace ParamQuery

namespace Handler

/-- The handler after a series of arguments, and what was wrong with each of them. -/
def run (handler : Handler) : List String → Handler × List (Option ArgumentError)
  | [] => (handler, [])
  | raw :: rest =>
    let (next, fault) := handler.tokenize raw
    let (last, faults) := next.run rest
    (last, fault :: faults)

lemma directive_tokenize (handler : Handler) (raw : String) :
    (handler.tokenize raw).1.directive = handler.directive := by
  rw [tokenize]
  split <;> rfl

end Handler

namespace Directive

variable {directive : Directive} {handler : Handler}

/-- Whether a fresh handler accepts an argument. -/
def accepts (directive : Directive) (raw : String) : Bool :=
  (directive.handler.tokenize raw).2.isNone

/-- One more argument: the fault is that of a fresh handler, and without a fault so is all that the
handler holds. -/
lemma tokenize_of_settled (h : ∀ raw, (directive.tokenizer raw).Settles (directive.read raw))
    (hdirective : handler.directive = directive) (raw : String) :
    handler.tokenize raw =
      (if directive.accepts raw then (directive.handler.tokenize raw).1 else handler,
        (directive.handler.tokenize raw).2) := by
  subst hdirective
  rw [accepts, handler.tokenize_of_settles (h raw),
    handler.directive.handler.tokenize_of_settles (h raw)]
  cases handler.directive.read raw <;> rfl

/-- A series of arguments, by induction on them from any handler of the directive on. -/
theorem run_of_settled (h : ∀ raw, (directive.tokenizer raw).Settles (directive.read raw))
    (hdirective : handler.directive = directive) (raws : List String) :
    handler.run raws =
      ((raws.filter directive.accepts).getLast?.elim handler fun raw =>
          (directive.handler.tokenize raw).1,
        raws.map fun raw => (directive.handler.tokenize raw).2) := by
  induction raws generalizing handler with
  | nil => rfl
  | cons raw rest ih =>
    rw [Handler.run, tokenize_of_settled h hdirective]
    by_cases haccepts : directive.accepts raw = true
    · rw [if_pos haccepts, List.filter_cons_of_pos haccepts, List.getLast?_cons]
      dsimp only
      rw [ih (directive.handler.directive_tokenize raw)]
      cases (rest.filter directive.accepts).getLast? <;> rfl
    · rw [if_neg haccepts, List.filter_cons_of_neg haccepts]
      dsimp only
      rw [ih hdirective]
      rfl

end Directive

/-- A handler of a built-in directive that is given any series of arguments faults those that a
fresh handler faults, and ends as a fresh handler does that is given only the last accepted one, or
nothing if none is. So it has the tokens and makes the calls of that one. -/
theorem Handler.run_eq_last_accepted {name : String} {directive : Directive}
    (hbuiltin : Registry.builtin.get? name = some directive) (raws : List String) :
    directive.handler.run raws =
      ((raws.filter directive.accepts).getLast?.elim directive.handler fun raw =>
          (directive.handler.tokenize raw).1,
        raws.map fun raw => (directive.handler.tokenize raw).2) := by
  rw [Registry.get?_builtin, Option.map_eq_some_iff] at hbuiltin
  obtain ⟨kind, -, rfl⟩ := hbuiltin
  have hsettled : ∀ raw, (kind.directive.tokenizer raw).Settles (kind.directive.read raw) := by
    intro raw
    rw [kind.read_directive]
    exact kind.settles raw
  exact Directive.run_of_settled hsettled rfl raws

/-- Sort keys that are refused at the second of them and after that at the separator. -/
theorem Handler.run_eq_last_accepted_refused_key :
    Registry.builtin.get? "order_by" = some .orderBy ∧
      Directive.orderBy.handler.run ["id", " -age ,name", "id,-", " , "] =
        (⟨.orderBy, ["-age", "name"],
            .issuing [.orderBy ⟨"age", .desc⟩, .orderBy ⟨"name", .asc⟩]⟩,
          [none, none, some .emptyField, some (.shape "field[,field...]")]) := by
  have hbuiltin : Registry.builtin.get? "order_by" = some .orderBy := by rfl
  exact ⟨hbuiltin, (Handler.run_eq_last_accepted hbuiltin _).trans rfl⟩

end ParamQuery
