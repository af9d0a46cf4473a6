import ParamQuery.Proofs.Arguments
import ParamQuery.Proofs.QueryRun
import ParamQuery.Proofs.Tokenizers

/-!
# The directive catalogue

The built-in directives by name, with the kind of each, what it reads an argument into and what an
occurrence of it asks for: a filter, sort keys, columns, relations, a limit, an offset or a scope.
The built-in registry binds exactly the names of the catalogue, each kind reads all or nothing, and
the calls of a step are the ones that its occurrence asks for.
-/

namespace ParamQuery

inductive DirectiveKind where
  | filter (conjunction : Conjunction) (form : FilterForm)
  | toggle (scope : Scope)
  | force
  | orderBy
  | columns
  | relations
  | limit
  | offset

namespace DirectiveKind

def ofName? : String → Option DirectiveKind
  | "with_trashed" => some (.toggle .withTrashed)
  | "only_trashed" => some (.toggle .onlyTrashed)
  | "force" => some .force
  | "where" => some (.filter .and .comparison)
  | "or_where" => some (.filter .or .comparison)
  | "where_in" => some (.filter .and (.membership false))
  | "where_not_in" => some (.filter .and (.membership true))
  | "or_where_in" => some (.filter .or (.membership false))
  | "or_where_not_in" => some (.filter .or (.membership true))
  | "where_between" => some (.filter .and (.range false))
  | "where_not_between" => some (.filter .and (.range true))
  | "or_where_between" => some (.filter .or (.range false))
  | "or_where_not_between" => some (.filter .or (.range true))
  | "where_null" => some (.filter .and (.nullness false))
  | "where_not_null" => some (.filter .and (.nullness true))
  | "order_by" => some .orderBy
  | "columns" => some .columns
  | "with" => some .relations
  | "limit" => some .limit
  | "offset" => some .offset
  | _ => none

def directive : DirectiveKind → Directive
  | filter conjunction form => .filter conjunction form
  | toggle scope => .fixed [] [.withScope scope]
  | force => .force
  | orderBy => .orderBy
  | columns => .columns
  | relations => .relations
  | limit => .limit
  | offset => .offset

/-- What a kind of directive makes of an argument. -/
def reading (kind : DirectiveKind) (text : List Char) : Except ArgumentError Reading :=
  match kind with
  | filter conjunction form => do
    let filter ← form.read text
    return ⟨filter.tokens, .issuing [.filter conjunction filter.predicate]⟩
  | toggle scope => .ok ⟨[], .issuing [.withScope scope]⟩
  | force => do
    let scope ← Argument.scope text
    return ⟨[scope.name], .issuing [.withScope scope]⟩
  | orderBy => do
    let items ← Argument.list "field[,field...]" text
    let keys ← items.mapM Argument.sortKey
    return ⟨items, .issuing (keys.map .orderBy)⟩
  | columns => do
    let names ← Argument.list "column[,column...]" text
    return ⟨names, .issuing [.select (.columns names)]⟩
  | relations => do
    let names ← Argument.list "relation[,relation...]" text
    return ⟨names, .issuing (names.map .withRelation)⟩
  | limit => do
    let count ← Argument.count text
    return ⟨[toString count.toNat], .issuing [.limit count]⟩
  | offset => do
    let count ← Argument.count text
    return ⟨[toString count.toNat], .issuing [.offset count]⟩

section Settling

open Tokenizer

/-- Every check of a built-in directive stands in front of its writes, and every write is made. -/
theorem settles (kind : DirectiveKind) (raw : String) :
    (kind.directive.tokenizer raw).Settles (kind.reading raw.toList) := by
  cases kind with
  | filter conjunction form => exact settles_check fun _ => settles_keep _ _
  | toggle scope => exact settles_keep _ _
  | force => exact settles_check fun _ => settles_keep_calls_first _ _
  | orderBy => exact settles_check fun _ => settles_check fun _ => settles_keep_calls_first _ _
  | columns | relations => exact settles_check fun _ => settles_keep _ _
  | limit | offset => exact Directive.settles_counting _ raw

end Settling

theorem read_directive (kind : DirectiveKind) (raw : String) :
    kind.directive.read raw = kind.reading raw.toList :=
  Directive.read_of_settles (kind.settles raw)

/-- Every built-in directive keeps a list of calls that are to be made up to the first refused. -/
theorem heedful_of_reading {kind : DirectiveKind} {text : List Char} {reading : Reading}
    (h : kind.reading text = .ok reading) : reading.fragment.Heedful := by
  cases kind with
  | toggle scope =>
    cases h
    exact Fragment.heedful_issuing _
  | orderBy =>
    obtain ⟨items, -, hrest⟩ := bind_eq_ok_iff.mp h
    obtain ⟨keys, -, hreading⟩ := bind_eq_ok_iff.mp hrest
    cases hreading
    exact Fragment.heedful_issuing _
  | filter | force | columns | relations | limit | offset =>
    obtain ⟨found, -, hreading⟩ := bind_eq_ok_iff.mp h
    cases hreading
    exact Fragment.heedful_issuing _

/-- The name that a kind of directive is built in under. -/
def name? : DirectiveKind → Option String
  | filter .and .comparison => some "where"
  | filter .or .comparison => some "or_where"
  | filter .and (.membership false) => some "where_in"
  | filter .and (.membership true) => some "where_not_in"
  | filter .or (.membership false) => some "or_where_in"
  | filter .or (.membership true) => some "or_where_not_in"
  | filter .and (.range false) => some "where_between"
  | filter .and (.range true) => some "where_not_between"
  | filter .or (.range false) => some "or_where_between"
  | filter .or (.range true) => some "or_where_not_between"
  | filter .and (.nullness false) => some "where_null"
  | filter .and (.nullness true) => some "where_not_null"
  | filter .or (.nullness _) => none
  | toggle .withTrashed => some "with_trashed"
  | toggle .onlyTrashed => some "only_trashed"
  | toggle .withoutTrashed => none
  | force => some "force"
  | orderBy => some "order_by"
  | columns => some "columns"
  | relations => some "with"
  | limit => some "limit"
  | offset => some "offset"

lemma name?_of_ofName? {name : String} {kind : DirectiveKind} (h : ofName? name = some kind) :
    kind.name? = some name := by
  unfold ofName? at h
  split at h
  case h_21 => cases h
  all_goals
    cases h
    rfl

/-- The names of the filters that join the filters before them in one way. -/
def filterNames : Conjunction → List String
  | .and => ["where", "where_in", "where_not_in", "where_between", "where_not_between",
      "where_null", "where_not_null"]
  | .or => ["or_where", "or_where_in", "or_where_not_in", "or_where_between",
      "or_where_not_between"]

def isFilterName (name : String) : Bool := name ∈ filterNames .and ++ filterNames .or

def isToggleName (name : String) : Bool := name ∈ ["with_trashed", "only_trashed"]

lemma mem_filterNames_iff {name : String} {conjunction : Conjunction} :
    name ∈ filterNames conjunction ↔ ∃ form, ofName? name = some (.filter conjunction form) := by
  constructor
  · intro h
    cases conjunction with
    | and =>
      simp only [filterNames, List.mem_cons, List.not_mem_nil, or_false] at h
      rcases h with rfl | rfl | rfl | rfl | rfl | rfl | rfl <;> exact ⟨_, rfl⟩
    | or =>
      simp only [filterNames, List.mem_cons, List.not_mem_nil, or_false] at h
      rcases h with rfl | rfl | rfl | rfl | rfl <;> exact ⟨_, rfl⟩
  · rintro ⟨form, h⟩
    unfold ofName? at h
    split at h
    all_goals cases h
    all_goals decide

lemma isFilterName_iff {name : String} :
    isFilterName name = true ↔ ∃ conjunction, name ∈ filterNames conjunction := by
  rw [isFilterName, decide_eq_true_eq, List.mem_append]
  constructor
  · rintro (h | h)
    · exact ⟨.and, h⟩
    · exact ⟨.or, h⟩
  · rintro ⟨conjunction, h⟩
    cases conjunction with
    | and => exact .inl h
    | or => exact .inr h

lemma isToggleName_of_ofName? {name : String} {scope : Scope}
    (h : ofName? name = some (.toggle scope)) : isToggleName name = true := by
  have hname := name?_of_ofName? h
  cases scope
  all_goals cases hname
  all_goals decide

lemma ofName?_eq_columns_iff {name : String} : ofName? name = some columns ↔ name = "columns" := by
  constructor
  · intro h
    unfold ofName? at h
    split at h
    case h_17 => rfl
    all_goals cases h
  · rintro rfl
    rfl

end DirectiveKind

lemma Registry.get?_builtin (name : String) :
    Registry.builtin.get? name = (DirectiveKind.ofName? name).map DirectiveKind.directive := by
  unfold DirectiveKind.ofName?
  split
  case h_21 => simp_all [Registry.get?, Registry.builtin, lookup_cons_eq]
  all_goals rfl

/-- What one occurrence asks of a query; every occurrence asks for things of one kind. -/
structure Request where
  filter? : Option (Conjunction × Predicate) := none
  sortKeys : List SortKey := []
  columns? : Option (List String) := none
  relations : List String := []
  limit? : Option UInt32 := none
  offset? : Option UInt32 := none
  toggled? : Option Scope := none
  forced? : Option Scope := none

namespace Occurrence

/-- The items of a list argument. -/
def items (occurrence : Occurrence) : List String :=
  (Text.items occurrence.raw.toList).map String.ofList

def request (occurrence : Occurrence) : Request :=
  let text := occurrence.raw.toList
  match DirectiveKind.ofName? occurrence.name with
  | none => {}
  | some (.filter conjunction form) =>
    { filter? := (form.read text).toOption.map fun filter => (conjunction, filter.predicate) }
  | some (.toggle scope) => { toggled? := some scope }
  | some .force => { forced? := (Argument.scope text).toOption }
  | some .orderBy =>
    { sortKeys := occurrence.items.filterMap fun item => (Argument.sortKey item).toOption }
  | some .columns => { columns? := some occurrence.items }
  | some .relations => { relations := occurrence.items }
  | some .limit => { limit? := (Argument.count text).toOption }
  | some .offset => { offset? := (Argument.count text).toOption }

end Occurrence

/-- What an occurrence asks for is asked for under few names only. -/
structure Occurrence.AsksByName (occurrence : Occurrence) : Prop where
  filter : DirectiveKind.isFilterName occurrence.name = false → occurrence.request.filter? = none
  sortKeys : occurrence.name ≠ "order_by" → occurrence.request.sortKeys = []
  columns : occurrence.name ≠ "columns" → occurrence.request.columns? = none
  relations : occurrence.name ≠ "with" → occurrence.request.relations = []
  limit : occurrence.name ≠ "limit" → occurrence.request.limit? = none
  offset : occurrence.name ≠ "offset" → occurrence.request.offset? = none
  toggled : DirectiveKind.isToggleName occurrence.name = false → occurrence.request.toggled? = none
  forced : occurrence.name ≠ "force" → occurrence.request.forced? = none

theorem Occurrence.asksByName (occurrence : Occurrence) : occurrence.AsksByName := by
  cases hkind : DirectiveKind.ofName? occurrence.name with
  | none => constructor <;> intro _ <;> simp only [request, hkind]
  | some kind =>
    have hname := DirectiveKind.name?_of_ofName? hkind
    -- the kind fills one field, and that field is the one its name may fill
    cases kind with
    | filter conjunction form =>
      constructor <;> intro h <;> simp only [request, hkind]
      have hfilter := DirectiveKind.isFilterName_iff.mpr
        ⟨conjunction, DirectiveKind.mem_filterNames_iff.mpr ⟨form, hkind⟩⟩
      exact absurd h (by simp [hfilter])
    | toggle scope =>
      constructor <;> intro h <;> simp only [request, hkind]
      exact absurd h (by simp [DirectiveKind.isToggleName_of_ofName? hkind])
    | force | orderBy | columns | relations | limit | offset =>
      constructor <;> intro h <;> simp only [request, hkind]
      exact absurd (Option.some.inj hname).symm h

/-- The calls of a step, kind by kind, are what its occurrence asks for. -/
structure PlanStep.Makes (step : PlanStep) (request : Request) : Prop where
  filters : step.reading.calls.filterMap Call.filter? = request.filter?.toList
  sortKeys : step.reading.calls.filterMap Call.sortKey? = request.sortKeys
  projections : step.reading.calls.filterMap Call.projection? = request.columns?.toList.map .columns
  relations : step.reading.calls.filterMap Call.relation? = request.relations
  limits : step.reading.calls.filterMap Call.limit? = request.limit?.toList
  offsets : step.reading.calls.filterMap Call.offset? = request.offset?.toList
  scopes : step.reading.calls.filterMap Call.scope? = (request.toggled?.or request.forced?).toList

theorem PlanStep.heedful_of_reads {step : PlanStep} (h : Registry.builtin.Reads step) :
    step.reading.fragment.Heedful := by
  obtain ⟨directive, hget, hread⟩ := h
  rw [Registry.get?_builtin, Option.map_eq_some_iff] at hget
  obtain ⟨kind, -, rfl⟩ := hget
  exact DirectiveKind.heedful_of_reading ((kind.read_directive _).symm.trans hread)

lemma filterMap_map_of_none {α β : Type} {make : α → Call} {read : Call → Option β}
    (h : ∀ x, read (make x) = none) (xs : List α) : (xs.map make).filterMap read = [] := by
  rw [List.filterMap_map, List.filterMap_eq_nil_iff]
  exact fun x _ => h x

lemma filterMap_map_of_some {α : Type} (make : α → Call) (read : Call → Option α)
    (h : ∀ x, read (make x) = some x) (xs : List α) : (xs.map make).filterMap read = xs := by
  have hcomp : read ∘ make = some := funext h
  rw [List.filterMap_map, hcomp, List.filterMap_some]

/-- A step that the built-in directives read makes the calls that its occurrence asks for. -/
theorem PlanStep.makes_of_reads {step : PlanStep} (h : Registry.builtin.Reads step) :
    step.Makes step.occurrence.request := by
  obtain ⟨name, raw, reading⟩ := step
  obtain ⟨directive, hget, hread⟩ := h
  rw [Registry.get?_builtin, Option.map_eq_some_iff] at hget
  obtain ⟨kind, hkind, rfl⟩ := hget
  dsimp only at hkind hread
  rw [DirectiveKind.read_directive] at hread
  rw [occurrence, Occurrence.request, hkind]
  cases kind with
  | filter conjunction form =>
    obtain ⟨filter, hfilter, hreading⟩ := bind_eq_ok_iff.mp hread
    cases hreading
    constructor <;> simp only [hfilter] <;> rfl
  | toggle scope =>
    cases hread
    constructor <;> rfl
  | force =>
    obtain ⟨scope, hscope, hreading⟩ := bind_eq_ok_iff.mp hread
    cases hreading
    constructor <;> simp only [hscope] <;> rfl
  | orderBy =>
    obtain ⟨items, hitems, hrest⟩ := bind_eq_ok_iff.mp hread
    obtain ⟨keys, hkeys, hreading⟩ := bind_eq_ok_iff.mp hrest
    cases hreading
    obtain ⟨rfl, -⟩ := Argument.list_eq_ok_iff.mp hitems
    have hsorted := filterMap_toOption_of_mapM hkeys
    constructor
    case sortKeys =>
      rw [Reading.calls_issuing, filterMap_map_of_some .orderBy Call.sortKey? (fun _ => rfl)]
      exact hsorted.symm
    all_goals
      rw [Reading.calls_issuing]
      exact filterMap_map_of_none (fun _ => rfl) keys
  | columns =>
    obtain ⟨items, hitems, hreading⟩ := bind_eq_ok_iff.mp hread
    cases hreading
    obtain ⟨rfl, -⟩ := Argument.list_eq_ok_iff.mp hitems
    constructor <;> rfl
  | relations =>
    obtain ⟨items, hitems, hreading⟩ := bind_eq_ok_iff.mp hread
    cases hreading
    obtain ⟨rfl, -⟩ := Argument.list_eq_ok_iff.mp hitems
    constructor
    all_goals rw [Reading.calls_issuing]
    case relations => exact filterMap_map_of_some .withRelation Call.relation? (fun _ => rfl) _
    all_goals exact filterMap_map_of_none (fun _ => rfl) _
  | limit =>
    obtain ⟨count, hcount, hreading⟩ := bind_eq_ok_iff.mp hread
    cases hreading
    constructor <;> simp only [hcount] <;> rfl
  | offset =>
    obtain ⟨count, hcount, hreading⟩ := bind_eq_ok_iff.mp hread
    cases hreading
    constructor <;> simp only [hcount] <;> rfl

/-- A request over the built-in directives that compiles makes all calls of its script. -/
lemma Dialect.script_of_compile {Query : Type} {reserved : ReservedNames} {params : Parameters}
    {entity : Entity Query} {compiled : Compiled Query}
    (h : compile ⟨.builtin, reserved⟩ params entity = .ok compiled) :
    Registry.builtin.plan (params.without reserved) = .ok compiled.plan ∧
      entity.Takes entity.fresh ((compiled.plan.script entity.defaultProjection).map Prod.snd)
        compiled.query := by
  have hplan : Registry.builtin.plan (params.without reserved) = .ok compiled.plan :=
    (run_of_compile h).1
  exact ⟨hplan, takes_of_compile h fun step hstep =>
    PlanStep.heedful_of_reads (Registry.reads_of_plan hplan step hstep)⟩

end ParamQuery
