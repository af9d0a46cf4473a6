import ParamQuery.Proofs.CallTrace
import ParamQuery.Proofs.CountArguments
import ParamQuery.Proofs.Occurrences

/-!
# What a compiled request tells of itself

A plan and what is left of it after it was applied are asked the same questions: whether a directive
was used, and which number it was first given. Both are answered by the request alone. Forcing moves
the steps of one name past all others at once, so the first step of a name is that of its first
occurrence.
-/

namespace ParamQuery

namespace Parameters

/-- The first occurrence of a name, in order of arrival. -/
def firstOccurrence? (params : Parameters) (name : String) : Option Occurrence :=
  params.occurrences.find? fun occurrence => occurrence.name == name

lemma firstOccurrence?_without (params : Parameters) (reserved : ReservedNames) (name : String) :
    (params.without reserved).firstOccurrence? name =
      if reserved.contains name then none else params.firstOccurrence? name := by
  have hkept : (params.without reserved).occurrences =
      params.occurrences.filter fun occurrence => !reserved.contains occurrence.name :=
    (filter_name_occurrences (fun name => !reserved.contains name) params).symm
  rw [firstOccurrence?, hkept, List.find?_filter]
  by_cases hreserved : reserved.contains name = true
  · rw [if_pos hreserved, List.find?_eq_none]
    rintro ⟨known, raw⟩ - hfound
    simp only [decide_eq_true_eq] at hfound
    obtain rfl := eq_of_beq hfound.2
    simp [hreserved] at hfound
  · rw [if_neg hreserved, firstOccurrence?]
    congr 1
    funext ⟨known, raw⟩
    by_cases hname : known = name <;> simp [hname, hreserved]

lemma firstOccurrence?_isSome_iff {params : Parameters} {name : String} :
    (params.firstOccurrence? name).isSome = true ↔ ∃ raw, ⟨name, raw⟩ ∈ params.occurrences := by
  rw [firstOccurrence?, List.find?_isSome]
  constructor
  · rintro ⟨⟨known, raw⟩, hmem, hname⟩
    exact ⟨raw, eq_of_beq hname ▸ hmem⟩
  · rintro ⟨raw, hmem⟩
    exact ⟨_, hmem, beq_self_eq_true name⟩

end Parameters

namespace Plan

/-- The first step of a name, and its first token as a numeral. -/
lemma toNat_firstArgument (plan : Plan) (name : String) :
    (plan.firstArgument name).toNat =
      (((plan.find? fun step => step.name == name).bind fun step => step.reading.tokens.head?).bind
        fun token => (Numeral.value? token.toList).filter (· ≤ Numeral.largestUInt64)).getD 0 := by
  have hentry : (plan.map fun step => (step.name, step.reading.tokens)).find? (·.1 == name) =
      (plan.find? (·.name == name)).map fun step => (step.name, step.reading.tokens) :=
    List.find?_map ..
  have htoken : ∀ token : Option String,
      ((token.bind fun token => Numeral.uint64? token.toList).getD 0).toNat =
        (token.bind fun token =>
          (Numeral.value? token.toList).filter (· ≤ Numeral.largestUInt64)).getD 0 := by
    rintro (_ | token)
    · rfl
    · rw [Option.bind_some, Option.bind_some, ← Numeral.map_toNat_uint64?]
      exact (Option.getD_map ..).symm
  rw [firstArgument, firstInteger, hentry, htoken, Option.bind_map]
  rfl

end Plan

namespace Registry

variable {registry : Registry} {params : Parameters} {plan : Plan}

/-- The first token that the directive of an occurrence reads from it. -/
def firstToken? (registry : Registry) (occurrence : Occurrence) : Option String := do
  let directive ← registry.get? occurrence.name
  let reading ← (directive.read occurrence.raw).toOption
  reading.tokens.head?

lemma firstToken?_occurrence {step : PlanStep} (h : registry.Reads step) :
    registry.firstToken? step.occurrence = step.reading.tokens.head? := by
  obtain ⟨directive, hget, hread⟩ := h
  have hreading : (directive.read step.raw).toOption = some step.reading :=
    toOption_eq_some_iff.mpr hread
  simp [firstToken?, PlanStep.occurrence, hget, hreading]

/-- The first step of a name was read from the first occurrence of the name. -/
lemma find?_plan (h : registry.plan params = .ok plan) (name : String) :
    (plan.find? fun step => step.name == name).map PlanStep.occurrence =
      params.firstOccurrence? name := by
  obtain ⟨steps, hocc, -, rfl⟩ := plan_eq_ok_iff.mp h
  rw [← List.head?_filter, filter_name_forceLast PlanStep.name, List.head?_filter,
    Parameters.firstOccurrence?, ← hocc, List.find?_map]
  rfl

lemma hasDirective_plan (h : registry.plan params = .ok plan) (name : String) :
    plan.hasDirective name = (params.firstOccurrence? name).isSome := by
  rw [← find?_plan h, Option.isSome_map, List.isSome_find?, Plan.hasDirective_eq_any]

lemma firstToken?_plan (h : registry.plan params = .ok plan) (name : String) :
    (params.firstOccurrence? name).bind registry.firstToken? =
      (plan.find? fun step => step.name == name).bind fun step => step.reading.tokens.head? := by
  rw [← find?_plan h]
  cases hfind : plan.find? fun step => step.name == name with
  | none => rfl
  | some step =>
    exact firstToken?_occurrence (reads_of_plan h step (List.mem_of_find?_eq_some hfind))

end Registry

namespace Compiled

variable {Query : Type}

/-- The record of a step keeps all that is asked for. -/
lemma hasDirective_eq_plan (compiled : Compiled Query) (name : String) :
    compiled.hasDirective name = compiled.plan.hasDirective name := by
  rw [hasDirective, directives, List.any_map, Plan.hasDirective_eq_any]
  rfl

lemma firstArgument_eq_plan (compiled : Compiled Query) (name : String) :
    compiled.firstArgument name = compiled.plan.firstArgument name := by
  rw [firstArgument, directives, List.map_map]
  rfl

end Compiled

namespace Dialect

variable {Query : Type} {dialect : Dialect} {params : Parameters} {entity : Entity Query}

/-- The first count given is the first argument itself: the digits that are kept of it are read back
without loss. -/
lemma toNat_firstArgument_of_count {plan : Plan} {name : String} {directive : Directive}
    {call : UInt32 → Call} {occurrence : Occurrence}
    (hplan : dialect.plan params = .ok plan)
    (hget : dialect.registry.get? name = some directive) (hcount : directive.TakesCount call)
    (hfirst : (dialect.directives params).firstOccurrence? name = some occurrence) :
    Numeral.value? (Text.trim occurrence.raw.toList) = some (plan.firstArgument name).toNat := by
  obtain ⟨step, hfind, rfl⟩ :=
    Option.map_eq_some_iff.mp ((Registry.find?_plan hplan name).trans hfirst)
  obtain ⟨found, hfound, hread⟩ :=
    Registry.reads_of_plan hplan step (List.mem_of_find?_eq_some hfind)
  have hname : step.name = name := by simpa using List.find?_some hfind
  rw [hname, hget] at hfound
  cases hfound
  rw [Directive.read_of_settles (hcount.settles step.raw)] at hread
  obtain ⟨count, hcounted, hreading⟩ := bind_eq_ok_iff.mp hread
  obtain ⟨n, hvalue, hbound, rfl⟩ := Argument.count_eq_ok_iff.mp hcounted
  have hword : (UInt32.ofNat n).toNat = n := UInt32.toNat_ofNat_of_lt' (Nat.lt_succ_of_le hbound)
  have htokens : step.reading.tokens = [toString n] := by
    rw [← Except.ok.inj hreading, hword]
  have htoken :
      (Numeral.value? (toString n).toList).filter (· ≤ Numeral.largestUInt64) = some n := by
    have hfits : n ≤ Numeral.largestUInt64 := hbound.trans (by decide)
    rw [Nat.toString_eq_repr, Nat.toList_repr, Numeral.value?_toDigits, Option.filter_some,
      if_pos (decide_eq_true hfits)]
  rw [Plan.toNat_firstArgument, hfind, Option.bind_some, htokens, List.head?_cons, Option.bind_some,
    htoken]
  exact hvalue

/-- Of a request that compiles, the plan and the compiled query give the same account. A name was
used if it is not reserved and the request has a value for it. The number of a name is read from
the first token of its first occurrence, in order of arrival; it is zero if there is no such token
or the token is the numeral of no word of 64 bits. For a count of rows it is the number that the
argument denotes. -/
theorem compiled_reports_request {compiled : Compiled Query}
    (hcompiled : dialect.compile params entity = .ok compiled) (name : String) :
    ∃ plan, dialect.plan params = .ok plan ∧
      compiled.hasDirective name = plan.hasDirective name ∧
      (plan.hasDirective name = true ↔
        dialect.reserved.contains name = false ∧ ∃ raw, ⟨name, raw⟩ ∈ params.occurrences) ∧
      compiled.firstArgument name = plan.firstArgument name ∧
      (plan.firstArgument name).toNat =
        (((if dialect.reserved.contains name then none else params.firstOccurrence? name).bind
          dialect.registry.firstToken?).bind fun token =>
            (Numeral.value? token.toList).filter (· ≤ Numeral.largestUInt64)).getD 0 ∧
      ∀ directive call, dialect.registry.get? name = some directive → directive.TakesCount call →
        dialect.reserved.contains name = false →
        ∀ occurrence, params.firstOccurrence? name = some occurrence →
          Numeral.value? (Text.trim occurrence.raw.toList) =
            some (plan.firstArgument name).toNat := by
  have hplan := (run_of_compile hcompiled).1
  refine ⟨compiled.plan, hplan, compiled.hasDirective_eq_plan name, ?_,
    compiled.firstArgument_eq_plan name, ?_, ?_⟩
  · rw [Registry.hasDirective_plan hplan, directives, Parameters.firstOccurrence?_without,
      ← Parameters.firstOccurrence?_isSome_iff]
    by_cases hreserved : dialect.reserved.contains name = true <;> simp [hreserved]
  · rw [← Parameters.firstOccurrence?_without, Plan.toNat_firstArgument,
      ← Registry.firstToken?_plan hplan, directives]
  · intro directive call hget hcount hreserved occurrence hfirst
    have hkept : (dialect.directives params).firstOccurrence? name = some occurrence := by
      rw [directives, Parameters.firstOccurrence?_without, hreserved, ← hfirst]
      rfl
    exact toNat_firstArgument_of_count hplan hget hcount hkept

/-- A limit given twice, a filter on a column whose name is a numeral, a forced scope in front and a
reserved name. -/
theorem compiled_reports_request_repeated_limit :
    let params := Parameters.ofPairs [("force", "only_trashed"), ("limit", " +7"), ("page", "3"),
      ("limit", "9"), ("where", "12:gt:5")]
    let entity := (Model.mk "User" "users" (some "deleted_at") [] (.allOf "users")).entity
    ∃ compiled, compile {} params entity = .ok compiled ∧
      ["force", "page"].map compiled.hasDirective = [true, false] ∧
      ["limit", "where", "page"].map compiled.firstArgument = [7, 12, 0] := by
  intro params entity
  obtain ⟨compiled, hcompiled⟩ : ∃ compiled, compile {} params entity = .ok compiled := ⟨_, rfl⟩
  have hforce : compiled.hasDirective "force" = true := by
    obtain ⟨plan, -, hsame, hused, -⟩ := compiled_reports_request hcompiled "force"
    exact hsame.trans (hused.mpr ⟨rfl, "only_trashed", by decide⟩)
  have hpage : compiled.hasDirective "page" = false := by
    obtain ⟨plan, -, hsame, hused, -⟩ := compiled_reports_request hcompiled "page"
    exact hsame.trans (Bool.eq_false_iff.mpr fun htrue => absurd (hused.mp htrue).1 (by decide))
  have hlimit : compiled.firstArgument "limit" = 7 := by
    obtain ⟨plan, -, -, -, hsame, -, hcount⟩ := compiled_reports_request hcompiled "limit"
    have hseven := hcount .limit .limit rfl .limit rfl ⟨"limit", " +7"⟩ rfl
    exact hsame.trans (UInt64.toNat_inj.mp (Option.some.inj hseven.symm))
  have hwhere : compiled.firstArgument "where" = 12 := by
    obtain ⟨plan, -, -, -, hsame, hnumber, -⟩ := compiled_reports_request hcompiled "where"
    exact hsame.trans (UInt64.toNat_inj.mp hnumber)
  have hpageNumber : compiled.firstArgument "page" = 0 := by
    obtain ⟨plan, -, -, -, hsame, hnumber, -⟩ := compiled_reports_request hcompiled "page"
    exact hsame.trans (UInt64.toNat_inj.mp hnumber)
  refine ⟨compiled, hcompiled, ?_, ?_⟩
  · simp only [List.map_cons, List.map_nil, hforce, hpage]
  · simp only [List.map_cons, List.map_nil, hlimit, hwhere, hpageNumber]

end Dialect

end ParamQuery
