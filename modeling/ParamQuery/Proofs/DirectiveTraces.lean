import ParamQuery.Proofs.FilterMonotonicity
import ParamQuery.Proofs.Introspection

/-!
# The traces of directives

A directive that is read asks for something, and what filters, sort keys, relations and limits ask
for no later directive takes back. So a query tells of each of them. A host has two shorter answers
to the question what was asked for. Both miss something: a limit of no rows is reported as no limit,
and columns may be chosen in a query that is called unfiltered.
-/

namespace ParamQuery

open DirectiveKind (isFilterName)

/-- What an occurrence of some names asks for whatever its argument is. -/
structure Occurrence.AsksAlways (occurrence : Occurrence) : Prop where
  filter : isFilterName occurrence.name = true → occurrence.request.filter? ≠ none
  sortKeys : occurrence.name = "order_by" → occurrence.request.sortKeys ≠ []
  relations : occurrence.name = "with" → occurrence.request.relations ≠ []
  limit : occurrence.name = "limit" → occurrence.request.limit? ≠ none

namespace Occurrence

variable {occurrence : Occurrence}

theorem asksAlways_of_faultless (h : Registry.builtin.fault? occurrence = none) :
    occurrence.AsksAlways where
  filter hname := by
    obtain ⟨conjunction, hname⟩ := DirectiveKind.isFilterName_iff.mp hname
    obtain ⟨filter, hfilter⟩ := filter?_of_faultless hname h
    simp [hfilter]
  sortKeys hname := by
    have hkind : DirectiveKind.ofName? occurrence.name = some .orderBy := by rw [hname]; rfl
    obtain ⟨reading, hread⟩ := exists_reading_of_faultless hkind h
    obtain ⟨items, hitems, hrest⟩ := bind_eq_ok_iff.mp hread
    obtain ⟨keys, hkeys, -⟩ := bind_eq_ok_iff.mp hrest
    obtain ⟨rfl, hne⟩ := Argument.list_eq_ok_iff.mp hitems
    have hsorted : occurrence.request.sortKeys = keys := by
      rw [request, hkind]
      exact filterMap_toOption_of_mapM hkeys
    obtain ⟨item, rest, hcons⟩ := List.exists_cons_of_ne_nil hne
    rw [hcons] at hkeys
    obtain ⟨key, others, -, -, rfl⟩ := mapM_cons_eq_ok_iff.mp hkeys
    simp [hsorted]
  relations hname := by
    have hkind : DirectiveKind.ofName? occurrence.name = some .relations := by rw [hname]; rfl
    obtain ⟨reading, hread⟩ := exists_reading_of_faultless hkind h
    obtain ⟨items, hitems, -⟩ := bind_eq_ok_iff.mp hread
    obtain ⟨rfl, hne⟩ := Argument.list_eq_ok_iff.mp hitems
    rw [request, hkind]
    exact hne
  limit hname := by
    have hkind : DirectiveKind.ofName? occurrence.name = some .limit := by rw [hname]; rfl
    obtain ⟨reading, hread⟩ := exists_reading_of_faultless hkind h
    obtain ⟨count, hcount, -⟩ := bind_eq_ok_iff.mp hread
    have hlimit : occurrence.request.limit? = some count := by
      simp only [request, hkind, hcount]
      rfl
    simp [hlimit]

end Occurrence

/-- Whether something is asked for that no later request takes back. -/
def Request.Lasts (request : Request) : Prop :=
  request.filter? ≠ none ∨ request.sortKeys ≠ [] ∨ request.relations ≠ [] ∨ request.limit? ≠ none

namespace Query

/-- An unfiltered query is a fresh one in all but its projection. -/
lemma isUnfiltered_iff {query : Query} :
    query.isUnfiltered = true ↔
      query = { query.model.entity.fresh with projection := query.projection } := by
  obtain ⟨model, projection, predicate, order, relations, limit, offset, scope⟩ := query
  simp [isUnfiltered, Model.entity, and_assoc]

variable {model : Model} {requests : List Request} {query : Query}
  (h : query = Request.denotation model requests)

include h

lemma predicate_eq_none_iff :
    query.predicate = none ↔ ∀ request ∈ requests, request.filter? = none := by
  rw [h, Request.denotation, ← List.filterMap_eq_nil_iff]
  cases requests.filterMap Request.filter? <;> simp [Request.joined]

lemma order_eq_nil_iff : query.order = [] ↔ ∀ request ∈ requests, request.sortKeys = [] := by
  rw [h]
  exact List.flatMap_eq_nil_iff

lemma relations_eq_nil_iff :
    query.relations = [] ↔ ∀ request ∈ requests, request.relations = [] := by
  rw [h, Request.denotation, ← List.flatMap_eq_nil_iff]
  cases requests.flatMap Request.relations <;> simp [List.eraseDups_cons]

lemma limit_eq_none_iff : query.limit = none ↔ ∀ request ∈ requests, request.limit? = none := by
  rw [h, Request.denotation, List.getLast?_eq_none_iff, List.filterMap_eq_nil_iff]

/-- An offset of zero and the default scope may be asked for, anything that lasts may not. -/
lemma isUnfiltered_iff_of_denoted :
    query.isUnfiltered = true ↔
      (∀ request ∈ requests, ¬request.Lasts) ∧ query.offset = 0 ∧
        query.scope = .withoutTrashed := by
  simp only [isUnfiltered, Bool.and_eq_true, Option.isNone_iff_eq_none, List.isEmpty_iff,
    beq_iff_eq, predicate_eq_none_iff h, order_eq_nil_iff h, relations_eq_nil_iff h,
    limit_eq_none_iff h, Request.Lasts, not_or, not_not, forall_and, and_assoc]

end Query

namespace Occurrence

/-- Of the occurrences that are read, the filters, sort keys, relations and limits ask for something
that lasts. -/
lemma lasts_request_iff {occurrence : Occurrence}
    (h : Registry.builtin.fault? occurrence = none) :
    occurrence.request.Lasts ↔ isFilterName occurrence.name = true ∨
      occurrence.name ∈ ["order_by", "with", "limit"] := by
  have halways := asksAlways_of_faultless h
  have hbyName := occurrence.asksByName
  rw [Request.Lasts]
  constructor
  · rintro (hfilter | hkeys | hrelations | hlimit)
    · exact .inl (by_contra fun hname => hfilter (hbyName.filter (by simpa using hname)))
    · have hname : occurrence.name = "order_by" := by_contra fun h => hkeys (hbyName.sortKeys h)
      simp [hname]
    · have hname : occurrence.name = "with" := by_contra fun h => hrelations (hbyName.relations h)
      simp [hname]
    · have hname : occurrence.name = "limit" := by_contra fun h => hlimit (hbyName.limit h)
      simp [hname]
  · rintro (hname | hname)
    · exact .inl (halways.filter hname)
    · simp only [List.mem_cons, List.not_mem_nil, or_false] at hname
      rcases hname with hname | hname | hname
      · exact .inr (.inl (halways.sortKeys hname))
      · exact .inr (.inr (.inl (halways.relations hname)))
      · exact .inr (.inr (.inr (halways.limit hname)))

end Occurrence

namespace Dialect

variable {model : Model} {reserved : ReservedNames} {params : Parameters}
  {compiled : Compiled Query}

lemma compile_nothing (model : Model) (reserved : ReservedNames) :
    compile ⟨.builtin, reserved⟩ {} model.entity =
      .ok ⟨{ model.entity.fresh with projection := some model.defaultProjection }, []⟩ := by
  rfl

lemma forall_directives_iff {Query : Type} {dialect : Dialect} {entity : Entity Query}
    {compiled : Compiled Query} (h : dialect.compile params entity = .ok compiled)
    (holds : String → Prop) :
    (∀ summary ∈ compiled.directives, holds summary.name) ↔
      ∀ occurrence ∈ (dialect.directives params).occurrences, holds occurrence.name := by
  have hplan := Registry.occurrences_of_plan (run_of_compile h).1
  have hoccurrences : ∀ occurrence, occurrence ∈ (dialect.directives params).occurrences ↔
      occurrence ∈ compiled.plan.map PlanStep.occurrence := by
    intro occurrence
    rw [hplan]
    exact (forceLast_perm _ _).mem_iff.symm
  simp only [hoccurrences, Compiled.directives, List.forall_mem_map]
  rfl

/-- The order in which things are asked for is no matter where all of them are looked at. -/
lemma forall_forceLast_iff {occurrences : List Occurrence} {asked : Request → Prop} :
    (∀ request ∈ (forceLast (fun occurrence => occurrence.name == "force") occurrences).map
        Occurrence.request, asked request) ↔
      ∀ occurrence ∈ occurrences, asked occurrence.request := by
  simp only [List.forall_mem_map, (forceLast_perm _ _).mem_iff]

/-! ### The reported limit -/

lemma limit_eq_none_iff_of_compile
    (h : compile ⟨.builtin, reserved⟩ params model.entity = .ok compiled) :
    compiled.query.limit = none ↔ ∀ summary ∈ compiled.directives, summary.name ≠ "limit" := by
  rw [Query.limit_eq_none_iff (query_of_compile h), forall_forceLast_iff,
    forall_directives_iff h (· ≠ "limit")]
  refine forall₂_congr fun occurrence hmem => ?_
  have halways := Occurrence.asksAlways_of_faultless (faultless_of_compile h occurrence hmem)
  exact ⟨fun hnone hname => halways.limit hname hnone, occurrence.asksByName.limit⟩

lemma firstOccurrence?_limit_eq_none_iff
    (h : compile ⟨.builtin, reserved⟩ params model.entity = .ok compiled) :
    (params.without reserved).firstOccurrence? "limit" = none ↔ compiled.query.limit = none := by
  rw [limit_eq_none_iff_of_compile h, forall_directives_iff h (· ≠ "limit"),
    Parameters.firstOccurrence?, List.find?_eq_none]
  simp only [beq_iff_eq]
  rfl

/-- The reported limit is the number that the first limit denotes, and zero if there is none. -/
lemma limit_of_compile (h : compile ⟨.builtin, reserved⟩ params model.entity = .ok compiled) :
    match (params.without reserved).firstOccurrence? "limit" with
    | none => compiled.limit = 0
    | some occurrence =>
      Numeral.value? (Text.trim occurrence.raw.toList) = some compiled.limit.toNat := by
  have hplan := (run_of_compile h).1
  have hreported : compiled.limit = compiled.plan.firstArgument "limit" :=
    compiled.firstArgument_eq_plan "limit"
  rw [hreported]
  split
  case h_1 hfirst =>
    have hstep : compiled.plan.find? (fun step => step.name == "limit") = none := by
      rw [← Option.map_eq_none_iff]
      exact (Registry.find?_plan hplan "limit").trans hfirst
    rw [← UInt64.toNat_inj, Plan.toNat_firstArgument, hstep]
    rfl
  case h_2 occurrence hfirst => exact toNat_firstArgument_of_count hplan rfl .limit hfirst

/-- A query has a limit just if its request holds the directive. The limit that is reported is zero
where there is none, but also where the first limit given is a numeral of zero. So a report of zero
tells that there is no limit just if no limit was given or the first one is not zero. -/
theorem reported_limit_eq_zero_iff
    (hcompiled : compile ⟨.builtin, reserved⟩ params model.entity = .ok compiled) :
    let first := (params.without reserved).firstOccurrence? "limit"
    (compiled.query.limit = none ↔ ∀ summary ∈ compiled.directives, summary.name ≠ "limit") ∧
    (compiled.limit = 0 ↔ compiled.query.limit = none ∨ ∃ occurrence, first = some occurrence ∧
      Numeral.value? (Text.trim occurrence.raw.toList) = some 0) ∧
    ((compiled.limit = 0 ↔ compiled.query.limit = none) ↔ ∀ occurrence, first = some occurrence →
      Numeral.value? (Text.trim occurrence.raw.toList) ≠ some 0) := by
  intro first
  refine ⟨limit_eq_none_iff_of_compile hcompiled, ?_⟩
  have hlimit := limit_of_compile hcompiled
  rw [← firstOccurrence?_limit_eq_none_iff hcompiled]
  cases hfirst : (params.without reserved).firstOccurrence? "limit" with
  | none =>
    rw [hfirst] at hlimit
    simp [first, hfirst, hlimit]
  | some occurrence =>
    rw [hfirst] at hlimit
    have hzero : compiled.limit = 0 ↔ compiled.limit.toNat = 0 := UInt64.toNat_inj.symm
    simp [first, hfirst, hlimit, hzero]

/-- A first limit of zero in another spelling before a limit of nine rows, and one after it. -/
theorem reported_limit_eq_zero_iff_respelled :
    let entity := (Model.mk "User" "users" none [] (.allOf "users")).entity
    (∃ compiled,
      compile {} (.ofPairs [("limit", " +00 "), ("offset", "5"), ("limit[]", "9")]) entity =
        .ok compiled ∧ compiled.limit = 0 ∧ compiled.query.limit ≠ none) ∧
      ∃ compiled, compile {} (.ofPairs [("limit[]", "9"), ("page", "2"), ("limit", "0")]) entity =
        .ok compiled ∧ (compiled.limit = 0 ↔ compiled.query.limit = none) := by
  intro entity
  obtain ⟨early, hearly⟩ : ∃ compiled, compile {} (.ofPairs [("limit", " +00 "), ("offset", "5"),
    ("limit[]", "9")]) entity = .ok compiled := ⟨_, rfl⟩
  obtain ⟨late, hlate⟩ : ∃ compiled, compile {} (.ofPairs [("limit[]", "9"), ("page", "2"),
    ("limit", "0")]) entity = .ok compiled := ⟨_, rfl⟩
  obtain ⟨-, hreport, htold⟩ := reported_limit_eq_zero_iff hearly
  have hzero : early.limit = 0 := hreport.mpr (.inr ⟨⟨"limit", " +00 "⟩, rfl, by decide⟩)
  have hrequested : early.query.limit ≠ none := fun hnone =>
    htold.mp ⟨fun _ => hnone, fun _ => hzero⟩ ⟨"limit", " +00 "⟩ rfl (by decide)
  refine ⟨⟨early, hearly, hzero, hrequested⟩, late, hlate, ?_⟩
  refine (reported_limit_eq_zero_iff hlate).2.2.mpr fun occurrence hfirst => ?_
  obtain rfl : ⟨"limit", "9"⟩ = occurrence := Option.some.inj hfirst
  decide

/-- A limit of no rows is reported as no limit, though it was asked for and stays. -/
theorem zero_limit_reported_as_none :
    let entity := (Model.mk "User" "users" none [] (.allOf "users")).entity
    ∃ compiled, compile {} (.ofPairs [("limit", "0")]) entity = .ok compiled ∧ compiled.limit = 0 ∧
      compiled.directives = [⟨"limit", "0", ["0"]⟩] ∧ compiled.query.limit = some 0 :=
  ⟨_, rfl, rfl, rfl, rfl⟩

/-! ### Unfiltered queries -/

lemma model_of_compile (h : compile ⟨.builtin, reserved⟩ params model.entity = .ok compiled) :
    compiled.query.model = model := by
  rw [query_of_compile h]
  rfl

/-- Nothing that lasts is asked for, and of the rest what comes last asks for nothing. -/
lemma isUnfiltered_iff_of_compile
    (h : compile ⟨.builtin, reserved⟩ params model.entity = .ok compiled) :
    compiled.query.isUnfiltered = true ↔
      (∀ summary ∈ compiled.directives,
        isFilterName summary.name = false ∧ summary.name ∉ ["order_by", "with", "limit"]) ∧
      compiled.query.offset = 0 ∧ compiled.query.scope = .withoutTrashed := by
  rw [forall_directives_iff h
      (fun name => isFilterName name = false ∧ name ∉ ["order_by", "with", "limit"]),
    Query.isUnfiltered_iff_of_denoted (query_of_compile h), forall_forceLast_iff]
  refine and_congr_left fun _ => forall₂_congr fun occurrence hmem => ?_
  rw [Occurrence.lasts_request_iff (faultless_of_compile h occurrence hmem), not_or,
    Bool.not_eq_true]

/-- All columns of the table are selected just if none are named. -/
lemma projection_eq_allOf_iff {table : String} (hdefault : model.defaultProjection = .allOf table)
    (h : compile ⟨.builtin, reserved⟩ params model.entity = .ok compiled) :
    compiled.query.projection = some (.allOf table) ↔
      ∀ summary ∈ compiled.directives, summary.name ≠ "columns" := by
  have hselected : ∀ lists, Request.selected (.allOf table) lists = .allOf table ↔ lists = [] := by
    intro lists
    cases lists <;> simp [Request.selected]
  rw [forall_directives_iff h (· ≠ "columns"), query_of_compile h, Request.denotation,
    Option.some_inj, hdefault, hselected, List.filterMap_eq_nil_iff, forall_forceLast_iff]
  refine forall₂_congr fun occurrence _ => ?_
  rw [← Option.not_isSome_iff_eq_none, Occurrence.columns?_isSome, beq_iff_eq]

/-- A request that compiles leaves an unfiltered query just if the query differs from that of the
empty request in the projection at most. It does not filter, sort, include or limit then, the last
offset is zero and the scope is the default one. Where columns are chosen besides, the query is
still called unfiltered but is not the one of which nothing was asked. -/
theorem unfiltered_iff_untouched
    (hcompiled : compile ⟨.builtin, reserved⟩ params model.entity = .ok compiled) :
    ∃ untouched, compile ⟨.builtin, reserved⟩ {} model.entity = .ok untouched ∧
      (compiled.query.isUnfiltered = true ↔
        compiled.query = { untouched.query with projection := compiled.query.projection }) ∧
      (compiled.query.isUnfiltered = true ↔
        (∀ summary ∈ compiled.directives,
          isFilterName summary.name = false ∧ summary.name ∉ ["order_by", "with", "limit"]) ∧
        compiled.query.offset = 0 ∧ compiled.query.scope = .withoutTrashed) ∧
      ((compiled.query.isUnfiltered = true ↔ compiled.query = untouched.query) ↔
        (compiled.query.isUnfiltered = true →
          compiled.query.projection = untouched.query.projection)) ∧
      ∀ table, model.defaultProjection = .allOf table →
        (compiled.query.projection = untouched.query.projection ↔
          ∀ summary ∈ compiled.directives, summary.name ≠ "columns") := by
  refine ⟨_, compile_nothing model reserved, ?_⟩
  have hunfiltered : compiled.query.isUnfiltered = true ↔
      compiled.query = { model.entity.fresh with projection := compiled.query.projection } := by
    rw [Query.isUnfiltered_iff, model_of_compile hcompiled]
  refine ⟨hunfiltered, isUnfiltered_iff_of_compile hcompiled, ⟨fun hsame htrue => ?_,
    fun hprojection => ⟨fun htrue => ?_, fun hsame => ?_⟩⟩, fun table hdefault => ?_⟩
  · rw [hsame.mp htrue]
  · rw [hunfiltered.mp htrue, hprojection htrue]
  · rw [hsame]
    rfl
  · rw [hdefault]
    exact projection_eq_allOf_iff hdefault hcompiled

/-- A scope and an offset that are both taken back. -/
theorem unfiltered_iff_untouched_taken_back :
    let model : Model := ⟨"User", "users", some "deleted_at", [], .allOf "users"⟩
    let params := Parameters.ofPairs [("force", "without_trashed"), ("offset", "5"),
      ("with_trashed", ""), ("page", "2"), ("offset[]", "0")]
    ∃ compiled untouched, compile {} params model.entity = .ok compiled ∧
      compile {} {} model.entity = .ok untouched ∧
      compiled.query.isUnfiltered = true ∧ compiled.query = untouched.query := by
  intro model params
  obtain ⟨compiled, hcompiled, hnames, hoffset, hscope⟩ :
      ∃ compiled, compile {} params model.entity = .ok compiled ∧
        compiled.directives.map Summary.name = ["offset", "offset", "with_trashed", "force"] ∧
        compiled.query.offset = 0 ∧ compiled.query.scope = .withoutTrashed :=
    ⟨_, rfl, rfl, rfl, rfl⟩
  obtain ⟨untouched, huntouched, -, hasked, hsame, hcolumns⟩ := unfiltered_iff_untouched hcompiled
  have hnamed : ∀ summary ∈ compiled.directives,
      summary.name ∈ ["offset", "offset", "with_trashed", "force"] :=
    fun summary hmem => hnames ▸ List.mem_map_of_mem hmem
  have hlasting : ∀ name ∈ ["offset", "offset", "with_trashed", "force"],
      isFilterName name = false ∧ name ∉ ["order_by", "with", "limit"] := by decide
  have hunfiltered : compiled.query.isUnfiltered = true :=
    hasked.mpr ⟨fun summary hmem => hlasting _ (hnamed summary hmem), hoffset, hscope⟩
  have hprojection : compiled.query.projection = untouched.query.projection :=
    (hcolumns "users" rfl).mpr fun summary hmem hname =>
      absurd (hname ▸ hnamed summary hmem) (by decide)
  exact ⟨compiled, untouched, hcompiled, huntouched, hunfiltered,
    (hsame.mpr fun _ => hprojection).mp hunfiltered⟩

/-- A query of chosen columns is called unfiltered, though it is not the query of which nothing was
asked. -/
theorem chosen_columns_unfiltered :
    let entity := (Model.mk "User" "users" none [] (.allOf "users")).entity
    ∃ compiled untouched,
      compile {} (.ofPairs [("columns", "id")]) entity = .ok compiled ∧
      compile {} {} entity = .ok untouched ∧
      compiled.query.isUnfiltered = true ∧
      compiled.query.projection = some (.columns ["id"]) ∧
      untouched.query.projection = some (.allOf "users") ∧ compiled.query ≠ untouched.query := by
  refine ⟨_, _, rfl, rfl, rfl, rfl, rfl, fun hsame => ?_⟩
  cases congrArg Query.projection hsame

end Dialect

end ParamQuery
