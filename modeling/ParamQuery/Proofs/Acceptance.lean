import ParamQuery.Proofs.Denotation

/-!
# The requests that compile against a model

A model refuses relations that it does not have and, if it does not delete softly, every scope; it
refuses nothing else, whatever was asked before. So a request over the built-in directives compiles
just if each of its occurrences can be read and asks for what the model has, in whatever order they
stand.
-/

namespace ParamQuery

section Lists

variable {α β : Type} {own : α → Bool} {xs ys : List α}

/-- What only some elements give is the same for lists with the same such elements. -/
lemma flatMap_eq_of_filter_eq {asked : α → List β} (hown : ∀ x, own x = false → asked x = [])
    (h : xs.filter own = ys.filter own) : xs.flatMap asked = ys.flatMap asked := by
  have hkept : ∀ zs : List α, (zs.filter own).flatMap asked = zs.flatMap asked := by
    intro zs
    induction zs with
    | nil => rfl
    | cons z zs ih =>
      cases hz : own z with
      | false => rw [List.filter_cons_of_neg (by simp [hz]), ih, List.flatMap_cons, hown z hz]; rfl
      | true => rw [List.filter_cons_of_pos hz, List.flatMap_cons, List.flatMap_cons, ih]
  rw [← hkept xs, h, hkept]

lemma filterMap_eq_of_filter_eq {asked : α → Option β}
    (hown : ∀ x, own x = false → asked x = none) (h : xs.filter own = ys.filter own) :
    xs.filterMap asked = ys.filterMap asked := by
  rw [List.filterMap_eq_flatMap_toList, List.filterMap_eq_flatMap_toList]
  exact flatMap_eq_of_filter_eq (fun x hx => by rw [hown x hx]; rfl) h

end Lists

namespace Model

/-- Whether a query over the model takes a call. -/
def Grants (model : Model) : Call → Prop
  | .withRelation relation => relation ∈ model.relations
  | .withScope _ => model.softDelete.isSome = true
  | _ => True

/-- The model has what is asked for. -/
structure Serves (model : Model) (request : Request) : Prop where
  relations : ∀ relation ∈ request.relations, relation ∈ model.relations
  scopes : ∀ scope ∈ request.toggled?.or request.forced?, model.softDelete.isSome = true

lemma exists_issue_iff (query : Query) (call : Call) :
    (∃ next, query.issue call = .ok next) ↔ query.model.Grants call := by
  cases call with
  | withRelation relation =>
    rw [Query.issue]
    by_cases h : relation ∈ query.model.relations <;> simp [Grants, h]
  | withScope scope =>
    rw [Query.issue]
    by_cases h : query.model.softDelete.isSome = true <;> simp [Grants, h]
  | _ => simp [Query.issue, Grants]

lemma model_of_issue {query next : Query} {call : Call} (h : query.issue call = .ok next) :
    next.model = query.model := by
  have hnext := Query.after_cons h []
  rw [Query.after_nil] at hnext
  rw [hnext]
  rfl

lemma entity_issue_iff {model : Model} {query next : Query} {call : Call} :
    model.entity.issue query call = (next, none) ↔ query.issue call = .ok next := by
  cases hissue : query.issue call <;> simp [entity, hissue]

/-- A run of calls goes through if each of them is granted on its own. -/
lemma exists_takes_iff (model : Model) (query : Query) (calls : List Call) :
    (∃ last, model.entity.Takes query calls last) ↔ ∀ call ∈ calls, query.model.Grants call := by
  induction calls generalizing query with
  | nil => simpa using ⟨query, .nil query⟩
  | cons call rest ih =>
    rw [List.forall_mem_cons, ← exists_issue_iff]
    constructor
    · rintro ⟨last, _ | ⟨taken, more⟩⟩
      have hissue := entity_issue_iff.mp taken
      rw [← model_of_issue hissue]
      exact ⟨⟨_, hissue⟩, (ih _).mp ⟨last, more⟩⟩
    · rintro ⟨⟨next, hissue⟩, hrest⟩
      rw [← model_of_issue hissue] at hrest
      obtain ⟨last, hlast⟩ := (ih next).mpr hrest
      exact ⟨last, .cons (entity_issue_iff.mpr hissue) hlast⟩

lemma forall_grants_iff (model : Model) (calls : List Call) :
    (∀ call ∈ calls, model.Grants call) ↔
      (∀ relation ∈ calls.filterMap Call.relation?, relation ∈ model.relations) ∧
        ∀ scope ∈ calls.filterMap Call.scope?, model.softDelete.isSome = true := by
  constructor
  · intro h
    refine ⟨fun relation hrelation => ?_, fun scope hscope => ?_⟩
    · obtain ⟨call, hcall, hread⟩ := List.mem_filterMap.mp hrelation
      cases call
      all_goals cases hread
      exact h _ hcall
    · obtain ⟨call, hcall, hread⟩ := List.mem_filterMap.mp hscope
      cases call
      all_goals cases hread
      exact h _ hcall
  · rintro ⟨hrelations, hscopes⟩ call hcall
    cases call with
    | withRelation relation => exact hrelations _ (List.mem_filterMap.mpr ⟨_, hcall, rfl⟩)
    | withScope scope => exact hscopes scope (List.mem_filterMap.mpr ⟨_, hcall, rfl⟩)
    | _ => trivial

/-- The calls of a step are granted just if the model has what its occurrence asks for. -/
lemma forall_grants_iff_serves (model : Model) {step : PlanStep} {request : Request}
    (h : step.Makes request) :
    (∀ call ∈ step.reading.calls, model.Grants call) ↔ model.Serves request := by
  rw [forall_grants_iff, h.relations, h.scopes]
  simp only [Option.mem_toList]
  exact ⟨fun ⟨hrelations, hscopes⟩ => ⟨hrelations, hscopes⟩, fun h => ⟨h.relations, h.scopes⟩⟩

end Model

lemma Plan.forall_mem_script_iff {plan : Plan} {projection : Projection} {granted : Call → Prop}
    (hselect : granted (.select projection)) :
    (∀ call ∈ (plan.script projection).map Prod.snd, granted call) ↔
      ∀ step ∈ plan, ∀ call ∈ step.reading.calls, granted call := by
  have hlines : (lines plan).map Prod.snd = plan.flatMap fun step => step.reading.calls := by
    simp [lines, List.map_flatMap, Function.comp_def]
  rw [script, opening, List.map_append, hlines, List.forall_mem_append, List.forall_mem_flatMap]
  refine and_iff_right ?_
  split
  · simp
  · simpa using hselect

/-- An occurrence without a fault is read by the kind that its name stands for. -/
lemma Occurrence.exists_reading_of_faultless {occurrence : Occurrence} {kind : DirectiveKind}
    (hkind : DirectiveKind.ofName? occurrence.name = some kind)
    (h : Registry.builtin.fault? occurrence = none) :
    ∃ reading, kind.reading occurrence.raw.toList = .ok reading := by
  obtain ⟨step, hstep⟩ := Registry.resolve_ok_iff_fault?_eq_none.mpr h
  obtain ⟨rfl, directive, hget, hread⟩ := Registry.resolve_eq_ok_iff.mp hstep
  have hkind' : DirectiveKind.ofName? step.name = some kind := hkind
  rw [Registry.get?_builtin, hkind'] at hget
  cases hget
  exact ⟨step.reading, (kind.read_directive step.raw).symm.trans hread⟩

namespace Registry

variable {params : Parameters} {plan : Plan}

lemma makes_of_plan (h : builtin.plan params = .ok plan) :
    ∀ step ∈ plan, step.Makes step.occurrence.request :=
  fun step hstep => PlanStep.makes_of_reads (reads_of_plan h step hstep)

/-- What the calls of a plan leave of a fresh query is what its occurrences denote. -/
lemma after_script_of_plan (model : Model) (h : builtin.plan params = .ok plan) :
    model.entity.fresh.after ((plan.script model.defaultProjection).map Prod.snd) =
      Request.denotation model
        ((forceLast (fun occurrence => occurrence.name == "force") params.occurrences).map
          Occurrence.request) := by
  obtain ⟨steps, -, -, hlast⟩ := plan_eq_ok_iff.mp h
  rw [← occurrences_of_plan h, List.map_map]
  exact after_script_eq_denotation model hlast
    (fun step hstep => by simpa using (List.mem_filter.mp hstep).2)
    (fun step hstep => by simpa using (List.mem_filter.mp hstep).2) (makes_of_plan h)

end Registry

namespace Dialect

variable {model : Model} {reserved : ReservedNames} {params : Parameters}

/-- A request over the built-in directives compiles against a model just if each of its
occurrences is read and is served by the model. -/
theorem exists_compile_iff :
    (∃ compiled, compile ⟨.builtin, reserved⟩ params model.entity = .ok compiled) ↔
      ∀ occurrence ∈ (params.without reserved).occurrences,
        Registry.builtin.fault? occurrence = none ∧ model.Serves occurrence.request := by
  constructor
  · rintro ⟨compiled, hcompiled⟩ occurrence hoccurrence
    obtain ⟨hplan, htakes⟩ := script_of_compile hcompiled
    have hgrants := (Model.exists_takes_iff model _ _).mp ⟨_, htakes⟩
    rw [Plan.forall_mem_script_iff trivial] at hgrants
    have hmem : occurrence ∈ compiled.plan.map PlanStep.occurrence := by
      rw [Registry.occurrences_of_plan hplan]
      exact (forceLast_perm _ _).mem_iff.mpr hoccurrence
    obtain ⟨step, hstep, rfl⟩ := List.mem_map.mp hmem
    refine ⟨?_, (Model.forall_grants_iff_serves model
      (Registry.makes_of_plan hplan step hstep)).mp (hgrants step hstep)⟩
    exact Registry.resolve_ok_iff_fault?_eq_none.mp
      ⟨step, Registry.resolve_eq_ok_iff.mpr ⟨rfl, Registry.reads_of_plan hplan step hstep⟩⟩
  · intro h
    have hfaultless : (params.without reserved).occurrences.findSome? Registry.builtin.fault? =
        none := List.findSome?_eq_none_iff.mpr fun occurrence hmem => (h occurrence hmem).1
    obtain ⟨plan, hplan⟩ := Registry.exists_plan_of_no_fault hfaultless
    have hgrants : ∀ call ∈ (plan.script model.entity.defaultProjection).map Prod.snd,
        model.Grants call := by
      rw [Plan.forall_mem_script_iff trivial]
      intro step hstep
      rw [Model.forall_grants_iff_serves model (Registry.makes_of_plan hplan step hstep)]
      refine (h step.occurrence ?_).2
      rw [← (forceLast_perm _ _).mem_iff, ← Registry.occurrences_of_plan hplan]
      exact List.mem_map_of_mem hstep
    obtain ⟨last, hlast⟩ := (Model.exists_takes_iff model model.entity.fresh _).mpr hgrants
    have hdialect : Dialect.plan ⟨.builtin, reserved⟩ params = .ok plan := hplan
    have hheedful : ∀ step ∈ plan, step.reading.fragment.Heedful := fun step hstep =>
      PlanStep.heedful_of_reads (Registry.reads_of_plan hplan step hstep)
    exact ⟨_, compile_of_build (build_of_takes hdialect hheedful hlast)⟩

lemma faultless_of_compile {compiled : Compiled Query}
    (h : compile ⟨.builtin, reserved⟩ params model.entity = .ok compiled) :
    ∀ occurrence ∈ (params.without reserved).occurrences,
      Registry.builtin.fault? occurrence = none :=
  fun occurrence hmem => (exists_compile_iff.mp ⟨compiled, h⟩ occurrence hmem).1

/-- A request that compiles against a model has the query that its occurrences denote. -/
lemma query_of_compile {compiled : Compiled Query}
    (h : compile ⟨.builtin, reserved⟩ params model.entity = .ok compiled) :
    compiled.query = Request.denotation model
      ((forceLast (fun occurrence => occurrence.name == "force")
        (params.without reserved).occurrences).map Occurrence.request) := by
  obtain ⟨hplan, htakes⟩ := script_of_compile h
  exact (Query.eq_after_of_takes htakes).trans (Registry.after_script_of_plan model hplan)

end Dialect

end ParamQuery
