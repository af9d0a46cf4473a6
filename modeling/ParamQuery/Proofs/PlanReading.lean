import ParamQuery.Dialect
import ParamQuery.Proofs.Traversal
import Mathlib.Data.List.Basic

/-!
# Reading a request into a plan

Every occurrence is read by a fresh handler before anything is applied. This file says when a
whole request reads: the plan then holds one reading for each occurrence, with the forced ones
at the end, and otherwise the fault is that of the first occurrence that does not read.
-/

namespace ParamQuery

/-- The occurrence that a step was read from. -/
def PlanStep.occurrence (step : PlanStep) : Occurrence := ⟨step.name, step.raw⟩

section Forcing

variable {α : Type}

/-- Forcing what elements stand for is forcing the elements. -/
lemma map_forceLast {β : Type} (f : α → β) (isForce : β → Bool) (entries : List α) :
    (forceLast (fun entry => isForce (f entry)) entries).map f =
      forceLast isForce (entries.map f) := by
  rw [forceLast, forceLast, List.map_append, List.filter_map, List.filter_map]
  rfl

lemma filter_forceLast (keep isForce : α → Bool) (entries : List α) :
    (forceLast isForce entries).filter keep = forceLast isForce (entries.filter keep) := by
  rw [forceLast, forceLast, List.filter_append, List.filter_comm keep, List.filter_comm keep]

lemma forceLast_eq_self {isForce : α → Bool} {entries : List α}
    (h : ∀ entry ∈ entries, isForce entry = false) : forceLast isForce entries = entries := by
  have hfree : entries.filter (fun entry => !isForce entry) = entries :=
    List.filter_eq_self.mpr fun entry hentry => by rw [h entry hentry]; rfl
  have hforced : entries.filter isForce = [] :=
    List.filter_eq_nil_iff.mpr fun entry hentry => by simp [h entry hentry]
  rw [forceLast, hfree, hforced, List.append_nil]

lemma forceLast_eq_self_of_forced {isForce : α → Bool} {entries : List α}
    (h : ∀ entry ∈ entries, isForce entry = true) : forceLast isForce entries = entries := by
  have hfree : entries.filter (fun entry => !isForce entry) = [] :=
    List.filter_eq_nil_iff.mpr fun entry hentry => by simp [h entry hentry]
  rw [forceLast, hfree, List.filter_eq_self.mpr h, List.nil_append]

/-- The elements with one name are forced or not, all alike. -/
lemma filter_name_forceLast (nameOf : α → String) (forced name : String) (entries : List α) :
    (forceLast (fun entry => nameOf entry == forced) entries).filter (nameOf · == name) =
      entries.filter (nameOf · == name) := by
  rw [filter_forceLast]
  have hname : ∀ entry ∈ entries.filter (nameOf · == name), nameOf entry = name :=
    fun entry hentry => eq_of_beq (List.mem_filter.mp hentry).2
  by_cases hforced : name = forced
  · exact forceLast_eq_self_of_forced fun entry hentry => by simp [hname entry hentry, hforced]
  · exact forceLast_eq_self fun entry hentry => by simp [hname entry hentry, hforced]

end Forcing

namespace Registry

/-- A fresh handler of the step's directive reads the step's argument. -/
def Reads (registry : Registry) (step : PlanStep) : Prop :=
  ∃ directive, registry.get? step.name = some directive ∧
    directive.read step.raw = .ok step.reading

/-- What is wrong with an occurrence: its name is not bound, or its argument does not fit. -/
def fault? (registry : Registry) (occurrence : Occurrence) : Option CompileError :=
  match registry.get? occurrence.name with
  | none => some (.unknownDirective occurrence.name)
  | some directive =>
    match directive.read occurrence.raw with
    | .ok _ => none
    | .error fault => some (.malformedArgument occurrence.name occurrence.raw fault)

lemma resolve_eq_ok_iff {registry : Registry} {occurrence : Occurrence} {step : PlanStep} :
    registry.resolve occurrence = .ok step ↔
      step.occurrence = occurrence ∧ registry.Reads step := by
  obtain ⟨name, raw⟩ := occurrence
  obtain ⟨stepName, stepRaw, reading⟩ := step
  simp only [resolve, Reads, PlanStep.occurrence, Occurrence.mk.injEq]
  constructor
  · intro h
    cases hget : registry.get? name with
    | none => simp [hget] at h
    | some directive =>
      cases hread : directive.read raw with
      | error fault => simp [hget, hread] at h
      | ok found =>
        simp only [hget, hread, Except.ok.injEq, PlanStep.mk.injEq] at h
        obtain ⟨rfl, rfl, rfl⟩ := h
        exact ⟨⟨rfl, rfl⟩, directive, hget, hread⟩
  · rintro ⟨⟨rfl, rfl⟩, directive, hget, hread⟩
    simp [hget, hread]

lemma resolve_eq_error_iff {registry : Registry} {occurrence : Occurrence} {fault : CompileError} :
    registry.resolve occurrence = .error fault ↔ registry.fault? occurrence = some fault := by
  simp only [resolve, fault?]
  cases registry.get? occurrence.name with
  | none => simp
  | some directive =>
    cases hread : directive.read occurrence.raw <;> simp [hread]

lemma resolve_ok_iff_fault?_eq_none {registry : Registry} {occurrence : Occurrence} :
    (∃ step, registry.resolve occurrence = .ok step) ↔ registry.fault? occurrence = none := by
  cases hresolve : registry.resolve occurrence with
  | error fault => simp [resolve_eq_error_iff.mp hresolve]
  | ok step =>
    have hfault : ∀ fault, registry.fault? occurrence ≠ some fault := by
      intro fault hsome
      rw [resolve_eq_error_iff.mpr hsome] at hresolve
      cases hresolve
    simpa using Option.eq_none_iff_forall_ne_some.mpr hfault

/-- All occurrences are read, each into its own step. -/
lemma mapM_resolve_eq_ok_iff (registry : Registry) (occurrences : List Occurrence)
    (steps : List PlanStep) :
    occurrences.mapM registry.resolve = .ok steps ↔
      steps.map PlanStep.occurrence = occurrences ∧ ∀ step ∈ steps, registry.Reads step := by
  induction occurrences generalizing steps with
  | nil => cases steps <;> simp [pure, Except.pure]
  | cons occurrence rest ih =>
    rw [mapM_cons_eq_ok_iff]
    constructor
    · rintro ⟨step, others, hstep, hothers, rfl⟩
      obtain ⟨hocc, hreads⟩ := resolve_eq_ok_iff.mp hstep
      obtain ⟨hrest, hall⟩ := (ih others).mp hothers
      exact ⟨by rw [List.map_cons, hocc, hrest], List.forall_mem_cons.mpr ⟨hreads, hall⟩⟩
    · rintro ⟨hocc, hall⟩
      obtain ⟨step, others, rfl, hstep, hothers⟩ := List.map_eq_cons_iff.mp hocc
      obtain ⟨hreads, hall⟩ := List.forall_mem_cons.mp hall
      exact ⟨step, others, resolve_eq_ok_iff.mpr ⟨hstep, hreads⟩,
        (ih others).mpr ⟨hothers, hall⟩, rfl⟩

/-- The fault of a request is that of its first faulty occurrence. -/
lemma mapM_resolve_eq_error_iff (registry : Registry) (occurrences : List Occurrence)
    (fault : CompileError) :
    occurrences.mapM registry.resolve = .error fault ↔
      occurrences.findSome? registry.fault? = some fault := by
  induction occurrences with
  | nil => simp [pure, Except.pure]
  | cons occurrence rest ih =>
    rw [mapM_cons_eq_error_iff, ih, resolve_eq_error_iff, resolve_ok_iff_fault?_eq_none,
      List.findSome?_cons]
    cases registry.fault? occurrence <;> simp

lemma plan_eq_error_iff {registry : Registry} {params : Parameters} {fault : CompileError} :
    registry.plan params = .error fault ↔
      params.occurrences.findSome? registry.fault? = some fault := by
  rw [← mapM_resolve_eq_error_iff, Registry.plan]
  cases params.occurrences.mapM registry.resolve <;>
    simp [bind, Except.bind, pure, Except.pure]

lemma exists_plan_of_no_fault {registry : Registry} {params : Parameters}
    (h : params.occurrences.findSome? registry.fault? = none) :
    ∃ plan, registry.plan params = .ok plan := by
  cases hplan : registry.plan params with
  | ok plan => exact ⟨plan, rfl⟩
  | error fault =>
    rw [plan_eq_error_iff.mp hplan] at h
    cases h

lemma plan_eq_ok_iff {registry : Registry} {params : Parameters} {plan : Plan} :
    registry.plan params = .ok plan ↔
      ∃ steps, steps.map PlanStep.occurrence = params.occurrences ∧
        (∀ step ∈ steps, registry.Reads step) ∧
        plan = forceLast (fun step => step.name == "force") steps := by
  rw [Registry.plan]
  constructor
  · intro h
    cases hsteps : params.occurrences.mapM registry.resolve with
    | error fault => simp [hsteps, bind, Except.bind] at h
    | ok steps =>
      obtain ⟨hocc, hreads⟩ := (mapM_resolve_eq_ok_iff registry _ steps).mp hsteps
      refine ⟨steps, hocc, hreads, ?_⟩
      simpa [hsteps, bind, Except.bind, pure, Except.pure] using h.symm
  · rintro ⟨steps, hocc, hreads, rfl⟩
    rw [(mapM_resolve_eq_ok_iff registry _ steps).mpr ⟨hocc, hreads⟩]
    rfl

/-- The steps of a plan are the occurrences of its request, the forced ones at the end. -/
lemma occurrences_of_plan {registry : Registry} {params : Parameters} {plan : Plan}
    (h : registry.plan params = .ok plan) :
    plan.map PlanStep.occurrence =
      forceLast (fun occurrence => occurrence.name == "force") params.occurrences := by
  obtain ⟨steps, hocc, -, rfl⟩ := plan_eq_ok_iff.mp h
  rw [← hocc, ← map_forceLast]
  rfl

lemma reads_of_plan {registry : Registry} {params : Parameters} {plan : Plan}
    (h : registry.plan params = .ok plan) : ∀ step ∈ plan, registry.Reads step := by
  obtain ⟨steps, -, hreads, rfl⟩ := plan_eq_ok_iff.mp h
  exact fun step hstep => hreads step ((forceLast_perm _ steps).mem_iff.mp hstep)

end Registry

end ParamQuery
