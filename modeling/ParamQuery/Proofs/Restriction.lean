import ParamQuery.Proofs.ReservedPairs

/-!
# Services with disabled directives

A host may disable directives. Taking their names out of a registry leaves every other binding as
it was, and an occurrence is read by the binding of its own name alone. So a restricted service
answers a request that uses no disabled directive as the full service does, faults included, and
compiles no other request.
-/

namespace ParamQuery

namespace Registry

variable {registry smaller : Registry}

/-- Distinct names that are bound can be removed one after the other. -/
lemma exists_remove_of_nodup {names : List String} (hdistinct : names.Nodup)
    (hbound : ∀ name ∈ names, registry.contains name = true) :
    ∃ smaller, registry.remove names = (smaller, none) := by
  induction names generalizing registry with
  | nil => exact ⟨registry, rfl⟩
  | cons name rest ih =>
    obtain ⟨hnew, hrest⟩ := List.nodup_cons.mp hdistinct
    obtain ⟨hname, hothers⟩ := List.forall_mem_cons.mp hbound
    obtain ⟨next, hnext⟩ : ∃ next, registry.unregister name = .ok next := by
      rw [unregister, if_pos hname]
      exact ⟨_, rfl⟩
    have hkept : ∀ other ∈ rest, next.contains other = true := by
      intro other hother
      have hne : other ≠ name := fun h => hnew (h ▸ hother)
      rw [contains, get?_unregister hnext, if_neg hne]
      exact hothers other hother
    obtain ⟨smaller, hsmaller⟩ := ih hrest hkept
    refine ⟨smaller, ?_⟩
    rw [remove, hnext]
    exact hsmaller

/-- A removal that goes through unbinds the names given and no others. -/
lemma get?_remove {names : List String} (h : registry.remove names = (smaller, none))
    (name : String) :
    smaller.get? name = if name ∈ names then none else registry.get? name := by
  induction names generalizing registry with
  | nil =>
    cases h
    rfl
  | cons first rest ih =>
    rw [remove] at h
    cases hfirst : registry.unregister first with
    | error fault => simp [hfirst] at h
    | ok next =>
      rw [hfirst] at h
      rw [ih h, get?_unregister hfirst]
      by_cases hname : name = first <;> simp [hname]

/-- A plan hangs on the bindings of the names that occur. -/
lemma plan_congr {other : Registry} {params : Parameters}
    (h : ∀ occurrence ∈ params.occurrences,
      registry.get? occurrence.name = other.get? occurrence.name) :
    registry.plan params = other.plan params := by
  have hresolve : params.occurrences.mapM registry.resolve =
      params.occurrences.mapM other.resolve := by
    apply mapM_congr
    intro occurrence hoccurrence
    rw [resolve, resolve, h occurrence hoccurrence]
  rw [plan, plan, hresolve]

/-- Every name that occurs in a request with a plan is bound. -/
lemma get?_ne_none_of_plan {params : Parameters} {plan : Plan}
    (h : registry.plan params = .ok plan) {occurrence : Occurrence}
    (hoccurrence : occurrence ∈ params.occurrences) : registry.get? occurrence.name ≠ none := by
  obtain ⟨steps, hocc, hreads, -⟩ := plan_eq_ok_iff.mp h
  rw [← hocc] at hoccurrence
  obtain ⟨step, hstep, rfl⟩ := List.mem_map.mp hoccurrence
  obtain ⟨directive, hget, -⟩ := hreads step hstep
  intro hnone
  have hsome := hget.symm.trans hnone
  cases hsome

end Registry

namespace Service

/-- A restricted service is a conservative restriction of the full one. If the settings are valid
and disable distinct built-in directives, there is a service for them. It compiles a request just
if the full service does and no directive of the request is disabled, and then to the same result;
and a request without a disabled directive has the same outcome, faults included. -/
theorem disabling_is_conservative {settings : Settings} (hvalid : settings.validate = .ok ())
    (hdistinct : settings.disabled.Nodup)
    (hbuiltin : ∀ name ∈ settings.disabled, Registry.builtin.contains name = true) :
    let full : Service := ⟨⟨.builtin, settings.reserved⟩, settings.defaultPageSize⟩
    ofSettings { settings with disabled := [] } = .ok full ∧
    ∃ service, ofSettings settings = .ok service ∧
      ∀ {Query : Type} (params : Parameters) (entity : Entity Query),
        let enabled := ∀ occurrence ∈ (params.without settings.reserved).occurrences,
          occurrence.name ∉ settings.disabled
        (∀ compiled, service.compile params entity = .ok compiled ↔
          full.compile params entity = .ok compiled ∧ enabled) ∧
        (enabled → service.compile params entity = full.compile params entity) := by
  intro full
  have hfull : ofSettings { settings with disabled := [] } = .ok full := by
    have hsame : Settings.validate { settings with disabled := [] } = settings.validate := rfl
    rw [ofSettings, ofParts, hsame, hvalid]
    rfl
  obtain ⟨smaller, hsmaller⟩ := Registry.exists_remove_of_nodup hdistinct hbuiltin
  have hservice : ofSettings settings =
      .ok ⟨⟨smaller, settings.reserved⟩, settings.defaultPageSize⟩ := by
    rw [ofSettings, ofParts, hvalid, Settings.restrict, hsmaller]
    rfl
  refine ⟨hfull, _, hservice, fun {Query} params entity => ?_⟩
  intro enabled
  have hsame : enabled →
      compile ⟨⟨smaller, settings.reserved⟩, settings.defaultPageSize⟩ params entity =
        full.compile params entity := by
    intro henabled
    have hplan : Dialect.plan ⟨smaller, settings.reserved⟩ params =
        Dialect.plan ⟨.builtin, settings.reserved⟩ params := by
      apply Registry.plan_congr
      intro occurrence hoccurrence
      rw [Registry.get?_remove hsmaller, if_neg (henabled occurrence hoccurrence)]
    rw [compile, compile, Dialect.compile_congr_of_plan hplan]
  refine ⟨fun compiled => ?_, hsame⟩
  constructor
  · intro hcompiled
    have henabled : enabled := by
      intro occurrence hoccurrence hdisabled
      obtain ⟨hplan, -⟩ := Dialect.run_of_compile (compile_eq_ok_iff.mp hcompiled)
      apply Registry.get?_ne_none_of_plan hplan hoccurrence
      rw [Registry.get?_remove hsmaller, if_pos hdisabled]
    exact ⟨(hsame henabled).symm.trans hcompiled, henabled⟩
  · rintro ⟨hcompiled, henabled⟩
    exact (hsame henabled).trans hcompiled

/-- `limit` and `with` are disabled. A page number under the reserved name `limit` uses neither, and
its request fails as in the full service; a request for a relation compiles in the full one only. -/
theorem disabling_is_conservative_reserved_limit :
    let settings : Settings :=
      { reserved := { page := "limit" }, disabled := ["limit", "with"] }
    let full : Service := ⟨⟨.builtin, settings.reserved⟩, settings.defaultPageSize⟩
    let entity := (Model.mk "User" "users" none ["posts"] (.allOf "users")).entity
    let faulty := Parameters.ofPairs
      [("order_by", "-age"), ("limit", "2"), ("where", "a:is:1"), ("offset", "x")]
    let related := Parameters.ofPairs [("limit", "2"), ("with", "posts"), ("order_by", "-age")]
    ∃ service, ofSettings settings = .ok service ∧
      service.compile faulty entity = full.compile faulty entity ∧
      (∃ compiled, full.compile related entity = .ok compiled) ∧
      ∀ compiled, service.compile related entity ≠ .ok compiled := by
  intro settings full entity faulty related
  have hvalid : settings.validate = .ok () := by
    dsimp only [settings]
    rfl
  obtain ⟨-, service, hservice, hall⟩ :=
    disabling_is_conservative hvalid (by decide) (by decide)
  refine ⟨service, hservice, (hall faulty entity).2 (by decide), ⟨_, rfl⟩, ?_⟩
  intro compiled hcompiled
  have henabled := (((hall related entity).1 compiled).mp hcompiled).2
  exact henabled ⟨"with", "posts"⟩ (by decide) (by decide)

end Service

end ParamQuery
