import ParamQuery.Proofs.Restriction

/-!
# The names that can be disabled

Disabled names are removed one after the other, and each is judged by the registry that the names
before it have left. A name that is given twice is gone when its second turn comes, so a list goes
through just if its names are bound and distinct. Otherwise the first name that is not bound, or is
not bound any more, is reported as unknown.
-/

namespace ParamQuery

namespace Registry

variable {registry next : Registry} {names rest : List String} {first name : String}

lemma contains_of_unregister (h : registry.unregister first = .ok next) (other : String) :
    next.contains other = true ↔ other ≠ first ∧ registry.contains other = true := by
  rw [contains, get?_unregister h]
  by_cases hother : other = first <;> simp [hother, contains]

lemma exists_unregister_iff :
    (∃ next, registry.unregister name = .ok next) ↔ registry.contains name = true := by
  rw [unregister]
  by_cases h : registry.contains name = true <;> simp [h]

/-- The names before the given one can all be removed, and then it is not bound. -/
def StopsAt (registry : Registry) (names : List String) (name : String) : Prop :=
  ∃ before after, names = before ++ name :: after ∧ before.Nodup ∧
    (∀ other ∈ before, registry.contains other = true) ∧
    (registry.contains name = true → name ∈ before)

lemma stopsAt_cons_of_unbound (h : ¬registry.contains first = true) :
    registry.StopsAt (first :: rest) name ↔ name = first := by
  constructor
  · rintro ⟨before, after, hnames, -, hbound, -⟩
    cases before with
    | nil => exact (List.cons.inj hnames).1.symm
    | cons other before =>
      cases hnames
      exact absurd (hbound first List.mem_cons_self) h
  · rintro rfl
    exact ⟨[], rest, rfl, List.nodup_nil, by simp, fun hname => absurd hname h⟩

/-- A name that is removed counts as one of those before all the others. -/
lemma stopsAt_cons_of_unregister (h : registry.unregister first = .ok next) :
    registry.StopsAt (first :: rest) name ↔ next.StopsAt rest name := by
  have hkept := contains_of_unregister h
  have hfirst : registry.contains first = true := exists_unregister_iff.mp ⟨next, h⟩
  constructor
  · rintro ⟨before, after, hnames, hdistinct, hbound, hname⟩
    cases before with
    | nil =>
      cases hnames
      exact absurd (hname hfirst) List.not_mem_nil
    | cons other before =>
      cases hnames
      obtain ⟨hnew, hdistinct⟩ := List.nodup_cons.mp hdistinct
      -- names other than `first` are bound afterwards just if they were bound before
      refine ⟨before, after, rfl, hdistinct, fun other hother => ?_, fun hleft => ?_⟩
      · exact (hkept other).mpr
          ⟨fun hsame => hnew (hsame ▸ hother), hbound other (List.mem_cons_of_mem first hother)⟩
      · obtain ⟨hne, hgiven⟩ := (hkept name).mp hleft
        exact (List.mem_cons.mp (hname hgiven)).resolve_left hne
  · rintro ⟨before, after, rfl, hdistinct, hbound, hname⟩
    refine ⟨first :: before, after, rfl, ?_, ?_, fun hgiven => ?_⟩
    · exact List.nodup_cons.mpr
        ⟨fun hmem => ((hkept first).mp (hbound first hmem)).1 rfl, hdistinct⟩
    · exact List.forall_mem_cons.mpr
        ⟨hfirst, fun other hother => ((hkept other).mp (hbound other hother)).2⟩
    · by_cases hsame : name = first
      · exact hsame ▸ List.mem_cons_self
      · exact List.mem_cons_of_mem first (hname ((hkept name).mpr ⟨hsame, hgiven⟩))

theorem remove_stops_iff :
    (∃ smaller, registry.remove names = (smaller, some name)) ↔ registry.StopsAt names name := by
  induction names generalizing registry with
  | nil => simp [remove, StopsAt]
  | cons first rest ih =>
    rw [remove]
    cases hfirst : registry.unregister first with
    | error fault =>
      have hunbound : ¬registry.contains first = true := by
        rw [← exists_unregister_iff, hfirst]
        simp
      rw [stopsAt_cons_of_unbound hunbound]
      simp [eq_comm]
    | ok next =>
      rw [stopsAt_cons_of_unregister hfirst]
      exact ih

/-- A removal goes through just if its names are distinct and bound. -/
theorem remove_goes_through_iff :
    (∃ smaller, registry.remove names = (smaller, none)) ↔
      names.Nodup ∧ ∀ name ∈ names, registry.contains name = true := by
  refine ⟨?_, fun ⟨hdistinct, hbound⟩ => exists_remove_of_nodup hdistinct hbound⟩
  rintro ⟨smaller, h⟩
  induction names generalizing registry with
  | nil => exact ⟨List.nodup_nil, fun name hname => absurd hname List.not_mem_nil⟩
  | cons first rest ih =>
    rw [remove] at h
    cases hfirst : registry.unregister first with
    | error fault => simp [hfirst] at h
    | ok next =>
      rw [hfirst] at h
      obtain ⟨hdistinct, hbound⟩ := ih h
      have hkept : ∀ name ∈ rest, name ≠ first ∧ registry.contains name = true :=
        fun name hname => (contains_of_unregister hfirst name).mp (hbound name hname)
      exact ⟨List.nodup_cons.mpr ⟨fun hmem => (hkept first hmem).1 rfl, hdistinct⟩,
        List.forall_mem_cons.mpr ⟨exists_unregister_iff.mp ⟨next, hfirst⟩,
          fun name hname => (hkept name hname).2⟩⟩

end Registry

namespace Service

variable {settings : Settings} {registry : Registry} {service : Service}

/-- Valid settings set up a service over what is left of the registry. -/
lemma ofParts_eq_ok_iff (hvalid : settings.validate = .ok ()) :
    ofParts settings registry = .ok service ↔
      ∃ smaller, registry.remove settings.disabled = (smaller, none) ∧
        service = ⟨⟨smaller, settings.reserved⟩, settings.defaultPageSize⟩ := by
  rw [ofParts, hvalid, Settings.restrict]
  obtain ⟨smaller, _ | name⟩ := registry.remove settings.disabled
  · simp [bind, Except.bind, pure, Except.pure, eq_comm]
  · simp [bind, Except.bind]

lemma ofParts_eq_error_iff (hvalid : settings.validate = .ok ()) {fault : SettingsError} :
    ofParts settings registry = .error fault ↔
      ∃ name, (∃ smaller, registry.remove settings.disabled = (smaller, some name)) ∧
        fault = .unknownDirective name := by
  rw [ofParts, hvalid, Settings.restrict]
  obtain ⟨smaller, _ | name⟩ := registry.remove settings.disabled
  · simp [bind, Except.bind, pure, Except.pure]
  · simp [bind, Except.bind, eq_comm]

/-- Valid settings set a service up just if the names that they disable are bound and distinct. The
service then binds all other names as before. Otherwise the fault is an unknown directive, and its
name is the first one that is not bound in the registry given or has been disabled already. -/
theorem disabled_names_bound_once_iff (hvalid : settings.validate = .ok ()) (registry : Registry) :
    ((∃ service, ofParts settings registry = .ok service) ↔
      settings.disabled.Nodup ∧ ∀ name ∈ settings.disabled, registry.contains name = true) ∧
    (∀ service, ofParts settings registry = .ok service → ∀ name,
      service.dialect.registry.get? name =
        if name ∈ settings.disabled then none else registry.get? name) ∧
    (∀ fault, ofParts settings registry = .error fault ↔
      ∃ name, registry.StopsAt settings.disabled name ∧ fault = .unknownDirective name) := by
  refine ⟨?_, ?_, ?_⟩
  · rw [← Registry.remove_goes_through_iff]
    constructor
    · rintro ⟨service, hservice⟩
      obtain ⟨smaller, hremove, -⟩ := (ofParts_eq_ok_iff hvalid).mp hservice
      exact ⟨smaller, hremove⟩
    · rintro ⟨smaller, hremove⟩
      exact ⟨_, (ofParts_eq_ok_iff hvalid).mpr ⟨smaller, hremove, rfl⟩⟩
  · intro service hservice name
    obtain ⟨smaller, hremove, rfl⟩ := (ofParts_eq_ok_iff hvalid).mp hservice
    exact Registry.get?_remove hremove name
  · intro fault
    simp only [ofParts_eq_error_iff hvalid, Registry.remove_stops_iff]

/-- Two directives are disabled, and then one of them again before a name that is not bound. -/
theorem disabled_names_bound_once_iff_repeated :
    let once : Settings := { disabled := ["with", "force"] }
    let again : Settings := { disabled := ["with", "force", "with", "teleport"] }
    (once.validate = .ok () ∧ ∃ service, ofParts once .builtin = .ok service ∧
      service.dialect.registry.get? "force" = none ∧
      service.dialect.registry.get? "limit" = some .limit) ∧
    again.validate = .ok () ∧ ofParts again .builtin = .error (.unknownDirective "with") := by
  intro once again
  have honce : once.validate = .ok () := by
    dsimp only [once]
    rfl
  have hagain : again.validate = .ok () := by
    dsimp only [again]
    rfl
  obtain ⟨hexists, hbinds, -⟩ := disabled_names_bound_once_iff honce .builtin
  obtain ⟨service, hservice⟩ := hexists.mpr ⟨by decide, by decide⟩
  refine ⟨⟨honce, service, hservice, hbinds service hservice "force",
    hbinds service hservice "limit"⟩, hagain, ?_⟩
  exact ((disabled_names_bound_once_iff hagain .builtin).2.2 _).mpr
    ⟨"with", ⟨["with", "force"], ["teleport"], rfl, by decide, by decide, by decide⟩, rfl⟩

/-- A directive that is disabled twice is bound, and yet it is reported as unknown. -/
theorem directive_disabled_twice_is_unknown :
    let settings : Settings := { disabled := ["force", "force"] }
    settings.validate = .ok () ∧
      (∀ name ∈ settings.disabled, Registry.builtin.contains name = true) ∧
      ofParts settings .builtin = .error (.unknownDirective "force") := by
  intro settings
  have hvalid : settings.validate = .ok () := by
    dsimp only [settings]
    rfl
  refine ⟨hvalid, by decide, (ofParts_eq_error_iff hvalid).mpr ⟨"force", ?_, rfl⟩⟩
  exact ⟨_, rfl⟩

end Service

end ParamQuery
