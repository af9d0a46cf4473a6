import ParamQuery.Proofs.Acceptance
import ParamQuery.Proofs.Occurrences
import ParamQuery.Query.Execution

/-!
# Adding a filter to a request

A filter that is added to a request joins the chain right after the others of its name, so it may
come to stand between filters that were there before. Both ways to join a filter are monotone in
the tree that it joins, and the filters after it carry on what it gains or loses: one more AND
filter lets no further row in, and one more OR filter shuts no row out unless it is the only filter
of its request.
-/

namespace ParamQuery

namespace Request

variable {row : Row} {before after : List (Conjunction × Predicate)} {filter : Predicate}

/-- Each filter of a chain is monotone in the tree before it, so the whole chain is. -/
lemma eval_foldl_join_mono (rest : List (Conjunction × Predicate)) {tree larger : Predicate}
    (h : tree.eval row = true → larger.eval row = true) :
    (rest.foldl (fun tree next => Predicate.join (some tree) next.1 next.2) tree).eval row = true →
      (rest.foldl (fun tree next => Predicate.join (some tree) next.1 next.2) larger).eval row =
        true := by
  induction rest generalizing tree larger with
  | nil => exact h
  | cons next rest ih =>
    obtain ⟨conjunction, filter⟩ := next
    apply ih
    cases conjunction with
    | and =>
      simp only [Predicate.eval_join_and, Bool.and_eq_true]
      exact fun hboth => ⟨h hboth.1, hboth.2⟩
    | or =>
      simp only [Predicate.eval_join_or, Bool.or_eq_true]
      exact Or.imp_left h

/-- Whether a row satisfies a chain of filters; every row satisfies the empty chain. -/
def satisfied (filters : List (Conjunction × Predicate)) (row : Row) : Bool :=
  (joined filters).all (·.eval row)

/-- An AND filter shuts rows out unless it becomes the root, so it may come first only where it is
the whole chain. -/
lemma satisfied_of_insert_and (hroot : before = [] → after = [])
    (h : satisfied (before ++ (.and, filter) :: after) row = true) :
    satisfied (before ++ after) row = true := by
  cases before with
  | nil =>
    rw [hroot rfl]
    rfl
  | cons root before =>
    simp only [satisfied, List.cons_append, joined, Option.all_some, List.foldl_append,
      List.foldl_cons] at h ⊢
    refine eval_foldl_join_mono after ?_ h
    rw [Predicate.eval_join_and, Bool.and_eq_true]
    exact And.left

/-- An OR filter with a filter before it lets rows in. -/
lemma satisfied_insert_or (hroot : before ≠ []) (h : satisfied (before ++ after) row = true) :
    satisfied (before ++ (.or, filter) :: after) row = true := by
  cases before with
  | nil => exact absurd rfl hroot
  | cons root before =>
    simp only [satisfied, List.cons_append, joined, Option.all_some, List.foldl_append,
      List.foldl_cons] at h ⊢
    refine eval_foldl_join_mono after ?_ h
    rw [Predicate.eval_join_or, Bool.or_eq_true]
    exact Or.inl

end Request

namespace Occurrence

open DirectiveKind

/-- The filters that occurrences ask for. -/
def filters (occurrences : List Occurrence) : List (Conjunction × Predicate) :=
  occurrences.filterMap fun occurrence => occurrence.request.filter?

lemma filters_append (first second : List Occurrence) :
    filters (first ++ second) = filters first ++ filters second :=
  List.filterMap_append

lemma filters_cons_of_filter {occurrence : Occurrence} {link : Conjunction × Predicate}
    (h : occurrence.request.filter? = some link) (rest : List Occurrence) :
    filters (occurrence :: rest) = link :: filters rest := by
  simp [filters, h]

/-- A filter that can be read is asked for, and joins as its name says. -/
lemma filter?_of_faultless {occurrence : Occurrence} {conjunction : Conjunction}
    (hname : occurrence.name ∈ filterNames conjunction)
    (h : Registry.builtin.fault? occurrence = none) :
    ∃ filter, occurrence.request.filter? = some (conjunction, filter) := by
  obtain ⟨form, hkind⟩ := mem_filterNames_iff.mp hname
  obtain ⟨reading, hread⟩ := exists_reading_of_faultless hkind h
  obtain ⟨found, hfound, -⟩ := bind_eq_ok_iff.mp hread
  refine ⟨found.predicate, ?_⟩
  rw [request, hkind]
  exact congrArg (fun given => given.toOption.map fun filter => (conjunction, filter.predicate))
    hfound

/-- A filter asks for no scope. -/
lemma scopes_of_isFilterName {occurrence : Occurrence} (h : isFilterName occurrence.name = true) :
    occurrence.request.toggled? = none ∧ occurrence.request.forced? = none := by
  obtain ⟨conjunction, hname⟩ := isFilterName_iff.mp h
  obtain ⟨form, hkind⟩ := mem_filterNames_iff.mp hname
  rw [request, hkind]
  exact ⟨rfl, rfl⟩

/-- Forced occurrences are no filters, so moving them leaves the filters as they stand. -/
lemma filters_forceLast (occurrences : List Occurrence) :
    filters (forceLast (fun occurrence => occurrence.name == "force") occurrences) =
      filters occurrences := by
  have hforced : ∀ occurrence ∈ occurrences.filter (fun occurrence => isFilterName occurrence.name),
      (occurrence.name == "force") = false := by
    intro occurrence hmem
    have hfilter := (List.mem_filter.mp hmem).2
    rw [beq_eq_false_iff_ne]
    intro hname
    rw [hname] at hfilter
    exact absurd hfilter (by decide)
  have hkept := filter_forceLast (fun occurrence => isFilterName occurrence.name)
    (fun occurrence => occurrence.name == "force") occurrences
  rw [forceLast_eq_self hforced] at hkept
  exact filterMap_eq_of_filter_eq (fun occurrence h => (asksByName occurrence).filter h) hkept

end Occurrence

namespace Parameters

/-- Each pair is an occurrence of its name. -/
lemma mem_occurrences_ofPairs {pairs : List (String × String)} {pair : String × String}
    (h : pair ∈ pairs) : ⟨baseName pair.1, pair.2⟩ ∈ (ofPairs pairs).occurrences := by
  have hname := filter_occurrences (nodup_names_ofPairs pairs) (baseName pair.1)
  rw [textsOf_ofPairs, List.map_map] at hname
  refine (List.mem_filter.mp (hname ▸ List.mem_map.mpr ⟨pair, ?_, rfl⟩)).1
  exact List.mem_filter.mpr ⟨h, beq_self_eq_true _⟩

/-- A pair of a name that is not reserved is one more occurrence among the directives. -/
lemma occurrences_without_concat {reserved : ReservedNames} {key : String}
    (hfree : reserved.contains (baseName key) = false) (pairs : List (String × String))
    (text : String) :
    ∃ before after, ((ofPairs pairs).without reserved).occurrences = before ++ after ∧
      ((ofPairs (pairs ++ [(key, text)])).without reserved).occurrences =
        before ++ ⟨baseName key, text⟩ :: after ∧
      (after ≠ [] → ∃ raw, ⟨baseName key, raw⟩ ∈ before) := by
  have hpairs : reserved.directivePairs (pairs ++ [(key, text)]) =
      reserved.directivePairs pairs ++ [(key, text)] := by
    simp [ReservedNames.directivePairs, hfree]
  rw [without_ofPairs, without_ofPairs, hpairs]
  exact occurrences_ofPairs_concat _ key text

end Parameters

/-- A query that accepts fewer rows counts fewer. -/
lemma Query.count_le_of_accepts {fewer more : Query}
    (h : ∀ row, fewer.accepts row = true → more.accepts row = true) (rows : List Row) :
    fewer.count rows ≤ more.count rows :=
  List.countP_mono_left fun row _ => h row

namespace Dialect

open DirectiveKind Parameters

variable {model : Model} {reserved : ReservedNames} {params others : Parameters}
  {compiled extended : Compiled Query}

/-- The predicate of a compiled request is the chain of its filters as they stand. -/
lemma predicate_of_compile (h : compile ⟨.builtin, reserved⟩ params model.entity = .ok compiled) :
    compiled.query.predicate =
      Request.joined (Occurrence.filters (params.without reserved).occurrences) := by
  rw [query_of_compile h, ← Occurrence.filters_forceLast]
  exact congrArg Request.joined List.filterMap_map

/-- Requests that differ by filters only show the same rows of a scope. -/
lemma inScope_of_compile (h : compile ⟨.builtin, reserved⟩ params model.entity = .ok compiled)
    (hothers : compile ⟨.builtin, reserved⟩ others model.entity = .ok extended)
    (hsame : (params.without reserved).occurrences.filter
        (fun occurrence => !isFilterName occurrence.name) =
      (others.without reserved).occurrences.filter fun occurrence => !isFilterName occurrence.name)
    (row : Row) : compiled.query.inScope row = extended.query.inScope row := by
  have hmoved : ∀ given : Parameters,
      (forceLast (fun occurrence => occurrence.name == "force") given.occurrences).filter
          (fun occurrence => !isFilterName occurrence.name) =
        forceLast (fun occurrence => occurrence.name == "force")
          (given.occurrences.filter fun occurrence => !isFilterName occurrence.name) :=
    fun given => filter_forceLast _ _ _
  have hfree : ∀ occurrence : Occurrence, (!isFilterName occurrence.name) = false →
      occurrence.request.toggled? = none ∧ occurrence.request.forced? = none :=
    fun occurrence h => Occurrence.scopes_of_isFilterName (by simpa using h)
  have hlist := (hmoved (params.without reserved)).trans
    ((congrArg _ hsame).trans (hmoved (others.without reserved)).symm)
  have htoggled := filterMap_eq_of_filter_eq (fun occurrence h => (hfree occurrence h).1) hlist
  have hforced := filterMap_eq_of_filter_eq (fun occurrence h => (hfree occurrence h).2) hlist
  rw [query_of_compile h, query_of_compile hothers]
  simp only [Query.inScope, Request.denotation, List.filterMap_map, Function.comp_def, htoggled,
    hforced]

/-- A pair of a reserved name changes nothing that is compiled. -/
lemma compile_concat_of_reserved {Query : Type} {dialect : Dialect} {entity : Entity Query}
    {key : String} (h : dialect.reserved.contains (baseName key) = true)
    (pairs : List (String × String)) (text : String) :
    dialect.compile (.ofPairs (pairs ++ [(key, text)])) entity =
      dialect.compile (.ofPairs pairs) entity := by
  have hpairs : dialect.reserved.directivePairs (pairs ++ [(key, text)]) =
      dialect.reserved.directivePairs pairs := by
    simp [ReservedNames.directivePairs, h]
  apply compile_congr
  rw [without_ofPairs, without_ofPairs, hpairs]

/-- A row is accepted if it is in scope and satisfies the chain of filters. -/
lemma accepts_of_compile (h : compile ⟨.builtin, reserved⟩ params model.entity = .ok compiled)
    (row : Row) : compiled.query.accepts row = (compiled.query.inScope row &&
      Request.satisfied (Occurrence.filters (params.without reserved).occurrences) row) := by
  rw [Query.accepts, predicate_of_compile h]
  rfl

/-- Each occurrence of a filter in a request that compiles is a link of its chain. -/
lemma filters_ne_nil_of_compile
    (h : compile ⟨.builtin, reserved⟩ params model.entity = .ok compiled)
    {occurrences : List Occurrence} {occurrence : Occurrence}
    (hsub : occurrences ⊆ (params.without reserved).occurrences) (hmem : occurrence ∈ occurrences)
    (hname : isFilterName occurrence.name = true) : Occurrence.filters occurrences ≠ [] := by
  obtain ⟨conjunction, hname⟩ := isFilterName_iff.mp hname
  have hread := faultless_of_compile h occurrence (hsub hmem)
  obtain ⟨filter, hfilter⟩ := Occurrence.filter?_of_faultless hname hread
  exact List.ne_nil_of_mem (List.mem_filterMap.mpr ⟨occurrence, hmem, hfilter⟩)

/-- A filter that is added to a request leaves its scope as it is and joins its chain, and it is the
root of the new chain only if it is all of it. -/
lemma chain_of_added {pairs : List (String × String)} {key text : String}
    {conjunction : Conjunction} (hname : baseName key ∈ filterNames conjunction)
    (hfree : reserved.contains (baseName key) = false)
    (h : compile ⟨.builtin, reserved⟩ (.ofPairs pairs) model.entity = .ok compiled)
    (hextended : compile ⟨.builtin, reserved⟩ (.ofPairs (pairs ++ [(key, text)])) model.entity =
      .ok extended) :
    ∃ before filter after, (before = [] → after = []) ∧
      Occurrence.filters ((ofPairs pairs).without reserved).occurrences = before ++ after ∧
      ∀ row, extended.query.accepts row = (compiled.query.inScope row &&
        Request.satisfied (before ++ (conjunction, filter) :: after) row) := by
  obtain ⟨before, after, hsplit, hadded, hown⟩ := occurrences_without_concat hfree pairs text
  have hisFilter := isFilterName_iff.mpr ⟨conjunction, hname⟩
  have hread := faultless_of_compile hextended ⟨baseName key, text⟩ (by simp [hadded])
  obtain ⟨filter, hfilter⟩ := Occurrence.filter?_of_faultless hname hread
  have hsame : ((ofPairs pairs).without reserved).occurrences.filter
        (fun occurrence => !isFilterName occurrence.name) =
      ((ofPairs (pairs ++ [(key, text)])).without reserved).occurrences.filter
        fun occurrence => !isFilterName occurrence.name := by
    simp [hsplit, hadded, hisFilter]
  refine ⟨Occurrence.filters before, filter, Occurrence.filters after, ?_, ?_, ?_⟩
  · intro hnil
    -- filters after the new one stand after others of its name, which come before it
    by_cases hafter : after = []
    · rw [hafter]
      rfl
    · obtain ⟨raw, hraw⟩ := hown hafter
      have hbefore : before ⊆ ((ofPairs pairs).without reserved).occurrences := by
        rw [hsplit]
        exact List.subset_append_left _ _
      exact absurd hnil (filters_ne_nil_of_compile h hbefore hraw hisFilter)
  · rw [hsplit, Occurrence.filters_append]
  · intro row
    rw [accepts_of_compile hextended, inScope_of_compile h hextended hsame, hadded,
      Occurrence.filters_append, Occurrence.filters_cons_of_filter hfilter]

/-- Filter monotonicity. Let a request over the built-in directives compile with and without one
more pair at its end. If the pair is an AND filter, the longer request accepts no further row. If it
is an OR filter and the request has a filter, the longer request accepts every row that the shorter
one does. The counts over any rows follow suit. -/
theorem added_filter_monotone (model : Model) (reserved : ReservedNames)
    (pairs : List (String × String)) (key text : String) {original extended : Compiled Query}
    (horiginal : compile ⟨.builtin, reserved⟩ (.ofPairs pairs) model.entity = .ok original)
    (hextended : compile ⟨.builtin, reserved⟩ (.ofPairs (pairs ++ [(key, text)])) model.entity =
      .ok extended) :
    (baseName key ∈ filterNames .and →
      (∀ row, extended.query.accepts row = true → original.query.accepts row = true) ∧
      ∀ rows, extended.query.count rows ≤ original.query.count rows) ∧
    (baseName key ∈ filterNames .or →
      (∃ pair ∈ reserved.directivePairs pairs, isFilterName (baseName pair.1) = true) →
      (∀ row, original.query.accepts row = true → extended.query.accepts row = true) ∧
      ∀ rows, original.query.count rows ≤ extended.query.count rows) := by
  by_cases hreserved : reserved.contains (baseName key) = true
  · -- the two requests are the same to the directives
    rw [compile_concat_of_reserved hreserved, horiginal, Except.ok.injEq] at hextended
    subst hextended
    exact ⟨fun _ => ⟨fun _ => id, fun _ => le_rfl⟩, fun _ _ => ⟨fun _ => id, fun _ => le_rfl⟩⟩
  · rw [Bool.not_eq_true] at hreserved
    constructor
    · intro hname
      obtain ⟨before, filter, after, hroot, hchain, haccepts⟩ :=
        chain_of_added hname hreserved horiginal hextended
      have hwithin : ∀ row, extended.query.accepts row = true →
          original.query.accepts row = true := by
        intro row
        rw [haccepts, accepts_of_compile horiginal, hchain, Bool.and_eq_true, Bool.and_eq_true]
        exact And.imp_right (Request.satisfied_of_insert_and hroot)
      exact ⟨hwithin, Query.count_le_of_accepts hwithin⟩
    · rintro hname ⟨pair, hpair, hfilter⟩
      obtain ⟨before, filter, after, hroot, hchain, haccepts⟩ :=
        chain_of_added hname hreserved horiginal hextended
      have hmem : ⟨baseName pair.1, pair.2⟩ ∈ ((ofPairs pairs).without reserved).occurrences := by
        rw [without_ofPairs]
        exact mem_occurrences_ofPairs hpair
      have hne := filters_ne_nil_of_compile horiginal (List.Subset.refl _) hmem hfilter
      have hbefore : before ≠ [] := by
        intro hnil
        rw [hchain, hnil, hroot hnil] at hne
        exact hne rfl
      have hwithin : ∀ row, original.query.accepts row = true →
          extended.query.accepts row = true := by
        intro row
        rw [haccepts, accepts_of_compile horiginal, hchain, Bool.and_eq_true, Bool.and_eq_true]
        exact And.imp_right (Request.satisfied_insert_or hbefore)
      exact ⟨hwithin, Query.count_le_of_accepts hwithin⟩

/-- The added filters come to stand after the first filter and after the second of three. -/
theorem added_filter_monotone_inner :
    let model : Model := ⟨"User", "users", some "deleted_at", ["posts"], .allOf "users"⟩
    let pairs := [("force", "with_trashed"), ("where", "a:eq:1"), ("or_where[]", "b:eq:2"),
      ("page", "3"), ("where_not_null", "c"), ("limit", "5")]
    ∃ original narrowed widened,
      compile ⟨.builtin, {}⟩ (.ofPairs pairs) model.entity = .ok original ∧
      compile ⟨.builtin, {}⟩ (.ofPairs (pairs ++ [("where[]", "c:gt:3")])) model.entity =
        .ok narrowed ∧
      compile ⟨.builtin, {}⟩ (.ofPairs (pairs ++ [("or_where", "c:gt:3")])) model.entity =
        .ok widened ∧
      (∀ rows, narrowed.query.count rows ≤ original.query.count rows) ∧
      ∀ rows, original.query.count rows ≤ widened.query.count rows := by
  intro model pairs
  have horiginal : ∃ original,
      compile ⟨.builtin, {}⟩ (.ofPairs pairs) model.entity = .ok original := ⟨_, rfl⟩
  have hnarrowed : ∃ narrowed,
      compile ⟨.builtin, {}⟩ (.ofPairs (pairs ++ [("where[]", "c:gt:3")])) model.entity =
        .ok narrowed := ⟨_, rfl⟩
  have hwidened : ∃ widened,
      compile ⟨.builtin, {}⟩ (.ofPairs (pairs ++ [("or_where", "c:gt:3")])) model.entity =
        .ok widened := ⟨_, rfl⟩
  obtain ⟨original, horiginal⟩ := horiginal
  obtain ⟨narrowed, hnarrowed⟩ := hnarrowed
  obtain ⟨widened, hwidened⟩ := hwidened
  have hwhere : baseName "where[]" ∈ filterNames .and := by decide
  have hor : baseName "or_where" ∈ filterNames .or := by decide
  have hfilter : ∃ pair ∈ ReservedNames.directivePairs {} pairs,
      isFilterName (baseName pair.1) = true := ⟨("where", "a:eq:1"), by decide, by decide⟩
  exact ⟨original, narrowed, widened, horiginal, hnarrowed, hwidened,
    ((added_filter_monotone model {} pairs _ _ horiginal hnarrowed).1 hwhere).2,
    ((added_filter_monotone model {} pairs _ _ horiginal hwidened).2 hor hfilter).2⟩

end Dialect

end ParamQuery
