import ParamQuery.Proofs.Acceptance
import ParamQuery.Proofs.Occurrences

/-!
# The order of independent directives

Each directive changes one part of a query, and whether it is refused hangs on the model alone. So
the entries of a request may change places as long as the filters keep their order among themselves
and the two scope toggles keep theirs: the request compiles as before, and to the same query.
-/

namespace ParamQuery

/-- Where keys are distinct, a change of order moves no two pairs of one key. -/
lemma filter_key_eq_of_perm {β : Type} {pairs others : List (String × β)} (h : pairs.Perm others)
    (hdistinct : (pairs.map Prod.fst).Nodup) (key : String) :
    pairs.filter (fun pair => pair.1 == key) = others.filter (fun pair => pair.1 == key) := by
  have happart : pairs.Pairwise fun a b => a.1 ≠ b.1 := List.pairwise_map.mp hdistinct
  have hothers : others.Pairwise fun a b => a.1 ≠ b.1 :=
    List.pairwise_map.mp ((h.map Prod.fst).nodup_iff.mp hdistinct)
  refine List.Perm.eq_of_pairwise ?_ (happart.filter _) (hothers.filter _) (h.filter _)
  intro a b ha hb hne _
  have hkeys : a.1 = key ∧ b.1 = key := by
    constructor
    · simpa using (List.mem_filter.mp ha).2
    · simpa using (List.mem_filter.mp hb).2
  exact absurd (hkeys.1.trans hkeys.2.symm) hne

open DirectiveKind

/-- What a request denotes hangs on the order of its filters, of its toggles and of the occurrences
of each name. -/
lemma Request.denotation_congr (model : Model) {occurrences others : List Occurrence}
    (hfilters : occurrences.filter (fun occurrence => isFilterName occurrence.name) =
      others.filter fun occurrence => isFilterName occurrence.name)
    (htoggles : occurrences.filter (fun occurrence => isToggleName occurrence.name) =
      others.filter fun occurrence => isToggleName occurrence.name)
    (hnames : ∀ name, occurrences.filter (fun occurrence => occurrence.name == name) =
      others.filter fun occurrence => occurrence.name == name) :
    denotation model (occurrences.map Occurrence.request) =
      denotation model (others.map Occurrence.request) := by
  have hne : ∀ {occurrence : Occurrence} {name : String}, (occurrence.name == name) = false →
      occurrence.name ≠ name := fun h => by simpa using h
  have hcolumns := filterMap_eq_of_filter_eq
    (fun occurrence h => (Occurrence.asksByName occurrence).columns (hne h)) (hnames "columns")
  have hpredicates := filterMap_eq_of_filter_eq
    (fun occurrence h => (Occurrence.asksByName occurrence).filter h) hfilters
  have hsorts := flatMap_eq_of_filter_eq
    (fun occurrence h => (Occurrence.asksByName occurrence).sortKeys (hne h)) (hnames "order_by")
  have hrelations := flatMap_eq_of_filter_eq
    (fun occurrence h => (Occurrence.asksByName occurrence).relations (hne h)) (hnames "with")
  have hlimits := filterMap_eq_of_filter_eq
    (fun occurrence h => (Occurrence.asksByName occurrence).limit (hne h)) (hnames "limit")
  have hoffsets := filterMap_eq_of_filter_eq
    (fun occurrence h => (Occurrence.asksByName occurrence).offset (hne h)) (hnames "offset")
  have htoggled := filterMap_eq_of_filter_eq
    (fun occurrence h => (Occurrence.asksByName occurrence).toggled h) htoggles
  have hforced := filterMap_eq_of_filter_eq
    (fun occurrence h => (Occurrence.asksByName occurrence).forced (hne h)) (hnames "force")
  simp only [Request.denotation, List.filterMap_map, List.flatMap_map, Function.comp_def, hcolumns,
    hpredicates, hsorts, hrelations, hlimits, hoffsets, htoggled, hforced]

namespace Parameters

/-- The names of parameters with their texts; whether a lone text is a list does not show. -/
def content (params : Parameters) : List (String × List String) :=
  params.entries.map fun entry => (entry.1, entry.2.texts)

lemma map_fst_content (params : Parameters) : params.content.map Prod.fst = params.names := by
  rw [content, names, List.map_map]
  rfl

lemma occurrences_eq_flatMap_content (params : Parameters) :
    params.occurrences =
      params.content.flatMap fun entry => entry.2.map fun raw => ⟨entry.1, raw⟩ := by
  rw [occurrences, content, List.flatMap_map]

lemma content_without (params : Parameters) (reserved : ReservedNames) :
    (params.without reserved).content =
      params.content.filter fun entry => !reserved.contains entry.1 := by
  rw [content, content, List.filter_map]
  rfl

lemma filter_occurrences_eq_of_content {params others : Parameters} (keep : String → Bool)
    (h : params.content.filter (fun entry => keep entry.1) =
      others.content.filter fun entry => keep entry.1) :
    params.occurrences.filter (fun occurrence => keep occurrence.name) =
      others.occurrences.filter fun occurrence => keep occurrence.name := by
  have hkept : ∀ given : Parameters, given.occurrences.filter (fun o => keep o.name) =
      (given.content.filter fun entry => keep entry.1).flatMap
        fun entry => entry.2.map fun raw => ⟨entry.1, raw⟩ := by
    intro given
    rw [filter_name_occurrences, occurrences_eq_flatMap_content, content, content, List.filter_map]
    rfl
  rw [hkept, h, hkept]

/-- The same entries in another order, which leaves the filters in order among themselves, and the
scope toggles among themselves. -/
structure Rearranged (params others : Parameters) : Prop where
  same : params.content.Perm others.content
  filters : params.content.filter (fun entry => isFilterName entry.1) =
    others.content.filter fun entry => isFilterName entry.1
  toggles : params.content.filter (fun entry => isToggleName entry.1) =
    others.content.filter fun entry => isToggleName entry.1

namespace Rearranged

variable {params others : Parameters}

lemma without (h : params.Rearranged others) (reserved : ReservedNames) :
    (params.without reserved).Rearranged (others.without reserved) where
  same := by
    rw [content_without, content_without]
    exact h.same.filter _
  filters := by
    rw [content_without, content_without, List.filter_comm, h.filters, List.filter_comm]
  toggles := by
    rw [content_without, content_without, List.filter_comm, h.toggles, List.filter_comm]

lemma mem_occurrences_iff (h : params.Rearranged others) (occurrence : Occurrence) :
    occurrence ∈ params.occurrences ↔ occurrence ∈ others.occurrences := by
  rw [occurrences_eq_flatMap_content, occurrences_eq_flatMap_content]
  exact (h.same.flatMap_right _).mem_iff

/-- Rearranged occurrences, with `force` moved to the end, denote the same query. -/
lemma denotation_eq (h : params.Rearranged others) (hdistinct : params.names.Nodup)
    (model : Model) (isForce : Occurrence → Bool) :
    Request.denotation model ((forceLast isForce params.occurrences).map Occurrence.request) =
      Request.denotation model ((forceLast isForce others.occurrences).map Occurrence.request) := by
  apply Request.denotation_congr
  · rw [filter_forceLast, filter_occurrences_eq_of_content _ h.filters, filter_forceLast]
  · rw [filter_forceLast, filter_occurrences_eq_of_content _ h.toggles, filter_forceLast]
  · intro name
    rw [← map_fst_content] at hdistinct
    have hname := filter_key_eq_of_perm h.same hdistinct name
    rw [filter_forceLast, filter_forceLast,
      filter_occurrences_eq_of_content (fun known => known == name) hname]

end Rearranged

end Parameters

/-- Independent directives commute. A request over the built-in directives and the same request
rearranged, with its filters in order and its toggles in order, compile against the same models,
and then to the same query. -/
theorem Dialect.independent_directives_commute (model : Model) (reserved : ReservedNames)
    {params others : Parameters} (hdistinct : params.names.Nodup)
    (h : params.Rearranged others) :
    ((∃ compiled, compile ⟨.builtin, reserved⟩ params model.entity = .ok compiled) ↔
      ∃ compiled, compile ⟨.builtin, reserved⟩ others model.entity = .ok compiled) ∧
    ∀ compiled rearranged, compile ⟨.builtin, reserved⟩ params model.entity = .ok compiled →
      compile ⟨.builtin, reserved⟩ others model.entity = .ok rearranged →
        compiled.query = rearranged.query := by
  have hdirectives := h.without reserved
  constructor
  · rw [exists_compile_iff, exists_compile_iff]
    simp only [hdirectives.mem_occurrences_iff]
  · intro compiled rearranged hcompiled hrearranged
    rw [query_of_compile hcompiled, query_of_compile hrearranged]
    exact hdirectives.denotation_eq (Parameters.nodup_names_without hdistinct reserved) model _

/-- The scope is forced first or last, an entry for paging stands between directives, a lone text is
given as a list, and the two filters and the two toggles keep their order. -/
theorem Dialect.independent_directives_commute_force_first :
    let model : Model := ⟨"User", "users", some "deleted_at", ["posts", "roles"], .allOf "users"⟩
    let params : Parameters := ⟨[("force", .single "only_trashed"), ("limit", .multi ["5", "7"]),
      ("where", .multi ["a:eq:1", "b:gt:2"]), ("with_trashed", .single ""), ("page", .single "3"),
      ("or_where", .single "c:eq:null"), ("order_by", .single "-age"),
      ("only_trashed", .single "")]⟩
    let others : Parameters := ⟨[("where", .multi ["a:eq:1", "b:gt:2"]),
      ("order_by", .multi ["-age"]), ("or_where", .single "c:eq:null"),
      ("with_trashed", .single ""), ("only_trashed", .single ""), ("limit", .multi ["5", "7"]),
      ("force", .single "only_trashed"), ("page", .single "3")]⟩
    params.names.Nodup ∧ params.Rearranged others ∧
      ∃ compiled rearranged, compile ⟨.builtin, {}⟩ params model.entity = .ok compiled ∧
        compile ⟨.builtin, {}⟩ others model.entity = .ok rearranged ∧
        compiled.query = rearranged.query := by
  intro model params others
  have hdistinct : params.names.Nodup := by decide
  have hrearranged : params.Rearranged others :=
    ⟨by decide, by decide, by decide⟩
  have hsome : ∃ compiled, compile ⟨.builtin, {}⟩ params model.entity = .ok compiled := ⟨_, rfl⟩
  obtain ⟨hiff, hqueries⟩ := independent_directives_commute model {} hdistinct hrearranged
  obtain ⟨compiled, hcompiled⟩ := hsome
  obtain ⟨rearranged, hothers⟩ := hiff.mp ⟨compiled, hcompiled⟩
  exact ⟨hdistinct, hrearranged, compiled, rearranged, hcompiled, hothers,
    hqueries compiled rearranged hcompiled hothers⟩

end ParamQuery
