import ParamQuery.Proofs.CallTrace
import ParamQuery.Recorder
import ParamQuery.Proofs.Grouping
import ParamQuery.Proofs.PageRequests

/-!
# Reserved names and directives

A request serves two readers. The pairs of reserved names say which page is wanted, and all
others are directives. Neither reader sees the pairs of the other, however the pairs are mixed
and however their keys are written. What counts is the name of a key and not the key, so a
reserved name that is itself written like a list key is not kept from the directives.
-/

namespace ParamQuery

namespace ReservedNames

/-- The pairs whose names are not reserved. -/
def directivePairs (reserved : ReservedNames) (pairs : List (String × String)) :
    List (String × String) :=
  pairs.filter fun pair => !reserved.contains (Parameters.baseName pair.1)

/-- The pairs whose names are reserved. -/
def pagingPairs (reserved : ReservedNames) (pairs : List (String × String)) :
    List (String × String) :=
  pairs.filter fun pair => reserved.contains (Parameters.baseName pair.1)

/-- A pair whose key is a reserved name is no directive if the name that it is grouped by is
reserved as well. -/
lemma directivePairs_filter_keys {reserved : ReservedNames}
    (h : ∀ stem, reserved.contains (stem ++ "[]") = true → reserved.contains stem = true)
    (pairs : List (String × String)) :
    reserved.directivePairs (pairs.filter fun pair => !reserved.contains pair.1) =
      reserved.directivePairs pairs := by
  rw [directivePairs, directivePairs, List.filter_filter]
  apply List.filter_congr
  intro pair _
  have hbase : reserved.contains pair.1 = true →
      reserved.contains (Parameters.baseName pair.1) = true := by
    intro hkey
    rw [Parameters.baseName]
    cases hlist : Parameters.listName? pair.1 with
    | none => exact hkey
    | some stem =>
      rw [Parameters.listName?_eq_some_iff.mp hlist] at hkey
      exact h stem hkey
  by_cases hkey : reserved.contains pair.1 = true
  · simp [hkey, hbase hkey]
  · simp [hkey]

end ReservedNames

namespace Parameters

/-- Taking names out of grouped pairs is grouping the pairs of the other names. -/
theorem without_ofPairs (reserved : ReservedNames) (pairs : List (String × String)) :
    (ofPairs pairs).without reserved = ofPairs (reserved.directivePairs pairs) := by
  induction pairs using List.reverseRecOn with
  | nil => rfl
  | append_singleton pairs pair ih =>
    rw [ofPairs_concat, push_eq_insert, without_insert, ih]
    by_cases h : reserved.contains (baseName pair.1) = true
    · simp [ReservedNames.directivePairs, h]
    · simp [ReservedNames.directivePairs, h, ofPairs_concat, push_eq_insert]

lemma textsOf_pagingPairs {reserved : ReservedNames} {name : String}
    (h : reserved.contains name = true) (pairs : List (String × String)) :
    (ofPairs (reserved.pagingPairs pairs)).textsOf name = (ofPairs pairs).textsOf name := by
  rw [textsOf_ofPairs, textsOf_ofPairs, ReservedNames.pagingPairs, List.filter_filter]
  congr 1
  apply List.filter_congr
  intro pair _
  by_cases hname : baseName pair.1 = name <;> simp [hname, h]

end Parameters

lemma PageRequest.ofParameters_congr {reserved : ReservedNames} {params others : Parameters}
    (h : ∀ name, reserved.contains name = true → params.textsOf name = others.textsOf name)
    (size total : UInt64) :
    ofParameters reserved size params total = ofParameters reserved size others total := by
  have hfirst : ∀ name, reserved.contains name = true →
      params.first? name = others.first? name := by
    intro name hname
    rw [Parameters.first?_eq_head?_textsOf, Parameters.first?_eq_head?_textsOf, h name hname]
  have hpage := hfirst reserved.page (by simp [ReservedNames.contains_iff])
  have hsize := hfirst reserved.perPage (by simp [ReservedNames.contains_iff])
  have hpaginate := hfirst reserved.paginate (by simp [ReservedNames.contains_iff])
  simp only [ofParameters, pageSizeOf, hpage, hsize, hpaginate]

namespace Dialect

variable {Query : Type} {dialect : Dialect} {params others : Parameters} {entity : Entity Query}

lemma compile_congr (h : params.without dialect.reserved = others.without dialect.reserved) :
    dialect.compile params entity = dialect.compile others entity := by
  rw [compile, compile, build, build, plan, plan, directives, directives, h]

/-- A compiled request has one step for each of its occurrences. -/
lemma length_plan_of_compile {compiled : Compiled Query}
    (h : dialect.compile params entity = .ok compiled) :
    compiled.plan.length = (params.without dialect.reserved).occurrences.length := by
  obtain ⟨hplan, -⟩ := run_of_compile h
  obtain ⟨steps, hocc, -, hlast⟩ := Registry.plan_eq_ok_iff.mp hplan
  have hocc' : steps.map PlanStep.occurrence = (params.without dialect.reserved).occurrences := hocc
  rw [hlast, (forceLast_perm _ steps).length_eq, ← hocc', List.length_map]

end Dialect

namespace Service

variable {Query : Type}

lemma compile_eq_ok_iff {service : Service} {params : Parameters} {entity : Entity Query}
    {compiled : Compiled Query} :
    service.compile params entity = .ok compiled ↔
      service.dialect.compile params entity = .ok compiled := by
  rw [compile]
  cases service.dialect.compile params entity <;> simp [Except.mapError]

lemma reserved_of_ofSettings {settings : Settings} {service : Service}
    (h : ofSettings settings = .ok service) : service.dialect.reserved = settings.reserved :=
  (spec_of_ofParts h).1

lemma compile_congr {service : Service} {pairs others : List (String × String)}
    (h : service.dialect.reserved.directivePairs pairs =
      service.dialect.reserved.directivePairs others) (entity : Entity Query) :
    service.compile (.ofPairs pairs) entity = service.compile (.ofPairs others) entity := by
  have hwithout : (Parameters.ofPairs pairs).without service.dialect.reserved =
      (Parameters.ofPairs others).without service.dialect.reserved := by
    rw [Parameters.without_ofPairs, Parameters.without_ofPairs, h]
  rw [compile, compile, Dialect.compile_congr hwithout]

/-- Directives and paging do not interfere: what a request compiles to hangs on its pairs of
other names alone and the page that it asks for on those of reserved names alone, because
taking reserved names out commutes with grouping. -/
theorem directives_and_paging_apart (service : Service) (pairs others : List (String × String)) :
    let reserved := service.dialect.reserved
    (reserved.directivePairs pairs = reserved.directivePairs others →
      ∀ {Query : Type} (entity : Entity Query),
        service.compile (.ofPairs pairs) entity = service.compile (.ofPairs others) entity) ∧
    (reserved.pagingPairs pairs = reserved.pagingPairs others →
      ∀ total, service.pageRequest (.ofPairs pairs) total =
        service.pageRequest (.ofPairs others) total) ∧
    (∀ names : ReservedNames,
      (Parameters.ofPairs pairs).without names = .ofPairs (names.directivePairs pairs)) := by
  intro reserved
  refine ⟨fun h _ entity => compile_congr h entity, fun h total => ?_,
    fun names => Parameters.without_ofPairs names pairs⟩
  rw [pageRequest, pageRequest]
  apply PageRequest.ofParameters_congr
  intro name hname
  rw [← Parameters.textsOf_pagingPairs hname pairs, ← Parameters.textsOf_pagingPairs hname others,
    h]

/-- Two requests that share their directives but not their page, and two that share their page
but not their directives; paging pairs stand between repeated directives, one as a list key. -/
theorem directives_and_paging_apart_interleaved :
    let service : Service := {}
    let pairs := [("limit", "5"), ("page[]", "2"), ("where", "a:eq:1"), ("page", "3"),
      ("limit[]", "7")]
    let others := [("page", "9"), ("limit", "5"), ("where", "a:eq:1"), ("limit[]", "7"),
      ("per_page", "4")]
    let elsewhere := [("page[]", "2"), ("offset", "1"), ("page", "3")]
    let entity := Recorder.entity "users" []
    service.compile (.ofPairs pairs) entity = service.compile (.ofPairs others) entity ∧
      service.pageRequest (.ofPairs pairs) 40 = service.pageRequest (.ofPairs elsewhere) 40 := by
  intro service pairs others elsewhere entity
  exact ⟨(directives_and_paging_apart service pairs others).1 (by decide) entity,
    (directives_and_paging_apart service pairs elsewhere).2.1 (by decide) 40⟩

/-- An empty request to a recorder without bounds selects the default projection. -/
lemma compile_nothing (service : Service) :
    service.compile (.ofPairs []) (Recorder.entity "" []) = .ok ⟨[.select (.allOf "")], []⟩ := by
  have hplan : service.dialect.plan (.ofPairs []) = .ok [] :=
    Registry.plan_eq_ok_iff.mpr ⟨[], rfl, fun step hstep => absurd hstep List.not_mem_nil, rfl⟩
  have htakes : (Recorder.entity "" []).Takes [] [.select (.allOf "")] [.select (.allOf "")] :=
    .cons rfl (.nil _)
  have hbuild := Dialect.build_of_takes hplan (fun _ hstep => absurd hstep List.not_mem_nil) htakes
  rw [compile, Dialect.compile_of_build hbuild]
  rfl

/-- The keys that the settings reserve are all kept from the directives just if none of them is
a list key whose own name is not reserved. -/
theorem reserved_keys_ignored_iff {settings : Settings} {service : Service}
    (h : ofSettings settings = .ok service) :
    (∀ {Query : Type} (entity : Entity Query) (pairs : List (String × String)),
      service.compile (.ofPairs pairs) entity =
        service.compile (.ofPairs (pairs.filter fun pair =>
          !settings.reserved.contains pair.1)) entity) ↔
      ∀ stem, settings.reserved.contains (stem ++ "[]") = true →
        settings.reserved.contains stem = true := by
  have hreserved := reserved_of_ofSettings h
  constructor
  · intro hignored stem hkey
    by_contra hstem
    -- the pair of the list key alone would have to compile like no pair at all
    have hempty : service.compile (.ofPairs [(stem ++ "[]", "")]) (Recorder.entity "" []) =
        .ok ⟨[.select (.allOf "")], []⟩ := by
      rw [hignored, ← compile_nothing service]
      simp [hkey]
    -- but a pair that is read as a directive leaves a step
    have hpairs : service.dialect.reserved.directivePairs [(stem ++ "[]", "")] =
        [(stem ++ "[]", "")] := by
      rw [hreserved, ReservedNames.directivePairs]
      simpa [Parameters.baseName_listKey] using hstem
    have hlength := Dialect.length_plan_of_compile (compile_eq_ok_iff.mp hempty)
    rw [Parameters.without_ofPairs, hpairs, Parameters.length_occurrences_ofPairs] at hlength
    cases hlength
  · intro hstems Query entity pairs
    apply compile_congr
    rw [hreserved, ReservedNames.directivePairs_filter_keys hstems]

/-- With the list key of a name reserved beside the name, nothing reserved reaches the directives;
with the list key alone, something does. -/
theorem reserved_keys_ignored_iff_list_keys :
    let both : Settings := { reserved := { page := "p", perPage := "p[]" } }
    let alone : Settings := { reserved := { page := "limit[]" } }
    let ofBoth : Service := ⟨⟨.builtin, both.reserved⟩, 15⟩
    let ofAlone : Service := ⟨⟨.builtin, alone.reserved⟩, 15⟩
    (ofSettings both = .ok ofBoth ∧ ∀ {Query : Type} (entity : Entity Query),
      ofBoth.compile (.ofPairs [("p[]", "5"), ("limit", "3"), ("p", "2")]) entity =
        ofBoth.compile (.ofPairs [("limit", "3")]) entity) ∧
    (ofSettings alone = .ok ofAlone ∧
      ¬∀ {Query : Type} (entity : Entity Query) (pairs : List (String × String)),
        ofAlone.compile (.ofPairs pairs) entity = ofAlone.compile (.ofPairs (pairs.filter
          fun pair => !alone.reserved.contains pair.1)) entity) := by
  intro both alone ofBoth ofAlone
  have hboth : ofSettings both = .ok ofBoth := by
    dsimp only [both, ofBoth]
    rfl
  have halone : ofSettings alone = .ok ofAlone := by
    dsimp only [alone, ofAlone]
    rfl
  have hstems : ∀ stem, both.reserved.contains (stem ++ "[]") = true →
      both.reserved.contains stem = true := by
    have hpage : Parameters.listName? "p" = none := by rfl
    have hsize : Parameters.listName? "p[]" = some "p" := by rfl
    have hpaginate : Parameters.listName? "paginate" = none := by rfl
    intro stem hkey
    rcases ReservedNames.contains_iff.mp hkey with hkey | hkey | hkey
    · rw [Parameters.listName?_eq_some_iff.mpr hkey.symm] at hpage
      cases hpage
    · rw [Parameters.listName?_eq_some_iff.mpr hkey.symm] at hsize
      cases hsize
      rfl
    · rw [Parameters.listName?_eq_some_iff.mpr hkey.symm] at hpaginate
      cases hpaginate
  refine ⟨⟨hboth, fun entity => (reserved_keys_ignored_iff hboth).mpr hstems entity _⟩,
    halone, fun hignored => ?_⟩
  have hstem := (reserved_keys_ignored_iff halone).mp hignored "limit" rfl
  cases hstem

/-- A page number under the list key `page[]` is read as a directive of the name `page`. -/
theorem reserved_list_key_is_directive :
    let settings : Settings := { reserved := { page := "page[]" } }
    let service : Service := ⟨⟨.builtin, settings.reserved⟩, 15⟩
    let entity := (Model.mk "User" "users" none [] (.allOf "users")).entity
    let pairs := [("page[]", "2")]
    ofSettings settings = .ok service ∧ settings.reserved.contains "page[]" = true ∧
      service.compile (.ofPairs pairs) entity =
        .error ⟨.unknownDirective, some "page", "unknown directive 'page'"⟩ ∧
      ∃ compiled, service.compile (.ofPairs (pairs.filter fun pair =>
        !settings.reserved.contains pair.1)) entity = .ok compiled := by
  intro settings service entity pairs
  have hsettings : ofSettings settings = .ok service := by
    dsimp only [settings, service]
    rfl
  exact ⟨hsettings, rfl, rfl, _, rfl⟩

end Service

end ParamQuery
