import ParamQuery.Proofs.Acceptance
import Mathlib.Data.List.Nodup

/-!
# Whole runs of calls on a reference query

Any calls may be made on a reference query, and a run goes on after a call that is refused. Such a
call leaves the query as it was, so a run leaves what the calls that were taken denote. Whether a
call is refused hangs on the model alone and not on the run before it.
-/

namespace ParamQuery

lemma nodup_appendMissing {known : List String} (h : known.Nodup) (names : List String) :
    (appendMissing known names).Nodup := by
  induction names generalizing known with
  | nil => exact h
  | cons name rest ih =>
    rw [appendMissing, List.foldl_cons]
    split
    · exact ih h
    · rename_i hnew
      rw [← List.concat_eq_append]
      exact ih (List.Nodup.concat hnew h)

lemma nodup_appendMissing_iff {known names : List String} :
    (appendMissing known names).Nodup ↔ known.Nodup := by
  constructor
  · intro h
    rw [appendMissing_eq] at h
    exact h.sublist (List.sublist_append_left known _)
  · exact fun h => nodup_appendMissing h names

lemma nodup_eraseDups (names : List String) : names.eraseDups.Nodup := by
  have h := nodup_appendMissing List.nodup_nil names
  rw [appendMissing_eq] at h
  simpa using h

lemma eraseDups_eq_self_iff {names : List String} : names.eraseDups = names ↔ names.Nodup := by
  constructor
  · intro h
    rw [← h]
    exact nodup_eraseDups names
  · intro h
    induction names with
    | nil => rfl
    | cons name rest ih =>
      obtain ⟨hname, hrest⟩ := List.nodup_cons.mp h
      have hkept : rest.filter (fun other => !other == name) = rest := by
        apply List.filter_eq_self.mpr
        intro other hother
        simpa using ne_of_mem_of_not_mem hother hname
      rw [List.eraseDups_cons, hkept, ih hrest]

namespace Query

/-- The queries differ in nothing but the field that the call is about. -/
def ChangedOnlyBy (call : Call) (before after : Query) : Prop :=
  match call with
  | .filter .. => after = { before with predicate := after.predicate }
  | .orderBy _ => after = { before with order := after.order }
  | .select _ => after = { before with projection := after.projection }
  | .limit _ => after = { before with limit := after.limit }
  | .offset _ => after = { before with offset := after.offset }
  | .withRelation _ => after = { before with relations := after.relations }
  | .withScope _ => after = { before with scope := after.scope }

lemma changedOnlyBy_of_issue {query next : Query} {call : Call}
    (h : query.issue call = .ok next) : ChangedOnlyBy call query next := by
  cases call with
  | withRelation relation | withScope scope =>
    rw [issue] at h
    split at h
    · cases h
      rfl
    · cases h
  | _ =>
    cases h
    rfl

end Query

namespace Model

variable {model : Model} {query next : Query} {call : Call}

/-- The query after a run of calls, each made whatever became of the ones before. -/
def run (model : Model) (query : Query) (calls : List Call) : Query :=
  calls.foldl (fun query call => (model.entity.issue query call).1) query

/-- The calls of a run that are taken. -/
def taken (model : Model) (query : Query) : List Call → List Call
  | [] => []
  | call :: rest =>
    match model.entity.issue query call with
    | (next, none) => call :: model.taken next rest
    | (next, some _) => model.taken next rest

lemma eq_of_refused {refusal : QueryError}
    (h : model.entity.issue query call = (next, some refusal)) : next = query := by
  cases hissue : query.issue call with
  | ok found => simp [entity, hissue] at h
  | error fault =>
    simp only [entity, hissue, Prod.mk.injEq] at h
    exact h.1.symm

lemma refused_iff : (model.entity.issue query call).2.isSome = true ↔ ¬query.model.Grants call := by
  rw [← exists_issue_iff]
  cases hissue : query.issue call <;> simp [entity, hissue]

/-- A run leaves the model as it is, and otherwise what its taken calls denote. -/
theorem run_eq_after (model : Model) (query : Query) (calls : List Call) :
    model.run query calls = query.after (model.taken query calls) := by
  induction calls generalizing query with
  | nil => exact query.after_nil.symm
  | cons call rest ih =>
    rw [run, List.foldl_cons, taken]
    cases hissue : model.entity.issue query call with
    | mk next refusal =>
      cases refusal with
      | none => exact (ih next).trans (Query.after_cons (entity_issue_iff.mp hissue) _)
      | some refusal =>
        -- the run goes on from the query that the refused call was made on
        rw [eq_of_refused hissue]
        exact ih query

lemma model_run (model : Model) (query : Query) (calls : List Call) :
    (model.run query calls).model = query.model := by
  rw [run_eq_after]
  rfl

lemma grants_of_mem_taken {calls : List Call} (h : call ∈ model.taken query calls) :
    query.model.Grants call := by
  induction calls generalizing query with
  | nil => cases h
  | cons first rest ih =>
    rw [taken] at h
    cases hissue : model.entity.issue query first with
    | mk next refusal =>
      rw [hissue] at h
      cases refusal with
      | none =>
        have htaken := entity_issue_iff.mp hissue
        rcases List.mem_cons.mp h with rfl | hrest
        · exact (exists_issue_iff query call).mp ⟨next, htaken⟩
        · exact model_of_issue htaken ▸ ih hrest
      | some refusal =>
        rw [eq_of_refused hissue] at h
        exact ih h

lemma mem_relations_of_taken {calls : List Call} {relation : String}
    (h : relation ∈ (model.taken query calls).filterMap Call.relation?) :
    relation ∈ query.model.relations := by
  obtain ⟨call, hcall, hread⟩ := List.mem_filterMap.mp h
  cases call
  all_goals cases hread
  exact grants_of_mem_taken hcall

lemma softDelete_of_taken {calls : List Call} {scope : Scope}
    (h : scope ∈ (model.taken query calls).filterMap Call.scope?) :
    query.model.softDelete.isSome = true := by
  obtain ⟨call, hcall, hread⟩ := List.mem_filterMap.mp h
  cases call
  all_goals cases hread
  exact grants_of_mem_taken hcall

lemma relations_run (model : Model) (calls : List Call) :
    (model.run model.entity.fresh calls).relations =
      ((model.taken model.entity.fresh calls).filterMap Call.relation?).eraseDups := by
  rw [run_eq_after, Query.after, appendMissing_eq]
  simp [entity]

lemma scope_run (model : Model) (calls : List Call) :
    (model.run model.entity.fresh calls).scope =
      ((model.taken model.entity.fresh calls).filterMap Call.scope?).getLast?.getD
        .withoutTrashed := by
  rw [run_eq_after]
  rfl

/-- The invariants of a reference query under any run of calls. Its relations are relations of the
model, each once, in the order in which they were first taken; its scope shows deleted rows only if
the model deletes softly. Whatever happened before, a relation is refused just if the model lacks
it, a scope just if the model does not delete softly, and no other call is refused. A call that is
refused changes nothing, and a call that is taken changes its own field only. -/
theorem run_invariants (model : Model) (calls : List Call) :
    let fresh := model.entity.fresh
    let query := model.run fresh calls
    query.relations.Nodup ∧
    (∀ relation ∈ query.relations, relation ∈ model.relations) ∧
    query.relations = ((model.taken fresh calls).filterMap Call.relation?).eraseDups ∧
    (query.scope ≠ .withoutTrashed → model.softDelete.isSome = true) ∧
    (∀ relation, (model.entity.issue query (.withRelation relation)).2.isSome = true ↔
      relation ∉ model.relations) ∧
    (∀ scope, (model.entity.issue query (.withScope scope)).2.isSome = true ↔
      model.softDelete = none) ∧
    (∀ call, call.relation? = none → call.scope? = none →
      (model.entity.issue query call).2 = none) ∧
    (∀ call next refusal, model.entity.issue query call = (next, some refusal) → next = query) ∧
    (∀ call next, model.entity.issue query call = (next, none) →
      Query.ChangedOnlyBy call query next) := by
  intro fresh query
  have hmodel : query.model = model := model_run model fresh calls
  refine ⟨?_, ?_, relations_run model calls, ?_, ?_, ?_, ?_, fun _ _ _ => eq_of_refused,
    fun _ _ h => Query.changedOnlyBy_of_issue (entity_issue_iff.mp h)⟩
  · rw [show query = _ from run_eq_after model fresh calls]
    exact nodup_appendMissing List.nodup_nil _
  · intro relation hmem
    rw [relations_run, List.mem_eraseDups] at hmem
    exact mem_relations_of_taken hmem
  · intro hchanged
    cases hlast : ((model.taken fresh calls).filterMap Call.scope?).getLast? with
    | none =>
      refine absurd ?_ hchanged
      rw [scope_run, hlast]
      rfl
    | some scope => exact softDelete_of_taken (List.mem_of_getLast? hlast)
  · intro relation
    rw [refused_iff, hmodel]
    rfl
  · intro scope
    rw [refused_iff, hmodel]
    simp [Grants]
  · intro call hrelation hscope
    rw [← Option.not_isSome_iff_eq_none, refused_iff, not_not]
    cases call
    case withRelation => cases hrelation
    case withScope => cases hscope
    all_goals trivial

/-- A relation that the model lacks is refused between two that it has, one of which is asked for
again. -/
theorem run_invariants_unknown_relation :
    let model : Model := ⟨"User", "users", some "deleted_at", ["posts", "roles"], .allOf "users"⟩
    let calls : List Call := [.withRelation "roles", .withScope .onlyTrashed,
      .withRelation "teams", .limit 5, .withRelation "posts", .withRelation "roles"]
    let query := model.run model.entity.fresh calls
    (query.relations = ["roles", "posts"] ∧ query.relations.Nodup) ∧
      (query.scope ≠ .withoutTrashed ∧ model.softDelete.isSome = true) ∧
      (∃ next refusal, model.entity.issue query (.withRelation "teams") = (next, some refusal) ∧
        next = query) ∧
      ∃ next, model.entity.issue query (.offset 2) = (next, none) ∧
        (model.entity.issue query (.offset 2)).2 = none ∧
        next = { query with offset := next.offset } := by
  intro model calls query
  obtain ⟨hdistinct, -, -, hscope, -, -, hother, hrefused, htaken⟩ := run_invariants model calls
  have htrashed : query.scope ≠ .withoutTrashed := by decide
  have hunknown : ∃ next refusal, model.entity.issue query (.withRelation "teams") =
      (next, some refusal) := ⟨_, _, rfl⟩
  have hoffset : ∃ next, model.entity.issue query (.offset 2) = (next, none) := ⟨_, rfl⟩
  obtain ⟨unchanged, refusal, hunknown⟩ := hunknown
  obtain ⟨next, hoffset⟩ := hoffset
  exact ⟨⟨rfl, hdistinct⟩, ⟨htrashed, hscope htrashed⟩,
    ⟨unchanged, refusal, hunknown, hrefused _ _ _ hunknown⟩,
    next, hoffset, hother _ rfl rfl, htaken _ _ hoffset⟩

end Model

end ParamQuery
