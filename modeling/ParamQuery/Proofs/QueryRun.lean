import ParamQuery.Proofs.CallTrace

/-!
# Runs of calls on a reference query

A call sets one field of a reference query, so a run of calls can be read field by field: each
field depends on the calls of its own kind alone. Filters and column lists fold, sort keys and
relations accumulate, and of a limit, an offset and a scope the last one stands.
-/

namespace ParamQuery

namespace Call

def filter? : Call → Option (Conjunction × Predicate)
  | .filter conjunction predicate => some (conjunction, predicate)
  | _ => none

def sortKey? : Call → Option SortKey
  | .orderBy key => some key
  | _ => none

def projection? : Call → Option Projection
  | .select projection => some projection
  | _ => none

def limit? : Call → Option UInt32
  | .limit count => some count
  | _ => none

def offset? : Call → Option UInt32
  | .offset count => some count
  | _ => none

def relation? : Call → Option String
  | .withRelation relation => some relation
  | _ => none

def scope? : Call → Option Scope
  | .withScope scope => some scope
  | _ => none

end Call

/-- A name that is there already is passed over, and so is every repetition. -/
theorem appendMissing_eq (known names : List String) :
    appendMissing known names =
      known ++ (names.filter (fun name => name ∉ known)).eraseDups := by
  induction names generalizing known with
  | nil => simp [appendMissing]
  | cons name rest ih =>
    have hstep : appendMissing known (name :: rest) =
        appendMissing (if name ∈ known then known else known ++ [name]) rest := rfl
    rw [hstep, ih]
    by_cases h : name ∈ known
    · simp [h]
    · have hfilter : rest.filter (fun other => other ∉ known ++ [name]) =
          (rest.filter (fun other => other ∉ known)).filter (fun other => !other == name) := by
        rw [List.filter_filter]
        congr 1
        funext other
        by_cases hother : other = name <;> simp [hother]
      rw [if_neg h, hfilter, List.filter_cons_of_pos (by simpa using h), List.eraseDups_cons,
        List.append_assoc]
      rfl

namespace Query

/-- What calls leave of a query if all of them are taken. -/
def after (q : Query) (calls : List Call) : Query where
  model := q.model
  projection := (calls.filterMap Call.projection?).foldl
    (fun existing next => some (Projection.after existing next)) q.projection
  predicate := (calls.filterMap Call.filter?).foldl
    (fun existing next => some (Predicate.join existing next.1 next.2)) q.predicate
  order := q.order ++ calls.filterMap Call.sortKey?
  relations := appendMissing q.relations (calls.filterMap Call.relation?)
  limit := (calls.filterMap Call.limit?).getLast?.or q.limit
  offset := (calls.filterMap Call.offset?).getLast?.getD q.offset
  scope := (calls.filterMap Call.scope?).getLast?.getD q.scope

lemma after_nil (q : Query) : q.after [] = q := by
  simp [after, appendMissing]

/-- A call that is taken changes its own field and no other. -/
lemma after_cons {q next : Query} {call : Call} (h : q.issue call = .ok next)
    (rest : List Call) : next.after rest = q.after (call :: rest) := by
  rw [after, after, mk.injEq]
  cases call with
  | filter conjunction predicate =>
    cases h
    exact ⟨rfl, rfl, rfl, rfl, rfl, rfl, rfl, rfl⟩
  | orderBy key =>
    cases h
    refine ⟨rfl, rfl, rfl, ?_, rfl, rfl, rfl, rfl⟩
    rw [List.append_assoc]
    rfl
  | select projection =>
    cases h
    exact ⟨rfl, rfl, rfl, rfl, rfl, rfl, rfl, rfl⟩
  | limit count =>
    cases h
    refine ⟨rfl, rfl, rfl, rfl, rfl, ?_, rfl, rfl⟩
    simp [Call.limit?, List.getLast?_cons]
  | offset count =>
    cases h
    refine ⟨rfl, rfl, rfl, rfl, rfl, rfl, ?_, rfl⟩
    simp [Call.offset?, List.getLast?_cons]
  | withRelation relation =>
    rw [issue] at h
    split at h
    · cases h
      refine ⟨rfl, rfl, rfl, rfl, ?_, rfl, rfl, rfl⟩
      simp [Call.relation?, appendMissing]
    · cases h
  | withScope scope =>
    rw [issue] at h
    split at h
    · cases h
      refine ⟨rfl, rfl, rfl, rfl, rfl, rfl, rfl, ?_⟩
      simp [Call.scope?, List.getLast?_cons]
    · cases h

/-- A run of calls that are all taken leaves the query that they denote. -/
theorem eq_after_of_takes {model : Model} {q last : Query} {calls : List Call}
    (h : model.entity.Takes q calls last) : last = q.after calls := by
  induction h with
  | nil q => exact (after_nil q).symm
  | @cons q next last call rest taken more ih =>
    have hissue : q.issue call = .ok next := by
      cases hq : q.issue call with
      | ok found => simpa [Model.entity, hq] using taken
      | error refusal => simp [Model.entity, hq] at taken
    rw [ih, after_cons hissue]

end Query

end ParamQuery
