import ParamQuery.Proofs.Arrangement
import ParamQuery.Proofs.Windows

/-!
# The scopes of one query

Where a model deletes softly, a value in one column marks a row as deleted, whatever the value is.
Of the rows that a query accepts among all rows, its default scope accepts those without a mark and
the scope of deleted rows accepts the others. So the two results make up the one for all rows, and
each keeps its own order in it as long as nothing is sorted.
-/

namespace ParamQuery

section Interleaving

variable {α β : Type} {xs ys zs : List α}

/-- The third list is made up of the two others, with the elements of each in their order. -/
inductive Interleaves : List α → List α → List α → Prop
  | nil : Interleaves [] [] []
  | left {xs ys zs : List α} (x : α) (h : Interleaves xs ys zs) :
      Interleaves (x :: xs) ys (x :: zs)
  | right {xs ys zs : List α} (y : α) (h : Interleaves xs ys zs) :
      Interleaves xs (y :: ys) (y :: zs)

lemma Interleaves.perm (h : Interleaves xs ys zs) : zs.Perm (xs ++ ys) := by
  induction h with
  | nil => exact .nil
  | left x _ ih => exact ih.cons x
  | right y _ ih => exact (ih.cons y).trans List.perm_middle.symm

lemma Interleaves.map (f : α → β) (h : Interleaves xs ys zs) :
    Interleaves (xs.map f) (ys.map f) (zs.map f) := by
  induction h with
  | nil => exact .nil
  | left x _ ih => exact ih.left (f x)
  | right y _ ih => exact ih.right (f y)

/-- What one of two tests that exclude each other keeps is made up of what each of them keeps. -/
lemma interleaves_filter {first second either : α → Bool}
    (hboth : ∀ x, ¬(first x = true ∧ second x = true))
    (heither : ∀ x, either x = true ↔ first x = true ∨ second x = true) (xs : List α) :
    Interleaves (xs.filter first) (xs.filter second) (xs.filter either) := by
  induction xs with
  | nil => exact .nil
  | cons x rest ih =>
    by_cases hfirst : first x = true
    · have hsecond : ¬second x = true := fun h => hboth x ⟨hfirst, h⟩
      rw [List.filter_cons_of_pos hfirst, List.filter_cons_of_neg hsecond,
        List.filter_cons_of_pos ((heither x).mpr (.inl hfirst))]
      exact ih.left x
    · by_cases hsecond : second x = true
      · rw [List.filter_cons_of_neg hfirst, List.filter_cons_of_pos hsecond,
          List.filter_cons_of_pos ((heither x).mpr (.inr hsecond))]
        exact ih.right x
      · have hneither : ¬either x = true := fun h => ((heither x).mp h).elim hfirst hsecond
        rw [List.filter_cons_of_neg hfirst, List.filter_cons_of_neg hsecond,
          List.filter_cons_of_neg hneither]
        exact ih

end Interleaving

lemma Row.present?_isSome_iff {row : Row} {column : String} :
    (row.present? column).isSome = true ↔ ∃ cell, row.get? column = some cell ∧ cell ≠ .null := by
  rw [present?, Option.isSome_filter, Option.any_eq_true]
  refine exists_congr fun cell => and_congr_right fun _ => ?_
  cases cell <;> simp [Value.isNull]

/-- Whether a scope shows a row with or without a mark. -/
def Scope.shows (scope : Scope) (marked : Bool) : Bool :=
  match scope with
  | .withoutTrashed => !marked
  | .withTrashed => true
  | .onlyTrashed => marked

namespace Query

/-- The query with another scope and otherwise as it is. -/
def under (q : Query) (scope : Scope) : Query := { q with scope }

variable {q : Query} {column : String}

lemma issue_withScope (h : q.model.softDelete = some column) (scope : Scope) :
    q.issue (.withScope scope) = .ok (q.under scope) := by
  have hsoft : q.model.softDelete.isSome = true := by rw [h]; rfl
  rw [issue, if_pos hsoft]
  rfl

/-- The mark of a row and the predicate are judged apart. -/
lemma accepts_under (h : q.model.softDelete = some column) (scope : Scope) (row : Row) :
    (q.under scope).accepts row =
      (scope.shows (row.present? column).isSome && q.predicate.all (·.eval row)) := by
  have hscope : (q.under scope).inScope row = scope.shows (row.present? column).isSome := by
    simp only [inScope, under, h]
    rfl
  rw [accepts, hscope]
  rfl

lemma accepts_withTrashed_iff (h : q.model.softDelete = some column) (row : Row) :
    (q.under .withTrashed).accepts row = true ↔
      (q.under .withoutTrashed).accepts row = true ∨ (q.under .onlyTrashed).accepts row = true := by
  rw [accepts_under h, accepts_under h, accepts_under h]
  cases (row.present? column).isSome <;> simp [Scope.shows]

lemma not_accepts_both (h : q.model.softDelete = some column) (row : Row) :
    ¬((q.under .withoutTrashed).accepts row = true ∧
      (q.under .onlyTrashed).accepts row = true) := by
  rw [accepts_under h, accepts_under h]
  cases (row.present? column).isSome <;> simp [Scope.shows]

/-- The rows that are accepted among all rows are made up of the live and the deleted ones. -/
lemma interleaves_accepted (h : q.model.softDelete = some column) (rows : List Row) :
    Interleaves (rows.filter (q.under .withoutTrashed).accepts)
      (rows.filter (q.under .onlyTrashed).accepts)
      (rows.filter (q.under .withTrashed).accepts) :=
  interleaves_filter (not_accepts_both h) (accepts_withTrashed_iff h) rows

lemma execute_under (hlimit : q.limit = none) (hoffset : q.offset = 0) (scope : Scope)
    (rows : List Row) (sorter : StableSort Row) :
    (q.under scope).execute rows sorter =
      (arrange sorter q.order (rows.filter (q.under scope).accepts)).map (List.map q.project) := by
  have hwhole : (q.under scope).whole = q.under scope := by
    rw [whole, under, hlimit, hoffset]
  rw [← hwhole, execute_whole]
  rfl

/-- An answer in a scope has the accepted rows, each once, in an order that is left open. -/
lemma perm_of_execute_under (hlimit : q.limit = none) (hoffset : q.offset = 0) {scope : Scope}
    {rows answer : List Row} {sorter : StableSort Row}
    (h : (q.under scope).execute rows sorter = some answer) :
    answer.Perm ((rows.filter (q.under scope).accepts).map q.project) := by
  rw [execute_under hlimit hoffset, Option.map_eq_some_iff] at h
  obtain ⟨arranged, harranged, rfl⟩ := h
  exact (perm_of_arrange harranged).map q.project

lemma execute_under_of_unsorted (hlimit : q.limit = none) (hoffset : q.offset = 0)
    (horder : q.order = []) (scope : Scope) (rows : List Row) (sorter : StableSort Row) :
    (q.under scope).execute rows sorter =
      some ((rows.filter (q.under scope).accepts).map q.project) := by
  rw [execute_under hlimit hoffset, horder]
  rfl

/-- The scopes of a query over a model that deletes softly. Each of them can be set, whatever was
set before. A row that is accepted among all rows is accepted as a live row or as a deleted one, but
not as both, and it is deleted if its mark is any value but null. So the rows that are counted add
up. Without a window the answers add up too, however they are sorted, and if nothing is sorted there
are all three of them, and each keeps its order in the one for all rows. A model that does not
delete softly has all rows in every scope. -/
theorem scopes_partition_rows (q : Query) (rows : List Row) :
    let live := q.under .withoutTrashed
    let deleted := q.under .onlyTrashed
    let all := q.under .withTrashed
    (∀ column, q.model.softDelete = some column →
      (∀ scope, q.issue (.withScope scope) = .ok (q.under scope)) ∧
      (∀ row,
        all.accepts row = q.predicate.all (·.eval row) ∧
        (all.accepts row = true ↔ live.accepts row = true ∨ deleted.accepts row = true) ∧
        ¬(live.accepts row = true ∧ deleted.accepts row = true) ∧
        (deleted.accepts row = true ↔
          all.accepts row = true ∧ ∃ cell, row.get? column = some cell ∧ cell ≠ .null)) ∧
      all.count rows = live.count rows + deleted.count rows ∧
      (q.limit = none → q.offset = 0 → ∀ sorter,
        (∀ ofLive ofDeleted ofAll, live.execute rows sorter = some ofLive →
          deleted.execute rows sorter = some ofDeleted → all.execute rows sorter = some ofAll →
          ofAll.Perm (ofLive ++ ofDeleted)) ∧
        (q.order = [] → ∃ ofLive ofDeleted ofAll, live.execute rows sorter = some ofLive ∧
          deleted.execute rows sorter = some ofDeleted ∧ all.execute rows sorter = some ofAll ∧
          Interleaves ofLive ofDeleted ofAll))) ∧
    (q.model.softDelete = none → ∀ scope row, (q.under scope).inScope row = true) := by
  intro live deleted all
  refine ⟨fun column hsoft => ?_, fun hhard scope row => ?_⟩
  · have hrows := interleaves_accepted hsoft rows
    refine ⟨issue_withScope hsoft, fun row => ?_, ?_, fun hlimit hoffset sorter =>
      ⟨fun ofLive ofDeleted ofAll hlive hdeleted hall => ?_, fun horder => ?_⟩⟩
    · have hall : all.accepts row = q.predicate.all (·.eval row) := accepts_under hsoft _ row
      refine ⟨hall, accepts_withTrashed_iff hsoft row, not_accepts_both hsoft row, ?_⟩
      rw [← Row.present?_isSome_iff, accepts_under hsoft, Bool.and_eq_true, ← hall, and_comm]
      rfl
    · have hlength := hrows.perm.length_eq
      rw [List.length_append] at hlength
      simpa only [count, List.countP_eq_length_filter] using hlength
    · -- sorting may mix the three answers in different ways, but it loses no row
      have hparts := ((perm_of_execute_under hlimit hoffset hlive).append
        (perm_of_execute_under hlimit hoffset hdeleted)).symm
      exact (perm_of_execute_under hlimit hoffset hall).trans
        ((hrows.map q.project).perm.trans hparts)
    · have hanswer := fun scope =>
        execute_under_of_unsorted hlimit hoffset horder scope rows sorter
      exact ⟨_, _, _, hanswer _, hanswer _, hanswer _, hrows.map q.project⟩
  · simp only [inScope, under, hhard]

/-- Marks that are missing or null beside marks that are false, zero or empty. -/
theorem scopes_partition_rows_odd_marks :
    let model : Model := ⟨"User", "users", some "deleted_at", [], .allOf "users"⟩
    let q : Query :=
      { model, projection := some (.columns ["id"]),
        predicate := some (.compare "id" .lt (.int 6)) }
    let row := fun (id : Int64) (mark : List Value) =>
      ("id", .int id) :: mark.map fun cell => ("deleted_at", cell)
    let rows := [row 1 [.bool false], row 2 [], row 3 [.int 0], row 4 [.null], row 5 [.text ""],
      row 6 []]
    let live := q.under .withoutTrashed
    let deleted := q.under .onlyTrashed
    let all := q.under .withTrashed
    (model.softDelete = some "deleted_at" ∧ q.limit = none ∧ q.offset = 0 ∧ q.order = []) ∧
      (live.execute rows = some [row 2 [], row 4 []] ∧
        deleted.execute rows = some [row 1 [], row 3 [], row 5 []]) ∧
      (∃ ofAll, all.execute rows = some ofAll ∧
        Interleaves [row 2 [], row 4 []] [row 1 [], row 3 [], row 5 []] ofAll) ∧
      all.count rows = live.count rows + deleted.count rows := by
  intro model q row rows live deleted all
  obtain ⟨hsoft, -⟩ := scopes_partition_rows q rows
  obtain ⟨-, -, hcount, hresults⟩ := hsoft "deleted_at" rfl
  have hlive : live.execute rows = some [row 2 [], row 4 []] :=
    (execute_under_of_unsorted rfl rfl rfl _ rows _).trans (by rfl)
  have hdeleted : deleted.execute rows = some [row 1 [], row 3 [], row 5 []] :=
    (execute_under_of_unsorted rfl rfl rfl _ rows _).trans (by rfl)
  obtain ⟨ofLive, ofDeleted, ofAll, hlive', hdeleted', hall, hinterleaves⟩ :=
    (hresults rfl rfl .standard).2 rfl
  obtain rfl := Option.some.inj (hlive'.symm.trans hlive)
  obtain rfl := Option.some.inj (hdeleted'.symm.trans hdeleted)
  exact ⟨⟨rfl, rfl, rfl, rfl⟩, ⟨hlive, hdeleted⟩, ⟨ofAll, hall, hinterleaves⟩, hcount⟩

end Query

end ParamQuery
