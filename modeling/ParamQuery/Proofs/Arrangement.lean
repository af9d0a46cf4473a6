import Mathlib.Data.List.DropRight
import ParamQuery.Proofs.QueryInvariants
import ParamQuery.Proofs.RowOrder

/-!
# What a query makes of rows

A query answers with an arrangement of the rows that it accepts, cut to its window and projected.
As long as every column that orders the rows holds values of one kind, the comparison of rows is the
lexicographic order of their cells. That order is total and transitive, so a stable sort by it is
determined: the rows come in this order, and rows that no key tells apart come as they were given.
-/

namespace ParamQuery

/-- The values of the column that are neither missing nor null are all of one kind. -/
def Homogeneous (field : String) (rows : List Row) : Prop :=
  (∀ row ∈ rows, ∀ v, row.present? field = some v → ∃ b, v = .bool b) ∨
    (∀ row ∈ rows, ∀ v, row.present? field = some v → ∃ i, v = .int i) ∨
    ∀ row ∈ rows, ∀ v, row.present? field = some v → ∃ s, v = .text s

/-- The order of the cells of a column; a missing or null cell is before all others. -/
inductive CellBefore : Option Value → Option Value → Prop where
  | absent {v : Value} : CellBefore none (some v)
  | bool : CellBefore (some (.bool false)) (some (.bool true))
  | int {i j : Int64} (h : i.toInt < j.toInt) : CellBefore (some (.int i)) (some (.int j))
  | text {s t : String} (h : s < t) : CellBefore (some (.text s)) (some (.text t))

namespace SortKey

/-- The key puts the first row before the second one. -/
def Puts (key : SortKey) (a b : Row) : Prop :=
  match key.direction with
  | .asc => CellBefore (a.present? key.field) (b.present? key.field)
  | .desc => CellBefore (b.present? key.field) (a.present? key.field)

/-- The key does not tell the rows apart. -/
def Ties (key : SortKey) (a b : Row) : Prop := a.present? key.field = b.present? key.field

instance (key : SortKey) (a b : Row) : Decidable (key.Ties a b) :=
  inferInstanceAs (Decidable (_ = _))

end SortKey

/-- The first key that tells the rows apart puts the first row before the second one. -/
inductive Precedes : List SortKey → Row → Row → Prop where
  | head {key : SortKey} {keys : List SortKey} {a b : Row} (h : key.Puts a b) :
      Precedes (key :: keys) a b
  | tail {key : SortKey} {keys : List SortKey} {a b : Row} (htie : key.Ties a b)
      (h : Precedes keys a b) : Precedes (key :: keys) a b

/-- No key tells the rows apart. -/
def Ties (keys : List SortKey) (a b : Row) : Prop := ∀ key ∈ keys, key.Ties a b

instance (keys : List SortKey) (a b : Row) : Decidable (Ties keys a b) :=
  inferInstanceAs (Decidable (∀ key ∈ keys, _))

/-- The first row does not come after the second one. -/
def InOrder (keys : List SortKey) (a b : Row) : Prop := Precedes keys a b ∨ Ties keys a b

/-- The second text is what follows the last full stop of the first one. -/
def AfterLastDot (column key : String) : Prop :=
  '.' ∉ key.toList ∧ (column = key ∨ ∃ qualifier, column = qualifier ++ "." ++ key)

/-- Cells that cannot be told to be of different kinds. -/
inductive Akin : Option Value → Option Value → Prop where
  | absent_left {y : Option Value} : Akin none y
  | absent_right {x : Option Value} : Akin x none
  | bool (a b : Bool) : Akin (some (.bool a)) (some (.bool b))
  | int (i j : Int64) : Akin (some (.int i)) (some (.int j))
  | text (s t : String) : Akin (some (.text s)) (some (.text t))

section Cells

variable {x y z : Option Value}

lemma akin_symm (h : Akin x y) : Akin y x := by
  cases h with
  | absent_left => exact .absent_right
  | absent_right => exact .absent_left
  | bool a b => exact .bool b a
  | int i j => exact .int j i
  | text s t => exact .text t s

lemma compareCells_eq_lt_iff (h : Akin x y) : compareCells x y = .lt ↔ CellBefore x y := by
  cases h with
  | absent_left =>
    cases y with
    | none => exact ⟨nofun, nofun⟩
    | some v => exact ⟨fun _ => .absent, fun _ => rfl⟩
  | absent_right => cases x <;> exact ⟨nofun, nofun⟩
  | bool a b =>
    constructor
    · intro h
      cases a <;> cases b <;> first | exact .bool | exact absurd h (by decide)
    · intro h
      cases h
      rfl
  | int i j =>
    constructor
    · intro h
      exact .int (Int.compare_eq_lt.mp h)
    · intro h
      cases h with
      | int h => exact Int.compare_eq_lt.mpr h
  | text s t =>
    constructor
    · intro h
      exact .text (compareOfLessAndEq_eq_lt.mp h)
    · intro h
      cases h with
      | text h => exact compareOfLessAndEq_eq_lt.mpr h

lemma compareCells_eq_eq_iff (h : Akin x y) : compareCells x y = .eq ↔ x = y := by
  cases h with
  | absent_left => cases y <;> simp [compareCells]
  | absent_right => cases x <;> simp [compareCells]
  | bool a b => cases a <;> cases b <;> decide
  | int i j =>
    rw [Option.some.injEq, Value.int.injEq, ← Int64.toInt_inj]
    exact Int.compare_eq_eq
  | text s t =>
    rw [Option.some.injEq, Value.text.injEq]
    exact Std.LawfulEqOrd.compare_eq_iff_eq

lemma cellBefore_trans (hxy : CellBefore x y) (hyz : CellBefore y z) : CellBefore x z := by
  cases hxy with
  | absent => cases hyz <;> exact .absent
  | bool => nomatch hyz
  | int h =>
    cases hyz with
    | int h' => exact .int (Int.lt_trans h h')
  | text h =>
    cases hyz with
    | text h' => exact .text (String.lt_trans h h')

end Cells

lemma akin_of_homogeneous {field : String} {rows : List Row} (h : Homogeneous field rows)
    {a b : Row} (ha : a ∈ rows) (hb : b ∈ rows) :
    Akin (a.present? field) (b.present? field) := by
  cases hx : a.present? field with
  | none => exact .absent_left
  | some u =>
    cases hy : b.present? field with
    | none => exact .absent_right
    | some v =>
      rcases h with h | h | h <;> obtain ⟨_, rfl⟩ := h a ha u hx <;>
        obtain ⟨_, rfl⟩ := h b hb v hy
      · exact .bool _ _
      · exact .int _ _
      · exact .text _ _

namespace SortKey

variable {key : SortKey} {a b c : Row}

lemma compare_eq_lt_iff (h : Akin (a.present? key.field) (b.present? key.field)) :
    key.compare a b = .lt ↔ key.Puts a b := by
  rw [compare, Puts]
  cases key.direction with
  | asc => exact compareCells_eq_lt_iff h
  | desc =>
    dsimp only
    rw [swap_compareCells]
    exact compareCells_eq_lt_iff (akin_symm h)

lemma compare_eq_eq_iff_ties (h : Akin (a.present? key.field) (b.present? key.field)) :
    key.compare a b = .eq ↔ key.Ties a b := by
  rw [compare_eq_eq_iff]
  exact compareCells_eq_eq_iff h

lemma puts_trans (hab : key.Puts a b) (hbc : key.Puts b c) : key.Puts a c := by
  simp only [Puts] at *
  split
  · next hasc =>
    rw [hasc] at hab hbc
    exact cellBefore_trans hab hbc
  · next hdesc =>
    rw [hdesc] at hab hbc
    exact cellBefore_trans hbc hab

/-- Only the cells of its column count for a key. -/
lemma puts_congr {a' b' : Row} (ha : key.Ties a a') (hb : key.Ties b b') (h : key.Puts a b) :
    key.Puts a' b' := by
  rw [Ties] at ha hb
  rw [Puts] at h ⊢
  rwa [← ha, ← hb]

end SortKey

section Rows

variable {keys : List SortKey} {a b c : Row}

lemma ties_cons_iff {key : SortKey} :
    Ties (key :: keys) a b ↔ key.Ties a b ∧ Ties keys a b := List.forall_mem_cons

/-- The cells of both rows are akin under every key. -/
def AkinRows (keys : List SortKey) (a b : Row) : Prop :=
  ∀ key ∈ keys, Akin (a.present? key.field) (b.present? key.field)

lemma compareRows_eq_eq_iff (h : AkinRows keys a b) :
    compareRows keys a b = .eq ↔ Ties keys a b := by
  induction keys with
  | nil => exact ⟨fun _ => by simp [Ties], fun _ => rfl⟩
  | cons key keys ih =>
    obtain ⟨hkey, hkeys⟩ := List.forall_mem_cons.mp h
    rw [compareRows_cons, Ordering.then_eq_eq, ih hkeys,
      SortKey.compare_eq_eq_iff_ties hkey, ties_cons_iff]

lemma compareRows_eq_lt_iff (h : AkinRows keys a b) :
    compareRows keys a b = .lt ↔ Precedes keys a b := by
  induction keys with
  | nil => exact ⟨nofun, nofun⟩
  | cons key keys ih =>
    obtain ⟨hkey, hkeys⟩ := List.forall_mem_cons.mp h
    rw [compareRows_cons, Ordering.then_eq_lt, ih hkeys,
      SortKey.compare_eq_eq_iff_ties hkey, SortKey.compare_eq_lt_iff hkey]
    constructor
    · rintro (hputs | ⟨htie, hrest⟩)
      · exact .head hputs
      · exact .tail htie hrest
    · intro hprecedes
      cases hprecedes with
      | head hputs => exact .inl hputs
      | tail htie hrest => exact .inr ⟨htie, hrest⟩

lemma compareRows_isLE_iff (h : AkinRows keys a b) :
    (compareRows keys a b).isLE ↔ InOrder keys a b := by
  rw [Ordering.isLE_iff_eq_lt_or_eq_eq, compareRows_eq_lt_iff h, compareRows_eq_eq_iff h, InOrder]

lemma inOrder_cons_iff {key : SortKey} :
    InOrder (key :: keys) a b ↔ key.Puts a b ∨ key.Ties a b ∧ InOrder keys a b := by
  rw [InOrder, InOrder, ties_cons_iff, and_or_left, ← or_assoc]
  refine or_congr_left ⟨fun h => ?_, ?_⟩
  · cases h with
    | head hputs => exact .inl hputs
    | tail htie hrest => exact .inr ⟨htie, hrest⟩
  · rintro (hputs | ⟨htie, hrest⟩)
    · exact .head hputs
    · exact .tail htie hrest

lemma inOrder_trans (hab : InOrder keys a b) (hbc : InOrder keys b c) : InOrder keys a c := by
  induction keys with
  | nil => exact .inr fun key hkey => absurd hkey List.not_mem_nil
  | cons key keys ih =>
    rw [inOrder_cons_iff] at *
    rcases hab with hab | ⟨hab, hab'⟩
    · rcases hbc with hbc | ⟨hbc, -⟩
      · exact .inl (SortKey.puts_trans hab hbc)
      · exact .inl (SortKey.puts_congr rfl hbc hab)
    · rcases hbc with hbc | ⟨hbc, hbc'⟩
      · exact .inl (SortKey.puts_congr hab.symm rfl hbc)
      · exact .inr ⟨hab.trans hbc, ih hab' hbc'⟩

lemma ties_symm (h : Ties keys a b) : Ties keys b a := fun key hkey => (h key hkey).symm

lemma ties_trans (hab : Ties keys a b) (hbc : Ties keys b c) : Ties keys a c :=
  fun key hkey => (hab key hkey).trans (hbc key hkey)

section Akin

variable {rows arranged : List Row} (h : ∀ a ∈ rows, ∀ b ∈ rows, AkinRows keys a b)

include h

lemma transitiveOn_of_akin : TransitiveOn keys rows := by
  intro a ha b hb c hc hab hbc
  rw [compareRows_isLE_iff (h a ha b hb)] at hab
  rw [compareRows_isLE_iff (h b hb c hc)] at hbc
  rw [compareRows_isLE_iff (h a ha c hc)]
  exact inOrder_trans hab hbc

variable (hsorts : SortsTo (compareRows keys) rows arranged)

include hsorts

lemma pairwise_of_sortsTo : arranged.Pairwise (InOrder keys) :=
  hsorts.ordered.imp_of_mem fun ha hb hle =>
    (compareRows_isLE_iff (h _ (hsorts.perm.subset ha) _ (hsorts.perm.subset hb))).mp hle

/-- The rows that no key tells from the given one come as they were given. -/
lemma filter_ties_of_sortsTo (row : Row) :
    arranged.filter (Ties keys row) = rows.filter (Ties keys row) := by
  by_cases hfound : ∃ x ∈ rows, Ties keys row x
  · -- the rows that tie with the given one are those that tie with a row of the list
    obtain ⟨x, hx, hrow⟩ := hfound
    have hsame : ∀ y ∈ rows, decide (Ties keys row y) = (compareRows keys x y == .eq) := by
      intro y hy
      rw [Bool.eq_iff_iff, decide_eq_true_iff, beq_iff_eq, compareRows_eq_eq_iff (h x hx y hy)]
      exact ⟨ties_trans (ties_symm hrow), ties_trans hrow⟩
    rw [List.filter_congr hsame, List.filter_congr fun y hy => hsame y (hsorts.perm.subset hy)]
    exact hsorts.stable x hx
  · have hnone : ∀ y ∈ rows, ¬decide (Ties keys row y) = true := fun y hy htie =>
      hfound ⟨y, hy, of_decide_eq_true htie⟩
    rw [List.filter_eq_nil_iff.mpr hnone,
      List.filter_eq_nil_iff.mpr fun y hy => hnone y (hsorts.perm.subset hy)]

end Akin

end Rows

section Projection

variable {column key : String} {row : Row} {value : Value}

lemma rtakeWhile_eq_iff {column key : List Char} :
    column.rtakeWhile (· != '.') = key ↔
      '.' ∉ key ∧ (column = key ∨ ∃ qualifier, column = qualifier ++ '.' :: key) := by
  constructor
  · rintro rfl
    refine ⟨fun hmem => absurd (List.mem_rtakeWhile_imp hmem) (by decide), ?_⟩
    have hcut := List.rdropWhile_append_rtakeWhile (l := column) (p := (· != '.'))
    by_cases hwhole : column.rdropWhile (· != '.') = []
    · rw [hwhole, List.nil_append] at hcut
      exact .inl hcut.symm
    · have hlast := List.rdropWhile_last_not (· != '.') column hwhole
      rw [bne_iff_ne, not_not] at hlast
      rw [← List.dropLast_append_getLast hwhole, hlast, List.append_assoc] at hcut
      exact .inr ⟨_, hcut.symm⟩
  · rintro ⟨hkey, rfl | ⟨qualifier, rfl⟩⟩
    · exact List.rtakeWhile_eq_self_iff.mpr fun c hc => bne_iff_ne.mpr fun hdot => hkey (hdot ▸ hc)
    · have hreverse : ∀ c ∈ key.reverse, (c != '.') = true := fun c hc =>
        bne_iff_ne.mpr fun hdot => hkey (hdot ▸ List.mem_reverse.mp hc)
      rw [List.rtakeWhile, List.reverse_append, List.reverse_cons, List.append_assoc,
        List.takeWhile_append_of_pos hreverse, List.singleton_append,
        List.takeWhile_cons_of_neg (by decide), List.append_nil, List.reverse_reverse]

lemma afterLastDot_iff : AfterLastDot column key ↔ bareColumn column = key := by
  have hqualified : ∀ qualifier : String,
      column = qualifier ++ "." ++ key ↔ column.toList = qualifier.toList ++ '.' :: key.toList := by
    intro qualifier
    rw [← String.toList_inj, String.toList_append, String.toList_append, List.append_assoc]
    rfl
  have hexists : (∃ qualifier, column = qualifier ++ "." ++ key) ↔
      ∃ qualifier, column.toList = qualifier ++ '.' :: key.toList := by
    simp only [hqualified]
    constructor
    · rintro ⟨qualifier, h⟩
      exact ⟨_, h⟩
    · rintro ⟨qualifier, h⟩
      exact ⟨String.ofList qualifier, by rwa [String.toList_ofList]⟩
  rw [AfterLastDot, hexists, ← String.toList_inj, ← rtakeWhile_eq_iff, ← String.toList_inj,
    bareColumn, String.toList_ofList]
  rfl

lemma mem_select_iff {columns : List String} :
    (key, value) ∈ row.select columns ↔
      row.get? key = some value ∧ ∃ column ∈ columns, AfterLastDot column key := by
  have hbare : (∃ column ∈ columns, AfterLastDot column key) ↔
      key ∈ (columns.map bareColumn).eraseDups := by
    rw [List.mem_eraseDups, List.mem_map]
    simp only [afterLastDot_iff]
  rw [hbare, Row.select, List.mem_filterMap]
  constructor
  · rintro ⟨column, hcolumn, hcell⟩
    obtain ⟨found, hfound, hpair⟩ := Option.map_eq_some_iff.mp hcell
    cases hpair
    exact ⟨hfound, hcolumn⟩
  · rintro ⟨hfound, hcolumn⟩
    exact ⟨key, hcolumn, by rw [hfound]; rfl⟩

lemma nodup_select (row : Row) (columns : List String) :
    ((row.select columns).map Prod.fst).Nodup := by
  rw [Row.select, List.map_filterMap]
  refine (nodup_eraseDups _).filterMap fun a b key ha hb => ?_
  rw [Option.map_map, Option.mem_def, Option.map_eq_some_iff] at ha hb
  obtain ⟨_, _, ha⟩ := ha
  obtain ⟨_, _, hb⟩ := hb
  exact ha.trans hb.symm

end Projection

namespace Query

/-- Let every column that orders the accepted rows hold values of one kind, besides missing and null
ones. Then every sort gives an answer. It comes from an arrangement of the accepted rows, with none
lost and none twice, that is in the lexicographic order of its keys and keeps tied rows as they were
given: the window is cut out of it, and each row is projected. A projection to columns keeps exactly
the cells of the row whose name is a selected one without its qualifier; any other one keeps the
row. -/
theorem execute_arranges (sorter : StableSort Row) (q : Query) (rows : List Row)
    (hcolumns : ∀ key ∈ q.order, Homogeneous key.field (rows.filter q.accepts)) :
    let found := rows.filter q.accepts
    (∃ arranged : List Row, arranged.Perm found ∧ arranged.Pairwise (InOrder q.order) ∧
      (∀ row, arranged.filter (Ties q.order row) = found.filter (Ties q.order row)) ∧
      q.execute rows sorter = some (
        match q.limit with
        | none => (arranged.drop q.offset.toNat).map q.project
        | some limit => ((arranged.drop q.offset.toNat).take limit.toNat).map q.project)) ∧
    ∀ row,
      match q.projection with
      | some (.columns columns) =>
        ((q.project row).map Prod.fst).Nodup ∧
          ∀ key value, (key, value) ∈ q.project row ↔
            row.get? key = some value ∧ ∃ column ∈ columns, AfterLastDot column key
      | _ => q.project row = row := by
  intro found
  have hakin : ∀ a ∈ found, ∀ b ∈ found, AkinRows q.order a b :=
    fun a ha b hb key hkey => akin_of_homogeneous (hcolumns key hkey) ha hb
  obtain ⟨arranged, harranged, hsorts⟩ := exists_arrange sorter (transitiveOn_of_akin hakin)
  refine ⟨⟨arranged, hsorts.perm, pairwise_of_sortsTo hakin hsorts,
    filter_ties_of_sortsTo hakin hsorts, ?_⟩, fun row => ?_⟩
  · rw [execute, harranged, Option.map_some, window]
    cases q.limit <;> rfl
  · split
    · next columns hprojection =>
      rw [project, hprojection]
      exact ⟨nodup_select row columns, fun key value => mem_select_iff⟩
    · next hother =>
      rw [project]
      split
      · next columns hprojection => exact absurd hprojection (hother columns)
      · rfl

/-- Rows by two keys, the first of them descending; two rows tie, one has a null, and the row with a
value of another kind is deleted. -/
theorem execute_arranges_with_tie :
    let model : Model := ⟨"User", "users", some "deleted_at", [], .allOf "users"⟩
    let q : Query :=
      { model, order := [⟨"k", .desc⟩, ⟨"n", .asc⟩], limit := some 3, offset := 1,
        projection := some (.columns ["users.id", "n", "id"]) }
    let row := fun (id : Int64) (k n : Value) => [("id", Value.int id), ("k", k), ("n", n)]
    let rows := [row 1 .null (.text "a"), row 2 (.int 5) (.text "b"),
      ("deleted_at", .bool true) :: row 3 (.text "x") .null, row 4 (.int 7) (.text "b"),
      row 5 (.int 5) .null, row 6 (.int 5) (.text "b")]
    (∀ key ∈ q.order, Homogeneous key.field (rows.filter q.accepts)) ∧
      (∃ arranged : List Row, arranged.Pairwise (InOrder q.order) ∧
        arranged.filter (Ties q.order (row 2 (.int 5) (.text "b"))) =
          [row 2 (.int 5) (.text "b"), row 6 (.int 5) (.text "b")] ∧
        q.execute rows = some (((arranged.drop 1).take 3).map q.project)) ∧
      ("id", .int 2) ∈ q.project (row 2 (.int 5) (.text "b")) ∧
      ("k", .int 5) ∉ q.project (row 2 (.int 5) (.text "b")) := by
  intro model q row rows
  have hfound : rows.filter q.accepts = [row 1 .null (.text "a"), row 2 (.int 5) (.text "b"),
      row 4 (.int 7) (.text "b"), row 5 (.int 5) .null, row 6 (.int 5) (.text "b")] := by decide
  have hk : Homogeneous "k" (rows.filter q.accepts) := by
    rw [hfound]
    refine .inr (.inl ?_)
    simp [row, Row.present?, Row.get?, lookup_cons_eq, Value.isNull]
  have hn : Homogeneous "n" (rows.filter q.accepts) := by
    rw [hfound]
    refine .inr (.inr ?_)
    simp [row, Row.present?, Row.get?, lookup_cons_eq, Value.isNull]
  have hcolumns : ∀ key ∈ q.order, Homogeneous key.field (rows.filter q.accepts) := by
    intro key hkey
    obtain rfl | rfl := List.mem_pair.mp hkey
    · exact hk
    · exact hn
  obtain ⟨⟨arranged, -, hsorted, hstable, hexecute⟩, hproject⟩ :=
    execute_arranges .standard q rows hcolumns
  refine ⟨hcolumns, ⟨arranged, hsorted, (hstable _).trans ?_, hexecute⟩, ?_, ?_⟩
  · rw [hfound]
    decide
  · apply ((hproject _).2 "id" (.int 2)).mpr
    exact ⟨rfl, "users.id", by decide, by decide, .inr ⟨"users", rfl⟩⟩
  · intro h
    obtain ⟨-, column, hcolumn, hlast⟩ := ((hproject _).2 "k" (.int 5)).mp h
    have hnone : ∀ column ∈ ["users.id", "n", "id"], bareColumn column ≠ "k" := by decide
    exact hnone column hcolumn (afterLastDot_iff.mp hlast)

-- the null is first, and of the rows that tie the one that was given first
example :
    let model : Model := ⟨"User", "users", none, [], .allOf "users"⟩
    let q : Query := { model, order := [⟨"k", .asc⟩] }
    let rows : List Row := [[("id", .int 1), ("k", .int 5)], [("id", .int 2), ("k", .int 5)],
      [("id", .int 3), ("k", .null)]]
    (q.execute rows).map (fun row => row.get? "id") =
      [some (.int 3), some (.int 1), some (.int 2)] := by decide

end Query

end ParamQuery
