import ParamQuery.Proofs.RowOrder
import Mathlib.Algebra.Order.Floor.Div

/-!
# Windows of a result

A query with a window gives a part of what it gives without one: projection changes rows but loses
none, so the window may as well be cut at the end. Windows of one size that follow one another
divide the result into pages, and the pages together are the whole of it. Where the keys do not
order the rows a sort may give up, and then no page has an answer and neither has the whole.
-/

namespace ParamQuery

namespace Query

/-- The query without its window. -/
def whole (q : Query) : Query := { q with limit := none, offset := 0 }

/-- The query for one page, counted from zero, of the result in pages of one size. -/
def page (q : Query) (size : UInt32) (k : Nat) : Query :=
  { q with limit := some size, offset := UInt32.ofNat (k * size.toNat) }

variable (q : Query) (rows : List Row) (sorter : StableSort Row)

lemma execute_whole :
    q.whole.execute rows sorter =
      (arrange sorter q.order (rows.filter q.accepts)).map (List.map q.project) := rfl

lemma window_map (f : Row → Row) : q.window (rows.map f) = (q.window rows).map f := by
  unfold window
  cases q.limit with
  | none => exact List.map_drop.symm
  | some limit =>
    dsimp only
    rw [List.map_take, List.map_drop]

lemma execute_eq_window :
    q.execute rows sorter = Option.map q.window (q.whole.execute rows sorter) := by
  rw [execute_whole, Option.map_map]
  exact congrArg (Option.map · _) (funext fun arranged => (q.window_map arranged q.project).symm)

lemma length_window :
    (q.window rows).length =
      match q.limit with
      | none => rows.length - q.offset.toNat
      | some limit => min limit.toNat (rows.length - q.offset.toNat) := by
  unfold window
  cases q.limit with
  | none => exact List.length_drop
  | some limit =>
    dsimp only
    rw [List.length_take, List.length_drop]

variable {q rows sorter} {answer : List Row}

/-- The scope and the predicate alone say how many rows there are. -/
lemma length_of_execute_whole (h : q.whole.execute rows sorter = some answer) :
    answer.length = q.count rows := by
  rw [execute_whole, Option.map_eq_some_iff] at h
  obtain ⟨arranged, harranged, rfl⟩ := h
  rw [List.length_map, (perm_of_arrange harranged).length_eq, count, List.countP_eq_length_filter]

lemma length_of_execute (h : q.execute rows sorter = some answer) :
    answer.length =
      match q.limit with
      | none => q.count rows - q.offset.toNat
      | some limit => min limit.toNat (q.count rows - q.offset.toNat) := by
  rw [execute_eq_window, Option.map_eq_some_iff] at h
  obtain ⟨all, hall, rfl⟩ := h
  rw [length_window, length_of_execute_whole hall]

variable (q rows) in
/-- Every sort gives an answer just if the keys order the accepted rows. -/
lemma forall_exists_execute_iff :
    (∀ sorter, ∃ answer, q.execute rows sorter = some answer) ↔
      TransitiveOn q.order (rows.filter q.accepts) := by
  rw [← forall_exists_arrange_iff]
  refine forall_congr' fun sorter => ?_
  simp only [execute, ← Option.isSome_iff_exists, Option.isSome_map]

variable (q rows sorter) in
/-- A page is cut out of the whole result after the pages before it. -/
lemma execute_page {size : UInt32} {k : Nat} (h : k * size.toNat < UInt32.size) :
    (q.page size k).execute rows sorter =
      Option.map (fun all => (all.drop (k * size.toNat)).take size.toNat)
        (q.whole.execute rows sorter) := by
  have hskip : (UInt32.ofNat (k * size.toNat)).toNat = k * size.toNat :=
    UInt32.toNat_ofNat_of_lt' h
  have hcut : (q.page size k).execute rows sorter =
      Option.map (fun all => (all.drop (UInt32.ofNat (k * size.toNat)).toNat).take size.toNat)
        (q.whole.execute rows sorter) := execute_eq_window (q.page size k) rows sorter
  rw [hcut, hskip]

/-- The first slices of one size are together the first elements. -/
lemma flatten_slices {α : Type} (xs : List α) (size slices : Nat) :
    ((List.range slices).map fun k => (xs.drop (k * size)).take size).flatten =
      xs.take (slices * size) := by
  induction slices with
  | zero => simp
  | succ slices ih =>
    rw [List.range_succ, List.map_append, List.flatten_append, ih, List.map_singleton,
      List.flatten_singleton, Nat.succ_mul, List.take_add]

lemma mapM_eq_some {α β : Type} {xs : List α} {f : α → Option β} {g : α → β}
    (h : ∀ x ∈ xs, f x = some (g x)) : xs.mapM f = some (xs.map g) := by
  induction xs with
  | nil => rfl
  | cons x rest ih =>
    obtain ⟨hx, hrest⟩ := List.forall_mem_cons.mp h
    rw [List.mapM_cons, hx, ih hrest]
    rfl

variable (q rows sorter) in
/-- The first pages together are the first rows of the whole result, also if that has no answer.
Where there is no page at all the whole must have one. -/
lemma flatten_pages {size : UInt32} {pages : Nat}
    (hfits : ∀ k < pages, k * size.toNat < UInt32.size)
    (hanswer : pages = 0 → ∃ answer, q.whole.execute rows sorter = some answer) :
    Option.map List.flatten
        ((List.range pages).mapM fun k => (q.page size k).execute rows sorter) =
      Option.map (List.take (pages * size.toNat)) (q.whole.execute rows sorter) := by
  have hpage := fun k hk => execute_page q rows sorter (hfits k (List.mem_range.mp hk))
  cases hall : q.whole.execute rows sorter with
  | some all =>
    simp only [hall, Option.map_some] at hpage
    rw [mapM_eq_some hpage, Option.map_some, Option.map_some, flatten_slices]
  | none =>
    cases pages with
    | zero =>
      obtain ⟨answer, hsome⟩ := hanswer rfl
      rw [hall] at hsome
      cases hsome
    | succ pages =>
      have hfirst := hpage 0 (List.mem_range.mpr pages.succ_pos)
      rw [hall] at hfirst
      rw [List.range_succ_eq_map, List.mapM_cons, hfirst]
      rfl

/-- Every sort gives an answer just if the keys order the accepted rows. An answer in a window has
as many rows as there is room for, of those that are left after the offset. The pages of a query
without a window, one after another, are its whole answer, and if it has none they have none. -/
theorem windows_partition (q : Query) (rows : List Row) :
    ((∀ sorter, ∃ answer, q.execute rows sorter = some answer) ↔
      TransitiveOn q.order (rows.filter q.accepts)) ∧
    ∀ sorter,
      (∀ answer, q.execute rows sorter = some answer →
        answer.length =
          match q.limit with
          | none => q.count rows - q.offset.toNat
          | some limit => min limit.toNat (q.count rows - q.offset.toNat)) ∧
      (q.limit = none → q.offset = 0 → ∀ size : UInt32, 1 ≤ size →
        let pages := q.count rows ⌈/⌉ size.toNat
        (∀ k < pages, k * size.toNat < UInt32.size) →
          Option.map List.flatten
              ((List.range pages).mapM fun k => (q.page size k).execute rows sorter) =
            q.execute rows sorter) := by
  refine ⟨forall_exists_execute_iff q rows, fun sorter => ⟨fun answer => length_of_execute, ?_⟩⟩
  intro hlimit hoffset size hsize pages hfits
  have hsame : q.whole = q := by
    unfold whole
    rw [← hlimit, ← hoffset]
  have hpos : 0 < size.toNat := UInt32.le_iff_toNat_le.mp hsize
  -- the pages have room for every row
  have hroom : q.count rows ≤ pages * size.toNat := by
    rw [Nat.mul_comm]
    exact le_smul_ceilDiv hpos
  rw [flatten_pages q rows sorter hfits, hsame]
  · cases hall : q.execute rows sorter with
    | none => rfl
    | some all =>
      rw [← hsame] at hall
      rw [Option.map_some, List.take_of_length_le]
      exact (length_of_execute_whole hall).trans_le hroom
  · intro hnone
    have hcount : q.count rows = 0 := Nat.le_zero.mp (by simpa [hnone] using hroom)
    have hempty : rows.filter q.accepts = [] := by
      rw [← List.length_eq_zero_iff, ← List.countP_eq_length_filter]
      exact hcount
    have htransitive : TransitiveOn q.order (rows.filter q.accepts) := by
      rw [hempty]
      exact fun a ha => absurd ha List.not_mem_nil
    rw [hsame]
    exact (forall_exists_execute_iff q rows).mpr htransitive sorter

/-- Five rows are in scope, in pages of two; the last page is not full, and neither is a window
that starts at the fourth row. -/
theorem windows_partition_uneven :
    let model : Model := ⟨"User", "users", some "deleted_at", [], .allOf "users"⟩
    let q : Query := { model, projection := some (.columns ["users.id"]), order := [⟨"k", .desc⟩] }
    let row := fun (id k : Int64) => [("id", Value.int id), ("k", Value.int k)]
    let rows := [row 1 4, row 2 7, ("deleted_at", .text "2020") :: row 3 5, row 4 7, row 5 0,
      row 6 7]
    let cut : Query := { q with limit := some 3, offset := 3 }
    Option.map List.flatten ((List.range 3).mapM fun k => (q.page 2 k).execute rows) =
        q.execute rows ∧
      (∃ answer, q.execute rows = some answer ∧ answer.length = 5) ∧
      ∃ answer, cut.execute rows = some answer ∧ answer.length = 2 := by
  intro model q row rows cut
  have hcount : q.count rows = 5 := by decide
  have hcut : cut.count rows = 5 := by decide
  have hpages : q.count rows ⌈/⌉ (2 : UInt32).toNat = 3 := by
    rw [hcount]
    rfl
  have hordered : TransitiveOn [⟨"k", .desc⟩] (rows.filter q.accepts) := by
    unfold TransitiveOn
    decide +kernel
  obtain ⟨hanswers, hwindows⟩ := windows_partition q rows
  obtain ⟨hcutAnswers, hcutWindows⟩ := windows_partition cut rows
  obtain ⟨answer, hanswer⟩ := hanswers.mpr hordered .standard
  obtain ⟨part, hpart⟩ := hcutAnswers.mpr hordered .standard
  have hall := (hwindows .standard).2 rfl rfl 2 (by decide)
  dsimp only at hall
  rw [hpages] at hall
  refine ⟨hall (by decide), ⟨answer, hanswer, ((hwindows _).1 answer hanswer).trans ?_⟩,
    part, hpart, ((hcutWindows _).1 part hpart).trans ?_⟩
  · rw [hcount]
    rfl
  · rw [hcut]
    rfl

/-- Texts between numbers tie with both, and a sort of more than a few such rows may give up. -/
theorem long_loop_has_no_answer :
    let model : Model := ⟨"User", "users", none, [], .allOf "users"⟩
    let q : Query := { model, order := [⟨"k", .asc⟩] }
    let round : List Row := [[("k", .text "x")], [("k", .int 1)], [("k", .int 0)]]
    let rows := (List.replicate 8 round).flatten
    q.count rows = 24 ∧ q.limit = none ∧ q.execute rows = none := by
  intro model q round rows
  have hall : rows.filter q.accepts = rows := by rfl
  have hloop : ¬Coherent (compareRows q.order) rows := by
    intro h
    have hle := h.trans [("k", .int 1)] (by decide) [("k", .text "x")] (by decide)
      [("k", .int 0)] (by decide) (by decide) (by decide)
    exact absurd hle (by decide)
  have hgivesUp : arrange .standard q.order rows = none := by
    rw [arrange, if_neg (by decide)]
    exact StableSort.byInsertion_eq_none (by decide) hloop
  refine ⟨by decide, rfl, ?_⟩
  rw [execute, hall, hgivesUp]
  rfl

end Query

end ParamQuery
