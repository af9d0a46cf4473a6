import ParamQuery.Proofs.ValueOrder
import ParamQuery.Query.Execution

/-!
# The order of rows

Exchanging two rows reverses their comparison by a list of keys. The comparison is not transitive
on all rows, because a cell can tie with two cells that do not tie. A loop of three rows needs such
a cell under the first key that tells any two of them apart, and later keys that lead back through
it; where there is no such loop the comparison is a total preorder. Just there every stable sort
arranges the rows.
-/

namespace ParamQuery

lemma swap_compareCells (x y : Option Value) : (compareCells x y).swap = compareCells y x := by
  cases x with
  | none => cases y <;> rfl
  | some u =>
    cases y with
    | none => rfl
    | some v =>
      rw [compareCells, compareCells, Value.compare_swap u v]
      cases u.compare v <;> rfl

lemma exists_compare_of_ne_eq {u v : Value} (h : compareCells (some u) (some v) ≠ .eq) :
    ∃ o, u.compare v = some o ∧ compareCells (some u) (some v) = o := by
  rw [compareCells] at h ⊢
  cases huv : u.compare v with
  | none => exact absurd (by rw [huv]; rfl) h
  | some o => exact ⟨o, rfl, rfl⟩

lemma compareCells_lt_trans {x y z : Option Value} (hxy : compareCells x y = .lt)
    (hyz : compareCells y z = .lt) : compareCells x z = .lt := by
  cases z with
  | none => cases y <;> simp [compareCells] at hyz
  | some w =>
    cases x with
    | none => rfl
    | some u =>
      cases y with
      | none => simp [compareCells] at hxy
      | some v =>
        obtain ⟨o, huv, ho⟩ := exists_compare_of_ne_eq (by rw [hxy]; decide)
        obtain ⟨r, hvw, hr⟩ := exists_compare_of_ne_eq (by rw [hyz]; decide)
        have huw := Value.lt_trans (huv.trans (by rw [← ho, hxy])) (hvw.trans (by rw [← hr, hyz]))
        rw [compareCells, huw]
        rfl

lemma compareCells_ties_iff {x y z : Option Value} (h : compareCells x z ≠ .eq) :
    compareCells x y = .eq ∧ compareCells y z = .eq ↔
      ∃ u v w, x = some u ∧ y = some v ∧ z = some w ∧ Value.Bridge u v w := by
  constructor
  · rintro ⟨hxy, hyz⟩
    cases x with
    | none =>
      cases y with
      | none => exact absurd hyz h
      | some v => simp [compareCells] at hxy
    | some u =>
      cases y with
      | none => simp [compareCells] at hxy
      | some v =>
        cases z with
        | none => simp [compareCells] at hyz
        | some w =>
          obtain ⟨o, huw, ho⟩ := exists_compare_of_ne_eq h
          have hbridge := (Value.ties_iff_bridge huw (ho ▸ h)).mp ⟨hxy, hyz⟩
          exact ⟨u, v, w, rfl, rfl, rfl, hbridge⟩
  · rintro ⟨u, v, w, rfl, rfl, rfl, hbridge⟩
    obtain ⟨o, huw, ho⟩ := exists_compare_of_ne_eq h
    exact (Value.ties_iff_bridge huw (ho ▸ h)).mpr hbridge

namespace SortKey

lemma swap_compare (key : SortKey) (a b : Row) : (key.compare a b).swap = key.compare b a := by
  simp only [compare]
  split <;> rw [swap_compareCells]

lemma compare_lt_trans {key : SortKey} {a b c : Row} (hab : key.compare a b = .lt)
    (hbc : key.compare b c = .lt) : key.compare a c = .lt := by
  simp only [compare] at *
  split
  · next hasc =>
    rw [hasc] at hab hbc
    exact compareCells_lt_trans hab hbc
  · next hdesc =>
    rw [hdesc] at hab hbc
    rw [swap_compareCells] at *
    exact compareCells_lt_trans hbc hab

lemma not_isLE_of_lt_of_lt {key : SortKey} {a b c : Row} (hab : key.compare a b = .lt)
    (hbc : key.compare b c = .lt) : ¬ (key.compare c a).isLE := by
  have hca : key.compare c a = .gt := by
    rw [← swap_compare, compare_lt_trans hab hbc]
    rfl
  rw [hca]
  decide

/-- The key puts `x` before `z`, and the cell of `y` ties with the cells of both. -/
def Blurs (key : SortKey) (x y z : Row) : Prop :=
  key.compare x z = .lt ∧ ∃ u v w, x.present? key.field = some u ∧
    y.present? key.field = some v ∧ z.present? key.field = some w ∧ Value.Bridge u v w

lemma compare_eq_eq_iff {key : SortKey} {a b : Row} :
    key.compare a b = .eq ↔ compareCells (a.present? key.field) (b.present? key.field) = .eq := by
  simp only [compare]
  split
  · exact Iff.rfl
  · exact Ordering.swap_eq_eq

lemma blurs_iff {key : SortKey} {x y z : Row} :
    key.Blurs x y z ↔
      key.compare x z = .lt ∧ key.compare x y = .eq ∧ key.compare y z = .eq := by
  rw [Blurs, compare_eq_eq_iff, compare_eq_eq_iff]
  refine and_congr_right fun hxz => (compareCells_ties_iff fun heq => ?_).symm
  rw [compare_eq_eq_iff.mpr heq] at hxz
  contradiction

end SortKey

lemma compareRows_cons (key : SortKey) (keys : List SortKey) (a b : Row) :
    compareRows (key :: keys) a b = (key.compare a b).then (compareRows keys a b) := rfl

lemma compareRows_append (before after : List SortKey) (a b : Row) :
    compareRows (before ++ after) a b =
      (compareRows before a b).then (compareRows after a b) := by
  induction before with
  | nil => rfl
  | cons key keys ih =>
    rw [List.cons_append, compareRows_cons, compareRows_cons, ih, Ordering.then_assoc]

theorem swap_compareRows (keys : List SortKey) (a b : Row) :
    (compareRows keys a b).swap = compareRows keys b a := by
  induction keys with
  | nil => rfl
  | cons key keys ih =>
    rw [compareRows_cons, compareRows_cons, Ordering.swap_then, SortKey.swap_compare, ih]

/-- Three rows `z ≤ y ≤ x < z`: `key` is the first key that tells any two of them apart, it tells
only `x` and `z` apart, and the keys after it lead back from `z` to `x`. -/
inductive Loop (x y z : Row) : List SortKey → Prop where
  | mk {before after : List SortKey} {key : SortKey} (hxy : compareRows before x y = .eq)
      (hyz : compareRows before y z = .eq) (hxz : compareRows before x z = .eq)
      (hkey : key.Blurs x y z) (hzy : (compareRows after z y).isLE)
      (hyx : (compareRows after y x).isLE) : Loop x y z (before ++ key :: after)

/-- The comparison is transitive on the rows. -/
def TransitiveOn (keys : List SortKey) (rows : List Row) : Prop :=
  ∀ a ∈ rows, ∀ b ∈ rows, ∀ c ∈ rows, (compareRows keys a b).isLE →
    (compareRows keys b c).isLE → (compareRows keys a c).isLE

lemma Loop.cons {key : SortKey} {keys : List SortKey} {x y z : Row} (h : Loop x y z keys)
    (hxy : key.compare x y = .eq) (hyz : key.compare y z = .eq) (hxz : key.compare x z = .eq) :
    Loop x y z (key :: keys) := by
  cases h with
  | @mk before after first hxy' hyz' hxz' hkey hzy hyx =>
    have hloop : Loop x y z ((key :: before) ++ first :: after) :=
      .mk (by rw [compareRows_cons, hxy, hxy']; rfl) (by rw [compareRows_cons, hyz, hyz']; rfl)
        (by rw [compareRows_cons, hxz, hxz']; rfl) hkey hzy hyx
    exact hloop

/-- A loop is a failure of transitivity. -/
lemma Loop.spec {keys : List SortKey} {x y z : Row} (h : Loop x y z keys) :
    (compareRows keys z y).isLE ∧ (compareRows keys y x).isLE ∧
      compareRows keys z x = .gt := by
  cases h with
  | @mk before after key hxy hyz hxz hkey hzy hyx =>
    obtain ⟨hlt, hkeyxy, hkeyyz⟩ := SortKey.blurs_iff.mp hkey
    have hback : ∀ a b : Row, compareRows before a b = .eq → key.compare a b = .eq →
        compareRows (before ++ key :: after) b a = compareRows after b a := by
      intro a b hbefore htie
      rw [compareRows_append, compareRows_cons, ← swap_compareRows before, hbefore,
        ← SortKey.swap_compare, htie]
      rfl
    refine ⟨?_, ?_, ?_⟩
    · rw [hback y z hyz hkeyyz]
      exact hzy
    · rw [hback x y hxy hkeyxy]
      exact hyx
    · rw [compareRows_append, compareRows_cons, ← swap_compareRows before, hxz,
        ← SortKey.swap_compare, hlt]
      rfl

lemma SortKey.compare_eq_eq_symm {key : SortKey} {a b : Row} (h : key.compare a b = .eq) :
    key.compare b a = .eq := by
  rw [← SortKey.swap_compare, h]
  rfl

lemma loop_of_lt {key : SortKey} {keys : List SortKey} {a b c : Row}
    (hab : key.compare a b = .eq) (hbc : key.compare b c = .eq) (hca : key.compare c a = .lt)
    (hle : (compareRows (key :: keys) a b).isLE) (hle' : (compareRows (key :: keys) b c).isLE) :
    Loop c b a (key :: keys) := by
  have hblurs : key.Blurs c b a := SortKey.blurs_iff.mpr
    ⟨hca, SortKey.compare_eq_eq_symm hbc, SortKey.compare_eq_eq_symm hab⟩
  rw [compareRows_cons, hab] at hle
  rw [compareRows_cons, hbc] at hle'
  exact @Loop.mk c b a [] keys key rfl rfl rfl hblurs hle hle'

/-- Three rows in a circle that do not all tie form a loop, in one of the rotations. -/
lemma exists_loop {keys : List SortKey} {a b c : Row} (hab : (compareRows keys a b).isLE)
    (hbc : (compareRows keys b c).isLE) (hca : (compareRows keys c a).isLE)
    (hne : ¬ (compareRows keys a b = .eq ∧ compareRows keys b c = .eq ∧
      compareRows keys c a = .eq)) :
    Loop c b a keys ∨ Loop a c b keys ∨ Loop b a c keys := by
  induction keys with
  | nil => exact absurd ⟨rfl, rfl, rfl⟩ hne
  | cons key keys ih =>
    have hleab := Ordering.isLE_left_of_isLE_then hab
    have hlebc := Ordering.isLE_left_of_isLE_then hbc
    have hleca := Ordering.isLE_left_of_isLE_then hca
    -- two strict steps under one key would make the third one lead back
    rcases Ordering.isLE_iff_eq_lt_or_eq_eq.mp hleab with hltab | heqab
    · rcases Ordering.isLE_iff_eq_lt_or_eq_eq.mp hlebc with hltbc | heqbc
      · exact absurd hleca (SortKey.not_isLE_of_lt_of_lt hltab hltbc)
      · rcases Ordering.isLE_iff_eq_lt_or_eq_eq.mp hleca with hltca | heqca
        · exact absurd hlebc (SortKey.not_isLE_of_lt_of_lt hltca hltab)
        · exact .inr (.inl (loop_of_lt heqbc heqca hltab hbc hca))
    · rcases Ordering.isLE_iff_eq_lt_or_eq_eq.mp hlebc with hltbc | heqbc
      · rcases Ordering.isLE_iff_eq_lt_or_eq_eq.mp hleca with hltca | heqca
        · exact absurd hleab (SortKey.not_isLE_of_lt_of_lt hltbc hltca)
        · exact .inr (.inr (loop_of_lt heqca heqab hltbc hca hab))
      · rcases Ordering.isLE_iff_eq_lt_or_eq_eq.mp hleca with hltca | heqca
        · exact .inl (loop_of_lt heqab heqbc hltca hab hbc)
        · rw [compareRows_cons, heqab] at hab hne
          rw [compareRows_cons, heqbc] at hbc hne
          rw [compareRows_cons, heqca] at hca hne
          have heqba := SortKey.compare_eq_eq_symm heqab
          have heqcb := SortKey.compare_eq_eq_symm heqbc
          have heqac := SortKey.compare_eq_eq_symm heqca
          rcases ih hab hbc hca hne with hloop | hloop | hloop
          · exact .inl (hloop.cons heqcb heqba heqca)
          · exact .inr (.inl (hloop.cons heqac heqcb heqab))
          · exact .inr (.inr (hloop.cons heqba heqac heqbc))

/-- Exchanging two rows reverses their comparison, and on a list of rows the comparison is a total
preorder exactly if no three of them form a loop. -/
theorem compareRows_preorder_iff (keys : List SortKey) :
    (∀ a b : Row, compareRows keys b a = (compareRows keys a b).swap) ∧
      ∀ rows : List Row,
        TransitiveOn keys rows ↔ ∀ x ∈ rows, ∀ y ∈ rows, ∀ z ∈ rows, ¬ Loop x y z keys := by
  refine ⟨fun a b => (swap_compareRows keys a b).symm, fun rows => ⟨?_, ?_⟩⟩
  · intro htrans x hx y hy z hz hloop
    obtain ⟨hzy, hyx, hzx⟩ := hloop.spec
    have hle := htrans z hz y hy x hx hzy hyx
    rw [hzx] at hle
    exact absurd hle (by decide)
  · intro hno a ha b hb c hc hab hbc
    rw [Ordering.isLE_iff_ne_gt]
    intro hgt
    have hlt : compareRows keys c a = .lt := by
      rw [← swap_compareRows, hgt]
      rfl
    have hca : (compareRows keys c a).isLE := by rw [hlt]; decide
    rcases exists_loop hab hbc hca (by rw [hlt]; simp) with hloop | hloop | hloop
    · exact hno c hc b hb a ha hloop
    · exact hno a ha c hc b hb hloop
    · exact hno b hb a ha c hc hloop

theorem compareRows_not_transitive :
    ¬ ∀ (keys : List SortKey) (a b c : Row), (compareRows keys a b).isLE →
      (compareRows keys b c).isLE → (compareRows keys a c).isLE := by
  intro h
  have hle := h [⟨"k", .asc⟩] [("k", .int 9007199254740993)]
    [("k", .float (Binary64.ofInt 9007199254740992))] [("k", .int 9007199254740992)]
    (by decide +kernel) (by decide +kernel)
  exact absurd hle (by decide +kernel)

section Sorting

variable {sorter : StableSort Row} {keys : List SortKey} {rows arranged : List Row}

lemma coherent_compareRows_iff : Coherent (compareRows keys) rows ↔ TransitiveOn keys rows :=
  ⟨fun h => h.trans, fun h => ⟨fun a _ b _ => swap_compareRows keys a b, h⟩⟩

lemma perm_of_arrange (h : arrange sorter keys rows = some arranged) : arranged.Perm rows := by
  rw [arrange] at h
  split at h
  · cases h
    exact .refl _
  · exact sorter.perm_of_sort h

lemma exists_arrange (sorter : StableSort Row) (h : TransitiveOn keys rows) :
    ∃ arranged, arrange sorter keys rows = some arranged ∧
      SortsTo (compareRows keys) rows arranged := by
  rw [arrange]
  split
  case isTrue hempty =>
    obtain rfl := List.isEmpty_iff.mp hempty
    exact ⟨rows, rfl, .refl _, List.pairwise_of_forall fun _ _ => rfl, fun _ _ => rfl⟩
  case isFalse => exact sorter.sortsTo_of_coherent (coherent_compareRows_iff.mpr h)

/-- Every sort arranges the rows just if the comparison is transitive on them. -/
lemma forall_exists_arrange_iff :
    (∀ sorter, ∃ arranged, arrange sorter keys rows = some arranged) ↔
      TransitiveOn keys rows := by
  constructor
  · intro h
    obtain ⟨arranged, harranged⟩ := h (.byInsertion 0)
    rw [arrange] at harranged
    split at harranged
    case isTrue hempty =>
      obtain rfl := List.isEmpty_iff.mp hempty
      exact fun _ _ _ _ _ _ _ _ => rfl
    case isFalse =>
      -- the most cautious sort by insertion looks at every list that has a row
      obtain ⟨hnone | hcoherent, -⟩ := Option.ite_some_none_eq_some.mp harranged
      · obtain rfl := List.length_eq_zero_iff.mp (Nat.le_zero.mp hnone)
        exact fun a ha => absurd ha List.not_mem_nil
      · exact coherent_compareRows_iff.mp hcoherent
  · intro h sorter
    obtain ⟨arranged, harranged, -⟩ := exists_arrange sorter h
    exact ⟨arranged, harranged⟩

end Sorting

end ParamQuery
