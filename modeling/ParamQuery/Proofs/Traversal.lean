import Mathlib.Tactic.Lemma

/-!
# Computations that may fail

Reading is a chain of parts that may fail, and a list is read element by element. The lemmas
here take such a computation apart: what its parts gave if it succeeded, and which part failed.
-/

namespace ParamQuery

variable {ε α β : Type}

lemma bind_eq_ok_iff {computation : Except ε α} {next : α → Except ε β} {result : β} :
    (computation >>= next) = .ok result ↔
      ∃ value, computation = .ok value ∧ next value = .ok result := by
  cases computation <;> simp [bind, Except.bind]

lemma bind_of_ok {computation : Except ε α} {next : α → Except ε β} {value : α}
    (h : computation = .ok value) : (computation >>= next) = next value := by
  rw [h]
  rfl

lemma bind_of_error {computation : Except ε α} {next : α → Except ε β} {fault : ε}
    (h : computation = .error fault) : (computation >>= next) = .error fault := by
  rw [h]
  rfl

/-- The fault is that of the first part that fails. -/
lemma bind_eq_error_iff {computation : Except ε α} {next : α → Except ε β} {fault : ε} :
    (computation >>= next) = .error fault ↔
      computation = .error fault ∨
        ∃ value, computation = .ok value ∧ next value = .error fault := by
  cases computation <;> simp [bind, Except.bind]

lemma toOption_eq_some_iff {computation : Except ε α} {value : α} :
    computation.toOption = some value ↔ computation = .ok value := by
  cases computation <;> simp [Except.toOption]

lemma elim_throw_eq_ok_iff {found : Option α} {fault : ε} {value : α} :
    found.elim (throw fault) pure = (.ok value : Except ε α) ↔ found = some value := by
  cases found <;> simp [throw, throwThe, MonadExceptOf.throw, pure, Except.pure]

lemma elim_throw_eq_error_iff {found : Option α} {fault given : ε} :
    found.elim (throw given) pure = (.error fault : Except ε α) ↔ found = none ∧ fault = given := by
  cases found <;> simp [throw, throwThe, MonadExceptOf.throw, pure, Except.pure, eq_comm]

lemma mapM_cons_eq_ok_iff {f : α → Except ε β} {x : α} {xs : List α} {ys : List β} :
    (x :: xs).mapM f = .ok ys ↔
      ∃ y rest, f x = .ok y ∧ xs.mapM f = .ok rest ∧ ys = y :: rest := by
  rw [List.mapM_cons, bind_eq_ok_iff]
  constructor
  · rintro ⟨y, hy, hrest⟩
    obtain ⟨rest, hxs, hpure⟩ := bind_eq_ok_iff.mp hrest
    cases hpure
    exact ⟨y, rest, hy, hxs, rfl⟩
  · rintro ⟨y, rest, hy, hxs, rfl⟩
    exact ⟨y, hy, bind_eq_ok_iff.mpr ⟨rest, hxs, rfl⟩⟩

/-- A list fails with the fault of its first element that fails. -/
lemma mapM_cons_eq_error_iff {f : α → Except ε β} {x : α} {xs : List α} {fault : ε} :
    (x :: xs).mapM f = .error fault ↔
      f x = .error fault ∨ (∃ y, f x = .ok y) ∧ xs.mapM f = .error fault := by
  rw [List.mapM_cons]
  cases f x with
  | error first => simp [bind, Except.bind]
  | ok y => cases xs.mapM f <;> simp [bind, Except.bind, pure, Except.pure]

lemma mapM_congr {f g : α → Except ε β} {xs : List α} (h : ∀ x ∈ xs, f x = g x) :
    xs.mapM f = xs.mapM g := by
  induction xs with
  | nil => rfl
  | cons x xs ih =>
    obtain ⟨hx, hxs⟩ := List.forall_mem_cons.mp h
    rw [List.mapM_cons, List.mapM_cons, hx, ih hxs]

/-- Where every element succeeds, the results are those of the elements that succeed. -/
lemma filterMap_toOption_of_mapM {f : α → Except ε β} {xs : List α} {ys : List β}
    (h : xs.mapM f = .ok ys) : xs.filterMap (fun x => (f x).toOption) = ys := by
  induction xs generalizing ys with
  | nil =>
    cases h
    rfl
  | cons x xs ih =>
    obtain ⟨y, rest, hy, hxs, rfl⟩ := mapM_cons_eq_ok_iff.mp h
    have hhead : (f x).toOption = some y := by
      rw [hy]
      rfl
    simp only [List.filterMap_cons, hhead, ih hxs]

end ParamQuery
