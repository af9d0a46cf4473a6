/-!
# Stable sorts

A stable sort puts the elements of a list in order and leaves those that tie as they stood. It owes
this only where the comparison is a total preorder on the elements. Otherwise it may give up, or
return the elements in any order. The sort by insertion is one of the sorts that keep this.
-/

namespace ParamQuery

section Order

variable {α : Type} (compare : α → α → Ordering) (xs : List α)

/-- The comparison is a total preorder on the elements. -/
structure Coherent : Prop where
  swap : ∀ a ∈ xs, ∀ b ∈ xs, (compare a b).swap = compare b a
  trans : ∀ a ∈ xs, ∀ b ∈ xs, ∀ c ∈ xs,
    (compare a b).isLE → (compare b c).isLE → (compare a c).isLE

instance : Decidable (Coherent compare xs) :=
  decidable_of_iff
    ((∀ a ∈ xs, ∀ b ∈ xs, (compare a b).swap = compare b a) ∧
      ∀ a ∈ xs, ∀ b ∈ xs, ∀ c ∈ xs,
        (compare a b).isLE → (compare b c).isLE → (compare a c).isLE)
    ⟨fun h => ⟨h.1, h.2⟩, fun h => ⟨h.swap, h.trans⟩⟩

/-- The elements in order, with those that tie as they stood. -/
structure SortsTo (sorted : List α) : Prop where
  perm : sorted.Perm xs
  ordered : sorted.Pairwise fun a b => (compare a b).isLE
  stable : ∀ x ∈ xs, sorted.filter (fun y => compare x y == .eq) =
    xs.filter fun y => compare x y == .eq

end Order

/-- A sort, which may give up where the comparison is no total preorder on the elements. -/
structure StableSort (α : Type) where
  sort : (α → α → Ordering) → List α → Option (List α)
  perm_of_sort : ∀ {compare : α → α → Ordering} {xs sorted : List α},
    sort compare xs = some sorted → sorted.Perm xs
  sortsTo_of_coherent : ∀ {compare : α → α → Ordering} {xs : List α}, Coherent compare xs →
    ∃ sorted, sort compare xs = some sorted ∧ SortsTo compare xs sorted

section Insertion

variable {α : Type} {compare : α → α → Ordering} {xs seen sorted : List α} {x : α}

/-- Inserts an element into a list with the greatest first, in front of the first one that it does
not come before. -/
def insertBack (compare : α → α → Ordering) (x : α) : List α → List α
  | [] => [x]
  | y :: rest => if compare x y = .lt then y :: insertBack compare x rest else x :: y :: rest

/-- Inserts one element after the other into those that are sorted already. -/
def insertionSort (compare : α → α → Ordering) (xs : List α) : List α :=
  (xs.foldl (fun sorted x => insertBack compare x sorted) []).reverse

theorem insertBack_perm (x : α) (sorted : List α) :
    (insertBack compare x sorted).Perm (x :: sorted) := by
  induction sorted with
  | nil => exact .refl _
  | cons y rest ih =>
    rw [insertBack]
    split
    · exact (ih.cons y).trans (.swap x y rest)
    · exact .refl _

theorem insertionSort_perm (compare : α → α → Ordering) (xs : List α) :
    (insertionSort compare xs).Perm xs := by
  have hfold : ∀ sorted : List α,
      (xs.foldl (fun sorted x => insertBack compare x sorted) sorted).Perm (xs ++ sorted) := by
    induction xs with
    | nil => exact fun sorted => .refl sorted
    | cons x rest ih =>
      intro sorted
      exact (ih _).trans (((insertBack_perm x sorted).append_left rest).trans List.perm_middle)
  have hall := hfold []
  rw [List.append_nil] at hall
  exact (List.reverse_perm _).trans hall

theorem pairwise_insertBack (h : Coherent compare xs) (hx : x ∈ xs) (hsub : sorted ⊆ xs)
    (hsorted : sorted.Pairwise fun a b => (compare b a).isLE) :
    (insertBack compare x sorted).Pairwise fun a b => (compare b a).isLE := by
  induction sorted with
  | nil => exact List.pairwise_singleton _ x
  | cons y rest ih =>
    obtain ⟨hy, hrest⟩ := List.cons_subset.mp hsub
    obtain ⟨hfirst, htail⟩ := List.pairwise_cons.mp hsorted
    rw [insertBack]
    split
    case isTrue hlt =>
      refine List.pairwise_cons.mpr ⟨fun z hz => ?_, ih hrest htail⟩
      rcases List.mem_cons.mp ((insertBack_perm x rest).mem_iff.mp hz) with rfl | hz
      · rw [hlt]
        rfl
      · exact hfirst z hz
    case isFalse hnot =>
      have hle : (compare y x).isLE := by
        rw [← h.swap x hx y hy]
        revert hnot
        cases compare x y <;> decide
      refine List.pairwise_cons.mpr ⟨fun z hz => ?_, hsorted⟩
      rcases List.mem_cons.mp hz with rfl | hz
      · exact hle
      · exact h.trans z (hrest hz) y hy x hx (hfirst z hz) hle

/-- An element passes only those that are greater, and these tie with none that it ties with. -/
theorem filter_insertBack (h : Coherent compare xs) (hx : x ∈ xs) (hsub : sorted ⊆ xs) {z : α}
    (hz : z ∈ xs) :
    (insertBack compare x sorted).filter (fun y => compare z y == .eq) =
      (x :: sorted).filter fun y => compare z y == .eq := by
  induction sorted with
  | nil => rfl
  | cons y rest ih =>
    obtain ⟨hy, hrest⟩ := List.cons_subset.mp hsub
    rw [insertBack]
    split
    case isFalse => rfl
    case isTrue hlt =>
      rw [List.filter_cons, ih hrest]
      by_cases htie : compare z x = .eq
      · have hpassed : compare z y ≠ .eq := by
          intro hzy
          have hyz : (compare y z).isLE := by rw [← h.swap z hz y hy, hzy]; rfl
          have hyx := h.trans y hy z hz x hx hyz (by rw [htie]; rfl)
          rw [← h.swap x hx y hy, hlt] at hyx
          cases hyx
        simp [List.filter_cons, hpassed]
      · simp [List.filter_cons, htie]

/-- What the insertion of some elements has come to, in a list with the greatest first. -/
structure Inserted (compare : α → α → Ordering) (xs seen sorted : List α) : Prop where
  perm : sorted.Perm seen
  ordered : sorted.Pairwise fun a b => (compare b a).isLE
  stable : ∀ z ∈ xs, sorted.filter (fun y => compare z y == .eq) =
    (seen.filter fun y => compare z y == .eq).reverse

theorem Inserted.insert (h : Coherent compare xs) (hx : x ∈ xs) (hsub : seen ⊆ xs)
    (hseen : Inserted compare xs seen sorted) :
    Inserted compare xs (seen ++ [x]) (insertBack compare x sorted) where
  perm := (insertBack_perm x sorted).trans
    ((hseen.perm.cons x).trans (List.perm_append_singleton x seen).symm)
  ordered := pairwise_insertBack h hx (List.Subset.trans hseen.perm.subset hsub) hseen.ordered
  stable z hz := by
    rw [filter_insertBack h hx (List.Subset.trans hseen.perm.subset hsub) hz, List.filter_append,
      List.reverse_append, ← hseen.stable z hz, List.filter_cons, List.filter_cons]
    split <;> rfl

theorem Inserted.foldl (h : Coherent compare xs) {rest : List α} (hsub : seen ++ rest ⊆ xs)
    (hseen : Inserted compare xs seen sorted) :
    Inserted compare xs (seen ++ rest)
      (rest.foldl (fun sorted x => insertBack compare x sorted) sorted) := by
  induction rest generalizing seen sorted with
  | nil => rwa [List.append_nil]
  | cons x rest ih =>
    have hnext : seen ++ [x] ++ rest = seen ++ x :: rest := by simp
    obtain ⟨hpast, hahead⟩ := List.append_subset.mp hsub
    have hinsert := hseen.insert h (hahead List.mem_cons_self) hpast
    rw [List.foldl_cons, ← hnext]
    exact ih (hnext ▸ hsub) hinsert

theorem sortsTo_insertionSort (h : Coherent compare xs) :
    SortsTo compare xs (insertionSort compare xs) := by
  have hnone : Inserted compare xs [] [] := ⟨.refl _, .nil, fun _ _ => rfl⟩
  have hall := hnone.foldl h (List.Subset.refl xs)
  refine ⟨insertionSort_perm compare xs, List.pairwise_reverse.mpr hall.ordered, fun x hx => ?_⟩
  rw [insertionSort, List.filter_reverse, hall.stable x hx, List.reverse_reverse, List.nil_append]

end Insertion

namespace StableSort

variable {α : Type}

/-- The sort by insertion. It gives up on a list that is not short unless it can be put in order. -/
def byInsertion (short : Nat) : StableSort α where
  sort compare xs :=
    if xs.length ≤ short ∨ Coherent compare xs then some (insertionSort compare xs) else none
  perm_of_sort h := by
    split at h
    · cases h
      exact insertionSort_perm _ _
    · cases h
  sortsTo_of_coherent h := ⟨_, if_pos (.inr h), sortsTo_insertionSort h⟩

theorem byInsertion_eq_none {short : Nat} {compare : α → α → Ordering} {xs : List α}
    (hlong : short < xs.length) (h : ¬Coherent compare xs) :
    (byInsertion short).sort compare xs = none :=
  if_neg (not_or.mpr ⟨Nat.not_le.mpr hlong, h⟩)

/-- A sort that inserts up to twenty elements without a look at the comparison. -/
def standard : StableSort α := byInsertion 20

end StableSort

end ParamQuery
