/-!
# Lookups in lists of pairs

Parameters, registries and rows are lists of pairs in which the first pair of a key counts.
-/

namespace ParamQuery

theorem lookup_cons_eq {β : Type} (key known : String) (value : β) (rest : List (String × β)) :
    ((known, value) :: rest).lookup key =
      if key = known then some value else rest.lookup key := by
  by_cases h : key = known
  · simp [h]
  · simp [List.lookup_cons, beq_false_of_ne h, h]

theorem lookup_filter_key {β : Type} (keep : String → Bool) (pairs : List (String × β))
    (key : String) :
    (pairs.filter fun pair => keep pair.1).lookup key =
      if keep key then pairs.lookup key else none := by
  induction pairs with
  | nil => simp
  | cons pair rest ih =>
    obtain ⟨known, value⟩ := pair
    rw [List.filter_cons, lookup_cons_eq]
    by_cases h : key = known
    · subst h
      by_cases hkeep : keep key = true
      · simp [hkeep]
      · simp [hkeep, ih]
    · rw [if_neg h, ← ih]
      split
      · rw [lookup_cons_eq, if_neg h]
      · rfl

end ParamQuery
