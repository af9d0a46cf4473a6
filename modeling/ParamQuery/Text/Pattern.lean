/-!
# Text patterns

In a pattern `%` stands for any run of characters and `_` for exactly one; letters match in
either ASCII case. A match moves through pattern and text from the left. A `%` takes no
characters at first. Where the characters after it do not fit, the match goes back to the last
`%` and lets it take one more; it never goes back to an earlier one.
-/

namespace ParamQuery.Pattern

/-- A pattern character that takes exactly one text character. -/
def accepts (c d : Char) : Bool := c == '_' || c == d

/-- The position of a `%` in the pattern and of the end of its run in the text. -/
structure Star where
  pattern : Nat
  text : Nat
  deriving DecidableEq, Repr

/-- Where a match stands, with the last `%` that it met. -/
structure Scan where
  pattern : Nat := 0
  text : Nat := 0
  star? : Option Star := none
  deriving DecidableEq, Repr

namespace Scan

/-- Back to the character after the last `%`, whose run is longer by one. -/
def retry? (scan : Scan) : Option Scan :=
  scan.star?.map fun star => ⟨star.pattern + 1, star.text + 1, some ⟨star.pattern, star.text + 1⟩⟩

/-- One step of a match whose next text character is `d`; `none` if the match fails. -/
def next? (pattern : Array Char) (d : Char) (scan : Scan) : Option Scan :=
  match pattern[scan.pattern]? with
  | none => scan.retry?
  | some c =>
    if c = '%' then some ⟨scan.pattern + 1, scan.text, some ⟨scan.pattern, scan.text⟩⟩
    else if accepts c d then some ⟨scan.pattern + 1, scan.text + 1, scan.star?⟩
    else scan.retry?

/-- Neither a `%` nor a character that takes `d` comes next. -/
def Stuck (pattern : Array Char) (d : Char) (scan : Scan) : Prop :=
  ∀ c, pattern[scan.pattern]? = some c → c ≠ '%' ∧ ¬accepts c d = true

/-- The three kinds of step: a `%` is met, a character is taken, or the match goes back. -/
inductive Step (pattern : Array Char) (d : Char) (scan : Scan) : Scan → Prop where
  | star (hc : pattern[scan.pattern]? = some '%') :
      Step pattern d scan ⟨scan.pattern + 1, scan.text, some ⟨scan.pattern, scan.text⟩⟩
  | take {c : Char} (hc : pattern[scan.pattern]? = some c) (hstar : c ≠ '%')
      (htakes : accepts c d = true) :
      Step pattern d scan ⟨scan.pattern + 1, scan.text + 1, scan.star?⟩
  | retry {star : Star} (hstuck : scan.Stuck pattern d) (hlast : scan.star? = some star) :
      Step pattern d scan ⟨star.pattern + 1, star.text + 1, some ⟨star.pattern, star.text + 1⟩⟩

theorem next?_spec (pattern : Array Char) (d : Char) (scan : Scan) :
    (∃ next, scan.next? pattern d = some next ∧ Step pattern d scan next) ∨
      scan.next? pattern d = none ∧ scan.Stuck pattern d ∧ scan.star? = none := by
  have hretry : scan.Stuck pattern d →
      (∃ next, scan.retry? = some next ∧ Step pattern d scan next) ∨
        scan.retry? = none ∧ scan.Stuck pattern d ∧ scan.star? = none := by
    intro hstuck
    unfold retry?
    cases hlast : scan.star? with
    | none => exact .inr ⟨rfl, hstuck, rfl⟩
    | some star => exact .inl ⟨_, rfl, .retry hstuck hlast⟩
  unfold next?
  cases hc : pattern[scan.pattern]? with
  | none => exact hretry fun c hsome => absurd (hc.symm.trans hsome) (by simp)
  | some c =>
    dsimp only
    by_cases hstar : c = '%'
    · rw [if_pos hstar]
      exact .inl ⟨_, rfl, .star (hstar ▸ hc)⟩
    · rw [if_neg hstar]
      by_cases htakes : accepts c d = true
      · rw [if_pos htakes]
        exact .inl ⟨_, rfl, .take hc hstar htakes⟩
      · rw [if_neg htakes]
        refine hretry fun c' hc' => ?_
        obtain rfl := Option.some.inj (hc.symm.trans hc')
        exact ⟨hstar, htakes⟩

theorem step_of_next? {pattern : Array Char} {d : Char} {scan next : Scan}
    (h : scan.next? pattern d = some next) : Step pattern d scan next := by
  rcases next?_spec pattern d scan with ⟨found, hfound, hstep⟩ | ⟨hnone, -⟩
  · obtain rfl := Option.some.inj (h.symm.trans hfound)
    exact hstep
  · exact absurd (h.symm.trans hnone) (by simp)

theorem stuck_of_next? {pattern : Array Char} {d : Char} {scan : Scan}
    (h : scan.next? pattern d = none) : scan.Stuck pattern d ∧ scan.star? = none := by
  rcases next?_spec pattern d scan with ⟨found, hfound, -⟩ | ⟨-, hstuck⟩
  · exact absurd (h.symm.trans hfound) (by simp)
  · exact hstuck

/-- The part of the text that the last `%` will not give back. -/
def settled (scan : Scan) : Nat := scan.star?.elim 0 fun star => min star.text scan.text

/-- An upper bound for the steps that are left: a longer run of the last `%` outweighs the whole
pattern. -/
def weight (pattern text : Array Char) (scan : Scan) : Nat :=
  (text.size + 1 - scan.settled) * (pattern.size + 1) + (pattern.size - scan.pattern)

theorem weight_lt_of_forward {pattern text : Array Char} {scan next : Scan} {c : Char}
    (hc : pattern[scan.pattern]? = some c) (hpattern : next.pattern = scan.pattern + 1)
    (hsettled : scan.settled ≤ next.settled) :
    next.weight pattern text < scan.weight pattern text := by
  obtain ⟨hinside, -⟩ := Array.getElem?_eq_some_iff.mp hc
  have hruns : text.size + 1 - next.settled ≤ text.size + 1 - scan.settled := by omega
  have hmul := Nat.mul_le_mul_right (pattern.size + 1) hruns
  simp only [weight, hpattern]
  omega

theorem weight_lt_of_longer {pattern text : Array Char} {scan next : Scan}
    (htext : scan.settled < text.size) (hsettled : scan.settled < next.settled) :
    next.weight pattern text < scan.weight pattern text := by
  have hruns : text.size + 1 - next.settled + 1 ≤ text.size + 1 - scan.settled := by omega
  have hmul := Nat.mul_le_mul_right (pattern.size + 1) hruns
  rw [Nat.succ_mul] at hmul
  simp only [weight]
  omega

/-- Every step lowers the weight. -/
theorem weight_next?_lt {pattern text : Array Char} {scan next : Scan} {d : Char}
    (htext : scan.text < text.size) (h : scan.next? pattern d = some next) :
    next.weight pattern text < scan.weight pattern text := by
  cases step_of_next? h with
  | star hc =>
    apply weight_lt_of_forward hc rfl
    unfold settled
    cases scan.star? with
    | none => exact Nat.zero_le _
    | some star =>
      dsimp only [Option.elim]
      omega
  | take hc =>
    apply weight_lt_of_forward hc rfl
    unfold settled
    cases scan.star? with
    | none => exact Nat.zero_le _
    | some star =>
      dsimp only [Option.elim]
      omega
  | retry hstuck hlast =>
    apply weight_lt_of_longer <;> simp only [settled, hlast, Option.elim_some] <;> omega

/-- Moves on to the end of the text; `none` if the match fails before. -/
def run (pattern text : Array Char) (scan : Scan) : Option Scan :=
  if h : scan.text < text.size then
    match hnext : scan.next? pattern text[scan.text] with
    | none => none
    | some next => next.run pattern text
  else some scan
termination_by scan.weight pattern text
decreasing_by exact weight_next?_lt h hnext

end Scan

/-- Whether the text fits the pattern, letter for letter: what is left of the pattern at the end
of the text takes no characters. -/
def fits (pattern text : Array Char) : Bool :=
  (Scan.run pattern text {}).any fun scan => (pattern.toList.drop scan.pattern).all (· == '%')

/-- Whether the text fits the pattern in either ASCII case. -/
def like (pattern text : List Char) : Bool :=
  fits (pattern.map Char.toLower).toArray (text.map Char.toLower).toArray

end ParamQuery.Pattern
