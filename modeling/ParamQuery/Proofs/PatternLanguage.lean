import ParamQuery.Value.Basic
import Mathlib.Computability.Language
import Mathlib.Tactic.Lemma

/-!
# The language of a pattern

A pattern denotes a language: `%` any text, `_` any one character, any other character itself, one
after the other. A match accepts just the texts of the language of its pattern, although it never
goes back to a `%` before the last one. The characters between two `%` take a fixed number of
characters of the text, so whatever fits with a longer run of the earlier `%` fits with a longer
run of the later one.
-/

namespace ParamQuery.Pattern

/-- What one character of a pattern denotes. -/
def symbol (c : Char) : Language Char :=
  {word | c = '%' ∨ ∃ d, word = [d] ∧ (c = '_' ∨ c = d)}

def language (pattern : List Char) : Language Char := (pattern.map symbol).prod

/-- The exhaustive match: every `%` tries every run. -/
def backtracks : List Char → List Char → Bool
  | [], text => text.isEmpty
  | c :: pattern, text =>
    if c = '%' then text.tails.any (backtracks pattern)
    else text.head?.any (accepts c) && backtracks pattern text.tail

lemma mem_symbol_iff {c : Char} {word : List Char} :
    word ∈ symbol c ↔ c = '%' ∨ ∃ d, word = [d] ∧ accepts c d = true := by
  simp only [accepts, Bool.or_eq_true, beq_iff_eq]
  exact Iff.rfl

lemma mem_language_nil {text : List Char} : text ∈ language [] ↔ text = [] := Language.mem_one text

lemma mem_language_append {first second text : List Char} :
    text ∈ language (first ++ second) ↔
      ∃ a ∈ language first, ∃ b ∈ language second, a ++ b = text := by
  rw [language, List.map_append, List.prod_append]
  exact Language.mem_mul

lemma mem_language_cons {c : Char} {pattern text : List Char} :
    text ∈ language (c :: pattern) ↔ ∃ a ∈ symbol c, ∃ b ∈ language pattern, a ++ b = text := by
  rw [language, List.map_cons, List.prod_cons]
  exact Language.mem_mul

lemma mem_language_star {pattern text : List Char} :
    text ∈ language ('%' :: pattern) ↔ ∃ rest, rest <:+ text ∧ rest ∈ language pattern := by
  rw [mem_language_cons]
  constructor
  · rintro ⟨run, -, rest, hrest, rfl⟩
    exact ⟨rest, List.suffix_append run rest, hrest⟩
  · rintro ⟨rest, ⟨run, rfl⟩, hrest⟩
    exact ⟨run, mem_symbol_iff.mpr (.inl rfl), rest, hrest, rfl⟩

lemma mem_language_one {c : Char} (h : c ≠ '%') {pattern text : List Char} :
    text ∈ language (c :: pattern) ↔
      ∃ d rest, text = d :: rest ∧ accepts c d = true ∧ rest ∈ language pattern := by
  rw [mem_language_cons]
  constructor
  · rintro ⟨word, hword, rest, hrest, rfl⟩
    obtain ⟨d, rfl, htakes⟩ := (mem_symbol_iff.mp hword).resolve_left h
    exact ⟨d, rest, rfl, htakes, hrest⟩
  · rintro ⟨d, rest, rfl, htakes, hrest⟩
    exact ⟨[d], mem_symbol_iff.mpr (.inr ⟨d, rfl, htakes⟩), rest, hrest, rfl⟩

theorem backtracks_iff {pattern text : List Char} :
    backtracks pattern text = true ↔ text ∈ language pattern := by
  induction pattern generalizing text with
  | nil => rw [backtracks, List.isEmpty_iff, mem_language_nil]
  | cons c pattern ih =>
    rw [backtracks]
    by_cases hc : c = '%'
    · subst hc
      simp only [if_pos, List.any_eq_true, List.mem_tails, ih, mem_language_star]
    · rw [if_neg hc, mem_language_one hc]
      cases text with
      | nil => simp
      | cons d rest => simp [ih]

/-- Without a `%` a pattern takes as many characters as it has. -/
lemma length_of_starless {pattern text : List Char} (h : '%' ∉ pattern)
    (htext : text ∈ language pattern) : text.length = pattern.length := by
  induction pattern generalizing text with
  | nil => rw [mem_language_nil.mp htext]
  | cons c pattern ih =>
    rw [List.mem_cons, not_or] at h
    obtain ⟨hc, hrest⟩ := h
    obtain ⟨d, rest, rfl, -, hmem⟩ := (mem_language_one (Ne.symm hc)).mp htext
    rw [List.length_cons, List.length_cons, ih hrest hmem]

lemma nil_mem_language_iff {pattern : List Char} :
    [] ∈ language pattern ↔ pattern.all (· == '%') = true := by
  induction pattern with
  | nil => simp [mem_language_nil]
  | cons c pattern ih =>
    rw [List.all_cons, Bool.and_eq_true, beq_iff_eq, ← ih]
    by_cases hc : c = '%'
    · subst hc
      simp [mem_language_star]
    · simp [mem_language_one hc, hc]

section Matching

variable {pattern text : Array Char}

/-- The text from one position on fits the pattern from another one on. -/
def FitsFrom (pattern text : Array Char) (p t : Nat) : Prop :=
  t ≤ text.size ∧ text.toList.drop t ∈ language (pattern.toList.drop p)

lemma drop_of_getElem? {p : Nat} {c : Char} (hc : pattern[p]? = some c) :
    pattern.toList.drop p = c :: pattern.toList.drop (p + 1) := by
  obtain ⟨hinside, rfl⟩ := Array.getElem?_eq_some_iff.mp hc
  exact List.drop_eq_getElem_cons hinside

lemma fitsFrom_star {p t : Nat} (hc : pattern[p]? = some '%') :
    FitsFrom pattern text p t ↔ ∃ t', t ≤ t' ∧ FitsFrom pattern text (p + 1) t' := by
  rw [FitsFrom, drop_of_getElem? hc, mem_language_star]
  constructor
  · rintro ⟨ht, rest, hsuffix, hrest⟩
    have hsize : text.toList.length = text.size := Array.length_toList
    have hlength := hsuffix.length_le
    rw [List.length_drop, hsize] at hlength
    refine ⟨text.size - rest.length, by omega, by omega, ?_⟩
    rw [List.suffix_iff_eq_drop.mp (hsuffix.trans (List.drop_suffix t _)),
      Array.length_toList] at hrest
    exact hrest
  · rintro ⟨t', hle, ht', hrest⟩
    refine ⟨by omega, text.toList.drop t', ?_, hrest⟩
    exact List.drop_suffix_drop_left _ hle

lemma fitsFrom_take {p t : Nat} {c : Char} (ht : t < text.size) (hc : pattern[p]? = some c)
    (hstar : c ≠ '%') :
    FitsFrom pattern text p t ↔
      accepts c text[t] = true ∧ FitsFrom pattern text (p + 1) (t + 1) := by
  have hdrop : text.toList.drop t = text[t] :: text.toList.drop (t + 1) :=
    List.drop_eq_getElem_cons (l := text.toList) ht
  rw [FitsFrom, FitsFrom, drop_of_getElem? hc, hdrop, mem_language_one hstar]
  constructor
  · rintro ⟨-, d, rest, hcons, htakes, hrest⟩
    cases hcons
    exact ⟨htakes, ht, hrest⟩
  · rintro ⟨htakes, -, hrest⟩
    exact ⟨Nat.le_of_lt ht, _, _, rfl, htakes, hrest⟩

namespace Scan

lemma not_fitsFrom_of_stuck {scan : Scan} (htext : scan.text < text.size)
    (hstuck : scan.Stuck pattern text[scan.text]) :
    ¬FitsFrom pattern text scan.pattern scan.text := by
  intro hfits
  cases hc : pattern[scan.pattern]? with
  | some c =>
    obtain ⟨hstar, hnot⟩ := hstuck c hc
    exact hnot ((fitsFrom_take htext hc hstar).mp hfits).1
  | none =>
    have hend : pattern.toList.drop scan.pattern = [] :=
      List.drop_eq_nil_iff.mpr (Array.getElem?_eq_none_iff.mp hc)
    have hlength := congrArg List.length (mem_language_nil.mp (hend ▸ hfits.2))
    rw [List.length_drop, Array.length_toList, List.length_nil] at hlength
    omega

/-- What a match keeps: it is inside of pattern and text, and since the last `%` it has taken as
many characters of the text as of the pattern, none of them a `%`. -/
structure Sound (pattern text : Array Char) (scan : Scan) : Prop where
  pattern_le : scan.pattern ≤ pattern.size
  text_le : scan.text ≤ text.size
  aligned : ∀ star, scan.star? = some star →
    ∃ taken, scan.pattern = star.pattern + 1 + taken ∧ scan.text = star.text + taken
  starless : ∀ star, scan.star? = some star → ∀ p, star.pattern < p → p < scan.pattern →
    pattern[p]? ≠ some '%'

/-- The rest fits as the match stands, or it does with a longer run of the last `%`. -/
def Promising (pattern text : Array Char) (scan : Scan) : Prop :=
  FitsFrom pattern text scan.pattern scan.text ∨
    ∃ star, scan.star? = some star ∧
      ∃ t, star.text < t ∧ FitsFrom pattern text (star.pattern + 1) t

lemma sound_start : Sound pattern text {} where
  pattern_le := Nat.zero_le _
  text_le := Nat.zero_le _
  aligned _ h := by cases h
  starless _ h := by cases h

theorem sound_next {scan next : Scan} (hsound : scan.Sound pattern text)
    (htext : scan.text < text.size) (h : scan.next? pattern text[scan.text] = some next) :
    next.Sound pattern text := by
  -- after a `%` nothing has been taken yet
  have hfresh : ∀ p t, p < pattern.size → t ≤ text.size →
      Sound pattern text ⟨p + 1, t, some ⟨p, t⟩⟩ := by
    intro p t hp ht
    refine ⟨hp, ht, ?_, ?_⟩
    · rintro _ ⟨⟩
      exact ⟨0, rfl, rfl⟩
    · rintro _ ⟨⟩ i hlow hhigh
      dsimp only at hlow hhigh
      omega
  cases step_of_next? h with
  | star hc =>
    obtain ⟨hinside, -⟩ := Array.getElem?_eq_some_iff.mp hc
    exact hfresh _ _ hinside hsound.text_le
  | @take c hc hstar htakes =>
    obtain ⟨hinside, -⟩ := Array.getElem?_eq_some_iff.mp hc
    refine ⟨hinside, htext, fun star hlast => ?_, fun star hlast p hlow hhigh => ?_⟩
    · obtain ⟨taken, hpattern, htaken⟩ := hsound.aligned star hlast
      exact ⟨taken + 1, by dsimp only; omega, by dsimp only; omega⟩
    · rcases Nat.lt_succ_iff_lt_or_eq.mp hhigh with hbefore | rfl
      · exact hsound.starless star hlast p hlow hbefore
      · rw [hc]
        exact fun hsome => hstar (Option.some.inj hsome)
  | @retry star hstuck hlast =>
    obtain ⟨taken, hpattern, htaken⟩ := hsound.aligned star hlast
    have hinside := hsound.pattern_le
    exact hfresh _ _ (by omega) (by omega)

/-- What fits after the last `%` takes as many characters of the text before it comes to where the
match stands in the pattern as the match has taken. -/
lemma Sound.fitsFrom_of_star {scan : Scan} (hsound : scan.Sound pattern text) {star : Star}
    (hstar : scan.star? = some star) {t : Nat} (h : FitsFrom pattern text (star.pattern + 1) t) :
    FitsFrom pattern text scan.pattern (t + (scan.text - star.text)) := by
  obtain ⟨taken, hpattern, htaken⟩ := hsound.aligned star hstar
  have hbetween : pattern.toList.drop (star.pattern + 1) =
      (pattern.toList.drop (star.pattern + 1)).take taken ++ pattern.toList.drop scan.pattern := by
    have hdrop : pattern.toList.drop scan.pattern =
        (pattern.toList.drop (star.pattern + 1)).drop taken := by rw [List.drop_drop, hpattern]
    rw [hdrop, List.take_append_drop]
  have hinside := hsound.pattern_le
  have hlength : ((pattern.toList.drop (star.pattern + 1)).take taken).length = taken := by
    rw [List.length_take, List.length_drop, Array.length_toList]
    omega
  have hstarless : '%' ∉ (pattern.toList.drop (star.pattern + 1)).take taken := by
    intro hmem
    obtain ⟨i, hi, hget⟩ := List.mem_iff_getElem.mp hmem
    rw [hlength] at hi
    apply hsound.starless star hstar (star.pattern + 1 + i) (by omega) (by omega)
    rw [List.getElem_take, List.getElem_drop] at hget
    rw [Array.getElem?_eq_some_iff]
    exact ⟨by omega, hget⟩
  obtain ⟨ht, hmem⟩ := h
  rw [hbetween, mem_language_append] at hmem
  obtain ⟨before, hbefore, after, hafter, htext⟩ := hmem
  have hsame := length_of_starless hstarless hbefore
  rw [hlength] at hsame
  have hsize : text.toList.length = text.size := Array.length_toList
  have hcount := congrArg List.length htext
  rw [List.length_append, List.length_drop, hsize, hsame] at hcount
  refine ⟨by omega, ?_⟩
  have hrest : text.toList.drop (t + (scan.text - star.text)) = after := by
    have htaken' : scan.text - star.text = before.length := by omega
    rw [htaken', ← List.drop_drop, ← htext, List.drop_left]
  rw [hrest]
  exact hafter

lemma promising_retry {scan : Scan} {star : Star} (hstar : scan.star? = some star)
    (hstuck : ¬FitsFrom pattern text scan.pattern scan.text) :
    scan.Promising pattern text ↔
      Promising pattern text
        ⟨star.pattern + 1, star.text + 1, some ⟨star.pattern, star.text + 1⟩⟩ := by
  constructor
  · rintro (hfits | ⟨_, hlast, t, hlater, hfits⟩)
    · exact absurd hfits hstuck
    · obtain rfl := Option.some.inj (hstar.symm.trans hlast)
      rcases Nat.lt_or_eq_of_le hlater with hlt | rfl
      · exact .inr ⟨_, rfl, t, hlt, hfits⟩
      · exact .inl hfits
  · rintro (hfits | ⟨_, ⟨⟩, t, hlater, hfits⟩)
    · exact .inr ⟨star, hstar, _, Nat.lt_succ_self _, hfits⟩
    · exact .inr ⟨star, hstar, t, Nat.lt_of_succ_lt hlater, hfits⟩

/-- A step changes nothing about how the match ends. -/
theorem promising_next {scan next : Scan} (hsound : scan.Sound pattern text)
    (htext : scan.text < text.size) (h : scan.next? pattern text[scan.text] = some next) :
    scan.Promising pattern text ↔ next.Promising pattern text := by
  cases step_of_next? h with
  | star hc =>
    constructor
    · have hnow : ∀ t, scan.text ≤ t → FitsFrom pattern text (scan.pattern + 1) t →
          Promising pattern text
            ⟨scan.pattern + 1, scan.text, some ⟨scan.pattern, scan.text⟩⟩ := by
        intro t hlater hfits
        rcases Nat.lt_or_eq_of_le hlater with hlt | rfl
        · exact .inr ⟨_, rfl, t, hlt, hfits⟩
        · exact .inl hfits
      rintro (hfits | ⟨star, hstar, t, hlater, hfits⟩)
      · obtain ⟨t', hle, hfits'⟩ := (fitsFrom_star hc).mp hfits
        exact hnow t' hle hfits'
      -- a longer run of the `%` before is a longer run of this one
      · obtain ⟨t', hle, hfits'⟩ := (fitsFrom_star hc).mp (hsound.fitsFrom_of_star hstar hfits)
        obtain ⟨taken, -, htaken⟩ := hsound.aligned star hstar
        exact hnow t' (by omega) hfits'
    · rintro (hfits | ⟨_, ⟨⟩, t, hlater, hfits⟩)
      · exact .inl ((fitsFrom_star hc).mpr ⟨scan.text, Nat.le_refl _, hfits⟩)
      · exact .inl ((fitsFrom_star hc).mpr ⟨t, Nat.le_of_lt hlater, hfits⟩)
  | take hc hstar htakes =>
    unfold Promising
    dsimp only
    rw [fitsFrom_take htext hc hstar, and_iff_right htakes]
  | retry hstuck hlast => exact promising_retry hlast (not_fitsFrom_of_stuck htext hstuck)

lemma not_promising_of_fails {scan : Scan} (htext : scan.text < text.size)
    (h : scan.next? pattern text[scan.text] = none) : ¬scan.Promising pattern text := by
  obtain ⟨hstuck, hnone⟩ := stuck_of_next? h
  rintro (hfits | ⟨star, hlast, -⟩)
  · exact not_fitsFrom_of_stuck htext hstuck hfits
  · exact Option.some_ne_none star (hlast.symm.trans hnone)

/-- At the end of the text a longer run would leave too little for the characters after it. -/
lemma promising_at_end {scan : Scan} (hsound : scan.Sound pattern text)
    (hend : ¬scan.text < text.size) :
    scan.Promising pattern text ↔ (pattern.toList.drop scan.pattern).all (· == '%') = true := by
  have hsize : scan.text = text.size := Nat.le_antisymm hsound.text_le (Nat.le_of_not_lt hend)
  have hnil : text.toList.drop scan.text = [] := by rw [hsize]; exact List.drop_length
  have hnow : FitsFrom pattern text scan.pattern scan.text ↔
      (pattern.toList.drop scan.pattern).all (· == '%') = true := by
    rw [FitsFrom, hnil, nil_mem_language_iff, and_iff_right hsound.text_le]
  rw [← hnow]
  refine ⟨?_, .inl⟩
  rintro (hfits | ⟨star, hstar, t, hlater, hfits⟩)
  · exact hfits
  · obtain ⟨hinside, -⟩ := hsound.fitsFrom_of_star hstar hfits
    obtain ⟨taken, -, htaken⟩ := hsound.aligned star hstar
    omega

theorem run_iff {scan : Scan} (hsound : scan.Sound pattern text) :
    (scan.run pattern text).any
        (fun last => (pattern.toList.drop last.pattern).all (· == '%')) = true ↔
      scan.Promising pattern text := by
  fun_induction run pattern text scan with
  | case1 scan htext hfails => simp [not_promising_of_fails htext hfails]
  | case2 scan htext next hnext ih =>
    rw [promising_next hsound htext hnext]
    exact ih (sound_next hsound htext hnext)
  | case3 scan hend => simp only [Option.any_some, promising_at_end hsound hend]

/-- Where a match stands after a number of steps. -/
inductive Reaches (pattern text : Array Char) : Nat → Scan → Prop where
  | start : Reaches pattern text 0 {}
  | step {steps : Nat} {scan next : Scan} (h : Reaches pattern text steps scan)
      (htext : scan.text < text.size)
      (hnext : scan.next? pattern text[scan.text] = some next) :
      Reaches pattern text (steps + 1) next

/-- There is no further step: the text is at its end or the match fails. -/
def Ends (pattern text : Array Char) (scan : Scan) : Prop :=
  ∀ htext : scan.text < text.size, scan.next? pattern text[scan.text] = none

lemma Reaches.sound {steps : Nat} {scan : Scan} (h : Reaches pattern text steps scan) :
    scan.Sound pattern text := by
  induction h with
  | start => exact sound_start
  | step _ htext hnext ih => exact sound_next ih htext hnext

lemma Reaches.steps_le {steps : Nat} {scan : Scan} (h : Reaches pattern text steps scan) :
    steps ≤ (text.size + 1) * (pattern.size + 1) + pattern.size := by
  have hweight : steps + scan.weight pattern text ≤ weight pattern text {} := by
    induction h with
    | start => exact Nat.le_of_eq (Nat.zero_add _)
    | step _ htext hnext ih =>
      have hlower := weight_next?_lt htext hnext
      omega
  exact Nat.le_trans (Nat.le_add_right _ _) hweight

lemma Reaches.exists_end {steps : Nat} {scan : Scan} (h : Reaches pattern text steps scan) :
    ∃ steps last, Reaches pattern text steps last ∧ last.Ends pattern text := by
  fun_induction run pattern text scan generalizing steps with
  | case1 scan htext hfails => exact ⟨steps, scan, h, fun _ => hfails⟩
  | case2 scan htext next hnext ih => exact ih (h.step htext hnext)
  | case3 scan hend => exact ⟨steps, scan, h, fun htext => absurd htext hend⟩

end Scan

theorem fits_iff : fits pattern text = true ↔ text.toList ∈ language pattern.toList := by
  rw [fits, Scan.run_iff Scan.sound_start, Scan.Promising]
  simp [FitsFrom]

end Matching

/-- The same text, with some of its ASCII letters in another case. -/
def Recased (text other : List Char) : Prop :=
  List.Forall₂ (fun c d => d = c ∨ d = c.toLower ∨ d = c.toUpper) text other

lemma toNat_toLower (c : Char) :
    c.toLower.toNat = if 65 ≤ c.toNat ∧ c.toNat ≤ 90 then c.toNat + 32 else c.toNat := by
  have hrange : c.val ≥ 'A'.val ∧ c.val ≤ 'Z'.val ↔ 65 ≤ c.val.toNat ∧ c.val.toNat ≤ 90 := by
    rw [ge_iff_le, UInt32.le_iff_toNat_le, UInt32.le_iff_toNat_le]
    rfl
  unfold Char.toLower Char.toNat
  by_cases h : c.val ≥ 'A'.val ∧ c.val ≤ 'Z'.val
  · have hupper := hrange.mp h
    have hshifted : (c.val + 32).toNat = c.val.toNat + 32 := by
      rw [UInt32.toNat_add]
      exact Nat.mod_eq_of_lt (show c.val.toNat + 32 < 2 ^ 32 by omega)
    rw [dif_pos h, if_pos hupper]
    exact hshifted
  · rw [dif_neg h, if_neg (mt hrange.mpr h)]

lemma toNat_toUpper (c : Char) :
    c.toUpper.toNat = if 97 ≤ c.toNat ∧ c.toNat ≤ 122 then c.toNat - 32 else c.toNat := by
  have hrange : 'a'.val ≤ c.val ∧ c.val ≤ 'z'.val ↔ 97 ≤ c.val.toNat ∧ c.val.toNat ≤ 122 := by
    rw [UInt32.le_iff_toNat_le, UInt32.le_iff_toNat_le]
    rfl
  unfold Char.toUpper Char.toNat
  by_cases h : 'a'.val ≤ c.val ∧ c.val ≤ 'z'.val
  · have hlower := hrange.mp h
    -- the shift is downwards, so the sum of the words wraps around
    have hshifted : (c.val + ('A'.val - 'a'.val)).toNat = c.val.toNat - 32 := by
      rw [UInt32.toNat_add]
      change (c.val.toNat + 4294967264) % 4294967296 = c.val.toNat - 32
      omega
    rw [dif_pos h, if_pos hlower]
    exact hshifted
  · rw [dif_neg h, if_neg (mt hrange.mpr h)]

lemma toLower_toLower (c : Char) : c.toLower.toLower = c.toLower := by
  apply Char.toNat_inj.mp
  simp only [toNat_toLower]
  split_ifs <;> omega

lemma toLower_toUpper (c : Char) : c.toUpper.toLower = c.toLower := by
  apply Char.toNat_inj.mp
  simp only [toNat_toLower, toNat_toUpper]
  split_ifs <;> omega

lemma map_toLower_of_recased {text other : List Char} (h : Recased text other) :
    other.map Char.toLower = text.map Char.toLower := by
  induction h with
  | nil => rfl
  | cons hcase _ ih =>
    rw [List.map_cons, List.map_cons, ih]
    rcases hcase with rfl | rfl | rfl
    · rfl
    · rw [toLower_toLower]
    · rw [toLower_toUpper]

lemma like_iff {pattern text : List Char} :
    like pattern text = true ↔ text.map Char.toLower ∈ language (pattern.map Char.toLower) := by
  rw [like, fits_iff]

end ParamQuery.Pattern

namespace ParamQuery.Value

open Pattern

/-- The characters of a text with ASCII letters in lower case. -/
def folded (s : String) : List Char := s.toList.map Char.toLower

/-- A text is like a pattern just if, in lower case, it is in the language of the pattern, or, what
is the same, if the exhaustive match accepts it. The match comes to its end, whatever the pattern
and the text, and stays inside of both; and letters may change their ASCII case. -/
theorem like_decides_language (t p : String) :
    (Value.like (.text t) p = some true ↔ folded t ∈ language (folded p)) ∧
    (Value.like (.text t) p = some false ↔ folded t ∉ language (folded p)) ∧
    Value.like (.text t) p = some (backtracks (folded p) (folded t)) ∧
    (∃ steps last, Scan.Reaches (folded p).toArray (folded t).toArray steps last ∧
      last.Ends (folded p).toArray (folded t).toArray) ∧
    (∀ steps scan, Scan.Reaches (folded p).toArray (folded t).toArray steps scan →
      scan.pattern ≤ (folded p).length ∧ scan.text ≤ (folded t).length ∧
        steps ≤ ((folded t).length + 1) * ((folded p).length + 1) + (folded p).length) ∧
    (∀ t' p' : String, Recased t.toList t'.toList → Recased p.toList p'.toList →
      Value.like (.text t') p' = Value.like (.text t) p) := by
  have hlike : Value.like (.text t) p = some (Pattern.like p.toList t.toList) := rfl
  have hexhaustive : Pattern.like p.toList t.toList = backtracks (folded p) (folded t) := by
    rw [Bool.eq_iff_iff, like_iff, backtracks_iff, folded, folded]
  refine ⟨?_, ?_, ?_, Scan.Reaches.start.exists_end, ?_, ?_⟩
  · rw [hlike, Option.some.injEq, like_iff, folded, folded]
  · rw [hlike, Option.some.injEq, ← Bool.not_eq_true, like_iff, folded, folded]
  · rw [hlike, hexhaustive]
  · intro steps scan hreaches
    exact ⟨hreaches.sound.pattern_le, hreaches.sound.text_le, hreaches.steps_le⟩
  · intro t' p' ht hp
    have hsame : Pattern.like p'.toList t'.toList = Pattern.like p.toList t.toList := by
      rw [Pattern.like, Pattern.like, map_toLower_of_recased ht, map_toLower_of_recased hp]
    rw [hlike, ← hsame]
    rfl

/-- A `%` whose first run is too short: the match has gone back to it after three steps. -/
theorem like_decides_language_with_retry :
    let text := folded "aABé"
    let pattern := folded "%Ab_"
    text ∈ language pattern ∧
    Scan.Reaches pattern.toArray text.toArray 3 ⟨1, 1, some ⟨0, 1⟩⟩ ∧
    (1 ≤ pattern.length ∧ 1 ≤ text.length) ∧
    (Recased "aABé".toList "AAbé".toList ∧ Recased "%Ab_".toList "%aB_".toList) ∧
    Value.like (.text "AAbé") "%aB_" = some true := by
  intro text pattern
  obtain ⟨haccepts, -, hexhaustive, -, hinside, hcase⟩ := like_decides_language "aABé" "%Ab_"
  have hlike : Value.like (.text "aABé") "%Ab_" = some true := hexhaustive.trans (by decide)
  have hstart : Scan.Reaches pattern.toArray text.toArray 0 {} := .start
  have hmet := hstart.step (by decide) rfl
  have htook := hmet.step (by decide) rfl
  have hreaches : Scan.Reaches pattern.toArray text.toArray 3 ⟨1, 1, some ⟨0, 1⟩⟩ :=
    htook.step (by decide) rfl
  have hrecased : Recased "aABé".toList "AAbé".toList ∧ Recased "%Ab_".toList "%aB_".toList := by
    unfold Recased
    decide
  obtain ⟨hpattern, htext, -⟩ := hinside 3 _ hreaches
  exact ⟨haccepts.mp hlike, hreaches, ⟨hpattern, htext⟩, hrecased,
    (hcase _ _ hrecased.1 hrecased.2).trans hlike⟩

end ParamQuery.Value
