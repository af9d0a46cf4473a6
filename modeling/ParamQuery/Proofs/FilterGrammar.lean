import ParamQuery.Proofs.Catalogue
import ParamQuery.Proofs.Inference

/-!
# The grammar of filter arguments

Which texts a filter accepts and what they denote, and which it refuses and why, said of the text
alone. An argument is divided at its first colons, and the parts are judged from the left: too few
colons come first, then the field, then what follows it. The main statement is that a filter accepts
and refuses just these texts, whatever it has read before.
-/

namespace ParamQuery

namespace FilterForm

open Argument (trimmed Lists Encloses)
open Text (Divides)

/-- The colons that divide an argument; the last part may have more of them. -/
def separators : FilterForm → Nat
  | comparison => 2
  | membership _ => 1
  | range _ => 2
  | nullness _ => 0

/-- The form of an argument as a refusal words it. -/
def shape : FilterForm → String
  | comparison => "field:operator:value"
  | membership _ => "field:(value,value,...)"
  | range _ => "field:low:high"
  | nullness _ => "field"

/-- What a comparison denotes. An operand is a value, but a pattern is text as it stands, and to be
equal to null is to be null. -/
inductive Compares (field : String) : CompareOp → String → Predicate → Prop
  | like (pattern : String) : Compares field .like pattern (.compare field .like (.text pattern))
  | notLike (pattern : String) :
      Compares field .notLike pattern (.compare field .notLike (.text pattern))
  | eqNull : Compares field .eq "null" (.isNull field false)
  | neNull : Compares field .ne "null" (.isNull field true)
  | value {op : CompareOp} {operand : String} (hlike : op ≠ .like) (hnotLike : op ≠ .notLike)
      (hnull : operand = "null" → op ≠ .eq ∧ op ≠ .ne) :
      Compares field op operand (.compare field op (Value.infer operand))

/-- The texts that a form accepts, each with its filter. -/
inductive Accepts : FilterForm → List Char → Filter → Prop
  | comparison {text field spelling operand : List Char} {op : CompareOp} {predicate : Predicate}
      (hparts : Divides ':' 2 text [field, spelling, operand])
      (hfield : field.all Text.isBlank = false)
      (hop : trimmed spelling ∈ op.spellings)
      (hdenoted : Compares (trimmed field) op (trimmed operand) predicate) :
      Accepts .comparison text ⟨predicate, [trimmed field, op.token, trimmed operand]⟩
  | membership {negated : Bool} {text field list inside : List Char} {items : List String}
      (hparts : Divides ':' 1 text [field, list])
      (hfield : field.all Text.isBlank = false)
      (hinside : Encloses (Text.trim list) inside)
      (hitems : Lists inside items)
      (hne : items ≠ []) :
      Accepts (.membership negated) text
        ⟨.member (trimmed field) (items.map Value.infer) negated, trimmed field :: items⟩
  | range {negated : Bool} {text field low high : List Char}
      (hparts : Divides ':' 2 text [field, low, high])
      (hfield : field.all Text.isBlank = false)
      (hlow : (Value.infer (trimmed low)).isNumeric = true)
      (hhigh : (Value.infer (trimmed high)).isNumeric = true) :
      Accepts (.range negated) text
        ⟨.between (trimmed field) (Value.infer (trimmed low)) (Value.infer (trimmed high)) negated,
          [trimmed field, trimmed low, trimmed high]⟩
  | nullness {negated : Bool} {text : List Char}
      (hfield : text.all Text.isBlank = false) :
      Accepts (.nullness negated) text ⟨.isNull (trimmed text) negated, [trimmed text]⟩

/-- The texts that a form refuses, each with the fault. A fault of one part is found only if the
parts before it are sound. -/
inductive Refuses : FilterForm → List Char → ArgumentError → Prop
  | separators {form : FilterForm} {text : List Char}
      (hcount : text.count ':' < form.separators) :
      Refuses form text (.shape form.shape)
  | field {form : FilterForm} {text field : List Char} {others : List (List Char)}
      (hparts : Divides ':' form.separators text (field :: others))
      (hfield : field.all Text.isBlank = true) :
      Refuses form text .emptyField
  | operator {text field spelling operand : List Char}
      (hparts : Divides ':' 2 text [field, spelling, operand])
      (hfield : field.all Text.isBlank = false)
      (hop : ∀ op : CompareOp, trimmed spelling ∉ op.spellings) :
      Refuses .comparison text (.unknownOperator (trimmed spelling))
  | parenthesis {negated : Bool} {text field list : List Char}
      (hparts : Divides ':' 1 text [field, list])
      (hfield : field.all Text.isBlank = false)
      (hinside : ∀ inside, ¬Encloses (Text.trim list) inside) :
      Refuses (.membership negated) text (.shape (shape (.membership negated)))
  | items {negated : Bool} {text field list inside : List Char}
      (hparts : Divides ':' 1 text [field, list])
      (hfield : field.all Text.isBlank = false)
      (hinside : Encloses (Text.trim list) inside)
      (hitems : Lists inside []) :
      Refuses (.membership negated) text (.shape (shape (.membership negated)))
  | low {negated : Bool} {text field low high : List Char}
      (hparts : Divides ':' 2 text [field, low, high])
      (hfield : field.all Text.isBlank = false)
      (hlow : (Value.infer (trimmed low)).isNumeric = false) :
      Refuses (.range negated) text (.nonNumericBound (trimmed low))
  | high {negated : Bool} {text field low high : List Char}
      (hparts : Divides ':' 2 text [field, low, high])
      (hfield : field.all Text.isBlank = false)
      (hlow : (Value.infer (trimmed low)).isNumeric = true)
      (hhigh : (Value.infer (trimmed high)).isNumeric = false) :
      Refuses (.range negated) text (.nonNumericBound (trimmed high))

lemma compares_iff {field operand : String} {op : CompareOp} {predicate : Predicate} :
    Compares field op operand predicate ↔ predicate = Argument.comparisonOf field op operand := by
  constructor
  · intro h
    cases h with
    | like | notLike | eqNull | neNull => rfl
    | value hlike hnotLike hnull =>
      unfold Argument.comparisonOf
      split
      case h_1 => exact absurd rfl hlike
      case h_2 => exact absurd rfl hnotLike
      case h_3 hoperand => exact absurd rfl (hnull (Value.infer_eq_null_iff.mp hoperand)).1
      case h_4 hoperand => exact absurd rfl (hnull (Value.infer_eq_null_iff.mp hoperand)).2
      case h_5 => rfl
  · rintro rfl
    unfold Argument.comparisonOf
    split
    case h_1 => exact .like operand
    case h_2 => exact .notLike operand
    case h_3 hoperand =>
      obtain rfl := Value.infer_eq_null_iff.mp hoperand
      exact .eqNull
    case h_4 hoperand =>
      obtain rfl := Value.infer_eq_null_iff.mp hoperand
      exact .neNull
    case h_5 hlike hnotLike heq hne =>
      refine .value hlike hnotLike fun hoperand => ?_
      have hinfer := Value.infer_eq_null_iff.mpr hoperand
      exact ⟨fun hop => heq hop hinfer, fun hop => hne hop hinfer⟩

section Reading

open Argument (fieldName_eq_ok_iff_not_blank fieldName_eq_error_iff operator_eq_ok_iff
  operator_eq_error_iff bound_eq_ok_iff bound_eq_error_iff list_eq_ok_iff_lists list_eq_error_iff
  twoParts_eq_ok_iff twoParts_eq_error_iff threeParts_eq_ok_iff_divides threeParts_eq_error_iff
  unwrap?_eq_some_iff unwrap?_eq_none_iff)

variable {form : FilterForm} {text field : List Char} {filter : Filter} {fault : ArgumentError}

lemma accepts_of_read (h : form.read text = .ok filter) : form.Accepts text filter := by
  cases form with
  | comparison =>
    obtain ⟨first, second, third, field, op, rfl, hfirst, hsecond, hname, hop, rfl⟩ :=
      Argument.comparison_eq_ok_iff.mp h
    obtain ⟨rfl, hfield⟩ := fieldName_eq_ok_iff_not_blank.mp hname
    exact .comparison (.cons hfirst (.cons hsecond (.last third))) hfield
      (operator_eq_ok_iff.mp hop) (compares_iff.mpr rfl)
  | membership negated =>
    obtain ⟨first, second, inside, field, items, rfl, hfirst, hname, hinside, hitems, rfl⟩ :=
      Argument.membership_eq_ok_iff.mp h
    obtain ⟨rfl, hfield⟩ := fieldName_eq_ok_iff_not_blank.mp hname
    obtain ⟨hlists, hne⟩ := list_eq_ok_iff_lists.mp hitems
    exact .membership (.cons hfirst (.last second)) hfield (unwrap?_eq_some_iff.mp hinside)
      hlists hne
  | range negated =>
    obtain ⟨first, second, third, field, low, high, rfl, hfirst, hsecond, hname, hlow, hhigh,
      rfl⟩ := Argument.range_eq_ok_iff.mp h
    obtain ⟨rfl, hfield⟩ := fieldName_eq_ok_iff_not_blank.mp hname
    obtain ⟨rfl, hlow⟩ := bound_eq_ok_iff.mp hlow
    obtain ⟨rfl, hhigh⟩ := bound_eq_ok_iff.mp hhigh
    exact .range (.cons hfirst (.cons hsecond (.last third))) hfield hlow hhigh
  | nullness negated =>
    obtain ⟨field, hname, rfl⟩ := Argument.nullness_eq_ok_iff.mp h
    obtain ⟨rfl, hfield⟩ := fieldName_eq_ok_iff_not_blank.mp hname
    exact .nullness hfield

lemma read_of_few_separators (h : text.count ':' < form.separators) :
    form.read text = .error (.shape form.shape) := by
  cases form with
  | comparison | range => exact bind_of_error (threeParts_eq_error_iff.mpr ⟨rfl, h⟩)
  | membership => exact bind_of_error (twoParts_eq_error_iff.mpr ⟨rfl, h⟩)
  | nullness => exact absurd h (Nat.not_lt_zero _)

lemma read_of_blank_field {others : List (List Char)}
    (hparts : Divides ':' form.separators text (field :: others))
    (hfield : field.all Text.isBlank = true) : form.read text = .error .emptyField := by
  have hname := fieldName_eq_error_iff.mpr ⟨rfl, hfield⟩
  have hlength := Nat.succ.inj hparts.length_eq
  cases form with
  | comparison | range =>
    obtain ⟨second, third, rfl⟩ := List.length_eq_two.mp hlength
    exact (bind_of_ok (threeParts_eq_ok_iff_divides.mpr hparts)).trans (bind_of_error hname)
  | membership =>
    obtain ⟨second, rfl⟩ := List.length_eq_one_iff.mp hlength
    exact (bind_of_ok (twoParts_eq_ok_iff.mpr hparts)).trans (bind_of_error hname)
  | nullness =>
    cases Divides.zero_iff.mp hparts
    exact bind_of_error hname

/-! With a field that is named, what is left to read is what follows it. -/

lemma read_comparison {spelling operand : List Char}
    (hparts : Divides ':' 2 text [field, spelling, operand])
    (hfield : field.all Text.isBlank = false) :
    comparison.read text = (do
      let op ← Argument.operator spelling
      return ⟨Argument.comparisonOf (trimmed field) op (trimmed operand),
        [trimmed field, op.token, trimmed operand]⟩) :=
  (bind_of_ok (threeParts_eq_ok_iff_divides.mpr hparts)).trans
    (bind_of_ok (fieldName_eq_ok_iff_not_blank.mpr ⟨rfl, hfield⟩))

lemma read_membership {negated : Bool} {list : List Char}
    (hparts : Divides ':' 1 text [field, list]) (hfield : field.all Text.isBlank = false) :
    (membership negated).read text = (do
      let expected := shape (membership negated)
      let inside ← (Argument.unwrap? (Text.trim list)).elim (throw (.shape expected)) pure
      let items ← Argument.list expected inside
      return ⟨.member (trimmed field) (items.map Value.infer) negated, trimmed field :: items⟩) :=
  (bind_of_ok (twoParts_eq_ok_iff.mpr hparts)).trans
    (bind_of_ok (fieldName_eq_ok_iff_not_blank.mpr ⟨rfl, hfield⟩))

lemma read_range {negated : Bool} {low high : List Char}
    (hparts : Divides ':' 2 text [field, low, high]) (hfield : field.all Text.isBlank = false) :
    (range negated).read text = (do
      let lowValue ← Argument.bound low
      let highValue ← Argument.bound high
      return ⟨.between (trimmed field) lowValue highValue negated,
        [trimmed field, trimmed low, trimmed high]⟩) :=
  (bind_of_ok (threeParts_eq_ok_iff_divides.mpr hparts)).trans
    (bind_of_ok (fieldName_eq_ok_iff_not_blank.mpr ⟨rfl, hfield⟩))

lemma read_nullness {negated : Bool} (hfield : text.all Text.isBlank = false) :
    (nullness negated).read text = .ok ⟨.isNull (trimmed text) negated, [trimmed text]⟩ :=
  bind_of_ok (fieldName_eq_ok_iff_not_blank.mpr ⟨rfl, hfield⟩)

lemma read_of_accepts (h : form.Accepts text filter) : form.read text = .ok filter := by
  cases h with
  | comparison hparts hfield hop hdenoted =>
    obtain rfl := compares_iff.mp hdenoted
    rw [read_comparison hparts hfield]
    exact bind_of_ok (operator_eq_ok_iff.mpr hop)
  | membership hparts hfield hinside hitems hne =>
    rw [read_membership hparts hfield]
    refine (bind_of_ok (elim_throw_eq_ok_iff.mpr (unwrap?_eq_some_iff.mpr hinside))).trans ?_
    exact bind_of_ok (list_eq_ok_iff_lists.mpr ⟨hitems, hne⟩)
  | range hparts hfield hlow hhigh =>
    rw [read_range hparts hfield]
    refine (bind_of_ok (bound_eq_ok_iff.mpr ⟨rfl, hlow⟩)).trans ?_
    exact bind_of_ok (bound_eq_ok_iff.mpr ⟨rfl, hhigh⟩)
  | nullness hfield => exact read_nullness hfield

lemma read_of_refuses (h : form.Refuses text fault) : form.read text = .error fault := by
  cases h with
  | separators hcount => exact read_of_few_separators hcount
  | field hparts hfield => exact read_of_blank_field hparts hfield
  | operator hparts hfield hop =>
    rw [read_comparison hparts hfield]
    exact bind_of_error (operator_eq_error_iff.mpr ⟨rfl, hop⟩)
  | parenthesis hparts hfield hinside =>
    rw [read_membership hparts hfield]
    exact bind_of_error (elim_throw_eq_error_iff.mpr ⟨unwrap?_eq_none_iff.mpr hinside, rfl⟩)
  | items hparts hfield hinside hitems =>
    rw [read_membership hparts hfield]
    refine (bind_of_ok (elim_throw_eq_ok_iff.mpr (unwrap?_eq_some_iff.mpr hinside))).trans ?_
    exact bind_of_error (list_eq_error_iff.mpr ⟨rfl, hitems⟩)
  | low hparts hfield hlow =>
    rw [read_range hparts hfield]
    exact bind_of_error (bound_eq_error_iff.mpr ⟨rfl, hlow⟩)
  | high hparts hfield hlow hhigh =>
    rw [read_range hparts hfield]
    refine (bind_of_ok (bound_eq_ok_iff.mpr ⟨rfl, hlow⟩)).trans ?_
    exact bind_of_error (bound_eq_error_iff.mpr ⟨rfl, hhigh⟩)

/-- The parts are judged from the left: the division, the field, and then the rest form by form. -/
lemma refuses_of_read (h : form.read text = .error fault) : form.Refuses text fault := by
  by_cases hcount : text.count ':' < form.separators
  · rw [read_of_few_separators hcount] at h
    cases h
    exact .separators hcount
  obtain ⟨parts, hparts⟩ := Divides.exists_iff.mpr (Nat.not_lt.mp hcount)
  obtain ⟨field, others, rfl⟩ := List.exists_cons_of_length_eq_add_one hparts.length_eq
  by_cases hblank : field.all Text.isBlank = true
  · rw [read_of_blank_field hparts hblank] at h
    cases h
    exact .field hparts hblank
  have hfield := Bool.eq_false_iff.mpr hblank
  have hlength := Nat.succ.inj hparts.length_eq
  cases form with
  | comparison =>
    obtain ⟨spelling, operand, rfl⟩ := List.length_eq_two.mp hlength
    rw [read_comparison hparts hfield] at h
    rcases bind_eq_error_iff.mp h with hop | ⟨op, hop, h⟩
    · obtain ⟨rfl, hunknown⟩ := operator_eq_error_iff.mp hop
      exact .operator hparts hfield hunknown
    · cases h
  | membership negated =>
    obtain ⟨list, rfl⟩ := List.length_eq_one_iff.mp hlength
    rw [read_membership hparts hfield] at h
    rcases bind_eq_error_iff.mp h with hinside | ⟨inside, hinside, h⟩
    · obtain ⟨hnone, rfl⟩ := elim_throw_eq_error_iff.mp hinside
      exact .parenthesis hparts hfield (unwrap?_eq_none_iff.mp hnone)
    have hinside := unwrap?_eq_some_iff.mp (elim_throw_eq_ok_iff.mp hinside)
    rcases bind_eq_error_iff.mp h with hitems | ⟨items, hitems, h⟩
    · obtain ⟨rfl, hempty⟩ := list_eq_error_iff.mp hitems
      exact .items hparts hfield hinside hempty
    · cases h
  | range negated =>
    obtain ⟨low, high, rfl⟩ := List.length_eq_two.mp hlength
    rw [read_range hparts hfield] at h
    rcases bind_eq_error_iff.mp h with hlow | ⟨lowValue, hlow, h⟩
    · obtain ⟨rfl, htext⟩ := bound_eq_error_iff.mp hlow
      exact .low hparts hfield htext
    obtain ⟨rfl, hlow⟩ := bound_eq_ok_iff.mp hlow
    rcases bind_eq_error_iff.mp h with hhigh | ⟨highValue, hhigh, h⟩
    · obtain ⟨rfl, htext⟩ := bound_eq_error_iff.mp hhigh
      exact .high hparts hfield hlow htext
    · cases h
  | nullness negated =>
    cases Divides.zero_iff.mp hparts
    rw [read_nullness hfield] at h
    cases h

/-- A form reads exactly the texts that it accepts. -/
theorem read_eq_ok_iff : form.read text = .ok filter ↔ form.Accepts text filter :=
  ⟨accepts_of_read, read_of_accepts⟩

theorem read_eq_error_iff : form.read text = .error fault ↔ form.Refuses text fault :=
  ⟨refuses_of_read, read_of_refuses⟩

example : FilterForm.comparison.read "a:noteq: null ".toList =
    .ok ⟨.isNull "a" true, ["a", "ne", "null"]⟩ := rfl

-- of three faults the blank field is told
example : (FilterForm.range false).read " :low:".toList = .error .emptyField := rfl

end Reading

end FilterForm

open FilterForm in
/-- A filter accepts just the texts of its form's grammar, and then has the predicate and the tokens
that the text denotes and nothing of what it has read before. It refuses just the other texts, each
for the first of its faults, and stays as it is. -/
theorem Handler.tokenize_filter (conjunction : Conjunction) (form : FilterForm) (before : Reading)
    (raw : String) :
    let handler : Handler := ⟨.filter conjunction form, before⟩
    (∀ after, handler.tokenize raw = (after, none) ↔
      ∃ filter, form.Accepts raw.toList filter ∧
        after = ⟨.filter conjunction form, filter.tokens,
          .issuing [.filter conjunction filter.predicate]⟩) ∧
    (∀ after fault, handler.tokenize raw = (after, some fault) ↔
      form.Refuses raw.toList fault ∧ after = handler) := by
  intro handler
  have hsettle := handler.tokenize_of_settles
    ((DirectiveKind.filter conjunction form).settles raw)
  simp only [← read_eq_ok_iff, ← read_eq_error_iff]
  cases hread : form.read raw.toList with
  | ok filter =>
    have haccepted : handler.tokenize raw =
        (⟨.filter conjunction form, filter.tokens,
          .issuing [.filter conjunction filter.predicate]⟩, none) := by
      rw [hsettle, DirectiveKind.reading, hread]
      rfl
    simp [haccepted, eq_comm]
  | error fault =>
    have hrefused : handler.tokenize raw = (handler, some fault) := by
      rw [hsettle, DirectiveKind.reading, hread]
      rfl
    simp [hrefused, eq_comm, and_comm]

end ParamQuery
