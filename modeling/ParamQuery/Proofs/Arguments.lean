import ParamQuery.Argument.Filter
import ParamQuery.Proofs.Numerals

/-!
# Which arguments are accepted

Every reader of arguments accepts the texts of one form and no others. The form is stated here for
the parts of arguments and for the four forms of filter, each with what it is read into, and for
counts and the parts of filters with what is refused for which fault.
-/

namespace ParamQuery

lemma Text.trim_eq_nil_iff {text : List Char} : trim text = [] ↔ text.all isBlank = true := by
  rw [trim, List.reverse_eq_nil_iff, List.dropWhile_eq_nil_iff, List.all_eq_true]
  constructor
  · intro h
    have hnil : text.dropWhile isBlank = [] := by
      cases hdrop : text.dropWhile isBlank with
      | nil => rfl
      | cons c rest =>
        have hhead := List.head?_dropWhile_not isBlank text
        rw [hdrop] at hhead
        have hblank := h c (by simp [hdrop])
        simp [hblank] at hhead
    exact List.dropWhile_eq_nil_iff.mp hnil
  · intro h
    rw [List.dropWhile_eq_nil_iff.mpr h]
    simp

namespace CompareOp

def spellings : CompareOp → List String
  | .eq => ["eq"]
  | .ne => ["ne", "noteq"]
  | .lt => ["lt"]
  | .lte => ["lte"]
  | .gt => ["gt"]
  | .gte => ["gte"]
  | .like => ["lk"]
  | .notLike => ["nlk"]

lemma ofToken?_eq_some_iff {token : String} {op : CompareOp} :
    ofToken? token = some op ↔ token ∈ op.spellings := by
  constructor
  · intro h
    unfold ofToken? at h
    split at h
    case h_10 => cases h
    all_goals
      cases h
      decide
  · intro h
    cases op
    all_goals simp only [spellings, List.mem_cons, List.not_mem_nil, or_false] at h
    case ne => rcases h with rfl | rfl <;> rfl
    all_goals
      subst h
      rfl

end CompareOp

namespace Argument

lemma toList_trimmed (text : List Char) : (trimmed text).toList = Text.trim text :=
  String.toList_ofList

lemma trimmed_trimmed (text : List Char) : trimmed (trimmed text).toList = trimmed text := by
  rw [toList_trimmed, trimmed, trimmed, Text.trim_trim]

lemma fieldName_eq_ok_iff {text : List Char} {name : String} :
    fieldName text = .ok name ↔ name = trimmed text ∧ name ≠ "" := by
  unfold fieldName
  by_cases h : trimmed text = ""
  · rw [if_pos h]
    simp [h]
  · rw [if_neg h]
    constructor
    · intro hname
      cases hname
      exact ⟨rfl, h⟩
    · rintro ⟨rfl, -⟩
      rfl

lemma bound_eq_ok_iff {text : List Char} {value : Value} :
    bound text = .ok value ↔ value = Value.infer (trimmed text) ∧ value.isNumeric = true := by
  unfold bound
  by_cases h : (Value.infer (trimmed text)).isNumeric = true
  · rw [if_pos h]
    constructor
    · intro hvalue
      cases hvalue
      exact ⟨rfl, h⟩
    · rintro ⟨rfl, -⟩
      rfl
  · rw [if_neg h]
    constructor
    · intro hvalue
      cases hvalue
    · rintro ⟨rfl, hnumeric⟩
      exact absurd hnumeric h

section Counts

open Numeral (value? leadingValue largestUInt32)

variable {text : List Char}

lemma count_of_natural {n : Nat} (h : Numeral.natural largestUInt32 (Text.trim text) = .ok n) :
    count text = .ok (.ofNat n) := by
  rw [count, Numeral.uint32, h]
  rfl

lemma count_of_tooLarge (h : Numeral.natural largestUInt32 (Text.trim text) = .error .tooLarge) :
    count text = .error (.outOfRange (trimmed text) largestUInt32) := by
  rw [count, Numeral.uint32, h]
  rfl

lemma count_of_malformed (h : Numeral.natural largestUInt32 (Text.trim text) = .error .malformed) :
    count text = .error (.notAnInteger (trimmed text)) := by
  rw [count, Numeral.uint32, h]
  rfl

theorem count_eq_ok_iff {found : UInt32} :
    count text = .ok found ↔
      ∃ n, value? (Text.trim text) = some n ∧ n ≤ largestUInt32 ∧ found = .ofNat n := by
  simp only [← and_assoc, ← Numeral.natural_eq_ok_iff]
  cases hread : Numeral.natural largestUInt32 (Text.trim text) with
  | ok n => simp [count_of_natural hread, eq_comm]
  | error fault =>
    cases fault with
    | malformed => simp [count_of_malformed hread]
    | tooLarge => simp [count_of_tooLarge hread]

theorem count_eq_error_iff {fault : ArgumentError} :
    count text = .error fault ↔
      fault = .outOfRange (trimmed text) largestUInt32 ∧
          largestUInt32 < leadingValue (Text.trim text) ∨
        fault = .notAnInteger (trimmed text) ∧
          value? (Text.trim text) = none ∧ leadingValue (Text.trim text) ≤ largestUInt32 := by
  rw [← Numeral.natural_eq_tooLarge_iff, ← Numeral.natural_eq_malformed_iff]
  cases hread : Numeral.natural largestUInt32 (Text.trim text) with
  | ok n => simp [count_of_natural hread]
  | error fault =>
    cases fault with
    | malformed => simp [count_of_malformed hread, eq_comm]
    | tooLarge => simp [count_of_tooLarge hread, eq_comm]

end Counts

lemma list_eq_ok_iff {expected : String} {text : List Char} {found : List String} :
    list expected text = .ok found ↔
      found = (Text.items text).map String.ofList ∧ found ≠ [] := by
  rw [list]
  cases Text.items text with
  | nil => simp
  | cons item rest =>
    simp only [Except.ok.injEq]
    constructor
    · rintro rfl
      simp
    · rintro ⟨rfl, -⟩
      rfl

lemma threeParts_eq_ok_iff {expected : String} {text first second third : List Char} :
    threeParts expected text = .ok (first, second, third) ↔
      text = first ++ ':' :: (second ++ ':' :: third) ∧ ':' ∉ first ∧ ':' ∉ second := by
  unfold threeParts
  constructor
  · intro h
    split at h
    · cases h
    · rename_i before rest hcut
      split at h
      · cases h
      · rename_i middle after hrest
        cases h
        obtain ⟨rfl, hfirst⟩ := Text.cut_eq_some_iff.mp hcut
        obtain ⟨rfl, hsecond⟩ := Text.cut_eq_some_iff.mp hrest
        exact ⟨rfl, hfirst, hsecond⟩
  · rintro ⟨rfl, hfirst, hsecond⟩
    rw [Text.cut_eq_some_iff.mpr ⟨rfl, hfirst⟩]
    dsimp only
    rw [Text.cut_eq_some_iff.mpr ⟨rfl, hsecond⟩]

theorem comparison_eq_ok_iff {text : List Char} {filter : Filter} :
    comparison text = .ok filter ↔
      ∃ first second third field op,
        text = first ++ ':' :: (second ++ ':' :: third) ∧ ':' ∉ first ∧ ':' ∉ second ∧
        fieldName first = .ok field ∧ operator second = .ok op ∧
        filter = ⟨comparisonOf field op (trimmed third), [field, op.token, trimmed third]⟩ := by
  constructor
  · intro h
    obtain ⟨⟨first, second, third⟩, hparts, h⟩ := bind_eq_ok_iff.mp h
    obtain ⟨field, hfield, h⟩ := bind_eq_ok_iff.mp h
    obtain ⟨op, hop, h⟩ := bind_eq_ok_iff.mp h
    cases h
    obtain ⟨htext, hfirst, hsecond⟩ := threeParts_eq_ok_iff.mp hparts
    exact ⟨first, second, third, field, op, htext, hfirst, hsecond, hfield, hop, rfl⟩
  · rintro ⟨first, second, third, field, op, htext, hfirst, hsecond, hfield, hop, rfl⟩
    have hparts : threeParts "field:operator:value" text = .ok (first, second, third) :=
      threeParts_eq_ok_iff.mpr ⟨htext, hfirst, hsecond⟩
    exact bind_eq_ok_iff.mpr ⟨_, hparts, bind_eq_ok_iff.mpr ⟨_, hfield,
      bind_eq_ok_iff.mpr ⟨_, hop, rfl⟩⟩⟩

theorem membership_eq_ok_iff {negated : Bool} {text : List Char} {filter : Filter} :
    membership negated text = .ok filter ↔
      ∃ first second inside field items,
        text = first ++ ':' :: second ∧ ':' ∉ first ∧ fieldName first = .ok field ∧
        unwrap? (Text.trim second) = some inside ∧
        list "field:(value,value,...)" inside = .ok items ∧
        filter = ⟨.member field (items.map Value.infer) negated, field :: items⟩ := by
  constructor
  · intro h
    obtain ⟨⟨first, second⟩, hparts, h⟩ := bind_eq_ok_iff.mp h
    obtain ⟨field, hfield, h⟩ := bind_eq_ok_iff.mp h
    obtain ⟨inside, hinside, h⟩ := bind_eq_ok_iff.mp h
    obtain ⟨items, hitems, h⟩ := bind_eq_ok_iff.mp h
    cases h
    obtain ⟨htext, hfirst⟩ := Text.cut_eq_some_iff.mp (elim_throw_eq_ok_iff.mp hparts)
    exact ⟨first, second, inside, field, items, htext, hfirst, hfield,
      elim_throw_eq_ok_iff.mp hinside, hitems, rfl⟩
  · rintro ⟨first, second, inside, field, items, htext, hfirst, hfield, hinside, hitems, rfl⟩
    have hparts := Text.cut_eq_some_iff.mpr ⟨htext, hfirst⟩
    exact bind_eq_ok_iff.mpr ⟨_, elim_throw_eq_ok_iff.mpr hparts, bind_eq_ok_iff.mpr ⟨_, hfield,
      bind_eq_ok_iff.mpr ⟨_, elim_throw_eq_ok_iff.mpr hinside,
        bind_eq_ok_iff.mpr ⟨_, hitems, rfl⟩⟩⟩⟩

theorem range_eq_ok_iff {negated : Bool} {text : List Char} {filter : Filter} :
    range negated text = .ok filter ↔
      ∃ first second third field low high,
        text = first ++ ':' :: (second ++ ':' :: third) ∧ ':' ∉ first ∧ ':' ∉ second ∧
        fieldName first = .ok field ∧ bound second = .ok low ∧ bound third = .ok high ∧
        filter = ⟨.between field low high negated, [field, trimmed second, trimmed third]⟩ := by
  constructor
  · intro h
    obtain ⟨⟨first, second, third⟩, hparts, h⟩ := bind_eq_ok_iff.mp h
    obtain ⟨field, hfield, h⟩ := bind_eq_ok_iff.mp h
    obtain ⟨low, hlow, h⟩ := bind_eq_ok_iff.mp h
    obtain ⟨high, hhigh, h⟩ := bind_eq_ok_iff.mp h
    cases h
    obtain ⟨htext, hfirst, hsecond⟩ := threeParts_eq_ok_iff.mp hparts
    exact ⟨first, second, third, field, low, high, htext, hfirst, hsecond, hfield, hlow, hhigh, rfl⟩
  · rintro ⟨first, second, third, field, low, high, htext, hfirst, hsecond, hfield, hlow, hhigh,
      rfl⟩
    have hparts : threeParts "field:low:high" text = .ok (first, second, third) :=
      threeParts_eq_ok_iff.mpr ⟨htext, hfirst, hsecond⟩
    exact bind_eq_ok_iff.mpr ⟨_, hparts, bind_eq_ok_iff.mpr ⟨_, hfield,
      bind_eq_ok_iff.mpr ⟨_, hlow, bind_eq_ok_iff.mpr ⟨_, hhigh, rfl⟩⟩⟩⟩

theorem nullness_eq_ok_iff {negated : Bool} {text : List Char} {filter : Filter} :
    nullness negated text = .ok filter ↔
      ∃ field, fieldName text = .ok field ∧ filter = ⟨.isNull field negated, [field]⟩ := by
  constructor
  · intro h
    obtain ⟨field, hfield, h⟩ := bind_eq_ok_iff.mp h
    cases h
    exact ⟨field, hfield, rfl⟩
  · rintro ⟨field, hfield, rfl⟩
    exact bind_eq_ok_iff.mpr ⟨_, hfield, rfl⟩

/-! ### The parts of filters, said of their texts -/

/-- A text lists the items between its commas that are not blank. -/
def Lists (text : List Char) (items : List String) : Prop :=
  ∃ parts, parts ≠ [] ∧ (∀ part ∈ parts, ',' ∉ part) ∧ [','].intercalate parts = text ∧
    items = (parts.filter fun part => !part.all Text.isBlank).map trimmed

/-- What a list has inside: all of it, unless it is in parentheses. -/
inductive Encloses : List Char → List Char → Prop
  | parentheses (inside : List Char) : Encloses ('(' :: (inside ++ [')'])) inside
  | bare {list : List Char} (hopen : list.head? ≠ some '(') (hclose : list.getLast? ≠ some ')') :
      Encloses list list

variable {text : List Char}

lemma trimmed_eq_empty_iff : trimmed text = "" ↔ text.all Text.isBlank = true := by
  rw [trimmed, ← Text.trim_eq_nil_iff, String.ofList_eq_empty_iff]

lemma fieldName_eq_ok_iff_not_blank {name : String} :
    fieldName text = .ok name ↔ name = trimmed text ∧ text.all Text.isBlank = false := by
  rw [fieldName_eq_ok_iff, ← Bool.not_eq_true, ← trimmed_eq_empty_iff]
  exact and_congr_right fun hname => by rw [hname]

lemma fieldName_eq_error_iff {fault : ArgumentError} :
    fieldName text = .error fault ↔ fault = .emptyField ∧ text.all Text.isBlank = true := by
  rw [← trimmed_eq_empty_iff, fieldName]
  by_cases h : trimmed text = ""
  · simp [h, eq_comm]
  · simp [h]

lemma operator_eq_ok_iff {op : CompareOp} :
    operator text = .ok op ↔ trimmed text ∈ op.spellings := by
  rw [← CompareOp.ofToken?_eq_some_iff, operator]
  cases CompareOp.ofToken? (trimmed text) <;> simp

lemma operator_eq_error_iff {fault : ArgumentError} :
    operator text = .error fault ↔
      fault = .unknownOperator (trimmed text) ∧ ∀ op : CompareOp, trimmed text ∉ op.spellings := by
  simp only [← CompareOp.ofToken?_eq_some_iff, operator]
  cases CompareOp.ofToken? (trimmed text) <;> simp [eq_comm]

lemma bound_eq_error_iff {fault : ArgumentError} :
    bound text = .error fault ↔
      fault = .nonNumericBound (trimmed text) ∧
        (Value.infer (trimmed text)).isNumeric = false := by
  rw [bound]
  by_cases h : (Value.infer (trimmed text)).isNumeric = true
  · simp [h]
  · simp [h, eq_comm]

lemma lists_iff {items : List String} :
    Lists text items ↔ items = (Text.items text).map String.ofList := by
  have hitems : ((Text.pieces ',' text).filter fun part => !part.all Text.isBlank).map trimmed =
      (Text.items text).map String.ofList := by
    have hblank : (fun part : List Char => !part.all Text.isBlank) =
        (fun item => !item.isEmpty) ∘ Text.trim := by
      funext part
      rw [Function.comp_apply, Bool.not_inj_iff, Bool.eq_iff_iff, List.isEmpty_iff,
        Text.trim_eq_nil_iff]
    rw [Text.items, List.filter_map, ← hblank, List.map_map]
    rfl
  constructor
  · rintro ⟨parts, hne, hplain, hjoined, rfl⟩
    rw [← Text.pieces_eq_iff.mpr ⟨hne, hplain, hjoined⟩, hitems]
  · rintro rfl
    obtain ⟨hne, hplain, hjoined⟩ := Text.pieces_eq_iff.mp (Eq.refl (Text.pieces ',' text))
    exact ⟨_, hne, hplain, hjoined, hitems.symm⟩

lemma list_eq_ok_iff_lists {expected : String} {items : List String} :
    list expected text = .ok items ↔ Lists text items ∧ items ≠ [] := by
  rw [list_eq_ok_iff, lists_iff]

lemma list_eq_error_iff {expected : String} {fault : ArgumentError} :
    list expected text = .error fault ↔ fault = .shape expected ∧ Lists text [] := by
  rw [lists_iff, list]
  cases Text.items text with
  | nil => simp [eq_comm (a := fault)]
  | cons item rest => simp

lemma unwrap?_parentheses (inside : List Char) :
    unwrap? ('(' :: (inside ++ [')'])) = some inside := by
  simp [unwrap?, List.getLast?_cons]

lemma unwrap?_eq_some_iff {inside : List Char} :
    unwrap? text = some inside ↔ Encloses text inside := by
  constructor
  · intro h
    unfold unwrap? at h
    split at h
    · rename_i hopen hclose
      cases h
      obtain ⟨rest, rfl⟩ := List.head?_eq_some_iff.mp (eq_of_beq hopen)
      obtain ⟨before, hbefore⟩ := List.getLast?_eq_some_iff.mp (eq_of_beq hclose)
      cases before with
      | nil => cases hbefore
      | cons first inside =>
        cases hbefore
        simpa using Encloses.parentheses inside
    · rename_i hopen hclose
      cases h
      exact .bare (by simpa using hopen) (by simpa using hclose)
    · cases h
  · intro h
    cases h with
    | parentheses => exact unwrap?_parentheses inside
    | bare hopen hclose =>
      rw [unwrap?, beq_eq_false_iff_ne.mpr hopen, beq_eq_false_iff_ne.mpr hclose]

lemma unwrap?_eq_none_iff : unwrap? text = none ↔ ∀ inside, ¬Encloses text inside := by
  simp only [← unwrap?_eq_some_iff, Option.eq_none_iff_forall_ne_some]

section Division

open Text (Divides)

variable {expected : String}

/-- The two parts of a list filter are cut in place. -/
lemma twoParts_eq_ok_iff {fault : ArgumentError} {first second : List Char} :
    (Text.cut ':' text).elim (throw fault) pure =
        (.ok (first, second) : Except ArgumentError (List Char × List Char)) ↔
      Divides ':' 1 text [first, second] := by
  rw [elim_throw_eq_ok_iff]
  simp [Divides.succ_iff, Divides.zero_iff]

lemma twoParts_eq_error_iff {fault given : ArgumentError} :
    (Text.cut ':' text).elim (throw given) pure =
        (.error fault : Except ArgumentError (List Char × List Char)) ↔
      fault = given ∧ text.count ':' < 1 := by
  rw [elim_throw_eq_error_iff, Text.cut_eq_none_iff, ← List.count_eq_zero, Nat.lt_one_iff, and_comm]

lemma threeParts_eq_ok_iff_divides {first second third : List Char} :
    threeParts expected text = .ok (first, second, third) ↔
      Divides ':' 2 text [first, second, third] := by
  rw [threeParts_eq_ok_iff]
  constructor
  · rintro ⟨rfl, hfirst, hsecond⟩
    exact .cons hfirst (.cons hsecond (.last third))
  · intro h
    cases h with
    | cons hfirst hrest =>
      cases hrest with
      | cons hsecond hlast =>
        cases hlast
        exact ⟨rfl, hfirst, hsecond⟩

lemma threeParts_eq_error_iff {fault : ArgumentError} :
    threeParts expected text = .error fault ↔ fault = .shape expected ∧ text.count ':' < 2 := by
  rw [← Nat.not_le, ← Divides.exists_iff, threeParts]
  cases hcut : Text.cut ':' text with
  | none => simp [Divides.succ_iff, hcut, eq_comm]
  | some found =>
    obtain ⟨first, rest⟩ := found
    cases hrest : Text.cut ':' rest with
    | none => simp [Divides.succ_iff, Divides.zero_iff, hcut, hrest, eq_comm]
    | some found =>
      obtain ⟨second, third⟩ := found
      simp [Divides.succ_iff, Divides.zero_iff, hcut, hrest]

end Division

end Argument

end ParamQuery
