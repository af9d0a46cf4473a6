import ParamQuery.Proofs.Catalogue
import ParamQuery.Proofs.Numerals

/-!
# Canonical arguments

The tokens of a reading can be written out as an argument of the same directive, without the blanks,
signs and spare parentheses of the argument that was read. The written argument is read into the
same tokens and the same calls, because no token holds the character that would divide it.
-/

namespace ParamQuery

/-- The tokens of a filter as its argument. -/
def FilterForm.written : FilterForm → List String → String
  | .comparison, tokens | .range _, tokens => ":".intercalate tokens
  | .membership _, tokens => tokens.headD "" ++ ":(" ++ ",".intercalate tokens.tail ++ ")"
  | .nullness _, tokens => tokens.headD ""

/-- The tokens of a directive as its argument. -/
def DirectiveKind.written : DirectiveKind → List String → String
  | filter _ form, tokens => form.written tokens
  | orderBy, tokens | columns, tokens | relations, tokens => ",".intercalate tokens
  | limit, tokens | offset, tokens | force, tokens => tokens.headD ""
  | toggle _, _ => ""

/-- The tokens of a built-in directive as its argument. -/
def canonicalArgument (name : String) (tokens : List String) : String :=
  (DirectiveKind.ofName? name).elim "" fun kind => kind.written tokens

namespace Argument

lemma fieldName_written {text : List Char} {field : String} (h : fieldName text = .ok field) :
    fieldName field.toList = .ok field := by
  obtain ⟨rfl, hne⟩ := fieldName_eq_ok_iff.mp h
  exact fieldName_eq_ok_iff.mpr ⟨(trimmed_trimmed text).symm, hne⟩

lemma notMem_field {text : List Char} {field : String} {separator : Char}
    (h : fieldName text = .ok field) (hnot : separator ∉ text) : separator ∉ field.toList := by
  obtain ⟨rfl, -⟩ := fieldName_eq_ok_iff.mp h
  rw [toList_trimmed]
  exact fun hmem => hnot (Text.mem_of_mem_trim hmem)

lemma operator_token (op : CompareOp) : operator op.token.toList = .ok op := by
  cases op <;> rfl

lemma notMem_token (op : CompareOp) : ':' ∉ op.token.toList := by
  cases op <;> decide

lemma scope_name (s : Scope) : scope s.name.toList = .ok s := by
  cases s <;> rfl

lemma bound_written {text : List Char} {value : Value} (h : bound text = .ok value) :
    bound (trimmed text).toList = .ok value := by
  rw [bound_eq_ok_iff, trimmed_trimmed]
  exact bound_eq_ok_iff.mp h

lemma trim_parentheses (inside : List Char) :
    Text.trim ('(' :: (inside ++ [')'])) = '(' :: (inside ++ [')']) := by
  apply Text.trim_eq_self_of_ends
  · rintro c ⟨⟩
    decide
  · intro c hc
    obtain rfl : ')' = c := by simpa [List.getLast?_cons] using hc
    decide

lemma list_written {expected : String} {text : List Char} {found : List String}
    (h : list expected text = .ok found) :
    list expected (",".intercalate found).toList = .ok found := by
  obtain ⟨rfl, hne⟩ := list_eq_ok_iff.mp h
  have hchars : ((Text.items text).map String.ofList).map String.toList = Text.items text := by
    rw [List.map_map]
    exact (List.map_congr_left fun _ _ => String.toList_ofList).trans (List.map_id _)
  have hitems : Text.items (",".intercalate ((Text.items text).map String.ofList)).toList =
      Text.items text := by
    have hplain : ∀ item ∈ Text.items text, Text.trim item ≠ [] ∧ ',' ∉ item := by
      intro item hitem
      obtain ⟨hne, htrimmed, hcomma⟩ := Text.of_mem_items hitem
      exact ⟨htrimmed.symm ▸ hne, hcomma⟩
    rw [String.toList_intercalate, hchars]
    refine (Text.items_intercalate hplain).trans ?_
    exact (List.map_congr_left fun _ hitem => (Text.of_mem_items hitem).2.1).trans (List.map_id _)
  exact list_eq_ok_iff.mpr ⟨by rw [hitems], hne⟩

lemma isBlank_of_isDigit {c : Char} (h : c.isDigit = true) : Text.isBlank c = false := by
  have hrange : 48 ≤ c.toNat ∧ c.toNat ≤ 57 := by
    simpa [Char.isDigit, UInt32.le_iff_toNat_le] using h
  unfold Text.isBlank
  simp only [Bool.or_eq_false_iff, Bool.and_eq_false_iff, decide_eq_false_iff_not,
    beq_eq_false_iff_ne]
  omega

/-- A count is read back from its decimal digits. -/
lemma count_written (n : UInt32) : count (toString n.toNat).toList = .ok n := by
  have hdigits : ∀ c ∈ Nat.toDigits 10 n.toNat, Text.isBlank c = false := fun c hc =>
    isBlank_of_isDigit (Nat.isDigit_of_mem_toDigits (by decide) (by decide) hc)
  have htrim : Text.trim (toString n.toNat).toList = Nat.toDigits 10 n.toNat := by
    rw [Nat.toString_eq_repr, Nat.toList_repr]
    exact Text.trim_eq_self_of_ends (fun c hc => hdigits c (List.mem_of_mem_head? hc))
      fun c hc => hdigits c (List.mem_of_getLast? hc)
  have hvalue : Numeral.value? (Text.trim (toString n.toNat).toList) = some n.toNat := by
    rw [htrim]
    exact Numeral.value?_toDigits n.toNat
  exact count_eq_ok_iff.mpr
    ⟨n.toNat, hvalue, Nat.le_of_lt_succ n.toNat_lt, UInt32.ofNat_toNat.symm⟩

end Argument

/-- A filter is read back from its tokens. -/
lemma FilterForm.read_written {form : FilterForm} {text : List Char} {filter : Filter}
    (h : form.read text = .ok filter) :
    form.read (form.written filter.tokens).toList = .ok filter := by
  cases form with
  | comparison =>
    obtain ⟨first, second, third, field, op, -, hfirst, -, hfield, -, rfl⟩ :=
      Argument.comparison_eq_ok_iff.mp h
    refine Argument.comparison_eq_ok_iff.mpr ⟨field.toList, op.token.toList,
      (Argument.trimmed third).toList, field, op, ?_, Argument.notMem_field hfield hfirst,
      Argument.notMem_token op, Argument.fieldName_written hfield, Argument.operator_token op, ?_⟩
    · simp [written]
    · rw [Argument.trimmed_trimmed]
  | membership negated =>
    obtain ⟨first, second, inside, field, items, -, hfirst, hfield, -, hitems, rfl⟩ :=
      Argument.membership_eq_ok_iff.mp h
    refine Argument.membership_eq_ok_iff.mpr ⟨field.toList,
      '(' :: ((",".intercalate items).toList ++ [')']), (",".intercalate items).toList, field,
      items, ?_, Argument.notMem_field hfield hfirst, Argument.fieldName_written hfield, ?_,
      Argument.list_written hitems, rfl⟩
    · simp [written]
    · rw [Argument.trim_parentheses, Argument.unwrap?_parentheses]
  | range negated =>
    obtain ⟨first, second, third, field, low, high, -, hfirst, hsecond, hfield, hlow, hhigh, rfl⟩ :=
      Argument.range_eq_ok_iff.mp h
    refine Argument.range_eq_ok_iff.mpr ⟨field.toList, (Argument.trimmed second).toList,
      (Argument.trimmed third).toList, field, low, high, ?_, Argument.notMem_field hfield hfirst,
      ?_, Argument.fieldName_written hfield, Argument.bound_written hlow,
      Argument.bound_written hhigh, ?_⟩
    · simp [written]
    · rw [Argument.toList_trimmed]
      exact fun hmem => hsecond (Text.mem_of_mem_trim hmem)
    · rw [Argument.trimmed_trimmed, Argument.trimmed_trimmed]
  | nullness negated =>
    obtain ⟨field, hfield, rfl⟩ := Argument.nullness_eq_ok_iff.mp h
    exact Argument.nullness_eq_ok_iff.mpr ⟨field, Argument.fieldName_written hfield, rfl⟩

/-- A reading is read back from its tokens. -/
lemma DirectiveKind.read_written {kind : DirectiveKind} {raw : String} {reading : Reading}
    (h : kind.directive.read raw = .ok reading) :
    kind.directive.read (kind.written reading.tokens) = .ok reading := by
  rw [read_directive] at h ⊢
  cases kind with
  | filter conjunction form =>
    obtain ⟨filter, hfilter, hreading⟩ := bind_eq_ok_iff.mp h
    cases hreading
    exact bind_eq_ok_iff.mpr ⟨filter, FilterForm.read_written hfilter, rfl⟩
  | toggle scope => exact h
  | force =>
    obtain ⟨scope, -, hreading⟩ := bind_eq_ok_iff.mp h
    cases hreading
    exact bind_eq_ok_iff.mpr ⟨scope, Argument.scope_name scope, rfl⟩
  | orderBy =>
    obtain ⟨items, hitems, hrest⟩ := bind_eq_ok_iff.mp h
    obtain ⟨keys, hkeys, hreading⟩ := bind_eq_ok_iff.mp hrest
    cases hreading
    exact bind_eq_ok_iff.mpr ⟨items, Argument.list_written hitems,
      bind_eq_ok_iff.mpr ⟨keys, hkeys, rfl⟩⟩
  | columns =>
    obtain ⟨items, hitems, hreading⟩ := bind_eq_ok_iff.mp h
    cases hreading
    exact bind_eq_ok_iff.mpr ⟨items, Argument.list_written hitems, rfl⟩
  | relations =>
    obtain ⟨items, hitems, hreading⟩ := bind_eq_ok_iff.mp h
    cases hreading
    exact bind_eq_ok_iff.mpr ⟨items, Argument.list_written hitems, rfl⟩
  | limit =>
    obtain ⟨count, -, hreading⟩ := bind_eq_ok_iff.mp h
    cases hreading
    exact bind_eq_ok_iff.mpr ⟨count, Argument.count_written count, rfl⟩
  | offset =>
    obtain ⟨count, -, hreading⟩ := bind_eq_ok_iff.mp h
    cases hreading
    exact bind_eq_ok_iff.mpr ⟨count, Argument.count_written count, rfl⟩

/-- Tokens written out are accepted by a fresh handler and leave it with the reading that they come
from: the same tokens and the same calls. -/
theorem canonical_argument_reads_back {name raw : String} {directive : Directive}
    {handler : Handler} (hbuiltin : Registry.builtin.get? name = some directive)
    (haccepted : directive.handler.tokenize raw = (handler, none)) :
    directive.handler.tokenize (canonicalArgument name handler.reading.tokens) =
      (handler, none) := by
  obtain ⟨reading, hread, rfl⟩ := Directive.tokenize_eq_iff.mp haccepted
  rw [Registry.get?_builtin, Option.map_eq_some_iff] at hbuiltin
  obtain ⟨kind, hkind, rfl⟩ := hbuiltin
  have hwritten : canonicalArgument name reading.tokens = kind.written reading.tokens := by
    rw [canonicalArgument, hkind, Option.elim_some]
  rw [Directive.tokenize_eq_iff, hwritten]
  exact ⟨reading, DirectiveKind.read_written hread, rfl⟩

/-- A list with a colon, parentheses and signs in its items, an operator with two spellings before
an operand with a colon, and a count with a sign and zeros in front. -/
theorem canonical_argument_reads_back_rare_characters :
    let member := Directive.filter .or (.membership true)
    let compare := Directive.filter .and .comparison
    let memberRead : Handler := ⟨member, ⟨["tag", "a:b", "(x)", "+7"],
      .issuing [.filter .or (.member "tag" [.text "a:b", .text "(x)", .int 7] true)]⟩⟩
    let compareRead : Handler := ⟨compare, ⟨["a", "ne", "x: y"],
      .issuing [.filter .and (.compare "a" .ne (.text "x: y"))]⟩⟩
    let limitRead : Handler := ⟨.limit, ⟨["7"], .issuing [.limit 7]⟩⟩
    member.handler.tokenize "\u3000tag : ( a:b ,, (x), +7)\n" = (memberRead, none) ∧
      member.handler.tokenize "tag:(a:b,(x),+7)" = (memberRead, none) ∧
      compare.handler.tokenize " a: noteq :x: y " = (compareRead, none) ∧
      compare.handler.tokenize "a:ne:x: y" = (compareRead, none) ∧
      Directive.limit.handler.tokenize "+007" = (limitRead, none) ∧
      Directive.limit.handler.tokenize "7" = (limitRead, none) := by
  intro member compare memberRead compareRead limitRead
  have hmember :
      member.handler.tokenize "\u3000tag : ( a:b ,, (x), +7)\n" = (memberRead, none) := by
    rfl
  have hcompare : compare.handler.tokenize " a: noteq :x: y " = (compareRead, none) := by
    rfl
  have hlimit : Directive.limit.handler.tokenize "+007" = (limitRead, none) := by
    rfl
  have hlist : Registry.builtin.get? "or_where_not_in" = some member := by rfl
  have hwhere : Registry.builtin.get? "where" = some compare := by rfl
  have hcap : Registry.builtin.get? "limit" = some .limit := by rfl
  exact ⟨hmember, canonical_argument_reads_back hlist hmember,
    hcompare, canonical_argument_reads_back hwhere hcompare,
    hlimit, canonical_argument_reads_back hcap hlimit⟩

end ParamQuery
