import ParamQuery.Proofs.FilterMonotonicity

/-!
# The shape of compiled predicates

A request joins its filters one by one, so its predicate grows to the left and has one leaf for each
filter. A leaf tests a column with a proper name, and it can be meant: a pattern is a text, nothing
is compared for equality with null, a list has a member and a range has finite bounds.
-/

namespace ParamQuery

/-- Whether a value is a number; a float has to be finite. -/
def Value.IsFiniteNumber : Value → Prop
  | .int _ => True
  | .float x => x.isFinite = true
  | _ => False

lemma Value.isFiniteNumber_of_inferNumber? {raw : List Char} {value : Value}
    (h : inferNumber? raw = some value) : value.IsFiniteNumber := by
  rw [inferNumber?] at h
  split at h
  · cases h
    trivial
  · obtain ⟨x, hx, rfl⟩ := Option.map_eq_some_iff.mp h
    exact (Bool.and_eq_true_iff.mp (Option.filter_eq_some_iff.mp hx).2).1

/-- A number that is inferred from a text is finite. -/
lemma Value.isFiniteNumber_of_infer {raw : String} {value : Value} (h : infer raw = value)
    (hnumeric : value.isNumeric = true) : value.IsFiniteNumber := by
  unfold infer at h
  split at h
  case h_4 =>
    cases hnumber : inferNumber? raw.toList with
    | some number =>
      rw [hnumber] at h
      exact h ▸ isFiniteNumber_of_inferNumber? hnumber
    | none =>
      rw [hnumber] at h
      subst h
      cases hnumeric
  all_goals
    subst h
    cases hnumeric

/-- Not empty and without outer blanks. -/
def IsProperName (name : String) : Prop :=
  name ≠ "" ∧ Text.trim name.toList = name.toList

lemma Argument.isProperName_of_fieldName {text : List Char} {name : String}
    (h : fieldName text = .ok name) : IsProperName name := by
  obtain ⟨rfl, hne⟩ := fieldName_eq_ok_iff.mp h
  refine ⟨hne, ?_⟩
  rw [toList_trimmed, Text.trim_trim]

namespace Predicate

def isLeaf : Predicate → Bool
  | .all _ | .any _ => false
  | _ => true

/-- The leaves of a tree from left to right. -/
def leaves : Predicate → List Predicate
  | .all children | .any children => children.flatMap leaves
  | leaf => [leaf]

/-- A tree that grows to the left: a node has two children, and the right one is a leaf. -/
inductive IsSpine : Predicate → Prop where
  | leaf {tree : Predicate} (h : tree.isLeaf = true) : IsSpine tree
  | all {left right : Predicate} (hleft : IsSpine left) (hright : right.isLeaf = true) :
      IsSpine (.all [left, right])
  | any {left right : Predicate} (hleft : IsSpine left) (hright : right.isLeaf = true) :
      IsSpine (.any [left, right])

/-- A test that a filter may ask for. -/
def IsSoundTest : Predicate → Prop
  | .compare field op value => IsProperName field ∧
      (op = .like ∨ op = .notLike → ∃ pattern, value = .text pattern) ∧
      (op = .eq ∨ op = .ne → value ≠ .null)
  | .member field values _ => IsProperName field ∧ values ≠ []
  | .between field low high _ =>
      IsProperName field ∧ low.IsFiniteNumber ∧ high.IsFiniteNumber
  | .isNull field _ => IsProperName field
  | .all _ | .any _ => False

lemma IsSoundTest.isLeaf {test : Predicate} (h : test.IsSoundTest) : test.isLeaf = true := by
  cases test with
  | all children | any children => exact h.elim
  | _ => rfl

lemma leaves_of_isLeaf {test : Predicate} (h : test.isLeaf = true) : test.leaves = [test] := by
  cases test with
  | all children | any children => cases h
  | _ => simp [leaves]

/-- A leaf that is joined to a spine extends it by one leaf at the right end. -/
lemma IsSpine.join {tree test : Predicate} (htree : tree.IsSpine) (htest : test.isLeaf = true)
    (conjunction : Conjunction) :
    (Predicate.join (some tree) conjunction test).IsSpine ∧
      (Predicate.join (some tree) conjunction test).leaves = tree.leaves ++ [test] := by
  cases conjunction with
  | and => exact ⟨.all htree htest, by simp [Predicate.join, leaves, leaves_of_isLeaf htest]⟩
  | or => exact ⟨.any htree htest, by simp [Predicate.join, leaves, leaves_of_isLeaf htest]⟩

end Predicate

/-- A comparison keeps patterns as text, and equality with null is the test for null. -/
lemma Argument.isSoundTest_comparisonOf {field : String} (h : IsProperName field) (op : CompareOp)
    (operand : String) : (comparisonOf field op operand).IsSoundTest := by
  unfold comparisonOf
  split
  case h_1 | h_2 => exact ⟨h, fun _ => ⟨operand, rfl⟩, by simp⟩
  case h_3 | h_4 => exact h
  case h_5 hlike hnotLike heq hne =>
    refine ⟨h, fun hpattern => hpattern.elim (absurd · hlike) (absurd · hnotLike), ?_⟩
    rintro (hop | hop) hnull
    · exact heq hop hnull
    · exact hne hop hnull

lemma FilterForm.isSoundTest_of_read {form : FilterForm} {text : List Char} {filter : Filter}
    (h : form.read text = .ok filter) : filter.predicate.IsSoundTest := by
  cases form with
  | comparison =>
    obtain ⟨_, _, third, field, op, -, -, -, hfield, -, rfl⟩ := Argument.comparison_eq_ok_iff.mp h
    exact Argument.isSoundTest_comparisonOf (Argument.isProperName_of_fieldName hfield) op _
  | membership negated =>
    obtain ⟨_, _, _, field, items, -, -, hfield, -, hitems, rfl⟩ :=
      Argument.membership_eq_ok_iff.mp h
    refine ⟨Argument.isProperName_of_fieldName hfield, ?_⟩
    simpa using (Argument.list_eq_ok_iff.mp hitems).2
  | range negated =>
    obtain ⟨_, _, _, field, low, high, -, -, -, hfield, hlow, hhigh, rfl⟩ :=
      Argument.range_eq_ok_iff.mp h
    obtain ⟨rfl, hlow⟩ := Argument.bound_eq_ok_iff.mp hlow
    obtain ⟨rfl, hhigh⟩ := Argument.bound_eq_ok_iff.mp hhigh
    exact ⟨Argument.isProperName_of_fieldName hfield, Value.isFiniteNumber_of_infer rfl hlow,
      Value.isFiniteNumber_of_infer rfl hhigh⟩
  | nullness negated =>
    obtain ⟨field, hfield, rfl⟩ := Argument.nullness_eq_ok_iff.mp h
    exact Argument.isProperName_of_fieldName hfield

/-- Leaves that are joined one after another extend a spine, in their order. -/
lemma Predicate.isSpine_foldl_join {root : Predicate} (hroot : root.IsSpine)
    {links : List (Conjunction × Predicate)} (hleaf : ∀ link ∈ links, link.2.isLeaf = true) :
    let tree := links.foldl (fun tree link => Predicate.join (some tree) link.1 link.2) root
    tree.IsSpine ∧ tree.leaves = root.leaves ++ links.map Prod.snd := by
  induction links generalizing root with
  | nil => exact ⟨hroot, by simp⟩
  | cons link rest ih =>
    obtain ⟨hlink, hrest⟩ := List.forall_mem_cons.mp hleaf
    obtain ⟨hspine, hleaves⟩ := hroot.join hlink link.1
    obtain ⟨htree, hall⟩ := ih hspine hrest
    refine ⟨htree, hall.trans ?_⟩
    rw [hleaves, List.append_assoc]
    rfl

/-- The tree of a chain of leaves is a spine with just these leaves. -/
lemma Request.isSpine_of_joined {filters : List (Conjunction × Predicate)} {tree : Predicate}
    (hleaf : ∀ link ∈ filters, link.2.isLeaf = true) (h : joined filters = some tree) :
    tree.IsSpine ∧ tree.leaves = filters.map Prod.snd := by
  cases filters with
  | nil => cases h
  | cons link rest =>
    cases h
    obtain ⟨hlink, hrest⟩ := List.forall_mem_cons.mp hleaf
    obtain ⟨hspine, hleaves⟩ := Predicate.isSpine_foldl_join (.leaf hlink) hrest
    exact ⟨hspine, by rw [hleaves, Predicate.leaves_of_isLeaf hlink]; rfl⟩

namespace Occurrence

open DirectiveKind

lemma isSoundTest_of_filter? {occurrence : Occurrence} {link : Conjunction × Predicate}
    (h : occurrence.request.filter? = some link) : link.2.IsSoundTest := by
  rw [request] at h
  split at h
  case h_2 conjunction form hkind =>
    obtain ⟨filter, hfilter, rfl⟩ := Option.map_eq_some_iff.mp h
    exact FilterForm.isSoundTest_of_read (toOption_eq_some_iff.mp hfilter)
  all_goals cases h

/-- Every occurrence of a filter that is read is a link of the chain. -/
lemma length_filters {occurrences : List Occurrence}
    (h : ∀ occurrence ∈ occurrences, Registry.builtin.fault? occurrence = none) :
    (filters occurrences).length =
      occurrences.countP fun occurrence => isFilterName occurrence.name := by
  rw [filters, List.length_filterMap_eq_countP]
  apply List.countP_congr
  intro occurrence hmem
  constructor
  · intro hsome
    by_contra hname
    rw [(asksByName occurrence).filter (by simpa using hname)] at hsome
    cases hsome
  · intro hname
    obtain ⟨conjunction, hname⟩ := isFilterName_iff.mp hname
    obtain ⟨filter, hfilter⟩ := filter?_of_faultless hname (h occurrence hmem)
    rw [hfilter]
    rfl

end Occurrence

namespace Dialect

open DirectiveKind

variable {model : Model} {reserved : ReservedNames} {params : Parameters}
  {compiled : Compiled Query}

/-- The steps of a plan that are filters are the occurrences of its request that are. -/
lemma countP_filters_of_compile
    (h : compile ⟨.builtin, reserved⟩ params model.entity = .ok compiled) :
    compiled.plan.countP (fun step => isFilterName step.name) =
      (Occurrence.filters (params.without reserved).occurrences).length := by
  rw [Occurrence.length_filters (faultless_of_compile h)]
  have hplan : compiled.plan.map PlanStep.occurrence =
      forceLast (fun occurrence => occurrence.name == "force")
        (params.without reserved).occurrences :=
    Registry.occurrences_of_plan (run_of_compile h).1
  -- moving a toggle to the end changes no count
  rw [← (forceLast_perm (fun occurrence => occurrence.name == "force")
    (params.without reserved).occurrences).countP_eq, ← hplan, List.countP_map]
  rfl

/-- The predicate of a request that compiles is well formed. There is one just if the request has a
filter. It is a spine to the left with one leaf for each occurrence of a filter, and each leaf is
a sound test. -/
theorem compiled_predicate_wellFormed (model : Model) (reserved : ReservedNames)
    (params : Parameters) {compiled : Compiled Query}
    (h : compile ⟨.builtin, reserved⟩ params model.entity = .ok compiled) :
    let filters := compiled.plan.countP fun step => isFilterName step.name
    (compiled.query.predicate = none ↔ filters = 0) ∧
    ∀ predicate, compiled.query.predicate = some predicate →
      predicate.IsSpine ∧ predicate.leaves.length = filters ∧
      ∀ leaf ∈ predicate.leaves, leaf.IsSoundTest := by
  dsimp only
  rw [countP_filters_of_compile h, predicate_of_compile h]
  generalize hfilters : Occurrence.filters (params.without reserved).occurrences = filters
  have hsound : ∀ link ∈ filters, link.2.IsSoundTest := by
    intro link hlink
    rw [← hfilters] at hlink
    obtain ⟨occurrence, -, hlink⟩ := List.mem_filterMap.mp hlink
    exact Occurrence.isSoundTest_of_filter? hlink
  refine ⟨?_, fun predicate hpredicate => ?_⟩
  · cases filters <;> simp [Request.joined]
  · obtain ⟨hspine, hleaves⟩ :=
      Request.isSpine_of_joined (fun link hlink => (hsound link hlink).isLeaf) hpredicate
    refine ⟨hspine, by rw [hleaves, List.length_map], ?_⟩
    rw [hleaves, List.forall_mem_map]
    exact hsound

/-- All four forms of filter, repeated and mixed with other directives. -/
theorem compiled_predicate_wellFormed_mixed :
    let model : Model := ⟨"User", "users", none, [], .allOf "users"⟩
    let params := Parameters.ofPairs
      [("or_where", " a :lk: 5"), ("limit", "3"), ("where_in", "b:( x,, 1 )"), ("page", "2"),
        ("where[]", "c:eq: null"), ("or_where_not_between", "d: -1 : +25"), ("or_where[]", "e:ne:")]
    ∃ compiled, compile ⟨.builtin, {}⟩ params model.entity = .ok compiled ∧
      ∃ predicate, compiled.query.predicate = some predicate ∧ predicate.IsSpine ∧
        predicate.leaves.length = 5 ∧ ∀ leaf ∈ predicate.leaves, leaf.IsSoundTest := by
  intro model params
  have hcompiled : ∃ compiled, compile ⟨.builtin, {}⟩ params model.entity = .ok compiled ∧
      compiled.plan.countP (fun step => isFilterName step.name) = 5 := ⟨_, rfl, rfl⟩
  obtain ⟨compiled, hcompiled, hcount⟩ := hcompiled
  obtain ⟨hnone, hsome⟩ := compiled_predicate_wellFormed model {} params hcompiled
  cases hpredicate : compiled.query.predicate with
  | none =>
    have hzero := hnone.mp hpredicate
    omega
  | some predicate =>
    obtain ⟨hspine, hlength, hsound⟩ := hsome predicate hpredicate
    exact ⟨compiled, hcompiled, predicate, hpredicate, hspine, hlength.trans hcount, hsound⟩

end Dialect

end ParamQuery
