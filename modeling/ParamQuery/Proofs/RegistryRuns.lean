import Mathlib.Data.List.Infix
import ParamQuery.Proofs.ByteOrder
import ParamQuery.Proofs.DisabledNames

/-!
# Runs of changes to a registry

A registry is a finite map, whatever has been done to it: names are bound once, what a name is bound
to was last registered for it and has not been removed since, and the names are listed in the order
of their bytes. There is one lemma for what a change does to the binding of a name; the statement
about runs follows by induction on their changes.
-/

namespace ParamQuery

namespace Registry

/-- A call that changes a registry. -/
inductive Change where
  | register (name : String) (directive : Directive)
  | unregister (name : String)
  | restrict (names : List String)

/-- The registry after a change. A refused change leaves it as it was; a restriction keeps what it
has removed before the name at which it stops. -/
def after (registry : Registry) : Change → Registry
  | .register name directive => (registry.register name directive).toOption.getD registry
  | .unregister name => (registry.unregister name).toOption.getD registry
  | .restrict names => (registry.remove names).1

def run (registry : Registry) (changes : List Change) : Registry := changes.foldl after registry

/-- The names at the front of a list that are bound when their turn comes. -/
structure Takes (registry : Registry) (names taken : List String) : Prop where
  front : taken <+: names
  nodup : taken.Nodup
  bound : ∀ name ∈ taken, registry.contains name = true
  stops : ∀ name, taken ++ [name] <+: names → registry.contains name = true → name ∈ taken

/-- The change takes out a name that is bound. -/
def Removes (registry : Registry) (name : String) : Change → Prop
  | .register _ _ => False
  | .unregister other => other = name ∧ registry.contains name = true
  | .restrict names => ∃ taken, registry.Takes names taken ∧ name ∈ taken

/-- No change of a run takes out the name. -/
def Keeps (registry : Registry) (name : String) : List Change → Prop
  | [] => True
  | change :: rest => ¬registry.Removes name change ∧ (registry.after change).Keeps name rest

/-- The directive was bound to the name at the start, or was registered for it when it was free, and
the name has not been removed since. -/
def Holds (start : Registry) (changes : List Change) (name : String) (directive : Directive) :
    Prop :=
  (start.get? name = some directive ∧ start.Keeps name changes) ∨
    ∃ before rest, changes = before ++ .register name directive :: rest ∧
      (start.run before).contains name = false ∧
      (start.run (before ++ [.register name directive])).Keeps name rest

variable {registry next : Registry} {name : String}

lemma contains_iff_exists :
    registry.contains name = true ↔ ∃ directive, registry.get? name = some directive :=
  Option.isSome_iff_exists

lemma contains_eq_false_iff : registry.contains name = false ↔ registry.get? name = none := by
  rw [contains, Option.isSome_eq_false_iff, Option.isNone_iff_eq_none]

lemma after_register_of_contains (h : registry.contains name = true) (directive : Directive) :
    registry.after (.register name directive) = registry := by
  rw [after, register, if_pos h]
  rfl

lemma exists_register_iff {directive : Directive} :
    (∃ next, registry.register name directive = .ok next) ↔ registry.contains name = false := by
  rw [register]
  by_cases h : registry.contains name = true <;> simp [h]

lemma after_unregister_of_free (h : registry.contains name = false) :
    registry.after (.unregister name) = registry := by
  rw [after, unregister, if_neg (by simp [h])]
  rfl

section Restriction

variable {names rest taken : List String} {first : String}

lemma takes_nil_iff : registry.Takes [] taken ↔ taken = [] := by
  constructor
  · exact fun h => List.prefix_nil.mp h.front
  · rintro rfl
    exact ⟨List.nil_prefix, List.nodup_nil, by simp, fun name h => by simp at h⟩

lemma takes_cons_of_free (h : ¬registry.contains first = true) :
    registry.Takes (first :: rest) taken ↔ taken = [] := by
  constructor
  · intro htakes
    cases taken with
    | nil => rfl
    | cons name taken =>
      obtain ⟨rfl, -⟩ := List.cons_prefix_cons.mp htakes.front
      exact absurd (htakes.bound name List.mem_cons_self) h
  · rintro rfl
    refine ⟨List.nil_prefix, List.nodup_nil, by simp, fun name hfront hname => ?_⟩
    obtain ⟨rfl, -⟩ := List.cons_prefix_cons.mp hfront
    exact absurd hname h

/-- A name that is bound is taken first, and the others are judged by what it leaves. -/
lemma takes_cons_of_unregister (h : registry.unregister first = .ok next) :
    registry.Takes (first :: rest) (first :: taken) ↔ next.Takes rest taken := by
  have hkept := contains_of_unregister h
  have hfirst : registry.contains first = true := exists_unregister_iff.mp ⟨next, h⟩
  constructor
  · rintro ⟨hfront, hdistinct, hbound, hstops⟩
    obtain ⟨hnew, hdistinct⟩ := List.nodup_cons.mp hdistinct
    refine ⟨(List.cons_prefix_cons.mp hfront).2, hdistinct, fun other hother => ?_,
      fun other hother hleft => ?_⟩
    · exact (hkept other).mpr ⟨fun hsame => hnew (hsame ▸ hother),
        hbound other (List.mem_cons_of_mem first hother)⟩
    · obtain ⟨hne, hgiven⟩ := (hkept other).mp hleft
      have hmem := hstops other (List.cons_prefix_cons.mpr ⟨rfl, hother⟩) hgiven
      exact (List.mem_cons.mp hmem).resolve_left hne
  · rintro ⟨hfront, hdistinct, hbound, hstops⟩
    refine ⟨List.cons_prefix_cons.mpr ⟨rfl, hfront⟩,
      List.nodup_cons.mpr ⟨fun hmem => ?_, hdistinct⟩,
      List.forall_mem_cons.mpr ⟨hfirst, fun other hother => ?_⟩, fun other hother hgiven => ?_⟩
    · exact ((hkept first).mp (hbound first hmem)).1 rfl
    · exact ((hkept other).mp (hbound other hother)).2
    · by_cases hsame : other = first
      · exact hsame ▸ List.mem_cons_self
      · have hother' := (List.cons_prefix_cons.mp hother).2
        exact List.mem_cons_of_mem first (hstops other hother' ((hkept other).mpr ⟨hsame, hgiven⟩))

/-- The front that is taken is not empty if the first name is bound. -/
lemma exists_cons_of_takes (h : registry.contains first = true)
    (htakes : registry.Takes (first :: rest) taken) : ∃ later, taken = first :: later := by
  cases taken with
  | nil =>
    have hmem := htakes.stops first (List.cons_prefix_cons.mpr ⟨rfl, List.nil_prefix⟩) h
    exact absurd hmem List.not_mem_nil
  | cons name later =>
    obtain ⟨rfl, -⟩ := List.cons_prefix_cons.mp htakes.front
    exact ⟨later, rfl⟩

lemma exists_takes (registry : Registry) (names : List String) :
    ∃ taken, registry.Takes names taken := by
  induction names generalizing registry with
  | nil => exact ⟨[], takes_nil_iff.mpr rfl⟩
  | cons first rest ih =>
    by_cases hfirst : registry.contains first = true
    · obtain ⟨next, hnext⟩ := exists_unregister_iff.mpr hfirst
      obtain ⟨taken, htaken⟩ := ih next
      exact ⟨first :: taken, (takes_cons_of_unregister hnext).mpr htaken⟩
    · exact ⟨[], (takes_cons_of_free hfirst).mpr rfl⟩

/-- A restriction unbinds the names that it takes and no others, and stops at the name that follows
them in its list. -/
theorem remove_of_takes (h : registry.Takes names taken) :
    (registry.remove names).2 = names[taken.length]? ∧
      ∀ name, (registry.remove names).1.get? name =
        if name ∈ taken then none else registry.get? name := by
  induction names generalizing registry taken with
  | nil =>
    obtain rfl := takes_nil_iff.mp h
    exact ⟨rfl, fun name => (if_neg List.not_mem_nil).symm⟩
  | cons first rest ih =>
    rw [remove]
    cases hfirst : registry.unregister first with
    | error fault =>
      have hfree : ¬registry.contains first = true := by
        rw [← exists_unregister_iff, hfirst]
        simp
      obtain rfl := (takes_cons_of_free hfree).mp h
      exact ⟨rfl, fun name => (if_neg List.not_mem_nil).symm⟩
    | ok next =>
      obtain ⟨later, rfl⟩ := exists_cons_of_takes (exists_unregister_iff.mp ⟨next, hfirst⟩) h
      obtain ⟨hstops, hunbinds⟩ := ih ((takes_cons_of_unregister hfirst).mp h)
      refine ⟨hstops, fun name => ?_⟩
      dsimp only
      rw [hunbinds, get?_unregister hfirst]
      by_cases hname : name = first <;> simp [hname]

lemma get?_after_restrict (h : registry.Takes names taken) (name : String) :
    (registry.after (.restrict names)).get? name =
      if name ∈ taken then none else registry.get? name := (remove_of_takes h).2 name

end Restriction

/-- What a change does to the binding of a name. -/
theorem get?_after_eq_some_iff {change : Change} {directive : Directive} :
    (registry.after change).get? name = some directive ↔
      (registry.get? name = some directive ∧ ¬registry.Removes name change) ∨
        (change = .register name directive ∧ registry.contains name = false) := by
  cases change with
  | register other given =>
    rw [Removes, not_false_eq_true, and_true, Change.register.injEq]
    cases hother : registry.contains other with
    | true =>
      rw [after_register_of_contains hother]
      refine ⟨.inl, ?_⟩
      rintro (hname | ⟨⟨rfl, -⟩, hfree⟩)
      · exact hname
      · exact absurd (hother.symm.trans hfree) (by decide)
    | false =>
      obtain ⟨next, hnext⟩ := exists_register_iff.mpr hother
      rw [after, hnext, Except.toOption, Option.getD_some, get?_register hnext]
      by_cases hname : name = other
      · subst hname
        simp [hother, contains_eq_false_iff.mp hother]
      · simp [hname, Ne.symm hname]
  | unregister other =>
    rw [or_iff_left (by rintro ⟨⟨⟩, -⟩), Removes]
    cases hother : registry.contains other with
    | false =>
      rw [after_unregister_of_free hother]
      refine ⟨fun hname => ⟨hname, ?_⟩, And.left⟩
      rintro ⟨rfl, hbound⟩
      exact absurd (hother.symm.trans hbound) (by decide)
    | true =>
      obtain ⟨next, hnext⟩ := exists_unregister_iff.mpr hother
      rw [after, hnext, Except.toOption, Option.getD_some, get?_unregister hnext]
      by_cases hname : name = other
      · subst hname
        simp [hother]
      · simp [hname, Ne.symm hname]
  | restrict names =>
    rw [or_iff_left (by rintro ⟨⟨⟩, -⟩), Removes]
    obtain ⟨taken, htaken⟩ := exists_takes registry names
    rw [get?_after_restrict htaken]
    by_cases hname : name ∈ taken
    · rw [if_pos hname]
      simp only [reduceCtorEq, false_iff, not_and, not_not]
      exact fun _ => ⟨taken, htaken, hname⟩
    · rw [if_neg hname, iff_self_and]
      rintro hbound ⟨other, hother, hmem⟩
      -- both fronts say what is bound to the name afterwards
      have hafter := get?_after_restrict hother name
      rw [get?_after_restrict htaken, if_neg hname, if_pos hmem, hbound] at hafter
      exact absurd hafter (by simp)

/-- What a name is bound to after a run was last registered for it, or there from the start. -/
theorem get?_run_eq_some_iff {start : Registry} {changes : List Change} {directive : Directive} :
    (start.run changes).get? name = some directive ↔ start.Holds changes name directive := by
  induction changes generalizing start with
  | nil => simp [Holds, run, Keeps]
  | cons change rest ih =>
    have hrun : start.run (change :: rest) = (start.after change).run rest := rfl
    rw [hrun, ih, Holds, Holds, get?_after_eq_some_iff, Keeps]
    constructor
    · rintro (⟨⟨hname, hkeeps⟩ | ⟨rfl, hfree⟩, hrest⟩ | ⟨before, later, rfl, hfree, hlater⟩)
      · exact .inl ⟨hname, hkeeps, hrest⟩
      · exact .inr ⟨[], rest, rfl, hfree, hrest⟩
      · exact .inr ⟨change :: before, later, rfl, hfree, hlater⟩
    · rintro (⟨hname, hkeeps, hrest⟩ | ⟨before, later, hsplit, hfree, hlater⟩)
      · exact .inl ⟨.inl ⟨hname, hkeeps⟩, hrest⟩
      · cases before with
        | nil =>
          cases hsplit
          exact .inl ⟨.inr ⟨rfl, hfree⟩, hlater⟩
        | cons first before =>
          cases hsplit
          exact .inr ⟨before, later, rfl, hfree, hlater⟩

/-- Every name is bound once. -/
def Distinct (registry : Registry) : Prop := (registry.bindings.map Prod.fst).Nodup

lemma contains_iff_mem : registry.contains name = true ↔ name ∈ registry.bindings.map Prod.fst := by
  rw [contains, get?, ← not_iff_not, Bool.not_eq_true, Option.isSome_eq_false_iff,
    Option.isNone_iff_eq_none, List.lookup_eq_none_iff, List.mem_map]
  constructor
  · rintro hfree ⟨binding, hbinding, rfl⟩
    exact absurd (hfree binding hbinding) (by simp)
  · intro hfree binding hbinding
    exact bne_iff_ne.mpr fun hname => hfree ⟨binding, hbinding, hname.symm⟩

lemma distinct_of_register {directive : Directive} (h : registry.Distinct)
    (hnext : registry.register name directive = .ok next) : next.Distinct := by
  have hfree := exists_register_iff.mp ⟨next, hnext⟩
  rw [register, hfree, if_neg Bool.false_ne_true] at hnext
  cases hnext
  have hnew : name ∉ registry.bindings.map Prod.fst := by
    rw [← contains_iff_mem, hfree]
    decide
  rw [Distinct, List.map_append, List.map_singleton, ← List.concat_eq_append]
  exact List.Nodup.concat hnew h

lemma distinct_of_unregister (h : registry.Distinct) (hnext : registry.unregister name = .ok next) :
    next.Distinct := by
  rw [unregister, if_pos (exists_unregister_iff.mp ⟨next, hnext⟩)] at hnext
  cases hnext
  exact h.sublist (List.filter_sublist.map Prod.fst)

lemma distinct_of_remove (h : registry.Distinct) (names : List String) :
    (registry.remove names).1.Distinct := by
  induction names generalizing registry with
  | nil => exact h
  | cons first rest ih =>
    rw [remove]
    cases hfirst : registry.unregister first with
    | error fault => exact h
    | ok next => exact ih (distinct_of_unregister h hfirst)

lemma distinct_after (h : registry.Distinct) (change : Change) :
    (registry.after change).Distinct := by
  cases change with
  | register name directive =>
    rw [after]
    cases hnext : registry.register name directive with
    | error fault => exact h
    | ok next => exact distinct_of_register h hnext
  | unregister name =>
    rw [after]
    cases hnext : registry.unregister name with
    | error fault => exact h
    | ok next => exact distinct_of_unregister h hnext
  | restrict names => exact distinct_of_remove h names

lemma distinct_run {start : Registry} (h : start.Distinct) (changes : List Change) :
    (start.run changes).Distinct := by
  induction changes generalizing start with
  | nil => exact h
  | cons change rest ih => exact ih (distinct_after h change)

lemma mem_names_iff : name ∈ registry.names ↔ registry.contains name = true := by
  rw [names, List.mem_mergeSort, contains_iff_mem]

lemma length_names : registry.names.length = registry.size := by
  rw [names, List.length_mergeSort, List.length_map, size]

/-- Distinct names are listed in the strict order of their bytes. -/
lemma pairwise_names (h : registry.Distinct) :
    registry.names.Pairwise fun a b => Utf8.bytes a < Utf8.bytes b := by
  have hsorted : registry.names.Pairwise fun a b => decide (a ≤ b) = true :=
    List.pairwise_mergeSort (by simpa using fun _ _ _ => le_trans) (by simpa using le_total) _
  have hnodup : registry.names.Nodup := (List.mergeSort_perm _ _).nodup_iff.mpr h
  refine (hsorted.and hnodup).imp fun ⟨hle, hne⟩ => ?_
  exact Utf8.bytes_lt_iff.mpr (lt_of_le_of_ne (of_decide_eq_true hle) hne)

lemma distinct_builtin : builtin.Distinct := by
  rw [Distinct]
  decide

/-- A registry that was new or held the built-in directives is a finite map after any run of
changes: names are bound just if they are free and unbound just if they are bound, and a refusal
changes nothing; the observers agree on the names that are bound; each is bound to what was last
registered for it and not removed since; the names are listed in the strict order of their bytes;
and settings that disable names remove those at the front of their list that are bound when their
turn comes, and report the name that follows them. -/
theorem run_is_finite_map {start : Registry} (hstart : start = {} ∨ start = .builtin)
    (changes : List Change) :
    let registry := start.run changes
    (∀ name directive,
      ((∃ next, registry.register name directive = .ok next) ↔ registry.contains name = false) ∧
      (registry.contains name = true →
        registry.register name directive = .error (.alreadyRegistered name) ∧
        registry.after (.register name directive) = registry)) ∧
    (∀ name,
      ((∃ next, registry.unregister name = .ok next) ↔ registry.contains name = true) ∧
      (registry.contains name = false →
        registry.unregister name = .error (.notRegistered name) ∧
        registry.after (.unregister name) = registry)) ∧
    (∀ name,
      (registry.contains name = true ↔ ∃ directive, registry.get? name = some directive) ∧
      (registry.contains name = true ↔ name ∈ registry.names) ∧
      ∀ raw, registry.resolve ⟨name, raw⟩ = .error (.unknownDirective name) ↔
        registry.contains name = false) ∧
    (∀ name directive,
      registry.get? name = some directive ↔ start.Holds changes name directive) ∧
    registry.names.Pairwise (fun a b => Utf8.bytes a < Utf8.bytes b) ∧
    registry.size = registry.names.length ∧
    ∀ settings : Settings, ∃ taken, registry.Takes settings.disabled taken ∧
      (∀ name, (registry.after (.restrict settings.disabled)).get? name =
        if name ∈ taken then none else registry.get? name) ∧
      settings.restrict registry =
        match settings.disabled[taken.length]? with
        | none => .ok (registry.after (.restrict settings.disabled))
        | some name => .error (.unknownDirective name) := by
  intro registry
  have hdistinct : registry.Distinct := by
    apply distinct_run
    rcases hstart with rfl | rfl
    · exact List.nodup_nil
    · exact distinct_builtin
  refine ⟨fun name directive => ⟨exists_register_iff, fun hbound => ⟨?_, ?_⟩⟩,
    fun name => ⟨exists_unregister_iff, fun hfree => ⟨?_, ?_⟩⟩,
    fun name => ⟨contains_iff_exists, mem_names_iff.symm, fun raw => ?_⟩,
    fun name directive => get?_run_eq_some_iff, pairwise_names hdistinct, length_names.symm,
    fun settings => ?_⟩
  · rw [register, if_pos hbound]
  · exact after_register_of_contains hbound directive
  · rw [unregister, if_neg (by simp [hfree])]
  · exact after_unregister_of_free hfree
  · rw [contains_eq_false_iff, resolve_eq_error_iff, fault?]
    cases hget : registry.get? name with
    | none => simp
    | some directive => cases hread : directive.read raw <;> simp [hread]
  · obtain ⟨taken, htaken⟩ := exists_takes registry settings.disabled
    refine ⟨taken, htaken, get?_after_restrict htaken, ?_⟩
    rw [← (remove_of_takes htaken).1, Settings.restrict, after]
    obtain ⟨smaller, _ | name⟩ := registry.remove settings.disabled <;> rfl

/-- A built-in name is refused, freed and bound anew; a restriction then takes two names and stops
at the second turn of the first, before the name that was bound anew. -/
theorem run_is_finite_map_rebound_limit :
    let changes : List Change := [.register "limit" .force, .unregister "limit",
      .register "limit" .offset, .restrict ["with", "force", "with", "limit"]]
    let registry := Registry.builtin.run changes
    registry.get? "limit" = some .offset ∧ registry.size = registry.names.length ∧
      "with" ∉ registry.names ∧
      registry.resolve ⟨"force", "true"⟩ = .error (.unknownDirective "force") ∧
      registry.register "limit" .limit = .error (.alreadyRegistered "limit") ∧
      registry.unregister "with" = .error (.notRegistered "with") := by
  intro changes registry
  obtain ⟨hregister, hunregister, hobserved, hholds, -, hsize, -⟩ :=
    run_is_finite_map (.inr rfl) changes
  have hwith : registry.contains "with" = false := by decide
  have hforce : registry.contains "force" = false := by decide
  have hlimit : registry.contains "limit" = true := by decide
  refine ⟨?_, hsize, ?_, ((hobserved "force").2.2 "true").mpr hforce,
    ((hregister "limit" .limit).2 hlimit).1, ((hunregister "with").2 hwith).1⟩
  · apply (hholds "limit" .offset).mpr
    refine .inr ⟨[.register "limit" .force, .unregister "limit"],
      [.restrict ["with", "force", "with", "limit"]], rfl, by decide, ?_, trivial⟩
    -- the second `with` is not bound any more, so the restriction does not come to `limit`
    have hrepeats : ∀ taken ∈ ["with", "force", "with", "limit"].inits,
        "limit" ∈ taken → ¬taken.Nodup := by decide
    rintro ⟨taken, htaken, hmem⟩
    exact hrepeats taken ((List.mem_inits _ _).mpr htaken.front) hmem htaken.nodup
  · rw [← (hobserved "with").2.1, hwith]
    decide

end Registry

end ParamQuery
