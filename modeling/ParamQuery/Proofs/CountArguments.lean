import ParamQuery.Proofs.Arguments
import ParamQuery.Proofs.Tokenizers

/-!
# Counts of rows

A limit and an offset read the same counts: the numerals of the numbers up to the largest word.
What they refuse is told apart by the digits in front. If these alone pass the largest count, the
argument is refused as out of range although it need not be a numeral; otherwise it is refused as
no integer.
-/

namespace ParamQuery

open Numeral (value? leadingValue largestUInt32)

/-- The directives that take a count, each with the call that it makes of it. -/
inductive Directive.TakesCount : Directive → (UInt32 → Call) → Prop
  | limit : TakesCount .limit .limit
  | offset : TakesCount .offset .offset

lemma Directive.TakesCount.settles {directive : Directive} {call : UInt32 → Call}
    (h : directive.TakesCount call) (raw : String) :
    (directive.tokenizer raw).Settles (do
      let count ← Argument.count raw.toList
      return ⟨[toString count.toNat], .issuing [call count]⟩) := by
  cases h <;> exact Directive.settles_counting _ raw

namespace Handler

variable {handler next : Handler} {call : UInt32 → Call} {raw : String}

lemma tokenize_eq_read_iff (h : handler.directive.TakesCount call) :
    handler.tokenize raw = (next, none) ↔
      ∃ count, Argument.count raw.toList = .ok count ∧
        next = { handler with reading := ⟨[toString count.toNat], .issuing [call count]⟩ } := by
  rw [tokenize_of_settles handler (h.settles raw)]
  cases Argument.count raw.toList with
  | ok count => simp [bind, Except.bind, pure, Except.pure, settle, eq_comm]
  | error fault => simp [bind, Except.bind, settle]

lemma tokenize_eq_fault_iff (h : handler.directive.TakesCount call) {fault : ArgumentError} :
    handler.tokenize raw = (next, some fault) ↔
      next = handler ∧ Argument.count raw.toList = .error fault := by
  rw [tokenize_of_settles handler (h.settles raw)]
  cases Argument.count raw.toList with
  | ok count => simp [bind, Except.bind, pure, Except.pure, settle]
  | error found => simp [bind, Except.bind, settle, eq_comm]

/-- A count is taken just if the argument is the numeral of a number up to the largest count, and it
is passed on as it is. The handler stays as it was otherwise. The argument is out of range if it is
the numeral of a greater number or, being no numeral, begins with the digits of one. -/
theorem tokenize_count (h : handler.directive.TakesCount call) (raw : String) :
    let text := Text.trim raw.toList
    (∀ next, handler.tokenize raw = (next, none) ↔
      ∃ n, value? text = some n ∧ n ≤ largestUInt32 ∧
        next = { handler with reading := ⟨[toString n], .issuing [call (.ofNat n)]⟩ }) ∧
    (∀ next fault, handler.tokenize raw = (next, some fault) ↔ next = handler ∧
      (fault = .outOfRange (String.ofList text) largestUInt32 ∧
          ((∃ n, value? text = some n ∧ largestUInt32 < n) ∨
            value? text = none ∧ largestUInt32 < leadingValue text) ∨
        fault = .notAnInteger (String.ofList text) ∧
          value? text = none ∧ leadingValue text ≤ largestUInt32)) ∧
    ∀ next n, handler.tokenize raw = (next, none) → value? text = some n →
      ∀ {Query : Type} (entity : Entity Query) (query : Query),
        next.apply entity query = entity.issue query (call (.ofNat n)) := by
  intro text
  have haccepted : ∀ next, handler.tokenize raw = (next, none) ↔
      ∃ n, value? text = some n ∧ n ≤ largestUInt32 ∧
        next = { handler with reading := ⟨[toString n], .issuing [call (.ofNat n)]⟩ } := by
    intro next
    have hword : ∀ {n : Nat}, n ≤ largestUInt32 → (UInt32.ofNat n).toNat = n := fun hbound =>
      UInt32.toNat_ofNat_of_lt' (Nat.lt_succ_of_le hbound)
    rw [tokenize_eq_read_iff h]
    constructor
    · rintro ⟨count, hcount, rfl⟩
      obtain ⟨n, hvalue, hbound, rfl⟩ := Argument.count_eq_ok_iff.mp hcount
      exact ⟨n, hvalue, hbound, by rw [hword hbound]⟩
    · rintro ⟨n, hvalue, hbound, rfl⟩
      exact ⟨.ofNat n, Argument.count_eq_ok_iff.mpr ⟨n, hvalue, hbound, rfl⟩,
        by rw [hword hbound]⟩
  refine ⟨haccepted, fun next fault => ?_, fun next n hnext hvalue Query entity query => ?_⟩
  · rw [tokenize_eq_fault_iff h, Argument.count_eq_error_iff, ← Numeral.lt_leadingValue_iff]
    rfl
  · obtain ⟨m, hm, -, rfl⟩ := (haccepted next).mp hnext
    obtain rfl : m = n := Option.some.inj (hm.symm.trans hvalue)
    exact entity.follow_issuing_singleton query (call (.ofNat m))

/-- A count with a sign, zeros and blanks around it, a numeral past the largest count and digits
that do not pass it before another character. -/
theorem tokenize_count_told_apart :
    Directive.offset.handler.tokenize "\u3000+0042\n" =
        ({ Directive.offset.handler with reading := ⟨["42"], .issuing [.offset 42]⟩ }, none) ∧
      Directive.limit.handler.tokenize " 4294967296" =
        (Directive.limit.handler, some (.outOfRange "4294967296" 4294967295)) ∧
      Directive.limit.handler.tokenize "4294967295x" =
        (Directive.limit.handler, some (.notAnInteger "4294967295x")) := by
  have hoffset : Directive.offset.handler.directive.TakesCount .offset := .offset
  have hlimit : Directive.limit.handler.directive.TakesCount .limit := .limit
  refine ⟨((tokenize_count hoffset _).1 _).mpr ⟨42, by decide, by decide, rfl⟩,
    ((tokenize_count hlimit _).2.1 _ _).mpr ⟨rfl, .inl ⟨?_, .inl ⟨4294967296, ?_, ?_⟩⟩⟩,
    ((tokenize_count hlimit _).2.1 _ _).mpr ⟨rfl, .inr ⟨?_, ?_, ?_⟩⟩⟩
  all_goals decide

/-- Digits past the largest count before another character are refused as out of range, though the
argument is no numeral. -/
theorem tokenize_count_of_leading_digits :
    value? (Text.trim "42949672960x".toList) = none ∧
      Directive.limit.handler.tokenize "42949672960x" =
        (Directive.limit.handler, some (.outOfRange "42949672960x" 4294967295)) :=
  ⟨by decide, by rfl⟩

end Handler

end ParamQuery
