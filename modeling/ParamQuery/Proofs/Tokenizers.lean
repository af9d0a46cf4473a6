import ParamQuery.Directive.Basic
import ParamQuery.Proofs.Traversal

/-!
# Tokenizers that read all or nothing

A tokenizer that makes all its checks before it writes, and then writes both the tokens and the
calls, settles an argument: it refuses it without a trace, or leaves a reading that owes nothing to
the one before. What such a tokenizer makes of an argument is what it makes of it in a fresh
handler.
-/

namespace ParamQuery

open MonadExcept (ofExcept)

namespace Tokenizer

/-- Whatever was read before, an argument is refused and the reading stays, or accepted and the
reading is replaced. -/
def Settles (tokenizer : Tokenizer Unit) (outcome : Except ArgumentError Reading) : Prop :=
  ∀ before, tokenizer.run before =
    match outcome with
    | .ok reading => .ok () reading
    | .error fault => .error fault before

lemma settles_keep (tokens : List String) (calls : List Call) :
    (do keepTokens tokens; keepCalls calls : Tokenizer Unit).Settles
      (.ok ⟨tokens, .issuing calls⟩) :=
  fun _ => rfl

lemma settles_keep_calls_first (tokens : List String) (calls : List Call) :
    (do keepCalls calls; keepTokens tokens : Tokenizer Unit).Settles
      (.ok ⟨tokens, .issuing calls⟩) :=
  fun _ => rfl

/-- A check in front writes nothing. -/
lemma settles_check {α : Type} {check : Except ArgumentError α} {next : α → Tokenizer Unit}
    {outcome : α → Except ArgumentError Reading}
    (h : ∀ found, (next found).Settles (outcome found)) :
    (ofExcept check >>= next).Settles (check >>= outcome) := by
  intro before
  cases check with
  | error fault => rfl
  | ok found => exact h found before

end Tokenizer

namespace Handler

/-- The handler with the reading of an accepted argument, or as it was with the fault. -/
def settle (handler : Handler) : Except ArgumentError Reading → Handler × Option ArgumentError
  | .ok reading => ({ handler with reading }, none)
  | .error fault => (handler, some fault)

lemma tokenize_of_settles (handler : Handler) {raw : String}
    {outcome : Except ArgumentError Reading}
    (h : (handler.directive.tokenizer raw).Settles outcome) :
    handler.tokenize raw = handler.settle outcome := by
  rw [tokenize, h handler.reading]
  cases outcome <;> rfl

end Handler

namespace Directive

variable {directive : Directive} {raw : String} {outcome : Except ArgumentError Reading}

lemma read_of_settles (h : (directive.tokenizer raw).Settles outcome) :
    directive.read raw = outcome := by
  rw [read, directive.handler.tokenize_of_settles h]
  cases outcome <;> rfl

lemma settles_counting (call : UInt32 → Call) (raw : String) :
    ((counting call).tokenizer raw).Settles (do
      let count ← Argument.count raw.toList
      return ⟨[toString count.toNat], .issuing [call count]⟩) :=
  Tokenizer.settles_check fun _ => Tokenizer.settles_keep_calls_first _ _

/-- A fresh handler accepts the arguments that its directive reads, and keeps the reading. -/
lemma tokenize_eq_iff {handler : Handler} :
    directive.handler.tokenize raw = (handler, none) ↔
      ∃ reading, directive.read raw = .ok reading ∧ handler = ⟨directive, reading⟩ := by
  have hself : directive.handler.directive = directive := rfl
  rw [read, Handler.tokenize, hself]
  cases (directive.tokenizer raw).run directive.handler.reading with
  | ok _ reading => simp [eq_comm]
  | error fault reading => simp

end Directive

end ParamQuery
