import ParamQuery.Call

/-!
# Fragments

A fragment is what a handler contributes to a query. It makes calls one after the other, and what
it does next may depend on the answer. In the end it is done or returns a refusal, which need not be
one that it met. A heedful fragment returns the first refusal that it meets, at once, and no other.
-/

namespace ParamQuery

inductive Fragment where
  | done
  | refuse (refusal : QueryError)
  /-- A call, and what follows when it was refused or taken. -/
  | call (call : Call) (next : Option QueryError → Fragment)

namespace Fragment

/-- Makes the calls up to and including the first refused one, and returns its refusal. -/
def issuing : List Call → Fragment
  | [] => .done
  | first :: rest => .call first fun
    | none => issuing rest
    | some refusal => .refuse refusal

/-- The calls that are made as long as all of them are taken. -/
def calls : Fragment → List Call
  | .call first next => first :: (next none).calls
  | _ => []

/-- Whether the first refusal is returned at once, and nothing is refused without one. -/
def Heedful : Fragment → Prop
  | .done => True
  | .refuse _ => False
  | .call _ next => (∀ refusal, next (some refusal) = .refuse refusal) ∧ (next none).Heedful

@[simp]
theorem calls_issuing (calls : List Call) : (issuing calls).calls = calls := by
  induction calls with
  | nil => rfl
  | cons first rest ih => rw [issuing, Fragment.calls, ih]

theorem heedful_issuing (calls : List Call) : (issuing calls).Heedful := by
  induction calls with
  | nil => trivial
  | cons first rest ih => exact ⟨fun _ => rfl, ih⟩

/-- A heedful fragment is told by its calls. -/
theorem issuing_calls {fragment : Fragment} (h : fragment.Heedful) :
    issuing fragment.calls = fragment := by
  induction fragment with
  | done => rfl
  | refuse refusal => exact h.elim
  | call first next ih =>
    obtain ⟨hrefused, htaken⟩ := h
    rw [Fragment.calls, issuing, ih none htaken]
    congr 1
    funext answer
    cases answer with
    | none => rfl
    | some refusal => exact (hrefused refusal).symm

end Fragment

end ParamQuery
