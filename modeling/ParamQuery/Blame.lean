/-!
# Blame

Every failure is either the client's, who can mend the request, or internal to the host.
-/

namespace ParamQuery

inductive Blame where
  | clientInput | internal
  deriving DecidableEq, Repr

def Blame.status : Blame → Nat
  | .clientInput => 400
  | .internal => 500

end ParamQuery
