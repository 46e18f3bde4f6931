/-!
# Status codes

`ocs_status/code.h`: every operation of the components returns one of these,
and `OCS_STATUS_RETURN_ON_ERROR` leaves the calling function with the first
one that is not `OK`.
-/

namespace OcsComponents.Status

/-- `StatusCode`, in the source's order. -/
inductive StatusCode where
  | ok
  | error
  | noData
  | noMem
  | isrYield
  | invalidArg
  | invalidState
  | timeout
  | last
  deriving DecidableEq, Repr

/-- `OCS_STATUS_RETURN_ON_ERROR(x)`: go on with the state `x` left behind, or
return its code. The state changes made before the failure stay. -/
def returnOnError {σ : Type} (x : StatusCode × σ) (k : σ → StatusCode × σ) : StatusCode × σ :=
  if x.1 = .ok then k x.2 else x

@[simp] theorem returnOnError_ok {σ : Type} (s : σ) (k : σ → StatusCode × σ) :
    returnOnError (.ok, s) k = k s := rfl

theorem returnOnError_fail {σ : Type} {c : StatusCode} (s : σ) (k : σ → StatusCode × σ) (h : c ≠ .ok) :
    returnOnError (c, s) k = (c, s) := by
  simp [returnOnError, h]

/-- `code_to_str`. -/
def codeToStr : StatusCode → String
  | .ok => "OK"
  | .error => "Error"
  | .noData => "NoData"
  | .noMem => "NoMem"
  | .isrYield => "IsrYield"
  | .invalidArg => "InvalidArg"
  | .invalidState => "InvalidState"
  | .timeout => "Timeout"
  | .last => "<none>"

end OcsComponents.Status
