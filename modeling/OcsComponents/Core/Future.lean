import OcsComponents.Status.Code

/-!
# Futures

`ocs_core/future.{h,cpp}`: the status of an asynchronous execution, `Last` until it is
notified. Its mutex makes each operation one step; the condition variable shows only in
`wait`, which blocks while there is no status and may run out of time.
-/

namespace OcsComponents.Core
open Status

structure Future where
  code : StatusCode
  deriving DecidableEq, Repr

namespace Future

def new : Future := ⟨.last⟩

/-- `Future::notify`. -/
def notify (_ : Future) (code : StatusCode) : Future := ⟨code⟩

/-- One look of `Future::wait` at the status: nothing yet, or `OK`. -/
def poll (f : Future) : Option StatusCode := if f.code = .last then none else some .ok

end Future

end OcsComponents.Core
