import Lifecycle.Number.Binary64

/-! # Events

An event is one step in the life of a deployment. Its index is its place in the deployment; when it
was seen says nothing about that place. -/

namespace Lifecycle

/-- One lifecycle event. -/
structure Event where
  /-- The event's place in its deployment. -/
  index : Int
  /-- What happened, with the host it happened on. -/
  description : String := ""
  /-- Seconds since the epoch at which the index was assigned. -/
  timestamp : Binary64 := .zero false
  deriving DecidableEq, Repr, Inhabited

end Lifecycle
