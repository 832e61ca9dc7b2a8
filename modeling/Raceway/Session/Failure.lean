import Raceway.Execution
import Raceway.Request.Rulebook
import Raceway.Storage.Error
/-!
# Failures

A request fails where one of the stages that it passes fails.

## Main definitions

* `Raceway.Failure`: the stage that fails, and why.
-/

namespace Raceway

/-- The stage that fails, and why. -/
inductive Failure where
  /-- There is no rulebook. -/
  | rules (e : RulebookError)
  /-- The kept plan cannot be read. -/
  | plan (e : PlanError)
  /-- The storage fails. -/
  | store (e : StoreError)
  /-- An operation cannot be carried out. -/
  | execution (e : ExecutionError)

namespace Failure

/-- The name of the stage. -/
def stage : Failure → String
  | rules _ => "rules"
  | plan _ => "load"
  | store _ => "store"
  | execution _ => "execute"

/-- The wording of a failure. -/
def message : Failure → String
  | rules e => s!"Rule repository error: {e.message}"
  | plan e => s!"Plan parse error: {e.message}"
  | store e => s!"Store error: {e.message}"
  | execution e => s!"Execution error: {e.message}"

end Failure

end Raceway
