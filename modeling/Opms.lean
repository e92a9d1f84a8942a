import Opms.Foundation.Reservation
import Opms.Foundation.Merge
import Opms.PassiveAggressive.State
import Opms.PassiveAggressive.Step
import Opms.PassiveAggressive.Accounting
import Opms.PassiveAggressive.Exposure
import Opms.PassiveAggressive.Ledger
import Opms.PassiveAggressive.Fallback
import Opms.PerpMM.Bridge
import Opms.PerpMM.StopLatch
import Opms.PerpMM.CloseSizing
import Opms.Resilience
import Opms.PerpMM.Controller
import Opms.PerpMM.Branches
import Opms.PerpMM.Exclusion
import Opms.PerpMM.Gating
import Opms.PerpMM.CancelTimeout
import Opms.PerpMM.DeRisk
import Opms.ACSchedule.Schedule
import Opms.ACSchedule.Executor
import Opms.ACSchedule.OverExecution
import Opms.PassiveAggressive.Lifecycle
import Opms.PassiveAggressive.Settlement
import Opms.PassiveAggressive.Placement
import Opms.PassiveAggressive.Outcome
import Opms.PerpMM.RunningClose
import Opms.Foundation.LastWrite
import Opms.PortfolioStop.Book
import Opms.PortfolioStop.Verdict
import Opms.Analytics.FillObserver
import Opms.PerpMM.DecisionPosition
import Opms.PortfolioStop.Emergency
import Opms.Hedge.Controller
import Opms.Hedge.Gap
import Opms.PerpMM.Margin
import Opms.PerpMM.MarginReadings
import Opms.Foundation.Streak
import Opms.Resilience.Watchdog
import Opms.Resilience.Circuit
import Opms.ACSchedule.Partition
import Opms.ACSchedule.Forecast
import Opms.ACSchedule.InForce
import Opms.PerpMM.QuotableSides
import Opms.PassiveAggressive.Ownership
import Opms.PassiveAggressive.Terminal
import Opms.PassiveAggressive.Resubmission
import Opms.PassiveAggressive.Oversize
import Opms.PerpMM.StuckCancel
import Opms.PerpMM.ChildPlan
import Opms.PerpMM.MakerQuote
import Opms.PassiveAggressive.Waiting
import Opms.PassiveAggressive.Sequence
import Opms.Analytics.DelayedFill
import Opms.MarkToMarket
import Opms.Analytics.Fees
import Opms.ACSchedule.Tally
import Opms.ACSchedule.DayVolume
import Opms.Gateway.ExecBridge
import Opms.Gateway.PositionBook
import Opms.Gateway.Tolerance
import Opms.PerpMM.ControlTask
import Opms.PerpMM.FailSafe
import Opms.PerpMM.Requote
import Opms.PerpMM.BasketStop
import Opms.PerpMM.Episodes
import Opms.Foundation.Episodes
import Opms.Foundation.Log
import Opms.Gateway.Provenance
import Opms.Foundation.Halting
import Opms.Soak.Monitor
import Opms.Soak.FirstBreach
import Opms.ACSchedule.Pace
import Opms.ACSchedule.FrontLoaded
import Opms.Soak.Watched
import Opms.Soak.Outage
import Opms.Deploy.Calibration
import Opms.Deploy.PreparedRun
import Opms.Deploy.Launch
import Opms.Deploy.SoakConfig
import Opms.Foundation.Checks
import Opms.PerpMM.Inventory
import Opms.Soak.AccountCheck
import Opms.Soak.Cleanup
import Opms.Soak.Scope
import Opms.Soak.LeftFlat
import Opms.Soak.Session
