import Opms.ACSchedule.Schedule
import Mathlib.Tactic.NormNum

/-! # The Almgren-Chriss schedule executor

`control_task` submits one market slice per interval; completions, failures and
cancels arrive as callbacks. The connector's own view of a tracked order
(`is_done`, `executed_amount_base`) is refreshed from outside at any time. Calls
of `place_order` are kept as a log, oldest first.
-/

namespace Opms.ACSchedule

universe u

/-! ## Configuration -/

structure ACScheduleExecutorConfig (K : Type u) where
  connectorName : String
  tradingPair : String
  side : TradeType
  totalAmountBase : K
  durationSeconds : K
  numIntervals : ℤ
  riskAversion : K
  volatility : K
  eta : K
  gamma : K
  minOrderSize : Option K
  volumeForecast : Bool
  positionAction : PositionAction

/-- The executor's configuration with its constructor's `max_retries`. -/
structure Settings (K : Type u) extends ACScheduleExecutorConfig K where
  maxRetries : ℕ := 10

def maxAcIntervals : ℤ := 200

/-- How `validate_ac_config` can raise. -/
inductive ConfigError (K : Type u)
  | positionAction (got : PositionAction)
  | numIntervals (got : ℤ)
  | durationSeconds (got : K)
  | interval (duration : K) (numIntervals : ℤ)
  deriving DecidableEq

def ConfigError.message {K : Type u} [ToString K] : ConfigError K → String
  | .positionAction got => s!"AC executes OPEN only (got {reprStr got}); route closes and " ++
      "de-risk to the reduce-only passive-aggressive executor"
  | .numIntervals got => s!"num_intervals must be within 1..{maxAcIntervals} (got {got})"
  | .durationSeconds got => s!"duration_seconds must be finite and positive (got {got})"
  | .interval duration n =>
      s!"duration_seconds {duration} over {n} intervals is under 1.0 s per slice"

/-- How the constructor can raise. -/
inductive InitError (K : Type u)
  | config (error : ConfigError K)
  | schedule (error : ScheduleError K)
  | zeroDivision
  deriving DecidableEq

section

variable {K : Type u} [Field K] [LinearOrder K]

/-- The defaults of the optional fields. -/
def ACScheduleExecutorConfig.withDefaults (connectorName tradingPair : String) (side : TradeType)
    (totalAmountBase : K) : ACScheduleExecutorConfig K where
  connectorName
  tradingPair
  side
  totalAmountBase
  durationSeconds := 3600
  numIntervals := 10
  riskAversion := 1 / 1000000
  volatility := 1 / 50
  eta := 1 / 100
  gamma := 0
  minOrderSize := none
  volumeForecast := false
  positionAction := .open

/-- `MIN_AC_INTERVAL_S`. -/
def minAcIntervalS : K := 1

/-- Reject, never clamp: OPEN only, and a schedule bounded before it is built. -/
def validateAcConfig (config : ACScheduleExecutorConfig K) : Except (ConfigError K) Unit :=
  if config.positionAction ≠ .open then
    .error (.positionAction config.positionAction)
  else if ¬ (1 ≤ config.numIntervals ∧ config.numIntervals ≤ maxAcIntervals) then
    .error (.numIntervals config.numIntervals)
  else if ¬ 0 < config.durationSeconds then
    .error (.durationSeconds config.durationSeconds)
  else if config.durationSeconds / config.numIntervals < minAcIntervalS then
    .error (.interval config.durationSeconds config.numIntervals)
  else
    .ok ()

theorem validateAcConfig_withDefaults [IsStrictOrderedRing K] (connectorName tradingPair : String)
    (side : TradeType) (totalAmountBase : K) :
    validateAcConfig (.withDefaults connectorName tradingPair side totalAmountBase) = .ok () := by
  norm_num [validateAcConfig, ACScheduleExecutorConfig.withDefaults, maxAcIntervals,
    minAcIntervalS]

def ACScheduleExecutorConfig.scheduleParameters (config : ACScheduleExecutorConfig K) :
    ScheduleParameters K where
  totalQuantity := config.totalAmountBase
  durationSeconds := config.durationSeconds
  numIntervals := config.numIntervals
  riskAversion := config.riskAversion
  volatility := config.volatility
  eta := config.eta
  gamma := config.gamma
  minOrderSize := config.minOrderSize

end

/-! ## State -/

/-- A submitted order as the connector shows it. -/
structure TrackedOrder (K : Type u) where
  orderId : OrderId
  isDone : Bool
  executedAmountBase : K
  deriving DecidableEq

/-- One `place_order` call. -/
structure PlacedOrder (K : Type u) where
  orderId : OrderId
  orderType : OrderType
  side : TradeType
  amount : K
  positionAction : PositionAction
  deriving DecidableEq

structure Executor (K : Type u) where
  schedule : List K
  intervalSeconds : K
  scheduleResolved : Bool
  sliceIdx : ℕ := 0
  submitted : List (TrackedOrder K) := []
  failed : List (TrackedOrder K) := []
  cumulativeFilled : K
  startTimestamp : Option K := none
  lastSliceTimestamp : Option K := none
  status : RunnableStatus := .running
  closeType : Option CloseType := none
  closeTimestamp : Option K := none
  currentRetries : ℕ := 0
  placed : List (PlacedOrder K) := []
  deriving DecidableEq

/-- What a tick reads from outside: the strategy's clock, the id `place_order`
would return, and the forecast volumes, or nothing when the forecast raised. -/
structure Call (K : Type u) where
  now : K
  orderId : OrderId
  volumes : Option (List K) := none

namespace Executor

variable {K : Type u} [Field K] [LinearOrder K]

/-- The executor right after construction, once running. -/
def init (math : MathFunctions K) (cfg : Settings K) : Except (InitError K) (Executor K) :=
  match validateAcConfig cfg.toACScheduleExecutorConfig with
  | .error error => .error (.config error)
  | .ok () =>
      match buildSchedule math cfg.scheduleParameters none with
      | .error error => .error (.schedule error)
      | .ok schedule =>
          if schedule = [] then
            .error .zeroDivision
          else
            .ok {
              schedule
              intervalSeconds := cfg.durationSeconds / schedule.length
              scheduleResolved := !cfg.volumeForecast
              cumulativeFilled := 0 }

/-! ## Volume-aware schedule -/

/-- Partial sums of the volumes after `cum`, as fractions of `total`. -/
def partialFractions (total : K) : K → List K → List K
  | _, [] => []
  | cum, volume :: rest =>
      let cum := cum + volume
      cum / total :: partialFractions total cum rest

/-- `fractions[-1] = 1.0` on the cumulative volume fractions. -/
def volumeFractions (volumes : List K) : List K :=
  (0 :: partialFractions volumes.sum 0 volumes).dropLast ++ [1]

/-- Replace the clock-time schedule with a volume-aware one, once. -/
def maybeResolveVolumeSchedule (math : MathFunctions K) (cfg : Settings K) (call : Call K)
    (s : Executor K) : Executor K :=
  if s.scheduleResolved then
    s
  else
    let s := { s with scheduleResolved := true }
    match call.volumes with
    | none => s
    | some volumes =>
        if volumes = [] ∨ volumes.sum ≤ 0 then
          s
        else
          match buildSchedule math cfg.scheduleParameters (some (volumeFractions volumes)) with
          | .error _ => s
          | .ok schedule =>
              if schedule = [] then
                -- the division by the new length raises after the assignment
                { s with schedule }
              else
                { s with
                  schedule
                  intervalSeconds := cfg.durationSeconds / schedule.length }

/-! ## Main logic -/

def closeExecutionBy (now : K) (s : Executor K) (closeType : CloseType) : Executor K :=
  { s with
    closeType := some closeType
    closeTimestamp := some now
    status := .terminated }

/-- Close type must describe what happened, not merely that the run ended. -/
def finalCloseType (cfg : Settings K) (s : Executor K) : CloseType :=
  if s.currentRetries > cfg.maxRetries then .failed
  else if s.cumulativeFilled ≥ cfg.totalAmountBase then .completed
  else .timeLimit

omit [Field K] [LinearOrder K] in
def allDone (s : Executor K) : Bool :=
  s.schedule.length ≤ s.sliceIdx && s.submitted.all TrackedOrder.isDone

/-- What the tracked orders that are not done have executed. -/
def inFlightExecuted (s : Executor K) : K :=
  ((s.submitted.filter fun t => !t.isDone).map TrackedOrder.executedAmountBase).sum

def placeSlice (cfg : Settings K) (call : Call K) (s : Executor K) (amount : K) : Executor K :=
  { s with
    placed := s.placed ++ [{
      orderId := call.orderId, orderType := .market, side := cfg.side, amount
      positionAction := cfg.positionAction }]
    submitted := s.submitted ++ [⟨call.orderId, false, 0⟩]
    lastSliceTimestamp := some call.now
    sliceIdx := s.sliceIdx + 1 }

def submitNextSlice (cfg : Settings K) (call : Call K) (s : Executor K) : Executor K :=
  match s.schedule[s.sliceIdx]? with
  | none => s
  | some slice =>
      if s.sliceIdx + 1 = s.schedule.length then
        -- the final slice trades the exact remainder
        let amount := cfg.totalAmountBase - s.cumulativeFilled - s.inFlightExecuted
        if amount ≤ 0 then
          { s with sliceIdx := s.sliceIdx + 1 }
        else
          s.placeSlice cfg call amount
      else
        s.placeSlice cfg call slice

/-- The current interval has not elapsed yet. -/
def paced (call : Call K) (s : Executor K) : Bool :=
  s.lastSliceTimestamp.any (call.now - · < s.intervalSeconds)

def tick (math : MathFunctions K) (cfg : Settings K) (call : Call K) (s : Executor K) :
    Executor K :=
  let s := s.maybeResolveVolumeSchedule math cfg call
  let s := { s with startTimestamp := some (s.startTimestamp.getD call.now) }
  if s.schedule.length ≤ s.sliceIdx then
    if s.allDone then s.closeExecutionBy call.now (s.finalCloseType cfg) else s
  else if s.paced call then
    s
  else
    s.submitNextSlice cfg call

def controlTask (math : MathFunctions K) (cfg : Settings K) (call : Call K) (s : Executor K) :
    Executor K :=
  match s.status with
  | .running => s.tick math cfg call
  | .shuttingDown => s.closeExecutionBy call.now (s.closeType.getD (s.finalCloseType cfg))
  | _ => s

/-! ## Event callbacks -/

def findTracked (s : Executor K) (orderId : OrderId) : Option (TrackedOrder K) :=
  s.submitted.find? fun t => t.orderId = orderId

def processOrderCompletedEvent (s : Executor K) (orderId : OrderId) (baseAssetAmount : K) :
    Executor K :=
  match s.findTracked orderId with
  | none => s
  | some _ =>
      let s := { s with cumulativeFilled := s.cumulativeFilled + baseAssetAmount }
      if s.allDone then { s with status := .shuttingDown } else s

/-- Rewind the slice index so the slice is retried on the next tick. -/
def processOrderFailedEvent (s : Executor K) (orderId : OrderId) : Executor K :=
  match s.findTracked orderId with
  | none => s
  | some tracked =>
      { s with
        failed := s.failed ++ [tracked]
        submitted := s.submitted.eraseP fun t => t.orderId = orderId
        sliceIdx := s.sliceIdx - 1
        currentRetries := s.currentRetries + 1 }

/-- Market orders are not cancelled in normal operation: only a warning. -/
def processOrderCanceledEvent (s : Executor K) (_orderId : OrderId) : Executor K := s

def earlyStop (s : Executor K) (keepPosition : Bool) : Executor K :=
  { s with
    closeType := some (if keepPosition then .positionHold else .earlyStop)
    status := .shuttingDown }

def evaluateMaxRetries (cfg : Settings K) (now : K) (s : Executor K) : Executor K :=
  if s.currentRetries > cfg.maxRetries then s.closeExecutionBy now .failed else s

/-- The connector refreshes what it shows of a tracked order. -/
def observe (s : Executor K) (orderId : OrderId) (isDone : Bool) (executed : K) : Executor K :=
  { s with
    submitted := s.submitted.map fun t =>
      if t.orderId = orderId then { t with isDone, executedAmountBase := executed } else t }

theorem init_fresh {math : MathFunctions K} {cfg : Settings K} {s : Executor K}
    (hinit : init math cfg = .ok s) :
    s.submitted = [] ∧ s.cumulativeFilled = 0 ∧ s.status = .running ∧ s.closeType = none := by
  unfold init at hinit
  split at hinit
  next => cases hinit
  next =>
    split at hinit
    next => cases hinit
    next =>
      split at hinit
      next => cases hinit
      next =>
        cases hinit
        exact ⟨rfl, rfl, rfl, rfl⟩

end Executor

end Opms.ACSchedule
