import Opms.PerpMM.Executors
import Opms.Resilience
import Mathlib.Data.Rat.Floor

/-! # The market-making controller

Each control cycle reads the keeper's last intent, the market and the active
executors, and answers with executors to stop and to create. One clock reading
serves a whole cycle. The economic refresh rule belongs to the quoting library
and is a parameter.
-/

namespace Opms.PerpMM

open PassiveAggressive (PassiveAggressiveExecutorConfig)

structure PerpMMControllerConfig where
  id : String
  connectorName : String
  tradingPair : String
  leverage : ℤ := 1
  makerFeeBps : ℚ := 3 / 2
  minEdgeBps : ℚ := 0
  quoteRepriceBps : ℚ := 2
  maxMarketDataAgeS : Option ℚ := some 15
  shadowMode : Bool := false
  quoteStopTimeLimit : ℚ := 15
  quoteLivenessTimeout : ℚ := 15
  quoteRecoveryCooldown : ℚ := 30
  quoteRefreshInterval : ℚ := 20
  quotePostOnlyBufferBps : ℚ := 8
  deriving DecidableEq

/-- The venue's limits for the pair; an absent one is 0. -/
structure TradingRule where
  minOrderSize : ℚ := 0
  minNotionalSize : ℚ := 0
  minBaseAmountIncrement : ℚ := 0
  deriving DecidableEq

/-- What one control cycle reads from outside. A market-data age of `none` is
infinite; a price of `none` is not finite. -/
structure Cycle where
  now : ℚ
  lastIntent : Option ExecIntent
  active : List ExecutorInfo
  quoteSuspended : Bool := false
  marketDataAgeS : Option ℚ := some 0
  mid : Option ℚ := none
  bestBid : Option ℚ := none
  bestAsk : Option ℚ := none
  rules : TradingRule := {}
  currentBasePosition : ℚ := 0

/-- The arguments of the quoting library's refresh rule. -/
structure RefreshQuery where
  side : TradeType
  price : ℚ
  desiredPrice : ℚ
  mid : Option ℚ
  ageS : ℚ
  maxAgeS : ℚ
  repriceBps : ℚ
  minEdgeBps : ℚ

structure PerpMMController where
  quoteLiveness : QuoteLivenessWatchdog
  quoteRefreshPending : Bool := false
  quoteCancelStartedAt : Option ℚ := none
  lastQuoteRefreshReason : Option String := none
  lastCancelLatencyS : Option ℚ := none
  deriving DecidableEq

/-- The controller right after construction. -/
def PerpMMController.init (cfg : PerpMMControllerConfig) : PerpMMController where
  quoteLiveness :=
    { timeoutS := cfg.quoteLivenessTimeout, recoveryCooldownS := cfg.quoteRecoveryCooldown }

namespace Cycle

def quoteActive (cycle : Cycle) : List ExecutorInfo := cycle.active.filter (·.isQuoteExecutor)

def executionActive (cycle : Cycle) : List ExecutorInfo :=
  cycle.active.filter (!·.isQuoteExecutor)

def quoting (cycle : Cycle) : Bool := intentIsQuoting cycle.lastIntent

/-- `_market_data_age_s() > max_market_data_age_s`, when that is configured. -/
def stale (cfg : PerpMMControllerConfig) (cycle : Cycle) : Bool :=
  cfg.maxMarketDataAgeS.any fun limit => cycle.marketDataAgeS.all (limit < ·)

end Cycle

section Requests

variable (cfg : PerpMMControllerConfig) (cycle : Cycle)

/-! ## Closes -/

/-- Smallest child the venue accepts, with headroom, on the size step. -/
def minChildQuantity : ℚ :=
  match cycle.mid.filter (· ≠ 0) with
  | none => 0
  | some mid =>
      if cycle.rules.minNotionalSize = 0 ∨ cycle.rules.minBaseAmountIncrement = 0 then
        0
      else
        let raw := cycle.rules.minNotionalSize * (11 / 10) / mid
        ⌈raw / cycle.rules.minBaseAmountIncrement⌉ * cycle.rules.minBaseAmountIncrement

/-- A passive-aggressive close of the request with the given child clock. -/
def deRiskConfig (req : ExecutionRequest) (child timeLimit refreshTime : ℚ) :
    PassiveAggressiveExecutorConfig where
  timestamp := cycle.now
  connectorName := cfg.connectorName
  tradingPair := cfg.tradingPair
  side := req.side
  totalAmountBase := req.amount
  childOrderQuantity := child
  childOrderTimeLimit := timeLimit
  childOrderRefreshTime := refreshTime
  leverage := cfg.leverage
  positionAction := if req.reduceOnly then .close else .open

def executionConfig (req : ExecutionRequest) : ExecutorConfig :=
  match req.urgency with
  | .passive | .normal =>
      let child := min req.amount (max (req.amount / 5) (minChildQuantity cycle))
      .passiveAggressive (deRiskConfig cfg cycle req child 60 20)
  | .immediate =>
      .passiveAggressive
        (deRiskConfig cfg cycle req req.amount cfg.quoteStopTimeLimit cfg.quoteStopTimeLimit)
  | _ =>
      if req.amount < cycle.rules.minOrderSize then
        .order {
          timestamp := cycle.now
          tradingPair := cfg.tradingPair
          connectorName := cfg.connectorName
          side := req.side
          amount := req.amount
          price := none
          executionStrategy := .market
          positionAction := if req.reduceOnly then .close else .open
          leverage := cfg.leverage }
      else
        .passiveAggressive (deRiskConfig cfg cycle req req.amount 5 5)

def executionActions (req : ExecutionRequest) : List ExecutorAction :=
  [.create cfg.id (executionConfig cfg cycle req)]

/-- The flatten that answers a liveness failure. -/
def quoteFailsafeRequest (intent : Option ExecIntent) : Option ExecutionRequest :=
  match intent with
  | none => none
  | some intent =>
      if |intent.current| < flatTolerance then
        none
      else
        some {
          side := if intent.current > 0 then .sell else .buy
          amount := |intent.current|
          urgency := .immediate
          reduceOnly := true }

/-! ## Quotes -/

def executableQuoteSpecs (specs : List OrderSpec) : List OrderSpec :=
  specs.filter fun spec => spec.side.isSome ∧ spec.price.any fun price =>
    spec.amount ≥ cycle.rules.minOrderSize ∧ spec.amount * price ≥ cycle.rules.minNotionalSize

/-- The intent's price, kept a buffer away from the touch. -/
def bufferedMakerPrice (spec : OrderSpec) : Option ℚ :=
  let edge := cfg.quotePostOnlyBufferBps / 10000
  if spec.side = some .buy then
    (cycle.bestBid.filter (0 < ·)).bind fun touch =>
      spec.price.map fun price => min price (touch * (1 - edge))
  else
    (cycle.bestAsk.filter (0 < ·)).bind fun touch =>
      spec.price.map fun price => max price (touch * (1 + edge))

/-- The amount rounded down to the size step, when there is one. -/
def quantized (amount : ℚ) : ℚ :=
  let step := cycle.rules.minBaseAmountIncrement
  if step > 0 then ⌊amount / step⌋ * step else amount

/-- The maker quote of one leg, unless the venue would reject it. -/
def quoteConfig (spec : OrderSpec) : Option BufferedMakerExecutorConfig :=
  spec.side.bind fun side =>
    if spec.amount ≤ 0 then
      none
    else
      (bufferedMakerPrice cfg cycle spec).bind fun price =>
        let amount := quantized cycle spec.amount
        if amount < cycle.rules.minOrderSize ∨ amount * price < cycle.rules.minNotionalSize then
          none
        else
          some {
            timestamp := cycle.now
            tradingPair := cfg.tradingPair
            connectorName := cfg.connectorName
            side
            amount
            price := some price
            executionStrategy := .limitMaker
            positionAction := if spec.reduceOnly then .close else .open
            leverage := cfg.leverage
            makerBufferBps := cfg.quotePostOnlyBufferBps }

def quoteCreateActions (specs : List OrderSpec) : List ExecutorAction :=
  (specs.filterMap (quoteConfig cfg cycle)).map fun config =>
    .create cfg.id (.bufferedMaker config)

variable (quoteRefreshReason : RefreshQuery → Option String)

/-- Why one active quote should be refreshed, if it should. -/
def executorRefreshReason (specs : List OrderSpec) (executor : ExecutorInfo) : Option String :=
  match executor.config.orderConfig? with
  | none => none
  | some config =>
      match (specs.filter (·.side = some config.side)).getLast? with
      | none => some "side_removed"
      | some spec =>
          let remaining := config.amount - executor.customInfo.executedAmountBase
          if remaining > spec.amount + flatTolerance then
            some "size_risk"
          else
            match (executor.customInfo.orderPrice.filter (· ≠ 0)).or config.price,
                bufferedMakerPrice cfg cycle spec with
            | some price, some wanted =>
                (quoteRefreshReason {
                  side := config.side
                  price
                  desiredPrice := wanted
                  mid := cycle.mid
                  ageS := cycle.now - config.timestamp
                  maxAgeS := cfg.quoteRefreshInterval
                  repriceBps := cfg.quoteRepriceBps
                  minEdgeBps := cfg.makerFeeBps + cfg.minEdgeBps }).filter (· ≠ "")
            | _, _ => some "invalid_price"

def economicRefreshReason (specs : List OrderSpec) : Option String :=
  cycle.quoteActive.findSome? (executorRefreshReason cfg cycle quoteRefreshReason specs)

end Requests

/-! ## Decisions -/

/-- The answer of one cycle: the controller afterwards, the batch, the position
a portfolio emergency was published with, and whether a cancel timed out. -/
structure Decision where
  controller : PerpMMController
  actions : List ExecutorAction := []
  published : Option ℚ := none
  timedOut : Bool := false

/-- A decision before the stops are listed: every active executor that is not
kept gets one. -/
structure Plan where
  controller : PerpMMController
  keep : List ExecutorId := []
  newActions : List ExecutorAction := []
  published : Option ℚ := none
  timedOut : Bool := false

def stopActions (cfg : PerpMMControllerConfig) (executors : List ExecutorInfo) :
    List ExecutorAction := executors.map fun e => .stop cfg.id e.id

def Plan.decide (cfg : PerpMMControllerConfig) (cycle : Cycle) (plan : Plan) : Decision where
  controller := plan.controller
  actions := stopActions cfg (cycle.active.filter fun e => e.id ∉ plan.keep) ++ plan.newActions
  published := plan.published
  timedOut := plan.timedOut

namespace PerpMMController

section Decide

variable (cfg : PerpMMControllerConfig) (c : PerpMMController) (cycle : Cycle)

/-- Pause the liveness timing. -/
def suspendLiveness : PerpMMController := { c with quoteLiveness := c.quoteLiveness.suspend }

/-- The start of a quote cancellation that has taken too long. -/
def overdueSince : Option ℚ :=
  c.quoteCancelStartedAt.filter fun started => cfg.quoteLivenessTimeout ≤ cycle.now - started

/-- Trip the circuit when the cancellation is overdue; whether it was. -/
def cancelTimedOut (expected live : Finset TradeType) : PerpMMController × Bool :=
  match c.overdueSince cfg cycle with
  | none => (c, false)
  | some started =>
      ({ c with
          lastCancelLatencyS := some (cycle.now - started)
          lastQuoteRefreshReason := some "cancel_timeout"
          quoteRefreshPending := false
          quoteCancelStartedAt := none
          quoteLiveness := c.quoteLiveness.trip cycle.now expected live }, true)

/-- Equity is unresolved: stop quote executors and leave a close alone. -/
def suspendedDecision : Decision where
  controller := { c.suspendLiveness with quoteRefreshPending := false }
  actions := stopActions cfg cycle.quoteActive

/-- The stale-data branch notes a cancellation that it starts. -/
def startStaleCancel : PerpMMController :=
  if cycle.quoteActive ≠ [] ∧ c.quoteRefreshPending = false ∧
      c.quoteLiveness.allowQuotes cycle.now = true then
    { c with quoteRefreshPending := true, quoteCancelStartedAt := some cycle.now }
  else
    c

/-- The controller once it has noted a stale book. -/
def noteStale : PerpMMController :=
  ({ c.suspendLiveness with
    lastQuoteRefreshReason := some "stale_market_data" }).startStaleCancel cycle

/-- The book is stale: stop quote executors under a deadline. -/
def staleDecision : Decision :=
  let c := c.noteStale cycle
  let sides := (cycle.quoteActive.map fun e => e.config.side).toFinset
  let (c, timedOut) := if c.quoteRefreshPending = true then
      c.cancelTimedOut cfg cycle sides (liveQuoteSides cycle.quoteActive)
    else (c, false)
  -- a close keeps running on a stale public book
  { controller := c
    actions := stopActions cfg cycle.quoteActive
    published := if timedOut then some cycle.currentBasePosition else none
    timedOut }

/-- The legs of the last intent that the venue would accept. -/
def specs : List OrderSpec :=
  executableQuoteSpecs cycle (intentToOrderSpecs cycle.lastIntent)

def expectedSides : Finset TradeType := ((specs cycle).filterMap (·.side)).toFinset

/-- A close is still running: it stays authoritative over quoting. -/
def executionPlan : Plan where
  controller := { c.suspendLiveness with quoteRefreshPending := false }
  keep := cycle.executionActive.map (·.id)

/-- Old quotes are shutting down: replacements wait until none is active. -/
def refreshPendingPlan : Plan :=
  let c := c.suspendLiveness
  if cycle.active ≠ [] then
    let (c, timedOut) := c.cancelTimedOut cfg cycle (expectedSides cycle)
      (liveQuoteSides cycle.active)
    { controller := c
      published := if timedOut then some cycle.currentBasePosition else none
      timedOut }
  else
    { controller := { c with
        quoteRefreshPending := false
        lastCancelLatencyS := (c.quoteCancelStartedAt.map (cycle.now - ·)).or c.lastCancelLatencyS
        quoteCancelStartedAt := none }
      newActions := quoteCreateActions cfg cycle (specs cycle) }

/-- The circuit is open: flatten once nothing is active. -/
def failsafePlan : Plan where
  controller := c
  newActions := match quoteFailsafeRequest cycle.lastIntent with
    -- cancel confirmation precedes the close
    | some req => if cycle.active = [] then executionActions cfg cycle req else []
    | none => []
  published := some cycle.currentBasePosition

variable (quoteRefreshReason : RefreshQuery → Option String)

/-- The active quotes are exactly the expected ones, and none needs a refresh. -/
def keepsQuotes : Bool :=
  let expected := expectedSides cycle
  let exactExecutorSet :=
    (cycle.quoteActive.map fun e => e.config.side).toFinset = expected ∧
      cycle.quoteActive.length = expected.card
  let waitingForOrderIds := ¬ expected ⊆ liveQuoteSides cycle.active
  let stillFresh := ∀ e ∈ cycle.quoteActive,
    cycle.now - e.config.timestamp < cfg.quoteRefreshInterval
  exactExecutorSet ∧ economicRefreshReason cfg cycle quoteRefreshReason (specs cycle) = none ∧
    (waitingForOrderIds ∨ stillFresh)

/-- Quotes are active: keep them, or stop them to be replaced later. -/
def quotedPlan : Plan :=
  if keepsQuotes cfg cycle quoteRefreshReason then
    { controller := c, keep := cycle.active.map (·.id) }
  else
    { controller := { c.suspendLiveness with
        lastQuoteRefreshReason :=
          some ((economicRefreshReason cfg cycle quoteRefreshReason (specs cycle)).getD
            "sides_or_max_age")
        quoteRefreshPending := true
        quoteCancelStartedAt := some cycle.now } }

/-- What the watchdog makes of the expected and the live sides. -/
def observation : Bool × QuoteLivenessWatchdog :=
  c.quoteLiveness.observe cycle.now (expectedSides cycle) (liveQuoteSides cycle.active)

/-- The controller after that observation. -/
def observed : PerpMMController := { c with quoteLiveness := (c.observation cycle).2 }

/-- Quoting with no close running and no refresh pending. -/
def livePlan : Plan :=
  if !c.quoteLiveness.allowQuotes cycle.now then
    c.failsafePlan cfg cycle
  else if (c.observation cycle).1 then
    (c.observed cycle).failsafePlan cfg cycle
  else if cycle.active ≠ [] then
    (c.observed cycle).quotedPlan cfg cycle quoteRefreshReason
  else
    { controller := c.observed cycle
      newActions := quoteCreateActions cfg cycle (specs cycle) }

def quotingPlan : Plan :=
  if cycle.executionActive ≠ [] then c.executionPlan cycle
  else if c.quoteRefreshPending then c.refreshPendingPlan cfg cycle
  else c.livePlan cfg cycle quoteRefreshReason

/-- The close that a non-quoting intent asks for, once no quote is active. -/
def wantedActions : List ExecutorAction :=
  match intentToExecutionRequest cycle.lastIntent with
  | some req => if cycle.quoteActive = [] then executionActions cfg cycle req else []
  | none => []

/-- Executors that work the same request as the wanted ones. -/
def sameWork (wanted : ExecutorConfig) : List ExecutorId :=
  (cycle.active.filter fun e => e.config.executionSignature = wanted.executionSignature).map (·.id)

/-- The intent does not quote: work its close. -/
def closingPlan : Plan :=
  let c := { c.suspendLiveness with quoteRefreshPending := false }
  match (wantedActions cfg cycle).head?.bind ExecutorAction.created? with
  | some wanted =>
      -- an executor already working the request keeps its child clock
      let keep := sameWork cycle wanted
      { controller := c, keep, newActions := if keep ≠ [] then [] else wantedActions cfg cycle }
  | none =>
      { controller := c
        keep := if cycle.quoteActive ≠ [] then cycle.executionActive.map (·.id) else [] }

def determineExecutorActions : Decision :=
  if cfg.shadowMode then
    { controller := c }
  else if cycle.quoteSuspended ∧ cycle.quoting ∧ c.quoteLiveness.allowQuotes cycle.now then
    c.suspendedDecision cfg cycle
  else if cycle.quoting ∧ cycle.stale cfg then
    c.staleDecision cfg cycle
  else if cycle.quoting then
    (c.quotingPlan cfg cycle quoteRefreshReason).decide cfg cycle
  else
    (c.closingPlan cfg cycle).decide cfg cycle

end Decide

end PerpMMController

/-- One control cycle of a controller on its own. -/
def controlCycle (cfg : PerpMMControllerConfig) (quoteRefreshReason : RefreshQuery → Option String)
    (c : PerpMMController) (cycle : Cycle) : PerpMMController :=
  (c.determineExecutorActions cfg cycle quoteRefreshReason).controller

/-! ## Sample inputs for concrete runs -/

def sampleConfig : PerpMMControllerConfig where
  id := "mm"
  connectorName := "hyperliquid_perpetual"
  tradingPair := "ETH-USD"

/-- A two-sided quote around 100. -/
def sampleQuote : ExecIntent where
  coin := "ETH"
  targetInventory := 0
  currentInventory := some 0
  quote := some { bidPrice := some 99, askPrice := some 101, bidSize := 1, askSize := 1 }
  urgency := .passive

/-- A flatten of what is left of a long position. -/
def sampleStop (current : ℚ) : ExecIntent where
  coin := "ETH"
  targetInventory := 0
  currentInventory := some current
  urgency := .normal

/-- A cycle over a book at 99 and 101. -/
def sampleCycle (now : ℚ) (intent : ExecIntent) (age : ℚ) : Cycle where
  now := now
  lastIntent := some intent
  active := []
  marketDataAgeS := some age
  mid := some 100
  bestBid := some 99
  bestAsk := some 101

/-- The same book on a venue with a minimum notional of 10. -/
def notionalCycle : Cycle :=
  { sampleCycle 0 sampleQuote 0 with
    rules := { minNotionalSize := 10, minBaseAmountIncrement := 1 / 100 } }

end Opms.PerpMM
