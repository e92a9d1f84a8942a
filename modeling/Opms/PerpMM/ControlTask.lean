import Opms.PerpMM.Branches
import Opms.PerpMM.Margin
import Opms.PortfolioStop.Book

/-! # The control task

One control task updates the keeper and then decides on executor actions. An
update that raises or runs out of time is answered with a latched emergency
flatten, so that the decision is reached in any case. The keeper's handlers are
third-party code: any sequence of intents and basket questions that stops
anywhere.
-/

namespace Opms.PerpMM

open Foundation PortfolioStop

universe u

/-! ## What a task reads -/

inductive PositionSide
  | long
  | short
  | both
  deriving DecidableEq

def PositionSide.name : PositionSide → String
  | .long => "LONG"
  | .short => "SHORT"
  | .both => "BOTH"

structure AccountPosition where
  tradingPair : String
  positionSide : PositionSide
  amount : ℚ
  deriving DecidableEq

/-- The controller's configuration with what only the control task reads. -/
structure ControlConfig (members : Finset Leg) extends PerpMMControllerConfig where
  accountId : String := "default"
  collateralAsset : String := "USD"
  positionSide : Option String := none
  margin : MarginConfig := {}
  portfolioStop : Option (PortfolioStopBook members) := none

namespace ControlConfig

variable {members : Finset Leg} (cfg : ControlConfig members)

/-- The pair up to its first dash. -/
def coin : String := String.ofList (cfg.tradingPair.toList.takeWhile (· ≠ '-'))

def leg : Leg := ⟨cfg.accountId, cfg.coin⟩

/-- The sum of the pair's positions, of the own side where one is configured. -/
def currentBasePosition (positions : List AccountPosition) : ℚ :=
  let ownSide := (cfg.positionSide.getD "").toUpper
  let own := positions.filter fun p =>
    p.tradingPair = cfg.tradingPair ∧ (ownSide = "" ∨ p.positionSide.name = ownSide)
  (own.map (·.amount)).sum

end ControlConfig

/-- The account value under the first known label, or under the only one. A
balance of `none` does not parse or is not finite. -/
def currentEquity (collateralAsset : String) (balances : Registry String (Option ℚ)) : Option ℚ :=
  let labels := [collateralAsset, "USD", "USDC", "USDT"]
  let single := if balances.entries.length = 1 then balances.keys.head? else none
  let key := (labels.find? fun label => (balances.lookup label).isSome).or single
  key.bind fun key => (balances.lookup key).join

/-- The order book's time stamps; one that is no finite number is `none`. -/
structure PairMetrics where
  lastDiffTimestamp : Option ℚ
  lastSnapshotTimestamp : Option ℚ
  deriving DecidableEq

/-- The age of the book, `none` where it is infinite. -/
def marketDataAgeS (pair : Option PairMetrics) (feedHealthy : Bool) (perfCounter : ℚ) :
    Option ℚ :=
  pair.bind fun pair =>
    if !feedHealthy then
      none
    else
      let timestamps := [pair.lastDiffTimestamp, pair.lastSnapshotTimestamp].filterMap
        (·.filter (0 < ·))
      timestamps.max?.bind fun newest => (some (perfCounter - newest)).filter (0 ≤ ·)

/-- The keeper's decision, as far as the basket asks for it. -/
inductive RiskDecision
  | emergencyExit
  | stopQuoting
  | other
  deriving DecidableEq

/-- One call of the intent transform, at the provider's and the book's clock. A
book that cannot be written has no time; a float that is not finite is `none`. -/
structure TransformCall where
  decision : RiskDecision
  intent : Option ExecIntent := none
  position : Option ℚ
  mid : Option ℚ
  now : ℚ
  bookNow : Option ℚ
  deriving DecidableEq

/-- What the keeper does while it handles a snapshot or ticks. -/
inductive KeeperCall
  | send (intent : ExecIntent)
  | transform (call : TransformCall)
  deriving DecidableEq

structure KeeperRun where
  calls : List KeeperCall := []
  completes : Bool := true
  deriving DecidableEq

/-- What an update reads after the margin, with the position to decide on. -/
structure MarketReading where
  position : ℚ
  balances : Registry String (Option ℚ)

/-- One update. A reading of `none` raised or was cut off by the deadline. -/
structure Update (Raw : Type u) where
  margin : Option (MarginCall Raw)
  market : Option MarketReading
  snapshot : KeeperRun := {}
  tick : KeeperRun := {}
  /-- The reconciliation without equity: the transform it asks for. -/
  reconcile : Option TransformCall := none
  peakSeeded : Bool := false

/-- One call of the control task. -/
structure Turn (Raw : Type u) where
  updateEventSet : Bool := true
  ready : Bool := true
  update : Update Raw
  /-- What a failed update raises, and when. -/
  error : VenueError
  failedAt : ℚ
  /-- The connector's positions, unless they cannot be read. -/
  accountPositions : Option (List AccountPosition)
  keeperInventory : ℚ := 0
  lastMid : Option (Option ℚ) := none
  bookNow : Option ℚ := none
  pairMetrics : Option PairMetrics := none
  feedHealthy : Bool := true
  perfCounter : ℚ := 0
  /-- The rest of what the decision reads. -/
  cycle : Cycle

/-- The mid an emergency is published with: a missing feed, or a mid of 0, must
not suppress the stop. -/
def Turn.publishedMid {Raw : Type u} (turn : Turn Raw) : Option ℚ :=
  (turn.lastMid.filter (· ≠ some 0)).getD (some 1)

section Flatten

variable {members : Finset Leg} {Raw : Type u} (cfg : ControlConfig members) (turn : Turn Raw)

/-- The position a forced flatten starts from. -/
def ControlConfig.flattenFrom : ℚ :=
  (turn.accountPositions.map cfg.currentBasePosition).getD turn.keeperInventory

/-- The intent a forced flatten latches. -/
def ControlConfig.flattenIntent : ExecIntent where
  coin := cfg.coin
  targetInventory := 0
  currentInventory := some (cfg.flattenFrom turn)
  urgency := .emergency

end Flatten

/-! ## The state and its log -/

inductive DrawdownBaseline
  | blind
  | armed
  deriving DecidableEq

/-- What the task logs once for an episode. -/
inductive Notice
  | marketDataUnready
  | marketDataRecovered
  | equityUnresolved
  | equityResolved
  | drawdownBlind
  | drawdownArmed
  deriving DecidableEq

/-- The controller between tasks, with the connector's margin attributes and the
basket's table that it shares. -/
structure ControlState where
  controller : PerpMMController
  client : InProcessClient := {}
  venueCircuit : VenueCircuitBreaker := {}
  connector : Connector := {}
  table : Table := Registry.empty
  marketDataUnready : Bool := false
  equityResolved : Option Bool := none
  quoteSuspensionReason : Option String := none
  drawdownBaseline : Option DrawdownBaseline := none

/-- How far an update got: the state, what it logged, and whether it completed. -/
structure Progress where
  state : ControlState
  notices : List Notice := []
  completed : Bool := false

/-- One task: its decision, unless it returned early or raised. -/
structure TaskResult where
  state : ControlState
  decision : Option Decision := none
  notices : List Notice := []
  completed : Bool := false

namespace ControlState

section Update

variable {members : Finset Leg} {Raw : Type u} (usdcFlatTargets : FlatTargets)
  (validationErrors : ExecIntent → List String) (rule : FailClosed Raw)
  (cfg : ControlConfig members) (s : ControlState)

/-! ## Basket -/

/-- What the leg asks of the basket. -/
def localMode (call : TransformCall) : String :=
  if !s.controller.quoteLiveness.allowQuotes call.now then
    "emergency"
  else
    match call.decision with
    | .emergencyExit => "emergency"
    | .stopQuoting => "stop"
    | .other => "quote"

def portfolioTransform (call : TransformCall) : ControlState × Except String (Option ExecIntent) :=
  match cfg.portfolioStop with
  | none => (s, .ok call.intent)
  | some book =>
      let (table, answer) := book.update usdcFlatTargets s.table {
        leg := cfg.leg
        position := call.position
        mid := call.mid
        mode := s.localMode call
        now := call.bookNow }
      ({ s with table }, answer.map fun (mode, target) =>
        if mode = .quote then
          call.intent
        else
          some {
            coin := cfg.coin
            targetInventory := target
            currentInventory := call.position
            urgency := if mode = .emergency then .emergency else .immediate })

/-- Publish an emergency; a book that rejects it changes nothing. -/
def publishPortfolioEmergency (turn : Turn Raw) (position : ℚ) : ControlState :=
  match cfg.portfolioStop with
  | none => s
  | some book =>
      { s with table := (book.update usdcFlatTargets s.table {
          leg := cfg.leg
          position := some position
          mid := turn.publishedMid
          mode := "emergency"
          now := turn.bookNow }).1 }

/-! ## Updating -/

def keeperCall : KeeperCall → ControlState
  | .send intent =>
      { s with client := s.client.handle validationErrors (.sendIntent intent) }
  | .transform call => (s.portfolioTransform usdcFlatTargets cfg call).1

def keeperCalls (calls : List KeeperCall) : ControlState :=
  run (fun s => keeperCall usdcFlatTargets validationErrors cfg s) s calls

/-- Note whether equity is known, and suspend quoting while it is not. -/
def noteEquity (equity : Option ℚ) : Progress where
  state := { s with
    equityResolved := some equity.isSome
    quoteSuspensionReason := if equity.isSome then none else some "equity_unresolved" }
  notices :=
    if equity = none ∧ s.equityResolved ≠ some false then [.equityUnresolved]
    else if equity ≠ none ∧ s.equityResolved = some false then [.equityResolved]
    else []
  completed := true

def notePeakEquity (seeded : Bool) : Progress :=
  if seeded then
    if s.drawdownBaseline = some .armed then
      { state := s, completed := true }
    else
      { state := { s with drawdownBaseline := some .armed }, notices := [.drawdownArmed],
        completed := true }
  else if s.drawdownBaseline = none then
    { state := { s with drawdownBaseline := some .blind }, notices := [.drawdownBlind],
      completed := true }
  else
    { state := s, completed := true }

/-- Without equity there is no risk evaluation: only a basket stop is honoured. -/
def reconcile (call : Option TransformCall) : Progress :=
  match call with
  | none => { state := s }
  | some call =>
      match s.portfolioTransform usdcFlatTargets cfg
          { call with decision := .other, intent := none } with
      | (s, .error _) => { state := s }
      | (s, .ok none) => { state := s, completed := true }
      | (s, .ok (some intent)) =>
          if !cfg.shadowMode ∧ ¬ |intent.targetInventory - intent.current| < flatTolerance then
            match s.client.sendIntent validationErrors intent with
            | .error _ => { state := s }
            | .ok client => { state := { s with client }, completed := true }
          else
            { state := s, completed := true }

/-- The part of an update after the keeper has seen the snapshot. -/
def evaluate (update : Update Raw) (equity : Option ℚ) : Progress :=
  let noted := s.noteEquity equity
  let evaluated :=
    if equity.isSome then
      { state := noted.state.keeperCalls usdcFlatTargets validationErrors cfg update.tick.calls
        completed := update.tick.completes : Progress }
    else
      noted.state.reconcile usdcFlatTargets validationErrors cfg update.reconcile
  if evaluated.completed then
    let peak := evaluated.state.notePeakEquity update.peakSeeded
    { peak with notices := noted.notices ++ peak.notices }
  else
    { evaluated with notices := noted.notices }

def updateProcessedData (update : Update Raw) : Progress :=
  match update.margin with
  | none => { state := s }
  | some call =>
      let answer := currentMarginAvailable rule cfg.margin s.connector s.venueCircuit call
      let s := { s with connector := answer.connector, venueCircuit := answer.circuit }
      match update.market with
      | none => { state := s }
      | some market =>
          let s := { s with client := s.client.setPositions (fed cfg.coin market.position) }
          let s := s.keeperCalls usdcFlatTargets validationErrors cfg update.snapshot.calls
          if !update.snapshot.completes then
            { state := s }
          else
            s.evaluate usdcFlatTargets validationErrors cfg update
              (currentEquity cfg.collateralAsset market.balances)

end Update

section Task

variable {members : Finset Leg} {Raw : Type u} (usdcFlatTargets : FlatTargets)
  (validationErrors : ExecIntent → List String) (rule : FailClosed Raw)
  (cfg : ControlConfig members) (quoteRefreshReason : RefreshQuery → Option String)
  (s : ControlState) (turn : Turn Raw)

/-- Latch the flatten past every check of the client, and tell the basket. -/
def forceFlattenIntent : ControlState :=
  { s with client := { s.client with lastIntent := some (cfg.flattenIntent turn) } }
    |>.publishPortfolioEmergency usdcFlatTargets cfg turn (cfg.flattenFrom turn)

/-- The cycle as the decision sees it. -/
def sees : Cycle :=
  { turn.cycle with
    lastIntent := s.client.lastIntent
    quoteSuspended := s.quoteSuspensionReason.isSome
    marketDataAgeS := marketDataAgeS turn.pairMetrics turn.feedHealthy turn.perfCounter
    currentBasePosition := cfg.currentBasePosition (turn.accountPositions.getD []) }

/-- The decision at the end of a task, with what it publishes. -/
def decide (notices : List Notice) (completed : Bool) : TaskResult :=
  let decision := s.controller.determineExecutorActions cfg.toPerpMMControllerConfig
    (s.sees cfg turn) quoteRefreshReason
  let s := { s with controller := decision.controller }
  { state := match decision.published with
      | none => s
      | some position => s.publishPortfolioEmergency usdcFlatTargets cfg turn position
    decision := some decision
    notices
    completed }

/-- The circuit counts the failure, unless it is backing off already. -/
def recordVenueFailure : ControlState :=
  if s.venueCircuit.allowRequest turn.failedAt then
    { s with venueCircuit := s.venueCircuit.recordFailure turn.failedAt turn.error }
  else s

/-- Counting the failure raises in its turn, and ends the task. -/
def recordRaises : Bool :=
  s.venueCircuit.allowRequest turn.failedAt ∧ (s.venueCircuit.failureDelay turn.error).isNone

def controlTask : TaskResult :=
  if !turn.updateEventSet then
    { state := s }
  else if !turn.ready then
    let notices := if s.marketDataUnready then [] else [.marketDataUnready]
    ({ s with marketDataUnready := true }.forceFlattenIntent usdcFlatTargets cfg turn).decide
      usdcFlatTargets cfg quoteRefreshReason turn notices false
  else
    let recovered : List Notice := if s.marketDataUnready then [.marketDataRecovered] else []
    let progress := { s with marketDataUnready := false }.updateProcessedData usdcFlatTargets
      validationErrors rule cfg turn.update
    let notices := recovered ++ progress.notices
    if progress.completed then
      progress.state.decide usdcFlatTargets cfg quoteRefreshReason turn notices true
    else if progress.state.recordRaises turn then
      { state := progress.state.recordVenueFailure turn, notices }
    else
      ((progress.state.recordVenueFailure turn).forceFlattenIntent usdcFlatTargets cfg
        turn).decide usdcFlatTargets cfg quoteRefreshReason turn notices false

end Task

end ControlState

/-! ## Runs -/

/-- A control task, or what happens between two of them: another leg writes to
the basket, or another controller to the connector. -/
inductive ControlEvent (Raw : Type u)
  | task (turn : Turn Raw)
  | sibling (call : UpdateCall)
  | connector (connector : Connector)

section Run

variable {members : Finset Leg} {Raw : Type u} (usdcFlatTargets : FlatTargets)
  (validationErrors : ExecIntent → List String) (rule : FailClosed Raw)
  (cfg : ControlConfig members) (quoteRefreshReason : RefreshQuery → Option String)

/-- The task's result in a state. -/
def ControlState.result (s : ControlState) (turn : Turn Raw) : TaskResult :=
  s.controlTask usdcFlatTargets validationErrors rule cfg quoteRefreshReason turn

def ControlState.step (s : ControlState) : ControlEvent Raw → ControlState
  | .task turn => (s.result usdcFlatTargets validationErrors rule cfg quoteRefreshReason turn).state
  | .sibling call =>
      match cfg.portfolioStop with
      | none => s
      | some book =>
          if call.leg = cfg.leg then s
          else { s with table := (book.update usdcFlatTargets s.table call).1 }
  | .connector connector => { s with connector }

end Run

/-- The controller right after construction, over the basket's table. -/
def ControlState.init {members : Finset Leg} (cfg : ControlConfig members)
    (venueCircuit : VenueCircuitBreaker) (connector : Connector) (table : Table) :
    ControlState where
  controller := .init cfg.toPerpMMControllerConfig
  venueCircuit := venueCircuit
  connector := connector
  table := table

/-! ## Sample inputs for concrete runs -/

/-- The ETH leg of the sample basket, with the book of that basket. -/
def sampleControl : ControlConfig sampleMembers :=
  { sampleConfig with accountId := "e2_mm1", portfolioStop := some sampleBook }

/-- A resting bid at 99. -/
def sampleBid : ExecutorInfo where
  id := 0
  config := .bufferedMaker {
    timestamp := 0
    tradingPair := sampleConfig.tradingPair
    connectorName := sampleConfig.connectorName
    side := .buy
    amount := 1
    price := some 99
    executionStrategy := .limitMaker
    positionAction := .open
    leverage := 1 }

/-- The whole update at one time, over a book one second old: the position is
fed, and the keeper's tick sends one intent. -/
def sampleTurn (now position : ℚ) (intent : ExecIntent) : Turn (Option ℚ) where
  update :=
    { margin := some { now, requestedAt := now, reply := .ok (.tokens [some (0, some 50)]) }
      market := some { position, balances := Registry.empty.set "USD" (some 100) }
      tick := { calls := [.send intent] } }
  error := { typeName := "TimeoutError", message := "", timeout := true }
  failedAt := now
  accountPositions :=
    some [{ tradingPair := sampleConfig.tradingPair, positionSide := .both, amount := position }]
  bookNow := some now
  pairMetrics := some { lastDiffTimestamp := some 9, lastSnapshotTimestamp := none }
  perfCounter := 10
  cycle := sampleCycle now sampleQuote 0

/-- The deadline cuts the update off in the margin read, while a bid rests. -/
def cutOffTurn (now position : ℚ) : Turn (Option ℚ) :=
  { sampleTurn now position sampleQuote with
    update := { margin := none, market := none }
    cycle := { sampleCycle now sampleQuote 0 with active := [sampleBid] } }

end Opms.PerpMM
