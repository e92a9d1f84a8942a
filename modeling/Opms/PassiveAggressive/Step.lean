import Opms.Foundation.Run
import Opms.PassiveAggressive.State
import Mathlib.Data.List.Infix

/-! # The passive-aggressive state machine

`control_task` drives the current child; fills, completions, cancel acks and
failures arrive as callbacks at any time, also for orders that were replaced or
belong to an earlier child. An operation carries what the code reads from
outside during that call.
-/

namespace Opms.PassiveAggressive

open Foundation

variable {n : ℕ}

namespace Executor

/-! ## Order helpers -/

def submit (cfg : Settings) (call : Call) (s : Executor n) (c : Fin n) (orderType : OrderType)
    (amount : ℚ) (price : Option ℚ) : Executor n :=
  { s with
    placed := s.placed ++ [{
      orderId := call.orderId, orderType, side := cfg.side, amount, price,
      positionAction := cfg.positionAction, child := c, placedAt := call.now }]
    orders := s.orders.set call.orderId { child := c, amount }
    children := Function.update s.children c
      { s.children c with trackedOrder := some call.orderId } }

/-- The side's best price, when it is finite. -/
def limitPrice (cfg : Settings) (call : Call) : Option ℚ :=
  match cfg.side with
  | .buy => call.bestBid
  | .sell => call.bestAsk

def placeLimit (cfg : Settings) (call : Call) (s : Executor n) (c : Fin n) : Executor n :=
  match (limitPrice cfg call).filter (0 < ·) with
  | none => s.modifyChild c fun child => { child with retryAt := some (call.now + 1) }
  | some price =>
      let remaining := s.room cfg c
      if remaining ≤ 0 then
        s.modifyChild c fun child => { child with status := .done }
      else
        (s.submit cfg call c .limit remaining (some price)).modifyChild c fun child =>
          { child with status := .active, refreshStart := some call.now }

def placeAggressive (cfg : Settings) (call : Call) (s : Executor n) (c : Fin n) : Executor n :=
  let s := s.modifyChild c fun child => { child with status := .idle }
  if s.status ≠ .running then
    s
  else
    let remaining := s.room cfg c
    if remaining ≤ 0 then
      s.modifyChild c fun child => { child with status := .done }
    else
      (s.submit cfg call c .market remaining none).modifyChild c fun child =>
        { child with status := .aggressive }

def cancelChild (s : Executor n) (c : Fin n) (reason : CancelReason) : Executor n :=
  match (s.children c).trackedOrder.filter (· ≠ "") with
  | none => s
  | some orderId =>
      ({ s with cancelRequests := s.cancelRequests ++ [orderId] }).modifyChild c fun child =>
        { child with cancelReason := reason, status := .canceling }

def cancelAllOpen (call : Call) (s : Executor n) : Executor n :=
  { s with
    lastCancelSweep := some call.now
    cancelRequests := s.cancelRequests ++
      (s.orders.entries.filter fun entry => !entry.2.terminal).map Prod.fst }

def closeExecutionBy (call : Call) (s : Executor n) (closeType : CloseType) : Executor n :=
  { s with
    closeType := some closeType
    closeTimestamp := some call.now
    status := .terminated }

/-- The close type describes what happened, not merely that the run ended. -/
def finalCloseType (cfg : Settings) (s : Executor n) : CloseType :=
  if s.currentRetries > cfg.maxRetries then .failed
  else if s.cumulativeFilled ≥ cfg.totalAmountBase then .completed
  else .timeLimit

def evaluateMaxRetries (cfg : Settings) (call : Call) (s : Executor n) : Executor n :=
  if s.currentRetries > cfg.maxRetries then s.closeExecutionBy call .failed else s

/-! ## The tick -/

/-- The `while` loop of `_step`: skip terminal slots from `idx` on. -/
def advanceIdx (s : Executor n) : ℕ → ℕ → ℕ
  | 0, idx => idx
  | fuel + 1, idx =>
      if h : idx < n then
        if (s.children ⟨idx, h⟩).status.isTerminal then advanceIdx s fuel (idx + 1) else idx
      else idx

/-- Move `_child_idx` past the terminal slots. -/
def advance (s : Executor n) : Executor n :=
  { s with childIdx := s.advanceIdx (n - s.childIdx) s.childIdx }

/-- Start the cycle clock on the first visit of a child. -/
def startCycle (call : Call) (s : Executor n) (c : Fin n) : Executor n :=
  s.modifyChild c fun child => { child with cycleStart := some (child.cycleStart.getD call.now) }

/-- Time since the child's cycle clock started. -/
def cycleElapsed (call : Call) (s : Executor n) (c : Fin n) : ℚ :=
  call.now - (s.children c).cycleStart.getD call.now

/-- The part of `_step` after the child and its cycle clock are known. -/
def stepChild (cfg : Settings) (call : Call) (s : Executor n) (c : Fin n) : Executor n :=
  match (s.children c).status with
  | .idle =>
      if s.cycleElapsed call c ≥ cfg.childOrderTimeLimit then
        s.modifyChild c fun child => { child with status := .skipped }
      else if (s.children c).retryAt.any (call.now < ·) then
        s
      else
        (s.modifyChild c fun child => { child with retryAt := none }).placeLimit cfg call c
  | .active =>
      if s.cycleElapsed call c ≥ cfg.childOrderTimeLimit then
        s.cancelChild c .cycleExpired
      else if (s.children c).refreshStart.any
          (call.now - · ≥ cfg.childOrderRefreshTime) then
        s.cancelChild c .refresh
      else
        s
  | _ => s

def step (cfg : Settings) (call : Call) (s : Executor n) : Executor n :=
  let s := s.advance
  match s.activeChild with
  | none => if s.outstanding = 0 then s.closeExecutionBy call (s.finalCloseType cfg) else s
  | some c => (s.startCycle call c).stepChild cfg call c

def controlTask (cfg : Settings) (call : Call) (s : Executor n) : Executor n :=
  match s.status with
  | .running => s.step cfg call
  | .shuttingDown =>
      if s.outstanding ≠ 0 then
        if s.lastCancelSweep.all (call.now - · ≥ cfg.childOrderRefreshTime) then
          s.cancelAllOpen call
        else
          s
      else
        s.closeExecutionBy call (s.closeType.getD (s.finalCloseType cfg))
  | _ => s

/-! ## Event callbacks -/

/-- What the order's fills and summaries add to what was credited already. -/
def creditDelta (r : OrderRecord n) : ℚ := max r.fillSum r.reported - r.credited

/-- Reconcile one order's fills and completion summaries to one total. -/
def credit (s : Executor n) (orderId : OrderId) : Executor n :=
  match s.orders.lookup orderId with
  | none => s
  | some r =>
      let delta := creditDelta r
      if delta ≤ 0 then
        s
      else
        ({ s with
          orders := s.orders.modify orderId fun r => { r with credited := r.credited + delta }
          cumulativeFilled := s.cumulativeFilled + delta }).modifyChild r.child fun child =>
            { child with filled := child.filled + delta }

/-- `_record(order_id, terminal=True)` on a known order. -/
def markTerminal (s : Executor n) (orderId : OrderId) : Executor n :=
  { s with orders := s.orders.modify orderId fun r => { r with terminal := true } }

/-- The record after a fill that is not a replay. -/
def withFill (event : OrderFilledEvent) (r : OrderRecord n) : OrderRecord n :=
  { r with
    tradeIds := event.tradeId?.elim r.tradeIds (insert · r.tradeIds)
    fillSum := r.fillSum + event.amount }

/-- Note a fill in its order's record, and its first flat fee. -/
def noteFill (s : Executor n) (event : OrderFilledEvent) : Executor n :=
  { s with
    orders := s.orders.modify event.orderId (withFill event)
    cumFeesQuote := s.cumFeesQuote +
      (event.tradeFee.flatFees.head?.map TokenAmount.amount).getD 0 }

/-- Cancel a resting replacement that a retired order's fill left too big. -/
def cancelOversized (cfg : Settings) (s : Executor n) (r : OrderRecord n) (orderId : OrderId) :
    Executor n :=
  match s.activeChild with
  | none => s
  | some c =>
      if (s.children c).status = .active ∧ ¬ s.isActive r orderId ∧ s.room cfg c < 0 then
        s.cancelChild c .refresh
      else
        s

def processOrderFilledEvent (cfg : Settings) (s : Executor n) (event : OrderFilledEvent) :
    Executor n :=
  match s.orders.lookup event.orderId with
  | none => s
  | some r =>
      if event.tradeId?.any (· ∈ r.tradeIds) then
        s
      else
        ((s.noteFill event).credit event.orderId).cancelOversized cfg r event.orderId

/-- The record with the largest cumulative completion summary so far. -/
def withSummary (event : OrderCompletedEvent) (r : OrderRecord n) : OrderRecord n :=
  { r with reported := max r.reported event.baseAssetAmount }

def noteSummary (s : Executor n) (event : OrderCompletedEvent) : Executor n :=
  { s with orders := s.orders.modify event.orderId (withSummary event) }

def processOrderCompletedEvent (s : Executor n) (event : OrderCompletedEvent) : Executor n :=
  match s.orders.lookup event.orderId with
  | none => s
  | some r =>
      let s := ((s.markTerminal event.orderId).noteSummary event).credit event.orderId
      if s.isActive r event.orderId then
        s.modifyChild r.child fun child => { child with status := .done }
      else
        s

def processOrderCanceledEvent (cfg : Settings) (call : Call) (s : Executor n)
    (event : OrderCancelledEvent) : Executor n :=
  match s.orders.lookup event.orderId with
  | none => s
  | some r =>
      let s := s.markTerminal event.orderId
      if ¬ s.isActive r event.orderId then
        s
      else
        let s := s.modifyChild r.child fun child => { child with trackedOrder := none }
        if (s.children r.child).cancelReason = .cycleExpired ∧ cfg.positionAction = .close then
          s.placeAggressive cfg call r.child
        else if (s.children r.child).cancelReason = .cycleExpired then
          -- an open never crosses: the cancelled order may still fill
          s.modifyChild r.child fun child => { child with status := .skipped }
        else
          s.modifyChild r.child fun child => { child with status := .idle }

/-- The venue's answer to a close order when there is nothing left to close. -/
def isReduceOnlyRejection (event : MarketOrderFailureEvent) : Bool :=
  "reduce only order would increase position".toList <:+:
    ((event.errorMessage.getD "").toList.map Char.toLower)

/-- Seconds to wait after the `retries`-th failure. -/
def retryDelay (cfg : Settings) (retries : ℕ) : ℚ :=
  min (2 ^ min retries 4) cfg.childOrderRefreshTime

/-- Return the child to idle and count the failure. -/
def backOff (cfg : Settings) (call : Call) (s : Executor n) (c : Fin n) : Executor n :=
  let retries := s.currentRetries + 1
  ({ s with currentRetries := retries }).modifyChild c fun child => { child with
    status := .idle
    trackedOrder := none
    retryAt := some (call.now + retryDelay cfg retries) }

def processOrderFailedEvent (cfg : Settings) (call : Call) (s : Executor n)
    (event : MarketOrderFailureEvent) : Executor n :=
  match s.orders.lookup event.orderId with
  | none => s
  | some r =>
      let s := s.markTerminal event.orderId
      if ¬ s.isActive r event.orderId then
        s
      else if cfg.positionAction = .close ∧ isReduceOnlyRejection event then
        (s.modifyChild r.child fun child =>
          { child with trackedOrder := none, status := .skipped }).closeExecutionBy call .earlyStop
      else
        let wasAggressive := (s.children r.child).status = .aggressive
        let s := s.backOff cfg call r.child
        -- a rejected market order is sent again, but never after a stop
        if wasAggressive ∧ s.status = .running ∧ s.currentRetries ≤ cfg.maxRetries then
          s.placeAggressive cfg call r.child
        else
          s

def earlyStop (call : Call) (s : Executor n) (keepPosition : Bool) : Executor n :=
  { ({ s with closeType := some (if keepPosition then .positionHold else .earlyStop) }).cancelAllOpen
      call with
    status := .shuttingDown }

end Executor

/-! ## Operations and runs -/

inductive Op
  | controlTask (call : Call)
  | filled (event : OrderFilledEvent)
  | completed (event : OrderCompletedEvent)
  | canceled (call : Call) (event : OrderCancelledEvent)
  | failed (call : Call) (event : MarketOrderFailureEvent)
  | earlyStop (call : Call) (keepPosition : Bool)
  | evaluateMaxRetries (call : Call)

/-- What the operation reads from outside, if it reads anything. -/
def Op.call? : Op → Option Call
  | .controlTask call | .canceled call _ | .failed call _ | .earlyStop call _
  | .evaluateMaxRetries call => some call
  | .filled _ | .completed _ => none

/-- The order a fill or completion may credit. -/
def Op.creditedOrder? : Op → Option OrderId
  | .filled event => some event.orderId
  | .completed event => some event.orderId
  | _ => none

def perform (cfg : Settings) (s : Executor n) : Op → Executor n
  | .controlTask call => s.controlTask cfg call
  | .filled event => s.processOrderFilledEvent cfg event
  | .completed event => s.processOrderCompletedEvent event
  | .canceled call event => s.processOrderCanceledEvent cfg call event
  | .failed call event => s.processOrderFailedEvent cfg call event
  | .earlyStop call keepPosition => s.earlyStop call keepPosition
  | .evaluateMaxRetries call => s.evaluateMaxRetries cfg call

/-- `place_order` would return an id no earlier order carries. -/
def FreshId (s : Executor n) (op : Op) : Prop :=
  ∀ call ∈ op.call?, call.orderId ∉ s.orders.keys

instance (s : Executor n) (op : Op) : Decidable (FreshId s op) :=
  inferInstanceAs (Decidable (∀ call ∈ op.call?, call.orderId ∉ s.orders.keys))

theorem FreshId.lookup {s : Executor n} {op : Op} (h : FreshId s op) {call : Call}
    (hcall : op.call? = some call) : s.orders.lookup call.orderId = none :=
  (s.orders.lookup_eq_none_iff call.orderId).mpr (h call hcall)

/-- Times read by the operations never decrease. -/
def TimesFrom : ℚ → List Op → Prop
  | _, [] => True
  | before, op :: rest => match op.call? with
      | some call => before ≤ call.now ∧ TimesFrom call.now rest
      | none => TimesFrom before rest

instance TimesFrom.decidable : ∀ before ops, Decidable (TimesFrom before ops)
  | _, [] => .isTrue trivial
  | before, op :: rest => by
      unfold TimesFrom
      exact match op.call? with
        | some call =>
            have := TimesFrom.decidable call.now rest
            inferInstanceAs (Decidable (before ≤ call.now ∧ TimesFrom call.now rest))
        | none => TimesFrom.decidable before rest

/-- A close of one unit in a single child, for concrete runs. -/
def sampleConfig : Settings where
  connectorName := "hyperliquid_perpetual"
  tradingPair := "SOL-USD"
  side := .buy
  totalAmountBase := 1
  childOrderQuantity := 1
  childOrderTimeLimit := 5
  childOrderRefreshTime := 2
  positionAction := .close

end Opms.PassiveAggressive
