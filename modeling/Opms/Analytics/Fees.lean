import Opms.Analytics.FillObserver
import Opms.PassiveAggressive.Ledger

/-! # Two accounts of the same fees

The executor and the observer both hear of every fill. The executor charges the
first flat fee of the event, the observer records its percentage fee and all of
its flat fees, in quote terms.
-/

namespace Opms.PassiveAggressive

open Foundation

variable {n : ℕ}

/-- The fill an operation delivers. -/
def Op.fill? : Op → Option OrderFilledEvent
  | .filled event => some event
  | _ => none

/-- What a fill costs according to the executor: its first flat fee. -/
def firstFlatFee (fee : TradeFee) : ℚ := (fee.flatFees.head?.map TokenAmount.amount).getD 0

namespace Executor

variable (cfg : Settings) (call : Call) (s : Executor n) (c : Fin n)

/-! ## Only fills are charged -/

@[simp] theorem modifyChild_cumFeesQuote (change : ChildSlot → ChildSlot) :
    (s.modifyChild c change).cumFeesQuote = s.cumFeesQuote := rfl

@[simp] theorem submit_cumFeesQuote (orderType : OrderType) (amount : ℚ) (price : Option ℚ) :
    (s.submit cfg call c orderType amount price).cumFeesQuote = s.cumFeesQuote := rfl

@[simp] theorem placeLimit_cumFeesQuote :
    (s.placeLimit cfg call c).cumFeesQuote = s.cumFeesQuote := by
  unfold placeLimit
  split
  next => rfl
  next =>
    dsimp only
    split <;> rfl

@[simp] theorem placeAggressive_cumFeesQuote :
    (s.placeAggressive cfg call c).cumFeesQuote = s.cumFeesQuote := by
  unfold placeAggressive
  dsimp only
  split
  next => rfl
  next => split <;> rfl

@[simp] theorem cancelChild_cumFeesQuote (reason : CancelReason) :
    (s.cancelChild c reason).cumFeesQuote = s.cumFeesQuote := by
  unfold cancelChild
  split <;> rfl

@[simp] theorem stepChild_cumFeesQuote :
    (s.stepChild cfg call c).cumFeesQuote = s.cumFeesQuote := by
  unfold stepChild
  split
  next => split <;> [rfl; (split <;> simp)]
  next => split <;> [simp; (split <;> simp)]
  next => rfl

theorem controlTask_cumFeesQuote : (s.controlTask cfg call).cumFeesQuote = s.cumFeesQuote := by
  unfold controlTask
  split
  next =>
    unfold step
    dsimp only
    split
    next => split <;> rfl
    next => exact stepChild_cumFeesQuote cfg call _ _
  next =>
    split
    next => split <;> rfl
    next => rfl
  next => rfl

@[simp] theorem credit_cumFeesQuote (orderId : OrderId) :
    (s.credit orderId).cumFeesQuote = s.cumFeesQuote :=
  credit_field s Executor.cumFeesQuote fun _ _ _ _ => rfl

theorem cancelOversized_cumFeesQuote (r : OrderRecord n) (orderId : OrderId) :
    (s.cancelOversized cfg r orderId).cumFeesQuote = s.cumFeesQuote := by
  unfold cancelOversized
  split
  next => rfl
  next => split <;> simp

theorem completed_cumFeesQuote (event : OrderCompletedEvent) :
    (s.processOrderCompletedEvent event).cumFeesQuote = s.cumFeesQuote := by
  unfold processOrderCompletedEvent
  split
  next => rfl
  next =>
    dsimp only
    split
    next => exact credit_cumFeesQuote _ _
    next => exact credit_cumFeesQuote _ _

theorem canceled_cumFeesQuote (event : OrderCancelledEvent) :
    (s.processOrderCanceledEvent cfg call event).cumFeesQuote = s.cumFeesQuote := by
  unfold processOrderCanceledEvent
  split
  next => rfl
  next =>
    dsimp only
    split
    next => rfl
    next =>
      split
      next => exact placeAggressive_cumFeesQuote cfg call _ _
      next => split <;> rfl

theorem failed_cumFeesQuote (event : MarketOrderFailureEvent) :
    (s.processOrderFailedEvent cfg call event).cumFeesQuote = s.cumFeesQuote := by
  unfold processOrderFailedEvent
  split
  next => rfl
  next =>
    dsimp only
    split
    next => rfl
    next =>
      split
      next => rfl
      next =>
        split
        next => exact placeAggressive_cumFeesQuote cfg call _ _
        next => rfl

/-- A fill of a known order that is not a replay is charged its first flat fee. -/
theorem filled_cumFeesQuote {event : OrderFilledEvent} {r : OrderRecord n}
    (hlook : s.orders.lookup event.orderId = some r)
    (hnew : event.tradeId?.any (· ∈ r.tradeIds) = false) :
    (s.processOrderFilledEvent cfg event).cumFeesQuote =
      s.cumFeesQuote + firstFlatFee event.tradeFee := by
  unfold processOrderFilledEvent
  simp only [hlook, hnew, Bool.false_eq_true, if_false]
  rw [cancelOversized_cumFeesQuote, credit_cumFeesQuote]
  rfl

end Executor

theorem perform_cumFeesQuote (cfg : Settings) (s : Executor n) {op : Op}
    (hop : op.fill? = none) : (perform cfg s op).cumFeesQuote = s.cumFeesQuote := by
  cases op with
  | controlTask call => exact s.controlTask_cumFeesQuote cfg call
  | filled event => cases hop
  | completed event => exact s.completed_cumFeesQuote event
  | canceled call event => exact s.canceled_cumFeesQuote cfg call event
  | failed call event => exact s.failed_cumFeesQuote cfg call event
  | earlyStop call keepPosition => rfl
  | evaluateMaxRetries call =>
      unfold perform Executor.evaluateMaxRetries
      dsimp only
      split <;> rfl

/-- The trade ids of a record are old ones, or the id of the fill it notes. -/
theorem RecordStep.tradeIds {orderId : OrderId} {op : Op} {before : Option (OrderRecord n)}
    {r' : OrderRecord n} (h : RecordStep orderId op before (some r')) {trade : String}
    (htrade : trade ∈ r'.tradeIds) :
    (∃ r, before = some r ∧ trade ∈ r.tradeIds) ∨
      ∃ event, op = .filled event ∧ event.tradeId? = some trade := by
  cases h with
  | kept => exact .inl ⟨r', rfl, htrade⟩
  | settled r => exact .inl ⟨r, rfl, htrade⟩
  | placed => simp at htrade
  | filled event r hop =>
      cases hid : event.tradeId? with
      | none =>
          simp only [Executor.withFill, hid, Option.elim_none] at htrade
          exact .inl ⟨r, rfl, htrade⟩
      | some id =>
          simp only [Executor.withFill, hid, Option.elim_some, Finset.mem_insert] at htrade
          rcases htrade with rfl | hold
          · exact .inr ⟨event, hop, hid⟩
          · exact .inl ⟨r, rfl, hold⟩
  | completed event r => exact .inl ⟨r, rfl, htrade⟩

end Opms.PassiveAggressive

namespace Opms.Analytics

open Foundation
open PassiveAggressive (Settings ChildSlot Op firstFlatFee)

/-- An order-filled event with all that its two listeners read. -/
structure FillReport where
  orderId : OrderId
  exchangeTradeId : Option String
  tradingPair : String
  timestamp : ℚ
  tradeType : TradeType
  price : ℚ
  amount : ℚ
  tradeFee : TradeFee
  deriving DecidableEq

/-- `fee_amount_in_token` as documented: the percentage of the notional, and each
flat fee at its token's rate in quote terms. -/
def feeAmountInToken (rate : String → ℚ) (report : FillReport) : ℚ :=
  report.price * report.amount * report.tradeFee.percent +
    (report.tradeFee.flatFees.map fun flat => flat.amount * rate flat.token).sum

namespace FillReport

/-- What the executor reads of a report. -/
def forExecutor (report : FillReport) : OrderFilledEvent where
  orderId := report.orderId
  exchangeTradeId := report.exchangeTradeId
  amount := report.amount
  tradeFee := report.tradeFee

/-- What the observer reads of a report. -/
def forObserver (rate : String → ℚ) (report : FillReport) : FillEvent where
  tradingPair := report.tradingPair
  orderId := some report.orderId
  timestamp := report.timestamp
  tradeType := report.tradeType
  price := some report.price
  amount := some report.amount
  feeInQuoteToken := some (some (feeAmountInToken rate report))

end FillReport

/-- A ledger that also adds up the fees of the fills it takes. -/
def addingFees {Ledger : Type*} (ledgers : PnLLedger Ledger) : PnLLedger (Ledger × ℚ) where
  onFill books fill :=
    (ledgers.onFill books.1 fill).map fun ledger => (ledger, books.2 + fill.fee.getD 0)
  position books := ledgers.position books.1

/-- An executor and the observer of its pair, with the trade ids delivered so far. -/
structure Desk (n : ℕ) (Ledger Markout : Type*) where
  executor : PassiveAggressive.Executor n
  observer : FillObserver (Ledger × ℚ) Markout
  delivered : Finset String := ∅

/-- A fill reaches both; ticks, other events and mids reach one of them. -/
inductive DeskInput
  | fill (clock : ℚ) (report : FillReport)
  | executor (op : Op)
  | updateMid (clock : ℚ) (mid : Reading) (ts : Option ℚ)

namespace Desk

variable {n : ℕ} {Ledger Markout : Type*}
variable (ledgers : PnLLedger Ledger) (markouts : MarkoutTracker Markout) (rate : String → ℚ)
variable (cfg : Settings)

/-- The fees of the fills that went into the ledger. -/
def recordedFees (desk : Desk n Ledger Markout) : ℚ := desk.observer.ledger.2

/-- The ledger takes the fill that the observer makes of the report. -/
def Accepts (desk : Desk n Ledger Markout) (report : FillReport) : Prop :=
  (ledgers.onFill desk.observer.ledger.1
    (desk.observer.fillOf (report.forObserver rate))).toOption.isSome

instance (desk : Desk n Ledger Markout) (report : FillReport) :
    Decidable (desk.Accepts ledgers rate report) :=
  inferInstanceAs (Decidable (_ = true))

def step (desk : Desk n Ledger Markout) : DeskInput → Desk n Ledger Markout
  | .fill clock report =>
      { executor := PassiveAggressive.perform cfg desk.executor (.filled report.forExecutor)
        observer := desk.observer.onFillEvent (addingFees ledgers) markouts clock
          (report.forObserver rate)
        delivered := report.forExecutor.tradeId?.elim desk.delivered (insert · desk.delivered) }
  | .executor op => { desk with executor := PassiveAggressive.perform cfg desk.executor op }
  | .updateMid clock mid ts =>
      { desk with observer := desk.observer.updateMid markouts clock mid ts }

/-- Fills are of the executor's own orders and the observed pair, and their trade
ids are distinct; every fill goes to both. -/
def Legal (desk : Desk n Ledger Markout) : DeskInput → Prop
  | .fill _ report => (desk.executor.orders.lookup report.orderId).isSome ∧
      report.tradingPair = desk.observer.symbol ∧
      ∃ trade ∈ report.forExecutor.tradeId?, trade ∉ desk.delivered
  | .executor op => PassiveAggressive.FreshId desk.executor op ∧ op.fill? = none
  | .updateMid _ _ _ => True

instance (desk : Desk n Ledger Markout) (input : DeskInput) : Decidable (desk.Legal input) := by
  unfold Legal
  split <;> infer_instance

/-- The first flat fee is all that the fill costs: the percentage fee and every
flat fee in quote terms, or nothing where the ledger rejects the fill. -/
def FeesAgree (desk : Desk n Ledger Markout) : DeskInput → Prop
  | .fill _ report => firstFlatFee report.tradeFee =
      if desk.Accepts ledgers rate report then feeAmountInToken rate report else 0
  | _ => True

instance (desk : Desk n Ledger Markout) (input : DeskInput) :
    Decidable (desk.FeesAgree ledgers rate input) := by
  unfold FeesAgree
  split <;> infer_instance

/-- Both have booked the same fees. -/
def SameFees (desk : Desk n Ledger Markout) : Prop :=
  desk.executor.cumFeesQuote = desk.recordedFees

/-- The executor's records know no trade id that was not delivered. -/
def Known (desk : Desk n Ledger Markout) : Prop :=
  ∀ orderId r, desk.executor.orders.lookup orderId = some r → r.tradeIds ⊆ desk.delivered

variable {ledgers markouts rate cfg} {desk : Desk n Ledger Markout} {input : DeskInput}

/-- A fill that the ledger takes adds its fee, and another one nothing. -/
theorem recordedFees_fill {clock : ℚ} {report : FillReport}
    (hpair : report.tradingPair = desk.observer.symbol) :
    (desk.step ledgers markouts rate cfg (.fill clock report)).recordedFees = desk.recordedFees +
      if desk.Accepts ledgers rate report then feeAmountInToken rate report else 0 := by
  have htaken : desk.Accepts ledgers rate report ↔ (ledgers.onFill desk.observer.ledger.1
      (desk.observer.fillOf (report.forObserver rate))).toOption.isSome := Iff.rfl
  simp only [step, recordedFees]
  rcases hanswer : ledgers.onFill desk.observer.ledger.1
      (desk.observer.fillOf (report.forObserver rate)) with message | ledger
  · have hdropped := FillObserver.onFillEvent_dropped (addingFees ledgers) markouts clock
      (.inr ⟨message, congrArg (Except.map _) hanswer⟩)
    rw [hanswer] at htaken
    rw [hdropped.1, if_neg (mt htaken.mp Bool.false_ne_true), add_zero]
  · have hbooked := FillObserver.onFillEvent_accepted (addingFees ledgers) markouts clock hpair
      (show (addingFees ledgers).onFill desk.observer.ledger _ = Except.ok _ from
        congrArg (Except.map _) hanswer)
    rw [hanswer] at htaken
    rw [hbooked.1, if_pos (htaken.mpr rfl)]
    rfl

theorem Known.step (h : desk.Known) (hlegal : desk.Legal input) :
    (desk.step ledgers markouts rate cfg input).Known := by
  intro orderId r hlook trade htrade
  cases input with
  | fill clock report =>
      have hfresh : PassiveAggressive.FreshId desk.executor (.filled report.forExecutor) := by
        intro call hcall
        cases hcall
      have hstep := PassiveAggressive.perform_recordStep cfg orderId hfresh
      rw [show (PassiveAggressive.perform cfg desk.executor
        (.filled report.forExecutor)).orders.lookup orderId = some r from hlook] at hstep
      obtain ⟨own, hown, hnew⟩ := hlegal.2.2
      have hdelivered : (desk.step ledgers markouts rate cfg (.fill clock report)).delivered =
          insert own desk.delivered := by
        simp only [Desk.step, Option.mem_def.mp hown, Option.elim_some]
      rw [hdelivered, Finset.mem_insert]
      rcases hstep.tradeIds htrade with ⟨r₀, hlook₀, hold⟩ | ⟨event, hevent, hid⟩
      · exact .inr (h orderId r₀ hlook₀ hold)
      · obtain rfl := PassiveAggressive.Op.filled.inj hevent
        rw [Option.mem_def.mp hown] at hid
        exact .inl (Option.some.inj hid).symm
  | executor op =>
      have hstep := PassiveAggressive.perform_recordStep cfg orderId hlegal.1
      rw [show (PassiveAggressive.perform cfg desk.executor op).orders.lookup orderId = some r
        from hlook] at hstep
      rcases hstep.tradeIds htrade with ⟨r₀, hlook₀, hold⟩ | ⟨event, hevent, _⟩
      · exact h orderId r₀ hlook₀ hold
      · rw [hevent] at hlegal
        cases hlegal.2
  | updateMid clock mid ts => exact h orderId r hlook htrade

/-- A step keeps the fees in agreement iff the fill it delivers, if any, costs
both the same. -/
theorem SameFees.step_iff (h : desk.SameFees) (hknown : desk.Known) (hlegal : desk.Legal input) :
    (desk.step ledgers markouts rate cfg input).SameFees ↔
      desk.FeesAgree ledgers rate input := by
  cases input with
  | fill clock report =>
      obtain ⟨horder, hpair, trade, htrade, hnew⟩ := hlegal
      obtain ⟨r, hlook⟩ := Option.isSome_iff_exists.mp horder
      have hunseen : report.forExecutor.tradeId?.any (· ∈ r.tradeIds) = false := by
        rw [Option.mem_def.mp htrade, Option.any_some, decide_eq_false_iff_not]
        exact fun hmem => hnew (hknown report.orderId r hlook hmem)
      have hcharged := desk.executor.filled_cumFeesQuote cfg
        (show desk.executor.orders.lookup report.forExecutor.orderId = some r from hlook) hunseen
      rw [SameFees, recordedFees_fill hpair]
      change (desk.executor.processOrderFilledEvent cfg report.forExecutor).cumFeesQuote = _ ↔ _
      rw [hcharged, h, add_right_inj]
      exact Iff.rfl
  | executor op =>
      refine iff_of_true ?_ trivial
      exact (PassiveAggressive.perform_cumFeesQuote cfg desk.executor hlegal.2).trans h
  | updateMid clock mid ts => exact iff_of_true h trivial

variable (slots : List ChildSlot) (observer : FillObserver Ledger Markout)

/-- A new executor on an observed pair. -/
def start : Desk slots.length Ledger Markout :=
  { executor := PassiveAggressive.Executor.init slots
    observer := { observer with ledger := (observer.ledger, 0) } }

theorem start_sameFees : (start slots observer).SameFees := rfl

theorem start_known : (start slots observer).Known := by
  intro orderId r hlook
  simp [start, PassiveAggressive.Executor.init] at hlook

end Desk

open Desk

/-- However fills with distinct trade ids interleave with everything else, the
executor's fees are those the observer recorded, after every fill, iff each
fill's first flat fee is all that the fill costs. -/
theorem fees_agree_iff {Ledger Markout : Type*} (ledgers : PnLLedger Ledger)
    (markouts : MarkoutTracker Markout) (rate : String → ℚ) (cfg : Settings)
    (slots : List ChildSlot) (observer : FillObserver Ledger Markout) (inputs : List DeskInput)
    (hlegal : Along (step ledgers markouts rate cfg) Legal (start slots observer) inputs) :
    (∀ before after, inputs = before ++ after →
        (run (step ledgers markouts rate cfg) (start slots observer) before).SameFees) ↔
      Along (step ledgers markouts rate cfg) (FeesAgree ledgers rate) (start slots observer)
        inputs :=
  Along.iff_throughout_of Known SameFees (fun _ _ hknown hid => hknown.step hid)
    (fun _ _ hknown hsame hid => hsame.step_iff hknown hid) (start_known slots observer)
    (start_sameFees slots observer) hlegal

/-! ## Fees of two kinds -/

/-- One unit bought at 100 for the given fee. -/
def reportWith (fee : TradeFee) : FillReport where
  orderId := "limit"
  exchangeTradeId := some "trade"
  tradingPair := "SOL-PERP"
  timestamp := 1
  tradeType := .buy
  price := 100
  amount := 1
  tradeFee := fee

/-- The fill of the first order costs the given fee. -/
def chargedRun (fee : TradeFee) : List DeskInput :=
  [ .executor (.controlTask { now := 0, bestBid := some 100, orderId := "limit" }),
    .fill 1 (reportWith fee) ]

/-- A single flat fee in the quote token is charged by both. -/
theorem fees_agree_iff_flat :
    (run (step countingLedger idleTracker (fun _ => 1) PassiveAggressive.sampleConfig)
      (start [{ target := 1 }] sampleObserver)
      (chargedRun { flatFees := [⟨"USD", 3 / 100⟩] })).SameFees :=
  (fees_agree_iff countingLedger idleTracker (fun _ => 1) PassiveAggressive.sampleConfig
    [{ target := 1 }] sampleObserver (chargedRun { flatFees := [⟨"USD", 3 / 100⟩] })
    (by decide +kernel)).mpr (by decide +kernel) _ [] (List.append_nil _).symm

/-- A percentage fee of a tenth of a percent goes past the executor. -/
theorem percentage_fee_is_not_charged :
    let desk : Desk 1 ℕ Unit := start [{ target := 1 }] sampleObserver
    let inputs := chargedRun { percent := 1 / 1000 }
    let after := run (step countingLedger idleTracker (fun _ => 1) PassiveAggressive.sampleConfig)
      desk inputs
    Along (step countingLedger idleTracker (fun _ => 1) PassiveAggressive.sampleConfig) Legal desk
        inputs ∧
      after.executor.cumFeesQuote = 0 ∧ after.recordedFees = 1 / 10 ∧ ¬ after.SameFees := by
  refine ⟨by decide +kernel, by decide +kernel, by decide +kernel, ?_⟩
  unfold SameFees
  decide +kernel

end Opms.Analytics
