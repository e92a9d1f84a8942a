import Opms.Foundation.Registry
import Opms.Hummingbot
import Mathlib.Algebra.Order.Floor.Ring
import Mathlib.Data.Rat.Floor
import Mathlib.Data.Finset.Insert

/-! # State of the passive-aggressive executor

The child slots are indexed by their position, so a record's reference to its
child is always valid. Calls that leave the executor (`place_order`,
`strategy.cancel`) are kept as logs, oldest first.
-/

namespace Opms.PassiveAggressive

open Foundation

structure PassiveAggressiveExecutorConfig where
  timestamp : ℚ := 0
  connectorName : String
  tradingPair : String
  side : TradeType
  totalAmountBase : ℚ
  childOrderQuantity : ℚ
  childOrderTimeLimit : ℚ := 60
  childOrderRefreshTime : ℚ := 20
  leverage : ℤ := 1
  positionAction : PositionAction := .open
  deriving DecidableEq, Repr

/-- The executor's configuration with its constructor's `max_retries`. -/
structure Settings extends PassiveAggressiveExecutorConfig where
  maxRetries : ℕ := 10

inductive ChildStatus
  | idle
  | active
  | canceling
  | aggressive
  | done
  | skipped
  deriving DecidableEq, Repr

/-- `_TERMINAL_STATUSES`. -/
def ChildStatus.isTerminal : ChildStatus → Bool
  | .done | .skipped => true
  | _ => false

/-- Reason for the last cancel request; `none` is the initial empty string. -/
inductive CancelReason
  | none
  | refresh
  | cycleExpired
  deriving DecidableEq, Repr

structure ChildSlot where
  target : ℚ
  status : ChildStatus := .idle
  trackedOrder : Option OrderId := none
  filled : ℚ := 0
  cycleStart : Option ℚ := none
  refreshStart : Option ℚ := none
  retryAt : Option ℚ := none
  cancelReason : CancelReason := .none
  deriving DecidableEq, Repr

/-- One submitted order, kept until the executor ends. -/
structure OrderRecord (n : ℕ) where
  child : Fin n
  amount : ℚ
  fillSum : ℚ := 0
  reported : ℚ := 0
  credited : ℚ := 0
  tradeIds : Finset String := ∅
  terminal : Bool := false

/-- One `place_order` call, with the child it was made for and when. -/
structure PlacedOrder (n : ℕ) where
  orderId : OrderId
  orderType : OrderType
  side : TradeType
  amount : ℚ
  price : Option ℚ
  positionAction : PositionAction
  child : Fin n
  placedAt : ℚ

/-- The executor with `n` child slots. -/
structure Executor (n : ℕ) where
  children : Fin n → ChildSlot
  childIdx : ℕ := 0
  cumulativeFilled : ℚ := 0
  cumFeesQuote : ℚ := 0
  orders : Registry OrderId (OrderRecord n) := Registry.empty
  lastCancelSweep : Option ℚ := none
  status : RunnableStatus := .running
  closeType : Option CloseType := none
  closeTimestamp : Option ℚ := none
  currentRetries : ℕ := 0
  placed : List (PlacedOrder n) := []
  cancelRequests : List OrderId := []

/-- What a call into the executor reads from outside: the strategy's clock, the
top of the book, and the id `place_order` would return. -/
structure Call where
  now : ℚ
  bestBid : Option ℚ := none
  bestAsk : Option ℚ := none
  orderId : OrderId

/-! ## Child slots -/

def maxChildren : ℤ := 200

/-- Decimal `//`, which truncates toward zero. -/
def decimalFloorDiv (q d : ℚ) : ℤ :=
  if 0 ≤ q / d then ⌊q / d⌋ else ⌈q / d⌉

/-- Fold the remainder into the last slot, or make it the only one. -/
def foldRemainder (slots : List ChildSlot) (remainder : ℚ) : List ChildSlot :=
  match slots.getLast? with
  | some last => slots.dropLast ++ [{ last with target := last.target + remainder }]
  | none => [{ target := remainder }]

def buildChildSlots (cfg : Settings) : Except String (List ChildSlot) :=
  let q := cfg.totalAmountBase
  let childQ := cfg.childOrderQuantity
  if childQ ≤ 0 then
    .error "child_order_quantity must be positive"
  else
    let count := decimalFloorDiv q childQ
    if count > maxChildren then
      .error s!"{count} children exceeds MAX_CHILDREN={maxChildren}; check child_order_quantity"
    else
      let remainder := q - count * childQ
      let slots := List.replicate count.toNat { target := childQ }
      .ok (if remainder > 0 then foldRemainder slots remainder else slots)

theorem mem_foldRemainder {slots : List ChildSlot} {remainder : ℚ} {slot : ChildSlot}
    (hslot : slot ∈ foldRemainder slots remainder) :
    slot ∈ slots ∨ slot = { target := remainder } ∨
      ∃ last ∈ slots, slot = { last with target := last.target + remainder } := by
  unfold foldRemainder at hslot
  split at hslot
  next last hlast =>
    rw [List.mem_append, List.mem_singleton] at hslot
    rcases hslot with hmem | rfl
    · exact .inl (List.mem_of_mem_dropLast hmem)
    · exact .inr (.inr ⟨last, List.mem_of_getLast? hlast, rfl⟩)
  next => exact .inr (.inl (List.mem_singleton.mp hslot))

/-- Every slot is built fresh, with a positive target. -/
theorem buildChildSlots_fresh {cfg : Settings} {slots : List ChildSlot}
    (hslots : buildChildSlots cfg = .ok slots) {slot : ChildSlot} (hslot : slot ∈ slots) :
    slot = { target := slot.target } ∧ 0 < slot.target := by
  unfold buildChildSlots at hslots
  dsimp only at hslots
  split at hslots
  next => cases hslots
  next hchild =>
    split at hslots
    next => cases hslots
    next =>
      have hpos : 0 < cfg.childOrderQuantity := not_le.mp hchild
      have hfull : ∀ slot ∈ List.replicate
          (decimalFloorDiv cfg.totalAmountBase cfg.childOrderQuantity).toNat
          ({ target := cfg.childOrderQuantity } : ChildSlot),
          slot = { target := cfg.childOrderQuantity } := fun slot h =>
        List.eq_of_mem_replicate h
      obtain rfl := Except.ok.inj hslots
      split at hslot
      next hremainder =>
        rcases mem_foldRemainder hslot with hmem | rfl | ⟨last, hlast, rfl⟩
        · rw [hfull slot hmem]
          exact ⟨rfl, hpos⟩
        · exact ⟨rfl, hremainder⟩
        · rw [hfull last hlast]
          exact ⟨rfl, add_pos hpos hremainder⟩
      next =>
        rw [hfull slot hslot]
        exact ⟨rfl, hpos⟩

/-- The executor right after construction, once running. -/
def Executor.init (slots : List ChildSlot) : Executor slots.length where
  children := slots.get

namespace Executor

variable {n : ℕ}

def modifyChild (s : Executor n) (c : Fin n) (change : ChildSlot → ChildSlot) : Executor n :=
  { s with children := Function.update s.children c (change (s.children c)) }

/-- Base quantity still working in orders without a terminal event. -/
def outstanding (s : Executor n) : ℚ :=
  s.orders.total fun _ r => if r.terminal then 0 else max (r.amount - r.credited) 0

/-- What may still be submitted for a child: credited fills plus every
unsettled order must stay within both the child's target and the total. -/
def room (cfg : Settings) (s : Executor n) (c : Fin n) : ℚ :=
  min ((s.children c).target - (s.children c).filled)
    (cfg.totalAmountBase - s.cumulativeFilled) - s.outstanding

def activeChild (s : Executor n) : Option (Fin n) :=
  if h : s.childIdx < n then some ⟨s.childIdx, h⟩ else none

/-- Lifecycle transitions belong to the child's current order only. -/
def isActive (s : Executor n) (r : OrderRecord n) (orderId : OrderId) : Bool :=
  (s.children r.child).trackedOrder = some orderId

end Executor

end Opms.PassiveAggressive
