import Opms.Foundation.Run
import Opms.Hummingbot

/-! # The fill observer

Mid prices and fill events of one symbol feed a ledger and a markout tracker,
which belong to the analytics library and are parameters. A ledger rejects a
malformed fill and then keeps its state. A float that is not a number is `none`.
-/

namespace Opms.Analytics

open Foundation

/-- A price or size read as a float. -/
abbrev Reading := Option ℚ

/-- The fields of an order-filled event that the observer reads; a fee whose
conversion raises is `none`. -/
structure FillEvent where
  tradingPair : String
  orderId : Option OrderId
  timestamp : ℚ
  tradeType : TradeType
  price : Reading
  amount : Reading
  feeInQuoteToken : Option Reading
  deriving DecidableEq, Repr

/-- What the ledger is given. -/
structure Fill where
  ts : ℚ
  side : TradeType
  price : Reading
  size : Reading
  fee : Reading
  midAtFill : Option Reading
  label : String
  deriving DecidableEq, Repr

/-- The fill that an event makes with a mid. -/
def FillEvent.fill (event : FillEvent) (midAtFill : Option Reading) : Fill where
  ts := event.timestamp
  side := event.tradeType
  price := event.price
  size := event.amount
  fee := event.feeInQuoteToken.getD (some 0)
  midAtFill := midAtFill
  label := match event.orderId.filter (· ≠ "") with
    | some orderId => "order_" ++ String.ofList (orderId.toList.take 8)
    | none => ""

/-- The ledger's interface. -/
structure PnLLedger (Ledger : Type*) where
  onFill : Ledger → Fill → Except String Ledger
  position : Ledger → ℚ

/-- The markout tracker's interface. -/
structure MarkoutTracker (Markout : Type*) where
  onMid : Markout → ℚ → Reading → Markout
  onFill : Markout → ℚ → TradeType → Reading → Reading → Markout

def midBufferMaxlen : ℕ := 4096

structure FillObserver (Ledger Markout : Type*) where
  symbol : String
  ledger : Ledger
  markout : Markout
  slippageBps : List Reading := []
  lastMid : Option Reading := none
  /-- Observed mids with their times, oldest first. -/
  midBuffer : List (ℚ × Reading) := []
  lastFillTs : Option ℚ := none

/-- A mid price or a fill event, with the clock when it arrives. -/
inductive Input
  | updateMid (clock : ℚ) (mid : Reading) (ts : Option ℚ)
  | fillEvent (clock : ℚ) (event : FillEvent)

namespace FillObserver

variable {Ledger Markout : Type*} (ledgers : PnLLedger Ledger) (markouts : MarkoutTracker Markout)

/-- A bounded deque drops its oldest entries. -/
def pushMid (buffer : List (ℚ × Reading)) (entry : ℚ × Reading) : List (ℚ × Reading) :=
  (buffer ++ [entry]).drop ((buffer ++ [entry]).length - midBufferMaxlen)

def updateMid (observer : FillObserver Ledger Markout) (clock : ℚ) (mid : Reading)
    (ts : Option ℚ) : FillObserver Ledger Markout :=
  let ts := ts.getD clock
  { observer with
    lastMid := some mid
    midBuffer := pushMid observer.midBuffer (ts, mid)
    markout := markouts.onMid observer.markout ts mid }

/-- The latest mid observed by the event's own time, or the last one. -/
def midAt (observer : FillObserver Ledger Markout) (ts : ℚ) : Option Reading :=
  match observer.midBuffer.reverse.find? fun entry => entry.1 ≤ ts with
  | some entry => some entry.2
  | none => observer.lastMid

/-- The fill a ledger is given for the event. -/
def fillOf (observer : FillObserver Ledger Markout) (event : FillEvent) : Fill :=
  event.fill (observer.midAt event.timestamp)

/-- Signed distance of the fill from the mid, in basis points. -/
def slippage (side : TradeType) (price : Reading) (mid : ℚ) : Reading :=
  let sign : ℚ := if side = .buy then 1 else -1
  price.map fun price => sign * (price - mid) / mid * 10000

def onFillEvent (observer : FillObserver Ledger Markout) (clock : ℚ) (event : FillEvent) :
    FillObserver Ledger Markout :=
  if event.tradingPair ≠ observer.symbol then
    observer
  else
    -- the receipt time is noted before the ledger has accepted the fill
    let observer := { observer with lastFillTs := some clock }
    let fill := observer.fillOf event
    match ledgers.onFill observer.ledger fill with
    | .error _ => observer
    | .ok ledger =>
        { observer with
          ledger
          markout := markouts.onFill observer.markout fill.ts fill.side fill.price fill.size
          slippageBps := match fill.midAtFill.join.filter (0 < ·) with
            | some mid => observer.slippageBps ++ [slippage fill.side fill.price mid]
            | none => observer.slippageBps }

def step (observer : FillObserver Ledger Markout) : Input → FillObserver Ledger Markout
  | .updateMid clock mid ts => observer.updateMid markouts clock mid ts
  | .fillEvent clock event => observer.onFillEvent ledgers markouts clock event

/-- The input is a fill event of the symbol that the ledger rejects. -/
def Rejects (observer : FillObserver Ledger Markout) : Input → Prop
  | .updateMid _ _ _ => False
  | .fillEvent _ event => event.tradingPair = observer.symbol ∧
      ∃ message, ledgers.onFill observer.ledger (observer.fillOf event) = .error message

/-- A rejected fill leaves nothing but its receipt time. -/
theorem step_of_rejects {observer : FillObserver Ledger Markout} {clock : ℚ} {event : FillEvent}
    (hrejects : Rejects ledgers observer (.fillEvent clock event)) :
    observer.step ledgers markouts (.fillEvent clock event) =
      { observer with lastFillTs := some clock } := by
  obtain ⟨hsymbol, message, hrejected⟩ := hrejects
  have hfill : ({ observer with lastFillTs := some clock }).fillOf event =
      observer.fillOf event := rfl
  simp only [step, onFillEvent, hsymbol, ne_eq, not_true_eq_false, if_false, hfill, hrejected]

variable {observer : FillObserver Ledger Markout}

/-- An accepted fill is booked, with the slippage from its mid if that is positive. -/
theorem onFillEvent_accepted (clock : ℚ) {event : FillEvent} {ledger : Ledger}
    (hsymbol : event.tradingPair = observer.symbol)
    (haccepted : ledgers.onFill observer.ledger (observer.fillOf event) = .ok ledger) :
    (observer.onFillEvent ledgers markouts clock event).ledger = ledger ∧
      (observer.onFillEvent ledgers markouts clock event).slippageBps = observer.slippageBps ++
        (((observer.midAt event.timestamp).join.filter (0 < ·)).map
          (slippage event.tradeType event.price)).toList := by
  have hfill : ({ observer with lastFillTs := some clock }).fillOf event =
      observer.fillOf event := rfl
  have hmid : (observer.fillOf event).midAtFill = observer.midAt event.timestamp := rfl
  simp only [onFillEvent, hsymbol, ne_eq, not_true_eq_false, if_false, hfill, haccepted, hmid,
    true_and]
  cases (observer.midAt event.timestamp).join.filter (0 < ·) with
  | some mid => rfl
  | none => exact (List.append_nil _).symm

/-- A fill of another pair, or one that is rejected, is not booked. -/
theorem onFillEvent_dropped (clock : ℚ) {event : FillEvent}
    (hdropped : event.tradingPair ≠ observer.symbol ∨
      ∃ message, ledgers.onFill observer.ledger (observer.fillOf event) = .error message) :
    (observer.onFillEvent ledgers markouts clock event).ledger = observer.ledger ∧
      (observer.onFillEvent ledgers markouts clock event).slippageBps = observer.slippageBps := by
  by_cases hsymbol : event.tradingPair = observer.symbol
  · have hrejects : Rejects ledgers observer (.fillEvent clock event) :=
      ⟨hsymbol, hdropped.resolve_left (not_not.mpr hsymbol)⟩
    have hstep := step_of_rejects ledgers markouts hrejects
    rw [step] at hstep
    rw [hstep]
    exact ⟨rfl, rfl⟩
  · rw [onFillEvent, if_pos hsymbol]
    exact ⟨rfl, rfl⟩

end FillObserver

/-- A ledger that counts the fills it is given. -/
def countingLedger : PnLLedger ℕ := ⟨fun count _ => .ok (count + 1), fun _ => 0⟩

/-- A tracker that keeps nothing. -/
def idleTracker : MarkoutTracker Unit := ⟨fun _ _ _ => (), fun _ _ _ _ _ => ()⟩

def sampleObserver : FillObserver ℕ Unit := { symbol := "SOL-PERP", ledger := 0, markout := () }

end Opms.Analytics
