import Opms.Foundation.Registry
import Opms.Foundation.Run
import Opms.Hummingbot

/-! # The bridge between the keeper and the controller

The keeper decides; the in-process client holds its last intent and the last
positions; pure functions turn the intent into a close request or into quote
legs. `validation_errors` belongs to the intent contract and is a parameter.
-/

namespace Opms.PerpMM

open Foundation

/-- How an intent is to be worked; the last case is any other label. -/
inductive Urgency
  | passive
  | normal
  | immediate
  | emergency
  | other (label : String)
  deriving DecidableEq

structure QuoteSpec where
  bidPrice : Option ℚ := none
  askPrice : Option ℚ := none
  bidSize : ℚ := 0
  askSize : ℚ := 0
  deriving DecidableEq

structure ExecIntent where
  coin : String
  targetInventory : ℚ
  currentInventory : Option ℚ := none
  quote : Option QuoteSpec := none
  urgency : Urgency := .normal
  deriving DecidableEq

structure Position where
  position : ℚ
  deriving DecidableEq

/-- A quote leg derived from the last intent. -/
structure OrderSpec where
  side : Option TradeType := none
  price : Option ℚ := none
  amount : ℚ := 0
  reduceOnly : Bool := false
  urgency : Urgency := .normal
  deriving DecidableEq

/-- Routing request for the non-quoting execution path. -/
structure ExecutionRequest where
  side : TradeType
  amount : ℚ
  urgency : Urgency
  reduceOnly : Bool := true
  deriving DecidableEq

/-- Quantities closer than this are equal. -/
def flatTolerance : ℚ := 1 / 10 ^ 12

theorem flatTolerance_pos : 0 < flatTolerance := by
  norm_num [flatTolerance]

/-! ## Reading an intent -/

def intentIsQuoting (intent : Option ExecIntent) : Bool :=
  intent.any fun intent => intent.quote.isSome

/-- `intent.current_inventory or 0.0`. -/
def ExecIntent.current (intent : ExecIntent) : ℚ := intent.currentInventory.getD 0

def intentToExecutionRequest (intent : Option ExecIntent) : Option ExecutionRequest :=
  match intent with
  | none => none
  | some intent =>
      if intent.quote.isSome then
        none
      else
        let gap := intent.targetInventory - intent.current
        if |gap| < flatTolerance then
          none
        else
          some {
            side := if gap > 0 then .buy else .sell
            amount := |gap|
            urgency := intent.urgency
            reduceOnly := true }

/-- The legs of a quoting intent; other intents have none. -/
def intentToOrderSpecs (intent : Option ExecIntent) : List OrderSpec :=
  match intent with
  | none => []
  | some intent =>
      match intent.quote with
      | none => []
      | some quote =>
          (if quote.bidPrice.isSome ∧ quote.bidSize > 0 then
            [{ side := some .buy, price := quote.bidPrice, amount := quote.bidSize,
               reduceOnly := intent.current < 0, urgency := intent.urgency }]
          else []) ++
          (if quote.askPrice.isSome ∧ quote.askSize > 0 then
            [{ side := some .sell, price := quote.askPrice, amount := quote.askSize,
               reduceOnly := intent.current > 0, urgency := intent.urgency }]
          else [])

/-! ## The in-process client -/

structure InProcessClient where
  positions : Registry String Position := Registry.empty
  lastIntent : Option ExecIntent := none

namespace InProcessClient

/-- The position last fed for the intent's coin. -/
def positionOf (client : InProcessClient) (intent : ExecIntent) : Option Position :=
  client.positions.lookup intent.coin

/-- The fed position has reached the intent's target. -/
def reached (intent : ExecIntent) (position : Position) : Bool :=
  |position.position - intent.targetInventory| < flatTolerance

def setPositions (client : InProcessClient) (positions : Registry String Position) :
    InProcessClient where
  positions := positions
  lastIntent := client.lastIntent.filter fun intent =>
    ¬ (intent.quote = none ∧ (positions.lookup intent.coin).any (reached intent))

/-- Rank of an urgency when a newer intent meets a latched one. -/
def priority : Urgency → ℕ
  | .immediate => 1
  | .emergency => 2
  | _ => 0

/-- A latched stop that `intent` may not replace. -/
def refuses (client : InProcessClient) (intent : ExecIntent) : Bool :=
  client.lastIntent.any fun current =>
    current.quote = none ∧
      (client.positionOf current).any (fun position => !reached current position) ∧
      (intent.quote.isSome ∨ priority intent.urgency < priority current.urgency)

def sendIntent (validationErrors : ExecIntent → List String) (client : InProcessClient)
    (intent : ExecIntent) : Except (List String) InProcessClient :=
  if validationErrors intent ≠ [] then
    .error (validationErrors intent)
  else if client.refuses intent then
    .ok client
  else
    .ok { client with lastIntent := some intent }

end InProcessClient

/-! ## Calls and runs -/

inductive ClientCall
  | setPositions (positions : Registry String Position)
  | sendIntent (intent : ExecIntent)

/-- A refused intent raises and leaves the client as it was. -/
def InProcessClient.handle (validationErrors : ExecIntent → List String)
    (client : InProcessClient) : ClientCall → InProcessClient
  | .setPositions positions => client.setPositions positions
  | .sendIntent intent =>
      match client.sendIntent validationErrors intent with
      | .ok next => next
      | .error _ => client

/-- One coin's position as the controller feeds it. -/
def fed (coin : String) (position : ℚ) : Registry String Position :=
  Registry.empty.set coin ⟨position⟩

end Opms.PerpMM
