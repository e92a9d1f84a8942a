import Opms.Foundation.LastWrite
import Mathlib.Algebra.Order.Field.Rat
import Mathlib.Data.Finset.Image

/-! # The portfolio stop book

The legs of one basket share a table with a row for each leg. An update writes
the caller's row and answers from all rows, in one transaction. The reduction
targets of a stop come from the inventory library and are a parameter. A time,
price or size that is not finite is `none`.
-/

namespace Opms.PortfolioStop

open Foundation

structure Leg where
  account : String
  coin : String
  deriving DecidableEq, Repr

/-- The key of the leg's row. -/
def Leg.name (leg : Leg) : String := leg.account ++ ":" ++ leg.coin

/-- What a leg reports. -/
inductive LegMode
  | quote
  | stop
  | emergency
  deriving DecidableEq, Repr

def LegMode.ofString? : String → Option LegMode
  | "quote" => some .quote
  | "stop" => some .stop
  | "emergency" => some .emergency
  | _ => none

/-- What the basket answers. -/
inductive BasketMode
  | quote
  | stop
  | hold
  | emergency
  deriving DecidableEq, Repr

structure Row where
  ts : ℚ
  position : ℚ
  mid : ℚ
  mode : LegMode
  deriving DecidableEq, Repr

/-- The shared table: one row under each member name. -/
abbrev Table := Registry String Row

structure UpdateCall where
  leg : Leg
  position : Option ℚ
  mid : Option ℚ
  mode : String
  now : Option ℚ
  deriving DecidableEq, Repr

/-- The target positions for a dictionary of the legs' positions and mids. -/
abbrev FlatTargets := (Leg → Option (ℚ × ℚ)) → Leg → ℚ

/-- A book over a member set that the constructor accepts. -/
structure PortfolioStopBook (members : Finset Leg) where
  staleS : ℚ
  legs : 2 ≤ members.card
  accounts : 2 ≤ (members.image Leg.account).card
  staleS_pos : 0 < staleS

namespace PortfolioStopBook

variable {members : Finset Leg}

/-- The constructor's checks. -/
def create (path : String) (members : Finset Leg) (staleS : Option ℚ) :
    Except String (PortfolioStopBook members) :=
  if path.toList.head? ≠ some '/' then
    .error "portfolio stop database path must be absolute"
  else if h : members.card < 2 ∨ (members.image Leg.account).card < 2 then
    .error "portfolio stop requires legs from at least two accounts"
  else
    match staleS with
    | none => .error "stale_s must be finite and positive"
    | some staleS =>
        if hstale : staleS ≤ 0 then
          .error "stale_s must be finite and positive"
        else
          .ok {
            staleS
            legs := not_lt.mp fun hlegs => h (.inl hlegs)
            accounts := not_lt.mp fun haccounts => h (.inr haccounts)
            staleS_pos := not_le.mp hstale }

end PortfolioStopBook

/-- The row an update would write, once its arguments are checked. -/
def acceptRow (members : Finset Leg) (call : UpdateCall) : Except String Row :=
  match LegMode.ofString? call.mode with
  | none => .error "unknown portfolio leg or mode"
  | some mode =>
      if call.leg ∉ members then
        .error "unknown portfolio leg or mode"
      else
        match call.position, call.mid.filter (0 < ·) with
        | some position, some mid =>
            match call.now with
            | none => .error "invalid portfolio timestamp"
            | some ts => .ok { ts, position, mid, mode }
        | _, _ => .error "invalid portfolio position or mid"

namespace PortfolioStopBook

variable {members : Finset Leg}

/-- The members' rows that are neither stale nor dated ahead. -/
def fresh (book : PortfolioStopBook members) (table : Table) (now : ℚ) : Table :=
  table.filter fun member row =>
    now - book.staleS ≤ row.ts ∧ row.ts ≤ now + 1 ∧ member ∈ members.image Leg.name

/-- The answer to the leg that has just written `row`. -/
def verdict (usdcFlatTargets : FlatTargets) (book : PortfolioStopBook members) (table : Table)
    (leg : Leg) (row : Row) : BasketMode × ℚ :=
  let fresh := book.fresh table row.ts
  if fresh.entries.any fun entry => entry.2.mode = .emergency then
    (.emergency, 0)
  else if fresh.entries.length ≠ members.card then
    (.hold, row.position)
  else if ¬ fresh.entries.any fun entry => entry.2.mode = .stop then
    (.quote, row.position)
  else
    let legs := fun member =>
      if member ∈ members then
        (fresh.lookup member.name).map fun row => (row.position, row.mid)
      else none
    (.stop, usdcFlatTargets legs leg)

/-- One transaction: the table afterwards and the answer. -/
def update (usdcFlatTargets : FlatTargets) (book : PortfolioStopBook members) (table : Table)
    (call : UpdateCall) : Table × Except String (BasketMode × ℚ) :=
  match acceptRow members call with
  | .error message => (table, .error message)
  | .ok row =>
      let table := table.set call.leg.name row
      (table, .ok (book.verdict usdcFlatTargets table call.leg row))

end PortfolioStopBook

/-- An update through one of the books on the shared table. -/
structure Request (members : Finset Leg) where
  book : PortfolioStopBook members
  call : UpdateCall

namespace Request

variable {members : Finset Leg} (usdcFlatTargets : FlatTargets)

/-- The table after the request. -/
def step (table : Table) (request : Request members) : Table :=
  (request.book.update usdcFlatTargets table request.call).1

/-- The answer to the request. -/
def answer (table : Table) (request : Request members) : Except String (BasketMode × ℚ) :=
  (request.book.update usdcFlatTargets table request.call).2

/-- The answers to a run of requests. -/
def answers (table : Table) (requests : List (Request members)) :
    List (Except String (BasketMode × ℚ)) :=
  emitted (step usdcFlatTargets) (fun table request => [request.answer usdcFlatTargets table])
    table requests

end Request

/-! ## A basket for concrete runs -/

def ethLong : Leg := ⟨"e2_mm1", "ETH"⟩
def solShort : Leg := ⟨"e2_mm1", "SOL"⟩
def ethShort : Leg := ⟨"e2_mm2", "ETH"⟩
def solLong : Leg := ⟨"e2_mm2", "SOL"⟩

def sampleMembers : Finset Leg := {ethLong, solShort, ethShort, solLong}

def sampleBook : PortfolioStopBook sampleMembers where
  staleS := 20
  legs := by decide
  accounts := by decide
  staleS_pos := by decide +kernel

/-- A leg reports its position, its mid and its mode. -/
def report (leg : Leg) (position mid : ℚ) (mode : String) (now : ℚ) : Request sampleMembers where
  book := sampleBook
  call := { leg, position := some position, mid := some mid, mode, now := some now }

/-- The targets of the sample basket: its net long of 100 comes off one leg. -/
def sampleTargets : FlatTargets := fun legs leg =>
  ((legs leg).map fun entry => if leg = ethLong then entry.1 - 100 / entry.2 else entry.1).getD 0

end Opms.PortfolioStop
