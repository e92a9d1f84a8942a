import Opms.Analytics.FillObserver
import Mathlib.Tactic.Linarith

/-! # The position a decision is made on

For thirty seconds after a fill the controller trusts the fill ledger over the
venue. A fill that the ledger rejects starts that window as well, although the
ledger missed it.
-/

namespace Opms.PerpMM

open Foundation Opms.Analytics Opms.Analytics.FillObserver

variable {Ledger Markout : Type*} (ledgers : PnLLedger Ledger) (markouts : MarkoutTracker Markout)

/-- The ledger's position shortly after a fill, else the venue's. -/
def positionForDecision (observer : FillObserver Ledger Markout) (now venue : ℚ) : ℚ :=
  match observer.lastFillTs with
  | none => venue
  | some lastFill => if now - lastFill > 30 then venue else ledgers.position observer.ledger

/-- A rejected fill event leaves every field as it was. -/
def KeepsFields (observer : FillObserver Ledger Markout) (input : Input) : Prop :=
  Rejects ledgers observer input → observer.step ledgers markouts input = observer

/-- After a rejected fill event, whatever comes later, every decision from then
on is made on the position it would have been made on without the event. -/
def KeepsPosition (observer : FillObserver Ledger Markout) : Input → Prop
  | .updateMid _ _ _ => True
  | .fillEvent clock event => Rejects ledgers observer (.fillEvent clock event) →
      ∀ (later : List Input) (now venue : ℚ), clock ≤ now →
        positionForDecision ledgers (run (step ledgers markouts)
          (observer.step ledgers markouts (.fillEvent clock event)) later) now venue =
        positionForDecision ledgers (run (step ledgers markouts) observer later) now venue

/-- A rejected fill event arrives at the very clock value of the fill event
before it. -/
def RejectsAtLastReceipt (observer : FillObserver Ledger Markout) : Input → Prop
  | .updateMid _ _ _ => True
  | .fillEvent clock event => Rejects ledgers observer (.fillEvent clock event) →
      observer.lastFillTs = some clock

theorem keepsFields_iff (observer : FillObserver Ledger Markout) (input : Input) :
    KeepsFields ledgers markouts observer input ↔
      RejectsAtLastReceipt ledgers observer input := by
  cases input with
  | updateMid clock mid ts => exact iff_of_true (fun hrejects => hrejects.elim) trivial
  | fillEvent clock event =>
      refine forall_congr' fun hrejects => ?_
      rw [step_of_rejects ledgers markouts hrejects]
      constructor
      · intro hsame
        rw [← hsame]
      · intro hlast
        rw [← hlast]

/-- Two receipt times give the same decisions only if they are the same. -/
theorem positionForDecision_receipt_iff (observer : FillObserver Ledger Markout) (clock : ℚ) :
    (∀ now venue, clock ≤ now →
      positionForDecision ledgers { observer with lastFillTs := some clock } now venue =
        positionForDecision ledgers observer now venue) ↔ observer.lastFillTs = some clock := by
  constructor
  · intro hsame
    -- a venue reading that differs from the ledger tells which one was trusted
    have hdiffer : ledgers.position observer.ledger ≠ ledgers.position observer.ledger + 1 := by
      linarith
    cases hlast : observer.lastFillTs with
    | none =>
        have h := hsame clock (ledgers.position observer.ledger + 1) le_rfl
        simp [positionForDecision, hlast] at h
    | some last =>
        rcases lt_trichotomy last clock with hbefore | heq | hafter
        · have h := hsame (clock + 30) (ledgers.position observer.ledger + 1) (by linarith)
          have hexpired : clock + 30 - last > 30 := by linarith
          simp [positionForDecision, hlast, hexpired] at h
        · rw [heq]
        · have h := hsame (last + 30) (ledgers.position observer.ledger + 1) (by linarith)
          have hexpired : last + 30 - clock > 30 := by linarith
          simp [positionForDecision, hlast, hexpired] at h
  · intro hlast now venue _
    rw [← hlast]

theorem keepsPosition_iff (observer : FillObserver Ledger Markout) (input : Input) :
    KeepsPosition ledgers markouts observer input ↔
      RejectsAtLastReceipt ledgers observer input := by
  cases input with
  | updateMid clock mid ts => exact Iff.rfl
  | fillEvent clock event =>
      refine forall_congr' fun hrejects => ?_
      rw [step_of_rejects ledgers markouts hrejects]
      constructor
      · intro hsame
        refine (positionForDecision_receipt_iff ledgers observer clock).mp fun now venue hnow => ?_
        exact hsame [] now venue hnow
      · intro hlast later now venue _
        rw [← hlast]

/-- In a run of mids and fills, rejected fills leave every field alone, and
every later decision, exactly when each of them arrives at the clock value of
the fill before it. -/
theorem rejected_fills_traceless_iff (observer : FillObserver Ledger Markout)
    (inputs : List Input) :
    (Along (step ledgers markouts) (KeepsFields ledgers markouts) observer inputs ↔
        Along (step ledgers markouts) (RejectsAtLastReceipt ledgers) observer inputs) ∧
      (Along (step ledgers markouts) (KeepsPosition ledgers markouts) observer inputs ↔
        Along (step ledgers markouts) (RejectsAtLastReceipt ledgers) observer inputs) :=
  ⟨Along.congr (keepsFields_iff ledgers markouts), Along.congr (keepsPosition_iff ledgers markouts)⟩

/-! ## A rejected fill -/

/-- A ledger of signed sizes that rejects fills without a positive price and size. -/
def sampleLedger : PnLLedger ℚ where
  onFill position fill :=
    match fill.price.filter (0 < ·), fill.size.filter (0 < ·) with
    | some _, some size => .ok (position + if fill.side = .buy then size else -size)
    | _, _ => .error "malformed fill"
  position := id

/-- A markout tracker that keeps nothing. -/
def sampleMarkout : MarkoutTracker Unit where
  onMid _ _ _ := ()
  onFill _ _ _ _ _ := ()

/-- A fill of one unit reported with price zero. -/
def malformedFill : FillEvent where
  tradingPair := "SOL-PERP"
  orderId := some "oid-1"
  timestamp := 100
  tradeType := .buy
  price := some 0
  amount := some 1
  feeInQuoteToken := some (some 0)

/-- The venue holds one unit and the ledger none. The rejected fill makes the
controller decide on the ledger's position. -/
theorem rejected_fill_overrides_venue :
    let observer : FillObserver ℚ Unit := { symbol := "SOL-PERP", ledger := 0, markout := () }
    let after := observer.step sampleLedger sampleMarkout (.fillEvent 100 malformedFill)
    Rejects sampleLedger observer (.fillEvent 100 malformedFill) ∧
      (observer.lastFillTs = none ∧ after.lastFillTs = some 100) ∧
      positionForDecision sampleLedger observer 110 1 = 1 ∧
      positionForDecision sampleLedger after 110 1 = 0 := by
  refine ⟨⟨rfl, "malformed fill", by decide +kernel⟩, by decide +kernel, by decide +kernel,
    by decide +kernel⟩

end Opms.PerpMM
