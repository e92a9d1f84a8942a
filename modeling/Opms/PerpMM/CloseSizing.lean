import Opms.PerpMM.StopLatch
import Mathlib.Tactic.Linarith

/-! # The size of a close

A close is sized from the inventory its intent carried, not from the position
last fed. The two agree when an intent is accepted, and part as soon as the
position moves under a stop that stays latched.
-/

namespace Opms.PerpMM

open Foundation InProcessClient

/-- The close request is the way from the fed position to the target. -/
def SizedFromPosition (coin : String) (client : InProcessClient) : Prop :=
  ∀ intent ∈ client.lastIntent, ∀ request ∈ intentToExecutionRequest (some intent),
    ∀ position ∈ client.positions.lookup coin,
      request.amount = |intent.targetInventory - position.position| ∧
        (request.side = .buy ↔ position.position < intent.targetInventory)

instance (coin : String) (client : InProcessClient) :
    Decidable (SizedFromPosition coin client) := by
  unfold SizedFromPosition
  infer_instance

/-- Calls on one coin, whose intents carry the position last fed. -/
def CarriesPosition (coin : String) (client : InProcessClient) : ClientCall → Prop
  | .setPositions positions => (positions.lookup coin).isSome
  | .sendIntent intent => intent.coin = coin ∧
      ∃ position ∈ client.positions.lookup coin, intent.currentInventory = some position.position

instance (coin : String) (client : InProcessClient) : DecidablePred (CarriesPosition coin client)
  | .setPositions positions => inferInstanceAs (Decidable ((positions.lookup coin).isSome = true))
  | .sendIntent intent => inferInstanceAs (Decidable (intent.coin = coin ∧
      ∃ position ∈ client.positions.lookup coin, intent.currentInventory = some position.position))

/-- The position moves away from the inventory of a stop that stays latched
with a close still to request. -/
def Drifts (coin : String) (client : InProcessClient) : ClientCall → Prop
  | .setPositions positions => ∃ latched ∈ client.lastIntent,
      ∃ position ∈ positions.lookup coin,
        (intentToExecutionRequest (some latched)).isSome ∧ reached latched position = false ∧
          position.position ≠ latched.current
  | .sendIntent _ => False

instance (coin : String) (client : InProcessClient) : DecidablePred (Drifts coin client)
  | .setPositions positions => inferInstanceAs (Decidable (∃ latched ∈ client.lastIntent,
      ∃ position ∈ positions.lookup coin, _))
  | .sendIntent _ => inferInstanceAs (Decidable False)

/-- The position after a part of a close was executed. -/
def moved (side : TradeType) (position executed : ℚ) : ℚ :=
  match side with
  | .buy => position + executed
  | .sell => position - executed

/-- No execution of the requested close takes the position past the target. -/
def NeverPast (coin : String) (client : InProcessClient) : Prop :=
  ∀ intent ∈ client.lastIntent, ∀ request ∈ intentToExecutionRequest (some intent),
    ∀ position ∈ client.positions.lookup coin, ∀ executed, 0 ≤ executed →
      executed ≤ request.amount →
        0 ≤ (position.position - intent.targetInventory) *
          (moved request.side position.position executed - intent.targetInventory)

/-! ## One request -/

section Request

variable {intent : ExecIntent} {request : ExecutionRequest}

/-- A request exists for a stop with a gap, and works that gap. -/
theorem request_facts (hrequest : intentToExecutionRequest (some intent) = some request) :
    intent.quote = none ∧ flatTolerance ≤ |intent.targetInventory - intent.current| ∧
      request.amount = |intent.targetInventory - intent.current| ∧
      (request.side = .buy ↔ 0 < intent.targetInventory - intent.current) := by
  simp only [intentToExecutionRequest] at hrequest
  split at hrequest
  next => cases hrequest
  next hquote =>
    split at hrequest
    next => cases hrequest
    next hgap =>
      obtain rfl := Option.some.inj hrequest
      refine ⟨by simpa using hquote, not_lt.mp hgap, rfl, ?_⟩
      dsimp only
      split <;> simp_all

/-- A request fits the position exactly when that is the intent's inventory. -/
theorem request_fits_iff (hrequest : intentToExecutionRequest (some intent) = some request)
    (position : ℚ) :
    (request.amount = |intent.targetInventory - position| ∧
      (request.side = .buy ↔ position < intent.targetInventory)) ↔ position = intent.current := by
  obtain ⟨_, hgap, hamount, hside⟩ := request_facts hrequest
  constructor
  · rintro ⟨hsize, hbuy⟩
    rw [hamount] at hsize
    rcases abs_eq_abs.mp hsize with heq | hneg
    · linarith
    · -- the mirrored position has the same distance but the other side
      have hpos := flatTolerance_pos.trans_le hgap
      rw [hbuy] at hside
      rcases abs_pos.mp hpos |>.lt_or_gt with hlt | hgt
      · have hbefore : position < intent.targetInventory := by linarith
        linarith [hside.mp hbefore]
      · have hbefore := hside.mpr hgt
        linarith
  · rintro rfl
    exact ⟨hamount, hside.trans sub_pos⟩

theorem SizedFromPosition.neverPast {coin : String} {client : InProcessClient}
    (h : SizedFromPosition coin client) : NeverPast coin client := by
  intro intent hintent request hrequest position hposition executed hnonneg hle
  obtain ⟨hamount, hside⟩ := h intent hintent request hrequest position hposition
  rw [hamount] at hle
  cases hbuy : request.side with
  | buy =>
      have hlt := hside.mp hbuy
      rw [abs_of_pos (sub_pos.mpr hlt)] at hle
      simp only [moved]
      exact mul_nonneg_of_nonpos_of_nonpos (by linarith) (by linarith)
  | sell =>
      have hge : intent.targetInventory ≤ position.position := by
        rw [← not_lt, ← hside, hbuy]
        simp
      rw [abs_of_nonpos (sub_nonpos.mpr hge)] at hle
      simp only [moved]
      exact mul_nonneg (by linarith) (by linarith)

end Request

/-! ## Runs -/

/-- The last intent, if any, is on the coin. -/
def OnCoin (coin : String) (client : InProcessClient) : Prop :=
  ∀ intent ∈ client.lastIntent, intent.coin = coin

section Runs

variable {coin : String} {client : InProcessClient}

theorem OnCoin.handle {validationErrors : ExecIntent → List String} (h : OnCoin coin client)
    {call : ClientCall} (hcall : CarriesPosition coin client call) :
    OnCoin coin (client.handle validationErrors call) := by
  cases call with
  | setPositions positions =>
      intro intent hintent
      exact h intent (Option.filter_eq_some_iff.mp hintent).1
  | sendIntent sent =>
      rcases handle_sendIntent_cases validationErrors client sent with heq | ⟨_, heq⟩
      · rw [heq]
        exact h
      · rw [heq]
        rintro intent hintent
        obtain rfl := Option.some.inj hintent
        exact hcall.1

/-- Feeding a position keeps a close sized iff the position does not drift. -/
theorem setPositions_sized_iff {positions : Registry String Position} (h : OnCoin coin client)
    (hfed : (positions.lookup coin).isSome) :
    SizedFromPosition coin (client.setPositions positions) ↔
      ¬ Drifts coin client (.setPositions positions) := by
  obtain ⟨position, hposition⟩ := Option.isSome_iff_exists.mp hfed
  constructor
  · rintro hsized ⟨latched, hlatched, position', hposition', hrequest, haway, hmoved⟩
    obtain ⟨request, hrequest⟩ := Option.isSome_iff_exists.mp hrequest
    have hlookup : positions.lookup latched.coin = some position' := by
      rw [h latched hlatched]
      exact hposition'
    have hkept := setPositions_of_apart hlatched hlookup haway
    exact hmoved ((request_fits_iff hrequest position'.position).mp
      (hsized latched hkept request hrequest position' hposition'))
  · intro hsteady intent hintent request hrequest position' hposition'
    obtain ⟨hlatched, hkept⟩ := Option.filter_eq_some_iff.mp hintent
    obtain ⟨hquote, _⟩ := request_facts hrequest
    rw [request_fits_iff hrequest]
    -- a request that stopped fitting is a position that drifted
    by_contra hmoved
    refine hsteady ⟨intent, hlatched, position', hposition', Option.isSome_of_mem hrequest, ?_,
      hmoved⟩
    have hlookup : positions.lookup intent.coin = some position' := by
      rw [h intent hlatched]
      exact hposition'
    simpa [hquote, hlookup] using hkept

/-- An accepted intent is sized from the position it carries. -/
theorem sendIntent_sized {validationErrors : ExecIntent → List String} {intent : ExecIntent}
    (hsized : SizedFromPosition coin client)
    (hcall : CarriesPosition coin client (.sendIntent intent)) :
    SizedFromPosition coin (client.handle validationErrors (.sendIntent intent)) := by
  obtain ⟨_, position, hposition, hcurrent⟩ := hcall
  rcases handle_sendIntent_cases validationErrors client intent with heq | ⟨_, heq⟩
  · rw [heq]
    exact hsized
  · rw [heq]
    intro intent' hintent request hrequest position' hposition'
    obtain rfl := Option.some.inj hintent
    obtain rfl : position = position' := Option.some.inj (hposition.symm.trans hposition')
    rw [request_fits_iff hrequest]
    simp [ExecIntent.current, hcurrent]

theorem handle_sized_iff {validationErrors : ExecIntent → List String} {call : ClientCall}
    (hcoin : OnCoin coin client) (hsized : SizedFromPosition coin client)
    (hcall : CarriesPosition coin client call) :
    SizedFromPosition coin (client.handle validationErrors call) ↔
      ¬ Drifts coin client call := by
  cases call with
  | setPositions positions => exact setPositions_sized_iff hcoin hcall
  | sendIntent intent => exact iff_of_true (sendIntent_sized hsized hcall) not_false

theorem sized_iff_from {validationErrors : ExecIntent → List String} {calls : List ClientCall}
    (hcoin : OnCoin coin client) (hsized : SizedFromPosition coin client)
    (hcalls : Along (handle validationErrors) (CarriesPosition coin) client calls) :
    Along (handle validationErrors)
        (fun s call => SizedFromPosition coin (s.handle validationErrors call)) client calls ↔
      Along (handle validationErrors) (fun s call => ¬ Drifts coin s call) client calls := by
  refine Along.congr_of_invariant (fun s => OnCoin coin s ∧ SizedFromPosition coin s)
    (fun s call hs hcall => handle_sized_iff hs.1 hs.2 hcall) ?_ ⟨hcoin, hsized⟩ hcalls
  intro s call hs hcall hnext
  exact ⟨hs.1.handle hcall, hnext⟩

end Runs

/-- From a fresh client, every close is sized from the position last fed iff
the position never drifts under a latched stop; then no execution of a close
takes the position past its target. -/
theorem close_sized_iff (validationErrors : ExecIntent → List String) (coin : String)
    (calls : List ClientCall)
    (hcalls : Along (handle validationErrors) (CarriesPosition coin) {} calls) :
    (Along (handle validationErrors)
        (fun s call => SizedFromPosition coin (s.handle validationErrors call)) {} calls ↔
      Along (handle validationErrors) (fun s call => ¬ Drifts coin s call) {} calls) ∧
    (Along (handle validationErrors) (fun s call => ¬ Drifts coin s call) {} calls →
      Along (handle validationErrors)
        (fun s call => NeverPast coin (s.handle validationErrors call)) {} calls) := by
  have hcoin : OnCoin coin {} := fun _ h => by cases h
  have hsized : SizedFromPosition coin {} := fun _ h => by cases h
  have hiff := sized_iff_from hcoin hsized hcalls
  exact ⟨hiff, fun hsteady => (hiff.mpr hsteady).mono fun _ _ h => h.neverPast⟩

/-- A stop is sent, then a quoting intent is refused and the position stays. -/
theorem close_sized_iff_steadyPosition :
    let stop : ExecIntent :=
      { coin := "ETH", targetInventory := 1 / 10, currentInventory := some (1 / 2),
        urgency := .immediate }
    let quote : ExecIntent :=
      { coin := "ETH", targetInventory := 1 / 10, currentInventory := some (1 / 2),
        quote := some {} }
    Along (handle fun _ => [])
      (fun s call => SizedFromPosition "ETH" (s.handle (fun _ => []) call)) {}
      [.setPositions (fed "ETH" (1 / 2)), .sendIntent stop, .sendIntent quote,
        .setPositions (fed "ETH" (1 / 2))] := by
  intro stop quote
  exact (close_sized_iff (fun _ => []) "ETH"
    [.setPositions (fed "ETH" (1 / 2)), .sendIntent stop, .sendIntent quote,
      .setPositions (fed "ETH" (1 / 2))] (by decide +kernel)).1.mpr (by decide +kernel)

/-- A partial fill under a latched stop: the request stays at 0.4 with 0.2 to go. -/
theorem stale_inventory_oversizes_close :
    let stop : ExecIntent :=
      { coin := "ETH", targetInventory := 1 / 10, currentInventory := some (1 / 2),
        urgency := .immediate }
    let calls : List ClientCall :=
      [.setPositions (fed "ETH" (1 / 2)), .sendIntent stop, .setPositions (fed "ETH" (3 / 10))]
    Along (handle fun _ => []) (CarriesPosition "ETH") {} calls ∧
      (intentToExecutionRequest (run (handle fun _ => []) {} calls).lastIntent).map
        ExecutionRequest.amount = some (2 / 5) ∧
      ¬ Along (handle fun _ => [])
        (fun s call => SizedFromPosition "ETH" (s.handle (fun _ => []) call)) {} calls := by
  decide +kernel

end Opms.PerpMM
