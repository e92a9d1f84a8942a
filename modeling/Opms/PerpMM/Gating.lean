import Opms.Foundation.Run
import Opms.PerpMM.Branches

/-! # No quote while quoting is unsafe

The refresh branch creates quotes without asking the circuit. It is safe
because a pending refresh was started under a closed circuit, and every trip
clears it.
-/

namespace Opms.PerpMM

open Foundation PerpMMController

/-- The circuit is closed while a refresh is pending. The second field keeps
the watchdog's reset value 0 in the past. -/
structure Settled (c : PerpMMController) (now : ℚ) : Prop where
  pending : c.quoteRefreshPending = true → c.quoteLiveness.openUntil ≤ now
  nonzero : c.quoteLiveness.openUntil ≠ 0 → 0 ≤ now

namespace Settled

variable {cfg : PerpMMControllerConfig} {quoteRefreshReason : RefreshQuery → Option String}
  {c : PerpMMController} {cycle : Cycle} {last now : ℚ}

theorem init (cfg : PerpMMControllerConfig) (now : ℚ) : Settled (.init cfg) now :=
  ⟨fun h => (by cases h), fun h => absurd rfl h⟩

theorem later (h : Settled c last) (hle : last ≤ now) : Settled c now :=
  ⟨fun hpending => (h.pending hpending).trans hle, fun hopen => (h.nonzero hopen).trans hle⟩

/-- Where quotes are allowed, time has passed the reset value. -/
theorem nonneg (h : Settled c now) (hclosed : c.quoteLiveness.openUntil ≤ now) : 0 ≤ now := by
  by_cases hzero : c.quoteLiveness.openUntil = 0
  · exact hzero ▸ hclosed
  · exact h.nonzero hzero

/-- Changes that keep the circuit and start no refresh. -/
theorem of_same {c' : PerpMMController} (h : Settled c now)
    (hopen : c'.quoteLiveness.openUntil = c.quoteLiveness.openUntil)
    (hpending : c'.quoteRefreshPending = true → c.quoteRefreshPending = true) : Settled c' now :=
  ⟨fun h' => hopen ▸ h.pending (hpending h'), fun h' => h.nonzero (hopen ▸ h')⟩

/-- A refresh is started only under a closed circuit. -/
theorem of_closed {c' : PerpMMController} (h : Settled c now)
    (hopen : c'.quoteLiveness.openUntil = c.quoteLiveness.openUntil)
    (hclosed : c.quoteLiveness.openUntil ≤ now) : Settled c' now :=
  ⟨fun _ => hopen ▸ hclosed, fun h' => h.nonzero (hopen ▸ h')⟩

/-- A cancel timeout opens the circuit and clears the refresh. -/
theorem cancelTimedOut (h : Settled c cycle.now) (hpending : c.quoteRefreshPending = true)
    (expected live : Finset TradeType) :
    Settled (c.cancelTimedOut cfg cycle expected live).1 cycle.now := by
  unfold PerpMMController.cancelTimedOut
  split
  next => exact h
  next => exact ⟨fun h' => (by cases h'), fun _ => h.nonneg (h.pending hpending)⟩

theorem startStaleCancel (h : Settled c cycle.now) :
    Settled (c.startStaleCancel cycle) cycle.now := by
  unfold PerpMMController.startStaleCancel
  split
  next hstart => exact h.of_closed rfl ((c.quoteLiveness.allowQuotes_iff cycle.now).mp hstart.2.2)
  next => exact h

theorem staleDecision (h : Settled c cycle.now) :
    Settled (c.staleDecision cfg cycle).controller cycle.now := by
  have hstarted : Settled (c.noteStale cycle) cycle.now := by
    apply startStaleCancel
    exact h.of_same rfl id
  unfold PerpMMController.staleDecision
  dsimp only
  split
  next hpending => exact hstarted.cancelTimedOut hpending _ _
  next => exact hstarted

theorem refreshPendingPlan (h : Settled c cycle.now) (hpending : c.quoteRefreshPending = true) :
    Settled (c.refreshPendingPlan cfg cycle).controller cycle.now := by
  have hsuspended : Settled c.suspendLiveness cycle.now := h.of_same rfl id
  unfold PerpMMController.refreshPendingPlan
  dsimp only
  split
  next => exact hsuspended.cancelTimedOut hpending _ _
  next => exact h.of_same rfl fun h' => by cases h'

/-- After a quiet observation the circuit is still closed. -/
theorem observed_closed (h : Settled c cycle.now)
    (hallowed : c.quoteLiveness.allowQuotes cycle.now = true)
    (hquiet : (c.observation cycle).1 = false) :
    (c.observed cycle).quoteLiveness.openUntil ≤ cycle.now := by
  have hclosed := (c.quoteLiveness.allowQuotes_iff cycle.now).mp hallowed
  rcases QuoteLivenessWatchdog.observe_openUntil hquiet with hsame | hzero
  · exact hsame.trans_le hclosed
  · exact hzero.trans_le (h.nonneg hclosed)

theorem observed (h : Settled c cycle.now)
    (hallowed : c.quoteLiveness.allowQuotes cycle.now = true)
    (hpending : c.quoteRefreshPending = false) : Settled (c.observed cycle) cycle.now := by
  have hclosed := (c.quoteLiveness.allowQuotes_iff cycle.now).mp hallowed
  refine ⟨fun h' => ?_, fun _ => h.nonneg hclosed⟩
  simp [PerpMMController.observed, hpending] at h'

theorem quotedPlan (h : Settled c now) (hclosed : c.quoteLiveness.openUntil ≤ now) :
    Settled (c.quotedPlan cfg cycle quoteRefreshReason).controller now := by
  unfold PerpMMController.quotedPlan
  split
  next => exact h
  next => exact h.of_closed rfl hclosed

theorem branch {decision : Decision} (h : Settled c cycle.now)
    (hbranch : Branch cfg quoteRefreshReason c cycle decision) :
    Settled decision.controller cycle.now := by
  cases hbranch with
  | shadow hshadow => exact h
  | suspended hsuspended hquoting hallowed => exact h.of_same rfl fun h' => by cases h'
  | stale hshadow hopen hquoting hstale => exact h.staleDecision
  | execution hquotable hactive => exact h.of_same rfl fun h' => by cases h'
  | refreshPending hquotable hclose hpending => exact h.refreshPendingPlan hpending
  | circuitOpen hquotable hpending hblocked => exact h
  | tripped hquotable hpending hallowed htripped => exact h.observed hallowed hpending
  | quoted hquotable hpending hallowed hquiet hclose =>
      exact (h.observed hallowed hpending).quotedPlan (h.observed_closed hallowed hquiet)
  | quotes hquotable hpending hallowed hquiet hactive => exact h.observed hallowed hpending
  | closing hquoting =>
      rw [Plan.decide_controller, closingPlan_controller]
      exact h.of_same rfl fun h' => by cases h'

end Settled

/-- Quoting is unsafe in this cycle. -/
def Unsafe (cfg : PerpMMControllerConfig) (c : PerpMMController) (cycle : Cycle)
    (decision : Decision) : Prop :=
  c.quoteLiveness.allowQuotes cycle.now = false ∨
    decision.controller.quoteLiveness.allowQuotes cycle.now = false ∨
    cycle.quoteSuspended = true ∨ cycle.stale cfg = true ∨ cycle.quoting = false

/-- An unsafe cycle creates no maker quote. -/
theorem Branch.noQuote {cfg : PerpMMControllerConfig}
    {quoteRefreshReason : RefreshQuery → Option String} {c : PerpMMController} {cycle : Cycle}
    {decision : Decision} (hbranch : Branch cfg quoteRefreshReason c cycle decision)
    (h : Settled c cycle.now) (hdanger : Unsafe cfg c cycle decision) :
    ∀ config ∈ decision.created, config.isQuote = false := by
  have hafter := h.branch hbranch
  have hsafe : Quotable cfg c cycle → c.quoteLiveness.openUntil ≤ cycle.now →
      decision.controller.quoteLiveness.openUntil ≤ cycle.now → ¬ Unsafe cfg c cycle decision := by
    intro hquotable hbefore hthen hdanger
    have hallowed := (c.quoteLiveness.allowQuotes_iff cycle.now).mpr hbefore
    rcases hdanger with hblocked | hblocked | hsuspended | hstale | hquoting
    · rw [hallowed] at hblocked
      cases hblocked
    · rw [(decision.controller.quoteLiveness.allowQuotes_iff cycle.now).mpr hthen] at hblocked
      cases hblocked
    · rw [hquotable.unsuspended hsuspended] at hallowed
      cases hallowed
    · rw [hquotable.fresh] at hstale
      cases hstale
    · rw [hquotable.quoting] at hquoting
      cases hquoting
  -- two branches create quotes; both are reached by a safe cycle only
  cases hbranch with
  | shadow hshadow => exact fun _ h => by cases h
  | suspended hsuspended hquoting hallowed =>
      simp [Decision.created, suspendedDecision]
  | stale hshadow hopen hquoting hstale => simp [Decision.created, staleDecision]
  | execution hquotable hactive => simp [executionPlan]
  | refreshPending hquotable hclose hpending =>
      by_cases hactive : cycle.active = []
      · have hsame : ((c.refreshPendingPlan cfg cycle).decide cfg
            cycle).controller.quoteLiveness.openUntil = c.quoteLiveness.openUntil := by
          simp [Plan.decide, refreshPendingPlan, hactive, suspendLiveness]
        have hclosed := h.pending hpending
        exact absurd hdanger (hsafe hquotable hclosed (hsame.trans_le hclosed))
      · simp [refreshPendingPlan, hactive]
  | circuitOpen hquotable hpending hblocked => exact failsafePlan_closes.isQuote
  | tripped hquotable hpending hallowed htripped => exact failsafePlan_closes.isQuote
  | quoted hquotable hpending hallowed hquiet hclose =>
      rw [Plan.decide_created]
      unfold quotedPlan
      split <;> exact fun _ h => by cases h
  | quotes hquotable hpending hallowed hquiet hactive =>
      exact absurd hdanger (hsafe hquotable
        ((c.quoteLiveness.allowQuotes_iff cycle.now).mp hallowed)
        (h.observed_closed hallowed hquiet))
  | closing hquoting => exact closingPlan_closes.isQuote

section Runs

variable (cfg : PerpMMControllerConfig) (quoteRefreshReason : RefreshQuery → Option String)

/-- The gate of one cycle: an unsafe one creates no maker quote, and a pending
refresh finds the circuit closed, before the cycle and after it. -/
def Gated (c : PerpMMController) (cycle : Cycle) : Prop :=
  let decision := c.determineExecutorActions cfg cycle quoteRefreshReason
  (Unsafe cfg c cycle decision → ∀ config ∈ decision.created, config.isQuote = false) ∧
    (c.quoteRefreshPending = true → c.quoteLiveness.allowQuotes cycle.now = true) ∧
    (decision.controller.quoteRefreshPending = true →
      decision.controller.quoteLiveness.allowQuotes cycle.now = true)

theorem Settled.gated {c : PerpMMController} {cycle : Cycle} (h : Settled c cycle.now) :
    Gated cfg quoteRefreshReason c cycle := by
  have hbranch := determine_branch cfg quoteRefreshReason c cycle
  have hafter := h.branch hbranch
  exact ⟨fun hdanger => hbranch.noQuote h hdanger,
    fun hpending => (c.quoteLiveness.allowQuotes_iff cycle.now).mpr (h.pending hpending),
    fun hpending => (QuoteLivenessWatchdog.allowQuotes_iff _ _).mpr (hafter.pending hpending)⟩

theorem Settled.gated_run {c : PerpMMController} {last : ℚ} {cycles : List Cycle}
    (h : Settled c last) (hlater : ∀ cycle ∈ cycles, last ≤ cycle.now)
    (htimes : cycles.Pairwise fun earlier later => earlier.now ≤ later.now) :
    Along (controlCycle cfg quoteRefreshReason) (Gated cfg quoteRefreshReason) c cycles := by
  induction cycles generalizing c last with
  | nil => trivial
  | cons cycle rest ih =>
      rw [List.pairwise_cons] at htimes
      have hnow := h.later (hlater cycle List.mem_cons_self)
      exact ⟨hnow.gated cfg quoteRefreshReason,
        ih (hnow.branch (determine_branch cfg quoteRefreshReason c cycle)) htimes.1 htimes.2⟩

/-- From a fresh controller, with any intents, executors and market data at
non-decreasing times, no cycle creates a maker quote while the circuit is open,
equity is unresolved, the book is stale or the intent does not quote. -/
theorem no_quote_while_unsafe (cycles : List Cycle)
    (htimes : cycles.Pairwise fun earlier later => earlier.now ≤ later.now) :
    Along (controlCycle cfg quoteRefreshReason) (Gated cfg quoteRefreshReason)
      (.init cfg) cycles := by
  cases cycles with
  | nil => trivial
  | cons cycle rest =>
      refine (Settled.init cfg cycle.now).gated_run cfg quoteRefreshReason ?_ htimes
      intro later hlater
      rcases List.mem_cons.mp hlater with rfl | hrest
      · exact le_refl _
      · exact (List.pairwise_cons.mp htimes).1 later hrest

end Runs

/-- Quotes are created on a fresh book and not on a stale one. -/
theorem no_quote_while_unsafe_staleBook :
    (PerpMMController.determineExecutorActions sampleConfig (.init sampleConfig)
        (sampleCycle 0 sampleQuote 0) fun _ => none).created.length = 2 ∧
      Along (controlCycle sampleConfig fun _ => none) (Gated sampleConfig fun _ => none)
        (.init sampleConfig) [sampleCycle 0 sampleQuote 0, sampleCycle 10 sampleQuote 16] :=
  ⟨by decide +kernel, no_quote_while_unsafe sampleConfig (fun _ => none)
    [sampleCycle 0 sampleQuote 0, sampleCycle 10 sampleQuote 16] (by
      simp [sampleCycle])⟩

end Opms.PerpMM
