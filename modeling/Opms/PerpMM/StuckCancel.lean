import Opms.PerpMM.Gating

/-! # Cancellations that never finish

A refresh and a stale book give the cancellation of quotes a deadline, past
which the circuit opens. An equity suspension and a running close stop quotes
as well, but drop the deadline.
-/

namespace Opms.PerpMM

open Foundation PerpMMController

section Defs

variable (cfg : PerpMMControllerConfig) (quoteRefreshReason : RefreshQuery → Option String)

/-- A quoting cycle stops the quote executor, which is active. -/
def StopsQuote (executor : ExecutorId) (c : PerpMMController) (cycle : Cycle) : Prop :=
  cycle.quoting = true ∧ (∃ e ∈ cycle.quoteActive, e.id = executor) ∧
    executor ∈ (c.determineExecutorActions cfg cycle quoteRefreshReason).stopped

/-- The circuit is closed once the cycle is done. -/
def StaysClosed (c : PerpMMController) (cycle : Cycle) : Prop :=
  (controlCycle cfg quoteRefreshReason c cycle).quoteLiveness.allowQuotes cycle.now = true

/-- Quotes are stopped without a deadline: equity is unresolved, or a close is
running, under a closed circuit. -/
def Unclocked (c : PerpMMController) (cycle : Cycle) : Prop :=
  c.quoteLiveness.allowQuotes cycle.now = true ∧
    (cycle.quoteSuspended = true ∨ cycle.stale cfg = false ∧ cycle.executionActive ≠ [])

instance (executor : ExecutorId) (c : PerpMMController) (cycle : Cycle) :
    Decidable (StopsQuote cfg quoteRefreshReason executor c cycle) :=
  inferInstanceAs (Decidable (_ ∧ (∃ e ∈ cycle.quoteActive, e.id = executor) ∧ _))

instance (c : PerpMMController) (cycle : Cycle) :
    Decidable (StaysClosed cfg quoteRefreshReason c cycle) :=
  inferInstanceAs (Decidable (_ = true))

instance (c : PerpMMController) (cycle : Cycle) : Decidable (Unclocked cfg c cycle) :=
  inferInstanceAs (Decidable (_ ∧ (_ ∨ _ ∧ cycle.executionActive ≠ [])))

/-- From the first of the cycles to the last. -/
def Lasts (duration : ℚ) (cycles : List Cycle) : Prop :=
  ∃ first ∈ cycles.head?, ∃ last ∈ cycles.getLast?, duration ≤ last.now - first.now

instance (duration : ℚ) (cycles : List Cycle) : Decidable (Lasts duration cycles) :=
  inferInstanceAs (Decidable (∃ first ∈ cycles.head?, ∃ last ∈ cycles.getLast?, _))

end Defs

variable {cfg : PerpMMControllerConfig} {quoteRefreshReason : RefreshQuery → Option String}
  {c : PerpMMController} {cycle : Cycle} {executor : ExecutorId} {last now : ℚ}

/-! ## The timer of a pending refresh -/

/-- A pending refresh started in the past, and trips open the circuit for the
configured cooldown. -/
structure Timed (cfg : PerpMMControllerConfig) (c : PerpMMController) (now : ℚ) : Prop where
  started : c.quoteRefreshPending = true → ∃ t ∈ c.quoteCancelStartedAt, t ≤ now
  cooldown : c.quoteLiveness.recoveryCooldownS = cfg.quoteRecoveryCooldown

namespace Timed

theorem init (cfg : PerpMMControllerConfig) (now : ℚ) : Timed cfg (.init cfg) now :=
  ⟨fun h => (by cases h), rfl⟩

theorem later (h : Timed cfg c last) (hle : last ≤ now) : Timed cfg c now := by
  refine ⟨fun hpending => ?_, h.cooldown⟩
  obtain ⟨t, hstarted, hpast⟩ := h.started hpending
  exact ⟨t, hstarted, hpast.trans hle⟩

theorem observed (h : Timed cfg c now) : Timed cfg (c.observed cycle) now :=
  ⟨h.started, (QuoteLivenessWatchdog.observe_recoveryCooldownS _ _ _ _).trans h.cooldown⟩

theorem cancelTimedOut (h : Timed cfg c now) (expected live : Finset TradeType) :
    Timed cfg (c.cancelTimedOut cfg cycle expected live).1 now := by
  unfold PerpMMController.cancelTimedOut
  split
  next => exact h
  next => exact ⟨fun hpending => (by cases hpending), h.cooldown⟩

theorem noteStale (h : Timed cfg c cycle.now) : Timed cfg (c.noteStale cycle) cycle.now := by
  unfold PerpMMController.noteStale startStaleCancel
  split
  next => exact ⟨fun _ => ⟨cycle.now, rfl, le_rfl⟩, h.cooldown⟩
  next => exact ⟨h.started, h.cooldown⟩

theorem branch {decision : Decision} (h : Timed cfg c cycle.now)
    (hbranch : Branch cfg quoteRefreshReason c cycle decision) :
    Timed cfg decision.controller cycle.now := by
  cases hbranch with
  | shadow hshadow => exact h
  | suspended hsuspended hquoting hallowed =>
      exact ⟨fun hpending => (by cases hpending), h.cooldown⟩
  | stale hshadow hopen hquoting hstale =>
      unfold PerpMMController.staleDecision
      dsimp only
      split
      next => exact h.noteStale.cancelTimedOut _ _
      next => exact h.noteStale
  | execution hquotable hactive => exact ⟨fun hpending => (by cases hpending), h.cooldown⟩
  | refreshPending hquotable hclose hpending =>
      have hsuspended : Timed cfg c.suspendLiveness cycle.now := ⟨h.started, h.cooldown⟩
      rw [Plan.decide_controller]
      unfold PerpMMController.refreshPendingPlan
      dsimp only
      split
      next => exact hsuspended.cancelTimedOut _ _
      next => exact ⟨fun hpending => (by cases hpending), h.cooldown⟩
  | circuitOpen hquotable hpending hblocked => exact h
  | tripped hquotable hpending hallowed htripped => exact h.observed
  | quoted hquotable hpending hallowed hquiet hclose =>
      rw [Plan.decide_controller]
      unfold PerpMMController.quotedPlan
      split
      next => exact h.observed
      next => exact ⟨fun _ => ⟨cycle.now, rfl, le_rfl⟩, h.observed.cooldown⟩
  | quotes hquotable hpending hallowed hquiet hactive => exact h.observed
  | closing hquoting =>
      rw [Plan.decide_controller, closingPlan_controller]
      exact ⟨fun hpending => (by cases hpending), h.cooldown⟩

end Timed

/-- An overdue cancellation opens the circuit. -/
theorem cancelTimedOut_of_closed (hcooldown : 0 < c.quoteLiveness.recoveryCooldownS)
    {expected live : Finset TradeType}
    (hclosed : (c.cancelTimedOut cfg cycle expected live).1.quoteLiveness.allowQuotes cycle.now =
      true) :
    c.overdueSince cfg cycle = none ∧ (c.cancelTimedOut cfg cycle expected live).1 = c := by
  cases hoverdue : c.overdueSince cfg cycle with
  | none =>
      simp only [cancelTimedOut, hoverdue]
      exact ⟨trivial, trivial⟩
  | some t =>
      simp only [cancelTimedOut, hoverdue] at hclosed
      rw [QuoteLivenessWatchdog.allowQuotes_iff] at hclosed
      have hopen : cycle.now + c.quoteLiveness.recoveryCooldownS ≤ cycle.now :=
        (le_max_right _ _).trans hclosed
      linarith

/-- What a cycle under a deadline leaves while the circuit stays closed. -/
inductive Waits (cfg : PerpMMControllerConfig) (c : PerpMMController) (cycle : Cycle)
    (after : PerpMMController) : Prop
  | begins (hbefore : c.quoteRefreshPending = false) (hpending : after.quoteRefreshPending = true)
      (hstarted : after.quoteCancelStartedAt = some cycle.now)
  | goesOn (hbefore : c.quoteRefreshPending = true) (hpending : after.quoteRefreshPending = true)
      (hstarted : after.quoteCancelStartedAt = c.quoteCancelStartedAt)
      (hintime : c.overdueSince cfg cycle = none)

/-- Under a closed circuit, a stale book leaves the refresh of its quotes pending. -/
theorem noteStale_pending_of_allowed (hquotes : cycle.quoteActive ≠ [])
    (hallowed : c.quoteLiveness.allowQuotes cycle.now = true) :
    (c.noteStale cycle).quoteRefreshPending = true := by
  unfold noteStale startStaleCancel
  split
  next => rfl
  next hkeep =>
    by_contra hpending
    exact hkeep ⟨hquotes, Bool.eq_false_iff.mpr hpending, hallowed⟩

theorem Waits.pending {after : PerpMMController} (h : Waits cfg c cycle after) :
    after.quoteRefreshPending = true := by
  cases h with
  | begins _ hpending _ => exact hpending
  | goesOn _ hpending _ _ => exact hpending

/-- A stale book starts the timer, or leaves it running. -/
theorem noteStale_waits (hquotes : cycle.quoteActive ≠ [])
    (hallowed : c.quoteLiveness.allowQuotes cycle.now = true)
    (hintime : (c.noteStale cycle).overdueSince cfg cycle = none) :
    Waits cfg c cycle (c.noteStale cycle) := by
  cases hbefore : c.quoteRefreshPending with
  | false =>
      have hstart : c.noteStale cycle = { c.suspendLiveness with
          lastQuoteRefreshReason := some "stale_market_data"
          quoteRefreshPending := true
          quoteCancelStartedAt := some cycle.now } :=
        if_pos ⟨hquotes, hbefore, hallowed⟩
      rw [hstart]
      exact .begins hbefore rfl rfl
  | true =>
      have hkeep : c.noteStale cycle =
          { c.suspendLiveness with lastQuoteRefreshReason := some "stale_market_data" } :=
        if_neg fun hstart => by
          rw [show c.quoteRefreshPending = false from hstart.2.1] at hbefore
          cases hbefore
      rw [hkeep] at hintime ⊢
      exact .goesOn hbefore hbefore rfl hintime

theorem staleDecision_waits (hcooldown : 0 < c.quoteLiveness.recoveryCooldownS)
    (hquotes : cycle.quoteActive ≠ [])
    (hclosed : (c.staleDecision cfg cycle).controller.quoteLiveness.allowQuotes cycle.now =
      true) : Waits cfg c cycle (c.staleDecision cfg cycle).controller := by
  have hwatchdog : (c.noteStale cycle).quoteLiveness = c.quoteLiveness.suspend := by
    unfold noteStale startStaleCancel
    split
    next => rfl
    next => rfl
  have hcooldown' : 0 < (c.noteStale cycle).quoteLiveness.recoveryCooldownS := by
    rw [hwatchdog]
    exact hcooldown
  have hallowed : (c.noteStale cycle).quoteLiveness.allowQuotes cycle.now = true →
      c.quoteLiveness.allowQuotes cycle.now = true := fun h => by
    rw [hwatchdog] at h
    exact h
  unfold staleDecision at hclosed ⊢
  dsimp only at hclosed ⊢
  split at hclosed
  next hpending =>
    obtain ⟨hintime, hsame⟩ := cancelTimedOut_of_closed hcooldown' hclosed
    rw [if_pos hpending, hsame]
    rw [hsame] at hclosed
    exact noteStale_waits hquotes (hallowed hclosed) hintime
  next hpending =>
    exact absurd (noteStale_pending_of_allowed hquotes (hallowed hclosed)) hpending

/-- A plan that creates nothing stops what it does not keep. -/
theorem decide_stopped_of_no_new {plan : Plan} (hnone : plan.newActions = []) :
    (plan.decide cfg cycle).stopped =
      (cycle.active.filter fun e => e.id ∉ plan.keep).map (·.id) := by
  rw [Decision.stopped, Plan.decide, hnone, List.append_nil]
  exact stopActions_stopped _

/-- A cycle that stops a quote under a deadline leaves the refresh waiting, or
the circuit open. -/
theorem Branch.waits {decision : Decision} (h : Timed cfg c cycle.now)
    (hbranch : Branch cfg quoteRefreshReason c cycle decision)
    (hcooldown : 0 < cfg.quoteRecoveryCooldown) (hquoting : cycle.quoting = true)
    (hactive : ∃ e ∈ cycle.quoteActive, e.id = executor) (hstopped : executor ∈ decision.stopped)
    (hclosed : decision.controller.quoteLiveness.allowQuotes cycle.now = true)
    (hclocked : ¬ Unclocked cfg c cycle) : Waits cfg c cycle decision.controller := by
  have hpositive : 0 < c.quoteLiveness.recoveryCooldownS := h.cooldown ▸ hcooldown
  obtain ⟨e, he, rfl⟩ := hactive
  have hquotes : cycle.quoteActive ≠ [] := List.ne_nil_of_mem he
  have hsome : cycle.active ≠ [] := List.ne_nil_of_mem (List.mem_filter.mp he).1
  cases hbranch with
  | shadow hshadow => cases hstopped
  | suspended hsuspended _ hallowed => exact absurd ⟨hallowed, .inl hsuspended⟩ hclocked
  | stale hshadow hopen _ hstale => exact staleDecision_waits hpositive hquotes hclosed
  | execution hquotable hexecution =>
      exact absurd ⟨hclosed, .inr ⟨hquotable.fresh, hexecution⟩⟩ hclocked
  | refreshPending hquotable hclose hpending =>
      rw [Plan.decide_controller] at hclosed ⊢
      unfold refreshPendingPlan at hclosed ⊢
      dsimp only at hclosed ⊢
      rw [if_pos hsome] at hclosed ⊢
      obtain ⟨hintime, hsame⟩ :=
        cancelTimedOut_of_closed (c := c.suspendLiveness) hpositive hclosed
      rw [hsame]
      exact .goesOn hpending hpending rfl hintime
  | circuitOpen hquotable hpending hblocked =>
      rw [show c.quoteLiveness.allowQuotes cycle.now = true from hclosed] at hblocked
      cases hblocked
  | tripped hquotable hpending hallowed htripped =>
      have hopen := QuoteLivenessWatchdog.observe_tripped hallowed htripped
      have hopen' : (c.observed cycle).quoteLiveness.openUntil ≤ cycle.now :=
        (QuoteLivenessWatchdog.allowQuotes_iff _ _).mp hclosed
      rw [show (c.observed cycle).quoteLiveness.openUntil = _ from hopen] at hopen'
      linarith
  | quoted hquotable hpending hallowed hquiet hclose =>
      rw [Plan.decide_controller]
      unfold quotedPlan at hstopped ⊢
      split
      next hkeeps =>
        -- kept quotes are not stopped
        rw [if_pos hkeeps, decide_stopped_of_no_new rfl] at hstopped
        obtain ⟨kept, hkept, hid⟩ := List.mem_map.mp hstopped
        obtain ⟨hactive, hstop⟩ := List.mem_filter.mp hkept
        exact absurd (List.mem_map_of_mem hactive) (of_decide_eq_true hstop)
      next => exact .begins hpending rfl rfl
  | quotes hquotable hpending hallowed hquiet hnone => exact absurd hnone hsome
  | closing hclosing =>
      rw [hquoting] at hclosing
      cases hclosing

/-! ## Spans of cycles -/

theorem Timed.run (h : Timed cfg c last) {cycles : List Cycle}
    (hlater : ∀ cycle ∈ cycles, last ≤ cycle.now)
    (htimes : cycles.Pairwise fun earlier later => earlier.now ≤ later.now)
    (hnow : ∀ cycle ∈ cycles, cycle.now ≤ now) (hlast : last ≤ now) :
    Timed cfg (run (controlCycle cfg quoteRefreshReason) c cycles) now := by
  induction cycles generalizing c last with
  | nil => exact h.later hlast
  | cons cycle rest ih =>
      rw [List.pairwise_cons] at htimes
      have hstep := (h.later (hlater cycle List.mem_cons_self)).branch
        (determine_branch cfg quoteRefreshReason c cycle)
      exact ih hstep htimes.1 htimes.2 (fun later hmem => hnow later (List.mem_cons_of_mem _ hmem))
        (hnow cycle List.mem_cons_self)

theorem timed_history {history : List Cycle}
    (htimes : history.Pairwise fun earlier later => earlier.now ≤ later.now)
    (hnow : ∀ cycle ∈ history, cycle.now ≤ now) :
    Timed cfg (run (controlCycle cfg quoteRefreshReason) (.init cfg) history) now := by
  cases history with
  | nil => exact .init cfg now
  | cons first rest =>
      refine (Timed.init cfg first.now).run (fun later hmem => ?_) htimes hnow
        (hnow first List.mem_cons_self)
      rcases List.mem_cons.mp hmem with rfl | hrest
      · exact le_rfl
      · exact (List.pairwise_cons.mp htimes).1 later hrest

/-- A refresh that waits through cycles under a closed circuit is never overdue
in them. -/
theorem waiting_intime (h : Timed cfg c last) (hcooldown : 0 < cfg.quoteRecoveryCooldown)
    (hpending : c.quoteRefreshPending = true) {started : ℚ}
    (hstarted : c.quoteCancelStartedAt = some started) {cycles : List Cycle}
    (hlater : ∀ cycle ∈ cycles, last ≤ cycle.now)
    (htimes : cycles.Pairwise fun earlier later => earlier.now ≤ later.now)
    (hstops : Along (controlCycle cfg quoteRefreshReason)
      (StopsQuote cfg quoteRefreshReason executor) c cycles)
    (hclosed : Along (controlCycle cfg quoteRefreshReason) (StaysClosed cfg quoteRefreshReason) c
      cycles)
    (hclocked : Along (controlCycle cfg quoteRefreshReason)
      (fun c cycle => ¬ Unclocked cfg c cycle) c cycles) :
    ∀ cycle ∈ cycles, cycle.now - started < cfg.quoteLivenessTimeout := by
  induction cycles generalizing c last with
  | nil => simp
  | cons cycle rest ih =>
      rw [List.pairwise_cons] at htimes
      have hnow := h.later (hlater cycle List.mem_cons_self)
      have hbranch := determine_branch cfg quoteRefreshReason c cycle
      obtain ⟨hquoting, hactive, hstopped⟩ := hstops.1
      cases hbranch.waits hnow hcooldown hquoting hactive hstopped hclosed.1 hclocked.1 with
      | begins hbefore _ _ =>
          rw [hpending] at hbefore
          cases hbefore
      | goesOn _ hafter hkept hintime =>
          intro other hother
          rcases List.mem_cons.mp hother with rfl | hrest
          · by_contra hlate
            have hsome : c.overdueSince cfg other = some started := by
              rw [overdueSince, hstarted, Option.filter_some,
                if_pos (decide_eq_true (not_lt.mp hlate))]
            rw [hsome] at hintime
            cases hintime
          · exact ih (hnow.branch hbranch) hafter (hkept.trans hstarted) htimes.1 htimes.2
              hstops.2 hclosed.2 hclocked.2 other hrest

/-- A span of stops under a deadline, as long as the timeout, opens the circuit. -/
theorem clocked_span_opens (h : Timed cfg c last) (htimeout : 0 < cfg.quoteLivenessTimeout)
    (hcooldown : 0 < cfg.quoteRecoveryCooldown) {span : List Cycle}
    (hlater : ∀ cycle ∈ span, last ≤ cycle.now)
    (htimes : span.Pairwise fun earlier later => earlier.now ≤ later.now)
    (hlasts : Lasts cfg.quoteLivenessTimeout span)
    (hstops : Along (controlCycle cfg quoteRefreshReason)
      (StopsQuote cfg quoteRefreshReason executor) c span)
    (hclocked : Along (controlCycle cfg quoteRefreshReason)
      (fun c cycle => ¬ Unclocked cfg c cycle) c span) :
    ¬ Along (controlCycle cfg quoteRefreshReason) (StaysClosed cfg quoteRefreshReason) c span := by
  intro hclosed
  obtain ⟨first, hfirst, final, hfinal, hlong⟩ := hlasts
  cases span with
  | nil => cases hfirst
  | cons head rest =>
      obtain rfl := Option.some.inj hfirst
      rw [List.pairwise_cons] at htimes
      have hnow := h.later (hlater head List.mem_cons_self)
      have hbranch := determine_branch cfg quoteRefreshReason c head
      obtain ⟨hquoting, hactive, hstopped⟩ := hstops.1
      -- after the first cycle the timer runs, since then at the latest
      have hpending := (hbranch.waits hnow hcooldown hquoting hactive hstopped hclosed.1
        hclocked.1).pending
      obtain ⟨started, hstarted, hpast⟩ := (hnow.branch hbranch).started hpending
      cases rest with
      | nil =>
          obtain rfl : head = final := by simpa using hfinal
          rw [sub_self] at hlong
          exact absurd htimeout (not_lt.mpr hlong)
      | cons next rest =>
          have hmem : final ∈ next :: rest := by
            rw [List.getLast?_cons_cons] at hfinal
            exact List.mem_of_getLast? hfinal
          have hintime := waiting_intime (hnow.branch hbranch) hcooldown hpending hstarted htimes.1
            htimes.2 hstops.2 hclosed.2 hclocked.2 final hmem
          linarith

/-! ## Spans without a deadline -/

/-- Without a deadline a cycle only stops quotes and drops what was pending. -/
theorem Unclocked.determine_eq (h : Unclocked cfg c cycle) (hshadow : cfg.shadowMode = false)
    (hquoting : cycle.quoting = true) :
    c.determineExecutorActions cfg cycle quoteRefreshReason =
      if cycle.quoteSuspended = true then c.suspendedDecision cfg cycle
      else (c.executionPlan cycle).decide cfg cycle := by
  unfold determineExecutorActions
  rw [if_neg (by simp [hshadow])]
  by_cases hsuspended : cycle.quoteSuspended = true
  · rw [if_pos ⟨hsuspended, hquoting, h.1⟩, if_pos hsuspended]
  · obtain ⟨hfresh, hactive⟩ := h.2.resolve_left hsuspended
    rw [if_neg fun hboth => hsuspended hboth.1, if_neg (by simp [hfresh]), if_pos hquoting,
      if_neg hsuspended, quotingPlan, if_pos hactive]

/-- The same cycle at a later time. -/
def Cycle.atTime (cycle : Cycle) (later : ℚ) : Cycle := { cycle with now := later }

theorem Unclocked.openUntil_eq (h : Unclocked cfg c cycle) (hshadow : cfg.shadowMode = false)
    (hquoting : cycle.quoting = true) :
    (controlCycle cfg quoteRefreshReason c cycle).quoteLiveness.openUntil =
      c.quoteLiveness.openUntil := by
  rw [controlCycle, h.determine_eq hshadow hquoting]
  split
  next => rfl
  next => rfl

theorem Unclocked.staysClosed (h : Unclocked cfg c cycle) (hshadow : cfg.shadowMode = false)
    (hquoting : cycle.quoting = true) : StaysClosed cfg quoteRefreshReason c cycle := by
  rw [StaysClosed, QuoteLivenessWatchdog.allowQuotes_iff, h.openUntil_eq hshadow hquoting,
    ← QuoteLivenessWatchdog.allowQuotes_iff]
  exact h.1

/-- What stops quotes without a deadline stops them again, later, and leaves the
circuit closed both times. -/
theorem Unclocked.again (h : Unclocked cfg c cycle)
    (hstops : StopsQuote cfg quoteRefreshReason executor c cycle) {later : ℚ}
    (hlater : cycle.now ≤ later) :
    Along (controlCycle cfg quoteRefreshReason) (StopsQuote cfg quoteRefreshReason executor) c
        [cycle, cycle.atTime later] ∧
      Along (controlCycle cfg quoteRefreshReason) (StaysClosed cfg quoteRefreshReason) c
        [cycle, cycle.atTime later] := by
  obtain ⟨hquoting, hactive, hstopped⟩ := hstops
  have hshadow : cfg.shadowMode = false := by
    by_contra hshadow
    rw [determineExecutorActions, if_pos (by simpa using hshadow)] at hstopped
    cases hstopped
  have hagain : Unclocked cfg (controlCycle cfg quoteRefreshReason c cycle)
      (cycle.atTime later) := by
    refine ⟨?_, h.2⟩
    rw [QuoteLivenessWatchdog.allowQuotes_iff, h.openUntil_eq hshadow hquoting]
    exact ((QuoteLivenessWatchdog.allowQuotes_iff _ _).mp h.1).trans hlater
  have hstopped' : executor ∈ ((controlCycle cfg quoteRefreshReason c
      cycle).determineExecutorActions cfg (cycle.atTime later) quoteRefreshReason).stopped := by
    rw [h.determine_eq hshadow hquoting] at hstopped
    rw [hagain.determine_eq hshadow hquoting]
    -- neither the controller nor the clock decides what is stopped
    by_cases hsuspended : cycle.quoteSuspended = true
    · rw [if_pos hsuspended] at hstopped
      rw [if_pos (show (cycle.atTime later).quoteSuspended = true from hsuspended)]
      exact hstopped
    · rw [if_neg hsuspended] at hstopped
      rw [if_neg (show ¬ (cycle.atTime later).quoteSuspended = true from hsuspended)]
      exact hstopped
  exact ⟨⟨⟨hquoting, hactive, hstopped⟩, ⟨hquoting, hactive, hstopped'⟩, trivial⟩,
    h.staysClosed hshadow hquoting, hagain.staysClosed hshadow hquoting, trivial⟩

/-- After any history a long span of stops under a deadline finds the circuit open. -/
theorem clocked_span_opens_after {history span : List Cycle}
    (htimes : (history ++ span).Pairwise fun earlier later => earlier.now ≤ later.now)
    (hstops : Along (controlCycle cfg quoteRefreshReason)
      (StopsQuote cfg quoteRefreshReason executor)
      (run (controlCycle cfg quoteRefreshReason) (.init cfg) history) span)
    (hlasts : Lasts cfg.quoteLivenessTimeout span) (htimeout : 0 < cfg.quoteLivenessTimeout)
    (hcooldown : 0 < cfg.quoteRecoveryCooldown)
    (hclocked : Along (controlCycle cfg quoteRefreshReason)
      (fun c cycle => ¬ Unclocked cfg c cycle)
      (run (controlCycle cfg quoteRefreshReason) (.init cfg) history) span) :
    ∃ before cycle after, span = before ++ cycle :: after ∧
      ¬ StaysClosed cfg quoteRefreshReason
        (run (controlCycle cfg quoteRefreshReason)
          (run (controlCycle cfg quoteRefreshReason) (.init cfg) history) before) cycle := by
  obtain ⟨hbefore, hspan, hacross⟩ := List.pairwise_append.mp htimes
  rw [← Along.not_iff_exists]
  cases span with
  | nil =>
      obtain ⟨first, hfirst, _⟩ := hlasts
      cases hfirst
  | cons head rest =>
      have htimed : Timed cfg (run (controlCycle cfg quoteRefreshReason) (.init cfg) history)
          head.now := timed_history hbefore fun earlier hearlier =>
        hacross earlier hearlier head List.mem_cons_self
      refine clocked_span_opens htimed htimeout hcooldown (fun later hmem => ?_) hspan hlasts
        hstops hclocked
      rcases List.mem_cons.mp hmem with rfl | hrest
      · exact le_rfl
      · exact (List.pairwise_cons.mp hspan).1 later hrest

/-- A cycle can come once more, as late as the timeout asks. -/
theorem pairwise_atTime {history : List Cycle} {cycle : Cycle} {later : ℚ}
    (htimes : (history ++ [cycle]).Pairwise fun earlier later => earlier.now ≤ later.now)
    (hlater : cycle.now ≤ later) :
    (history ++ [cycle, cycle.atTime later]).Pairwise
      fun earlier later => earlier.now ≤ later.now := by
  obtain ⟨hbefore, _, hacross⟩ := List.pairwise_append.mp htimes
  refine List.pairwise_append.mpr ⟨hbefore, List.pairwise_pair.mpr hlater,
    fun earlier hearlier other hother => ?_⟩
  have hle := hacross earlier hearlier cycle (List.mem_singleton.mpr rfl)
  rcases List.mem_pair.mp hother with rfl | rfl
  · exact hle
  · exact hle.trans hlater

/-- A span of cycles that keep stopping one quote executor, at least as long as
the timeout, finds the circuit open when every cycle is under a deadline and the
timeout and the cooldown are positive. After any cycle without a deadline the
same inputs once more, later, are such a span under a closed circuit. -/
theorem stuck_cancel_opens_circuit (cfg : PerpMMControllerConfig)
    (quoteRefreshReason : RefreshQuery → Option String) (history : List Cycle) :
    let c := run (controlCycle cfg quoteRefreshReason) (.init cfg) history
    (∀ span executor,
        (history ++ span).Pairwise (fun earlier later => earlier.now ≤ later.now) →
        Along (controlCycle cfg quoteRefreshReason)
          (StopsQuote cfg quoteRefreshReason executor) c span →
        Lasts cfg.quoteLivenessTimeout span →
        0 < cfg.quoteLivenessTimeout → 0 < cfg.quoteRecoveryCooldown →
        Along (controlCycle cfg quoteRefreshReason) (fun c cycle => ¬ Unclocked cfg c cycle) c
          span →
        ∃ before cycle after, span = before ++ cycle :: after ∧
          ¬ StaysClosed cfg quoteRefreshReason
            (run (controlCycle cfg quoteRefreshReason) c before) cycle) ∧
      ∀ cycle executor,
        (history ++ [cycle]).Pairwise (fun earlier later => earlier.now ≤ later.now) →
        StopsQuote cfg quoteRefreshReason executor c cycle → Unclocked cfg c cycle →
        ∃ later, (history ++ [cycle, cycle.atTime later]).Pairwise
            (fun earlier later => earlier.now ≤ later.now) ∧
          Along (controlCycle cfg quoteRefreshReason)
            (StopsQuote cfg quoteRefreshReason executor) c [cycle, cycle.atTime later] ∧
          Lasts cfg.quoteLivenessTimeout [cycle, cycle.atTime later] ∧
          Along (controlCycle cfg quoteRefreshReason) (StaysClosed cfg quoteRefreshReason) c
            [cycle, cycle.atTime later] := by
  intro c
  refine ⟨fun span executor htimes hstops hlasts htimeout hcooldown hclocked =>
      clocked_span_opens_after htimes hstops hlasts htimeout hcooldown hclocked,
    fun cycle executor htimes hstops hunclocked => ?_⟩
  have hlater : cycle.now ≤ cycle.now + max cfg.quoteLivenessTimeout 0 :=
    le_add_of_nonneg_right (le_max_right _ _)
  have hagain := hunclocked.again hstops hlater
  refine ⟨_, pairwise_atTime htimes hlater, hagain.1, ⟨cycle, rfl, cycle.atTime _, rfl, ?_⟩,
    hagain.2⟩
  change _ ≤ cycle.now + max cfg.quoteLivenessTimeout 0 - cycle.now
  rw [add_sub_cancel_left]
  exact le_max_left _ _

/-- The bid of a quote at 99, whose cancellation never completes. -/
def stuckBid : ExecutorInfo where
  id := 0
  config := .bufferedMaker {
    timestamp := 0
    tradingPair := sampleConfig.tradingPair
    connectorName := sampleConfig.connectorName
    side := .buy
    amount := 1
    price := some 99
    executionStrategy := .limitMaker
    positionAction := .open
    leverage := 1 }

/-- The book is stale from ten seconds on. -/
def staleSpan : List Cycle :=
  [ { sampleCycle 10 sampleQuote 16 with active := [stuckBid] },
    { sampleCycle 25 sampleQuote 31 with active := [stuckBid] } ]

theorem stuck_cancel_opens_circuit_staleSpan :
    ∃ before cycle after, staleSpan = before ++ cycle :: after ∧
      ¬ StaysClosed sampleConfig (fun _ => none)
        (run (controlCycle sampleConfig fun _ => none)
          (run (controlCycle sampleConfig fun _ => none) (.init sampleConfig)
            [sampleCycle 0 sampleQuote 0]) before) cycle :=
  (stuck_cancel_opens_circuit sampleConfig (fun _ => none) [sampleCycle 0 sampleQuote 0]).1
    staleSpan 0 (by decide +kernel) (by decide +kernel) (by decide +kernel) (by decide +kernel)
    (by decide +kernel) (by decide +kernel)

/-- Equity is unresolved from ten seconds on: the bid is asked to stop for the
whole timeout, and the circuit never opens. -/
theorem suspended_stop_never_opens_circuit :
    let history := [sampleCycle 0 sampleQuote 0]
    let span : List Cycle :=
      [ { sampleCycle 10 sampleQuote 0 with active := [stuckBid], quoteSuspended := true },
        { sampleCycle 25 sampleQuote 0 with active := [stuckBid], quoteSuspended := true } ]
    let c := run (controlCycle sampleConfig fun _ => none) (.init sampleConfig) history
    (history ++ span).Pairwise (fun earlier later => earlier.now ≤ later.now) ∧
      (∀ cycle ∈ history ++ span, cycle.quoting = true) ∧
      Along (controlCycle sampleConfig fun _ => none) (StopsQuote sampleConfig (fun _ => none) 0) c
        span ∧
      Lasts sampleConfig.quoteLivenessTimeout span ∧
      Along (controlCycle sampleConfig fun _ => none) (StaysClosed sampleConfig fun _ => none) c
        span := by
  decide +kernel

end Opms.PerpMM
