import Opms.PerpMM.Exclusion

/-! # Cancellation timeouts

A timeout is meant for quotes that do not confirm their cancellation. The
refresh branch drops the timer once no executor is active; the stale-data
branch keeps it, and can declare a timeout with nothing left to cancel.
-/

namespace Opms.PerpMM

open Foundation PerpMMController

variable {cfg : PerpMMControllerConfig} {quoteRefreshReason : RefreshQuery → Option String}
  {c : PerpMMController} {cycle : Cycle}

/-! ## One cycle -/

/-- A timed-out decision comes from an overdue cancellation, in the stale-data
branch or over an active executor of a pending refresh. -/
theorem Branch.timedOut_cases {decision : Decision}
    (h : Branch cfg quoteRefreshReason c cycle decision) (htimedOut : decision.timedOut = true) :
    (decision = c.staleDecision cfg cycle ∧ cfg.shadowMode = false ∧
        ¬ (cycle.quoteSuspended = true ∧ c.quoteLiveness.allowQuotes cycle.now = true) ∧
        cycle.quoting = true ∧ cycle.stale cfg = true) ∨
      c.quoteRefreshPending = true ∧ cycle.quoteActive ≠ [] := by
  cases h with
  | stale hshadow hopen hquoting hstale => exact .inl ⟨rfl, hshadow, hopen, hquoting, hstale⟩
  | refreshPending hquotable hclose hpending =>
      refine .inr ⟨hpending, fun hquotes => ?_⟩
      have hnone : cycle.active = [] := by
        rw [List.eq_nil_iff_forall_not_mem]
        intro e he
        have hquote := List.filter_eq_nil_iff.mp hquotes e he
        have hother := List.filter_eq_nil_iff.mp hclose e he
        simp_all
      simp [Plan.decide, refreshPendingPlan, hnone] at htimedOut
  | shadow hshadow => cases htimedOut
  | suspended hsuspended hquoting hallowed => cases htimedOut
  | execution hquotable hactive => cases htimedOut
  | circuitOpen hquotable hpending hblocked => cases htimedOut
  | tripped hquotable hpending hallowed htripped => cases htimedOut
  | quoted hquotable hpending hallowed hquiet hclose =>
      unfold quotedPlan at htimedOut
      split at htimedOut <;> cases htimedOut
  | quotes hquotable hpending hallowed hquiet hactive => cases htimedOut
  | closing hquoting =>
      simp only [Plan.decide] at htimedOut
      unfold closingPlan at htimedOut
      dsimp only at htimedOut
      split at htimedOut <;> cases htimedOut

theorem cancelTimedOut_snd (expected live : Finset TradeType) :
    (c.cancelTimedOut cfg cycle expected live).2 = (c.overdueSince cfg cycle).isSome := by
  unfold cancelTimedOut
  split
  next hnone => simp [hnone]
  next started hsome => simp [hsome]

theorem staleDecision_timedOut : (c.staleDecision cfg cycle).timedOut =
    ((c.noteStale cycle).quoteRefreshPending &&
      ((c.noteStale cycle).overdueSince cfg cycle).isSome) := by
  unfold staleDecision
  dsimp only
  cases hpending : (c.noteStale cycle).quoteRefreshPending with
  | false => rfl
  | true =>
      simp only [if_true, Bool.true_and]
      exact cancelTimedOut_snd _ _

/-- With no quote left, a stale book does not change the flag. -/
theorem noteStale_pending_of_none (hquotes : cycle.quoteActive = []) :
    (c.noteStale cycle).quoteRefreshPending = c.quoteRefreshPending := by
  simp only [noteStale, startStaleCancel, hquotes]
  rfl

/-- With no quote left, a stale book does not change the timer. -/
theorem noteStale_overdueSince_of_none (hquotes : cycle.quoteActive = []) :
    (c.noteStale cycle).overdueSince cfg cycle = c.overdueSince cfg cycle := by
  simp only [noteStale, startStaleCancel, hquotes]
  rfl

/-- A pending refresh was pending before, or its timer starts now. -/
theorem noteStale_pending (h : (c.noteStale cycle).quoteRefreshPending = true) :
    c.quoteRefreshPending = true ∨ (c.noteStale cycle).quoteCancelStartedAt = some cycle.now := by
  unfold noteStale startStaleCancel at h ⊢
  split at h
  next hstart =>
    right
    rw [if_pos hstart]
  next => exact .inl h

/-- After a cycle that leaves a refresh pending, nothing new quotes, and every
active quote was asked to stop, now or when the refresh began. -/
theorem Branch.pending_cases {decision : Decision}
    (h : Branch cfg quoteRefreshReason c cycle decision)
    (hpending : decision.controller.quoteRefreshPending = true) :
    (∀ config ∈ decision.created, config.isQuote = false) ∧
      ∀ e ∈ cycle.quoteActive, c.quoteRefreshPending = true ∨ e.id ∈ decision.stopped := by
  cases h with
  | shadow hshadow => exact ⟨fun _ h => (by cases h), fun e he => .inl hpending⟩
  | stale hshadow hopen hquoting hstale =>
      refine ⟨by simp [Decision.created, staleDecision], fun e he => .inr ?_⟩
      simp only [Decision.stopped, staleDecision, stopActions_stopped]
      exact List.mem_map_of_mem he
  | refreshPending hquotable hclose hbefore =>
      refine ⟨?_, fun e he => .inl hbefore⟩
      unfold refreshPendingPlan at hpending ⊢
      dsimp only at hpending ⊢
      split
      next => simp
      next hactive =>
        rw [if_neg hactive] at hpending
        cases hpending
  | quoted hquotable hbefore hallowed hquiet hclose =>
      unfold quotedPlan at hpending ⊢
      split
      next hkeeps =>
        rw [if_pos hkeeps] at hpending
        simp [Plan.decide, observed, hbefore] at hpending
      next =>
        refine ⟨by simp, fun e he => .inr ?_⟩
        simp only [Decision.stopped, Plan.decide, List.filterMap_append, stopActions_stopped]
        have hactive : e ∈ cycle.active := (List.mem_filter.mp he).1
        simpa using ⟨e, hactive, rfl⟩
  | quotes hquotable hbefore hallowed hquiet hactive =>
      simp [Plan.decide, observed, hbefore] at hpending
  | circuitOpen hquotable hbefore hblocked =>
      simp [Plan.decide, failsafePlan, hbefore] at hpending
  | tripped hquotable hbefore hallowed htripped =>
      simp [Plan.decide, failsafePlan, observed, hbefore] at hpending
  | suspended hsuspended hquoting hallowed => cases hpending
  | execution hquotable hactive => cases hpending
  | closing hquoting =>
      rw [Plan.decide_controller, closingPlan_controller] at hpending
      cases hpending

/-! ## Runs -/

/-- A cycle that times out sees a quote executor it had asked to stop, since
the quotes were last all inactive. With no timeout at all the request may be
in the same batch. -/
def TimelyTrip (cfg : PerpMMControllerConfig) (quoteRefreshReason : RefreshQuery → Option String)
    (w : World) : Event → Prop
  | .cycle inputs =>
      let decision := w.decision cfg quoteRefreshReason inputs
      decision.timedOut = true → ∃ e ∈ (w.sees inputs).quoteActive,
        e.id ∈ w.askedToStop ∨ cfg.quoteLivenessTimeout ≤ 0 ∧ e.id ∈ decision.stopped
  | _ => True

instance (cfg : PerpMMControllerConfig) (quoteRefreshReason : RefreshQuery → Option String)
    (w : World) : DecidablePred (TimelyTrip cfg quoteRefreshReason w)
  | .cycle inputs => by
      unfold TimelyTrip
      infer_instance
  | .finish _ | .report _ _ | .watchdog _ => .isTrue trivial

/-- A stale-data cycle finds the refresh still pending with no quote active,
and its timer overdue. -/
def OutlivesCancel (cfg : PerpMMControllerConfig) (w : World) : Event → Prop
  | .cycle inputs =>
      let cycle := w.sees inputs
      cfg.shadowMode = false ∧ cycle.quoting = true ∧ cycle.stale cfg = true ∧
        ¬ (cycle.quoteSuspended = true ∧
          w.controller.quoteLiveness.allowQuotes cycle.now = true) ∧
        cycle.quoteActive = [] ∧ w.controller.quoteRefreshPending = true ∧
        (w.controller.overdueSince cfg cycle).isSome = true
  | _ => False

/-- While a refresh is pending, every active quote was asked to stop. -/
def Draining (w : World) : Prop :=
  w.controller.quoteRefreshPending = true →
    ∀ e ∈ w.active, e.isQuoteExecutor = true → e.id ∈ w.askedToStop

section Runs

variable {w : World}

theorem Draining.applyBatch (h : Draining w) {inputs : Cycle} {decision : Decision}
    (hbranch : Branch cfg quoteRefreshReason w.controller (w.sees inputs) decision) :
    Draining (w.applyBatch inputs decision) := by
  intro hpending e he hquote
  obtain ⟨hcreated, hasked⟩ := hbranch.pending_cases hpending
  rcases List.mem_append.mp he with hold | hnew
  · have hactive : e ∈ (w.sees inputs).quoteActive := List.mem_filter.mpr ⟨hold, hquote⟩
    have hsome : (w.sees inputs).quoteActive ≠ [] := List.ne_nil_of_mem hactive
    simp only [World.applyBatch, if_neg hsome, List.mem_append]
    rcases hasked e hactive with hbefore | hnow
    · exact .inl (h hbefore e hold hquote)
    · exact .inr hnow
  -- a cycle that leaves a refresh pending creates no quote
  · have hnone := hcreated e.config (launch_config_mem hnew)
    rw [ExecutorInfo.isQuoteExecutor, hnone] at hquote
    cases hquote

theorem Draining.step (h : Draining w) (event : Event) :
    Draining (w.step cfg quoteRefreshReason event) := by
  cases event with
  | cycle inputs => exact h.applyBatch (determine_branch cfg quoteRefreshReason _ _)
  | finish executors => exact fun hpending e he => h hpending e (List.mem_filter.mp he).1
  | report executor info =>
      intro hpending e he hquote
      obtain ⟨before, hbefore, heq⟩ := List.mem_map.mp he
      have hsame : e.id = before.id ∧ e.config = before.config := by
        rw [← heq]
        split <;> exact ⟨rfl, rfl⟩
      rw [ExecutorInfo.isQuoteExecutor, hsame.2] at hquote
      rw [hsame.1]
      exact h hpending before hbefore hquote
  | watchdog state => exact h

/-- A cycle trips in time iff no timer outlives its cancellation there. -/
theorem timelyTrip_iff (h : Draining w) (event : Event) :
    TimelyTrip cfg quoteRefreshReason w event ↔ ¬ OutlivesCancel cfg w event := by
  cases event with
  | cycle inputs =>
      constructor
      · rintro htimely ⟨hshadow, hquoting, hstale, hopen, hquotes, hpending, hoverdue⟩
        have hdecision : w.decision cfg quoteRefreshReason inputs =
            w.controller.staleDecision cfg (w.sees inputs) := by
          unfold World.decision determineExecutorActions
          rw [if_neg (by simp [hshadow]), if_neg fun hs => hopen ⟨hs.1, hs.2.2⟩,
            if_pos ⟨hquoting, hstale⟩]
        have htimedOut : (w.decision cfg quoteRefreshReason inputs).timedOut = true := by
          rw [hdecision, staleDecision_timedOut, noteStale_pending_of_none hquotes,
            noteStale_overdueSince_of_none hquotes, hpending, hoverdue]
          rfl
        obtain ⟨e, he, _⟩ := htimely htimedOut
        rw [hquotes] at he
        cases he
      · intro hkept htimedOut
        have hbranch : Branch cfg quoteRefreshReason w.controller (w.sees inputs)
            (w.decision cfg quoteRefreshReason inputs) := determine_branch _ _ _ _
        rcases hbranch.timedOut_cases htimedOut with
          ⟨hdecision, hshadow, hopen, hquoting, hstale⟩ | ⟨hpending, hactive⟩
        · rw [hdecision, staleDecision_timedOut, Bool.and_eq_true] at htimedOut
          obtain ⟨hnoted, hoverdue⟩ := htimedOut
          -- with no quote left nothing is started, so the overdue timer is an old one
          by_cases hquotes : (w.sees inputs).quoteActive = []
          · rw [noteStale_pending_of_none hquotes] at hnoted
            rw [noteStale_overdueSince_of_none hquotes] at hoverdue
            exact absurd ⟨hshadow, hquoting, hstale, hopen, hquotes, hnoted, hoverdue⟩ hkept
          · obtain ⟨e, he⟩ := List.exists_mem_of_ne_nil _ hquotes
            refine ⟨e, he, ?_⟩
            rcases noteStale_pending hnoted with hpending | hstarted
            · exact .inl (h hpending e (List.mem_filter.mp he).1 (List.mem_filter.mp he).2)
            · right
              refine ⟨?_, ?_⟩
              · obtain ⟨started, hsome⟩ := Option.isSome_iff_exists.mp hoverdue
                obtain ⟨hstart, hlate⟩ := Option.filter_eq_some_iff.mp hsome
                obtain rfl : (w.sees inputs).now = started :=
                  Option.some.inj (hstarted.symm.trans hstart)
                simpa using hlate
              · rw [hdecision]
                simp only [Decision.stopped, staleDecision, stopActions_stopped]
                exact List.mem_map_of_mem he
        · obtain ⟨e, he⟩ := List.exists_mem_of_ne_nil _ hactive
          exact ⟨e, he, .inl (h hpending e (List.mem_filter.mp he).1 (List.mem_filter.mp he).2)⟩
  | finish executors => exact iff_of_true trivial not_false
  | report executor info => exact iff_of_true trivial not_false
  | watchdog state => exact iff_of_true trivial not_false

theorem timelyTrip_run_iff (h : Draining w) (events : List Event) :
    Along (World.step cfg quoteRefreshReason) (TimelyTrip cfg quoteRefreshReason) w events ↔
      Along (World.step cfg quoteRefreshReason) (fun w event => ¬ OutlivesCancel cfg w event) w
        events := by
  induction events generalizing w with
  | nil => exact Iff.rfl
  | cons event rest ih => exact and_congr (timelyTrip_iff h event) (ih (h.step event))

end Runs

/-- From a fresh controller over any executors, every cancel timeout is for a
quote still active after it was asked to stop iff no stale-data cycle finds an
overdue timer with no quote active. -/
theorem timeout_is_unconfirmed_iff (cfg : PerpMMControllerConfig)
    (quoteRefreshReason : RefreshQuery → Option String) (active : List ExecutorInfo)
    (nextId : ExecutorId) (events : List Event) :
    Along (World.step cfg quoteRefreshReason) (TimelyTrip cfg quoteRefreshReason)
        { controller := .init cfg, active, nextId } events ↔
      Along (World.step cfg quoteRefreshReason) (fun w event => ¬ OutlivesCancel cfg w event)
        { controller := .init cfg, active, nextId } events :=
  timelyTrip_run_iff (fun hpending => by cases hpending) events

/-- The book goes stale, both quotes confirm their cancellation within ten
seconds, and the book stays stale: the timer fires with nothing active. -/
theorem stale_book_times_out_without_quotes :
    let events : List Event :=
      [ .cycle (sampleCycle 0 sampleQuote 0), .cycle (sampleCycle 10 sampleQuote 16),
        .finish [0, 1], .cycle (sampleCycle 20 sampleQuote 26) ]
    let before := run (World.step sampleConfig fun _ => none)
      { controller := .init sampleConfig } events
    before.active = [] ∧ before.created.length = 2 ∧
      (before.decision sampleConfig (fun _ => none) (sampleCycle 30 sampleQuote 36)).timedOut =
        true ∧
      ¬ Along (World.step sampleConfig fun _ => none) (TimelyTrip sampleConfig fun _ => none)
        { controller := .init sampleConfig }
        (events ++ [.cycle (sampleCycle 30 sampleQuote 36)]) := by
  decide +kernel

end Opms.PerpMM
