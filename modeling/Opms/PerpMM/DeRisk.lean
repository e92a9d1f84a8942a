import Opms.PerpMM.Branches
import Opms.PerpMM.CloseSizing

/-! # A running close under a refreshed intent

An executor is kept when its signature is the wanted one. The signature holds
the amount the executor was created with, and the wanted amount is the gap left
now, so the executor's own partial fills replace it.
-/

namespace Opms.PerpMM

open Foundation PerpMMController

variable {cfg : PerpMMControllerConfig} {quoteRefreshReason : RefreshQuery → Option String}
  {c : PerpMMController}

/-! ## Signatures -/

/-- The request is too small for a passive attempt and urgent enough to cross. -/
def marketOnly (cycle : Cycle) (req : ExecutionRequest) : Bool :=
  match req.urgency with
  | .passive | .normal | .immediate => false
  | _ => req.amount < cycle.rules.minOrderSize

/-- The child clock of a close that makes a passive attempt. -/
def childTimeLimit (cfg : PerpMMControllerConfig) : Urgency → ℚ
  | .passive | .normal => 60
  | .immediate => cfg.quoteStopTimeLimit
  | _ => 5

theorem executionConfig_signature (cycle : Cycle) (req : ExecutionRequest) :
    (executionConfig cfg cycle req).executionSignature =
      if marketOnly cycle req then (.orderExecutor, req.side, none, req.amount)
      else (.passiveAggressiveExecutor, req.side, some (childTimeLimit cfg req.urgency),
        req.amount) := by
  unfold executionConfig marketOnly childTimeLimit
  cases req.urgency with
  | passive => rfl
  | normal => rfl
  | immediate => rfl
  | emergency =>
      by_cases hsmall : req.amount < cycle.rules.minOrderSize
      · simp [hsmall]
        rfl
      · simp [hsmall]
        rfl
  | other label =>
      by_cases hsmall : req.amount < cycle.rules.minOrderSize
      · simp [hsmall]
        rfl
      · simp [hsmall]
        rfl

/-- Requests of one side and urgency are the same work iff amount and kind agree. -/
theorem signature_eq_iff {first second : Cycle} {req req' : ExecutionRequest}
    (hside : req.side = req'.side) (hurgency : req.urgency = req'.urgency) :
    (executionConfig cfg first req).executionSignature =
        (executionConfig cfg second req').executionSignature ↔
      req.amount = req'.amount ∧ marketOnly first req = marketOnly second req' := by
  rw [executionConfig_signature, executionConfig_signature, hside, hurgency]
  cases marketOnly first req with
  | true => cases marketOnly second req' <;> simp
  | false => cases marketOnly second req' <;> simp

/-! ## One cycle of a stop -/

/-- The batch neither stops the executor nor creates another. -/
def KeepsWorking (executor : ExecutorInfo) (decision : Decision) : Prop :=
  executor.id ∉ decision.stopped ∧ decision.created = []

instance (executor : ExecutorInfo) (decision : Decision) :
    Decidable (KeepsWorking executor decision) := inferInstanceAs (Decidable (_ ∧ _))

theorem determine_of_stop {cycle : Cycle} (hshadow : cfg.shadowMode = false)
    (hquoting : cycle.quoting = false) :
    c.determineExecutorActions cfg cycle quoteRefreshReason =
      (c.closingPlan cfg cycle).decide cfg cycle := by
  simp [determineExecutorActions, hshadow, hquoting]

/-- What a stop keeps: everything but quotes while these drain, else the
executors on the wanted work. -/
theorem closingPlan_keep (cfg : PerpMMControllerConfig) (c : PerpMMController) {cycle : Cycle}
    {req : ExecutionRequest} (hreq : intentToExecutionRequest cycle.lastIntent = some req) :
    (c.closingPlan cfg cycle).keep =
        (if cycle.quoteActive = [] then sameWork cycle (executionConfig cfg cycle req)
        else cycle.executionActive.map (·.id)) ∧
      (c.closingPlan cfg cycle).newActions =
        (if cycle.quoteActive = [] ∧ sameWork cycle (executionConfig cfg cycle req) = [] then
          executionActions cfg cycle req else []) := by
  by_cases hquotes : cycle.quoteActive = []
  · have hwanted : wantedActions cfg cycle = executionActions cfg cycle req := by
      simp [wantedActions, hreq, hquotes]
    simp only [closingPlan, hwanted, hquotes, executionActions, List.head?_cons, Option.bind_some,
      ExecutorAction.created?]
    refine ⟨by simp, ?_⟩
    by_cases hkeep : sameWork cycle (executionConfig cfg cycle req) = []
    · simp [hkeep]
    · simp [hkeep]
  · have hwanted : wantedActions cfg cycle = [] := by simp [wantedActions, hreq, hquotes]
    simp [closingPlan, hwanted, hquotes]

theorem mem_stopped_iff {cycle : Cycle} {plan : Plan} {executor : ExecutorInfo}
    (hactive : executor ∈ cycle.active) (hcreate : ∀ action ∈ plan.newActions,
      action.stopped? = none) :
    executor.id ∈ (plan.decide cfg cycle).stopped ↔ executor.id ∉ plan.keep := by
  have hnew : plan.newActions.filterMap ExecutorAction.stopped? = [] :=
    List.filterMap_eq_nil_iff.mpr hcreate
  simp only [Decision.stopped, Plan.decide, List.filterMap_append, stopActions_stopped, hnew,
    List.append_nil, List.mem_map, List.mem_filter]
  constructor
  · rintro ⟨other, ⟨_, hother⟩, hsame⟩
    simpa [hsame] using hother
  · intro hout
    exact ⟨executor, ⟨hactive, by simpa using hout⟩, rfl⟩

/-- A stop keeps an executor on its request's work iff quotes are draining or
the wanted amount and kind are the executor's. -/
theorem keepsWorking_iff {first cycle : Cycle} {req req' : ExecutionRequest}
    {executor : ExecutorInfo} (hreq : intentToExecutionRequest cycle.lastIntent = some req)
    (hconfig : executor.config = executionConfig cfg first req')
    (hside : req.side = req'.side) (hurgency : req.urgency = req'.urgency)
    (hactive : executor ∈ cycle.active) (hids : (cycle.active.map (·.id)).Nodup) :
    KeepsWorking executor ((c.closingPlan cfg cycle).decide cfg cycle) ↔
      cycle.quoteActive ≠ [] ∨
        req.amount = req'.amount ∧ marketOnly cycle req = marketOnly first req' := by
  obtain ⟨hkeep, hnew⟩ := closingPlan_keep cfg c hreq
  have hcreates : ∀ action ∈ (c.closingPlan cfg cycle).newActions, action.stopped? = none := by
    intro action haction
    rw [hnew] at haction
    split at haction
    next =>
      rw [List.mem_singleton.mp haction]
      rfl
    next => cases haction
  rw [KeepsWorking, mem_stopped_iff hactive hcreates, not_not, Plan.decide_created, hkeep, hnew]
  by_cases hquotes : cycle.quoteActive = []
  · rw [if_pos hquotes, ← signature_eq_iff hside hurgency, ← hconfig]
    simp only [hquotes, true_and, ne_eq, not_true_eq_false, false_or]
    constructor
    · rintro ⟨hmem, _⟩
      obtain ⟨other, hother, hsame⟩ := List.mem_map.mp hmem
      obtain ⟨hother, hsignature⟩ := List.mem_filter.mp hother
      -- ids are distinct, so the kept executor is this one
      obtain rfl : other = executor := List.inj_on_of_nodup_map hids hother hactive hsame
      exact (of_decide_eq_true hsignature).symm
    · intro hsignature
      have hmem : executor.id ∈ sameWork cycle (executionConfig cfg cycle req) :=
        List.mem_map_of_mem (List.mem_filter.mpr ⟨hactive, decide_eq_true hsignature.symm⟩)
      refine ⟨hmem, ?_⟩
      rw [if_neg (List.ne_nil_of_mem hmem)]
      rfl
  · rw [if_neg hquotes, if_neg fun hboth => hquotes hboth.1]
    refine iff_of_true ⟨List.mem_map_of_mem (List.mem_filter.mpr ⟨hactive, ?_⟩), rfl⟩
      (.inl hquotes)
    rw [ExecutorInfo.isQuoteExecutor, hconfig, (executionConfig_facts req').1]
    rfl

/-! ## Runs of a refreshed intent -/

/-- A cycle under the stop refreshed: the executor runs, and the inventory is
on the same side of the same target, no further from it, and not yet there. -/
structure Refreshed (intent : ExecIntent) (executor : ExecutorInfo) (cycle : Cycle)
    (next : ExecIntent) : Prop where
  running : executor ∈ cycle.active
  ids : (cycle.active.map (·.id)).Nodup
  latest : cycle.lastIntent = some next
  stop : next.quote = none
  target : next.targetInventory = intent.targetInventory
  urgency : next.urgency = intent.urgency
  side : 0 < next.targetInventory - next.current ↔ 0 < intent.targetInventory - intent.current
  closer : |next.targetInventory - next.current| ≤ |intent.targetInventory - intent.current|
  unreached : flatTolerance ≤ |next.targetInventory - next.current|

/-- Quotes are still draining, or the inventory has not moved and the venue's
minimum size asks for the same kind of executor. -/
def StillFits (first : Cycle) (intent : ExecIntent) (cycle : Cycle) : Prop :=
  cycle.quoteActive ≠ [] ∨
    (∀ next ∈ cycle.lastIntent, next.current = intent.current) ∧
      ∀ req ∈ intentToExecutionRequest (some intent), marketOnly cycle req = marketOnly first req

instance (first : Cycle) (intent : ExecIntent) (cycle : Cycle) :
    Decidable (StillFits first intent cycle) := inferInstanceAs (Decidable (_ ∨ _ ∧ _))

/-- A stop with a gap has a request for it. -/
theorem request_of_stop {intent : ExecIntent} (hstop : intent.quote = none)
    (hgap : flatTolerance ≤ |intent.targetInventory - intent.current|) :
    ∃ req, intentToExecutionRequest (some intent) = some req ∧ req.urgency = intent.urgency := by
  simp [intentToExecutionRequest, hstop, not_lt.mpr hgap]

theorem refreshed_keepsWorking_iff {first cycle : Cycle} {intent next : ExecIntent}
    {req : ExecutionRequest} {executor : ExecutorInfo}
    (hreq : intentToExecutionRequest (some intent) = some req)
    (hurgency : req.urgency = intent.urgency)
    (hconfig : executor.config = executionConfig cfg first req)
    (h : Refreshed intent executor cycle next) :
    KeepsWorking executor ((c.closingPlan cfg cycle).decide cfg cycle) ↔
      StillFits first intent cycle := by
  obtain ⟨hquote, _, hamount, hside⟩ := request_facts hreq
  obtain ⟨next', hnext, hurgency'⟩ := request_of_stop h.stop h.unreached
  obtain ⟨_, _, hamount', hside'⟩ := request_facts hnext
  have hsides : next'.side = req.side := by
    have hiff : next'.side = .buy ↔ req.side = .buy := hside'.trans (h.side.trans hside.symm)
    cases hbuy : next'.side <;> cases hbuy' : req.side <;> simp_all
  have hurgencies : next'.urgency = req.urgency :=
    hurgency'.trans (h.urgency.trans hurgency.symm)
  have hgaps : next'.amount = req.amount ↔ next.current = intent.current := by
    rw [hamount, hamount', h.target]
    constructor
    · intro habs
      rcases abs_eq_abs.mp habs with heq | hneg
      · linarith
      · -- opposite gaps of one size would be on different sides
        have hpos := flatTolerance_pos.trans_le h.unreached
        have hsame := h.side
        rw [h.target] at hpos hsame
        rcases (abs_pos.mp hpos).lt_or_gt with hlt | hgt
        · have := hsame.mpr (by linarith)
          linarith
        · have := hsame.mp hgt
          linarith
    · intro heq
      rw [heq]
  rw [keepsWorking_iff (h.latest ▸ hnext) hconfig hsides hurgencies h.running h.ids, StillFits,
    hgaps]
  refine or_congr Iff.rfl ?_
  simp only [h.latest, hreq, Option.mem_some_iff, forall_eq']
  refine and_congr_right fun hcurrent => ?_
  have hsame : next'.amount = req.amount := hgaps.mpr hcurrent
  have honly : marketOnly cycle next' = marketOnly cycle req := by
    simp only [marketOnly, hsame, hurgencies]
  rw [honly]

/-- A cycle that creates something is not in shadow mode. -/
theorem shadowMode_of_created {cycle : Cycle} {config : ExecutorConfig}
    (hcreated : config ∈ (c.determineExecutorActions cfg cycle quoteRefreshReason).created) :
    cfg.shadowMode = false := by
  by_contra hshadow
  simp [determineExecutorActions, Bool.not_eq_false _ ▸ hshadow, Decision.created] at hcreated

/-- The close a cycle creates for a stop works the stop's request. -/
theorem created_of_stop {cycle : Cycle} {intent : ExecIntent} {config : ExecutorConfig}
    (hintent : cycle.lastIntent = some intent) (hstop : intent.quote = none)
    (hcreated : config ∈ (c.determineExecutorActions cfg cycle quoteRefreshReason).created) :
    ∃ req, intentToExecutionRequest (some intent) = some req ∧ req.urgency = intent.urgency ∧
      config = executionConfig cfg cycle req := by
  have hquoting : cycle.quoting = false := by simp [Cycle.quoting, intentIsQuoting, hintent, hstop]
  rw [determine_of_stop (shadowMode_of_created hcreated) hquoting, Plan.decide_created] at hcreated
  by_cases hgap : flatTolerance ≤ |intent.targetInventory - intent.current|
  · obtain ⟨req, hreq, hurgency⟩ := request_of_stop hstop hgap
    refine ⟨req, hreq, hurgency, ?_⟩
    rw [(closingPlan_keep cfg c (hintent ▸ hreq)).2] at hcreated
    split at hcreated
    next =>
      rw [executionActions, List.filterMap_cons] at hcreated
      exact List.mem_singleton.mp hcreated
    next => cases hcreated
  · have hnone : intentToExecutionRequest cycle.lastIntent = none := by
      simp [intentToExecutionRequest, hintent, hstop, not_le.mp hgap]
    simp [closingPlan, wantedActions, hnone] at hcreated

/-- An executor created for a stop is left alone by every cycle of a refreshed
intent iff in each the inventory is where it was, or quotes are draining. -/
theorem deRisk_left_alone_iff (cfg : PerpMMControllerConfig)
    (quoteRefreshReason : RefreshQuery → Option String) (c : PerpMMController) (first : Cycle)
    (intent : ExecIntent) (hintent : first.lastIntent = some intent)
    (hstop : intent.quote = none) (executor : ExecutorInfo)
    (hcreated : executor.config ∈
      (c.determineExecutorActions cfg first quoteRefreshReason).created)
    (cycles : List Cycle)
    (hcycles : ∀ cycle ∈ cycles, ∃ next, Refreshed intent executor cycle next) :
    Along (controlCycle cfg quoteRefreshReason)
        (fun c cycle => KeepsWorking executor
          (c.determineExecutorActions cfg cycle quoteRefreshReason))
        (controlCycle cfg quoteRefreshReason c first) cycles ↔
      ∀ cycle ∈ cycles, StillFits first intent cycle := by
  obtain ⟨req, hreq, hurgency, hconfig⟩ := created_of_stop hintent hstop hcreated
  have hshadow := shadowMode_of_created hcreated
  have hcycle : ∀ (c : PerpMMController) (cycle : Cycle), cycle ∈ cycles →
      (KeepsWorking executor (c.determineExecutorActions cfg cycle quoteRefreshReason) ↔
        StillFits first intent cycle) := by
    intro c cycle hmem
    obtain ⟨next, hnext⟩ := hcycles cycle hmem
    have hquoting : cycle.quoting = false := by
      simp [Cycle.quoting, intentIsQuoting, hnext.latest, hnext.stop]
    rw [determine_of_stop hshadow hquoting]
    exact refreshed_keepsWorking_iff hreq hurgency hconfig hnext
  clear hcycles hcreated
  generalize controlCycle cfg quoteRefreshReason c first = start
  induction cycles generalizing start with
  | nil => simp [Along]
  | cons cycle rest ih =>
      rw [Along, List.forall_mem_cons, hcycle start cycle List.mem_cons_self]
      exact and_congr_right fun _ =>
        ih (fun c other hother => hcycle c other (List.mem_cons_of_mem cycle hother)) _

/-- The executor that flattens half a unit. -/
def sampleClose : ExecutorInfo where
  id := 0
  config := executionConfig sampleConfig (sampleCycle 0 (sampleStop (1 / 2)) 0)
    { side := .sell, amount := 1 / 2, urgency := .normal }

/-- A later cycle with that executor running. -/
def sampleClosing (now current : ℚ) : Cycle :=
  { sampleCycle now (sampleStop current) 0 with active := [sampleClose] }

theorem sampleClosing_refreshed {now current : ℚ} (hleft : flatTolerance ≤ current)
    (hfilled : current ≤ 1 / 2) :
    Refreshed (sampleStop (1 / 2)) sampleClose (sampleClosing now current)
      (sampleStop current) := by
  have hpos : 0 < current := flatTolerance_pos.trans_le hleft
  have hgap : |(sampleStop current).targetInventory - (sampleStop current).current| = current := by
    simp [sampleStop, ExecIntent.current, abs_of_pos hpos]
  refine ⟨List.mem_singleton_self _, List.nodup_singleton _, rfl, rfl, rfl, rfl, ?_, ?_, ?_⟩
  · simp only [sampleStop, ExecIntent.current, Option.getD_some]
    constructor <;> intro h <;> linarith
  · rw [hgap]
    refine hfilled.trans (le_of_eq ?_)
    norm_num [sampleStop, ExecIntent.current]
  · rw [hgap]
    exact hleft

theorem deRisk_left_alone_iff_unfilled :
    Along (controlCycle sampleConfig fun _ => none)
      (fun c cycle => KeepsWorking sampleClose
        (c.determineExecutorActions sampleConfig cycle fun _ => none))
      (controlCycle sampleConfig (fun _ => none) (.init sampleConfig)
        (sampleCycle 0 (sampleStop (1 / 2)) 0))
      [sampleClosing 5 (1 / 2)] :=
  (deRisk_left_alone_iff sampleConfig (fun _ => none) (.init sampleConfig)
    (sampleCycle 0 (sampleStop (1 / 2)) 0) (sampleStop (1 / 2)) rfl rfl sampleClose
    (by decide +kernel) [sampleClosing 5 (1 / 2)] fun cycle hcycle => ⟨sampleStop (1 / 2), by
      rw [List.mem_singleton.mp hcycle]
      exact sampleClosing_refreshed (by norm_num [flatTolerance]) (le_refl _)⟩).mpr
    (by decide +kernel)

/-- A fifth of the close fills, and the next cycle replaces the executor. -/
theorem partial_fill_replaces_close :
    sampleClose.config ∈ (PerpMMController.determineExecutorActions sampleConfig
        (.init sampleConfig) (sampleCycle 0 (sampleStop (1 / 2)) 0) fun _ => none).created ∧
      Refreshed (sampleStop (1 / 2)) sampleClose (sampleClosing 5 (2 / 5)) (sampleStop (2 / 5)) ∧
      ¬ Along (controlCycle sampleConfig fun _ => none)
        (fun c cycle => KeepsWorking sampleClose
          (c.determineExecutorActions sampleConfig cycle fun _ => none))
        (controlCycle sampleConfig (fun _ => none) (.init sampleConfig)
          (sampleCycle 0 (sampleStop (1 / 2)) 0))
        [sampleClosing 5 (2 / 5)] :=
  ⟨by decide +kernel, sampleClosing_refreshed (by norm_num [flatTolerance]) (by norm_num),
    by decide +kernel⟩

end Opms.PerpMM
