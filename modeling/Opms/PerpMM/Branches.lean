import Opms.PerpMM.Controller

/-! # The branches of a control cycle

A cycle takes exactly one branch, under the guards listed here. What a batch
creates follows from the branch: nothing, the maker quotes of the last intent
over no active executor, or one close over no active quote.
-/

namespace Opms.PerpMM

open PerpMMController

variable {cfg : PerpMMControllerConfig} {quoteRefreshReason : RefreshQuery → Option String}
  {c : PerpMMController} {cycle : Cycle}

/-- The guards every quoting branch has passed. -/
structure Quotable (cfg : PerpMMControllerConfig) (c : PerpMMController) (cycle : Cycle) :
    Prop where
  quoting : cycle.quoting = true
  fresh : cycle.stale cfg = false
  unsuspended : cycle.quoteSuspended = true → c.quoteLiveness.allowQuotes cycle.now = false

/-- The branches of `determineExecutorActions`. -/
inductive Branch (cfg : PerpMMControllerConfig) (quoteRefreshReason : RefreshQuery → Option String)
    (c : PerpMMController) (cycle : Cycle) : Decision → Prop
  | shadow (hshadow : cfg.shadowMode = true) :
      Branch cfg quoteRefreshReason c cycle { controller := c }
  | suspended (hsuspended : cycle.quoteSuspended = true) (hquoting : cycle.quoting = true)
      (hallowed : c.quoteLiveness.allowQuotes cycle.now = true) :
      Branch cfg quoteRefreshReason c cycle (c.suspendedDecision cfg cycle)
  | stale (hshadow : cfg.shadowMode = false)
      (hopen : ¬ (cycle.quoteSuspended = true ∧ c.quoteLiveness.allowQuotes cycle.now = true))
      (hquoting : cycle.quoting = true) (hstale : cycle.stale cfg = true) :
      Branch cfg quoteRefreshReason c cycle (c.staleDecision cfg cycle)
  | execution (hquotable : Quotable cfg c cycle) (hactive : cycle.executionActive ≠ []) :
      Branch cfg quoteRefreshReason c cycle ((c.executionPlan cycle).decide cfg cycle)
  | refreshPending (hquotable : Quotable cfg c cycle) (hclose : cycle.executionActive = [])
      (hpending : c.quoteRefreshPending = true) :
      Branch cfg quoteRefreshReason c cycle ((c.refreshPendingPlan cfg cycle).decide cfg cycle)
  | circuitOpen (hquotable : Quotable cfg c cycle) (hpending : c.quoteRefreshPending = false)
      (hblocked : c.quoteLiveness.allowQuotes cycle.now = false) :
      Branch cfg quoteRefreshReason c cycle ((c.failsafePlan cfg cycle).decide cfg cycle)
  | tripped (hquotable : Quotable cfg c cycle) (hpending : c.quoteRefreshPending = false)
      (hallowed : c.quoteLiveness.allowQuotes cycle.now = true)
      (htripped : (c.observation cycle).1 = true) :
      Branch cfg quoteRefreshReason c cycle
        (((c.observed cycle).failsafePlan cfg cycle).decide cfg cycle)
  | quoted (hquotable : Quotable cfg c cycle) (hpending : c.quoteRefreshPending = false)
      (hallowed : c.quoteLiveness.allowQuotes cycle.now = true)
      (hquiet : (c.observation cycle).1 = false) (hclose : cycle.executionActive = []) :
      Branch cfg quoteRefreshReason c cycle
        (((c.observed cycle).quotedPlan cfg cycle quoteRefreshReason).decide cfg cycle)
  | quotes (hquotable : Quotable cfg c cycle) (hpending : c.quoteRefreshPending = false)
      (hallowed : c.quoteLiveness.allowQuotes cycle.now = true)
      (hquiet : (c.observation cycle).1 = false) (hactive : cycle.active = []) :
      Branch cfg quoteRefreshReason c cycle
        (Plan.decide cfg cycle {
          controller := c.observed cycle
          newActions := quoteCreateActions cfg cycle (specs cycle) })
  | closing (hquoting : cycle.quoting = false) :
      Branch cfg quoteRefreshReason c cycle ((c.closingPlan cfg cycle).decide cfg cycle)

theorem quotingPlan_branch (hquotable : Quotable cfg c cycle) :
    Branch cfg quoteRefreshReason c cycle
      ((c.quotingPlan cfg cycle quoteRefreshReason).decide cfg cycle) := by
  unfold quotingPlan
  split
  next hactive => exact .execution hquotable hactive
  next hclose =>
    have hclose := not_not.mp hclose
    split
    next hpending => exact .refreshPending hquotable hclose hpending
    next hpending =>
      have hpending := Bool.not_eq_true _ ▸ hpending
      unfold livePlan
      split
      next hblocked => exact .circuitOpen hquotable hpending (by simpa using hblocked)
      next hallowed =>
        have hallowed : c.quoteLiveness.allowQuotes cycle.now = true := by simpa using hallowed
        split
        next htripped => exact .tripped hquotable hpending hallowed htripped
        next hquiet =>
          have hquiet := Bool.not_eq_true _ ▸ hquiet
          split
          next => exact .quoted hquotable hpending hallowed hquiet hclose
          next hactive => exact .quotes hquotable hpending hallowed hquiet (not_not.mp hactive)

/-- Every cycle takes one of the branches. -/
theorem determine_branch (cfg : PerpMMControllerConfig)
    (quoteRefreshReason : RefreshQuery → Option String) (c : PerpMMController) (cycle : Cycle) :
    Branch cfg quoteRefreshReason c cycle
      (c.determineExecutorActions cfg cycle quoteRefreshReason) := by
  unfold determineExecutorActions
  split
  next hshadow => exact .shadow hshadow
  next hlive =>
    split
    next hsuspended => exact .suspended hsuspended.1 hsuspended.2.1 hsuspended.2.2
    next hopen =>
      split
      next hstale =>
        refine .stale (Bool.not_eq_true _ ▸ hlive) (fun hsuspended => ?_) hstale.1 hstale.2
        exact hopen ⟨hsuspended.1, hstale.1, hsuspended.2⟩
      next hfresh =>
        split
        next hquoting =>
          refine quotingPlan_branch ⟨hquoting, ?_, fun hsuspended => ?_⟩
          · simpa [hquoting] using hfresh
          · simpa [hquoting, hsuspended] using hopen
        next hquoting => exact .closing (Bool.not_eq_true _ ▸ hquoting)

/-! ## What is created -/

/-- The configurations a batch creates. -/
def Decision.created (decision : Decision) : List ExecutorConfig :=
  decision.actions.filterMap ExecutorAction.created?

/-- The executors a batch stops. -/
def Decision.stopped (decision : Decision) : List ExecutorId :=
  decision.actions.filterMap ExecutorAction.stopped?

@[simp] theorem stopActions_created (executors : List ExecutorInfo) :
    (stopActions cfg executors).filterMap ExecutorAction.created? = [] := by
  simp [stopActions, ExecutorAction.created?]

@[simp] theorem stopActions_stopped (executors : List ExecutorInfo) :
    (stopActions cfg executors).filterMap ExecutorAction.stopped? = executors.map (·.id) := by
  simp [stopActions, List.filterMap_map, Function.comp_def, ExecutorAction.stopped?]

theorem quoteCreateActions_created (legs : List OrderSpec) :
    (quoteCreateActions cfg cycle legs).filterMap ExecutorAction.created? =
      (legs.filterMap (quoteConfig cfg cycle)).map .bufferedMaker := by
  simp [quoteCreateActions, List.filterMap_map, Function.comp_def, ExecutorAction.created?]

@[simp] theorem Plan.decide_created (plan : Plan) :
    (plan.decide cfg cycle).created = plan.newActions.filterMap ExecutorAction.created? := by
  simp [Decision.created, Plan.decide]

@[simp] theorem Plan.decide_controller (plan : Plan) :
    (plan.decide cfg cycle).controller = plan.controller := rfl

theorem closingPlan_controller : (c.closingPlan cfg cycle).controller =
    { c.suspendLiveness with quoteRefreshPending := false } := by
  unfold closingPlan
  dsimp only
  split <;> rfl

/-- A maker quote is a quote, on the side of its leg. -/
theorem quoteConfig_facts {spec : OrderSpec} {config : BufferedMakerExecutorConfig}
    (hconfig : quoteConfig cfg cycle spec = some config) :
    (ExecutorConfig.bufferedMaker config).isQuote = true ∧ spec.side = some config.side := by
  unfold quoteConfig at hconfig
  obtain ⟨side, hside, hconfig⟩ := Option.bind_eq_some_iff.mp hconfig
  split at hconfig
  next => cases hconfig
  next =>
    obtain ⟨price, _, hconfig⟩ := Option.bind_eq_some_iff.mp hconfig
    dsimp only at hconfig
    split at hconfig
    next => cases hconfig
    next =>
      obtain rfl := Option.some.inj hconfig
      exact ⟨by simp [ExecutorConfig.isQuote, ExecutorConfig.orderConfig?], hside⟩

/-- An intent has at most one leg per side. -/
theorem intentToOrderSpecs_sides (intent : Option ExecIntent) :
    ((intentToOrderSpecs intent).map (·.side)).Nodup := by
  unfold intentToOrderSpecs
  split
  next => exact List.nodup_nil
  next =>
    split
    next => exact List.nodup_nil
    next =>
      split <;> split <;> simp

/-- The maker quotes of one cycle are on different sides. -/
theorem quoteConfigs_sides :
    (((specs cycle).filterMap (quoteConfig cfg cycle)).map fun config => config.side).Nodup := by
  have hlegs : ((specs cycle).map (·.side)).Nodup :=
    (intentToOrderSpecs_sides cycle.lastIntent).sublist (List.filter_sublist.map _)
  generalize specs cycle = legs at hlegs
  induction legs with
  | nil => exact List.nodup_nil
  | cons spec rest ih =>
      rw [List.map_cons, List.nodup_cons] at hlegs
      rw [List.filterMap_cons]
      split
      next => exact ih hlegs.2
      next config hconfig =>
        rw [List.map_cons, List.nodup_cons]
        refine ⟨fun hmem => ?_, ih hlegs.2⟩
        obtain ⟨other, hother, hside⟩ := List.mem_map.mp hmem
        obtain ⟨leg, hleg, hotherConfig⟩ := List.mem_filterMap.mp hother
        apply hlegs.1
        rw [(quoteConfig_facts hconfig).2, ← hside, ← (quoteConfig_facts hotherConfig).2]
        exact List.mem_map_of_mem hleg

/-- A close is no quote, and cannot open a position when it is reduce-only. -/
theorem executionConfig_facts (req : ExecutionRequest) :
    (executionConfig cfg cycle req).isQuote = false ∧
      (req.reduceOnly = true → (executionConfig cfg cycle req).positionAction = .close) := by
  unfold executionConfig
  split
  next => exact ⟨rfl, fun h => by simp [ExecutorConfig.positionAction, deRiskConfig, h]⟩
  next => exact ⟨rfl, fun h => by simp [ExecutorConfig.positionAction, deRiskConfig, h]⟩
  next => exact ⟨rfl, fun h => by simp [ExecutorConfig.positionAction, deRiskConfig, h]⟩
  next =>
    split
    next =>
      refine ⟨?_, fun h => by simp [ExecutorConfig.positionAction, h]⟩
      simp [ExecutorConfig.isQuote, ExecutorConfig.orderConfig?]
    next => exact ⟨rfl, fun h => by simp [ExecutorConfig.positionAction, deRiskConfig, h]⟩

/-- At most one close, over no active quote. -/
inductive Closes (cfg : PerpMMControllerConfig) (cycle : Cycle) : List ExecutorConfig → Prop
  | nothing : Closes cfg cycle []
  | close (req : ExecutionRequest) (hreduce : req.reduceOnly = true)
      (hquotes : cycle.quoteActive = []) : Closes cfg cycle [executionConfig cfg cycle req]

/-- What a batch can create. -/
inductive Creation (cfg : PerpMMControllerConfig) (cycle : Cycle) : List ExecutorConfig → Prop
  | closes {configs : List ExecutorConfig} (hcloses : Closes cfg cycle configs) :
      Creation cfg cycle configs
  | quotes (hactive : cycle.active = []) :
      Creation cfg cycle (((specs cycle).filterMap (quoteConfig cfg cycle)).map .bufferedMaker)

theorem Closes.isQuote {configs : List ExecutorConfig} (h : Closes cfg cycle configs) :
    ∀ config ∈ configs, config.isQuote = false := by
  intro config hconfig
  cases h with
  | nothing => cases hconfig
  | close req hreduce hquotes =>
      rw [List.mem_singleton.mp hconfig]
      exact (executionConfig_facts req).1

theorem failsafePlan_closes :
    Closes cfg cycle ((c.failsafePlan cfg cycle).decide cfg cycle).created := by
  rw [Plan.decide_created]
  unfold failsafePlan
  dsimp only
  split
  next req hreq =>
    split
    next hactive =>
      refine .close req ?_ (by simp [Cycle.quoteActive, hactive])
      unfold quoteFailsafeRequest at hreq
      split at hreq
      next => cases hreq
      next =>
        split at hreq
        next => cases hreq
        next => rw [← Option.some.inj hreq]
    next => exact .nothing
  next => exact .nothing

/-- A request of an intent is reduce-only. -/
theorem intentToExecutionRequest_reduceOnly {intent : Option ExecIntent} {req : ExecutionRequest}
    (hreq : intentToExecutionRequest intent = some req) : req.reduceOnly = true := by
  unfold intentToExecutionRequest at hreq
  split at hreq
  next => cases hreq
  next =>
    split at hreq
    next => cases hreq
    next =>
      dsimp only at hreq
      split at hreq
      next => cases hreq
      next => rw [← Option.some.inj hreq]

theorem wantedActions_closes :
    Closes cfg cycle ((wantedActions cfg cycle).filterMap ExecutorAction.created?) := by
  unfold wantedActions
  split
  next req hreq =>
    split
    next hquotes => exact .close req (intentToExecutionRequest_reduceOnly hreq) hquotes
    next => exact .nothing
  next => exact .nothing

theorem closingPlan_closes :
    Closes cfg cycle ((c.closingPlan cfg cycle).decide cfg cycle).created := by
  rw [Plan.decide_created]
  unfold closingPlan
  dsimp only
  split
  next =>
    dsimp only
    split
    next => exact .nothing
    next => exact wantedActions_closes
  next => exact .nothing

theorem refreshPendingPlan_creation :
    Creation cfg cycle ((c.refreshPendingPlan cfg cycle).decide cfg cycle).created := by
  rw [Plan.decide_created]
  unfold refreshPendingPlan
  dsimp only
  split
  next => exact .closes .nothing
  next hactive =>
    rw [quoteCreateActions_created]
    exact .quotes (not_not.mp hactive)

/-- In every branch the batch creates nothing, quotes, or one close. -/
theorem Branch.creation {decision : Decision}
    (h : Branch cfg quoteRefreshReason c cycle decision) :
    Creation cfg cycle decision.created := by
  cases h with
  | shadow hshadow => exact .closes .nothing
  | suspended hsuspended hquoting hallowed =>
      simp only [Decision.created, suspendedDecision, stopActions_created]
      exact .closes .nothing
  | stale hshadow hopen hquoting hstale =>
      simp only [Decision.created, staleDecision, stopActions_created]
      exact .closes .nothing
  | execution hquotable hactive =>
      rw [Plan.decide_created]
      exact .closes .nothing
  | refreshPending hquotable hclose hpending => exact refreshPendingPlan_creation
  | circuitOpen hquotable hpending hblocked => exact .closes failsafePlan_closes
  | tripped hquotable hpending hallowed htripped => exact .closes failsafePlan_closes
  | quoted hquotable hpending hallowed hquiet hclose =>
      rw [Plan.decide_created]
      unfold quotedPlan
      split <;> exact .closes .nothing
  | quotes hquotable hpending hallowed hquiet hactive =>
      rw [Plan.decide_created, quoteCreateActions_created]
      exact .quotes hactive
  | closing hquoting => exact .closes closingPlan_closes

end Opms.PerpMM
