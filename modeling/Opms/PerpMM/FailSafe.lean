import Opms.PerpMM.ControlTask
import Opms.PerpMM.MarginReadings
import Opms.PerpMM.DeRisk
import Opms.PerpMM.CloseSizing
import Opms.PerpMM.RunningClose
import Opms.PortfolioStop.Verdict

/-! # A failed task fails safe

What the parts of a task can change is said once, field by field; a task that
does not complete ends in the decision on a latched flatten, unless counting
the failure raises.
-/

namespace Opms.PerpMM

open Foundation PortfolioStop PerpMMController

universe u

namespace ControlState

variable {members : Finset Leg} {Raw : Type u} (usdcFlatTargets : FlatTargets)
  (validationErrors : ExecIntent → List String) (rule : FailClosed Raw)
  (cfg : ControlConfig members) (quoteRefreshReason : RefreshQuery → Option String)
  (s : ControlState)

/-! ## What the parts change -/

theorem portfolioTransform_state (call : TransformCall) :
    ∃ table, (s.portfolioTransform usdcFlatTargets cfg call).1 = { s with table } := by
  unfold portfolioTransform
  split
  next => exact ⟨s.table, rfl⟩
  next => exact ⟨_, rfl⟩

theorem publish_state (turn : Turn Raw) (position : ℚ) :
    ∃ table, s.publishPortfolioEmergency usdcFlatTargets cfg turn position =
      { s with table } := by
  unfold publishPortfolioEmergency
  split
  next => exact ⟨s.table, rfl⟩
  next => exact ⟨_, rfl⟩

/-- A forced flatten changes the last intent and the basket's table. -/
theorem forceFlattenIntent_state (turn : Turn Raw) :
    ∃ table, s.forceFlattenIntent usdcFlatTargets cfg turn = { s with
      client := { s.client with lastIntent := some (cfg.flattenIntent turn) }, table } :=
  publish_state usdcFlatTargets cfg _ turn (cfg.flattenFrom turn)

/-- A decision changes the controller and the basket's table. -/
theorem decide_state (turn : Turn Raw) (notices : List Notice) (completed : Bool) :
    ∃ controller table, (s.decide usdcFlatTargets cfg quoteRefreshReason turn notices
      completed).state = { s with controller, table } := by
  unfold decide
  dsimp only
  split
  next => exact ⟨_, s.table, rfl⟩
  next position _ =>
    obtain ⟨table, htable⟩ := publish_state usdcFlatTargets cfg
      { s with controller := (s.controller.determineExecutorActions cfg.toPerpMMControllerConfig
        (s.sees cfg turn) quoteRefreshReason).controller } turn position
    exact ⟨_, table, htable⟩

/-- The keeper reaches the client and the basket only. -/
theorem keeperCalls_state (calls : List KeeperCall) :
    ∃ client table, s.keeperCalls usdcFlatTargets validationErrors cfg calls =
      { s with client, table } := by
  induction calls generalizing s with
  | nil => exact ⟨s.client, s.table, rfl⟩
  | cons call rest ih =>
      obtain ⟨client, table, hrest⟩ := ih (s.keeperCall usdcFlatTargets validationErrors cfg call)
      refine ⟨client, table, hrest.trans ?_⟩
      cases call with
      | send intent => rfl
      | transform call =>
          obtain ⟨_, htable⟩ := portfolioTransform_state usdcFlatTargets cfg s call
          rw [keeperCall, htable]

theorem reconcile_state (call : Option TransformCall) :
    ∃ client table, (s.reconcile usdcFlatTargets validationErrors cfg call).state =
      { s with client, table } := by
  cases call with
  | none => exact ⟨s.client, s.table, rfl⟩
  | some call =>
      obtain ⟨table, htable⟩ := portfolioTransform_state usdcFlatTargets cfg s
        { call with decision := .other, intent := none }
      simp only [reconcile]
      split
      next hbasket => exact ⟨s.client, table, by rw [← htable, hbasket]⟩
      next hbasket => exact ⟨s.client, table, by rw [← htable, hbasket]⟩
      next hbasket =>
        rw [hbasket] at htable
        dsimp only at htable
        split
        next =>
          split
          next => exact ⟨s.client, table, htable⟩
          next client _ => exact ⟨client, table, by rw [htable]⟩
        next => exact ⟨s.client, table, htable⟩

/-- Whether quoting is suspended is what the update has just read of the equity. -/
theorem evaluate_state (update : Update Raw) (equity : Option ℚ) :
    ∃ client table drawdownBaseline,
      (s.evaluate usdcFlatTargets validationErrors cfg update equity).state = { s with
        client, table, drawdownBaseline
        equityResolved := some equity.isSome
        quoteSuspensionReason := if equity.isSome then none else some "equity_unresolved" } := by
  have hpeak : ∀ (s : ControlState) seeded, ∃ drawdownBaseline,
      (s.notePeakEquity seeded).state = { s with drawdownBaseline } := by
    intro s seeded
    unfold notePeakEquity
    split
    next => split <;> exact ⟨_, rfl⟩
    next => split <;> exact ⟨_, rfl⟩
  unfold evaluate
  dsimp only
  generalize hevaluated : (if equity.isSome = true then _ else _ : Progress) = evaluated
  have hstate : ∃ client table, evaluated.state = { (s.noteEquity equity).state with
      client, table } := by
    rw [← hevaluated]
    split
    next => exact keeperCalls_state usdcFlatTargets validationErrors cfg _ update.tick.calls
    next => exact reconcile_state usdcFlatTargets validationErrors cfg _ update.reconcile
  obtain ⟨client, table, hstate⟩ := hstate
  split
  next =>
    obtain ⟨drawdownBaseline, hpeak⟩ := hpeak evaluated.state update.peakSeeded
    exact ⟨client, table, drawdownBaseline, by rw [hpeak, hstate]; rfl⟩
  next => exact ⟨client, table, s.drawdownBaseline, by rw [hstate]; rfl⟩

/-- An update leaves the decision's own state alone, and whether the market was
ready. -/
theorem update_state (update : Update Raw) :
    let progress := s.updateProcessedData usdcFlatTargets validationErrors rule cfg update
    progress.state.controller = s.controller ∧
      progress.state.marketDataUnready = s.marketDataUnready := by
  dsimp only
  unfold updateProcessedData
  split
  next => exact ⟨rfl, rfl⟩
  next =>
    dsimp only
    split
    next => exact ⟨rfl, rfl⟩
    next market _ =>
      obtain ⟨client, table, hcalls⟩ := keeperCalls_state usdcFlatTargets validationErrors cfg _
        update.snapshot.calls
      rw [hcalls]
      split
      next => exact ⟨rfl, rfl⟩
      next =>
        obtain ⟨client, table, baseline, hstate⟩ := evaluate_state usdcFlatTargets
          validationErrors cfg _ update (currentEquity cfg.collateralAsset market.balances)
        rw [hstate]
        exact ⟨rfl, rfl⟩

/-- An update that completes has read the market, and suspends quoting exactly
if it found no equity. -/
theorem update_completed {update : Update Raw}
    (hcompleted : (s.updateProcessedData usdcFlatTargets validationErrors rule cfg
      update).completed = true) :
    ∃ market, update.market = some market ∧
      (s.updateProcessedData usdcFlatTargets validationErrors rule cfg
        update).state.quoteSuspensionReason.isSome =
        (currentEquity cfg.collateralAsset market.balances).isNone := by
  revert hcompleted
  unfold updateProcessedData
  split
  next => exact fun hcompleted => by cases hcompleted
  next =>
    dsimp only
    split
    next => exact fun hcompleted => by cases hcompleted
    next market hmarket =>
      split
      next => exact fun hcompleted => by cases hcompleted
      next =>
        intro _
        refine ⟨market, hmarket, ?_⟩
        obtain ⟨client, table, baseline, hstate⟩ := evaluate_state usdcFlatTargets
          validationErrors cfg
          (keeperCalls usdcFlatTargets validationErrors cfg _ update.snapshot.calls)
          update (currentEquity cfg.collateralAsset market.balances)
        rw [hstate]
        dsimp only
        cases currentEquity cfg.collateralAsset market.balances <;> rfl

/-- A margin reading counts at most one more failure. -/
theorem margin_failures (connector : Connector) (circuit : VenueCircuitBreaker)
    (call : MarginCall Raw) :
    (currentMarginAvailable rule cfg.margin connector circuit call).circuit.consecutiveFailures ≤
      circuit.consecutiveFailures + 1 := by
  have hrequest : (venueRequest circuit call.requestedAt call.reply).2.consecutiveFailures ≤
      circuit.consecutiveFailures + 1 := by
    unfold venueRequest
    split
    next => exact Nat.le_succ _
    next =>
      split
      next => exact le_refl _
      next => exact Nat.zero_le _
  unfold currentMarginAvailable
  split
  next => exact Nat.le_succ _
  next =>
    split
    next => exact Nat.le_succ _
    next =>
      split
      next => exact Nat.le_succ _
      next =>
        dsimp only
        split <;> exact hrequest

theorem update_failures (update : Update Raw) :
    (s.updateProcessedData usdcFlatTargets validationErrors rule cfg
      update).state.venueCircuit.consecutiveFailures ≤ s.venueCircuit.consecutiveFailures + 1 := by
  unfold updateProcessedData
  split
  next => exact Nat.le_succ _
  next call _ =>
    have hmargin := margin_failures rule cfg s.connector s.venueCircuit call
    dsimp only
    split
    next => exact hmargin
    next market _ =>
      obtain ⟨client, table, hcalls⟩ := keeperCalls_state usdcFlatTargets validationErrors cfg _
        update.snapshot.calls
      rw [hcalls]
      split
      next => exact hmargin
      next =>
        obtain ⟨client, table, baseline, hstate⟩ := evaluate_state usdcFlatTargets
          validationErrors cfg _ update (currentEquity cfg.collateralAsset market.balances)
        rw [hstate]
        exact hmargin

/-! ## How a task ends -/

/-- A task returns early, decides after its update, decides on a forced flatten,
or raises while it counts the failure. -/
inductive Outcome (usdcFlatTargets : FlatTargets) (validationErrors : ExecIntent → List String)
    (rule : FailClosed Raw) (cfg : ControlConfig members)
    (quoteRefreshReason : RefreshQuery → Option String) (s : ControlState) (turn : Turn Raw) :
    TaskResult → Prop
  | idle (hidle : turn.updateEventSet = false) :
      Outcome usdcFlatTargets validationErrors rule cfg quoteRefreshReason s turn { state := s }
  | decided (before : ControlState) (notices : List Notice)
      (hcontroller : before.controller = s.controller)
      (hclient : before.client = (ControlState.updateProcessedData usdcFlatTargets
        validationErrors rule cfg { s with marketDataUnready := false } turn.update).state.client)
      (hmarket : ∃ market, turn.update.market = some market ∧
        before.quoteSuspensionReason.isSome =
          (currentEquity cfg.collateralAsset market.balances).isNone) :
      Outcome usdcFlatTargets validationErrors rule cfg quoteRefreshReason s turn
        (before.decide usdcFlatTargets cfg quoteRefreshReason turn notices true)
  | forced (before : ControlState) (notices : List Notice)
      (hcontroller : before.controller = s.controller) :
      Outcome usdcFlatTargets validationErrors rule cfg quoteRefreshReason s turn
        ((before.forceFlattenIntent usdcFlatTargets cfg turn).decide usdcFlatTargets cfg
          quoteRefreshReason turn notices false)
  | raised (after : ControlState) (notices : List Notice)
      (hcontroller : after.controller = s.controller)
      (hclient : after.client = (ControlState.updateProcessedData usdcFlatTargets
        validationErrors rule cfg { s with marketDataUnready := false } turn.update).state.client)
      (hcount : 1023 ≤ s.venueCircuit.consecutiveFailures) :
      Outcome usdcFlatTargets validationErrors rule cfg quoteRefreshReason s turn
        { state := after, notices }

theorem recordVenueFailure_state (turn : Turn Raw) :
    ∃ venueCircuit, s.recordVenueFailure turn = { s with venueCircuit } := by
  unfold recordVenueFailure
  split
  next => exact ⟨_, rfl⟩
  next => exact ⟨s.venueCircuit, rfl⟩

/-- Counting raises only beyond the range of floats. -/
theorem failures_of_recordRaises {turn : Turn Raw} (hraises : s.recordRaises turn = true) :
    1024 ≤ s.venueCircuit.consecutiveFailures := by
  simp only [recordRaises, VenueCircuitBreaker.failureDelay, floatTimesPow, Option.isNone_map,
    decide_eq_true_eq] at hraises
  by_contra hfew
  simp [not_le.mp hfew] at hraises

theorem controlTask_outcome (turn : Turn Raw) :
    Outcome usdcFlatTargets validationErrors rule cfg quoteRefreshReason s turn
      (s.controlTask usdcFlatTargets validationErrors rule cfg quoteRefreshReason turn) := by
  unfold controlTask
  split
  next hidle => exact .idle (by simpa using hidle)
  next =>
    split
    next => exact .forced _ _ rfl
    next =>
      have hcontroller := (update_state usdcFlatTargets validationErrors rule cfg
        { s with marketDataUnready := false } turn.update).1
      dsimp only
      split
      next hcompleted => exact .decided _ _ hcontroller rfl (update_completed _ _ _ _ _ hcompleted)
      next =>
        obtain ⟨venueCircuit, hrecorded⟩ := recordVenueFailure_state
          (ControlState.updateProcessedData usdcFlatTargets validationErrors rule cfg
            { s with marketDataUnready := false } turn.update).state turn
        rw [hrecorded]
        split
        next hraises =>
          have hcount := update_failures usdcFlatTargets validationErrors rule cfg
            { s with marketDataUnready := false } turn.update
          have hmany := failures_of_recordRaises _ hraises
          exact .raised _ _ hcontroller rfl (Nat.le_of_succ_le_succ (hmany.trans hcount))
        next => exact .forced _ _ hcontroller

end ControlState

/-! ## The decision on a forced flatten -/

section Flatten

/-- A close works the side and the amount of its request. -/
theorem executionConfig_work (config : PerpMMControllerConfig) (cycle : Cycle)
    (req : ExecutionRequest) :
    (executionConfig config cycle req).side = req.side ∧
      (executionConfig config cycle req).configNotional = req.amount := by
  have hsignature : (executionConfig config cycle req).executionSignature = _ :=
    executionConfig_signature cycle req
  unfold ExecutorConfig.executionSignature at hsignature
  split at hsignature
  next =>
    simp only [Prod.mk.injEq] at hsignature
    exact ⟨hsignature.2.1, hsignature.2.2.2⟩
  next =>
    simp only [Prod.mk.injEq] at hsignature
    exact ⟨hsignature.2.1, hsignature.2.2.2⟩

/-- Every active quote is stopped; what is created is one reduce-only close of
the whole position, and only once no quote is active. -/
structure Flattens (position : ℚ) (cycle : Cycle) (decision : Decision) : Prop where
  stops : ∀ e ∈ cycle.active, e.isQuoteExecutor = true → e.id ∈ decision.stopped
  spares : cycle.quoteActive ≠ [] → ∀ e ∈ cycle.active, e.isQuoteExecutor = false →
    e.id ∉ decision.stopped
  drains : cycle.quoteActive ≠ [] → decision.created = []
  single : decision.created.length ≤ 1
  closes : ∀ config ∈ decision.created, config.isQuote = false ∧
    config.positionAction = .close ∧ config.configNotional = |position| ∧
    (config.side = .buy ↔ position < 0)

/-- Distinct executors have distinct ids, so no close shares a quote's. -/
theorem quote_id_not_kept {cycle : Cycle} (hids : (cycle.active.map (·.id)).Nodup)
    {e : ExecutorInfo} (he : e ∈ cycle.active) (hquote : e.isQuoteExecutor = true) :
    e.id ∉ cycle.executionActive.map (·.id) := by
  intro hmem
  obtain ⟨close, hclose, hid⟩ := List.mem_map.mp hmem
  obtain ⟨hactive, hexecution⟩ := mem_executionActive.mp hclose
  have hsame : close = e := List.inj_on_of_nodup_map hids hactive he hid
  rw [hsame, hquote] at hexecution
  cases hexecution

/-- The closing decision on a latched stop flattens what the stop names. -/
theorem closing_flattens (config : PerpMMControllerConfig) (c : PerpMMController) {cycle : Cycle}
    {intent : ExecIntent} (hintent : cycle.lastIntent = some intent)
    (htarget : intent.targetInventory = 0)
    (hids : (cycle.active.map (·.id)).Nodup) :
    Flattens intent.current cycle ((c.closingPlan config cycle).decide config cycle) := by
  cases hreq : intentToExecutionRequest cycle.lastIntent with
  | none =>
      have hwanted : wantedActions config cycle = [] := by simp [wantedActions, hreq]
      have hplan : c.closingPlan config cycle =
          { controller := { c.suspendLiveness with quoteRefreshPending := false }
            keep := if cycle.quoteActive ≠ [] then cycle.executionActive.map (·.id) else [] } := by
        simp [closingPlan, hwanted]
      have hcreates : ∀ action ∈ (c.closingPlan config cycle).newActions,
          action.stopped? = none := by
        rw [hplan]
        exact fun _ haction => by cases haction
      have hnone : ((c.closingPlan config cycle).decide config cycle).created = [] := by
        rw [Plan.decide_created, hplan]
        rfl
      refine ⟨fun e he hquote => ?_, fun hquotes e he hclose => ?_, fun _ => hnone,
        hnone ▸ Nat.zero_le _, fun _ hconfig => by rw [hnone] at hconfig; cases hconfig⟩
      · rw [mem_stopped_iff he hcreates, hplan]
        have hquotes : cycle.quoteActive ≠ [] := List.ne_nil_of_mem (mem_quoteActive.mpr ⟨he, hquote⟩)
        simpa [hquotes] using quote_id_not_kept hids he hquote
      · rw [mem_stopped_iff he hcreates, hplan, not_not]
        simpa [hquotes] using List.mem_map_of_mem (f := (·.id)) (mem_executionActive.mpr ⟨he, hclose⟩)
  | some req =>
      obtain ⟨hkeep, hnew⟩ := closingPlan_keep config c hreq
      rw [hintent] at hreq
      obtain ⟨-, hgap, hamount, hside⟩ := request_facts hreq
      rw [htarget, zero_sub] at hgap hamount hside
      rw [abs_neg] at hamount
      have hcreates : ∀ action ∈ (c.closingPlan config cycle).newActions,
          action.stopped? = none := by
        intro action haction
        rw [hnew] at haction
        split at haction
        next =>
          rw [List.mem_singleton.mp haction]
          rfl
        next => cases haction
      have hcreated : ((c.closingPlan config cycle).decide config cycle).created =
          if cycle.quoteActive = [] ∧ sameWork cycle (executionConfig config cycle req) = [] then
            [executionConfig config cycle req] else [] := by
        rw [Plan.decide_created, hnew]
        split <;> rfl
      refine ⟨fun e he hquote => ?_, fun hquotes e he hclose => ?_, fun hquotes => ?_, ?_,
        fun config' hconfig => ?_⟩
      · have hquotes : cycle.quoteActive ≠ [] :=
          List.ne_nil_of_mem (mem_quoteActive.mpr ⟨he, hquote⟩)
        rw [mem_stopped_iff he hcreates, hkeep, if_neg hquotes]
        exact quote_id_not_kept hids he hquote
      · rw [mem_stopped_iff he hcreates, hkeep, if_neg hquotes, not_not]
        exact List.mem_map_of_mem (mem_executionActive.mpr ⟨he, hclose⟩)
      · rw [hcreated, if_neg fun hboth => hquotes hboth.1]
      · rw [hcreated]
        split
        next => exact le_refl _
        next => exact Nat.zero_le _
      · rw [hcreated] at hconfig
        split at hconfig
        next =>
          obtain rfl := List.mem_singleton.mp hconfig
          obtain ⟨hquote, haction⟩ : (executionConfig config cycle req).isQuote = false ∧ _ :=
            executionConfig_facts req
          obtain ⟨hworkSide, hworkAmount⟩ := executionConfig_work config cycle req
          refine ⟨hquote, haction (intentToExecutionRequest_reduceOnly hreq), ?_, ?_⟩
          · rw [hworkAmount, hamount]
          · rw [hworkSide, hside, neg_pos]
        next => cases hconfig

end Flatten

section Tasks

variable {members : Finset Leg} {Raw : Type u} (usdcFlatTargets : FlatTargets)
  (validationErrors : ExecIntent → List String) (rule : FailClosed Raw)
  (cfg : ControlConfig members) (quoteRefreshReason : RefreshQuery → Option String)

/-- A task fails safe: the flatten is latched, the decision works it off, and the
basket is told if its book takes the row. -/
structure FailsSafe (turn : Turn Raw) (result : TaskResult) : Prop where
  latched : result.state.client.lastIntent = some (cfg.flattenIntent turn)
  flattens : ∃ decision, result.decision = some decision ∧
    Flattens (cfg.flattenFrom turn) turn.cycle decision
  published : cfg.portfolioStop.isSome → cfg.leg ∈ members →
    ∀ ts, turn.bookNow = some ts → ∀ mid, turn.publishedMid = some mid → 0 < mid →
      result.state.table.lookup cfg.leg.name =
        some { ts, position := cfg.flattenFrom turn, mid, mode := .emergency }

variable (s : ControlState) (turn : Turn Raw)

/-- A leg's own emergency is its row in the table. -/
theorem publish_lookup {position ts mid : ℚ} (hbook : cfg.portfolioStop.isSome)
    (hleg : cfg.leg ∈ members) (hts : turn.bookNow = some ts)
    (hmid : turn.publishedMid = some mid) (hpos : 0 < mid) :
    (s.publishPortfolioEmergency usdcFlatTargets cfg turn position).table.lookup cfg.leg.name =
      some { ts, position, mid, mode := .emergency } := by
  obtain ⟨book, hbook⟩ := Option.isSome_iff_exists.mp hbook
  have haccept : acceptRow members {
      leg := cfg.leg, position := some position, mid := some mid, mode := "emergency"
      now := some ts } = .ok { ts, position, mid, mode := .emergency } := by
    simp [acceptRow, LegMode.ofString?, hleg, hpos, Option.filter]
  simp only [ControlState.publishPortfolioEmergency, hbook, hts, hmid,
    PortfolioStopBook.update, haccept]
  rw [Registry.lookup_set, if_pos rfl]

/-- A forced flatten does not quote. -/
theorem forced_not_quoting :
    ((s.forceFlattenIntent usdcFlatTargets cfg turn).sees cfg turn).quoting = false := by
  obtain ⟨table, htable⟩ := ControlState.forceFlattenIntent_state usdcFlatTargets cfg s turn
  rw [htable]
  rfl

/-- A decision on a stop publishes nothing. -/
theorem determine_published_of_stop (config : PerpMMControllerConfig) (c : PerpMMController)
    {cycle : Cycle} (hquoting : cycle.quoting = false) :
    (c.determineExecutorActions config cycle quoteRefreshReason).published = none := by
  cases hshadow : config.shadowMode with
  | true =>
      unfold determineExecutorActions
      rw [if_pos hshadow]
  | false =>
      rw [determine_of_stop hshadow hquoting]
      unfold closingPlan Plan.decide
      dsimp only
      split <;> rfl

/-- The decision on a forced flatten leaves client and table to the flatten. -/
theorem forced_state (notices : List Notice) :
    let forced := s.forceFlattenIntent usdcFlatTargets cfg turn
    let result := forced.decide usdcFlatTargets cfg quoteRefreshReason turn notices false
    result.state.client.lastIntent = some (cfg.flattenIntent turn) ∧
      result.state.table = forced.table := by
  intro forced result
  have hquiet := determine_published_of_stop quoteRefreshReason cfg.toPerpMMControllerConfig
    forced.controller (forced_not_quoting usdcFlatTargets cfg s turn)
  obtain ⟨table, htable⟩ := ControlState.forceFlattenIntent_state usdcFlatTargets cfg s turn
  have hclient : forced.client.lastIntent = some (cfg.flattenIntent turn) := by
    unfold forced
    rw [htable]
  unfold result ControlState.decide
  dsimp only
  rw [hquiet]
  exact ⟨hclient, rfl⟩

/-- A task that ends on a forced flatten has told the basket. -/
theorem forced_published {notices : List Notice} {ts mid : ℚ} (hbook : cfg.portfolioStop.isSome)
    (hleg : cfg.leg ∈ members) (hts : turn.bookNow = some ts)
    (hmid : turn.publishedMid = some mid) (hpos : 0 < mid) :
    ((s.forceFlattenIntent usdcFlatTargets cfg turn).decide usdcFlatTargets cfg
      quoteRefreshReason turn notices false).state.table.lookup cfg.leg.name =
        some { ts, position := cfg.flattenFrom turn, mid, mode := .emergency } := by
  rw [(forced_state usdcFlatTargets cfg quoteRefreshReason s turn notices).2]
  exact publish_lookup usdcFlatTargets cfg _ turn hbook hleg hts hmid hpos

theorem forced_failsSafe {notices : List Notice} (hlive : cfg.shadowMode = false)
    (hids : (turn.cycle.active.map (·.id)).Nodup) :
    FailsSafe cfg turn ((s.forceFlattenIntent usdcFlatTargets cfg turn).decide usdcFlatTargets cfg
      quoteRefreshReason turn notices false) := by
  set forced := s.forceFlattenIntent usdcFlatTargets cfg turn with hforced
  refine ⟨(forced_state usdcFlatTargets cfg quoteRefreshReason s turn notices).1, ⟨_, rfl, ?_⟩,
    fun hbook hleg ts hts mid hmid hpos =>
      forced_published usdcFlatTargets cfg quoteRefreshReason s turn hbook hleg hts hmid hpos⟩
  rw [determine_of_stop hlive (forced_not_quoting usdcFlatTargets cfg s turn)]
  obtain ⟨table, htable⟩ := ControlState.forceFlattenIntent_state usdcFlatTargets cfg s turn
  have hlatched : (forced.sees cfg turn).lastIntent = some (cfg.flattenIntent turn) := by
    rw [hforced, htable]
    rfl
  have hflattens := closing_flattens cfg.toPerpMMControllerConfig forced.controller hlatched rfl
    hids
  exact ⟨hflattens.stops, hflattens.spares, hflattens.drains, hflattens.single, hflattens.closes⟩

/-- A task that does not complete decides on a forced flatten. -/
theorem failed_forced (hset : turn.updateEventSet = true)
    (hcount : s.venueCircuit.consecutiveFailures < 1023)
    (hfails : (s.result usdcFlatTargets validationErrors rule cfg quoteRefreshReason
      turn).completed = false) :
    ∃ before notices, s.result usdcFlatTargets validationErrors rule cfg quoteRefreshReason turn =
      (ControlState.forceFlattenIntent usdcFlatTargets cfg before turn).decide usdcFlatTargets cfg
        quoteRefreshReason turn notices false := by
  have houtcome := s.controlTask_outcome usdcFlatTargets validationErrors rule cfg
    quoteRefreshReason turn
  unfold ControlState.result at hfails ⊢
  generalize s.controlTask usdcFlatTargets validationErrors rule cfg quoteRefreshReason turn =
    result at houtcome hfails ⊢
  cases houtcome with
  | idle hidle =>
      rw [hset] at hidle
      cases hidle
  | decided before notices hcontroller hclient hmarket => cases hfails
  | forced before notices hcontroller => exact ⟨before, notices, rfl⟩
  | raised after notices hcontroller hclient hmany => exact absurd hmany (not_le.mpr hcount)

/-- In any state, a task that is not skipped and whose update does not complete
(the market is not ready, a read raises, the deadline cuts it off anywhere)
latches the flatten, stops every quote, creates at most one reduce-only close of
the whole position, and tells the basket if its book takes the row, as long as the
venue circuit has not counted over a thousand failures in a row. -/
theorem failed_task_fails_safe (hlive : cfg.shadowMode = false) (hset : turn.updateEventSet = true)
    (hids : (turn.cycle.active.map (·.id)).Nodup)
    (hcount : s.venueCircuit.consecutiveFailures < 1023)
    (hfails : (s.result usdcFlatTargets validationErrors rule cfg quoteRefreshReason
      turn).completed = false) :
    FailsSafe cfg turn
      (s.result usdcFlatTargets validationErrors rule cfg quoteRefreshReason turn) := by
  obtain ⟨before, notices, hforced⟩ := failed_forced usdcFlatTargets validationErrors rule cfg
    quoteRefreshReason s turn hset hcount hfails
  rw [hforced]
  exact forced_failsSafe usdcFlatTargets cfg quoteRefreshReason before turn hlive hids

end Tasks

/-- The bid is asked to stop, and nothing is created beside it. -/
theorem failed_task_fails_safe_cutOff :
    let result := ControlState.result sampleTargets (fun _ => []) sampleRule sampleControl
      (fun _ => none) (.init sampleControl {} {} Registry.empty) (cutOffTurn 20 1)
    (result.decision.map fun decision => (decision.stopped, decision.created)) = some ([0], []) ∧
      FailsSafe sampleControl (cutOffTurn 20 1) result :=
  ⟨by decide +kernel, failed_task_fails_safe sampleTargets (fun _ => []) sampleRule sampleControl
    (fun _ => none) _ (cutOffTurn 20 1) rfl rfl (by decide) (by decide +kernel)
    (by decide +kernel)⟩

end Opms.PerpMM
