import Opms.PerpMM.FailSafe
import Opms.PerpMM.Gating
import Opms.PerpMM.StopLatch

/-! # When quoting resumes

A task that creates a quote has completed an update of its own, on known equity
and a fresh book. After a failed task the flatten stays latched until a position
is fed that has reached the target of a stop.
-/

namespace Opms.PerpMM

open Foundation PortfolioStop PerpMMController

universe u

/-- The configurations a task creates. -/
def TaskResult.created (result : TaskResult) : List ExecutorConfig :=
  (result.decision.map Decision.created).getD []

/-- The time at which an event decides. -/
def ControlEvent.time? {Raw : Type u} : ControlEvent Raw → Option ℚ
  | .task turn => some turn.cycle.now
  | _ => none

section Earned

variable {members : Finset Leg} {Raw : Type u} (usdcFlatTargets : FlatTargets)
  (validationErrors : ExecIntent → List String) (rule : FailClosed Raw)
  (cfg : ControlConfig members) (quoteRefreshReason : RefreshQuery → Option String)

/-- What a task has established when it creates a quote. -/
structure Earned (s : ControlState) (turn : Turn Raw) (result : TaskResult) : Prop where
  completed : result.completed = true
  equity : ∃ market, turn.update.market = some market ∧
    (currentEquity cfg.collateralAsset market.balances).isSome
  fresh : ∀ limit, cfg.maxMarketDataAgeS = some limit →
    ∃ age ≤ limit, marketDataAgeS turn.pairMetrics turn.feedHealthy turn.perfCounter = some age
  before : s.controller.quoteLiveness.allowQuotes turn.cycle.now = true
  after : result.state.controller.quoteLiveness.allowQuotes turn.cycle.now = true
  quoting : intentIsQuoting result.state.client.lastIntent = true
  alone : turn.cycle.active = []

/-- A task creates a quote only if it has earned it. -/
def EarnsQuotes (s : ControlState) : ControlEvent Raw → Prop
  | .task turn =>
      let result := s.result usdcFlatTargets validationErrors rule cfg quoteRefreshReason turn
      (∃ config ∈ result.created, config.isQuote = true) → Earned cfg s turn result
  | _ => True

variable (s : ControlState) (turn : Turn Raw)

/-- Another leg reaches the basket's table only. -/
theorem step_sibling (call : UpdateCall) : ∃ table, s.step usdcFlatTargets
    validationErrors rule cfg quoteRefreshReason (.sibling call) = { s with table } := by
  simp only [ControlState.step]
  split
  next => exact ⟨s.table, rfl⟩
  next =>
    split
    next => exact ⟨s.table, rfl⟩
    next => exact ⟨_, rfl⟩

/-- A decision changes the client in no way, and the controller as it says. -/
theorem decide_facts (notices : List Notice) (completed : Bool) :
    let decision := s.controller.determineExecutorActions cfg.toPerpMMControllerConfig
      (s.sees cfg turn) quoteRefreshReason
    let result := s.decide usdcFlatTargets cfg quoteRefreshReason turn notices completed
    result.state.client = s.client ∧ result.state.controller = decision.controller ∧
      result.created = decision.created ∧ result.completed = completed := by
  unfold ControlState.decide
  dsimp only
  split
  next => exact ⟨rfl, rfl, rfl, rfl⟩
  next position _ =>
    obtain ⟨table, htable⟩ := ControlState.publish_state usdcFlatTargets cfg
      { s with controller := (s.controller.determineExecutorActions cfg.toPerpMMControllerConfig
        (s.sees cfg turn) quoteRefreshReason).controller } turn position
    rw [htable]
    exact ⟨rfl, rfl, rfl, rfl⟩

/-- A settled decision that creates a quote finds nothing unsafe and nothing active. -/
theorem Settled.quote_facts {config : PerpMMControllerConfig} {c : PerpMMController}
    (cycle : Cycle) (h : Settled c cycle.now)
    (hquote : ∃ created ∈ (c.determineExecutorActions config cycle quoteRefreshReason).created,
      created.isQuote = true) :
    ¬ Unsafe config c cycle (c.determineExecutorActions config cycle quoteRefreshReason) ∧
      cycle.active = [] := by
  have hbranch := determine_branch config quoteRefreshReason c cycle
  obtain ⟨created, hcreated, hquote⟩ := hquote
  constructor
  · intro hdanger
    have hnone := hbranch.noQuote h hdanger created hcreated
    rw [hquote] at hnone
    cases hnone
  · have hcreation := hbranch.creation
    generalize (c.determineExecutorActions config cycle quoteRefreshReason).created = configs
      at hcreation hcreated
    cases hcreation with
    | closes hcloses =>
        have hnone := hcloses.isQuote created hcreated
        rw [hquote] at hnone
        cases hnone
    | quotes hactive => exact hactive

theorem decide_earned {before : ControlState} {notices : List Notice}
    (hsettled : Settled before.controller turn.cycle.now)
    (hcontroller : before.controller = s.controller)
    (hmarket : ∃ market, turn.update.market = some market ∧
      before.quoteSuspensionReason.isSome =
        (currentEquity cfg.collateralAsset market.balances).isNone)
    (hquote : ∃ config ∈ (before.decide usdcFlatTargets cfg quoteRefreshReason turn notices
      true).created, config.isQuote = true) :
    Earned cfg s turn
      (before.decide usdcFlatTargets cfg quoteRefreshReason turn notices true) := by
  obtain ⟨hclient, hafter, hcreated, hcompleted⟩ :=
    decide_facts usdcFlatTargets cfg quoteRefreshReason before turn notices true
  rw [hcreated] at hquote
  obtain ⟨hsafe, halone⟩ := hsettled.quote_facts quoteRefreshReason (before.sees cfg turn) hquote
  simp only [Unsafe, not_or, Bool.not_eq_false, Bool.not_eq_true] at hsafe
  obtain ⟨hbefore, hthen, hresolved, hfresh, hquoting⟩ := hsafe
  obtain ⟨market, hread, hsuspended⟩ := hmarket
  refine ⟨hcompleted, ⟨market, hread, ?_⟩, fun limit hlimit => ?_, hcontroller ▸ hbefore, ?_, ?_,
    halone⟩
  · have hsome : before.quoteSuspensionReason.isSome = false := hresolved
    rw [hsuspended] at hsome
    simpa using hsome
  · simp only [Cycle.stale, ControlState.sees, hlimit, Option.any_some] at hfresh
    cases hage : marketDataAgeS turn.pairMetrics turn.feedHealthy turn.perfCounter with
    | none => simp [hage] at hfresh
    | some age => exact ⟨age, by simpa [hage] using hfresh, rfl⟩
  · rw [hafter]
    exact hthen
  · rw [hclient]
    exact hquoting

/-- One task, from a settled controller: what it creates is earned, and the
controller is settled afterwards. -/
theorem task_earned (h : Settled s.controller turn.cycle.now) :
    EarnsQuotes usdcFlatTargets validationErrors rule cfg quoteRefreshReason s (.task turn) ∧
      Settled (s.result usdcFlatTargets validationErrors rule cfg quoteRefreshReason
        turn).state.controller turn.cycle.now := by
  have houtcome := s.controlTask_outcome usdcFlatTargets validationErrors rule cfg
    quoteRefreshReason turn
  change ((∃ config ∈ TaskResult.created _, config.isQuote = true) → Earned cfg s turn _) ∧ _
  unfold ControlState.result
  generalize s.controlTask usdcFlatTargets validationErrors rule cfg quoteRefreshReason turn =
    result at houtcome ⊢
  cases houtcome with
  | idle hidle =>
      refine ⟨fun hquote => ?_, h⟩
      obtain ⟨_, hconfig, _⟩ := hquote
      cases hconfig
  | decided before notices hcontroller hclient hmarket =>
      have hsettled : Settled before.controller turn.cycle.now := hcontroller ▸ h
      refine ⟨decide_earned usdcFlatTargets cfg quoteRefreshReason s turn hsettled hcontroller hmarket,
        ?_⟩
      rw [(decide_facts usdcFlatTargets cfg quoteRefreshReason before turn notices true).2.1]
      have hseen : Settled before.controller (before.sees cfg turn).now := hsettled
      exact hseen.branch (determine_branch _ _ _ _)
  | forced before notices hcontroller =>
      set forced := before.forceFlattenIntent usdcFlatTargets cfg turn with hforced
      obtain ⟨table, htable⟩ := before.forceFlattenIntent_state usdcFlatTargets cfg turn
      have hsame : forced.controller = s.controller := by
        rw [hforced, htable]
        exact hcontroller
      have hsettled : Settled forced.controller turn.cycle.now := hsame ▸ h
      obtain ⟨-, hafter, hcreated, -⟩ :=
        decide_facts usdcFlatTargets cfg quoteRefreshReason forced turn notices false
      constructor
      · rintro hquote
        rw [hcreated] at hquote
        -- a flatten does not quote
        have hunsafe := (hsettled.quote_facts quoteRefreshReason (forced.sees cfg turn) hquote).1
        refine absurd (.inr (.inr (.inr (.inr ?_)))) hunsafe
        have hlatched : forced.client.lastIntent = some (cfg.flattenIntent turn) := by
          rw [hforced, htable]
        simp [Cycle.quoting, ControlState.sees, hlatched, intentIsQuoting,
          ControlConfig.flattenIntent]
      · rw [hafter]
        have hseen : Settled forced.controller (forced.sees cfg turn).now := hsettled
        exact hseen.branch (determine_branch _ _ _ _)
  | raised after notices hcontroller hclient hmany =>
      refine ⟨fun hquote => ?_, hcontroller ▸ h⟩
      obtain ⟨_, hconfig, _⟩ := hquote
      cases hconfig

/-- In every run from construction, at times that never decrease, a quote is
created only by a task whose own update completed with the equity known and the
book fresh, under a closed liveness circuit, and with no executor active. -/
theorem quotes_are_earned (venueCircuit : VenueCircuitBreaker) (connector : Connector)
    (table : Table) (events : List (ControlEvent Raw))
    (htimes : (events.filterMap ControlEvent.time?).Pairwise (· ≤ ·)) :
    Along (ControlState.step usdcFlatTargets validationErrors rule cfg quoteRefreshReason)
      (EarnsQuotes usdcFlatTargets validationErrors rule cfg quoteRefreshReason)
      (.init cfg venueCircuit connector table) events := by
  suffices hgeneral : ∀ (s : ControlState) (last : ℚ) (events : List (ControlEvent Raw)),
      Settled s.controller last → (∀ time ∈ events.filterMap ControlEvent.time?, last ≤ time) →
      (events.filterMap ControlEvent.time?).Pairwise (· ≤ ·) →
      Along (ControlState.step usdcFlatTargets validationErrors rule cfg quoteRefreshReason)
        (EarnsQuotes usdcFlatTargets validationErrors rule cfg quoteRefreshReason) s events by
    cases hlist : events.filterMap ControlEvent.time? with
    | nil => exact hgeneral _ 0 events (Settled.init _ 0) (by simp [hlist]) htimes
    | cons first rest =>
        refine hgeneral _ first events (Settled.init _ first) (fun time htime => ?_) htimes
        rw [hlist] at htime htimes
        rcases List.mem_cons.mp htime with rfl | hrest
        · exact le_refl _
        · exact (List.pairwise_cons.mp htimes).1 time hrest
  intro s last events hsettled hlater htimes
  induction events generalizing s last with
  | nil => trivial
  | cons event rest ih =>
      cases event with
      | task turn =>
          have htime : (ControlEvent.task turn).time? = some turn.cycle.now := rfl
          rw [List.filterMap_cons_some htime] at hlater htimes
          obtain ⟨hfirst, hrest⟩ := List.pairwise_cons.mp htimes
          obtain ⟨hearned, hafter⟩ := task_earned usdcFlatTargets validationErrors rule cfg
            quoteRefreshReason s turn (hsettled.later (hlater _ List.mem_cons_self))
          exact ⟨hearned, ih _ turn.cycle.now hafter hfirst hrest⟩
      | sibling call =>
          refine ⟨trivial, ih _ last ?_ hlater htimes⟩
          obtain ⟨table, htable⟩ := step_sibling usdcFlatTargets validationErrors rule cfg
            quoteRefreshReason s call
          rw [htable]
          exact hsettled
      | connector connector => exact ⟨trivial, ih _ last hsettled hlater htimes⟩

end Earned

/-- Two quotes are created on known equity and a fresh book, and none by the task
that the deadline cuts off. -/
theorem quotes_are_earned_cutOff :
    (ControlState.result sampleTargets (fun _ => []) sampleRule sampleControl (fun _ => none)
        (.init sampleControl {} {} Registry.empty)
        (sampleTurn 20 0 sampleQuote)).created.length = 2 ∧
      Along (ControlState.step sampleTargets (fun _ => []) sampleRule sampleControl fun _ => none)
        (EarnsQuotes sampleTargets (fun _ => []) sampleRule sampleControl fun _ => none)
        (.init sampleControl {} {} Registry.empty)
        [.task (sampleTurn 20 0 sampleQuote), .task (cutOffTurn 25 1)] :=
  ⟨by decide +kernel, quotes_are_earned sampleTargets (fun _ => []) sampleRule sampleControl
    (fun _ => none) {} {} Registry.empty
    [.task (sampleTurn 20 0 sampleQuote), .task (cutOffTurn 25 1)] (by decide +kernel)⟩

/-! ## The latched flatten -/

/-- The intent a keeper call sends. -/
def KeeperCall.sent? : KeeperCall → Option ExecIntent
  | .send intent => some intent
  | .transform _ => none

/-- The intents the keeper sends during an update. -/
def Update.sends {Raw : Type u} (update : Update Raw) : List ExecIntent :=
  (update.snapshot.calls ++ update.tick.calls).filterMap KeeperCall.sent?

/-- The keeper speaks for its own coin, and stops only toward the given targets. -/
structure Addressed (coin : String) (targets : Set ℚ) (intent : ExecIntent) : Prop where
  coin : intent.coin = coin
  target : intent.quote = none → intent.urgency = .emergency → intent.targetInventory ∈ targets

/-- An update that feeds a position away from every target. -/
def AwayFrom {Raw : Type u} (coin : String) (targets : Set ℚ) : ControlEvent Raw → Prop
  | .task turn => (∀ intent ∈ turn.update.sends, Addressed coin targets intent) ∧
      ∀ market, turn.update.market = some market →
        ∀ target ∈ targets, flatTolerance ≤ |market.position - target|
  | _ => True

/-- An emergency stop toward one of the targets is latched. -/
def Held (coin : String) (targets : Set ℚ) (client : InProcessClient) : Prop :=
  ∃ intent, client.lastIntent = some intent ∧ intent.coin = coin ∧ intent.quote = none ∧
    intent.urgency = .emergency ∧ intent.targetInventory ∈ targets

/-- The position last fed is away from every target. -/
def Fed (coin : String) (targets : Set ℚ) (client : InProcessClient) : Prop :=
  ∃ position, client.positions.lookup coin = some position ∧
    ∀ target ∈ targets, flatTolerance ≤ |position.position - target|

section Held

variable {coin : String} {targets : Set ℚ} {client : InProcessClient}

theorem emergency_of_priority {urgency : Urgency}
    (hrank : InProcessClient.priority .emergency ≤ InProcessClient.priority urgency) :
    urgency = .emergency := by
  cases urgency <;> simp_all [InProcessClient.priority]

/-- A sent intent replaces the latched stop only by another one. -/
theorem Held.send (validationErrors : ExecIntent → List String) {intent : ExecIntent}
    (h : Held coin targets client) (hfed : Fed coin targets client)
    (haddressed : Addressed coin targets intent) :
    Held coin targets (client.handle validationErrors (.sendIntent intent)) ∧
      Fed coin targets (client.handle validationErrors (.sendIntent intent)) := by
  obtain ⟨latched, hlatched, hcoin, hstop, hurgency, htarget⟩ := h
  rcases handle_sendIntent_cases validationErrors client intent with heq | ⟨hrefuses, heq⟩
  · rw [heq]
    exact ⟨⟨latched, hlatched, hcoin, hstop, hurgency, htarget⟩, hfed⟩
  · rw [heq]
    refine ⟨?_, hfed⟩
    obtain ⟨position, hposition, haway⟩ := hfed
    have hapart : InProcessClient.reached latched position = false := by
      simpa [InProcessClient.reached] using haway _ htarget
    obtain ⟨hquote, hrank⟩ :=
      not_refuses hlatched hstop (hcoin.symm ▸ hposition) hapart hrefuses
    have hemergency := emergency_of_priority (hurgency ▸ hrank)
    exact ⟨intent, rfl, haddressed.coin, hquote, hemergency,
      haddressed.target hquote hemergency⟩

/-- A position away from the targets leaves the stop latched. -/
theorem Held.feed {position : ℚ} (h : Held coin targets client)
    (haway : ∀ target ∈ targets, flatTolerance ≤ |position - target|) :
    Held coin targets (client.setPositions (fed coin position)) ∧
      Fed coin targets (client.setPositions (fed coin position)) := by
  have hlookup : (fed coin position).lookup coin = some ⟨position⟩ := by
    rw [fed, Registry.lookup_set, if_pos rfl]
  obtain ⟨latched, hlatched, hcoin, hstop, hurgency, htarget⟩ := h
  refine ⟨⟨latched, ?_, hcoin, hstop, hurgency, htarget⟩, ⟨position⟩, hlookup, haway⟩
  have hapart : InProcessClient.reached latched ⟨position⟩ = false := by
    simpa [InProcessClient.reached] using haway _ htarget
  exact setPositions_of_apart hlatched (hcoin.symm ▸ hlookup) hapart

end Held

section HeldRun

variable {members : Finset Leg} {Raw : Type u} (usdcFlatTargets : FlatTargets)
  (validationErrors : ExecIntent → List String) (rule : FailClosed Raw)
  (cfg : ControlConfig members) (quoteRefreshReason : RefreshQuery → Option String)
  {targets : Set ℚ} (s : ControlState)

theorem Held.keeperCalls {calls : List KeeperCall} (h : Held cfg.coin targets s.client)
    (hfed : Fed cfg.coin targets s.client)
    (haddressed : ∀ intent ∈ calls.filterMap KeeperCall.sent?, Addressed cfg.coin targets intent) :
    let next := s.keeperCalls usdcFlatTargets validationErrors cfg calls
    Held cfg.coin targets next.client ∧ Fed cfg.coin targets next.client := by
  induction calls generalizing s with
  | nil => exact ⟨h, hfed⟩
  | cons call rest ih =>
      cases call with
      | send intent =>
          have hsent : (KeeperCall.send intent).sent? = some intent := rfl
          rw [List.filterMap_cons_some hsent, List.forall_mem_cons] at haddressed
          obtain ⟨hheld, hstill⟩ := h.send validationErrors hfed haddressed.1
          exact ih (s.keeperCall usdcFlatTargets validationErrors cfg (.send intent)) hheld hstill
            haddressed.2
      | transform call =>
          have hsent : (KeeperCall.transform call).sent? = none := rfl
          rw [List.filterMap_cons_none hsent] at haddressed
          obtain ⟨table, htable⟩ := s.portfolioTransform_state usdcFlatTargets cfg call
          refine ih (s.keeperCall usdcFlatTargets validationErrors cfg (.transform call))
            ?_ ?_ haddressed
          · rw [ControlState.keeperCall, htable]
            exact h
          · rw [ControlState.keeperCall, htable]
            exact hfed

/-- A basket emergency aims at zero. -/
theorem verdict_emergency_target {book : PortfolioStopBook members} {table : Table} {leg : Leg}
    {row : Row} {target : ℚ}
    (hverdict : book.verdict usdcFlatTargets table leg row = (.emergency, target)) :
    target = 0 := by
  unfold PortfolioStopBook.verdict at hverdict
  dsimp only at hverdict
  split at hverdict
  next => exact (Prod.mk.inj hverdict).2.symm
  next =>
    split at hverdict
    next => cases hverdict
    next => split at hverdict <;> cases hverdict

/-- An intent of the basket's making is for the coin, and stops toward zero. -/
theorem transform_addressed {call : TransformCall} (intent : ExecIntent)
    (hflat : 0 ∈ targets) (hnone : call.intent = none)
    (hintent : (s.portfolioTransform usdcFlatTargets cfg call).2 = .ok (some intent)) :
    Addressed cfg.coin targets intent := by
  unfold ControlState.portfolioTransform at hintent
  split at hintent
  next =>
    rw [hnone] at hintent
    cases hintent
  next book hbook =>
    simp only [PortfolioStopBook.update] at hintent
    split at hintent
    next => cases hintent
    next row hrow =>
      simp only [Except.map, Except.ok.injEq] at hintent
      generalize hverdict : book.verdict usdcFlatTargets _ cfg.leg row = answer at hintent
      split at hintent
      next =>
        rw [hnone] at hintent
        cases hintent
      next =>
        obtain rfl := Option.some.inj hintent
        refine ⟨rfl, fun _ hurgency => ?_⟩
        dsimp only at hurgency ⊢
        split at hurgency
        next hmode =>
          obtain ⟨mode, target⟩ := answer
          obtain rfl : mode = .emergency := hmode
          rw [verdict_emergency_target usdcFlatTargets hverdict]
          exact hflat
        next => cases hurgency

theorem Held.reconcile {call : Option TransformCall} (hflat : 0 ∈ targets)
    (h : Held cfg.coin targets s.client) (hfed : Fed cfg.coin targets s.client) :
    Held cfg.coin targets
      (s.reconcile usdcFlatTargets validationErrors cfg call).state.client := by
  cases call with
  | none => exact h
  | some call =>
      set asked : TransformCall := { call with decision := .other, intent := none } with hasked
      obtain ⟨table, htable⟩ := s.portfolioTransform_state usdcFlatTargets cfg asked
      have hintent : ∀ intent, (s.portfolioTransform usdcFlatTargets cfg asked).2 =
          .ok (some intent) → Addressed cfg.coin targets intent :=
        fun intent => transform_addressed usdcFlatTargets cfg s intent hflat rfl
      simp only [ControlState.reconcile, ← hasked]
      split
      next hbasket =>
        rw [hbasket] at htable
        dsimp only at htable
        rw [htable]
        exact h
      next hbasket =>
        rw [hbasket] at htable
        dsimp only at htable
        rw [htable]
        exact h
      next after intent hbasket =>
        rw [hbasket] at htable hintent
        dsimp only at htable
        subst htable
        split
        next =>
          split
          next => exact h
          next client hclient =>
            have hsent := (h.send validationErrors hfed (hintent intent rfl)).1
            rwa [InProcessClient.handle, hclient] at hsent
        next => exact h

theorem Held.evaluate {update : Update Raw} {equity : Option ℚ} (hflat : 0 ∈ targets)
    (h : Held cfg.coin targets s.client) (hfed : Fed cfg.coin targets s.client)
    (haddressed : ∀ intent ∈ update.sends, Addressed cfg.coin targets intent) :
    Held cfg.coin targets
      (s.evaluate usdcFlatTargets validationErrors cfg update equity).state.client := by
  have hpeak : ∀ (s : ControlState) seeded, (s.notePeakEquity seeded).state.client = s.client := by
    intro s seeded
    unfold ControlState.notePeakEquity
    split
    next => split <;> rfl
    next => split <;> rfl
  unfold ControlState.evaluate
  dsimp only
  generalize hevaluated : (if equity.isSome = true then _ else _ : Progress) = evaluated
  have hheld : Held cfg.coin targets evaluated.state.client := by
    rw [← hevaluated]
    split
    next =>
      refine (Held.keeperCalls usdcFlatTargets validationErrors cfg (s.noteEquity equity).state h
        hfed fun intent hintent => haddressed intent ?_).1
      rw [Update.sends, List.filterMap_append]
      exact List.mem_append_right _ hintent
    next => exact Held.reconcile usdcFlatTargets validationErrors cfg _ hflat h hfed
  split
  next => exact (hpeak evaluated.state update.peakSeeded).symm ▸ hheld
  next => exact hheld

/-- However far an update gets, the stop stays latched. -/
theorem Held.update {update : Update Raw} (hflat : 0 ∈ targets)
    (h : Held cfg.coin targets s.client)
    (haddressed : ∀ intent ∈ update.sends, Addressed cfg.coin targets intent)
    (haway : ∀ market, update.market = some market →
      ∀ target ∈ targets, flatTolerance ≤ |market.position - target|) :
    Held cfg.coin targets (s.updateProcessedData usdcFlatTargets validationErrors rule cfg
      update).state.client := by
  unfold ControlState.updateProcessedData
  split
  next => exact h
  next =>
    dsimp only
    split
    next => exact h
    next market hmarket =>
      obtain ⟨hheld, hfed⟩ := h.feed (haway market hmarket)
      have hsnapshot : ∀ intent ∈ update.snapshot.calls.filterMap KeeperCall.sent?,
          Addressed cfg.coin targets intent := by
        intro intent hintent
        apply haddressed
        rw [Update.sends, List.filterMap_append]
        exact List.mem_append_left _ hintent
      obtain ⟨hheld, hfed⟩ := Held.keeperCalls usdcFlatTargets validationErrors cfg
        { s with
          connector := _, venueCircuit := _,
          client := s.client.setPositions (fed cfg.coin market.position) } hheld hfed hsnapshot
      split
      next => exact hheld
      next =>
        exact Held.evaluate usdcFlatTargets validationErrors cfg _ hflat hheld hfed haddressed

/-- A decision on a stop creates no quote. -/
theorem decide_no_quote {notices : List Notice} {completed : Bool} {turn : Turn Raw}
    (h : Held cfg.coin targets s.client) :
    ∀ config ∈ (s.decide usdcFlatTargets cfg quoteRefreshReason turn notices completed).created,
      config.isQuote = false := by
  rw [(decide_facts usdcFlatTargets cfg quoteRefreshReason s turn notices completed).2.2.1]
  obtain ⟨latched, hlatched, -, hstop, -, -⟩ := h
  have hquoting : (s.sees cfg turn).quoting = false := by
    simp [Cycle.quoting, ControlState.sees, hlatched, intentIsQuoting, hstop]
  cases hshadow : cfg.shadowMode with
  | true =>
      unfold determineExecutorActions
      rw [if_pos hshadow]
      exact fun _ hconfig => by cases hconfig
  | false =>
      rw [determine_of_stop hshadow hquoting]
      exact closingPlan_closes.isQuote

/-- A task from a latched stop creates no quote and leaves a stop latched. -/
theorem Held.task {turn : Turn Raw} (hflat : 0 ∈ targets) (h : Held cfg.coin targets s.client)
    (haway : AwayFrom cfg.coin targets (.task turn)) :
    let result := s.result usdcFlatTargets validationErrors rule cfg quoteRefreshReason turn
    Held cfg.coin targets result.state.client ∧
      ∀ config ∈ result.created, config.isQuote = false := by
  have houtcome := s.controlTask_outcome usdcFlatTargets validationErrors rule cfg
    quoteRefreshReason turn
  have hupdate := Held.update usdcFlatTargets validationErrors rule cfg
    { s with marketDataUnready := false } hflat h haway.1 haway.2
  intro result
  unfold result ControlState.result
  generalize s.controlTask usdcFlatTargets validationErrors rule cfg quoteRefreshReason turn =
    result at houtcome ⊢
  cases houtcome with
  | idle hidle => exact ⟨h, fun _ hconfig => (by cases hconfig)⟩
  | decided before notices hcontroller hclient hmarket =>
      have hheld : Held cfg.coin targets before.client := hclient ▸ hupdate
      refine ⟨?_, decide_no_quote usdcFlatTargets cfg quoteRefreshReason _ hheld⟩
      rw [(decide_facts usdcFlatTargets cfg quoteRefreshReason before turn notices true).1]
      exact hheld
  | forced before notices hcontroller =>
      obtain ⟨table, htable⟩ := before.forceFlattenIntent_state usdcFlatTargets cfg turn
      have hheld : Held cfg.coin targets
          (before.forceFlattenIntent usdcFlatTargets cfg turn).client := by
        rw [htable]
        exact ⟨cfg.flattenIntent turn, rfl, rfl, rfl, rfl, hflat⟩
      refine ⟨?_, decide_no_quote usdcFlatTargets cfg quoteRefreshReason _ hheld⟩
      rw [(decide_facts usdcFlatTargets cfg quoteRefreshReason _ turn notices false).1]
      exact hheld
  | raised after notices hcontroller hclient hmany =>
      exact ⟨hclient ▸ hupdate, fun _ hconfig => (by cases hconfig)⟩

theorem Held.step {event : ControlEvent Raw} (hflat : 0 ∈ targets)
    (h : Held cfg.coin targets s.client) (haway : AwayFrom cfg.coin targets event) :
    Held cfg.coin targets
      (s.step usdcFlatTargets validationErrors rule cfg quoteRefreshReason event).client := by
  cases event with
  | task turn =>
      exact (h.task usdcFlatTargets validationErrors rule cfg quoteRefreshReason s hflat haway).1
  | sibling call =>
      obtain ⟨table, htable⟩ := step_sibling usdcFlatTargets validationErrors rule cfg
        quoteRefreshReason s call
      rw [htable]
      exact h
  | connector connector => exact h

/-- The event creates no quote. -/
def NoQuote (s : ControlState) : ControlEvent Raw → Prop
  | .task turn =>
      ∀ config ∈ (s.result usdcFlatTargets validationErrors rule cfg quoteRefreshReason
        turn).created, config.isQuote = false
  | _ => True

/-- After a failed task no task creates a quote, whatever the keeper, the basket,
the market and further failures do, as long as every position fed is away from
flat and from the targets of the keeper's own emergency stops. A stop toward one
of these targets is latched all along, and the first position fed at its target
retires it. -/
theorem no_quote_until_flat (turn : Turn Raw)
    (hset : turn.updateEventSet = true) (hcount : s.venueCircuit.consecutiveFailures < 1023)
    (hfails : (s.result usdcFlatTargets validationErrors rule cfg quoteRefreshReason
      turn).completed = false)
    (targets : Set ℚ) (hflat : 0 ∈ targets) (events : List (ControlEvent Raw))
    (haway : ∀ event ∈ events, AwayFrom cfg.coin targets event) :
    let step := ControlState.step usdcFlatTargets validationErrors rule cfg quoteRefreshReason
    let failed := step s (.task turn)
    Along step (NoQuote usdcFlatTargets validationErrors rule cfg quoteRefreshReason) failed
        events ∧
      ∃ latched, (run step failed events).client.lastIntent = some latched ∧
        latched.quote = none ∧ latched.targetInventory ∈ targets ∧
        ∀ position, |position - latched.targetInventory| < flatTolerance →
          ((run step failed events).client.setPositions (fed cfg.coin position)).lastIntent =
            none := by
  intro step failed
  obtain ⟨before, notices, hforced⟩ := failed_forced usdcFlatTargets validationErrors rule cfg
    quoteRefreshReason s turn hset hcount hfails
  have hlatched : failed.client.lastIntent = some (cfg.flattenIntent turn) := by
    have hstate := (forced_state usdcFlatTargets cfg quoteRefreshReason before turn notices).1
    rw [← hforced] at hstate
    exact hstate
  have hheld : Held cfg.coin targets failed.client :=
    ⟨cfg.flattenIntent turn, hlatched, rfl, rfl, rfl, hflat⟩
  have haways : Along step (fun _ event => AwayFrom cfg.coin targets event) failed events :=
    Along.iff_forall_mem.mpr haway
  have hkeep : ∀ (s : ControlState) event, Held cfg.coin targets s.client →
      AwayFrom cfg.coin targets event → Held cfg.coin targets (step s event).client :=
    fun _ event h haway =>
      h.step usdcFlatTargets validationErrors rule cfg quoteRefreshReason _ hflat haway
  constructor
  · refine Along.of_invariant_of (fun s => Held cfg.coin targets s.client) hkeep
      (fun s event h haway => ?_) hheld haways
    cases event with
    | task turn =>
        exact (h.task usdcFlatTargets validationErrors rule cfg quoteRefreshReason s hflat haway).2
    | sibling call => trivial
    | connector connector => trivial
  · obtain ⟨latched, hlatched, hcoin, hstop, -, htarget⟩ :=
      run_invariant (fun s => Held cfg.coin targets s.client) hkeep hheld haways
    refine ⟨latched, hlatched, hstop, htarget, fun position hreached => ?_⟩
    have hlookup : (fed cfg.coin position).lookup latched.coin = some ⟨position⟩ := by
      rw [fed, hcoin, Registry.lookup_set, if_pos rfl]
    exact setPositions_of_reached hlatched hstop hlookup
      (by simpa [InProcessClient.reached] using hreached)

end HeldRun

/-- A bid filled while the deadline cut a task off. The keeper's next quote does
not replace the flatten. -/
theorem no_quote_until_flat_filledBid :
    let step := ControlState.step sampleTargets (fun _ => []) sampleRule sampleControl
      fun _ => none
    let failed := step (.init sampleControl {} {} Registry.empty) (.task (cutOffTurn 20 1))
    let events := [ControlEvent.task (sampleTurn 25 1 sampleQuote)]
    Along step (NoQuote sampleTargets (fun _ => []) sampleRule sampleControl fun _ => none) failed
        events ∧
      ∃ latched, (run step failed events).client.lastIntent = some latched ∧
        latched.quote = none ∧ latched.targetInventory ∈ ({0} : Set ℚ) ∧
        ∀ position, |position - latched.targetInventory| < flatTolerance →
          ((run step failed events).client.setPositions
            (fed sampleControl.coin position)).lastIntent = none := by
  intro step failed events
  refine no_quote_until_flat sampleTargets (fun _ => []) sampleRule sampleControl (fun _ => none)
    (.init sampleControl {} {} Registry.empty) (cutOffTurn 20 1) rfl (by decide +kernel)
    (by decide +kernel) {0} rfl events ?_
  intro event hevent
  obtain rfl := List.mem_singleton.mp hevent
  refine ⟨fun intent hintent => ?_, fun market hmarket target htarget => ?_⟩
  · obtain rfl : intent = sampleQuote := by
      simpa [Update.sends, sampleTurn, KeeperCall.sent?] using hintent
    exact ⟨by decide +kernel, fun hquote => (by cases hquote)⟩
  · obtain rfl := Option.some.inj hmarket
    obtain rfl : target = 0 := htarget
    change flatTolerance ≤ |(1 : ℚ) - 0|
    decide +kernel

end Opms.PerpMM
