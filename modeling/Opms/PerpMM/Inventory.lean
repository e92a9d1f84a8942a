import Opms.PassiveAggressive.Outcome
import Opms.PassiveAggressive.Reserve
import Opms.PerpMM.ChildPlan
import Opms.PerpMM.CloseSizing
import Opms.PerpMM.MakerQuote

/-! # The inventory under the controller's executors

The controller creates executors from intents while earlier ones still fill.
What every executor may still fill is reserved, so the inventory stays where the
intents aimed, up to how stale their inventories were, what was still reserved
when an executor was added, and what is credited late.
-/

namespace Opms.PerpMM

open Foundation PassiveAggressive

/-! ## Executions -/

/-- An executor that the controller created, with what it has done. Hummingbot's
own order executors are known by what they filled. -/
inductive Execution
  | worked (settings : Settings) (slots : List ChildSlot) (ops : List Op)
  | order (config : OrderExecutorConfig) (filled : ℚ) (live : Bool)

/-- What an executor does next. -/
inductive Work
  | op (op : Op)
  | fill (amount : ℚ)
  | finish

namespace Execution

/-- The passive-aggressive executor after its operations. -/
def executor (settings : Settings) (slots : List ChildSlot) (ops : List Op) :
    Executor slots.length :=
  run (PassiveAggressive.perform settings) (Executor.init slots) ops

def side : Execution → TradeType
  | .worked settings _ _ => settings.side
  | .order config _ _ => config.side

def executed : Execution → ℚ
  | .worked settings slots ops => (executor settings slots ops).cumulativeFilled
  | .order _ filled _ => filled

/-- What may still be executed without a late credit. -/
def reserve : Execution → ℚ
  | .worked settings slots ops => (executor settings slots ops).reserve settings
  | .order config filled live => if live then max (config.amount - filled) 0 else 0

/-- The executor that a created configuration starts, unless its constructor raises. -/
def start (maxRetries : ℕ) : ExecutorConfig → Option Execution
  | .passiveAggressive config =>
      let settings : Settings := { toPassiveAggressiveExecutorConfig := config, maxRetries }
      match buildChildSlots settings with
      | .error _ => none
      | .ok slots => some (.worked settings slots [])
  | .order config => some (.order config 0 true)
  | .bufferedMaker config => some (.order config.toOrderExecutorConfig 0 true)

def perform : Execution → Work → Execution
  | .worked settings slots ops, .op op => .worked settings slots (ops ++ [op])
  | .order config filled live, .fill amount => .order config (filled + amount) live
  | .order config filled _, .finish => .order config filled false
  | execution, _ => execution

/-- `place_order` returns new ids, and no order is credited beyond its amount. -/
def Legal : Execution → Work → Prop
  | .worked settings slots ops, .op op =>
      FreshId (executor settings slots ops) op ∧
        CreditsWithin settings (executor settings slots ops) op
  | .order config filled live, .fill amount =>
      live = true ∧ 0 ≤ amount ∧ filled + amount ≤ config.amount
  | _, _ => True

instance : ∀ (execution : Execution) (work : Work), Decidable (execution.Legal work)
  | .worked _ _ _, .op _ => inferInstanceAs (Decidable (_ ∧ _))
  | .worked _ _ _, .fill _ => inferInstanceAs (Decidable True)
  | .worked _ _ _, .finish => inferInstanceAs (Decidable True)
  | .order _ _ _, .op _ => inferInstanceAs (Decidable True)
  | .order _ _ _, .fill _ => inferInstanceAs (Decidable (_ ∧ _ ∧ _))
  | .order _ _ _, .finish => inferInstanceAs (Decidable True)

/-- What is credited after an order's terminal event. -/
def late : Execution → Work → ℚ
  | .worked settings slots ops, .op op => lateCredit settings none (executor settings slots ops) op
  | _, _ => 0

theorem reserve_nonneg (execution : Execution) : 0 ≤ execution.reserve := by
  cases execution with
  | worked settings slots ops => exact Executor.reserve_nonneg _ _
  | order config filled live =>
      rw [reserve]
      split
      next => exact le_max_right _ _
      next => exact le_rfl

theorem executor_concat (settings : Settings) (slots : List ChildSlot) (ops : List Op) (op : Op) :
    executor settings slots (ops ++ [op]) =
      PassiveAggressive.perform settings (executor settings slots ops) op := by
  rw [executor, run_append]
  rfl

@[simp] theorem side_perform (execution : Execution) (work : Work) :
    (execution.perform work).side = execution.side := by
  cases execution <;> cases work <;> rfl

/-- An execution fills out of its reserve, except for late credits. -/
theorem perform_reserve_le (execution : Execution) {work : Work}
    (hlegal : execution.Legal work) :
    0 ≤ execution.late work ∧ execution.executed ≤ (execution.perform work).executed ∧
      (execution.perform work).executed + (execution.perform work).reserve ≤
        execution.executed + execution.reserve + execution.late work := by
  have hidle : execution.perform work = execution → execution.late work = 0 →
      0 ≤ execution.late work ∧ execution.executed ≤ (execution.perform work).executed ∧
        (execution.perform work).executed + (execution.perform work).reserve ≤
          execution.executed + execution.reserve + execution.late work := by
    intro hsame hlate
    rw [hsame, hlate]
    exact ⟨le_rfl, le_rfl, (add_zero _).ge⟩
  cases execution with
  | worked settings slots ops =>
      cases work with
      | op op =>
          obtain ⟨hlate, hreserve⟩ := Executor.add_reserve_perform_le hlegal.1 hlegal.2
          refine ⟨hlate, ?_, ?_⟩
          · simp only [Execution.perform, executed, executor_concat]
            exact cumulativeFilled_le_perform settings _ op
          · simpa only [Execution.perform, executed, reserve, late, executor_concat] using hreserve
      | fill amount => exact hidle rfl rfl
      | finish => exact hidle rfl rfl
  | order config filled live =>
      cases work with
      | op op => exact hidle rfl rfl
      | fill amount =>
          obtain ⟨hlive, hpos, hwithin⟩ := hlegal
          simp only [Execution.perform, executed, reserve, late, hlive, ↓reduceIte]
          rw [max_eq_left (by linarith), max_eq_left (by linarith)]
          exact ⟨le_rfl, le_add_of_nonneg_right hpos, by linarith⟩
      | finish =>
          refine ⟨le_rfl, le_rfl, ?_⟩
          have hreserve := reserve_nonneg (.order config filled live)
          simp only [Execution.perform, executed, late, add_zero]
          simpa [reserve] using hreserve

/-- A stop fills nothing and reserves nothing new. -/
def stop (call : Call) (execution : Execution) : Execution :=
  execution.perform (.op (.earlyStop call false))

theorem stop_le (call : Call) (execution : Execution) :
    (execution.stop call).executed = execution.executed ∧
      (execution.stop call).reserve ≤ execution.reserve := by
  cases execution with
  | worked settings slots ops =>
      have hframe := Executor.Frame.earlyStop call (executor settings slots ops) false
      simp only [stop, Execution.perform, executed, reserve, executor_concat]
      refine ⟨hframe.cumulativeFilled, ?_⟩
      rw [Executor.reserve, if_neg (by simp [PassiveAggressive.perform, Executor.earlyStop])]
      exact hframe.outstanding_eq.trans_le (Executor.outstanding_le_reserve _ _)
  | order config filled live => exact ⟨rfl, le_rfl⟩

end Execution

/-! ## The desk -/

/-- The executions by executor id; ids are consecutive. -/
structure Roster where
  executions : Registry ExecutorId Execution
  nextId : ExecutorId
  below : ∀ id ∈ executions.keys, id < nextId

namespace Roster

def empty : Roster := ⟨Registry.empty, 0, fun _ hid => (by cases hid)⟩

theorem absent (roster : Roster) : roster.executions.lookup roster.nextId = none := by
  rw [Registry.lookup_eq_none_iff]
  exact fun hmem => (roster.below _ hmem).false

def add (roster : Roster) (execution : Execution) : Roster where
  executions := roster.executions.set roster.nextId execution
  nextId := roster.nextId + 1
  below := by
    intro id hid
    rw [Registry.keys, Registry.set_of_absent_entries _ roster.absent, List.map_append,
      List.mem_append] at hid
    rcases hid with hold | hnew
    · exact (roster.below id hold).trans (Nat.lt_succ_self _)
    · rw [List.mem_singleton.mp hnew]
      exact Nat.lt_succ_self _

/-- A configuration whose executor cannot be built still uses up its id. -/
def skip (roster : Roster) : Roster :=
  { roster with
    nextId := roster.nextId + 1
    below := fun id hid => (roster.below id hid).trans (Nat.lt_succ_self _) }

/-- Start the executors of the created configurations, in order. -/
def create (maxRetries : ℕ) : Roster → List ExecutorConfig → Roster
  | roster, [] => roster
  | roster, config :: rest => match Execution.start maxRetries config with
      | some execution => create maxRetries (roster.add execution) rest
      | none => create maxRetries roster.skip rest

/-- Ask executors to stop. -/
def stop (call : Call) (roster : Roster) (ids : List ExecutorId) : Roster where
  executions := roster.executions.mapEntries fun id execution =>
    if id ∈ ids then execution.stop call else execution
  nextId := roster.nextId
  below := by
    intro id hid
    rw [Registry.keys_mapEntries] at hid
    exact roster.below id hid

def work (roster : Roster) (id : ExecutorId) (work : Work) : Roster where
  executions := roster.executions.modify id fun execution => execution.perform work
  nextId := roster.nextId
  below := by
    intro id hid
    rw [Registry.keys_modify] at hid
    exact roster.below id hid

/-- What the executions of one side may still fill. -/
def reserveOn (side : TradeType) (roster : Roster) : ℚ :=
  roster.executions.total fun _ execution => if execution.side = side then execution.reserve else 0

end Roster

/-- The controller, the venue's position, and the executors created so far. -/
structure Desk where
  controller : PerpMMController
  position : ℚ
  roster : Roster := Roster.empty

/-- A control cycle, whose stops read the clock, or the work of one executor. -/
inductive DeskEvent
  | cycle (inputs : Cycle) (call : Call)
  | work (id : ExecutorId) (work : Work)

namespace Desk

variable (cfg : PerpMMControllerConfig) (quoteRefreshReason : RefreshQuery → Option String)
  (maxRetries : ℕ)

def decision (desk : Desk) (inputs : Cycle) : Decision :=
  desk.controller.determineExecutorActions cfg inputs quoteRefreshReason

/-- The executors once those the batch stops have been asked to. -/
def stopped (desk : Desk) (inputs : Cycle) (call : Call) : Roster :=
  desk.roster.stop call (desk.decision cfg quoteRefreshReason inputs).stopped

/-- A batch stops before it creates; what an executor fills moves the position. -/
def step (desk : Desk) : DeskEvent → Desk
  | .cycle inputs call =>
      { desk with
        controller := (desk.decision cfg quoteRefreshReason inputs).controller
        roster := (desk.stopped cfg quoteRefreshReason inputs call).create maxRetries
          (desk.decision cfg quoteRefreshReason inputs).created }
  | .work id work => match desk.roster.executions.lookup id with
      | none => desk
      | some execution =>
          { desk with
            position := moved execution.side desk.position
              ((execution.perform work).executed - execution.executed)
            roster := desk.roster.work id work }

/-- Each executor works as its venue allows. -/
def Legal (desk : Desk) : DeskEvent → Prop
  | .cycle _ _ => True
  | .work id work => ∀ execution ∈ desk.roster.executions.lookup id, execution.Legal work

instance (desk : Desk) : DecidablePred desk.Legal
  | .cycle _ _ => inferInstanceAs (Decidable True)
  | .work id _ => inferInstanceAs (Decidable (∀ execution ∈ desk.roster.executions.lookup id, _))

/-- What the event credits late to executors of the side. -/
def late (side : TradeType) (desk : Desk) : DeskEvent → ℚ
  | .cycle _ _ => 0
  | .work id work => match desk.roster.executions.lookup id with
      | none => 0
      | some execution => if execution.side = side then execution.late work else 0

end Desk

/-! ## Where intents aim -/

/-- A quantity in the direction of a side. -/
def toward (side : TradeType) (quantity : ℚ) : ℚ :=
  match side with
  | .buy => quantity
  | .sell => -quantity

theorem toward_moved (side : TradeType) (position executed : ℚ) :
    toward side (moved side position executed) = toward side position + executed := by
  cases side with
  | buy => rfl
  | sell =>
      simp only [toward, moved]
      ring

theorem toward_moved_of_ne {side other : TradeType} (hne : other ≠ side) (position executed : ℚ) :
    toward side (moved other position executed) = toward side position - executed := by
  cases side with
  | buy =>
      cases other with
      | buy => exact absurd rfl hne
      | sell => rfl
  | sell =>
      cases other with
      | buy =>
          simp only [toward, moved]
          ring
      | sell => exact absurd rfl hne

/-- The furthest inventory an intent asks for on a side: its target, or for a
quote its filled leg and flat, where a failing quote is closed to. -/
def ExecIntent.furthest (intent : ExecIntent) (side : TradeType) : ℚ :=
  match intent.quote with
  | none => intent.targetInventory
  | some quote => match side with
      | .buy => max 0 (intent.current + quote.bidSize)
      | .sell => min 0 (intent.current - quote.askSize)

section Aims

variable {cfg : PerpMMControllerConfig} {quoteRefreshReason : RefreshQuery → Option String}
  {c : PerpMMController} {cycle : Cycle} {req : ExecutionRequest} {config : ExecutorConfig}

theorem executionConfig_size (cfg : PerpMMControllerConfig) (cycle : Cycle)
    (req : ExecutionRequest) : (executionConfig cfg cycle req).side = req.side ∧
      (executionConfig cfg cycle req).configNotional = req.amount := by
  unfold executionConfig
  split
  next => exact ⟨rfl, rfl⟩
  next => exact ⟨rfl, rfl⟩
  next => exact ⟨rfl, rfl⟩
  next => split <;> exact ⟨rfl, rfl⟩

/-- What a created configuration was made from. -/
inductive Origin (cfg : PerpMMControllerConfig) (cycle : Cycle) : ExecutorConfig → Prop
  | stop (req : ExecutionRequest) (hreq : intentToExecutionRequest cycle.lastIntent = some req) :
      Origin cfg cycle (executionConfig cfg cycle req)
  | failsafe (req : ExecutionRequest) (hquoting : cycle.quoting = true)
      (hreq : quoteFailsafeRequest cycle.lastIntent = some req) :
      Origin cfg cycle (executionConfig cfg cycle req)
  | quote (spec : OrderSpec) (config : BufferedMakerExecutorConfig)
      (hspec : spec ∈ intentToOrderSpecs cycle.lastIntent)
      (hconfig : quoteConfig cfg cycle spec = some config) :
      Origin cfg cycle (.bufferedMaker config)

theorem origin_of_failsafe (hquoting : cycle.quoting = true)
    (hmem : config ∈ ((c.failsafePlan cfg cycle).decide cfg cycle).created) :
    Origin cfg cycle config := by
  rw [Plan.decide_created] at hmem
  unfold PerpMMController.failsafePlan at hmem
  dsimp only at hmem
  split at hmem
  next req hreq =>
    split at hmem
    next =>
      rw [List.mem_singleton.mp hmem]
      exact .failsafe req hquoting hreq
    next => cases hmem
  next => cases hmem

theorem origin_of_quotes
    (hmem : config ∈ (quoteCreateActions cfg cycle (PerpMMController.specs cycle)).filterMap
      ExecutorAction.created?) : Origin cfg cycle config := by
  rw [quoteCreateActions_created] at hmem
  obtain ⟨quote, hquote, rfl⟩ := List.mem_map.mp hmem
  obtain ⟨spec, hspec, hconfig⟩ := List.mem_filterMap.mp hquote
  exact .quote spec quote (List.mem_filter.mp hspec).1 hconfig

theorem origin_of_closing
    (hmem : config ∈ ((c.closingPlan cfg cycle).decide cfg cycle).created) :
    Origin cfg cycle config := by
  have hwanted : config ∈ (PerpMMController.wantedActions cfg cycle).filterMap
      ExecutorAction.created? → Origin cfg cycle config := by
    intro hmem
    unfold PerpMMController.wantedActions at hmem
    split at hmem
    next req hreq =>
      split at hmem
      next =>
        rw [List.mem_singleton.mp hmem]
        exact .stop req hreq
      next => cases hmem
    next => cases hmem
  rw [Plan.decide_created] at hmem
  unfold PerpMMController.closingPlan at hmem
  dsimp only at hmem
  split at hmem
  next =>
    dsimp only at hmem
    split at hmem
    next => cases hmem
    next => exact hwanted hmem
  next => cases hmem

/-- A cycle creates closes of the stop or the failsafe, and quotes of the legs. -/
theorem origin_of_created (hmem : config ∈ (c.determineExecutorActions cfg cycle
    quoteRefreshReason).created) : Origin cfg cycle config := by
  have hbranch := determine_branch cfg quoteRefreshReason c cycle
  generalize c.determineExecutorActions cfg cycle quoteRefreshReason = decision at hbranch hmem
  cases hbranch with
  | shadow _ => cases hmem
  | suspended _ _ _ =>
      simp [Decision.created, PerpMMController.suspendedDecision] at hmem
  | stale _ _ _ _ =>
      simp [Decision.created, PerpMMController.staleDecision] at hmem
  | execution _ _ =>
      rw [Plan.decide_created] at hmem
      cases hmem
  | refreshPending _ _ _ =>
      rw [Plan.decide_created] at hmem
      unfold PerpMMController.refreshPendingPlan at hmem
      dsimp only at hmem
      split at hmem
      next => cases hmem
      next => exact origin_of_quotes hmem
  | circuitOpen hquotable _ _ => exact origin_of_failsafe hquotable.quoting hmem
  | tripped hquotable _ _ _ => exact origin_of_failsafe hquotable.quoting hmem
  | quoted _ _ _ _ _ =>
      rw [Plan.decide_created] at hmem
      unfold PerpMMController.quotedPlan at hmem
      split at hmem <;> cases hmem
  | quotes _ _ _ _ _ =>
      rw [Plan.decide_created] at hmem
      exact origin_of_quotes hmem
  | closing _ => exact origin_of_closing hmem

theorem quantized_le (cycle : Cycle) (amount : ℚ) : quantized cycle amount ≤ amount := by
  by_cases hstep : 0 < cycle.rules.minBaseAmountIncrement
  · exact (quantized_step hstep amount).1
  · rw [quantized, if_neg hstep]

theorem quantized_nonneg (cycle : Cycle) {amount : ℚ} (hamount : 0 ≤ amount) :
    0 ≤ quantized cycle amount := by
  unfold quantized
  dsimp only
  split
  next hstep =>
    have hfloor : (0 : ℤ) ≤ ⌊amount / cycle.rules.minBaseAmountIncrement⌋ :=
      Int.floor_nonneg.mpr (div_nonneg hamount hstep.le)
    exact mul_nonneg (by exact_mod_cast hfloor) hstep.le
  next => exact hamount

/-- A quote is no larger than its leg. -/
theorem quoteConfig_amount {spec : OrderSpec} {quote : BufferedMakerExecutorConfig}
    (hquote : quoteConfig cfg cycle spec = some quote) :
    0 ≤ quote.amount ∧ quote.amount ≤ spec.amount := by
  unfold quoteConfig at hquote
  obtain ⟨side, _, hquote⟩ := Option.bind_eq_some_iff.mp hquote
  split at hquote
  next => cases hquote
  next hpos =>
    obtain ⟨price, _, hquote⟩ := Option.bind_eq_some_iff.mp hquote
    dsimp only at hquote
    split at hquote
    next => cases hquote
    next =>
      rw [← Option.some.inj hquote]
      exact ⟨quantized_nonneg cycle (not_le.mp hpos).le, quantized_le cycle spec.amount⟩

/-- The amount is not negative, and filling it leads no further than the intent aims. -/
structure AimsWithin (intent : ExecIntent) (side : TradeType) (amount : ℚ) : Prop where
  nonneg : 0 ≤ amount
  aim : toward side intent.current + amount ≤ toward side (intent.furthest side)

theorem aimsWithin_stop {intent : ExecIntent}
    (hreq : intentToExecutionRequest (some intent) = some req) :
    AimsWithin intent req.side req.amount := by
  obtain ⟨hquote, _, hamount, hbuy⟩ := request_facts hreq
  have hfurthest : intent.furthest req.side = intent.targetInventory := by
    rw [ExecIntent.furthest, hquote]
  refine ⟨hamount ▸ abs_nonneg _, ?_⟩
  rw [hfurthest, hamount]
  cases hside : req.side with
  | buy =>
      rw [abs_of_pos (hbuy.mp hside)]
      simp only [toward]
      linarith
  | sell =>
      have hle : intent.targetInventory - intent.current ≤ 0 := by
        rw [← not_lt, ← hbuy, hside]
        simp
      rw [abs_of_nonpos hle]
      simp only [toward]
      linarith

/-- The failsafe closes to flat. -/
theorem aimsWithin_failsafe {intent : ExecIntent} {quote : QuoteSpec}
    (hquote : intent.quote = some quote)
    (hreq : quoteFailsafeRequest (some intent) = some req) :
    AimsWithin intent req.side req.amount := by
  simp only [quoteFailsafeRequest] at hreq
  split at hreq
  next => cases hreq
  next =>
    obtain rfl := Option.some.inj hreq
    refine ⟨abs_nonneg _, ?_⟩
    rw [ExecIntent.furthest, hquote]
    dsimp only
    split
    next hlong =>
      simp only [toward, abs_of_pos hlong]
      linarith [min_le_left 0 (intent.current - quote.askSize)]
    next hshort =>
      simp only [toward, abs_of_nonpos (not_lt.mp hshort)]
      linarith [le_max_left 0 (intent.current + quote.bidSize)]

theorem aimsWithin_quote {intent : ExecIntent} {spec : OrderSpec}
    {quote : BufferedMakerExecutorConfig} (hspec : spec ∈ intentToOrderSpecs (some intent))
    (hquote : quoteConfig cfg cycle spec = some quote) :
    AimsWithin intent quote.side quote.amount := by
  have hside := (quoteConfig_facts hquote).2
  obtain ⟨hnonneg, hamount⟩ := quoteConfig_amount hquote
  refine ⟨hnonneg, ?_⟩
  simp only [intentToOrderSpecs] at hspec
  split at hspec
  next => cases hspec
  next legs hlegs =>
    rw [ExecIntent.furthest, hlegs]
    rcases List.mem_append.mp hspec with hbid | hask
    · split at hbid
      next =>
        obtain rfl := List.mem_singleton.mp hbid
        have hbuy : quote.side = .buy := (Option.some.inj hside).symm
        rw [hbuy]
        simp only [toward]
        linarith [le_max_right 0 (intent.current + legs.bidSize)]
      next => cases hbid
    · split at hask
      next =>
        obtain rfl := List.mem_singleton.mp hask
        have hsell : quote.side = .sell := (Option.some.inj hside).symm
        rw [hsell]
        simp only [toward]
        linarith [min_le_right 0 (intent.current - legs.askSize)]
      next => cases hask

/-- What is created aims no further than its intent. -/
theorem Origin.aims (h : Origin cfg cycle config) :
    ∃ intent ∈ cycle.lastIntent, AimsWithin intent config.side config.configNotional := by
  cases hintent : cycle.lastIntent with
  | none =>
      cases h with
      | stop req hreq =>
          rw [hintent] at hreq
          cases hreq
      | failsafe req _ hreq =>
          rw [hintent] at hreq
          cases hreq
      | quote spec quote hspec _ =>
          rw [hintent] at hspec
          cases hspec
  | some intent =>
      refine ⟨intent, rfl, ?_⟩
      cases h with
      | stop req hreq =>
          obtain ⟨hside, hamount⟩ := executionConfig_size cfg cycle req
          rw [hside, hamount]
          exact aimsWithin_stop (hintent ▸ hreq)
      | failsafe req hquoting hreq =>
          obtain ⟨hside, hamount⟩ := executionConfig_size cfg cycle req
          rw [Cycle.quoting, hintent] at hquoting
          obtain ⟨quote, hquote⟩ := Option.isSome_iff_exists.mp hquoting
          rw [hside, hamount]
          exact aimsWithin_failsafe hquote (hintent ▸ hreq)
      | quote spec quote hspec hquote => exact aimsWithin_quote (hintent ▸ hspec) hquote

/-- A cycle creates at most one executor for a side. -/
theorem created_sides_nodup :
    (((c.determineExecutorActions cfg cycle quoteRefreshReason).created).map
      ExecutorConfig.side).Nodup := by
  have hcreation := (determine_branch cfg quoteRefreshReason c cycle).creation
  generalize (c.determineExecutorActions cfg cycle quoteRefreshReason).created = configs
    at hcreation
  cases hcreation with
  | closes hcloses =>
      cases hcloses with
      | nothing => exact List.nodup_nil
      | close req _ _ => exact List.nodup_singleton _
  | quotes _ =>
      rw [List.map_map]
      exact quoteConfigs_sides

end Aims

/-! ## What stays reserved -/

theorem Execution.start_facts {maxRetries : ℕ} {config : ExecutorConfig} {execution : Execution}
    (hstart : Execution.start maxRetries config = some execution)
    (hamount : 0 ≤ config.configNotional) :
    execution.side = config.side ∧ execution.reserve = config.configNotional := by
  cases config with
  | passiveAggressive config =>
      simp only [Execution.start] at hstart
      split at hstart
      next => cases hstart
      next slots _ =>
        obtain rfl := Option.some.inj hstart
        refine ⟨rfl, ?_⟩
        have htotal : 0 ≤ config.totalAmountBase - 0 := hamount.trans_eq (sub_zero _).symm
        exact (max_eq_left htotal).trans (sub_zero _)
  | order config =>
      obtain rfl := Option.some.inj hstart
      have hfilled : 0 ≤ config.amount - 0 := hamount.trans_eq (sub_zero _).symm
      exact ⟨rfl, (max_eq_left hfilled).trans (sub_zero _)⟩
  | bufferedMaker config =>
      obtain rfl := Option.some.inj hstart
      have hfilled : 0 ≤ config.amount - 0 := hamount.trans_eq (sub_zero _).symm
      exact ⟨rfl, (max_eq_left hfilled).trans (sub_zero _)⟩

namespace Roster

variable {side : TradeType} {roster : Roster}

theorem reserveOn_add (execution : Execution) : (roster.add execution).reserveOn side =
    roster.reserveOn side + if execution.side = side then execution.reserve else 0 := by
  simp only [reserveOn, add]
  exact Registry.total_set_of_absent _ roster.absent _ _

theorem reserveOn_stop_le (call : Call) (ids : List ExecutorId) :
    (roster.stop call ids).reserveOn side ≤ roster.reserveOn side := by
  simp only [reserveOn, stop, Registry.total_mapEntries]
  apply Registry.total_le_total
  intro id execution _
  by_cases hid : id ∈ ids
  · simp only [if_pos hid, Execution.stop, Execution.side_perform]
    split
    next => exact (execution.stop_le call).2
    next => exact le_rfl
  · rw [if_neg hid]

/-- Working within the side moves its reserve only. -/
theorem reserveOn_work {id : ExecutorId} {execution : Execution}
    (hlook : roster.executions.lookup id = some execution) (work : Work) :
    (roster.work id work).reserveOn side +
        (if execution.side = side then execution.reserve else 0) =
      roster.reserveOn side +
        if execution.side = side then (execution.perform work).reserve else 0 := by
  have hmove := roster.executions.total_modify hlook (fun execution => execution.perform work)
    fun _ execution => if execution.side = side then execution.reserve else 0
  rw [Execution.side_perform] at hmove
  exact hmove

/-- A batch adds the reserve of its one executor on the side, if it has one. -/
theorem reserveOn_create (maxRetries : ℕ) {configs : List ExecutorConfig}
    (hamounts : ∀ config ∈ configs, 0 ≤ config.configNotional)
    (hsides : (configs.map ExecutorConfig.side).Nodup) :
    (roster.create maxRetries configs).reserveOn side = roster.reserveOn side ∨
      ∃ config ∈ configs, config.side = side ∧
        (roster.create maxRetries configs).reserveOn side =
          roster.reserveOn side + config.configNotional := by
  induction configs generalizing roster with
  | nil => exact .inl rfl
  | cons config rest ih =>
      rw [List.map_cons, List.nodup_cons] at hsides
      have hrest := fun roster => @ih roster
        (fun other hother => hamounts other (List.mem_cons_of_mem _ hother)) hsides.2
      rw [create]
      split
      next execution hstart =>
        obtain ⟨hside, hreserve⟩ :=
          Execution.start_facts hstart (hamounts config List.mem_cons_self)
        have hadd : (roster.add execution).reserveOn side = roster.reserveOn side +
            if execution.side = side then execution.reserve else 0 := reserveOn_add execution
        rw [hside, hreserve] at hadd
        by_cases hsame : config.side = side
        · rw [if_pos hsame] at hadd
          rcases hrest (roster.add execution) with hnone | ⟨other, hother, hotherSide, _⟩
          · exact .inr ⟨config, List.mem_cons_self, hsame, hnone.trans hadd⟩
          · -- there is no second executor on the side
            have hmem : config.side ∈ rest.map ExecutorConfig.side := by
              rw [hsame, ← hotherSide]
              exact List.mem_map_of_mem hother
            exact absurd hmem hsides.1
        · rw [if_neg hsame, add_zero] at hadd
          rcases hrest (roster.add execution) with hnone | ⟨other, hother, hotherSide, hsome⟩
          · exact .inl (hnone.trans hadd)
          · exact .inr ⟨other, List.mem_cons_of_mem _ hother, hotherSide, by rw [hsome, hadd]⟩
      next =>
        rcases hrest roster.skip with hnone | ⟨other, hother, hotherSide, hsome⟩
        · exact .inl hnone
        · exact .inr ⟨other, List.mem_cons_of_mem _ hother, hotherSide, hsome⟩

end Roster

/-! ## The bound -/

namespace Desk

section Bound

variable (cfg : PerpMMControllerConfig) (quoteRefreshReason : RefreshQuery → Option String)
  (maxRetries : ℕ)

/-- Where an executor is added on the side, its intent aims no further than
`bound`, and how far the position has moved past the intent's inventory, with
what is still reserved on the side, is at most `slack`. -/
def Aims (side : TradeType) (bound slack : ℚ) (desk : Desk) : DeskEvent → Prop
  | .cycle inputs call =>
      ∀ config ∈ (desk.decision cfg quoteRefreshReason inputs).created, config.side = side →
        ∀ intent ∈ inputs.lastIntent,
          toward side (intent.furthest side) ≤ toward side bound ∧
            toward side desk.position - toward side intent.current +
              (desk.stopped cfg quoteRefreshReason inputs call).reserveOn side ≤ slack
  | .work _ _ => True

instance (side : TradeType) (bound slack : ℚ) (desk : Desk) :
    DecidablePred (Aims cfg quoteRefreshReason side bound slack desk)
  | .cycle inputs _ => inferInstanceAs (Decidable
      (∀ config ∈ (desk.decision cfg quoteRefreshReason inputs).created, config.side = side → _))
  | .work _ _ => inferInstanceAs (Decidable True)

/-- How far the position can get in the direction of a side. -/
def reach (side : TradeType) (desk : Desk) : ℚ :=
  toward side desk.position + desk.roster.reserveOn side

variable {side : TradeType} {bound slack : ℚ} {desk : Desk}

theorem reach_cycle_le {inputs : Cycle} {call : Call}
    (haims : desk.Aims cfg quoteRefreshReason side bound slack (.cycle inputs call)) :
    (desk.step cfg quoteRefreshReason maxRetries (.cycle inputs call)).reach side ≤
      max (desk.reach side) (toward side bound + slack) := by
  have hstopped : (desk.stopped cfg quoteRefreshReason inputs call).reserveOn side ≤
      desk.roster.reserveOn side := Roster.reserveOn_stop_le call _
  have haim : ∀ config ∈ (desk.decision cfg quoteRefreshReason inputs).created,
      ∃ intent ∈ inputs.lastIntent, AimsWithin intent config.side config.configNotional :=
    fun config hconfig => (origin_of_created hconfig).aims
  have hamounts : ∀ config ∈ (desk.decision cfg quoteRefreshReason inputs).created,
      0 ≤ config.configNotional := by
    intro config hconfig
    obtain ⟨intent, _, hwithin⟩ := haim config hconfig
    exact hwithin.nonneg
  simp only [reach, step]
  rcases @Roster.reserveOn_create side _ maxRetries _ hamounts created_sides_nodup with
    hnone | ⟨config, hconfig, hside, hsome⟩
  · rw [hnone]
    exact le_max_of_le_left (by linarith)
  · obtain ⟨intent, hintent, hwithin⟩ := haim config hconfig
    obtain ⟨hbound, hslack⟩ := haims config hconfig hside intent hintent
    have haimed := hwithin.aim
    rw [hside] at haimed
    rw [hsome]
    exact le_max_of_le_right (by linarith)

theorem reach_work_le {id : ExecutorId} {work : Work} (hlegal : desk.Legal (.work id work)) :
    (desk.step cfg quoteRefreshReason maxRetries (.work id work)).reach side ≤
      desk.reach side + desk.late side (.work id work) := by
  simp only [step, late]
  cases hlook : desk.roster.executions.lookup id with
  | none => simp
  | some execution =>
      have hmove := @Roster.reserveOn_work side _ _ _ hlook work
      obtain ⟨hlate, hexecuted, hreserve⟩ := execution.perform_reserve_le (hlegal execution hlook)
      dsimp only [reach]
      by_cases hside : execution.side = side
      · rw [if_pos hside, if_pos hside] at hmove
        rw [if_pos hside, hside, toward_moved]
        linarith
      · rw [if_neg hside, if_neg hside, add_zero, add_zero] at hmove
        rw [if_neg hside, toward_moved_of_ne hside, hmove]
        linarith

theorem late_nonneg {event : DeskEvent} (hlegal : desk.Legal event) :
    0 ≤ desk.late side event := by
  cases event with
  | cycle inputs call => exact le_rfl
  | work id work =>
      simp only [late]
      split
      next => exact le_rfl
      next execution hlook =>
        split
        next => exact (execution.perform_reserve_le (hlegal execution hlook)).1
        next => exact le_rfl

/-- Beyond what is reachable and aimed at, the reach grows by late credits only. -/
theorem reach_step_le {event : DeskEvent} (hlegal : desk.Legal event)
    (haims : desk.Aims cfg quoteRefreshReason side bound slack event) :
    max ((desk.step cfg quoteRefreshReason maxRetries event).reach side)
        (toward side bound + slack) ≤
      max (desk.reach side) (toward side bound + slack) + desk.late side event := by
  have hlate : 0 ≤ desk.late side event := late_nonneg hlegal
  have hbound := le_max_right (desk.reach side) (toward side bound + slack)
  have hreach := le_max_left (desk.reach side) (toward side bound + slack)
  refine max_le ?_ (by linarith)
  cases event with
  | cycle inputs call =>
      exact (reach_cycle_le cfg quoteRefreshReason maxRetries haims).trans (by linarith)
  | work id work =>
      exact (reach_work_le cfg quoteRefreshReason maxRetries hlegal).trans (by linarith)

theorem reserveOn_nonneg (roster : Roster) : 0 ≤ roster.reserveOn side := by
  apply Registry.total_nonneg
  intro _ execution _
  split
  next => exact execution.reserve_nonneg
  next => exact le_rfl

/-- A desk without executors gets no further than it aims, on either side. -/
theorem position_le {events : List DeskEvent} (hnew : desk.roster = Roster.empty)
    (hlegal : Along (step cfg quoteRefreshReason maxRetries) Legal desk events)
    (haims : Along (step cfg quoteRefreshReason maxRetries)
      (Aims cfg quoteRefreshReason side bound slack) desk events) :
    toward side (run (step cfg quoteRefreshReason maxRetries) desk events).position ≤
      max (toward side desk.position) (toward side bound + slack) +
        total (step cfg quoteRefreshReason maxRetries) (late side) desk events := by
  have hrun := run_le_add_total (step cfg quoteRefreshReason maxRetries)
    (fun desk => max (reach side desk) (toward side bound + slack))
    (fun _ _ hboth => reach_step_le cfg quoteRefreshReason maxRetries hboth.1 hboth.2)
    (hlegal.both haims)
  have hstart : desk.reach side = toward side desk.position := by
    have hempty : (Roster.empty.reserveOn side) = 0 := rfl
    rw [reach, hnew, hempty, add_zero]
  have hfinal : 0 ≤ (run (step cfg quoteRefreshReason maxRetries) desk events).roster.reserveOn
      side := reserveOn_nonneg _
  rw [hstart] at hrun
  refine le_trans ?_ hrun
  exact le_max_of_le_left (by rw [reach]; linarith)

end Bound

end Desk

/-- Over every run of cycles and of the executors they create, the position stays
between bounds that hold where it starts and where the intents aim, up to the
slack that was there when an executor was added and what is credited late. -/
theorem inventory_stays_within_aims (cfg : PerpMMControllerConfig)
    (quoteRefreshReason : RefreshQuery → Option String) (maxRetries : ℕ)
    {lower upper slack : ℚ} (hslack : 0 ≤ slack) (controller : PerpMMController) {position : ℚ}
    (hstart : position ∈ Set.Icc lower upper) (events : List DeskEvent)
    (hlegal : Along (Desk.step cfg quoteRefreshReason maxRetries) Desk.Legal
      { controller, position } events)
    (hbuys : Along (Desk.step cfg quoteRefreshReason maxRetries)
      (Desk.Aims cfg quoteRefreshReason .buy upper slack) { controller, position } events)
    (hsells : Along (Desk.step cfg quoteRefreshReason maxRetries)
      (Desk.Aims cfg quoteRefreshReason .sell lower slack) { controller, position } events) :
    let late := fun side => total (Desk.step cfg quoteRefreshReason maxRetries) (Desk.late side)
      { controller, position } events
    (run (Desk.step cfg quoteRefreshReason maxRetries) { controller, position } events).position ∈
      Set.Icc (lower - slack - late .sell) (upper + slack + late .buy) := by
  intro late
  obtain ⟨hlower, hupper⟩ := hstart
  have hbuy := Desk.position_le cfg quoteRefreshReason maxRetries rfl hlegal hbuys
  have hsell := Desk.position_le cfg quoteRefreshReason maxRetries rfl hlegal hsells
  simp only [toward] at hbuy hsell
  rw [max_eq_right (by linarith)] at hbuy hsell
  exact ⟨by linarith, hbuy⟩

/-- A close of one unit is half through its first order when a cycle replaces it;
the rest of that order still fills. -/
def replacedCloseEvents : List DeskEvent :=
  let replaced : ExecutorInfo :=
    { id := 0
      config := executionConfig sampleConfig (sampleCycle 0 (sampleStop 1) 0)
        { side := .sell, amount := 1, urgency := .normal } }
  let fill : OrderFilledEvent :=
    { orderId := "first", exchangeTradeId := some "t", amount := 1 / 10 }
  [ .cycle (sampleCycle 0 (sampleStop 1) 0) { now := 0, orderId := "" },
    .work 0 (.op (.controlTask { now := 1, bestAsk := some 101, orderId := "first" })),
    .work 0 (.op (.filled fill)),
    .cycle { sampleCycle 5 (sampleStop (9 / 10)) 0 with active := [replaced] }
      { now := 5, orderId := "" },
    .work 0 (.op (.filled { fill with exchangeTradeId := some "u" })),
    .work 1 (.op (.controlTask { now := 6, bestAsk := some 101, orderId := "second" })),
    .work 1 (.op (.completed { orderId := "second", baseAssetAmount := 9 / 50 })) ]

theorem inventory_stays_within_aims_replacedClose :
    let start : Desk := { controller := .init sampleConfig, position := 1 }
    let step := Desk.step sampleConfig (fun _ => none) 3
    (run step start replacedCloseEvents).position = 31 / 50 ∧
      (run step start replacedCloseEvents).position ∈
        Set.Icc (0 - 1 / 10 - total step (Desk.late .sell) start replacedCloseEvents)
          (1 + 1 / 10 + total step (Desk.late .buy) start replacedCloseEvents) :=
  ⟨by decide +kernel,
    inventory_stays_within_aims sampleConfig (fun _ => none) 3 (by norm_num)
      (.init sampleConfig) ⟨by norm_num, le_refl _⟩ replacedCloseEvents (by decide +kernel)
      (by decide +kernel) (by decide +kernel)⟩

end Opms.PerpMM
