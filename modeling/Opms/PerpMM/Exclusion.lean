import Opms.Foundation.Run
import Opms.PerpMM.Branches

/-! # Quotes and closes exclude each other

The controller runs against a world that launches what a batch creates and
removes an executor only once it has finished, however long a stop takes.
-/

namespace Opms.PerpMM

open Foundation PerpMMController

/-- The controller with the executors it started. -/
structure World where
  controller : PerpMMController
  active : List ExecutorInfo := []
  nextId : ExecutorId := 0
  /-- Every configuration created so far, oldest first. -/
  created : List ExecutorConfig := []
  /-- Quote executors asked to stop since a cycle last saw none active. -/
  askedToStop : List ExecutorId := []

/-- A cycle reads the world's active executors in place of its own; the other
events are the environment's. -/
inductive Event
  | cycle (inputs : Cycle)
  | finish (executors : List ExecutorId)
  | report (executor : ExecutorId) (info : CustomInfo)
  | watchdog (state : QuoteLivenessWatchdog)

/-- Start executors under consecutive ids. -/
def launch : ExecutorId → List ExecutorConfig → List ExecutorInfo
  | _, [] => []
  | id, config :: rest => { id, config } :: launch (id + 1) rest

namespace World

variable (cfg : PerpMMControllerConfig) (quoteRefreshReason : RefreshQuery → Option String)

/-- The cycle as the controller sees it. -/
def sees (w : World) (inputs : Cycle) : Cycle := { inputs with active := w.active }

def decision (w : World) (inputs : Cycle) : Decision :=
  w.controller.determineExecutorActions cfg (w.sees inputs) quoteRefreshReason

/-- Apply a batch: launch what it creates; stops only ask. -/
def applyBatch (w : World) (inputs : Cycle) (decision : Decision) : World where
  controller := decision.controller
  active := w.active ++ launch w.nextId decision.created
  nextId := w.nextId + decision.created.length
  created := w.created ++ decision.created
  askedToStop :=
    if (w.sees inputs).quoteActive = [] then [] else w.askedToStop ++ decision.stopped

def step (w : World) : Event → World
  | .cycle inputs => w.applyBatch inputs (w.decision cfg quoteRefreshReason inputs)
  | .finish executors => { w with active := w.active.filter fun e => e.id ∉ executors }
  | .report executor info =>
      { w with active := w.active.map fun e =>
          if e.id = executor then { e with customInfo := info } else e }
  | .watchdog state => { w with controller := { w.controller with quoteLiveness := state } }

/-- No quote next to a close, one quote per side, and reduce-only closes. -/
structure Exclusive (w : World) : Prop where
  exclusive : (∀ e ∈ w.active, e.isQuoteExecutor = true) ∨
    ∀ e ∈ w.active, e.isQuoteExecutor = false
  oneQuotePerSide :
    ((w.active.filter (·.isQuoteExecutor)).map fun e => e.config.side).Nodup
  reduceOnly : ∀ config ∈ w.created, config.isQuote = false → config.positionAction = .close

end World

theorem launch_map_config (id : ExecutorId) (configs : List ExecutorConfig) :
    (launch id configs).map (·.config) = configs := by
  induction configs generalizing id with
  | nil => rfl
  | cons config rest ih => simp [launch, ih]

/-- A launched executor has one of the created configurations. -/
theorem launch_config_mem {id : ExecutorId} {configs : List ExecutorConfig} {e : ExecutorInfo}
    (he : e ∈ launch id configs) : e.config ∈ configs := by
  rw [← launch_map_config id configs]
  exact List.mem_map_of_mem he

namespace World.Exclusive

variable {cfg : PerpMMControllerConfig} {quoteRefreshReason : RefreshQuery → Option String}
  {w : World}

theorem init (controller : PerpMMController) : Exclusive { controller } :=
  ⟨.inl fun _ he => (by cases he), List.nodup_nil, fun _ h => (by cases h)⟩

/-- A close is created over no quote, so nothing active quotes before or after it. -/
theorem applyBatch_close (h : Exclusive w) {inputs : Cycle} {decision : Decision}
    {req : ExecutionRequest} (hreduce : req.reduceOnly = true)
    (hquotes : (w.sees inputs).quoteActive = [])
    (hcreated : decision.created = [executionConfig cfg (w.sees inputs) req]) :
    Exclusive (w.applyBatch inputs decision) := by
  have hall : ∀ e ∈ (w.applyBatch inputs decision).active, e.isQuoteExecutor = false := by
    intro e he
    rw [World.applyBatch, hcreated] at he
    rcases List.mem_append.mp he with hold | hnew
    · simpa using List.filter_eq_nil_iff.mp hquotes e hold
    · have hconfig := List.mem_singleton.mp (launch_config_mem hnew)
      rw [ExecutorInfo.isQuoteExecutor, hconfig]
      exact (executionConfig_facts req).1
  refine ⟨.inr hall, ?_, ?_⟩
  · rw [List.filter_eq_nil_iff.mpr fun e he => by simp [hall e he]]
    exact List.nodup_nil
  · intro config hconfig hclose
    rw [World.applyBatch, hcreated] at hconfig
    rcases List.mem_append.mp hconfig with hold | hnew
    · exact h.reduceOnly config hold hclose
    · rw [List.mem_singleton.mp hnew]
      exact (executionConfig_facts req).2 hreduce

/-- Quotes are created when nothing is active, one for a side. -/
theorem applyBatch_quotes (h : Exclusive w) {inputs : Cycle} {decision : Decision}
    (hempty : w.active = [])
    (hcreated : decision.created = ((specs (w.sees inputs)).filterMap
      (quoteConfig cfg (w.sees inputs))).map .bufferedMaker) :
    Exclusive (w.applyBatch inputs decision) := by
  set quotes := (specs (w.sees inputs)).filterMap (quoteConfig cfg (w.sees inputs))
  have hactive : (w.applyBatch inputs decision).active =
      launch w.nextId (quotes.map ExecutorConfig.bufferedMaker) := by
    rw [World.applyBatch, hcreated, hempty, List.nil_append]
  have hquote : ∀ config ∈ quotes.map ExecutorConfig.bufferedMaker, config.isQuote = true := by
    intro config hconfig
    obtain ⟨quote, hquote, rfl⟩ := List.mem_map.mp hconfig
    obtain ⟨spec, _, hspec⟩ := List.mem_filterMap.mp hquote
    exact (quoteConfig_facts hspec).1
  have hall : ∀ e ∈ launch w.nextId (quotes.map ExecutorConfig.bufferedMaker),
      e.isQuoteExecutor = true := fun e he => hquote e.config (launch_config_mem he)
  have hsides : (launch w.nextId (quotes.map ExecutorConfig.bufferedMaker)).map
      (fun e => e.config.side) = quotes.map fun config => config.side := by
    have hconfigs := congrArg (List.map ExecutorConfig.side)
      (launch_map_config w.nextId (quotes.map ExecutorConfig.bufferedMaker))
    rw [List.map_map, List.map_map] at hconfigs
    exact hconfigs
  refine ⟨.inl (hactive ▸ hall), ?_, ?_⟩
  · rw [hactive, List.filter_eq_self.mpr hall, hsides]
    exact quoteConfigs_sides
  · intro config hconfig hclose
    rw [World.applyBatch, hcreated] at hconfig
    rcases List.mem_append.mp hconfig with hold | hnew
    · exact h.reduceOnly config hold hclose
    · rw [hquote config hnew] at hclose
      cases hclose

/-- Launching a possible creation keeps the exclusion. -/
theorem applyBatch (h : Exclusive w) {inputs : Cycle} {decision : Decision}
    (hcreation : Creation cfg (w.sees inputs) decision.created) :
    Exclusive (w.applyBatch inputs decision) := by
  generalize hcreated : decision.created = configs at hcreation
  cases hcreation with
  | closes hcloses =>
      cases hcloses with
      | nothing =>
          have hactive : (w.applyBatch inputs decision).active = w.active := by
            rw [World.applyBatch, hcreated, launch, List.append_nil]
          have hlog : (w.applyBatch inputs decision).created = w.created := by
            rw [World.applyBatch, hcreated, List.append_nil]
          exact ⟨hactive ▸ h.exclusive, hactive ▸ h.oneQuotePerSide, hlog ▸ h.reduceOnly⟩
      | close req hreduce hquotes => exact h.applyBatch_close hreduce hquotes hcreated
  | quotes hempty => exact h.applyBatch_quotes hempty hcreated

theorem step (h : Exclusive w) (event : Event) :
    Exclusive (w.step cfg quoteRefreshReason event) := by
  cases event with
  | cycle inputs => exact h.applyBatch (determine_branch cfg quoteRefreshReason _ _).creation
  | finish executors =>
      refine ⟨?_, ?_, h.reduceOnly⟩
      · rcases h.exclusive with hquotes | hcloses
        · exact .inl fun e he => hquotes e (List.mem_filter.mp he).1
        · exact .inr fun e he => hcloses e (List.mem_filter.mp he).1
      · exact h.oneQuotePerSide.sublist ((List.filter_sublist.filter _).map _)
  | report executor info =>
      have hconfig : ∀ e : ExecutorInfo,
          (if e.id = executor then { e with customInfo := info } else e).config = e.config := by
        intro e
        split <;> rfl
      refine ⟨?_, ?_, h.reduceOnly⟩
      · simp only [World.step, List.forall_mem_map, ExecutorInfo.isQuoteExecutor, hconfig]
        exact h.exclusive
      · simp only [World.step, List.filter_map, List.map_map, Function.comp_def,
          ExecutorInfo.isQuoteExecutor, hconfig]
        exact h.oneQuotePerSide
  | watchdog state => exact ⟨h.exclusive, h.oneQuotePerSide, h.reduceOnly⟩

end World.Exclusive

/-- Whatever the intents, the market, the watchdog and the executors do, quotes
and closes are never active together, each side has at most one active quote,
and every close is reduce-only. -/
theorem quotes_exclude_closes (cfg : PerpMMControllerConfig)
    (quoteRefreshReason : RefreshQuery → Option String) (controller : PerpMMController)
    (events : List Event) :
    World.Exclusive (run (World.step cfg quoteRefreshReason) { controller } events) := by
  induction events using List.reverseRecOn with
  | nil => exact World.Exclusive.init controller
  | append_singleton before event ih =>
      rw [run_append]
      exact ih.step event

end Opms.PerpMM
