import Opms.PerpMM.Exclusion

/-! # A running close outlives the return to quoting

While the intent quotes, every branch of a cycle stops quote executors only,
and a close that still runs keeps the controller from creating anything. So
only a cycle that does not quote replaces or stops a flatten in progress.
-/

namespace Opms.PerpMM

open Foundation PerpMMController

variable {cfg : PerpMMControllerConfig} {quoteRefreshReason : RefreshQuery → Option String}
  {c : PerpMMController} {cycle : Cycle}

/-- The batch stops active quotes only, and creates nothing beside a close. -/
structure SparesCloses (cycle : Cycle) (decision : Decision) : Prop where
  stops : ∀ id ∈ decision.stopped, ∃ e ∈ cycle.active, e.id = id ∧ e.isQuoteExecutor = true
  creates : ∀ e ∈ cycle.active, e.isQuoteExecutor = false → decision.created = []

/-! ## The branches of a quoting cycle -/

theorem mem_quoteActive {e : ExecutorInfo} :
    e ∈ cycle.quoteActive ↔ e ∈ cycle.active ∧ e.isQuoteExecutor = true := List.mem_filter

theorem mem_executionActive {e : ExecutorInfo} :
    e ∈ cycle.executionActive ↔ e ∈ cycle.active ∧ e.isQuoteExecutor = false := by
  simp [Cycle.executionActive]

/-- Stops of the active quotes, and nothing else. -/
theorem sparesCloses_of_quoteStops {decision : Decision}
    (hactions : decision.actions = stopActions cfg cycle.quoteActive) :
    SparesCloses cycle decision := by
  refine ⟨fun id hid => ?_, fun _ _ _ => by simp [Decision.created, hactions]⟩
  rw [Decision.stopped, hactions, stopActions_stopped] at hid
  obtain ⟨e, he, rfl⟩ := List.mem_map.mp hid
  obtain ⟨hactive, hquote⟩ := mem_quoteActive.mp he
  exact ⟨e, hactive, rfl, hquote⟩

/-- A plan's stops are the active executors it does not keep. -/
theorem mem_stopped_of_plan {plan : Plan} {id : ExecutorId}
    (hcreate : ∀ action ∈ plan.newActions, action.stopped? = none)
    (hid : id ∈ (plan.decide cfg cycle).stopped) :
    ∃ e ∈ cycle.active, e.id = id ∧ e.id ∉ plan.keep := by
  have hnew : plan.newActions.filterMap ExecutorAction.stopped? = [] :=
    List.filterMap_eq_nil_iff.mpr hcreate
  simp only [Decision.stopped, Plan.decide, List.filterMap_append, stopActions_stopped, hnew,
    List.append_nil, List.mem_map, List.mem_filter] at hid
  obtain ⟨e, ⟨he, hkeep⟩, rfl⟩ := hid
  exact ⟨e, he, rfl, by simpa using hkeep⟩

theorem executionPlan_spares : SparesCloses cycle ((c.executionPlan cycle).decide cfg cycle) := by
  refine ⟨fun id hid => ?_, fun _ _ _ => by rw [Plan.decide_created]; rfl⟩
  obtain ⟨e, he, rfl, hkeep⟩ := mem_stopped_of_plan (fun action haction => by cases haction) hid
  refine ⟨e, he, rfl, ?_⟩
  by_contra hclose
  exact hkeep (List.mem_map_of_mem (mem_executionActive.mpr ⟨he, by simpa using hclose⟩))

/-- With no close active, any plan that only creates spares the closes. -/
theorem sparesCloses_of_no_close {plan : Plan} (hclose : cycle.executionActive = [])
    (hcreate : ∀ action ∈ plan.newActions, action.stopped? = none) :
    SparesCloses cycle (plan.decide cfg cycle) := by
  have hquote : ∀ e ∈ cycle.active, e.isQuoteExecutor = true := by
    intro e he
    by_contra hother
    have hmem := mem_executionActive.mpr ⟨he, by simpa using hother⟩
    rw [hclose] at hmem
    cases hmem
  refine ⟨fun id hid => ?_, fun e he hother => ?_⟩
  · obtain ⟨e, he, heq, -⟩ := mem_stopped_of_plan hcreate hid
    exact ⟨e, he, heq, hquote e he⟩
  · rw [hquote e he] at hother
    cases hother

theorem quoteCreateActions_creates (legs : List OrderSpec) :
    ∀ action ∈ quoteCreateActions cfg cycle legs, action.stopped? = none := by
  intro action haction
  obtain ⟨config, -, rfl⟩ := List.mem_map.mp haction
  rfl

theorem failsafePlan_creates :
    ∀ action ∈ (c.failsafePlan cfg cycle).newActions, action.stopped? = none := by
  intro action haction
  unfold failsafePlan at haction
  dsimp only at haction
  split at haction
  next =>
    split at haction
    next => rw [List.mem_singleton.mp haction]; rfl
    next => cases haction
  next => cases haction

theorem refreshPendingPlan_creates :
    ∀ action ∈ (c.refreshPendingPlan cfg cycle).newActions, action.stopped? = none := by
  intro action haction
  unfold refreshPendingPlan at haction
  dsimp only at haction
  split at haction
  next => cases haction
  next => exact quoteCreateActions_creates _ action haction

theorem livePlan_creates :
    ∀ action ∈ (c.livePlan cfg cycle quoteRefreshReason).newActions, action.stopped? = none := by
  intro action haction
  unfold livePlan at haction
  split at haction
  next => exact failsafePlan_creates action haction
  next =>
    split at haction
    next => exact failsafePlan_creates action haction
    next =>
      split at haction
      next =>
        unfold quotedPlan at haction
        split at haction
        · cases haction
        · cases haction
      next => exact quoteCreateActions_creates _ action haction

theorem quotingPlan_spares :
    SparesCloses cycle ((c.quotingPlan cfg cycle quoteRefreshReason).decide cfg cycle) := by
  unfold quotingPlan
  split
  next => exact executionPlan_spares
  next hclose =>
    have hclose := not_not.mp hclose
    split
    next => exact sparesCloses_of_no_close hclose refreshPendingPlan_creates
    next => exact sparesCloses_of_no_close hclose livePlan_creates

/-- Whatever suspends or trips quoting, a cycle that quotes spares the closes. -/
theorem determine_spares (hquoting : cycle.quoting = true) :
    SparesCloses cycle (c.determineExecutorActions cfg cycle quoteRefreshReason) := by
  unfold determineExecutorActions
  split
  next => exact ⟨fun id hid => (by cases hid), fun _ _ _ => rfl⟩
  next =>
    split
    next => exact sparesCloses_of_quoteStops rfl
    next =>
      split
      next => exact sparesCloses_of_quoteStops rfl
      next => exact quotingPlan_spares

/-- Under distinct ids, sparing the closes is stopping none of them. -/
theorem SparesCloses.not_stopped {decision : Decision} (h : SparesCloses cycle decision)
    (hids : (cycle.active.map (·.id)).Nodup) {e : ExecutorInfo} (he : e ∈ cycle.active)
    (hclose : e.isQuoteExecutor = false) : e.id ∉ decision.stopped := by
  intro hstopped
  obtain ⟨other, hother, hsame, hquote⟩ := h.stops e.id hstopped
  obtain rfl := List.inj_on_of_nodup_map hids hother he hsame
  rw [hclose] at hquote
  cases hquote

/-! ## Runs -/

theorem launch_map_id (id : ExecutorId) (configs : List ExecutorConfig) :
    (launch id configs).map (·.id) = List.range' id configs.length := by
  induction configs generalizing id with
  | nil => rfl
  | cons config rest ih => simp [launch, ih, List.range'_succ]

namespace World

/-- Executor ids are never reused. -/
structure DistinctIds (w : World) : Prop where
  below : ∀ id ∈ w.active.map (·.id), id < w.nextId
  nodup : (w.active.map (·.id)).Nodup

theorem DistinctIds.init (controller : PerpMMController) : DistinctIds { controller } :=
  ⟨fun _ hid => (by cases hid), List.nodup_nil⟩

theorem DistinctIds.step {w : World} (h : DistinctIds w) (event : Event) :
    DistinctIds (w.step cfg quoteRefreshReason event) := by
  cases event with
  | cycle inputs =>
      simp only [World.step, applyBatch]
      generalize (w.decision cfg quoteRefreshReason inputs).created = configs
      have hactive : (w.active ++ launch w.nextId configs).map (·.id) =
          w.active.map (·.id) ++ List.range' w.nextId configs.length := by
        rw [List.map_append, launch_map_id]
      refine ⟨fun id hid => ?_, ?_⟩
      · rw [hactive, List.mem_append, List.mem_range'_1] at hid
        rcases hid with hold | hnew
        · exact (h.below id hold).trans_le (Nat.le_add_right _ _)
        · exact hnew.2
      · rw [hactive, List.nodup_append']
        refine ⟨h.nodup, List.nodup_range', fun id hold hnew => ?_⟩
        exact absurd (h.below id hold) (not_lt.mpr (List.mem_range'_1.mp hnew).1)
  | finish executors =>
      have hsub : ((w.active.filter fun e => e.id ∉ executors).map (·.id)).Sublist
          (w.active.map (·.id)) := List.filter_sublist.map _
      exact ⟨fun id hid => h.below id (hsub.subset hid), h.nodup.sublist hsub⟩
  | report executor info =>
      have hids : (w.active.map fun e =>
          if e.id = executor then { e with customInfo := info } else e).map (·.id) =
            w.active.map (·.id) := by
        rw [List.map_map]
        refine List.map_congr_left fun e _ => ?_
        simp only [Function.comp_apply]
        split <;> rfl
      exact ⟨fun id hid => h.below id (hids ▸ hid), hids ▸ h.nodup⟩
  | watchdog state => exact ⟨h.below, h.nodup⟩

end World

/-- A cycle that quotes stops quotes only, no active close among them, and
creates nothing beside a close. -/
def QuotingSparesCloses (cfg : PerpMMControllerConfig)
    (quoteRefreshReason : RefreshQuery → Option String) (c : PerpMMController)
    (cycle : Cycle) : Prop :=
  cycle.quoting = true →
    (∀ id ∈ (c.determineExecutorActions cfg cycle quoteRefreshReason).stopped,
      ∃ e ∈ cycle.active, e.id = id ∧ e.isQuoteExecutor = true) ∧
    ∀ e ∈ cycle.active, e.isQuoteExecutor = false →
      (c.determineExecutorActions cfg cycle quoteRefreshReason).created = [] ∧
        ((cycle.active.map (·.id)).Nodup →
          e.id ∉ (c.determineExecutorActions cfg cycle quoteRefreshReason).stopped)

theorem quotingSparesCloses (cfg : PerpMMControllerConfig)
    (quoteRefreshReason : RefreshQuery → Option String) (c : PerpMMController) (cycle : Cycle) :
    QuotingSparesCloses cfg quoteRefreshReason c cycle := by
  intro hquoting
  have hspares : SparesCloses cycle (c.determineExecutorActions cfg cycle quoteRefreshReason) :=
    determine_spares hquoting
  refine ⟨hspares.stops, fun e he hclose => ⟨hspares.creates e he hclose, fun hids => ?_⟩⟩
  exact hspares.not_stopped hids he hclose

/-- In every run of cycles, and of a world that launches what they create, a
cycle that quotes neither stops an active close nor creates anything beside it. -/
theorem running_close_outlives_quoting (cfg : PerpMMControllerConfig)
    (quoteRefreshReason : RefreshQuery → Option String) (c : PerpMMController)
    (cycles : List Cycle) (events : List Event) :
    Along (controlCycle cfg quoteRefreshReason) (QuotingSparesCloses cfg quoteRefreshReason) c
        cycles ∧
      Along (World.step cfg quoteRefreshReason)
        (fun w event => ∀ inputs, event = .cycle inputs →
          intentIsQuoting inputs.lastIntent = true → ∀ e ∈ w.active, e.isQuoteExecutor = false →
          (w.decision cfg quoteRefreshReason inputs).created = [] ∧
            e.id ∉ (w.decision cfg quoteRefreshReason inputs).stopped)
        { controller := c } events := by
  constructor
  · exact Along.of_invariant (fun _ => True) (fun _ _ _ => trivial)
      (fun c cycle _ => quotingSparesCloses cfg quoteRefreshReason c cycle) trivial cycles
  · refine Along.of_invariant World.DistinctIds (fun w event h => h.step event) ?_
      (World.DistinctIds.init c) events
    rintro w event h inputs rfl hquoting e he hclose
    have hspares := (quotingSparesCloses cfg quoteRefreshReason w.controller (w.sees inputs)
      hquoting).2 e he hclose
    exact ⟨hspares.1, hspares.2 h.nodup⟩

end Opms.PerpMM
