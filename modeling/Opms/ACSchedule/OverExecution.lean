import Opms.Foundation.Run
import Opms.Foundation.Reservation
import Opms.ACSchedule.Executor

/-! # Over-execution of a scheduled order

The venue keeps a reservation for every order the executor ever submitted, so
what the orders executed and can still execute is the exposure of its book. A
non-final slice takes its size from the schedule, the final one from what the
executor has seen executed; a run stays safe exactly when each of them is sized
against everything the earlier orders still stand for.
-/

namespace Opms.ACSchedule

open Foundation

universe u

variable {K : Type u} [Field K] [LinearOrder K]

/-! ## The order a control task places -/

namespace Executor

variable (math : MathFunctions K) (cfg : Settings K) (call : Call K) (s : Executor K)

/-- The base amounts the executor has seen executed. -/
def seenExecuted : K := s.cumulativeFilled + s.inFlightExecuted

/-- The next slice is the last of the schedule in force. -/
def atFinalSlice : Prop := s.sliceIdx + 1 = s.schedule.length

instance : Decidable s.atFinalSlice := inferInstanceAs (Decidable (_ = _))

/-- The slice a tick submits when the pace allows one. -/
def dueSlice : Option K :=
  if s.status = .running ∧ ¬ s.paced call then s.schedule[s.sliceIdx]? else none

/-- The amount `_submit_next_slice` orders, if it orders one. -/
def orderedAmount : Option K :=
  (s.dueSlice call).bind fun slice =>
    if s.atFinalSlice then (some (cfg.totalAmountBase - s.seenExecuted)).filter (0 < ·)
    else some slice

/-- The `place_order` call for an amount. -/
def orderFor (amount : K) : PlacedOrder K :=
  ⟨call.orderId, .market, cfg.side, amount, cfg.positionAction⟩

theorem submitNextSlice_placed (hrunning : s.status = .running) (hpace : s.paced call = false) :
    (s.submitNextSlice cfg call).placed =
      s.placed ++ ((s.orderedAmount cfg call).map (orderFor cfg call)).toList := by
  simp only [orderedAmount, dueSlice, hrunning, hpace, Bool.false_eq_true, not_false_eq_true,
    and_self, ↓reduceIte, submitNextSlice]
  split
  next hnone => simp [hnone]
  next slice hslice =>
    simp only [hslice, Option.bind_some]
    split
    next hfinal =>
      rw [if_pos (show s.atFinalSlice from hfinal), sub_sub, ← seenExecuted]
      split
      next hle => simp [Option.filter, not_lt.mpr hle]
      next hlt => simp [Option.filter, not_le.mp hlt, placeSlice, orderFor]
    next hfinal =>
      rw [if_neg (show ¬ s.atFinalSlice from hfinal)]
      rfl

/-- Resolving the schedule changes the schedule and its interval only. -/
theorem maybeResolveVolumeSchedule_frame :
    ∃ schedule intervalSeconds, s.maybeResolveVolumeSchedule math cfg call =
      { s with schedule, intervalSeconds, scheduleResolved := true } := by
  unfold maybeResolveVolumeSchedule
  split
  next hresolved =>
    refine ⟨s.schedule, s.intervalSeconds, ?_⟩
    rw [← hresolved]
  next =>
    dsimp only
    split
    next => exact ⟨_, _, rfl⟩
    next volumes _ =>
      split
      next => exact ⟨_, _, rfl⟩
      next =>
        split
        next => exact ⟨_, _, rfl⟩
        next =>
          split
          next => exact ⟨_, _, rfl⟩
          next => exact ⟨_, _, rfl⟩

/-- The executor a control task sizes its order on. -/
abbrev resolved : Executor K := s.maybeResolveVolumeSchedule math cfg call

@[simp] theorem resolved_status : (s.resolved math cfg call).status = s.status := by
  obtain ⟨_, _, hframe⟩ := s.maybeResolveVolumeSchedule_frame math cfg call
  rw [resolved, hframe]

@[simp] theorem resolved_placed : (s.resolved math cfg call).placed = s.placed := by
  obtain ⟨_, _, hframe⟩ := s.maybeResolveVolumeSchedule_frame math cfg call
  rw [resolved, hframe]

/-- A control task calls `place_order` for the due slice's amount, and for
nothing else. -/
theorem controlTask_placed : (s.controlTask math cfg call).placed = s.placed ++
    (((s.resolved math cfg call).orderedAmount cfg call).map (orderFor cfg call)).toList := by
  have hidle : s.status ≠ .running →
      (s.resolved math cfg call).orderedAmount cfg call = none := by
    intro hnot
    simp [orderedAmount, dueSlice, hnot]
  unfold controlTask
  split
  next hrunning =>
    unfold tick
    dsimp only
    split
    next hend =>
      have hnone : (s.resolved math cfg call).orderedAmount cfg call = none := by
        have hslice := List.getElem?_eq_none hend
        simp [orderedAmount, dueSlice, hslice]
      rw [hnone]
      split
      next => simp [closeExecutionBy]
      next => simp
    next =>
      split
      next hpace =>
        have hnone : (s.resolved math cfg call).orderedAmount cfg call = none := by
          simp [orderedAmount, dueSlice,
            show (s.resolved math cfg call).paced call = true from hpace]
        rw [hnone]
        simp
      next hpace =>
        -- noting the start time changes nothing the submission reads
        have hsubmit := submitNextSlice_placed cfg call
          { s.resolved math cfg call with
            startTimestamp := some ((s.resolved math cfg call).startTimestamp.getD call.now) }
          ((s.resolved_status math cfg call).trans hrunning) (Bool.not_eq_true _ |>.mp hpace)
        refine hsubmit.trans ?_
        change (s.resolved math cfg call).placed ++ _ = _
        rw [resolved_placed]
        rfl
  next hdown =>
    rw [hidle (by simp [hdown])]
    simp [closeExecutionBy]
  next hrun hdown =>
    rw [hidle hrun]
    simp

/-- An exposure leaves room for the order iff it is what was seen executed, for
the final slice, or fits with the scheduled slice, for the others. -/
theorem add_orderedAmount_le_iff [IsStrictOrderedRing K] {exposure : K}
    (hexposure : exposure ≤ cfg.totalAmountBase) :
    exposure + ((s.orderedAmount cfg call).elim 0 fun amount => max amount 0) ≤
        cfg.totalAmountBase ↔
      ∀ slice ∈ s.dueSlice call,
        if s.atFinalSlice then exposure ≤ s.seenExecuted
        else exposure + slice ≤ cfg.totalAmountBase := by
  unfold orderedAmount
  cases s.dueSlice call with
  | none => simpa using hexposure
  | some slice =>
      simp only [Option.bind_some, Option.mem_some_iff, forall_eq']
      split
      next hfinal =>
        by_cases hpos : 0 < cfg.totalAmountBase - s.seenExecuted
        · simp only [Option.filter, hpos, decide_true, ↓reduceIte, Option.elim_some,
            max_eq_left hpos.le]
          constructor <;> intro h <;> linarith
        -- nothing is ordered: all of the total was seen executed
        · have hseen : exposure ≤ s.seenExecuted := by linarith
          simpa [Option.filter, hpos, hseen] using hexposure
      next =>
        simp only [Option.elim_some]
        rcases le_total 0 slice with hpos | hneg
        · rw [max_eq_left hpos]
        -- a negative slice is never executed and always fits
        · have hfits : exposure + slice ≤ cfg.totalAmountBase := by linarith
          simpa [max_eq_right hneg, hfits] using hexposure

end Executor

/-! ## The executor and its orders at the venue -/

/-- The executor with the venue's account of every order it submitted: its
amount, what it executed, and whether it can execute further. -/
structure World (K : Type u) where
  executor : Executor K
  venue : Book OrderId Unit K
  clock : K

inductive Input (K : Type u)
  | controlTask (call : Call K)
  | execute (orderId : OrderId) (amount : K)
  | settle (orderId : OrderId)
  | observe (orderId : OrderId) (isDone : Bool) (executed : K)
  | completed (orderId : OrderId) (baseAssetAmount : K)
  | failed (orderId : OrderId)
  | canceled (orderId : OrderId)
  | earlyStop (keepPosition : Bool)
  | evaluateMaxRetries (now : K)

namespace World

/-- The sum over all submitted orders of their executed base amounts. -/
def executed (w : World K) : K := w.venue.spentIn fun _ => true

/-- What all submitted orders executed or can still execute. -/
def exposure (w : World K) : K := w.venue.exposureIn fun _ => true

/-- The venue accepts the orders placed since `before`. -/
def accept (venue : Book OrderId Unit K) (before after : Executor K) : Book OrderId Unit K :=
  run Book.apply venue ((after.placed.drop before.placed.length).map fun order =>
    .reserve order.orderId () order.amount)

section Perform

variable (math : MathFunctions K) (cfg : Settings K)

/-- A constructed executor before any order. -/
def start (clock : K) : Except (InitError K) (World K) :=
  match Executor.init math cfg with
  | .error error => .error error
  | .ok executor => .ok ⟨executor, Registry.empty, clock⟩

def perform (w : World K) : Input K → World K
  | .controlTask call =>
      let executor := w.executor.controlTask math cfg call
      ⟨executor, accept w.venue w.executor executor, call.now⟩
  | .execute orderId amount => { w with venue := w.venue.draw (orderId, amount) }
  | .settle orderId => { w with venue := w.venue.apply (.settle orderId) }
  | .observe orderId isDone executed =>
      { w with executor := w.executor.observe orderId isDone executed }
  | .completed orderId baseAssetAmount =>
      { w with executor := w.executor.processOrderCompletedEvent orderId baseAssetAmount }
  | .failed orderId => { w with executor := w.executor.processOrderFailedEvent orderId }
  | .canceled orderId => { w with executor := w.executor.processOrderCanceledEvent orderId }
  | .earlyStop keepPosition => { w with executor := w.executor.earlyStop keepPosition }
  | .evaluateMaxRetries now =>
      { w with executor := w.executor.evaluateMaxRetries cfg now, clock := now }

/-- Times never decrease and ids are new; an order executes at most its amount,
and its completion event reports what it executed in the end. -/
def Legal (w : World K) : Input K → Prop
  | .controlTask call => w.clock ≤ call.now ∧ w.venue.lookup call.orderId = none
  | .execute orderId amount => w.venue.Draws (orderId, amount)
  | .completed orderId baseAssetAmount =>
      ∀ r ∈ w.venue.lookup orderId, r.live = false ∧ baseAssetAmount = r.spent
  | .evaluateMaxRetries now => w.clock ≤ now
  | _ => True

/-- An order about to be placed is sized against all that earlier orders
executed or can still execute: by what was seen executed for the final slice,
under the total for the others. -/
def Counted (w : World K) : Input K → Prop
  | .controlTask call =>
      let s := w.executor.resolved math cfg call
      ∀ slice ∈ s.dueSlice call,
        if s.atFinalSlice then w.exposure ≤ s.seenExecuted
        else w.exposure + slice ≤ cfg.totalAmountBase
  | _ => True

/-- However its orders go on executing, they execute at most the total. -/
def Safe (w : World K) : Prop :=
  ∀ fills : List (OrderId × K),
    Along (perform math cfg) Legal w (fills.map fun fill => .execute fill.1 fill.2) →
      (run (perform math cfg) w (fills.map fun fill => .execute fill.1 fill.2)).executed ≤
        cfg.totalAmountBase

end Perform

instance (w : World K) (input : Input K) : Decidable (w.Legal input) := by
  unfold Legal
  split <;> infer_instance

instance (math : MathFunctions K) (cfg : Settings K) (w : World K) (input : Input K) :
    Decidable (w.Counted math cfg input) := by
  unfold Counted
  split <;> infer_instance

variable {math : MathFunctions K} {cfg : Settings K}

theorem run_execute (w : World K) (fills : List (OrderId × K)) :
    run (perform math cfg) w (fills.map fun fill => .execute fill.1 fill.2) =
      { w with venue := run Book.draw w.venue fills } := by
  induction fills generalizing w with
  | nil => rfl
  | cons fill rest ih => rw [List.map_cons, run_cons, ih, run_cons, perform]

theorem along_execute_iff (w : World K) (fills : List (OrderId × K)) :
    Along (perform math cfg) Legal w (fills.map fun fill => .execute fill.1 fill.2) ↔
      Along Book.draw Book.Draws w.venue fills := by
  induction fills generalizing w with
  | nil => rfl
  | cons fill rest ih =>
      rw [List.map_cons, Along, Along, ih]
      rfl

variable [IsStrictOrderedRing K]

theorem safe_iff (w : World K) : w.Safe math cfg ↔ w.exposure ≤ cfg.totalAmountBase := by
  rw [exposure, Book.exposureIn_le_iff_draws]
  simp only [Safe, run_execute, along_execute_iff, executed]

omit [IsStrictOrderedRing K] in
theorem start_ok {clock : K} {w : World K} (hstart : start math cfg clock = .ok w) :
    Executor.init math cfg = .ok w.executor ∧ w.venue = Registry.empty := by
  unfold start at hstart
  split at hstart
  next => cases hstart
  next executor hinit =>
    cases hstart
    exact ⟨hinit, rfl⟩

omit [IsStrictOrderedRing K] in
theorem start_exposure {clock : K} {w : World K} (hstart : start math cfg clock = .ok w) :
    w.exposure = 0 := by
  rw [exposure, (start_ok hstart).2]
  rfl

omit [IsStrictOrderedRing K] in
/-- What a control task's order adds to the exposure. -/
theorem exposure_controlTask (w : World K) (call : Call K)
    (hfresh : w.venue.lookup call.orderId = none) :
    (w.perform math cfg (.controlTask call)).exposure = w.exposure +
      (((w.executor.resolved math cfg call).orderedAmount cfg call).elim 0 fun amount =>
        max amount 0) := by
  simp only [perform, exposure, accept, Executor.controlTask_placed, List.drop_left']
  cases (w.executor.resolved math cfg call).orderedAmount cfg call with
  | none => simp
  | some amount =>
      simp only [Option.map_some, Option.toList_some, List.map_cons, List.map_nil, run_cons,
        run_nil, Executor.orderFor, Option.elim_some]
      rw [Book.exposureIn_reserve hfresh]
      rfl

/-- A safe world stays safe in a step iff the order it places is counted. -/
theorem perform_safe_iff (w : World K) (input : Input K)
    (hsafe : w.exposure ≤ cfg.totalAmountBase) (hlegal : w.Legal input) :
    (w.perform math cfg input).exposure ≤ cfg.totalAmountBase ↔ w.Counted math cfg input := by
  cases input with
  | controlTask call =>
      rw [exposure_controlTask w call hlegal.2]
      exact Executor.add_orderedAmount_le_iff cfg call _ hsafe
  | execute orderId amount =>
      have hdraw : (w.perform math cfg (.execute orderId amount)).exposure = w.exposure :=
        Book.exposureIn_draw hlegal
      simpa [Counted, hdraw] using hsafe
  | settle orderId =>
      have hsettle : (w.perform math cfg (.settle orderId)).exposure ≤ w.exposure :=
        Book.exposureIn_settle_le w.venue orderId
      simpa [Counted] using hsettle.trans hsafe
  | observe | completed | failed | canceled | earlyStop | evaluateMaxRetries =>
      exact iff_of_true hsafe trivial

end World

/-- In every run, the orders can never execute more than the total, now or
later, exactly when each order placed was counted against the earlier ones; a
run of counted placements has executed at most the total. -/
theorem never_over_executes_iff [IsStrictOrderedRing K] (math : MathFunctions K)
    (cfg : Settings K) (htotal : 0 < cfg.totalAmountBase) {clock : K} {w : World K}
    (hstart : World.start math cfg clock = .ok w) (inputs : List (Input K))
    (hlegal : Along (World.perform math cfg) World.Legal w inputs) :
    ((∀ before after, inputs = before ++ after →
        (run (World.perform math cfg) w before).Safe math cfg) ↔
      Along (World.perform math cfg) (World.Counted math cfg) w inputs) ∧
    (Along (World.perform math cfg) (World.Counted math cfg) w inputs →
      (run (World.perform math cfg) w inputs).executed ≤ cfg.totalAmountBase) := by
  have hiff : (∀ before after, inputs = before ++ after →
      (run (World.perform math cfg) w before).Safe math cfg) ↔
        Along (World.perform math cfg) (World.Counted math cfg) w inputs := by
    simp only [World.safe_iff]
    refine Along.iff_throughout (fun w => w.exposure ≤ cfg.totalAmountBase)
      (fun w input => w.perform_safe_iff input) ?_ hlegal
    rw [World.start_exposure hstart]
    exact htotal.le
  refine ⟨hiff, fun hcounted => ?_⟩
  -- no further execution at all is one way to go on
  exact hiff.mpr hcounted inputs [] (List.append_nil _).symm [] trivial

/-! ## Concrete runs -/

/-- A risk-neutral order of one unit in two slices, ten seconds apart. -/
def sampleConfig : Settings ℚ where
  toACScheduleExecutorConfig :=
    { ACScheduleExecutorConfig.withDefaults "hyperliquid_perpetual" "SOL-USD" .buy (1 : ℚ) with
      durationSeconds := 20
      numIntervals := 2
      riskAversion := 0 }

/-- `exp` and `sqrt` at the arguments a risk-neutral schedule reads: `sqrt 0`. -/
def riskNeutralMath : MathFunctions ℚ := ⟨fun _ => 1, fun _ => 0⟩

def sampleStart : World ℚ where
  executor :=
    { schedule := [1 / 2, 1 / 2], intervalSeconds := 10, scheduleResolved := true
      cumulativeFilled := 0 }
  venue := Registry.empty
  clock := 0

theorem start_sampleConfig : World.start riskNeutralMath sampleConfig 0 = .ok sampleStart := by
  have hinit : Executor.init riskNeutralMath sampleConfig = .ok sampleStart.executor := by
    decide +kernel
  rw [World.start, hinit]
  rfl

/-- Each slice is executed and reported before the next one is sized. -/
def promptRun : List (Input ℚ) :=
  [ .controlTask { now := 0, orderId := "first" },
    .execute "first" (1 / 2), .settle "first", .observe "first" true (1 / 2),
    .completed "first" (1 / 2),
    .controlTask { now := 10, orderId := "last" },
    .execute "last" (1 / 2), .settle "last", .completed "last" (1 / 2) ]

theorem never_over_executes_iff_prompt :
    (run (World.perform riskNeutralMath sampleConfig) sampleStart promptRun).executed = 1 ∧
      (run (World.perform riskNeutralMath sampleConfig) sampleStart promptRun).Safe
        riskNeutralMath sampleConfig :=
  ⟨by decide +kernel,
    (never_over_executes_iff riskNeutralMath sampleConfig (by decide +kernel)
      start_sampleConfig promptRun (by decide +kernel)).1.mpr (by decide +kernel) promptRun []
      (List.append_nil _).symm⟩

/-- The first slice is still working, unexecuted, when the final one is sized. -/
def slowFillRun : List (Input ℚ) :=
  [ .controlTask { now := 0, orderId := "first" },
    .controlTask { now := 10, orderId := "last" },
    .execute "first" (1 / 2), .settle "first", .completed "first" (1 / 2),
    .execute "last" 1, .settle "last", .completed "last" 1 ]

/-- The final slice orders the whole total again and both orders fill. -/
theorem slow_fill_over_executes :
    World.start riskNeutralMath sampleConfig 0 = .ok sampleStart ∧
      Along (World.perform riskNeutralMath sampleConfig) World.Legal sampleStart slowFillRun ∧
      sampleConfig.totalAmountBase = 1 ∧
      (run (World.perform riskNeutralMath sampleConfig) sampleStart slowFillRun).executed =
        3 / 2 :=
  ⟨start_sampleConfig, by decide +kernel, rfl, by decide +kernel⟩

end Opms.ACSchedule
