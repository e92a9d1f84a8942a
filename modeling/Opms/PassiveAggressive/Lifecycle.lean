import Opms.PassiveAggressive.Frame

/-! # The life of an execution

The status and the recorded close type are written by the stop request, by the
tick that ends a run, by exhausted retries, and by a reduce-only rejection.
Only the tick asks first whether every order is settled, and only the tick asks
whether the run has ended already.
-/

namespace Opms.PassiveAggressive

open Foundation

variable {n : ℕ}

namespace Executor

/-! ## Steps that leave the life alone -/

/-- The status and the recorded close type are untouched. -/
structure SameLife (s t : Executor n) : Prop where
  status : t.status = s.status
  closeType : t.closeType = s.closeType

namespace SameLife

variable {s t u : Executor n}

theorem refl (s : Executor n) : SameLife s s := ⟨rfl, rfl⟩

theorem modifyChild (h : SameLife s t) (c : Fin n) (change : ChildSlot → ChildSlot) :
    SameLife s (t.modifyChild c change) := ⟨h.status, h.closeType⟩

theorem submit (h : SameLife s t) (cfg : Settings) (call : Call) (c : Fin n)
    (orderType : OrderType) (amount : ℚ) (price : Option ℚ) :
    SameLife s (t.submit cfg call c orderType amount price) := ⟨h.status, h.closeType⟩

theorem cancelChild (h : SameLife s t) (c : Fin n) (reason : CancelReason) :
    SameLife s (t.cancelChild c reason) := by
  unfold Executor.cancelChild
  split
  · exact h
  · exact ⟨h.status, h.closeType⟩

theorem placeLimit (h : SameLife s t) (cfg : Settings) (call : Call) (c : Fin n) :
    SameLife s (t.placeLimit cfg call c) := by
  unfold Executor.placeLimit
  split
  · exact h.modifyChild c _
  · dsimp only
    split
    · exact h.modifyChild c _
    · exact (h.submit cfg call c _ _ _).modifyChild c _

theorem placeAggressive (h : SameLife s t) (cfg : Settings) (call : Call) (c : Fin n) :
    SameLife s (t.placeAggressive cfg call c) := by
  have hidle := h.modifyChild c fun child => { child with status := .idle }
  unfold Executor.placeAggressive
  dsimp only
  split
  · exact hidle
  · split
    · exact hidle.modifyChild c _
    · exact (hidle.submit cfg call c _ _ _).modifyChild c _

theorem stepChild (h : SameLife s t) (cfg : Settings) (call : Call) (c : Fin n) :
    SameLife s (t.stepChild cfg call c) := by
  unfold Executor.stepChild
  split
  · split
    · exact h.modifyChild c _
    · split
      · exact h
      · exact (h.modifyChild c _).placeLimit cfg call c
  · split
    · exact h.cancelChild c _
    · split
      · exact h.cancelChild c _
      · exact h
  · exact h

theorem credit (h : SameLife s t) (orderId : OrderId) : SameLife s (t.credit orderId) := by
  unfold Executor.credit
  split
  · exact h
  · dsimp only
    split
    · exact h
    · exact ⟨h.status, h.closeType⟩

theorem cancelOversized (h : SameLife s t) (cfg : Settings) (r : OrderRecord n)
    (orderId : OrderId) : SameLife s (t.cancelOversized cfg r orderId) := by
  unfold Executor.cancelOversized
  split
  · exact h
  · split
    · exact h.cancelChild _ _
    · exact h

end SameLife

theorem processOrderFilledEvent_life (cfg : Settings) (s : Executor n) (event : OrderFilledEvent) :
    SameLife s (s.processOrderFilledEvent cfg event) := by
  unfold processOrderFilledEvent
  split
  · exact .refl s
  · split
    · exact .refl s
    · have hnoted : SameLife s (s.noteFill event) := ⟨rfl, rfl⟩
      exact (hnoted.credit _).cancelOversized cfg _ _

theorem processOrderCompletedEvent_life (s : Executor n) (event : OrderCompletedEvent) :
    SameLife s (s.processOrderCompletedEvent event) := by
  unfold processOrderCompletedEvent
  split
  · exact .refl s
  · have hnoted : SameLife s ((s.markTerminal event.orderId).noteSummary event) := ⟨rfl, rfl⟩
    dsimp only
    split
    · exact (hnoted.credit _).modifyChild _ _
    · exact hnoted.credit _

theorem processOrderCanceledEvent_life (cfg : Settings) (call : Call) (s : Executor n)
    (event : OrderCancelledEvent) : SameLife s (s.processOrderCanceledEvent cfg call event) := by
  unfold processOrderCanceledEvent
  split
  · exact .refl s
  · next r _ =>
    have hmarked : SameLife s (s.markTerminal event.orderId) := ⟨rfl, rfl⟩
    have hclear := hmarked.modifyChild r.child fun child => { child with trackedOrder := none }
    dsimp only
    split
    · exact hmarked
    · split
      · exact hclear.placeAggressive cfg call r.child
      · split
        · exact hclear.modifyChild r.child _
        · exact hclear.modifyChild r.child _

end Executor

open Executor

/-! ## What an operation does to the life -/

/-- The venue rejected the child's current close order because nothing is left
to close: the failure callback ends the execution on the spot. -/
def ClosesByRejection (cfg : Settings) (s : Executor n) (event : MarketOrderFailureEvent) : Prop :=
  cfg.positionAction = .close ∧ isReduceOnlyRejection event ∧
    ∃ r ∈ s.orders.lookup event.orderId, s.isActive r event.orderId

instance (cfg : Settings) (s : Executor n) (event : MarketOrderFailureEvent) :
    Decidable (ClosesByRejection cfg s event) :=
  inferInstanceAs (Decidable (_ ∧ _ ∧ ∃ r ∈ s.orders.lookup event.orderId, _))

/-- The operation closes the execution whatever its status and its orders are. -/
def ForcesClose (cfg : Settings) (s : Executor n) : Op → Prop
  | .evaluateMaxRetries _ => s.currentRetries > cfg.maxRetries
  | .failed _ event => ClosesByRejection cfg s event
  | _ => False

/-- Every way an operation can write the status and the close type. -/
inductive Life (cfg : Settings) (s t : Executor n) : Op → Prop
  | kept {op : Op} (unforced : ¬ ForcesClose cfg s op)
      (unstopped : ∀ call keep, op ≠ .earlyStop call keep) (same : SameLife s t) : Life cfg s t op
  | stopped {call : Call} {keepPosition : Bool} (frame : Frame s t)
      (status : t.status = .shuttingDown)
      (closeType : t.closeType = some (if keepPosition then .positionHold else .earlyStop)) :
      Life cfg s t (.earlyStop call keepPosition)
  | ran {call : Call} (running : s.status = .running) (settled : s.outstanding = 0)
      (frame : Frame s t) (status : t.status = .terminated)
      (closeType : t.closeType = some (s.finalCloseType cfg)) : Life cfg s t (.controlTask call)
  | drained {call : Call} (stopping : s.status = .shuttingDown) (settled : s.outstanding = 0)
      (frame : Frame s t) (status : t.status = .terminated)
      (closeType : t.closeType = some (s.closeType.getD (s.finalCloseType cfg))) :
      Life cfg s t (.controlTask call)
  | exhausted {call : Call} (beyond : s.currentRetries > cfg.maxRetries) (frame : Frame s t)
      (status : t.status = .terminated) (closeType : t.closeType = some .failed) :
      Life cfg s t (.evaluateMaxRetries call)
  | rejected {call : Call} {event : MarketOrderFailureEvent}
      (closes : ClosesByRejection cfg s event) (frame : Frame (s.markTerminal event.orderId) t)
      (status : t.status = .terminated) (closeType : t.closeType = some .earlyStop) :
      Life cfg s t (.failed call event)

theorem controlTask_life (cfg : Settings) (call : Call) (s : Executor n) :
    Life cfg s (s.controlTask cfg call) (.controlTask call) := by
  have hkept : ∀ t, SameLife s t → Life cfg s t (.controlTask call) := fun t hsame =>
    .kept (fun h => h) (fun _ _ h => by cases h) hsame
  unfold controlTask
  split
  next hrunning =>
    have hadvance : Frame s s.advance := Frame.advance s
    unfold Executor.step
    dsimp only
    split
    next =>
      split
      next hsettled =>
        rw [hadvance.outstanding_eq] at hsettled
        exact .ran hrunning hsettled (hadvance.closeExecutionBy call _) rfl rfl
      next => exact hkept _ ⟨rfl, rfl⟩
    next c _ =>
      have hstart : SameLife s (s.advance.startCycle call c) := ⟨rfl, rfl⟩
      exact hkept _ (hstart.stepChild cfg call c)
  next hstopping =>
    split
    next =>
      split
      next => exact hkept _ ⟨rfl, rfl⟩
      next => exact hkept _ (.refl s)
    next hsettled =>
      exact .drained hstopping (not_not.mp hsettled) ((Frame.refl s).closeExecutionBy call _) rfl
        rfl
  next => exact hkept _ (.refl s)

theorem processOrderFailedEvent_life (cfg : Settings) (call : Call) (s : Executor n)
    (event : MarketOrderFailureEvent) :
    Life cfg s (s.processOrderFailedEvent cfg call event) (.failed call event) := by
  have hkept : ∀ t, ¬ ClosesByRejection cfg s event → SameLife s t →
      Life cfg s t (.failed call event) := fun t hopen hsame =>
    .kept hopen (fun _ _ h => by cases h) hsame
  unfold processOrderFailedEvent
  split
  next hlook =>
    refine hkept s (fun hcloses => ?_) (.refl s)
    obtain ⟨-, -, r, hr, -⟩ := hcloses
    rw [hlook] at hr
    cases hr
  next r hlook =>
    have hmarked : SameLife s (s.markTerminal event.orderId) := ⟨rfl, rfl⟩
    dsimp only
    split
    next hinactive =>
      refine hkept _ (fun hcloses => ?_) hmarked
      obtain ⟨-, -, r', hr', hactive⟩ := hcloses
      rw [hlook, Option.mem_some_iff] at hr'
      exact hinactive (hr' ▸ hactive)
    next hactive =>
      split
      next hreduce =>
        refine .rejected ⟨hreduce.1, hreduce.2, r, hlook, not_not.mp hactive⟩ ?_ rfl rfl
        exact ((Frame.refl _).modifyChild r.child rfl rfl).closeExecutionBy call _
      next hreduce =>
        have hopen : ¬ ClosesByRejection cfg s event := fun hcloses =>
          hreduce ⟨hcloses.1, hcloses.2.1⟩
        have hback : SameLife s ((s.markTerminal event.orderId).backOff cfg call r.child) :=
          ⟨rfl, rfl⟩
        split
        · exact hkept _ hopen (hback.placeAggressive cfg call r.child)
        · exact hkept _ hopen hback

theorem perform_life (cfg : Settings) (s : Executor n) (op : Op) :
    Life cfg s (perform cfg s op) op := by
  cases op with
  | controlTask call => exact controlTask_life cfg call s
  | filled event =>
      exact .kept (fun h => h) (fun _ _ h => by cases h) (processOrderFilledEvent_life cfg s event)
  | completed event =>
      exact .kept (fun h => h) (fun _ _ h => by cases h) (processOrderCompletedEvent_life s event)
  | canceled call event =>
      exact .kept (fun h => h) (fun _ _ h => by cases h)
        (processOrderCanceledEvent_life cfg call s event)
  | failed call event => exact processOrderFailedEvent_life cfg call s event
  | earlyStop call keepPosition =>
      exact .stopped (Frame.earlyStop call s keepPosition) rfl rfl
  | evaluateMaxRetries call =>
      simp only [perform, evaluateMaxRetries]
      split
      next hover => exact .exhausted hover ((Frame.refl s).closeExecutionBy call .failed) rfl rfl
      next hover => exact .kept hover (fun _ _ h => by cases h) (.refl s)

/-! ## The life only moves forward -/

/-- How far a status is in the life of an execution. -/
def phase : RunnableStatus → ℕ
  | .notStarted => 0
  | .running => 1
  | .shuttingDown => 2
  | .terminated => 3

theorem phase_le (status : RunnableStatus) : phase status ≤ phase .terminated := by
  cases status <;> decide

theorem eq_terminated_of_phase {status : RunnableStatus}
    (hle : phase .terminated ≤ phase status) : status = .terminated := by
  cases status <;> first | rfl | (simp [phase] at hle)

/-- `t` is at least as far as `s`, and an ended execution keeps its close type. -/
def Forward (s t : Executor n) : Prop :=
  phase s.status ≤ phase t.status ∧ (s.status = .terminated → t.closeType = s.closeType)

instance (s t : Executor n) : Decidable (Forward s t) :=
  inferInstanceAs (Decidable (_ ∧ (_ → _)))

theorem Forward.refl (s : Executor n) : Forward s s := ⟨le_rfl, fun _ => rfl⟩

theorem Forward.trans {s t u : Executor n} (h : Forward s t) (h' : Forward t u) : Forward s u := by
  refine ⟨h.1.trans h'.1, fun hended => ?_⟩
  have hstays : t.status = .terminated := eq_terminated_of_phase (hended ▸ h.1)
  rw [h'.2 hstays, h.2 hended]

/-- The operation rewrites an ended execution: a stop request always does, a
forced close does when it records another close type. -/
def Rewrites (cfg : Settings) (s : Executor n) (op : Op) : Prop :=
  s.status = .terminated ∧ match op with
    | .earlyStop _ _ => True
    | .evaluateMaxRetries _ => ForcesClose cfg s op ∧ s.closeType ≠ some .failed
    | .failed _ _ => ForcesClose cfg s op ∧ s.closeType ≠ some .earlyStop
    | _ => False

theorem forward_step_iff (cfg : Settings) (s : Executor n) (op : Op) :
    Forward s (perform cfg s op) ↔ ¬ Rewrites cfg s op := by
  -- a forced close keeps an ended execution's phase, so only its close type can differ
  have hforced : ∀ {t : Executor n} {closeType : CloseType}, t.status = .terminated →
      t.closeType = some closeType →
      (Forward s t ↔ ¬ (s.status = .terminated ∧ s.closeType ≠ some closeType)) := by
    intro t closeType hstatus hclose
    simp [Forward, hstatus, hclose, phase_le, eq_comm]
  cases perform_life cfg s op with
  | kept hunforced hunstopped hsame =>
      refine iff_of_true ⟨by rw [hsame.status], fun _ => hsame.closeType⟩ ?_
      rintro ⟨-, hop⟩
      cases op with
      | earlyStop call keepPosition => exact hunstopped call keepPosition rfl
      | evaluateMaxRetries call => exact hunforced hop.1
      | failed call event => exact hunforced hop.1
      | _ => exact hop
  | stopped _ hstatus _ =>
      rw [Forward, hstatus]
      cases hs : s.status <;> simp [Rewrites, hs, phase]
  | ran hrunning _ _ hstatus _ =>
      exact iff_of_true ⟨hstatus ▸ phase_le _, fun hended => by simp [hrunning] at hended⟩
        fun hrewrites => hrewrites.2
  | drained hstopping _ _ hstatus _ =>
      exact iff_of_true ⟨hstatus ▸ phase_le _, fun hended => by simp [hstopping] at hended⟩
        fun hrewrites => hrewrites.2
  | exhausted hover _ hstatus hclose =>
      rw [hforced hstatus hclose]
      simp [Rewrites, ForcesClose, hover]
  | rejected hcloses _ hstatus hclose =>
      rw [hforced hstatus hclose]
      simp [Rewrites, ForcesClose, hcloses]

/-- The life of an execution is monotone between any two moments of a run
exactly when no operation rewrites an ended one. -/
theorem life_monotone_iff (cfg : Settings) (slots : List ChildSlot) (ops : List Op) :
    (∀ before middle after, ops = before ++ middle ++ after →
        Forward (run (perform cfg) (init slots) before)
          (run (perform cfg) (init slots) (before ++ middle))) ↔
      Along (perform cfg) (fun s op => ¬ Rewrites cfg s op) (init slots) ops :=
  (Along.iff_ordered Forward.refl Forward.trans).trans (Along.congr (forward_step_iff cfg))

/-- One child, filled by its limit order, closes the run as completed. -/
def completedRun : List Op :=
  [.controlTask { now := 0, bestBid := some 10, orderId := "a" },
    .completed { orderId := "a", baseAssetAmount := 1 },
    .controlTask { now := 1, orderId := "b" }]

/-- A stop request that arrives after the run closed itself: the execution is
shutting down again, and its next tick closes it as stopped early. -/
theorem late_stop_revives_completed_run :
    let slots : List ChildSlot := [{ target := 1 }]
    let stop : Op := .earlyStop { now := 2, orderId := "c" } false
    let tick : Op := .controlTask { now := 3, orderId := "d" }
    let closed := run (perform sampleConfig) (init slots) completedRun
    let stopped := run (perform sampleConfig) (init slots) (completedRun ++ [stop])
    let final := run (perform sampleConfig) (init slots) (completedRun ++ [stop, tick])
    buildChildSlots sampleConfig = .ok slots ∧
      (closed.status = .terminated ∧ closed.closeType = some .completed) ∧
      stopped.status = .shuttingDown ∧ ¬ Forward closed stopped ∧
      final.status = .terminated ∧ final.closeType = some .earlyStop ∧ ¬ Forward closed final := by
  decide +kernel

end Opms.PassiveAggressive
