import Opms.ACSchedule.OverExecution
import Mathlib.Data.Finset.Option

/-! # What the executions add up to

The executor adds up the amounts of completion events and decides its close type
from the sum. The sum is what the orders executed as long as every executed order
is counted once: its completion arrives, arrives before the decision, and counts
no second time.
-/

namespace Opms.ACSchedule

open Foundation

universe u

variable {K : Type u} [Field K] [LinearOrder K]

/-! ## What the executor's steps can do -/

namespace Executor

variable (math : MathFunctions K) (cfg : Settings K) (call : Call K) (s : Executor K)

/-- The control task closes the run, with the type that the sum decides. -/
def Decides : Prop :=
  match s.status with
  | .running => (s.resolved math cfg call).allDone = true
  | .shuttingDown => s.closeType = none
  | _ => False

instance : Decidable (s.Decides math cfg call) := by
  unfold Decides
  split <;> infer_instance

/-- The orders and the sum are untouched. -/
structure SameTally (s t : Executor K) : Prop where
  submitted : t.submitted = s.submitted
  cumulativeFilled : t.cumulativeFilled = s.cumulativeFilled

inductive ControlStep (t : Executor K) : Prop
  | kept (same : SameTally s t) (placed : t.placed = s.placed) (status : t.status = s.status)
      (closeType : t.closeType = s.closeType)
  | submitted (amount : K) (running : s.status = .running) (status : t.status = .running)
      (submitted : t.submitted = s.submitted ++ [⟨call.orderId, false, 0⟩])
      (cumulativeFilled : t.cumulativeFilled = s.cumulativeFilled)
      (placed : t.placed = s.placed ++ [orderFor cfg call amount])
      (closeType : t.closeType = s.closeType)
  | decided (decides : s.Decides math cfg call) (same : SameTally s t)
      (placed : t.placed = s.placed) (status : t.status = .terminated)
      (closeType : t.closeType = some (s.finalCloseType cfg))
  | confirmed (same : SameTally s t) (placed : t.placed = s.placed)
      (down : s.status = .shuttingDown) (status : t.status = .terminated)
      (known : s.closeType ≠ none) (closeType : t.closeType = s.closeType)

theorem submitNextSlice_cases (s : Executor K) (hmore : s.sliceIdx < s.schedule.length) :
    s.submitNextSlice cfg call = { s with sliceIdx := s.sliceIdx + 1 } ∨
      ∃ amount, s.submitNextSlice cfg call = s.placeSlice cfg call amount := by
  unfold submitNextSlice
  rw [List.getElem?_eq_getElem hmore]
  dsimp only
  split
  next =>
    split
    next => exact .inl rfl
    next => exact .inr ⟨_, rfl⟩
  next => exact .inr ⟨_, rfl⟩

theorem controlTask_step : ControlStep math cfg call s (s.controlTask math cfg call) := by
  unfold controlTask
  split
  next hrunning =>
    have hdecides : s.Decides math cfg call ↔ (s.resolved math cfg call).allDone = true := by
      rw [Decides, hrunning]
    obtain ⟨schedule, intervalSeconds, hframe⟩ := s.maybeResolveVolumeSchedule_frame math cfg call
    rw [resolved, hframe] at hdecides
    unfold tick
    rw [hframe]
    dsimp only
    split
    next =>
      split
      next hdone => exact .decided (hdecides.mpr hdone) ⟨rfl, rfl⟩ rfl rfl rfl
      next => exact .kept ⟨rfl, rfl⟩ rfl rfl rfl
    next hmore =>
      split
      next => exact .kept ⟨rfl, rfl⟩ rfl rfl rfl
      next =>
        -- the new schedule and the start time are none of the orders' business
        rcases submitNextSlice_cases cfg call { s with
            schedule, intervalSeconds, scheduleResolved := true
            startTimestamp := some (s.startTimestamp.getD call.now) } (not_le.mp hmore) with
          hskip | ⟨amount, hplace⟩
        · rw [hskip]
          exact .kept ⟨rfl, rfl⟩ rfl rfl rfl
        · rw [hplace]
          exact .submitted amount hrunning hrunning rfl rfl rfl rfl
  next hdown =>
    cases hclose : s.closeType with
    | none =>
        refine .decided ?_ ⟨rfl, rfl⟩ rfl rfl rfl
        rw [Decides, hdown]
        exact hclose
    | some closeType =>
        exact .confirmed ⟨rfl, rfl⟩ rfl hdown rfl (by simp [hclose])
          (by simp [closeExecutionBy, hclose])
  next => exact .kept ⟨rfl, rfl⟩ rfl rfl rfl

omit [LinearOrder K] in
/-- A completion is added up, and may find every tracked order done. -/
theorem processOrderCompletedEvent_of_tracked (s : Executor K) {orderId : OrderId}
    {t : TrackedOrder K} (hfind : s.findTracked orderId = some t) (amount : K) :
    ∃ status, (status = s.status ∨ status = .shuttingDown ∧ s.allDone = true) ∧
      s.processOrderCompletedEvent orderId amount =
        { s with cumulativeFilled := s.cumulativeFilled + amount, status } := by
  unfold processOrderCompletedEvent
  rw [hfind]
  dsimp only
  split
  next hdone => exact ⟨_, .inr ⟨rfl, hdone⟩, rfl⟩
  next => exact ⟨_, .inl rfl, rfl⟩

omit [LinearOrder K] in
/-- An order that is not tracked is none of the executor's. -/
theorem processOrderCompletedEvent_of_untracked (s : Executor K) {orderId : OrderId}
    (hfind : s.findTracked orderId = none) (amount : K) :
    s.processOrderCompletedEvent orderId amount = s := by
  unfold processOrderCompletedEvent
  rw [hfind]

omit [Field K] [LinearOrder K] in
/-- A failed order is tracked no longer. -/
theorem processOrderFailedEvent_cases (s : Executor K) (orderId : OrderId) :
    s.processOrderFailedEvent orderId = s ∨
      ∃ failed sliceIdx currentRetries, s.processOrderFailedEvent orderId =
        { s with
          failed, sliceIdx, currentRetries
          submitted := s.submitted.eraseP fun t => t.orderId = orderId } := by
  unfold processOrderFailedEvent
  split
  next => exact .inl rfl
  next => exact .inr ⟨_, _, _, rfl⟩

end Executor

/-! ## The venue under a step -/

namespace World

/-- The venue knows the order. -/
def Known (w : World K) (orderId : OrderId) : Prop := (w.venue.lookup orderId).isSome

/-- The order can execute no further. -/
def Dead (w : World K) (orderId : OrderId) : Prop :=
  ∀ r ∈ w.venue.lookup orderId, r.live = false

instance (w : World K) (orderId : OrderId) : Decidable (w.Dead orderId) :=
  inferInstanceAs (Decidable (∀ r ∈ w.venue.lookup orderId, _))

omit [LinearOrder K] in
theorem accept_of_placed_eq (venue : Book OrderId Unit K) {before after : Executor K}
    (hplaced : after.placed = before.placed) : accept venue before after = venue := by
  rw [accept, hplaced, List.drop_length]
  rfl

omit [LinearOrder K] in
theorem accept_of_placed_append (venue : Book OrderId Unit K) {before after : Executor K}
    {order : PlacedOrder K} (hplaced : after.placed = before.placed ++ [order]) :
    accept venue before after = venue.set order.orderId ⟨(), order.amount, 0, true⟩ := by
  rw [accept, hplaced, List.drop_left']
  · rfl
  · rfl

end World

/-! ## Runs with a record of the events -/

/-- The order whose end the input reports. -/
def Input.endedOrder? : Input K → Option OrderId
  | .completed orderId _ => some orderId
  | .failed orderId => some orderId
  | .canceled orderId => some orderId
  | _ => none

/-- The order that the input says can execute no further, without having been
completed. -/
def Input.deadOrder? : Input K → Option OrderId
  | .observe orderId isDone _ => if isDone then some orderId else none
  | .failed orderId => some orderId
  | .canceled orderId => some orderId
  | _ => none

/-- A world with the orders whose end was reported to the executor, and those
whose completion it added up. -/
structure Audit (K : Type u) where
  world : World K
  ended : Finset OrderId
  counted : Finset OrderId

namespace Audit

/-- Nothing was reported yet. -/
def start (w : World K) : Audit K := ⟨w, ∅, ∅⟩

section Perform

variable (math : MathFunctions K) (cfg : Settings K)

def perform (a : Audit K) (input : Input K) : Audit K where
  world := a.world.perform math cfg input
  ended := a.ended ∪
    (input.endedOrder?.filter fun orderId => (a.world.venue.lookup orderId).isSome).toFinset
  counted := match input with
    | .completed orderId _ =>
        if (a.world.executor.findTracked orderId).isSome then insert orderId a.counted
        else a.counted
    | _ => a.counted

/-- An order is shown as done, and its failure or cancel reported, only when it
can execute no further. -/
def Legal (a : Audit K) (input : Input K) : Prop :=
  a.world.Legal input ∧ ∀ orderId ∈ input.deadOrder?, a.world.Dead orderId

instance (a : Audit K) (input : Input K) : Decidable (a.Legal input) :=
  inferInstanceAs (Decidable (_ ∧ ∀ orderId ∈ input.deadOrder?, _))

/-- The order executed something that the executor has not added up. -/
def Uncounted (a : Audit K) (orderId : OrderId) : Prop :=
  ∃ r ∈ a.world.venue.lookup orderId, r.spent ≠ 0 ∧ orderId ∉ a.counted

instance (a : Audit K) (orderId : OrderId) : Decidable (a.Uncounted orderId) :=
  inferInstanceAs (Decidable (∃ r ∈ a.world.venue.lookup orderId, _))

/-- Each execution is added up once: no completion of an order that executed
something is delivered again, no such order ends otherwise, and none is left out
when a control task decides how the run closes. -/
def CountsOnce (a : Audit K) : Input K → Prop
  | .completed orderId _ => ∀ r ∈ a.world.venue.lookup orderId,
      (a.world.executor.findTracked orderId).isSome → r.spent ≠ 0 → orderId ∉ a.counted
  | .failed orderId => ¬ a.Uncounted orderId
  | .canceled orderId => ¬ a.Uncounted orderId
  | .controlTask call =>
      a.world.executor.Decides math cfg call →
        ∀ orderId ∈ a.world.venue.keys, ¬ a.Uncounted orderId
  | _ => True

instance (a : Audit K) (input : Input K) : Decidable (a.CountsOnce math cfg input) := by
  induction input using Input.casesOn <;> dsimp only [CountsOnce] <;> infer_instance

/-- Every order has ended, at the venue and for the executor. -/
def AllEnded (a : Audit K) : Prop :=
  ∀ orderId ∈ a.world.venue.keys, a.world.Dead orderId ∧ orderId ∈ a.ended

instance (a : Audit K) : Decidable a.AllEnded :=
  inferInstanceAs (Decidable (∀ orderId ∈ a.world.venue.keys, _))

/-- With every order ended the sum is what they executed, and the close type
tells whether that was the total. -/
structure Honest (a : Audit K) : Prop where
  sum : a.AllEnded → a.world.executor.cumulativeFilled = a.world.executed
  completed : a.world.executor.closeType = some .completed →
    cfg.totalAmountBase ≤ a.world.executed
  timeLimit : a.world.executor.closeType = some .timeLimit →
    a.world.executed < cfg.totalAmountBase

end Perform

/-! ## The sum -/

/-- Each order the venue knows is tracked or has ended, what has ended executes
no further and is counted unless it executed nothing, and the sum is what the
counted orders executed. -/
structure Reconciled (a : Audit K) : Prop where
  tracked : ∀ t ∈ a.world.executor.submitted,
    a.world.Known t.orderId ∧ (t.isDone = true → a.world.Dead t.orderId)
  known : ∀ orderId, a.world.Known orderId →
    (∃ t ∈ a.world.executor.submitted, t.orderId = orderId) ∨ orderId ∈ a.ended
  ended : ∀ orderId ∈ a.ended,
    a.world.Known orderId ∧ a.world.Dead orderId ∧ ¬ a.Uncounted orderId
  counted : a.counted ⊆ a.ended
  sum : a.world.executor.cumulativeFilled =
    a.world.venue.total fun orderId r => if orderId ∈ a.counted then r.spent else 0

variable {math : MathFunctions K} {cfg : Settings K} {a : Audit K}

theorem mem_ended_perform {input : Input K} {orderId : OrderId} :
    orderId ∈ (a.perform math cfg input).ended ↔
      orderId ∈ a.ended ∨ (orderId ∈ input.endedOrder? ∧ a.world.Known orderId) := by
  simp [perform, World.Known]

theorem ended_perform_of_none {input : Input K} (hnone : input.endedOrder? = none) :
    (a.perform math cfg input).ended = a.ended := by
  ext orderId
  simp [mem_ended_perform, hnone]

theorem mem_ended_perform_of_some {input : Input K} {orderId other : OrderId}
    (hsome : input.endedOrder? = some orderId) :
    other ∈ (a.perform math cfg input).ended ↔
      other ∈ a.ended ∨ (other = orderId ∧ a.world.Known orderId) := by
  rw [mem_ended_perform, hsome, Option.mem_some_iff, @eq_comm _ orderId]
  -- no order but the input's own is affected
  refine or_congr_right (and_congr_right ?_)
  rintro rfl
  rfl

omit [LinearOrder K] in
/-- A step that leaves the venue, the record and the tracked orders alone. -/
theorem Reconciled.congr (h : a.Reconciled) {b : Audit K}
    (hsame : Executor.SameTally a.world.executor b.world.executor)
    (hvenue : b.world.venue = a.world.venue) (hended : b.ended = a.ended)
    (hcounted : b.counted = a.counted) : b.Reconciled := by
  obtain ⟨⟨executor, venue, clock⟩, ended, counted⟩ := b
  obtain ⟨hsubmitted, hfilled⟩ := hsame
  dsimp only at hsubmitted hfilled hvenue hended hcounted
  subst hvenue hended hcounted
  refine ⟨?_, ?_, h.ended, h.counted, hfilled.trans h.sum⟩
  · dsimp only
    rw [hsubmitted]
    exact h.tracked
  · dsimp only
    rw [hsubmitted]
    exact h.known

omit [LinearOrder K] in
/-- A move at the venue that no dead order takes part in. -/
theorem Reconciled.modify (h : a.Reconciled) (key : OrderId)
    (change : Reservation Unit K → Reservation Unit K)
    (hdead : ∀ r ∈ a.world.venue.lookup key, r.live = false → change r = r) :
    Reconciled { a with world := { a.world with venue := a.world.venue.modify key change } } := by
  have hkeep : ∀ orderId, a.world.Dead orderId →
      (a.world.venue.modify key change).lookup orderId = a.world.venue.lookup orderId := by
    intro orderId hover
    rw [Registry.lookup_modify]
    split
    next heq =>
      subst heq
      cases hlook : a.world.venue.lookup orderId with
      | none => rfl
      | some r => rw [Option.map_some, hdead r hlook (hover r hlook)]
    next => rfl
  have hknown : ∀ orderId, ((a.world.venue.modify key change).lookup orderId).isSome ↔
      a.world.Known orderId := by
    intro orderId
    rw [Registry.lookup_modify, World.Known]
    split
    next => rw [Option.isSome_map]
    next => rfl
  refine ⟨fun t ht => ?_, fun orderId hmem => ?_, fun orderId hmem => ?_, h.counted, ?_⟩
  · obtain ⟨htracked, hdone⟩ := h.tracked t ht
    refine ⟨(hknown _).mpr htracked, fun hisDone => ?_⟩
    rw [World.Dead, hkeep _ (hdone hisDone)]
    exact hdone hisDone
  · exact h.known orderId ((hknown orderId).mp hmem)
  · obtain ⟨hin, hover, hcounted⟩ := h.ended orderId hmem
    refine ⟨(hknown orderId).mpr hin, ?_, ?_⟩
    · rw [World.Dead, hkeep orderId hover]
      exact hover
    · rw [Uncounted, hkeep orderId hover]
      exact hcounted
  · refine h.sum.trans (Eq.symm ?_)
    apply Registry.total_modify_of_keep
    intro r hlook
    split
    next hin => rw [hdead r hlook ((h.ended key (h.counted hin)).2.1 r hlook)]
    next => rfl

omit [LinearOrder K] in
/-- A new order at the venue and among the tracked ones. -/
theorem Reconciled.place (h : a.Reconciled) {orderId : OrderId} (amount clock : K)
    {executor : Executor K} (hfresh : a.world.venue.lookup orderId = none)
    (hsubmitted : executor.submitted = a.world.executor.submitted ++ [⟨orderId, false, 0⟩])
    (hfilled : executor.cumulativeFilled = a.world.executor.cumulativeFilled) :
    Reconciled { a with
      world := ⟨executor, a.world.venue.set orderId ⟨(), amount, 0, true⟩, clock⟩ } := by
  have hkeep : ∀ other, a.world.Known other →
      other ≠ orderId ∧ (a.world.venue.set orderId ⟨(), amount, 0, true⟩).lookup other =
        a.world.venue.lookup other := by
    intro other hknown
    have hne : other ≠ orderId := by
      rintro rfl
      rw [World.Known, hfresh] at hknown
      cases hknown
    rw [Registry.lookup_set, if_neg hne]
    exact ⟨hne, rfl⟩
  have hplaced : (a.world.venue.set orderId ⟨(), amount, 0, true⟩).lookup orderId =
      some ⟨(), amount, 0, true⟩ := by
    rw [Registry.lookup_set, if_pos rfl]
  refine ⟨fun t ht => ?_, fun other hother => ?_, fun other hother => ?_, h.counted, ?_⟩
  · dsimp only at ht
    rw [hsubmitted, List.mem_append, List.mem_singleton] at ht
    rcases ht with ht | rfl
    · obtain ⟨htracked, hdone⟩ := h.tracked t ht
      rw [World.Known, World.Dead, (hkeep _ htracked).2]
      exact ⟨htracked, hdone⟩
    · rw [World.Known, hplaced]
      exact ⟨rfl, fun hdone => by cases hdone⟩
  · dsimp only
    rw [hsubmitted]
    by_cases heq : other = orderId
    · exact .inl ⟨_, List.mem_append_right _ (List.mem_singleton_self _), heq.symm⟩
    · rw [World.Known, Registry.lookup_set, if_neg heq] at hother
      refine (h.known other hother).imp_left ?_
      rintro ⟨t, ht, hid⟩
      exact ⟨t, List.mem_append_left _ ht, hid⟩
  · obtain ⟨hin, hover, hcounted⟩ := h.ended other hother
    rw [World.Known, World.Dead, Uncounted, (hkeep other hin).2]
    exact ⟨hin, hover, hcounted⟩
  · refine (hfilled.trans h.sum).trans ?_
    rw [Registry.total_set_of_absent _ hfresh, ite_self, add_zero]

omit [LinearOrder K] in
/-- The end of an order that needs no counting. -/
theorem Reconciled.report (h : a.Reconciled) {b : Audit K} {orderId : OrderId}
    (hdead : a.world.Dead orderId) (hcounted : ¬ a.Uncounted orderId)
    (hvenue : b.world.venue = a.world.venue) (hsame : b.counted = a.counted)
    (hended : ∀ other, other ∈ b.ended ↔
      other ∈ a.ended ∨ (other = orderId ∧ a.world.Known orderId))
    (htracked : b.world.executor.submitted ⊆ a.world.executor.submitted)
    (hdropped : ∀ t ∈ a.world.executor.submitted, t.orderId ≠ orderId →
      t ∈ b.world.executor.submitted)
    (hfilled : b.world.executor.cumulativeFilled = a.world.executor.cumulativeFilled) :
    b.Reconciled := by
  obtain ⟨⟨executor, venue, clock⟩, ended, counted⟩ := b
  dsimp only at hvenue hsame hended htracked hdropped hfilled
  subst hvenue hsame
  refine ⟨fun t ht => h.tracked t (htracked ht), fun other hother => ?_, fun other hother => ?_,
    fun other hother => (hended other).mpr (.inl (h.counted hother)), hfilled.trans h.sum⟩
  · by_cases heq : other = orderId
    · subst heq
      exact .inr ((hended other).mpr (.inr ⟨rfl, hother⟩))
    · refine (h.known other hother).imp ?_ fun hin => (hended other).mpr (.inl hin)
      rintro ⟨t, ht, rfl⟩
      exact ⟨t, hdropped t ht heq, rfl⟩
  · rcases (hended other).mp hother with hin | ⟨rfl, hknown⟩
    · exact h.ended other hin
    · exact ⟨hknown, hdead, hcounted⟩

omit [LinearOrder K] in
/-- The first completion of an order, or one of an order without executions. -/
theorem Reconciled.count (h : a.Reconciled) {b : Audit K} {orderId : OrderId}
    {r : Reservation Unit K} (hlook : a.world.venue.lookup orderId = some r)
    (hdead : r.live = false) (honce : r.spent ≠ 0 → orderId ∉ a.counted)
    (hvenue : b.world.venue = a.world.venue) (hcounted : b.counted = insert orderId a.counted)
    (hended : ∀ other, other ∈ b.ended ↔
      other ∈ a.ended ∨ (other = orderId ∧ a.world.Known orderId))
    (hsubmitted : b.world.executor.submitted = a.world.executor.submitted)
    (hfilled : b.world.executor.cumulativeFilled =
      a.world.executor.cumulativeFilled + r.spent) : b.Reconciled := by
  have hknown : a.world.Known orderId := by
    rw [World.Known, hlook]
    rfl
  obtain ⟨⟨executor, venue, clock⟩, ended, counted⟩ := b
  dsimp only at hvenue hcounted hended hsubmitted hfilled
  subst hvenue hcounted
  refine ⟨?_, fun other hother => ?_, fun other hother => ?_, fun other hother => ?_, ?_⟩
  · dsimp only
    rw [hsubmitted]
    exact h.tracked
  · dsimp only
    rw [hsubmitted]
    exact (h.known other hother).imp_right fun hin => (hended other).mpr (.inl hin)
  · have hcase : a.world.Known other ∧ a.world.Dead other ∧
        (other ≠ orderId → ¬ a.Uncounted other) := by
      rcases (hended other).mp hother with hin | ⟨rfl, -⟩
      · obtain ⟨hin, hover, hcounted⟩ := h.ended other hin
        exact ⟨hin, hover, fun _ => hcounted⟩
      · refine ⟨hknown, fun r' hr' => ?_, fun hne => absurd rfl hne⟩
        rw [hlook] at hr'
        cases hr'
        exact hdead
    refine ⟨hcase.1, hcase.2.1, ?_⟩
    rintro ⟨r', hr', hspent, hnot⟩
    dsimp only at hnot
    rw [Finset.mem_insert, not_or] at hnot
    exact hcase.2.2 hnot.1 ⟨r', hr', hspent, hnot.2⟩
  · rcases Finset.mem_insert.mp hother with rfl | hin
    · exact (hended other).mpr (.inr ⟨rfl, hknown⟩)
    · exact (hended other).mpr (.inl (h.counted hin))
  · refine hfilled.trans ?_
    rw [h.sum]
    by_cases hnew : orderId ∈ a.counted
    · -- counted before, so it executed nothing
      have hzero : r.spent = 0 := by
        by_contra hspent
        exact honce hspent hnew
      rw [Finset.insert_eq_of_mem hnew, hzero, add_zero]
    · exact (a.world.venue.total_insert hlook hnew Reservation.spent).symm

theorem Reconciled.perform_controlTask (h : a.Reconciled) {call : Call K}
    (hfresh : a.world.venue.lookup call.orderId = none) :
    (a.perform math cfg (.controlTask call)).Reconciled := by
  have hsilent : (a.perform math cfg (.controlTask call)).ended = a.ended :=
    ended_perform_of_none rfl
  have hstep := Executor.controlTask_step math cfg call a.world.executor
  cases hstep with
  | kept same placed | decided _ same placed | confirmed same placed =>
      exact h.congr same (World.accept_of_placed_eq _ placed) hsilent rfl
  | submitted amount _ _ submitted filled placed =>
      have hplaced := h.place amount call.now hfresh submitted filled
      refine hplaced.congr ⟨rfl, rfl⟩ ?_ hsilent rfl
      exact World.accept_of_placed_append _ placed

/-- An order is shown as done when it is dead. -/
theorem Reconciled.perform_observe (h : a.Reconciled) {orderId : OrderId} {isDone : Bool}
    (executed : K) (hdead : isDone = true → a.world.Dead orderId) :
    (a.perform math cfg (.observe orderId isDone executed)).Reconciled := by
  refine ⟨fun t ht => ?_, fun other hother => ?_, ?_, ?_, h.sum⟩
  · obtain ⟨t, htracked, rfl⟩ := List.mem_map.mp ht
    obtain ⟨hknown, hdone⟩ := h.tracked t htracked
    split
    next heq =>
      refine ⟨hknown, fun hisDone => ?_⟩
      rw [heq]
      exact hdead hisDone
    next => exact ⟨hknown, hdone⟩
  · rw [ended_perform_of_none rfl]
    refine (h.known other hother).imp_left ?_
    rintro ⟨t, ht, rfl⟩
    refine ⟨_, List.mem_map_of_mem ht, ?_⟩
    split
    next => rfl
    next => rfl
  · rw [ended_perform_of_none rfl]
    exact h.ended
  · rw [ended_perform_of_none rfl]
    exact h.counted

omit [LinearOrder K] in
/-- A known order that is no longer tracked had its end reported before. -/
theorem Reconciled.mem_ended_of_untracked (h : a.Reconciled) {orderId : OrderId}
    (hfind : a.world.executor.findTracked orderId = none) (hknown : a.world.Known orderId) :
    orderId ∈ a.ended := by
  refine (h.known orderId hknown).resolve_left ?_
  rintro ⟨t, ht, heq⟩
  have hnot := List.find?_eq_none.mp hfind t ht
  exact hnot (decide_eq_true heq)

/-- An order is completed when it is dead, with what it executed. -/
theorem Reconciled.perform_completed (h : a.Reconciled) {orderId : OrderId} {amount : K}
    (hlegal : ∀ r ∈ a.world.venue.lookup orderId, r.live = false ∧ amount = r.spent)
    (honce : a.CountsOnce math cfg (.completed orderId amount)) :
    (a.perform math cfg (.completed orderId amount)).Reconciled := by
  cases hfind : a.world.executor.findTracked orderId with
  | none =>
      have hkept : (a.perform math cfg (.completed orderId amount)).world = a.world := by
        rw [Audit.perform, World.perform,
          a.world.executor.processOrderCompletedEvent_of_untracked hfind]
      refine h.report (fun r hr => (hlegal r hr).1) ?_ rfl ?_
        (fun _ => mem_ended_perform_of_some rfl) ?_ ?_ ?_
      · rintro ⟨r, hr, hspent⟩
        have hknown : a.world.Known orderId := by
          rw [World.Known, Option.mem_def.mp hr]
          rfl
        have hended := h.mem_ended_of_untracked hfind hknown
        exact (h.ended orderId hended).2.2 ⟨r, hr, hspent⟩
      · simp [Audit.perform, hfind]
      · rw [hkept]
        exact List.Subset.refl _
      · intro t ht _
        rw [hkept]
        exact ht
      · rw [hkept]
  | some t =>
      have hmem := List.mem_of_find?_eq_some hfind
      have heq : t.orderId = orderId := by simpa using List.find?_some hfind
      have hknown := (h.tracked t hmem).1
      rw [heq] at hknown
      obtain ⟨r, hlook⟩ := Option.isSome_iff_exists.mp hknown
      obtain ⟨hdead, rfl⟩ := hlegal r hlook
      have hfound : (a.world.executor.findTracked orderId).isSome := by
        rw [hfind]
        rfl
      obtain ⟨status, -, hadded⟩ :=
        a.world.executor.processOrderCompletedEvent_of_tracked hfind r.spent
      refine h.count hlook hdead (honce r hlook hfound) rfl (if_pos hfound)
        (fun _ => mem_ended_perform_of_some rfl) ?_ ?_
      · rw [Audit.perform, World.perform, hadded]
      · rw [Audit.perform, World.perform, hadded]

/-- An order fails when it is dead, with its executions counted. -/
theorem Reconciled.perform_failed (h : a.Reconciled) {orderId : OrderId}
    (hdead : a.world.Dead orderId) (hcounted : ¬ a.Uncounted orderId) :
    (a.perform math cfg (.failed orderId)).Reconciled := by
  have hfailed : (a.perform math cfg (.failed orderId)).world.executor =
      a.world.executor.processOrderFailedEvent orderId := rfl
  refine h.report hdead hcounted rfl rfl (fun _ => mem_ended_perform_of_some rfl) ?_ ?_ ?_
    <;> rw [hfailed]
    <;> rcases a.world.executor.processOrderFailedEvent_cases orderId with
      hkept | ⟨failed, sliceIdx, currentRetries, hdropped⟩
  · rw [hkept]
    exact List.Subset.refl _
  · rw [hdropped]
    exact List.eraseP_subset
  · rw [hkept]
    exact fun t ht _ => ht
  · rw [hdropped]
    exact fun t ht hne => (List.mem_eraseP_of_neg (by simpa using hne)).mpr ht
  · rw [hkept]
  · rw [hdropped]

theorem Reconciled.perform (h : a.Reconciled) (input : Input K) (hlegal : a.Legal input)
    (honce : a.CountsOnce math cfg input) : (a.perform math cfg input).Reconciled := by
  cases input with
  | controlTask call => exact h.perform_controlTask hlegal.1.2
  | execute orderId amount =>
      obtain ⟨-, r, hlook, hlive, -⟩ := hlegal.1
      refine (h.modify orderId (fun r => { r with spent := r.spent + amount })
        fun r' hr' hdead => ?_).congr ⟨rfl, rfl⟩ rfl (ended_perform_of_none rfl) rfl
      rw [Option.mem_unique hr' hlook, hlive] at hdead
      cases hdead
  | settle orderId =>
      refine (h.modify orderId (fun r => { r with live := false })
        fun r _ hdead => ?_).congr ⟨rfl, rfl⟩ rfl (ended_perform_of_none rfl) rfl
      rw [← hdead]
  | observe orderId isDone executed =>
      exact h.perform_observe executed fun hisDone => hlegal.2 orderId (if_pos hisDone)
  | completed orderId amount => exact h.perform_completed hlegal.1 honce
  | failed orderId => exact h.perform_failed (hlegal.2 orderId rfl) honce
  | canceled orderId =>
      exact h.report (hlegal.2 orderId rfl) honce rfl rfl (fun _ => mem_ended_perform_of_some rfl)
        (List.Subset.refl _) (fun t ht _ => ht) rfl
  | earlyStop => exact h.congr ⟨rfl, rfl⟩ rfl (ended_perform_of_none rfl) rfl
  | evaluateMaxRetries now =>
      refine h.congr ?_ rfl (ended_perform_of_none rfl) rfl
      simp only [Audit.perform, World.perform, Executor.evaluateMaxRetries]
      split
      next => exact ⟨rfl, rfl⟩
      next => exact ⟨rfl, rfl⟩

/-! ## The close type -/

omit [LinearOrder K] in
theorem Reconciled.sum_eq_executed (h : a.Reconciled)
    (hcounted : ∀ orderId ∈ a.world.venue.keys, ¬ a.Uncounted orderId) :
    a.world.executor.cumulativeFilled = a.world.executed := by
  rw [h.sum, World.executed, Book.spentIn]
  apply Registry.total_congr
  intro orderId r hlook
  rw [if_pos rfl]
  split
  next => rfl
  next hnot =>
    by_contra hspent
    have hknown := a.world.venue.mem_keys_of_lookup hlook
    exact hcounted orderId hknown ⟨r, hlook, Ne.symm hspent, hnot⟩

omit [LinearOrder K] in
theorem Reconciled.dead_of_allDone (h : a.Reconciled)
    (hdone : ∀ t ∈ a.world.executor.submitted, t.isDone = true) (orderId : OrderId) :
    a.world.Dead orderId := by
  by_cases hknown : a.world.Known orderId
  · rcases h.known orderId hknown with ⟨t, ht, rfl⟩ | hin
    · exact (h.tracked t ht).2 (hdone t ht)
    · exact (h.ended orderId hin).2.1
  · intro r hr
    rw [World.Known, Option.mem_def.mp hr] at hknown
    exact absurd rfl hknown

end Audit

omit [Field K] [LinearOrder K] in
theorem Executor.isDone_of_allDone {s : Executor K} (hdone : s.allDone = true) :
    ∀ t ∈ s.submitted, t.isDone = true :=
  List.all_eq_true.mp (Bool.and_eq_true_iff.mp hdone).2

omit [Field K] in
theorem Executor.finalCloseType_completed {cfg : Settings K} {s : Executor K}
    (hclose : s.finalCloseType cfg = .completed) : cfg.totalAmountBase ≤ s.cumulativeFilled := by
  unfold finalCloseType at hclose
  split at hclose
  next => cases hclose
  next =>
    split at hclose
    next hfull => exact hfull
    next => cases hclose

omit [Field K] in
theorem Executor.finalCloseType_timeLimit {cfg : Settings K} {s : Executor K}
    (hclose : s.finalCloseType cfg = .timeLimit) : s.cumulativeFilled < cfg.totalAmountBase := by
  unfold finalCloseType at hclose
  split at hclose
  next => cases hclose
  next =>
    split at hclose
    next => cases hclose
    next hshort => exact not_le.mp hshort

namespace World

/-- A close type decided on the sum is true and stays true. -/
structure Concluded (cfg : Settings K) (w : World K) : Prop where
  closing : w.executor.status = .shuttingDown → w.executor.closeType = none →
    ∀ orderId, w.Dead orderId
  completed : w.executor.closeType = some .completed → cfg.totalAmountBase ≤ w.executed
  timeLimit : w.executor.closeType = some .timeLimit → w.executor.status ≠ .running ∧
    (∀ orderId, w.Dead orderId) ∧ w.executed < cfg.totalAmountBase

variable {cfg : Settings K}

theorem Concluded.congr {w w' : World K} (h : w.Concluded cfg) (hvenue : w'.venue = w.venue)
    (hstatus : w'.executor.status = w.executor.status)
    (hclose : w'.executor.closeType = w.executor.closeType) : w'.Concluded cfg := by
  obtain ⟨executor, venue, clock⟩ := w'
  dsimp only at hvenue hstatus hclose
  subst hvenue
  refine ⟨?_, ?_, ?_⟩
  · dsimp only
    rw [hstatus, hclose]
    exact h.closing
  · dsimp only
    rw [hclose]
    exact h.completed
  · dsimp only
    rw [hstatus, hclose]
    exact h.timeLimit

theorem Concluded.of_other {w : World K} {closeType : CloseType}
    (hclose : w.executor.closeType = some closeType)
    (hother : closeType ≠ .completed ∧ closeType ≠ .timeLimit) : w.Concluded cfg := by
  refine ⟨fun _ hnone => ?_, fun hcompleted => ?_, fun htimeLimit => ?_⟩
  · cases hclose.symm.trans hnone
  · exact absurd (Option.some.inj (hclose.symm.trans hcompleted)) hother.1
  · exact absurd (Option.some.inj (hclose.symm.trans htimeLimit)) hother.2

end World

namespace Audit

variable {math : MathFunctions K} {cfg : Settings K} {a : Audit K}

theorem Reconciled.dead_of_decides (h : a.Reconciled) (hconcluded : a.world.Concluded cfg)
    {call : Call K} (hdecides : a.world.executor.Decides math cfg call) (orderId : OrderId) :
    a.world.Dead orderId := by
  unfold Executor.Decides at hdecides
  split at hdecides
  next =>
    -- resolving the schedule leaves the tracked orders alone
    obtain ⟨schedule, intervalSeconds, hframe⟩ :=
      a.world.executor.maybeResolveVolumeSchedule_frame math cfg call
    rw [Executor.resolved, hframe] at hdecides
    have hdone := Executor.isDone_of_allDone hdecides
    exact h.dead_of_allDone hdone orderId
  next hdown => exact hconcluded.closing hdown hdecides orderId
  next => exact hdecides.elim

/-- A control task that decides with everything counted decides truly. -/
theorem Reconciled.concluded_controlTask (h : a.Reconciled) (hconcluded : a.world.Concluded cfg)
    {call : Call K} (hfresh : a.world.venue.lookup call.orderId = none)
    (honce : a.CountsOnce math cfg (.controlTask call)) :
    (a.world.perform math cfg (.controlTask call)).Concluded cfg := by
  have hstep := Executor.controlTask_step math cfg call a.world.executor
  cases hstep with
  | kept _ placed status closeType =>
      exact hconcluded.congr (World.accept_of_placed_eq _ placed) status closeType
  | submitted amount running status _ _ placed closeType =>
      have hvenue := World.accept_of_placed_append a.world.venue placed
      have hexecuted : (a.world.perform math cfg (.controlTask call)).executed =
          a.world.executed := by
        rw [World.executed, Book.spentIn, World.perform, hvenue]
        refine (Registry.total_set_of_absent _ hfresh _ _).trans ?_
        rw [if_pos rfl, add_zero]
        rfl
      refine ⟨fun hdown => ?_, fun hclose => ?_, fun hclose => ?_⟩
      · cases hdown.symm.trans status
      · rw [hexecuted]
        exact hconcluded.completed (closeType.symm.trans hclose)
      · exact absurd running (hconcluded.timeLimit (closeType.symm.trans hclose)).1
  | decided decides same placed status closeType =>
      have hsum := h.sum_eq_executed (honce decides)
      have hvenue := World.accept_of_placed_eq a.world.venue placed
      have hexecuted : (a.world.perform math cfg (.controlTask call)).executed =
          a.world.executed := by
        rw [World.executed, World.perform, hvenue]
        rfl
      refine ⟨fun hdown => ?_, fun hclose => ?_, fun hclose => ?_⟩
      · cases hdown.symm.trans status
      · rw [hexecuted, ← hsum]
        exact Executor.finalCloseType_completed (Option.some.inj (closeType.symm.trans hclose))
      · rw [hexecuted, ← hsum]
        refine ⟨fun hrunning => ?_, fun orderId => ?_,
          Executor.finalCloseType_timeLimit (Option.some.inj (closeType.symm.trans hclose))⟩
        · cases hrunning.symm.trans status
        · rw [World.Dead, World.perform, hvenue]
          exact h.dead_of_decides hconcluded decides orderId
  | confirmed _ placed down status known closeType =>
      have hvenue := World.accept_of_placed_eq a.world.venue placed
      have hsame : World.Concluded cfg { a.world with
          executor := { a.world.executor with status := .terminated } } := by
        refine ⟨fun hdown => ?_, hconcluded.completed, fun hclose => ⟨fun hrunning => ?_, ?_⟩⟩
        · cases hdown
        · cases hrunning
        · exact (hconcluded.timeLimit hclose).2
      exact hsame.congr hvenue status closeType

/-- An execution only adds, and only while an order is alive. -/
theorem concluded_execute [IsStrictOrderedRing K] (hconcluded : a.world.Concluded cfg)
    {orderId : OrderId} {amount : K} (hdraws : a.world.venue.Draws (orderId, amount)) :
    (a.world.perform math cfg (.execute orderId amount)).Concluded cfg := by
  obtain ⟨hamount, r, hlook, hlive, -⟩ := hdraws
  have hpart : ¬ ∀ other, a.world.Dead other := by
    intro hdead
    have hover := hdead orderId r hlook
    rw [hlive] at hover
    cases hover
  have hgrows : a.world.executed ≤
      (a.world.perform math cfg (.execute orderId amount)).executed :=
    a.world.venue.spentIn_le_spend orderId hamount
  exact ⟨fun hdown hnone => absurd (hconcluded.closing hdown hnone) hpart,
    fun hclose => (hconcluded.completed hclose).trans hgrows,
    fun hclose => absurd (hconcluded.timeLimit hclose).2.1 hpart⟩

/-- A settlement executes nothing, and brings no order back. -/
theorem concluded_settle (hconcluded : a.world.Concluded cfg) (orderId : OrderId) :
    (a.world.perform math cfg (.settle orderId)).Concluded cfg := by
  have hexecuted : (a.world.perform math cfg (.settle orderId)).executed = a.world.executed :=
    a.world.venue.spentIn_settle orderId
  have hdead : (∀ other, a.world.Dead other) →
      ∀ other, (a.world.perform math cfg (.settle orderId)).Dead other := by
    intro hall other r hr
    rw [World.perform, Book.apply, Registry.lookup_modify] at hr
    split at hr
    next =>
      obtain ⟨_, _, rfl⟩ := Option.map_eq_some_iff.mp hr
      rfl
    next => exact hall other r hr
  refine ⟨fun hdown hnone => hdead (hconcluded.closing hdown hnone), fun hclose => ?_,
    fun hclose => ?_⟩
  · rw [hexecuted]
    exact hconcluded.completed hclose
  · obtain ⟨hnot, hall, hshort⟩ := hconcluded.timeLimit hclose
    rw [hexecuted]
    exact ⟨hnot, hdead hall, hshort⟩

/-- A completion may find every order done, which is when all of them are dead. -/
theorem Reconciled.concluded_completed (h : a.Reconciled) (hconcluded : a.world.Concluded cfg)
    (orderId : OrderId) (amount : K) :
    (a.world.perform math cfg (.completed orderId amount)).Concluded cfg := by
  cases hfind : a.world.executor.findTracked orderId with
  | none =>
      rw [World.perform, a.world.executor.processOrderCompletedEvent_of_untracked hfind]
      exact hconcluded
  | some t =>
      obtain ⟨status, hstatus, hadded⟩ :=
        a.world.executor.processOrderCompletedEvent_of_tracked hfind amount
      rw [World.perform, hadded]
      rcases hstatus with rfl | ⟨rfl, hdone⟩
      · exact hconcluded.congr rfl rfl rfl
      · have htracked := Executor.isDone_of_allDone hdone
        refine ⟨fun _ _ => h.dead_of_allDone htracked, hconcluded.completed,
          fun hclose => ⟨fun hrunning => ?_, (hconcluded.timeLimit hclose).2⟩⟩
        cases hrunning

theorem Reconciled.concluded_perform [IsStrictOrderedRing K] (h : a.Reconciled)
    (hconcluded : a.world.Concluded cfg) (input : Input K) (hlegal : a.Legal input)
    (honce : a.CountsOnce math cfg input) : (a.world.perform math cfg input).Concluded cfg := by
  cases input with
  | controlTask call => exact h.concluded_controlTask hconcluded hlegal.1.2 honce
  | execute orderId amount => exact concluded_execute hconcluded hlegal.1
  | settle orderId => exact concluded_settle hconcluded orderId
  | observe | canceled => exact hconcluded.congr rfl rfl rfl
  | completed orderId amount => exact h.concluded_completed hconcluded orderId amount
  | failed orderId =>
      rw [World.perform]
      rcases a.world.executor.processOrderFailedEvent_cases orderId with hkept | ⟨_, _, _, hdropped⟩
      · rw [hkept]
        exact hconcluded
      · rw [hdropped]
        exact hconcluded.congr rfl rfl rfl
  | earlyStop keepPosition =>
      apply World.Concluded.of_other
      · rfl
      · cases keepPosition <;> simp
  | evaluateMaxRetries now =>
      simp only [World.perform, Executor.evaluateMaxRetries]
      split
      next => exact World.Concluded.of_other rfl ⟨by simp, by simp⟩
      next => exact hconcluded.congr rfl rfl rfl

end Audit

theorem World.start_fresh {math : MathFunctions K} {cfg : Settings K} {clock : K} {w : World K}
    (hstart : World.start math cfg clock = .ok w) :
    (Audit.start w).Reconciled ∧ w.Concluded cfg := by
  obtain ⟨hinit, hvenue⟩ := start_ok hstart
  obtain ⟨hsubmitted, hfilled, hrunning, hclose⟩ := Executor.init_fresh hinit
  constructor
  · refine ⟨?_, ?_, ?_, List.Subset.refl _, ?_⟩
    · simp [Audit.start, hsubmitted]
    · simp [Audit.start, Known, hvenue]
    · simp [Audit.start]
    · rw [Audit.start, hfilled, hvenue]
      rfl
  · refine ⟨fun hdown => ?_, ?_, ?_⟩
    · cases hrunning.symm.trans hdown
    · simp [hclose]
    · simp [hclose]

/-- A run whose steps count each execution once adds up what its orders executed,
and its close type tells whether that was the total. -/
theorem counts_every_execution_once [IsStrictOrderedRing K] (math : MathFunctions K)
    (cfg : Settings K) {clock : K} {w : World K} (hstart : World.start math cfg clock = .ok w)
    (inputs : List (Input K))
    (hlegal : Along (Audit.perform math cfg) Audit.Legal (.start w) inputs)
    (honce : Along (Audit.perform math cfg) (Audit.CountsOnce math cfg) (.start w) inputs) :
    (run (Audit.perform math cfg) (.start w) inputs).Honest cfg := by
  have hinvariant := run_invariant (fun a : Audit K => a.Reconciled ∧ a.world.Concluded cfg)
    (fun a input hboth hinput => ⟨hboth.1.perform input hinput.1 hinput.2,
      hboth.1.concluded_perform hboth.2 input hinput.1 hinput.2⟩)
    (World.start_fresh hstart) (hlegal.both honce)
  obtain ⟨hreconciled, hconcluded⟩ := hinvariant
  refine ⟨fun hended => ?_, hconcluded.completed, fun hclose => (hconcluded.timeLimit hclose).2.2⟩
  apply hreconciled.sum_eq_executed
  intro orderId hknown
  exact (hreconciled.ended orderId (hended orderId hknown).2).2.2

theorem counts_every_execution_once_promptRun :
    (run (Audit.perform riskNeutralMath sampleConfig) (.start sampleStart) promptRun).Honest
      sampleConfig :=
  counts_every_execution_once riskNeutralMath sampleConfig start_sampleConfig promptRun
    (by decide +kernel) (by decide +kernel)

/-- The completion of the first slice is delivered again before the last one is
submitted, which leaves no remainder to trade. -/
def redeliveredRun : List (Input ℚ) :=
  [ .controlTask { now := 0, orderId := "first" },
    .execute "first" (1 / 2), .settle "first", .observe "first" true (1 / 2),
    .completed "first" (1 / 2), .completed "first" (1 / 2),
    .controlTask { now := 10, orderId := "last" },
    .controlTask { now := 11, orderId := "none" } ]

/-- Both slices execute in part and are cancelled. -/
def canceledRun : List (Input ℚ) :=
  [ .controlTask { now := 0, orderId := "first" },
    .execute "first" (1 / 4), .settle "first", .observe "first" true (1 / 4),
    .canceled "first",
    .controlTask { now := 10, orderId := "last" },
    .execute "last" (3 / 4), .settle "last", .observe "last" true (3 / 4),
    .canceled "last",
    .controlTask { now := 11, orderId := "none" } ]

/-- The first run closes as completed with half of the total executed, the
second one as under-filled with all of it. -/
theorem executions_counted_twice_or_never :
    let step := Audit.perform riskNeutralMath sampleConfig
    let redelivered := run step (.start sampleStart) redeliveredRun
    let canceled := run step (.start sampleStart) canceledRun
    World.start riskNeutralMath sampleConfig 0 = .ok sampleStart ∧
      sampleConfig.totalAmountBase = 1 ∧
      (Along step Audit.Legal (.start sampleStart) redeliveredRun ∧ redelivered.AllEnded ∧
        redelivered.world.executor.closeType = some .completed ∧
        redelivered.world.executor.cumulativeFilled = 1 ∧ redelivered.world.executed = 1 / 2) ∧
      Along step Audit.Legal (.start sampleStart) canceledRun ∧ canceled.AllEnded ∧
        canceled.world.executor.closeType = some .timeLimit ∧
        canceled.world.executor.cumulativeFilled = 0 ∧ canceled.world.executed = 1 := by
  refine ⟨start_sampleConfig, rfl, ⟨?_, ?_, ?_, ?_, ?_⟩, ?_, ?_, ?_, ?_, ?_⟩ <;> decide +kernel

end Opms.ACSchedule
