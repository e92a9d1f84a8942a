import Opms.PassiveAggressive.Ownership

/-! # Terminal events of settled orders

A cancel and a failure release the child's current order, a completion leaves
it with its child. So only an order that completed as the current one still
moves its child when a cancel or a failure for it arrives later.
-/

namespace Opms.PassiveAggressive

open Foundation

variable {n : ℕ}

namespace Executor

/-- Nothing of the lifecycle differs: statuses, current orders, retries, and
what was placed. -/
structure SameLifecycle (s t : Executor n) : Prop where
  children : ∀ c, (t.children c).status = (s.children c).status ∧
    (t.children c).trackedOrder = (s.children c).trackedOrder
  currentRetries : t.currentRetries = s.currentRetries
  status : t.status = s.status
  placed : t.placed = s.placed

namespace SameLifecycle

variable {s t u : Executor n}

theorem trans (h : SameLifecycle s t) (h' : SameLifecycle t u) : SameLifecycle s u :=
  ⟨fun c => ⟨(h'.children c).1.trans (h.children c).1, (h'.children c).2.trans (h.children c).2⟩,
    h'.currentRetries.trans h.currentRetries, h'.status.trans h.status,
    h'.placed.trans h.placed⟩

theorem modifyChild (h : SameLifecycle s t) (c : Fin n) {change : ChildSlot → ChildSlot}
    (hstatus : (change (t.children c)).status = (t.children c).status)
    (htracked : (change (t.children c)).trackedOrder = (t.children c).trackedOrder) :
    SameLifecycle s (t.modifyChild c change) :=
  h.trans ⟨fun other => ⟨t.modifyChild_field ChildSlot.status c hstatus other,
    t.modifyChild_field ChildSlot.trackedOrder c htracked other⟩, rfl, rfl, rfl⟩

theorem credit (h : SameLifecycle s t) (orderId : OrderId) :
    SameLifecycle s (t.credit orderId) :=
  h.trans ⟨fun c => ⟨credit_child_field t ChildSlot.status (fun _ _ => rfl) c,
      credit_child_field t ChildSlot.trackedOrder (fun _ _ => rfl) c⟩,
    credit_field t Executor.currentRetries fun _ _ _ _ => rfl,
    credit_field t Executor.status fun _ _ _ _ => rfl, credit_placed t⟩

/-- Noting and crediting a completion summary leaves the lifecycle alone. -/
theorem summary (s : Executor n) (event : OrderCompletedEvent) :
    SameLifecycle s
      (((s.markTerminal event.orderId).noteSummary event).credit event.orderId) := by
  have hnoted : SameLifecycle s ((s.markTerminal event.orderId).noteSummary event) :=
    ⟨fun _ => ⟨rfl, rfl⟩, rfl, rfl, rfl⟩
  exact hnoted.credit event.orderId

end SameLifecycle

/-- No child leaves a terminal status. -/
def FinishedKept (s t : Executor n) : Prop :=
  ∀ c, (s.children c).status.isTerminal = true → (t.children c).status = (s.children c).status

namespace FinishedKept

variable {cfg : Settings} {call : Call} {s t u : Executor n} {c : Fin n}

theorem refl (s : Executor n) : FinishedKept s s := fun _ _ => rfl

theorem trans (h : FinishedKept s t) (h' : FinishedKept t u) : FinishedKept s u := by
  intro c hterminal
  have hstatus := h c hterminal
  rw [h' c (hstatus ▸ hterminal), hstatus]

theorem of_same (h : FinishedKept s t)
    (hstatus : ∀ c, (u.children c).status = (t.children c).status) : FinishedKept s u :=
  fun c hterminal => (hstatus c).trans (h c hterminal)

/-- A child that was still open may get any status. -/
theorem modifyChild (h : FinishedKept s t) (hopen : (s.children c).status.isTerminal = false)
    (change : ChildSlot → ChildSlot) : FinishedKept s (t.modifyChild c change) := by
  intro other hterminal
  have hne : other ≠ c := fun heq => by
    rw [heq, hopen] at hterminal
    cases hterminal
  rw [t.modifyChild_children_ne hne]
  exact h other hterminal

theorem submit (h : FinishedKept s t) (orderType : OrderType) (amount : ℚ) (price : Option ℚ) :
    FinishedKept s (t.submit cfg call c orderType amount price) := by
  refine h.of_same fun other => ?_
  simp only [Executor.submit, Function.update_apply]
  split
  next heq => rw [heq]
  next => rfl

theorem placeLimit (h : FinishedKept s t) (hopen : (s.children c).status.isTerminal = false) :
    FinishedKept s (t.placeLimit cfg call c) := by
  unfold Executor.placeLimit
  split
  next => exact h.modifyChild hopen _
  next =>
    dsimp only
    split
    next => exact h.modifyChild hopen _
    next => exact (h.submit _ _ _).modifyChild hopen _

theorem placeAggressive (h : FinishedKept s t)
    (hopen : (s.children c).status.isTerminal = false) :
    FinishedKept s (t.placeAggressive cfg call c) := by
  have hidle := h.modifyChild hopen fun child => { child with status := .idle }
  unfold Executor.placeAggressive
  dsimp only
  split
  next => exact hidle
  next =>
    split
    next => exact hidle.modifyChild hopen _
    next => exact (hidle.submit _ _ _).modifyChild hopen _

theorem cancelChild (h : FinishedKept s t) (hopen : (s.children c).status.isTerminal = false)
    (reason : CancelReason) : FinishedKept s (t.cancelChild c reason) := by
  unfold Executor.cancelChild
  split
  next => exact h
  next requested _ =>
    have hlog : FinishedKept s { t with cancelRequests := t.cancelRequests ++ [requested] } := h
    exact hlog.modifyChild hopen _

theorem backOff (h : FinishedKept s t) (hopen : (s.children c).status.isTerminal = false) :
    FinishedKept s (t.backOff cfg call c) := by
  have hcount : FinishedKept s { t with currentRetries := t.currentRetries + 1 } := h
  unfold Executor.backOff
  exact hcount.modifyChild hopen _

theorem stepChild (h : FinishedKept s t)
    (hstatus : (t.children c).status = (s.children c).status) :
    FinishedKept s (t.stepChild cfg call c) := by
  unfold Executor.stepChild
  split
  next hidle =>
    have hopen : (s.children c).status.isTerminal = false := by
      rw [← hstatus, hidle]
      rfl
    split
    next => exact h.modifyChild hopen _
    next =>
      split
      next => exact h
      next => exact (h.modifyChild hopen _).placeLimit hopen
  next hactive =>
    have hopen : (s.children c).status.isTerminal = false := by
      rw [← hstatus, hactive]
      rfl
    split
    next => exact h.cancelChild hopen _
    next =>
      split
      next => exact h.cancelChild hopen _
      next => exact h
  next => exact h

theorem controlTask (cfg : Settings) (call : Call) (s : Executor n) :
    FinishedKept s (s.controlTask cfg call) := by
  unfold Executor.controlTask
  split
  next =>
    unfold Executor.step
    dsimp only
    split
    next =>
      split
      next => exact refl s
      next => exact refl s
    next c _ =>
      have hstatus : ∀ other, ((s.advance.startCycle call c).children other).status =
          (s.children other).status :=
        s.advance.modifyChild_field ChildSlot.status c rfl
      exact ((refl s).of_same hstatus).stepChild (hstatus c)
  next =>
    split
    next =>
      split
      next => exact refl s
      next => exact refl s
    next => exact refl s
  next => exact refl s

theorem filled (cfg : Settings) (s : Executor n) (event : OrderFilledEvent) :
    FinishedKept s (s.processOrderFilledEvent cfg event) := by
  unfold Executor.processOrderFilledEvent
  split
  next => exact refl s
  next r _ =>
    split
    next => exact refl s
    next =>
      have hstatus : ∀ c, (((s.noteFill event).credit event.orderId).children c).status =
          (s.children c).status :=
        credit_child_field _ ChildSlot.status fun _ _ => rfl
      have hcredit := (refl s).of_same hstatus
      unfold Executor.cancelOversized
      split
      next => exact hcredit
      next c _ =>
        split
        next hoversized =>
          refine hcredit.cancelChild ?_ _
          rw [← hstatus c, hoversized.1]
          rfl
        next => exact hcredit

end FinishedKept

end Executor

open Executor

/-! ## What such an event changes -/

/-- The order a cancel or a failure reports on. -/
def Op.withdrawnOrder? : Op → Option OrderId
  | .canceled _ event => some event.orderId
  | .failed _ event => some event.orderId
  | _ => none

/-- A terminal event for an order that is terminal already changes nothing of
the lifecycle. -/
def SettledIdle (cfg : Settings) (s : Executor n) (op : Op) : Prop :=
  ∀ orderId ∈ op.endedOrder?, ∀ r, s.orders.lookup orderId = some r → r.terminal = true →
    SameLifecycle s (perform cfg s op)

/-- A cancel or a failure arrives for an order that is terminal already and
still the current order of its child. -/
def Reopens (s : Executor n) (op : Op) : Prop :=
  ∃ orderId ∈ op.withdrawnOrder?, ∃ r ∈ s.orders.lookup orderId, r.terminal = true ∧
    (s.children r.child).trackedOrder = some orderId

instance (s : Executor n) (op : Op) : Decidable (Reopens s op) :=
  inferInstanceAs (Decidable (∃ orderId ∈ op.withdrawnOrder?, ∃ r ∈ s.orders.lookup orderId, _))

section Step

variable {cfg : Settings} {call : Call} {s : Executor n} {op : Op}

theorem placeAggressive_trackedOrder (cfg : Settings) (call : Call) (s : Executor n)
    (c : Fin n) :
    ((s.placeAggressive cfg call c).children c).trackedOrder = (s.children c).trackedOrder ∨
      ((s.placeAggressive cfg call c).children c).trackedOrder = some call.orderId := by
  unfold Executor.placeAggressive
  dsimp only
  split
  next =>
    rw [modifyChild_children_self]
    exact .inl rfl
  next =>
    split
    next =>
      rw [modifyChild_children_self, modifyChild_children_self]
      exact .inl rfl
    next =>
      rw [modifyChild_children_self]
      exact .inr (by simp [submit])

theorem canceled_trackedOrder {event : OrderCancelledEvent} {r : OrderRecord n}
    (hlook : s.orders.lookup event.orderId = some r)
    (htracked : (s.children r.child).trackedOrder = some event.orderId) :
    ((s.processOrderCanceledEvent cfg call event).children r.child).trackedOrder = none ∨
      ((s.processOrderCanceledEvent cfg call event).children r.child).trackedOrder =
        some call.orderId := by
  unfold Executor.processOrderCanceledEvent
  rw [hlook]
  dsimp only
  split
  next hretired => exact absurd (decide_eq_true htracked) hretired
  next =>
    split
    next =>
      rcases placeAggressive_trackedOrder cfg call
        ((s.markTerminal event.orderId).modifyChild r.child fun child =>
          { child with trackedOrder := none }) r.child with hkeep | hnew
      · rw [hkeep, modifyChild_children_self]
        exact .inl rfl
      · exact .inr hnew
    next =>
      split
      next =>
        rw [modifyChild_children_self, modifyChild_children_self]
        exact .inl rfl
      next =>
        rw [modifyChild_children_self, modifyChild_children_self]
        exact .inl rfl

theorem failed_trackedOrder {event : MarketOrderFailureEvent} {r : OrderRecord n}
    (hlook : s.orders.lookup event.orderId = some r)
    (htracked : (s.children r.child).trackedOrder = some event.orderId) :
    ((s.processOrderFailedEvent cfg call event).children r.child).trackedOrder = none ∨
      ((s.processOrderFailedEvent cfg call event).children r.child).trackedOrder =
        some call.orderId := by
  unfold Executor.processOrderFailedEvent
  rw [hlook]
  dsimp only
  split
  next hretired => exact absurd (decide_eq_true htracked) hretired
  next =>
    split
    next => exact .inl (by simp [Executor.closeExecutionBy])
    next =>
      have hreleased : (((s.markTerminal event.orderId).backOff cfg call r.child).children
          r.child).trackedOrder = none := by
        rw [backOff, modifyChild_children_self]
      split
      next =>
        rcases placeAggressive_trackedOrder cfg call
          ((s.markTerminal event.orderId).backOff cfg call r.child) r.child with hkeep | hnew
        · exact .inl (hkeep.trans hreleased)
        · exact .inr hnew
      next => exact .inl hreleased

/-- A child whose current order is withdrawn was open, unless this reopens it. -/
theorem Executor.Tidy.open_of_not_reopens (h : Tidy s) {orderId : OrderId} {r : OrderRecord n}
    (hlook : s.orders.lookup orderId = some r)
    (htracked : (s.children r.child).trackedOrder = some orderId) (hopen : r.terminal = false) :
    (s.children r.child).status.isTerminal = false := by
  have hdone : (s.children r.child).status ≠ .done := fun hdone => by
    rw [(h.terminal_iff hlook htracked).mpr hdone] at hopen
    cases hopen
  have hskipped : (s.children r.child).status ≠ .skipped := fun hskipped => by
    rw [(h r.child).released (.inr hskipped)] at htracked
    cases htracked
  cases hstatus : (s.children r.child).status with
  | done => exact absurd hstatus hdone
  | skipped => exact absurd hstatus hskipped
  | idle => rfl
  | active => rfl
  | canceling => rfl
  | aggressive => rfl

theorem Executor.Tidy.completed_finished (h : Tidy s) (event : OrderCompletedEvent) :
    FinishedKept s (s.processOrderCompletedEvent event) := by
  unfold Executor.processOrderCompletedEvent
  split
  next => exact .refl s
  next r hlook =>
    have hsame := SameLifecycle.summary s event
    have hcredit := (FinishedKept.refl s).of_same fun c => (hsame.children c).1
    dsimp only
    split
    next hactive =>
      intro c hterminal
      by_cases heq : c = r.child
      · subst heq
        rw [modifyChild_children_self]
        -- a skipped child has no current order, so the child was done already
        have htracked := (hsame.children r.child).2.symm.trans (of_decide_eq_true hactive)
        cases hstatus : (s.children r.child).status with
        | done => rfl
        | skipped =>
            rw [(h r.child).released (.inr hstatus)] at htracked
            cases htracked
        | idle => simp [hstatus, ChildStatus.isTerminal] at hterminal
        | active => simp [hstatus, ChildStatus.isTerminal] at hterminal
        | canceling => simp [hstatus, ChildStatus.isTerminal] at hterminal
        | aggressive => simp [hstatus, ChildStatus.isTerminal] at hterminal
      · rw [modifyChild_children_ne _ heq]
        exact hcredit c hterminal
    next => exact hcredit

theorem Executor.Tidy.canceled_finished (h : Tidy s) {event : OrderCancelledEvent}
    (hreopens : ¬ Reopens s (.canceled call event)) :
    FinishedKept s (s.processOrderCanceledEvent cfg call event) := by
  unfold Executor.processOrderCanceledEvent
  split
  next => exact .refl s
  next r hlook =>
    have hmark : FinishedKept s (s.markTerminal event.orderId) := .refl s
    dsimp only
    split
    next => exact hmark
    next hactive =>
      have htracked : (s.children r.child).trackedOrder = some event.orderId :=
        of_decide_eq_true (not_not.mp hactive)
      have hopen := h.open_of_not_reopens hlook htracked <| Bool.eq_false_iff.mpr fun hterminal =>
        hreopens ⟨event.orderId, rfl, r, hlook, hterminal, htracked⟩
      have hclear := hmark.modifyChild hopen fun child => { child with trackedOrder := none }
      split
      next => exact hclear.placeAggressive hopen
      next =>
        split
        next => exact hclear.modifyChild hopen _
        next => exact hclear.modifyChild hopen _

theorem Executor.Tidy.failed_finished (h : Tidy s) {event : MarketOrderFailureEvent}
    (hreopens : ¬ Reopens s (.failed call event)) :
    FinishedKept s (s.processOrderFailedEvent cfg call event) := by
  unfold Executor.processOrderFailedEvent
  split
  next => exact .refl s
  next r hlook =>
    have hmark : FinishedKept s (s.markTerminal event.orderId) := .refl s
    dsimp only
    split
    next => exact hmark
    next hactive =>
      have htracked : (s.children r.child).trackedOrder = some event.orderId :=
        of_decide_eq_true (not_not.mp hactive)
      have hopen := h.open_of_not_reopens hlook htracked <| Bool.eq_false_iff.mpr fun hterminal =>
        hreopens ⟨event.orderId, rfl, r, hlook, hterminal, htracked⟩
      split
      next =>
        have hskip := hmark.modifyChild hopen fun child =>
          { child with trackedOrder := none, status := .skipped }
        exact hskip
      next =>
        have hback : FinishedKept s ((s.markTerminal event.orderId).backOff cfg call r.child) :=
          hmark.backOff hopen
        split
        next => exact hback.placeAggressive hopen
        next => exact hback

theorem Executor.Tidy.perform_finished (h : Tidy s) (hreopens : ¬ Reopens s op) :
    FinishedKept s (PassiveAggressive.perform cfg s op) := by
  cases op with
  | controlTask call => exact .controlTask cfg call s
  | filled event => exact .filled cfg s event
  | completed event => exact h.completed_finished event
  | canceled call event => exact h.canceled_finished hreopens
  | failed call event => exact h.failed_finished hreopens
  | earlyStop call keepPosition => exact .refl s
  | evaluateMaxRetries call =>
      unfold PassiveAggressive.perform Executor.evaluateMaxRetries
      dsimp only
      split
      next => exact .refl s
      next => exact .refl s

/-- A settled order that completes again leaves the lifecycle alone. -/
theorem Executor.Tidy.completed_idle (h : Tidy s) {event : OrderCompletedEvent}
    {r : OrderRecord n} (hlook : s.orders.lookup event.orderId = some r)
    (hterminal : r.terminal = true) : SameLifecycle s (s.processOrderCompletedEvent event) := by
  have hsame := SameLifecycle.summary s event
  unfold Executor.processOrderCompletedEvent
  rw [hlook]
  dsimp only
  split
  next hactive =>
    have htracked := (hsame.children r.child).2.symm.trans (of_decide_eq_true hactive)
    have hdone := (h.terminal_iff hlook htracked).mp hterminal
    exact hsame.modifyChild r.child ((hsame.children r.child).1.trans hdone).symm rfl
  next => exact hsame

theorem Executor.Tidy.settled_idle (h : Tidy s) (hreopens : ¬ Reopens s op) :
    SettledIdle cfg s op := by
  intro orderId hended r hlook hterminal
  have hretired : orderId ∈ op.withdrawnOrder? →
      ¬ (s.markTerminal orderId).isActive r orderId = true := fun hwithdrawn hactive =>
    hreopens ⟨orderId, hwithdrawn, r, hlook, hterminal, of_decide_eq_true hactive⟩
  have hmark : SameLifecycle s (s.markTerminal orderId) := ⟨fun _ => ⟨rfl, rfl⟩, rfl, rfl, rfl⟩
  cases op with
  | completed event =>
      obtain rfl := Option.some.inj hended
      exact h.completed_idle hlook hterminal
  | canceled call event =>
      obtain rfl := Option.some.inj hended
      unfold PassiveAggressive.perform Executor.processOrderCanceledEvent
      simp only [hlook]
      rw [if_pos (hretired rfl)]
      exact hmark
  | failed call event =>
      obtain rfl := Option.some.inj hended
      unfold PassiveAggressive.perform Executor.processOrderFailedEvent
      simp only [hlook]
      rw [if_pos (hretired rfl)]
      exact hmark
  | controlTask call => cases hended
  | filled event => cases hended
  | earlyStop call keepPosition => cases hended
  | evaluateMaxRetries call => cases hended

/-- An event that reopens takes the settled order away from its child. -/
theorem not_settledIdle_of_reopens (hfresh : FreshId s op) (hreopens : Reopens s op) :
    ¬ SettledIdle cfg s op := by
  obtain ⟨orderId, hwithdrawn, r, hlook, hterminal, htracked⟩ := hreopens
  have hmoved : ∀ {call : Call} {t : Executor n}, s.orders.lookup call.orderId = none →
      ((t.children r.child).trackedOrder = none ∨
        (t.children r.child).trackedOrder = some call.orderId) → ¬ SameLifecycle s t := by
    intro call t habsent hnext hsame
    have hkeep := (hsame.children r.child).2.trans htracked
    rcases hnext with hnone | hnew
    · rw [hnone] at hkeep
      cases hkeep
    · rw [hnew] at hkeep
      rw [Option.some.inj hkeep, hlook] at habsent
      cases habsent
  intro hidle
  cases op with
  | canceled call event =>
      obtain rfl := Option.some.inj hwithdrawn
      exact hmoved (hfresh.lookup rfl) (canceled_trackedOrder hlook htracked)
        (hidle event.orderId rfl r hlook hterminal)
  | failed call event =>
      obtain rfl := Option.some.inj hwithdrawn
      exact hmoved (hfresh.lookup rfl) (failed_trackedOrder hlook htracked)
        (hidle event.orderId rfl r hlook hterminal)
  | controlTask call => cases hwithdrawn
  | filled event => cases hwithdrawn
  | completed event => cases hwithdrawn
  | earlyStop call keepPosition => cases hwithdrawn
  | evaluateMaxRetries call => cases hwithdrawn

theorem Executor.Tidy.settledIdle_iff (h : Tidy s) (hfresh : FreshId s op) :
    SettledIdle cfg s op ↔ ¬ Reopens s op :=
  ⟨fun hidle hreopens => not_settledIdle_of_reopens hfresh hreopens hidle, h.settled_idle⟩

end Step

/-- Terminal events of settled orders change nothing of the lifecycle, and no
child leaves a terminal status, iff no cancel or failure reopens a child. -/
theorem settled_events_idle_iff (cfg : Settings) (slots : List ChildSlot)
    (hslots : buildChildSlots cfg = .ok slots) (ops : List Op)
    (hfresh : Along (perform cfg) FreshId (init slots) ops) :
    (Along (perform cfg) (SettledIdle cfg) (init slots) ops ∧
        ∀ before middle after, ops = before ++ middle ++ after →
          FinishedKept (run (perform cfg) (init slots) before)
            (run (perform cfg) (init slots) (before ++ middle))) ↔
      Along (perform cfg) (fun s op => ¬ Reopens s op) (init slots) ops := by
  have htidy : Tidy (init slots) := .init hslots
  have hidle : Along (perform cfg) (SettledIdle cfg) (init slots) ops ↔
      Along (perform cfg) (fun s op => ¬ Reopens s op) (init slots) ops :=
    Along.congr_of_invariant Tidy (fun _ _ htidy hid => htidy.settledIdle_iff hid)
      (fun _ _ htidy hid _ => htidy.perform hid) htidy hfresh
  have hfinished : Along (perform cfg)
      (fun s op => ¬ Reopens s op ∧ FinishedKept s (perform cfg s op)) (init slots) ops ↔
        Along (perform cfg) (fun s op => ¬ Reopens s op) (init slots) ops :=
    Along.congr_of_invariant Tidy
      (fun _ _ htidy _ => and_iff_left_of_imp fun hreopens => htidy.perform_finished hreopens)
      (fun _ _ htidy hid _ => htidy.perform hid) htidy hfresh
  refine ⟨fun h => hidle.mp h.1, fun h => ⟨hidle.mpr h, ?_⟩⟩
  rw [Along.iff_ordered FinishedKept.refl FinishedKept.trans]
  exact (hfinished.mpr h).mono fun _ _ hstep => hstep.2

/-- A refresh cancel loses the race: the order completes, and is reported twice. -/
def replayedRun : List Op :=
  [ .controlTask { now := 0, bestBid := some 100, orderId := "limit" },
    .controlTask { now := 2, bestBid := some 100, orderId := "unused" },
    .completed { orderId := "limit", baseAssetAmount := 1 },
    .completed { orderId := "limit", baseAssetAmount := 1 },
    .controlTask { now := 3, bestBid := some 100, orderId := "unused" } ]

theorem settled_events_idle_iff_replayedRun :
    Along (perform sampleConfig) (SettledIdle sampleConfig) (init [{ target := 1 }])
        replayedRun ∧
      ∀ before middle after, replayedRun = before ++ middle ++ after →
        FinishedKept (run (perform sampleConfig) (init [{ target := 1 }]) before)
          (run (perform sampleConfig) (init [{ target := 1 }]) (before ++ middle)) :=
  (settled_events_idle_iff sampleConfig [{ target := 1 }] (by decide +kernel) replayedRun
    (by decide +kernel)).mpr (by decide +kernel)

/-- The cancel is reported after the completion of the same order. -/
def crossedRun : List Op :=
  [ .controlTask { now := 0, bestBid := some 100, orderId := "limit" },
    .controlTask { now := 2, bestBid := some 100, orderId := "unused" },
    .completed { orderId := "limit", baseAssetAmount := 1 },
    .canceled { now := 3, orderId := "unused" } { orderId := "limit" } ]

theorem late_cancel_reopens :
    buildChildSlots sampleConfig = .ok [{ target := 1 }] ∧
      Along (perform sampleConfig) FreshId (init [{ target := 1 }]) crossedRun ∧
      ¬ (Along (perform sampleConfig) (SettledIdle sampleConfig) (init [{ target := 1 }])
          crossedRun ∧
        ∀ before middle after, crossedRun = before ++ middle ++ after →
          FinishedKept (run (perform sampleConfig) (init [{ target := 1 }]) before)
            (run (perform sampleConfig) (init [{ target := 1 }]) (before ++ middle))) := by
  refine ⟨by decide +kernel, by decide +kernel, fun h => ?_⟩
  have hkept := h.2 (crossedRun.take 3) (crossedRun.drop 3) [] (by simp)
  have hdone := hkept ⟨0, by decide⟩ (by decide +kernel)
  revert hdone
  decide +kernel

end Opms.PassiveAggressive
