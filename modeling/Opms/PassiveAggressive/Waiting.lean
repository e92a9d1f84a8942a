import Opms.PassiveAggressive.Terminal
import Opms.PassiveAggressive.Ledger

/-! # Waiting for an order that is alive

A child in the book, in a cancel or crossing does nothing until an event of its
order arrives. It always has such an order, of its own and without a terminal
event so far, and that event takes the child out of its wait or gives it the
next order.
-/

namespace Opms.PassiveAggressive

open Foundation

variable {n : ℕ}

/-- A child that waits has an order to wait for. -/
def Attached (child : ChildSlot) : Prop :=
  child.status.isWaiting = true → child.trackedOrder ≠ none

theorem Attached.of_free {child : ChildSlot} (hfree : child.status.isWaiting = false) :
    Attached child := by
  intro hwaiting
  rw [hfree] at hwaiting
  cases hwaiting

theorem Attached.of_tracked {child : ChildSlot} {orderId : OrderId}
    (htracked : child.trackedOrder = some orderId) : Attached child := by
  intro _ hnone
  rw [htracked] at hnone
  cases hnone

namespace Executor

def AllAttached (s : Executor n) : Prop := ∀ c, Attached (s.children c)

/-- All children but one are attached. -/
def AttachedExcept (s : Executor n) (c : Fin n) : Prop :=
  ∀ other, other ≠ c → Attached (s.children other)

variable {cfg : Settings} {call : Call} {s t : Executor n} {c : Fin n}

theorem AllAttached.except (h : AllAttached s) (c : Fin n) : AttachedExcept s c :=
  fun other _ => h other

theorem AllAttached.of_same (h : AllAttached s) (hsame : SameLifecycle s t) : AllAttached t := by
  intro c hwaiting
  rw [(hsame.children c).1] at hwaiting
  rw [(hsame.children c).2]
  exact h c hwaiting

theorem AttachedExcept.modifyChild (h : AttachedExcept s c) {change : ChildSlot → ChildSlot}
    (hchild : Attached (change (s.children c))) : AllAttached (s.modifyChild c change) := by
  intro other
  by_cases heq : other = c
  · subst heq
    rw [modifyChild_children_self]
    exact hchild
  · rw [s.modifyChild_children_ne heq]
    exact h other heq

theorem AttachedExcept.modifyChild_except (h : AttachedExcept s c)
    (change : ChildSlot → ChildSlot) : AttachedExcept (s.modifyChild c change) c := by
  intro other hne
  rw [s.modifyChild_children_ne hne]
  exact h other hne

/-- A placed order is the one its child waits for. -/
theorem AttachedExcept.place (h : AttachedExcept s c) (orderType : OrderType) (amount : ℚ)
    (price : Option ℚ) {change : ChildSlot → ChildSlot}
    (htracked : ∀ child, (change child).trackedOrder = child.trackedOrder) :
    AllAttached ((s.submit cfg call c orderType amount price).modifyChild c change) := by
  have hplaced : AttachedExcept (s.submit cfg call c orderType amount price) c := by
    intro other hne
    simp only [submit, Function.update_of_ne hne]
    exact h other hne
  apply hplaced.modifyChild
  have hnew : ((s.submit cfg call c orderType amount price).children c).trackedOrder =
      some call.orderId := by
    simp only [submit, Function.update_self]
  exact .of_tracked ((htracked _).trans hnew)

theorem AllAttached.placeLimit (h : AllAttached s) (hidle : (s.children c).status = .idle) :
    AllAttached (s.placeLimit cfg call c) := by
  unfold Executor.placeLimit
  split
  next => exact (h.except c).modifyChild (.of_free (by simp [hidle, ChildStatus.isWaiting]))
  next =>
    dsimp only
    split
    next => exact (h.except c).modifyChild (.of_free rfl)
    next => exact (h.except c).place _ _ _ fun _ => rfl

theorem AttachedExcept.placeAggressive (h : AttachedExcept s c) :
    AllAttached (s.placeAggressive cfg call c) := by
  have hidle := h.modifyChild_except fun child => { child with status := .idle }
  unfold Executor.placeAggressive
  dsimp only
  split
  next => exact h.modifyChild (.of_free rfl)
  next =>
    split
    next => exact hidle.modifyChild (.of_free rfl)
    next => exact hidle.place _ _ _ fun _ => rfl

theorem AllAttached.cancelChild (h : AllAttached s) (reason : CancelReason) :
    AllAttached (s.cancelChild c reason) := by
  unfold Executor.cancelChild
  split
  next => exact h
  next requested hrequested =>
    have hlog : AllAttached { s with cancelRequests := s.cancelRequests ++ [requested] } := h
    apply (hlog.except c).modifyChild
    exact .of_tracked (Option.filter_eq_some_iff.mp hrequested).1

theorem AllAttached.stepChild (h : AllAttached s) : AllAttached (s.stepChild cfg call c) := by
  unfold Executor.stepChild
  split
  next hidle =>
    split
    next => exact (h.except c).modifyChild (.of_free rfl)
    next =>
      split
      next => exact h
      next =>
        have hready : AllAttached (s.modifyChild c fun child => { child with retryAt := none }) :=
          (h.except c).modifyChild (h c)
        apply hready.placeLimit
        rw [modifyChild_children_self]
        exact hidle
  next =>
    split
    next => exact h.cancelChild _
    next =>
      split
      next => exact h.cancelChild _
      next => exact h
  next => exact h

theorem AllAttached.controlTask (h : AllAttached s) : AllAttached (s.controlTask cfg call) := by
  unfold Executor.controlTask
  split
  next =>
    unfold Executor.step
    dsimp only
    split
    next =>
      split
      next => exact h
      next => exact h
    next c _ =>
      have hstart : AllAttached (s.advance.startCycle call c) :=
        AttachedExcept.modifyChild (s := s.advance) (fun other _ => h other) (h c)
      exact hstart.stepChild
  next =>
    split
    next =>
      split
      next => exact h
      next => exact h
    next => exact h
  next => exact h

theorem AllAttached.filled (h : AllAttached s) (event : OrderFilledEvent) :
    AllAttached (s.processOrderFilledEvent cfg event) := by
  unfold Executor.processOrderFilledEvent
  split
  next => exact h
  next r _ =>
    split
    next => exact h
    next =>
      have hnoted : SameLifecycle s (s.noteFill event) := ⟨fun _ => ⟨rfl, rfl⟩, rfl, rfl, rfl⟩
      have hcredited := h.of_same (hnoted.credit event.orderId)
      unfold Executor.cancelOversized
      split
      next => exact hcredited
      next =>
        split
        next => exact hcredited.cancelChild _
        next => exact hcredited

theorem AllAttached.completed (h : AllAttached s) (event : OrderCompletedEvent) :
    AllAttached (s.processOrderCompletedEvent event) := by
  unfold Executor.processOrderCompletedEvent
  split
  next => exact h
  next r _ =>
    have hcredited := h.of_same (.summary s event)
    dsimp only
    split
    next => exact (hcredited.except r.child).modifyChild (.of_free rfl)
    next => exact hcredited

theorem AllAttached.canceled (h : AllAttached s) (event : OrderCancelledEvent) :
    AllAttached (s.processOrderCanceledEvent cfg call event) := by
  unfold Executor.processOrderCanceledEvent
  split
  next => exact h
  next r _ =>
    have hmark : AllAttached (s.markTerminal event.orderId) := h
    -- the child has lost its order; each way on gives it a status to match
    have hclear := (hmark.except r.child).modifyChild_except
      fun child => { child with trackedOrder := none }
    dsimp only
    split
    next => exact hmark
    next =>
      split
      next => exact hclear.placeAggressive
      next =>
        split
        next => exact hclear.modifyChild (.of_free rfl)
        next => exact hclear.modifyChild (.of_free rfl)

theorem AllAttached.failed (h : AllAttached s) (event : MarketOrderFailureEvent) :
    AllAttached (s.processOrderFailedEvent cfg call event) := by
  unfold Executor.processOrderFailedEvent
  split
  next => exact h
  next r _ =>
    have hmark : AllAttached (s.markTerminal event.orderId) := h
    dsimp only
    split
    next => exact hmark
    next =>
      split
      next =>
        have hskip : AllAttached ((s.markTerminal event.orderId).modifyChild r.child
            fun child => { child with trackedOrder := none, status := .skipped }) :=
          (hmark.except r.child).modifyChild (.of_free rfl)
        exact hskip
      next =>
        have hcount : AttachedExcept { s.markTerminal event.orderId with
            currentRetries := s.currentRetries + 1 } r.child := hmark.except r.child
        have hback : AllAttached ((s.markTerminal event.orderId).backOff cfg call r.child) := by
          unfold Executor.backOff
          exact hcount.modifyChild (.of_free rfl)
        split
        next => exact (hback.except r.child).placeAggressive
        next => exact hback

theorem AllAttached.perform (h : AllAttached s) (cfg : Settings) (op : Op) :
    AllAttached (PassiveAggressive.perform cfg s op) := by
  cases op with
  | controlTask call => exact h.controlTask
  | filled event => exact h.filled event
  | completed event => exact h.completed event
  | canceled call event => exact h.canceled event
  | failed call event => exact h.failed event
  | earlyStop call keepPosition => exact h
  | evaluateMaxRetries call =>
      unfold PassiveAggressive.perform Executor.evaluateMaxRetries
      dsimp only
      split
      next => exact h
      next => exact h

theorem AllAttached.init {slots : List ChildSlot} (hslots : buildChildSlots cfg = .ok slots) :
    AllAttached (init slots) := by
  intro c
  have hfresh := (buildChildSlots_fresh hslots (List.get_mem slots c)).1
  apply Attached.of_free
  change (slots.get c).status.isWaiting = false
  rw [hfresh]
  rfl

/-- The child waits for an order of its own that had no terminal event. -/
structure WaitsOn (s : Executor n) (c : Fin n) (orderId : OrderId) : Prop where
  tracked : (s.children c).trackedOrder = some orderId
  record : ∃ r, s.orders.lookup orderId = some r ∧ r.child = c ∧ r.terminal = false

theorem AllAttached.waitsOn (h : AllAttached s) (htidy : Tidy s)
    (hwaiting : (s.children c).status.isWaiting = true) : ∃ orderId, s.WaitsOn c orderId := by
  cases htracked : (s.children c).trackedOrder with
  | none => exact absurd htracked (h c hwaiting)
  | some orderId =>
      obtain ⟨r, hlook, howner, hsettled⟩ := (htidy c).record orderId htracked
      refine ⟨orderId, htracked, r, hlook, howner, Bool.eq_false_iff.mpr fun hterminal => ?_⟩
      rw [hsettled.mp hterminal] at hwaiting
      cases hwaiting

end Executor

open Executor

/-! ## What the terminal event does -/

section Ended

variable (cfg : Settings) {s : Executor n} {c : Fin n} {op : Op} {orderId : OrderId}

theorem completed_status {event : OrderCompletedEvent} {r : OrderRecord n}
    (hlook : s.orders.lookup event.orderId = some r)
    (htracked : (s.children r.child).trackedOrder = some event.orderId) :
    ((s.processOrderCompletedEvent event).children r.child).status = .done := by
  unfold Executor.processOrderCompletedEvent
  rw [hlook]
  dsimp only
  split
  next => rw [modifyChild_children_self]
  next hretired =>
    have hsame := (SameLifecycle.summary s event).children r.child
    exact absurd (decide_eq_true (hsame.2.trans htracked)) hretired

/-- The terminal event ends the wait, or leaves the child without its order or
with the one placed during the event. -/
theorem Executor.WaitsOn.ended (h : s.WaitsOn c orderId) (hended : orderId ∈ op.endedOrder?) :
    ((perform cfg s op).children c).status.isWaiting = false ∨
      ((perform cfg s op).children c).trackedOrder = none ∨
      ∃ call, op.call? = some call ∧
        ((perform cfg s op).children c).trackedOrder = some call.orderId := by
  obtain ⟨r, hlook, rfl, _⟩ := h.record
  cases op with
  | completed event =>
      obtain rfl := Option.some.inj hended
      apply Or.inl
      change ((s.processOrderCompletedEvent event).children r.child).status.isWaiting = false
      rw [completed_status hlook h.tracked]
      rfl
  | canceled call event =>
      obtain rfl := Option.some.inj hended
      exact .inr ((canceled_trackedOrder hlook h.tracked).imp id fun hnext => ⟨call, rfl, hnext⟩)
  | failed call event =>
      obtain rfl := Option.some.inj hended
      exact .inr ((failed_trackedOrder hlook h.tracked).imp id fun hnext => ⟨call, rfl, hnext⟩)
  | controlTask call => cases hended
  | filled event => cases hended
  | earlyStop call keepPosition => cases hended
  | evaluateMaxRetries call => cases hended

/-- The event for the order that a child waits for frees the child, or hands it
another order that is alive. -/
theorem Executor.WaitsOn.moves (h : s.WaitsOn c orderId) (htidy : Tidy s)
    (hattached : AllAttached s) (hfresh : FreshId s op) (hended : orderId ∈ op.endedOrder?) :
    ((perform cfg s op).children c).status.isWaiting = false ∨
      ∃ next, next ≠ orderId ∧ (perform cfg s op).WaitsOn c next := by
  cases hwaiting : ((perform cfg s op).children c).status.isWaiting with
  | false => exact .inl rfl
  | true =>
      obtain ⟨next, hnext⟩ := (hattached.perform cfg op).waitsOn
        (htidy.perform hfresh) hwaiting
      refine .inr ⟨next, ?_, hnext⟩
      rintro rfl
      obtain ⟨r, hlook, _⟩ := h.record
      rcases h.ended cfg hended with hfree | hnone | ⟨call, hcall, hplaced⟩
      · rw [hfree] at hwaiting
        cases hwaiting
      · rw [hnext.tracked] at hnone
        cases hnone
      · rw [hnext.tracked] at hplaced
        obtain rfl := Option.some.inj hplaced
        rw [hfresh.lookup hcall] at hlook
        cases hlook

end Ended

/-! ## What the venue still owes -/

/-- The order had its terminal event. -/
def Executor.Ended (s : Executor n) (orderId : OrderId) : Prop :=
  ∃ r, s.orders.lookup orderId = some r ∧ r.terminal = true

section Owed

variable (cfg : Settings) {s : Executor n} {op : Op} {orderId : OrderId}

theorem RecordStep.terminal {r : OrderRecord n} {after : Option (OrderRecord n)}
    (h : RecordStep orderId op (some r) after) (hterminal : r.terminal = true) :
    ∃ r', after = some r' ∧ r'.terminal = true := by
  cases h with
  | kept => exact ⟨r, rfl, hterminal⟩
  | settled => exact ⟨_, rfl, rfl⟩
  | filled => exact ⟨_, rfl, hterminal⟩
  | completed => exact ⟨_, rfl, rfl⟩

theorem Executor.Ended.perform (h : s.Ended orderId) (hfresh : FreshId s op) :
    (perform cfg s op).Ended orderId := by
  obtain ⟨r, hlook, hterminal⟩ := h
  have hstep := perform_recordStep cfg orderId hfresh
  rw [hlook] at hstep
  exact hstep.terminal hterminal

/-- Settling a known order and placing at most one more leaves it settled. -/
theorem ended_of_submits {t : Executor n} {call : Call} {r : OrderRecord n}
    (hsubmits : Submits cfg call (s.markTerminal orderId) t)
    (hfresh : s.orders.lookup call.orderId = none) (hlook : s.orders.lookup orderId = some r) :
    t.Ended orderId := by
  have hmarked : (s.markTerminal orderId).orders.lookup orderId =
      some { r with terminal := true } := by
    rw [lookup_markTerminal, if_pos rfl, hlook]
    rfl
  rcases lookup_of_submits cfg orderId hsubmits (lookup_markTerminal_of_absent orderId hfresh) with
    heq | ⟨habsent, _⟩
  · exact ⟨_, heq.trans hmarked, rfl⟩
  · rw [hmarked] at habsent
    cases habsent

/-- A terminal event of a known order is remembered. -/
theorem ended_of_event (hfresh : FreshId s op) (hended : orderId ∈ op.endedOrder?)
    {r : OrderRecord n} (hlook : s.orders.lookup orderId = some r) :
    (perform cfg s op).Ended orderId := by
  cases op with
  | completed event =>
      obtain rfl := Option.some.inj hended
      rcases processOrderCompletedEvent_cases s event with ⟨_, habsent⟩ | ⟨r', hlook', hframe⟩
      · rw [hlook] at habsent
        cases habsent
      · have hsummary := s.lookup_noteSummary_credit event hlook'
        rw [← hframe.orders] at hsummary
        exact ⟨_, hsummary, rfl⟩
  | canceled call event =>
      obtain rfl := Option.some.inj hended
      exact ended_of_submits cfg (processOrderCanceledEvent_submits cfg call s event)
        (hfresh.lookup rfl) hlook
  | failed call event =>
      obtain rfl := Option.some.inj hended
      exact ended_of_submits cfg (processOrderFailedEvent_submits cfg call s event)
        (hfresh.lookup rfl) hlook
  | controlTask call => cases hended
  | filled event => cases hended
  | earlyStop call keepPosition => cases hended
  | evaluateMaxRetries call => cases hended

/-- After a run, the terminal events of a live order all came before it was
placed, so none was for it. -/
theorem owed_of_live {ops : List Op} (hfresh : Along (perform cfg) FreshId s ops)
    {r : OrderRecord n} (hlook : (run (perform cfg) s ops).orders.lookup orderId = some r)
    (hlive : r.terminal = false) {before after : List Op} (hops : ops = before ++ op :: after)
    (hended : orderId ∈ op.endedOrder?) :
    (run (perform cfg) s before).orders.lookup orderId = none := by
  subst hops
  obtain ⟨_, hhead, hrest⟩ := Along.append_iff.mp hfresh
  cases hknown : (run (perform cfg) s before).orders.lookup orderId with
  | none => rfl
  | some known =>
      obtain ⟨r', hlook', hterminal⟩ := run_invariant (fun t => t.Ended orderId)
        (fun _ _ h hid => h.perform cfg hid) (ended_of_event cfg hhead hended hknown) hrest
      rw [run_append, run_cons, hlook'] at hlook
      obtain rfl := Option.some.inj hlook
      rw [hterminal] at hlive
      cases hlive

end Owed

/-! ## The tick that only waits -/

theorem advanceIdx_open (s : Executor n) {fuel idx : ℕ} (hfuel : n - idx ≤ fuel)
    (hlt : s.advanceIdx fuel idx < n) :
    (s.children ⟨s.advanceIdx fuel idx, hlt⟩).status.isTerminal = false := by
  induction fuel generalizing idx with
  | zero =>
      simp only [advanceIdx] at hlt
      omega
  | succ fuel ih =>
      by_cases hidx : idx < n
      · cases hterminal : (s.children ⟨idx, hidx⟩).status.isTerminal with
        | true =>
            have hnext : s.advanceIdx (fuel + 1) idx = s.advanceIdx fuel (idx + 1) := by
              rw [advanceIdx, dif_pos hidx, if_pos hterminal]
            simp only [hnext] at hlt ⊢
            exact ih (by omega) hlt
        | false =>
            have hhere : s.advanceIdx (fuel + 1) idx = idx := by
              rw [advanceIdx, dif_pos hidx, hterminal]
              rfl
            simp only [hhere]
            exact hterminal
      · have hhere : s.advanceIdx (fuel + 1) idx = idx := by
          rw [advanceIdx, dif_neg hidx]
        rw [hhere] at hlt
        exact absurd hlt hidx

/-- The child that a tick turns to is not through. -/
theorem activeChild_open {s : Executor n} {c : Fin n} (hactive : s.advance.activeChild = some c) :
    (s.children c).status.isTerminal = false := by
  simp only [activeChild] at hactive
  split at hactive
  next hlt =>
    obtain rfl := Option.some.inj hactive
    exact advanceIdx_open s le_rfl hlt
  next => cases hactive

/-- A running tick that changes nothing of the lifecycle stands at an idle child,
which waits for its clock or for a price, or some order is still alive. -/
theorem step_waits {cfg : Settings} {call : Call} {s : Executor n} (htidy : Tidy s)
    (hattached : AllAttached s) (hrunning : s.status = .running)
    (hsame : SameLifecycle s (s.step cfg call)) :
    (∃ c, s.advance.activeChild = some c ∧ (s.children c).status = .idle) ∨
      ∃ orderId r, s.orders.lookup orderId = some r ∧ r.terminal = false := by
  cases hactive : s.advance.activeChild with
  | none =>
      apply Or.inr
      by_contra hsettled
      have hzero : s.advance.outstanding = 0 := by
        rw [outstanding_eq_zero_iff]
        intro orderId r hlook
        apply Or.inl
        by_contra hopen
        exact hsettled ⟨orderId, r, hlook, by simpa using hopen⟩
      have hclosed : (s.step cfg call).status = .terminated := by
        unfold Executor.step
        simp only [hactive, hzero]
        rfl
      rw [hsame.status, hrunning] at hclosed
      cases hclosed
  | some c =>
      have hopen := activeChild_open hactive
      cases hwaiting : (s.children c).status.isWaiting with
      | true =>
          obtain ⟨orderId, hwaits⟩ := hattached.waitsOn htidy hwaiting
          obtain ⟨r, hlook, _, hlive⟩ := hwaits.record
          exact .inr ⟨orderId, r, hlook, hlive⟩
      | false =>
          refine .inl ⟨c, rfl, ?_⟩
          revert hopen hwaiting
          cases (s.children c).status <;> simp [ChildStatus.isTerminal, ChildStatus.isWaiting]

/-- After any run, a child that waits has an order of its own whose terminal
event is still owed, and that event frees the child or hands it another live
order; a tick that only waits for events leaves some order alive. -/
theorem waits_on_live_orders (cfg : Settings) (slots : List ChildSlot)
    (hslots : buildChildSlots cfg = .ok slots) (ops : List Op)
    (hfresh : Along (perform cfg) FreshId (init slots) ops) :
    let s := run (perform cfg) (init slots) ops
    (∀ c, (s.children c).status.isWaiting = true → ∃ orderId, s.WaitsOn c orderId ∧
      (∀ before op after, ops = before ++ op :: after → orderId ∈ op.endedOrder? →
        (run (perform cfg) (init slots) before).orders.lookup orderId = none) ∧
      ∀ op, FreshId s op → orderId ∈ op.endedOrder? →
        ((perform cfg s op).children c).status.isWaiting = false ∨
          ∃ next, next ≠ orderId ∧ (perform cfg s op).WaitsOn c next) ∧
    ∀ call, s.status = .running → SameLifecycle s (s.step cfg call) →
      (∃ c, s.advance.activeChild = some c ∧ (s.children c).status = .idle) ∨
        ∃ orderId r, s.orders.lookup orderId = some r ∧ r.terminal = false := by
  intro s
  have htidy : Tidy s := run_invariant Tidy (fun _ _ h hid => h.perform hid) (.init hslots) hfresh
  have hattached : AllAttached s := run_invariant_always AllAttached
    (fun _ op h => h.perform cfg op) (.init hslots) ops
  refine ⟨fun c hwaiting => ?_, fun call => step_waits htidy hattached⟩
  obtain ⟨orderId, hwaits⟩ := hattached.waitsOn htidy hwaiting
  obtain ⟨r, hlook, _, hlive⟩ := hwaits.record
  refine ⟨orderId, hwaits, ?_, fun op hid => hwaits.moves cfg htidy hattached hid⟩
  intro before op after hops
  exact owed_of_live cfg hfresh hlook hlive hops

/-- The first order of the replayed run is owed its terminal event. -/
theorem waits_on_live_orders_replayedRun :
    let s := run (perform sampleConfig) (init [{ target := 1 }]) (replayedRun.take 2)
    ∃ orderId, s.WaitsOn ⟨0, by decide⟩ orderId :=
  have h := (waits_on_live_orders sampleConfig [{ target := 1 }] (by decide +kernel)
    (replayedRun.take 2) (by decide +kernel)).1 ⟨0, by decide⟩ (by decide +kernel)
  ⟨h.choose, h.choose_spec.1⟩

end Opms.PassiveAggressive
