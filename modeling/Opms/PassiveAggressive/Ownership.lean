import Opms.PassiveAggressive.Settlement

/-! # Who owns an order

A child's current order has a record of that child, which is settled exactly
when the child is done. Only the child at the index rests in the book or waits
for a cancel. Every operation keeps both.
-/

namespace Opms.PassiveAggressive

open Foundation

variable {n : ℕ}

/-- The child's current order is its own, and its status fits it. An active
child has one. -/
structure Orderly (orders : Registry OrderId (OrderRecord n)) (childIdx : ℕ) (c : Fin n)
    (child : ChildSlot) : Prop where
  record : ∀ orderId, child.trackedOrder = some orderId →
    ∃ r, orders.lookup orderId = some r ∧ r.child = c ∧ (r.terminal = true ↔ child.status = .done)
  released : child.status = .idle ∨ child.status = .skipped → child.trackedOrder = none
  current : child.status = .active ∨ child.status = .canceling → c.val = childIdx
  resting : child.status = .active → child.trackedOrder ≠ none

namespace Orderly

variable {orders : Registry OrderId (OrderRecord n)} {childIdx : ℕ} {c : Fin n}
  {child other : ChildSlot}

theorem of_untracked (huntracked : child.trackedOrder = none)
    (hstatus : child.status ≠ .active ∧ child.status ≠ .canceling) :
    Orderly orders childIdx c child := by
  refine ⟨fun orderId hsome => ?_, fun _ => huntracked, fun hcurrent => ?_,
    fun hactive => absurd hactive hstatus.1⟩
  · rw [huntracked] at hsome
    cases hsome
  · rcases hcurrent with hactive | hcanceling
    · exact absurd hactive hstatus.1
    · exact absurd hcanceling hstatus.2

theorem of_same (h : Orderly orders childIdx c child)
    (htracked : other.trackedOrder = child.trackedOrder) (hstatus : other.status = child.status) :
    Orderly orders childIdx c other := by
  refine ⟨fun orderId hsome => ?_, fun hreleased => ?_, fun hcurrent => ?_, fun hactive => ?_⟩
  · rw [hstatus]
    exact h.record orderId (htracked ▸ hsome)
  · rw [htracked]
    exact h.released (hstatus ▸ hreleased)
  · exact h.current (hstatus ▸ hcurrent)
  · rw [htracked]
    exact h.resting (hstatus ▸ hactive)

/-- Changes of records that keep child and settlement. -/
theorem modify (h : Orderly orders childIdx c child) (orderId : OrderId)
    {change : OrderRecord n → OrderRecord n} (hchild : ∀ r, (change r).child = r.child)
    (hterminal : ∀ r, (change r).terminal = r.terminal) :
    Orderly (orders.modify orderId change) childIdx c child := by
  refine ⟨fun tracked hsome => ?_, h.released, h.current, h.resting⟩
  obtain ⟨r, hlook, howner, hsettled⟩ := h.record tracked hsome
  rw [Registry.lookup_modify, hlook]
  split
  next => exact ⟨change r, rfl, (hchild r).trans howner, by rw [hterminal, hsettled]⟩
  next => exact ⟨r, rfl, howner, hsettled⟩

/-- Another order is settled. -/
theorem settle (h : Orderly orders childIdx c child) {orderId : OrderId}
    (hother : child.trackedOrder ≠ some orderId) :
    Orderly (orders.modify orderId fun r => { r with terminal := true }) childIdx c child := by
  refine ⟨fun tracked hsome => ?_, h.released, h.current, h.resting⟩
  have hne : tracked ≠ orderId := fun heq => hother (heq ▸ hsome)
  rw [Registry.lookup_modify_ne _ hne]
  exact h.record tracked hsome

/-- Another order is recorded. -/
theorem set (h : Orderly orders childIdx c child) {orderId : OrderId}
    (hfresh : orders.lookup orderId = none) (r : OrderRecord n) :
    Orderly (orders.set orderId r) childIdx c child := by
  refine ⟨fun tracked hsome => ?_, h.released, h.current, h.resting⟩
  obtain ⟨r', hlook, howner⟩ := h.record tracked hsome
  have hne : tracked ≠ orderId := fun heq => by rw [heq, hfresh] at hlook; cases hlook
  rw [Registry.lookup_set, if_neg hne]
  exact ⟨r', hlook, howner⟩

end Orderly

namespace Executor

def Tidy (s : Executor n) : Prop := ∀ c, Orderly s.orders s.childIdx c (s.children c)

/-- All children but one are orderly. -/
def TidyExcept (s : Executor n) (c : Fin n) : Prop :=
  ∀ other, other ≠ c → Orderly s.orders s.childIdx other (s.children other)

variable {cfg : Settings} {call : Call} {s t : Executor n} {c : Fin n}

theorem Tidy.except (h : Tidy s) (c : Fin n) : TidyExcept s c := fun other _ => h other

theorem TidyExcept.modifyChild (h : TidyExcept s c) {change : ChildSlot → ChildSlot}
    (hchild : Orderly s.orders s.childIdx c (change (s.children c))) :
    Tidy (s.modifyChild c change) := by
  intro other
  by_cases heq : other = c
  · subst heq
    rw [modifyChild_children_self]
    exact hchild
  · rw [s.modifyChild_children_ne heq]
    exact h other heq

theorem TidyExcept.modifyChild_except (h : TidyExcept s c) (change : ChildSlot → ChildSlot) :
    TidyExcept (s.modifyChild c change) c := by
  intro other hne
  rw [s.modifyChild_children_ne hne]
  exact h other hne

theorem Tidy.modifyChild (h : Tidy s) (c : Fin n) {change : ChildSlot → ChildSlot}
    (htracked : (change (s.children c)).trackedOrder = (s.children c).trackedOrder)
    (hstatus : (change (s.children c)).status = (s.children c).status) :
    Tidy (s.modifyChild c change) :=
  (h.except c).modifyChild ((h c).of_same htracked hstatus)

/-- The child gets a new order, and the status that goes with it. -/
theorem TidyExcept.place (h : TidyExcept s c) (hfresh : s.orders.lookup call.orderId = none)
    (orderType : OrderType) (amount : ℚ) (price : Option ℚ) {change : ChildSlot → ChildSlot}
    (htracked : ∀ child, (change child).trackedOrder = child.trackedOrder)
    (hstatus : (∀ child, (change child).status = .aggressive) ∨
      (∀ child, (change child).status = .active) ∧ c.val = s.childIdx) :
    Tidy ((s.submit cfg call c orderType amount price).modifyChild c change) := by
  refine TidyExcept.modifyChild (fun other hne => ?_) ?_
  · simp only [submit, Function.update_of_ne hne]
    exact (h other hne).set hfresh _
  · simp only [submit, Function.update_self]
    refine ⟨fun orderId hsome => ?_, fun hreleased => ?_, fun hcurrent => ?_, fun _ => ?_⟩
    · rw [htracked] at hsome
      obtain rfl := Option.some.inj hsome
      rw [Registry.lookup_set, if_pos rfl]
      refine ⟨_, rfl, rfl, ?_⟩
      rcases hstatus with hcrosses | ⟨hrests, _⟩
      · simp [hcrosses]
      · simp [hrests]
    · rcases hstatus with hcrosses | ⟨hrests, _⟩
      · simp [hcrosses] at hreleased
      · simp [hrests] at hreleased
    · rcases hstatus with hcrosses | ⟨_, hindex⟩
      · simp [hcrosses] at hcurrent
      · exact hindex
    · rw [htracked]
      exact Option.some_ne_none _

/-! ## What the tick keeps tidy -/

theorem Tidy.placeLimit (h : Tidy s) (hindex : c.val = s.childIdx)
    (huntracked : (s.children c).trackedOrder = none)
    (hfresh : s.orders.lookup call.orderId = none) : Tidy (s.placeLimit cfg call c) := by
  unfold Executor.placeLimit
  split
  next => exact h.modifyChild c rfl rfl
  next price _ =>
    dsimp only
    split
    next => exact (h.except c).modifyChild (.of_untracked huntracked ⟨by simp, by simp⟩)
    next =>
      exact (h.except c).place hfresh _ _ _ (fun _ => rfl) (.inr ⟨fun _ => rfl, hindex⟩)

theorem TidyExcept.placeAggressive (h : TidyExcept s c)
    (huntracked : (s.children c).trackedOrder = none)
    (hfresh : s.orders.lookup call.orderId = none) : Tidy (s.placeAggressive cfg call c) := by
  have hidle := h.modifyChild_except fun child => { child with status := .idle }
  have huntracked' : ((s.modifyChild c fun child =>
      { child with status := .idle }).children c).trackedOrder = none := by
    rw [modifyChild_children_self]
    exact huntracked
  unfold Executor.placeAggressive
  dsimp only
  split
  next => exact h.modifyChild (.of_untracked huntracked ⟨by simp, by simp⟩)
  next =>
    split
    next => exact hidle.modifyChild (.of_untracked huntracked' ⟨by simp, by simp⟩)
    next => exact hidle.place hfresh _ _ _ (fun _ => rfl) (.inl fun _ => rfl)

theorem Tidy.cancelChild (h : Tidy s) (hactive : (s.children c).status = .active)
    (reason : CancelReason) : Tidy (s.cancelChild c reason) := by
  unfold Executor.cancelChild
  split
  next => exact h
  next requested _ =>
    have hlog : Tidy { s with cancelRequests := s.cancelRequests ++ [requested] } := h
    refine (hlog.except c).modifyChild ⟨fun orderId hsome => ?_, fun hreleased => ?_,
      fun _ => (h c).current (.inl hactive), fun hresting => by cases hresting⟩
    · obtain ⟨r, hlook, howner, hsettled⟩ := (h c).record orderId hsome
      refine ⟨r, hlook, howner, ?_⟩
      rw [hsettled, hactive]
      simp
    · rcases hreleased with hidle | hskipped
      · cases hidle
      · cases hskipped

theorem Tidy.stepChild (h : Tidy s) (hindex : c.val = s.childIdx)
    (hfresh : s.orders.lookup call.orderId = none) : Tidy (s.stepChild cfg call c) := by
  unfold Executor.stepChild
  split
  next hidle =>
    have huntracked := (h c).released (.inl hidle)
    split
    next => exact (h.except c).modifyChild (.of_untracked huntracked ⟨by simp, by simp⟩)
    next =>
      split
      next => exact h
      next =>
        have hready : Tidy (s.modifyChild c fun child => { child with retryAt := none }) :=
          h.modifyChild c rfl rfl
        exact hready.placeLimit hindex (by simpa using huntracked) hfresh
  next hactive =>
    split
    next => exact h.cancelChild hactive _
    next =>
      split
      next => exact h.cancelChild hactive _
      next => exact h
  next => exact h

/-- The index stays at a child that is not through. -/
theorem advance_childIdx (hindex : c.val = s.childIdx)
    (hopen : (s.children c).status.isTerminal = false) : s.advance.childIdx = s.childIdx := by
  simp only [advance]
  cases n - s.childIdx with
  | zero => rfl
  | succ fuel =>
      have hlt : s.childIdx < n := hindex ▸ c.isLt
      have hchild : (⟨s.childIdx, hlt⟩ : Fin n) = c := Fin.ext hindex.symm
      rw [advanceIdx, dif_pos hlt, hchild, hopen]
      rfl

theorem Tidy.advance (h : Tidy s) : Tidy s.advance := by
  intro c
  refine ⟨(h c).record, (h c).released, fun hcurrent => ?_, (h c).resting⟩
  have hindex := (h c).current hcurrent
  rw [advance_childIdx hindex]
  · exact hindex
  · change (s.children c).status = _ ∨ (s.children c).status = _ at hcurrent
    rcases hcurrent with hactive | hcanceling
    · rw [hactive]
      rfl
    · rw [hcanceling]
      rfl

theorem Tidy.controlTask (h : Tidy s) (hfresh : s.orders.lookup call.orderId = none) :
    Tidy (s.controlTask cfg call) := by
  unfold Executor.controlTask
  split
  next =>
    unfold Executor.step
    dsimp only
    split
    next =>
      split
      next => exact h.advance
      next => exact h.advance
    next c hactive =>
      have hstart : Tidy (s.advance.startCycle call c) := h.advance.modifyChild c rfl rfl
      exact hstart.stepChild (activeChild_val hactive) hfresh
  next =>
    split
    next =>
      split
      next => exact h
      next => exact h
    next => exact h
  next => exact h

/-! ## What the events keep tidy -/

/-- Only the child of its record tracks an order. -/
theorem Tidy.child_eq (h : Tidy s) {orderId : OrderId} {r : OrderRecord n}
    (hlook : s.orders.lookup orderId = some r)
    (htracked : (s.children c).trackedOrder = some orderId) : c = r.child := by
  obtain ⟨r', hlook', howner, _⟩ := (h c).record orderId htracked
  rw [hlook] at hlook'
  rw [Option.some.inj hlook', howner]

/-- An order that its child tracks is settled exactly when the child is done. -/
theorem Tidy.terminal_iff (h : Tidy s) {orderId : OrderId} {r : OrderRecord n}
    (hlook : s.orders.lookup orderId = some r)
    (htracked : (s.children r.child).trackedOrder = some orderId) :
    r.terminal = true ↔ (s.children r.child).status = .done := by
  obtain ⟨r', hlook', _, hsettled⟩ := (h r.child).record orderId htracked
  rw [hlook] at hlook'
  obtain rfl := Option.some.inj hlook'
  exact hsettled

theorem Tidy.markTerminal_except (h : Tidy s) {orderId : OrderId} {r : OrderRecord n}
    (hlook : s.orders.lookup orderId = some r) : TidyExcept (s.markTerminal orderId) r.child :=
  fun other hne => (h other).settle fun htracked => hne (h.child_eq hlook htracked)

theorem Tidy.markTerminal (h : Tidy s) {orderId : OrderId} {r : OrderRecord n}
    (hlook : s.orders.lookup orderId = some r)
    (hother : (s.children r.child).trackedOrder ≠ some orderId) :
    Tidy (s.markTerminal orderId) := by
  intro c
  refine (h c).settle fun htracked => ?_
  have heq := h.child_eq hlook htracked
  subst heq
  exact hother htracked

/-- A credit changes no child's order and no record's settlement. -/
theorem orderly_credit (orderId : OrderId)
    (h : Orderly s.orders s.childIdx c (s.children c)) :
    Orderly (s.credit orderId).orders (s.credit orderId).childIdx c
      ((s.credit orderId).children c) := by
  have hindex : (s.credit orderId).childIdx = s.childIdx :=
    credit_field s Executor.childIdx fun _ _ _ _ => rfl
  have hsame : Orderly s.orders (s.credit orderId).childIdx c ((s.credit orderId).children c) := by
    rw [hindex]
    exact h.of_same (credit_child_field s ChildSlot.trackedOrder (fun _ _ => rfl) c)
      (credit_child_field s ChildSlot.status (fun _ _ => rfl) c)
  cases hlook : s.orders.lookup orderId with
  | none =>
      have hidle : s.credit orderId = s := by
        unfold Executor.credit
        simp only [hlook]
      rw [hidle]
      exact h
  | some r =>
      rw [credit_orders s hlook]
      exact hsame.modify orderId (fun _ => rfl) fun _ => rfl

theorem Tidy.cancelOversized (h : Tidy s) (r : OrderRecord n) (orderId : OrderId) :
    Tidy (s.cancelOversized cfg r orderId) := by
  unfold Executor.cancelOversized
  split
  next => exact h
  next =>
    split
    next hoversized => exact h.cancelChild hoversized.1 _
    next => exact h

theorem Tidy.filled (h : Tidy s) (event : OrderFilledEvent) :
    Tidy (s.processOrderFilledEvent cfg event) := by
  have hnoted : Tidy (s.noteFill event) := fun c =>
    (h c).modify event.orderId (fun _ => rfl) fun _ => rfl
  have hcredited : Tidy ((s.noteFill event).credit event.orderId) := fun c =>
    orderly_credit event.orderId (hnoted c)
  unfold Executor.processOrderFilledEvent
  split
  next => exact h
  next r _ =>
    split
    next => exact h
    next => exact hcredited.cancelOversized r event.orderId

theorem Tidy.completed (h : Tidy s) (event : OrderCompletedEvent) :
    Tidy (s.processOrderCompletedEvent event) := by
  unfold Executor.processOrderCompletedEvent
  split
  next => exact h
  next r hlook =>
    have hcredit : ∀ c, Orderly (s.markTerminal event.orderId).orders s.childIdx c
        (s.children c) → Orderly _ _ c
          ((((s.markTerminal event.orderId).noteSummary event).credit event.orderId).children c) :=
      fun c hchild => orderly_credit event.orderId <|
        hchild.modify event.orderId (fun _ => rfl) fun _ => rfl
    have htracked : ((((s.markTerminal event.orderId).noteSummary event).credit
        event.orderId).children r.child).trackedOrder = (s.children r.child).trackedOrder :=
      credit_child_field _ ChildSlot.trackedOrder (fun _ _ => rfl) r.child
    dsimp only
    split
    next hactive =>
      have hcurrent : (s.children r.child).trackedOrder = some event.orderId := by
        rw [← htracked]
        exact of_decide_eq_true hactive
      refine TidyExcept.modifyChild
        (fun other hne => hcredit other (h.markTerminal_except hlook other hne)) ?_
      -- the completed order stays with its child, which is done with it
      refine ⟨fun orderId hsome => ?_, fun hreleased => ?_, fun hwaiting => ?_,
        fun hresting => by cases hresting⟩
      · change _ = some orderId at hsome
        rw [htracked, hcurrent] at hsome
        obtain rfl := Option.some.inj hsome
        exact ⟨_, s.lookup_noteSummary_credit event hlook, rfl, iff_of_true rfl rfl⟩
      · rcases hreleased with hidle | hskipped
        · cases hidle
        · cases hskipped
      · rcases hwaiting with hactive | hcanceling
        · cases hactive
        · cases hcanceling
    next hretired =>
      refine fun c => hcredit c (h.markTerminal hlook (fun hcurrent => hretired ?_) c)
      exact decide_eq_true (htracked.trans hcurrent)

theorem lookup_markTerminal_of_absent (orderId : OrderId) {key : OrderId}
    (habsent : s.orders.lookup key = none) :
    (s.markTerminal orderId).orders.lookup key = none := by
  rw [Executor.markTerminal, Registry.lookup_modify, habsent]
  exact ite_self none

theorem Tidy.canceled (h : Tidy s) (hfresh : s.orders.lookup call.orderId = none)
    (event : OrderCancelledEvent) : Tidy (s.processOrderCanceledEvent cfg call event) := by
  unfold Executor.processOrderCanceledEvent
  split
  next => exact h
  next r hlook =>
    dsimp only
    split
    next hretired =>
      exact h.markTerminal hlook fun hcurrent => hretired (decide_eq_true hcurrent)
    next =>
      have hfresh' := lookup_markTerminal_of_absent event.orderId hfresh
      have hclear := (h.markTerminal_except hlook).modifyChild_except
        fun child => { child with trackedOrder := none }
      have huntracked : (((s.markTerminal event.orderId).modifyChild r.child fun child =>
          { child with trackedOrder := none }).children r.child).trackedOrder = none := by
        rw [modifyChild_children_self]
      split
      next => exact hclear.placeAggressive huntracked hfresh'
      next =>
        split
        next => exact hclear.modifyChild (.of_untracked huntracked ⟨by simp, by simp⟩)
        next => exact hclear.modifyChild (.of_untracked huntracked ⟨by simp, by simp⟩)

theorem Tidy.failed (h : Tidy s) (hfresh : s.orders.lookup call.orderId = none)
    (event : MarketOrderFailureEvent) : Tidy (s.processOrderFailedEvent cfg call event) := by
  unfold Executor.processOrderFailedEvent
  split
  next => exact h
  next r hlook =>
    have hexcept := h.markTerminal_except hlook
    dsimp only
    split
    next hretired =>
      exact h.markTerminal hlook fun hcurrent => hretired (decide_eq_true hcurrent)
    next =>
      split
      next =>
        have hskip : Tidy ((s.markTerminal event.orderId).modifyChild r.child fun child =>
            { child with trackedOrder := none, status := .skipped }) :=
          hexcept.modifyChild (.of_untracked rfl ⟨by simp, by simp⟩)
        exact hskip
      next =>
        have hcount : TidyExcept { s.markTerminal event.orderId with
            currentRetries := s.currentRetries + 1 } r.child := hexcept
        have hback : Tidy ((s.markTerminal event.orderId).backOff cfg call r.child) :=
          hcount.modifyChild (.of_untracked rfl ⟨by simp, by simp⟩)
        split
        next =>
          refine (hback.except r.child).placeAggressive ?_
            (lookup_markTerminal_of_absent event.orderId hfresh)
          rw [Executor.backOff, modifyChild_children_self]
        next => exact hback

theorem Tidy.perform (h : Tidy s) {op : Op} (hfresh : FreshId s op) : Tidy (perform cfg s op) := by
  cases op with
  | controlTask call => exact h.controlTask (hfresh.lookup rfl)
  | filled event => exact h.filled event
  | completed event => exact h.completed event
  | canceled call event => exact h.canceled (hfresh.lookup rfl) event
  | failed call event => exact h.failed (hfresh.lookup rfl) event
  | earlyStop call keepPosition => exact h
  | evaluateMaxRetries call =>
      unfold PassiveAggressive.perform Executor.evaluateMaxRetries
      dsimp only
      split
      next => exact h
      next => exact h

theorem Tidy.init {slots : List ChildSlot} (hslots : buildChildSlots cfg = .ok slots) :
    Tidy (Executor.init slots) := by
  intro c
  have hfresh := (buildChildSlots_fresh hslots (List.get_mem slots c)).1
  refine .of_untracked ?_ ?_
  · change (slots.get c).trackedOrder = none
    rw [hfresh]
  · change (slots.get c).status ≠ _ ∧ (slots.get c).status ≠ _
    rw [hfresh]
    exact ⟨by simp, by simp⟩

end Executor

end Opms.PassiveAggressive
