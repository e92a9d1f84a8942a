import Opms.PassiveAggressive.Step

/-! # What an operation can do to the accounts

The accounts are the order records, the filled amounts, and the log of placed
orders. Lifecycle changes leave them alone; an operation touches them through
at most one credit, one settlement, and one placement sized by `room`.
-/

namespace Opms.PassiveAggressive

open Foundation

variable {n : ℕ}

namespace Executor

/-! ## Field lemmas of the child update -/

@[simp] theorem modifyChild_orders (s : Executor n) (c : Fin n)
    (change : ChildSlot → ChildSlot) : (s.modifyChild c change).orders = s.orders := rfl

@[simp] theorem modifyChild_cumulativeFilled (s : Executor n) (c : Fin n)
    (change : ChildSlot → ChildSlot) :
    (s.modifyChild c change).cumulativeFilled = s.cumulativeFilled := rfl

@[simp] theorem modifyChild_children_self (s : Executor n) (c : Fin n)
    (change : ChildSlot → ChildSlot) :
    (s.modifyChild c change).children c = change (s.children c) :=
  Function.update_self _ _ _

theorem modifyChild_children_ne (s : Executor n) {c other : Fin n} (hne : other ≠ c)
    (change : ChildSlot → ChildSlot) :
    (s.modifyChild c change).children other = s.children other :=
  Function.update_of_ne hne _ _

/-- A per-child quantity that the change keeps is kept for every child. -/
theorem modifyChild_field {Field : Type*} (field : ChildSlot → Field) (s : Executor n)
    (c : Fin n) {change : ChildSlot → ChildSlot}
    (hkeep : field (change (s.children c)) = field (s.children c)) (other : Fin n) :
    field ((s.modifyChild c change).children other) = field (s.children other) := by
  by_cases heq : other = c
  · subst heq
    rw [modifyChild_children_self, hkeep]
  · rw [s.modifyChild_children_ne heq]

theorem markTerminal_of_absent (s : Executor n) {orderId : OrderId}
    (habsent : s.orders.lookup orderId = none) : s.markTerminal orderId = s := by
  rw [markTerminal, s.orders.modify_of_absent habsent]

/-! ## Frames -/

/-- `after` has the same accounts as `before`. -/
structure Frame (before after : Executor n) : Prop where
  orders : after.orders = before.orders
  cumulativeFilled : after.cumulativeFilled = before.cumulativeFilled
  target : ∀ c, (after.children c).target = (before.children c).target
  filled : ∀ c, (after.children c).filled = (before.children c).filled
  placed : after.placed = before.placed

namespace Frame

variable {s t u : Executor n}

theorem refl (s : Executor n) : Frame s s := ⟨rfl, rfl, fun _ => rfl, fun _ => rfl, rfl⟩

theorem trans (h : Frame s t) (h' : Frame t u) : Frame s u :=
  ⟨h'.orders.trans h.orders, h'.cumulativeFilled.trans h.cumulativeFilled,
    fun c => (h'.target c).trans (h.target c), fun c => (h'.filled c).trans (h.filled c),
    h'.placed.trans h.placed⟩

theorem outstanding_eq (h : Frame s t) : t.outstanding = s.outstanding := by
  rw [outstanding, h.orders]
  rfl

theorem room_eq (h : Frame s t) (cfg : Settings) (c : Fin n) : t.room cfg c = s.room cfg c := by
  rw [room, h.target, h.filled, h.cumulativeFilled, h.outstanding_eq]
  rfl

theorem modifyChild (h : Frame s t) (c : Fin n) {change : ChildSlot → ChildSlot}
    (htarget : (change (t.children c)).target = (t.children c).target)
    (hfilled : (change (t.children c)).filled = (t.children c).filled) :
    Frame s (t.modifyChild c change) :=
  h.trans ⟨rfl, rfl, t.modifyChild_field ChildSlot.target c htarget,
    t.modifyChild_field ChildSlot.filled c hfilled, rfl⟩

theorem closeExecutionBy (h : Frame s t) (call : Call) (closeType : CloseType) :
    Frame s (t.closeExecutionBy call closeType) :=
  h.trans ⟨rfl, rfl, fun _ => rfl, fun _ => rfl, rfl⟩

theorem cancelChild (h : Frame s t) (c : Fin n) (reason : CancelReason) :
    Frame s (t.cancelChild c reason) := by
  unfold Executor.cancelChild
  split
  next => exact h
  next orderId _ =>
    have hlog : Frame s { t with cancelRequests := t.cancelRequests ++ [orderId] } :=
      h.trans ⟨rfl, rfl, fun _ => rfl, fun _ => rfl, rfl⟩
    exact hlog.modifyChild c rfl rfl

theorem backOff (h : Frame s t) (cfg : Settings) (call : Call) (c : Fin n) :
    Frame s (t.backOff cfg call c) := by
  have hcount : Frame s { t with currentRetries := t.currentRetries + 1 } :=
    h.trans ⟨rfl, rfl, fun _ => rfl, fun _ => rfl, rfl⟩
  unfold Executor.backOff
  exact hcount.modifyChild c rfl rfl

theorem advance (s : Executor n) : Frame s s.advance :=
  ⟨rfl, rfl, fun _ => rfl, fun _ => rfl, rfl⟩

theorem earlyStop (call : Call) (s : Executor n) (keepPosition : Bool) :
    Frame s (s.earlyStop call keepPosition) :=
  ⟨rfl, rfl, fun _ => rfl, fun _ => rfl, rfl⟩

theorem evaluateMaxRetries (cfg : Settings) (call : Call) (s : Executor n) :
    Frame s (s.evaluateMaxRetries cfg call) := by
  unfold Executor.evaluateMaxRetries
  split
  · exact (refl s).closeExecutionBy call .failed
  · exact refl s

theorem cancelOversized (h : Frame s t) (cfg : Settings) (r : OrderRecord n)
    (orderId : OrderId) : Frame s (t.cancelOversized cfg r orderId) := by
  unfold Executor.cancelOversized
  split
  · exact h
  · split
    · exact h.cancelChild _ _
    · exact h

end Frame

/-! ## Placements -/

/-- The conditions under which the code places an order for `c`, and its price. -/
structure Places (cfg : Settings) (call : Call) (s : Executor n) (c : Fin n)
    (orderType : OrderType) (price : Option ℚ) : Prop where
  running : s.status = .running
  room_pos : 0 < s.room cfg c
  kind : (orderType = .limit ∧ ∃ p, price = some p ∧ 0 < p ∧ limitPrice cfg call = some p) ∨
    (orderType = .market ∧ price = none)

/-- At most one placement happens, and it takes the whole room. -/
inductive Submits (cfg : Settings) (call : Call) (before after : Executor n) : Prop
  | none (frame : Frame before after)
  | one (c : Fin n) (orderType : OrderType) (price : Option ℚ)
      (places : Places cfg call before c orderType price)
      (frame : Frame (before.submit cfg call c orderType (before.room cfg c) price) after)

theorem submit_frame {s t : Executor n} (h : Frame s t) (cfg : Settings) (call : Call)
    (c : Fin n) (orderType : OrderType) (amount : ℚ) (price : Option ℚ) :
    Frame (s.submit cfg call c orderType amount price)
      (t.submit cfg call c orderType amount price) := by
  refine ⟨?_, h.cumulativeFilled, fun other => ?_, fun other => ?_, ?_⟩
  · simp only [submit, h.orders]
  · simp only [submit, Function.update_apply]
    split
    · exact h.target c
    · exact h.target other
  · simp only [submit, Function.update_apply]
    split
    · exact h.filled c
    · exact h.filled other
  · simp only [submit, h.placed]

theorem Submits.of_frame {cfg : Settings} {call : Call} {s t u : Executor n} (h : Frame s t)
    (hstatus : t.status = s.status) (hsubmits : Submits cfg call t u) :
    Submits cfg call s u := by
  cases hsubmits with
  | none frame => exact .none (h.trans frame)
  | one c orderType price places frame =>
      -- the frame keeps the room, so the order is sized as it would be in `s`
      have hroom := h.room_eq cfg c
      refine .one c orderType price ⟨hstatus ▸ places.running, hroom ▸ places.room_pos,
        places.kind⟩ ?_
      rw [← hroom]
      exact (submit_frame h cfg call c orderType _ price).trans frame

theorem placeLimit_submits (cfg : Settings) (call : Call) (s : Executor n) (c : Fin n)
    (hrunning : s.status = .running) : Submits cfg call s (s.placeLimit cfg call c) := by
  unfold placeLimit
  split
  next => exact .none ((Frame.refl s).modifyChild c rfl rfl)
  next price hprice =>
    obtain ⟨hsome, hpos⟩ := Option.filter_eq_some_iff.mp hprice
    dsimp only
    split
    next => exact .none ((Frame.refl s).modifyChild c rfl rfl)
    next hroom =>
      exact .one c .limit (some price)
        ⟨hrunning, not_le.mp hroom, .inl ⟨rfl, price, rfl, of_decide_eq_true hpos, hsome⟩⟩
        ((Frame.refl _).modifyChild c rfl rfl)

theorem placeAggressive_submits (cfg : Settings) (call : Call) (s : Executor n) (c : Fin n) :
    Submits cfg call s (s.placeAggressive cfg call c) := by
  unfold placeAggressive
  dsimp only
  have hidle : Frame s (s.modifyChild c fun child => { child with status := .idle }) :=
    (Frame.refl s).modifyChild c rfl rfl
  split
  next => exact .none hidle
  next hrunning =>
    split
    next => exact .none (hidle.modifyChild c rfl rfl)
    next hroom =>
      -- idle first and sized second: the room does not depend on the status
      refine Submits.of_frame hidle rfl (.one c .market none
        ⟨not_not.mp hrunning, not_le.mp hroom, .inr ⟨rfl, rfl⟩⟩ ?_)
      exact (Frame.refl _).modifyChild c rfl rfl

/-- With room, the market order takes all of it. -/
theorem placeAggressive_of_room {cfg : Settings} {call : Call} {s : Executor n} {c : Fin n}
    (hrunning : s.status = .running) (hroom : 0 < s.room cfg c) :
    s.placeAggressive cfg call c =
      ((s.modifyChild c fun child => { child with status := .idle }).submit cfg call c .market
        (s.room cfg c) none).modifyChild c fun child => { child with status := .aggressive } := by
  have hframe : Frame s (s.modifyChild c fun child => { child with status := .idle }) :=
    (Frame.refl s).modifyChild c rfl rfl
  unfold Executor.placeAggressive
  dsimp only
  rw [hframe.room_eq]
  split
  next hstopped => exact absurd hrunning hstopped
  next =>
    split
    next hfull => exact absurd hroom (not_lt.mpr hfull)
    next => rfl

theorem placeAggressive_frame {cfg : Settings} {call : Call} {s : Executor n} {c : Fin n}
    (hnone : ¬ (s.status = .running ∧ 0 < s.room cfg c)) :
    Frame s (s.placeAggressive cfg call c) := by
  have hidle : Frame s (s.modifyChild c fun child => { child with status := .idle }) :=
    (Frame.refl s).modifyChild c rfl rfl
  unfold placeAggressive
  dsimp only
  rw [hidle.room_eq]
  split
  next => exact hidle
  next hrunning =>
    split
    next => exact hidle.modifyChild c rfl rfl
    next hroom => exact absurd ⟨not_not.mp hrunning, not_le.mp hroom⟩ hnone

theorem stepChild_submits (cfg : Settings) (call : Call) (s : Executor n) (c : Fin n)
    (hrunning : s.status = .running) : Submits cfg call s (s.stepChild cfg call c) := by
  unfold stepChild
  split
  next =>
    split
    next => exact .none ((Frame.refl s).modifyChild c rfl rfl)
    next =>
      split
      next => exact .none (Frame.refl s)
      next =>
        exact Submits.of_frame ((Frame.refl s).modifyChild c rfl rfl) rfl
          (placeLimit_submits cfg call _ c hrunning)
  next =>
    split
    next => exact .none ((Frame.refl s).cancelChild c _)
    next =>
      split
      next => exact .none ((Frame.refl s).cancelChild c _)
      next => exact .none (Frame.refl s)
  next => exact .none (Frame.refl s)

theorem step_submits (cfg : Settings) (call : Call) (s : Executor n)
    (hrunning : s.status = .running) : Submits cfg call s (s.step cfg call) := by
  have hadvance := Frame.advance s
  unfold step
  dsimp only
  split
  next =>
    split
    next => exact .none (hadvance.closeExecutionBy call _)
    next => exact .none hadvance
  next c _ =>
    have hstart : Frame s (s.advance.startCycle call c) := hadvance.modifyChild c rfl rfl
    exact Submits.of_frame hstart rfl (stepChild_submits cfg call _ c hrunning)

/-- A tick places at most one order, sized by the room. -/
theorem controlTask_submits (cfg : Settings) (call : Call) (s : Executor n) :
    Submits cfg call s (s.controlTask cfg call) := by
  unfold controlTask
  split
  next hrunning => exact step_submits cfg call s hrunning
  next =>
    split
    next =>
      split
      next => exact .none ⟨rfl, rfl, fun _ => rfl, fun _ => rfl, rfl⟩
      next => exact .none (Frame.refl s)
    next => exact .none ((Frame.refl s).closeExecutionBy call _)
  next => exact .none (Frame.refl s)

/-- A cancel ack settles its order and places at most one market order. -/
theorem processOrderCanceledEvent_submits (cfg : Settings) (call : Call) (s : Executor n)
    (event : OrderCancelledEvent) :
    Submits cfg call (s.markTerminal event.orderId)
      (s.processOrderCanceledEvent cfg call event) := by
  unfold processOrderCanceledEvent
  split
  next hlook =>
    rw [s.markTerminal_of_absent hlook]
    exact .none (Frame.refl s)
  next r _ =>
    dsimp only
    have hkeep := Frame.refl (s.markTerminal event.orderId)
    split
    next => exact .none hkeep
    next =>
      have hclear : Frame (s.markTerminal event.orderId)
          ((s.markTerminal event.orderId).modifyChild r.child fun child =>
            { child with trackedOrder := none }) := hkeep.modifyChild r.child rfl rfl
      -- an expired close crosses at once; any other ack only moves the child
      split
      next => exact Submits.of_frame hclear rfl (placeAggressive_submits cfg call _ r.child)
      next =>
        split
        next => exact .none (hclear.modifyChild r.child rfl rfl)
        next => exact .none (hclear.modifyChild r.child rfl rfl)

/-- A failure settles its order and places at most one market order. -/
theorem processOrderFailedEvent_submits (cfg : Settings) (call : Call) (s : Executor n)
    (event : MarketOrderFailureEvent) :
    Submits cfg call (s.markTerminal event.orderId)
      (s.processOrderFailedEvent cfg call event) := by
  unfold processOrderFailedEvent
  split
  next hlook =>
    rw [s.markTerminal_of_absent hlook]
    exact .none (Frame.refl s)
  next r _ =>
    dsimp only
    have hkeep := Frame.refl (s.markTerminal event.orderId)
    split
    next => exact .none hkeep
    next =>
      split
      next => exact .none ((hkeep.modifyChild r.child rfl rfl).closeExecutionBy call _)
      next =>
        have hback : Frame (s.markTerminal event.orderId)
            ((s.markTerminal event.orderId).backOff cfg call r.child) :=
          hkeep.backOff cfg call r.child
        split
        next => exact Submits.of_frame hback rfl (placeAggressive_submits cfg call _ r.child)
        next => exact .none hback

/-! ## Fills and completions -/

/-- A fill is ignored, or noted and credited before anything else happens. -/
theorem processOrderFilledEvent_cases (cfg : Settings) (s : Executor n)
    (event : OrderFilledEvent) :
    s.processOrderFilledEvent cfg event = s ∧
        (∀ r, s.orders.lookup event.orderId = some r →
          event.tradeId?.any (· ∈ r.tradeIds) = true) ∨
      ∃ r, s.orders.lookup event.orderId = some r ∧
        event.tradeId?.any (· ∈ r.tradeIds) = false ∧
        Frame ((s.noteFill event).credit event.orderId)
          (s.processOrderFilledEvent cfg event) := by
  unfold processOrderFilledEvent
  split
  next hlook => exact .inl ⟨rfl, fun r hr => by simp [hlook] at hr⟩
  next r hlook =>
    split
    next hreplay =>
      refine .inl ⟨rfl, fun r' hr' => ?_⟩
      rw [hlook, Option.some.injEq] at hr'
      exact hr' ▸ hreplay
    next hnew =>
      exact .inr ⟨r, hlook, Bool.not_eq_true _ ▸ hnew,
        (Frame.refl _).cancelOversized cfg r event.orderId⟩

/-- A completion is ignored, or settles its order and credits the summary. -/
theorem processOrderCompletedEvent_cases (s : Executor n) (event : OrderCompletedEvent) :
    s.processOrderCompletedEvent event = s ∧ s.orders.lookup event.orderId = none ∨
      ∃ r, s.orders.lookup event.orderId = some r ∧
        Frame (((s.markTerminal event.orderId).noteSummary event).credit event.orderId)
          (s.processOrderCompletedEvent event) := by
  unfold processOrderCompletedEvent
  split
  next hlook => exact .inl ⟨rfl, hlook⟩
  next r hlook =>
    refine .inr ⟨r, hlook, ?_⟩
    dsimp only
    split
    next => exact (Frame.refl _).modifyChild r.child rfl rfl
    next => exact Frame.refl _

/-! ## What an operation places -/

/-- The log entry of a placement that takes the child's whole room. -/
def placedOrder (cfg : Settings) (call : Call) (s : Executor n) (c : Fin n)
    (orderType : OrderType) (price : Option ℚ) : PlacedOrder n where
  orderId := call.orderId
  orderType := orderType
  side := cfg.side
  amount := s.room cfg c
  price := price
  positionAction := cfg.positionAction
  child := c
  placedAt := call.now

theorem Submits.placed {cfg : Settings} {call : Call} {s t : Executor n}
    (h : Submits cfg call s t) : t.placed = s.placed ∨ ∃ c orderType price,
      Places cfg call s c orderType price ∧
        t.placed = s.placed ++ [placedOrder cfg call s c orderType price] := by
  cases h with
  | none frame => exact .inl frame.placed
  | one c orderType price places frame =>
      exact .inr ⟨c, orderType, price, places, frame.placed⟩

theorem Submits.target {cfg : Settings} {call : Call} {s t : Executor n}
    (h : Submits cfg call s t) (c : Fin n) : (t.children c).target = (s.children c).target := by
  cases h with
  | none frame => exact frame.target c
  | one c' orderType price _ frame =>
      rw [frame.target]
      simp only [submit, Function.update_apply]
      split
      next heq => rw [heq]
      next => rfl

end Executor

end Opms.PassiveAggressive
