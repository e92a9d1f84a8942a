import Opms.PassiveAggressive.Settlement

/-! # One order after another

Where the venue ends each order once, an order is placed only when every earlier
one has had its terminal event, and no child gets an order after a later child
did. So the order placed last is the only one that can still work.
-/

namespace Opms.PassiveAggressive

open Foundation

variable {n : ℕ}

/-- Records stay, with their child, and a terminal mark is never taken back. -/
def Grows (before after : Registry OrderId (OrderRecord n)) : Prop :=
  ∀ orderId r, before.lookup orderId = some r →
    ∃ r', after.lookup orderId = some r' ∧ r'.child = r.child ∧
      (r.terminal = true → r'.terminal = true)

namespace Grows

variable {before middle after : Registry OrderId (OrderRecord n)}

theorem refl (orders : Registry OrderId (OrderRecord n)) : Grows orders orders :=
  fun _ r hlook => ⟨r, hlook, rfl, id⟩

theorem trans (h : Grows before middle) (h' : Grows middle after) : Grows before after := by
  intro orderId r hlook
  obtain ⟨r', hlook', hchild, hterminal⟩ := h orderId r hlook
  obtain ⟨r'', hlook'', hchild', hterminal'⟩ := h' orderId r' hlook'
  exact ⟨r'', hlook'', hchild'.trans hchild, hterminal' ∘ hterminal⟩

theorem modify (h : Grows before after) (orderId : OrderId)
    {change : OrderRecord n → OrderRecord n} (hchild : ∀ r, (change r).child = r.child)
    (hterminal : ∀ r, r.terminal = true → (change r).terminal = true) :
    Grows before (after.modify orderId change) := by
  refine h.trans fun other r hlook => ?_
  rw [Registry.lookup_modify, hlook]
  split
  next => exact ⟨change r, rfl, hchild r, hterminal r⟩
  next => exact ⟨r, rfl, rfl, id⟩

theorem set (orders : Registry OrderId (OrderRecord n)) {orderId : OrderId}
    (hfresh : orders.lookup orderId = none) (r : OrderRecord n) :
    Grows orders (orders.set orderId r) := by
  intro other r' hlook
  have hne : other ≠ orderId := by
    rintro rfl
    rw [hfresh] at hlook
    cases hlook
  rw [Registry.lookup_set, if_neg hne]
  exact ⟨r', hlook, rfl, id⟩

end Grows

namespace Executor

variable {s t : Executor n} {call : Call}

theorem markTerminal_grows (s : Executor n) (orderId : OrderId) :
    Grows s.orders (s.markTerminal orderId).orders :=
  (Grows.refl s.orders).modify orderId (fun _ => rfl) fun _ _ => rfl

theorem credit_grows (s : Executor n) (orderId : OrderId) :
    Grows s.orders (s.credit orderId).orders := by
  cases hlook : s.orders.lookup orderId with
  | none =>
      unfold Executor.credit
      rw [hlook]
      exact Grows.refl s.orders
  | some r =>
      rw [s.credit_orders hlook]
      exact (Grows.refl s.orders).modify orderId (fun _ => rfl) fun _ => id

theorem Submits.grows {cfg : Settings} (h : Submits cfg call s t)
    (hfresh : s.orders.lookup call.orderId = Option.none) :
    Grows s.orders t.orders := by
  cases h with
  | none frame =>
      rw [frame.orders]
      exact Grows.refl s.orders
  | one c orderType price places frame =>
      rw [frame.orders]
      exact Grows.set s.orders hfresh _

/-- A placed order is recorded for its child, and works. -/
theorem Submits.recorded {cfg : Settings} (h : Submits cfg call s t) :
    t.placed = s.placed ∨ ∃ order, order.orderId = call.orderId ∧ t.placed = s.placed ++ [order] ∧
      ∃ r, t.orders.lookup call.orderId = some r ∧ r.child = order.child ∧ r.terminal = false := by
  cases h with
  | none frame => exact .inl frame.placed
  | one c orderType price places frame =>
      refine .inr ⟨placedOrder cfg call s c orderType price, rfl, frame.placed, ?_⟩
      rw [frame.orders]
      exact ⟨{ child := c, amount := s.room cfg c },
        by rw [submit, Registry.lookup_set, if_pos rfl], rfl, rfl⟩

/-! ## The child index -/

theorem advanceIdx_le (s : Executor n) (fuel idx : ℕ) : idx ≤ s.advanceIdx fuel idx := by
  induction fuel generalizing idx with
  | zero => exact le_refl idx
  | succ fuel ih =>
      unfold advanceIdx
      split
      next =>
        split
        next => exact (Nat.le_succ idx).trans (ih (idx + 1))
        next => exact le_refl idx
      next => exact le_refl idx

theorem placeLimit_childIdx (cfg : Settings) (call : Call) (s : Executor n) (c : Fin n) :
    (s.placeLimit cfg call c).childIdx = s.childIdx := by
  unfold placeLimit
  split
  next => rfl
  next =>
    dsimp only
    split <;> rfl

theorem placeAggressive_childIdx (cfg : Settings) (call : Call) (s : Executor n) (c : Fin n) :
    (s.placeAggressive cfg call c).childIdx = s.childIdx := by
  unfold placeAggressive
  dsimp only
  split
  next => rfl
  next => split <;> rfl

theorem cancelChild_childIdx (s : Executor n) (c : Fin n) (reason : CancelReason) :
    (s.cancelChild c reason).childIdx = s.childIdx := by
  unfold cancelChild
  split <;> rfl

theorem credit_childIdx (s : Executor n) (orderId : OrderId) :
    (s.credit orderId).childIdx = s.childIdx := by
  unfold credit
  split
  next => rfl
  next =>
    dsimp only
    split <;> rfl

theorem stepChild_childIdx (cfg : Settings) (call : Call) (s : Executor n) (c : Fin n) :
    (s.stepChild cfg call c).childIdx = s.childIdx := by
  unfold stepChild
  split
  next =>
    split
    next => rfl
    next =>
      split
      next => rfl
      next => exact placeLimit_childIdx ..
  next =>
    split
    next => exact cancelChild_childIdx ..
    next =>
      split
      next => exact cancelChild_childIdx ..
      next => rfl
  next => rfl

theorem controlTask_childIdx_le (cfg : Settings) (call : Call) (s : Executor n) :
    s.childIdx ≤ (s.controlTask cfg call).childIdx := by
  have hadvance : s.childIdx ≤ s.advance.childIdx := s.advanceIdx_le _ _
  unfold controlTask
  split
  next =>
    unfold step
    dsimp only
    split
    next => split <;> exact hadvance
    next c _ =>
      rw [stepChild_childIdx]
      exact hadvance
  next =>
    split
    next => split <;> exact le_refl _
    next => exact le_refl _
  next => exact le_refl _

theorem filled_childIdx (cfg : Settings) (s : Executor n) (event : OrderFilledEvent) :
    (s.processOrderFilledEvent cfg event).childIdx = s.childIdx := by
  have hoversized : ∀ (s : Executor n) r orderId,
      (s.cancelOversized cfg r orderId).childIdx = s.childIdx := by
    intro s r orderId
    unfold cancelOversized
    split
    next => rfl
    next =>
      split
      next => exact cancelChild_childIdx ..
      next => rfl
  unfold processOrderFilledEvent
  split
  next => rfl
  next =>
    split
    next => rfl
    next => rw [hoversized, credit_childIdx, noteFill]

theorem completed_childIdx (s : Executor n) (event : OrderCompletedEvent) :
    (s.processOrderCompletedEvent event).childIdx = s.childIdx := by
  have hcredited : (((s.markTerminal event.orderId).noteSummary event).credit
      event.orderId).childIdx = s.childIdx := credit_childIdx ..
  unfold processOrderCompletedEvent
  split
  next => rfl
  next =>
    dsimp only
    split
    next => exact hcredited
    next => exact hcredited

theorem canceled_childIdx (cfg : Settings) (call : Call) (s : Executor n)
    (event : OrderCancelledEvent) :
    (s.processOrderCanceledEvent cfg call event).childIdx = s.childIdx := by
  unfold processOrderCanceledEvent
  split
  next => rfl
  next =>
    dsimp only
    split
    next => rfl
    next =>
      split
      next => exact placeAggressive_childIdx ..
      next => split <;> rfl

theorem failed_childIdx (cfg : Settings) (call : Call) (s : Executor n)
    (event : MarketOrderFailureEvent) :
    (s.processOrderFailedEvent cfg call event).childIdx = s.childIdx := by
  unfold processOrderFailedEvent
  split
  next => rfl
  next =>
    dsimp only
    split
    next => rfl
    next =>
      split
      next => rfl
      next =>
        split
        next => exact placeAggressive_childIdx ..
        next => rfl

end Executor

open Executor

section Step

variable (cfg : Settings) {s : Executor n} {op : Op}

/-- No operation goes back to an earlier child. -/
theorem perform_childIdx_le (s : Executor n) (op : Op) :
    s.childIdx ≤ (perform cfg s op).childIdx := by
  cases op with
  | controlTask call => exact controlTask_childIdx_le cfg call s
  | filled event => exact (filled_childIdx cfg s event).ge
  | completed event => exact (completed_childIdx s event).ge
  | canceled call event => exact (canceled_childIdx cfg call s event).ge
  | failed call event => exact (failed_childIdx cfg call s event).ge
  | earlyStop call keepPosition => exact le_refl _
  | evaluateMaxRetries call =>
      simp only [perform, evaluateMaxRetries]
      split <;> exact le_refl _

theorem perform_grows (hfresh : FreshId s op) : Grows s.orders (perform cfg s op).orders := by
  have hmarked : ∀ {call : Call} {orderId : OrderId} {after : Executor n}, op.call? = some call →
      Submits cfg call (s.markTerminal orderId) after → Grows s.orders after.orders := by
    intro call orderId after hcall hsubmits
    refine (s.markTerminal_grows orderId).trans (hsubmits.grows ?_)
    simp only [Executor.markTerminal, Registry.lookup_modify, hfresh.lookup hcall]
    split <;> rfl
  cases op with
  | controlTask call => exact (controlTask_submits cfg call s).grows (hfresh.lookup rfl)
  | filled event =>
      rcases processOrderFilledEvent_cases cfg s event with ⟨heq, _⟩ | ⟨r, _, _, hframe⟩
      · rw [perform, heq]
        exact Grows.refl s.orders
      · rw [perform, hframe.orders]
        have hnoted : Grows s.orders (s.noteFill event).orders :=
          (Grows.refl s.orders).modify event.orderId (fun _ => rfl) fun _ => id
        exact hnoted.trans (credit_grows _ _)
  | completed event =>
      rcases processOrderCompletedEvent_cases s event with ⟨heq, _⟩ | ⟨r, _, hframe⟩
      · rw [perform, heq]
        exact Grows.refl s.orders
      · rw [perform, hframe.orders]
        have hnoted : Grows s.orders ((s.markTerminal event.orderId).noteSummary event).orders :=
          (s.markTerminal_grows event.orderId).modify event.orderId (fun _ => rfl) fun _ => id
        exact hnoted.trans (credit_grows _ _)
  | canceled call event => exact hmarked rfl (processOrderCanceledEvent_submits cfg call s event)
  | failed call event => exact hmarked rfl (processOrderFailedEvent_submits cfg call s event)
  | earlyStop call keepPosition => exact Grows.refl s.orders
  | evaluateMaxRetries call =>
      rw [perform, (Frame.evaluateMaxRetries cfg call s).orders]
      exact Grows.refl s.orders

/-- What an operation places is new, recorded for its child, and works. -/
theorem perform_recorded (hfresh : FreshId s op) :
    (perform cfg s op).placed = s.placed ∨ ∃ order, s.orders.lookup order.orderId = none ∧
      (perform cfg s op).placed = s.placed ++ [order] ∧
      ∃ r, (perform cfg s op).orders.lookup order.orderId = some r ∧ r.child = order.child ∧
        r.terminal = false := by
  have hsubmits : ∀ {call : Call} (t : Executor n), op.call? = some call →
      t.placed = s.placed → Submits cfg call t (perform cfg s op) →
      (perform cfg s op).placed = s.placed ∨ ∃ order, s.orders.lookup order.orderId = none ∧
        (perform cfg s op).placed = s.placed ++ [order] ∧
        ∃ r, (perform cfg s op).orders.lookup order.orderId = some r ∧ r.child = order.child ∧
          r.terminal = false := by
    intro call t hcall hplaced h
    rw [← hplaced]
    rcases h.recorded with heq | ⟨order, hid, heq, hrecord⟩
    · exact .inl heq
    · exact .inr ⟨order, hid ▸ hfresh.lookup hcall, heq, hid ▸ hrecord⟩
  cases op with
  | controlTask call => exact hsubmits s rfl rfl (controlTask_submits cfg call s)
  | filled event =>
      rcases processOrderFilledEvent_cases cfg s event with ⟨heq, _⟩ | ⟨r, _, _, hframe⟩
      · exact .inl (by rw [perform, heq])
      · exact .inl (hframe.placed.trans (credit_placed _))
  | completed event =>
      rcases processOrderCompletedEvent_cases s event with ⟨heq, _⟩ | ⟨r, _, hframe⟩
      · exact .inl (by rw [perform, heq])
      · exact .inl (hframe.placed.trans (credit_placed _))
  | canceled call event =>
      exact hsubmits (s.markTerminal event.orderId) rfl rfl
        (processOrderCanceledEvent_submits cfg call s event)
  | failed call event =>
      exact hsubmits (s.markTerminal event.orderId) rfl rfl
        (processOrderFailedEvent_submits cfg call s event)
  | earlyStop call keepPosition => exact .inl rfl
  | evaluateMaxRetries call => exact .inl (Frame.evaluateMaxRetries cfg call s).placed

end Step

/-! ## Runs -/

/-- The orders come one after another, child after child. -/
structure InTurn (s : Executor n) : Prop where
  working : OneWorking s
  recorded : ∀ order ∈ s.placed,
    ∃ r, s.orders.lookup order.orderId = some r ∧ r.child = order.child
  settled : ∀ order ∈ s.placed.dropLast,
    ∃ r, s.orders.lookup order.orderId = some r ∧ r.terminal = true
  sorted : (s.placed.map PlacedOrder.child).Pairwise (· ≤ ·)
  reached : ∀ order ∈ s.placed, (order.child : ℕ) ≤ s.childIdx

namespace InTurn

variable {s : Executor n} {op : Op}

theorem init (slots : List ChildSlot) : InTurn (Executor.init slots) where
  working _ _ hlook := by cases hlook
  recorded _ horder := by cases horder
  settled _ horder := by cases horder
  sorted := List.Pairwise.nil
  reached _ horder := by cases horder

/-- In a state with one working order, any other order is settled. -/
theorem terminal_of_other (h : OneWorking s) {orderId other : OrderId} {r r' : OrderRecord n}
    (hlook : s.orders.lookup orderId = some r) (hopen : r.terminal = false)
    (hother : s.orders.lookup other = some r') (hne : other ≠ orderId) : r'.terminal = true := by
  by_contra hterminal
  obtain ⟨hchild, htracked, -⟩ := h orderId r hlook hopen
  obtain ⟨hchild', htracked', -⟩ := h other r' hother (by simpa using hterminal)
  rw [Fin.ext (hchild'.trans hchild.symm), htracked] at htracked'
  exact hne (Option.some.inj htracked').symm

theorem perform (h : InTurn s) (cfg : Settings) (hfresh : FreshId s op) (honce : EndsOnce s op) :
    InTurn (perform cfg s op) := by
  have hworking := h.working.perform cfg honce
  have hgrows := perform_grows cfg hfresh
  have hindex := perform_childIdx_le cfg s op
  have hrecorded : ∀ order ∈ s.placed, ∃ r,
      (PassiveAggressive.perform cfg s op).orders.lookup order.orderId = some r ∧
        r.child = order.child := by
    intro order horder
    obtain ⟨r, hlook, hchild⟩ := h.recorded order horder
    obtain ⟨r', hlook', hchild', -⟩ := hgrows _ r hlook
    exact ⟨r', hlook', hchild'.trans hchild⟩
  rcases perform_recorded cfg hfresh with heq | ⟨last, hnew, heq, r, hlook, hchild, hopen⟩
  · refine ⟨hworking, ?_, fun order horder => ?_, ?_, fun order horder => ?_⟩
    · rw [heq]
      exact hrecorded
    · rw [heq] at horder
      obtain ⟨r, hlook, hterminal⟩ := h.settled order horder
      obtain ⟨r', hlook', -, hkept⟩ := hgrows _ r hlook
      exact ⟨r', hlook', hkept hterminal⟩
    · rw [heq]
      exact h.sorted
    · rw [heq] at horder
      exact (h.reached order horder).trans hindex
  · -- the new order works, so every earlier one has ended, and its child is the current one
    have hcurrent : (last.child : ℕ) = (PassiveAggressive.perform cfg s op).childIdx :=
      hchild ▸ (hworking last.orderId r hlook hopen).1
    refine ⟨hworking, ?_, ?_, ?_, ?_⟩
    · rw [heq, List.forall_mem_append, List.forall_mem_singleton]
      exact ⟨hrecorded, r, hlook, hchild⟩
    · rw [heq, List.dropLast_concat]
      intro order horder
      obtain ⟨r', hlook', -⟩ := hrecorded order horder
      refine ⟨r', hlook', terminal_of_other hworking hlook hopen hlook' fun hsame => ?_⟩
      obtain ⟨r₀, hlook₀, -⟩ := h.recorded order horder
      rw [hsame, hnew] at hlook₀
      cases hlook₀
    · rw [heq, List.map_append, List.pairwise_append]
      refine ⟨h.sorted, List.pairwise_singleton _ _, fun c hc other hother => ?_⟩
      obtain ⟨order, horder, rfl⟩ := List.mem_map.mp hc
      obtain rfl := List.mem_singleton.mp hother
      exact Fin.le_def.mpr (((h.reached order horder).trans hindex).trans_eq hcurrent.symm)
    · rw [heq, List.forall_mem_append, List.forall_mem_singleton]
      exact ⟨fun order horder => (h.reached order horder).trans hindex, hcurrent.le⟩

end InTurn

/-- In every run in which the venue ends each order once, all orders placed
before the last one have had their terminal event, the children get their orders
in turn, and an order that still works is the last one placed: its child is the
current one and waits for it. -/
theorem orders_come_in_turn (cfg : Settings) (slots : List ChildSlot) (ops : List Op)
    (hlegal : Along (perform cfg) (fun s op => FreshId s op ∧ EndsOnce s op) (init slots) ops) :
    let s := run (perform cfg) (init slots) ops
    (∀ order ∈ s.placed.dropLast,
        ∃ r, s.orders.lookup order.orderId = some r ∧ r.terminal = true) ∧
      (s.placed.map PlacedOrder.child).Pairwise (· ≤ ·) ∧
      ∀ order ∈ s.placed, ∀ r, s.orders.lookup order.orderId = some r → r.terminal = false →
        s.placed.getLast? = some order ∧ (order.child : ℕ) = s.childIdx ∧
          (s.children order.child).trackedOrder = some order.orderId ∧
          (s.children order.child).status.isWaiting := by
  intro s
  have hturn : InTurn s := run_invariant InTurn
    (fun _ _ h hop => h.perform cfg hop.1 hop.2) (InTurn.init slots) hlegal
  refine ⟨hturn.settled, hturn.sorted, fun order horder r hlook hopen => ?_⟩
  obtain ⟨r', hlook', hchild⟩ := hturn.recorded order horder
  rw [hlook] at hlook'
  obtain rfl := Option.some.inj hlook'
  obtain ⟨hcurrent, htracked, hwaiting⟩ := hturn.working order.orderId r hlook hopen
  rw [hchild] at hcurrent htracked hwaiting
  refine ⟨?_, hcurrent, htracked, hwaiting⟩
  cases hlast : s.placed.getLast? with
  | none =>
      rw [List.getLast?_eq_none_iff.mp hlast] at horder
      cases horder
  | some last =>
      rw [← List.dropLast_append_getLast? last hlast, List.mem_append, List.mem_singleton] at horder
      rcases horder with hearlier | rfl
      · obtain ⟨r', hlook', hterminal⟩ := hturn.settled order hearlier
        rw [hlook] at hlook'
        rw [Option.some.inj hlook', hterminal] at hopen
        cases hopen
      · rfl

/-- The first child's order is cancelled, replaced and completed; the second
child's order then works. -/
def twoChildrenRun : List Op :=
  [.controlTask { now := 0, bestBid := some 10, orderId := "a" },
    .controlTask { now := 2, orderId := "" },
    .canceled { now := 2, orderId := "" } { orderId := "a" },
    .controlTask { now := 3, bestBid := some 10, orderId := "b" },
    .completed { orderId := "b", baseAssetAmount := 1 },
    .controlTask { now := 4, bestBid := some 10, orderId := "c" }]

theorem orders_come_in_turn_twoChildren :
    let cfg : Settings := { sampleConfig with totalAmountBase := 2 }
    let s := run (perform cfg) (init [{ target := 1 }, { target := 1 }]) twoChildrenRun
    s.placed.map (fun order => (order.orderId, order.child)) = [("a", 0), ("b", 0), ("c", 1)] ∧
      (∀ order ∈ s.placed.dropLast,
        ∃ r, s.orders.lookup order.orderId = some r ∧ r.terminal = true) ∧
      (s.placed.map PlacedOrder.child).Pairwise (· ≤ ·) ∧
      ∀ order ∈ s.placed, ∀ r, s.orders.lookup order.orderId = some r → r.terminal = false →
        s.placed.getLast? = some order ∧ (order.child : ℕ) = s.childIdx ∧
          (s.children order.child).trackedOrder = some order.orderId ∧
          (s.children order.child).status.isWaiting :=
  ⟨by decide +kernel, orders_come_in_turn { sampleConfig with totalAmountBase := 2 }
    [{ target := 1 }, { target := 1 }] twoChildrenRun (by decide +kernel)⟩

end Opms.PassiveAggressive
