import Opms.PassiveAggressive.Accounting
import Opms.PassiveAggressive.Lifecycle

/-! # Where orders are placed

Orders are sent from ticks and from inside the cancel and failure callbacks.
Every one of these paths checks that the execution still runs, prices a limit
from the book, and copies side and action from the configuration. An execution
that opens never reaches the aggressive status, from which market orders come.
-/

namespace Opms.PassiveAggressive

open Foundation

variable {n : ℕ}

namespace Executor

/-! ## Executions that never cross -/

/-- No child is aggressive and no market order was sent. -/
structure Passive (s : Executor n) : Prop where
  child : ∀ c, (s.children c).status ≠ .aggressive
  placed : ∀ order ∈ s.placed, order.orderType ≠ .market

namespace Passive

variable {s : Executor n}

theorem modifyChild (h : Passive s) (c : Fin n) {change : ChildSlot → ChildSlot}
    (hstatus : (change (s.children c)).status ≠ .aggressive) :
    Passive (s.modifyChild c change) := by
  refine ⟨fun other => ?_, h.placed⟩
  by_cases heq : other = c
  · subst heq
    rwa [modifyChild_children_self]
  · rw [s.modifyChild_children_ne heq]
    exact h.child other

theorem cancelChild (h : Passive s) (c : Fin n) (reason : CancelReason) :
    Passive (s.cancelChild c reason) := by
  unfold Executor.cancelChild
  split
  · exact h
  · next orderId _ =>
    have hlog : Passive { s with cancelRequests := s.cancelRequests ++ [orderId] } :=
      ⟨h.child, h.placed⟩
    exact hlog.modifyChild c (by simp)

theorem submitLimit (h : Passive s) (cfg : Settings) (call : Call) (c : Fin n) (amount : ℚ)
    (price : Option ℚ) : Passive (s.submit cfg call c .limit amount price) := by
  refine ⟨fun other => ?_, fun order horder => ?_⟩
  · simp only [Executor.submit, Function.update_apply]
    split
    · exact h.child c
    · exact h.child other
  · rcases List.mem_append.mp horder with hold | hnew
    · exact h.placed order hold
    · rw [List.mem_singleton.mp hnew]
      simp

theorem placeLimit (h : Passive s) (cfg : Settings) (call : Call) (c : Fin n) :
    Passive (s.placeLimit cfg call c) := by
  unfold Executor.placeLimit
  split
  · exact h.modifyChild c (h.child c)
  · dsimp only
    split
    · exact h.modifyChild c (by simp)
    · exact (h.submitLimit cfg call c _ _).modifyChild c (by simp)

theorem stepChild (h : Passive s) (cfg : Settings) (call : Call) (c : Fin n) :
    Passive (s.stepChild cfg call c) := by
  unfold Executor.stepChild
  split
  · split
    · exact h.modifyChild c (by simp)
    · split
      · exact h
      · exact (h.modifyChild c (h.child c)).placeLimit cfg call c
  · split
    · exact h.cancelChild c _
    · split
      · exact h.cancelChild c _
      · exact h
  · exact h

theorem controlTask (h : Passive s) (cfg : Settings) (call : Call) :
    Passive (s.controlTask cfg call) := by
  have hadvance : Passive s.advance := ⟨h.child, h.placed⟩
  unfold Executor.controlTask
  split
  · unfold Executor.step
    dsimp only
    split
    · split
      · exact ⟨h.child, h.placed⟩
      · exact hadvance
    · next c _ => exact (hadvance.modifyChild c (hadvance.child c)).stepChild cfg call c
  · split
    · split
      · exact ⟨h.child, h.placed⟩
      · exact h
    · exact ⟨h.child, h.placed⟩
  · exact h

theorem backOff (h : Passive s) (cfg : Settings) (call : Call) (c : Fin n) :
    Passive (s.backOff cfg call c) := by
  have hcount : Passive { s with currentRetries := s.currentRetries + 1 } := ⟨h.child, h.placed⟩
  unfold Executor.backOff
  exact hcount.modifyChild c (by simp)

theorem credit (h : Passive s) (orderId : OrderId) : Passive (s.credit orderId) := by
  refine ⟨fun c => ?_, by rw [credit_placed]; exact h.placed⟩
  rw [credit_child_field s ChildSlot.status fun _ _ => rfl]
  exact h.child c

theorem filled (h : Passive s) (cfg : Settings) (event : OrderFilledEvent) :
    Passive (s.processOrderFilledEvent cfg event) := by
  have hnoted : Passive (s.noteFill event) := ⟨h.child, h.placed⟩
  unfold processOrderFilledEvent
  split
  · exact h
  · split
    · exact h
    · unfold cancelOversized
      split
      · exact hnoted.credit _
      · split
        · exact (hnoted.credit _).cancelChild _ _
        · exact hnoted.credit _

theorem completed (h : Passive s) (event : OrderCompletedEvent) :
    Passive (s.processOrderCompletedEvent event) := by
  have hnoted : Passive ((s.markTerminal event.orderId).noteSummary event) :=
    ⟨h.child, h.placed⟩
  unfold processOrderCompletedEvent
  split
  · exact h
  · dsimp only
    split
    · exact (hnoted.credit _).modifyChild _ (by simp)
    · exact hnoted.credit _

theorem canceled (h : Passive s) (cfg : Settings) (hopen : cfg.positionAction ≠ .close)
    (call : Call) (event : OrderCancelledEvent) :
    Passive (s.processOrderCanceledEvent cfg call event) := by
  have hmarked : Passive (s.markTerminal event.orderId) := ⟨h.child, h.placed⟩
  unfold processOrderCanceledEvent
  split
  next => exact h
  next r _ =>
    have hclear : Passive ((s.markTerminal event.orderId).modifyChild r.child fun child =>
        { child with trackedOrder := none }) := hmarked.modifyChild r.child (hmarked.child r.child)
    dsimp only
    split
    · exact hmarked
    · split
      · next hcross => exact absurd hcross.2 hopen
      · split
        · exact hclear.modifyChild r.child (by simp)
        · exact hclear.modifyChild r.child (by simp)

theorem failed (h : Passive s) (cfg : Settings) (hopen : cfg.positionAction ≠ .close)
    (call : Call) (event : MarketOrderFailureEvent) :
    Passive (s.processOrderFailedEvent cfg call event) := by
  have hmarked : Passive (s.markTerminal event.orderId) := ⟨h.child, h.placed⟩
  unfold processOrderFailedEvent
  split
  next => exact h
  next r _ =>
    dsimp only
    split
    · exact hmarked
    · split
      · next hreduce => exact absurd hreduce.1 hopen
      · split
        -- a rejected market order is sent again, and there is none
        · next hretry => exact absurd hretry.1 (hmarked.child r.child)
        · exact hmarked.backOff cfg call r.child

theorem perform (h : Passive s) (cfg : Settings) (hopen : cfg.positionAction ≠ .close)
    (op : Op) : Passive (perform cfg s op) := by
  cases op with
  | controlTask call => exact h.controlTask cfg call
  | filled event => exact h.filled cfg event
  | completed event => exact h.completed event
  | canceled call event => exact h.canceled cfg hopen call event
  | failed call event => exact h.failed cfg hopen call event
  | earlyStop call keepPosition => exact ⟨h.child, h.placed⟩
  | evaluateMaxRetries call =>
      simp only [PassiveAggressive.perform, evaluateMaxRetries]
      split
      · exact ⟨h.child, h.placed⟩
      · exact h

end Passive

end Executor

open Executor

/-! ## Placed orders -/

/-- A limit carries a finite positive price, and side and action are the
configured ones. -/
structure PlacedAsConfigured (cfg : Settings) (order : PlacedOrder n) : Prop where
  price : order.orderType = .limit → ∃ price, order.price = some price ∧ 0 < price
  side : order.side = cfg.side
  positionAction : order.positionAction = cfg.positionAction

theorem perform_placedAsConfigured (cfg : Settings) (s : Executor n) (op : Op)
    (hplaced : ∀ order ∈ s.placed, PlacedAsConfigured cfg order) :
    ∀ order ∈ (perform cfg s op).placed, PlacedAsConfigured cfg order := by
  intro order horder
  rcases perform_placed cfg s op with heq | ⟨call, t, c, orderType, price, _, places, _, heq⟩
  · exact hplaced order (heq ▸ horder)
  · rw [heq, List.mem_append, List.mem_singleton] at horder
    rcases horder with hold | rfl
    · exact hplaced order hold
    · refine ⟨fun hlimit => ?_, rfl, rfl⟩
      rcases places.kind with ⟨-, p, hprice, hpos, -⟩ | ⟨hmarket, -⟩
      · exact ⟨p, hprice, hpos⟩
      · simp [placedOrder, hmarket] at hlimit

/-- Once stopping or stopped, an execution never runs again and sends nothing. -/
theorem perform_stopped (cfg : Settings) (s : Executor n) (op : Op)
    (hstopped : s.status ≠ .running) :
    (perform cfg s op).status ≠ .running ∧ (perform cfg s op).placed = s.placed := by
  constructor
  · cases perform_life cfg s op with
    | kept _ _ hsame => rwa [hsame.status]
    | stopped _ hstatus _ => simp [hstatus]
    | ran _ _ _ hstatus _ => simp [hstatus]
    | drained _ _ _ hstatus _ => simp [hstatus]
    | exhausted _ _ hstatus _ => simp [hstatus]
    | rejected _ _ hstatus _ => simp [hstatus]
  · rcases perform_placed cfg s op with heq | ⟨_, t, _, _, _, _, places, hstatus, _⟩
    · exact heq
    · exact absurd (hstatus.symm.trans places.running) hstopped

/-- Whatever ticks, events and stop requests come in whatever order: nothing is
sent after the execution left the running status, a market order only closes,
a limit has a finite positive price, and side and action are the configured ones. -/
theorem placement_confined (cfg : Settings) {slots : List ChildSlot}
    (hslots : buildChildSlots cfg = .ok slots) (ops : List Op) :
    (∀ before after, ops = before ++ after →
        (run (perform cfg) (init slots) before).status ≠ .running →
        (run (perform cfg) (init slots) ops).status ≠ .running ∧
        (run (perform cfg) (init slots) ops).placed =
          (run (perform cfg) (init slots) before).placed) ∧
      (cfg.positionAction ≠ .close →
        ∀ order ∈ (run (perform cfg) (init slots) ops).placed, order.orderType ≠ .market) ∧
      (∀ order ∈ (run (perform cfg) (init slots) ops).placed, order.orderType = .limit →
        ∃ price, order.price = some price ∧ 0 < price) ∧
      (∀ order ∈ (run (perform cfg) (init slots) ops).placed,
        order.side = cfg.side ∧ order.positionAction = cfg.positionAction) := by
  have hplaced : ∀ order ∈ (run (perform cfg) (init slots) ops).placed,
      PlacedAsConfigured cfg order := run_invariant_always
    (fun s => ∀ order ∈ s.placed, PlacedAsConfigured cfg order)
    (fun s op hs => perform_placedAsConfigured cfg s op hs)
    (by simp [Executor.init]) ops
  refine ⟨?_, fun hopen => ?_, fun order horder => (hplaced order horder).price,
    fun order horder => ⟨(hplaced order horder).side, (hplaced order horder).positionAction⟩⟩
  · rintro before after rfl hstopped
    rw [run_append]
    exact run_invariant_always
      (fun s => s.status ≠ .running ∧ s.placed = (run (perform cfg) (init slots) before).placed)
      (fun s op hs => ⟨(perform_stopped cfg s op hs.1).1,
        (perform_stopped cfg s op hs.1).2.trans hs.2⟩) ⟨hstopped, rfl⟩ after
  · have hpassive : Passive (init slots) := by
      refine ⟨fun c => ?_, fun order horder => by simp [Executor.init] at horder⟩
      have hfresh := (buildChildSlots_fresh hslots (List.get_mem slots c)).1
      simp only [Executor.init]
      rw [hfresh]
      simp
    exact (run_invariant_always Passive (fun s op hs => hs.perform cfg hopen op) hpassive
      ops).placed

/-- The expiry cancel of a close is answered by its market order; after a stop
the rejection of that order sends nothing. -/
theorem placement_confined_crossed :
    let slots : List ChildSlot := [{ target := 1 }]
    let crossing : List Op :=
      [.controlTask { now := 0, bestBid := some 10, orderId := "a" },
        .controlTask { now := 5, orderId := "b" },
        .canceled { now := 5, orderId := "b" } { orderId := "a" },
        .earlyStop { now := 6, orderId := "c" } false]
    let late : Op := .failed { now := 7, orderId := "c" } { orderId := "b" }
    let stopped := run (perform sampleConfig) (init slots) crossing
    stopped.status = .shuttingDown ∧
      (stopped.placed.map fun order => (order.orderType, order.price)) =
        [(.limit, some 10), (.market, none)] ∧
      (run (perform sampleConfig) (init slots) (crossing ++ [late])).placed = stopped.placed := by
  intro slots crossing late stopped
  have hslots : buildChildSlots sampleConfig = .ok slots := by decide +kernel
  have hstopped : stopped.status = .shuttingDown := by decide +kernel
  refine ⟨hstopped, by decide +kernel, ?_⟩
  exact ((placement_confined sampleConfig hslots (crossing ++ [late])).1 crossing [late] rfl
    (by simp [stopped, hstopped])).2

end Opms.PassiveAggressive
