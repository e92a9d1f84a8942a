import Opms.PassiveAggressive.Accounting
import Opms.PassiveAggressive.Lifecycle

/-! # Detaching only from settled orders

Once an execution has ended, nobody listens to its orders any more. The tick
waits for the last of them; a forced close does not. While the venue ends each
order once, at most one order works at a time, so the rejection that forces a
close settles the only one, and exhausted retries alone can abandon an order.
-/

namespace Opms.PassiveAggressive

open Foundation

variable {n : ℕ}

namespace Executor

/-! ## Settled orders -/

/-- The order may still fill: no terminal event, and not fully credited. -/
def Unsettled (s : Executor n) (orderId : OrderId) : Prop :=
  ∃ r ∈ s.orders.lookup orderId, r.terminal = false ∧ r.credited < r.amount

/-- Every submitted order received a terminal event or is fully credited. -/
def Settled (s : Executor n) : Prop :=
  ∀ orderId r, s.orders.lookup orderId = some r → r.terminal = true ∨ r.amount ≤ r.credited

/-- The code's own test for settled orders. -/
theorem outstanding_eq_zero_iff (s : Executor n) : s.outstanding = 0 ↔ Settled s := by
  rw [outstanding, Registry.total_eq_zero_iff]
  · refine forall₃_congr fun orderId r _ => ?_
    cases r.terminal <;> simp
  · intro orderId r
    split
    · exact le_rfl
    · exact le_max_right _ _

theorem settled_iff (s : Executor n) : Settled s ↔ ∀ orderId, ¬ s.Unsettled orderId := by
  simp only [Settled, Unsettled, Option.mem_def, not_exists, not_and, not_lt]
  refine forall₃_congr fun orderId r _ => ?_
  cases r.terminal <;> simp

theorem Frame.settled_iff {s t : Executor n} (h : Frame s t) : Settled t ↔ Settled s := by
  rw [Settled, Settled, h.orders]

/-- Ending one order settles the rest only when the rest was settled. -/
theorem settled_markTerminal_iff (s : Executor n) (orderId : OrderId) :
    Settled (s.markTerminal orderId) ↔ ∀ other ≠ orderId, ¬ s.Unsettled other := by
  rw [Executor.settled_iff]
  refine forall_congr' fun other => ?_
  by_cases heq : other = orderId
  · simp [heq, Unsettled, markTerminal]
  · simp [heq, Unsettled, markTerminal, Registry.lookup_modify_ne _ heq]

end Executor

open Executor

/-! ## Ending with settled orders -/

/-- An operation that ends the execution leaves only settled orders behind. -/
def DetachesSettled (cfg : Settings) (s : Executor n) (op : Op) : Prop :=
  s.status ≠ .terminated → (perform cfg s op).status = .terminated → Settled (perform cfg s op)

/-- A forced close of a running or stopping execution, with an order unsettled
that the closing event does not end. -/
def Abandons (cfg : Settings) (s : Executor n) (op : Op) : Prop :=
  s.status ≠ .terminated ∧ ForcesClose cfg s op ∧ match op with
    | .failed _ event => ∃ other, other ≠ event.orderId ∧ s.Unsettled other
    | _ => ∃ orderId, s.Unsettled orderId

theorem detachesSettled_iff (cfg : Settings) (s : Executor n) (op : Op) :
    DetachesSettled cfg s op ↔ ¬ Abandons cfg s op := by
  unfold DetachesSettled
  cases perform_life cfg s op with
  | kept hunforced _ hsame =>
      refine iff_of_true (fun hopen hended => ?_) fun habandons => hunforced habandons.2.1
      exact absurd (hsame.status.symm.trans hended) hopen
  | stopped _ hstatus _ =>
      exact iff_of_true (fun _ hended => by simp [hstatus] at hended)
        fun habandons => habandons.2.1
  | ran _ hsettled hframe _ _ =>
      exact iff_of_true (fun _ _ => hframe.settled_iff.mpr (s.outstanding_eq_zero_iff.mp hsettled))
        fun habandons => habandons.2.1
  | drained _ hsettled hframe _ _ =>
      exact iff_of_true (fun _ _ => hframe.settled_iff.mpr (s.outstanding_eq_zero_iff.mp hsettled))
        fun habandons => habandons.2.1
  | exhausted hover hframe hstatus _ =>
      rw [hframe.settled_iff, Executor.settled_iff]
      simp [Abandons, ForcesClose, hover, hstatus]
  | rejected hcloses hframe hstatus _ =>
      rw [hframe.settled_iff, settled_markTerminal_iff]
      simp [Abandons, ForcesClose, hcloses, hstatus]

/-! ## One working order at a time -/

/-- The child waits for an event of its order. -/
def ChildStatus.isWaiting : ChildStatus → Bool
  | .active | .canceling | .aggressive => true
  | _ => false

namespace Executor

/-- No order waits for its terminal event. -/
def Quiet (s : Executor n) : Prop :=
  ∀ orderId r, s.orders.lookup orderId = some r → r.terminal = true

/-- An order without a terminal event is the one its child waits for, and that
child is the current one. -/
def OneWorking (s : Executor n) : Prop :=
  ∀ orderId r, s.orders.lookup orderId = some r → r.terminal = false →
    (r.child : ℕ) = s.childIdx ∧ (s.children r.child).trackedOrder = some orderId ∧
      (s.children r.child).status.isWaiting

theorem Quiet.oneWorking {s : Executor n} (h : Quiet s) : OneWorking s := by
  intro orderId r hlook hopen
  rw [h orderId r hlook] at hopen
  cases hopen

theorem Quiet.settled {s : Executor n} (h : Quiet s) : Settled s :=
  fun orderId r hlook => .inl (h orderId r hlook)

namespace OneWorking

variable {s t : Executor n}

/-- The terminal event of a working order leaves none working. -/
theorem quiet_markTerminal (h : OneWorking s) {orderId : OrderId} {r : OrderRecord n}
    (hlook : s.orders.lookup orderId = some r) (hopen : r.terminal = false) :
    Quiet (s.markTerminal orderId) := by
  intro other r' hlook'
  rw [markTerminal, Registry.lookup_modify] at hlook'
  split at hlook'
  next =>
    obtain ⟨_, _, rfl⟩ := Option.map_eq_some_iff.mp hlook'
    rfl
  next hne =>
    by_contra hterminal
    -- two working orders would both be the tracked order of the current child
    obtain ⟨hchild, htracked, -⟩ := h orderId r hlook hopen
    obtain ⟨hchild', htracked', -⟩ := h other r' hlook' (by simpa using hterminal)
    rw [Fin.ext (hchild'.trans hchild.symm), htracked] at htracked'
    exact hne (Option.some.inj htracked').symm

/-- Nothing works while the current child waits for nothing. -/
theorem quiet_of_child (h : OneWorking s) {c : Fin n} (hcurrent : (c : ℕ) = s.childIdx)
    (hidle : (s.children c).status.isWaiting = false) : Quiet s := by
  intro orderId r hlook
  by_contra hterminal
  obtain ⟨hchild, -, hwaiting⟩ := h orderId r hlook (by simpa using hterminal)
  rw [Fin.ext (hchild.trans hcurrent.symm), hidle] at hwaiting
  cases hwaiting

/-- Steps that keep the records' children and terminal marks, the tracked
orders, and the children that wait. -/
theorem of_same (h : OneWorking s) (hidx : t.childIdx = s.childIdx)
    (horders : ∀ orderId r, t.orders.lookup orderId = some r →
      ∃ r₀, s.orders.lookup orderId = some r₀ ∧ r₀.child = r.child ∧ r₀.terminal = r.terminal)
    (htracked : ∀ c, (t.children c).trackedOrder = (s.children c).trackedOrder)
    (hwaiting : ∀ c, (s.children c).status.isWaiting → (t.children c).status.isWaiting) :
    OneWorking t := by
  intro orderId r hlook hopen
  obtain ⟨r₀, hlook₀, hchild, hterminal⟩ := horders orderId r hlook
  obtain ⟨hcurrent, htrack, hwait⟩ := h orderId r₀ hlook₀ (hterminal.trans hopen)
  rw [← hchild, hidx, htracked]
  exact ⟨hcurrent, htrack, hwaiting _ hwait⟩

theorem modifyChild (h : OneWorking s) (c : Fin n) {change : ChildSlot → ChildSlot}
    (htracked : (change (s.children c)).trackedOrder = (s.children c).trackedOrder)
    (hwaiting : (s.children c).status.isWaiting → (change (s.children c)).status.isWaiting) :
    OneWorking (s.modifyChild c change) := by
  refine h.of_same rfl (fun orderId r hlook => ⟨r, hlook, rfl, rfl⟩)
    (s.modifyChild_field ChildSlot.trackedOrder c htracked) fun other hwait => ?_
  by_cases heq : other = c
  · subst heq
    rw [modifyChild_children_self]
    exact hwaiting hwait
  · rwa [s.modifyChild_children_ne heq]

theorem cancelChild (h : OneWorking s) (c : Fin n) (reason : CancelReason) :
    OneWorking (s.cancelChild c reason) := by
  unfold Executor.cancelChild
  split
  · exact h
  · next orderId _ =>
    have hlog : OneWorking { s with cancelRequests := s.cancelRequests ++ [orderId] } := h
    exact hlog.modifyChild c rfl fun _ => rfl

theorem cancelOversized (h : OneWorking s) (cfg : Settings) (r : OrderRecord n)
    (orderId : OrderId) : OneWorking (s.cancelOversized cfg r orderId) := by
  unfold Executor.cancelOversized
  split
  · exact h
  · split
    · exact h.cancelChild _ _
    · exact h

/-- An update of a record that keeps its child and its terminal mark. -/
theorem modify (h : OneWorking s) (orderId : OrderId) {change : OrderRecord n → OrderRecord n}
    (hchild : ∀ r, (change r).child = r.child) (hterminal : ∀ r, (change r).terminal = r.terminal) :
    OneWorking { s with orders := s.orders.modify orderId change } := by
  refine h.of_same rfl (fun other r hlook => ?_) (fun _ => rfl) fun _ => id
  dsimp only at hlook
  rw [Registry.lookup_modify] at hlook
  split at hlook
  next =>
    obtain ⟨r₀, hlook₀, rfl⟩ := Option.map_eq_some_iff.mp hlook
    exact ⟨r₀, hlook₀, (hchild r₀).symm, (hterminal r₀).symm⟩
  next => exact ⟨r, hlook, rfl, rfl⟩

theorem noteFill (h : OneWorking s) (event : OrderFilledEvent) :
    OneWorking (s.noteFill event) := by
  have hmodify : OneWorking { s with orders := s.orders.modify event.orderId (withFill event) } :=
    h.modify event.orderId (fun _ => rfl) fun _ => rfl
  exact hmodify

theorem credit (h : OneWorking s) (orderId : OrderId) : OneWorking (s.credit orderId) := by
  unfold Executor.credit
  split
  · exact h
  · next r _ =>
    dsimp only
    split
    · exact h
    · have hcredited : OneWorking { s with
          orders := s.orders.modify orderId fun r' =>
            { r' with credited := r'.credited + creditDelta r } } :=
        h.modify orderId (fun _ => rfl) fun _ => rfl
      have htotal : OneWorking { s with
          orders := s.orders.modify orderId fun r' =>
            { r' with credited := r'.credited + creditDelta r }
          cumulativeFilled := s.cumulativeFilled + creditDelta r } := hcredited
      exact htotal.modifyChild r.child rfl id

end OneWorking

namespace Quiet

variable {s : Executor n}

theorem modifyChild (h : Quiet s) (c : Fin n) (change : ChildSlot → ChildSlot) :
    Quiet (s.modifyChild c change) := h

/-- An update of a record that keeps its terminal mark. -/
theorem modify (h : Quiet s) (orderId : OrderId) {change : OrderRecord n → OrderRecord n}
    (hterminal : ∀ r, (change r).terminal = r.terminal) :
    Quiet { s with orders := s.orders.modify orderId change } := by
  intro other r hlook
  dsimp only at hlook
  rw [Registry.lookup_modify] at hlook
  split at hlook
  next =>
    obtain ⟨r₀, hlook₀, rfl⟩ := Option.map_eq_some_iff.mp hlook
    exact (hterminal r₀).trans (h other r₀ hlook₀)
  next => exact h other r hlook

theorem credit (h : Quiet s) (orderId : OrderId) : Quiet (s.credit orderId) := by
  cases hlook : s.orders.lookup orderId with
  | none =>
      unfold Executor.credit
      simpa [hlook] using h
  | some r =>
      have hcredited : Quiet { s with
          orders := s.orders.modify orderId fun r' =>
            { r' with credited := r'.credited + gain r } } := h.modify orderId fun _ => rfl
      unfold Quiet
      rw [s.credit_orders hlook]
      exact hcredited

/-- The one order placed while nothing works is the current child's. -/
theorem submit (h : Quiet s) (cfg : Settings) (call : Call) {c : Fin n}
    (hcurrent : (c : ℕ) = s.childIdx) (orderType : OrderType) (amount : ℚ) (price : Option ℚ)
    {change : ChildSlot → ChildSlot}
    (htracked : ∀ child, (change child).trackedOrder = child.trackedOrder)
    (hwaiting : ∀ child, (change child).status.isWaiting) :
    OneWorking ((s.submit cfg call c orderType amount price).modifyChild c change) := by
  intro orderId r hlook hopen
  rw [modifyChild_orders] at hlook
  simp only [Executor.submit, Registry.lookup_set] at hlook
  split at hlook
  next heq =>
    obtain rfl := Option.some.inj hlook
    rw [modifyChild_children_self, htracked]
    exact ⟨hcurrent, by simp [Executor.submit, heq], hwaiting _⟩
  next =>
    rw [h orderId r hlook] at hopen
    cases hopen

theorem placeLimit (h : Quiet s) (cfg : Settings) (call : Call) {c : Fin n}
    (hcurrent : (c : ℕ) = s.childIdx) : OneWorking (s.placeLimit cfg call c) := by
  unfold Executor.placeLimit
  split
  · exact (h.modifyChild c _).oneWorking
  · dsimp only
    split
    · exact (h.modifyChild c _).oneWorking
    · exact h.submit cfg call hcurrent _ _ _ (fun _ => rfl) fun _ => rfl

theorem placeAggressive (h : Quiet s) (cfg : Settings) (call : Call) {c : Fin n}
    (hcurrent : (c : ℕ) = s.childIdx) : OneWorking (s.placeAggressive cfg call c) := by
  have hidle := h.modifyChild c fun child => { child with status := .idle }
  unfold Executor.placeAggressive
  dsimp only
  split
  · exact hidle.oneWorking
  · split
    · exact (hidle.modifyChild c _).oneWorking
    · exact hidle.submit cfg call hcurrent _ _ _ (fun _ => rfl) fun _ => rfl

end Quiet

theorem activeChild_val {s : Executor n} {c : Fin n} (hactive : s.activeChild = some c) :
    (c : ℕ) = s.childIdx := by
  simp only [activeChild] at hactive
  split at hactive
  · exact congrArg Fin.val (Option.some.inj hactive).symm
  · cases hactive

/-- Slots passed over wait for nothing, so the index moves only when none works. -/
theorem OneWorking.advance {s : Executor n} (h : OneWorking s) : OneWorking s.advance := by
  by_cases hmove : s.advance.childIdx = s.childIdx
  · exact h.of_same hmove (fun orderId r hlook => ⟨r, hlook, rfl, rfl⟩) (fun _ => rfl) fun _ => id
  · have hquiet : Quiet s := by
      by_cases hidx : s.childIdx < n
      · refine h.quiet_of_child (c := ⟨s.childIdx, hidx⟩) rfl ?_
        by_contra hwaiting
        refine hmove ?_
        simp only [Executor.advance]
        cases n - s.childIdx with
        | zero => rfl
        | succ fuel =>
            have hopen : (s.children ⟨s.childIdx, hidx⟩).status.isTerminal = false := by
              cases hstatus : (s.children ⟨s.childIdx, hidx⟩).status <;>
                simp [hstatus, ChildStatus.isWaiting, ChildStatus.isTerminal] at hwaiting ⊢
            simp [advanceIdx, hidx, hopen]
      · refine absurd ?_ hmove
        have hfuel : n - s.childIdx = 0 := Nat.sub_eq_zero_of_le (not_lt.mp hidx)
        simp [Executor.advance, hfuel, advanceIdx]
    exact Quiet.oneWorking (s := s.advance) hquiet

theorem OneWorking.stepChild {s : Executor n} (h : OneWorking s) (cfg : Settings) (call : Call)
    {c : Fin n} (hcurrent : (c : ℕ) = s.childIdx) : OneWorking (s.stepChild cfg call c) := by
  unfold Executor.stepChild
  split
  next hidle =>
    have hquiet : Quiet s := h.quiet_of_child hcurrent (by rw [hidle]; rfl)
    split
    · exact (hquiet.modifyChild c _).oneWorking
    · split
      · exact h
      · exact (hquiet.modifyChild c _).placeLimit cfg call hcurrent
  next =>
    split
    · exact h.cancelChild c _
    · split
      · exact h.cancelChild c _
      · exact h
  next => exact h

theorem OneWorking.controlTask {s : Executor n} (h : OneWorking s) (cfg : Settings)
    (call : Call) : OneWorking (s.controlTask cfg call) := by
  unfold Executor.controlTask
  split
  · unfold Executor.step
    dsimp only
    split
    · split
      · exact h.advance
      · exact h.advance
    · next c hactive =>
      have hstart : OneWorking (s.advance.startCycle call c) :=
        h.advance.modifyChild c rfl id
      exact hstart.stepChild cfg call (activeChild_val hactive)
  · split
    · split
      · exact h
      · exact h
    · exact h
  · exact h

end Executor

/-! ## Runs in which the venue ends each order once -/

/-- The order a terminal event is about. -/
def Op.endedOrder? : Op → Option OrderId
  | .completed event => some event.orderId
  | .canceled _ event => some event.orderId
  | .failed _ event => some event.orderId
  | _ => none

/-- A terminal event comes for an order that had none before. -/
def EndsOnce (s : Executor n) (op : Op) : Prop :=
  ∀ orderId ∈ op.endedOrder?, ∀ r ∈ s.orders.lookup orderId, r.terminal = false

instance (s : Executor n) (op : Op) : Decidable (EndsOnce s op) :=
  inferInstanceAs (Decidable (∀ orderId ∈ op.endedOrder?, ∀ r ∈ s.orders.lookup orderId, _))

namespace Executor.OneWorking

variable {s : Executor n} (h : OneWorking s) (cfg : Settings)

include h

theorem canceled (call : Call) (event : OrderCancelledEvent)
    (honce : EndsOnce s (.canceled call event)) :
    OneWorking (s.processOrderCanceledEvent cfg call event) := by
  unfold processOrderCanceledEvent
  split
  next => exact h
  next r hlook =>
    have hopen := honce event.orderId rfl r hlook
    have hquiet := h.quiet_markTerminal hlook hopen
    have hclear := hquiet.modifyChild r.child fun child => { child with trackedOrder := none }
    dsimp only
    split
    · exact hquiet.oneWorking
    · split
      · exact hclear.placeAggressive cfg call (h event.orderId r hlook hopen).1
      · split
        · exact (hclear.modifyChild r.child _).oneWorking
        · exact (hclear.modifyChild r.child _).oneWorking

theorem failed (call : Call) (event : MarketOrderFailureEvent)
    (honce : EndsOnce s (.failed call event)) :
    OneWorking (s.processOrderFailedEvent cfg call event) := by
  unfold processOrderFailedEvent
  split
  next => exact h
  next r hlook =>
    have hopen := honce event.orderId rfl r hlook
    have hquiet := h.quiet_markTerminal hlook hopen
    have hback : Quiet ((s.markTerminal event.orderId).backOff cfg call r.child) := hquiet
    dsimp only
    split
    · exact hquiet.oneWorking
    · split
      · exact Quiet.oneWorking hquiet
      · split
        · exact hback.placeAggressive cfg call (h event.orderId r hlook hopen).1
        · exact hback.oneWorking

theorem completed (event : OrderCompletedEvent) (honce : EndsOnce s (.completed event)) :
    OneWorking (s.processOrderCompletedEvent event) := by
  unfold processOrderCompletedEvent
  split
  next => exact h
  next r hlook =>
    have hquiet := h.quiet_markTerminal hlook (honce event.orderId rfl r hlook)
    have hsummary : Quiet ((s.markTerminal event.orderId).noteSummary event) :=
      hquiet.modify event.orderId fun _ => rfl
    have hcredited := hsummary.credit event.orderId
    dsimp only
    split
    · exact (hcredited.modifyChild r.child _).oneWorking
    · exact hcredited.oneWorking

theorem filled (event : OrderFilledEvent) :
    OneWorking (s.processOrderFilledEvent cfg event) := by
  unfold processOrderFilledEvent
  split
  · exact h
  · split
    · exact h
    · exact ((h.noteFill event).credit event.orderId).cancelOversized cfg _ _

theorem perform {op : Op} (honce : EndsOnce s op) : OneWorking (perform cfg s op) := by
  cases op with
  | controlTask call => exact h.controlTask cfg call
  | filled event => exact h.filled cfg event
  | completed event => exact h.completed event honce
  | canceled call event => exact h.canceled cfg call event honce
  | failed call event => exact h.failed cfg call event honce
  | earlyStop call keepPosition => exact h
  | evaluateMaxRetries call =>
      simp only [PassiveAggressive.perform, evaluateMaxRetries]
      split
      · exact h
      · exact h

end Executor.OneWorking

/-- Exhausted retries close a running or stopping execution with an order unsettled. -/
def AbandonsOnRetries (cfg : Settings) (s : Executor n) : Op → Prop
  | .evaluateMaxRetries _ =>
      s.status ≠ .terminated ∧ s.currentRetries > cfg.maxRetries ∧ ∃ orderId, s.Unsettled orderId
  | _ => False

/-- With one working order, the rejection that forces a close settles it. -/
theorem Executor.OneWorking.abandons_iff {s : Executor n} (h : OneWorking s) (cfg : Settings)
    {op : Op} (honce : EndsOnce s op) : Abandons cfg s op ↔ AbandonsOnRetries cfg s op := by
  cases op with
  | evaluateMaxRetries call => exact Iff.rfl
  | failed call event =>
      refine iff_of_false (fun habandons => ?_) id
      obtain ⟨-, ⟨-, -, r, hlook, -⟩, other, hne, hunsettled⟩ := habandons
      have hquiet := h.quiet_markTerminal hlook (honce event.orderId rfl r hlook)
      exact (settled_markTerminal_iff s event.orderId).mp hquiet.settled other hne hunsettled
  | _ => exact iff_of_false (fun habandons => habandons.2.1) id

/-- An execution detaches from settled orders only, exactly when no forced
close abandons an order. Where the venue ends each order once, only exhausted
retries do. -/
theorem detaches_settled_iff (cfg : Settings) (slots : List ChildSlot) (ops : List Op) :
    (Along (perform cfg) (DetachesSettled cfg) (init slots) ops ↔
        Along (perform cfg) (fun s op => ¬ Abandons cfg s op) (init slots) ops) ∧
      (Along (perform cfg) EndsOnce (init slots) ops →
        (Along (perform cfg) (DetachesSettled cfg) (init slots) ops ↔
          Along (perform cfg) (fun s op => ¬ AbandonsOnRetries cfg s op) (init slots) ops)) := by
  have hexact : Along (perform cfg) (DetachesSettled cfg) (init slots) ops ↔
      Along (perform cfg) (fun s op => ¬ Abandons cfg s op) (init slots) ops :=
    Along.congr (detachesSettled_iff cfg)
  refine ⟨hexact, fun honce => hexact.trans ?_⟩
  refine Along.congr_of_invariant OneWorking
    (fun s op hs hop => not_congr (hs.abandons_iff cfg hop))
    (fun s op hs hop _ => hs.perform cfg hop) ?_ honce
  exact fun orderId r hlook => by simp [Executor.init] at hlook

/-- The first order is rejected, which uses up the only retry; the replacement
then rests on the book. -/
def retriedRun : List Op :=
  [.controlTask { now := 0, bestBid := some 10, orderId := "a" },
    .failed { now := 0, orderId := "b" } { orderId := "a" },
    .controlTask { now := 2, bestBid := some 10, orderId := "b" }]

/-- Retries are evaluated while the replacement rests: the execution ends and
the order stays on the book. -/
theorem exhausted_retries_abandon_resting_order :
    let cfg : Settings := { sampleConfig with maxRetries := 0 }
    let slots : List ChildSlot := [{ target := 1 }]
    let check : Op := .evaluateMaxRetries { now := 3, orderId := "c" }
    let resting := run (perform cfg) (init slots) retriedRun
    buildChildSlots cfg = .ok slots ∧
      Along (perform cfg) EndsOnce (init slots) (retriedRun ++ [check]) ∧
      resting.status = .running ∧ (perform cfg resting check).status = .terminated ∧
      (perform cfg resting check).outstanding = 1 ∧ ¬ DetachesSettled cfg resting check := by
  intro cfg slots check resting
  have hrun : buildChildSlots cfg = .ok slots ∧
      Along (perform cfg) EndsOnce (init slots) (retriedRun ++ [check]) ∧
      resting.status = .running ∧ (perform cfg resting check).status = .terminated ∧
      (perform cfg resting check).outstanding = 1 := by
    decide +kernel
  obtain ⟨hslots, honce, hrunning, hended, houtstanding⟩ := hrun
  refine ⟨hslots, honce, hrunning, hended, houtstanding, fun hsettled => ?_⟩
  have hzero := (outstanding_eq_zero_iff _).mpr (hsettled (by simp [hrunning]) hended)
  rw [houtstanding] at hzero
  exact one_ne_zero hzero

end Opms.PassiveAggressive
