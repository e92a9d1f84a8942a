import Opms.PassiveAggressive.Frame
import Mathlib.Tactic.Linarith

/-! # Crediting orders

Every unit is credited to one order record, and through it to that record's
child and to the executor's total. The three views stay in step under any
order of events.
-/

namespace Opms.PassiveAggressive

open Foundation

variable {n : ℕ}

namespace Executor

/-! ## The effect of one credit -/

/-- What `_credit` adds: the positive part of the delta. -/
def gain (r : OrderRecord n) : ℚ := max (creditDelta r) 0

theorem gain_nonneg (r : OrderRecord n) : 0 ≤ gain r := le_max_right _ _

section Credit

variable (s : Executor n) {orderId : OrderId} {r : OrderRecord n}
  (hlook : s.orders.lookup orderId = some r)

include hlook

theorem credit_orders : (s.credit orderId).orders =
    s.orders.modify orderId fun r' => { r' with credited := r'.credited + gain r } := by
  simp only [credit, hlook]
  split
  next hnonpos =>
    refine (s.orders.modify_eq_self fun value hvalue => ?_).symm
    rw [gain, max_eq_right hnonpos, add_zero]
  next hpos =>
    rw [modifyChild_orders, gain, max_eq_left (le_of_lt (not_le.mp hpos))]

theorem credit_cumulativeFilled :
    (s.credit orderId).cumulativeFilled = s.cumulativeFilled + gain r := by
  simp only [credit, hlook]
  split
  next hnonpos => rw [gain, max_eq_right hnonpos, add_zero]
  next hpos => rw [modifyChild_cumulativeFilled, gain, max_eq_left (le_of_lt (not_le.mp hpos))]

theorem credit_filled (c : Fin n) : ((s.credit orderId).children c).filled =
    (s.children c).filled + if r.child = c then gain r else 0 := by
  simp only [credit, hlook]
  split
  next hnonpos => simp [gain, max_eq_right hnonpos]
  next hpos =>
    rw [gain, max_eq_left (le_of_lt (not_le.mp hpos))]
    by_cases heq : c = r.child
    · subst heq
      simp [modifyChild]
    · simp [modifyChild, Function.update_of_ne heq, Ne.symm heq]

omit hlook in
/-- Crediting changes no other field of a child. -/
theorem credit_child_field {Field : Type*} (field : ChildSlot → Field)
    (hfield : ∀ child filled, field { child with filled } = field child) (c : Fin n) :
    field ((s.credit orderId).children c) = field (s.children c) := by
  unfold credit
  split
  · rfl
  · dsimp only
    split
    · rfl
    · exact modifyChild_field field _ _ (hfield _ _) c

omit hlook in
/-- Crediting changes nothing of the executor beside the accounts. -/
theorem credit_field {Field : Type*} (field : Executor n → Field)
    (hfield : ∀ t orders cumulativeFilled children,
      field { t with orders, cumulativeFilled, children } = field t) :
    field (s.credit orderId) = field s := by
  unfold credit
  split
  · rfl
  · dsimp only
    split
    · rfl
    · exact hfield s _ _ _

omit hlook in
@[simp] theorem credit_placed : (s.credit orderId).placed = s.placed := by
  unfold credit
  split
  · rfl
  · dsimp only
    split <;> rfl

end Credit

/-! ## The three views agree -/

/-- The totals are the sums of what the order records were credited. -/
structure Accounted (s : Executor n) : Prop where
  cumulative : s.cumulativeFilled = s.orders.total fun _ r => r.credited
  child : ∀ c, (s.children c).filled =
    s.orders.total fun _ r => if r.child = c then r.credited else 0

namespace Accounted

variable {s t : Executor n}

theorem init (slots : List ChildSlot) (hfilled : ∀ slot ∈ slots, slot.filled = 0) :
    Accounted (Executor.init slots) :=
  ⟨rfl, fun c => hfilled _ (List.getElem_mem c.2)⟩

theorem of_frame (h : Accounted s) (hframe : Frame s t) : Accounted t := by
  refine ⟨?_, fun c => ?_⟩
  · rw [hframe.cumulativeFilled, hframe.orders, h.cumulative]
  · rw [hframe.filled, hframe.orders, h.child]

/-- Updates of a record that keep its child and its credit keep the accounts. -/
theorem modify (h : Accounted s) (orderId : OrderId) {change : OrderRecord n → OrderRecord n}
    (hchild : ∀ r, (change r).child = r.child) (hcredited : ∀ r, (change r).credited = r.credited) :
    Accounted { s with orders := s.orders.modify orderId change } := by
  -- every account is a sum of a weight of the record's child and credit
  have hweight : ∀ weight : Fin n → ℚ → ℚ,
      ((s.orders.modify orderId change).total fun _ r => weight r.child r.credited) =
        s.orders.total fun _ r => weight r.child r.credited := by
    intro weight
    rw [Registry.modify, Registry.total_mapEntries]
    congr 1
    funext key r
    split
    · rw [hchild, hcredited]
    · rfl
  exact ⟨h.cumulative.trans (hweight fun _ credited => credited).symm,
    fun c => (h.child c).trans (hweight fun child credited =>
      if child = c then credited else 0).symm⟩

theorem markTerminal (h : Accounted s) (orderId : OrderId) : Accounted (s.markTerminal orderId) :=
  h.modify orderId (fun _ => rfl) fun _ => rfl

theorem noteSummary (h : Accounted s) (event : OrderCompletedEvent) :
    Accounted (s.noteSummary event) :=
  h.modify event.orderId (fun _ => rfl) fun _ => rfl

theorem noteFill (h : Accounted s) (event : OrderFilledEvent) : Accounted (s.noteFill event) := by
  have hmodify : Accounted
      { s with orders := s.orders.modify event.orderId (withFill event) } :=
    h.modify event.orderId (fun _ => rfl) fun _ => rfl
  exact ⟨hmodify.cumulative, hmodify.child⟩

theorem submit (h : Accounted s) (cfg : Settings) (call : Call)
    (hfresh : s.orders.lookup call.orderId = none) (c : Fin n) (orderType : OrderType)
    (amount : ℚ) (price : Option ℚ) :
    Accounted (s.submit cfg call c orderType amount price) := by
  refine ⟨?_, fun other => ?_⟩
  · simp only [Executor.submit]
    rw [Registry.total_set_of_absent _ hfresh, add_zero]
    exact h.cumulative
  · have hkeep : ((s.submit cfg call c orderType amount price).children other).filled =
        (s.children other).filled := by
      simp only [Executor.submit, Function.update_apply]
      split
      next heq => rw [heq]
      next => rfl
    rw [hkeep, h.child]
    simp only [Executor.submit]
    rw [Registry.total_set_of_absent _ hfresh]
    simp

theorem of_submits (h : Accounted s) {cfg : Settings} {call : Call}
    (hfresh : s.orders.lookup call.orderId = none) (hsubmits : Submits cfg call s t) :
    Accounted t := by
  cases hsubmits with
  | none frame => exact h.of_frame frame
  | one c orderType price _ frame =>
      exact (h.submit cfg call hfresh c orderType _ price).of_frame frame

theorem credit (h : Accounted s) (orderId : OrderId) : Accounted (s.credit orderId) := by
  cases hlook : s.orders.lookup orderId with
  | none =>
      unfold Executor.credit
      simpa [hlook] using h
  | some r =>
      refine ⟨?_, fun c => ?_⟩
      · have hmove := s.orders.total_modify hlook
          (fun r' => { r' with credited := r'.credited + gain r }) fun _ r => r.credited
        rw [s.credit_cumulativeFilled hlook, s.credit_orders hlook, h.cumulative]
        linarith
      · have hmove := s.orders.total_modify hlook
          (fun r' => { r' with credited := r'.credited + gain r })
          fun _ r => if r.child = c then r.credited else 0
        rw [s.credit_filled hlook, s.credit_orders hlook, h.child]
        -- the touched record moves its child's sum, and only that, by its gain
        dsimp only at hmove
        split at hmove <;> simp_all
        linarith

end Accounted

/-! ## The credited record -/

section Record

variable (s : Executor n) {r : OrderRecord n}

theorem lookup_noteFill (event : OrderFilledEvent)
    (hlook : s.orders.lookup event.orderId = some r) :
    (s.noteFill event).orders.lookup event.orderId = some (withFill event r) := by
  rw [noteFill, Registry.lookup_modify_self, hlook]
  rfl

/-- The record after a fill that is not a replay. -/
theorem lookup_noteFill_credit (event : OrderFilledEvent)
    (hlook : s.orders.lookup event.orderId = some r) :
    ((s.noteFill event).credit event.orderId).orders.lookup event.orderId =
      some { withFill event r with credited := r.credited + gain (withFill event r) } := by
  have hnoted := s.lookup_noteFill event hlook
  rw [credit_orders _ hnoted, Registry.lookup_modify_self, hnoted]
  rfl

/-- A fill leaves the records of other orders alone. -/
theorem lookup_noteFill_credit_ne (event : OrderFilledEvent) {orderId : OrderId}
    (hlook : s.orders.lookup event.orderId = some r) (hne : orderId ≠ event.orderId) :
    ((s.noteFill event).credit event.orderId).orders.lookup orderId = s.orders.lookup orderId := by
  rw [credit_orders _ (s.lookup_noteFill event hlook), Registry.lookup_modify_ne _ hne, noteFill,
    Registry.lookup_modify_ne _ hne]

theorem lookup_noteSummary (event : OrderCompletedEvent)
    (hlook : s.orders.lookup event.orderId = some r) :
    ((s.markTerminal event.orderId).noteSummary event).orders.lookup event.orderId =
      some { withSummary event r with terminal := true } := by
  rw [noteSummary, Registry.lookup_modify_self, markTerminal, Registry.lookup_modify_self, hlook]
  rfl

/-- The record after a completion summary. -/
theorem lookup_noteSummary_credit (event : OrderCompletedEvent)
    (hlook : s.orders.lookup event.orderId = some r) :
    (((s.markTerminal event.orderId).noteSummary event).credit event.orderId).orders.lookup
        event.orderId =
      some { withSummary event r with
        terminal := true
        credited := r.credited + gain (withSummary event r) } := by
  have hnoted := s.lookup_noteSummary event hlook
  rw [credit_orders _ hnoted, Registry.lookup_modify_self, hnoted]
  rfl

/-- A completion leaves the records of other orders alone. -/
theorem lookup_noteSummary_credit_ne (event : OrderCompletedEvent) {orderId : OrderId}
    (hlook : s.orders.lookup event.orderId = some r) (hne : orderId ≠ event.orderId) :
    (((s.markTerminal event.orderId).noteSummary event).credit event.orderId).orders.lookup
        orderId = s.orders.lookup orderId := by
  rw [credit_orders _ (s.lookup_noteSummary event hlook), Registry.lookup_modify_ne _ hne,
    noteSummary, Registry.lookup_modify_ne _ hne, markTerminal, Registry.lookup_modify_ne _ hne]

end Record

/-- An operation places at most one order, after at most settling another. -/
theorem perform_placed (cfg : Settings) (s : Executor n) (op : Op) :
    (perform cfg s op).placed = s.placed ∨ ∃ call t c orderType price, op.call? = some call ∧
      Places cfg call t c orderType price ∧ t.status = s.status ∧
        (perform cfg s op).placed = s.placed ++ [placedOrder cfg call t c orderType price] := by
  have hsubmits : ∀ {call : Call} {t : Executor n}, Submits cfg call t (perform cfg s op) →
      op.call? = some call → t.placed = s.placed → t.status = s.status →
      (perform cfg s op).placed = s.placed ∨ ∃ call t c orderType price, op.call? = some call ∧
        Places cfg call t c orderType price ∧ t.status = s.status ∧
          (perform cfg s op).placed = s.placed ++ [placedOrder cfg call t c orderType price] := by
    intro call t h hcall hplaced hstatus
    rcases h.placed with heq | ⟨c, orderType, price, places, heq⟩
    · exact .inl (heq.trans hplaced)
    · exact .inr ⟨call, t, c, orderType, price, hcall, places, hstatus, hplaced ▸ heq⟩
  cases op with
  | controlTask call => exact hsubmits (controlTask_submits cfg call s) rfl rfl rfl
  | filled event =>
      rcases processOrderFilledEvent_cases cfg s event with ⟨heq, _⟩ | ⟨r, _, _, hframe⟩
      · exact .inl (by rw [perform, heq])
      · exact .inl (hframe.placed.trans (credit_placed _))
  | completed event =>
      rcases processOrderCompletedEvent_cases s event with ⟨heq, _⟩ | ⟨r, _, hframe⟩
      · exact .inl (by rw [perform, heq])
      · exact .inl (hframe.placed.trans (credit_placed _))
  | canceled call event =>
      exact hsubmits (processOrderCanceledEvent_submits cfg call s event) rfl rfl rfl
  | failed call event =>
      exact hsubmits (processOrderFailedEvent_submits cfg call s event) rfl rfl rfl
  | earlyStop call keepPosition => exact .inl rfl
  | evaluateMaxRetries call => exact .inl (Frame.evaluateMaxRetries cfg call s).placed

/-- Every order an operation sends has a positive amount. -/
theorem perform_placed_pos (cfg : Settings) (s : Executor n) (op : Op)
    (hpos : ∀ order ∈ s.placed, 0 < order.amount) :
    ∀ order ∈ (perform cfg s op).placed, 0 < order.amount := by
  intro order horder
  rcases perform_placed cfg s op with heq | ⟨call, t, c, orderType, price, _, places, _, heq⟩
  · exact hpos order (heq ▸ horder)
  · rw [heq, List.mem_append, List.mem_singleton] at horder
    rcases horder with hold | rfl
    · exact hpos order hold
    · exact places.room_pos

/-- A child's target never changes. -/
theorem perform_target (cfg : Settings) (s : Executor n) (op : Op) (c : Fin n) :
    ((perform cfg s op).children c).target = (s.children c).target := by
  cases op with
  | controlTask call => exact (controlTask_submits cfg call s).target c
  | filled event =>
      rcases processOrderFilledEvent_cases cfg s event with ⟨heq, _⟩ | ⟨r, _, _, hframe⟩
      · rw [perform, heq]
      · exact (hframe.target c).trans
          (credit_child_field _ ChildSlot.target (fun _ _ => rfl) c)
  | completed event =>
      rcases processOrderCompletedEvent_cases s event with ⟨heq, _⟩ | ⟨r, _, hframe⟩
      · rw [perform, heq]
      · exact (hframe.target c).trans
          (credit_child_field _ ChildSlot.target (fun _ _ => rfl) c)
  | canceled call event => exact (processOrderCanceledEvent_submits cfg call s event).target c
  | failed call event => exact (processOrderFailedEvent_submits cfg call s event).target c
  | earlyStop call keepPosition => rfl
  | evaluateMaxRetries call => exact (Frame.evaluateMaxRetries cfg call s).target c

/-- Every operation keeps the three views in step. -/
theorem Accounted.perform {s : Executor n} (h : Accounted s) (cfg : Settings) {op : Op}
    (hfresh : FreshId s op) : Accounted (perform cfg s op) := by
  have hsettled : ∀ call orderId, op.call? = some call →
      (s.markTerminal orderId).orders.lookup call.orderId = none := by
    intro call orderId hcall
    rw [Executor.markTerminal, Registry.lookup_modify, hfresh.lookup hcall]
    simp
  cases op with
  | controlTask call => exact h.of_submits (hfresh.lookup rfl) (controlTask_submits cfg call s)
  | filled event =>
      rcases processOrderFilledEvent_cases cfg s event with ⟨heq, _⟩ | ⟨r, _, _, hframe⟩
      · simpa [PassiveAggressive.perform, heq] using h
      · exact ((h.noteFill event).credit event.orderId).of_frame hframe
  | completed event =>
      rcases processOrderCompletedEvent_cases s event with ⟨heq, _⟩ | ⟨r, _, hframe⟩
      · simpa [PassiveAggressive.perform, heq] using h
      · exact (((h.markTerminal event.orderId).noteSummary event).credit event.orderId).of_frame
          hframe
  | canceled call event =>
      exact (h.markTerminal event.orderId).of_submits (hsettled call event.orderId rfl)
        (processOrderCanceledEvent_submits cfg call s event)
  | failed call event =>
      exact (h.markTerminal event.orderId).of_submits (hsettled call event.orderId rfl)
        (processOrderFailedEvent_submits cfg call s event)
  | earlyStop call keepPosition => exact h.of_frame (Frame.earlyStop call s keepPosition)
  | evaluateMaxRetries call => exact h.of_frame (Frame.evaluateMaxRetries cfg call s)

end Executor

end Opms.PassiveAggressive
