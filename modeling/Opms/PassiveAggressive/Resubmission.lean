import Opms.PassiveAggressive.Terminal
import Mathlib.Data.Fintype.EquivFin

/-! # Market orders sent again

A failed market order counts as a retry before it is sent again. A cancelled
one does not: the reason of the last cancel request stays with the child after
an expired close has crossed, and every later cancel crosses once more.
-/

namespace Opms.PassiveAggressive

open Foundation

variable {n : ℕ}

namespace Executor

/-- How many market orders were submitted. -/
def markets (s : Executor n) : ℕ := s.placed.countP fun order => order.orderType = .market

/-- How many children wait for a cancel. -/
def cancelingCount (s : Executor n) : ℕ :=
  (Finset.univ.filter fun c => (s.children c).status = .canceling).card

/-- The market orders that requested cancels and counted retries can still send. -/
def allowance (cfg : Settings) (s : Executor n) : ℕ :=
  (cfg.maxRetries - s.currentRetries) + s.cancelingCount

variable {cfg : Settings} {call : Call} {s t : Executor n} {c : Fin n}

/-- Waiting children are at the index, so there is at most one. -/
theorem Tidy.cancelingCount_le (h : Tidy s) : s.cancelingCount ≤ 1 := by
  refine Finset.card_le_one.mpr fun first hfirst second hsecond => Fin.ext ?_
  rw [(h first).current (.inr (Finset.mem_filter.mp hfirst).2),
    (h second).current (.inr (Finset.mem_filter.mp hsecond).2)]

/-! ## The child whose order is withdrawn -/

/-- Only the child changes its status, and it waits for no cancel afterwards. -/
structure Withdrawn (c : Fin n) (s t : Executor n) : Prop where
  others : ∀ other, other ≠ c → (t.children other).status = (s.children other).status
  through : (t.children c).status ≠ .canceling

theorem Withdrawn.waiting_subset (h : Withdrawn c s t) :
    (Finset.univ.filter fun other => (t.children other).status = .canceling) ⊆
      Finset.univ.filter fun other => (s.children other).status = .canceling := by
  intro other hother
  obtain ⟨_, hcanceling⟩ := Finset.mem_filter.mp hother
  have hne : other ≠ c := fun heq => h.through (heq ▸ hcanceling)
  exact Finset.mem_filter.mpr ⟨Finset.mem_univ other, h.others other hne ▸ hcanceling⟩

theorem Withdrawn.cancelingCount_le (h : Withdrawn c s t) :
    t.cancelingCount ≤ s.cancelingCount :=
  Finset.card_le_card h.waiting_subset

theorem Withdrawn.cancelingCount_lt (h : Withdrawn c s t)
    (hcanceling : (s.children c).status = .canceling) :
    t.cancelingCount < s.cancelingCount := by
  refine Finset.card_lt_card ⟨h.waiting_subset, fun hsubset => ?_⟩
  have hmem := hsubset (Finset.mem_filter.mpr ⟨Finset.mem_univ c, hcanceling⟩)
  exact h.through (Finset.mem_filter.mp hmem).2

theorem Withdrawn.modifyChild
    (hothers : ∀ other, other ≠ c → (t.children other).status = (s.children other).status)
    {change : ChildSlot → ChildSlot} (hthrough : (change (t.children c)).status ≠ .canceling) :
    Withdrawn c s (t.modifyChild c change) := by
  refine ⟨fun other hne => ?_, ?_⟩
  · rw [t.modifyChild_children_ne hne]
    exact hothers other hne
  · rw [modifyChild_children_self]
    exact hthrough

theorem Withdrawn.placeAggressive
    (hothers : ∀ other, other ≠ c → (t.children other).status = (s.children other).status) :
    Withdrawn c s (t.placeAggressive cfg call c) := by
  have hidle : Withdrawn c s (t.modifyChild c fun child => { child with status := .idle }) :=
    .modifyChild hothers (by simp)
  unfold Executor.placeAggressive
  dsimp only
  split
  next => exact hidle
  next =>
    split
    next => exact .modifyChild hidle.others (by simp)
    next =>
      refine .modifyChild (fun other hne => ?_) (by simp)
      simp only [submit, Function.update_of_ne hne]
      exact hidle.others other hne

/-! ## The market order of an expired close -/

theorem placeAggressive_markets_le (s : Executor n) (c : Fin n) :
    (s.placeAggressive cfg call c).markets ≤ s.markets + 1 := by
  unfold Executor.placeAggressive
  dsimp only
  split
  next => exact Nat.le_succ _
  next =>
    split
    next => exact Nat.le_succ _
    next => simp [markets, submit, Executor.modifyChild]

theorem placeAggressive_markets_of_not
    (h : ¬ (s.status = .running ∧ 0 < s.room cfg c)) :
    (s.placeAggressive cfg call c).markets = s.markets :=
  congrArg (List.countP _) (placeAggressive_frame h).placed

theorem placeAggressive_currentRetries (s : Executor n) (c : Fin n) :
    (s.placeAggressive cfg call c).currentRetries = s.currentRetries := by
  unfold Executor.placeAggressive
  dsimp only
  split
  next => rfl
  next =>
    split
    next => rfl
    next => rfl

/-- Cancelling a child's current order crosses at once. -/
structure Rebounds (cfg : Settings) (s : Executor n) (c : Fin n) (orderId : OrderId) : Prop where
  tracked : (s.children c).trackedOrder = some orderId
  reason : (s.children c).cancelReason = .cycleExpired
  running : s.status = .running
  room_pos : 0 < (s.markTerminal orderId).room cfg c

instance (cfg : Settings) (s : Executor n) (c : Fin n) (orderId : OrderId) :
    Decidable (Rebounds cfg s c orderId) :=
  decidable_of_iff ((s.children c).trackedOrder = some orderId ∧
      (s.children c).cancelReason = .cycleExpired ∧ s.status = .running ∧
        0 < (s.markTerminal orderId).room cfg c)
    ⟨fun ⟨htracked, hreason, hrunning, hroom⟩ => ⟨htracked, hreason, hrunning, hroom⟩,
      fun h => ⟨h.tracked, h.reason, h.running, h.room_pos⟩⟩

/-- The child's current order is settled and given up. -/
def release (s : Executor n) (c : Fin n) (orderId : OrderId) : Executor n :=
  (s.markTerminal orderId).modifyChild c fun child => { child with trackedOrder := none }

theorem release_frame (s : Executor n) (c : Fin n) (orderId : OrderId) :
    Frame (s.markTerminal orderId) (s.release c orderId) :=
  (Frame.refl _).modifyChild c rfl rfl

/-- A cancel of a child's current order crosses when the reason is an expired
cycle, and only returns the child to idle otherwise. -/
theorem Tidy.canceled_eq (h : Tidy s) (hclose : cfg.positionAction = .close)
    {event : OrderCancelledEvent} (htracked : (s.children c).trackedOrder = some event.orderId) :
    s.processOrderCanceledEvent cfg call event =
      if (s.children c).cancelReason = .cycleExpired then
        (s.release c event.orderId).placeAggressive cfg call c
      else
        (s.release c event.orderId).modifyChild c fun child => { child with status := .idle } := by
  obtain ⟨r, hlook, rfl, _⟩ := (h c).record event.orderId htracked
  have hactive : (s.markTerminal event.orderId).isActive r event.orderId = true :=
    decide_eq_true htracked
  have hreason : ((s.release r.child event.orderId).children r.child).cancelReason =
      (s.children r.child).cancelReason := by
    rw [release, modifyChild_children_self]
    rfl
  unfold Executor.processOrderCanceledEvent
  simp only [hlook]
  rw [if_neg (not_not.mpr hactive)]
  split
  next hcross =>
    rw [if_pos (hreason.symm.trans hcross.1)]
    rfl
  next hkeep =>
    split
    next hexpired => exact absurd ⟨hexpired, hclose⟩ hkeep
    next hother =>
      rw [if_neg fun hexpired => hother (hreason.trans hexpired)]
      rfl

/-- A cancel of a child's current order counts no retry, and sends a market
order only when it crosses. -/
theorem canceled_cases (call : Call) (h : Tidy s) (hclose : cfg.positionAction = .close)
    {event : OrderCancelledEvent} (htracked : (s.children c).trackedOrder = some event.orderId) :
    Withdrawn c s (s.processOrderCanceledEvent cfg call event) ∧
      (s.processOrderCanceledEvent cfg call event).currentRetries = s.currentRetries ∧
      (s.processOrderCanceledEvent cfg call event).markets ≤ s.markets + 1 ∧
      (¬ Rebounds cfg s c event.orderId →
        (s.processOrderCanceledEvent cfg call event).markets = s.markets) := by
  have hothers : ∀ other, other ≠ c →
      ((s.release c event.orderId).children other).status = (s.children other).status := by
    intro other hne
    rw [release, modifyChild_children_ne _ hne]
    rfl
  rw [h.canceled_eq hclose htracked]
  split
  next hreason =>
    refine ⟨.placeAggressive hothers, placeAggressive_currentRetries _ _,
      placeAggressive_markets_le _ _, fun hstays => ?_⟩
    refine placeAggressive_markets_of_not fun hcross => hstays ?_
    rw [(release_frame s c event.orderId).room_eq] at hcross
    exact ⟨htracked, hreason, hcross.1, hcross.2⟩
  next => exact ⟨.modifyChild hothers (by simp), rfl, Nat.le_succ _, fun _ => rfl⟩

/-- A failure of a child's current order sends a market order only after
counting a retry that the maximum still allows. -/
theorem failed_cases (cfg : Settings) (call : Call) (h : Tidy s) {event : MarketOrderFailureEvent}
    (htracked : (s.children c).trackedOrder = some event.orderId) :
    Withdrawn c s (s.processOrderFailedEvent cfg call event) ∧
      ((s.processOrderFailedEvent cfg call event).markets = s.markets ∧
          s.currentRetries ≤ (s.processOrderFailedEvent cfg call event).currentRetries ∨
        (s.processOrderFailedEvent cfg call event).markets ≤ s.markets + 1 ∧
          (s.processOrderFailedEvent cfg call event).currentRetries = s.currentRetries + 1 ∧
          s.currentRetries + 1 ≤ cfg.maxRetries) := by
  obtain ⟨r, hlook, rfl, _⟩ := (h c).record event.orderId htracked
  have hactive : (s.markTerminal event.orderId).isActive r event.orderId = true :=
    decide_eq_true htracked
  have hback : Withdrawn r.child s ((s.markTerminal event.orderId).backOff cfg call r.child) := by
    refine ⟨fun other hne => ?_, ?_⟩
    · rw [backOff, modifyChild_children_ne _ hne]
      rfl
    · rw [backOff, modifyChild_children_self]
      simp
  unfold Executor.processOrderFailedEvent
  simp only [hlook]
  rw [if_neg (not_not.mpr hactive)]
  split
  next =>
    refine ⟨⟨fun other hne => ?_, ?_⟩, .inl ⟨rfl, le_rfl⟩⟩
    · rw [Executor.closeExecutionBy, modifyChild_children_ne _ hne]
      rfl
    · simp [Executor.closeExecutionBy]
  next =>
    split
    next hagain =>
      refine ⟨.placeAggressive hback.others, .inr ⟨placeAggressive_markets_le _ _, ?_, hagain.2.2⟩⟩
      rw [placeAggressive_currentRetries]
      rfl
    next => exact ⟨hback, .inl ⟨rfl, Nat.le_succ _⟩⟩

end Executor

open Executor

/-! ## Bursts of cancels and failures -/

/-- A cancel or a failure, at the given time, for a child's current order. -/
def Withdraws (now : ℚ) (s : Executor n) (op : Op) : Prop :=
  FreshId s op ∧ (∀ call ∈ op.call?, call.now = now) ∧
    ∃ orderId ∈ op.withdrawnOrder?, ∃ c, (s.children c).trackedOrder = some orderId

instance (now : ℚ) (s : Executor n) (op : Op) : Decidable (Withdraws now s op) :=
  inferInstanceAs (Decidable (FreshId s op ∧ (∀ call ∈ op.call?, call.now = now) ∧
    ∃ orderId ∈ op.withdrawnOrder?, ∃ c, (s.children c).trackedOrder = some orderId))

/-- A cancel crosses although none was requested for the child's current order. -/
def Resubmits (cfg : Settings) (s : Executor n) : Op → Prop
  | .canceled _ event =>
      ∃ c, Rebounds cfg s c event.orderId ∧ (s.children c).status ≠ .canceling
  | _ => False

instance (cfg : Settings) (s : Executor n) (op : Op) : Decidable (Resubmits cfg s op) := by
  cases op with
  | canceled call event =>
      exact inferInstanceAs (Decidable (∃ c, Rebounds cfg s c event.orderId ∧
        (s.children c).status ≠ .canceling))
  | controlTask call => exact .isFalse id
  | filled event => exact .isFalse id
  | completed event => exact .isFalse id
  | failed call event => exact .isFalse id
  | earlyStop call keepPosition => exact .isFalse id
  | evaluateMaxRetries call => exact .isFalse id

section Burst

variable {cfg : Settings} {now : ℚ} {s : Executor n} {op : Op} {c : Fin n}

/-- Market orders are paid for by requested cancels and by counted retries. -/
theorem markets_add_allowance_le (h : Tidy s)
    (hclose : cfg.positionAction = .close) (hop : Withdraws now s op)
    (hresubmits : ¬ Resubmits cfg s op) :
    (perform cfg s op).markets + (perform cfg s op).allowance cfg ≤
      s.markets + s.allowance cfg := by
  obtain ⟨_, _, orderId, hwithdrawn, c, htracked⟩ := hop
  cases op with
  | canceled call event =>
      obtain rfl := Option.some.inj hwithdrawn
      obtain ⟨hchild, hretries, hmarkets, hstays⟩ := canceled_cases call h hclose htracked
      unfold allowance
      rw [perform, hretries]
      by_cases hcanceling : (s.children c).status = .canceling
      · -- the cancel was requested, and uses up the wait
        have hcount := hchild.cancelingCount_lt hcanceling
        omega
      · have hcount := hchild.cancelingCount_le
        have hsame := hstays fun hrebounds => hresubmits ⟨c, hrebounds, hcanceling⟩
        omega
  | failed call event =>
      obtain rfl := Option.some.inj hwithdrawn
      obtain ⟨hchild, hmarkets⟩ := failed_cases cfg call h htracked
      have hcount := hchild.cancelingCount_le
      unfold allowance
      rw [perform]
      omega
  | controlTask call => cases hwithdrawn
  | filled event => cases hwithdrawn
  | completed event => cases hwithdrawn
  | earlyStop call keepPosition => cases hwithdrawn
  | evaluateMaxRetries call => cases hwithdrawn

/-- Along a burst without resubmissions the bound holds. -/
theorem markets_run_le (h : Tidy s) (hclose : cfg.positionAction = .close)
    {burst : List Op} (hburst : Along (perform cfg) (Withdraws now) s burst)
    (hresubmits : Along (perform cfg) (fun s op => ¬ Resubmits cfg s op) s burst) :
    (run (perform cfg) s burst).markets ≤ s.markets + cfg.maxRetries + 1 := by
  have hpaid : (run (perform cfg) s burst).markets +
      (run (perform cfg) s burst).allowance cfg ≤ s.markets + s.allowance cfg := by
    induction burst generalizing s with
    | nil => exact le_rfl
    | cons op rest ih =>
        exact (ih (h.perform hburst.1.1) hburst.2 hresubmits.2).trans
          (markets_add_allowance_le h hclose hburst.1 hresubmits.1)
  have hone := h.cancelingCount_le
  unfold allowance at hpaid
  omega

/-! ## Cancels without end -/

/-- Settling an order that was just submitted leaves what was outstanding. -/
theorem outstanding_submit_markTerminal {call : Call}
    (hfresh : s.orders.lookup call.orderId = none) (orderType : OrderType) (amount : ℚ)
    (price : Option ℚ) :
    ((s.submit cfg call c orderType amount price).markTerminal call.orderId).outstanding =
      s.outstanding := by
  have hlook : (s.orders.set call.orderId { child := c, amount }).lookup call.orderId =
      some { child := c, amount } := by
    rw [Registry.lookup_set, if_pos rfl]
  have hsettle := Registry.total_modify _ hlook (fun r => { r with terminal := true })
    fun _ r => if r.terminal then 0 else max (r.amount - r.credited) 0
  rw [Registry.total_set_of_absent _ hfresh] at hsettle
  simp only [↓reduceIte, add_zero, Bool.false_eq_true] at hsettle
  exact add_right_cancel hsettle

theorem room_submit_markTerminal {call : Call} (hfresh : s.orders.lookup call.orderId = none)
    (orderType : OrderType) (amount : ℚ) (price : Option ℚ) :
    ((s.submit cfg call c orderType amount price).markTerminal call.orderId).room cfg c =
      s.room cfg c := by
  unfold room
  rw [outstanding_submit_markTerminal hfresh]
  simp [submit, markTerminal]

theorem modifyChild_markTerminal_room (t : Executor n) (orderId : OrderId)
    {change : ChildSlot → ChildSlot}
    (htarget : (change (t.children c)).target = (t.children c).target)
    (hfilled : (change (t.children c)).filled = (t.children c).filled) :
    ((t.modifyChild c change).markTerminal orderId).room cfg c =
      (t.markTerminal orderId).room cfg c := by
  have hframe : Frame (t.markTerminal orderId) ((t.modifyChild c change).markTerminal orderId) :=
    ⟨rfl, rfl, t.modifyChild_field ChildSlot.target c htarget,
      t.modifyChild_field ChildSlot.filled c hfilled, rfl⟩
  exact hframe.room_eq cfg c

section Crossed

variable (hrunning : s.status = .running) (hroom : 0 < s.room cfg c)

include hrunning hroom

theorem placeAggressive_markets (call : Call) :
    (s.placeAggressive cfg call c).markets = s.markets + 1 := by
  rw [placeAggressive_of_room hrunning hroom]
  simp [markets, submit, Executor.modifyChild]

theorem placeAggressive_child (call : Call) :
    ((s.placeAggressive cfg call c).children c).trackedOrder = some call.orderId ∧
      ((s.placeAggressive cfg call c).children c).cancelReason =
        (s.children c).cancelReason := by
  rw [placeAggressive_of_room hrunning hroom]
  simp [submit]

theorem placeAggressive_status (call : Call) :
    (s.placeAggressive cfg call c).status = .running := by
  rw [placeAggressive_of_room hrunning hroom]
  exact hrunning

/-- The order takes the whole room, and gives it back when it is settled. -/
theorem placeAggressive_room {call : Call} (hfresh : s.orders.lookup call.orderId = none) :
    ((s.placeAggressive cfg call c).markTerminal call.orderId).room cfg c = s.room cfg c := by
  have hidle : Frame s (s.modifyChild c fun child => { child with status := .idle }) :=
    (Frame.refl s).modifyChild c rfl rfl
  have hfresh' : (s.modifyChild c fun child => { child with status := .idle }).orders.lookup
    call.orderId = none := hfresh
  rw [placeAggressive_of_room hrunning hroom, modifyChild_markTerminal_room _ _ rfl rfl,
    room_submit_markTerminal hfresh', hidle.room_eq]

end Crossed

/-- The market order that a cancel sends can be cancelled in the same way. -/
theorem Executor.Rebounds.again (h : Tidy s) (hclose : cfg.positionAction = .close)
    {orderId : OrderId} (hrebounds : Rebounds cfg s c orderId) (event : OrderCancelledEvent)
    (hevent : event.orderId = orderId) (call : Call)
    (hfresh : s.orders.lookup call.orderId = none) :
    Rebounds cfg (s.processOrderCanceledEvent cfg call event) c call.orderId ∧
      (s.processOrderCanceledEvent cfg call event).markets = s.markets + 1 := by
  subst hevent
  have hframe := release_frame s c event.orderId
  have hroom : 0 < (s.release c event.orderId).room cfg c := by
    rw [hframe.room_eq]
    exact hrebounds.room_pos
  have hrunning : (s.release c event.orderId).status = .running := hrebounds.running
  have hreason : ((s.release c event.orderId).children c).cancelReason = .cycleExpired := by
    rw [release, modifyChild_children_self]
    exact hrebounds.reason
  have habsent : (s.release c event.orderId).orders.lookup call.orderId = none := by
    rw [release, modifyChild_orders]
    exact lookup_markTerminal_of_absent event.orderId hfresh
  rw [h.canceled_eq hclose hrebounds.tracked, if_pos hrebounds.reason]
  obtain ⟨htracked, hkept⟩ := placeAggressive_child hrunning hroom call
  refine ⟨⟨htracked, hkept.trans hreason, placeAggressive_status hrunning hroom call, ?_⟩,
    placeAggressive_markets hrunning hroom call⟩
  rw [placeAggressive_room hrunning hroom habsent]
  exact hroom

/-- A fresh id for the next order always exists. -/
theorem exists_fresh (s : Executor n) : ∃ orderId, s.orders.lookup orderId = none := by
  obtain ⟨orderId, habsent⟩ := Infinite.exists_notMem_finset s.orders.keys.toFinset
  exact ⟨orderId, (s.orders.lookup_eq_none_iff orderId).mpr fun hmem =>
    habsent (List.mem_toFinset.mpr hmem)⟩

/-- Cancel after cancel, any number of market orders goes out at one time. -/
theorem Executor.Rebounds.unbounded (h : Tidy s) (hclose : cfg.positionAction = .close)
    {orderId : OrderId} (hrebounds : Rebounds cfg s c orderId) (now : ℚ) (count : ℕ) :
    ∃ rest, Along (perform cfg) (Withdraws now) s rest ∧
      (run (perform cfg) s rest).markets = s.markets + count := by
  induction count generalizing s orderId with
  | zero => exact ⟨[], trivial, rfl⟩
  | succ count ih =>
      obtain ⟨next, hnext⟩ := exists_fresh s
      have hfresh : FreshId s (.canceled { now, orderId := next } { orderId }) := by
        intro call hcall
        obtain rfl := Option.some.inj hcall
        exact (s.orders.lookup_eq_none_iff next).mp hnext
      have hagain := hrebounds.again h hclose { orderId } rfl { now, orderId := next } hnext
      have hnextTidy : Tidy (perform cfg s (.canceled { now, orderId := next } { orderId })) :=
        h.perform hfresh
      obtain ⟨rest, hrest, hmarkets⟩ := ih hnextTidy hagain.1
      refine ⟨_ :: rest, ⟨⟨hfresh, ?_, orderId, rfl, c, hrebounds.tracked⟩, hrest⟩, ?_⟩
      · intro call hcall
        obtain rfl := Option.some.inj hcall
        rfl
      · rw [run_cons, hmarkets]
        change (s.processOrderCanceledEvent cfg _ _).markets + count = _
        rw [hagain.2]
        omega

theorem markets_le_perform (s : Executor n) (op : Op) :
    s.markets ≤ (perform cfg s op).markets := by
  unfold markets
  rcases perform_placed cfg s op with heq | ⟨call, t, c, orderType, price, _, _, _, heq⟩
  · rw [heq]
  · rw [heq, List.countP_append]
    exact Nat.le_add_right _ _

theorem markets_le_run (s : Executor n) (ops : List Op) :
    s.markets ≤ (run (perform cfg) s ops).markets :=
  run_invariant_always (fun t : Executor n => s.markets ≤ t.markets)
    (fun t op hle => hle.trans (markets_le_perform t op)) le_rfl ops

end Burst

/-- A burst in which every crossing cancel was requested sends at most as many
market orders as there are retries, and one more. After one that was not
requested, the burst can go on beyond any such bound. -/
theorem resubmission_bound (cfg : Settings) (slots : List ChildSlot)
    (hslots : buildChildSlots cfg = .ok slots) (hclose : cfg.positionAction = .close)
    (history : List Op) (hfresh : Along (perform cfg) FreshId (init slots) history) (now : ℚ) :
    let s := run (perform cfg) (init slots) history
    (∀ burst, Along (perform cfg) (Withdraws now) s burst →
        Along (perform cfg) (fun s op => ¬ Resubmits cfg s op) s burst →
          (run (perform cfg) s burst).markets ≤ s.markets + cfg.maxRetries + 1) ∧
      ∀ burst op, Along (perform cfg) (Withdraws now) s (burst ++ [op]) →
        Resubmits cfg (run (perform cfg) s burst) op →
          ∃ rest, Along (perform cfg) (Withdraws now) s (burst ++ op :: rest) ∧
            s.markets + cfg.maxRetries + 1 <
              (run (perform cfg) s (burst ++ op :: rest)).markets := by
  intro s
  have htidy : Tidy s :=
    run_invariant Tidy (fun _ _ htidy hid => htidy.perform hid) (Tidy.init hslots) hfresh
  refine ⟨fun burst hburst hrequested => markets_run_le htidy hclose hburst hrequested,
    fun burst op hburst hresubmits => ?_⟩
  obtain ⟨hbefore, hop, _⟩ := Along.append_iff.mp hburst
  have htidy' : Tidy (run (perform cfg) s burst) :=
    run_invariant Tidy (fun _ _ htidy hop => htidy.perform hop.1) htidy hbefore
  cases op with
  | canceled call event =>
      obtain ⟨c, hrebounds, _⟩ := hresubmits
      have hagain := hrebounds.again htidy' hclose event rfl call (hop.1.lookup rfl)
      have hnext : Tidy (perform cfg (run (perform cfg) s burst) (.canceled call event)) :=
        htidy'.perform hop.1
      obtain ⟨rest, hrest, hmarkets⟩ :=
        hagain.1.unbounded hnext hclose now (cfg.maxRetries + 1)
      refine ⟨rest, Along.append_iff.mpr ⟨hbefore, hop, hrest⟩, ?_⟩
      have hgrown : s.markets ≤ (run (perform cfg) s burst).markets := markets_le_run s burst
      have hsent : (perform cfg (run (perform cfg) s burst) (.canceled call event)).markets =
        (run (perform cfg) s burst).markets + 1 := hagain.2
      rw [run_append, run_cons, hmarkets, hsent]
      omega
  | controlTask call => exact hresubmits.elim
  | filled event => exact hresubmits.elim
  | completed event => exact hresubmits.elim
  | failed call event => exact hresubmits.elim
  | earlyStop call keepPosition => exact hresubmits.elim
  | evaluateMaxRetries call => exact hresubmits.elim

/-- A close whose time limit elapses with the cancel of its limit order sent. -/
def expiredHistory : List Op :=
  [ .controlTask { now := 0, bestBid := some 100, orderId := "limit" },
    .controlTask { now := 5, bestBid := some 100, orderId := "unused" } ]

/-- The requested cancel crosses, and the market order is rejected twice. -/
def rejectedBurst : List Op :=
  [ .canceled { now := 6, orderId := "market" } { orderId := "limit" },
    .failed { now := 6, orderId := "retry" } { orderId := "market" },
    .failed { now := 6, orderId := "again" } { orderId := "retry" } ]

theorem resubmission_bound_rejectedBurst :
    (run (perform sampleConfig) (run (perform sampleConfig) (init [{ target := 1 }])
        expiredHistory) rejectedBurst).markets ≤
      (run (perform sampleConfig) (init [{ target := 1 }]) expiredHistory).markets +
        sampleConfig.maxRetries + 1 :=
  (resubmission_bound sampleConfig [{ target := 1 }] (by decide +kernel) rfl expiredHistory
    (by decide +kernel) 6).1 rejectedBurst (by decide +kernel) (by decide +kernel)

/-- The requested cancel crosses, and the market order is cancelled in turn. -/
def cancelledBurst : List Op :=
  [ .canceled { now := 6, orderId := "market" } { orderId := "limit" },
    .canceled { now := 6, orderId := "again" } { orderId := "market" } ]

/-- Without retries, two market orders go out at one time. -/
theorem cancelled_market_order_is_sent_again :
    let cfg : Settings := { sampleConfig with maxRetries := 0 }
    buildChildSlots cfg = .ok [{ target := 1 }] ∧ cfg.positionAction = .close ∧
      Along (perform cfg) FreshId (init [{ target := 1 }]) expiredHistory ∧
      Along (perform cfg) (Withdraws 6)
        (run (perform cfg) (init [{ target := 1 }]) expiredHistory) cancelledBurst ∧
      (run (perform cfg) (init [{ target := 1 }]) expiredHistory).markets + cfg.maxRetries + 1 <
        (run (perform cfg) (run (perform cfg) (init [{ target := 1 }]) expiredHistory)
          cancelledBurst).markets := by
  decide +kernel

end Opms.PassiveAggressive
