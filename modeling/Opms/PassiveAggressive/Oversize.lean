import Opms.PassiveAggressive.Terminal
import Opms.PassiveAggressive.Room

/-! # Resting orders that have become too big

A credit of another order can leave the resting one bigger than what its child
and the total still need. Only the fill callback looks for that, and only for
an order that no child calls its current one.
-/

namespace Opms.PassiveAggressive

open Foundation Executor

variable {n : ℕ}

/-- The resting order leaves room for itself. -/
def Fits (cfg : Settings) (s : Executor n) : Prop := ∀ c, s.Resting c → 0 ≤ s.room cfg c

instance (cfg : Settings) (s : Executor n) : Decidable (Fits cfg s) :=
  inferInstanceAs (Decidable (∀ c, s.Resting c → 0 ≤ s.room cfg c))

/-- The resting order was not credited beyond its amount. -/
def OwnWithin (s : Executor n) : Prop :=
  ∀ c, s.Resting c → ∀ orderId ∈ (s.children c).trackedOrder,
    ∀ r ∈ s.orders.lookup orderId, r.credited ≤ r.amount

instance (s : Executor n) : Decidable (OwnWithin s) :=
  inferInstanceAs (Decidable (∀ c, s.Resting c → ∀ orderId ∈ (s.children c).trackedOrder,
    ∀ r ∈ s.orders.lookup orderId, r.credited ≤ r.amount))

theorem Fits.of_frame {cfg : Settings} {s t : Executor n} (h : Fits cfg s) (hframe : Frame s t)
    (hresting : ∀ c, t.Resting c → s.Resting c) : Fits cfg t := by
  intro c hrest
  rw [hframe.room_eq]
  exact h c (hresting c hrest)

/-! ## Which step leaves the resting order too big -/

/-- The operation leaves the order of `c` too big: a fill of another child's
current order or a completion of any other order credits more than there is to
spare, or a market order for another child takes the room of `c`. -/
def Overgrows (cfg : Settings) (s : Executor n) (c : Fin n) : Op → Prop
  | .filled event => ∃ r ∈ s.orders.lookup event.orderId,
      event.tradeId?.any (· ∈ r.tradeIds) = false ∧ s.isActive r event.orderId = true ∧
        r.child ≠ c ∧ s.spare cfg c r.child + working r < creditDelta (withFill event r)
  | .completed event => (s.children c).trackedOrder ≠ some event.orderId ∧
      ∃ r ∈ s.orders.lookup event.orderId,
        s.spare cfg c r.child + working r < creditDelta (withSummary event r)
  | .canceled _ event => ∃ r ∈ s.orders.lookup event.orderId,
      s.isActive r event.orderId = true ∧ r.child ≠ c ∧
        (s.children r.child).cancelReason = .cycleExpired ∧ cfg.positionAction = .close ∧
        (s.markTerminal event.orderId).room cfg c <
          (s.markTerminal event.orderId).room cfg r.child
  | .failed _ event => ∃ r ∈ s.orders.lookup event.orderId,
      s.isActive r event.orderId = true ∧ r.child ≠ c ∧
        ¬ (cfg.positionAction = .close ∧ isReduceOnlyRejection event = true) ∧
        (s.children r.child).status = .aggressive ∧ s.currentRetries + 1 ≤ cfg.maxRetries ∧
        (s.markTerminal event.orderId).room cfg c <
          (s.markTerminal event.orderId).room cfg r.child
  | _ => False

instance (cfg : Settings) (s : Executor n) (c : Fin n) : ∀ op, Decidable (Overgrows cfg s c op)
  | .filled event => inferInstanceAs (Decidable (∃ r ∈ s.orders.lookup event.orderId, _))
  | .completed event =>
      inferInstanceAs (Decidable (_ ∧ ∃ r ∈ s.orders.lookup event.orderId, _))
  | .canceled _ event => inferInstanceAs (Decidable (∃ r ∈ s.orders.lookup event.orderId, _))
  | .failed _ event => inferInstanceAs (Decidable (∃ r ∈ s.orders.lookup event.orderId, _))
  | .controlTask _ | .earlyStop _ _ | .evaluateMaxRetries _ => .isFalse id

/-- The operation leaves the resting order too big. -/
def Oversizes (cfg : Settings) (s : Executor n) (op : Op) : Prop :=
  ∃ c, s.Resting c ∧ Overgrows cfg s c op

instance (cfg : Settings) (s : Executor n) (op : Op) : Decidable (Oversizes cfg s op) :=
  inferInstanceAs (Decidable (∃ c, s.Resting c ∧ Overgrows cfg s c op))

section Step

variable {cfg : Settings} {call : Call} {s : Executor n} {c k : Fin n}

/-- What is shown for every resting child decides about the step. -/
theorem fits_iff_of_resting {t : Executor n} {op : Op} (hcalmer : Calmer s t)
    (hchild : ∀ c, s.Resting c → ((t.Resting c → 0 ≤ t.room cfg c) ↔ ¬ Overgrows cfg s c op)) :
    Fits cfg t ↔ ¬ Oversizes cfg s op := by
  constructor
  · rintro hfits ⟨c, hrest, hgrows⟩
    exact (hchild c hrest).mp (hfits c) hgrows
  · intro hnone c hrest
    have hbefore := hcalmer.resting hrest
    exact (hchild c hbefore).mpr (fun hgrows => hnone ⟨c, hbefore, hgrows⟩) hrest

/-- A step that changes nothing and lets nothing grow keeps what fits. -/
theorem fits_iff_of_quiet {op : Op} (hfits : Fits cfg s) (hquiet : ∀ c, ¬ Overgrows cfg s c op) :
    Fits cfg s ↔ ¬ Oversizes cfg s op :=
  iff_of_true hfits fun ⟨c, _, hgrows⟩ => hquiet c hgrows

section Known

variable {r : OrderRecord n}

theorem overgrows_filled_iff {event : OrderFilledEvent}
    (hlook : s.orders.lookup event.orderId = some r) :
    Overgrows cfg s c (.filled event) ↔ event.tradeId?.any (· ∈ r.tradeIds) = false ∧
      s.isActive r event.orderId = true ∧ r.child ≠ c ∧
        s.spare cfg c r.child + working r < creditDelta (withFill event r) := by
  simp only [Overgrows, hlook, Option.mem_some_iff, exists_eq_left']

theorem overgrows_completed_iff {event : OrderCompletedEvent}
    (hlook : s.orders.lookup event.orderId = some r) :
    Overgrows cfg s c (.completed event) ↔ (s.children c).trackedOrder ≠ some event.orderId ∧
      s.spare cfg c r.child + working r < creditDelta (withSummary event r) := by
  simp only [Overgrows, hlook, Option.mem_some_iff, exists_eq_left']

theorem overgrows_canceled_iff {event : OrderCancelledEvent}
    (hlook : s.orders.lookup event.orderId = some r) :
    Overgrows cfg s c (.canceled call event) ↔ s.isActive r event.orderId = true ∧ r.child ≠ c ∧
      (s.children r.child).cancelReason = .cycleExpired ∧ cfg.positionAction = .close ∧
        (s.markTerminal event.orderId).room cfg c <
          (s.markTerminal event.orderId).room cfg r.child := by
  simp only [Overgrows, hlook, Option.mem_some_iff, exists_eq_left']

theorem overgrows_failed_iff {event : MarketOrderFailureEvent}
    (hlook : s.orders.lookup event.orderId = some r) :
    Overgrows cfg s c (.failed call event) ↔ s.isActive r event.orderId = true ∧ r.child ≠ c ∧
      ¬ (cfg.positionAction = .close ∧ isReduceOnlyRejection event = true) ∧
        (s.children r.child).status = .aggressive ∧ s.currentRetries + 1 ≤ cfg.maxRetries ∧
          (s.markTerminal event.orderId).room cfg c <
            (s.markTerminal event.orderId).room cfg r.child := by
  simp only [Overgrows, hlook, Option.mem_some_iff, exists_eq_left']

end Known

/-! ## Fills -/

/-- A resting order is not settled. -/
theorem Executor.Tidy.resting_open (h : Tidy s) {orderId : OrderId} {r : OrderRecord n}
    (hrest : s.Resting c) (hlook : s.orders.lookup orderId = some r)
    (htracked : (s.children c).trackedOrder = some orderId) : r.terminal = false := by
  obtain rfl := h.child_eq hlook htracked
  refine Bool.eq_false_iff.mpr fun hterminal => ?_
  have hdone := (h.terminal_iff hlook htracked).mp hterminal
  rw [hrest.2.2] at hdone
  cases hdone

/-- The id of a resting order, which is not the empty one. -/
theorem Executor.Tidy.resting_order (h : Tidy s) (hnamed : s.orders.lookup "" = none)
    (hrest : s.Resting c) :
    ∃ orderId, (s.children c).trackedOrder = some orderId ∧ orderId ≠ "" := by
  obtain ⟨orderId, htracked⟩ := Option.ne_none_iff_exists'.mp ((h c).resting hrest.2.2)
  refine ⟨orderId, htracked, fun hempty => ?_⟩
  obtain ⟨r, hlook, _⟩ := (h c).record orderId htracked
  rw [hempty, hnamed] at hlook
  cases hlook

/-- A fill that is noted leaves the resting order too big exactly when it is for
another child's current order and credits more than there is to spare. -/
theorem Executor.Tidy.fits_noted_fill_iff (h : Tidy s) (hfits : Fits cfg s)
    (hnamed : s.orders.lookup "" = none) {event : OrderFilledEvent} {r : OrderRecord n}
    (hlook : s.orders.lookup event.orderId = some r)
    (hnew : event.tradeId?.any (· ∈ r.tradeIds) = false)
    (hown : OwnWithin
      (((s.noteFill event).credit event.orderId).cancelOversized cfg r event.orderId)) :
    Fits cfg (((s.noteFill event).credit event.orderId).cancelOversized cfg r event.orderId) ↔
      ¬ Oversizes cfg s (.filled event) := by
  have hnote : Calmer s (s.noteFill event) := ⟨id, rfl, fun _ => id⟩
  have hframe := (Frame.refl ((s.noteFill event).credit event.orderId)).cancelOversized cfg r
    event.orderId
  have htracked : ∀ c, (((s.noteFill event).credit event.orderId).children c).trackedOrder =
      (s.children c).trackedOrder :=
    credit_child_field _ ChildSlot.trackedOrder fun _ _ => rfl
  have hactive_iff : ((s.noteFill event).credit event.orderId).isActive r event.orderId =
      s.isActive r event.orderId := by
    simp only [isActive, htracked]
  refine fits_iff_of_resting ((hnote.credit event.orderId).cancelOversized) fun c hrest => ?_
  rw [hframe.room_eq]
  by_cases hactive : s.isActive r event.orderId = true
  · have hgrows : ¬ Overgrows cfg s c (.filled event) ↔
        (r.child ≠ c → creditDelta (withFill event r) ≤ s.spare cfg c r.child + working r) := by
      rw [overgrows_filled_iff hlook, and_iff_right hnew, and_iff_right hactive, not_and, not_lt]
    rw [cancelOversized_of_active (hactive_iff.trans hactive)] at hown ⊢
    have hcredited : ((s.noteFill event).credit event.orderId).Resting c :=
      (resting_credit_iff (s.noteFill event) event.orderId c).mpr hrest
    rw [hgrows, forall_prop_of_true hcredited]
    by_cases hsame : r.child = c
    · subst hsame
      refine ⟨fun _ hne => absurd rfl hne, fun _ => ?_⟩
      have hcurrent : (s.children r.child).trackedOrder = some event.orderId :=
        of_decide_eq_true hactive
      have hwithin := hown r.child hcredited event.orderId ((htracked r.child).trans hcurrent) _
        (s.lookup_noteFill_credit event hlook)
      rw [room_noteFill_credit_own event hlook (h.resting_open hrest hlook hcurrent) hwithin]
      exact hfits r.child hrest
    · rw [room_noteFill_credit_iff event hlook hsame (hfits c hrest)]
      exact ⟨fun hspare _ => hspare, fun hspare => hspare hsame⟩
  · obtain ⟨own, hcurrent, hne⟩ := h.resting_order hnamed hrest
    refine iff_of_true (fun hafter => ?_) fun hbig => ?_
    · exact room_nonneg_of_cancelOversized (hactive_iff ▸ hactive)
        ((htracked c).trans hcurrent) hne hafter
    · exact hactive ((overgrows_filled_iff hlook).mp hbig).2.1

theorem Executor.Tidy.fits_filled_iff (h : Tidy s) (hfits : Fits cfg s)
    (hnamed : s.orders.lookup "" = none) {event : OrderFilledEvent}
    (hown : OwnWithin (s.processOrderFilledEvent cfg event)) :
    Fits cfg (s.processOrderFilledEvent cfg event) ↔ ¬ Oversizes cfg s (.filled event) := by
  unfold Executor.processOrderFilledEvent at hown ⊢
  cases hlook : s.orders.lookup event.orderId with
  | none => exact fits_iff_of_quiet hfits fun c hbig => by simp [Overgrows, hlook] at hbig
  | some r =>
      simp only [hlook] at hown ⊢
      by_cases hreplay : event.tradeId?.any (· ∈ r.tradeIds) = true
      · rw [if_pos hreplay]
        refine fits_iff_of_quiet hfits fun c hbig => ?_
        exact Bool.false_ne_true (((overgrows_filled_iff hlook).mp hbig).1.symm.trans hreplay)
      · rw [if_neg hreplay] at hown ⊢
        exact h.fits_noted_fill_iff hfits hnamed hlook (Bool.eq_false_iff.mpr hreplay) hown

/-- The completion of another order lets the resting one rest. -/
theorem resting_completed {event : OrderCompletedEvent}
    (hother : (s.children c).trackedOrder ≠ some event.orderId) (hrest : s.Resting c) :
    (s.processOrderCompletedEvent event).Resting c := by
  unfold Executor.processOrderCompletedEvent
  split
  next => exact hrest
  next r hlook =>
    have hcredited : (((s.markTerminal event.orderId).noteSummary event).credit
        event.orderId).Resting c :=
      (resting_credit_iff ((s.markTerminal event.orderId).noteSummary event) event.orderId c).mpr
        hrest
    dsimp only
    split
    next hactive =>
      have htracked := ((SameLifecycle.summary s event).children r.child).2
      have hcurrent : (s.children r.child).trackedOrder = some event.orderId :=
        htracked.symm.trans (of_decide_eq_true hactive)
      have hne : c ≠ r.child := fun heq => hother (heq ▸ hcurrent)
      refine ⟨hcredited.1, hcredited.2.1, ?_⟩
      rw [modifyChild_children_ne _ hne]
      exact hcredited.2.2
    next => exact hcredited

/-- An order that completes rests no longer. -/
theorem Executor.Tidy.not_resting_completed (h : Tidy s) {event : OrderCompletedEvent}
    (hcurrent : (s.children c).trackedOrder = some event.orderId) :
    ¬ (s.processOrderCompletedEvent event).Resting c := by
  obtain ⟨r, hlook, rfl, _⟩ := (h c).record event.orderId hcurrent
  have htracked := ((SameLifecycle.summary s event).children r.child).2
  intro hafter
  unfold Executor.processOrderCompletedEvent at hafter
  simp only [hlook, isActive, htracked, hcurrent, decide_true, ↓reduceIte] at hafter
  have hactive := hafter.2.2
  rw [modifyChild_children_self] at hactive
  cases hactive

theorem calmer_completed (s : Executor n) (event : OrderCompletedEvent) :
    Calmer s (s.processOrderCompletedEvent event) := by
  have hsettle : Calmer s ((s.markTerminal event.orderId).noteSummary event) :=
    ⟨id, rfl, fun _ => id⟩
  unfold Executor.processOrderCompletedEvent
  split
  next => exact .refl s
  next r _ =>
    dsimp only
    split
    next => exact (hsettle.credit event.orderId).modifyChild r.child (by simp)
    next => exact hsettle.credit event.orderId

theorem Executor.Tidy.fits_completed_iff (h : Tidy s) (hfits : Fits cfg s)
    (event : OrderCompletedEvent) :
    Fits cfg (s.processOrderCompletedEvent event) ↔ ¬ Oversizes cfg s (.completed event) := by
  rcases processOrderCompletedEvent_cases s event with ⟨heq, habsent⟩ | ⟨r, hlook, hframe⟩
  · rw [heq]
    exact fits_iff_of_quiet hfits fun c hbig => by simp [Overgrows, habsent] at hbig
  · refine fits_iff_of_resting (calmer_completed s event) fun c hrest => ?_
    rw [overgrows_completed_iff hlook]
    by_cases hcurrent : (s.children c).trackedOrder = some event.orderId
    · -- the resting order itself completed
      exact iff_of_true (fun hafter => absurd hafter (h.not_resting_completed hcurrent))
        fun hbig => hbig.1 hcurrent
    · rw [forall_prop_of_true (resting_completed hcurrent hrest), hframe.room_eq,
        room_noteSummary_credit_iff event hlook (hfits c hrest), and_iff_right hcurrent, not_lt]

/-! ## Orders that cross for another child -/

theorem resting_placeAggressive (hne : c ≠ k) (hrest : s.Resting c) :
    (s.placeAggressive cfg call k).Resting c := by
  obtain ⟨hrunning, hindex, hactive⟩ := hrest
  have hidle : (s.modifyChild k fun child => { child with status := .idle }).Resting c := by
    refine ⟨hrunning, hindex, ?_⟩
    rw [modifyChild_children_ne _ hne]
    exact hactive
  unfold Executor.placeAggressive
  dsimp only
  split
  next => exact hidle
  next =>
    split
    next =>
      refine ⟨hrunning, hindex, ?_⟩
      rw [modifyChild_children_ne _ hne, modifyChild_children_ne _ hne]
      exact hactive
    next =>
      refine ⟨hrunning, hindex, ?_⟩
      rw [modifyChild_children_ne _ hne]
      simp only [submit, Function.update_of_ne hne]
      rw [modifyChild_children_ne _ hne]
      exact hactive

/-- A market order for another child leaves the resting one too big when it
takes more than the resting one's room. -/
theorem crossing_fits_iff {u : Executor n} (hframe : Frame s u) (hrest : u.Resting c)
    (hne : c ≠ k) (hroom : 0 ≤ s.room cfg c) (hfresh : u.orders.lookup call.orderId = none) :
    ((u.placeAggressive cfg call k).Resting c → 0 ≤ (u.placeAggressive cfg call k).room cfg c) ↔
      ¬ s.room cfg c < s.room cfg k := by
  rw [forall_prop_of_true (resting_placeAggressive hne hrest), not_lt]
  rw [← hframe.room_eq cfg c] at hroom ⊢
  rw [← hframe.room_eq cfg k]
  by_cases hcross : 0 < u.room cfg k
  · rw [room_placeAggressive hrest.1 hcross hfresh, sub_nonneg]
  · rw [(placeAggressive_frame fun hboth => hcross hboth.2).room_eq]
    exact iff_of_true hroom ((not_lt.mp hcross).trans hroom)

/-- Settling an order leaves the resting one its room. -/
theorem Fits.settled (hfits : Fits cfg s) (orderId : OrderId) (hrest : s.Resting c) :
    0 ≤ (s.markTerminal orderId).room cfg c :=
  (hfits c hrest).trans (room_le_markTerminal orderId c)

/-- A settled order leaves the resting one too big exactly when its child then
sends a market order for more room than the resting one has. -/
theorem fits_crossing_iff {u : Executor n} {op : Op} {orderId : OrderId} (hfits : Fits cfg s)
    (hcalmer : Calmer s u) (hframe : Frame (s.markTerminal orderId) u)
    (hkept : ∀ c, c ≠ k → s.Resting c → u.Resting c)
    (hfresh : s.orders.lookup call.orderId = none)
    (hgrows : ∀ c, Overgrows cfg s c op ↔
      k ≠ c ∧ (s.markTerminal orderId).room cfg c < (s.markTerminal orderId).room cfg k) :
    Fits cfg (u.placeAggressive cfg call k) ↔ ¬ Oversizes cfg s op := by
  refine fits_iff_of_resting hcalmer.placeAggressive fun c hrest => ?_
  by_cases hsame : c = k
  · -- the order of the resting child itself was settled
    subst hsame
    exact iff_of_true (fun hafter => absurd hafter.2.2 (placeAggressive_not_active _ _))
      fun hbig => ((hgrows c).mp hbig).1 rfl
  · have habsent : u.orders.lookup call.orderId = none := by
      rw [hframe.orders]
      exact lookup_markTerminal_of_absent orderId hfresh
    rw [crossing_fits_iff hframe (hkept c hsame hrest) hsame (hfits.settled orderId hrest)
      habsent, hgrows, and_iff_right (Ne.symm hsame)]

theorem fits_canceled_iff (hfits : Fits cfg s)
    (hfresh : s.orders.lookup call.orderId = none) (event : OrderCancelledEvent) :
    Fits cfg (s.processOrderCanceledEvent cfg call event) ↔
      ¬ Oversizes cfg s (.canceled call event) := by
  unfold Executor.processOrderCanceledEvent
  split
  next hlook => exact fits_iff_of_quiet hfits fun c hbig => by simp [Overgrows, hlook] at hbig
  next r hlook =>
    have hmark := (Calmer.refl s).markTerminal event.orderId
    dsimp only
    split
    next hretired =>
      refine fits_iff_of_resting hmark fun c hrest => ?_
      exact iff_of_true (fun _ => hfits.settled event.orderId hrest) fun hbig =>
        hretired ((overgrows_canceled_iff hlook).mp hbig).1
    next hactive =>
      have hclear : Calmer s ((s.markTerminal event.orderId).modifyChild r.child fun child =>
          { child with trackedOrder := none }) := hmark.modifyChild r.child fun hrest => hrest
      have hframe : Frame (s.markTerminal event.orderId) ((s.markTerminal
          event.orderId).modifyChild r.child fun child => { child with trackedOrder := none }) :=
        (Frame.refl _).modifyChild r.child rfl rfl
      have hreason : (((s.markTerminal event.orderId).modifyChild r.child fun child =>
          { child with trackedOrder := none }).children r.child).cancelReason =
            (s.children r.child).cancelReason := by
        rw [modifyChild_children_self]
        rfl
      split
      next hcross =>
        refine fits_crossing_iff hfits hclear hframe (fun c hne hrest => ?_) hfresh fun c => ?_
        · refine ⟨hrest.1, hrest.2.1, ?_⟩
          rw [modifyChild_children_ne _ hne]
          exact hrest.2.2
        · have hcurrent : s.isActive r event.orderId = true := not_not.mp hactive
          have hexpired : (s.children r.child).cancelReason = .cycleExpired :=
            hreason.symm.trans hcross.1
          simp only [overgrows_canceled_iff hlook, hcurrent, hexpired, hcross.2, true_and]
      next hstays =>
        have hnone : ∀ c, ¬ Overgrows cfg s c (.canceled call event) := fun c hbig => by
          obtain ⟨_, _, hexpired, hclose, _⟩ := (overgrows_canceled_iff hlook).mp hbig
          exact hstays ⟨hreason.trans hexpired, hclose⟩
        split
        next =>
          refine fits_iff_of_resting (hclear.modifyChild r.child (by simp)) fun c hrest => ?_
          rw [(hframe.modifyChild r.child rfl rfl).room_eq]
          exact iff_of_true (fun _ => hfits.settled event.orderId hrest) (hnone c)
        next =>
          refine fits_iff_of_resting (hclear.modifyChild r.child (by simp)) fun c hrest => ?_
          rw [(hframe.modifyChild r.child rfl rfl).room_eq]
          exact iff_of_true (fun _ => hfits.settled event.orderId hrest) (hnone c)

theorem fits_failed_iff (hfits : Fits cfg s) (hfresh : s.orders.lookup call.orderId = none)
    (event : MarketOrderFailureEvent) :
    Fits cfg (s.processOrderFailedEvent cfg call event) ↔
      ¬ Oversizes cfg s (.failed call event) := by
  unfold Executor.processOrderFailedEvent
  split
  next hlook => exact fits_iff_of_quiet hfits fun c hbig => by simp [Overgrows, hlook] at hbig
  next r hlook =>
    have hmark := (Calmer.refl s).markTerminal event.orderId
    dsimp only
    split
    next hretired =>
      refine fits_iff_of_resting hmark fun c hrest => ?_
      exact iff_of_true (fun _ => hfits.settled event.orderId hrest) fun hbig =>
        hretired ((overgrows_failed_iff hlook).mp hbig).1
    next hactive =>
      split
      next hsatisfied =>
        refine iff_of_true (fun c hafter => ?_) ?_
        · cases hafter.1
        · rintro ⟨c, _, hbig⟩
          exact ((overgrows_failed_iff hlook).mp hbig).2.2.1 hsatisfied
      next hunsatisfied =>
        have hback : Calmer s ((s.markTerminal event.orderId).backOff cfg call r.child) :=
          hmark.backOff
        have hframe := (Frame.refl (s.markTerminal event.orderId)).backOff cfg call r.child
        split
        next hagain =>
          refine fits_crossing_iff hfits hback hframe (fun c hne hrest => ?_) hfresh fun c => ?_
          · refine ⟨hrest.1, hrest.2.1, ?_⟩
            rw [backOff, modifyChild_children_ne _ hne]
            exact hrest.2.2
          · have hcurrent : s.isActive r event.orderId = true := not_not.mp hactive
            have haggressive : (s.children r.child).status = .aggressive := hagain.1
            have hretries : s.currentRetries + 1 ≤ cfg.maxRetries := hagain.2.2
            simp only [overgrows_failed_iff hlook, hcurrent, haggressive, hretries, true_and,
              hunsatisfied, not_false_eq_true]
        next hstays =>
          refine fits_iff_of_resting hback fun c hrest => ?_
          rw [hframe.room_eq]
          refine iff_of_true (fun _ => hfits.settled event.orderId hrest) fun hbig => ?_
          obtain ⟨_, _, _, haggressive, hretries, _⟩ := (overgrows_failed_iff hlook).mp hbig
          exact hstays ⟨haggressive, hrest.1, hretries⟩

/-! ## The tick -/

theorem fits_placeLimit (hfits : Fits cfg s) (hfresh : s.orders.lookup call.orderId = none)
    (hindex : s.activeChild = some c) : Fits cfg (s.placeLimit cfg call c) := by
  unfold Executor.placeLimit
  split
  next =>
    exact hfits.of_frame ((Frame.refl s).modifyChild c rfl rfl) fun other =>
      ((Calmer.refl s).modifyChild c fun hactive => hactive).resting
  next price _ =>
    dsimp only
    split
    next =>
      exact hfits.of_frame ((Frame.refl s).modifyChild c rfl rfl) fun other =>
        ((Calmer.refl s).modifyChild c (by simp)).resting
    next hroom =>
      intro other hrest
      -- only the current child rests, and its order takes exactly its room
      have hsame : c = other := Option.some.inj (hindex.symm.trans hrest.2.1)
      subst hsame
      have hplaced : ∀ u : Executor n, Frame u (u.modifyChild c fun child =>
          { child with status := .active, refreshStart := some call.now }) :=
        fun u => (Frame.refl u).modifyChild c rfl rfl
      rw [(hplaced _).room_eq, room_submit hfresh _ (not_le.mp hroom), sub_self]

theorem fits_stepChild (hfits : Fits cfg s) (hfresh : s.orders.lookup call.orderId = none)
    (hindex : s.activeChild = some c) : Fits cfg (s.stepChild cfg call c) := by
  have hcancel : ∀ reason, Fits cfg (s.cancelChild c reason) := fun reason =>
    hfits.of_frame ((Frame.refl s).cancelChild c reason) fun other =>
      ((Calmer.refl s).cancelChild reason).resting
  unfold Executor.stepChild
  split
  next =>
    split
    next =>
      exact hfits.of_frame ((Frame.refl s).modifyChild c rfl rfl) fun other =>
        ((Calmer.refl s).modifyChild c (by simp)).resting
    next =>
      split
      next => exact hfits
      next =>
        have hready : Fits cfg (s.modifyChild c fun child => { child with retryAt := none }) :=
          hfits.of_frame ((Frame.refl s).modifyChild c rfl rfl) fun other =>
            ((Calmer.refl s).modifyChild c fun hactive => hactive).resting
        exact fits_placeLimit hready hfresh hindex
  next =>
    split
    next => exact hcancel _
    next =>
      split
      next => exact hcancel _
      next => exact hfits
  next => exact hfits

theorem Executor.Tidy.fits_controlTask (h : Tidy s) (hfits : Fits cfg s)
    (hfresh : s.orders.lookup call.orderId = none) : Fits cfg (s.controlTask cfg call) := by
  unfold Executor.controlTask
  split
  next =>
    -- the index only moves away from children that do not rest
    have hadvance : Fits cfg s.advance := by
      refine hfits.of_frame (Frame.advance s) fun c hrest => ⟨hrest.1, ?_, hrest.2.2⟩
      have hindex := (h c).current (.inl hrest.2.2)
      have hlt : s.childIdx < n := hindex ▸ c.isLt
      rw [activeChild, dif_pos hlt]
      exact congrArg some (Fin.ext hindex.symm)
    unfold Executor.step
    dsimp only
    split
    next =>
      split
      next => exact fun c hrest => by cases hrest.1
      next => exact hadvance
    next c hindex =>
      have hstart : Fits cfg (s.advance.startCycle call c) :=
        hadvance.of_frame ((Frame.refl _).modifyChild c rfl rfl) fun other =>
          ((Calmer.refl s.advance).modifyChild c fun hactive => hactive).resting
      exact fits_stepChild hstart hfresh hindex
  next =>
    split
    next =>
      split
      next => exact hfits.of_frame ⟨rfl, rfl, fun _ => rfl, fun _ => rfl, rfl⟩ fun c hrest => hrest
      next => exact hfits
    next => exact fun c hrest => by cases hrest.1
  next => exact hfits

/-! ## Runs -/

/-- A credit of another order that leaves the resting one no room cancels it. -/
def LateCreditCancels (cfg : Settings) (s : Executor n) (op : Op) : Prop :=
  ∀ orderId ∈ op.creditedOrder?, ∀ c, s.Resting c →
    (s.children c).trackedOrder ≠ some orderId → (perform cfg s op).room cfg c < 0 →
      ((perform cfg s op).children c).status = .canceling

/-- Ids are fresh and not empty, and the resting order is not credited beyond its
amount. -/
def OwnCovered (cfg : Settings) (s : Executor n) (op : Op) : Prop :=
  FreshId s op ∧ (∀ call ∈ op.call?, call.orderId ≠ "") ∧ OwnWithin (perform cfg s op)

instance (cfg : Settings) (s : Executor n) (op : Op) : Decidable (OwnCovered cfg s op) :=
  inferInstanceAs (Decidable (FreshId s op ∧ (∀ call ∈ op.call?, call.orderId ≠ "") ∧ _))

theorem filled_status (cfg : Settings) (event : OrderFilledEvent) (hrest : s.Resting c) :
    (s.processOrderFilledEvent cfg event).Resting c ∨
      ((s.processOrderFilledEvent cfg event).children c).status = .canceling := by
  unfold Executor.processOrderFilledEvent
  split
  next => exact .inl hrest
  next r _ =>
    split
    next => exact .inl hrest
    next =>
      have hcredited : ((s.noteFill event).credit event.orderId).Resting c :=
        (resting_credit_iff (s.noteFill event) event.orderId c).mpr hrest
      unfold Executor.cancelOversized
      split
      next => exact .inl hcredited
      next current hindex =>
        obtain rfl := Option.some.inj (hindex.symm.trans hcredited.2.1)
        split
        next =>
          unfold Executor.cancelChild
          split
          next => exact .inl hcredited
          next => exact .inr (by simp)
        next => exact .inl hcredited

/-- Where the resting order fits after the step, a credit that left it no room
has cancelled it. -/
theorem lateCreditCancels_of_fits {op : Op} (hfits : Fits cfg (perform cfg s op)) :
    LateCreditCancels cfg s op := by
  intro orderId hcredited c hrest hother hnegative
  cases op with
  | filled event =>
      rcases filled_status cfg event hrest with hafter | hcanceling
      · exact absurd (hfits c hafter) (not_le.mpr hnegative)
      · exact hcanceling
  | completed event =>
      obtain rfl := Option.some.inj hcredited
      exact absurd (hfits c (resting_completed hother hrest)) (not_le.mpr hnegative)
  | controlTask call => cases hcredited
  | canceled call event => cases hcredited
  | failed call event => cases hcredited
  | earlyStop call keepPosition => cases hcredited
  | evaluateMaxRetries call => cases hcredited

theorem fits_perform_iff (h : Tidy s) (hfits : Fits cfg s) (hnamed : s.orders.lookup "" = none)
    {op : Op} (hop : OwnCovered cfg s op) :
    Fits cfg (perform cfg s op) ↔ ¬ Oversizes cfg s op := by
  obtain ⟨hfresh, _, hown⟩ := hop
  cases op with
  | filled event => exact h.fits_filled_iff hfits hnamed hown
  | completed event => exact h.fits_completed_iff hfits event
  | canceled call event => exact fits_canceled_iff hfits (hfresh.lookup rfl) event
  | failed call event => exact fits_failed_iff hfits (hfresh.lookup rfl) event
  | controlTask call =>
      exact iff_of_true (h.fits_controlTask hfits (hfresh.lookup rfl)) fun ⟨_, _, hbig⟩ => hbig
  | earlyStop call keepPosition =>
      exact iff_of_true (fun c hrest => by cases hrest.1) fun ⟨_, _, hbig⟩ => hbig
  | evaluateMaxRetries call =>
      refine iff_of_true ?_ fun ⟨_, _, hbig⟩ => hbig
      unfold perform Executor.evaluateMaxRetries
      dsimp only
      split
      next => exact fun c hrest => by cases hrest.1
      next => exact hfits

/-- Only the id of a new order gets a record. -/
theorem lookup_eq_none_of_submits {t : Executor n} (h : Submits cfg call s t)
    {orderId : OrderId} (habsent : s.orders.lookup orderId = none) (hne : call.orderId ≠ orderId) :
    t.orders.lookup orderId = none := by
  cases h with
  | none frame => rw [frame.orders, habsent]
  | one c orderType price _ frame =>
      rw [frame.orders, submit, Registry.lookup_set, if_neg (Ne.symm hne), habsent]

theorem lookup_perform_eq_none {op : Op} {orderId : OrderId}
    (habsent : s.orders.lookup orderId = none)
    (hne : ∀ call ∈ op.call?, call.orderId ≠ orderId) :
    (perform cfg s op).orders.lookup orderId = none := by
  cases op with
  | controlTask call =>
      exact lookup_eq_none_of_submits (controlTask_submits cfg call s) habsent (hne call rfl)
  | filled event =>
      rcases processOrderFilledEvent_cases cfg s event with ⟨heq, _⟩ | ⟨r, hlook, _, hframe⟩
      · rw [perform, heq, habsent]
      · have hother : orderId ≠ event.orderId := fun heq => by
          rw [heq, hlook] at habsent
          cases habsent
        rw [perform, hframe.orders, lookup_noteFill_credit_ne s event hlook hother, habsent]
  | completed event =>
      rcases processOrderCompletedEvent_cases s event with ⟨heq, _⟩ | ⟨r, hlook, hframe⟩
      · rw [perform, heq, habsent]
      · have hother : orderId ≠ event.orderId := fun heq => by
          rw [heq, hlook] at habsent
          cases habsent
        rw [perform, hframe.orders, lookup_noteSummary_credit_ne s event hlook hother, habsent]
  | canceled call event =>
      exact lookup_eq_none_of_submits (processOrderCanceledEvent_submits cfg call s event)
        (lookup_markTerminal_of_absent event.orderId habsent) (hne call rfl)
  | failed call event =>
      exact lookup_eq_none_of_submits (processOrderFailedEvent_submits cfg call s event)
        (lookup_markTerminal_of_absent event.orderId habsent) (hne call rfl)
  | earlyStop call keepPosition => exact habsent
  | evaluateMaxRetries call =>
      rw [perform, (Frame.evaluateMaxRetries cfg call s).orders, habsent]

end Step

/-- In every state reached the resting order fits, and late credits that leave it
no room cancel it, iff no step oversizes it. -/
theorem resting_order_fits_iff (cfg : Settings) (slots : List ChildSlot)
    (hslots : buildChildSlots cfg = .ok slots) (ops : List Op)
    (hops : Along (perform cfg) (OwnCovered cfg) (init slots) ops) :
    ((∀ before after, ops = before ++ after →
        Fits cfg (run (perform cfg) (init slots) before)) ∧
      Along (perform cfg) (LateCreditCancels cfg) (init slots) ops) ↔
      Along (perform cfg) (fun s op => ¬ Oversizes cfg s op) (init slots) ops := by
  have hinit : Fits cfg (init slots) := by
    intro c hrest
    have hactive : (slots.get c).status = .active := hrest.2.2
    rw [(buildChildSlots_fresh hslots (List.get_mem slots c)).1] at hactive
    cases hactive
  rw [Along.iff_reached hinit]
  have hsame : Along (perform cfg) (fun s op => Fits cfg (perform cfg s op)) (init slots) ops ↔
      Along (perform cfg) (fun s op => ¬ Oversizes cfg s op) (init slots) ops := by
    refine Along.congr_of_invariant
      (fun s => Tidy s ∧ Fits cfg s ∧ s.orders.lookup "" = none)
      (fun s op hs hop => fits_perform_iff hs.1 hs.2.1 hs.2.2 hop) (fun s op hs hop hfits => ?_)
      ⟨.init hslots, hinit, rfl⟩ hops
    exact ⟨hs.1.perform hop.1, hfits, lookup_perform_eq_none hs.2.2 hop.2.1⟩
  rw [← hsame]
  exact and_iff_left_of_imp fun hfits =>
    hfits.mono fun s op hafter => lateCreditCancels_of_fits hafter

/-- A fill of a refreshed order arrives after its replacement was placed. -/
def lateFillOversizeRun : List Op :=
  [ .controlTask { now := 0, bestBid := some 100, orderId := "first" },
    .controlTask { now := 2, bestBid := some 100, orderId := "unused" },
    .canceled { now := 3, orderId := "unused" } { orderId := "first" },
    .controlTask { now := 3, bestBid := some 100, orderId := "second" },
    .filled { orderId := "first", exchangeTradeId := some "t1", amount := 2 / 5 } ]

theorem resting_order_fits_iff_lateFill :
    (∀ before after, lateFillOversizeRun = before ++ after →
        Fits sampleConfig (run (perform sampleConfig) (init [{ target := 1 }]) before)) ∧
      Along (perform sampleConfig) (LateCreditCancels sampleConfig) (init [{ target := 1 }])
        lateFillOversizeRun :=
  (resting_order_fits_iff sampleConfig [{ target := 1 }] (by decide +kernel) lateFillOversizeRun
    (by decide +kernel)).mpr (by decide +kernel)

/-- The refreshed order is reported through its completion summary instead. -/
def lateSummaryRun : List Op :=
  [ .controlTask { now := 0, bestBid := some 100, orderId := "first" },
    .controlTask { now := 2, bestBid := some 100, orderId := "unused" },
    .canceled { now := 3, orderId := "unused" } { orderId := "first" },
    .controlTask { now := 3, bestBid := some 100, orderId := "second" },
    .completed { orderId := "first", baseAssetAmount := 2 / 5 } ]

theorem late_summary_leaves_oversized_order :
    buildChildSlots sampleConfig = .ok [{ target := 1 }] ∧
      Along (perform sampleConfig) (OwnCovered sampleConfig) (init [{ target := 1 }])
        lateSummaryRun ∧
      ¬ Fits sampleConfig (run (perform sampleConfig) (init [{ target := 1 }]) lateSummaryRun) := by
  decide +kernel

end Opms.PassiveAggressive
