import Opms.PassiveAggressive.Accounting
import Mathlib.Algebra.Order.Group.MinMax

/-! # Room beside a resting order

How credits, settlements and placements move the room of the child whose order
rests in the book, and which steps put nothing new there.
-/

namespace Opms.PassiveAggressive

open Foundation

variable {n : ℕ}

/-- What an order without a terminal event still has working. -/
def working (r : OrderRecord n) : ℚ := if r.terminal then 0 else max (r.amount - r.credited) 0

theorem working_nonneg (r : OrderRecord n) : 0 ≤ working r := by
  unfold working
  split
  next => exact le_rfl
  next => exact le_max_right _ _

namespace Executor

/-- Running, with the current child's order in the book. -/
def Resting (s : Executor n) (c : Fin n) : Prop :=
  s.status = .running ∧ s.activeChild = some c ∧ (s.children c).status = .active

instance (s : Executor n) (c : Fin n) : Decidable (s.Resting c) :=
  inferInstanceAs (Decidable (_ ∧ _ ∧ _))

variable {cfg : Settings} {call : Call} {s t : Executor n} {c k : Fin n} {orderId : OrderId}
  {r : OrderRecord n}

theorem room_nonneg_iff : 0 ≤ s.room cfg c ↔
    (s.children c).filled + s.outstanding ≤ (s.children c).target ∧
      s.cumulativeFilled + s.outstanding ≤ cfg.totalAmountBase := by
  rw [room, sub_nonneg, le_min_iff, le_sub_iff_add_le', le_sub_iff_add_le']

/-! ## What is outstanding -/

theorem outstanding_eq_working (s : Executor n) :
    s.outstanding = s.orders.total fun _ r => working r := rfl

theorem total_working_modify {orders : Registry OrderId (OrderRecord n)}
    (hlook : orders.lookup orderId = some r) (change : OrderRecord n → OrderRecord n) :
    (orders.modify orderId change).total (fun _ r => working r) =
      (orders.total fun _ r => working r) - working r + working (change r) := by
  have hmove := Registry.total_modify orders hlook change fun _ r => working r
  linarith

theorem outstanding_markTerminal (hlook : s.orders.lookup orderId = some r) :
    (s.markTerminal orderId).outstanding = s.outstanding - working r := by
  rw [outstanding_eq_working, markTerminal, total_working_modify hlook]
  simp [outstanding_eq_working, working]

/-- Settling an order leaves no child less room. -/
theorem room_le_markTerminal (orderId : OrderId) (c : Fin n) :
    s.room cfg c ≤ (s.markTerminal orderId).room cfg c := by
  have hless : (s.markTerminal orderId).outstanding ≤ s.outstanding := by
    cases hlook : s.orders.lookup orderId with
    | none => rw [s.markTerminal_of_absent hlook]
    | some r =>
        rw [outstanding_markTerminal hlook]
        linarith [working_nonneg r]
  exact sub_le_sub_left hless _

theorem outstanding_noteFill_credit (event : OrderFilledEvent)
    (hlook : s.orders.lookup event.orderId = some r) :
    ((s.noteFill event).credit event.orderId).outstanding = s.outstanding - working r +
      working { r with credited := r.credited + gain (withFill event r) } := by
  have hnoted := s.lookup_noteFill event hlook
  have hkeep : working (withFill event r) = working r := rfl
  rw [outstanding_eq_working, credit_orders _ hnoted, total_working_modify hnoted, noteFill,
    total_working_modify hlook, hkeep, sub_add_cancel]
  rfl

theorem outstanding_noteSummary_credit (event : OrderCompletedEvent)
    (hlook : s.orders.lookup event.orderId = some r) :
    (((s.markTerminal event.orderId).noteSummary event).credit event.orderId).outstanding =
      s.outstanding - working r := by
  have hnoted := s.lookup_noteSummary event hlook
  have hmarked : (s.markTerminal event.orderId).orders.lookup event.orderId =
      some { r with terminal := true } := by
    rw [markTerminal, Registry.lookup_modify_self, hlook]
    rfl
  rw [outstanding_eq_working, credit_orders _ hnoted, total_working_modify hnoted, noteSummary,
    total_working_modify hmarked, markTerminal, total_working_modify hlook]
  simp [outstanding_eq_working, working, withSummary]

/-- Crediting an unsettled order by at most what it has working. -/
theorem working_credit (hopen : r.terminal = false) {extra : ℚ} (hextra : 0 ≤ extra)
    (hwithin : r.credited + extra ≤ r.amount) :
    working { r with credited := r.credited + extra } = working r - extra := by
  unfold working
  simp only [hopen, Bool.false_eq_true, ↓reduceIte]
  rw [max_eq_left (by linarith), max_eq_left (by linarith)]
  ring

/-- Crediting an order uses up at most the credit, and at most all that works. -/
theorem working_credit_cases (r : OrderRecord n) {extra : ℚ} (hextra : 0 ≤ extra) :
    working { r with credited := r.credited + extra } = 0 ∧ working r ≤ extra ∨
      working { r with credited := r.credited + extra } = working r - extra ∨
      r.terminal = true := by
  by_cases hterminal : r.terminal = true
  · exact .inr (.inr hterminal)
  · rcases le_total (r.credited + extra) r.amount with hwithin | hbeyond
    · exact .inr (.inl (working_credit (Bool.eq_false_iff.mpr hterminal) hextra hwithin))
    · refine .inl ⟨?_, ?_⟩
      · simp [working, hbeyond]
      · rw [working, if_neg hterminal]
        exact max_le (by linarith) hextra

/-! ## Steps that put nothing in the book -/

/-- Nothing rests that did not rest before. -/
structure Calmer (s t : Executor n) : Prop where
  status : t.status = .running → s.status = .running
  childIdx : t.childIdx = s.childIdx
  active : ∀ c, (t.children c).status = .active → (s.children c).status = .active

namespace Calmer

theorem refl (s : Executor n) : Calmer s s := ⟨id, rfl, fun _ => id⟩

theorem resting (h : Calmer s t) (hrest : t.Resting c) : s.Resting c := by
  refine ⟨h.status hrest.1, ?_, h.active c hrest.2.2⟩
  rw [← hrest.2.1, activeChild, activeChild, h.childIdx]

theorem modifyChild (h : Calmer s t) (c : Fin n) {change : ChildSlot → ChildSlot}
    (hactive : (change (t.children c)).status = .active → (t.children c).status = .active) :
    Calmer s (t.modifyChild c change) := by
  refine ⟨h.status, h.childIdx, fun other hother => h.active other ?_⟩
  by_cases heq : other = c
  · subst heq
    rw [modifyChild_children_self] at hother
    exact hactive hother
  · rwa [t.modifyChild_children_ne heq] at hother

theorem submit (h : Calmer s t) (orderType : OrderType) (amount : ℚ) (price : Option ℚ) :
    Calmer s (t.submit cfg call c orderType amount price) := by
  refine ⟨h.status, h.childIdx, fun other hother => h.active other ?_⟩
  simp only [Executor.submit, Function.update_apply] at hother
  split at hother
  next heq =>
    rw [heq]
    exact hother
  next => exact hother

theorem placeAggressive (h : Calmer s t) : Calmer s (t.placeAggressive cfg call c) := by
  have hidle : Calmer s (t.modifyChild c fun child => { child with status := .idle }) :=
    h.modifyChild c (by simp)
  unfold Executor.placeAggressive
  dsimp only
  split
  next => exact hidle
  next =>
    split
    next => exact hidle.modifyChild c (by simp)
    next => exact (hidle.submit .market _ none).modifyChild c (by simp)

theorem credit (h : Calmer s t) (orderId : OrderId) : Calmer s (t.credit orderId) := by
  refine ⟨fun hrunning => h.status ?_, ?_, fun c hactive => h.active c ?_⟩
  · rwa [credit_field t Executor.status fun _ _ _ _ => rfl] at hrunning
  · rw [credit_field t Executor.childIdx fun _ _ _ _ => rfl, h.childIdx]
  · rwa [credit_child_field t ChildSlot.status (fun _ _ => rfl) c] at hactive

theorem markTerminal (h : Calmer s t) (orderId : OrderId) : Calmer s (t.markTerminal orderId) :=
  ⟨h.status, h.childIdx, h.active⟩

theorem backOff (h : Calmer s t) : Calmer s (t.backOff cfg call c) := by
  have hcount : Calmer s { t with currentRetries := t.currentRetries + 1 } :=
    ⟨h.status, h.childIdx, h.active⟩
  unfold Executor.backOff
  exact hcount.modifyChild c (by simp)

theorem cancelChild (h : Calmer s t) (reason : CancelReason) :
    Calmer s (t.cancelChild c reason) := by
  unfold Executor.cancelChild
  split
  next => exact h
  next requested _ =>
    have hlog : Calmer s { t with cancelRequests := t.cancelRequests ++ [requested] } :=
      ⟨h.status, h.childIdx, h.active⟩
    exact hlog.modifyChild c (by simp)

theorem cancelOversized (h : Calmer s t) : Calmer s (t.cancelOversized cfg r orderId) := by
  unfold Executor.cancelOversized
  split
  next => exact h
  next =>
    split
    next => exact h.cancelChild .refresh
    next => exact h

end Calmer

theorem resting_credit_iff (s : Executor n) (orderId : OrderId) (c : Fin n) :
    (s.credit orderId).Resting c ↔ s.Resting c := by
  rw [Resting, Resting, activeChild, activeChild,
    credit_field s Executor.status fun _ _ _ _ => rfl,
    credit_child_field s ChildSlot.status (fun _ _ => rfl) c]
  simp only [credit_field s Executor.childIdx fun _ _ _ _ => rfl]

/-- A cancel request for an order with an id leaves the child canceling. -/
theorem cancelChild_status (htracked : (s.children c).trackedOrder = some orderId)
    (hnamed : orderId ≠ "") (reason : CancelReason) :
    ((s.cancelChild c reason).children c).status = .canceling := by
  have hrequest : (s.children c).trackedOrder.filter (· ≠ "") = some orderId := by
    rw [htracked, Option.filter_some, if_pos (decide_eq_true hnamed)]
  unfold cancelChild
  rw [hrequest]
  simp

theorem cancelOversized_of_active (hactive : s.isActive r orderId = true) :
    s.cancelOversized cfg r orderId = s := by
  unfold cancelOversized
  split
  next => rfl
  next =>
    split
    next hoversized => exact absurd hactive hoversized.2.1
    next => rfl

/-- A resting order that the check for another order leaves alone has room. -/
theorem room_nonneg_of_cancelOversized {own : OrderId} (hretired : ¬ s.isActive r orderId = true)
    (htracked : (s.children c).trackedOrder = some own) (hnamed : own ≠ "")
    (hrest : (s.cancelOversized cfg r orderId).Resting c) : 0 ≤ s.room cfg c := by
  have hbefore : s.Resting c := ((Calmer.refl s).cancelOversized).resting hrest
  by_contra hnegative
  have hcancel : s.cancelOversized cfg r orderId = s.cancelChild c .refresh := by
    unfold cancelOversized
    rw [hbefore.2.1]
    exact if_pos ⟨hbefore.2.2, hretired, not_le.mp hnegative⟩
  have hstatus := cancelChild_status htracked hnamed .refresh
  rw [← hcancel, hrest.2.2] at hstatus
  cases hstatus

theorem placeAggressive_not_active (s : Executor n) (c : Fin n) :
    ((s.placeAggressive cfg call c).children c).status ≠ .active := by
  unfold Executor.placeAggressive
  dsimp only
  split
  next => simp
  next =>
    split
    next => simp
    next => simp

/-! ## Submitted orders take their room -/

theorem room_submit (hfresh : s.orders.lookup call.orderId = none) (orderType : OrderType)
    {amount : ℚ} (hamount : 0 < amount) (price : Option ℚ) :
    (s.submit cfg call k orderType amount price).room cfg c = s.room cfg c - amount := by
  have houtstanding : (s.submit cfg call k orderType amount price).outstanding =
      s.outstanding + amount := by
    rw [outstanding_eq_working, submit, Registry.total_set_of_absent _ hfresh]
    simp [outstanding_eq_working, working, hamount.le]
  have htarget : ((s.submit cfg call k orderType amount price).children c).target =
      (s.children c).target := by
    simp only [submit, Function.update_apply]
    split
    next heq => rw [heq]
    next => rfl
  have hfilled : ((s.submit cfg call k orderType amount price).children c).filled =
      (s.children c).filled := by
    simp only [submit, Function.update_apply]
    split
    next heq => rw [heq]
    next => rfl
  rw [room, htarget, hfilled, houtstanding, room]
  change min _ (cfg.totalAmountBase - s.cumulativeFilled) - _ = _
  ring

theorem room_placeAggressive (hrunning : s.status = .running) (hroom : 0 < s.room cfg k)
    (hfresh : s.orders.lookup call.orderId = none) :
    (s.placeAggressive cfg call k).room cfg c = s.room cfg c - s.room cfg k := by
  have hidle : Frame s (s.modifyChild k fun child => { child with status := .idle }) :=
    (Frame.refl s).modifyChild k rfl rfl
  have hfresh' : (s.modifyChild k fun child => { child with status := .idle }).orders.lookup
    call.orderId = none := hfresh
  have hplaced : ∀ u : Executor n,
      Frame u (u.modifyChild k fun child => { child with status := .aggressive }) :=
    fun u => (Frame.refl u).modifyChild k rfl rfl
  rw [placeAggressive_of_room hrunning hroom, (hplaced _).room_eq,
    room_submit hfresh' _ hroom, hidle.room_eq]

/-! ## Room after a credit -/

/-- What a credit to an order of `k` can use without making the order of `c` too
big: the room of `c`, or what is left of the total for another child. -/
def spare (cfg : Settings) (s : Executor n) (c k : Fin n) : ℚ :=
  if k = c then s.room cfg c else cfg.totalAmountBase - s.cumulativeFilled - s.outstanding

theorem spare_nonneg (hroom : 0 ≤ s.room cfg c) : 0 ≤ s.spare cfg c k := by
  unfold spare
  split
  next => exact hroom
  next => linarith [(room_nonneg_iff.mp hroom).2]

theorem gain_le_iff {bound : ℚ} (hbound : 0 ≤ bound) : gain r ≤ bound ↔ creditDelta r ≤ bound := by
  rw [gain, max_le_iff, and_iff_left hbound]

theorem room_noteFill_credit_iff (event : OrderFilledEvent)
    (hlook : s.orders.lookup event.orderId = some r) (hother : r.child ≠ c)
    (hroom : 0 ≤ s.room cfg c) :
    0 ≤ ((s.noteFill event).credit event.orderId).room cfg c ↔
      creditDelta (withFill event r) ≤ s.spare cfg c r.child + working r := by
  have hnoted := s.lookup_noteFill event hlook
  have hworking := working_nonneg r
  have hgain := gain_nonneg (withFill event r)
  obtain ⟨hchild, htotal⟩ := room_nonneg_iff.mp hroom
  rw [← gain_le_iff (add_nonneg (spare_nonneg hroom) hworking), room_nonneg_iff,
    outstanding_noteFill_credit event hlook, credit_cumulativeFilled _ hnoted,
    credit_filled _ hnoted, credit_child_field _ ChildSlot.target (fun _ _ => rfl),
    if_neg (show (withFill event r).child ≠ c from hother), spare, if_neg hother]
  simp only [noteFill]
  -- the credit uses up the order, or part of it, or the order is settled already
  rcases working_credit_cases r hgain with ⟨hused, hless⟩ | hpart | hsettled
  · rw [hused]
    constructor
    · rintro ⟨-, hfits⟩
      linarith
    · exact fun hfits => ⟨by linarith, by linarith⟩
  · have hleft := working_nonneg { r with credited := r.credited + gain (withFill event r) }
    rw [hpart] at hleft ⊢
    exact ⟨fun _ => by linarith, fun _ => ⟨by linarith, by linarith⟩⟩
  · simp only [working, hsettled, ↓reduceIte]
    constructor
    · rintro ⟨-, hfits⟩
      linarith
    · exact fun hfits => ⟨by linarith, by linarith⟩

/-- The resting order's own fills leave its room alone. -/
theorem room_noteFill_credit_own (event : OrderFilledEvent)
    (hlook : s.orders.lookup event.orderId = some r) (hopen : r.terminal = false)
    (hwithin : r.credited + gain (withFill event r) ≤ r.amount) :
    ((s.noteFill event).credit event.orderId).room cfg r.child = s.room cfg r.child := by
  have hnoted := s.lookup_noteFill event hlook
  have hboth : min ((s.children r.child).target -
        ((s.children r.child).filled + gain (withFill event r)))
      (cfg.totalAmountBase - (s.cumulativeFilled + gain (withFill event r))) =
        min ((s.children r.child).target - (s.children r.child).filled)
          (cfg.totalAmountBase - s.cumulativeFilled) - gain (withFill event r) := by
    rw [← sub_sub, ← sub_sub, min_sub_sub_right]
  rw [room, outstanding_noteFill_credit event hlook, credit_cumulativeFilled _ hnoted,
    credit_filled _ hnoted, credit_child_field _ ChildSlot.target (fun _ _ => rfl),
    if_pos (show (withFill event r).child = r.child from rfl),
    working_credit hopen (gain_nonneg _) hwithin, room]
  simp only [noteFill]
  rw [hboth]
  ring

theorem room_noteSummary_credit_iff (event : OrderCompletedEvent)
    (hlook : s.orders.lookup event.orderId = some r) (hroom : 0 ≤ s.room cfg c) :
    0 ≤ (((s.markTerminal event.orderId).noteSummary event).credit event.orderId).room cfg c ↔
      creditDelta (withSummary event r) ≤ s.spare cfg c r.child + working r := by
  have hnoted := s.lookup_noteSummary event hlook
  have hworking := working_nonneg r
  obtain ⟨hchild, htotal⟩ := room_nonneg_iff.mp hroom
  have hgain : gain { withSummary event r with terminal := true } = gain (withSummary event r) :=
    rfl
  rw [← gain_le_iff (add_nonneg (spare_nonneg hroom) hworking), room_nonneg_iff,
    outstanding_noteSummary_credit event hlook, credit_cumulativeFilled _ hnoted,
    credit_filled _ hnoted, credit_child_field _ ChildSlot.target (fun _ _ => rfl), hgain, spare]
  change (s.children c).filled + (if r.child = c then _ else 0) + _ ≤ (s.children c).target ∧
    s.cumulativeFilled + _ + _ ≤ _ ↔ _
  generalize gain (withSummary event r) = credited
  by_cases hown : r.child = c
  · have hbound : credited ≤ s.room cfg c + working r ↔ credited + s.outstanding - working r ≤
        min ((s.children c).target - (s.children c).filled)
          (cfg.totalAmountBase - s.cumulativeFilled) := by
      rw [room]
      constructor
      · intro h
        linarith
      · intro h
        linarith
    rw [if_pos hown, if_pos hown, hbound, le_min_iff]
    exact ⟨fun h => ⟨by linarith [h.1], by linarith [h.2]⟩,
      fun h => ⟨by linarith [h.1], by linarith [h.2]⟩⟩
  · rw [if_neg hown, if_neg hown]
    constructor
    · rintro ⟨-, hfits⟩
      linarith
    · exact fun hfits => ⟨by linarith, by linarith⟩

end Executor

end Opms.PassiveAggressive
