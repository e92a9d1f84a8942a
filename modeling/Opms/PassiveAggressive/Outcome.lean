import Opms.PassiveAggressive.Accounting
import Opms.PassiveAggressive.Lifecycle
import Mathlib.Algebra.BigOperators.Fin
import Mathlib.Algebra.Order.BigOperators.Group.Finset
import Mathlib.Tactic.Ring

/-! # What a close type says

The slot builder hands out exactly the total, and every credit reaches the
child and the total alike. So a run ends completed only when the total is
filled, and a run that reports its time limit left some child short.
-/

namespace Opms.PassiveAggressive

open Foundation Executor

variable {n : ℕ}

/-! ## The targets of the slots -/

theorem sum_target_foldRemainder (slots : List ChildSlot) (remainder : ℚ) :
    ((foldRemainder slots remainder).map ChildSlot.target).sum =
      (slots.map ChildSlot.target).sum + remainder := by
  unfold foldRemainder
  split
  next last hlast =>
    obtain ⟨front, rfl⟩ := List.getLast?_eq_some_iff.mp hlast
    simp only [List.dropLast_concat, List.map_append, List.map_cons, List.map_nil,
      List.sum_append, List.sum_singleton]
    ring
  next hnone => simp [List.getLast?_eq_none_iff.mp hnone]

/-- The slots hand out the total exactly: the remainder is folded, not dropped. -/
theorem sum_target_buildChildSlots {cfg : Settings} {slots : List ChildSlot}
    (hslots : buildChildSlots cfg = .ok slots) (htotal : 0 < cfg.totalAmountBase) :
    (slots.map ChildSlot.target).sum = cfg.totalAmountBase := by
  unfold buildChildSlots at hslots
  dsimp only at hslots
  split at hslots
  next => cases hslots
  next hchild =>
    split at hslots
    next => cases hslots
    next =>
      have hpos : 0 < cfg.childOrderQuantity := not_le.mp hchild
      have hratio : 0 ≤ cfg.totalAmountBase / cfg.childOrderQuantity :=
        div_nonneg htotal.le hpos.le
      have hcount : decimalFloorDiv cfg.totalAmountBase cfg.childOrderQuantity =
          ⌊cfg.totalAmountBase / cfg.childOrderQuantity⌋ := if_pos hratio
      have hnonneg : 0 ≤ decimalFloorDiv cfg.totalAmountBase cfg.childOrderQuantity := by
        rw [hcount]
        exact Int.floor_nonneg.mpr hratio
      have hcast : ((decimalFloorDiv cfg.totalAmountBase cfg.childOrderQuantity).toNat : ℚ) =
          decimalFloorDiv cfg.totalAmountBase cfg.childOrderQuantity := by
        exact_mod_cast congrArg (Int.cast (R := ℚ)) (Int.toNat_of_nonneg hnonneg)
      have hsum : ((List.replicate (decimalFloorDiv cfg.totalAmountBase
            cfg.childOrderQuantity).toNat ({ target := cfg.childOrderQuantity } : ChildSlot)).map
          ChildSlot.target).sum = decimalFloorDiv cfg.totalAmountBase cfg.childOrderQuantity *
            cfg.childOrderQuantity := by
        rw [List.map_replicate, List.sum_replicate, nsmul_eq_mul, hcast]
      have hfloor : (decimalFloorDiv cfg.totalAmountBase cfg.childOrderQuantity : ℚ) *
          cfg.childOrderQuantity ≤ cfg.totalAmountBase := by
        rw [hcount, ← le_div_iff₀ hpos]
        exact Int.floor_le _
      obtain rfl := Except.ok.inj hslots
      split
      next => rw [sum_target_foldRemainder, hsum]; ring
      next hremainder =>
        rw [hsum]
        linarith

/-! ## Credits reach the child and the total -/

/-- The operation credits one child, and the total, with the same amount. -/
structure Credits (s t : Executor n) (c : Fin n) (amount : ℚ) : Prop where
  nonneg : 0 ≤ amount
  cumulative : t.cumulativeFilled = s.cumulativeFilled + amount
  filled : ∀ other, (t.children other).filled =
    (s.children other).filled + if c = other then amount else 0

/-- The filled amounts are untouched. -/
structure SameFilled (s t : Executor n) : Prop where
  cumulative : t.cumulativeFilled = s.cumulativeFilled
  filled : ∀ c, (t.children c).filled = (s.children c).filled

theorem Executor.Frame.sameFilled {s t : Executor n} (h : Frame s t) : SameFilled s t :=
  ⟨h.cumulativeFilled, h.filled⟩

theorem Executor.Submits.sameFilled {cfg : Settings} {call : Call} {s t : Executor n}
    (h : Submits cfg call s t) : SameFilled s t := by
  cases h with
  | none frame => exact frame.sameFilled
  | one c orderType price _ frame =>
      refine ⟨frame.cumulativeFilled, fun other => ?_⟩
      rw [frame.filled]
      simp only [submit, Function.update_apply]
      split
      next heq => rw [heq]
      next => rfl

theorem credit_credits (s : Executor n) {orderId : OrderId} {r : OrderRecord n}
    (hlook : s.orders.lookup orderId = some r) {t : Executor n}
    (hframe : Frame (s.credit orderId) t) :
    Credits s t r.child (gain r) :=
  ⟨gain_nonneg r, hframe.cumulativeFilled.trans (s.credit_cumulativeFilled hlook),
    fun other => (hframe.filled other).trans (s.credit_filled hlook other)⟩

theorem perform_credits (cfg : Settings) (s : Executor n) (op : Op) :
    SameFilled s (perform cfg s op) ∨ ∃ c amount, Credits s (perform cfg s op) c amount := by
  cases op with
  | controlTask call => exact .inl (controlTask_submits cfg call s).sameFilled
  | filled event =>
      rcases processOrderFilledEvent_cases cfg s event with ⟨heq, _⟩ | ⟨r, hlook, _, hframe⟩
      · exact .inl ⟨by rw [perform, heq], fun _ => by rw [perform, heq]⟩
      · have hnoted : (s.noteFill event).orders.lookup event.orderId = some (withFill event r) := by
          simp [noteFill, hlook]
        have hcredits := credit_credits _ hnoted hframe
        exact .inr ⟨_, _, hcredits.nonneg, hcredits.cumulative, hcredits.filled⟩
  | completed event =>
      rcases processOrderCompletedEvent_cases s event with ⟨heq, _⟩ | ⟨r, hlook, hframe⟩
      · exact .inl ⟨by rw [perform, heq], fun _ => by rw [perform, heq]⟩
      · have hnoted : ((s.markTerminal event.orderId).noteSummary event).orders.lookup
            event.orderId = some { withSummary event r with terminal := true } := by
          simp [noteSummary, markTerminal, hlook, withSummary]
        have hcredits := credit_credits _ hnoted hframe
        exact .inr ⟨_, _, hcredits.nonneg, hcredits.cumulative, hcredits.filled⟩
  | canceled call event =>
      have h := (processOrderCanceledEvent_submits cfg call s event).sameFilled
      exact .inl ⟨h.cumulative, h.filled⟩
  | failed call event =>
      have h := (processOrderFailedEvent_submits cfg call s event).sameFilled
      exact .inl ⟨h.cumulative, h.filled⟩
  | earlyStop call keepPosition => exact .inl (Frame.earlyStop call s keepPosition).sameFilled
  | evaluateMaxRetries call => exact .inl (Frame.evaluateMaxRetries cfg call s).sameFilled

/-- What is filled is never taken back. -/
theorem cumulativeFilled_le_perform (cfg : Settings) (s : Executor n) (op : Op) :
    s.cumulativeFilled ≤ (perform cfg s op).cumulativeFilled := by
  rcases perform_credits cfg s op with hsame | ⟨c, amount, hcredits⟩
  · exact hsame.cumulative.ge
  · rw [hcredits.cumulative]
    exact le_add_of_nonneg_right hcredits.nonneg

/-! ## The outcome of a run -/

/-- The children divide the total and what was filled of it, a stop records
its own close type, and completion means the total is filled. -/
structure Truthful (cfg : Settings) (s : Executor n) : Prop where
  targets : ∑ c, (s.children c).target = cfg.totalAmountBase
  fills : ∑ c, (s.children c).filled = s.cumulativeFilled
  stopping : s.status = .shuttingDown →
    s.closeType = some .earlyStop ∨ s.closeType = some .positionHold
  completed : s.closeType = some .completed → cfg.totalAmountBase ≤ s.cumulativeFilled

theorem Truthful.init {cfg : Settings} {slots : List ChildSlot}
    (hslots : buildChildSlots cfg = .ok slots) (htotal : 0 < cfg.totalAmountBase) :
    Truthful cfg (init slots) := by
  refine ⟨?_, ?_, (fun hstatus => by cases hstatus), fun hclose => by cases hclose⟩
  · rw [← sum_target_buildChildSlots hslots htotal]
    exact Fin.sum_univ_fun_getElem slots ChildSlot.target
  · refine Finset.sum_eq_zero fun c _ => ?_
    have hfresh := (buildChildSlots_fresh hslots (List.get_mem slots c)).1
    simp only [Executor.init]
    rw [hfresh]

theorem sum_filled_perform (cfg : Settings) (s : Executor n) (op : Op)
    (hfills : ∑ c, (s.children c).filled = s.cumulativeFilled) :
    ∑ c, ((perform cfg s op).children c).filled = (perform cfg s op).cumulativeFilled := by
  rcases perform_credits cfg s op with hsame | ⟨c, amount, hcredits⟩
  · simp only [hsame.filled, hsame.cumulative, hfills]
  · simp only [hcredits.filled, hcredits.cumulative, Finset.sum_add_distrib, hfills]
    simp

theorem finalCloseType_completed_iff (cfg : Settings) (s : Executor n) :
    s.finalCloseType cfg = .completed ↔
      s.currentRetries ≤ cfg.maxRetries ∧ cfg.totalAmountBase ≤ s.cumulativeFilled := by
  unfold finalCloseType
  split
  next hover => simp [not_le.mpr hover]
  next hwithin =>
    split
    next hfilled => simp [not_lt.mp hwithin, hfilled]
    next hshort => simp [hshort]

theorem finalCloseType_timeLimit_iff (cfg : Settings) (s : Executor n) :
    s.finalCloseType cfg = .timeLimit ↔
      s.currentRetries ≤ cfg.maxRetries ∧ s.cumulativeFilled < cfg.totalAmountBase := by
  unfold finalCloseType
  split
  next hover => simp [not_le.mpr hover]
  next hwithin =>
    split
    next hfilled => simp [not_lt.mpr hfilled]
    next hshort => simp [not_lt.mp hwithin, not_le.mp hshort]

namespace Truthful

variable {cfg : Settings} {s : Executor n} (h : Truthful cfg s) (op : Op)

include h

/-- A shutdown ends with the close type its stop request recorded. -/
theorem stop_kept (hstopping : s.status = .shuttingDown) (other : CloseType) :
    s.closeType.getD other = .earlyStop ∨ s.closeType.getD other = .positionHold := by
  rcases h.stopping hstopping with hclose | hclose
  · exact .inl (by rw [hclose]; rfl)
  · exact .inr (by rw [hclose]; rfl)

theorem perform : Truthful cfg (perform cfg s op) := by
  refine ⟨?_, sum_filled_perform cfg s op h.fills, ?_, fun hcompleted => ?_⟩
  · simp only [perform_target, h.targets]
  · cases perform_life cfg s op with
    | kept _ _ hsame => rw [hsame.status, hsame.closeType]; exact h.stopping
    | @stopped call keepPosition _ _ hclose =>
        cases keepPosition <;> simp [hclose]
    | ran _ _ _ hstatus _ => simp [hstatus]
    | drained _ _ _ hstatus _ => simp [hstatus]
    | exhausted _ _ hstatus _ => simp [hstatus]
    | rejected _ _ hstatus _ => simp [hstatus]
  · refine le_trans ?_ (cumulativeFilled_le_perform cfg s op)
    cases perform_life cfg s op with
    | kept _ _ hsame => exact h.completed (hsame.closeType.symm.trans hcompleted)
    | @stopped call keepPosition _ _ hclose =>
        cases keepPosition <;> simp [hclose] at hcompleted
    | ran _ _ _ _ hclose =>
        exact ((finalCloseType_completed_iff cfg s).mp
          (Option.some.inj (hclose.symm.trans hcompleted))).2
    | drained hstopping _ _ _ hclose =>
        rw [hclose, Option.some.injEq] at hcompleted
        rcases h.stop_kept hstopping (s.finalCloseType cfg) with hkept | hkept
        · rw [hkept] at hcompleted; cases hcompleted
        · rw [hkept] at hcompleted; cases hcompleted
    | exhausted _ _ _ hclose => rw [hclose] at hcompleted; cases hcompleted
    | rejected _ _ _ hclose => rw [hclose] at hcompleted; cases hcompleted

/-- A run that ends with its time limit left the total, and a child, short. -/
theorem short_of_timeLimit (hopen : s.status ≠ .terminated)
    (hended : (PassiveAggressive.perform cfg s op).status = .terminated)
    (hlimit : (PassiveAggressive.perform cfg s op).closeType = some .timeLimit) :
    (PassiveAggressive.perform cfg s op).cumulativeFilled < cfg.totalAmountBase := by
  cases perform_life cfg s op with
  | kept _ _ hsame => exact absurd (hsame.status.symm.trans hended) hopen
  | stopped _ hstatus _ => simp [hstatus] at hended
  | ran _ _ hframe _ hclose =>
      rw [hframe.cumulativeFilled]
      exact ((finalCloseType_timeLimit_iff cfg s).mp
        (Option.some.inj (hclose.symm.trans hlimit))).2
  | drained hstopping _ _ _ hclose =>
      rw [hclose, Option.some.injEq] at hlimit
      rcases h.stop_kept hstopping (s.finalCloseType cfg) with hkept | hkept
      · rw [hkept] at hlimit; cases hlimit
      · rw [hkept] at hlimit; cases hlimit
  | exhausted _ _ _ hclose => rw [hclose] at hlimit; cases hlimit
  | rejected _ _ _ hclose => rw [hclose] at hlimit; cases hlimit

/-- Children filled to their targets fill the total. -/
theorem total_filled (hfilled : ∀ c, (s.children c).target ≤ (s.children c).filled) :
    cfg.totalAmountBase ≤ s.cumulativeFilled := by
  rw [← h.targets, ← h.fills]
  exact Finset.sum_le_sum fun c _ => hfilled c

end Truthful

/-- At every step of every run: the targets divide the total and the children's
fills the filled amount; a completed execution filled its total; an execution
that ends with its time limit left a child short; and one that closes itself
with every child filled and retries left over closes as completed. -/
theorem close_type_truthful (cfg : Settings) {slots : List ChildSlot}
    (hslots : buildChildSlots cfg = .ok slots) (htotal : 0 < cfg.totalAmountBase)
    (ops : List Op) (op : Op) :
    let s := run (perform cfg) (init slots) ops
    let t := perform cfg s op
    (∑ c, (t.children c).target = cfg.totalAmountBase ∧
        ∑ c, (t.children c).filled = t.cumulativeFilled) ∧
      (t.status = .terminated → t.closeType = some .completed →
        cfg.totalAmountBase ≤ t.cumulativeFilled) ∧
      (s.status ≠ .terminated → t.status = .terminated → t.closeType = some .timeLimit →
        t.cumulativeFilled < cfg.totalAmountBase ∧
          ∃ c, (t.children c).filled < (t.children c).target) ∧
      (∀ call, op = .controlTask call → s.status = .running → t.status = .terminated →
        (∀ c, (s.children c).target ≤ (s.children c).filled) →
        s.currentRetries ≤ cfg.maxRetries → t.closeType = some .completed) := by
  intro s t
  have hs : Truthful cfg s := run_invariant_always (Truthful cfg) (fun s op hs => hs.perform op)
    (Truthful.init hslots htotal) ops
  have ht : Truthful cfg t := hs.perform op
  refine ⟨⟨ht.targets, ht.fills⟩, fun _ => ht.completed, fun hopen hended hlimit => ?_, ?_⟩
  · have hshort : t.cumulativeFilled < cfg.totalAmountBase :=
      hs.short_of_timeLimit op hopen hended hlimit
    refine ⟨hshort, ?_⟩
    by_contra hfilled
    push Not at hfilled
    exact absurd (ht.total_filled hfilled) (not_le.mpr hshort)
  · rintro call rfl hrunning hended hfilled hretries
    have hlife : Life cfg s t (.controlTask call) := perform_life cfg s (.controlTask call)
    cases hlife with
    | kept _ _ hsame => simp [hsame.status, hrunning] at hended
    | ran _ _ _ _ hclose =>
        rw [hclose, (finalCloseType_completed_iff cfg s).mpr ⟨hretries, hs.total_filled hfilled⟩]
    | drained hstopping _ _ _ _ => simp [hrunning] at hstopping

/-- The one child is filled by its limit order; the next tick closes the run. -/
theorem close_type_truthful_filled :
    let slots : List ChildSlot := [{ target := 1 }]
    let filling : List Op :=
      [.controlTask { now := 0, bestBid := some 10, orderId := "a" },
        .filled { orderId := "a", exchangeTradeId := some "t", amount := 1 },
        .completed { orderId := "a", baseAssetAmount := 1 }]
    let tick : Call := { now := 1, orderId := "b" }
    let closed := perform sampleConfig (run (perform sampleConfig) (init slots) filling)
      (.controlTask tick)
    closed.status = .terminated ∧ closed.closeType = some .completed ∧
      sampleConfig.totalAmountBase ≤ closed.cumulativeFilled := by
  intro slots filling tick closed
  have hslots : buildChildSlots sampleConfig = .ok slots := by decide +kernel
  have hended : closed.status = .terminated := by decide +kernel
  obtain ⟨-, hfilled, -, hcloses⟩ := close_type_truthful sampleConfig hslots
    (by decide +kernel) filling (.controlTask tick)
  have hcompleted : closed.closeType = some .completed :=
    hcloses tick rfl (by decide +kernel) hended (by decide +kernel) (by decide +kernel)
  exact ⟨hended, hcompleted, hfilled hended hcompleted⟩

end Opms.PassiveAggressive
