import Opms.PassiveAggressive.Exposure
import Opms.PassiveAggressive.Lifecycle
import Opms.PassiveAggressive.Room

/-! # What an execution may still fill

A running execution may still fill what is left of its total; a stopped one only
what its open orders have left. Together with the fills this never grows, except
by what is credited after terminal events.
-/

namespace Opms.PassiveAggressive

open Foundation

variable {n : ℕ}

namespace Executor

/-- What the fills may still grow by without a late credit. -/
def reserve (cfg : Settings) (s : Executor n) : ℚ :=
  if s.status = .running then max (cfg.totalAmountBase - s.cumulativeFilled) s.outstanding
  else s.outstanding

variable {cfg : Settings} {call : Call} {s t : Executor n} {orderId : OrderId}
  {r : OrderRecord n}

theorem outstanding_nonneg (s : Executor n) : 0 ≤ s.outstanding :=
  Registry.total_nonneg _ fun _ r _ => working_nonneg r

theorem outstanding_le_reserve (cfg : Settings) (s : Executor n) :
    s.outstanding ≤ s.reserve cfg := by
  unfold reserve
  split
  next => exact le_max_right _ _
  next => exact le_rfl

theorem reserve_nonneg (cfg : Settings) (s : Executor n) : 0 ≤ s.reserve cfg :=
  s.outstanding_nonneg.trans (s.outstanding_le_reserve cfg)

theorem total_le_of_running (cfg : Settings) (hrunning : s.status = .running) :
    cfg.totalAmountBase ≤ s.cumulativeFilled + s.reserve cfg := by
  rw [reserve, if_pos hrunning]
  linarith [le_max_left (cfg.totalAmountBase - s.cumulativeFilled) s.outstanding]

/-- It is enough to bound what is filled and open, since nothing starts running. -/
theorem add_reserve_le {charge : ℚ} (hcharge : 0 ≤ charge)
    (hstatus : t.status = .running → s.status = .running)
    (hopen : t.cumulativeFilled + t.outstanding ≤ s.cumulativeFilled + s.reserve cfg + charge) :
    t.cumulativeFilled + t.reserve cfg ≤ s.cumulativeFilled + s.reserve cfg + charge := by
  by_cases hrunning : t.status = .running
  · rw [reserve, if_pos hrunning, ← max_add_add_left]
    apply max_le
    · linarith [total_le_of_running cfg (hstatus hrunning)]
    · exact hopen
  · rw [reserve, if_neg hrunning]
    exact hopen

theorem Frame.open_eq (h : Frame s t) :
    t.cumulativeFilled + t.outstanding = s.cumulativeFilled + s.outstanding := by
  rw [h.cumulativeFilled, h.outstanding_eq]

/-- A placement takes no more than the total leaves. -/
theorem open_le_of_submits (hfresh : s.orders.lookup call.orderId = none)
    (h : Submits cfg call s t) :
    t.cumulativeFilled + t.outstanding ≤ s.cumulativeFilled + s.reserve cfg := by
  cases h with
  | none frame =>
      rw [frame.open_eq]
      linarith [s.outstanding_le_reserve cfg]
  | one c orderType price places frame =>
      have hroom : s.room cfg c ≤ cfg.totalAmountBase - s.cumulativeFilled - s.outstanding :=
        sub_le_sub_right (min_le_right _ _) _
      have hadded : (s.submit cfg call c orderType (s.room cfg c) price).outstanding =
          s.outstanding + s.room cfg c := by
        rw [outstanding_eq_working, submit, Registry.total_set_of_absent _ hfresh]
        simp [outstanding_eq_working, working, places.room_pos.le]
      rw [frame.open_eq, hadded]
      have htotal := total_le_of_running cfg places.running
      change s.cumulativeFilled + _ ≤ _
      linarith

theorem outstanding_markTerminal_le (s : Executor n) (orderId : OrderId) :
    (s.markTerminal orderId).outstanding ≤ s.outstanding := by
  cases hlook : s.orders.lookup orderId with
  | none => rw [s.markTerminal_of_absent hlook]
  | some r =>
      rw [outstanding_markTerminal hlook]
      linarith [working_nonneg r]

/-- Settling an order only releases what it had left. -/
theorem reserve_markTerminal_le (cfg : Settings) (s : Executor n) (orderId : OrderId) :
    (s.markTerminal orderId).reserve cfg ≤ s.reserve cfg := by
  have hless := s.outstanding_markTerminal_le orderId
  unfold reserve
  change (if s.status = .running then _ else _) ≤ _
  split
  next => exact max_le_max le_rfl hless
  next => exact hless

theorem open_le_of_settled (hfresh : s.orders.lookup call.orderId = none)
    (h : Submits cfg call (s.markTerminal orderId) t) :
    t.cumulativeFilled + t.outstanding ≤ s.cumulativeFilled + s.reserve cfg := by
  have hfresh' : (s.markTerminal orderId).orders.lookup call.orderId = none := by
    rw [markTerminal, Registry.lookup_modify]
    simp [hfresh]
  refine (open_le_of_submits hfresh' h).trans ?_
  change s.cumulativeFilled + _ ≤ _
  linarith [s.reserve_markTerminal_le cfg orderId]

/-! ## Credits -/

/-- A credit within the order comes out of what it has working, unless it is late. -/
theorem working_add_credit_le {extra : ℚ} (hextra : 0 ≤ extra)
    (hwithin : r.credited + extra ≤ r.amount) :
    extra + working { r with credited := r.credited + extra } ≤
      working r + if r.terminal = true then extra else 0 := by
  by_cases hterminal : r.terminal = true
  · simp [working, hterminal]
  · rw [if_neg hterminal, working_credit (Bool.eq_false_iff.mpr hterminal) hextra hwithin]
    linarith

theorem lateCredit_all {op : Op} (hop : op.creditedOrder? = some orderId)
    (hlook : s.orders.lookup orderId = some r) {r' : OrderRecord n}
    (hafter : (perform cfg s op).orders.lookup orderId = some r') :
    lateCredit cfg none s op = if r.terminal = true then r'.credited - r.credited else 0 := by
  rw [lateCredit_eq none hop hlook hafter]
  simp [covers]

/-- What a fill credits was open, or is late. -/
theorem open_le_of_filled {event : OrderFilledEvent}
    (hcredits : CreditsWithin cfg s (.filled event)) :
    0 ≤ lateCredit cfg none s (.filled event) ∧
      (perform cfg s (.filled event)).cumulativeFilled +
          (perform cfg s (.filled event)).outstanding ≤
        s.cumulativeFilled + s.outstanding + lateCredit cfg none s (.filled event) := by
  rcases processOrderFilledEvent_cases cfg s event with ⟨heq, _⟩ | ⟨r, hlook, _, hframe⟩
  · have hsame : perform cfg s (.filled event) = s := heq
    have hlate : lateCredit cfg none s (.filled event) = 0 := by
      cases hlook : s.orders.lookup event.orderId with
      | none => exact lateCredit_of_absent none rfl hlook
      | some r =>
          have hafter := hlook
          rw [← hsame] at hafter
          rw [lateCredit_all rfl hlook hafter]
          simp
    rw [hsame, hlate]
    exact ⟨le_rfl, (add_zero _).ge⟩
  · have hafter : (perform cfg s (.filled event)).orders.lookup event.orderId =
        some { withFill event r with credited := r.credited + gain (withFill event r) } := by
      rw [perform, hframe.orders]
      exact s.lookup_noteFill_credit event hlook
    have hwithin : r.credited + gain (withFill event r) ≤ r.amount := hcredits.of_lookup hafter
    have hgain := gain_nonneg (withFill event r)
    have hworking := working_add_credit_le hgain hwithin
    rw [lateCredit_all rfl hlook hafter, add_sub_cancel_left, perform, hframe.open_eq,
      credit_cumulativeFilled _ (s.lookup_noteFill event hlook),
      outstanding_noteFill_credit event hlook]
    refine ⟨by split <;> simp [hgain], ?_⟩
    change s.cumulativeFilled + _ + _ ≤ _
    linarith

/-- A completion settles its order with what it credits. -/
theorem open_le_of_completed {event : OrderCompletedEvent}
    (hcredits : CreditsWithin cfg s (.completed event)) :
    0 ≤ lateCredit cfg none s (.completed event) ∧
      (perform cfg s (.completed event)).cumulativeFilled +
          (perform cfg s (.completed event)).outstanding ≤
        s.cumulativeFilled + s.outstanding + lateCredit cfg none s (.completed event) := by
  rcases processOrderCompletedEvent_cases s event with ⟨heq, hlook⟩ | ⟨r, hlook, hframe⟩
  · have hsame : perform cfg s (.completed event) = s := heq
    rw [lateCredit_of_absent none rfl hlook, hsame]
    exact ⟨le_rfl, (add_zero _).ge⟩
  · have hafter : (perform cfg s (.completed event)).orders.lookup event.orderId =
        some { withSummary event r with
          terminal := true
          credited := r.credited + gain (withSummary event r) } := by
      rw [perform, hframe.orders]
      exact s.lookup_noteSummary_credit event hlook
    have hwithin : r.credited + gain (withSummary event r) ≤ r.amount :=
      hcredits.of_lookup hafter
    have hgain := gain_nonneg (withSummary event r)
    have hworking := working_add_credit_le hgain hwithin
    rw [lateCredit_all rfl hlook hafter, add_sub_cancel_left, perform, hframe.open_eq,
      credit_cumulativeFilled _ (s.lookup_noteSummary event hlook),
      outstanding_noteSummary_credit event hlook]
    refine ⟨by split <;> simp [hgain], ?_⟩
    change s.cumulativeFilled + gain (withSummary event r) + _ ≤ _
    linarith [working_nonneg { r with credited := r.credited + gain (withSummary event r) }]

/-! ## Operations and runs -/

theorem running_of_perform {op : Op} (hrunning : (perform cfg s op).status = .running) :
    s.status = .running := by
  cases perform_life cfg s op with
  | kept _ _ same => exact same.status.symm.trans hrunning
  | stopped _ status _ => simp [status] at hrunning
  | ran running _ _ _ _ => exact running
  | drained _ _ _ status _ => simp [status] at hrunning
  | exhausted _ _ status _ => simp [status] at hrunning
  | rejected _ _ status _ => simp [status] at hrunning

/-- What is filled and may still be filled grows by late credits only. -/
theorem add_reserve_perform_le {op : Op} (hfresh : FreshId s op)
    (hcredits : CreditsWithin cfg s op) :
    0 ≤ lateCredit cfg none s op ∧
      (perform cfg s op).cumulativeFilled + (perform cfg s op).reserve cfg ≤
        s.cumulativeFilled + s.reserve cfg + lateCredit cfg none s op := by
  have hreserve := s.outstanding_le_reserve cfg
  have huncredited : ∀ op : Op, op.creditedOrder? = none → (perform cfg s op).cumulativeFilled +
      (perform cfg s op).outstanding ≤ s.cumulativeFilled + s.reserve cfg →
      0 ≤ lateCredit cfg none s op ∧
        (perform cfg s op).cumulativeFilled + (perform cfg s op).reserve cfg ≤
          s.cumulativeFilled + s.reserve cfg + lateCredit cfg none s op := by
    intro op hop hopen
    have hlate : lateCredit cfg none s op = 0 := by simp [lateCredit, hop]
    rw [hlate]
    exact ⟨le_rfl, add_reserve_le le_rfl running_of_perform (by simpa using hopen)⟩
  cases op with
  | controlTask call =>
      exact huncredited _ rfl
        (open_le_of_submits (hfresh.lookup rfl) (controlTask_submits cfg call s))
  | filled event =>
      obtain ⟨hlate, hopen⟩ := open_le_of_filled hcredits
      exact ⟨hlate, add_reserve_le hlate running_of_perform (by linarith)⟩
  | completed event =>
      obtain ⟨hlate, hopen⟩ := open_le_of_completed hcredits
      exact ⟨hlate, add_reserve_le hlate running_of_perform (by linarith)⟩
  | canceled call event =>
      exact huncredited _ rfl (open_le_of_settled (hfresh.lookup rfl)
        (processOrderCanceledEvent_submits cfg call s event))
  | failed call event =>
      exact huncredited _ rfl (open_le_of_settled (hfresh.lookup rfl)
        (processOrderFailedEvent_submits cfg call s event))
  | earlyStop call keepPosition =>
      refine huncredited _ rfl ?_
      rw [perform, (Frame.earlyStop call s keepPosition).open_eq]
      linarith
  | evaluateMaxRetries call =>
      refine huncredited _ rfl ?_
      rw [perform, (Frame.evaluateMaxRetries cfg call s).open_eq]
      linarith

end Executor

end Opms.PassiveAggressive
